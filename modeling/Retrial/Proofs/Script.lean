import Mathlib.Data.List.Nodup
import Retrial.Proofs.Budget
import Retrial.Proofs.Obliging

/-!
# Reruns that follow a script

A script says of every test case which of its reruns pass, the first being
number one. Where a run follows a script and nothing crashes, the script
decides each failing case by itself: the case recovers with the last of the
passes that it needs, and is confirmed when its reruns do not contain as many.
-/

set_option autoImplicit false

namespace Retrial

open History

abbrev RerunScript := TestCase → Nat → Bool

namespace RerunScript

variable (script : RerunScript) (p : Policy) (c : TestCase)

def passes (n : Nat) : Nat := (List.range' 1 n).countP (script c)

def recovers : Bool := decide (p.passesNeeded ≤ script.passes c p.maxRepeats)

/-- The number of the rerun with the last pass that is needed, or of the last
rerun where there is no such pass. -/
def reruns : Nat :=
  ((List.range' 1 p.maxRepeats).find? fun n =>
    script c n && script.passes c n == p.passesNeeded).getD p.maxRepeats

variable {script p c}

theorem passes_succ (n : Nat) :
    script.passes c (n + 1) = script.passes c n + (if script c (n + 1) then 1 else 0) := by
  unfold passes
  rw [List.range'_concat, List.countP_append, Nat.one_mul, Nat.add_comm 1 n]
  simp [List.countP_cons]

theorem passes_mono {m n : Nat} (h : m ≤ n) : script.passes c m ≤ script.passes c n := by
  induction h with
  | refl => exact Nat.le_refl _
  | step _ ih => rw [passes_succ]; omega

theorem passes_lt {m n : Nat} (h : m < n) (hn : script c n = true) :
    script.passes c m < script.passes c n := by
  obtain ⟨k, rfl⟩ : ∃ k, n = k + 1 := ⟨n - 1, by omega⟩
  have : script.passes c m ≤ script.passes c k := passes_mono (Nat.le_of_lt_succ h)
  rw [passes_succ, if_pos hn]
  omega

theorem of_enough_passes {n : Nat} (hz : 0 < n) (hm : n ≤ p.maxRepeats) (hn : script c n = true)
    (hp : script.passes c n = p.passesNeeded) :
    script.recovers p c = true ∧ script.reruns p c = n := by
  have hf : (List.range' 1 p.maxRepeats).find? (fun n =>
      script c n && script.passes c n == p.passesNeeded) = some n := by
    rw [List.find?_range'_eq_some]
    refine ⟨by simp [hn, hp], by simp; omega, fun j _ hj => ?_⟩
    have := passes_lt hj hn
    simp
    omega
  refine ⟨decide_eq_true (hp ▸ passes_mono hm), ?_⟩
  rw [reruns, hf]
  rfl

theorem of_too_few_passes (h : script.passes c p.maxRepeats < p.passesNeeded) :
    script.recovers p c = false ∧ script.reruns p c = p.maxRepeats := by
  have hf : (List.range' 1 p.maxRepeats).find? (fun n =>
      script c n && script.passes c n == p.passesNeeded) = none := by
    rw [List.find?_eq_none]
    intro n hn
    have hm : n ≤ p.maxRepeats := by simp at hn; omega
    have : script.passes c n ≤ script.passes c p.maxRepeats := passes_mono hm
    simp
    omega
  refine ⟨decide_eq_false (Nat.not_le.2 h), ?_⟩
  rw [reruns, hf]
  rfl

end RerunScript

def Classification.isFailure : Classification → Bool
  | .functionsFailed _ => true
  | .executableFailed _ => true
  | _ => false

namespace History

/-- The first results of the reruns of each case are those that a script gives them. -/
def Obeys (script : RerunScript) (es : List Event) : Prop :=
  ∀ c i k, (rerunResults c es)[i]? = some k →
    if script c (i + 1) then k = .passed else k.isFailure = true

theorem Obeys.of_append {script : RerunScript} {es es' : List Event}
    (h : Obeys script (es ++ es')) : Obeys script es := by
  intro c i k hk
  have hi : i < (rerunResults c es).length := (List.getElem?_eq_some_iff.1 hk).1
  refine h c i k ?_
  rw [rerunResults_append, List.getElem?_append_left hi]
  exact hk

theorem count_passed (f : Nat → Bool) (first : Nat) (ks : List Classification)
    (h : ∀ i k, ks[i]? = some k → if f (first + i) then k = .passed else k.isFailure = true) :
    ks.count .passed = (List.range' first ks.length).countP f := by
  induction ks generalizing first with
  | nil => rfl
  | cons k ks ih =>
    have hk := h 0 k rfl
    have hks := ih (first + 1) fun i k' hi => by
      have := h (i + 1) k' hi
      rwa [Nat.add_comm i 1, ← Nat.add_assoc] at this
    rw [List.count_cons, hks, List.length_cons, List.range'_succ, List.countP_cons]
    cases hf : f first with
    | true =>
      obtain rfl : k = .passed := by simpa [hf] using hk
      simp
    | false =>
      have hne : k ≠ .passed := by
        rintro rfl
        simp [hf, Classification.isFailure] at hk
      simp [hne]

theorem Obeys.passes_eq {script : RerunScript} {es : List Event} (h : Obeys script es)
    (c : TestCase) : passes c es = script.passes c (rerunResults c es).length := by
  rw [passes_eq_count]
  exact count_passed (script c) 1 _ fun i k hk => by
    rw [Nat.add_comm 1 i]
    exact h c i k hk

end History

namespace Phase

theorem granted_eq_zero {φ : Phase} {c : TestCase} (h : c ∉ φ.remaining) : φ.granted c = 0 := by
  cases φ with
  | attempting step =>
    cases step with
    | fullRun => rfl
    | rerun d t later =>
      have hne : d ≠ c := fun e => h (by simp [e])
      simp [hne]
  | met step k => rfl
  | confirming cs => rfl
  | wanting reason => rfl
  | closed v => rfl

theorem uncounted_eq_zero {φ : Phase} {c : TestCase} (h : c ∉ φ.remaining) :
    φ.uncounted c = 0 := by
  cases φ with
  | met step k =>
    cases step with
    | fullRun => rfl
    | rerun d t later =>
      have hne : d ≠ c := fun e => h (by simp [e])
      simp [hne]
  | attempting step => rfl
  | confirming cs => rfl
  | wanting reason => rfl
  | closed v => rfl

end Phase

namespace Course

variable {s : Setup} {es : List Event} {l : Ledger} {φ : Phase} {c : TestCase}

theorem length_rerunResults (h : Course s es l φ) (c : TestCase) :
    (rerunResults c es).length = rerunsOf c (requests es) := by
  induction h with
  | fresh | existing => rfl
  | @attempted es l step q o k _ _ _ ih =>
    cases hq : q.kind.isRerunOf c <;> simp [ih, hq] <;> simp [rerunResults, hq]
  | recovered _ _ ih | scheduled _ _ ih | confirmed _ _ ih => simpa [rerunResults] using ih
  | passed _ ih | failed _ ih | executableFailed _ ih | crashed _ ih | counted _ _ ih
  | repeated _ _ _ ih | givenUp _ _ ih | granted _ _ ih | settled _ ih => exact ih

theorem decided_not_remaining (h : Course s es l φ) (hc : c ∈ l.recovered ∨ c ∈ l.confirmed) :
    c ∉ φ.remaining := by
  intro hr
  have hu := h.tidy.undecided c (h.orderly.2.1 c hr)
  exact hc.elim hu.1 hu.2

/-- A rerun that was just met is the last of its case. -/
theorem getLast_rerunResults {t : Ticket} {later : List TestCase} {k : Classification}
    (h : Course s es l (.met (.rerun c t later) k)) :
    (rerunResults c es).getLast? = some k := by
  obtain ⟨w, hw, hk, hs | ⟨-, hs, -⟩⟩ := h.follows
  · obtain ⟨ws, hw⟩ := List.getLast?_eq_some_iff.1 hw
    unfold rerunResults
    rw [hw]
    simp [hs, hk, Step.kind]
  · cases hs

theorem last_passed (h : Course s es l φ) :
    ∀ c ∈ l.recovered, (rerunResults c es).getLast? = some .passed := by
  induction h with
  | fresh | existing => simp [Ledger.start]
  | @attempted es l step q o k h hq _ ih =>
    intro c hc
    -- A recovered case is not the one at hand, so the attempt is not of it.
    have hn : q.kind.isRerunOf c = false := by
      have hr := h.decided_not_remaining (Or.inl hc)
      rw [hq]
      cases step with
      | fullRun => rfl
      | rerun d t later => simpa [Setup.request, Step.kind] using fun e => hr (by simp [e])
    have hx : rerunResults c [.attemptStarted q, .attemptFinished q o k] = [] := by
      simp [rerunResults, hn]
    rw [rerunResults_append, hx, List.append_nil]
    exact ih c hc
  | failed _ ih => rw [(Ledger.entered_beginConfirmation _ _).frame]; exact ih
  | @recovered es l l' d t later h e ih =>
    rw [(Ledger.recordPass_eq_true e (h.head_known rfl)).2]
    intro c hc
    have hx : rerunResults c [.recovered d t.rerun] = [] := rfl
    rw [rerunResults_append, hx, List.append_nil]
    obtain hc | rfl : c ∈ l.recovered ∨ c = d := by simpa using hc
    · exact ih c hc
    · exact h.getLast_rerunResults
  | counted h e ih => rw [(Ledger.recordPass_eq_false e (h.head_known rfl)).2]; exact ih
  | scheduled _ e ih =>
    rw [RerunReason.take?_frame e]
    simpa [rerunResults] using ih
  | granted _ e ih => rw [Ledger.nextRerun?_frame e]; exact ih
  | confirmed _ _ ih => simpa [rerunResults] using ih
  | passed _ ih | executableFailed _ ih | crashed _ ih | repeated _ _ _ ih | givenUp _ _ ih
  | settled _ ih => exact ih

theorem passes_of_decided {script : RerunScript} (h : Course s es l φ) (ho : Obeys script es)
    (hc : c ∈ l.recovered ∨ c ∈ l.confirmed) :
    script.passes c (rerunsOf c (requests es)) = (l.standing c).passes ∧
      (l.standing c).left + rerunsOf c (requests es) = s.policy.maxRepeats := by
  have hr := h.decided_not_remaining hc
  have hg := Phase.granted_eq_zero hr
  have hu := Phase.uncounted_eq_zero hr
  obtain ⟨hl, hn, hp⟩ := h.standings c
  rw [ho.passes_eq c, h.length_rerunResults c] at hp
  omega

/-- A case that has recovered did so with the last of the passes that it needs. -/
theorem script_of_recovered {script : RerunScript} (h : Course s es l φ) (ho : Obeys script es)
    (hc : c ∈ l.recovered) : script.recovers s.policy c = true ∧
      rerunsOf c (requests es) = script.reruns s.policy c := by
  obtain ⟨hp, hl⟩ := h.passes_of_decided ho (Or.inl hc)
  rw [(h.thresholds c).2.1.1 hc] at hp
  have hn := h.length_rerunResults c
  have hk := h.last_passed c hc
  have hz : 0 < (rerunResults c es).length :=
    List.length_pos_of_mem (List.mem_of_getLast? hk)
  rw [List.getLast?_eq_getElem?] at hk
  have hs : script c (rerunsOf c (requests es)) = true := by
    have := ho c _ _ hk
    rw [Nat.sub_add_cancel hz, hn] at this
    simpa [Classification.isFailure] using this
  obtain ⟨hv, hi⟩ := RerunScript.of_enough_passes (hn ▸ hz) (by omega) hs hp
  exact ⟨hv, hi.symm⟩

theorem script_of_confirmed {script : RerunScript} (h : Course s es l φ) (ho : Obeys script es)
    (hc : c ∈ l.confirmed) : script.recovers s.policy c = false ∧
      rerunsOf c (requests es) = script.reruns s.policy c := by
  obtain ⟨hp, hl⟩ := h.passes_of_decided ho (Or.inr hc)
  obtain ⟨hle, hr, hz⟩ := h.thresholds c
  rw [hz hc, Nat.zero_add] at hl
  have hne := mt hr.2 fun hc' => h.tidy.apart c hc' hc
  have hlt : script.passes c s.policy.maxRepeats < s.policy.passesNeeded := by
    rw [← hl, hp]
    omega
  obtain ⟨hv, hi⟩ := RerunScript.of_too_few_passes hlt
  exact ⟨hv, hl.trans hi.symm⟩

end Course

/-- A run that nothing keeps from its end, whose first result is a list of
failures, and whose reruns show what a script gives them. -/
structure Scripted {Memory : Type} (s : Setup) (x : Executor Memory) (files : Files)
    (memory : Memory) (script : RerunScript) (failures : List TestCase) : Prop where
  obliging : ∃ able, Obliging s x able ∧
    ∀ files', s.makeLogDirectory files = .ok files' → able 0 files' memory
  first : ∃ w, (wholeResults (supervise s x .willing files memory).events).head? = some w ∧
    w.classification = .functionsFailed failures
  obeys : Obeys script (supervise s x .willing files memory).events

end Retrial
