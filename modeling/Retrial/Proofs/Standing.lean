import Retrial.Proofs.Course
import Retrial.Proofs.Ledger.Tidy

/-!
# What the ledger says of the history

Along the course of a run the ledger and the events that were reported tell the
same story. Budgets shrink by the whole reruns that were announced, the lists of
decided cases are those announced, and each case stands where its reruns and
its passing reruns put it.
-/

set_option autoImplicit false

namespace Retrial

open History

namespace Phase

@[simp] def remaining : Phase → List TestCase
  | .attempting (.rerun c _ later) => c :: later
  | .met (.rerun c _ later) _ => c :: later
  | .confirming cases => cases
  | _ => []

/-- The reruns of a case that the ledger has granted and that are not yet made. -/
@[simp] def granted (c : TestCase) : Phase → Nat
  | .attempting (.rerun d _ _) => if d = c then 1 else 0
  | _ => 0

/-- The passing reruns of a case that the ledger has not yet counted. -/
@[simp] def uncounted (c : TestCase) : Phase → Nat
  | .met (.rerun d _ _) k => if d = c ∧ k = .passed then 1 else 0
  | _ => 0

end Phase

theorem Policy.fault?_eq_none {p : Policy} : p.fault? = none ↔
    0 < p.passesNeeded ∧ (0 < p.maxRepeats → p.passesNeeded ≤ p.maxRepeats) := by
  unfold fault?
  by_cases hn : p.passesNeeded = 0
  · simp [hn]
  · by_cases hr : p.maxRepeats = 0
    · simp [hn, hr]; omega
    · simp [hn]; omega

namespace RerunReason

theorem take?_eq_some {l l' : Ledger} {reason : RerunReason} (h : reason.take? l = some l') :
    (reason.isCrash = true ∧ ∃ n, l.crashLeft = n + 1 ∧ l' = { l with crashLeft := n }) ∨
      (reason.isCrash = false ∧ ∃ n, l.executableLeft = n + 1 ∧
        l' = { l with executableLeft := n }) := by
  cases reason with
  | crashed reason =>
    by_cases ha : reason.allowsRerun = true
    · rw [take?, if_pos ha] at h
      exact Or.inl ⟨rfl, Ledger.takeCrash?_eq_some.1 h⟩
    · rw [take?, if_neg ha] at h
      simp at h
  | executableFailed code =>
    rw [take?] at h
    exact Or.inr ⟨rfl, Ledger.takeExecutable?_eq_some.1 h⟩

theorem take?_frame {l l' : Ledger} {reason : RerunReason} (h : reason.take? l = some l') :
    l' = { l with crashLeft := l'.crashLeft, executableLeft := l'.executableLeft } := by
  obtain ⟨-, n, -, rfl⟩ | ⟨-, n, -, rfl⟩ := take?_eq_some h <;> rfl

theorem standing_take? {l l' : Ledger} {reason : RerunReason} (h : reason.take? l = some l')
    (c : TestCase) : l'.standing c = l.standing c := by
  have hl := take?_frame h
  exact Ledger.standing_of_same (by rw [hl]) (by rw [hl]) c

theorem keys_take? {l l' : Ledger} {reason : RerunReason} (h : reason.take? l = some l') :
    l'.keys = l.keys := by
  have hl := take?_frame h
  exact Ledger.keys_of_same (by rw [hl])

end RerunReason

namespace Course

variable {s : Setup} {es : List Event} {l : Ledger} {φ : Phase}

theorem orderly (h : Course s es l φ) :
    l.Tidy ∧ (∀ c ∈ φ.remaining, c ∈ l.pending) ∧ φ.remaining.Nodup := by
  induction h with
  | fresh | existing => exact ⟨Ledger.tidy_start _, by simp, by simp⟩
  | @attempted es l step q o k _ _ _ ih => cases step <;> exact ih
  | passed _ ih | executableFailed _ ih | crashed _ ih | givenUp _ _ ih | settled _ ih =>
    exact ⟨ih.1, by simp, by simp⟩
  | @failed es l failures _ ih =>
    have he := Ledger.entered_beginConfirmation l failures
    exact ⟨Ledger.tidy_beginConfirmation ih.1 _, fun c hc => hc, he.pending_nodup List.nodup_nil⟩
  | @recovered es l l' c t later _ e ih =>
    obtain ⟨ht, hp, hn⟩ := ih
    have hc : c ∈ l.pending := hp c (by simp)
    refine ⟨Ledger.tidy_recordPass ht hc e, ?_, (List.nodup_cons.1 hn).2⟩
    rw [(Ledger.recordPass_eq_true e (ht.known c hc)).2]
    intro d hd
    have hne : d ≠ c := fun h => (List.nodup_cons.1 hn).1 (h ▸ hd)
    simpa [hne] using hp d (List.mem_cons_of_mem c hd)
  | @counted es l l' c t later _ e ih =>
    obtain ⟨ht, hp, hn⟩ := ih
    have hc : c ∈ l.pending := hp c (by simp)
    refine ⟨Ledger.tidy_recordPass ht hc e, ?_, hn⟩
    rw [(Ledger.recordPass_eq_false e (ht.known c hc)).2]
    exact hp
  | repeated _ _ _ ih => exact ih
  | scheduled _ e ih =>
    rw [RerunReason.take?_frame e]
    exact ⟨ih.1.of_same rfl rfl rfl rfl, by simp, by simp⟩
  | @granted es l l' c t later _ e ih =>
    obtain ⟨ht, hp, hn⟩ := ih
    refine ⟨Ledger.tidy_nextRerun? ht e, ?_, hn⟩
    rw [Ledger.nextRerun?_frame e]
    exact hp
  | @confirmed es l c later _ e ih =>
    obtain ⟨ht, hp, hn⟩ := ih
    refine ⟨Ledger.tidy_confirm ht (hp c (by simp)), ?_, (List.nodup_cons.1 hn).2⟩
    intro d hd
    have hne : d ≠ c := fun h => (List.nodup_cons.1 hn).1 (h ▸ hd)
    simpa [hne] using hp d (List.mem_cons_of_mem c hd)

theorem tidy (h : Course s es l φ) : l.Tidy := h.orderly.1

theorem head_pending {c : TestCase} {later : List TestCase} (h : Course s es l φ)
    (hr : φ.remaining = c :: later) : c ∈ l.pending :=
  h.orderly.2.1 c (hr ▸ List.mem_cons_self)

theorem head_known {c : TestCase} {later : List TestCase} (h : Course s es l φ)
    (hr : φ.remaining = c :: later) : c ∈ l.keys :=
  h.tidy.known c (h.head_pending hr)

theorem limits (h : Course s es l φ) :
    l.maxRepeats = s.policy.maxRepeats ∧ l.passesNeeded = s.policy.passesNeeded := by
  induction h with
  | fresh | existing => exact ⟨rfl, rfl⟩
  | attempted _ _ _ _ _ _ ih => exact ih
  | passed _ ih | executableFailed _ ih | crashed _ ih | repeated _ _ _ ih | givenUp _ _ ih
  | confirmed _ _ ih | settled _ ih => exact ih
  | failed _ ih => rw [(Ledger.entered_beginConfirmation _ _).frame]; exact ih
  | recovered h e ih => rw [(Ledger.recordPass_eq_true e (h.head_known rfl)).2]; exact ih
  | counted h e ih => rw [(Ledger.recordPass_eq_false e (h.head_known rfl)).2]; exact ih
  | scheduled _ e ih => rw [RerunReason.take?_frame e]; exact ih
  | granted _ e ih => rw [Ledger.nextRerun?_frame e]; exact ih

theorem budgets (h : Course s es l φ) :
    l.crashLeft + crashReruns es = s.policy.crashReruns ∧
      l.executableLeft + executableReruns es = s.policy.executableReruns := by
  induction h with
  | fresh | existing => exact ⟨rfl, rfl⟩
  | attempted _ _ _ _ _ _ ih => simpa using ih
  | passed _ ih | executableFailed _ ih | crashed _ ih | repeated _ _ _ ih | givenUp _ _ ih
  | settled _ ih => exact ih
  | failed _ ih => rw [(Ledger.entered_beginConfirmation _ _).frame]; exact ih
  | recovered h e ih =>
    rw [(Ledger.recordPass_eq_true e (h.head_known rfl)).2]
    simpa using ih
  | counted h e ih => rw [(Ledger.recordPass_eq_false e (h.head_known rfl)).2]; exact ih
  | scheduled _ e ih =>
    obtain ⟨hr, n, hn, rfl⟩ | ⟨hr, n, hn, rfl⟩ := RerunReason.take?_eq_some e <;>
      simp [hr, hn] at ih ⊢ <;> omega
  | granted _ e ih => rw [Ledger.nextRerun?_frame e]; exact ih
  | confirmed _ _ ih => simpa [Ledger.confirm] using ih

theorem decided (h : Course s es l φ) :
    l.confirmed = History.confirmed es ∧ l.recovered = History.recovered es := by
  induction h with
  | fresh | existing => exact ⟨rfl, rfl⟩
  | attempted _ _ _ _ _ _ ih => simpa using ih
  | passed _ ih | executableFailed _ ih | crashed _ ih | repeated _ _ _ ih | givenUp _ _ ih
  | settled _ ih => exact ih
  | failed _ ih => rw [(Ledger.entered_beginConfirmation _ _).frame]; exact ih
  | recovered h e ih =>
    rw [(Ledger.recordPass_eq_true e (h.head_known rfl)).2]
    simpa using ih
  | counted h e ih => rw [(Ledger.recordPass_eq_false e (h.head_known rfl)).2]; exact ih
  | scheduled _ e ih =>
    rw [RerunReason.take?_frame e]
    simpa using ih
  | granted _ e ih => rw [Ledger.nextRerun?_frame e]; exact ih
  | confirmed h _ ih =>
    have hu := h.tidy.undecided _ (h.head_pending rfl)
    simpa [Ledger.confirm, hu.2] using ih

/-- Each case stands where its reruns put it: those made and those left are its
budget, and the passes that count are those that were seen. -/
theorem standings (h : Course s es l φ) (c : TestCase) :
    (l.standing c).left + (l.standing c).reruns = s.policy.maxRepeats ∧
      (l.standing c).reruns = rerunsOf c (requests es) + φ.granted c ∧
      passes c es = (l.standing c).passes + φ.uncounted c := by
  induction h with
  | fresh | existing => simp [Ledger.standing, Ledger.progress?, Ledger.start]
  | @attempted es l step q o k _ hq _ ih =>
    have hk : q.kind = step.kind := by rw [hq]; rfl
    cases step with
    | fullRun => simpa [hk, Step.kind] using ih
    | rerun d t later =>
      by_cases hd : d = c <;> by_cases hs : k = .passed <;>
        simp [hk, Step.kind, hd, hs] at ih ⊢ <;> omega
  | passed _ ih | executableFailed _ ih | givenUp _ _ ih | settled _ ih => simpa using ih
  | @crashed es l step reason _ ih => cases step <;> simpa using ih
  | repeated _ hk _ ih => simpa [hk] using ih
  | failed _ ih =>
    rw [(Ledger.entered_beginConfirmation _ _).standing c]
    exact ih
  | @recovered es l l' d t later h e ih | @counted es l l' d t later h e ih =>
    rw [Ledger.standing_recordPass e (h.head_known rfl) c]
    by_cases hd : d = c
    · simp [hd] at ih ⊢; omega
    · simpa [hd, Ne.symm hd] using ih
  | scheduled _ e ih =>
    rw [RerunReason.standing_take? e c]
    simpa using ih
  | @granted es l l' d t later _ e ih =>
    obtain ⟨p, hp, -, hs⟩ := Ledger.standing_nextRerun? e
    rw [hs c]
    by_cases hd : d = c
    · simp [← hd, hp] at ih ⊢; omega
    · simpa [hd, Ne.symm hd] using ih
  | confirmed _ _ ih => simpa using ih

/-- No rerun is left to a confirmed case, and the recovered cases are those with
all the passes that they need. -/
theorem thresholds (h : Course s es l φ) (c : TestCase) :
    (l.standing c).passes ≤ s.policy.passesNeeded ∧
      (c ∈ l.recovered ↔ (l.standing c).passes = s.policy.passesNeeded) ∧
      (c ∈ l.confirmed → (l.standing c).left = 0) := by
  induction h with
  | fresh hv | existing _ hv =>
    have hn := (Policy.fault?_eq_none.1 hv).1
    simpa [Ledger.standing, Ledger.progress?, Ledger.start] using Nat.ne_of_lt hn
  | attempted _ _ _ _ _ _ ih => exact ih
  | passed _ ih | executableFailed _ ih | crashed _ ih | repeated _ _ _ ih | givenUp _ _ ih
  | settled _ ih => exact ih
  | @failed es l failures _ ih =>
    have he := Ledger.entered_beginConfirmation l failures
    rw [he.standing c, he.frame]
    exact ih
  | @recovered es l l' d t later h e ih =>
    have hk := h.head_known rfl
    obtain ⟨hn, hl⟩ := Ledger.recordPass_eq_true e hk
    have hu := h.tidy.undecided d (h.head_pending rfl)
    rw [Ledger.standing_recordPass e hk c, hl]
    rw [h.limits.2] at hn
    by_cases hd : c = d
    · subst hd
      -- It had not recovered before, so this pass is the last of those that it needs.
      have := mt ih.2.1.2 hu.1
      simp [hu.2]
      omega
    · simpa [hd] using ih
  | @counted es l l' d t later h e ih =>
    have hk := h.head_known rfl
    obtain ⟨hn, hl⟩ := Ledger.recordPass_eq_false e hk
    have hu := h.tidy.undecided d (h.head_pending rfl)
    rw [Ledger.standing_recordPass e hk c, hl]
    rw [h.limits.2] at hn
    by_cases hd : c = d
    · subst hd
      simp [hu]
      omega
    · simpa [hd] using ih
  | scheduled _ e ih =>
    rw [RerunReason.standing_take? e c, RerunReason.take?_frame e]
    exact ih
  | @granted es l l' d t later h e ih =>
    obtain ⟨p, hp, -, hs⟩ := Ledger.standing_nextRerun? e
    have hu := h.tidy.undecided d (h.head_pending rfl)
    rw [hs c, Ledger.nextRerun?_frame e]
    by_cases hd : c = d
    · subst hd
      simp [hp, hu] at ih ⊢
      exact ih
    · simpa [hd] using ih
  | @confirmed es l d later h e ih =>
    have hz := Ledger.left_eq_zero_of_nextRerun? e (h.head_pending rfl) (h.head_known rfl)
    refine ⟨ih.1, ih.2.1, fun hc => ?_⟩
    obtain hc | rfl := Ledger.mem_confirmed_confirm.1 hc
    · exact ih.2.2 hc
    · exact hz

end Course

end Retrial
