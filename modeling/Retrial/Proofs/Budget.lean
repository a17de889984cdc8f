import Mathlib.Algebra.BigOperators.Group.Finset.Piecewise
import Mathlib.Algebra.Order.BigOperators.Group.Finset
import Retrial.Proofs.Verdict

/-!
# How much a run can do

Whole reruns are announced, and each full run but the first answers to one. A
case has the reruns of its budget for the whole run, however often the binary
is run again. So the attempts of a run are bounded by what the policy allows
and by the failing cases that the binary has reported.
-/

set_option autoImplicit false

namespace Retrial

open History

/-- A rerun is of some test case: over cases that are all that were rerun, the
reruns and the full runs make up the attempts. -/
theorem length_eq_fullRuns_add_sum {cases : Finset TestCase} {qs : List Request}
    (h : ∀ c, c ∉ cases → rerunsOf c qs = 0) :
    qs.length = fullRuns qs + ∑ c ∈ cases, rerunsOf c qs := by
  induction qs with
  | nil => simp
  | cons q qs ih =>
    have hqs : ∀ c, c ∉ cases → rerunsOf c qs = 0 := fun c hc =>
      Nat.eq_zero_of_le_zero (h c hc ▸ (List.sublist_cons_self q qs).countP_le)
    have hih := ih hqs
    simp only [fullRuns, rerunsOf, List.countP_cons, List.length_cons,
      Finset.sum_add_distrib] at hih ⊢
    cases hk : q.kind with
    | fullRun => simp; omega
    | rerun d t =>
      have hd : d ∈ cases := by
        by_contra hd
        simpa [hk] using h d hd
      simp [hd]
      omega

namespace Phase

@[simp] def fullRunDue : Phase → Nat
  | .attempting .fullRun => 1
  | _ => 0

end Phase

namespace Ledger

theorem rerunsOf_eq_zero {l : Ledger} {c : TestCase} (h : c ∉ l.keys) : l.rerunsOf c = 0 := by
  have hn : l.progress? c = none := by
    simpa using mt isSome_progress?_iff.1 h
  unfold rerunsOf
  rw [hn]

end Ledger

namespace Course

variable {s : Setup} {es : List Event} {l : Ledger} {φ : Phase}

/-- There is one full run for each whole rerun that was announced, and a first
one where no log was there before. -/
theorem fullRuns_eq (h : Course s es l φ) : fullRuns (requests es) + φ.fullRunDue =
    crashReruns es + executableReruns es + (if s.existingLog = none then 1 else 0) := by
  induction h with
  | fresh _ he | existing _ _ he => simp [he]
  | @attempted es l step q o k _ hq _ ih =>
    have hk : q.kind = step.kind := by rw [hq]; rfl
    cases step <;> simp [hk, Step.kind] at ih ⊢ <;> omega
  | @scheduled es l l' reason _ _ ih =>
    cases hr : reason.isCrash <;> simp [hr] at ih ⊢ <;> omega
  | recovered _ _ ih | confirmed _ _ ih => simpa using ih
  | passed _ ih | failed _ ih | executableFailed _ ih | crashed _ ih | counted _ _ ih
  | repeated _ _ _ ih | givenUp _ _ ih | granted _ _ ih | settled _ ih => simpa using ih

theorem keys_reported (h : Course s es l φ) : ∀ c ∈ l.keys, c ∈ reported es := by
  induction h with
  | fresh | existing => simp [Ledger.keys, Ledger.start]
  | attempted q o k _ _ _ ih =>
    intro c hc
    simpa using Or.inl (by simpa using ih c hc)
  | @failed es l failures h ih =>
    have he := Ledger.entered_beginConfirmation l failures
    -- The result just met is the last of the whole binary, so its failures were reported.
    obtain ⟨w, hw, hf⟩ := h.answers
    intro c hc
    obtain hk | ⟨hp, -⟩ := (he.keys c).1 hc
    · exact ih c hk
    · have hx : c ∈ failures := (((he.pending c).1 hp).resolve_left List.not_mem_nil).1
      exact List.mem_flatMap.2 ⟨w, List.mem_of_getLast? hw, by rw [hf]; exact hx⟩
  | recovered h e ih =>
    rw [Ledger.keys_recordPass e (h.head_known rfl)]
    simpa using ih
  | counted h e ih => rw [Ledger.keys_recordPass e (h.head_known rfl)]; exact ih
  | scheduled _ e ih =>
    rw [RerunReason.keys_take? e]
    simpa using ih
  | granted h e ih => rw [Ledger.keys_nextRerun? e (h.head_known rfl)]; exact ih
  | confirmed _ _ ih => simpa using ih
  | passed _ ih | executableFailed _ ih | crashed _ ih | repeated _ _ _ ih | givenUp _ _ ih
  | settled _ ih => exact ih

theorem rerunsOf_ledger (h : Course s es l φ) (c : TestCase) :
    l.rerunsOf c = rerunsOf c (requests es) + φ.granted c := by
  rw [Ledger.rerunsOf_eq_standing]
  exact (h.standings c).2.1

theorem rerunsOf_le (h : Course s es l φ) (c : TestCase) :
    rerunsOf c (requests es) + φ.granted c ≤ s.policy.maxRepeats := by
  have := h.standings c
  omega

theorem rerunsOf_eq_zero {c : TestCase} (h : Course s es l φ) (hc : c ∉ reported es) :
    rerunsOf c (requests es) = 0 := by
  have hl := h.rerunsOf_ledger c
  rw [Ledger.rerunsOf_eq_zero (mt (h.keys_reported c) hc)] at hl
  omega

theorem length_requests (h : Course s es l φ) : (requests es).length =
    fullRuns (requests es) + ∑ c ∈ (reported es).toFinset, rerunsOf c (requests es) :=
  length_eq_fullRuns_add_sum fun _ hc => h.rerunsOf_eq_zero (mt List.mem_toFinset.2 hc)

theorem length_requests_le (h : Course s es l φ) : (requests es).length ≤
    fullRuns (requests es) + s.policy.maxRepeats * (reported es).toFinset.card := by
  calc (requests es).length
    _ = fullRuns (requests es) + ∑ c ∈ (reported es).toFinset, rerunsOf c (requests es) :=
      h.length_requests
    _ ≤ fullRuns (requests es) + ∑ _c ∈ (reported es).toFinset, s.policy.maxRepeats :=
      Nat.add_le_add_left (Finset.sum_le_sum fun c _ =>
        (Nat.le_add_right _ _).trans (h.rerunsOf_le c)) _
    _ = fullRuns (requests es) + s.policy.maxRepeats * (reported es).toFinset.card := by
      rw [Finset.sum_const_nat fun _ _ => rfl, Nat.mul_comm]

end Course

theorem History.mem_reported_append {c : TestCase} {es es' : List Event} :
    c ∈ reported (es ++ es') ↔ c ∈ reported es ∨ c ∈ reported es' := by
  simp

/-- The attempts of a run that has ended are those of a course. An attempt that
was cut short is told as one that timed out, which reports no failing case. -/
theorem Concluded.course {s : Setup} {es : List Event} {ending : Ending}
    (h : Concluded s es ending) :
    requests es = [] ∨ ∃ es' l φ, Course s es' l φ ∧ requests es = requests es' ∧
      ∀ c ∈ reported es', c ∈ reported es := by
  cases h with
  | @summarised es l v elapsed hc =>
    exact Or.inr ⟨es, l, _, hc, by simp, fun c hx => mem_reported_append.2 (Or.inl hx)⟩
  | @interrupted es tail l φ f hc ht =>
    right
    obtain ht | ⟨step, rfl, ht⟩ := ht
    · exact ⟨es, l, φ, hc, by simp [ht], fun c hx => mem_reported_append.2 (Or.inl hx)⟩
    · have ha := hc.attempted _ ⟨.timedOut, .missing, [], ⟨0⟩⟩ (.crashed .timedOut) rfl rfl
      refine ⟨_, l, _, ha, by simp [ht], fun c hx => mem_reported_append.2 (Or.inl ?_)⟩
      refine (mem_reported_append.1 hx).resolve_right ?_
      cases step <;> simp [Setup.request, Step.kind, Classification.failures]
  | unstarted f hr => exact Or.inl hr

theorem Concluded.within_budgets {s : Setup} {es : List Event} {ending : Ending}
    (h : Concluded s es ending) :
    fullRuns (requests es) ≤ s.policy.crashReruns + s.policy.executableReruns +
        (if s.existingLog = none then 1 else 0) ∧
      (∀ c, rerunsOf c (requests es) ≤ s.policy.maxRepeats) ∧
      (requests es).length ≤
        fullRuns (requests es) + s.policy.maxRepeats * (reported es).toFinset.card := by
  obtain hn | ⟨es', l, φ, hc, hr, hs⟩ := h.course
  · simp [hn]
  · rw [hr]
    refine ⟨?_, fun c => ?_, hc.length_requests_le.trans ?_⟩
    · have := hc.fullRuns_eq
      have := hc.budgets
      omega
    · have := hc.rerunsOf_le c
      omega
    · refine Nat.add_le_add_left (Nat.mul_le_mul_left _ (Finset.card_le_card fun c => ?_)) _
      simpa only [List.mem_toFinset] using hs c

variable {Memory : Type}

/-- Every run keeps to its budgets, whatever the executor answers, and a summary
counts each attempt as a full run or as a rerun of a case that was reported. -/
theorem attempts_within_budgets (s : Setup) (x : Executor Memory) (listen : Listener)
    (files : Files) (memory : Memory) :
    let r := supervise s x listen files memory
    fullRuns r.requests ≤ s.policy.crashReruns + s.policy.executableReruns +
        (if s.existingLog = none then 1 else 0) ∧
      (∀ c, rerunsOf c r.requests ≤ s.policy.maxRepeats) ∧
      r.requests.length ≤
        fullRuns r.requests + s.policy.maxRepeats * (reported r.events).toFinset.card ∧
      ∀ sm, r.ending = .summary sm →
        sm.attempts = r.requests.length ∧ sm.fullRuns = fullRuns r.requests ∧
        ∃ es l, Course s es l (.closed sm.verdict) ∧
          r.events = es ++ [.finished sm.verdict l.confirmed l.recovered sm.attempts sm.elapsed] ∧
          (∀ c, l.rerunsOf c = rerunsOf c r.requests) ∧
          sm.attempts = sm.fullRuns + ∑ c ∈ (reported r.events).toFinset, l.rerunsOf c := by
  intro r
  have hq : r.requests = requests r.events := supervise_requests
  have he : Concluded s r.events r.ending := concluded_supervise s x listen files memory
  rw [hq]
  obtain ⟨hf, hc, hl⟩ := he.within_budgets
  refine ⟨hf, hc, hl, fun sm h => ?_⟩
  obtain ⟨es, l, hc, hs, hx⟩ := course_of_summary h
  have hr : requests r.events = requests es := by rw [hx]; simp
  have hp : reported r.events = reported es := by rw [hx]; simp
  have hl : ∀ c, l.rerunsOf c = rerunsOf c (requests es) := hc.rerunsOf_ledger
  have ha : sm.attempts = (requests es).length := by rw [hs]
  have hf : sm.fullRuns = fullRuns (requests es) := by rw [hs]
  rw [hr, hp]
  refine ⟨ha, hf, es, l, hc, ha ▸ hx, hl, ?_⟩
  rw [ha, hf, hc.length_requests]
  exact congrArg _ (Finset.sum_congr rfl fun c _ => (hl c).symm)

theorem attempts_within_budgets_after_crash :
    let r := supervise (Rehearsal.setup .standard) (Rehearsal.functions ⟨0⟩) .willing .empty
      (Rehearsal.shaky ["fail", "pass"])
    r.requests.length = 6 ∧ fullRuns r.requests = 2 ∧
      ∃ l : Ledger, 6 = 2 + ∑ c ∈ (reported r.events).toFinset, l.rerunsOf c := by
  intro r
  obtain ⟨-, -, -, h⟩ := attempts_within_budgets (Rehearsal.setup .standard)
    (Rehearsal.functions ⟨0⟩) .willing .empty (Rehearsal.shaky ["fail", "pass"])
  obtain ⟨ha, hf, -, l, -, -, -, hl⟩ :=
    h _ Rehearsal.ending_shaky
  exact ⟨ha.symm, hf.symm, l, hl⟩

end Retrial
