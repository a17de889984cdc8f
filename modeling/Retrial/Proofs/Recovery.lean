import Retrial.Proofs.Calls
import Retrial.Proofs.ExistingLog

/-!
# Recovered cases

A rerun counts for the case that it was made for when the attempt as a whole is
classified as passed. Then nothing failed in it; but its log need not name the
case. So the passes of a recovered case are of two sorts: reruns whose log shows
the function of the case without a failure, and reruns whose log never mentions
it. Only the first sort shows that the case passed.
-/

set_option autoImplicit false

namespace Retrial

open History

namespace TestLog

def mentions (log : TestLog) (function : String) : Bool :=
  log.functions.any fun f => f.name == function

def clears (log : TestLog) (c : TestCase) : Bool :=
  log.mentions c.function && !log.failures.contains c

end TestLog

namespace Finish

def clears (c : TestCase) (w : Finish) : Bool := w.outcome.log.log?.any (·.clears c)

/-- A rerun that counts as a pass of a case though its log has no result for it. -/
def isSilent (c : TestCase) (w : Finish) : Bool :=
  w.classification == .passed && !w.outcome.log.log?.any (·.mentions c.function)

end Finish

def rerunFinishes (c : TestCase) (es : List Event) : List Finish :=
  (finishes es).filter (·.request.kind.isRerunOf c)

theorem passes_eq_countP (c : TestCase) (es : List Event) :
    passes c es = (rerunFinishes c es).countP (·.classification == .passed) := by
  rw [rerunFinishes, List.countP_filter]
  induction es with
  | nil => rfl
  | cons e es ih =>
    have hp : passes c (e :: es) = (e.showing?.toList.countP fun w =>
        w.kind.any (·.isRerunOf c) && w.classification == .passed) + passes c es := by simp
    have hf : (finishes (e :: es)).countP (fun w =>
        w.classification == .passed && w.request.kind.isRerunOf c) =
          (e.finish?.toList.countP fun w =>
            w.classification == .passed && w.request.kind.isRerunOf c) +
          (finishes es).countP fun w =>
            w.classification == .passed && w.request.kind.isRerunOf c := by simp
    rw [hp, hf, ih]
    congr 1
    cases e with
    | attemptFinished q o k => simp [List.countP_cons, Bool.and_comm]
    | _ => rfl

theorem failures_of_passed {noRerun : List String} {code : Int} {log : TestLog}
    (h : classifyLog noRerun code log = .passed) : log.failures = [] := by
  unfold classifyLog at h
  split at h
  · cases h
  · split at h
    · cases h
    · dsimp only at h
      split at h
      · cases h
      · split at h
        · cases h
        · by_cases hf : log.failures.isEmpty = true
          · exact List.isEmpty_iff.1 hf
          · rw [if_neg hf] at h
            cases h

theorem parsed_of_passed {noRerun : List String} {exit : Exit} {log : LogState}
    (h : classify noRerun exit log = .passed) (hl : log ≠ .notExpected) :
    ∃ parsed, log = .parsed parsed ∧ parsed.functions ≠ [] ∧ parsed.failures = [] := by
  have hc : Conclusive noRerun exit log := classify_conclusive (by simp [h]) (by simp [h])
  obtain ⟨code, rfl, ⟨hn, -⟩ | ⟨parsed, rfl, hp⟩⟩ := hc
  · exact absurd hn hl
  · exact ⟨parsed, rfl, hp.inhabited, failures_of_passed h⟩

namespace Finish

variable {c : TestCase} {w : Finish}

theorem clears_or_silent (hp : w.classification = .passed)
    (hl : ∃ log, w.outcome.log = .parsed log ∧ log.functions ≠ [] ∧ log.failures = []) :
    w.clears c = !w.isSilent c := by
  obtain ⟨log, hx, -, hf⟩ := hl
  simp [clears, isSilent, hp, hx, LogState.log?, TestLog.clears, hf]

end Finish

variable {Memory : Type} {s : Setup} {x : Executor Memory} {listen : Listener}
  {files : Files} {memory : Memory} {sm : Summary} {c : TestCase}

theorem classification_of_finish {w : Finish}
    (h : w ∈ finishes (supervise s x listen files memory).events) :
    w.classification = s.classify w.outcome.exit w.outcome.log := by
  obtain ⟨start, calls, last, -, ht⟩ := @told_supervise Memory s x listen files memory
  exact (ht.finishes w h).1

/-- What lies behind a recovery: the passing reruns are those that clear the case
and those that are silent on it, and nothing failed in any of them. Where none is
silent, the case really passed as often as it had to. -/
structure Recovers (p : Policy) (c : TestCase) (reruns : List Finish) : Prop where
  counted : reruns.countP (fun w => w.classification == .passed && w.clears c) +
    reruns.countP (·.isSilent c) = p.passesNeeded
  harmless : ∀ w ∈ reruns, w.classification = .passed →
    ∃ log, w.outcome.log = .parsed log ∧ log.functions ≠ [] ∧ log.failures = []
  vocal : (∀ w ∈ reruns, w.isSilent c = false) → p.passesNeeded ≤ reruns.countP (·.clears c)

theorem countP_passed {reruns : List Finish} (h : ∀ w ∈ reruns, w.classification = .passed →
      ∃ log, w.outcome.log = .parsed log ∧ log.functions ≠ [] ∧ log.failures = []) :
    reruns.countP (·.classification == .passed) =
      reruns.countP (fun w => w.classification == .passed && w.clears c) +
        reruns.countP (·.isSilent c) := by
  induction reruns with
  | nil => rfl
  | cons w reruns ih =>
    rw [List.countP_cons, List.countP_cons, List.countP_cons,
      ih fun w hw => h w (List.mem_cons_of_mem _ hw)]
    by_cases hp : w.classification = .passed
    · have hc : w.clears c = !w.isSilent c := Finish.clears_or_silent hp (h w List.mem_cons_self hp)
      cases hs : w.isSilent c <;> simp [hp, hc, hs] <;> omega
    · have hs : w.isSilent c = false := by simp [Finish.isSilent, hp]
      simp [hp, hs]

/-- The passes of a recovered case are reruns in which nothing failed. Those that
have no result for the case are no evidence; the others show that it passed. -/
theorem recovered_case_passed (h : (supervise s x listen files memory).ending = .summary sm)
    (hl : ∀ w ∈ finishes (supervise s x listen files memory).events, w.outcome.log ≠ .notExpected)
    (hc : c ∈ sm.recovered) :
    0 < s.policy.passesNeeded ∧
      Recovers s.policy c (rerunFinishes c (supervise s x listen files memory).events) := by
  obtain ⟨es, l, hcourse, hs, he⟩ := course_of_summary h
  have hr : c ∈ l.recovered := by
    rw [hs] at hc
    exact hc
  have hharmless : ∀ w ∈ rerunFinishes c (supervise s x listen files memory).events,
      w.classification = .passed →
        ∃ log, w.outcome.log = .parsed log ∧ log.functions ≠ [] ∧ log.failures = [] := by
    intro w hw hp
    have hm := (List.mem_filter.1 hw).1
    rw [classification_of_finish hm] at hp
    exact parsed_of_passed hp (hl w hm)
  have hpasses : passes c (supervise s x listen files memory).events = s.policy.passesNeeded := by
    rw [he]
    simpa using hcourse.passes_of_recovered hr
  rw [passes_eq_countP, countP_passed hharmless] at hpasses
  apply And.intro (Policy.fault?_eq_none.1 hcourse.valid).1
  constructor
  case counted => exact hpasses
  case harmless => exact hharmless
  case vocal =>
    intro hv
    have hz : (rerunFinishes c (supervise s x listen files memory).events).countP (·.isSilent c) =
        0 := List.countP_eq_zero.2 fun w hw => by simp [hv w hw]
    rw [← hpasses, hz, Nat.add_zero]
    apply List.countP_mono_left
    intro w _ hw
    exact (Bool.and_eq_true_iff.1 hw).2

namespace Rehearsal

def strayLog : TestLog := ⟨none, [⟨"b", [⟨.pass, none, none, none, none⟩], [], none⟩]⟩

def failsThen (log : TestLog) : Executor Nat :=
  .reading (fun n => .ok (if n = 0 then failedRun else ⟨.exited 0, .parsed log, [], ⟨5⟩⟩))
    (fun _ files _ => files) fun _ => ⟨0⟩

def rerunTwice : Setup := setup { Policy.standard with maxRepeats := 2 }

end Rehearsal

theorem recovered_case_passed_in_rerun :
    0 < (rerunFinishes ⟨"a", none⟩ (supervise Rehearsal.rerunTwice
      (Rehearsal.failsThen Rehearsal.passedLog) .willing .empty 0).events).countP
        (·.clears ⟨"a", none⟩) := by
  have hrun : supervise Rehearsal.rerunTwice (Rehearsal.failsThen Rehearsal.passedLog) .willing
      .empty 0 = _ := supervise_within 2 rfl rfl (Setup.makeLogDirectory_here rfl rfl) rfl
  have he : (supervise Rehearsal.rerunTwice (Rehearsal.failsThen Rehearsal.passedLog) .willing
      .empty 0).ending = .summary ⟨.pass, 2, 1, [], [⟨"a", none⟩], ⟨0⟩⟩ := by
    rw [hrun]
    rfl
  have hl : (finishes (supervise Rehearsal.rerunTwice (Rehearsal.failsThen Rehearsal.passedLog)
      .willing .empty 0).events).all (fun w => w.outcome.log != .notExpected) = true := by
    rw [hrun]
    rfl
  have hv : (rerunFinishes ⟨"a", none⟩ (supervise Rehearsal.rerunTwice
      (Rehearsal.failsThen Rehearsal.passedLog) .willing .empty 0).events).all
        (fun w => !w.isSilent ⟨"a", none⟩) = true := by
    rw [hrun]
    rfl
  have hr := recovered_case_passed he (fun w hw => by simpa using List.all_eq_true.1 hl w hw)
    List.mem_cons_self
  exact Nat.lt_of_lt_of_le hr.1
    (hr.2.vocal fun w hw => by simpa using List.all_eq_true.1 hv w hw)

/-- A case recovers by a rerun that leaves a log in which it never ran. -/
theorem stray_rerun_recovers :
    (supervise Rehearsal.rerunTwice (Rehearsal.failsThen Rehearsal.strayLog) .willing
      .empty 0).ending = .summary ⟨.pass, 2, 1, [], [⟨"a", none⟩], ⟨0⟩⟩ ∧
    (∀ w ∈ finishes (supervise Rehearsal.rerunTwice (Rehearsal.failsThen Rehearsal.strayLog)
      .willing .empty 0).events, w.outcome.log.log?.isSome = true) ∧
    (rerunFinishes ⟨"a", none⟩ (supervise Rehearsal.rerunTwice
      (Rehearsal.failsThen Rehearsal.strayLog) .willing .empty 0).events).countP
        (·.clears ⟨"a", none⟩) < Rehearsal.rerunTwice.policy.passesNeeded := by
  have hn : (proceedWithin Rehearsal.rerunTwice (Rehearsal.failsThen Rehearsal.strayLog) .willing 2
      ⟨0, 0, 1⟩ (.start Rehearsal.rerunTwice.policy) (.attempt .fullRun) .empty 0).isSome = true := rfl
  rw [supervise_within 2 rfl rfl (Setup.makeLogDirectory_here rfl rfl) hn]
  exact ⟨rfl, List.all_eq_true.1 rfl, Nat.zero_lt_one⟩

end Retrial
