import Retrial.Proofs.Ledger.Effects
import Retrial.Proofs.Verdict
import Retrial.Proofs.Obliging

/-!
# Larger crash budgets

A whole rerun after a crash is the only thing that is paid out of the crash
budget. So a run with more of it goes exactly as the run with less went, up to
the crash that the smaller budget could not meet, and only there it goes on.
-/

set_option autoImplicit false

namespace Retrial

open History

namespace Ledger

def grant (l : Ledger) (m : Nat) : Ledger := { l with crashLeft := l.crashLeft + m }

variable (l : Ledger) (m : Nat) (c : TestCase)

theorem progress?_grant : (l.grant m).progress? c = l.progress? c := rfl

theorem nextRerun?_grant :
    (l.grant m).nextRerun? c = (l.nextRerun? c).map fun p => (p.1, p.2.grant m) := by
  unfold nextRerun?
  rw [progress?_grant]
  change (if l.pending.contains c then _ else _) = _
  by_cases hp : l.pending.contains c = true
  · rw [if_pos hp, if_pos hp]
    rcases l.progress? c with _ | ⟨_ | left, reruns, passes⟩ <;> rfl
  · rw [if_neg hp, if_neg hp]
    rfl

theorem recordPass_grant :
    (l.grant m).recordPass c = ((l.recordPass c).1, (l.recordPass c).2.grant m) := by
  unfold recordPass
  rw [progress?_grant]
  cases l.progress? c with
  | none => rfl
  | some p =>
    change (if l.passesNeeded ≤ p.passes + 1 then _ else _) = _
    by_cases hp : l.passesNeeded ≤ p.passes + 1
    · rw [if_pos hp]
      simp only [if_pos hp]
      rfl
    · rw [if_neg hp]
      simp only [if_neg hp]
      rfl

theorem enter_grant : (l.grant m).enter c = (l.enter c).grant m := by
  unfold enter
  change (if (l.isDecided c || l.pending.contains c) = true then _ else _) = _
  split <;> rfl

theorem beginConfirmation_grant (failures : List TestCase) :
    (l.grant m).beginConfirmation failures = (l.beginConfirmation failures).grant m := by
  have h : ∀ l : Ledger, failures.foldl enter (l.grant m) = (failures.foldl enter l).grant m := by
    induction failures with
    | nil => exact fun _ => rfl
    | cons c failures ih =>
      intro l
      rw [List.foldl_cons, enter_grant, ih, List.foldl_cons]
  exact h { l with pending := [] }

theorem executableLeft_grant : (l.grant m).executableLeft = l.executableLeft := rfl

theorem takeExecutable?_grant :
    (l.grant m).takeExecutable? = l.takeExecutable?.map (·.grant m) := by
  cases ht : l.takeExecutable? with
  | none =>
    rw [takeExecutable?_eq_none] at ht
    exact takeExecutable?_eq_none.2 ((executableLeft_grant l m).trans ht)
  | some l' =>
    obtain ⟨n, hn, rfl⟩ := takeExecutable?_eq_some.1 ht
    exact takeExecutable?_eq_some.2 ⟨n, hn, rfl⟩

theorem start_crashReruns (p : Policy) {n : Nat} (h : p.crashReruns ≤ n) :
    start { p with crashReruns := n } = (start p).grant (n - p.crashReruns) := by
  simp only [start, grant, Nat.add_sub_cancel' h]
  rfl

theorem takeCrash?_grant {l l' : Ledger} (h : l.takeCrash? = some l') (m : Nat) :
    (l.grant m).takeCrash? = some (l'.grant m) := by
  obtain ⟨n, hn, rfl⟩ := takeCrash?_eq_some.1 h
  refine takeCrash?_eq_some.2 ⟨n + m, ?_, rfl⟩
  rw [grant, hn, Nat.add_right_comm]

end Ledger

namespace Decision

variable (l : Ledger) (m : Nat)

/-- The same is done next, and of the ledgers the second has more for crashes left. -/
def Grants (m : Nat) (d d' : Decision) : Prop := d'.ledger = d.ledger.grant m ∧ d'.next = d.next

theorem confirmFrom_grant (cs : List TestCase) :
    Grants m (confirmFrom l cs) (confirmFrom (l.grant m) cs) := by
  induction cs generalizing l with
  | nil => exact ⟨rfl, rfl⟩
  | cons c later ih =>
    unfold confirmFrom
    rw [Ledger.nextRerun?_grant]
    cases l.nextRerun? c with
    | some p => exact ⟨rfl, rfl⟩
    | none => exact ih (l.confirm c)

/-- A result that the ledger has no whole rerun left for, though one could recover it. -/
def Exhausts (l : Ledger) (k : Classification) : Prop :=
  ∃ reason, k = .crashed reason ∧ reason.allowsRerun = true ∧ l.crashLeft = 0

theorem afterCrash_grant {reason : CrashReason} (h : ¬ Exhausts l (.crashed reason)) :
    Grants m (afterCrash l reason) (afterCrash (l.grant m) reason) := by
  unfold afterCrash
  by_cases ha : reason.allowsRerun = true
  · rw [if_pos ha, if_pos ha]
    cases ht : l.takeCrash? with
    | none => exact absurd ⟨reason, rfl, ha, Ledger.takeCrash?_eq_none.1 ht⟩ h
    | some l' =>
      rw [Ledger.takeCrash?_grant ht]
      exact ⟨rfl, rfl⟩
  · rw [if_neg ha, if_neg ha]
    exact ⟨rfl, rfl⟩

theorem afterFullRun_grant {k : Classification} (h : ¬ Exhausts l k) :
    Grants m (afterFullRun l k) (afterFullRun (l.grant m) k) := by
  cases k with
  | passed => exact ⟨rfl, rfl⟩
  | crashed reason => exact afterCrash_grant l m h
  | executableFailed code =>
    simp only [afterFullRun, Ledger.takeExecutable?_grant]
    cases l.takeExecutable? <;> exact ⟨rfl, rfl⟩
  | functionsFailed failures =>
    simp only [afterFullRun, Ledger.beginConfirmation_grant]
    exact confirmFrom_grant _ m _

theorem afterRerun_grant {c : TestCase} {ticket : Ticket} {later : List TestCase}
    {k : Classification} (h : ¬ Exhausts l k) :
    Grants m (afterRerun l c ticket later k) (afterRerun (l.grant m) c ticket later k) := by
  cases k with
  | functionsFailed | executableFailed => exact confirmFrom_grant l m (c :: later)
  | crashed reason => exact afterCrash_grant l m h
  | passed =>
    simp only [afterRerun, Ledger.recordPass_grant]
    obtain ⟨recovers, l'⟩ := l.recordPass c
    cases recovers with
    | true => exact confirmFrom_grant l' m later
    | false => exact confirmFrom_grant l' m (c :: later)

theorem after_grant (step : Step) {k : Classification} (h : ¬ Exhausts l k) :
    Grants m (after l step k) (after (l.grant m) step k) := by
  cases step with
  | fullRun => exact afterFullRun_grant l m h
  | rerun c ticket later => exact afterRerun_grant l m h

theorem after_exhausts (step : Step) {k : Classification} (h : Exhausts l k) :
    after l step k = ⟨[], l, .stop .crash⟩ := by
  obtain ⟨reason, rfl, ha, hl⟩ := h
  have hc : afterCrash l reason = ⟨[], l, .stop .crash⟩ := by
    rw [afterCrash, if_pos ha, Ledger.takeCrash?_eq_none.2 hl]
  cases step <;> exact hc

end Decision

namespace Run

/-- The last thing that a run saw was a crash that a whole rerun might have
recovered, and it ended with that. -/
def EndsInCrash (r : Run) : Prop :=
  (∃ sm, r.ending = .summary sm ∧ sm.verdict = .crash) ∧
    ∃ w reason, (showings r.events).getLast? = some w ∧ w.classification = .crashed reason ∧
      reason.allowsRerun = true

/-- A run is the same as another, or it was given up in a crash that could have
been met and the other goes on. -/
inductive Prolongs (r r' : Run) : Prop
  | same : r'.requests = r.requests → r'.ending = r.ending → r'.files = r.files → Prolongs r r'
  | longer : r.requests <+: r'.requests → r.EndsInCrash → Prolongs r r'

variable {r r' : Run}

theorem EndsInCrash.heard (h : r.EndsInCrash) (es : List Event) : (r.heard es).EndsInCrash := by
  obtain ⟨hs, w, reason, hw, hk⟩ := h
  refine ⟨hs, w, reason, ?_, hk⟩
  simp only [showings, heard_events, read_append] at hw ⊢
  rw [List.getLast?_append, hw]
  rfl

theorem Prolongs.heard (h : r.Prolongs r') (es es' : List Event) :
    (r.heard es).Prolongs (r'.heard es') := by
  cases h with
  | same hq he hf => exact .same hq he hf
  | longer hq hc => exact .longer hq (hc.heard es)

theorem Prolongs.carriedOut (h : r.Prolongs r') (q : Request) :
    (r.carriedOut q).Prolongs (r'.carriedOut q) := by
  cases h with
  | same hq he hf => exact .same (congrArg (q :: ·) hq) he hf
  | longer hq hc => exact .longer (List.cons_prefix_cons.2 ⟨rfl, hq⟩) hc

end Run

variable {Memory : Type} {s : Setup} {x : Executor Memory} {t t' : Tally} {l : Ledger}
  {files : Files} {memory : Memory}

theorem attemptOnce_willing {kind : AttemptKind} (ha : t'.attempts = t.attempts) :
    attemptOnce s x .willing t' kind files memory =
      attemptOnce s x .willing t kind files memory := by
  simp only [attemptOnce, Listener.willing, ha]

theorem endsInCrash_of_exhausts (step : Step) {k : Classification} (h : Decision.Exhausts l k)
    (q : Request) (o : Outcome) (files : Files) (memory : Memory) :
    let d := Decision.after l step k
    let r := ((proceed s x .willing t d.ledger d.next files memory).carriedOut q).heard
      ([.attemptStarted q, .attemptFinished q o k] ++ d.events)
    r.requests = [q] ∧ r.EndsInCrash := by
  rw [Decision.after_exhausts l step h]
  dsimp only
  rw [proceed]
  obtain ⟨reason, rfl, ha, -⟩ := h
  exact ⟨rfl, ⟨_, rfl, rfl⟩, ⟨some q.kind, .crashed reason⟩, reason, rfl, rfl, ha⟩

/-- By induction on the run with the smaller budget: the ledgers differ in what is
left for crashes alone, until a crash comes that the smaller one cannot meet. -/
theorem proceed_grant {next : Next} (m : Nat) (ha : t'.attempts = t.attempts)
    (hf : t'.fullRuns = t.fullRuns) :
    (proceed s x .willing t l next files memory).Prolongs
      (proceed s x .willing t' (l.grant m) next files memory) := by
  fun_induction proceed s x .willing t l next files memory generalizing t'
  case case1 t l files memory v =>
    rw [proceed]
    simp only [conclude, Listener.willing, ha, hf]
    exact .same rfl rfl rfl
  case case2 hr =>
    rw [proceed_stopped ((attemptOnce_willing ha).trans hr)]
    exact .same rfl rfl rfl
  case case3 hp =>
    rw [publish_willing] at hp
    cases hp
  case case4 t l files memory step es q k files' memory' hd d heard hp ih =>
    obtain rfl : d.events = heard := by
      rw [publish_willing] at hp
      exact (Prod.mk.inj hp).1
    rw [proceed_done ((attemptOnce_willing ha).trans hd), publish_willing]
    -- Here the runs part if ever: only a crash that cannot be met asks for the budget.
    by_cases he : Decision.Exhausts l k
    · obtain ⟨rfl, o, -, rfl⟩ := attemptOnce_done hd
      obtain ⟨hq, hc⟩ := endsInCrash_of_exhausts (s := s) (x := x)
        (t := t.after step (2 + d.events.length)) step he (s.request (t.attempts + 1) step.kind) o
          files' memory'
      refine .longer ?_ hc
      rw [hq]
      exact List.cons_prefix_cons.2 ⟨rfl, List.nil_prefix⟩
    · obtain ⟨hl, hn⟩ := Decision.after_grant l m step he
      rw [hl, hn]
      refine ((ih ?_ ?_).carriedOut q).heard _ _
      · simp [Tally.after, ha]
      · simp [Tally.after, hf]

def Setup.withCrashReruns (s : Setup) (n : Nat) : Setup :=
  { s with policy := { s.policy with crashReruns := n } }

theorem Setup.resembles_withCrashReruns (s : Setup) (n : Nat) :
    s.Resembles (s.withCrashReruns n) := ⟨rfl, rfl, rfl⟩

theorem begin_grant {n : Nat} (h : s.policy.crashReruns ≤ n) :
    (begin s x .willing files memory).Prolongs
      (begin (s.withCrashReruns n) x .willing files memory) := by
  have hl : Ledger.start (s.withCrashReruns n).policy =
      (Ledger.start s.policy).grant (n - s.policy.crashReruns) := Ledger.start_crashReruns _ h
  have he : (s.withCrashReruns n).existingLog = s.existingLog := rfl
  unfold begin
  dsimp only
  rw [hl, he]
  cases s.existingLog with
  | none =>
    dsimp only
    rw [proceed_congr (s.resembles_withCrashReruns n)]
    exact proceed_grant _ rfl rfl
  | some path =>
    dsimp only
    cases Log.load files path with
    | error fault => exact .same rfl rfl rfl
    | ok log =>
      have hk : (s.withCrashReruns n).classifyExisting log = s.classifyExisting log := rfl
      simp only [publish_willing, hk, proceed_congr (s.resembles_withCrashReruns n)]
      generalize s.classifyExisting log = k
      by_cases hx : Decision.Exhausts (.start s.policy) k
      · have hd : Decision.afterFullRun (.start s.policy) k = ⟨[], .start s.policy, .stop .crash⟩ :=
          Decision.after_exhausts (.start s.policy) .fullRun hx
        obtain ⟨reason, rfl, ha, -⟩ := hx
        rw [hd, proceed]
        exact .longer List.nil_prefix
          ⟨⟨_, rfl, rfl⟩, ⟨none, .crashed reason⟩, reason, rfl, rfl, ha⟩
      · obtain ⟨hg, hn⟩ := Decision.afterFullRun_grant (.start s.policy)
          (n - s.policy.crashReruns) hx
        rw [hg, hn]
        refine Run.Prolongs.heard (proceed_grant _ ?_ ?_) _ _ <;> rfl

theorem supervise_grant {n : Nat} (h : s.policy.crashReruns ≤ n) :
    (supervise s x .willing files memory).Prolongs
      (supervise (s.withCrashReruns n) x .willing files memory) := by
  have hv : (s.withCrashReruns n).policy.fault? = s.policy.fault? := rfl
  have hd : (s.withCrashReruns n).makeLogDirectory files = s.makeLogDirectory files := rfl
  unfold supervise
  rw [hv, hd]
  cases s.policy.fault? with
  | some fault => exact .same rfl rfl rfl
  | none =>
    cases s.makeLogDirectory files with
    | error fault => exact .same rfl rfl rfl
    | ok ready => exact (begin_grant h).heard _ _

/-- A larger crash budget prolongs only the runs that end in a crash. Whatever the
executor answers, the requests of the run with the smaller budget are the first of
those with the larger one; and unless it ends in a crash that a whole rerun might
have recovered, the two are one run. -/
theorem crash_budget_prolongs {n : Nat} (h : s.policy.crashReruns ≤ n) :
    let r := supervise s x .willing files memory
    let r' := supervise (s.withCrashReruns n) x .willing files memory
    r.requests <+: r'.requests ∧
      ((∀ sm, r.ending = .summary sm → sm.verdict = .crash →
          ∃ w function, (showings r.events).getLast? = some w ∧
            w.classification = .crashed (.noRerunFailure function)) →
        r'.requests = r.requests ∧ r'.ending = r.ending ∧ r'.files = r.files) := by
  intro r r'
  have hp : r.Prolongs r' := supervise_grant h
  cases hp with
  | same hq he hf => exact ⟨hq ▸ List.prefix_rfl, fun _ => ⟨hq, he, hf⟩⟩
  | longer hq hc =>
    refine ⟨hq, fun hn => ?_⟩
    obtain ⟨⟨sm, he, hv⟩, w, reason, hw, hk, ha⟩ := hc
    obtain ⟨w', function, hw', hk'⟩ := hn sm he hv
    cases hw.symm.trans hw'
    cases hk.symm.trans hk'
    cases ha

namespace Rehearsal

def enduring (n : Nat) : Setup := (setup .standard).withCrashReruns n

def enduringRun (n : Nat) : Run :=
  supervise (enduring n) (functions ⟨0⟩) .willing .empty (shaky ["fail", "pass"])

end Rehearsal

open Rehearsal in
/-- Without a whole rerun the run ends in its first crash, and with one it goes on
from there; more of them it does not need. -/
theorem crash_budget_prolongs_shaky :
    (enduringRun 0).requests <+: (enduringRun 1).requests ∧
      (enduringRun 0).requests.length < (enduringRun 1).requests.length ∧
      (enduringRun 2).requests = (enduringRun 1).requests ∧
      (enduringRun 2).ending = (enduringRun 1).ending := by
  have he : (enduringRun 1).ending =
      .summary ⟨.pass, 6, 2, [], [⟨"a", none⟩, ⟨"b", none⟩], ⟨0⟩⟩ := ending_shaky
  have hc : ∀ sm, (enduringRun 1).ending = .summary sm → sm.verdict ≠ .crash := by
    intro sm hs
    cases he.symm.trans hs
    decide
  have hq : (enduringRun 0).requests <+: (enduringRun 1).requests :=
    (crash_budget_prolongs (s := enduring 0) (Nat.zero_le 1)).1
  have hsame : (enduringRun 2).requests = (enduringRun 1).requests ∧
      (enduringRun 2).ending = (enduringRun 1).ending ∧
        (enduringRun 2).files = (enduringRun 1).files :=
    (crash_budget_prolongs (s := enduring 1) (Nat.le_succ 1)).2
      fun sm hs hv => absurd hv (hc sm hs)
  have hlt : (enduringRun 0).requests.length < (enduringRun 1).requests.length := by
    rw [enduringRun, enduringRun,
      supervise_within 6 rfl rfl (Setup.makeLogDirectory_here rfl rfl) rfl,
      supervise_within 6 rfl rfl (Setup.makeLogDirectory_here rfl rfl) rfl]
    decide +kernel
  exact ⟨hq, hlt, hsame.1, hsame.2.1⟩

end Retrial
