import Retrial.Proofs.ExistingLog
import Retrial.Proofs.Script

/-!
# Runs that cannot be told apart

Of all that an attempt brings to light, its output, its duration, its exit code
and its log, the decisions of a run see very little. Two attempts are alike when
they differ only in what no decision looks at; for a rerun that is more than for
a full run, since its failures are not read. Two runs of one setup whose answers
are alike make the same requests and come to the same end.
-/

set_option autoImplicit false

namespace Retrial

open History

namespace Classification

inductive AlikeWhole : Classification → Classification → Prop
  | passed : AlikeWhole .passed .passed
  | functionsFailed (failures : List TestCase) :
      AlikeWhole (.functionsFailed failures) (.functionsFailed failures)
  | executableFailed (code code' : Int) :
      AlikeWhole (.executableFailed code) (.executableFailed code')
  | crashed {reason reason' : CrashReason} : reason'.allowsRerun = reason.allowsRerun →
      AlikeWhole (.crashed reason) (.crashed reason')

/-- Alike as results of a rerun: which cases failed, or whether there was a log
to tell, makes no difference. -/
inductive AlikeRerun : Classification → Classification → Prop
  | passed : AlikeRerun .passed .passed
  | failed {k k' : Classification} : k.isFailure = true → k'.isFailure = true → AlikeRerun k k'
  | crashed {reason reason' : CrashReason} : reason'.allowsRerun = reason.allowsRerun →
      AlikeRerun (.crashed reason) (.crashed reason')

end Classification

def Step.Alike : Step → Classification → Classification → Prop
  | .fullRun => Classification.AlikeWhole
  | .rerun _ _ _ => Classification.AlikeRerun

/-- A log that was there before the run counts as a result of the whole binary. -/
def Showing.Alike (w w' : Showing) : Prop :=
  match w.kind with
  | some (.rerun _ _) => w.classification.AlikeRerun w'.classification
  | _ => w.classification.AlikeWhole w'.classification

abbrev Answer := Except ExecuteFault Showing

def Answer.Alike : Answer → Answer → Prop
  | .ok w, .ok w' => w.Alike w'
  | .error fault, .error fault' => fault' = fault
  | _, _ => False

namespace Ending

def answers : Ending → List Answer
  | .fault (.execute f) => [.error f]
  | _ => []

/-- A run is hindered when something else than its policy and its attempts ends
it: a log or its directory, or a listener. -/
def Hindered : Ending → Prop
  | .summary _ | .fault (.policy _) | .fault (.execute _) => False
  | _ => True

def Alike : Ending → Ending → Prop
  | .summary a, .summary b => b.verdict = a.verdict ∧ b.attempts = a.attempts ∧
      b.fullRuns = a.fullRuns ∧ b.confirmed = a.confirmed ∧ b.recovered = a.recovered
  | .fault f, .fault f' => f' = f
  | _, _ => False

end Ending

namespace Run

def answers (r : Run) : List Answer := (showings r.events).map .ok ++ r.ending.answers

theorem answers_heard (es : List Event) (r : Run) :
    (r.heard es).answers = (showings es).map .ok ++ r.answers := by
  simp [answers]

theorem answers_carriedOut (q : Request) (r : Run) : (r.carriedOut q).answers = r.answers := rfl

end Run

/-! ### Decisions -/

namespace Decision

variable {l : Ledger} {step : Step} {k k' : Classification}

theorem afterCrash_alike {reason reason' : CrashReason}
    (h : reason'.allowsRerun = reason.allowsRerun) :
    (afterCrash l reason').ledger = (afterCrash l reason).ledger ∧
      (afterCrash l reason').next = (afterCrash l reason).next := by
  unfold afterCrash
  rw [h]
  cases reason.allowsRerun with
  | false => exact ⟨rfl, rfl⟩
  | true => cases l.takeCrash? <;> exact ⟨rfl, rfl⟩

theorem afterFullRun_alike (h : k.AlikeWhole k') :
    (afterFullRun l k').ledger = (afterFullRun l k).ledger ∧
      (afterFullRun l k').next = (afterFullRun l k).next := by
  cases h with
  | passed | functionsFailed => exact ⟨rfl, rfl⟩
  | crashed h => exact afterCrash_alike h
  | executableFailed code code' =>
    simp only [afterFullRun]
    cases l.takeExecutable? <;> exact ⟨rfl, rfl⟩

theorem afterRerun_of_isFailure {c : TestCase} {ticket : Ticket} {later : List TestCase}
    (h : k.isFailure = true) : afterRerun l c ticket later k = confirmFrom l (c :: later) := by
  cases k with
  | functionsFailed | executableFailed => rfl
  | passed | crashed => cases h

theorem afterRerun_alike {c : TestCase} {ticket : Ticket} {later : List TestCase}
    (h : k.AlikeRerun k') :
    (afterRerun l c ticket later k').ledger = (afterRerun l c ticket later k).ledger ∧
      (afterRerun l c ticket later k').next = (afterRerun l c ticket later k).next := by
  cases h with
  | passed => exact ⟨rfl, rfl⟩
  | failed hk hk' => rw [afterRerun_of_isFailure hk, afterRerun_of_isFailure hk']; exact ⟨rfl, rfl⟩
  | crashed h => exact afterCrash_alike h

theorem after_alike (h : step.Alike k k') :
    (after l step k').ledger = (after l step k).ledger ∧
      (after l step k').next = (after l step k).next := by
  cases step with
  | fullRun => exact afterFullRun_alike h
  | rerun c ticket later => exact afterRerun_alike h

end Decision

/-! ### The unrolling of a run -/

/-- A run from some point on, told by what it was answered, what it asked for and
how it ended. Nothing of its executor, its listener and its files is left; the
counts are those of the attempts and of the full runs before that point. -/
inductive Unrolls (s : Setup) :
    Nat → Nat → Ledger → Next → List Answer → List Request → Ending → Prop
  | concluded {attempts fullRuns : Nat} {l : Ledger} {v : Verdict} (elapsed : Duration) :
      Unrolls s attempts fullRuns l (.stop v) [] []
        (.summary ⟨v, attempts, fullRuns, l.confirmed, l.recovered, elapsed⟩)
  | barred {attempts fullRuns : Nat} {l : Ledger} {next : Next} {e : Ending} : e.Hindered →
      Unrolls s attempts fullRuns l next [] [] e
  | unreported {attempts fullRuns : Nat} {l : Ledger} {step : Step} {e : Ending} : e.Hindered →
      Unrolls s attempts fullRuns l (.attempt step) [] [s.request (attempts + 1) step.kind] e
  | unrun {attempts fullRuns : Nat} {l : Ledger} {step : Step} (fault : ExecuteFault) :
      Unrolls s attempts fullRuns l (.attempt step) [.error fault]
        [s.request (attempts + 1) step.kind] (.fault (.execute fault))
  | shown {attempts fullRuns : Nat} {l : Ledger} {step : Step} (k : Classification)
      {as : List Answer} {qs : List Request} {e : Ending} :
      Unrolls s (attempts + 1) (fullRuns + (if step = .fullRun then 1 else 0))
        (Decision.after l step k).ledger (Decision.after l step k).next as qs e →
      Unrolls s attempts fullRuns l (.attempt step) (.ok ⟨some step.kind, k⟩ :: as)
        (s.request (attempts + 1) step.kind :: qs) e

variable {Memory : Type} {s : Setup} {x : Executor Memory} {listen : Listener} {t : Tally}
  {l : Ledger} {files files' : Files} {memory memory' : Memory}

theorem unrolls_conclude {v : Verdict} :
    Unrolls s t.attempts t.fullRuns l (.stop v) (conclude x listen t l v files memory).answers
      (conclude x listen t l v files memory).requests
      (conclude x listen t l v files memory).ending := by
  unfold conclude
  dsimp only
  split
  · exact .barred trivial
  · exact .concluded _

theorem unrolls_stopped {step : Step} {r : Run}
    (h : attemptOnce s x listen t step.kind files memory = .stopped r) :
    Unrolls s t.attempts t.fullRuns l (.attempt step) r.answers r.requests r.ending := by
  cases attemptOnce_eq_iff.1 h with
  | unprepared hp =>
    obtain ⟨path, refusal, rfl⟩ := Setup.prepare_eq_error hp
    exact .barred trivial
  | unheard => exact .barred trivial
  | unrun => exact .unrun _
  | unreported => exact .unreported trivial

theorem answers_done {step : Step} {es : List Event} {q : Request} {k : Classification}
    (h : attemptOnce s x listen t step.kind files memory = .done es q k files' memory')
    (r : Run) : ((r.carriedOut q).heard
      (es ++ (publish listen (t.events + 2) (Decision.after l step k).events).1)).answers =
        .ok ⟨some step.kind, k⟩ :: r.answers := by
  obtain ⟨rfl, o, -, rfl⟩ := attemptOnce_done h
  have hs := read_heard listen (t.events + 2) (Decision.showings_after l step k)
  simp [Run.answers_heard, Run.answers_carriedOut, hs, Setup.request]

theorem unrolls_proceed {next : Next} :
    Unrolls s t.attempts t.fullRuns l next (proceed s x listen t l next files memory).answers
      (proceed s x listen t l next files memory).requests
      (proceed s x listen t l next files memory).ending := by
  fun_induction proceed s x listen t l next files memory
  case case1 => exact unrolls_conclude
  case case2 hr => exact unrolls_stopped hr
  case case3 t l files memory step es q k files' memory' hd d heard fault hp =>
    have ha := answers_done (l := l) hd (.failed (.writeEvent fault) files')
    rw [hp] at ha
    rw [ha, (attemptOnce_done hd).1]
    exact .shown k (.barred trivial)
  case case4 t l files memory step es q k files' memory' hd d heard hp ih =>
    have ha := answers_done (l := l) hd (proceed s x listen
      (t.after step (2 + d.events.length)) d.ledger d.next files' memory')
    rw [hp] at ha
    rw [ha, (attemptOnce_done hd).1]
    exact .shown k ih

/-! ### Two runs -/

/-- Wherever both lists have an answer, the two are alike. -/
def AnswersAlike (as as' : List Answer) : Prop :=
  ∀ (n : Nat) (a a' : Answer), as[n]? = some a → as'[n]? = some a' → a.Alike a'

theorem AnswersAlike.nil : AnswersAlike [] [] := by
  intro n a a' h
  cases h

theorem AnswersAlike.cons {a a' : Answer} {as as' : List Answer} (h : a.Alike a')
    (hs : AnswersAlike as as') : AnswersAlike (a :: as) (a' :: as') := by
  intro n b b' hb hb'
  cases n with
  | zero =>
    cases hb
    cases hb'
    exact h
  | succ n => exact hs n b b' hb hb'

theorem AnswersAlike.head {a a' : Answer} {as as' : List Answer}
    (h : AnswersAlike (a :: as) (a' :: as')) : a.Alike a' := h 0 a a' rfl rfl

theorem AnswersAlike.tail {a a' : Answer} {as as' : List Answer}
    (h : AnswersAlike (a :: as) (a' :: as')) : AnswersAlike as as' :=
  fun n b b' hb hb' => h (n + 1) b b' hb hb'

theorem Step.alike_of_showing {step : Step} {k k' : Classification} {kind : Option AttemptKind}
    (h : Showing.Alike ⟨some step.kind, k⟩ ⟨kind, k'⟩) : step.Alike k k' := by
  cases step <;> exact h

/-- How two runs that are answered alike compare: one may be hindered earlier than
the other, and where none is they are the same but for their times. -/
structure Matching (qs qs' : List Request) (e e' : Ending) : Prop where
  requests : qs <+: qs' ∨ qs' <+: qs
  unhindered : ¬ e.Hindered → ¬ e'.Hindered → qs' = qs ∧ e.Alike e'

theorem Matching.of_hindered {qs qs' : List Request} {e e' : Ending} (h : qs <+: qs' ∨ qs' <+: qs)
    (he : e.Hindered ∨ e'.Hindered) : Matching qs qs' e e' :=
  ⟨h, fun hn hn' => (he.elim hn hn').elim⟩

/-- By induction on the first run: as long as the answers are alike, the ledger
and what is next are the same in both. -/
theorem Unrolls.matching {attempts fullRuns : Nat} {next : Next} {as as' : List Answer}
    {qs qs' : List Request} {e e' : Ending} (h : Unrolls s attempts fullRuns l next as qs e)
    (h' : Unrolls s attempts fullRuns l next as' qs' e') (ha : AnswersAlike as as') :
    Matching qs qs' e e' := by
  induction h generalizing as' qs' e' with
  | concluded elapsed =>
    cases h' with
    | concluded elapsed' =>
      exact ⟨Or.inl List.prefix_rfl, fun _ _ => ⟨rfl, rfl, rfl, rfl, rfl, rfl⟩⟩
    | barred he' => exact .of_hindered (Or.inl List.prefix_rfl) (Or.inr he')
  | barred he => exact .of_hindered (Or.inl List.nil_prefix) (Or.inl he)
  | unreported he =>
    cases h' with
    | barred he' => exact .of_hindered (Or.inr List.nil_prefix) (Or.inl he)
    | unreported | unrun => exact .of_hindered (Or.inl List.prefix_rfl) (Or.inl he)
    | shown => exact .of_hindered (Or.inl (by simp)) (Or.inl he)
  | unrun fault =>
    cases h' with
    | barred he' => exact .of_hindered (Or.inr List.nil_prefix) (Or.inr he')
    | unreported he' => exact .of_hindered (Or.inl List.prefix_rfl) (Or.inr he')
    | unrun fault' =>
      cases ha.head
      exact ⟨Or.inl List.prefix_rfl, fun _ _ => ⟨rfl, rfl⟩⟩
    | shown => exact ha.head.elim
  | shown k _ ih =>
    cases h' with
    | barred he' => exact .of_hindered (Or.inr List.nil_prefix) (Or.inr he')
    | unreported he' => exact .of_hindered (Or.inr (by simp)) (Or.inr he')
    | unrun => exact ha.head.elim
    | shown k' h' =>
      obtain ⟨hl, hn⟩ := Decision.after_alike (Step.alike_of_showing ha.head)
      rw [hl, hn] at h'
      obtain ⟨hq, hu⟩ := ih h' ha.tail
      refine ⟨hq.imp (List.cons_prefix_cons.2 ⟨rfl, ·⟩) (List.cons_prefix_cons.2 ⟨rfl, ·⟩), ?_⟩
      intro he he'
      obtain ⟨rfl, hends⟩ := hu he he'
      exact ⟨rfl, hends⟩

inductive Opens (s : Setup) : List Answer → List Request → Ending → Prop
  | refused {fault : PolicyFault} : s.policy.fault? = some fault →
      Opens s [] [] (.fault (.policy fault))
  | barred {e : Ending} : s.policy.fault? = none → e.Hindered → Opens s [] [] e
  | fresh {as : List Answer} {qs : List Request} {e : Ending} :
      s.policy.fault? = none → s.existingLog = none →
      Unrolls s 0 0 (.start s.policy) (.attempt .fullRun) as qs e → Opens s as qs e
  | existing {path : String} (k : Classification) {as : List Answer} {qs : List Request}
      {e : Ending} : s.policy.fault? = none → s.existingLog = some path →
      Unrolls s 0 0 (Decision.afterFullRun (.start s.policy) k).ledger
        (Decision.afterFullRun (.start s.policy) k).next as qs e →
      Opens s (.ok ⟨none, k⟩ :: as) qs e

theorem opens_begin (hv : s.policy.fault? = none) :
    Opens s (begin s x listen files memory).answers (begin s x listen files memory).requests
      (begin s x listen files memory).ending := by
  unfold begin
  dsimp only
  split
  · next he => exact .fresh hv he (unrolls_proceed (t := ⟨0, 0, 1⟩))
  · next path he =>
    split
    · exact .barred (e := .fault (.existingLog _)) hv trivial
    · next log _ =>
      generalize s.classifyExisting log = k
      cases hl : listen 1 (.existingLogParsed path log k) with
      | some fault =>
        rw [publish_refused hl]
        exact .barred (e := .fault (.writeEvent fault)) hv trivial
      | none =>
        rw [publish_heard hl]
        have hs := read_heard listen 2 (Decision.showings_after (.start s.policy) .fullRun k)
        have hw : showings (.existingLogParsed path log k ::
            (publish listen 2 (Decision.afterFullRun (.start s.policy) k).events).1) =
              [⟨none, k⟩] := congrArg (List.cons (⟨none, k⟩ : Showing)) hs
        dsimp only
        split
        · rw [Run.answers_heard, hw]
          exact .existing k hv he (.barred trivial)
        · rw [Run.answers_heard, hw]
          exact .existing k hv he (unrolls_proceed (t := ⟨0, 0, _⟩))

theorem opens_supervise :
    Opens s (supervise s x listen files memory).answers
      (supervise s x listen files memory).requests (supervise s x listen files memory).ending := by
  unfold supervise
  split
  · next fault hv => exact .refused hv
  · next hv =>
    split
    · next fault hd =>
      obtain ⟨directory, refusal, rfl⟩ := Setup.makeLogDirectory_eq_error hd
      exact .barred hv trivial
    · dsimp only
      split
      · exact .barred hv trivial
      · rw [Run.answers_heard]
        exact opens_begin hv

theorem Opens.matching {as as' : List Answer} {qs qs' : List Request} {e e' : Ending}
    (h : Opens s as qs e) (h' : Opens s as' qs' e') (ha : AnswersAlike as as') :
    Matching qs qs' e e' := by
  cases h with
  | refused hv =>
    cases h' with
    | refused hv' =>
      cases hv.symm.trans hv'
      exact ⟨Or.inl List.prefix_rfl, fun _ _ => ⟨rfl, rfl⟩⟩
    | barred hv' | fresh hv' | existing _ hv' => cases hv.symm.trans hv'
  | barred _ he => exact .of_hindered (Or.inl List.nil_prefix) (Or.inl he)
  | fresh hv hn hu =>
    cases h' with
    | refused hv' => cases hv.symm.trans hv'
    | barred _ he' => exact .of_hindered (Or.inr List.nil_prefix) (Or.inr he')
    | fresh _ _ hu' => exact hu.matching hu' ha
    | existing _ _ hn' => cases hn.symm.trans hn'
  | existing k hv hn hu =>
    cases h' with
    | refused hv' => cases hv.symm.trans hv'
    | barred _ he' => exact .of_hindered (Or.inr List.nil_prefix) (Or.inr he')
    | fresh _ hn' => cases hn.symm.trans hn'
    | existing k' _ _ hu' =>
      obtain ⟨hl, hn⟩ := Decision.afterFullRun_alike (l := .start s.policy) ha.head
      rw [hl, hn] at hu'
      exact hu.matching hu' ha.tail

/-- Decisions rest on the likeness of answers alone. Two runs of a setup whose
answers are alike, one by one, make the same requests and end with the same
verdict, the same counts and the same cases, whatever else their attempts brought
to light; one that is hindered has made the first of these requests. -/
theorem decisions_rest_on_likeness {Memory' : Type} {x' : Executor Memory'} {listen' : Listener}
    {memory' : Memory'}
    (ha : AnswersAlike (supervise s x listen files memory).answers
      (supervise s x' listen' files' memory').answers) :
    let r := supervise s x listen files memory
    let r' := supervise s x' listen' files' memory'
    (r.requests <+: r'.requests ∨ r'.requests <+: r.requests) ∧
      (¬ r.ending.Hindered → ¬ r'.ending.Hindered →
        r'.requests = r.requests ∧ r.ending.Alike r'.ending) := by
  obtain ⟨hq, hu⟩ := opens_supervise.matching opens_supervise ha
  exact ⟨hq, hu⟩

namespace Rehearsal

def answering (answers : List Outcome) (last : Outcome) : Executor Nat :=
  .reading (fun n => .ok (answers.getD n last)) (fun _ files _ => files) fun n => ⟨n⟩

def plain : Executor Nat :=
  answering [⟨.timedOut, .missing, [], ⟨5⟩⟩, failedRun, failedRun]
    ⟨.exited 0, .parsed passedLog, [], ⟨5⟩⟩

def wordyLog : TestLog :=
  ⟨some "tst", [⟨"a", [⟨.unexpectedPass, none, some "why", none, none⟩,
    ⟨.fail, none, none, some "a.cpp", some 7⟩], [⟨"qwarn", none, "mind the gap"⟩], some ⟨9⟩⟩]⟩

/-- The same, told in other words: it is killed, it fails with another code and
more to say, and alone it fails without a log. -/
def wordy : Executor Nat :=
  answering [⟨.abnormal none (some 11), .notExpected, [66], ⟨6⟩⟩,
      ⟨.exited 3, .parsed wordyLog, [67], ⟨7⟩⟩, ⟨.exited 9, .notExpected, [], ⟨8⟩⟩]
    ⟨.exited 0, .notExpected, [68], ⟨9⟩⟩

end Rehearsal

open Rehearsal in
theorem decisions_rest_on_likeness_in_other_words :
    AnswersAlike (supervise (setup .standard) plain .willing .empty 0).answers
      (supervise (setup .standard) wordy .willing .empty 0).answers ∧
    (supervise (setup .standard) plain .willing .empty 0).ending =
      .summary ⟨.pass, 4, 2, [], [⟨"a", none⟩], ⟨4⟩⟩ ∧
    (supervise (setup .standard) wordy .willing .empty 0).requests =
      (supervise (setup .standard) plain .willing .empty 0).requests ∧
    (supervise (setup .standard) plain .willing .empty 0).ending.Alike
      (supervise (setup .standard) wordy .willing .empty 0).ending := by
  have hplain : supervise (setup .standard) plain .willing .empty 0 = _ :=
    supervise_within 4 rfl rfl (Setup.makeLogDirectory_here rfl rfl) rfl
  have hwordy : supervise (setup .standard) wordy .willing .empty 0 = _ :=
    supervise_within 4 rfl rfl (Setup.makeLogDirectory_here rfl rfl) rfl
  have hp : (supervise (setup .standard) plain .willing .empty 0).answers =
      [.ok ⟨some .fullRun, .crashed .timedOut⟩,
        .ok ⟨some .fullRun, .functionsFailed [⟨"a", none⟩]⟩,
        .ok ⟨some (.rerun ⟨"a", none⟩ ⟨1, 5, false⟩), .functionsFailed [⟨"a", none⟩]⟩,
        .ok ⟨some (.rerun ⟨"a", none⟩ ⟨2, 5, false⟩), .passed⟩] := by
    rw [hplain]
    rfl
  have hw : (supervise (setup .standard) wordy .willing .empty 0).answers =
      [.ok ⟨some .fullRun, .crashed (.abnormalExit none (some 11))⟩,
        .ok ⟨some .fullRun, .functionsFailed [⟨"a", none⟩]⟩,
        .ok ⟨some (.rerun ⟨"a", none⟩ ⟨1, 5, false⟩), .executableFailed 9⟩,
        .ok ⟨some (.rerun ⟨"a", none⟩ ⟨2, 5, false⟩), .passed⟩] := by
    rw [hwordy]
    rfl
  have ha : AnswersAlike (supervise (setup .standard) plain .willing .empty 0).answers
      (supervise (setup .standard) wordy .willing .empty 0).answers := by
    rw [hp, hw]
    exact .cons (.crashed rfl) (.cons (.functionsFailed _) (.cons (.failed rfl rfl)
      (.cons .passed .nil)))
  have he : (supervise (setup .standard) plain .willing .empty 0).ending =
      .summary ⟨.pass, 4, 2, [], [⟨"a", none⟩], ⟨4⟩⟩ := by
    rw [hplain]
    rfl
  have he' : (supervise (setup .standard) wordy .willing .empty 0).ending =
      .summary ⟨.pass, 4, 2, [], [⟨"a", none⟩], ⟨4⟩⟩ := by
    rw [hwordy]
    rfl
  have hn : ¬ Ending.Hindered (.summary ⟨.pass, 4, 2, [], [⟨"a", none⟩], ⟨4⟩⟩) := id
  exact ⟨ha, he, (decisions_rest_on_likeness ha).2 (he ▸ hn) (he' ▸ hn)⟩

end Retrial
