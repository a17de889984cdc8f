import Mathlib.Data.List.Forall2
import Retrial.Proofs.Classification
import Retrial.Proofs.Obliging
import Retrial.Proofs.Stage
import Retrial.Proofs.Verdict
import Retrial.Proofs.Xml.Lexing

/-!
# A log that stands for a first attempt

A run that starts from an existing log goes on as a run goes whose first full
run has left this log and has exited with a code that agrees with it. The two
keep in step for good, one attempt and one full run apart.
-/

set_option autoImplicit false

namespace Retrial

/-- An executor that answers from a script, whatever is asked. It may touch files. -/
def Executor.reading (answers : Nat → Except ExecuteFault Outcome)
    (touch : Request → Files → Nat → Files) (elapsed : Nat → Duration) : Executor Nat where
  run q files n := (answers n, touch q files n, n + 1)
  elapsed := elapsed

def precede (o : Outcome) (answers : Nat → Except ExecuteFault Outcome) :
    Nat → Except ExecuteFault Outcome
  | 0 => .ok o
  | n + 1 => answers n

/-- The same request one attempt later: only the path of the log may be another one. -/
structure Request.Follows (i : Invocation) (q q' : Request) : Prop where
  attempt : q'.attempt = q.attempt + 1
  kind : q'.kind = q.kind
  args : q.args = i.args ⟨q.logPath, q.kind.verbose, q.kind.selection⟩
  args' : q'.args = i.args ⟨q'.logPath, q.kind.verbose, q.kind.selection⟩
  logPath : q'.logPath.isSome = q.logPath.isSome
  env : q'.env = q.env
  cwd : q'.cwd = q.cwd
  timeout : q'.timeout = q.timeout

def Ending.Follows : Ending → Ending → Prop
  | .summary a, .summary b => b.verdict = a.verdict ∧ b.confirmed = a.confirmed ∧
      b.recovered = a.recovered ∧ b.attempts = a.attempts + 1 ∧ b.fullRuns = a.fullRuns + 1
  | .fault f, .fault f' => f' = f
  | _, _ => False

def Run.Prepared (r : Run) : Prop :=
  (∀ directory fault, r.ending ≠ .fault (.createLogDir directory fault)) ∧
    ∀ path fault, r.ending ≠ .fault (.removeStaleLog path fault)

theorem Run.prepared_of_summary {r : Run} {sm : Summary} (h : r.ending = .summary sm) :
    r.Prepared := by
  simp [Prepared, h]

/-! ### What an existing log shows -/

section Classify

variable {noRerun : List String} {code : Int} {log : TestLog}

theorem code_agrees (h : code = 0 ↔ log.failures = []) :
    ((code == 0) != log.failures.isEmpty) = false := by
  by_cases hc : code = 0
  · simp [hc, h.1 hc]
  · have hf : log.failures ≠ [] := fun hf => hc (h.2 hf)
    rw [beq_eq_false_iff_ne.2 hc, List.isEmpty_eq_false_iff.2 hf]
    rfl

theorem classifyLog_congr {code' : Int} (h : code = 0 ↔ log.failures = [])
    (h' : code' = 0 ↔ log.failures = []) :
    classifyLog noRerun code log = classifyLog noRerun code' log := by
  simp only [classifyLog, code_agrees h, code_agrees h', Bool.false_eq_true, if_false]

theorem classifyLog_ne_mismatch (h : code = 0 ↔ log.failures = []) {code' : Int} {n : Nat} :
    classifyLog noRerun code log ≠ .crashed (.exitCodeMismatch code' n) := by
  simp only [classifyLog, code_agrees h, Bool.false_eq_true, if_false]
  split
  · simp
  · split
    · simp
    · split
      · simp
      · split <;> simp

end Classify

theorem existing_code_agrees (log : TestLog) :
    min (log.failures.length : Int) 127 = 0 ↔ log.failures = [] := by
  rw [← List.length_eq_zero_iff]
  omega

variable {s : Setup} {path : String} {log : TestLog} {o : Outcome} {code : Int}
  {answers : Nat → Except ExecuteFault Outcome} {touch touch' : Request → Files → Nat → Files}
  {elapsed elapsed' : Nat → Duration} {files files' ready : Files} {t t' : Tally} {l : Ledger}

theorem Setup.request_follows (s : Setup) (attempt : Nat) (kind : AttemptKind) :
    Request.Follows s.invocation (s.request attempt kind) (s.request (attempt + 1) kind) where
  attempt := rfl
  kind := rfl
  args := rfl
  args' := rfl
  logPath := by simp [Setup.request]
  env := rfl
  cwd := rfl
  timeout := rfl

section NotRead

variable {Memory : Type} {x : Executor Memory} {listen : Listener} {memory memory' : Memory}

theorem proceed_existingLog {next : Next} (existing : Option String) :
    proceed { s with existingLog := existing } x listen t l next files memory =
      proceed s x listen t l next files memory :=
  proceed_congr ⟨rfl, rfl, rfl⟩

end NotRead

section Reading

variable {kind : AttemptKind} {m : Nat}

theorem attemptOnce_reading_error {fault : ExecuteFault}
    (hp : s.prepare (t.attempts + 1) files = .ok files') (hm : answers m = .error fault) :
    ∃ left, attemptOnce s (.reading answers touch elapsed) .willing t kind files m =
      .stopped (((Run.failed (.execute fault) left).carriedOut
        (s.request (t.attempts + 1) kind)).heard
          [.attemptStarted (s.request (t.attempts + 1) kind)]) := by
  let q := s.request (t.attempts + 1) kind
  have hx : (Executor.reading answers touch elapsed).run q files' m =
      (.error fault, touch q files' m, m + 1) := by
    simp only [Executor.reading, hm]
  exact ⟨_, attemptOnce_eq_iff.2 (.unrun ⟨hp, rfl⟩ hx)⟩

theorem attemptOnce_reading_ok
    (hp : s.prepare (t.attempts + 1) files = .ok files') (hm : answers m = .ok o) :
    ∃ left, attemptOnce s (.reading answers touch elapsed) .willing t kind files m =
      .done [.attemptStarted (s.request (t.attempts + 1) kind),
          .attemptFinished (s.request (t.attempts + 1) kind) o (s.classify o.exit o.log)]
        (s.request (t.attempts + 1) kind) (s.classify o.exit o.log) left (m + 1) := by
  let q := s.request (t.attempts + 1) kind
  have hx : (Executor.reading answers touch elapsed).run q files' m =
      (.ok o, touch q files' m, m + 1) := by
    simp only [Executor.reading, hm]
  exact ⟨_, attemptOnce_eq_iff.2 (.done ⟨hp, rfl⟩ hx rfl)⟩

end Reading

/-- One run is another one later: an attempt and a full run are in front of it. -/
structure Run.Follows (i : Invocation) (r r' : Run) : Prop where
  ending : r.ending.Follows r'.ending
  requests : List.Forall₂ (Request.Follows i) r.requests r'.requests

theorem Run.Follows.attempt {r r' : Run} (h : Run.Follows s.invocation r r') (attempt : Nat)
    (kind : AttemptKind) (es es' : List Event) :
    Run.Follows s.invocation ((r.carriedOut (s.request attempt kind)).heard es)
      ((r'.carriedOut (s.request (attempt + 1) kind)).heard es') :=
  ⟨h.ending, .cons (s.request_follows attempt kind) h.requests⟩

theorem Run.Prepared.attempt {Memory : Type} {x : Executor Memory} {listen : Listener}
    {memory : Memory} {step : Step}
    (h : (proceed s x listen t l (.attempt step) files memory).Prepared) :
    ∃ files', s.prepare (t.attempts + 1) files = .ok files' := by
  cases hp : s.prepare (t.attempts + 1) files with
  | ok files' => exact ⟨files', rfl⟩
  | error fault =>
    obtain ⟨path, refusal, rfl⟩ := Setup.prepare_eq_error hp
    rw [proceed_stopped (attemptOnce_eq_iff.2 (.unprepared hp))] at h
    exact absurd rfl (h.2 path refusal)

/-- By induction on the first run: each attempt is answered alike in both. -/
theorem proceed_follows {next : Next} {m : Nat} (ha : t'.attempts = t.attempts + 1)
    (hf : t'.fullRuns = t.fullRuns + 1)
    (hp : (proceed s (.reading answers touch elapsed) .willing t l next files m).Prepared)
    (hp' : (proceed s (.reading (precede o answers) touch' elapsed') .willing t' l next files'
      (m + 1)).Prepared) :
    Run.Follows s.invocation
      (proceed s (.reading answers touch elapsed) .willing t l next files m)
      (proceed s (.reading (precede o answers) touch' elapsed') .willing t' l next files' (m + 1)) := by
  fun_induction proceed s (.reading answers touch elapsed) .willing t l next files m
    generalizing t' files'
  case case1 t l files m v =>
    rw [proceed]
    exact ⟨⟨rfl, rfl, rfl, ha, hf⟩, .nil⟩
  case case2 t l files m step r hr =>
    have hp₀ : (proceed s (.reading answers touch elapsed) .willing t l (.attempt step) files
        m).Prepared := by
      rw [proceed_stopped hr]
      exact hp
    obtain ⟨files₁, h₁⟩ := hp₀.attempt
    obtain ⟨files₂, h₂⟩ := hp'.attempt
    -- Both attempts could be prepared, so what stopped the first is its answer.
    cases hm : answers m with
    | ok o =>
      obtain ⟨left, hd⟩ := attemptOnce_reading_ok h₁ hm
      rw [hd] at hr
      cases hr
    | error fault =>
      obtain ⟨left, hs⟩ := attemptOnce_reading_error h₁ hm
      obtain ⟨left', hs'⟩ := attemptOnce_reading_error h₂ (show precede o answers (m + 1) = _ from hm)
      rw [hs] at hr
      cases hr
      rw [proceed_stopped hs', ha]
      have hfailed : Run.Follows s.invocation (.failed (.execute fault) left)
          (.failed (.execute fault) left') := ⟨rfl, .nil⟩
      exact hfailed.attempt (t.attempts + 1) step.kind _ _
  case case3 hq =>
    rw [publish_willing] at hq
    cases hq
  case case4 t l files m step es q k left m₁ hd d heard hq ih =>
    have hall : d.events = heard := by
      rw [publish_willing] at hq
      exact (Prod.mk.inj hq).1
    subst hall
    have hp₀ : (proceed s (.reading answers touch elapsed) .willing t l (.attempt step) files
        m).Prepared := by
      rw [proceed_done hd, publish_willing]
      exact hp
    obtain ⟨files₁, h₁⟩ := hp₀.attempt
    obtain ⟨files₂, h₂⟩ := hp'.attempt
    cases hm : answers m with
    | error fault =>
      obtain ⟨left, hs⟩ := attemptOnce_reading_error h₁ hm
      rw [hs] at hd
      cases hd
    | ok first =>
      obtain ⟨left, h⟩ := attemptOnce_reading_ok h₁ hm
      obtain ⟨left', hd'⟩ := attemptOnce_reading_ok h₂ (show precede o answers (m + 1) = _ from hm)
      rw [h] at hd
      cases hd
      rw [proceed_done hd', publish_willing] at hp' ⊢
      rw [ha]
      refine .attempt (ih (congrArg (· + 1) ha) ?_ hp hp') (t.attempts + 1) step.kind _ _
      simp only [Tally.after, hf]
      omega

/-! ### How the two runs begin -/

theorem Run.heard_heard (r : Run) (es es' : List Event) :
    (r.heard es).heard es' = r.heard (es' ++ es) := by
  simp only [Run.heard, List.append_assoc]

/-- A run that starts from an existing log goes on from what the log shows. -/
theorem supervise_existing {Memory : Type} (x : Executor Memory) (memory : Memory)
    (hv : s.policy.fault? = none) (he : s.existingLog = some path)
    (hd : s.makeLogDirectory files = .ok ready) (hl : Log.load ready path = .ok log) :
    let d := Decision.afterFullRun (.start s.policy) (s.classifyExisting log)
    supervise s x .willing files memory =
      (proceed s x .willing ⟨0, 0, 2 + d.events.length⟩ d.ledger d.next ready memory).heard
        (.started s.invocation s.policy ::
          .existingLogParsed path log (s.classifyExisting log) :: d.events) := by
  simp only [supervise, hv, hd, Listener.willing, begin, he, hl, publish_willing]
  rfl

theorem supervise_precede (hv : s.policy.fault? = none)
    (hp : (supervise { s with existingLog := none } (.reading (precede o answers) touch' elapsed')
      .willing files' 0).Prepared) :
    ∃ t es left, t.attempts = 1 ∧ t.fullRuns = 1 ∧
      supervise { s with existingLog := none } (.reading (precede o answers) touch' elapsed')
        .willing files' 0 =
      ((proceed s (.reading (precede o answers) touch' elapsed') .willing t
        (Decision.afterFullRun (.start s.policy) (s.classify o.exit o.log)).ledger
        (Decision.afterFullRun (.start s.policy) (s.classify o.exit o.log)).next left 1).carriedOut
          (s.request 1 .fullRun)).heard es := by
  obtain ⟨ready, hd⟩ : ∃ ready, Setup.makeLogDirectory { s with existingLog := none } files' =
      .ok ready := by
    cases hd : Setup.makeLogDirectory { s with existingLog := none } files' with
    | ok ready => exact ⟨ready, rfl⟩
    | error fault =>
      obtain ⟨directory, refusal, rfl⟩ := Setup.makeLogDirectory_eq_error hd
      simp only [supervise, hv, hd] at hp
      exact absurd rfl (hp.1 directory refusal)
  have hb : supervise { s with existingLog := none } (.reading (precede o answers) touch' elapsed')
      .willing files' 0 = (proceed s (.reading (precede o answers) touch' elapsed') .willing
        ⟨0, 0, 1⟩ (.start s.policy) (.attempt .fullRun) ready 0).heard
          [.started s.invocation s.policy] := by
    simp only [supervise, hv, hd, Listener.willing, begin]
    rw [proceed_existingLog]
  rw [hb] at hp ⊢
  obtain ⟨files₁, h₁⟩ := Run.Prepared.attempt (t := ⟨0, 0, 1⟩) (show Run.Prepared _ from hp)
  obtain ⟨left, h⟩ := attemptOnce_reading_ok h₁ (show precede o answers 0 = _ from rfl)
  rw [proceed_done h, publish_willing]
  dsimp only
  rw [Run.heard_heard]
  exact ⟨_, _, left, rfl, rfl, rfl⟩

theorem Course.existing_classified {es : List Event} {φ : Phase} {k : Classification}
    (h : Course s es l φ) (hm : .existingLogParsed path log k ∈ es) : k = s.classifyExisting log := by
  induction h with
  | fresh => simp at hm
  | existing => simp at hm; rw [hm.2.2, hm.2.1]
  | attempted _ _ _ _ _ _ ih | recovered _ _ ih | scheduled _ _ ih | confirmed _ _ ih =>
    exact ih (by simpa using hm)
  | passed _ ih | failed _ ih | executableFailed _ ih | crashed _ ih | counted _ _ ih
  | repeated _ _ _ ih | givenUp _ _ ih | granted _ _ ih | settled _ ih => exact ih hm

theorem Stage.existing_classified {es : List Event} {k : Classification}
    (h : Stage s es) (hm : .existingLogParsed path log k ∈ es) : k = s.classifyExisting log := by
  cases h with
  | silent | started => simp at hm
  | between hc => exact hc.existing_classified hm
  | underWay hc | ended _ _ hc => exact hc.existing_classified (by simpa using hm)

/-- A run from an existing log and a run whose first answer leaves that log, with a
code that agrees with it, are one run, but for the full run in front of the second.
Whatever the log holds, it agrees with itself. -/
theorem existing_log_is_first_attempt (he : s.existingLog = some path)
    (hd : s.makeLogDirectory files = .ok ready) (hl : Log.load ready path = .ok log)
    (hexit : o.exit = .exited code) (hlog : o.log = .parsed log)
    (hcode : code = 0 ↔ log.failures = []) :
    let r := supervise s (.reading answers touch elapsed) .willing files 0
    let r' := supervise { s with existingLog := none } (.reading (precede o answers) touch' elapsed')
      .willing files' 0
    (r.Prepared → r'.Prepared →
      r.ending.Follows r'.ending ∧
      List.Forall₂ (Request.Follows s.invocation) r.requests r'.requests.tail ∧
      (s.policy.fault? = none → r'.requests.head? = some (s.request 1 .fullRun))) ∧
    ∀ path log k, Event.existingLogParsed path log k ∈ r.events →
      (∀ code n, k ≠ .crashed (.exitCodeMismatch code n)) ∧ ∀ code, k ≠ .executableFailed code := by
  dsimp only
  refine ⟨fun hp hp' => ?_, fun path log k hm => ?_⟩
  · have hk : s.classify o.exit o.log = s.classifyExisting log := by
      rw [hexit, hlog]
      exact classifyLog_congr hcode (existing_code_agrees log)
    cases hv : s.policy.fault? with
    | some fault =>
      have hr : supervise s (.reading answers touch elapsed) .willing files 0 =
          .failed (.policy fault) files := by simp only [supervise, hv]
      have hr' : supervise { s with existingLog := none } (.reading (precede o answers) touch'
          elapsed') .willing files' 0 = .failed (.policy fault) files' := by
        simp only [supervise, hv]
      rw [hr, hr']
      exact ⟨rfl, .nil, by simp⟩
    | none =>
      have hr := supervise_existing (.reading answers touch elapsed) 0 hv he hd hl
      dsimp only at hr
      obtain ⟨t', es', left, ha', hf', hr'⟩ := supervise_precede hv hp'
      rw [hr] at hp
      rw [hr', hk] at hp'
      have hfollows := proceed_follows (by rw [ha']) (by rw [hf']) hp hp'
      rw [hr, hr', hk]
      exact ⟨hfollows.ending, hfollows.requests, fun _ => rfl⟩
  · obtain rfl := (stage_supervise List.prefix_rfl).existing_classified hm
    exact ⟨fun code n => classifyLog_ne_mismatch (existing_code_agrees log),
      fun code => classifyLog_ne_executableFailed⟩

namespace Rehearsal

def failedText : String :=
  "<TestCase><TestFunction name=\"a\"><Incident type=\"fail\"/></TestFunction></TestCase>"

def failedLog : TestLog := ⟨none, [⟨"a", [⟨.fail, none, none, none, none⟩], [], none⟩]⟩

def passedLog : TestLog := ⟨none, [⟨"a", [⟨.pass, none, none, none, none⟩], [], none⟩]⟩

def withOldLog (bytes : Text.Bytes) : Files :=
  Files.empty.put ["work", "old"] (.file bytes 0o644)

def oldFiles : Files := withOldLog (Text.encode failedText.toList)

def fromOldLog : Setup := { setup .standard with existingLog := some "old" }

def mended (_ : Nat) : Except ExecuteFault Outcome :=
  .ok ⟨.exited 0, .parsed passedLog, [], ⟨5⟩⟩

def failedRun : Outcome := ⟨.exited 1, .parsed failedLog, [], ⟨5⟩⟩

theorem read_withOldLog (bytes : Text.Bytes) : (withOldLog bytes).read "old" = .ok bytes := by
  have hl : (withOldLog bytes).locate "old" = .ok ["work", "old"] := Files.follow_of_descends rfl
  rw [Files.read, hl]
  rfl

theorem makeLogDirectory_fromOldLog (bytes : Text.Bytes) :
    fromOldLog.makeLogDirectory (withOldLog bytes) = .ok (withOldLog bytes) :=
  Setup.makeLogDirectory_here rfl rfl

theorem load_withOldLog {text : List Char} (h : text.all (·.toNat < 128) = true) :
    Log.load (withOldLog (Text.encode text)) "old" =
      (Log.read text).mapError (⟨some "old", ·⟩) :=
  Log.load_eq_read (read_withOldLog _) (Text.decode_encode h)

theorem load_oldFiles : Log.load oldFiles "old" = .ok failedLog := by
  have hr : Log.read failedText.toList = .ok failedLog :=
    Xml.toOption_eq_some.1 (by
      unfold failedText
      rw [Text.toList_literal rfl]
      decide +kernel)
  have hb : failedText.toList.all (·.toNat < 128) = true := by
    unfold failedText
    rw [Text.toList_literal rfl]
    decide +kernel
  rw [oldFiles, load_withOldLog hb, hr]
  rfl

end Rehearsal

open Rehearsal in
theorem existing_log_is_first_attempt_before_recovery :
    let r := supervise fromOldLog (.reading mended (fun _ files _ => files) fun _ => ⟨7⟩) .willing
      oldFiles 0
    let r' := supervise { fromOldLog with existingLog := none }
      (.reading (precede failedRun mended) (fun _ files _ => files) fun _ => ⟨9⟩) .willing .empty 0
    r.ending = .summary ⟨.pass, 1, 0, [], [⟨"a", none⟩], ⟨7⟩⟩ ∧
      r'.ending = .summary ⟨.pass, 2, 1, [], [⟨"a", none⟩], ⟨9⟩⟩ ∧
      r.ending.Follows r'.ending ∧
      List.Forall₂ (Request.Follows fromOldLog.invocation) r.requests r'.requests.tail := by
  have hv : fromOldLog.policy.fault? = none := rfl
  have he : fromOldLog.existingLog = some "old" := rfl
  have hd : fromOldLog.makeLogDirectory oldFiles = .ok oldFiles := makeLogDirectory_fromOldLog _
  have hl := load_oldFiles
  have hr : (supervise fromOldLog (.reading mended (fun _ files _ => files) fun _ => ⟨7⟩) .willing
      oldFiles 0).ending = .summary ⟨.pass, 1, 0, [], [⟨"a", none⟩], ⟨7⟩⟩ := by
    rw [supervise_existing _ 0 hv he hd hl, proceed_within 1 rfl]
    rfl
  have hr' : (supervise { fromOldLog with existingLog := none }
      (.reading (precede failedRun mended) (fun _ files _ => files) fun _ => ⟨9⟩) .willing .empty
      0).ending = .summary ⟨.pass, 2, 1, [], [⟨"a", none⟩], ⟨9⟩⟩ := by
    rw [supervise_within 2 rfl rfl (Setup.makeLogDirectory_here rfl rfl) rfl]
    rfl
  have hcode : (1 : Int) = 0 ↔ failedLog.failures = [] := by decide
  obtain ⟨hends, hrequests, -⟩ := (existing_log_is_first_attempt he hd hl rfl rfl hcode).1
    (Run.prepared_of_summary hr) (Run.prepared_of_summary hr')
  exact ⟨hr, hr', hends, hrequests⟩

end Retrial
