import Retrial.Proofs.Course

/-!
# The calls of an executor

A run is told once more as the calls that it makes of its executor. Each call
finds the files as the one before it left them, with room made for its own log;
nothing else that supervision does touches a file.
-/

set_option autoImplicit false

namespace Retrial

open History

/-- One call: the files before room was made for its log, those that the executor
was given, its answer, and the files that it left. -/
structure Call where
  request : Request
  before : Files
  found : Files
  answer : Except ExecuteFault Outcome
  left : Files

variable {Memory : Type}

def Executor.LoadsLogs (x : Executor Memory) : Prop :=
  ∀ q files memory o left memory', x.run q files memory = (.ok o, left, memory') →
    o.log = q.logPath.elim .notExpected (LogState.load left)

/-- Calls one after the other, behind a number of attempts, and the files that the last one left. -/
inductive Calls (s : Setup) (x : Executor Memory) : Nat → Files → Memory → List Call → Files → Prop
  | nil {n : Nat} {files : Files} {memory : Memory} : Calls s x n files memory [] files
  | cons {n : Nat} {kind : AttemptKind} {before found left last : Files} {memory memory' : Memory}
      {answer : Except ExecuteFault Outcome} {calls : List Call} :
      s.prepare (n + 1) before = .ok found →
      x.run (s.request (n + 1) kind) found memory = (answer, left, memory') →
      Calls s x (n + 1) left memory' calls last →
      Calls s x n before memory (⟨s.request (n + 1) kind, before, found, answer, left⟩ :: calls)
        last

/-- A run is told by its calls. Behind the last of them room may have been made
for an attempt whose start was refused, or it could not be made and the run
ended with that. -/
structure Told (s : Setup) (x : Executor Memory) (n : Nat) (files : Files) (memory : Memory)
    (r : Run) (calls : List Call) (last : Files) : Prop where
  made : Calls s x n files memory calls last
  requests : calls.map (·.request) = r.requests
  finishes : ∀ w ∈ finishes r.events, w.classification = s.classify w.outcome.exit w.outcome.log ∧
    ∃ call ∈ calls, call.request = w.request ∧ call.answer = .ok w.outcome
  files : r.files = last ∨ s.prepare (n + calls.length + 1) last = .ok r.files
  stale : ∀ path fault, r.ending = .fault (.removeStaleLog path fault) →
    s.prepare (n + calls.length + 1) last = .error (.removeStaleLog path fault)

variable {s : Setup} {x : Executor Memory} {listen : Listener} {t : Tally} {files files' : Files}
  {memory memory' : Memory} {n : Nat} {r : Run} {calls : List Call} {last : Files}

namespace Calls

theorem attempts (h : Calls s x n files memory calls last) :
    calls.map (·.request.attempt) = List.range' (n + 1) calls.length := by
  induction h with
  | nil => rfl
  | cons _ _ _ ih => simp [ih, Setup.request, List.range'_succ]

theorem mem {call : Call} (h : Calls s x n files memory calls last) (hc : call ∈ calls) :
    ∃ m kind, call.request = s.request (m + 1) kind ∧
      s.prepare (m + 1) call.before = .ok call.found ∧
      ∃ before after, x.run call.request call.found before = (call.answer, call.left, after) := by
  induction h with
  | nil => cases hc
  | cons hp hx _ ih =>
    cases hc with
    | head => exact ⟨_, _, rfl, hp, _, _, hx⟩
    | tail _ hc => exact ih hc

end Calls

namespace Told

theorem failed {f : SupervisionFault} (hf : ∀ path fault, f ≠ .removeStaleLog path fault) :
    Told s x n files memory (.failed f files) [] files where
  made := .nil
  requests := rfl
  finishes := by simp [Run.failed]
  files := Or.inl rfl
  stale path fault he := absurd (Ending.fault.inj he) (hf path fault)

theorem cons {kind : AttemptKind} {before found left : Files} {answer : Except ExecuteFault Outcome}
    {es : List Event} (hp : s.prepare (n + 1) before = .ok found)
    (hx : x.run (s.request (n + 1) kind) found memory = (answer, left, memory'))
    (he : ∀ w ∈ History.finishes es, w.request = s.request (n + 1) kind ∧ answer = .ok w.outcome ∧
      w.classification = s.classify w.outcome.exit w.outcome.log)
    (h : Told s x (n + 1) left memory' r calls last) :
    Told s x n before memory ((r.carriedOut (s.request (n + 1) kind)).heard es)
      (⟨s.request (n + 1) kind, before, found, answer, left⟩ :: calls) last := by
  have hl : n + 1 + calls.length + 1 = n + (calls.length + 1) + 1 := by omega
  constructor
  case made => exact .cons hp hx h.made
  case requests => simp [h.requests]
  case finishes =>
    intro w hw
    rw [Run.heard_events, Run.carriedOut_events, History.finishes, read_append,
      List.mem_append] at hw
    cases hw with
    | inl hw =>
      obtain ⟨hq, ha, hk⟩ := he w hw
      exact ⟨hk, _, List.mem_cons_self, hq.symm, ha⟩
    | inr hw =>
      obtain ⟨hk, call, hc, hq⟩ := h.finishes w hw
      exact ⟨hk, call, List.mem_cons_of_mem _ hc, hq⟩
  case files => simpa [hl] using h.files
  case stale => simpa [hl] using h.stale

end Told

theorem told_heard {es : List Event} (he : finishes es = [])
    (h : ∃ calls last, Told s x n files memory r calls last) :
    ∃ calls last, Told s x n files memory (r.heard es) calls last := by
  obtain ⟨calls, last, hm, hq, hf, hl, hs⟩ := h
  simp only [finishes] at he hf
  exact ⟨calls, last, hm, hq, by simpa [he] using hf, hl, hs⟩

theorem told_stopped {kind : AttemptKind}
    (h : attemptOnce s x listen t kind files memory = .stopped r) :
    ∃ calls last, Told s x t.attempts files memory r calls last := by
  cases attemptOnce_eq_iff.1 h with
  | @unprepared fault hp =>
    refine ⟨[], files, .nil, rfl, by simp [Run.failed], Or.inl rfl, fun path refusal he => ?_⟩
    rw [← Ending.fault.inj he]
    exact hp
  | unheard hp _ =>
    refine ⟨[], files, .nil, rfl, by simp [Run.failed], Or.inr hp, fun path refusal he => ?_⟩
    cases he
  | unrun hl hx => exact ⟨_, _, .cons hl.prepared hx (by simp) (.failed (by simp))⟩
  | unreported hl hx _ => exact ⟨_, _, .cons hl.prepared hx (by simp) (.failed (by simp))⟩

theorem finishes_after (l : Ledger) (step : Step) (k : Classification) :
    read Event.finish? (Decision.after l step k).events = [] :=
  read_decisions _ _ (fun e he => by cases e <;> simp at he ⊢) (Decision.decisions_after l step k)

theorem told_conclude {l : Ledger} {v : Verdict} :
    Told s x n files memory (conclude x listen t l v files memory) [] files := by
  unfold conclude
  dsimp only
  split
  · exact .failed (by simp)
  · exact ⟨.nil, rfl, by simp, Or.inl rfl, by simp⟩

theorem told_proceed {l : Ledger} {next : Next} (ha : t.attempts = n) : ∃ calls last,
    Told s x n files memory (proceed s x listen t l next files memory) calls last := by
  subst ha
  fun_induction proceed s x listen t l next files memory
  case case1 => exact ⟨_, _, told_conclude⟩
  case case2 hr => exact told_stopped hr
  case case3 t l files memory step events q k files' memory' hd d heard fault hp =>
    have hh := read_heard listen (t.events + 2) (finishes_after l step k)
    rw [hp] at hh
    cases attemptOnce_eq_iff.1 hd with
    | done hl hx _ => exact ⟨_, _, .cons hl.prepared hx (by simp [hh]) (.failed (by simp))⟩
  case case4 t l files memory step events q k files' memory' hd d heard hp ih =>
    obtain ⟨calls, last, ht⟩ := ih
    have hh := read_heard listen (t.events + 2) (finishes_after l step k)
    rw [hp] at hh
    cases attemptOnce_eq_iff.1 hd with
    | done hl hx _ => exact ⟨_, _, .cons hl.prepared hx (by simp [hh]) ht⟩

theorem told_begin : ∃ calls last,
    Told s x 0 files memory (begin s x listen files memory) calls last := by
  unfold begin
  dsimp only
  split
  · exact told_proceed rfl
  · next path _ =>
    split
    · exact ⟨_, _, .failed (by simp)⟩
    · next log _ =>
      have hn : read Event.finish? (.existingLogParsed path log (s.classifyExisting log) ::
          (Decision.afterFullRun (.start s.policy) (s.classifyExisting log)).events) = [] :=
        finishes_after (.start s.policy) .fullRun (s.classifyExisting log)
      have hh := read_heard listen 1 hn
      split
      · exact told_heard hh ⟨_, _, .failed (by simp)⟩
      · exact told_heard hh (told_proceed rfl)

/-- Every run is told by its calls. They start with the files as they were, with a
directory for the logs made where one was missing. -/
theorem told_supervise : ∃ start calls last,
    (start = files ∨ s.makeLogDirectory files = .ok start) ∧
    Told s x 0 start memory (supervise s x listen files memory) calls last := by
  unfold supervise
  split
  · exact ⟨files, _, _, Or.inl rfl, .failed (by simp)⟩
  · split
    · next fault hm =>
      refine ⟨files, _, _, Or.inl rfl, .failed ?_⟩
      obtain ⟨directory, refusal, rfl⟩ := Setup.makeLogDirectory_eq_error hm
      simp
    · next start hm =>
      dsimp only
      split
      · exact ⟨start, _, _, Or.inr hm, .failed (by simp)⟩
      · have hn : finishes [.started s.invocation s.policy] = [] := by simp
        obtain ⟨calls, last, ht⟩ := told_heard hn told_begin
        exact ⟨start, calls, last, Or.inr hm, ht⟩

end Retrial
