import Retrial.Proofs.History

/-!
# The course of a run

A run is told again as a sequence of single moves. Between two moves it is in a
phase: an attempt is next, a classification is to be met, cases are to be
confirmed, a whole rerun is wanted, or the verdict has been reached. Each move
reports some events and changes the ledger by one operation at most. The main
statement is that supervision follows these moves, whatever the executor answers
and wherever a fault cuts it short; so what every move preserves holds of every run.
-/

set_option autoImplicit false

namespace Retrial

inductive Phase
  | attempting (step : Step)
  | met (step : Step) (shown : Classification)
  | confirming (cases : List TestCase)
  | wanting (reason : RerunReason)
  | closed (verdict : Verdict)

@[simp] def Next.phase : Next → Phase
  | .attempt step => .attempting step
  | .stop v => .closed v

namespace RerunReason

def take? (l : Ledger) : RerunReason → Option Ledger
  | .crashed reason => if reason.allowsRerun then l.takeCrash? else none
  | .executableFailed _ => l.takeExecutable?

def left (l : Ledger) : RerunReason → Nat
  | .crashed _ => l.crashLeft
  | .executableFailed _ => 0

@[simp] def verdict : RerunReason → Verdict
  | .crashed _ => .crash
  | .executableFailed _ => .fail

end RerunReason

/-- The events, the ledger and the phase that a run with a setup can come to. -/
inductive Course (s : Setup) : List Event → Ledger → Phase → Prop
  | fresh : s.policy.fault? = none → s.existingLog = none →
      Course s [.started s.invocation s.policy] (.start s.policy) (.attempting .fullRun)
  | existing {path : String} (log : TestLog) :
      s.policy.fault? = none → s.existingLog = some path →
      Course s [.started s.invocation s.policy, .existingLogParsed path log (s.classifyExisting log)]
        (.start s.policy) (.met .fullRun (s.classifyExisting log))
  | attempted {es : List Event} {l : Ledger} {step : Step} (q : Request) (o : Outcome)
      (k : Classification) : Course s es l (.attempting step) →
      q = s.request ((History.requests es).length + 1) step.kind → k = s.classify o.exit o.log →
      Course s (es ++ [.attemptStarted q, .attemptFinished q o k]) l (.met step k)
  | passed {es : List Event} {l : Ledger} :
      Course s es l (.met .fullRun .passed) → Course s es l (.confirming [])
  | failed {es : List Event} {l : Ledger} {failures : List TestCase} :
      Course s es l (.met .fullRun (.functionsFailed failures)) →
      Course s es (l.beginConfirmation failures) (.confirming (l.beginConfirmation failures).pending)
  | executableFailed {es : List Event} {l : Ledger} {code : Int} :
      Course s es l (.met .fullRun (.executableFailed code)) →
      Course s es l (.wanting (.executableFailed code))
  | crashed {es : List Event} {l : Ledger} {step : Step} {reason : CrashReason} :
      Course s es l (.met step (.crashed reason)) → Course s es l (.wanting (.crashed reason))
  | recovered {es : List Event} {l l' : Ledger} {c : TestCase} {t : Ticket} {later : List TestCase} :
      Course s es l (.met (.rerun c t later) .passed) → l.recordPass c = (true, l') →
      Course s (es ++ [.recovered c t.rerun]) l' (.confirming later)
  | counted {es : List Event} {l l' : Ledger} {c : TestCase} {t : Ticket} {later : List TestCase} :
      Course s es l (.met (.rerun c t later) .passed) → l.recordPass c = (false, l') →
      Course s es l' (.confirming (c :: later))
  | repeated {es : List Event} {l : Ledger} {c : TestCase} {t : Ticket} {later : List TestCase}
      {k : Classification} : Course s es l (.met (.rerun c t later) k) →
      k ≠ .passed → (∀ reason, k ≠ .crashed reason) → Course s es l (.confirming (c :: later))
  | scheduled {es : List Event} {l l' : Ledger} {reason : RerunReason} :
      Course s es l (.wanting reason) → reason.take? l = some l' →
      Course s (es ++ [.wholeRerunScheduled reason (reason.left l')]) l' (.attempting .fullRun)
  | givenUp {es : List Event} {l : Ledger} {reason : RerunReason} :
      Course s es l (.wanting reason) → reason.take? l = none →
      Course s es l (.closed reason.verdict)
  | granted {es : List Event} {l l' : Ledger} {c : TestCase} {t : Ticket} {later : List TestCase} :
      Course s es l (.confirming (c :: later)) → l.nextRerun? c = some (t, l') →
      Course s es l' (.attempting (.rerun c t later))
  | confirmed {es : List Event} {l : Ledger} {c : TestCase} {later : List TestCase} :
      Course s es l (.confirming (c :: later)) → l.nextRerun? c = none →
      Course s (es ++ [.confirmed c ((l.confirm c).rerunsOf c)]) (l.confirm c) (.confirming later)
  | settled {es : List Event} {l : Ledger} :
      Course s es l (.confirming []) → Course s es l (.closed l.settled)

namespace Course

variable {s : Setup} {es : List Event} {l : Ledger}

theorem valid {φ : Phase} (h : Course s es l φ) : s.policy.fault? = none := by
  induction h <;> assumption

theorem confirmFrom {cs : List TestCase} (h : Course s es l (.confirming cs)) :
    Course s (es ++ (Decision.confirmFrom l cs).events) (Decision.confirmFrom l cs).ledger
      (Decision.confirmFrom l cs).next.phase := by
  induction cs generalizing es l with
  | nil => simpa [Decision.confirmFrom] using h.settled
  | cons c later ih =>
    unfold Decision.confirmFrom
    split
    · next t l' e => simpa using h.granted e
    · next e => simpa using ih (h.confirmed e)

theorem afterWanting {reason : CrashReason} (h : Course s es l (.wanting (.crashed reason))) :
    Course s (es ++ (Decision.afterCrash l reason).events) (Decision.afterCrash l reason).ledger
      (Decision.afterCrash l reason).next.phase := by
  unfold Decision.afterCrash
  split
  · next ha =>
    split
    · next l' e => exact h.scheduled (by simpa [RerunReason.take?, ha] using e)
    · next e => simpa using h.givenUp (by simpa [RerunReason.take?, ha] using e)
  · next ha => simpa using h.givenUp (by simp [RerunReason.take?, ha])

theorem afterFullRun {k : Classification} (h : Course s es l (.met .fullRun k)) :
    Course s (es ++ (Decision.afterFullRun l k).events) (Decision.afterFullRun l k).ledger
      (Decision.afterFullRun l k).next.phase := by
  cases k with
  | passed => simpa [Decision.afterFullRun] using h.passed.settled
  | executableFailed code =>
    unfold Decision.afterFullRun
    dsimp only
    split
    · next l' e => exact h.executableFailed.scheduled e
    · next e => simpa using h.executableFailed.givenUp e
  | functionsFailed failures => exact h.failed.confirmFrom
  | crashed reason => exact h.crashed.afterWanting

theorem afterRerun {c : TestCase} {t : Ticket} {later : List TestCase} {k : Classification}
    (h : Course s es l (.met (.rerun c t later) k)) :
    Course s (es ++ (Decision.afterRerun l c t later k).events)
      (Decision.afterRerun l c t later k).ledger
      (Decision.afterRerun l c t later k).next.phase := by
  cases k with
  | passed =>
    unfold Decision.afterRerun
    dsimp only
    split
    · next l' e => simpa using (h.recovered e).confirmFrom
    · next l' e => exact (h.counted e).confirmFrom
  | functionsFailed failures => exact (h.repeated (by simp) (by simp)).confirmFrom
  | executableFailed code => exact (h.repeated (by simp) (by simp)).confirmFrom
  | crashed reason => exact h.crashed.afterWanting

/-- A decision is a sequence of moves. -/
theorem after {step : Step} {k : Classification} (h : Course s es l (.met step k)) :
    Course s (es ++ (Decision.after l step k).events) (Decision.after l step k).ledger
      (Decision.after l step k).next.phase := by
  cases step with
  | fullRun => exact h.afterFullRun
  | rerun c t later => exact h.afterRerun

end Course

namespace Decision

theorem decisions_confirmFrom (l : Ledger) (cs : List TestCase) :
    ∀ e ∈ (confirmFrom l cs).events, e.isDecision = true := by
  induction cs generalizing l with
  | nil => simp [confirmFrom]
  | cons c later ih =>
    unfold confirmFrom
    split
    · simp
    · simpa using ih (l.confirm c)

theorem decisions_afterCrash (l : Ledger) (reason : CrashReason) :
    ∀ e ∈ (afterCrash l reason).events, e.isDecision = true := by
  unfold afterCrash
  split
  · split <;> simp
  · simp

theorem decisions_after (l : Ledger) (step : Step) (k : Classification) :
    ∀ e ∈ (after l step k).events, e.isDecision = true := by
  cases step with
  | fullRun =>
    cases k with
    | passed => simp [after, afterFullRun]
    | functionsFailed failures => exact decisions_confirmFrom _ _
    | executableFailed code =>
      simp only [after, afterFullRun]
      split <;> simp
    | crashed reason => exact decisions_afterCrash l reason
  | rerun c t later =>
    cases k with
    | passed =>
      simp only [after, afterRerun]
      split
      · simpa using decisions_confirmFrom _ later
      · exact decisions_confirmFrom _ (c :: later)
    | functionsFailed failures => exact decisions_confirmFrom l (c :: later)
    | executableFailed code => exact decisions_confirmFrom l (c :: later)
    | crashed reason => exact decisions_afterCrash l reason

theorem requests_after (l : Ledger) (step : Step) (k : Classification) :
    History.requests (after l step k).events = [] :=
  History.read_decisions _ _ (fun e he => by cases e <;> simp at he ⊢) (decisions_after l step k)

theorem showings_after (l : Ledger) (step : Step) (k : Classification) :
    History.read Event.showing? (after l step k).events = [] :=
  History.read_decisions _ _ (fun e he => by cases e <;> simp at he ⊢) (decisions_after l step k)

end Decision

theorem publish_refused {listen : Listener} {count : Nat} {e : Event} {es : List Event}
    {fault : IoFault} (h : listen count e = some fault) :
    publish listen count (e :: es) = ([], some fault) := by
  simp only [publish, h]

theorem publish_heard {listen : Listener} {count : Nat} {e : Event} {es : List Event}
    (h : listen count e = none) : publish listen count (e :: es) =
      (e :: (publish listen (count + 1) es).1, (publish listen (count + 1) es).2) := by
  simp only [publish, h]

theorem publish_initial (listen : Listener) (count : Nat) (es : List Event) :
    (publish listen count es).1 <+: es := by
  induction es generalizing count with
  | nil => simp [publish]
  | cons e es ih =>
    unfold publish
    split
    · simp
    · simpa using ih (count + 1)

theorem publish_all {listen : Listener} {count : Nat} {es : List Event}
    (h : (publish listen count es).2 = none) : (publish listen count es).1 = es := by
  induction es generalizing count with
  | nil => rfl
  | cons e es ih =>
    unfold publish at h ⊢
    split
    · next hr => simp [hr] at h
    · next hr =>
      rw [hr] at h
      exact congrArg (e :: ·) (ih h)

theorem read_heard {α : Type} {f : Event → Option α} {es : List Event} (listen : Listener)
    (count : Nat) (h : History.read f es = []) :
    History.read f (publish listen count es).1 = [] := by
  have hp : History.read f _ <+: History.read f es :=
    History.read_initial f (publish_initial listen count es)
  rwa [h, List.prefix_nil] at hp

theorem requests_heard (listen : Listener) (count : Nat) {es : List Event}
    (h : History.requests es = []) : History.requests (publish listen count es).1 = [] :=
  read_heard listen count h

/-- What a run has reported when it is over, and how it ended: with a summary of
its course, with a fault in the middle of it, or with a fault before it began. -/
inductive Concluded (s : Setup) : List Event → Ending → Prop
  | summarised {es : List Event} {l : Ledger} {v : Verdict} (elapsed : Duration) :
      Course s es l (.closed v) →
      Concluded s (es ++ [.finished v l.confirmed l.recovered (History.requests es).length elapsed])
        (.summary ⟨v, (History.requests es).length, fullRuns (History.requests es), l.confirmed,
          l.recovered, elapsed⟩)
  | interrupted {es tail : List Event} {l : Ledger} {φ : Phase} (f : SupervisionFault) :
      Course s es l φ → History.requests tail = [] ∨ (∃ step, φ = .attempting step ∧
        History.requests tail = [s.request ((History.requests es).length + 1) step.kind]) →
      Concluded s (es ++ tail) (.fault f)
  | unstarted {es : List Event} (f : SupervisionFault) :
      History.requests es = [] → Concluded s es (.fault f)

variable {Memory : Type} {s : Setup} {x : Executor Memory} {listen : Listener} {t : Tally}
  {files files' : Files} {memory memory' : Memory}

theorem Setup.prepare_eq_error {attempt : Nat} {fault : SupervisionFault}
    (h : s.prepare attempt files = .error fault) :
    ∃ path refusal, fault = .removeStaleLog path refusal := by
  unfold Setup.prepare at h
  split at h
  · cases h
  · next namer _ =>
    cases hn : namer.prepare attempt files with
    | ok files => rw [hn] at h; cases h
    | error refusal => rw [hn] at h; cases h; exact ⟨_, _, rfl⟩

theorem Setup.makeLogDirectory_eq_error {fault : SupervisionFault}
    (h : s.makeLogDirectory files = .error fault) :
    ∃ directory refusal, fault = .createLogDir directory refusal := by
  unfold Setup.makeLogDirectory at h
  split at h
  · cases hn : files.createDirectories s.logDirectory with
    | ok files => rw [hn] at h; cases h
    | error refusal => rw [hn] at h; cases h; exact ⟨_, _, rfl⟩
  · cases h

structure Launched (s : Setup) (listen : Listener) (t : Tally) (kind : AttemptKind)
    (files ready : Files) : Prop where
  prepared : s.prepare (t.attempts + 1) files = .ok ready
  heard : listen t.events (.attemptStarted (s.request (t.attempts + 1) kind)) = none

inductive Attempted (s : Setup) (x : Executor Memory) (listen : Listener) (t : Tally)
    (kind : AttemptKind) (files : Files) (memory : Memory) : AttemptResult Memory → Prop
  | unprepared {fault : SupervisionFault} : s.prepare (t.attempts + 1) files = .error fault →
      Attempted s x listen t kind files memory (.stopped (.failed fault files))
  | unheard {ready : Files} {fault : IoFault} : s.prepare (t.attempts + 1) files = .ok ready →
      listen t.events (.attemptStarted (s.request (t.attempts + 1) kind)) = some fault →
      Attempted s x listen t kind files memory (.stopped (.failed (.writeEvent fault) ready))
  | unrun {ready left : Files} {memory' : Memory} {fault : ExecuteFault} :
      Launched s listen t kind files ready →
      x.run (s.request (t.attempts + 1) kind) ready memory = (.error fault, left, memory') →
      Attempted s x listen t kind files memory
        (.stopped (((Run.failed (.execute fault) left).carriedOut
          (s.request (t.attempts + 1) kind)).heard
            [.attemptStarted (s.request (t.attempts + 1) kind)]))
  | unreported {ready left : Files} {memory' : Memory} {o : Outcome} {fault : IoFault} :
      Launched s listen t kind files ready →
      x.run (s.request (t.attempts + 1) kind) ready memory = (.ok o, left, memory') →
      listen (t.events + 1) (.attemptFinished (s.request (t.attempts + 1) kind) o
        (s.classify o.exit o.log)) = some fault →
      Attempted s x listen t kind files memory
        (.stopped (((Run.failed (.writeEvent fault) left).carriedOut
          (s.request (t.attempts + 1) kind)).heard
            [.attemptStarted (s.request (t.attempts + 1) kind)]))
  | done {ready left : Files} {memory' : Memory} {o : Outcome} :
      Launched s listen t kind files ready →
      x.run (s.request (t.attempts + 1) kind) ready memory = (.ok o, left, memory') →
      listen (t.events + 1) (.attemptFinished (s.request (t.attempts + 1) kind) o
        (s.classify o.exit o.log)) = none →
      Attempted s x listen t kind files memory
        (.done [.attemptStarted (s.request (t.attempts + 1) kind),
            .attemptFinished (s.request (t.attempts + 1) kind) o (s.classify o.exit o.log)]
          (s.request (t.attempts + 1) kind) (s.classify o.exit o.log) left memory')

variable {kind : AttemptKind}

theorem attempted_attemptOnce : Attempted s x listen t kind files memory
    (attemptOnce s x listen t kind files memory) := by
  unfold attemptOnce
  split
  · next hp => exact .unprepared hp
  · next hp =>
    dsimp only
    split
    · next hl => exact .unheard hp hl
    · next hl =>
      split
      · next hx => exact .unrun ⟨hp, hl⟩ hx
      · next hx =>
        split
        · next hr => exact .unreported ⟨hp, hl⟩ hx hr
        · next hr => exact .done ⟨hp, hl⟩ hx hr

theorem attemptOnce_eq_iff {a : AttemptResult Memory} :
    attemptOnce s x listen t kind files memory = a ↔
      Attempted s x listen t kind files memory a := by
  refine ⟨fun h => h ▸ attempted_attemptOnce, fun h => ?_⟩
  cases h with
  | unprepared hp => simp only [attemptOnce, hp]
  | unheard hp hl => simp only [attemptOnce, hp, hl]
  | unrun h hx => simp only [attemptOnce, h.prepared, h.heard, hx]
  | unreported h hx hr => simp only [attemptOnce, h.prepared, h.heard, hx, hr]
  | done h hx hr => simp only [attemptOnce, h.prepared, h.heard, hx, hr]

theorem attemptOnce_stopped {r : Run}
    (h : attemptOnce s x listen t kind files memory = .stopped r) :
    r.requests = History.requests r.events ∧ (∃ f, r.ending = .fault f) ∧
      (r.requests = [] ∨ r.requests = [s.request (t.attempts + 1) kind]) := by
  cases attemptOnce_eq_iff.1 h <;> simp [Run.failed]

theorem launched_of_stopped {r : Run}
    (h : attemptOnce s x listen t kind files memory = .stopped r) :
    r.events = [] ∨ (∃ ready, Launched s listen t kind files ready) ∧
      r.events = [.attemptStarted (s.request (t.attempts + 1) kind)] := by
  cases attemptOnce_eq_iff.1 h with
  | unprepared | unheard => exact Or.inl rfl
  | unrun hl | unreported hl => exact Or.inr ⟨⟨_, hl⟩, rfl⟩

theorem attemptOnce_done {es : List Event} {q : Request} {k : Classification}
    (h : attemptOnce s x listen t kind files memory = .done es q k files' memory') :
    q = s.request (t.attempts + 1) kind ∧ ∃ o, k = s.classify o.exit o.log ∧
      es = [.attemptStarted q, .attemptFinished q o k] := by
  cases attemptOnce_eq_iff.1 h with
  | @done _ _ _ o => exact ⟨rfl, o, rfl, rfl⟩

theorem proceed_stopped {l : Ledger} {step : Step} {r : Run}
    (h : attemptOnce s x listen t step.kind files memory = .stopped r) :
    proceed s x listen t l (.attempt step) files memory = r := by
  rw [proceed]
  simp only [h]

theorem proceed_done {l : Ledger} {step : Step} {es : List Event} {q : Request} {k : Classification}
    (h : attemptOnce s x listen t step.kind files memory = .done es q k files' memory') :
    proceed s x listen t l (.attempt step) files memory =
      match publish listen (t.events + 2) (Decision.after l step k).events with
      | (heard, some fault) =>
        ((Run.failed (.writeEvent fault) files').carriedOut q).heard (es ++ heard)
      | (heard, none) =>
        ((proceed s x listen (t.after step (2 + (Decision.after l step k).events.length))
          (Decision.after l step k).ledger (Decision.after l step k).next files'
          memory').carriedOut q).heard (es ++ heard) := by
  rw [proceed]
  simp only [h]
  generalize publish listen (t.events + 2) (Decision.after l step k).events = p
  obtain ⟨heard, refusal⟩ := p
  cases refusal <;> rfl

structure Setup.Resembles (s s' : Setup) : Prop where
  request : s'.request = s.request
  prepare : s'.prepare = s.prepare
  classify : s'.classify = s.classify

theorem attemptOnce_congr {s' : Setup} (h : s.Resembles s') :
    attemptOnce s' x listen t kind files memory = attemptOnce s x listen t kind files memory := by
  simp only [attemptOnce, h.request, h.prepare, h.classify]

/-- Behind its beginning a run reads nothing else of its setup. -/
theorem proceed_congr {s' : Setup} {l : Ledger} {next : Next} (h : s.Resembles s') :
    proceed s' x listen t l next files memory = proceed s x listen t l next files memory := by
  fun_induction proceed s x listen t l next files memory
  case case1 => rw [proceed]
  case case2 hr => exact proceed_stopped ((attemptOnce_congr h).trans hr)
  case case3 t l files memory step es q k files' memory' hd d heard fault hp =>
    have hp' : publish listen (t.events + 2) (Decision.after l step k).events =
        (heard, some fault) := hp
    rw [proceed_done ((attemptOnce_congr h).trans hd), hp']
  case case4 t l files memory step es q k files' memory' hd d heard hp ih =>
    have hp' : publish listen (t.events + 2) (Decision.after l step k).events = (heard, none) := hp
    rw [proceed_done ((attemptOnce_congr h).trans hd), hp', ih]

theorem concluded_conclude {es : List Event} {l : Ledger} {v : Verdict}
    (h : Course s es l (.closed v))
    (ha : t.attempts = (History.requests es).length)
    (hf : t.fullRuns = fullRuns (History.requests es)) :
    Concluded s (es ++ (conclude x listen t l v files memory).events)
      (conclude x listen t l v files memory).ending := by
  unfold conclude
  dsimp only
  split
  · exact .interrupted _ h (Or.inl rfl)
  · rw [ha, hf]
    exact .summarised _ h

theorem concluded_proceed {es : List Event} {l : Ledger} {n : Next} (h : Course s es l n.phase)
    (ha : t.attempts = (History.requests es).length)
    (hf : t.fullRuns = fullRuns (History.requests es)) :
    Concluded s (es ++ (proceed s x listen t l n files memory).events)
      (proceed s x listen t l n files memory).ending := by
  fun_induction proceed s x listen t l n files memory generalizing es
  case case1 => exact concluded_conclude h ha hf
  case case2 t l files memory step r hr =>
    obtain ⟨hq, ⟨f, he⟩, hk⟩ := attemptOnce_stopped hr
    rw [he]
    rw [hq, ha] at hk
    exact .interrupted f h (hk.imp_right fun hk => ⟨step, rfl, hk⟩)
  case case3 t l files memory step events q k files' memory' hd d heard fault hp =>
    obtain ⟨hq, o, hk, rfl⟩ := attemptOnce_done hd
    have hc := h.attempted q o k (ha ▸ hq) hk
    have hr := requests_heard listen (t.events + 2) (Decision.requests_after l step k)
    rw [hp] at hr
    simpa [Run.failed] using Concluded.interrupted (.writeEvent fault) hc (Or.inl hr)
  case case4 t l files memory step events q k files' memory' hd d heard hp ih =>
    obtain ⟨hq, o, hk, rfl⟩ := attemptOnce_done hd
    have hc := (h.attempted q o k (ha ▸ hq) hk).after
    have hh : heard = d.events := by simpa [hp] using publish_all (congrArg Prod.snd hp)
    have hr : History.requests (es ++ [.attemptStarted q, .attemptFinished q o k] ++
        (Decision.after l step k).events) = History.requests es ++ [q] := by
      simp [Decision.requests_after]
    have hs : q.kind.isFullRun = decide (step = .fullRun) := by
      rw [hq]; cases step <;> rfl
    subst hh
    simpa using ih hc (by rw [hr]; simp [Tally.after, ha])
      (by rw [hr]; simp [Tally.after, hf, hs, fullRuns, List.countP_cons])

theorem requests_existing (l : Ledger) (path : String) (log : TestLog) (k : Classification) :
    History.requests (.existingLogParsed path log k :: (Decision.afterFullRun l k).events) = [] :=
  Decision.requests_after l .fullRun k

theorem concluded_begin (hv : s.policy.fault? = none) :
    Concluded s (.started s.invocation s.policy :: (begin s x listen files memory).events)
      (begin s x listen files memory).ending := by
  unfold begin
  dsimp only
  split
  · next he => exact concluded_proceed (n := .attempt .fullRun) (.fresh hv he) rfl rfl
  · next path he =>
    split
    · exact .unstarted _ rfl
    · next log _ =>
      have hr := requests_existing (.start s.policy) path log (s.classifyExisting log)
      split
      · exact .unstarted _ (by simpa [Run.failed] using requests_heard listen 1 hr)
      · next hp =>
        rw [publish_all hp]
        exact concluded_proceed (Course.existing log hv he).after (congrArg List.length hr).symm
          (congrArg fullRuns hr).symm

theorem concluded_supervise (s : Setup) (x : Executor Memory) (listen : Listener) (files : Files)
    (memory : Memory) :
    Concluded s (supervise s x listen files memory).events
      (supervise s x listen files memory).ending := by
  unfold supervise
  split
  · exact .unstarted _ rfl
  · next hv =>
    split
    · exact .unstarted _ rfl
    · dsimp only
      split
      · exact .unstarted _ rfl
      · exact concluded_begin hv

theorem conclude_requests {l : Ledger} {v : Verdict} :
    (conclude x listen t l v files memory).requests =
      History.requests (conclude x listen t l v files memory).events := by
  unfold conclude
  dsimp only
  split <;> rfl

theorem proceed_requests {l : Ledger} {n : Next} :
    (proceed s x listen t l n files memory).requests =
      History.requests (proceed s x listen t l n files memory).events := by
  fun_induction proceed s x listen t l n files memory
  case case1 => exact conclude_requests
  case case2 t l files memory step r hr => exact (attemptOnce_stopped hr).1
  case case3 t l files memory step events q k files' memory' hd d heard fault hp =>
    obtain ⟨-, o, -, rfl⟩ := attemptOnce_done hd
    have hr := requests_heard listen (t.events + 2) (Decision.requests_after l step k)
    rw [hp] at hr
    simp [Run.failed, hr]
  case case4 t l files memory step events q k files' memory' hd d heard hp ih =>
    obtain ⟨-, o, -, rfl⟩ := attemptOnce_done hd
    have hr := requests_heard listen (t.events + 2) (Decision.requests_after l step k)
    rw [hp] at hr
    simp [hr, ih]

theorem begin_requests : (begin s x listen files memory).requests =
    History.requests (begin s x listen files memory).events := by
  unfold begin
  dsimp only
  split
  · exact proceed_requests
  · split
    · rfl
    · next path _ _ log _ =>
      have hr := requests_existing (.start s.policy) path log (s.classifyExisting log)
      split
      · simpa [Run.failed] using (requests_heard listen 1 hr).symm
      · next hp =>
        rw [publish_all hp]
        rw [Run.heard_requests, Run.heard_events, History.requests_append, hr]
        exact proceed_requests

theorem supervise_requests : (supervise s x listen files memory).requests =
    History.requests (supervise s x listen files memory).events := by
  unfold supervise
  split
  · rfl
  · split
    · rfl
    · dsimp only
      split
      · rfl
      · exact begin_requests

/-- A summary is that of a course that is over. -/
theorem course_of_summary {sm : Summary}
    (h : (supervise s x listen files memory).ending = .summary sm) :
    ∃ es l, Course s es l (.closed sm.verdict) ∧ sm = ⟨sm.verdict, (History.requests es).length,
        fullRuns (History.requests es), l.confirmed, l.recovered, sm.elapsed⟩ ∧
      (supervise s x listen files memory).events =
        es ++ [.finished sm.verdict l.confirmed l.recovered (History.requests es).length
          sm.elapsed] := by
  have he := concluded_supervise s x listen files memory
  rw [h] at he
  generalize (supervise s x listen files memory).events = all at he
  cases he with
  | summarised elapsed hc => exact ⟨_, _, hc, rfl, rfl⟩

end Retrial
