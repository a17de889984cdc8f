import Retrial.Supervision

/-!
# Reading the events of a run

The events that a run has reported are its history. They tell which attempts
were made and what each showed, which whole reruns were taken and what was
decided. Nothing here looks at the ledger: what the ledger holds is compared
with these readings later.
-/

set_option autoImplicit false

namespace Retrial

namespace AttemptKind

def isFullRun : AttemptKind → Bool
  | .fullRun => true
  | .rerun _ _ => false

def isRerunOf (c : TestCase) : AttemptKind → Bool
  | .fullRun => false
  | .rerun d _ => d == c

@[simp] theorem isFullRun_fullRun : isFullRun .fullRun = true := rfl

@[simp] theorem isFullRun_rerun (d : TestCase) (t : Ticket) : (rerun d t).isFullRun = false := rfl

@[simp] theorem isRerunOf_fullRun (c : TestCase) : isRerunOf c .fullRun = false := rfl

@[simp] theorem isRerunOf_rerun (c d : TestCase) (t : Ticket) :
    (rerun d t).isRerunOf c = (d == c) := rfl

end AttemptKind

def Classification.failures : Classification → List TestCase
  | .functionsFailed failures => failures
  | _ => []

namespace RerunReason

def isCrash : RerunReason → Bool
  | .crashed _ => true
  | .executableFailed _ => false

@[simp] theorem isCrash_crashed (reason : CrashReason) : (crashed reason).isCrash = true := rfl

@[simp] theorem isCrash_executableFailed (code : Int) :
    (executableFailed code).isCrash = false := rfl

end RerunReason

/-- What was seen of the whole binary: how it ended, its log, and the classification of both. -/
structure WholeResult where
  exit : Exit
  log : LogState
  classification : Classification

/-- What an attempt showed. A log that was there before the run is of no kind of attempt. -/
structure Showing where
  kind : Option AttemptKind
  classification : Classification

structure Finish where
  request : Request
  outcome : Outcome
  classification : Classification

namespace Event

@[simp] def isDecision : Event → Bool
  | .wholeRerunScheduled _ _ | .recovered _ _ | .confirmed _ _ => true
  | _ => false

@[simp] def request? : Event → Option Request
  | .attemptStarted q => some q
  | _ => none

/-- A result of the whole binary. A log that was there before the run stands
for one, with the exit code that its failures make. -/
@[simp] def whole? : Event → Option WholeResult
  | .existingLogParsed _ log k => some ⟨.exited (min log.failures.length 127), .parsed log, k⟩
  | .attemptFinished q o k => if q.kind.isFullRun then some ⟨o.exit, o.log, k⟩ else none
  | _ => none

@[simp] def showing? : Event → Option Showing
  | .existingLogParsed _ _ k => some ⟨none, k⟩
  | .attemptFinished q _ k => some ⟨some q.kind, k⟩
  | _ => none

@[simp] def finish? : Event → Option Finish
  | .attemptFinished q o k => some ⟨q, o, k⟩
  | _ => none

@[simp] def wholeRerun? : Event → Option RerunReason
  | .wholeRerunScheduled reason _ => some reason
  | _ => none

@[simp] def confirmed? : Event → Option TestCase
  | .confirmed c _ => some c
  | _ => none

@[simp] def recovered? : Event → Option TestCase
  | .recovered c _ => some c
  | _ => none

end Event

@[simp] def fullRuns (qs : List Request) : Nat := qs.countP (·.kind.isFullRun)

@[simp] def rerunsOf (c : TestCase) (qs : List Request) : Nat := qs.countP (·.kind.isRerunOf c)

namespace History

/-- What a reading finds in the events, in their order. -/
def read {α : Type} (f : Event → Option α) (es : List Event) : List α := es.filterMap f

section Read

variable {α : Type} (f : Event → Option α) (e : Event) (es es' : List Event)

@[simp] theorem read_nil : read f [] = [] := rfl

@[simp] theorem read_cons : read f (e :: es) = (f e).toList ++ read f es := by
  unfold read
  cases h : f e <;> simp [h]

@[simp] theorem read_append : read f (es ++ es') = read f es ++ read f es' :=
  List.filterMap_append

theorem read_initial {es es' : List Event} (h : es <+: es') : read f es <+: read f es' :=
  h.filterMap f

theorem read_decisions (hf : ∀ e : Event, e.isDecision = true → f e = none)
    (h : ∀ e ∈ es, e.isDecision = true) : read f es = [] :=
  List.filterMap_eq_nil_iff.2 fun e he => hf e (h e he)

end Read

def requests (es : List Event) : List Request := read Event.request? es

@[simp] theorem requests_nil : requests [] = [] := rfl

@[simp] theorem requests_cons (e : Event) (es : List Event) :
    requests (e :: es) = e.request?.toList ++ requests es :=
  read_cons _ e es

@[simp] theorem requests_append (es es' : List Event) :
    requests (es ++ es') = requests es ++ requests es' :=
  read_append _ es es'

theorem mem_requests {q : Request} {es : List Event} :
    q ∈ requests es ↔ .attemptStarted q ∈ es := by
  have hr : ∀ e : Event, e.request? = some q ↔ e = .attemptStarted q := by
    intro e
    cases e <;> simp
  simp only [requests, read, List.mem_filterMap, hr]
  exact ⟨fun ⟨_, he, h⟩ => h ▸ he, fun he => ⟨_, he, rfl⟩⟩

@[simp] def wholeResults (es : List Event) : List WholeResult := read Event.whole? es

@[simp] def showings (es : List Event) : List Showing := read Event.showing? es

@[simp] def finishes (es : List Event) : List Finish := read Event.finish? es

@[simp] def wholeReruns (es : List Event) : List RerunReason := read Event.wholeRerun? es

@[simp] def confirmed (es : List Event) : List TestCase := read Event.confirmed? es

@[simp] def recovered (es : List Event) : List TestCase := read Event.recovered? es

@[simp] def reported (es : List Event) : List TestCase :=
  (wholeResults es).flatMap (·.classification.failures)

@[simp] def passes (c : TestCase) (es : List Event) : Nat :=
  (showings es).countP fun w => w.kind.any (·.isRerunOf c) && w.classification == .passed

def rerunResults (c : TestCase) (es : List Event) : List Classification :=
  (showings es).filterMap fun w =>
    if w.kind.any (·.isRerunOf c) then some w.classification else none

@[simp] theorem rerunResults_append (c : TestCase) (es es' : List Event) :
    rerunResults c (es ++ es') = rerunResults c es ++ rerunResults c es' := by
  simp [rerunResults]

theorem passes_eq_count (c : TestCase) (es : List Event) :
    passes c es = (rerunResults c es).count .passed := by
  unfold passes rerunResults
  rw [List.count, List.countP_filterMap]
  exact List.countP_congr fun w _ => by cases w.kind.any (·.isRerunOf c) <;> simp

@[simp] def crashReruns (es : List Event) : Nat := (wholeReruns es).countP (·.isCrash)

@[simp] def executableReruns (es : List Event) : Nat := (wholeReruns es).countP (!·.isCrash)

theorem mem_confirmed {c : TestCase} {es : List Event} :
    c ∈ confirmed es ↔ ∃ n, Event.confirmed c n ∈ es := by
  unfold confirmed read
  rw [List.mem_filterMap]
  constructor
  · rintro ⟨e, he, h⟩
    cases e with
    | confirmed d n =>
      obtain rfl : d = c := by simpa using h
      exact ⟨n, he⟩
    | _ => simp at h
  · rintro ⟨n, h⟩
    exact ⟨_, h, rfl⟩

end History

end Retrial
