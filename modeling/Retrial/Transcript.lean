import Retrial.Event
import Retrial.Text.Quoted

/-!
# The transcript of a run

What is written for each event. A line begins with a status word that is
right-aligned in twelve columns; the output of an attempt stands between its
headers byte for byte. The text of an event is first laid out in pieces, and
color is put around the pieces that have a role, so that it can add nothing else.
-/

set_option autoImplicit false

namespace Retrial.Transcript

open Retrial.Text

inductive Role
  | count
  | pass
  | retry
  | fail
  | testCase
  deriving DecidableEq, Repr

inductive Piece
  | plain (text : String)
  | styled (role : Role) (text : String)
  | raw (bytes : Bytes)
  deriving DecidableEq, Repr

structure Look where
  colored : Bool
  verbose : Bool
  deriving DecidableEq, Repr

def Role.sequence : Role → String
  | .count => "\x1b[1m"
  | .pass => "\x1b[32;1m"
  | .retry => "\x1b[35;1m"
  | .fail => "\x1b[31;1m"
  | .testCase => "\x1b[34;1m"

def resetSequence : String := "\x1b[0m"

def Piece.bytes (colored : Bool) : Piece → Bytes
  | .plain text => encodeString text
  | .raw bytes => bytes
  | .styled role text =>
    if colored then encodeString role.sequence ++ encodeString text ++ encodeString resetSequence
    else encodeString text

def bytes (colored : Bool) (pieces : List Piece) : Bytes := pieces.flatMap (Piece.bytes colored)

def column (text : String) : String :=
  String.ofList (List.replicate (12 - text.length) ' ') ++ text

def status (role : Role) (word : String) : List Piece := [.styled role (column word), .plain " "]

def label (word : String) : Piece := .plain (column word ++ " ")

def count (n : Nat) : Piece := .styled .count (toString n)

def case (c : TestCase) : Piece := .styled .testCase c.text

def cases (cs : List TestCase) : List Piece := (cs.map case).intersperse (.plain ", ")

def plural (n : Nat) (word : String) : String := if n == 1 then word else word ++ "s"

def line : Piece := .plain "\n"

def classificationStatus : Classification → List Piece
  | .passed => status .pass "PASS"
  | .functionsFailed _ => status .fail "FAIL"
  | .executableFailed _ => status .fail "FAIL"
  | .crashed _ => status .fail "CRASH"

def classificationText : Classification → List Piece
  | .passed => [.plain "all test functions passed"]
  | .functionsFailed failures =>
    [count failures.length, .plain (" " ++ plural failures.length "test case" ++ " failed: ")] ++
      cases failures
  | .executableFailed code => [.plain ("test binary exited with code " ++ toString code)]
  | .crashed reason => [.plain reason.text]

def classification (timing : Option (Nat × Duration)) (c : Classification) : List Piece :=
  classificationStatus c ++
    (match timing with
      | some (attempt, duration) =>
        [.plain (duration.bracketed ++ " attempt " ++ toString attempt ++ ": ")]
      | none => []) ++
    classificationText c ++ [line]

def started (i : Invocation) (p : Policy) : List Piece :=
  status .pass "Supervising" ++
    [.styled .testCase (i.logBaseName.getD i.command.program), .plain " with up to ",
      count p.maxRepeats, .plain (" " ++ plural p.maxRepeats "rerun" ++ " per failing test case and "),
      count p.crashReruns, .plain (" crash " ++ plural p.crashReruns "rerun"), line] ++
    if i.wantsLog then []
    else status .count "Note" ++
      [.plain "no XML log is requested, attempts are judged by exit code", line]

def attemptStatus : AttemptKind → List Piece
  | .fullRun => status .pass "RUNNING"
  | .rerun _ ticket => status .retry (if ticket.verbose then "VERBOSE RUN" else "RERUNNING")

def attemptText (attempt : Nat) : AttemptKind → List Piece
  | .fullRun => [.plain ("attempt " ++ toString attempt ++ ": whole test binary"), line]
  | .rerun testCase ticket =>
    [.plain ("attempt " ++ toString attempt ++ ": "), case testCase,
      .plain (" (rerun " ++ toString ticket.rerun ++ "/" ++ toString ticket.budget ++ ")"), line]

def commandText (q : Request) : List Piece :=
  [label "command", .plain (commandLine q.args), line] ++
    q.env.flatMap fun p => [label "env", .plain (p.1 ++ "=" ++ p.2), line]

/-- Captured output, closed by a newline if it has none at its end. -/
def outputText (output : Bytes) : List Piece :=
  .raw output :: if output.isEmpty || output.getLast? == some 10 then [] else [line]

def wholeRerun (reason : RerunReason) (left : Nat) : List Piece :=
  status .retry "WHOLE RERUN" ++
    match reason with
    | .crashed reason =>
      [.plain ("after a crash: " ++ reason.text ++ " ("), count left,
        .plain (" crash " ++ plural left "rerun" ++ " left)"), line]
    | .executableFailed code =>
      [.plain ("after exit code " ++ toString code ++
        ", with no XML log to rerun single test cases from"), line]

def confirmedText (c : TestCase) (reruns : Nat) : List Piece :=
  status .fail "CONFIRMED" ++
    if reruns == 0 then [case c, .plain " failed with no reruns allowed", line]
    else [case c, .plain " failed on all ", count reruns, .plain (" " ++ plural reruns "rerun"), line]

def verdictRole : Verdict → Role
  | .pass => .pass
  | _ => .fail

def caseList (word : String) (cs : List TestCase) : List Piece :=
  if cs.isEmpty then [] else [label word] ++ cases cs ++ [line]

def summary (v : Verdict) (confirmed recovered : List TestCase) (attempts : Nat)
    (elapsed : Duration) : List Piece :=
  [.plain "------------", line] ++ status (verdictRole v) "Summary" ++
    [.plain (elapsed.bracketed ++ " "), count attempts,
      .plain (" " ++ plural attempts "attempt" ++ ", "), count recovered.length,
      .plain " recovered, ", count confirmed.length, .plain " confirmed failing", line] ++
    caseList "recovered:" recovered ++ caseList "failing:" confirmed ++
    status (verdictRole v) "VERDICT" ++
    [.styled (verdictRole v) v.text, .plain (" (exit code " ++ toString v.exitCode ++ ")"), line]

def pieces (verbose : Bool) : Event → List Piece
  | .started invocation policy => started invocation policy
  | .existingLogParsed path log c =>
    status .pass "PARSED" ++
      [.plain (path ++ " ("), count log.functions.length, .plain " test functions)", line] ++
      classification none c
  | .attemptStarted q =>
    attemptStatus q.kind ++ attemptText q.attempt q.kind ++ if verbose then commandText q else []
  | .attemptFinished q outcome c =>
    outputText outcome.output ++ [.plain outcome.exit.text, line] ++
      classification (some (q.attempt, outcome.duration)) c
  | .wholeRerunScheduled reason left => wholeRerun reason left
  | .recovered testCase reruns =>
    status .pass "RECOVERED" ++
      [case testCase, .plain " after ", count reruns, .plain (" " ++ plural reruns "rerun"), line]
  | .confirmed testCase reruns => confirmedText testCase reruns
  | .finished v confirmed recovered attempts elapsed =>
    summary v confirmed recovered attempts elapsed

def render (look : Look) (e : Event) : Bytes := bytes look.colored (pieces look.verbose e)

end Retrial.Transcript
