import Retrial.Proofs.History
import Retrial.Transcript

/-!
# The lines of a transcript

What is written for an event, once more, without pieces and color: lines that
begin with a status word, lines without one, and captured output. Each of them
ends a line, output by a newline of its own or by one put behind it. The main
statement is that these lines are what is written, so that whatever comes next
stands at the beginning of a line.
-/

set_option autoImplicit false

namespace Retrial

open Text

namespace Transcript

inductive Line
  | headed (word text : String)
  | bare (text : String)
  | output (bytes : Bytes)
  deriving DecidableEq, Repr

def closing (output : Bytes) : Bytes :=
  if output ≠ [] ∧ output.getLast? ≠ some 10 then [10] else []

def Line.bytes : Line → Bytes
  | .headed word text => encodeString (column word ++ " " ++ text ++ "\n")
  | .bare text => encodeString (text ++ "\n")
  | .output bytes => bytes ++ closing bytes

/-- Whether what follows stands at the beginning of a line. -/
def AtLineStart (bs : Bytes) : Prop := bs = [] ∨ bs.getLast? = some 10

section AtLineStart

variable {bs cs : Bytes}

theorem atLineStart_nil : AtLineStart [] := .inl rfl

theorem AtLineStart.append (h : AtLineStart bs) (h' : AtLineStart cs) : AtLineStart (bs ++ cs) := by
  cases h' with
  | inl h' => simpa [h'] using h
  | inr h' => exact .inr (by simp [List.getLast?_append, h'])

theorem getLast?_encodeString_newline (text : String) :
    (encodeString (text ++ "\n")).getLast? = some 10 := by
  have hn : encodeString "\n" = [10] := rfl
  rw [encodeString_append, hn, List.getLast?_concat]

theorem Line.atLineStart (l : Line) : AtLineStart l.bytes := by
  cases l with
  | headed word text => exact .inr (getLast?_encodeString_newline _)
  | bare text => exact .inr (getLast?_encodeString_newline _)
  | output bytes =>
    unfold Line.bytes
    dsimp only [closing]
    split
    · exact .inr (by simp)
    · next h =>
      rw [List.append_nil]
      exact Decidable.or_iff_not_not_and_not.2 h

theorem atLineStart_lines (ls : List Line) : AtLineStart (ls.flatMap Line.bytes) := by
  induction ls with
  | nil => exact atLineStart_nil
  | cons l ls ih => exact l.atLineStart.append ih

end AtLineStart

end Transcript

open Transcript

def TestCase.names (cs : List TestCase) : String := String.intercalate ", " (cs.map TestCase.text)

def Transcript.counted (n : Nat) (word : String) : String := toString n ++ " " ++ plural n word

namespace Classification

def statusWord : Classification → String
  | .passed => "PASS"
  | .functionsFailed _ => "FAIL"
  | .executableFailed _ => "FAIL"
  | .crashed _ => "CRASH"

def remark : Classification → String
  | .passed => "all test functions passed"
  | .functionsFailed failures =>
    counted failures.length "test case" ++ " failed: " ++ TestCase.names failures
  | .executableFailed code => "test binary exited with code " ++ toString code
  | .crashed reason => reason.text

end Classification

namespace Request

def header (q : Request) : Line :=
  match q.kind with
  | .fullRun => .headed "RUNNING" ("attempt " ++ toString q.attempt ++ ": whole test binary")
  | .rerun c ticket =>
    .headed (if ticket.verbose then "VERBOSE RUN" else "RERUNNING")
      ("attempt " ++ toString q.attempt ++ ": " ++ c.text ++ " (rerun " ++ toString ticket.rerun ++
        "/" ++ toString ticket.budget ++ ")")

def details (verbose : Bool) (q : Request) : List Line :=
  if verbose then
    .headed "command" (commandLine q.args) :: q.env.map fun p => .headed "env" (p.1 ++ "=" ++ p.2)
  else []

end Request

namespace Finish

def exitLine (w : Finish) : Line := .bare w.outcome.exit.text

def classificationLine (w : Finish) : Line :=
  .headed w.classification.statusWord (w.outcome.duration.bracketed ++ " attempt " ++
    toString w.request.attempt ++ ": " ++ w.classification.remark)

end Finish

def RerunReason.remark (left : Nat) : RerunReason → String
  | .crashed reason =>
    "after a crash: " ++ reason.text ++ " (" ++ toString left ++ " crash " ++ plural left "rerun" ++
      " left)"
  | .executableFailed code =>
    "after exit code " ++ toString code ++ ", with no XML log to rerun single test cases from"

namespace Transcript

def listed (word : String) (cs : List TestCase) : List Line :=
  if cs = [] then [] else [.headed word (TestCase.names cs)]

def lines (verbose : Bool) : Event → List Line
  | .started i p =>
    .headed "Supervising" (i.logBaseName.getD i.command.program ++ " with up to " ++
        counted p.maxRepeats "rerun" ++ " per failing test case and " ++ toString p.crashReruns ++
        " crash " ++ plural p.crashReruns "rerun") ::
      if i.wantsLog then []
      else [.headed "Note" "no XML log is requested, attempts are judged by exit code"]
  | .existingLogParsed path log k =>
    [.headed "PARSED" (path ++ " (" ++ toString log.functions.length ++ " test functions)"),
      .headed k.statusWord k.remark]
  | .attemptStarted q => q.header :: q.details verbose
  | .attemptFinished q o k =>
    [.output o.output, Finish.exitLine ⟨q, o, k⟩, Finish.classificationLine ⟨q, o, k⟩]
  | .wholeRerunScheduled reason left => [.headed "WHOLE RERUN" (reason.remark left)]
  | .recovered c n => [.headed "RECOVERED" (c.text ++ " after " ++ counted n "rerun")]
  | .confirmed c n =>
    [.headed "CONFIRMED" (c.text ++
      if n = 0 then " failed with no reruns allowed" else " failed on all " ++ counted n "rerun")]
  | .finished v failing recovering n elapsed =>
    [.bare "------------",
      .headed "Summary" (elapsed.bracketed ++ " " ++ counted n "attempt" ++ ", " ++
        toString recovering.length ++ " recovered, " ++ toString failing.length ++
        " confirmed failing")] ++
      listed "recovered:" recovering ++ listed "failing:" failing ++
      [.headed "VERDICT" (v.text ++ " (exit code " ++ toString v.exitCode ++ ")")]

section Rendering

@[simp] theorem bytes_nil (colored : Bool) : bytes colored [] = [] := rfl

@[simp] theorem bytes_cons (colored : Bool) (p : Piece) (ps : List Piece) :
    bytes colored (p :: ps) = p.bytes colored ++ bytes colored ps := rfl

@[simp] theorem bytes_append (colored : Bool) (ps qs : List Piece) :
    bytes colored (ps ++ qs) = bytes colored ps ++ bytes colored qs := List.flatMap_append

@[simp] theorem bytes_plain (colored : Bool) (text : String) :
    (Piece.plain text).bytes colored = encodeString text := rfl

@[simp] theorem bytes_raw (colored : Bool) (bs : Bytes) : (Piece.raw bs).bytes colored = bs := rfl

@[simp] theorem bytes_styled (role : Role) (text : String) :
    (Piece.styled role text).bytes false = encodeString text := rfl

theorem bytes_cases (cs : List TestCase) :
    bytes false (cases cs) = encodeString (TestCase.names cs) := by
  induction cs with
  | nil => rfl
  | cons c cs ih =>
    cases cs with
    | nil => simp [cases, TestCase.names, case]
    | cons d ds =>
      have hc : cases (c :: d :: ds) = case c :: .plain ", " :: cases (d :: ds) := rfl
      have hn : TestCase.names (c :: d :: ds) = c.text ++ ", " ++ TestCase.names (d :: ds) :=
        String.intercalate_cons_cons
      rw [hc, hn, bytes_cons, bytes_cons, ih, encodeString_append, encodeString_append,
        List.append_assoc]
      rfl

theorem bytes_status (role : Role) (word : String) :
    bytes false (status role word) = encodeString (column word ++ " ") := by
  simp [status, encodeString_append]

theorem bytes_classification (timing : Option (Nat × Duration)) (k : Classification) :
    bytes false (classification timing k) = (Line.headed k.statusWord
      ((timing.elim "" fun p => p.2.bracketed ++ " attempt " ++ toString p.1 ++ ": ") ++
        k.remark)).bytes := by
  have hs : bytes false (classificationStatus k) = encodeString (column k.statusWord ++ " ") := by
    cases k <;> exact bytes_status _ _
  have ht : bytes false (classificationText k) = encodeString k.remark := by
    cases k with
    | functionsFailed failures =>
      have hr : (Classification.functionsFailed failures).remark =
        counted failures.length "test case" ++ " failed: " ++ TestCase.names failures := rfl
      simp [hr, classificationText, counted, count, bytes_cases, encodeString_append]
    | passed | executableFailed | crashed => exact List.append_nil _
  cases timing <;> simp [classification, hs, ht, Line.bytes, line, encodeString_append]

theorem bytes_started (i : Invocation) (p : Policy) (verbose : Bool) :
    bytes false (started i p) = (lines verbose (.started i p)).flatMap Line.bytes := by
  by_cases h : i.wantsLog <;>
    simp [started, lines, h, bytes_status, Line.bytes, counted, count, line, encodeString_append]

theorem bytes_header (q : Request) :
    bytes false (attemptStatus q.kind ++ attemptText q.attempt q.kind) = q.header.bytes := by
  unfold Request.header attemptStatus attemptText
  cases q.kind <;>
    simp [bytes_status, Line.bytes, case, line, encodeString_append]

theorem bytes_labelled (word text : String) :
    bytes false [label word, .plain text, line] = (Line.headed word text).bytes := by
  simp [label, line, Line.bytes, encodeString_append]

theorem bytes_commandText (q : Request) :
    bytes false (commandText q) = (q.details true).flatMap Line.bytes := by
  have he : ∀ env : Environment,
      bytes false (env.flatMap fun p => [label "env", .plain (p.1 ++ "=" ++ p.2), line]) =
        (env.map fun p => Line.headed "env" (p.1 ++ "=" ++ p.2)).flatMap Line.bytes := by
    intro env
    induction env with
    | nil => rfl
    | cons p env ih =>
      rw [List.flatMap_cons, bytes_append, bytes_labelled, ih, List.map_cons, List.flatMap_cons]
  rw [commandText, bytes_append, bytes_labelled, he, Request.details, if_pos rfl, List.flatMap_cons]

theorem bytes_outputText (output : Bytes) :
    bytes false (outputText output) = (Line.output output).bytes := by
  have hn : line.bytes false = [10] := rfl
  unfold outputText Line.bytes closing
  dsimp only
  split <;> split <;> simp_all

theorem bytes_caseList (word : String) (cs : List TestCase) :
    bytes false (caseList word cs) = (listed word cs).flatMap Line.bytes := by
  unfold caseList listed
  cases cs with
  | nil => rfl
  | cons c cs => simp [label, line, Line.bytes, bytes_cases, encodeString_append]

theorem bytes_wholeRerun (reason : RerunReason) (left : Nat) :
    bytes false (wholeRerun reason left) =
      (Line.headed "WHOLE RERUN" (reason.remark left)).bytes := by
  cases reason with
  | crashed reason =>
    have hr : (RerunReason.crashed reason).remark left = "after a crash: " ++ reason.text ++ " (" ++
      toString left ++ " crash " ++ plural left "rerun" ++ " left)" := rfl
    simp [hr, wholeRerun, bytes_status, Line.bytes, count, line, encodeString_append]
  | executableFailed code =>
    have hr : (RerunReason.executableFailed code).remark left =
      "after exit code " ++ toString code ++
        ", with no XML log to rerun single test cases from" := rfl
    simp [hr, wholeRerun, bytes_status, Line.bytes, line, encodeString_append]

theorem bytes_confirmedText (c : TestCase) (n : Nat) (verbose : Bool) :
    bytes false (confirmedText c n) = (lines verbose (.confirmed c n)).flatMap Line.bytes := by
  by_cases hn : n = 0 <;>
    simp [lines, confirmedText, bytes_status, Line.bytes, case, counted, count, line,
      encodeString_append, hn]

theorem bytes_summary (v : Verdict) (failing recovering : List TestCase) (n : Nat) (d : Duration)
    (verbose : Bool) : bytes false (summary v failing recovering n d) =
      (lines verbose (.finished v failing recovering n d)).flatMap Line.bytes := by
  simp only [lines, summary, bytes_status, bytes_caseList, Line.bytes, counted, count, line,
    bytes_append, bytes_cons, bytes_nil, bytes_plain, bytes_styled, encodeString_append,
    List.flatMap_append, List.flatMap_cons, List.flatMap_nil, List.append_assoc, List.append_nil]

/-- What is written for an event is its lines. -/
theorem render_eq_lines (verbose : Bool) (e : Event) :
    render ⟨false, verbose⟩ e = (lines verbose e).flatMap Line.bytes := by
  unfold render
  dsimp only
  cases e with
  | started i p => exact bytes_started i p verbose
  | existingLogParsed path log k =>
    simp [pieces, lines, bytes_status, bytes_classification, Line.bytes, count, line,
      encodeString_append]
  | attemptStarted q =>
    rw [pieces, bytes_append, bytes_header, lines, List.flatMap_cons]
    cases verbose with
    | true => rw [if_pos rfl, bytes_commandText]
    | false => rfl
  | attemptFinished q o k =>
    simp [pieces, lines, bytes_outputText, bytes_classification, Finish.exitLine,
      Finish.classificationLine, Line.bytes, line, encodeString_append]
  | wholeRerunScheduled reason left => rw [pieces, bytes_wholeRerun, lines, List.flatMap_singleton]
  | recovered c n =>
    simp [pieces, lines, bytes_status, Line.bytes, case, counted, count, line, encodeString_append]
  | confirmed c n => exact bytes_confirmedText c n verbose
  | finished v failing recovering n d => exact bytes_summary v failing recovering n d verbose

end Rendering

end Transcript

end Retrial
