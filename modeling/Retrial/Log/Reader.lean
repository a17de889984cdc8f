import Retrial.Log.Basic
import Retrial.Log.Fault
import Retrial.Number.Decimal
import Retrial.Xml.Reference

/-!
# Reading a log

A log is read lexeme by lexeme. The draft holds the elements that are open,
innermost first, and the function, incident and message that are being
described. What an opening tag means depends on its name and on the name of the
element around it; what a closing tag ends depends on its name alone. Elements
that mean nothing here are passed over.
-/

set_option autoImplicit false

namespace Retrial.Log

open Retrial.Text Retrial.Number Retrial.Xml

inductive Element
  | testCase
  | testFunction
  | incident
  | message
  | duration
  | dataTag
  | description
  | foreign
  deriving DecidableEq, Repr

def Element.ofName (name : List Char) : Element :=
  if name == "TestCase".toList then .testCase
  else if name == "TestFunction".toList then .testFunction
  else if name == "Incident".toList then .incident
  else if name == "Message".toList then .message
  else if name == "Duration".toList then .duration
  else if name == "DataTag".toList then .dataTag
  else if name == "Description".toList then .description
  else .foreign

inductive TextTarget
  | incidentTag
  | incidentDescription
  | messageTag
  | messageDescription
  deriving DecidableEq, Repr

structure Draft where
  openNames : List (List Char)
  log : TestLog
  function : Option FunctionResult
  incident : Option Incident
  message : Option Message
  target : Option TextTarget
  deriving DecidableEq, Repr

def Draft.start : Draft := ⟨[], .empty, none, none, none, none⟩

inductive Offence
  | xml (fault : Xml.Fault)
  | unexpectedRoot (found : String)
  | unnamedFunction
  deriving DecidableEq, Repr

def Offence.cause (position : Nat) : Offence → Cause
  | .xml fault => .xml position fault
  | .unexpectedRoot found => .unexpectedRoot found
  | .unnamedFunction => .unnamedFunction position

def attributeOf (key : String) (content : List Char) : Except Offence (Option String) :=
  (attribute? key content).mapError .xml

/-- A line number: 32 bits, and zero stands for none. -/
def lineOf (value : Option String) : Option Nat :=
  match value.map fun v => readSigned 10 maxWord32 v.toList with
  | some (.ok n) => if n == 0 then none else some n
  | _ => none

/-- Milliseconds to the nearest nanosecond, no more than 64 bits can count. -/
def durationOf (value : Option String) : Option Duration :=
  match value.bind fun v => readLiteral v.toList with
  | some (.number negative (.finite d)) =>
    if negative && !d.isZero then none
    else some ⟨((Double.finite d).scale 1000000).toNatUpTo maxWord64⟩
  | _ => none

def Draft.beginRoot (d : Draft) (content : List Char) : Except Offence Draft :=
  match Element.ofName (openingName content) with
  | .testCase =>
    (attributeOf "name" content).map fun name =>
      { d with log := { d.log with name := name } }
  | _ => .error (.unexpectedRoot (String.ofList (openingName content)))

def Draft.beginChild (d : Draft) (parent content : List Char) : Except Offence Draft :=
  match Element.ofName parent, Element.ofName (openingName content) with
  | .testCase, .testFunction =>
    match attributeOf "name" content with
    | .error offence => .error offence
    | .ok none => .error .unnamedFunction
    | .ok (some name) => .ok { d with function := some ⟨name, [], [], none⟩ }
  | .testFunction, .incident => do
    let type ← attributeOf "type" content
    let file ← attributeOf "file" content
    let line ← attributeOf "line" content
    .ok { d with
      incident := some
        { kind := .ofType (type.getD "")
          tag := none
          description := none
          file := file.filter fun f => !f.isEmpty
          line := lineOf line } }
  | .testFunction, .message => do
    let type ← attributeOf "type" content
    .ok { d with message := some ⟨type.getD "", none, ""⟩ }
  | .testFunction, .duration => do
    let value ← attributeOf "msecs" content
    match d.function, durationOf value with
    | some f, some t => .ok { d with function := some { f with duration := some t } }
    | _, _ => .ok d
  | .incident, .dataTag => .ok { d with target := some .incidentTag }
  | .incident, .description => .ok { d with target := some .incidentDescription }
  | .message, .dataTag => .ok { d with target := some .messageTag }
  | .message, .description => .ok { d with target := some .messageDescription }
  | _, _ => .ok d

def Draft.begin (d : Draft) (content : List Char) : Except Offence Draft :=
  match d.openNames with
  | [] => d.beginRoot content
  | parent :: _ => d.beginChild parent content

def Draft.finish (d : Draft) (name : List Char) : Draft :=
  match Element.ofName name with
  | .testFunction =>
    match d.function with
    | some f =>
      { d with function := none, log := { d.log with functions := d.log.functions ++ [f] } }
    | none => d
  | .incident =>
    match d.function, d.incident with
    | some f, some i =>
      { d with function := some { f with incidents := f.incidents ++ [i] }, incident := none }
    | _, _ => { d with incident := none }
  | .message =>
    match d.function, d.message with
    | some f, some m =>
      { d with function := some { f with messages := f.messages ++ [m] }, message := none }
    | _, _ => { d with message := none }
  | .dataTag => { d with target := none }
  | .description => { d with target := none }
  | _ => d

def Draft.addText (d : Draft) (text : String) : Draft :=
  match d.target with
  | some .incidentTag =>
    { d with incident := d.incident.map fun i => { i with tag := some (i.tag.getD "" ++ text) } }
  | some .incidentDescription =>
    { d with incident := d.incident.map fun i =>
        { i with description := some (i.description.getD "" ++ text) } }
  | some .messageTag =>
    { d with message := d.message.map fun m => { m with tag := some (m.tag.getD "" ++ text) } }
  | some .messageDescription =>
    { d with message := d.message.map fun m => { m with description := m.description ++ text } }
  | none => d

/-- A closing tag ends the innermost open element and must bear its name. -/
def closeName (openNames : List (List Char)) (name : List Char) :
    Except FormFault (List (List Char)) :=
  match openNames with
  | [] => .error (.unmatchedEnd name)
  | expected :: outer =>
    if expected == name then .ok outer else .error (.mismatchedEnd expected name)

def Draft.step (d : Draft) (lexeme : Lexeme) : Except Offence Draft :=
  match lexeme with
  | .opening content =>
    (d.begin content).map fun d =>
      { d with openNames := openingName content :: d.openNames }
  | .empty content =>
    (d.begin content).map fun d => d.finish (openingName content)
  | .closing name =>
    match closeName d.openNames name with
    | .error fault => .error (.xml (.form fault))
    | .ok outer => .ok ({ d with openNames := outer }.finish name)
  | .text raw =>
    match expand raw with
    | .error fault => .error (.xml (.reference fault))
    | .ok text => .ok (d.addText (String.ofList text))
  | .cdata text => .ok (d.addText (String.ofList text))
  | .aside => .ok d

def Draft.close (d : Draft) : Except Cause TestLog :=
  match d.openNames with
  | [] => .ok d.log
  | innermost :: _ => .error (.truncated (String.ofList innermost))

/-- Reads the rest of a text into a draft. Positions count bytes from the start
of the whole text, which is `length` bytes long. -/
def readFrom (length : Nat) (d : Draft) (cs : List Char) : Except Cause TestLog :=
  match h : next? cs with
  | .error fault => .error (.xml (length - byteLength cs) fault)
  | .ok none => d.close
  | .ok (some (lexeme, rest)) =>
    have : rest.length < cs.length := next?_length h
    match d.step lexeme with
    | .error offence => .error (offence.cause (length - byteLength cs))
    | .ok d => readFrom length d rest
  termination_by cs.length

def withoutMark (cs : List Char) : List Char :=
  match cs with
  | '\uFEFF' :: rest => rest
  | _ => cs

/-- Reads a log. A blank text is a log in which nothing ran. -/
def read (cs : List Char) : Except Cause TestLog :=
  if allBlank cs then .ok .empty
  else
    let body := withoutMark cs
    readFrom (byteLength body) .start body

def readString (s : String) : Except Fault TestLog := (read s.toList).mapError (⟨none, ·⟩)

end Retrial.Log
