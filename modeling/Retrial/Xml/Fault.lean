import Retrial.Number.Numeral

/-!
# Faults of a markup text

Why a text is not XML. A fault has a text of its own, and some wrap a fault of
a smaller part; `chain` lists the texts from the outermost to the innermost.
-/

set_option autoImplicit false

namespace Retrial.Xml

open Retrial.Number

inductive SyntaxFault
  | unknownMarkup
  | unclosedInstruction
  | unclosedComment
  | unclosedDoctype
  | unclosedCdata
  | unclosedTag
  deriving DecidableEq, Repr

inductive FormFault
  | unnamedDoctype
  | unmatchedEnd (name : List Char)
  | mismatchedEnd (expected found : List Char)
  deriving DecidableEq, Repr

/-- Faults inside a tag. A position counts bytes from the tag's name on. -/
inductive AttributeFault
  | expectedEquals (position : Nat)
  | expectedValue (position : Nat)
  | unquotedValue (position : Nat)
  | missingQuote (position : Nat) (quote : Char)
  deriving DecidableEq, Repr

inductive CharacterFault
  | sign
  | number (fault : NumeralFault)
  | notCodepoint (code : Nat)
  | illegal (code : Nat)
  deriving DecidableEq, Repr

/-- Faults of a reference. Positions count bytes from the start of the text. -/
inductive ReferenceFault
  | unknownEntity (start stop : Nat) (name : List Char)
  | unterminated (start stop : Nat)
  | character (fault : CharacterFault)
  deriving DecidableEq, Repr

inductive Fault
  | syntaxFault (fault : SyntaxFault)
  | form (fault : FormFault)
  | attribute (fault : AttributeFault)
  | reference (fault : ReferenceFault)
  deriving DecidableEq, Repr

def SyntaxFault.message : SyntaxFault → String
  | .unknownMarkup => "unknown or missed symbol in markup"
  | .unclosedInstruction =>
    "processing instruction or xml declaration not closed: `?>` not found before end of input"
  | .unclosedComment => "comment not closed: `-->` not found before end of input"
  | .unclosedDoctype => "DOCTYPE not closed: `>` not found before end of input"
  | .unclosedCdata => "CDATA not closed: `]]>` not found before end of input"
  | .unclosedTag => "tag not closed: `>` not found before end of input"

def FormFault.message : FormFault → String
  | .unnamedDoctype => "`<!DOCTYPE>` declaration does not contain a name of a document type"
  | .unmatchedEnd name => "close tag `</" ++ String.ofList name ++ ">` does not match any open tag"
  | .mismatchedEnd expected found =>
    "expected `</" ++ String.ofList expected ++ ">`, but `</" ++ String.ofList found ++ ">` was found"

def AttributeFault.message : AttributeFault → String
  | .expectedEquals p =>
    "position " ++ toString p ++ ": attribute key must be directly followed by `=` or space"
  | .expectedValue p => "position " ++ toString p ++ ": `=` must be followed by an attribute value"
  | .unquotedValue p =>
    "position " ++ toString p ++ ": attribute value must be enclosed in `\"` or `'`"
  | .missingQuote p q =>
    "position " ++ toString p ++ ": missing closing quote `" ++ q.toString ++ "` in attribute value"

def CharacterFault.message : CharacterFault → String
  | .sign => "unexpected number sign"
  | .number fault => fault.message
  | .notCodepoint code => "`" ++ toString code ++ "` is not a valid codepoint"
  | .illegal code =>
    "0x" ++ String.ofList (Nat.toDigits 16 code) ++ " character is not permitted in XML"

def CharacterFault.chain (f : CharacterFault) : List String :=
  match f with
  | .number fault => [f.message, fault.message]
  | _ => [f.message]

def ReferenceFault.message : ReferenceFault → String
  | .unknownEntity start stop name =>
    "at " ++ toString start ++ ".." ++ toString stop ++ ": unrecognized entity `" ++
      String.ofList name ++ "`"
  | .unterminated start stop =>
    "Error while escaping character at range " ++ toString start ++ ".." ++ toString stop ++
      ": Cannot find ';' after '&'"
  | .character fault => "invalid character reference: " ++ fault.message

def ReferenceFault.chain (f : ReferenceFault) : List String :=
  match f with
  | .character fault => f.message :: fault.chain
  | _ => [f.message]

def Fault.message : Fault → String
  | .syntaxFault f => "syntax error: " ++ f.message
  | .form f => "ill-formed document: " ++ f.message
  | .attribute f => "error while parsing attribute: " ++ f.message
  | .reference f => f.message

def Fault.chain (f : Fault) : List String :=
  match f with
  | .syntaxFault g => [f.message, g.message]
  | .form g => [f.message, g.message]
  | .attribute g => [f.message, g.message]
  | .reference g => f.message :: g.chain

end Retrial.Xml
