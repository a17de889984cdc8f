import Retrial.Text.Blank
import Retrial.Xml.Attribute

/-!
# References

An ampersand begins a reference and a semicolon ends it: the name of one of the
five predefined entities, or the code of a character in decimal or hexadecimal
digits. Everything else in a text stands for itself.
-/

set_option autoImplicit false

namespace Retrial.Xml

open Retrial.Text Retrial.Number

def entity? (name : List Char) : Option Char :=
  if name == "lt".toList then some '<'
  else if name == "gt".toList then some '>'
  else if name == "amp".toList then some '&'
  else if name == "apos".toList then some '\''
  else if name == "quot".toList then some '"'
  else none

def codeOf (digits : List Char) (radix : Nat) : Except CharacterFault Nat :=
  match digits with
  | '+' :: _ => .error .sign
  | '-' :: _ => .error .sign
  | _ => (readUnsigned radix maxWord32 digits).mapError .number

def characterOf (digits : List Char) : Except CharacterFault Char :=
  let code := match digits with
    | 'x' :: hex => codeOf hex 16
    | _ => codeOf digits 10
  match code with
  | .error fault => .error fault
  | .ok n =>
    if n == 0 then .error (.illegal n)
    else if n.isValidChar then .ok (Char.ofNat n)
    else .error (.notCodepoint n)

def resolve (name : List Char) (start stop : Nat) : Except ReferenceFault Char :=
  match name with
  | '#' :: digits => (characterOf digits).mapError .character
  | _ =>
    match entity? name with
    | some c => .ok c
    | none => .error (.unknownEntity start stop name)

def isNameChar (c : Char) : Bool := c != '&' && c != ';'

/-- Replaces the references of a text whose end is `length` bytes from its start. -/
def expandFrom (length : Nat) (cs : List Char) : Except ReferenceFault (List Char) :=
  match cs with
  | [] => .ok []
  | c :: more =>
    if c == '&' then
      match h : more.dropWhile isNameChar with
      | ';' :: rest =>
        have : rest.length < more.length := by
          have := length_dropWhile_le isNameChar more
          rw [h, List.length_cons] at this
          omega
        match resolve (more.takeWhile isNameChar) (length - byteLength more)
            (length - byteLength (';' :: rest)) with
        | .error fault => .error fault
        | .ok d => (expandFrom length rest).map (d :: ·)
      | _ => .error (.unterminated (length - byteLength (c :: more)) length)
    else (expandFrom length more).map (c :: ·)
  termination_by cs.length

def expand (cs : List Char) : Except ReferenceFault (List Char) := expandFrom (byteLength cs) cs

def attribute? (key : String) (content : List Char) : Except Fault (Option String) :=
  match rawAttribute? key.toList content with
  | .error fault => .error (.attribute fault)
  | .ok none => .ok none
  | .ok (some raw) =>
    match expand raw with
    | .error fault => .error (.reference fault)
    | .ok value => .ok (some (String.ofList value))

end Retrial.Xml
