import Retrial.Text.Blank
import Retrial.Xml.Lexeme

/-!
# Attributes of a tag

The inside of a tag is read from the left until the attribute that is asked
for. Faults further right stay unseen, and of two attributes with one name the
first counts.
-/

set_option autoImplicit false

namespace Retrial.Xml

open Retrial.Text

def isKeyChar (c : Char) : Bool := c != '=' && !isSpace c

/-- The key, the raw value and the rest of a tag at the next attribute, or
nothing where no attribute follows. `length` is the length of the whole tag in
bytes, from which the position of a fault is counted. -/
def nextAttribute? (length : Nat) (cs : List Char) :
    Except AttributeFault (Option (List Char × List Char × List Char)) :=
  match cs.dropWhile isSpace with
  | [] => .ok none
  | c :: more =>
    let afterKey := more.dropWhile isKeyChar
    match afterKey.dropWhile isSpace with
    | '=' :: value =>
      match value.dropWhile isSpace with
      | [] => .error (.expectedValue length)
      | quote :: body =>
        if quote == '"' || quote == '\'' then
          match body.dropWhile (fun d => d != quote) with
          | [] => .error (.missingQuote length quote)
          | _ :: rest =>
            .ok (some (c :: more.takeWhile isKeyChar, body.takeWhile (fun d => d != quote), rest))
        else .error (.unquotedValue (length - byteLength (quote :: body)))
    | other => .error (.expectedEquals (length - byteLength other))

theorem nextAttribute?_length {length : Nat} {cs key value rest : List Char}
    (h : nextAttribute? length cs = .ok (some (key, value, rest))) : rest.length < cs.length := by
  have h₀ := length_dropWhile_le isSpace cs
  unfold nextAttribute? at h
  split at h
  · simp at h
  · next c more e =>
    rw [e, List.length_cons] at h₀
    have h₁ := length_dropWhile_le isKeyChar more
    have h₂ := length_dropWhile_le isSpace (more.dropWhile isKeyChar)
    dsimp only at h
    split at h
    · next tail e₂ =>
      rw [e₂, List.length_cons] at h₂
      have h₃ := length_dropWhile_le isSpace tail
      split at h
      · simp at h
      · next quote body e₃ =>
        rw [e₃, List.length_cons] at h₃
        have h₄ := length_dropWhile_le (fun d => d != quote) body
        split at h
        · split at h
          · simp at h
          · next d r e₄ =>
            rw [e₄, List.length_cons] at h₄
            simp only [Except.ok.injEq, Option.some.injEq, Prod.mk.injEq] at h
            rw [← h.2.2]
            omega
        · simp at h
    · simp at h

def findAttribute? (key : List Char) (length : Nat) (cs : List Char) :
    Except AttributeFault (Option (List Char)) :=
  match h : nextAttribute? length cs with
  | .error fault => .error fault
  | .ok none => .ok none
  | .ok (some (k, value, rest)) =>
    have : rest.length < cs.length := nextAttribute?_length h
    if k == key then .ok (some value) else findAttribute? key length rest
  termination_by cs.length

def rawAttribute? (key : List Char) (content : List Char) :
    Except AttributeFault (Option (List Char)) :=
  findAttribute? key (byteLength content) (content.drop (openingName content).length)

end Retrial.Xml
