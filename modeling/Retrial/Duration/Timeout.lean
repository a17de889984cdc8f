import Retrial.Duration.Reader
import Retrial.Number.Decimal

/-!
# Timeouts

A timeout is a number of seconds or a span of time with units. It is never
zero: an attempt needs some time to run in. A number of seconds stands for the
nearest nanosecond to its double.
-/

set_option autoImplicit false

namespace Retrial.Duration

open Retrial.Number

inductive TimeoutFault
  | notATimeout (text : String)
  | unreadable (fault : ReadFault)
  | zero
  | tooLong
  deriving DecidableEq, Repr

def TimeoutFault.message : TimeoutFault → String
  | .notATimeout text => "invalid timeout `" ++ text ++ "`"
  | .unreadable fault => fault.message
  | .zero => "timeout must be greater than zero"
  | .tooLong => "cannot convert float seconds to Duration: value is either too big or NaN"

/-- A fault of size: the text is a number, but no clock counts so far. -/
def TimeoutFault.isOverflow : TimeoutFault → Bool
  | .tooLong | .unreadable .sumTooLarge => true
  | _ => false

/-- The span of a number of seconds, to the nearest nanosecond. -/
def ofDyadicSeconds (v : Number.Dyadic) : Duration :=
  ⟨roundHalfEven (v.numerator * 1000000000) v.denominator⟩

def ofLiteral (text : String) : Literal → Except TimeoutFault Duration
  | .notANumber => .error (.notATimeout text)
  | .number _ .infinite => .error (.notATimeout text)
  | .number negative (.finite v) =>
    if negative && !v.isZero then .error (.notATimeout text)
    else
      let d := ofDyadicSeconds v
      if d.nanoseconds < bound then .ok d else .error .tooLong

def readSpan (text : String) : Except TimeoutFault Duration :=
  match readLiteral text.toList with
  | some literal => ofLiteral text literal
  | none => (read text.toList).mapError .unreadable

def readTimeout (text : String) : Except TimeoutFault Duration :=
  match readSpan text with
  | .ok d => if d.isZero then .error .zero else .ok d
  | .error f => .error f

theorem readTimeout_ne_zero {text : String} {d : Duration} (h : readTimeout text = .ok d) :
    d.isZero = false := by
  simp only [readTimeout] at h
  split at h
  · split at h
    · simp at h
    · next hz => cases h; simpa using hz
  · simp at h

end Retrial.Duration
