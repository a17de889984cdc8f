/-!
# Bytes and UTF-8

Captured output and the contents of files are bytes. Text goes into bytes
without loss; bytes are a text only when they are well-formed UTF-8, and where
they are not the fault names the first byte that belongs to no character.
-/

set_option autoImplicit false

namespace Retrial.Text

abbrev Bytes := List UInt8

def encode (cs : List Char) : Bytes := cs.flatMap String.utf8EncodeChar

def encodeString (s : String) : Bytes := encode s.toList

@[simp] theorem encode_nil : encode [] = [] := rfl

@[simp] theorem encode_append (cs ds : List Char) : encode (cs ++ ds) = encode cs ++ encode ds := by
  simp [encode]

theorem encodeString_append (s t : String) :
    encodeString (s ++ t) = encodeString s ++ encodeString t := by
  simp [encodeString]

/-- The characters of a string that is written out, without decoding it. -/
theorem toList_literal {s : String} {cs : List Char} (h : s = .ofList cs) : s.toList = cs := by
  rw [h, String.toList_ofList]

/-- Where bytes stop being UTF-8. `length` is the length of the sequence that is
wrong, and absent when the bytes end inside a character. -/
structure Utf8Fault where
  validUpTo : Nat
  length : Option Nat
  deriving DecidableEq, Repr

def Utf8Fault.message (f : Utf8Fault) : String :=
  match f.length with
  | some n => "invalid utf-8 sequence of " ++ toString n ++ " bytes from index " ++ toString f.validUpTo
  | none => "incomplete utf-8 byte sequence from index " ++ toString f.validUpTo

/-- The length of the character that a lead byte announces, and the range its
second byte must lie in. The ranges shut out overlong forms and surrogates. -/
def lead (b : UInt8) : Option (Nat × UInt8 × UInt8) :=
  if 0xC2 ≤ b && b ≤ 0xDF then some (2, 0x80, 0xBF)
  else if b == 0xE0 then some (3, 0xA0, 0xBF)
  else if b == 0xED then some (3, 0x80, 0x9F)
  else if 0xE1 ≤ b && b ≤ 0xEF then some (3, 0x80, 0xBF)
  else if b == 0xF0 then some (4, 0x90, 0xBF)
  else if b == 0xF4 then some (4, 0x80, 0x8F)
  else if 0xF1 ≤ b && b ≤ 0xF3 then some (4, 0x80, 0xBF)
  else none

def isContinuation (b : UInt8) : Bool := 0x80 ≤ b && b ≤ 0xBF

def bits (b : UInt8) (modulus : Nat) : Nat := b.toNat % modulus

def decodeFrom (index : Nat) : Bytes → Except Utf8Fault (List Char)
  | [] => .ok []
  | b :: t =>
    if b < 0x80 then (decodeFrom (index + 1) t).map (Char.ofNat b.toNat :: ·)
    else
      match lead b, t with
      | none, _ => .error ⟨index, some 1⟩
      | some _, [] => .error ⟨index, none⟩
      | some (width, lo, hi), b1 :: t1 =>
        if !(lo ≤ b1 && b1 ≤ hi) then .error ⟨index, some 1⟩
        else if width == 2 then
          (decodeFrom (index + 2) t1).map (Char.ofNat (bits b 32 * 64 + bits b1 64) :: ·)
        else
          match t1 with
          | [] => .error ⟨index, none⟩
          | b2 :: t2 =>
            if !isContinuation b2 then .error ⟨index, some 2⟩
            else if width == 3 then
              (decodeFrom (index + 3) t2).map
                (Char.ofNat ((bits b 16 * 64 + bits b1 64) * 64 + bits b2 64) :: ·)
            else
              match t2 with
              | [] => .error ⟨index, none⟩
              | b3 :: t3 =>
                if !isContinuation b3 then .error ⟨index, some 3⟩
                else
                  (decodeFrom (index + 4) t3).map
                    (Char.ofNat (((bits b 8 * 64 + bits b1 64) * 64 + bits b2 64) * 64 + bits b3 64) :: ·)
  termination_by bs => bs.length

def decode (bs : Bytes) : Except Utf8Fault (List Char) := decodeFrom 0 bs

def decodeString (bs : Bytes) : Except Utf8Fault String := (decode bs).map String.ofList

theorem encode_cons_of_lt {c : Char} {cs : List Char} (h : c.toNat < 128) :
    encode (c :: cs) = UInt8.ofNat c.toNat :: encode cs := by
  have h7 : c.val.toNat ≤ 0x7f := Nat.le_of_lt_succ h
  rw [encode, List.flatMap_cons, String.utf8EncodeChar, if_pos h7]
  rfl

/-- A text in ASCII is read back as it was written. -/
theorem decodeFrom_encode {cs : List Char} (h : ∀ c ∈ cs, c.toNat < 128) (index : Nat) :
    decodeFrom index (encode cs) = .ok cs := by
  induction cs generalizing index with
  | nil => rw [encode_nil, decodeFrom]
  | cons c cs ih =>
    have hc : c.toNat < 128 := h c List.mem_cons_self
    have hb : (UInt8.ofNat c.toNat).toNat = c.toNat :=
      UInt8.toNat_ofNat_of_lt' (Nat.lt_trans hc (by decide))
    have hlt : UInt8.ofNat c.toNat < 0x80 := UInt8.lt_iff_toNat_lt.2 (by rw [hb]; exact hc)
    rw [encode_cons_of_lt hc, decodeFrom.eq_def]
    dsimp only
    rw [if_pos hlt, ih fun d hd => h d (List.mem_cons_of_mem c hd), hb, Char.ofNat_toNat]
    rfl

theorem decode_encode {cs : List Char} (h : cs.all (·.toNat < 128) = true) :
    decode (encode cs) = .ok cs :=
  decodeFrom_encode (by simpa using h) 0

def octetsOf (bs : Bytes) : List Char := bs.map fun b => Char.ofNat b.toNat

def bytesOfOctets (cs : List Char) : Bytes := cs.map fun c => UInt8.ofNat c.toNat

def octets (text : String) : String := String.ofList (octetsOf (encodeString text))

/-- The text that octets encode, or the octets themselves where they encode none. -/
def spelled (octets : String) : String :=
  (decodeString (bytesOfOctets octets.toList)).toOption.getD octets

end Retrial.Text
