import Mathlib.Data.List.TakeWhile
import Retrial.Proofs.Xml.Lexing
import Retrial.Xml.Reference

/-!
# Character data

What a raw text stands for: its references are replaced and everything else is
kept. Character data is such a text without an opening angle bracket. Space
around it makes no difference to whether it can be read, and a text that begins
with character data can be read if the rest can.
-/

set_option autoImplicit false

namespace Retrial.Xml

open Retrial.Text

inductive Denotes : List Char → List Char → Prop
  | nil : Denotes [] []
  | plain {c : Char} {raw value : List Char} :
      c ≠ '&' → Denotes raw value → Denotes (c :: raw) (c :: value)
  | reference {name : List Char} {c : Char} {raw value : List Char} :
      (∀ x ∈ name, isNameChar x = true) → resolve name 0 0 = .ok c → Denotes raw value →
      Denotes ('&' :: (name ++ ';' :: raw)) (c :: value)

theorem resolve_ok_iff {name : List Char} {start stop start' stop' : Nat} {c : Char} :
    resolve name start stop = .ok c ↔ resolve name start' stop' = .ok c := by
  unfold resolve
  split
  · rfl
  · split <;> simp

theorem takeWhile_name {name : List Char} (h : ∀ x ∈ name, isNameChar x = true) (raw : List Char) :
    (name ++ ';' :: raw).takeWhile isNameChar = name ∧
      (name ++ ';' :: raw).dropWhile isNameChar = ';' :: raw := by
  rw [List.takeWhile_append_of_pos h, List.dropWhile_append_of_pos h]
  simp [isNameChar]

theorem expandFrom_plain {c : Char} (hc : c ≠ '&') (n : Nat) (raw : List Char) :
    expandFrom n (c :: raw) = (expandFrom n raw).map (c :: ·) := by
  rw [expandFrom, if_neg (by simpa using hc)]

theorem Denotes.expandFrom {raw value : List Char} (h : Denotes raw value) (n : Nat) :
    expandFrom n raw = .ok value := by
  induction h with
  | nil => rw [Xml.expandFrom]
  | plain hc _ ih => rw [expandFrom_plain hc, ih]; rfl
  | @reference name c raw value hn hr _ ih =>
    obtain ⟨ht, hd⟩ := takeWhile_name hn raw
    rw [Xml.expandFrom, if_pos (beq_self_eq_true '&')]
    split
    · next rest e =>
      cases hd.symm.trans e
      rw [ht, resolve_ok_iff.1 hr, ih]
      rfl
    · next e => exact absurd hd (e raw)

theorem denotes_of_expandFrom {n : Nat} {raw value : List Char}
    (h : expandFrom n raw = .ok value) : Denotes raw value := by
  fun_induction Xml.expandFrom n raw generalizing value with
  | case1 => cases h; exact .nil
  | case2 c more hc rest hd _ fault hr => cases h
  | case3 c more hc rest hd _ d hr ih =>
    have hm : more = more.takeWhile isNameChar ++ ';' :: rest := by
      rw [← hd, List.takeWhile_append_dropWhile]
    have hn : ∀ x ∈ more.takeWhile isNameChar, isNameChar x = true := fun x hx =>
      List.mem_takeWhile_imp hx
    cases he : expandFrom n rest with
    | error fault => rw [he] at h; cases h
    | ok v =>
      rw [he] at h
      cases h
      rw [eq_of_beq hc, hm]
      exact .reference hn (resolve_ok_iff.1 hr) (ih he)
  | case4 c more hc _ => cases h
  | case5 c more hc ih =>
    cases he : expandFrom n more with
    | error fault => rw [he] at h; cases h
    | ok v =>
      rw [he] at h
      cases h
      exact .plain (by simpa using hc) (ih he)

theorem Denotes.expand {raw value : List Char} (h : Denotes raw value) : expand raw = .ok value :=
  h.expandFrom _

theorem denotes_self {w : List Char} (h : '&' ∉ w) : Denotes w w := by
  induction w with
  | nil => exact .nil
  | cons c w ih =>
    have hc : c ≠ '&' := by rintro rfl; exact h List.mem_cons_self
    exact .plain hc (ih fun hx => h (List.mem_cons_of_mem c hx))

theorem Denotes.append {u t a b : List Char} (h : Denotes u a) (h' : Denotes t b) :
    Denotes (u ++ t) (a ++ b) := by
  induction h with
  | nil => exact h'
  | plain hc _ ih => exact .plain hc ih
  | reference hn hr _ ih =>
    simp only [List.cons_append, List.append_assoc]
    exact .reference hn hr ih

/-- A reference ends at its first semicolon, so a text behind a complete one is
read on its own. -/
theorem Denotes.cancel {u t a v : List Char} (h : Denotes u a) (h' : Denotes (u ++ t) v) :
    ∃ b, Denotes t b := by
  induction h generalizing v with
  | nil => exact ⟨v, h'⟩
  | @plain c raw value hc _ ih =>
    generalize hx : c :: raw ++ t = x at h'
    cases h' with
    | nil => cases hx
    | plain _ h' => cases hx; exact ih h'
    | reference => exact absurd (List.cons.inj hx).1 hc
  | @reference name c raw value hn hr _ ih =>
    simp only [List.cons_append, List.append_assoc] at h'
    generalize hx : '&' :: (name ++ ';' :: (raw ++ t)) = x at h'
    cases h' with
    | nil => cases hx
    | plain hc _ => cases hx; exact absurd rfl hc
    | @reference name' _ raw' _ hn' _ h' =>
      have he : name ++ ';' :: (raw ++ t) = name' ++ ';' :: raw' := (List.cons.inj hx).2
      have hd : ';' :: (raw ++ t) = ';' :: raw' := by
        rw [← (takeWhile_name hn (raw ++ t)).2, he, (takeWhile_name hn' raw').2]
      cases hd
      exact ih h'

theorem Denotes.dropEnd {u s v : List Char} (h : Denotes (u ++ s) v) (hs : ';' ∉ s) :
    ∃ a, Denotes u a := by
  generalize hx : u ++ s = x at h
  induction h generalizing u with
  | nil =>
    obtain ⟨rfl, -⟩ := List.append_eq_nil_iff.1 hx
    exact ⟨[], .nil⟩
  | @plain c raw value hc _ ih =>
    cases u with
    | nil => exact ⟨[], .nil⟩
    | cons d u =>
      cases hx
      obtain ⟨a, ha⟩ := ih rfl
      exact ⟨c :: a, .plain hc ha⟩
  | @reference name c raw value hn hr _ ih =>
    cases u with
    | nil => exact ⟨[], .nil⟩
    | cons d u =>
      obtain ⟨rfl, hu⟩ := List.cons.inj hx
      rcases List.append_eq_append_iff.1 hu with ⟨w, rfl, hw⟩ | ⟨w, rfl, hw⟩
      · -- The name would reach into `s`, and so would the semicolon behind it.
        exact absurd (hw ▸ List.mem_append_right w List.mem_cons_self) hs
      · cases w with
        | nil => exact absurd (show ';' ∈ [] ++ s from hw ▸ List.mem_cons_self) hs
        | cons e w =>
          obtain ⟨rfl, hr'⟩ := List.cons.inj hw
          obtain ⟨a, ha⟩ := ih hr'.symm
          exact ⟨c :: a, .reference hn hr ha⟩

def Readable (w : List Char) : Prop := ∃ v, Denotes w v

theorem Readable.expand {w : List Char} (h : Readable w) : ∃ v, expand w = .ok v :=
  h.imp fun _ => Denotes.expand

theorem readable_of_expand {w v : List Char} (h : expand w = .ok v) : Readable w :=
  ⟨v, denotes_of_expandFrom h⟩

theorem readable_of_space {w : List Char} (h : ∀ c ∈ w, isSpace c = true) : Readable w :=
  ⟨w, denotes_self fun hx => absurd (h _ hx) (by decide)⟩

theorem trim_parts (w : List Char) : ∃ b e, w = b ++ trim w ++ e ∧ (∀ c ∈ b, isSpace c = true) ∧
    ∀ c ∈ e, isSpace c = true := by
  refine ⟨w.takeWhile isSpace, ((w.dropWhile isSpace).reverse.takeWhile isSpace).reverse, ?_,
    fun c hc => List.mem_takeWhile_imp hc,
    fun c hc => List.mem_takeWhile_imp (List.mem_reverse.1 hc)⟩
  rw [List.append_assoc, trim, trimEnd, ← List.reverse_append, List.takeWhile_append_dropWhile,
    List.reverse_reverse, List.takeWhile_append_dropWhile]

theorem readable_trim {w : List Char} : Readable (trim w) ↔ Readable w := by
  obtain ⟨b, e, hw, hb, he⟩ := trim_parts w
  obtain ⟨vb, hvb⟩ := readable_of_space hb
  obtain ⟨ve, hve⟩ := readable_of_space he
  constructor
  · rintro ⟨v, hv⟩
    rw [hw]
    exact ⟨vb ++ v ++ ve, (hvb.append hv).append hve⟩
  · rintro ⟨v, hv⟩
    rw [hw, List.append_assoc] at hv
    obtain ⟨v', hv'⟩ := hvb.cancel hv
    exact hv'.dropEnd fun hx => absurd (he _ hx) (by decide)

/-- Text between tags: it can be read, and holds no angle bracket that opens a tag. -/
structure CharData (w : List Char) : Prop where
  data : '<' ∉ w
  readable : Readable w

end Retrial.Xml
