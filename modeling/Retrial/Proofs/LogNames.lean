import Retrial.LogNames

/-!
# Reading log names

The path of a log tells the artifact, the stamp of the run and the attempt: read
from the end, the number holds no dash, and neither does the stamp of a year
that needs no sign. What an artifact is called does not matter, with dashes and
digits or without.
-/

set_option autoImplicit false

namespace Retrial

/-- The last occurrence of an element splits a list in one way only. -/
theorem append_cons_inj_of_notMem {α : Type} {a : α} {before before' behind behind' : List α}
    (h : a ∉ behind) (h' : a ∉ behind') (he : before ++ a :: behind = before' ++ a :: behind') :
    before = before' ∧ behind = behind' := by
  induction before generalizing before' with
  | nil =>
    cases before' with
    | nil => exact ⟨rfl, (List.cons.inj he).2⟩
    | cons b rest =>
      have hb : behind = rest ++ a :: behind' := (List.cons.inj he).2
      exact absurd (by simp [hb]) h
  | cons b rest ih =>
    cases before' with
    | nil =>
      have hb : rest ++ a :: behind = behind' := (List.cons.inj he).2
      exact absurd (by simp [← hb]) h'
    | cons b' rest' =>
      obtain ⟨hb, hr⟩ := List.cons.inj he
      obtain ⟨hr, hn⟩ := ih hr
      exact ⟨by rw [hb, hr], hn⟩

theorem dash_notMem_toDigits (n : Nat) : '-' ∉ Nat.toDigits 10 n := by
  intro h
  exact absurd (Nat.isDigit_of_mem_toDigits (by decide) (by decide) h) (by decide)

theorem toDigits_injective {n k : Nat} (h : Nat.toDigits 10 n = Nat.toDigits 10 k) : n = k := by
  rw [← Nat.ofDigitChars_ten_toDigits (n := n), h, Nat.ofDigitChars_ten_toDigits]

namespace Moment

theorem dash_notMem_padded (width n : Nat) : '-' ∉ (padded width n).toList := by
  simp [padded, dash_notMem_toDigits]

theorem dash_notMem_stamp {m : Moment} (h : 0 ≤ m.year) : '-' ∉ m.stamp.toList := by
  have hy : '-' ∉ (yearText m.year).toList := by
    unfold yearText
    rw [if_neg (by omega)]
    split
    · simp [dash_notMem_padded]
    · exact dash_notMem_padded 4 _
  simp [stamp, hy, dash_notMem_padded]

end Moment

namespace LogNamer

variable {a b : LogNamer} {n k : Nat}

theorem toList_fileName {stamp : String} (h : a.naming = .unique stamp) (n : Nat) :
    (a.fileName n).toList = (a.baseName.toList ++ '-' :: stamp.toList) ++
      '-' :: (Nat.toDigits 10 n ++ ".xml".toList) := by
  simp [fileName, h]

theorem fileName_injective {stamp stamp' : String} (ha : a.naming = .unique stamp)
    (hb : b.naming = .unique stamp') (hs : '-' ∉ stamp.toList) (hs' : '-' ∉ stamp'.toList)
    (h : a.fileName n = b.fileName k) : a.baseName = b.baseName ∧ stamp = stamp' ∧ n = k := by
  have hn : ∀ n, '-' ∉ Nat.toDigits 10 n ++ ".xml".toList := by
    intro n hm
    cases List.mem_append.1 hm with
    | inl hm => exact dash_notMem_toDigits n hm
    | inr hm => exact absurd hm (by decide)
  have hl := congrArg String.toList h
  rw [toList_fileName ha, toList_fileName hb] at hl
  obtain ⟨hl, hd⟩ := append_cons_inj_of_notMem (hn n) (hn k) hl
  obtain ⟨hl, ht⟩ := append_cons_inj_of_notMem hs hs' hl
  exact ⟨String.toList_inj.1 hl, String.toList_inj.1 ht,
    toDigits_injective (List.append_cancel_right hd)⟩

theorem fileName_ne {stamp : String} (ha : a.naming = .unique stamp)
    (h : a.fileName n = a.fileName k) : n = k := by
  have hl := congrArg String.toList h
  rw [toList_fileName ha, toList_fileName ha] at hl
  have hd := (List.cons.inj (List.append_cancel_left hl)).2
  exact toDigits_injective (List.append_cancel_right hd)

theorem isAbsolute_fileName {stamp : String} (ha : a.naming = .unique stamp) (n : Nat) :
    Path.isAbsolute (a.fileName n) = Path.isAbsolute a.baseName := by
  unfold Path.isAbsolute
  rw [toList_fileName ha]
  cases a.baseName.toList <;> rfl

end LogNamer

theorem Path.join_injective {base path path' : String}
    (h : Path.isAbsolute path = Path.isAbsolute path')
    (he : Path.join base path = Path.join base path') : path = path' := by
  unfold Path.join at he
  rw [h] at he
  split at he
  · exact he
  · split at he
    · exact he
    · split at he
      · exact String.append_right_inj base |>.1 he
      · exact String.append_right_inj (base ++ "/") |>.1 he

namespace LogNamer

variable {a b : LogNamer} {n k : Nat}

theorem path_ne {stamp : String} (ha : a.naming = .unique stamp) (h : a.path n = a.path k) :
    n = k := by
  apply fileName_ne ha
  apply Path.join_injective _ h
  rw [isAbsolute_fileName ha, isAbsolute_fileName ha]

theorem not_isAbsolute {name : String} (h : '/' ∉ name.toList) : Path.isAbsolute name = false := by
  unfold Path.isAbsolute
  cases hn : name.toList with
  | nil => rfl
  | cons c rest =>
    have hc : c ≠ '/' := by
      rintro rfl
      exact h (by simp [hn])
    simpa using hc

/-- Logs in one directory have the same path only if they are of the same artifact,
the same stamp and the same attempt. -/
theorem path_injective {m m' : Moment} (hd : a.directory = b.directory)
    (ha : a.naming = .unique m.stamp) (hb : b.naming = .unique m'.stamp) (hm : 0 ≤ m.year)
    (hm' : 0 ≤ m'.year) (hna : '/' ∉ a.baseName.toList) (hnb : '/' ∉ b.baseName.toList)
    (h : a.path n = b.path k) : a.baseName = b.baseName ∧ m.stamp = m'.stamp ∧ n = k := by
  unfold path at h
  rw [hd] at h
  have hf : a.fileName n = b.fileName k := by
    apply Path.join_injective _ h
    rw [isAbsolute_fileName ha, isAbsolute_fileName hb, not_isAbsolute hna, not_isAbsolute hnb]
  exact fileName_injective ha hb (Moment.dash_notMem_stamp hm) (Moment.dash_notMem_stamp hm') hf

end LogNamer

end Retrial
