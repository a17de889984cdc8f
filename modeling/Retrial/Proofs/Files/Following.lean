import Retrial.Files.Basic

/-!
# Following names

Where the names of a path lead does not depend on who follows them, only on where
they start. An absolute path starts at the root for everyone. A relative one of
plain names leads straight down from where it starts, as long as it meets no link,
so that from different directories it leads to different places.
-/

set_option autoImplicit false

namespace Retrial

def Entry.isLink : Entry → Bool
  | .link _ => true
  | _ => false

namespace Files

variable {files : Files} {place : Place} {names : List String} {path : String}

theorem follow_of_locateSegments {followsLast : Bool} {start : Place}
    (h : files.locateSegments followsLast start path names = .ok place) :
    files.follow followsLast maxLinks (if Path.isAbsolute path then [] else start) names =
      .ok place := by
  unfold locateSegments at h
  split at h
  · cases h
  · split at h
    · cases h
    · split at h
      · cases h
      · exact h

@[simp] theorem entryAt?_seenFrom (view : Place) :
    (files.seenFrom view).entryAt? place = files.entryAt? place := rfl

theorem follow_seenFrom {followsLast : Bool} {links : Nat} (view : Place) :
    (files.seenFrom view).follow followsLast links place names =
      files.follow followsLast links place names := by
  fun_induction follow files followsLast links place names
  case case1 => rw [follow]
  case case2 hd | case3 hd | case4 hd => rw [follow, entryAt?_seenFrom, hd]
  case case5 hd hn ih =>
    rw [follow, entryAt?_seenFrom, hd]
    simp only [hn, if_true, ih]
  case case6 hd hn hu ih =>
    rw [follow, entryAt?_seenFrom, hd]
    simp only [hn, hu, Bool.false_eq_true, if_true, if_false, ih]
  case case7 hd hn hu hl =>
    rw [follow, entryAt?_seenFrom, hd]
    simp only [hn, hu, hl, Bool.false_eq_true, if_true, if_false]
  case case8 hd hn hu hl _ hk hr =>
    rw [follow, entryAt?_seenFrom, hd]
    simp only [hn, hu, hl, hk, hr, entryAt?_seenFrom, Bool.false_eq_true, if_true, if_false]
  case case9 hd hn hu hl _ hk hr =>
    rw [follow, entryAt?_seenFrom, hd]
    simp only [hn, hu, hl, hk, hr, entryAt?_seenFrom, Bool.false_eq_true, if_false]
  case case10 hd hn hu hl _ hk hr _ ih =>
    rw [follow, entryAt?_seenFrom, hd]
    simp only [hn, hu, hl, hk, hr, entryAt?_seenFrom, Bool.false_eq_true, if_false]
    exact ih
  case case11 hd hn hu hl hk ih =>
    rw [follow, entryAt?_seenFrom, hd]
    simp only [hn, hu, hl, entryAt?_seenFrom, Bool.false_eq_true, if_false]
    exact ih

def IsPlain (name : String) : Prop :=
  name ≠ "" ∧ name ≠ "." ∧ name ≠ ".." ∧ Text.byteLength name.toList ≤ maxNameBytes

instance (name : String) : Decidable (IsPlain name) := inferInstanceAs (Decidable (_ ∧ _ ∧ _ ∧ _))

theorem follow_plain {followsLast : Bool} {links : Nat} {name : String} (hn : IsPlain name)
    (hd : files.entryAt? place = some .directory)
    (hl : ∀ target, files.entryAt? (place ++ [name]) ≠ some (.link target)) :
    files.follow followsLast links place (name :: names) =
      files.follow followsLast links (place ++ [name]) names := by
  obtain ⟨he, hone, htwo, hlen⟩ := hn
  rw [follow, hd]
  have hb : (name == "" || name == ".") = false := by simp [he, hone]
  have hu : (name == "..") = false := by simp [htwo]
  have hm : ¬ maxNameBytes < Text.byteLength name.toList := by omega
  simp only [hb, hu, hm, Bool.false_eq_true, if_false]

def descends (files : Files) (place : Place) : List String → Bool
  | [] => true
  | name :: names =>
    decide (IsPlain name) && files.entryAt? place == some .directory &&
      (files.entryAt? (place ++ [name])).all (fun e => !e.isLink) &&
      files.descends (place ++ [name]) names

theorem follow_of_descends {followsLast : Bool} {links : Nat}
    (h : files.descends place names = true) :
    files.follow followsLast links place names = .ok (place ++ names) := by
  induction names generalizing place with
  | nil => rw [follow, List.append_nil]
  | cons name names ih =>
    rw [descends, Bool.and_eq_true_iff, Bool.and_eq_true_iff, Bool.and_eq_true_iff] at h
    obtain ⟨⟨⟨hn, hd⟩, hl⟩, hr⟩ := h
    have hk : ∀ target, files.entryAt? (place ++ [name]) ≠ some (.link target) := by
      intro target he
      rw [he] at hl
      cases hl
    rw [follow_plain (of_decide_eq_true hn) (eq_of_beq hd) hk, ih hr, List.append_assoc]
    rfl

theorem eq_of_follow_plain {links : Nat} {found : Place}
    (hl : ∀ place target, files.entryAt? place ≠ some (.link target))
    (hn : ∀ name ∈ names, IsPlain name) (h : files.follow true links place names = .ok found) :
    found = place ++ names := by
  induction names generalizing place with
  | nil =>
    rw [follow] at h
    cases h
    simp
  | cons name names ih =>
    rw [List.forall_mem_cons] at hn
    have hd : files.entryAt? place = some .directory := by
      rw [follow] at h
      split at h
      · cases h
      · cases h
      · cases h
      · assumption
    rw [follow_plain hn.1 hd (hl _)] at h
    rw [ih hn.2 h]
    simp

theorem locateSegments_seenFrom {followsLast : Bool} {start : Place} (view : Place) :
    (files.seenFrom view).locateSegments followsLast start path names =
      files.locateSegments followsLast start path names := by
  simp only [locateSegments, follow_seenFrom]

theorem locateSegments_of_isAbsolute {followsLast : Bool} (h : Path.isAbsolute path = true)
    (a b : Place) : files.locateSegments followsLast a path names =
      files.locateSegments followsLast b path names := by
  unfold locateSegments
  rw [if_pos h, if_pos h]

/-- A path leads to the same place for two processes with different working
directories, whether they read what it leads to or remove what stands at it. -/
def LeadsAlike (files : Files) (path : String) (a b : Place) : Prop :=
  (files.seenFrom a).locate path = (files.seenFrom b).locate path ∧
    (files.seenFrom a).locateLink path = (files.seenFrom b).locateLink path

theorem leadsAlike_of_isAbsolute (h : Path.isAbsolute path = true) (a b : Place) :
    files.LeadsAlike path a b := by
  unfold LeadsAlike locate locateFrom locateLink
  simp only [locateSegments_seenFrom]
  exact ⟨locateSegments_of_isAbsolute h _ _, locateSegments_of_isAbsolute h _ _⟩

/-- A relative path of plain names leads to different places from different
directories, where no link stands. -/
theorem parts_of_plain {a b there here : Place}
    (hl : ∀ place target, files.entryAt? place ≠ some (.link target))
    (hr : Path.isAbsolute path = false) (hn : ∀ name ∈ Path.segments path, IsPlain name)
    (ha : (files.seenFrom a).locate path = .ok there)
    (hb : (files.seenFrom b).locate path = .ok here) (hab : a ≠ b) : there ≠ here := by
  have hf : ∀ (view found : Place), (files.seenFrom view).locate path = .ok found →
      found = view ++ Path.segments path := by
    intro view found h
    have h := follow_of_locateSegments h
    rw [follow_seenFrom, hr] at h
    exact eq_of_follow_plain hl hn h
  rw [hf a there ha, hf b here hb]
  exact fun he => hab (List.append_cancel_right he)

theorem createDirectories_of_isDirectory
    (hn : ((Path.segments path).reverse.dropWhile (· == "")).reverse = Path.segments path)
    (hd : files.isDirectory path = true) : files.createDirectories path = .ok files := by
  have hf := eq_of_beq hd
  unfold find? at hf
  cases hl : files.locate path with
  | error fault =>
    rw [hl] at hf
    cases hf
  | ok place =>
    rw [hl] at hf
    have hc : files.createDirectory path = .error .alreadyExists := by
      unfold locate locateFrom at hl
      unfold createDirectory
      rw [hn, hl]
      dsimp only at hf ⊢
      rw [hf]
    unfold createDirectories createDirectoriesUpTo
    rw [hc]
    simp only [hd, if_true]
    cases path.isEmpty <;> rfl

theorem isDirectory_here (h : files.entryAt? files.workingDirectory = some .directory) :
    files.isDirectory "." = true := by
  have hf : files.follow true maxLinks files.workingDirectory ["."] =
      .ok files.workingDirectory := by
    rw [follow, h]
    dsimp only
    rw [if_pos (by decide), follow]
  have hl : files.locate "." = .ok files.workingDirectory := hf
  rw [isDirectory, find?, hl]
  exact beq_iff_eq.2 h

end Files

end Retrial
