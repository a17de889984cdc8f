import Retrial.Proofs.Files.Following

/-!
# What file operations change

Removing takes away what stands at the path itself, and nothing else. After that
the path leads nowhere, also where it went through links before: following the
same names again either comes to the empty place or stops on the way to it.
Creating directories leaves alone whatever is there.
-/

set_option autoImplicit false

namespace Retrial.Files

variable {files : Files} {place target : Place} {names : List String} {path : String}

/-- All that one state of the files holds is held by another, seen from the same place. -/
structure KeptIn (files later : Files) : Prop where
  workingDirectory : later.workingDirectory = files.workingDirectory
  entries : ∀ place entry, files.entryAt? place = some entry → later.entryAt? place = some entry

theorem entryAt?_erase_of_ne (h : place ≠ target) :
    (files.erase target).entryAt? place = files.entryAt? place := by
  unfold entryAt? erase
  by_cases hp : place.isEmpty = true
  · rw [if_pos hp, if_pos hp]
  · rw [if_neg hp, if_neg hp]
    induction files.entries with
    | nil => rfl
    | cons e rest ih =>
      obtain ⟨p, entry⟩ := e
      by_cases he : p = target
      · simp [he, ih, List.lookup_cons, beq_eq_false_iff_ne.2 h]
      · by_cases hx : place = p
        · subst hx
          simp [he]
        · simp [he, ih, List.lookup_cons, beq_eq_false_iff_ne.2 hx]

theorem ne_of_follow_erase {followsLast : Bool} {links : Nat} {name : String} {found : Place}
    (ht : target ≠ [])
    (h : (files.erase target).follow followsLast links place (name :: names) = .ok found) :
    place ≠ target := by
  rintro rfl
  rw [follow, entryAt?_erase files place ht] at h
  cases h

/-- Names that led to a place lead nowhere else when it is gone, also when a link
at their end is followed now. -/
theorem follow_erase {links : Nat} {found : Place} (ht : target ≠ [])
    (h : files.follow false links place names = .ok target)
    (he : (files.erase target).follow true links place names = .ok found) : found = target := by
  fun_induction follow files false links place names
  case case1 =>
    rw [follow] at he
    cases h
    cases he
    rfl
  case case2 | case3 | case4 | case7 | case9 => cases h
  case case5 links place name rest hd hn ih =>
    have hp := ne_of_follow_erase ht he
    rw [follow, entryAt?_erase_of_ne hp, hd] at he
    simp only [hn, if_true] at he
    exact ih h he
  case case6 links place name rest hd hn hu ih =>
    have hp := ne_of_follow_erase ht he
    rw [follow, entryAt?_erase_of_ne hp, hd] at he
    simp only [hn, hu, if_true] at he
    exact ih h he
  case case8 links place name rest hd hn hu hl link hk hr =>
    cases h
    have hx : rest = [] := by simpa using hr
    subst hx
    have hp := ne_of_follow_erase ht he
    rw [follow, entryAt?_erase_of_ne hp, hd] at he
    simp only [hn, hu, hl, entryAt?_erase _ _ ht, follow] at he
    cases he
    rfl
  case case10 place name rest hd hn hu hl link hk hr links ih =>
    have hp := ne_of_follow_erase ht he
    rw [follow, entryAt?_erase_of_ne hp, hd] at he
    by_cases ha : place ++ [name] = target
    · simp only [hn, hu, hl, ha, entryAt?_erase _ _ ht] at he
      cases rest with
      | nil => simp at hr
      | cons next rest => exact absurd rfl (ne_of_follow_erase ht he)
    · simp only [hn, hu, hl, entryAt?_erase_of_ne ha, hk, Bool.not_true, Bool.and_false,
        Bool.false_eq_true, if_false] at he
      exact ih h he
  case case11 links place name rest hd hn hu hl hk ih =>
    -- With this in the context the last match on the entry falls to its second branch.
    have hx : ∀ link, (files.erase target).entryAt? (place ++ [name]) ≠ some (.link link) := by
      intro link
      by_cases ha : place ++ [name] = target
      · simp [ha, entryAt?_erase _ _ ht]
      · rw [entryAt?_erase_of_ne ha]
        exact hk link
    have hp := ne_of_follow_erase ht he
    rw [follow, entryAt?_erase_of_ne hp, hd] at he
    simp only [hn, hu, hl, Bool.false_eq_true, if_false] at he
    exact ih h he

theorem remove_eq_ok {later : Files} (h : files.remove path = .ok later) :
    ∃ target, target ≠ [] ∧ files.locateLink path = .ok target ∧ later = files.erase target := by
  unfold remove at h
  split at h
  · cases h
  · next target hl =>
    cases he : files.entryAt? target with
    | none => simp [he] at h
    | some entry =>
      have ht : target ≠ [] := by
        rintro rfl
        cases he
        cases h
      cases entry with
      | directory => simp [he] at h
      | file _ _ | link _ =>
        rw [he] at h
        exact ⟨target, ht, hl, (Except.ok.inj h).symm⟩

theorem locate_erase {target found : Place} (ht : target ≠ [])
    (h : files.locateLink path = .ok target) (he : (files.erase target).locate path = .ok found) :
    found = target :=
  follow_erase ht (follow_of_locateSegments h) (follow_of_locateSegments he)

theorem find?_erase {target : Place} (ht : target ≠ []) (h : files.locateLink path = .ok target) :
    (files.erase target).find? path = none := by
  unfold find?
  split
  · next found he => rw [locate_erase ht h he, entryAt?_erase files target ht]
  · rfl

theorem read_of_find?_eq_none (h : files.find? path = none) :
    ∃ fault, files.read path = .error fault := by
  unfold find? at h
  unfold read
  split at h
  · next place hl =>
    rw [hl]
    simp [h]
  · next fault hl => exact ⟨fault, by rw [hl]⟩

theorem remove_effect {later : Files} (h : files.remove path = .ok later) :
    later.find? path = none ∧ later.workingDirectory = files.workingDirectory ∧
      ∀ place, files.locateLink path ≠ .ok place → later.entryAt? place = files.entryAt? place := by
  obtain ⟨target, ht, hl, rfl⟩ := remove_eq_ok h
  apply And.intro (find?_erase ht hl)
  apply And.intro rfl
  intro place hp
  apply entryAt?_erase_of_ne
  rintro rfl
  exact hp hl

theorem KeptIn.refl (files : Files) : files.KeptIn files := ⟨rfl, fun _ _ h => h⟩

theorem KeptIn.trans {later last : Files} (h : files.KeptIn later) (hl : later.KeptIn last) :
    files.KeptIn last where
  workingDirectory := hl.workingDirectory.trans h.workingDirectory
  entries place entry he := hl.entries place entry (h.entries place entry he)

theorem entryAt?_put_of_ne {entry : Entry} (h : place ≠ target) :
    (files.put target entry).entryAt? place = files.entryAt? place := by
  have hp : (files.put target entry).entryAt? place = (files.erase target).entryAt? place := by
    simp only [put, erase, entryAt?, List.lookup_cons, beq_eq_false_iff_ne.2 h]
  rw [hp, entryAt?_erase_of_ne h]

theorem keptIn_put {entry : Entry} (h : files.entryAt? target = none) :
    files.KeptIn (files.put target entry) := by
  constructor
  case workingDirectory => rfl
  case entries =>
    intro place e he
    have hp : place ≠ target := by
      rintro rfl
      rw [h] at he
      cases he
    rw [entryAt?_put_of_ne hp, he]

theorem keptIn_createDirectory {later : Files} (h : files.createDirectory path = .ok later) :
    files.KeptIn later := by
  unfold createDirectory at h
  split at h
  · cases h
  · next place _ =>
    split at h
    · cases h
    · next he =>
      cases h
      exact keptIn_put he

theorem keptIn_createDirectoriesUpTo {depth : Nat} {later : Files}
    (h : files.createDirectoriesUpTo depth path = .ok later) : files.KeptIn later := by
  fun_induction createDirectoriesUpTo files depth path generalizing later
  case case1 | case8 =>
    cases h
    exact .refl files
  case case2 hc =>
    cases h
    exact keptIn_createDirectory hc
  case case3 | case6 | case7 | case9 => cases h
  case case4 ha _ hc ih =>
    cases h
    exact (ih ha).trans (keptIn_createDirectory hc)
  case case5 ha _ _ _ ih =>
    cases h
    exact ih ha

theorem keptIn_createDirectories {later : Files} (h : files.createDirectories path = .ok later) :
    files.KeptIn later :=
  keptIn_createDirectoriesUpTo h

end Retrial.Files
