import Retrial.Proofs.Files.Following
import Retrial.Proofs.LogNames

/-!
# Joining a name to a directory

A name without a slash that is joined to a directory stays in it: wherever the
path leads, the directory leads to the place above, whatever links it goes through.
-/

set_option autoImplicit false

namespace Retrial

namespace Path

variable {directory name path : String} {cs ds : List Char}

theorem splitSegments_ne_nil (cs : List Char) : splitSegments cs ≠ [] := by
  cases cs with
  | nil => simp [splitSegments]
  | cons c cs =>
    rw [splitSegments]
    split
    · exact List.cons_ne_nil _ _
    · split <;> exact List.cons_ne_nil _ _

theorem splitSegments_append (cs ds : List Char) :
    splitSegments (cs ++ '/' :: ds) = splitSegments cs ++ splitSegments ds := by
  induction cs with
  | nil => simp [splitSegments]
  | cons c cs ih =>
    by_cases hc : c = '/'
    · simp [splitSegments, hc, ih]
    · cases hs : splitSegments cs with
      | nil => exact absurd hs (splitSegments_ne_nil cs)
      | cons s rest => simp [splitSegments, hc, ih, hs]

theorem splitSegments_of_notMem (h : '/' ∉ cs) : splitSegments cs = [cs] := by
  induction cs with
  | nil => rfl
  | cons c cs ih =>
    rw [List.mem_cons, not_or] at h
    simp [splitSegments, Ne.symm h.1, ih h.2]

/-- Joined to a text, a name is one segment more. Only an empty one at the end of
the text, behind a slash there, is gone. -/
theorem segments_join (hd : directory ≠ "") (hn : '/' ∉ name.toList) :
    ∃ above, segments (join directory name) = above ++ [name] ∧
      (segments directory = above ∨ segments directory = above ++ [""]) := by
  have hs : segments name = [name] := by simp [segments, splitSegments_of_notMem hn]
  have he : directory.isEmpty = false := by simpa using hd
  simp only [join, LogNamer.not_isAbsolute hn, he, Bool.false_eq_true, if_false]
  split
  · next hl =>
    obtain ⟨cs, hc⟩ := List.getLast?_eq_some_iff.1 (eq_of_beq hl)
    refine ⟨(splitSegments cs).map String.ofList, ?_, Or.inr ?_⟩
    · rw [← hs]
      simp [segments, hc, splitSegments_append]
    · simp [segments, hc, splitSegments_append, splitSegments]
  · refine ⟨segments directory, ?_, Or.inl rfl⟩
    rw [← hs]
    simp [segments, splitSegments_append]

theorem isAbsolute_join_name (hd : directory ≠ "") (hn : '/' ∉ name.toList) :
    isAbsolute (join directory name) = isAbsolute directory := by
  have he : directory.isEmpty = false := by simpa using hd
  have ha : ∀ text, isAbsolute (directory ++ text) = isAbsolute directory := by
    intro text
    have hc : directory.toList ≠ [] := by simpa using hd
    unfold isAbsolute
    rw [String.toList_append, List.head?_append]
    cases hl : directory.toList with
    | nil => exact absurd hl hc
    | cons c rest => rfl
  simp only [join, LogNamer.not_isAbsolute hn, he, Bool.false_eq_true, if_false]
  split
  · exact ha name
  · rw [String.append_assoc, ha]

theorem toList_prefix_join (hd : directory ≠ "") (hn : '/' ∉ name.toList) :
    directory.toList <+: (join directory name).toList := by
  have he : directory.isEmpty = false := by simpa using hd
  simp only [join, LogNamer.not_isAbsolute hn, he, Bool.false_eq_true, if_false]
  split <;> simp

end Path

namespace Files

variable {files : Files} {place found : Place} {names : List String} {name : String}

section Step

variable {followsLast : Bool} {links : Nat}

theorem follow_stay (hd : files.entryAt? place = some .directory)
    (hx : (name == "" || name == ".") = true) :
    files.follow followsLast links place (name :: names) =
      files.follow followsLast links place names := by
  rw [follow, hd]
  simp only [hx, if_true]

theorem follow_up (hd : files.entryAt? place = some .directory)
    (hx : ¬(name == "" || name == ".") = true) (hu : (name == "..") = true) :
    files.follow followsLast links place (name :: names) =
      files.follow followsLast links place.dropLast names := by
  rw [follow, hd]
  simp only [hx, hu, Bool.false_eq_true, if_true, if_false]

theorem follow_link {target : String} (hd : files.entryAt? place = some .directory)
    (hx : ¬(name == "" || name == ".") = true) (hu : ¬(name == "..") = true)
    (hm : ¬maxNameBytes < Text.byteLength name.toList)
    (hl : files.entryAt? (place ++ [name]) = some (.link target)) :
    files.follow true (links + 1) place (name :: names) =
      files.follow true links (if Path.isAbsolute target then [] else place)
        (Path.segments target ++ names) := by
  rw [follow, hd]
  simp only [hx, hu, hm, hl, Bool.not_true, Bool.and_false, Bool.false_eq_true, if_false]

theorem follow_down (hd : files.entryAt? place = some .directory)
    (hx : ¬(name == "" || name == ".") = true) (hu : ¬(name == "..") = true)
    (hm : ¬maxNameBytes < Text.byteLength name.toList)
    (hl : ∀ target, files.entryAt? (place ++ [name]) ≠ some (.link target)) :
    files.follow followsLast links place (name :: names) =
      files.follow followsLast links (place ++ [name]) names := by
  rw [follow, hd]
  simp only [hx, hu, hm, Bool.false_eq_true, if_false]

end Step

theorem follow_concat {links : Nat} (hn : name ∉ ["", ".", ".."])
    (h : files.follow false links place (names ++ [name]) = .ok found) :
    ∃ above, files.follow true links place names = .ok above ∧
      files.entryAt? above = some .directory ∧ found = above ++ [name] := by
  simp only [List.mem_cons, List.not_mem_nil, or_false, not_or] at hn
  generalize hall : names ++ [name] = all at h
  fun_induction follow files false links place all generalizing names
  case case1 => simp at hall
  case case2 | case3 | case4 | case7 | case9 => cases h
  case case5 hd hx ih =>
    cases names with
    | nil => simp_all
    | cons n ns =>
      obtain ⟨rfl, rfl⟩ := List.cons.inj hall
      rw [follow_stay hd hx]
      exact ih rfl h
  case case6 hd hx hu ih =>
    cases names with
    | nil => simp_all
    | cons n ns =>
      obtain ⟨rfl, rfl⟩ := List.cons.inj hall
      rw [follow_up hd hx hu]
      exact ih rfl h
  case case8 links place first rest hd hx hu hm target hl hr =>
    have hrest : rest = [] := by simpa using hr
    subst hrest
    obtain ⟨rfl, hf⟩ : names = [] ∧ name = first := by
      cases names with
      | nil => exact ⟨rfl, (List.cons.inj hall).1⟩
      | cons n ns => simp at hall
    cases h
    exact ⟨place, by rw [follow], hd, by rw [hf]⟩
  case case10 hd hx hu hm target hl hr links ih =>
    cases names with
    | nil =>
      obtain ⟨-, rfl⟩ := List.cons.inj hall
      exact absurd rfl hr
    | cons n ns =>
      obtain ⟨rfl, rfl⟩ := List.cons.inj hall
      rw [follow_link hd hx hu hm hl]
      exact ih (List.append_assoc _ _ _) h
  case case11 links place first rest hd hx hu hm hl ih =>
    cases names with
    | nil =>
      obtain ⟨rfl, rfl⟩ := List.cons.inj hall
      rw [follow] at h
      cases h
      exact ⟨place, by rw [follow], hd, rfl⟩
    | cons n ns =>
      obtain ⟨rfl, rfl⟩ := List.cons.inj hall
      rw [follow_down hd hx hu hm hl]
      exact ih rfl h

/-- An empty name at the end, as a slash there leaves it, changes nothing for a directory. -/
theorem follow_concat_empty {links : Nat} (hd : files.entryAt? found = some .directory)
    (h : files.follow true links place names = .ok found) :
    files.follow true links place (names ++ [""]) = .ok found := by
  fun_induction follow files true links place names
  case case1 =>
    cases h
    rw [List.nil_append, follow_stay hd rfl, follow]
  case case2 | case3 | case4 | case7 | case9 => cases h
  case case5 hp hx ih => rw [List.cons_append, follow_stay hp hx, ih h]
  case case6 hp hx hu ih => rw [List.cons_append, follow_up hp hx hu, ih h]
  case case8 hr => simp at hr
  case case10 hp hx hu hm target hl hr links ih =>
    rw [List.cons_append, follow_link hp hx hu hm hl, ← List.append_assoc]
    exact ih h
  case case11 hp hx hu hm hl ih => rw [List.cons_append, follow_down hp hx hu hm hl, ih h]

def directoryAt (files : Files) (directory : String) : Except IoFault Place :=
  if directory = "" then .ok files.workingDirectory else files.locate directory

theorem locateSegments_of_start {directory path : String} {start : Place}
    (hd : directory ≠ "") (hp : directory.toList <+: path.toList)
    (ha : Path.isAbsolute path = Path.isAbsolute directory) {names : List String}
    (h : files.locateSegments false start path names = .ok place) :
    ∀ more, files.locateSegments true start directory more =
      files.follow true maxLinks (if Path.isAbsolute path then [] else start) more := by
  obtain ⟨rest, hr⟩ := hp
  intro more
  unfold locateSegments at h ⊢
  have hnul : ¬(directory.toList.contains '\x00') = true := by
    intro hc
    rw [if_pos (by rw [← hr]; simpa using Or.inl (List.contains_iff_mem.1 hc))] at h
    cases h
  have hlen : ¬maxPathBytes < Text.byteLength directory.toList := by
    intro hl
    have hx : maxPathBytes < Text.byteLength path.toList := by
      rw [← hr, Text.byteLength_append]
      omega
    simp only [hx, if_true] at h
    split at h
    · cases h
    · split at h <;> cases h
  rw [if_neg hnul, if_neg (by simpa using hd), if_neg hlen, ha]

theorem directoryAt_of_locateLink_join {directory : String} (hs : '/' ∉ name.toList)
    (hn : name ∉ ["", ".", ".."])
    (h : files.locateLink (Path.join directory name) = .ok place) :
    ∃ above, files.directoryAt directory = .ok above ∧ place = above ++ [name] := by
  by_cases hd : directory = ""
  · subst hd
    have hj : Path.join "" name = name := by simp [Path.join]
    have hl := follow_of_locateSegments h
    rw [hj, LogNamer.not_isAbsolute hs] at hl
    have hseg : Path.segments name = [] ++ [name] := by
      simp [Path.segments, Path.splitSegments_of_notMem hs]
    rw [hseg] at hl
    obtain ⟨above, ha, -, hp⟩ := follow_concat hn hl
    rw [follow] at ha
    exact ⟨above, ha, hp⟩
  · obtain ⟨names, hj, hseg⟩ := Path.segments_join hd hs
    have hl := follow_of_locateSegments h
    rw [hj] at hl
    obtain ⟨above, ha, hdir, hp⟩ := follow_concat hn hl
    refine ⟨above, ?_, hp⟩
    have hstart := locateSegments_of_start hd (Path.toList_prefix_join hd hs)
      (Path.isAbsolute_join_name hd hs) h
    rw [directoryAt, if_neg hd, locate, locateFrom, hstart]
    obtain hseg | hseg := hseg
    · rw [hseg]
      exact ha
    · rw [hseg]
      exact follow_concat_empty hdir ha

end Files

/-- A path that is a directory's own path with one name more. Whatever the files are, it
leads to an entry of the directory, and not further down or out of it. -/
structure Path.DirectlyIn (directory path name : String) : Prop where
  text : path = Path.join directory name
  slash : '/' ∉ name.toList
  proper : name ∉ ["", ".", ".."]
  place : ∀ (files : Files) (place : Place), files.locateLink path = .ok place →
    ∃ above, files.directoryAt directory = .ok above ∧ place = above ++ [name]

theorem Path.directlyIn_join {name : String} (directory : String) (hs : '/' ∉ name.toList)
    (hn : name ∉ ["", ".", ".."]) : Path.DirectlyIn directory (Path.join directory name) name :=
  ⟨rfl, hs, hn, fun _ _ h => Files.directoryAt_of_locateLink_join hs hn h⟩

end Retrial
