import Mathlib.Data.List.TakeWhile
import Retrial.Files.Path

/-!
# Stems of file names

Which stem a path has, told without looking for it. The file name stands behind
the last separator, of either kind. Its stem is what stands before the last dot,
or the whole name if there is no dot or only one at the front; neither the empty
name nor the two names that stand for directories have a stem.
-/

set_option autoImplicit false

namespace Retrial.Path

def EndsDirectory (lead : List Char) : Prop :=
  lead = [] ∨ ∃ above c, isSeparator c = true ∧ lead = above ++ [c]

def HasFileName (path name : String) : Prop :=
  (∀ c ∈ name.toList, isSeparator c = false) ∧
    ∃ lead, EndsDirectory lead ∧ path.toList = lead ++ name.toList

inductive HasStem (path : String) : String → Prop
  | whole {name : String} : HasFileName path name → name ∉ ["", "."] →
      '.' ∉ name.toList.tail → HasStem path name
  | cut {stem extension : String} : HasFileName path (stem ++ "." ++ extension) →
      stem ≠ "" → stem ++ "." ++ extension ≠ ".." → '.' ∉ extension.toList → HasStem path stem

theorem lastSegment_append {lead name : List Char} (hl : EndsDirectory lead)
    (hn : ∀ c ∈ name, isSeparator c = false) : lastSegment (lead ++ name) = name := by
  have hr : ∀ c ∈ name.reverse, (!isSeparator c) = true := by
    intro c hc
    simp [hn c (List.mem_reverse.1 hc)]
  unfold lastSegment
  rw [List.reverse_append, List.takeWhile_append_of_pos hr]
  obtain rfl | ⟨above, c, hc, rfl⟩ := hl
  · simp
  · simp [hc]

/-- Every path has a file name, though it may be empty. -/
theorem lastSegment_split (path : List Char) : ∃ lead, EndsDirectory lead ∧
    path = lead ++ lastSegment path := by
  refine ⟨(path.reverse.dropWhile fun c => !isSeparator c).reverse, ?_, ?_⟩
  · cases h : path.reverse.dropWhile fun c => !isSeparator c with
    | nil => exact Or.inl rfl
    | cons c rest =>
      have hc := List.head?_dropWhile_not (fun c => !isSeparator c) path.reverse
      rw [h] at hc
      exact Or.inr ⟨rest.reverse, c, by simpa using hc, List.reverse_cons⟩
  · rw [lastSegment, ← List.reverse_append, List.takeWhile_append_dropWhile, List.reverse_reverse]

theorem separator_notMem_lastSegment {path : List Char} {c : Char} (h : c ∈ lastSegment path) :
    isSeparator c = false := by
  have hc := List.mem_takeWhile_imp (List.mem_reverse.1 h)
  simpa using hc

theorem hasFileName_iff {path name : String} :
    HasFileName path name ↔ lastSegment path.toList = name.toList := by
  constructor
  · rintro ⟨hn, lead, hl, hp⟩
    rw [hp]
    exact lastSegment_append hl hn
  · intro h
    obtain ⟨lead, hl, hp⟩ := lastSegment_split path.toList
    rw [h] at hp
    exact ⟨fun c hc => separator_notMem_lastSegment (h ▸ hc), lead, hl, hp⟩

section Names

variable {name before behind stem : List Char}

abbrev bareNames : List (List Char) := [[], ['.'], ['.', '.']]

theorem stemOf?_of_bare (h : name ∈ bareNames) : stemOf? name = none := by
  simp only [List.mem_cons, List.not_mem_nil, or_false] at h
  obtain rfl | rfl | rfl := h <;> rfl

theorem stemOf?_of_no_dot (hb : name ∉ bareNames) (hd : '.' ∉ name.tail) :
    stemOf? name = some name := by
  have hx : ¬(name == [] || name == ['.'] || name == ['.', '.']) = true := by
    simpa [and_assoc] using hb
  have hup : ∀ rest : List Char, '.' ∉ rest → rest.reverse.dropWhile (· != '.') = [] := by
    intro rest hr
    rw [List.dropWhile_eq_nil_iff]
    intro c hc
    rw [bne_iff_ne]
    rintro rfl
    exact hr (List.mem_reverse.1 hc)
  rw [stemOf?, if_neg hx]
  cases name with
  | nil => rfl
  | cons c rest =>
    rw [List.reverse_cons, List.dropWhile_append, hup rest hd]
    by_cases hc : c = '.' <;> simp [hc]

/-- A dot further behind cuts the name, the last one where there are several. -/
theorem stemOf?_of_dot (hb : before ≠ []) (hd : '.' ∉ behind)
    (hn : before ++ '.' :: behind ≠ ['.', '.']) :
    stemOf? (before ++ '.' :: behind) = some before := by
  have hx : ¬(before ++ '.' :: behind == [] || before ++ '.' :: behind == ['.'] ||
      before ++ '.' :: behind == ['.', '.']) = true := by
    simp only [Bool.or_eq_true, beq_iff_eq]
    rintro ((h | h) | h)
    · simp at h
    · cases before <;> simp_all
    · exact hn h
  have hup : ((before ++ '.' :: behind).reverse.dropWhile (· != '.')).reverse =
      before ++ ['.'] := by
    have hr : ∀ c ∈ behind.reverse, (c != '.') = true := by
      intro c hc
      rw [bne_iff_ne]
      rintro rfl
      exact hd (List.mem_reverse.1 hc)
    rw [List.reverse_append, List.reverse_cons, List.append_assoc, List.dropWhile_append_of_pos hr]
    simp
  rw [stemOf?, if_neg hx, hup]
  cases before with
  | nil => exact absurd rfl hb
  | cons c rest =>
    cases rest with
    | nil => simp
    | cons d rest =>
      have hl : (d :: rest ++ ['.']).dropLast = d :: rest := List.dropLast_concat
      simpa using hl

theorem split_at_last_dot (h : '.' ∈ name.tail) :
    ∃ before behind, before ≠ [] ∧ '.' ∉ behind ∧ name = before ++ '.' :: behind := by
  cases name with
  | nil => simp at h
  | cons c rest =>
    obtain ⟨front, back, hr, hb⟩ := List.eq_append_cons_of_mem (List.mem_reverse.2 h)
    have hrest : rest = back.reverse ++ '.' :: front.reverse := by
      simpa using congrArg List.reverse hr
    exact ⟨c :: back.reverse, front.reverse, List.cons_ne_nil _ _, mt List.mem_reverse.1 hb,
      by rw [hrest, List.cons_append]⟩

end Names

theorem hasStem_of_stemOf? {path : String} {stem : List Char}
    (h : stemOf? (lastSegment path.toList) = some stem) : HasStem path (String.ofList stem) := by
  have hf : HasFileName path (String.ofList (lastSegment path.toList)) := by
    simp [hasFileName_iff]
  generalize lastSegment path.toList = name at h hf
  by_cases hb : name ∈ bareNames
  · rw [stemOf?_of_bare hb] at h
    cases h
  by_cases hd : '.' ∈ name.tail
  · obtain ⟨before, behind, hne, hn, rfl⟩ := split_at_last_dot hd
    rw [stemOf?_of_dot hne hn (by rintro e; simp [e] at hb)] at h
    cases h
    have he : String.ofList stem ++ "." ++ String.ofList behind =
        String.ofList (stem ++ '.' :: behind) := by
      rw [← String.toList_inj]
      simp
    have hf : HasFileName path (String.ofList stem ++ "." ++ String.ofList behind) := he ▸ hf
    refine .cut hf ?_ ?_ (by simpa using hn)
    · simpa using hne
    · rw [he]
      intro hx
      have hx : stem ++ '.' :: behind = ['.', '.'] := by simpa using congrArg String.toList hx
      exact hb (by simp [hx])
  · rw [stemOf?_of_no_dot hb hd] at h
    cases h
    refine .whole hf ?_ (by simpa using hd)
    simp only [List.mem_cons, List.not_mem_nil, or_false] at hb ⊢
    rintro (hx | hx)
    · exact hb (Or.inl (by simpa using hx))
    · exact hb (Or.inr (Or.inl (by simpa using congrArg String.toList hx)))

theorem stemOf?_of_hasStem {path stem : String} (h : HasStem path stem) :
    stemOf? (lastSegment path.toList) = some stem.toList := by
  cases h with
  | whole hf hn hd =>
    rw [hasFileName_iff.1 hf]
    refine stemOf?_of_no_dot ?_ hd
    simp only [List.mem_cons, List.not_mem_nil, or_false, not_or] at hn ⊢
    refine ⟨by simpa using hn.1, fun hx => hn.2 (String.toList_inj.1 hx), fun hx => ?_⟩
    rw [hx] at hd
    exact hd (by simp)
  | @cut extension hf hs hn hd =>
    have hl : (stem ++ "." ++ extension).toList = stem.toList ++ '.' :: extension.toList := by simp
    rw [hasFileName_iff.1 hf, hl]
    exact stemOf?_of_dot (by simpa using hs) hd fun hx => hn (String.toList_inj.1 (hl.trans hx))

theorem artifactStem?_eq_some_iff {path stem : String} :
    artifactStem? path = some stem ↔ HasStem path stem := by
  rw [artifactStem?, Option.map_eq_some_iff]
  constructor
  · rintro ⟨name, hn, rfl⟩
    exact hasStem_of_stemOf? hn
  · exact fun h => ⟨stem.toList, stemOf?_of_hasStem h, String.ofList_toList⟩

theorem HasStem.inert {path stem : String} (h : HasStem path stem) :
    stem ≠ "" ∧ ∀ c ∈ stem.toList, isSeparator c = false := by
  cases h with
  | whole hf hn _ =>
    exact ⟨fun hs => hn (by simp [hs]), hf.1⟩
  | cut hf hs _ _ => exact ⟨hs, fun c hc => hf.1 c (by simp [hc])⟩

end Retrial.Path
