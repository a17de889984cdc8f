import Retrial.Proofs.Xml.CharData

/-!
# Written markup

How the pieces of a markup text are written, and that each of them is read back
as the lexeme it stands for, whatever follows. `Content` is the grammar of what
may stand inside an element, for elements whose names fulfil a condition.
-/

set_option autoImplicit false

namespace Retrial.Xml

/-! ### Pieces without a name -/

def cdataText (text : List Char) : List Char :=
  '<' :: '!' :: '[' :: ("CDATA[".toList ++ (text ++ [']', ']', '>']))

def commentText (text : List Char) : List Char :=
  '<' :: '!' :: '-' :: '-' :: (text ++ ['-', '-', '>'])

def instructionText (text : List Char) : List Char := '<' :: '?' :: (text ++ ['?', '>'])

/-- A mark is found behind a text that does not contain it. Its last character
stands nowhere else in it, so it cannot begin inside the text either. -/
theorem splitAt?_written {m text : List Char} {c : Char} (hc : c ∉ m)
    (ht : ¬(m ++ [c]) <:+: text) (v : List Char) :
    splitAt? (m ++ [c]) (text ++ (m ++ [c]) ++ v) = some (text, v) := by
  induction text with
  | nil => exact splitAt?_mark (by simp) v
  | cons t text ih =>
    have hp : ¬(m ++ [c]) <+: t :: text ++ (m ++ [c]) ++ v := by
      rintro ⟨w, hw⟩
      have he : m ++ c :: w = (t :: text) ++ (m ++ c :: v) := by simpa using hw
      rcases List.append_eq_append_iff.1 he with ⟨a, hu, ha⟩ | ⟨a, hm, ha⟩
      · cases a with
        | nil =>
          cases m with
          | nil => simp at hu
          | cons d m => exact hc ((List.cons.inj ha).1 ▸ List.mem_cons_self)
        | cons d a =>
          obtain rfl : c = d := (List.cons.inj ha).1
          exact ht ⟨[], a, by simp [hu]⟩
      · have hlong : a.length < m.length := by
          rw [hm, List.length_append, List.length_cons]
          omega
        rcases List.append_eq_append_iff.1 ha with ⟨b, hb, -⟩ | ⟨b, hb, hb'⟩
        · rw [hb, List.length_append] at hlong
          omega
        · cases b with
          | nil => rw [hb, List.append_nil] at hlong; omega
          | cons d b =>
            obtain rfl : c = d := (List.cons.inj hb').1
            exact hc (hb ▸ List.mem_append_right a List.mem_cons_self)
    have hi : ¬(m ++ [c]) <:+: text := fun h => ht (h.trans (List.suffix_cons t text).isInfix)
    rw [List.cons_append, List.cons_append] at hp ⊢
    rw [splitAt?_skip hp, ih hi]
    rfl

theorem next?_cdata {text : List Char} (h : ¬[']', ']', '>'] <:+: text) (v : List Char) :
    next? (cdataText text ++ v) = .ok (some (.cdata text, v)) := by
  have hs : splitAt? [']', ']', '>'] (text ++ [']', ']', '>'] ++ v) = some (text, v) :=
    splitAt?_written (m := [']', ']']) (by decide) h v
  have hc : cdataSection ("CDATA[".toList ++ (text ++ [']', ']', '>']) ++ v) =
      .ok (.cdata text, v) := by
    rw [List.append_assoc, cdataSection_append, hs]
    rfl
  rw [cdataText, List.cons_append, List.cons_append, List.cons_append, next?_markup, markup, hc]
  rfl

theorem next?_comment {text : List Char} (h : ¬['-', '-', '>'] <:+: text) (v : List Char) :
    next? (commentText text ++ v) = .ok (some (.aside, v)) := by
  have hs : splitAt? ['-', '-', '>'] (text ++ ['-', '-', '>'] ++ v) = some (text, v) :=
    splitAt?_written (m := ['-', '-']) (by decide) h v
  have hc : comment ('-' :: (text ++ ['-', '-', '>'] ++ v)) = .ok (.aside, v) := by
    rw [comment, hs]
  rw [commentText, List.cons_append, List.cons_append, List.cons_append, List.cons_append,
    next?_markup, markup, hc]
  rfl

theorem next?_instruction {text : List Char} (h : ¬['?', '>'] <:+: text)
    (hf : text.head? ≠ some '>') (v : List Char) :
    next? (instructionText text ++ v) = .ok (some (.aside, v)) := by
  have hs : splitAt? ['?', '>'] (text ++ ['?', '>'] ++ v) = some (text, v) :=
    splitAt?_written (m := ['?']) (by decide) h v
  have hi : instruction (text ++ ['?', '>'] ++ v) = .ok (.aside, v) := by
    unfold instruction
    split
    · next he =>
      cases text with
      | nil => cases he
      | cons c text => exact absurd (congrArg some (List.cons.inj he).1) hf
    · rw [hs]
  rw [instructionText, List.cons_append, List.cons_append, next?_markup, markup, hi]
  rfl

/-! ### Tags -/

structure IsName (name : List Char) : Prop where
  inhabited : name ≠ []
  plain : ∀ c ∈ name, isSpace c = false ∧ c ∉ ['<', '>', '/', '=', '"', '\'', '!', '?', '&']

instance (name : List Char) : Decidable (IsName name) :=
  decidable_of_iff (name ≠ [] ∧ (name.all fun c => !isSpace c &&
      decide (c ∉ ['<', '>', '/', '=', '"', '\'', '!', '?', '&'])) = true)
    ⟨fun ⟨hne, h⟩ => ⟨hne, fun c hc => by simpa using List.all_eq_true.1 h c hc⟩,
      fun h => ⟨h.inhabited, List.all_eq_true.2 fun c hc => by simpa using h.plain c hc⟩⟩

/-- The attributes of a tag as they are written, each behind space, with their raw values. -/
inductive Attributes : List (List Char × List Char) → List Char → Prop
  | nil {s : List Char} : (∀ c ∈ s, isSpace c = true) → Attributes [] s
  | cons {s key s₁ s₂ value rest : List Char} {quote : Char} {raws : List (List Char × List Char)} :
      s ≠ [] → (∀ c ∈ s ++ s₁ ++ s₂, isSpace c = true) → IsName key → quote = '"' ∨ quote = '\'' →
      quote ∉ value → Attributes raws rest →
      Attributes ((key, value) :: raws)
        (s ++ (key ++ (s₁ ++ '=' :: (s₂ ++ quote :: (value ++ quote :: rest)))))

theorem Attributes.double {key value rest : List Char} {raws : List (List Char × List Char)}
    (hk : IsName key) (hv : '"' ∉ value) (h : Attributes raws rest) :
    Attributes ((key, value) :: raws) (' ' :: (key ++ '=' :: '"' :: (value ++ '"' :: rest))) :=
  @Attributes.cons [' '] key [] [] value rest '"' raws (List.cons_ne_nil _ _)
    (List.all_eq_true.1 rfl) hk
    (.inl rfl) hv h

def Passed (u : List Char) : Prop :=
  ∀ v, tagBody? none (u ++ v) = (tagBody? none v).map fun r => (u ++ r.1, r.2)

theorem Passed.append {u w : List Char} (hu : Passed u) (hw : Passed w) : Passed (u ++ w) := by
  intro v
  rw [List.append_assoc, hu, hw, Option.map_map]
  simp only [Function.comp_def, List.append_assoc]

theorem passed_plain {u : List Char} (h : ∀ c ∈ u, c ≠ '>' ∧ c ≠ '"' ∧ c ≠ '\'') : Passed u := by
  induction u with
  | nil => intro v; simp
  | cons c u ih =>
    intro v
    obtain ⟨h₁, h₂, h₃⟩ := h c List.mem_cons_self
    have hu := ih (fun d hd => h d (List.mem_cons_of_mem c hd)) v
    simp [tagBody?, h₁, h₂, h₃, hu, Function.comp_def]

theorem tagBody?_quoted {quote : Char} {value : List Char} (h : quote ∉ value) (v : List Char) :
    tagBody? (some quote) (value ++ quote :: v) =
      (tagBody? none v).map fun r => (value ++ quote :: r.1, r.2) := by
  induction value with
  | nil => simp [tagBody?]
  | cons c value ih =>
    have hc : c ≠ quote := by rintro rfl; exact h List.mem_cons_self
    have hu := ih (fun hd => h (List.mem_cons_of_mem c hd))
    simp [tagBody?, hc, hu, Function.comp_def]

theorem passed_quoted {quote : Char} (hq : quote = '"' ∨ quote = '\'') {value : List Char}
    (h : quote ∉ value) : Passed (quote :: (value ++ [quote])) := by
  intro v
  have ht := tagBody?_quoted h v
  rcases hq with rfl | rfl <;> simp [tagBody?, ht, Function.comp_def]

theorem IsName.passed {name : List Char} (h : IsName name) : Passed name :=
  passed_plain fun c hc => by have := (h.plain c hc).2; simp_all

theorem passed_space {s : List Char} (h : ∀ c ∈ s, isSpace c = true) : Passed s :=
  passed_plain fun c hc => by
    have := h c hc
    refine ⟨?_, ?_, ?_⟩ <;> rintro rfl <;> exact absurd this (by decide)

theorem Attributes.passed {raws : List (List Char × List Char)} {attrs : List Char}
    (h : Attributes raws attrs) : Passed attrs := by
  induction h with
  | nil hs => exact passed_space hs
  | @cons s key s₁ s₂ value rest quote raws _ hs hk hq hv _ ih =>
    simp only [List.mem_append, or_imp, forall_and] at hs
    have he : Passed ['='] := passed_plain (by simp)
    have hx : s ++ (key ++ (s₁ ++ '=' :: (s₂ ++ quote :: (value ++ quote :: rest)))) =
        s ++ (key ++ (s₁ ++ (['='] ++ (s₂ ++ (quote :: (value ++ [quote]) ++ rest))))) := by simp
    rw [hx]
    exact (passed_space hs.1.1).append (hk.passed.append ((passed_space hs.1.2).append
      (he.append ((passed_space hs.2).append ((passed_quoted hq hv).append ih)))))

theorem Attributes.head {raws : List (List Char × List Char)} {attrs : List Char}
    (h : Attributes raws attrs) : ∀ c ∈ attrs.head?, isSpace c = true := by
  have first : ∀ {s cs : List Char}, s ≠ [] → (∀ c ∈ s, isSpace c = true) →
      ∀ c ∈ (s ++ cs).head?, isSpace c = true := by
    intro s cs hne hs c hc
    obtain ⟨d, s, rfl⟩ := List.exists_cons_of_ne_nil hne
    cases hc
    exact hs _ List.mem_cons_self
  cases h with
  | @nil s hs =>
    intro c hc
    exact hs c (List.mem_of_mem_head? hc)
  | cons hne hs => exact first hne fun c hc => hs c (by simp [hc])

theorem Attributes.last {raws : List (List Char × List Char)} {attrs : List Char}
    (h : Attributes raws attrs) : attrs.getLast? ≠ some '/' := by
  induction h with
  | nil hs =>
    intro hl
    exact absurd (hs _ (List.mem_of_getLast? hl)) (by decide)
  | @cons s key s₁ s₂ value rest quote raws _ hs hk hq hv _ ih =>
    have hl : (s ++ (key ++ (s₁ ++ '=' :: (s₂ ++ quote :: (value ++ quote :: rest))))).getLast? =
        some (rest.getLast?.getD quote) := by
      simp [List.getLast?_append, List.getLast?_cons]
    rw [hl]
    cases hr : rest.getLast? with
    | none => rcases hq with rfl | rfl <;> decide
    | some c => exact fun he => ih (hr.trans he)

theorem openingName_append {name attrs : List Char} (hn : IsName name)
    (ha : ∀ c ∈ attrs.head?, isSpace c = true) : openingName (name ++ attrs) = name := by
  have hp : ∀ c ∈ name, (!isSpace c) = true := fun c hc => by simp [(hn.plain c hc).1]
  rw [openingName, List.takeWhile_append_of_pos hp]
  cases attrs with
  | nil => simp
  | cons c attrs => simp [ha c rfl]

theorem tagLexeme_of_last {content : List Char} (h : content.getLast? ≠ some '/') :
    tagLexeme content = .opening content := by
  unfold tagLexeme
  split
  · next rest he =>
    rw [List.getLast?_eq_head?_reverse, he] at h
    exact absurd rfl h
  · rfl

theorem tagLexeme_slash (content : List Char) :
    tagLexeme (content ++ ['/']) = .empty content := by
  simp [tagLexeme]

theorem closingName_append {name s : List Char} (hn : IsName name)
    (hs : ∀ c ∈ s, isSpace c = true) : closingName (name ++ s) = name := by
  obtain ⟨name, c, rfl⟩ := (List.eq_nil_or_concat name).resolve_left hn.inhabited
  have hc : isSpace c = false := (hn.plain c (by simp)).1
  have hall : (name.concat c ++ s).all isSpace = false := by
    rw [List.all_eq_false]
    exact ⟨c, by simp, by simp [hc]⟩
  have hr : ∀ d ∈ s.reverse, isSpace d = true := fun d hd => hs d (List.mem_reverse.1 hd)
  rw [closingName, hall, trimEnd, List.reverse_append, List.dropWhile_append_of_pos hr]
  simp [hc]

/-! ### Elements -/

def openTag (content : List Char) : List Char := '<' :: (content ++ ['>'])

def emptyTag (content : List Char) : List Char := '<' :: (content ++ ['/', '>'])

def closeTag (content : List Char) : List Char := '<' :: '/' :: (content ++ ['>'])

theorem tagBody?_content {u : List Char} (h : Passed u) (v : List Char) :
    tagBody? none (u ++ '>' :: v) = some (u, v) := by
  rw [h]
  simp [tagBody?]

section Tags

variable {name attrs s : List Char} {raws : List (List Char × List Char)}

theorem markup_name (hn : IsName name) (v : List Char) :
    markup (name ++ v) = match tagBody? none (name ++ v) with
      | some (content, after) => .ok (tagLexeme content, after)
      | none => .error (.syntaxFault .unclosedTag) := by
  obtain ⟨c, name, rfl⟩ := List.exists_cons_of_ne_nil hn.inhabited
  have hc := (hn.plain c List.mem_cons_self).2
  exact markup_tag (by simp_all) (name ++ v)

theorem next?_open (hn : IsName name) (ha : Attributes raws attrs) (v : List Char) :
    next? (openTag (name ++ attrs) ++ v) = .ok (some (.opening (name ++ attrs), v)) := by
  have hb : tagBody? none (name ++ (attrs ++ '>' :: v)) = some (name ++ attrs, v) := by
    rw [← List.append_assoc]
    exact tagBody?_content (hn.passed.append ha.passed) v
  have hl : (name ++ attrs).getLast? ≠ some '/' := by
    rw [List.getLast?_append]
    cases hr : attrs.getLast? with
    | some c => exact fun he => ha.last (hr.trans he)
    | none => exact fun he => (hn.plain _ (List.mem_of_getLast? he)).2 (by decide)
  have hx : openTag (name ++ attrs) ++ v = '<' :: (name ++ (attrs ++ '>' :: v)) := by
    simp [openTag]
  rw [hx, next?_markup, markup_name hn, hb]
  dsimp only
  rw [tagLexeme_of_last hl]
  rfl

theorem next?_empty (hn : IsName name) (ha : Attributes raws attrs) (v : List Char) :
    next? (emptyTag (name ++ attrs) ++ v) = .ok (some (.empty (name ++ attrs), v)) := by
  have hb : tagBody? none (name ++ (attrs ++ '/' :: '>' :: v)) =
      some (name ++ attrs ++ ['/'], v) := by
    have hp : Passed (name ++ attrs ++ ['/']) :=
      (hn.passed.append ha.passed).append (passed_plain (by simp))
    have ht := tagBody?_content hp v
    simpa using ht
  have hx : emptyTag (name ++ attrs) ++ v = '<' :: (name ++ (attrs ++ '/' :: '>' :: v)) := by
    simp [emptyTag]
  rw [hx, next?_markup, markup_name hn, hb]
  dsimp only
  rw [tagLexeme_slash]
  rfl

theorem next?_close (hn : IsName name) (hs : ∀ c ∈ s, isSpace c = true) (v : List Char) :
    next? (closeTag (name ++ s) ++ v) = .ok (some (.closing name, v)) := by
  have hb := tagBody?_content (hn.passed.append (passed_space hs)) v
  have hx : closeTag (name ++ s) ++ v = '<' :: '/' :: (name ++ s ++ '>' :: v) := by
    simp [closeTag]
  rw [hx, next?_markup, markup, hb]
  dsimp only
  rw [closingName_append hn hs]
  rfl

end Tags

/-- What may stand inside an element: character data up to the next markup,
CDATA sections, comments, processing instructions, and elements whose names
fulfil a condition, each with what may stand inside it. -/
inductive Content (names : List Char → Prop) : List Char → Prop
  | nil : Content names []
  | data {w cs : List Char} : CharData w → Stop cs → Content names cs → Content names (w ++ cs)
  | cdata {text cs : List Char} :
      ¬[']', ']', '>'] <:+: text → Content names cs → Content names (cdataText text ++ cs)
  | comment {text cs : List Char} :
      ¬['-', '-', '>'] <:+: text → Content names cs → Content names (commentText text ++ cs)
  | instruction {text cs : List Char} :
      ¬['?', '>'] <:+: text → text.head? ≠ some '>' → Content names cs →
      Content names (instructionText text ++ cs)
  | empty {name attrs cs : List Char} {raws : List (List Char × List Char)} :
      names name → IsName name → Attributes raws attrs → Content names cs →
      Content names (emptyTag (name ++ attrs) ++ cs)
  | element {name attrs inner s cs : List Char} {raws : List (List Char × List Char)} :
      names name → IsName name → Attributes raws attrs → Content names inner →
      (∀ c ∈ s, isSpace c = true) → Content names cs →
      Content names (openTag (name ++ attrs) ++ (inner ++ (closeTag (name ++ s) ++ cs)))

/-- What may stand around an element without a meaning of its own: space,
comments and processing instructions. -/
inductive Misc : List Char → Prop
  | nil : Misc []
  | space {s cs : List Char} : (∀ c ∈ s, isSpace c = true) → Misc cs → Misc (s ++ cs)
  | comment {text cs : List Char} :
      ¬['-', '-', '>'] <:+: text → Misc cs → Misc (commentText text ++ cs)
  | instruction {text cs : List Char} :
      ¬['?', '>'] <:+: text → text.head? ≠ some '>' → Misc cs → Misc (instructionText text ++ cs)

inductive ElementText (inside : List Char → Prop) (name : List Char)
    (raws : List (List Char × List Char)) : List Char → Prop
  | empty {attrs : List Char} :
      inside [] → IsName name → Attributes raws attrs →
      ElementText inside name raws (emptyTag (name ++ attrs))
  | pair {attrs inner s : List Char} :
      inside inner → IsName name → Attributes raws attrs → (∀ c ∈ s, isSpace c = true) →
      ElementText inside name raws (openTag (name ++ attrs) ++ (inner ++ closeTag (name ++ s)))

theorem ElementText.markup {inside : List Char → Prop} {name text : List Char}
    {raws : List (List Char × List Char)} (h : ElementText inside name raws text) :
    ∃ cs, text = '<' :: cs := by
  cases h with
  | empty => exact ⟨_, rfl⟩
  | pair => exact ⟨_, rfl⟩

end Retrial.Xml
