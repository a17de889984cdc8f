import Retrial.Xml.Lexeme

/-!
# Where lexemes end

A lexeme of markup is settled by its own text: it is read whatever follows, and
no initial part of it is read as anything. Character data ends where markup
begins. So a text that is cut off reads as the lexemes before the cut and a
broken rest, and a text can be exchanged behind the lexemes in front of it.
-/

set_option autoImplicit false

namespace Retrial.Xml

section Takes

variable {α β : Type} {f : List Char → Option (α × List Char)} {used : List Char} {a : α}

/-- A reading takes a text off the front of whatever follows it, and does not
make do with an initial part of that text. -/
structure Takes (f : List Char → Option (α × List Char)) (used : List Char) (a : α) : Prop where
  whole : ∀ rest, f (used ++ rest) = some (a, rest)
  part : ∀ p, p <+: used → p ≠ used → f p = none

theorem Takes.single {c : Char} (hn : f [] = none) (hc : ∀ cs, f (c :: cs) = some (a, cs)) :
    Takes f [c] a where
  whole := hc
  part p hp hne := by
    obtain rfl | ⟨q, rfl, hq⟩ := List.prefix_cons_iff.1 hp
    · exact hn
    · simp [List.prefix_nil.1 hq] at hne

theorem Takes.map (φ : α → β) (h : Takes f used a) :
    Takes (fun cs => (f cs).map fun r => (φ r.1, r.2)) used (φ a) where
  whole rest := by rw [h.whole]; rfl
  part p hp hne := by rw [h.part p hp hne]; rfl

theorem Takes.cons {g : List Char → Option (α × List Char)} {c : Char} (h : Takes f used a)
    (hn : g [] = none) (hc : ∀ cs, g (c :: cs) = f cs) : Takes g (c :: used) a where
  whole rest := (hc _).trans (h.whole rest)
  part p hp hne := by
    obtain rfl | ⟨q, rfl, hq⟩ := List.prefix_cons_iff.1 hp
    · exact hn
    · exact (hc q).trans (h.part q hq fun e => hne (by rw [e]))

theorem Takes.head {c : Char} {cs rest : List Char} (h : Takes f used a) (hn : f [] = none)
    (hu : c :: cs = used ++ rest) : ∃ used', used = c :: used' := by
  cases used with
  | nil => simpa [hn] using h.whole []
  | cons d used =>
    cases hu
    exact ⟨used, rfl⟩

theorem Takes.congr_head {g : List Char → Option (α × List Char)} {c : Char}
    (h : Takes f (c :: used) a) (hn : g [] = none) (hc : ∀ cs, g (c :: cs) = f (c :: cs)) :
    Takes g (c :: used) a where
  whole rest := (hc _).trans (h.whole rest)
  part p hp hne := by
    obtain rfl | ⟨q, rfl, hq⟩ := List.prefix_cons_iff.1 hp
    · exact hn
    · exact (hc q).trans (h.part _ hp hne)

end Takes

theorem tagBody?_takes {quote : Option Char} {cs body rest : List Char}
    (h : tagBody? quote cs = some (body, rest)) :
    ∃ used, cs = used ++ rest ∧ Takes (tagBody? quote) used body := by
  induction cs generalizing quote body with
  | nil => cases quote <;> simp [tagBody?] at h
  | cons c cs ih =>
    cases quote with
    | none =>
      by_cases hc : c = '>'
      · simp [tagBody?, hc] at h
        obtain ⟨rfl, rfl⟩ := h
        exact ⟨[c], rfl, .single rfl fun cs => by simp [tagBody?, hc]⟩
      · simp [tagBody?, hc] at h
        obtain ⟨b, e, rfl⟩ := h
        obtain ⟨used, rfl, ht⟩ := ih e
        exact ⟨c :: used, rfl, (ht.map (c :: ·)).cons rfl fun cs => by simp [tagBody?, hc]⟩
    | some q =>
      simp [tagBody?] at h
      obtain ⟨b, e, rfl⟩ := h
      obtain ⟨used, rfl, ht⟩ := ih e
      exact ⟨c :: used, rfl, (ht.map (c :: ·)).cons rfl fun cs => by simp [tagBody?]⟩

theorem doctypeBody?_takes {depth : Nat} {cs body rest : List Char}
    (h : doctypeBody? depth cs = some (body, rest)) :
    ∃ used, cs = used ++ rest ∧ Takes (doctypeBody? depth) used body := by
  induction cs generalizing depth body with
  | nil => simp [doctypeBody?] at h
  | cons c cs ih =>
    by_cases hc : (c == '>' && depth == 0) = true
    · rw [doctypeBody?, if_pos hc, Option.some.injEq, Prod.mk.injEq] at h
      obtain ⟨rfl, rfl⟩ := h
      exact ⟨[c], rfl, .single rfl fun cs => by rw [doctypeBody?, if_pos hc]⟩
    · simp only [doctypeBody?, if_neg hc, Option.map_eq_some_iff, Prod.mk.injEq] at h
      obtain ⟨p, e, rfl, rfl⟩ := h
      obtain ⟨used, rfl, ht⟩ := ih e
      exact ⟨c :: used, rfl,
        (ht.map (c :: ·)).cons rfl fun cs => by simp only [doctypeBody?, if_neg hc]⟩

theorem splitAt?_eq_none {mark cs : List Char} (h : cs.length < mark.length) :
    splitAt? mark cs = none := by
  induction cs with
  | nil => cases mark <;> simp_all [splitAt?]
  | cons c cs ih =>
    have hm : mark.isPrefixOf (c :: cs) = false := by
      rw [Bool.eq_false_iff, ne_eq, List.isPrefixOf_iff_prefix]
      exact fun hp => by have := hp.length_le; omega
    rw [splitAt?, hm, ih (by simp at h; omega)]
    rfl

theorem splitAt?_mark {mark : List Char} (hm : mark ≠ []) (rest : List Char) :
    splitAt? mark (mark ++ rest) = some ([], rest) := by
  obtain ⟨m, ms, rfl⟩ := List.exists_cons_of_ne_nil hm
  have hp : (m :: ms).isPrefixOf (m :: (ms ++ rest)) = true :=
    List.isPrefixOf_iff_prefix.2 (List.prefix_append (m :: ms) rest)
  rw [List.cons_append, splitAt?, hp]
  simp

theorem splitAt?_skip {mark : List Char} {c : Char} {cs : List Char}
    (h : ¬mark <+: c :: cs) :
    splitAt? mark (c :: cs) = (splitAt? mark cs).map fun r => (c :: r.1, r.2) := by
  rw [splitAt?, Bool.eq_false_iff.2 (mt List.isPrefixOf_iff_prefix.1 h)]
  rfl

theorem splitAt?_takes {mark cs before rest : List Char} (hm : mark ≠ [])
    (h : splitAt? mark cs = some (before, rest)) :
    ∃ used, cs = used ++ rest ∧ mark.length ≤ used.length ∧ Takes (splitAt? mark) used before := by
  induction cs generalizing before with
  | nil => simp [splitAt?, hm] at h
  | cons c cs ih =>
    by_cases hp : mark <+: c :: cs
    · obtain ⟨v, hv⟩ := hp
      rw [← hv, splitAt?_mark hm, Option.some.injEq, Prod.mk.injEq] at h
      obtain ⟨rfl, rfl⟩ := h
      refine ⟨mark, hv.symm, Nat.le_refl _, splitAt?_mark hm, fun p hp hne => ?_⟩
      exact splitAt?_eq_none (Nat.lt_of_le_of_ne hp.length_le (mt hp.eq_of_length hne))
    · rw [splitAt?_skip hp, Option.map_eq_some_iff] at h
      obtain ⟨⟨b, r⟩, e, hb⟩ := h
      obtain ⟨rfl, rfl⟩ := Prod.mk.inj hb
      obtain ⟨used, rfl, hl, ht⟩ := ih e
      -- The mark would have to lie within `c :: used`, whatever stands behind it.
      have hn : ∀ v, ¬mark <+: c :: (used ++ v) := by
        intro v hx
        have hu : mark <+: c :: used := by
          refine List.prefix_of_prefix_length_le hx ⟨v, rfl⟩ ?_
          rw [List.length_cons]
          omega
        exact hp (hu.trans ⟨r, rfl⟩)
      refine ⟨c :: used, rfl, by rw [List.length_cons]; omega, fun v => ?_, fun p hp' hne => ?_⟩
      · rw [List.cons_append, splitAt?_skip (hn v), ht.whole]
        rfl
      · obtain rfl | ⟨q, rfl, hq⟩ := List.prefix_cons_iff.1 hp'
        · simp [splitAt?, hm]
        · have hx : ¬mark <+: c :: q := by
            obtain ⟨w, rfl⟩ := hq
            exact fun hx => hn [] (hx.trans ⟨w, by simp⟩)
          rw [splitAt?_skip hx, ht.part q hq (fun e => hne (by rw [e]))]
          rfl

def markup? (cs : List Char) : Option (Lexeme × List Char) := (markup cs).toOption

theorem toOption_mapError {α ε δ : Type} (f : ε → δ) (x : Except ε α) :
    (x.mapError f).toOption = x.toOption := by
  cases x <;> rfl

theorem toOption_eq_some {α ε : Type} {x : Except ε α} {a : α} :
    x.toOption = some a ↔ x = .ok a := by
  cases x <;> simp [Except.toOption]

theorem cdataSection_append (cs : List Char) :
    cdataSection ("CDATA[".toList ++ cs) =
      (splitAt? [']', ']', '>'] cs).elim (.error .unclosedCdata)
        fun r => .ok (.cdata r.1, r.2) := by
  have hp : "CDATA[".toList.isPrefixOf ("CDATA[".toList ++ cs) = true :=
    List.isPrefixOf_iff_prefix.2 (List.prefix_append _ cs)
  have hd : ("CDATA[".toList ++ cs).drop 6 = cs := rfl
  rw [cdataSection, if_pos hp, hd]
  cases splitAt? [']', ']', '>'] cs <;> rfl

theorem cdataSection_takes {cs rest : List Char} {l : Lexeme}
    (h : cdataSection cs = .ok (l, rest)) :
    ∃ used, cs = used ++ rest ∧ Takes (fun cs => (cdataSection cs).toOption) used l := by
  by_cases hp : "CDATA[".toList.isPrefixOf cs = true
  case neg => rw [cdataSection, if_neg hp] at h; cases h
  case pos =>
    obtain ⟨v, rfl⟩ := List.isPrefixOf_iff_prefix.1 hp
    rw [cdataSection_append] at h
    cases e : splitAt? [']', ']', '>'] v with
    | none => rw [e] at h; cases h
    | some r =>
      obtain ⟨text, after⟩ := r
      rw [e] at h
      cases h
      obtain ⟨used, rfl, -, ht⟩ := splitAt?_takes (by simp) e
      refine ⟨"CDATA[".toList ++ used, (List.append_assoc ..).symm, fun w => ?_, fun p hp hne => ?_⟩
      · rw [List.append_assoc, cdataSection_append, ht.whole]
        rfl
      · by_cases hx : "CDATA[".toList.isPrefixOf p = true
        · obtain ⟨q, rfl⟩ := List.isPrefixOf_iff_prefix.1 hx
          rw [List.prefix_append_right_inj] at hp
          rw [cdataSection_append, ht.part q hp (fun e => hne (by rw [e]))]
          rfl
        · rw [cdataSection, if_neg hx]
          rfl

theorem comment_takes {cs rest : List Char} {l : Lexeme} (h : comment cs = .ok (l, rest)) :
    ∃ used, cs = used ++ rest ∧ Takes (fun cs => (comment cs).toOption) used l := by
  unfold comment at h
  split at h
  · next v =>
    split at h
    · next body after e =>
      cases h
      obtain ⟨used, rfl, -, ht⟩ := splitAt?_takes (by simp) e
      refine ⟨'-' :: used, rfl, (ht.map fun _ => Lexeme.aside).cons rfl fun cs => ?_⟩
      simp only [comment]
      cases splitAt? ['-', '-', '>'] cs <;> rfl
    · cases h
  · cases h

theorem instruction_takes {cs rest : List Char} {l : Lexeme}
    (h : instruction cs = .ok (l, rest)) :
    ∃ used, cs = used ++ rest ∧ Takes (fun cs => (instruction cs).toOption) used l := by
  unfold instruction at h
  split at h
  · cases h
  · next hn =>
    split at h
    · next body after e =>
      cases h
      obtain ⟨used, rfl, hl, ht⟩ := splitAt?_takes (by simp) e
      obtain ⟨c, used, rfl⟩ :=
        List.exists_cons_of_length_pos (Nat.lt_of_lt_of_le Nat.zero_lt_two hl)
      have hc : c ≠ '>' := by rintro rfl; exact hn _ rfl
      refine ⟨c :: used, rfl, (ht.map fun _ => Lexeme.aside).congr_head rfl fun v => ?_⟩
      unfold instruction
      split
      · next hv => exact absurd (List.cons.inj hv).1 hc
      · cases splitAt? ['?', '>'] (c :: v) <;> rfl
    · cases h

theorem doctype_takes {cs rest : List Char} {l : Lexeme} (h : doctype cs = .ok (l, rest)) :
    ∃ used, cs = used ++ rest ∧ Takes (fun cs => (doctype cs).toOption) used l := by
  unfold doctype at h
  split at h
  · cases h
  · next body after e =>
    split at h
    · cases h
    · next hd =>
      split at h
      · cases h
      · next hn =>
        cases h
        obtain ⟨used, rfl, ht⟩ := doctypeBody?_takes e
        refine ⟨used, rfl, fun v => ?_, fun p hp hne => ?_⟩
        · rw [doctype, ht.whole]
          dsimp only
          rw [if_neg hd, if_neg hn]
          rfl
        · rw [doctype, ht.part p hp hne]
          rfl

theorem markup_tag {c : Char} (hc : c ≠ '!' ∧ c ≠ '?' ∧ c ≠ '/') (cs : List Char) :
    markup (c :: cs) = match tagBody? none (c :: cs) with
      | some (content, after) => .ok (tagLexeme content, after)
      | none => .error (.syntaxFault .unclosedTag) := by
  obtain ⟨h₁, h₂, h₃⟩ := hc
  unfold markup
  split <;> first | rfl | simp_all

theorem markup_takes {cs rest : List Char} {l : Lexeme} (h : markup cs = .ok (l, rest)) :
    ∃ used, cs = used ++ rest ∧ Takes markup? used l := by
  -- The second character of special markup is read behind an exclamation mark.
  have bang : ∀ {used : List Char}, Takes (fun cs => markup? ('!' :: cs)) used l →
      Takes markup? ('!' :: used) l := fun ht => ht.cons rfl fun _ => rfl
  unfold markup at h
  split at h
  · next v =>
    obtain ⟨used, rfl, ht⟩ := cdataSection_takes (ok_of_mapError_ok h)
    exact ⟨'!' :: '[' :: used, rfl, bang (ht.cons rfl fun cs => toOption_mapError _ _)⟩
  · next v =>
    obtain ⟨used, rfl, ht⟩ := comment_takes (ok_of_mapError_ok h)
    exact ⟨'!' :: '-' :: used, rfl, bang (ht.cons rfl fun cs => toOption_mapError _ _)⟩
  · next v =>
    obtain ⟨used, hu, ht⟩ := doctype_takes h
    obtain ⟨used, rfl⟩ := ht.head (by rfl) hu
    cases hu
    exact ⟨'!' :: 'D' :: used, rfl, bang (ht.congr_head rfl fun _ => rfl)⟩
  · next v =>
    obtain ⟨used, hu, ht⟩ := doctype_takes h
    obtain ⟨used, rfl⟩ := ht.head (by rfl) hu
    cases hu
    exact ⟨'!' :: 'd' :: used, rfl, bang (ht.congr_head rfl fun _ => rfl)⟩
  · cases h
  · next v =>
    obtain ⟨used, rfl, ht⟩ := instruction_takes (ok_of_mapError_ok h)
    exact ⟨'?' :: used, rfl, ht.cons rfl fun cs => toOption_mapError _ _⟩
  · next v =>
    split at h
    · next content after e =>
      cases h
      obtain ⟨used, rfl, ht⟩ := tagBody?_takes e
      refine ⟨'/' :: used, rfl,
        (ht.map fun c => Lexeme.closing (closingName c)).cons rfl fun cs => ?_⟩
      simp only [markup?, markup]
      cases tagBody? none cs <;> rfl
    · cases h
  · next h₁ h₂ h₃ =>
    split at h
    · next content after e =>
      cases h
      obtain ⟨used, rfl, ht⟩ := tagBody?_takes e
      obtain ⟨c, used, rfl⟩ : ∃ c u, used = c :: u :=
        List.exists_cons_of_ne_nil fun hu => by simpa [tagBody?, hu] using ht.whole []
      have hc : c ≠ '!' ∧ c ≠ '?' ∧ c ≠ '/' :=
        ⟨by rintro rfl; exact h₁ _ rfl, by rintro rfl; exact h₂ _ rfl, by rintro rfl; exact h₃ _ rfl⟩
      refine ⟨c :: used, rfl, (ht.map tagLexeme).congr_head rfl fun v => ?_⟩
      rw [markup?, markup_tag hc]
      cases tagBody? none (c :: v) <;> rfl
    · cases h

/-! ### What stands next -/

inductive Stop : List Char → Prop
  | nil : Stop []
  | markup (cs : List Char) : Stop ('<' :: cs)

theorem Stop.cut {p cs : List Char} (h : Stop cs) (hp : p <+: cs) : Stop p := by
  cases h with
  | nil => rw [List.prefix_nil.1 hp]; exact .nil
  | markup cs =>
    obtain rfl | ⟨q, rfl, -⟩ := List.prefix_cons_iff.1 hp
    · exact .nil
    · exact .markup q

theorem Stop.append {cs v : List Char} (h : Stop cs) (hv : Stop v) : Stop (cs ++ v) := by
  cases h with
  | nil => exact hv
  | markup cs => exact .markup (cs ++ v)

def trim (cs : List Char) : List Char := trimEnd (cs.dropWhile isSpace)

theorem next?_markup (cs : List Char) : next? ('<' :: cs) = (markup cs).map some := rfl

theorem next?_space {b : List Char} (hb : ∀ c ∈ b, isSpace c = true) (cs : List Char) :
    next? (b ++ cs) = next? cs := by
  unfold next?
  rw [List.dropWhile_append_of_pos hb]

theorem takeWhile_data {w v : List Char} (hw : '<' ∉ w) (hv : Stop v) :
    (w ++ v).takeWhile (fun c => c != '<') = w ∧ (w ++ v).dropWhile (fun c => c != '<') = v := by
  have hp : ∀ c ∈ w, (c != '<') = true := fun c hc => by
    rw [bne_iff_ne]
    rintro rfl
    exact hw hc
  rw [List.takeWhile_append_of_pos hp, List.dropWhile_append_of_pos hp]
  cases hv <;> simp

theorem dropWhile_space_append {w : List Char} (hs : ¬∀ c ∈ w, isSpace c = true) (v : List Char) :
    ∃ c u, w.dropWhile isSpace = c :: u ∧ (w ++ v).dropWhile isSpace = c :: (u ++ v) ∧
      isSpace c = false := by
  induction w with
  | nil => simp at hs
  | cons d w ih =>
    cases hd : isSpace d with
    | false => exact ⟨d, w, by simp [hd]⟩
    | true =>
      obtain ⟨c, u, h₁, h₂, h₃⟩ := ih (by simpa [hd] using hs)
      exact ⟨c, u, by simpa [hd] using h₁, by simpa [hd] using h₂, h₃⟩

theorem next?_data {w v : List Char} (hw : '<' ∉ w) (hs : ¬∀ c ∈ w, isSpace c = true)
    (hv : Stop v) : next? (w ++ v) = .ok (some (.text (trim w), v)) := by
  obtain ⟨c, u, h₁, h₂, h₃⟩ := dropWhile_space_append hs v
  have hm : ∀ x ∈ c :: u, x ∈ w := fun x hx => (List.dropWhile_sublist _).mem (h₁ ▸ hx)
  have hc : c ≠ '<' := by rintro rfl; exact hw (hm _ List.mem_cons_self)
  have hu : '<' ∉ u := fun hx => hw (hm _ (List.mem_cons_of_mem _ hx))
  have hn : next? (w ++ v) =
      .ok (some (.text (trimEnd ((c :: (u ++ v)).takeWhile (fun c => c != '<'))),
        (u ++ v).dropWhile (fun c => c != '<'))) := by
    unfold next?
    rw [h₂]
    split
    · next h => cases h
    · next h => exact absurd (List.cons.inj h).1 hc
    · next h => cases h; rfl
  obtain ⟨ht, hd⟩ := takeWhile_data hu hv
  rw [hn, List.takeWhile_cons_of_pos (by simpa using hc), ht, hd, trim, h₁]

theorem exists_data (cs : List Char) : ∃ w v, cs = w ++ v ∧ '<' ∉ w ∧ Stop v := by
  induction cs with
  | nil => exact ⟨[], [], rfl, by simp, .nil⟩
  | cons c cs ih =>
    by_cases hc : c = '<'
    · exact ⟨[], '<' :: cs, by rw [hc]; rfl, by simp, .markup cs⟩
    · obtain ⟨w, v, rfl, hw, hv⟩ := ih
      exact ⟨c :: w, v, rfl, by simp [hw, Ne.symm hc], hv⟩

theorem next?_cases {cs rest : List Char} {l : Lexeme} (h : next? cs = .ok (some (l, rest))) :
    (∃ w, cs = w ++ rest ∧ '<' ∉ w ∧ (¬∀ c ∈ w, isSpace c = true) ∧ Stop rest ∧
      l = .text (trim w)) ∨
    ∃ b used, cs = b ++ '<' :: (used ++ rest) ∧ (∀ c ∈ b, isSpace c = true) ∧
      Takes markup? used l := by
  obtain ⟨w, v, rfl, hw, hv⟩ := exists_data cs
  by_cases hs : ∀ c ∈ w, isSpace c = true
  case neg =>
    rw [next?_data hw hs hv] at h
    cases h
    exact .inl ⟨w, rfl, hw, hs, hv, rfl⟩
  case pos =>
    rw [next?_space hs] at h
    cases hv with
    | nil => cases h
    | markup cs =>
      rw [next?_markup] at h
      cases hm : markup cs with
      | error fault => rw [hm] at h; cases h
      | ok r =>
        rw [hm] at h
        cases h
        obtain ⟨used, rfl, ht⟩ := markup_takes hm
        exact .inr ⟨w, used, rfl, hs, ht⟩

/-! ### Lexemes in a row -/

inductive Lexes : List Char → List Lexeme → List Char → Prop
  | done (cs : List Char) : Lexes cs [] cs
  | next {cs mid rest : List Char} {l : Lexeme} {ls : List Lexeme} :
      next? cs = .ok (some (l, mid)) → Lexes mid ls rest → Lexes cs (l :: ls) rest

theorem Lexes.length_le {cs rest : List Char} {ls : List Lexeme} (h : Lexes cs ls rest) :
    rest.length + ls.length ≤ cs.length := by
  induction h with
  | done cs => simp
  | next hn _ ih =>
    have hl := next?_length hn
    rw [List.length_cons]
    omega

def lexemes? : Nat → List Char → Option (List Lexeme × List Char)
  | 0, cs => some ([], cs)
  | n + 1, cs =>
    match next? cs with
    | .ok (some (l, mid)) => (lexemes? n mid).map fun p => (l :: p.1, p.2)
    | _ => none

theorem Lexes.of_lexemes? {n : Nat} {cs rest : List Char} {ls : List Lexeme}
    (h : lexemes? n cs = some (ls, rest)) : Lexes cs ls rest := by
  induction n generalizing cs ls with
  | zero => cases h; exact .done _
  | succ n ih =>
    unfold lexemes? at h
    split at h
    · next l mid hn =>
      obtain ⟨⟨ms, r⟩, hm, he⟩ := Option.map_eq_some_iff.1 h
      cases he
      exact .next hn (ih hm)
    · cases h

theorem next?_of_takes {b used : List Char} {l : Lexeme} (hb : ∀ c ∈ b, isSpace c = true)
    (ht : Takes markup? used l) (v : List Char) :
    next? (b ++ '<' :: (used ++ v)) = .ok (some (l, v)) := by
  rw [next?_space hb, next?_markup, toOption_eq_some.1 (ht.whole v)]
  rfl

/-- What stands behind the lexemes can be exchanged, if character data in front
of it still stops there. -/
theorem Lexes.exchange {cs rest : List Char} {ls : List Lexeme} (h : Lexes cs ls rest) :
    ∃ used, cs = used ++ rest ∧
      ∀ rest', (Stop rest → Stop rest') → Lexes (used ++ rest') ls rest' := by
  induction h with
  | done cs => exact ⟨[], rfl, fun rest' _ => .done rest'⟩
  | @next cs mid rest l ls hn _ ih =>
    obtain ⟨u, rfl, hu⟩ := ih
    obtain ⟨w, rfl, hw, hs, hv, rfl⟩ | ⟨b, m, rfl, hb, ht⟩ := next?_cases hn
    case inl =>
      refine ⟨w ++ u, (List.append_assoc ..).symm, fun rest' hr => ?_⟩
      have hv' : Stop (u ++ rest') := by
        cases u with
        | nil => exact hr hv
        | cons c u => cases hv; exact .markup _
      rw [List.append_assoc]
      exact .next (next?_data hw hs hv') (hu rest' hr)
    case inr =>
      refine ⟨b ++ '<' :: (m ++ u), by simp, fun rest' hr => ?_⟩
      have ha : b ++ '<' :: (m ++ u) ++ rest' = b ++ '<' :: (m ++ (u ++ rest')) := by simp
      rw [ha]
      exact .next (next?_of_takes hb ht _) (hu rest' hr)

/-- What is left where a text was cut off: nothing that counts, character data
up to the end, or markup that is not complete. -/
inductive Broken : List Char → Prop
  | blank {q : List Char} : next? q = .ok none → Broken q
  | data {q raw : List Char} : next? q = .ok (some (.text raw, [])) → Broken q
  | markup {q : List Char} {fault : Fault} : next? q = .error fault → Broken q

theorem Broken.of_space {q : List Char} (h : ∀ c ∈ q, isSpace c = true) : Broken q :=
  .blank (by rw [← List.append_nil q, next?_space h]; rfl)

theorem Broken.of_data {q : List Char} (h : '<' ∉ q) : Broken q := by
  by_cases hs : ∀ c ∈ q, isSpace c = true
  · exact .of_space hs
  · exact .data (by have := next?_data h hs .nil; rwa [List.append_nil] at this)

theorem Broken.of_takes {b used q : List Char} {l : Lexeme} (hb : ∀ c ∈ b, isSpace c = true)
    (ht : Takes markup? used l) (hq : q <+: used) (hne : q ≠ used) : Broken (b ++ '<' :: q) := by
  have hm := ht.part q hq hne
  rw [markup?] at hm
  cases he : Xml.markup q with
  | error fault => exact .markup (by rw [next?_space hb, next?_markup, he]; rfl)
  | ok r => rw [he] at hm; cases hm

theorem prefix_append_cases {α : Type} {p u v : List α} (h : p <+: u ++ v) :
    (p <+: u ∧ p ≠ u) ∨ ∃ q, p = u ++ q ∧ q <+: v := by
  obtain hl | hl := Nat.lt_or_ge p.length u.length
  · exact .inl ⟨List.prefix_of_prefix_length_le h (List.prefix_append u v) (Nat.le_of_lt hl),
      fun e => by rw [e] at hl; exact Nat.lt_irrefl _ hl⟩
  · obtain ⟨q, rfl⟩ := List.prefix_of_prefix_length_le (List.prefix_append u v) h hl
    exact .inr ⟨q, rfl, (List.prefix_append_right_inj u).1 h⟩

/-- A text that is cut off before the end of its lexemes reads as some of them,
not all, and a broken rest. -/
theorem Lexes.cut {cs p rest : List Char} {ls : List Lexeme} (h : Lexes cs ls rest)
    (hp : p <+: cs) (hlen : p.length + rest.length < cs.length) :
    ∃ ls₁ ls₂ q, ls = ls₁ ++ ls₂ ∧ ls₂ ≠ [] ∧ Lexes p ls₁ q ∧ Broken q := by
  induction h generalizing p with
  | done cs => omega
  | @next cs mid rest l ls hn _ ih =>
    have broken : Broken p → ∃ ls₁ ls₂ q, l :: ls = ls₁ ++ ls₂ ∧ ls₂ ≠ [] ∧ Lexes p ls₁ q ∧
        Broken q := fun hb => ⟨[], l :: ls, p, rfl, by simp, .done p, hb⟩
    have further : ∀ p', p' <+: mid → p'.length + rest.length < mid.length →
        next? p = .ok (some (l, p')) → ∃ ls₁ ls₂ q, l :: ls = ls₁ ++ ls₂ ∧ ls₂ ≠ [] ∧
          Lexes p ls₁ q ∧ Broken q := by
      intro p' hp' hl hx
      obtain ⟨ls₁, ls₂, q, rfl, hne, hls, hb⟩ := ih hp' hl
      exact ⟨l :: ls₁, ls₂, q, rfl, hne, .next hx hls, hb⟩
    obtain ⟨w, rfl, hw, hs, hv, rfl⟩ | ⟨b, used, rfl, hb, ht⟩ := next?_cases hn
    case inl =>
      obtain ⟨hp, -⟩ | ⟨p', rfl, hp'⟩ := prefix_append_cases hp
      · exact broken (.of_data fun hx => hw (hp.mem hx))
      · refine further p' hp' ?_ (next?_data hw hs (hv.cut hp'))
        simp only [List.length_append] at hlen
        omega
    case inr =>
      obtain ⟨hp, -⟩ | ⟨q, rfl, hq⟩ := prefix_append_cases hp
      · exact broken (.of_space fun c hc => hb c (hp.mem hc))
      obtain rfl | ⟨q, rfl, hq⟩ := List.prefix_cons_iff.1 hq
      · exact broken (.of_space (by simpa using hb))
      obtain ⟨hq, hne⟩ | ⟨p', rfl, hp'⟩ := prefix_append_cases (List.cons_prefix_cons.1 hq).2
      · exact broken (.of_takes hb ht hq hne)
      · refine further p' hp' ?_ (next?_of_takes hb ht p')
        simp only [List.length_append, List.length_cons] at hlen
        omega

end Retrial.Xml
