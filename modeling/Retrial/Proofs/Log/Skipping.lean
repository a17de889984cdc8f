import Retrial.Proofs.Log.Passing

/-!
# Elements that a log does not know

An element with a foreign name can be put anywhere inside a log, and the log
stays the same, as long as nothing in it bears the name of a function, an
incident or a message. A closing tag ends the part that its name says, wherever
it stands: one of these names inside a foreign element ends the part around it.
-/

set_option autoImplicit false

namespace Retrial.Log

open Retrial.Xml

/-! ### Text is waited for inside its element only -/

def KeepsText (name : List Char) : Prop := Element.ofName name ∈ [.dataTag, .description]

instance (name : List Char) : Decidable (KeepsText name) :=
  inferInstanceAs (Decidable (Element.ofName name ∈ [.dataTag, .description]))

/-- While text is waited for, an element that keeps text is open. -/
def Draft.Awaited (d : Draft) : Prop := d.target ≠ none → ∃ n ∈ d.openNames, KeepsText n

theorem Draft.addText_target (d : Draft) (text : String) : (d.addText text).target = d.target := by
  unfold addText
  split <;> rfl

theorem Draft.finish_target (d : Draft) (name : List Char) :
    (d.finish name).target = if KeepsText name then none else d.target := by
  unfold KeepsText
  unfold finish
  repeat' split
  all_goals simp_all

theorem Draft.begin_target {d d' : Draft} {content : List Char} (h : d.begin content = .ok d') :
    d'.target = d.target ∨ KeepsText (openingName content) := by
  cases begins_of_begin h with
  | text _ hk => exact .inr hk
  | _ => exact .inl rfl

theorem Draft.step_awaited {d d' : Draft} {l : Lexeme} (h : d.step l = .ok d') (hd : d.Awaited) :
    d'.Awaited := by
  cases takes_of_step h with
  | opening hb =>
    intro ht
    rcases begin_target hb with he | hk
    · obtain ⟨n, hn, hk⟩ := hd (he ▸ ht)
      exact ⟨n, List.mem_cons_of_mem _ ((begin_begun hb).openNames ▸ hn), hk⟩
    · exact ⟨_, List.mem_cons_self, hk⟩
  | @empty content e hb =>
    intro ht
    rw [finish_target] at ht
    by_cases hk : KeepsText (openingName content)
    · rw [if_pos hk] at ht
      exact absurd rfl ht
    · rw [if_neg hk] at ht
      rw [finish_openNames, (begin_begun hb).openNames]
      exact hd ((begin_target hb).resolve_right hk ▸ ht)
  | @closing name outer hc =>
    intro ht
    rw [finish_target] at ht
    by_cases hk : KeepsText name
    · rw [if_pos hk] at ht
      exact absurd rfl ht
    · rw [if_neg hk] at ht
      obtain ⟨n, hn, hkn⟩ := hd ht
      rw [hc, List.mem_cons] at hn
      rw [finish_openNames]
      exact ⟨n, hn.resolve_left fun he => hk (he ▸ hkn), hkn⟩
  | text | cdata =>
    unfold Awaited
    rw [addText_target, addText_openNames]
    exact hd
  | aside => exact hd

theorem Draft.run_awaited {d d' : Draft} {ls : List Lexeme} (h : d.run ls = some d')
    (hd : d.Awaited) : d'.Awaited := by
  induction ls generalizing d with
  | nil => cases h; exact hd
  | cons l ls ih =>
    obtain ⟨e, he, hr⟩ := step_of_run h
    exact ih hr (step_awaited he hd)

theorem Draft.target_eq_none {d : Draft} {ls : List Lexeme} (h : Draft.start.run ls = some d)
    (hn : ∀ n ∈ d.openNames, ¬KeepsText n) : d.target = none := by
  have hd : d.Awaited := run_awaited h fun ht => absurd rfl ht
  by_contra ht
  obtain ⟨n, hm, hk⟩ := hd ht
  exact hn n hm hk

/-! ### Inserting an element -/

/-- The place between two parts of a log, inside the open elements `path` with
the innermost first: in character data or at its end, so in front of the next markup. -/
inductive Inside (front back : List Char) (path : List (List Char)) : Prop
  | intro {u w : List Char} {ls : List Lexeme} :
      withoutMark front = u ++ w → CharData w → Lexes (u ++ (w ++ back)) ls (w ++ back) →
      ls.foldl nest [] = path → Inside front back path

/-- Behind character data that is complete, the rest of a text that can be read
is read as if the data were not there. -/
theorem outcome_behind_data {d : Draft} {w v : List Char} (ht : d.target = none)
    (hw : CharData w) (ho : (outcome d (w ++ v)).isSome) : outcome d (w ++ v) = outcome d v := by
  obtain ⟨w', v, rfl, hw', hv⟩ := exists_data v
  rw [← List.append_assoc] at ho ⊢
  have hmem : '<' ∉ w ++ w' := by
    rw [List.mem_append, not_or]
    exact ⟨hw.data, hw'⟩
  have hr : Readable (w ++ w') := readable_of_outcome hmem hv ho
  obtain ⟨a, ha⟩ := hw.readable
  obtain ⟨b, hb⟩ := hr
  have hd : CharData w' := ⟨hw', ha.cancel hb⟩
  rw [outcome_data ht ⟨hmem, b, hb⟩ hv, outcome_data ht hd hv]

/-- A foreign element can be put at any place inside a log where no text is
kept, and the log stays the same: whatever attributes, text and further elements
are in it, as long as none of these bears the name of a part of a log. -/
theorem foreign_element_skipped {front back element name parent : List Char}
    {outer : List (List Char)} {raws : List (List Char × List Char)} {log : TestLog}
    (hr : read (front ++ back) = .ok log) (hat : Inside front back (parent :: outer))
    (hpath : ∀ n ∈ parent :: outer, ¬KeepsText n) (hname : Foreign name)
    (he : ElementText (Content Silent) name raws element) :
    read (front ++ element ++ back) = .ok log := by
  cases hat with
  | @intro u w ls hfront hw hlex hnest =>
  have hne : front ≠ [] := by
    rintro rfl
    obtain ⟨rfl, rfl⟩ := List.append_eq_nil_iff.1 (show [] = u ++ w from hfront).symm
    have hl : back.length + ls.length ≤ back.length := hlex.length_le
    have hls : ls = [] := List.eq_nil_of_length_eq_zero (by omega)
    rw [hls] at hnest
    cases hnest
  obtain ⟨cs, rfl⟩ := he.markup
  -- The draft at the place, from the log that was read without the element.
  have ho : outcome .start (u ++ (w ++ back)) = some log := by
    rw [← List.append_assoc, ← hfront, ← withoutMark_append hne, ← outcome_read, hr]
    rfl
  obtain ⟨d, hd, hod⟩ := Draft.run_of_outcome hlex ho
  have hopen : d.openNames = parent :: outer := (Draft.run_openNames hd).trans hnest
  have ht : d.target = none := Draft.target_eq_none hd (hopen ▸ hpath)
  have hback : outcome d back = some log := by
    rw [← outcome_behind_data ht hw (by rw [hod]; rfl), hod]
  -- The element leads from this draft to itself.
  have helem : Leads d ('<' :: cs) d := by
    have hb : ∀ attrs, IsName name → Attributes raws attrs → d.begin (name ++ attrs) = .ok d := by
      intro attrs hn ha
      apply Draft.begin_idle hopen
      rw [openingName_append hn ha.head]
      exact .inl hname
    have hl : Leads d ('<' :: cs) (d.finish name) := by
      apply leads_element he hb (fun inner hin => ?_) fun _ => rfl
      exact fills_content hin (fun _ h => h) rfl (.inr hname.silent) ht
    rwa [Draft.finish_idle hname.silent ht] at hl
  have hins : outcome .start (u ++ (w ++ ('<' :: cs ++ back))) = some log := by
    obtain ⟨u', hu, hx⟩ := hlex.exchange
    rw [← List.append_cancel_right hu] at hx
    have hstop : Stop (w ++ back) → Stop (w ++ ('<' :: cs ++ back)) := by
      intro h
      cases w with
      | nil => exact .markup (cs ++ back)
      | cons c w =>
        cases h
        exact absurd List.mem_cons_self hw.data
    have hs : Stop ('<' :: cs ++ back) := .markup (cs ++ back)
    rw [outcome_lexes (hx _ hstop), hd]
    show outcome d (w ++ ('<' :: cs ++ back)) = some log
    rw [outcome_data ht hw hs, helem, hback]
  have htext : withoutMark (front ++ '<' :: cs ++ back) = u ++ (w ++ ('<' :: cs ++ back)) := by
    rw [List.append_assoc, withoutMark_append hne, hfront, List.append_assoc]
  exact toOption_eq_some.1 ((outcome_read _).trans (htext ▸ hins))

def skippingFront : List Char := "<TestCase name=\"t\"><TestFunction name=\"a\">".toList

def skippingBack : List Char := "\n<Incident type=\"fail\"/></TestFunction></TestCase>".toList

theorem read_skipping : read (skippingFront ++ skippingBack) =
    .ok ⟨some "t", [⟨"a", [⟨.fail, none, none, none, none⟩], [], none⟩]⟩ :=
  toOption_eq_some.1 (by
    unfold skippingFront skippingBack
    rw [Text.toList_literal rfl, Text.toList_literal rfl]
    decide +kernel)

theorem inside_skipping : Inside skippingFront skippingBack
    ["TestFunction".toList, "TestCase".toList] := by
  have hlex : Lexes (skippingFront ++ ([] ++ skippingBack))
      [.opening "TestCase name=\"t\"".toList, .opening "TestFunction name=\"a\"".toList]
      ([] ++ skippingBack) :=
    .of_lexemes? (n := 2) (by
      unfold skippingFront skippingBack
      rw [Text.toList_literal rfl, Text.toList_literal rfl]
      decide +kernel)
  exact .intro (List.append_nil _).symm
    ⟨List.not_mem_nil, readable_of_space (fun _ hc => absurd hc List.not_mem_nil)⟩ hlex rfl

theorem foreign_element_skipped_in_function :
    read (skippingFront ++ "<Extra n=\"1\">text <Duration msecs=\"2\"/></Extra>".toList ++ skippingBack) =
      .ok ⟨some "t", [⟨"a", [⟨.fail, none, none, none, none⟩], [], none⟩]⟩ := by
  have hforeign : Foreign "Extra".toList := rfl
  have hextra : IsName "Extra".toList := by decide
  have hduration : IsName "Duration".toList := by decide
  have hmsecs : Attributes [("msecs".toList, ['2'])] " msecs=\"2\"".toList :=
    .double (by decide) (by decide) (.nil (List.all_eq_true.1 rfl))
  have hn : Attributes [(['n'], ['1'])] " n=\"1\"".toList :=
    .double (by decide) (by decide) (.nil (List.all_eq_true.1 rfl))
  have hempty : Content Silent
      (emptyTag ("Duration".toList ++ " msecs=\"2\"".toList) ++ []) :=
    .empty (by decide) hduration hmsecs .nil
  have hinner : Content Silent "text <Duration msecs=\"2\"/>".toList :=
    .data (w := "text ".toList) ⟨by decide, _, denotes_self (by decide)⟩ (.markup _) hempty
  exact foreign_element_skipped read_skipping inside_skipping (by decide) hforeign
    (.pair (s := []) hinner hextra hn (List.all_eq_true.1 rfl))

/-- Without the condition on names it is not so: a foreign element with a tag of
its own that is named as a function is ends the function around it, and the
failure that follows is lost. -/
theorem named_element_not_skipped :
    ¬∀ (front back element name parent : List Char) (outer : List (List Char))
      (raws : List (List Char × List Char)) (log : TestLog),
      read (front ++ back) = .ok log → Inside front back (parent :: outer) →
      (∀ n ∈ parent :: outer, ¬KeepsText n) → Foreign name →
      ElementText (Content fun _ => True) name raws element →
      read (front ++ element ++ back) = .ok log := by
  intro h
  have hforeign : Foreign "Extra".toList := rfl
  have hextra : IsName "Extra".toList := by decide
  have hfunction : IsName "TestFunction".toList := by decide
  have hb : Attributes [("name".toList, ['b'])] " name=\"b\"".toList :=
    .double (by decide) (by decide) (.nil (List.all_eq_true.1 rfl))
  have hinner : Content (fun _ => True)
      (emptyTag ("TestFunction".toList ++ " name=\"b\"".toList) ++ []) :=
    .empty trivial hfunction hb .nil
  have hnone : Attributes [] [] := .nil (List.all_eq_true.1 rfl)
  have hs := h _ _ "<Extra><TestFunction name=\"b\"/></Extra>".toList _ _ _ [] _ read_skipping
    inside_skipping (by decide) hforeign
    (.pair (s := []) hinner hextra hnone (List.all_eq_true.1 rfl))
  have hlost : (read (skippingFront ++ "<Extra><TestFunction name=\"b\"/></Extra>".toList ++
      skippingBack)).toOption = some ⟨some "t", [⟨"a", [], [], none⟩]⟩ := by
    unfold skippingFront skippingBack
    rw [Text.toList_literal rfl, Text.toList_literal rfl, Text.toList_literal rfl]
    decide +kernel
  rw [hs] at hlost
  cases hlost

end Retrial.Log
