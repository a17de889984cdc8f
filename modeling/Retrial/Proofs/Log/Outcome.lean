import Retrial.Log.Reader
import Retrial.Proofs.Xml.CharData

/-!
# What a text makes of a draft

Whether a text can be read into a draft, and the log it makes, do not depend on
where the text stands: only the positions in faults do. So reading is a run of
the draft over the lexemes of the text, and it can be taken up again behind any
of them.
-/

set_option autoImplicit false

namespace Retrial.Log

open Retrial.Text Retrial.Xml

theorem begin_eq_beginChild {d : Draft} {parent : List Char} {outer : List (List Char)}
    (h : d.openNames = parent :: outer) (content : List Char) :
    d.begin content = d.beginChild parent content := by
  rw [Draft.begin, h]

theorem toOption_readFrom (n : Nat) (d : Draft) (cs : List Char) :
    (readFrom n d cs).toOption = match next? cs with
      | .error _ => none
      | .ok none => d.close.toOption
      | .ok (some (l, rest)) =>
        (d.step l).toOption.bind fun d' => (readFrom n d' rest).toOption := by
  rw [readFrom]
  split
  · next fault h => rw [h]; rfl
  · next h => rw [h]
  · next l rest h =>
    dsimp only
    rw [h]
    split
    · next offence hs => simp only [hs]; rfl
    · next d' hs => simp only [hs]; rfl

theorem readFrom_length (n m : Nat) (d : Draft) (cs : List Char) :
    (readFrom n d cs).toOption = (readFrom m d cs).toOption := by
  fun_induction readFrom n d cs with
  | case1 d cs fault h => rw [toOption_readFrom m, h]; rfl
  | case2 d cs h => rw [toOption_readFrom m, h]
  | case3 d cs l rest h _ offence hs => rw [toOption_readFrom m, h]; simp only [hs]; rfl
  | case4 d cs l rest h _ d' hs ih => rw [toOption_readFrom m, h]; simp only [hs]; exact ih

/-- The log that the rest of a text makes of a draft, if it can be read. -/
def outcome (d : Draft) (cs : List Char) : Option TestLog := (readFrom 0 d cs).toOption

section Outcome

variable {d : Draft} {cs rest : List Char} {l : Lexeme}

theorem outcome_error {fault : Xml.Fault} (h : next? cs = .error fault) : outcome d cs = none := by
  rw [outcome, toOption_readFrom, h]

theorem outcome_end (h : next? cs = .ok none) : outcome d cs = d.close.toOption := by
  rw [outcome, toOption_readFrom, h]

theorem outcome_next (h : next? cs = .ok (some (l, rest))) :
    outcome d cs = (d.step l).toOption.bind (outcome · rest) := by
  rw [outcome, toOption_readFrom, h]
  rfl

theorem outcome_congr {ds : List Char} (h : next? cs = next? ds) : outcome d cs = outcome d ds := by
  rw [outcome, outcome, toOption_readFrom, toOption_readFrom, h]

theorem outcome_nil : outcome d [] = d.close.toOption := outcome_end rfl

end Outcome

def Draft.run (d : Draft) : List Lexeme → Option Draft
  | [] => some d
  | l :: ls => (d.step l).toOption.bind fun d' => d'.run ls

theorem outcome_lexes {d : Draft} {cs rest : List Char} {ls : List Lexeme}
    (h : Lexes cs ls rest) : outcome d cs = (d.run ls).bind fun d' => outcome d' rest := by
  induction h generalizing d with
  | done cs => rfl
  | next hn _ ih =>
    rw [outcome_next hn, Draft.run, Option.bind_assoc]
    congr 1
    funext d'
    exact ih

theorem Draft.run_of_outcome {d : Draft} {cs rest : List Char} {ls : List Lexeme} {log : TestLog}
    (h : Lexes cs ls rest) (ho : outcome d cs = some log) :
    ∃ d', d.run ls = some d' ∧ outcome d' rest = some log := by
  rw [outcome_lexes h] at ho
  exact Option.bind_eq_some_iff.1 ho

/-! ### Text that nobody waits for -/

theorem Draft.addText_idle {d : Draft} (h : d.target = none) (text : String) :
    d.addText text = d := by
  rw [addText, h]

/-- Character data outside the elements whose text counts changes nothing. -/
theorem outcome_data {d : Draft} {w v : List Char} (hd : d.target = none) (hw : CharData w)
    (hv : Stop v) : outcome d (w ++ v) = outcome d v := by
  by_cases hs : ∀ c ∈ w, isSpace c = true
  case pos => exact outcome_congr (next?_space hs v)
  case neg =>
    obtain ⟨value, he⟩ := (readable_trim.2 hw.readable).expand
    have hstep : d.step (.text (trim w)) = .ok d := by
      simp only [Draft.step, he, Draft.addText_idle hd]
    rw [outcome_next (next?_data hw.data hs hv), hstep]
    rfl

theorem readable_of_outcome {d : Draft} {w v : List Char} (hw : '<' ∉ w) (hv : Stop v)
    (ho : (outcome d (w ++ v)).isSome) : Readable w := by
  by_cases hs : ∀ c ∈ w, isSpace c = true
  · exact readable_of_space hs
  · rw [outcome_next (next?_data hw hs hv)] at ho
    cases he : expand (trim w) with
    | ok value => exact readable_trim.1 (readable_of_expand he)
    | error fault =>
      have hstep : d.step (.text (trim w)) = .error (.xml (.reference fault)) := by
        simp only [Draft.step, he]
      rw [hstep] at ho
      cases ho

theorem withoutMark_append {front : List Char} (h : front ≠ []) (v : List Char) :
    withoutMark (front ++ v) = withoutMark front ++ v := by
  obtain ⟨c, front, rfl⟩ := List.exists_cons_of_ne_nil h
  by_cases hc : c = '\uFEFF'
  · subst hc
    rfl
  · unfold withoutMark
    split
    · next he => exact absurd (List.cons.inj he).1 hc
    · split
      · next he => exact absurd (List.cons.inj he).1 hc
      · rfl

theorem outcome_read (cs : List Char) : (read cs).toOption = outcome .start (withoutMark cs) := by
  by_cases hb : allBlank cs = true
  case neg =>
    rw [read, if_neg hb]
    exact readFrom_length ..
  case pos =>
    have hall : ∀ c ∈ cs, isBlank c = true := List.all_eq_true.1 hb
    have hm : withoutMark cs = cs := by
      unfold withoutMark
      split
      · exact absurd (hall _ List.mem_cons_self) (by decide)
      · rfl
    have hw : CharData cs := ⟨fun hx => absurd (hall _ hx) (by decide),
      cs, denotes_self fun hx => absurd (hall _ hx) (by decide)⟩
    have ho := outcome_data (d := .start) rfl hw .nil
    rw [List.append_nil] at ho
    rw [read, if_pos hb, hm, ho, outcome_nil]
    rfl

/-! ### What a tag begins -/

/-- All that an opening tag may do to a draft. -/
inductive Draft.Begins (d : Draft) (content : List Char) : Draft → Prop
  | root (name : Option String) : d.Begins content { d with log := { d.log with name := name } }
  | function (name : String) : Element.ofName (openingName content) = .testFunction →
      d.Begins content { d with function := some ⟨name, [], [], none⟩ }
  | incident (i : Incident) : d.Begins content { d with incident := some i }
  | message (m : Message) {parent : List Char} : parent ∈ d.openNames.head? →
      Element.ofName parent = .testFunction → d.Begins content { d with message := some m }
  | duration (t : Duration) {f : FunctionResult} : d.function = some f →
      d.Begins content { d with function := some { f with duration := some t } }
  | text (target : TextTarget) : Element.ofName (openingName content) ∈ [.dataTag, .description] →
      d.Begins content { d with target := some target }
  | nothing : d.Begins content d

theorem Draft.begins_of_beginRoot {d d' : Draft} {content : List Char}
    (h : d.beginRoot content = .ok d') : d.Begins content d' := by
  unfold beginRoot at h
  split at h
  · cases hn : attributeOf "name" content with
    | error offence => rw [hn] at h; cases h
    | ok name => rw [hn] at h; cases h; exact .root name
  · cases h

theorem Draft.begins_of_beginChild {d d' : Draft} {parent content : List Char}
    (hp : parent ∈ d.openNames.head?) (h : d.beginChild parent content = .ok d') :
    d.Begins content d' := by
  unfold beginChild at h
  simp only [bind, Except.bind] at h
  split at h
  case h_1 hc =>
    split at h
    · cases h
    · cases h
    · cases h; exact .function _ hc
  case h_2 =>
    repeat' split at h
    all_goals first
      | cases h; exact .incident _
      | cases h
  case h_3 hm _ =>
    split at h
    · cases h
    · cases h; exact .message _ hp hm
  case h_4 =>
    split at h
    · cases h
    · split at h
      · next hf _ => cases h; exact .duration _ hf
      · cases h; exact .nothing
  case h_9 => cases h; exact .nothing
  all_goals
    next hc => cases h; exact .text _ (by simp [hc])

theorem Draft.begins_of_begin {d d' : Draft} {content : List Char}
    (h : d.begin content = .ok d') : d.Begins content d' := by
  unfold begin at h
  split at h
  · exact begins_of_beginRoot h
  · next ho => exact begins_of_beginChild (by rw [ho]; rfl) h

/-! ### The open elements -/

/-- An opening tag begins parts; it neither opens or closes elements nor ends a function. -/
structure Draft.Begun (d d' : Draft) : Prop where
  openNames : d'.openNames = d.openNames
  functions : d'.log.functions = d.log.functions

theorem Draft.begin_begun {d d' : Draft} {content : List Char}
    (h : d.begin content = .ok d') : d.Begun d' := by
  cases begins_of_begin h <;> exact ⟨rfl, rfl⟩

theorem Draft.finish_openNames (d : Draft) (name : List Char) :
    (d.finish name).openNames = d.openNames := by
  unfold finish
  repeat' split
  all_goals rfl

theorem Draft.addText_openNames (d : Draft) (text : String) :
    (d.addText text).openNames = d.openNames := by
  unfold addText
  split <;> rfl

theorem Draft.addText_log (d : Draft) (text : String) : (d.addText text).log = d.log := by
  unfold addText
  split <;> rfl

def nest (openNames : List (List Char)) : Lexeme → List (List Char)
  | .opening content => openingName content :: openNames
  | .closing _ => openNames.tail
  | _ => openNames

theorem closeName_eq_ok {openNames outer : List (List Char)} {name : List Char}
    (h : closeName openNames name = .ok outer) : openNames = name :: outer := by
  unfold closeName at h
  split at h
  · cases h
  · split at h
    · next he => cases h; rw [eq_of_beq he]
    · cases h

inductive Draft.Takes (d : Draft) : Lexeme → Draft → Prop
  | opening {content : List Char} {e : Draft} : d.begin content = .ok e →
      d.Takes (.opening content) { e with openNames := openingName content :: e.openNames }
  | empty {content : List Char} {e : Draft} : d.begin content = .ok e →
      d.Takes (.empty content) (e.finish (openingName content))
  | closing {name : List Char} {outer : List (List Char)} : d.openNames = name :: outer →
      d.Takes (.closing name) ({ d with openNames := outer }.finish name)
  | text {raw : List Char} (value : String) : d.Takes (.text raw) (d.addText value)
  | cdata {raw : List Char} (value : String) : d.Takes (.cdata raw) (d.addText value)
  | aside : d.Takes .aside d

theorem Draft.takes_of_step {d d' : Draft} {l : Lexeme} (h : d.step l = .ok d') :
    d.Takes l d' := by
  cases l with
  | opening content =>
    cases hb : d.begin content with
    | error offence => simp only [step, hb] at h; cases h
    | ok e => simp only [step, hb] at h; cases h; exact .opening hb
  | empty content =>
    cases hb : d.begin content with
    | error offence => simp only [step, hb] at h; cases h
    | ok e => simp only [step, hb] at h; cases h; exact .empty hb
  | closing name =>
    cases hc : closeName d.openNames name with
    | error fault => simp only [step, hc] at h; cases h
    | ok outer => simp only [step, hc] at h; cases h; exact .closing (closeName_eq_ok hc)
  | text raw =>
    cases he : expand raw with
    | error fault => simp only [step, he] at h; cases h
    | ok text => simp only [step, he] at h; cases h; exact .text _
  | cdata text => cases h; exact .cdata _
  | aside => cases h; exact .aside

theorem Draft.step_openNames {d d' : Draft} {l : Lexeme} (h : d.step l = .ok d') :
    d'.openNames = nest d.openNames l := by
  cases takes_of_step h with
  | @opening content e hb => exact congrArg (openingName content :: ·) (begin_begun hb).openNames
  | empty hb => exact (finish_openNames ..).trans (begin_begun hb).openNames
  | closing hc =>
    rw [finish_openNames, hc]
    rfl
  | text | cdata => exact addText_openNames ..
  | aside => rfl

theorem Draft.step_of_run {d d' : Draft} {l : Lexeme} {ls : List Lexeme}
    (h : d.run (l :: ls) = some d') : ∃ e, d.step l = .ok e ∧ e.run ls = some d' := by
  obtain ⟨e, he, hr⟩ := Option.bind_eq_some_iff.1 h
  exact ⟨e, toOption_eq_some.1 he, hr⟩

theorem Draft.run_append {d d' : Draft} {ls ms : List Lexeme} (h : d.run (ls ++ ms) = some d') :
    ∃ e, d.run ls = some e ∧ e.run ms = some d' := by
  induction ls generalizing d with
  | nil => exact ⟨d, rfl, h⟩
  | cons l ls ih =>
    obtain ⟨c, hc, hr⟩ := Option.bind_eq_some_iff.1 h
    obtain ⟨e, he, hr⟩ := ih hr
    exact ⟨e, by rw [run, hc]; exact he, hr⟩

theorem Draft.run_openNames {d d' : Draft} {ls : List Lexeme} (h : d.run ls = some d') :
    d'.openNames = ls.foldl nest d.openNames := by
  induction ls generalizing d with
  | nil => cases h; rfl
  | cons l ls ih =>
    obtain ⟨e, he, hr⟩ := step_of_run h
    rw [List.foldl_cons, ← step_openNames he]
    exact ih hr

end Retrial.Log
