import Retrial.Proofs.Classification
import Retrial.Proofs.Log.Truncation

/-!
# Fatal messages

A message of a fatal type that stands in a function stays with the function, and
the function comes into the log, as long as nothing else in it is named as a
function is. So such a log is a crash, whatever else is in it and however the
process ended. A log has no place for a message outside a function: it is lost.
-/

set_option autoImplicit false

namespace Retrial

def Xml.Lexeme.name? : Xml.Lexeme → Option (List Char)
  | .opening content | .empty content => some (Xml.openingName content)
  | .closing name => some name
  | _ => none

theorem classify_fatal {log : TestLog} {f : Log.FunctionResult} (hf : f ∈ log.functions)
    (hm : f.hasFatal = true) (noRerun : List String) (exit : Exit) :
    ∃ reason, classify noRerun exit (.parsed log) = .crashed reason := by
  obtain ⟨m, hmem, hfatal⟩ := List.any_eq_true.1 hm
  cases exit with
  | exited code =>
    by_contra hc
    have hk : Credible noRerun code log := classifyLog_credible fun reason h => hc ⟨reason, h⟩
    exact hk.unharmed f hf m hmem (eq_of_beq hfatal)
  | _ => exact ⟨_, rfl⟩

namespace Log

open Retrial.Xml

/-! ### Where a message stands -/

def FatalTag (content : List Char) : Prop :=
  openingName content = "Message".toList ∧
    ∃ type ∈ ["qfatal", "fatal"], attributeOf "type" content = .ok (some type)

inductive FatalMessage : List Lexeme → Prop
  | empty {content : List Char} : FatalTag content → FatalMessage [.empty content]
  | pair {content name : List Char} {inner : List Lexeme} :
      FatalTag content → Balanced inner → FatalMessage (.opening content :: (inner ++ [.closing name]))

inductive HoldsFatal : List Lexeme → Prop
  | intro {u message v : List Lexeme} : Balanced u → FatalMessage message → Balanced v →
      HoldsFatal (u ++ (message ++ v))

/-- The lexemes between the tags of an element of a text. The path names this
element and those around it, the innermost first. -/
inductive Encloses (text : List Char) (path : List (List Char)) (inside : List Lexeme) : Prop
  | intro {before after : List Lexeme} {content name rest : List Char} :
      Lexes text (before ++ .opening content :: (inside ++ .closing name :: after)) rest →
      openingName content :: before.foldl nest [] = path → Balanced inside →
      Encloses text path inside

/-! ### Functions stay in the log -/

theorem Draft.finish_functions (d : Draft) (name : List Char) :
    d.log.functions <+: (d.finish name).log.functions := by
  unfold finish
  repeat' split
  all_goals simp

theorem Draft.step_functions {d d' : Draft} {l : Lexeme} (h : d.step l = .ok d') :
    d.log.functions <+: d'.log.functions := by
  cases takes_of_step h with
  | opening hb => exact (begin_begun hb).functions ▸ List.prefix_rfl
  | empty hb => exact (begin_begun hb).functions ▸ finish_functions _ _
  | @closing name outer _ => exact finish_functions { d with openNames := outer } name
  | text | cdata => exact addText_log .. ▸ List.prefix_rfl
  | aside => exact List.prefix_rfl

theorem Draft.run_functions {d d' : Draft} {ls : List Lexeme} (h : d.run ls = some d') :
    d.log.functions <+: d'.log.functions := by
  induction ls generalizing d with
  | nil => cases h; exact List.prefix_rfl
  | cons l ls ih =>
    obtain ⟨e, he, hr⟩ := step_of_run h
    exact (step_functions he).trans (ih hr)

theorem readFrom_functions {n : Nat} {d : Draft} {cs : List Char} {log : TestLog}
    (h : readFrom n d cs = .ok log) : d.log.functions <+: log.functions := by
  fun_induction readFrom n d cs with
  | case1 d cs fault hn => cases h
  | case2 d cs hn =>
    obtain ⟨-, rfl⟩ := Draft.close_eq_some (toOption_eq_some.2 h)
    exact List.prefix_rfl
  | case3 d cs l rest hn _ offence hs => cases h
  | case4 d cs l rest hn _ d' hs ih => exact (Draft.step_functions hs).trans (ih h)

/-! ### Messages stay in their function -/

def Element.name : Element → String
  | .testCase => "TestCase"
  | .testFunction => "TestFunction"
  | .incident => "Incident"
  | .message => "Message"
  | .duration => "Duration"
  | .dataTag => "DataTag"
  | .description => "Description"
  | .foreign => ""

theorem ofName_eq_iff {e : Element} (he : e ≠ .foreign) {name : List Char} :
    Element.ofName name = e ↔ name = e.name.toList := by
  constructor
  · intro h
    unfold Element.ofName at h
    repeat' split at h
    all_goals
      subst h
      first
        | exact eq_of_beq ‹_›
        | exact absurd rfl he
  · rintro rfl
    cases e
    case foreign => exact absurd rfl he
    all_goals rfl

theorem ofName_eq_testFunction {name : List Char} :
    Element.ofName name = .testFunction ↔ name = "TestFunction".toList :=
  ofName_eq_iff (by decide)

section Holding

variable {d d' : Draft} {name content : List Char} {l : Lexeme} {ls : List Lexeme}

def Draft.Holds (d : Draft) : Prop := ∃ f, d.function = some f ∧ f.hasFatal = true

/-- It has one, or gets one when the message under description ends. -/
def Draft.Bears (d : Draft) : Prop :=
  ∃ f, d.function = some f ∧ (f.hasFatal = true ∨ ∃ m, d.message = some m ∧ m.isFatal = true)

theorem Draft.begin_function {f : FunctionResult} (h : d.begin content = .ok d')
    (hn : openingName content ≠ "TestFunction".toList) (hf : d.function = some f) :
    ∃ f', d'.function = some f' ∧ f'.messages = f.messages := by
  cases begins_of_begin h with
  | function _ he => exact absurd (ofName_eq_testFunction.1 he) hn
  | duration t he =>
    cases he.symm.trans hf
    exact ⟨_, rfl, rfl⟩
  | _ => exact ⟨f, hf, rfl⟩

theorem Draft.begin_message (h : d.begin content = .ok d')
    (hp : d.openNames.head? ≠ some "TestFunction".toList) : d'.message = d.message := by
  cases begins_of_begin h with
  | message _ ho he => exact absurd (ofName_eq_testFunction.1 he ▸ ho) hp
  | _ => rfl

theorem Draft.finish_function {f : FunctionResult} (hn : name ≠ "TestFunction".toList)
    (hf : d.function = some f) :
    ∃ f', (d.finish name).function = some f' ∧ f.messages ⊆ f'.messages := by
  unfold finish
  split
  case h_1 he => exact absurd (ofName_eq_testFunction.1 he) hn
  all_goals
    repeat' split
    all_goals simp_all

theorem Draft.finish_message (h : Element.ofName name ≠ .message) :
    (d.finish name).message = d.message := by
  unfold finish
  split
  case h_3 he => exact absurd he h
  all_goals
    repeat' split
    all_goals rfl

theorem Draft.addText_function (d : Draft) (text : String) :
    (d.addText text).function = d.function := by
  unfold addText
  split <;> rfl

theorem Draft.addText_message {m : Message} (hm : d.message = some m) (text : String) :
    ∃ m', (d.addText text).message = some m' ∧ m'.type = m.type := by
  unfold addText
  split <;> simp [hm]

theorem hasFatal_mono {f f' : FunctionResult} (h : f.hasFatal = true)
    (hs : f.messages ⊆ f'.messages) : f'.hasFatal = true := by
  obtain ⟨m, hm, hx⟩ := List.any_eq_true.1 h
  exact List.any_eq_true.2 ⟨m, hs hm, hx⟩

/-- A tag that names no function leaves the one under description, with the messages it has. -/
theorem Draft.step_function {f : FunctionResult} (h : d.step l = .ok d')
    (hn : l.name? ≠ some "TestFunction".toList) (hf : d.function = some f) :
    ∃ f', d'.function = some f' ∧ f.messages ⊆ f'.messages := by
  have hname : ∀ {n : List Char}, l.name? = some n → n ≠ "TestFunction".toList := by
    rintro n hl rfl
    exact hn hl
  cases takes_of_step h with
  | opening hb =>
    obtain ⟨f', hf', hm⟩ := begin_function hb (hname rfl) hf
    exact ⟨f', hf', hm ▸ List.Subset.refl _⟩
  | empty hb =>
    obtain ⟨f', hf', hm⟩ := begin_function hb (hname rfl) hf
    exact hm ▸ finish_function (hname rfl) hf'
  | closing => exact finish_function (hname rfl) hf
  | text value | cdata value => exact ⟨f, (addText_function d value).trans hf, List.Subset.refl _⟩
  | aside => exact ⟨f, hf, List.Subset.refl _⟩

theorem Draft.run_function {f : FunctionResult} (h : d.run ls = some d')
    (hn : ∀ l ∈ ls, l.name? ≠ some "TestFunction".toList) (hf : d.function = some f) :
    ∃ f', d'.function = some f' ∧ f.messages ⊆ f'.messages := by
  induction ls generalizing d f with
  | nil => cases h; exact ⟨f, hf, List.Subset.refl _⟩
  | cons l ls ih =>
    obtain ⟨e, he, hr⟩ := step_of_run h
    obtain ⟨f₁, hf₁, hs₁⟩ := step_function he (hn l List.mem_cons_self) hf
    obtain ⟨f₂, hf₂, hs₂⟩ := ih hr (fun m hm => hn m (List.mem_cons_of_mem l hm)) hf₁
    exact ⟨f₂, hf₂, List.Subset.trans hs₁ hs₂⟩

/-! ### What a message is to its function -/

theorem Draft.Bears.kept (h : d.Bears) (hn : Element.ofName name = .message) :
    (d.finish name).Holds := by
  obtain ⟨f, hf, hx | ⟨m, hm, hx⟩⟩ := h
  · have hne : name ≠ "TestFunction".toList := by
      rintro rfl
      cases hn
    obtain ⟨f', hf', hs⟩ := finish_function hne hf
    exact ⟨f', hf', hasFatal_mono hx hs⟩
  · refine ⟨{ f with messages := f.messages ++ [m] }, ?_, ?_⟩
    · simp only [finish, hn, hf, hm]
    · simp [FunctionResult.hasFatal, hx]

theorem Draft.Bears.finish (h : d.Bears) (hn : name ≠ "TestFunction".toList) :
    (d.finish name).Bears := by
  by_cases hm : Element.ofName name = .message
  · obtain ⟨f, hf, hx⟩ := h.kept hm
    exact ⟨f, hf, .inl hx⟩
  · obtain ⟨f, hf, hx⟩ := h
    obtain ⟨f', hf', hs⟩ := finish_function hn hf
    rw [← finish_message hm] at hx
    exact ⟨f', hf', hx.imp_left (hasFatal_mono · hs)⟩

theorem Draft.Bears.begin (h : d.Bears) (hb : d.begin content = .ok d')
    (hn : openingName content ≠ "TestFunction".toList)
    (hp : d.openNames.head? ≠ some "TestFunction".toList) : d'.Bears := by
  obtain ⟨f, hf, hx⟩ := h
  obtain ⟨f', hf', hs⟩ := begin_function hb hn hf
  rw [← begin_message hb hp] at hx
  exact ⟨f', hf', hx.imp_left (hasFatal_mono · (hs ▸ List.Subset.refl _))⟩

theorem Draft.step_bears (h : d.step l = .ok d') (hn : l.name? ≠ some "TestFunction".toList)
    (hp : d.openNames.head? ≠ some "TestFunction".toList) (hd : d.Bears) : d'.Bears := by
  have hname : ∀ {n : List Char}, l.name? = some n → n ≠ "TestFunction".toList := by
    rintro n hl rfl
    exact hn hl
  cases takes_of_step h with
  | opening hb =>
    obtain ⟨f, hf, hx⟩ := hd.begin hb (hname rfl) hp
    exact ⟨f, hf, hx⟩
  | empty hb => exact (hd.begin hb (hname rfl) hp).finish (hname rfl)
  | @closing name outer _ => exact Bears.finish (d := { d with openNames := outer }) hd (hname rfl)
  | text value | cdata value =>
    obtain ⟨f, hf, hx⟩ := hd
    refine ⟨f, (addText_function d value).trans hf, hx.imp_right ?_⟩
    rintro ⟨m, hm, hx⟩
    obtain ⟨m', hm', ht⟩ := addText_message hm value
    exact ⟨m', hm', by rw [Message.isFatal, Message.severity, ht]; exact hx⟩
  | aside => exact hd

/-- By induction on the elements: in none of them a function is named, so none
is open when a tag begins. -/
theorem Draft.run_bears (hb : Balanced ls) (h : d.run ls = some d')
    (hn : ∀ l ∈ ls, l.name? ≠ some "TestFunction".toList)
    (hp : d.openNames.head? ≠ some "TestFunction".toList) (hd : d.Bears) : d'.Bears := by
  induction hb generalizing d d' with
  | nil => cases h; exact hd
  | @other l ls ht _ ih =>
    obtain ⟨e, he, hr⟩ := step_of_run h
    rw [List.forall_mem_cons] at hn
    have ho : e.openNames = d.openNames := (step_openNames he).trans (nest_other ht _)
    exact ih hr hn.2 (ho ▸ hp) (step_bears he hn.1 hp hd)
  | @empty content ls _ ih =>
    obtain ⟨e, he, hr⟩ := step_of_run h
    rw [List.forall_mem_cons] at hn
    exact ih hr hn.2 (step_openNames he ▸ hp) (step_bears he hn.1 hp hd)
  | @element content name inner ls hi _ ihi ih =>
    obtain ⟨e₁, he₁, hr⟩ := step_of_run h
    obtain ⟨e₂, he₂, hr⟩ := run_append hr
    obtain ⟨e₃, he₃, hr⟩ := step_of_run hr
    rw [List.forall_mem_cons, List.forall_mem_append, List.forall_mem_cons] at hn
    obtain ⟨hopen, hinner, hclose, hn⟩ := hn
    have ho₁ : e₁.openNames = openingName content :: d.openNames := step_openNames he₁
    have ho₂ : e₂.openNames = e₁.openNames :=
      (run_openNames he₂).trans (foldl_nest_balanced hi _)
    have ho₃ : e₃.openNames = d.openNames := by rw [step_openNames he₃, ho₂, ho₁]; rfl
    have hp₁ : e₁.openNames.head? ≠ some "TestFunction".toList := by rw [ho₁]; exact hopen
    have hd₂ := ihi he₂ hinner hp₁ (step_bears he₁ hopen hp hd)
    exact ih hr hn (ho₃ ▸ hp) (step_bears he₃ hclose (ho₂ ▸ hp₁) hd₂)

theorem Draft.begin_fatal {f : FunctionResult} {outer : List (List Char)} (ht : FatalTag content)
    (ho : d.openNames = "TestFunction".toList :: outer) (hf : d.function = some f)
    (h : d.begin content = .ok d') : d'.Bears := by
  obtain ⟨hname, type, hmem, htype⟩ := ht
  have hd : d.begin content = .ok { d with message := some ⟨type, none, ""⟩ } := by
    have hp : Element.ofName "TestFunction".toList = .testFunction := rfl
    have hn : Element.ofName (openingName content) = .message := by rw [hname]; rfl
    simp only [begin_eq_beginChild ho, beginChild, hp, hn, htype]
    rfl
  cases hd.symm.trans h
  have hfatal : (⟨type, none, ""⟩ : Message).isFatal = true := by
    simp at hmem
    obtain rfl | rfl := hmem <;> rfl
  exact ⟨f, hf, .inr ⟨_, rfl, hfatal⟩⟩

theorem Draft.run_message {f : FunctionResult} {outer : List (List Char)} (hm : FatalMessage ls)
    (h : d.run ls = some d') (hn : ∀ l ∈ ls, l.name? ≠ some "TestFunction".toList)
    (ho : d.openNames = "TestFunction".toList :: outer) (hf : d.function = some f) :
    d'.Holds := by
  cases hm with
  | @empty content ht =>
    obtain ⟨e, he, hr⟩ := step_of_run h
    cases hr
    cases takes_of_step he with
    | @empty _ e hb => exact (begin_fatal ht ho hf hb).kept (by rw [ht.1]; rfl)
  | @pair content name inner ht hi =>
    obtain ⟨e₁, he₁, hr⟩ := step_of_run h
    obtain ⟨e₂, he₂, hr⟩ := run_append hr
    obtain ⟨e₃, he₃, hr⟩ := step_of_run hr
    cases hr
    rw [List.forall_mem_cons, List.forall_mem_append] at hn
    have ho₁ : e₁.openNames = "Message".toList :: d.openNames := ht.1 ▸ step_openNames he₁
    have ho₂ : e₂.openNames = e₁.openNames :=
      (run_openNames he₂).trans (foldl_nest_balanced hi _)
    have hd₁ : e₁.Bears := by
      cases takes_of_step he₁ with
      | opening hb =>
        obtain ⟨f, hf, hx⟩ := begin_fatal ht ho hf hb
        exact ⟨f, hf, hx⟩
    have hp : e₁.openNames.head? ≠ some "TestFunction".toList := by rw [ho₁]; simp
    have hd₂ := run_bears hi he₂ hn.2.1 hp hd₁
    cases takes_of_step he₃ with
    | @closing _ outer hc =>
      have hname : name = "Message".toList := by
        rw [ho₂, ho₁] at hc
        exact (List.cons.inj hc).1.symm
      exact Bears.kept (d := { e₂ with openNames := outer }) hd₂ (by rw [hname]; rfl)

theorem Draft.run_holdsFatal {f : FunctionResult} {outer : List (List Char)} (hh : HoldsFatal ls)
    (h : d.run ls = some d') (hn : ∀ l ∈ ls, l.name? ≠ some "TestFunction".toList)
    (ho : d.openNames = "TestFunction".toList :: outer) (hf : d.function = some f) :
    d'.Holds := by
  cases hh with
  | @intro u message v hu hm hv =>
  obtain ⟨e₁, he₁, hr⟩ := run_append h
  obtain ⟨e₂, he₂, hr⟩ := run_append hr
  rw [List.forall_mem_append, List.forall_mem_append] at hn
  obtain ⟨f₁, hf₁, -⟩ := run_function he₁ hn.1 hf
  have ho₁ : e₁.openNames = "TestFunction".toList :: outer := by
    rw [run_openNames he₁, foldl_nest_balanced hu, ho]
  obtain ⟨f₂, hf₂, hx⟩ := run_message hm he₂ hn.2.1 ho₁ hf₁
  obtain ⟨f₃, hf₃, hs⟩ := run_function hr hn.2.2 hf₂
  exact ⟨f₃, hf₃, hasFatal_mono hx hs⟩

end Holding

theorem Draft.step_begins {d d' : Draft} {content : List Char} (h : d.step (.opening content) = .ok d')
    (hp : openingName content :: d.openNames = ["TestFunction".toList, "TestCase".toList]) :
    ∃ f, d'.function = some f := by
  obtain ⟨hname, ho⟩ := List.cons.inj hp
  cases takes_of_step h with
  | opening hb =>
    have hp : Element.ofName "TestCase".toList = .testCase := rfl
    have hn : Element.ofName (openingName content) = .testFunction := by rw [hname]; rfl
    rw [begin, ho] at hb
    simp only [beginChild, hp, hn] at hb
    split at hb
    · cases hb
    · cases hb
    · cases hb; exact ⟨_, rfl⟩

theorem Draft.step_ends {d d' : Draft} {name : List Char} {f : FunctionResult}
    {outer : List (List Char)} (h : d.step (.closing name) = .ok d')
    (ho : d.openNames = "TestFunction".toList :: outer) (hf : d.function = some f) :
    f ∈ d'.log.functions := by
  cases takes_of_step h with
  | closing hc =>
    obtain ⟨rfl, -⟩ := List.cons.inj (ho.symm.trans hc)
    have he : Element.ofName "TestFunction".toList = .testFunction := rfl
    simp only [finish, he, hf]
    exact List.mem_append_right _ List.mem_cons_self

/-- A fatal message in a function of a text is in the log that is read from it. -/
theorem hasFatal_of_read {text : List Char} {log : TestLog} {inside : List Lexeme}
    (hr : read text = .ok log)
    (hat : Encloses (withoutMark text) ["TestFunction".toList, "TestCase".toList] inside)
    (hf : HoldsFatal inside) (hn : ∀ l ∈ inside, l.name? ≠ some "TestFunction".toList) :
    ∃ f ∈ log.functions, f.hasFatal = true := by
  cases hat with
  | @intro before after content name rest hlex hpath hinside =>
  have ho : outcome .start (withoutMark text) = some log := by
    rw [← outcome_read, hr]
    rfl
  obtain ⟨d, hd, hrest⟩ := Draft.run_of_outcome hlex ho
  obtain ⟨d₀, h₀, hd⟩ := Draft.run_append hd
  obtain ⟨d₁, h₁, hd⟩ := Draft.step_of_run hd
  obtain ⟨d₂, h₂, hd⟩ := Draft.run_append hd
  obtain ⟨d₃, h₃, hd⟩ := Draft.step_of_run hd
  have hopen : openingName content :: d₀.openNames = ["TestFunction".toList, "TestCase".toList] := by
    rw [Draft.run_openNames h₀]
    exact hpath
  have hopen₁ : d₁.openNames = ["TestFunction".toList, "TestCase".toList] :=
    (Draft.step_openNames h₁).trans hopen
  obtain ⟨f, hf₁⟩ := Draft.step_begins h₁ hopen
  obtain ⟨f, hf₂, hx⟩ := Draft.run_holdsFatal hf h₂ hn hopen₁ hf₁
  have hopen₂ : d₂.openNames = ["TestFunction".toList, "TestCase".toList] := by
    rw [Draft.run_openNames h₂, foldl_nest_balanced hinside, hopen₁]
  have hmem : f ∈ d₃.log.functions := Draft.step_ends h₃ hopen₂ hf₂
  have hfin : d₃.log.functions <+: log.functions :=
    (Draft.run_functions hd).trans (readFrom_functions (toOption_eq_some.1 hrest))
  exact ⟨f, hfin.mem hmem, hx⟩

/-- A log with a fatal message in a function is a crash, whatever else is in it
and however the process ended, if nothing inside that function is named as one. -/
theorem fatal_message_is_crash {text : List Char} {log : TestLog} {inside : List Lexeme}
    (hr : read text = .ok log)
    (hat : Encloses (withoutMark text) ["TestFunction".toList, "TestCase".toList] inside)
    (hf : HoldsFatal inside) (hn : ∀ l ∈ inside, l.name? ≠ some "TestFunction".toList)
    (noRerun : List String) (exit : Exit) :
    ∃ reason, classify noRerun exit (.parsed log) = .crashed reason := by
  obtain ⟨f, hmem, hx⟩ := hasFatal_of_read hr hat hf hn
  exact classify_fatal hmem hx noRerun exit

theorem read_and_lexes {n : Nat} {text : List Char} {log : TestLog} {ls : List Lexeme}
    (h : (read text).toOption = some log ∧ lexemes? n (withoutMark text) = some (ls, [])) :
    read text = .ok log ∧ Lexes (withoutMark text) ls [] :=
  ⟨toOption_eq_some.1 h.1, .of_lexemes? h.2⟩

namespace Sample

def openCase : Lexeme := .opening "TestCase".toList

def closeCase : Lexeme := .closing "TestCase".toList

def openFunction : Lexeme := .opening "TestFunction name=\"a\"".toList

def emptyFunction : Lexeme := .empty "TestFunction".toList

def closeFunction : Lexeme := .closing "TestFunction".toList

def passed : Lexeme := .empty "Incident type=\"pass\"".toList

def fatal : Lexeme := .empty "Message type=\"fatal\"".toList

theorem message_fatal : FatalMessage [fatal] :=
  .empty ⟨rfl, "fatal", by simp, toOption_eq_some.1 (by decide +kernel)⟩

end Sample

def fatalLog : List Char :=
  ("<TestCase><TestFunction name=\"a\"><Message type=\"fatal\"/><Incident type=\"pass\"/>" ++
    "</TestFunction></TestCase>").toList

open Sample in
theorem fatal_message_is_crash_in_passing_function :
    read fatalLog =
        .ok ⟨none, [⟨"a", [⟨.pass, none, none, none, none⟩], [⟨"fatal", none, ""⟩], none⟩]⟩ ∧
      ∃ reason, classify [] (.exited 0) (.parsed ⟨none,
        [⟨"a", [⟨.pass, none, none, none, none⟩], [⟨"fatal", none, ""⟩], none⟩]⟩) =
          .crashed reason := by
  obtain ⟨hr, hlex⟩ : read fatalLog =
        .ok ⟨none, [⟨"a", [⟨.pass, none, none, none, none⟩], [⟨"fatal", none, ""⟩], none⟩]⟩ ∧
      Lexes (withoutMark fatalLog)
        ([openCase] ++ openFunction :: ([fatal, passed] ++ closeFunction :: [closeCase])) [] := by
    unfold fatalLog
    rw [String.toList_append, Text.toList_literal rfl, Text.toList_literal rfl]
    exact read_and_lexes (n := 6) (by decide +kernel)
  have hat : Encloses (withoutMark fatalLog) ["TestFunction".toList, "TestCase".toList]
      [fatal, passed] := .intro hlex rfl (.empty (.empty .nil))
  have hf : HoldsFatal [fatal, passed] := .intro .nil message_fatal (.empty .nil)
  exact ⟨hr, fatal_message_is_crash hr hat hf (by decide) [] (.exited 0)⟩

def MessagesCount (path : List (List Char)) : Prop :=
  ∀ (text tail : List Char) (log : TestLog) (inside : List Lexeme), read text = .ok log →
    OneElement (withoutMark text) tail → Encloses (withoutMark text) path inside →
    HoldsFatal inside → ∀ (noRerun : List String) (exit : Exit),
      ∃ reason, classify noRerun exit (.parsed log) = .crashed reason

def strayLog : List Char :=
  ("<TestCase><TestFunction name=\"a\"><Incident type=\"pass\"/></TestFunction>" ++
    "<Message type=\"fatal\"/></TestCase>").toList

def nestedLog : List Char :=
  ("<TestCase><TestFunction name=\"a\"><TestFunction/><Message type=\"fatal\"/>" ++
    "</TestFunction></TestCase>").toList

open Sample in
/-- A fatal message that stands in the test case itself is lost, and so is one of
a function in which another tag is named as a function is. -/
theorem stray_message_lost : ¬MessagesCount ["TestCase".toList] ∧
    ¬MessagesCount ["TestFunction".toList, "TestCase".toList] := by
  constructor
  · intro h
    obtain ⟨hr, hlex⟩ : read strayLog =
          .ok ⟨none, [⟨"a", [⟨.pass, none, none, none, none⟩], [], none⟩]⟩ ∧
        Lexes (withoutMark strayLog) ([] ++
          openCase :: ([openFunction, passed, closeFunction, fatal] ++ closeCase :: [])) [] := by
      unfold strayLog
      rw [String.toList_append, Text.toList_literal rfl, Text.toList_literal rfl]
      exact read_and_lexes (n := 6) (by decide +kernel)
    have hinside : Balanced [openFunction, passed, closeFunction, fatal] :=
      .element (.empty .nil) (.empty .nil)
    have hone : OneElement (withoutMark strayLog) [] :=
      .intro hlex (.pair hinside) (.done []) rfl (by simp)
    have hf : HoldsFatal [openFunction, passed, closeFunction, fatal] :=
      .intro (.element (.empty .nil) .nil) message_fatal .nil
    have hpassed : classify [] (.exited 0) (.parsed
        ⟨none, [⟨"a", [⟨.pass, none, none, none, none⟩], [], none⟩]⟩) = .passed := rfl
    obtain ⟨reason, hc⟩ := h _ _ _ _ hr hone (.intro hlex rfl hinside) hf [] (.exited 0)
    cases hpassed.symm.trans hc
  · intro h
    obtain ⟨hr, hlex⟩ : read nestedLog = .ok ⟨none, [⟨"a", [], [], none⟩]⟩ ∧
        Lexes (withoutMark nestedLog) ([openCase] ++
          openFunction :: ([emptyFunction, fatal] ++ closeFunction :: [closeCase])) [] := by
      unfold nestedLog
      rw [String.toList_append, Text.toList_literal rfl, Text.toList_literal rfl]
      exact read_and_lexes (n := 6) (by decide +kernel)
    have hroot : IsElement (openCase ::
        ([openFunction, emptyFunction, fatal, closeFunction] ++ [closeCase])) :=
      .pair (.element (.empty (.empty .nil)) .nil)
    have hone : OneElement (withoutMark nestedLog) [] :=
      .intro (show Lexes _ ([] ++ _) [] from hlex) hroot (.done []) rfl (by simp)
    have hf : HoldsFatal [emptyFunction, fatal] := .intro (.empty .nil) message_fatal .nil
    have hpassed : classify [] (.exited 0) (.parsed ⟨none, [⟨"a", [], [], none⟩]⟩) =
        .passed := rfl
    obtain ⟨reason, hc⟩ := h _ _ _ _ hr hone (.intro hlex rfl (.empty (.empty .nil))) hf []
      (.exited 0)
    cases hpassed.symm.trans hc

end Log

end Retrial
