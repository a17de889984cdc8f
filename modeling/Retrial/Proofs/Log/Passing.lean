import Retrial.Proofs.Log.Outcome
import Retrial.Proofs.Xml.Markup

/-!
# What written markup does to a draft

A text leads from one draft to another if whatever follows it is read as from
there. An element leads from its opening tag through what stands inside it to
its closing tag. What is foreign to a log, or stands where it means nothing,
leads nowhere: the draft stays as it is.
-/

set_option autoImplicit false

namespace Retrial.Log

open Retrial.Xml

/-- Behind a text, reading goes on from another draft. -/
def Leads (d : Draft) (cs : List Char) (d' : Draft) : Prop :=
  ∀ v, outcome d (cs ++ v) = outcome d' v

/-- The same for a text that may end in character data, which markup must end. -/
def Fills (d : Draft) (cs : List Char) (d' : Draft) : Prop :=
  ∀ v, Stop v → outcome d (cs ++ v) = outcome d' v

section Reading

variable {d d₁ d₂ : Draft} {cs ds : List Char}

theorem Leads.trans (h : Leads d cs d₁) (h' : Leads d₁ ds d₂) : Leads d (cs ++ ds) d₂ := by
  intro v
  rw [List.append_assoc, h, h']

theorem Leads.fills_append (h : Leads d cs d₁) (h' : Fills d₁ ds d₂) : Fills d (cs ++ ds) d₂ := by
  intro v hv
  rw [List.append_assoc, h, h' v hv]

theorem Fills.leads_append (h : Fills d cs d₁) (h' : Leads d₁ ('<' :: ds) d₂) :
    Leads d (cs ++ '<' :: ds) d₂ := by
  intro v
  have hm : outcome d (cs ++ ('<' :: ds ++ v)) = outcome d₁ ('<' :: ds ++ v) :=
    h _ (.markup (ds ++ v))
  rw [List.append_assoc, hm, h']

theorem fills_nil (d : Draft) : Fills d [] d := fun _ _ => rfl

theorem leads_lexeme {l : Lexeme} (hn : ∀ v, next? (cs ++ v) = .ok (some (l, v)))
    (hs : d.step l = .ok d₁) : Leads d cs d₁ := by
  intro v
  rw [outcome_next (hn v), hs]
  rfl

theorem fills_data (ht : d.target = none) (hw : CharData cs) : Fills d cs d :=
  fun _ hv => outcome_data ht hw hv

end Reading

/-! ### Elements -/

def Draft.within (d : Draft) (name : List Char) : Draft :=
  { d with openNames := name :: d.openNames }

@[simp] theorem Draft.within_target (d : Draft) (name : List Char) :
    (d.within name).target = d.target := rfl

@[simp] theorem Draft.within_openNames (d : Draft) (name : List Char) :
    (d.within name).openNames = name :: d.openNames := rfl

section Elements

variable {d d₁ d₂ : Draft} {name attrs inner s : List Char} {raws : List (List Char × List Char)}

theorem leads_single (hn : IsName name) (ha : Attributes raws attrs)
    (hb : d.begin (name ++ attrs) = .ok d₁) :
    Leads d (emptyTag (name ++ attrs)) (d₁.finish name) := by
  apply leads_lexeme (next?_empty hn ha)
  rw [Draft.step, hb, openingName_append hn ha.head]
  rfl

theorem leads_pair (hn : IsName name) (ha : Attributes raws attrs)
    (hs : ∀ c ∈ s, isSpace c = true) (hb : d.begin (name ++ attrs) = .ok d₁)
    (hi : Fills (d₁.within name) inner (d₂.within name)) :
    Leads d (openTag (name ++ attrs) ++ (inner ++ closeTag (name ++ s))) (d₂.finish name) := by
  have hopen : Leads d (openTag (name ++ attrs)) (d₁.within name) := by
    apply leads_lexeme (next?_open hn ha)
    rw [Draft.step, hb, openingName_append hn ha.head]
    rfl
  have hclose : Leads (d₂.within name) (closeTag (name ++ s)) (d₂.finish name) := by
    apply leads_lexeme (next?_close hn hs)
    rw [Draft.step, Draft.within_openNames, closeName, if_pos (beq_self_eq_true name)]
    rfl
  exact hopen.trans (hi.leads_append hclose)

/-- An element leads through its beginning and what stands inside it to its end. -/
theorem leads_element {inside : List Char → Prop} {text : List Char}
    (ht : ElementText inside name raws text)
    (hb : ∀ attrs, IsName name → Attributes raws attrs → d.begin (name ++ attrs) = .ok d₁)
    (hi : ∀ inner, inside inner → Fills (d₁.within name) inner (d₂.within name))
    (he : inside [] → d₂ = d₁) : Leads d text (d₂.finish name) := by
  cases ht with
  | empty h hn ha =>
    rw [he h]
    exact leads_single hn ha (hb _ hn ha)
  | pair h hn ha hs => exact leads_pair hn ha hs (hb _ hn ha) (hi _ h)

end Elements

/-! ### Elements without a meaning -/

def Foreign (name : List Char) : Prop := Element.ofName name = .foreign

def Silent (name : List Char) : Prop :=
  Element.ofName name ∉ [.testFunction, .incident, .message]

instance (name : List Char) : Decidable (Silent name) :=
  inferInstanceAs (Decidable (Element.ofName name ∉ [.testFunction, .incident, .message]))

theorem Foreign.silent {name : List Char} (h : Foreign name) : Silent name := by
  rw [Silent, h]
  decide

theorem Draft.beginChild_idle (d : Draft) {parent content : List Char}
    (h : Foreign (openingName content) ∨ Silent parent ∧ Silent (openingName content)) :
    d.beginChild parent content = .ok d := by
  unfold Foreign Silent at h
  unfold beginChild
  split <;> simp_all

theorem Draft.begin_idle {d : Draft} {parent content : List Char} {outer : List (List Char)}
    (hd : d.openNames = parent :: outer)
    (h : Foreign (openingName content) ∨ Silent parent ∧ Silent (openingName content)) :
    d.begin content = .ok d := by
  rw [begin, hd]
  exact d.beginChild_idle h

theorem Draft.finish_idle {d : Draft} {name : List Char} (h : Silent name)
    (ht : d.target = none) : d.finish name = d := by
  have hd : { d with target := none } = d := by rw [← ht]
  unfold Silent at h
  unfold finish
  split <;> simp_all

/-- Content without a part of a log is passed over, if no text is waited for
and its elements are foreign or stand in no part of a log themselves. -/
theorem fills_content {names : List Char → Prop} {cs : List Char} (h : Content names cs)
    (hn : ∀ n, names n → Silent n) {d : Draft} {parent : List Char} {outer : List (List Char)}
    (hd : d.openNames = parent :: outer) (hp : (∀ n, names n → Foreign n) ∨ Silent parent)
    (ht : d.target = none) : Fills d cs d := by
  have idle : ∀ {name attrs : List Char} {raws : List (List Char × List Char)} {d : Draft}
      {parent : List Char} {outer : List (List Char)}, d.openNames = parent :: outer →
      ((∀ n, names n → Foreign n) ∨ Silent parent) → names name → IsName name →
      Attributes raws attrs → d.begin (name ++ attrs) = .ok d := by
    intro name attrs raws d parent outer hd hp hname hi ha
    apply Draft.begin_idle hd
    rw [openingName_append hi ha.head]
    exact hp.imp (fun h => h name hname) fun h => ⟨h, hn name hname⟩
  induction h generalizing d parent outer with
  | nil => exact fills_nil d
  | data hw hs _ ih =>
    intro v hv
    rw [List.append_assoc, fills_data ht hw _ (hs.append hv)]
    exact ih hd hp ht v hv
  | cdata hm _ ih =>
    have hstep : ∀ text, d.step (.cdata text) = .ok d := fun text =>
      congrArg _ (Draft.addText_idle ht _)
    exact (leads_lexeme (next?_cdata hm) (hstep _)).fills_append (ih hd hp ht)
  | comment hm _ ih => exact (leads_lexeme (next?_comment hm) rfl).fills_append (ih hd hp ht)
  | instruction hm hf _ ih =>
    exact (leads_lexeme (next?_instruction hm hf) rfl).fills_append (ih hd hp ht)
  | @empty name attrs cs raws hname hi ha _ ih =>
    have hl := leads_single hi ha (idle hd hp hname hi ha)
    rw [Draft.finish_idle (hn name hname) ht] at hl
    exact hl.fills_append (ih hd hp ht)
  | @element name attrs inner s cs raws hname hi ha _ hs _ ihi ih =>
    have hin : Fills (d.within name) inner (d.within name) := ihi rfl (.inr (hn name hname)) ht
    have hl := leads_pair hi ha hs (idle hd hp hname hi ha) hin
    rw [Draft.finish_idle (hn name hname) ht] at hl
    have hf := hl.fills_append (ih hd hp ht)
    simpa only [List.append_assoc] using hf

end Retrial.Log
