import Retrial.Log.Basic
import Retrial.Log.Reader
import Retrial.Proofs.Log.Passing
import Retrial.Proofs.Xml.Escape

/-!
# How a log is written

A report is what a test binary has to say: its functions in order, each with
incidents and messages in any order. `Rendering` relates it to the texts that
may be written for it. The order, the space and the quotes of attributes are
free, and so is what stands between the elements, as long as it is foreign; the
text of a tag or a description stands in CDATA sections.
-/

set_option autoImplicit false

namespace Retrial.Log

open Retrial.Number Retrial.Xml

/-! ### Reports and what they say -/

structure IncidentReport where
  type : String
  tag : Option String
  description : Option String
  file : Option String
  line : Option Nat
  named : file ≠ some ""
  numbered : ∀ n ∈ line, 0 < n ∧ n ≤ maxWord32

structure MessageReport where
  type : String
  tag : Option String
  description : Option String

inductive Part
  | incident (report : IncidentReport)
  | message (report : MessageReport)
  | duration (msecs : String)

structure FunctionReport where
  name : String
  parts : List Part

structure Report where
  name : Option String
  functions : List FunctionReport

def IncidentReport.incident (r : IncidentReport) : Incident :=
  ⟨.ofType r.type, r.tag, r.description, r.file, r.line⟩

def MessageReport.message (r : MessageReport) : Message :=
  ⟨r.type, r.tag, r.description.getD ""⟩

namespace Part

def incident? : Part → Option Incident
  | .incident r => some r.incident
  | _ => none

def message? : Part → Option Message
  | .message r => some r.message
  | _ => none

def duration? : Part → Option Duration
  | .duration msecs => durationOf (some msecs)
  | _ => none

end Part

/-- A function with all its incidents and all its messages, each in order. Of
several durations the last counts. -/
def FunctionReport.result (r : FunctionReport) : FunctionResult :=
  ⟨r.name, r.parts.filterMap Part.incident?, r.parts.filterMap Part.message?,
    (r.parts.filterMap Part.duration?).getLast?⟩

def Report.log (r : Report) : TestLog := ⟨r.name, r.functions.map FunctionReport.result⟩

/-! ### Texts -/

inductive Listed {α : Type} (Gap : List Char → Prop) (Item : α → List Char → Prop) :
    List α → List Char → Prop
  | nil {gap : List Char} : Gap gap → Listed Gap Item [] gap
  | cons {a : α} {as : List α} {gap text rest : List Char} :
      Gap gap → Item a text → Listed Gap Item as rest →
      Listed Gap Item (a :: as) (gap ++ (text ++ rest))

def SectionText (piece text : List Char) : Prop :=
  ¬[']', ']', '>'] <:+: piece ∧ text = cdataText piece

/-- A text in one or more CDATA sections, with no more than space, comments and
instructions around them. -/
def Sections (value : String) (text : List Char) : Prop :=
  ∃ pieces : List (List Char),
    pieces ≠ [] ∧ pieces.flatten = value.toList ∧ Listed Misc SectionText pieces text

inductive Field
  | tag
  | description
  deriving DecidableEq, Repr

def Field.name : Field → List Char
  | .tag => "DataTag".toList
  | .description => "Description".toList

def FieldText (field : Field × String) (text : List Char) : Prop :=
  ∃ raws, ElementText (Sections field.2) field.1.name raws text

def fields (tag description : Option String) : List (Field × String) :=
  (tag.map fun t => (Field.tag, t)).toList ++
    (description.map fun t => (Field.description, t)).toList

/-- An optional value is left out or written as its blank when it is not there. -/
def Written (blank : String) (value written : Option String) : Prop :=
  written = value ∨ value = none ∧ written = some blank

def IncidentText (r : IncidentReport) (text : List Char) : Prop :=
  ∃ pairs : List (String × String),
    pairs.lookup "type" = some r.type ∧ Written "" r.file (pairs.lookup "file") ∧
      Written "0" (r.line.map Nat.repr) (pairs.lookup "line") ∧
      ElementText (Listed (Content Foreign) FieldText (fields r.tag r.description))
        "Incident".toList (escaped pairs) text

def MessageText (r : MessageReport) (text : List Char) : Prop :=
  ∃ pairs : List (String × String),
    pairs.lookup "type" = some r.type ∧
      ElementText (Listed (Content Foreign) FieldText (fields r.tag r.description))
        "Message".toList (escaped pairs) text

def DurationText (msecs : String) (text : List Char) : Prop :=
  ∃ pairs : List (String × String),
    pairs.lookup "msecs" = some msecs ∧
      ElementText (Content Foreign) "Duration".toList (escaped pairs) text

def PartText : Part → List Char → Prop
  | .incident r => IncidentText r
  | .message r => MessageText r
  | .duration msecs => DurationText msecs

def FunctionText (r : FunctionReport) (text : List Char) : Prop :=
  ∃ pairs : List (String × String),
    pairs.lookup "name" = some r.name ∧
      ElementText (Listed (Content Foreign) PartText r.parts) "TestFunction".toList
        (escaped pairs) text

/-- What may stand between functions: foreign elements, and durations of the whole. -/
def OutsideFunctions : List Char → Prop :=
  Content fun name => Foreign name ∨ Element.ofName name = .duration

def RootText (r : Report) (text : List Char) : Prop :=
  ∃ pairs : List (String × String),
    pairs.lookup "name" = r.name ∧
      ElementText (Listed OutsideFunctions FunctionText r.functions) "TestCase".toList
        (escaped pairs) text

/-- The texts that may be written for a report: one element, with no more than
space, comments and instructions around it. -/
def Rendering (r : Report) (text : List Char) : Prop :=
  ∃ before root after, Misc before ∧ RootText r root ∧ Misc after ∧
    text = before ++ (root ++ after)

/-! ### The plain rendering -/

def plainAttributes (pairs : List (String × String)) : List Char :=
  pairs.flatMap fun p => ' ' :: (p.1.toList ++ '=' :: '"' :: (escape p.2.toList ++ ['"']))

def plainElement (name : List Char) (pairs : List (String × String)) (inner : List Char) :
    List Char :=
  openTag (name ++ plainAttributes pairs) ++ (inner ++ closeTag name)

def plainField (field : Field × String) : List Char :=
  plainElement field.1.name [] (cdataText field.2.toList)

def IncidentReport.plain (r : IncidentReport) : List Char :=
  plainElement "Incident".toList
    [("type", r.type), ("file", r.file.getD ""), ("line", (r.line.map Nat.repr).getD "0")]
    ((fields r.tag r.description).flatMap plainField)

def MessageReport.plain (r : MessageReport) : List Char :=
  plainElement "Message".toList [("type", r.type)] ((fields r.tag r.description).flatMap plainField)

def Part.plain : Part → List Char
  | .incident r => r.plain
  | .message r => r.plain
  | .duration msecs => plainElement "Duration".toList [("msecs", msecs)] []

def FunctionReport.plain (r : FunctionReport) : List Char :=
  plainElement "TestFunction".toList [("name", r.name)] (r.parts.flatMap Part.plain)

def Report.plain (r : Report) : List Char :=
  plainElement "TestCase".toList (r.name.toList.map fun name => ("name", name))
    (r.functions.flatMap FunctionReport.plain)

/-- A text that fits into one CDATA section. -/
def Fits (value : Option String) : Prop := ∀ text ∈ value, ¬[']', ']', '>'] <:+: text.toList

instance (value : Option String) : Decidable (Fits value) :=
  inferInstanceAs (Decidable (∀ text ∈ value, ¬[']', ']', '>'] <:+: text.toList))

def Part.Fits : Part → Prop
  | .incident r => Log.Fits r.tag ∧ Log.Fits r.description
  | .message r => Log.Fits r.tag ∧ Log.Fits r.description
  | .duration _ => True

instance (part : Part) : Decidable part.Fits :=
  match part with
  | .incident r => inferInstanceAs (Decidable (Fits r.tag ∧ Fits r.description))
  | .message r => inferInstanceAs (Decidable (Fits r.tag ∧ Fits r.description))
  | .duration _ => inferInstanceAs (Decidable True)

theorem attributes_plain {pairs : List (String × String)}
    (h : ∀ key ∈ pairs.map Prod.fst, IsName key.toList) :
    Attributes (escaped pairs) (plainAttributes pairs) := by
  induction pairs with
  | nil => exact .nil fun c hc => absurd hc List.not_mem_nil
  | cons p pairs ih =>
    have hq : '"' ∉ escape p.2.toList := quote_notMem_escape (.inl rfl) _
    have hr := Attributes.double (h p.1 List.mem_cons_self) hq
      (ih fun key hm => h key (List.mem_cons_of_mem p.1 hm))
    simpa [plainAttributes, escaped] using hr

theorem elementText_plain {inside : List Char → Prop} {name inner : List Char}
    {pairs : List (String × String)} (hi : inside inner) (hn : IsName name)
    (hk : ∀ key ∈ pairs.map Prod.fst, IsName key.toList) :
    ElementText inside name (escaped pairs) (plainElement name pairs inner) := by
  have hs : ∀ c ∈ ([] : List Char), isSpace c = true := by simp
  have hp := ElementText.pair hi hn (attributes_plain hk) hs
  rwa [List.append_nil] at hp

theorem listed_plain {α : Type} {Gap : List Char → Prop} {Item : α → List Char → Prop}
    {write : α → List Char} (hg : Gap []) {as : List α} (h : ∀ a ∈ as, Item a (write a)) :
    Listed Gap Item as (as.flatMap write) := by
  induction as with
  | nil => exact .nil hg
  | cons a as ih =>
    exact .cons hg (h a List.mem_cons_self) (ih fun b hb => h b (List.mem_cons_of_mem a hb))

theorem fields_plain {tag description : Option String} (ht : Fits tag) (hd : Fits description) :
    Listed (Content Foreign) FieldText (fields tag description)
      ((fields tag description).flatMap plainField) := by
  apply listed_plain .nil
  rintro ⟨field, value⟩ hm
  have hv : ¬[']', ']', '>'] <:+: value.toList := by
    rcases List.mem_append.1 hm with hm | hm
    · obtain ⟨t, rfl, he⟩ := Option.map_eq_some_iff.1 (Option.mem_toList.1 hm)
      cases he
      exact ht _ rfl
    · obtain ⟨t, rfl, he⟩ := Option.map_eq_some_iff.1 (Option.mem_toList.1 hm)
      cases he
      exact hd _ rfl
  have hs : Sections value (cdataText value.toList) := by
    refine ⟨[value.toList], by simp, by simp, ?_⟩
    simpa using Listed.cons Misc.nil ⟨hv, rfl⟩ (Listed.nil Misc.nil)
  have hn : IsName field.name := by
    cases field <;> decide
  exact ⟨_, elementText_plain hs hn (by simp)⟩

theorem written_getD {blank : String} (value : Option String) :
    Written blank value (some (value.getD blank)) := by
  cases value with
  | none => exact .inr ⟨rfl, rfl⟩
  | some v => exact .inl rfl

theorem partText_plain {part : Part} (h : part.Fits) : PartText part part.plain := by
  cases part with
  | incident r =>
    refine ⟨_, ?_, ?_, ?_, elementText_plain (fields_plain h.1 h.2) (by decide)
      (show ∀ key ∈ ["type", "file", "line"], IsName key.toList by decide)⟩
    · rfl
    · exact written_getD r.file
    · exact written_getD (r.line.map Nat.repr)
  | message r =>
    refine ⟨_, ?_, elementText_plain (fields_plain h.1 h.2) (by decide)
      (show ∀ key ∈ ["type"], IsName key.toList by decide)⟩
    rfl
  | duration msecs =>
    refine ⟨_, ?_, elementText_plain .nil (by decide)
      (show ∀ key ∈ ["msecs"], IsName key.toList by decide)⟩
    rfl

theorem functionText_plain {r : FunctionReport} (h : ∀ part ∈ r.parts, part.Fits) :
    FunctionText r r.plain := by
  have hparts : Listed (Content Foreign) PartText r.parts (r.parts.flatMap Part.plain) :=
    listed_plain .nil fun part hp => partText_plain (h part hp)
  refine ⟨_, ?_, elementText_plain hparts (by decide)
    (show ∀ key ∈ ["name"], IsName key.toList by decide)⟩
  rfl

/-- Every report has a rendering, if its texts fit into a CDATA section each. -/
theorem rendering_plain {r : Report} (h : ∀ f ∈ r.functions, ∀ part ∈ f.parts, part.Fits) :
    Rendering r r.plain := by
  have hfunctions : Listed OutsideFunctions FunctionText r.functions
      (r.functions.flatMap FunctionReport.plain) :=
    listed_plain .nil fun f hf => functionText_plain (h f hf)
  have hroot : RootText r r.plain := by
    refine ⟨_, ?_, elementText_plain hfunctions (by decide) ?_⟩
    · cases r.name <;> rfl
    · cases r.name with
      | none => exact fun key hk => absurd hk List.not_mem_nil
      | some name => exact (show ∀ key ∈ ["name"], IsName key.toList by decide)
  exact ⟨[], r.plain, [], .nil, hroot, .nil, (List.append_nil _).symm⟩

end Retrial.Log
