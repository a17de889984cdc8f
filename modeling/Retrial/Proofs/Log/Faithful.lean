import Retrial.Proofs.Log.Rendering

/-!
# Logs are read as they were written

Every text that may be written for a report is read as the log that the report
stands for. Each element leads from the draft in front of it to the draft in
which its part is complete, and the rest of the draft is as before: that is
shown for each kind of element, from the fields up to the root.
-/

set_option autoImplicit false

namespace Retrial.Log

open Retrial.Number Retrial.Xml

/-! ### Rows of things -/

theorem fills_misc {gap : List Char} (h : Misc gap) (d : Draft) : Fills d gap d := by
  induction h with
  | nil => exact fills_nil d
  | @space s cs hs _ ih =>
    intro v hv
    rw [List.append_assoc, ← ih v hv]
    exact outcome_congr (next?_space hs _)
  | comment hm _ ih => exact (leads_lexeme (next?_comment hm) rfl).fills_append ih
  | instruction hm hf _ ih => exact (leads_lexeme (next?_instruction hm hf) rfl).fills_append ih

section Rows

variable {α β : Type} {Gap : List Char → Prop} {Item : α → List Char → Prop}

/-- A row of things changes a draft one thing at a time, and the gaps change nothing. -/
theorem fills_listed (state : β → Draft) (add : β → α → β)
    (hgap : ∀ b gap, Gap gap → Fills (state b) gap (state b))
    (hitem : ∀ b a text, Item a text → Leads (state b) text (state (add b a)))
    (hmark : ∀ a text, Item a text → ∃ cs, text = '<' :: cs) {as : List α} {text : List Char}
    (h : Listed Gap Item as text) (b : β) : Fills (state b) text (state (as.foldl add b)) := by
  induction h generalizing b with
  | nil hg => exact hgap b _ hg
  | @cons a as gap text rest hg ht _ ih =>
    obtain ⟨cs, rfl⟩ := hmark a text ht
    have hstep : Leads (state b) (gap ++ '<' :: cs) (state (add b a)) :=
      (hgap b gap hg).leads_append (hitem b a _ ht)
    have hrest := hstep.fills_append (ih (add b a))
    rwa [List.append_assoc] at hrest

theorem Listed.eq_nil (hmark : ∀ a text, Item a text → ∃ cs, text = '<' :: cs) {as : List α}
    (h : Listed Gap Item as []) : as = [] := by
  generalize hx : ([] : List Char) = text at h
  cases h with
  | nil => rfl
  | cons hg ht hr =>
    obtain ⟨cs, rfl⟩ := hmark _ _ ht
    have hl := congrArg List.length hx
    simp at hl

end Rows

/-! ### Attributes -/

theorem attributeOf_written {name attrs : List Char} {pairs : List (String × String)}
    (hn : IsName name) (ha : Attributes (escaped pairs) attrs) (key : String) :
    attributeOf key (name ++ attrs) = .ok (pairs.lookup key) := by
  rw [attributeOf, attribute?_written hn ha]
  rfl

theorem filter_written {file written : Option String} (hf : file ≠ some "")
    (h : Written "" file written) : written.filter (fun f => !f.isEmpty) = file := by
  rcases h with rfl | ⟨rfl, rfl⟩
  · cases written with
    | none => rfl
    | some f =>
      have hne : f ≠ "" := fun he => hf (by rw [he])
      simp [Option.filter, hne]
  · rfl

/-! ### Line numbers -/

theorem digitIn?_digit {c : Char} (h : c.isDigit = true) :
    digitIn? 10 c = some (c.toNat - '0'.toNat) := by
  have hr : ('0' ≤ c && c ≤ '9') = true := by simpa [Char.isDigit, Char.le_def] using h
  have hle : c.toNat ≤ '9'.toNat := by
    rw [Bool.and_eq_true, decide_eq_true_eq, decide_eq_true_eq] at hr
    exact hr.2
  have hnine : '9'.toNat = 57 := rfl
  have hzero : '0'.toNat = 48 := rfl
  have hlt : c.toNat - '0'.toNat < 10 := by omega
  rw [digitIn?, digitValue?, if_pos hr, Option.filter, if_pos (by simpa using hlt)]

theorem readDigits_ofDigitChars {bound : Nat} {cs : List Char} (hd : ∀ c ∈ cs, c.isDigit = true)
    (acc : Nat) (h : Nat.ofDigitChars 10 cs acc ≤ bound) :
    readDigits 10 bound acc cs = .ok (Nat.ofDigitChars 10 cs acc) := by
  induction cs generalizing acc with
  | nil => rw [readDigits, Nat.ofDigitChars_nil]
  | cons c cs ih =>
    rw [Nat.ofDigitChars_cons] at h ⊢
    -- The digits that follow make the number no smaller.
    have hle : 10 * acc + (c.toNat - '0'.toNat) ≤ bound := by
      rw [Nat.ofDigitChars_eq_ofDigitChars_zero] at h
      have hp : 0 < 10 ^ cs.length := Nat.pow_pos (by decide)
      have hm := Nat.le_mul_of_pos_left (10 * acc + (c.toNat - '0'.toNat)) hp
      omega
    rw [readDigits, digitIn?_digit (hd c List.mem_cons_self)]
    dsimp only
    rw [Nat.mul_comm acc 10, if_neg (by omega)]
    exact ih (fun d hx => hd d (List.mem_cons_of_mem c hx)) _ h

theorem readSigned_repr {n bound : Nat} (h : n ≤ bound) :
    readSigned 10 bound n.repr.toList = .ok n := by
  have hd : ∀ c ∈ Nat.toDigits 10 n, c.isDigit = true := fun c hc =>
    Nat.isDigit_of_mem_toDigits (by decide) (by decide) hc
  have hval : Nat.ofDigitChars 10 (Nat.toDigits 10 n) 0 = n := Nat.ofDigitChars_ten_toDigits
  have hread := readDigits_ofDigitChars hd 0 (hval ▸ h)
  obtain ⟨c, cs, hcs⟩ := List.exists_cons_of_ne_nil (Nat.toDigits_ne_nil (b := 10) (n := n))
  rw [Nat.repr_eq_ofList_toDigits, String.toList_ofList]
  rw [hval] at hread
  rw [hcs] at hd hread ⊢
  have hc : c ≠ '+' := by
    rintro rfl
    exact absurd (hd _ List.mem_cons_self) (by decide)
  unfold readSigned
  split
  · next he => exact absurd (List.cons.inj he).1 hc
  · next he => exact absurd (List.cons.inj he).1 hc
  · exact hread

theorem lineOf_written {line : Option Nat} {written : Option String}
    (hl : ∀ n ∈ line, 0 < n ∧ n ≤ maxWord32) (h : Written "0" (line.map Nat.repr) written) :
    lineOf written = line := by
  rcases h with rfl | ⟨hnone, rfl⟩
  · cases line with
    | none => rfl
    | some n =>
      obtain ⟨hpos, hle⟩ := hl n rfl
      have hz : (n == 0) = false := beq_eq_false_iff_ne.2 (Nat.pos_iff_ne_zero.1 hpos)
      simp only [lineOf, Option.map_some, readSigned_repr hle, hz]
      rfl
  · rw [Option.map_eq_none_iff] at hnone
    rw [hnone]
    rfl

/-! ### Tags and descriptions -/

theorem Draft.addText_addText (d : Draft) (s t : String) :
    (d.addText s).addText t = d.addText (s ++ t) := by
  obtain ⟨openNames, log, function, incident, message, target⟩ := d
  cases target with
  | none => rfl
  | some target =>
    cases target <;> cases incident <;> cases message <;> simp [addText, String.append_assoc]

theorem Draft.addText_within (d : Draft) (name : List Char) (text : String) :
    (d.within name).addText text = (d.addText text).within name := by
  unfold addText
  rw [within_target]
  split <;> rfl

theorem Draft.foldl_addText {pieces : List (List Char)} (h : pieces ≠ []) (d : Draft) :
    pieces.foldl (fun d piece => d.addText (String.ofList piece)) d =
      d.addText (String.ofList pieces.flatten) := by
  induction pieces generalizing d with
  | nil => exact absurd rfl h
  | cons p pieces ih =>
    rw [List.foldl_cons, List.flatten_cons, String.ofList_append]
    by_cases hp : pieces = []
    · simp [hp]
    · rw [ih hp, addText_addText]

theorem sectionText_mark {piece text : List Char} (h : SectionText piece text) :
    ∃ cs, text = '<' :: cs := by
  obtain ⟨-, rfl⟩ := h
  exact ⟨_, rfl⟩

theorem fills_sections {value : String} {text : List Char} (h : Sections value text) (d : Draft) :
    Fills d text (d.addText value) := by
  obtain ⟨pieces, hne, hvalue, hlist⟩ := h
  have hitem : ∀ (d : Draft) piece text, SectionText piece text →
      Leads d text (d.addText (String.ofList piece)) := by
    rintro d piece _ ⟨hm, rfl⟩
    exact leads_lexeme (next?_cdata hm) rfl
  have hf := fills_listed (fun d => d) (fun d piece => d.addText (String.ofList piece))
    (fun d gap hg => fills_misc hg d) hitem (fun _ _ => sectionText_mark) hlist d
  rwa [Draft.foldl_addText hne, hvalue, String.ofList_toList] at hf

theorem leads_field {d : Draft} {field : Field} {value : String} {text : List Char}
    (target : TextTarget)
    (hb : ∀ content, openingName content = field.name →
      d.begin content = .ok { d with target := some target })
    (h : FieldText (field, value) text) :
    Leads d text { ({ d with target := some target }).addText value with target := none } := by
  obtain ⟨raws, he⟩ := h
  have hi : ∀ inner, Sections value inner →
      Fills (({ d with target := some target } : Draft).within field.name) inner
        ((({ d with target := some target } : Draft).addText value).within field.name) := by
    intro inner hin
    rw [← Draft.addText_within]
    exact fills_sections hin _
  have hne : ¬Sections value [] := by
    rintro ⟨pieces, hne, -, hlist⟩
    exact hne (hlist.eq_nil fun _ _ => sectionText_mark)
  have hl := leads_element he (fun attrs hn ha => hb _ (openingName_append hn ha.head)) hi
    fun hin => absurd hin hne
  have hfinish : ∀ e : Draft, e.finish field.name = { e with target := none } := by
    intro e
    cases field <;> rfl
  rwa [hfinish] at hl

/-! ### Incidents and messages -/

def incidentName : List Char := "Incident".toList

def messageName : List Char := "Message".toList

def functionName : List Char := "TestFunction".toList

def testName : List Char := "TestCase".toList

def addToIncident (i : Incident) : Field × String → Incident
  | (.tag, text) => { i with tag := some (i.tag.getD "" ++ text) }
  | (.description, text) => { i with description := some (i.description.getD "" ++ text) }

def addToMessage (m : Message) : Field × String → Message
  | (.tag, text) => { m with tag := some (m.tag.getD "" ++ text) }
  | (.description, text) => { m with description := m.description ++ text }

theorem foldl_addToIncident (r : IncidentReport) :
    (fields r.tag r.description).foldl addToIncident ⟨.ofType r.type, none, none, r.file, r.line⟩ =
      r.incident := by
  unfold IncidentReport.incident
  cases r.tag <;> cases r.description <;> simp [fields, addToIncident]

theorem foldl_addToMessage (r : MessageReport) :
    (fields r.tag r.description).foldl addToMessage ⟨r.type, none, ""⟩ = r.message := by
  unfold MessageReport.message
  cases r.tag <;> cases r.description <;> simp [fields, addToMessage]

theorem fills_foreign {d : Draft} {gap parent : List Char} {outer : List (List Char)}
    (h : Content Foreign gap) (hd : d.openNames = parent :: outer) (ht : d.target = none) :
    Fills d gap d :=
  fills_content h (fun _ => Foreign.silent) hd (.inl fun _ h => h) ht

theorem fields_eq_nil {tag description : Option String}
    (h : Listed (Content Foreign) FieldText (fields tag description) []) :
    fields tag description = [] :=
  h.eq_nil fun _ _ ⟨_, he⟩ => he.markup

section Function

variable {name : Option String} {functions : List FunctionResult} {f : FunctionResult}

variable (name functions f) in
def inFunction : Draft := ⟨[functionName, testName], ⟨name, functions⟩, some f, none, none, none⟩

variable (name functions f) in
def inIncident (i : Incident) : Draft :=
  ⟨[incidentName, functionName, testName], ⟨name, functions⟩, some f, some i, none, none⟩

variable (name functions f) in
def inMessage (m : Message) : Draft :=
  ⟨[messageName, functionName, testName], ⟨name, functions⟩, some f, none, some m, none⟩

theorem leads_incident_field {i : Incident} {field : Field × String} {text : List Char}
    (h : FieldText field text) :
    Leads (inIncident name functions f i) text
      (inIncident name functions f (addToIncident i field)) := by
  have hp : Element.ofName incidentName = .incident := rfl
  obtain ⟨field, value⟩ := field
  cases field with
  | tag =>
    refine leads_field .incidentTag (fun content ho => ?_) h
    rw [begin_eq_beginChild rfl, Draft.beginChild, hp, ho]
    rfl
  | description =>
    refine leads_field .incidentDescription (fun content ho => ?_) h
    rw [begin_eq_beginChild rfl, Draft.beginChild, hp, ho]
    rfl

theorem leads_message_field {m : Message} {field : Field × String} {text : List Char}
    (h : FieldText field text) :
    Leads (inMessage name functions f m) text
      (inMessage name functions f (addToMessage m field)) := by
  have hp : Element.ofName messageName = .message := rfl
  obtain ⟨field, value⟩ := field
  cases field with
  | tag =>
    refine leads_field .messageTag (fun content ho => ?_) h
    rw [begin_eq_beginChild rfl, Draft.beginChild, hp, ho]
    rfl
  | description =>
    refine leads_field .messageDescription (fun content ho => ?_) h
    rw [begin_eq_beginChild rfl, Draft.beginChild, hp, ho]
    rfl

theorem begin_incident {r : IncidentReport} {attrs : List Char} {pairs : List (String × String)}
    (hn : IsName incidentName) (ha : Attributes (escaped pairs) attrs)
    (ht : pairs.lookup "type" = some r.type) (hf : Written "" r.file (pairs.lookup "file"))
    (hl : Written "0" (r.line.map Nat.repr) (pairs.lookup "line")) :
    (inFunction name functions f).begin (incidentName ++ attrs) =
      .ok { inFunction name functions f with
        incident := some ⟨.ofType r.type, none, none, r.file, r.line⟩ } := by
  have hp : Element.ofName functionName = .testFunction := rfl
  have hc : Element.ofName incidentName = .incident := rfl
  have hw := attributeOf_written hn ha
  rw [begin_eq_beginChild rfl, Draft.beginChild, hp, openingName_append hn ha.head, hc]
  dsimp only
  rw [hw "type", hw "file", hw "line"]
  simp only [bind, Except.bind, ht, filter_written r.named hf, lineOf_written r.numbered hl]
  rfl

theorem leads_incident {r : IncidentReport} {text : List Char} (h : IncidentText r text) :
    Leads (inFunction name functions f) text
      (inFunction name functions { f with incidents := f.incidents ++ [r.incident] }) := by
  obtain ⟨pairs, ht, hf, hl, he⟩ := h
  have hi : ∀ inner, Listed (Content Foreign) FieldText (fields r.tag r.description) inner →
      Fills (inIncident name functions f ⟨.ofType r.type, none, none, r.file, r.line⟩) inner
        (inIncident name functions f r.incident) := by
    intro inner hin
    rw [← foldl_addToIncident]
    apply fills_listed (inIncident name functions f) addToIncident _ _ _ hin
    · exact fun i gap hg => fills_foreign hg rfl rfl
    · exact fun i field text h => leads_incident_field h
    · exact fun field text ⟨_, he⟩ => he.markup
  have hempty : Listed (Content Foreign) FieldText (fields r.tag r.description) [] →
      ({ inFunction name functions f with incident := some r.incident } : Draft) =
        { inFunction name functions f with
          incident := some ⟨.ofType r.type, none, none, r.file, r.line⟩ } := by
    intro hin
    rw [← foldl_addToIncident, fields_eq_nil hin]
    rfl
  have hlead : Leads (inFunction name functions f) text
      (Draft.finish { inFunction name functions f with incident := some r.incident } incidentName) :=
    leads_element he (fun attrs hn ha => begin_incident hn ha ht hf hl) hi hempty
  exact hlead

theorem begin_message {r : MessageReport} {attrs : List Char} {pairs : List (String × String)}
    (hn : IsName messageName) (ha : Attributes (escaped pairs) attrs)
    (ht : pairs.lookup "type" = some r.type) :
    (inFunction name functions f).begin (messageName ++ attrs) =
      .ok { inFunction name functions f with message := some ⟨r.type, none, ""⟩ } := by
  have hp : Element.ofName functionName = .testFunction := rfl
  have hc : Element.ofName messageName = .message := rfl
  rw [begin_eq_beginChild rfl, Draft.beginChild, hp, openingName_append hn ha.head, hc]
  dsimp only
  rw [attributeOf_written hn ha]
  simp only [bind, Except.bind, ht]
  rfl

theorem leads_message {r : MessageReport} {text : List Char} (h : MessageText r text) :
    Leads (inFunction name functions f) text
      (inFunction name functions { f with messages := f.messages ++ [r.message] }) := by
  obtain ⟨pairs, ht, he⟩ := h
  have hi : ∀ inner, Listed (Content Foreign) FieldText (fields r.tag r.description) inner →
      Fills (inMessage name functions f ⟨r.type, none, ""⟩) inner
        (inMessage name functions f r.message) := by
    intro inner hin
    rw [← foldl_addToMessage]
    apply fills_listed (inMessage name functions f) addToMessage _ _ _ hin
    · exact fun m gap hg => fills_foreign hg rfl rfl
    · exact fun m field text h => leads_message_field h
    · exact fun field text ⟨_, he⟩ => he.markup
  have hempty : Listed (Content Foreign) FieldText (fields r.tag r.description) [] →
      ({ inFunction name functions f with message := some r.message } : Draft) =
        { inFunction name functions f with message := some ⟨r.type, none, ""⟩ } := by
    intro hin
    rw [← foldl_addToMessage, fields_eq_nil hin]
    rfl
  have hlead : Leads (inFunction name functions f) text
      (Draft.finish { inFunction name functions f with message := some r.message } messageName) :=
    leads_element he (fun attrs hn ha => begin_message hn ha ht) hi hempty
  exact hlead

/-! ### Functions -/

def addToFunction (f : FunctionResult) : Part → FunctionResult
  | .incident r => { f with incidents := f.incidents ++ [r.incident] }
  | .message r => { f with messages := f.messages ++ [r.message] }
  | .duration msecs => { f with duration := (durationOf (some msecs)).or f.duration }

theorem leads_duration {msecs : String} {text : List Char} (h : DurationText msecs text) :
    Leads (inFunction name functions f) text
      (inFunction name functions (addToFunction f (.duration msecs))) := by
  obtain ⟨pairs, ht, he⟩ := h
  have hp : Element.ofName functionName = .testFunction := rfl
  have hc : Element.ofName "Duration".toList = .duration := rfl
  have hb : ∀ attrs, IsName "Duration".toList → Attributes (escaped pairs) attrs →
      (inFunction name functions f).begin ("Duration".toList ++ attrs) =
        .ok (inFunction name functions (addToFunction f (.duration msecs))) := by
    intro attrs hn ha
    rw [begin_eq_beginChild rfl, Draft.beginChild, hp, openingName_append hn ha.head, hc]
    dsimp only
    rw [attributeOf_written hn ha, ht, addToFunction]
    dsimp only [bind, Except.bind]
    cases durationOf (some msecs) <;> rfl
  exact leads_element he hb (fun inner hin => fills_foreign hin rfl rfl) fun _ => rfl

theorem partText_mark {part : Part} {text : List Char} (h : PartText part text) :
    ∃ cs, text = '<' :: cs := by
  cases part with
  | incident r => obtain ⟨_, _, _, _, he⟩ := h; exact he.markup
  | message r => obtain ⟨_, _, he⟩ := h; exact he.markup
  | duration msecs => obtain ⟨_, _, he⟩ := h; exact he.markup

theorem leads_part {part : Part} {text : List Char} (h : PartText part text) :
    Leads (inFunction name functions f) text
      (inFunction name functions (addToFunction f part)) := by
  cases part with
  | incident r => exact leads_incident h
  | message r => exact leads_message h
  | duration msecs => exact leads_duration h

end Function

theorem foldl_addToFunction (parts : List Part) (f : FunctionResult) :
    parts.foldl addToFunction f =
      ⟨f.name, f.incidents ++ parts.filterMap Part.incident?,
        f.messages ++ parts.filterMap Part.message?,
        (parts.filterMap Part.duration?).getLast?.or f.duration⟩ := by
  induction parts generalizing f with
  | nil => simp
  | cons part parts ih =>
    rw [List.foldl_cons, ih]
    cases part with
    | incident r => simp [addToFunction, List.filterMap_cons, Part.incident?, Part.message?,
        Part.duration?]
    | message r => simp [addToFunction, List.filterMap_cons, Part.incident?, Part.message?,
        Part.duration?]
    | duration msecs =>
      cases hd : durationOf (some msecs) <;>
        simp [addToFunction, List.filterMap_cons, Part.incident?, Part.message?, Part.duration?, hd,
          List.getLast?_cons]

theorem foldl_parts (r : FunctionReport) :
    r.parts.foldl addToFunction ⟨r.name, [], [], none⟩ = r.result := by
  rw [foldl_addToFunction, FunctionReport.result]
  simp

section Root

variable {name : Option String} {functions : List FunctionResult}

def inTest (name : Option String) (functions : List FunctionResult) : Draft :=
  ⟨[testName], ⟨name, functions⟩, none, none, none, none⟩

theorem leads_function {r : FunctionReport} {text : List Char} (h : FunctionText r text) :
    Leads (inTest name functions) text (inTest name (functions ++ [r.result])) := by
  obtain ⟨pairs, ht, he⟩ := h
  have hp : Element.ofName testName = .testCase := rfl
  have hc : Element.ofName functionName = .testFunction := rfl
  have hb : ∀ attrs, IsName functionName → Attributes (escaped pairs) attrs →
      (inTest name functions).begin (functionName ++ attrs) =
        .ok { inTest name functions with function := some ⟨r.name, [], [], none⟩ } := by
    intro attrs hn ha
    rw [begin_eq_beginChild rfl, Draft.beginChild, hp, openingName_append hn ha.head, hc]
    dsimp only
    rw [attributeOf_written hn ha, ht]
  have hi : ∀ inner, Listed (Content Foreign) PartText r.parts inner →
      Fills (inFunction name functions ⟨r.name, [], [], none⟩) inner
        (inFunction name functions r.result) := by
    intro inner hin
    rw [← foldl_parts]
    apply fills_listed (inFunction name functions) addToFunction _ _ _ hin
    · exact fun f gap hg => fills_foreign hg rfl rfl
    · exact fun f part text h => leads_part h
    · exact fun part text h => partText_mark h
  have hempty : Listed (Content Foreign) PartText r.parts [] →
      ({ inTest name functions with function := some r.result } : Draft) =
        { inTest name functions with function := some ⟨r.name, [], [], none⟩ } := by
    intro hin
    rw [← foldl_parts, hin.eq_nil fun _ _ h => partText_mark h]
    rfl
  have hlead : Leads (inTest name functions) text
      (Draft.finish { inTest name functions with function := some r.result } functionName) :=
    leads_element he hb hi hempty
  exact hlead

theorem fills_outside {gap : List Char} (h : OutsideFunctions gap) :
    Fills (inTest name functions) gap (inTest name functions) := by
  have hsilent : ∀ n, Foreign n ∨ Element.ofName n = .duration → Silent n := by
    rintro n (h | h)
    · exact h.silent
    · rw [Silent, h]
      decide
  exact fills_content h hsilent rfl (.inr (by decide)) rfl

end Root

theorem foldl_functions (rs : List FunctionReport) (functions : List FunctionResult) :
    rs.foldl (fun functions r => functions ++ [r.result]) functions =
      functions ++ rs.map FunctionReport.result := by
  induction rs generalizing functions with
  | nil => simp
  | cons r rs ih => rw [List.foldl_cons, ih]; simp

/-- The root element leads from the start to the log that is reported. -/
theorem leads_root {r : Report} {text : List Char} (h : RootText r text) :
    Leads .start text { Draft.start with log := r.log } := by
  obtain ⟨pairs, ht, he⟩ := h
  have hc : Element.ofName testName = .testCase := rfl
  have hb : ∀ attrs, IsName testName → Attributes (escaped pairs) attrs →
      Draft.start.begin (testName ++ attrs) =
        .ok { Draft.start with log := ⟨r.name, []⟩ } := by
    intro attrs hn ha
    have hr : ∀ content, Draft.start.begin content = Draft.start.beginRoot content := fun _ => rfl
    rw [hr, Draft.beginRoot, openingName_append hn ha.head, hc]
    dsimp only
    rw [attributeOf_written hn ha, ht]
    rfl
  have hmark : ∀ (r : FunctionReport) text, FunctionText r text → ∃ cs, text = '<' :: cs :=
    fun r text ⟨_, _, he⟩ => he.markup
  have hlog : r.functions.foldl (fun functions r => functions ++ [r.result]) [] = r.log.functions :=
    foldl_functions r.functions []
  have hi : ∀ inner, Listed OutsideFunctions FunctionText r.functions inner →
      Fills (inTest r.name []) inner (inTest r.name r.log.functions) := by
    intro inner hin
    rw [← hlog]
    apply fills_listed (inTest r.name) (fun functions r => functions ++ [r.result]) _ _ hmark hin
    · exact fun functions gap hg => fills_outside hg
    · exact fun functions r text h => leads_function h
  have hempty : Listed OutsideFunctions FunctionText r.functions [] →
      ({ Draft.start with log := r.log } : Draft) = { Draft.start with log := ⟨r.name, []⟩ } := by
    intro hin
    rw [Report.log, hin.eq_nil hmark]
    rfl
  have hlead : Leads .start text (Draft.finish { Draft.start with log := r.log } testName) :=
    leads_element he hb hi hempty
  exact hlead

/-- A byte order mark would have to stand in front of everything else. -/
theorem withoutMark_misc {before : List Char} (h : Misc before) (cs : List Char) :
    withoutMark (before ++ '<' :: cs) = before ++ '<' :: cs := by
  induction h with
  | nil => rfl
  | @space s before hs _ ih =>
    cases s with
    | nil => exact ih
    | cons c s =>
      have hc : isSpace c = true := hs c List.mem_cons_self
      rw [List.append_assoc, List.cons_append, withoutMark]
      rintro rest he
      rw [(List.cons.inj he).1] at hc
      exact absurd hc (by decide)
  | comment => rfl
  | instruction => rfl

/-- Every text that may be written for a report is read as the log that the
report stands for: all functions in order, each with all its incidents and all
its messages in order, and each of these as it was reported. -/
theorem rendering_is_read {r : Report} {text : List Char} (h : Rendering r text) :
    read text = .ok r.log := by
  obtain ⟨before, root, after, hbefore, hroot, hafter, rfl⟩ := h
  have hlead := leads_root hroot
  obtain ⟨cs, rfl⟩ : ∃ cs, root = '<' :: cs := by
    obtain ⟨_, _, he⟩ := hroot
    exact he.markup
  have hstart : outcome .start (before ++ ('<' :: cs ++ after)) =
      outcome .start ('<' :: cs ++ after) := fills_misc hbefore .start _ (.markup (cs ++ after))
  have hend : outcome { Draft.start with log := r.log } after = some r.log := by
    have hf := fills_misc hafter { Draft.start with log := r.log } [] .nil
    rw [List.append_nil, outcome_nil] at hf
    exact hf
  have hmark := withoutMark_misc hbefore (cs ++ after)
  apply toOption_eq_some.1
  rw [outcome_read]
  exact (congrArg (outcome .start) hmark).trans (hstart.trans ((hlead after).trans hend))

def sampleReport : Report :=
  ⟨some "a<b",
    [⟨"f", [.message ⟨"qdebug", none, some "x"⟩,
      .incident ⟨"fail", some "row", none, some "t.cpp", some 7, by decide, by decide⟩]⟩]⟩

def sampleText : List Char :=
  ("<TestCase name=\"a&lt;b\"><TestFunction name=\"f\"><Message type=\"qdebug\">" ++
    "<Description><![CDATA[x]]></Description></Message>" ++
    "<Incident type=\"fail\" file=\"t.cpp\" line=\"7\"><DataTag><![CDATA[row]]></DataTag>" ++
    "</Incident></TestFunction></TestCase>").toList

theorem rendering_is_read_sample :
    Rendering sampleReport sampleText ∧ read sampleText = .ok ⟨some "a<b",
      [⟨"f", [⟨.fail, some "row", none, some "t.cpp", some 7⟩], [⟨"qdebug", none, "x"⟩], none⟩]⟩ := by
  have hfits : ∀ f ∈ sampleReport.functions, ∀ part ∈ f.parts, part.Fits := by decide
  have ht : sampleReport.plain = sampleText := by
    unfold sampleText
    repeat rw [String.toList_append]
    repeat rw [Text.toList_literal rfl]
    decide +kernel
  have hr : Rendering sampleReport sampleText := ht ▸ rendering_plain hfits
  exact ⟨hr, rendering_is_read hr⟩

end Retrial.Log
