import Retrial.Proofs.Log.Fatal
import Retrial.Proofs.ExistingLog

/-!
# The texts that are logs

Whether a text can be read as a log is settled by its tags alone: which elements
stand in which, and the few attributes that are looked for. Here this is told as
a grammar, without a draft. Nothing in it asks for an element at the top, or for
one only, or forbids character data there; so some texts are read as logs in
which nothing ran though they are no logs at all.
-/

set_option autoImplicit false

namespace Retrial

open Retrial.Xml

namespace Log

/-! ### What may stand where -/

def keysRead : Option Element → Element → List String
  | none, _ => ["name"]
  | some .testCase, .testFunction => ["name"]
  | some .testFunction, .incident => ["type", "file", "line"]
  | some .testFunction, .message => ["type"]
  | some .testFunction, .duration => ["msecs"]
  | _, _ => []

/-- A tag may stand in an element, or at the top: there it is a test case, a
function in a test case has a name, and the attributes that are looked for can be read. -/
structure Admits (parent : Option (List Char)) (content : List Char) : Prop where
  root : parent = none → openingName content = "TestCase".toList
  named : parent = some "TestCase".toList → openingName content = "TestFunction".toList →
    ∃ name, attributeOf "name" content = .ok (some name)
  readable : ∀ key ∈ keysRead (parent.map .ofName) (.ofName (openingName content)),
    ∃ value, attributeOf key content = .ok value

def IsData : Lexeme → Prop
  | .text raw => ∃ value, expand raw = .ok value
  | .cdata _ | .aside => True
  | _ => False

/-- Lexemes that stand in an element, or at the top of a log: every element is
closed by its name, and each tag may stand where it does. -/
inductive Forest : Option (List Char) → List Lexeme → Prop
  | nil {parent : Option (List Char)} : Forest parent []
  | data {parent : Option (List Char)} {l : Lexeme} {ls : List Lexeme} :
      IsData l → Forest parent ls → Forest parent (l :: ls)
  | empty {parent : Option (List Char)} {content : List Char} {ls : List Lexeme} :
      Admits parent content → Forest parent ls → Forest parent (.empty content :: ls)
  | element {parent : Option (List Char)} {content : List Char} {inner ls : List Lexeme} :
      Admits parent content → Forest (some (openingName content)) inner → Forest parent ls →
      Forest parent (.opening content :: (inner ++ .closing (openingName content) :: ls))

inductive IsLogText (text : List Char) : Prop
  | intro {ls : List Lexeme} {stop : List Char} :
      Lexes (withoutMark text) ls stop → next? stop = .ok none → Forest none ls → IsLogText text

/-! ### Tags -/

theorem ofName_eq_testCase {name : List Char} :
    Element.ofName name = .testCase ↔ name = "TestCase".toList :=
  ofName_eq_iff (by decide)

theorem exists_bind_ok {α β ε : Type} {x : Except ε α} {f : α → Except ε β} :
    (∃ b, (x >>= f) = .ok b) ↔ ∃ a, x = .ok a ∧ ∃ b, f a = .ok b := by
  cases x with
  | error e => simp [bind, Except.bind]
  | ok a => simp [bind, Except.bind]

theorem exists_map_ok {α β ε : Type} {x : Except ε α} {f : α → β} :
    (∃ b, x.map f = .ok b) ↔ ∃ a, x = .ok a := by
  cases x <;> simp [Except.map]

theorem beginRoot_ok_iff {d : Draft} {content : List Char} :
    (∃ d', d.beginRoot content = .ok d') ↔ Admits none content := by
  unfold Draft.beginRoot
  constructor
  · intro h
    split at h
    · next he =>
      rw [exists_map_ok] at h
      exact ⟨fun _ => ofName_eq_testCase.1 he, nofun, by simpa [keysRead] using h⟩
    · obtain ⟨d', h⟩ := h
      cases h
  · intro h
    rw [ofName_eq_testCase.2 (h.root rfl)]
    exact exists_map_ok.2 (h.readable "name" (by simp [keysRead]))

theorem beginChild_ok_iff {d : Draft} {parent content : List Char} :
    (∃ d', d.beginChild parent content = .ok d') ↔ Admits (some parent) content := by
  have key : Admits (some parent) content ↔
      (Element.ofName parent = .testCase → Element.ofName (openingName content) = .testFunction →
        ∃ name, attributeOf "name" content = .ok (some name)) ∧
      ∀ key ∈ keysRead (some (.ofName parent)) (.ofName (openingName content)),
        ∃ value, attributeOf key content = .ok value := by
    rw [ofName_eq_testCase, ofName_eq_testFunction]
    exact ⟨fun h => ⟨fun hp => h.named (congrArg some hp), h.readable⟩,
      fun h => ⟨nofun, fun hp => h.1 (Option.some.inj hp), h.2⟩⟩
  rw [key]
  unfold Draft.beginChild
  generalize Element.ofName parent = p
  generalize Element.ofName (openingName content) = c
  cases p <;> cases c
  case testCase.testFunction =>
    simp only [keysRead, List.mem_singleton, forall_eq, forall_const]
    constructor
    · rintro ⟨d', h⟩
      split at h
      · cases h
      · cases h
      · next name hn => exact ⟨⟨name, hn⟩, some name, hn⟩
    · rintro ⟨⟨name, hn⟩, -⟩
      rw [hn]
      exact ⟨_, rfl⟩
  case testFunction.duration =>
    simp only [keysRead, exists_bind_ok, List.mem_singleton, forall_eq, reduceCtorEq,
      false_implies, true_and]
    refine exists_congr fun a => and_iff_left ?_
    split <;> exact ⟨_, rfl⟩
  all_goals simp [keysRead, exists_bind_ok]

theorem begin_ok_iff {d : Draft} {content : List Char} :
    (∃ d', d.begin content = .ok d') ↔ Admits d.openNames.head? content := by
  unfold Draft.begin
  split
  · next h => rw [h]; exact beginRoot_ok_iff
  · next parent outer h => rw [h]; exact beginChild_ok_iff

/-! ### Lexemes one after the other -/

/-- A lexeme may stand behind tags that leave some elements open, the innermost first. -/
def Stands (openNames : List (List Char)) : Lexeme → Prop
  | .opening content | .empty content => Admits openNames.head? content
  | .closing name => openNames.head? = some name
  | l => IsData l

def AllStand : List (List Char) → List Lexeme → Prop
  | _, [] => True
  | openNames, l :: ls => Stands openNames l ∧ AllStand (nest openNames l) ls

theorem step_ok_iff {d : Draft} {l : Lexeme} :
    (∃ d', d.step l = .ok d') ↔ Stands d.openNames l := by
  cases l with
  | opening content | empty content => exact exists_map_ok.trans begin_ok_iff
  | closing name =>
    simp only [Draft.step, Stands]
    constructor
    · rintro ⟨d', h⟩
      cases hc : closeName d.openNames name with
      | error fault => rw [hc] at h; cases h
      | ok outer => rw [closeName_eq_ok hc]; rfl
    · intro h
      obtain ⟨outer, ho⟩ := List.head?_eq_some_iff.1 h
      simp [ho, closeName]
  | text raw =>
    simp only [Draft.step, Stands, IsData]
    cases expand raw <;> simp
  | cdata text => simp [Draft.step, Stands, IsData]
  | aside => simp [Draft.step, Stands, IsData]

theorem exists_run_iff {d : Draft} {ls : List Lexeme} :
    (∃ d', d.run ls = some d') ↔ AllStand d.openNames ls := by
  induction ls generalizing d with
  | nil => simp [Draft.run, AllStand]
  | cons l ls ih =>
    rw [AllStand, ← step_ok_iff]
    constructor
    · rintro ⟨d', h⟩
      obtain ⟨e, he, hr⟩ := Draft.step_of_run h
      refine ⟨⟨e, he⟩, ?_⟩
      rw [← Draft.step_openNames he]
      exact ih.1 ⟨d', hr⟩
    · rintro ⟨⟨e, he⟩, hs⟩
      rw [← Draft.step_openNames he] at hs
      obtain ⟨d', hr⟩ := ih.2 hs
      exact ⟨d', by rw [Draft.run, he]; exact hr⟩

theorem AllStand.append {ns : List (List Char)} {u v : List Lexeme} (hu : AllStand ns u)
    (hv : AllStand (u.foldl nest ns) v) : AllStand ns (u ++ v) := by
  induction u generalizing ns with
  | nil => exact hv
  | cons l u ih => exact ⟨hu.1, ih hu.2 hv⟩

theorem IsData.isTag {l : Lexeme} (h : IsData l) : l.isTag = false := by
  cases l <;> first | rfl | cases h

theorem IsData.stands {l : Lexeme} (h : IsData l) (ns : List (List Char)) : Stands ns l := by
  cases l <;> first | exact h | cases h

theorem Forest.stands {parent : Option (List Char)} {ls : List Lexeme} (h : Forest parent ls)
    {ns : List (List Char)} (hn : ns.head? = parent) :
    AllStand ns ls ∧ ls.foldl nest ns = ns := by
  induction h generalizing ns with
  | nil => exact ⟨trivial, rfl⟩
  | @data parent l ls hl _ ih =>
    have hs : nest ns l = ns := nest_other hl.isTag ns
    rw [AllStand, List.foldl_cons, hs]
    exact ⟨⟨hl.stands ns, (ih hn).1⟩, (ih hn).2⟩
  | empty ha _ ih =>
    subst hn
    exact ⟨⟨ha, (ih rfl).1⟩, (ih rfl).2⟩
  | @element parent content inner ls ha _ _ ihi ih =>
    subst hn
    obtain ⟨hi, hin⟩ := ihi (List.head?_cons (l := ns))
    obtain ⟨hs, hsn⟩ := ih rfl
    refine ⟨⟨ha, hi.append ?_⟩, ?_⟩
    · rw [hin]
      exact ⟨rfl, hs⟩
    · rw [List.foldl_cons, List.foldl_append]
      change (Lexeme.closing (openingName content) :: ls).foldl nest
        (inner.foldl nest (openingName content :: ns)) = ns
      rw [hin]
      exact hsn

/-- What stands behind tags that leave elements open: the rest of the innermost, its
closing tag, and what stands behind that. -/
def Unwinds : List (List Char) → List Lexeme → Prop
  | [], ls => Forest none ls
  | name :: outer, ls => ∃ inner rest, ls = inner ++ .closing name :: rest ∧
      Forest (some name) inner ∧ Unwinds outer rest

theorem Unwinds.prepend {ns : List (List Char)} {u ls : List Lexeme} (h : Unwinds ns ls)
    (hu : ∀ vs, Forest ns.head? vs → Forest ns.head? (u ++ vs)) : Unwinds ns (u ++ ls) := by
  cases ns with
  | nil => exact hu ls h
  | cons name outer =>
    obtain ⟨inner, rest, rfl, hi, hr⟩ := h
    exact ⟨u ++ inner, rest, by rw [List.append_assoc], hu inner hi, hr⟩

/-- By induction on the lexemes: each open element is closed by its own tag. -/
theorem unwinds_of_stand {ns : List (List Char)} {ls : List Lexeme} (h : AllStand ns ls)
    (hn : ls.foldl nest ns = []) : Unwinds ns ls := by
  induction ls generalizing ns with
  | nil =>
    cases hn
    exact Forest.nil
  | cons l ls ih =>
    obtain ⟨hl, hs⟩ := h
    have hu : Unwinds (nest ns l) ls := ih hs hn
    cases l with
    | text | cdata | aside => exact hu.prepend (u := [_]) fun vs hv => .data hl hv
    | empty content => exact hu.prepend (u := [_]) fun vs hv => .empty hl hv
    | closing name =>
      obtain ⟨outer, rfl⟩ := List.head?_eq_some_iff.1 hl
      exact ⟨[], ls, rfl, .nil, hu⟩
    | opening content =>
      obtain ⟨inner, rest, rfl, hi, hr⟩ := hu
      have := hr.prepend (u := .opening content :: (inner ++ [.closing (openingName content)]))
        fun vs hv => by simpa using Forest.element hl hi hv
      simpa using this

theorem forest_iff {ls : List Lexeme} :
    Forest none ls ↔ AllStand [] ls ∧ ls.foldl nest [] = [] :=
  ⟨fun h => h.stands rfl, fun h => unwinds_of_stand h.1 h.2⟩

/-! ### Texts -/

theorem exists_lexes {n : Nat} {d : Draft} {cs : List Char} {log : TestLog}
    (h : readFrom n d cs = .ok log) : ∃ ls stop, Lexes cs ls stop ∧ next? stop = .ok none := by
  fun_induction readFrom n d cs with
  | case1 | case3 => cases h
  | case2 d cs hn => exact ⟨[], cs, .done cs, hn⟩
  | case4 d cs l rest hn _ d' hs ih =>
    obtain ⟨ls, stop, hl, hstop⟩ := ih h
    exact ⟨l :: ls, stop, .next hn hl, hstop⟩

theorem exists_outcome_iff {cs stop : List Char} {ls : List Lexeme} (h : Lexes cs ls stop)
    (hs : next? stop = .ok none) : (∃ log, outcome .start cs = some log) ↔ Forest none ls := by
  rw [forest_iff]
  constructor
  · rintro ⟨log, ho⟩
    obtain ⟨d, hr, hd⟩ := Draft.run_of_outcome h ho
    rw [outcome_end hs] at hd
    refine ⟨exists_run_iff.1 ⟨d, hr⟩, ?_⟩
    exact (Draft.run_openNames hr).symm.trans (Draft.close_eq_some hd).1
  · rintro ⟨ha, hn⟩
    obtain ⟨d, hr⟩ := exists_run_iff (d := .start) |>.2 ha
    have ho : d.openNames = [] := (Draft.run_openNames hr).trans hn
    refine ⟨d.log, ?_⟩
    rw [outcome_lexes h, hr]
    change outcome d stop = _
    rw [outcome_end hs, Draft.close, ho]
    rfl

/-- Exactly the log texts are read as logs. -/
theorem read_ok_iff {text : List Char} : (∃ log, read text = .ok log) ↔ IsLogText text := by
  have hr : (∃ log, read text = .ok log) ↔ ∃ log, outcome .start (withoutMark text) = some log := by
    simp only [← outcome_read, toOption_eq_some]
  rw [hr]
  constructor
  · intro h
    obtain ⟨log, ho⟩ := h
    obtain ⟨ls, stop, hl, hs⟩ := exists_lexes (toOption_eq_some.1 ho)
    exact ⟨hl, hs, (exists_outcome_iff hl hs).1 ⟨log, ho⟩⟩
  · rintro ⟨hl, hs, hf⟩
    exact (exists_outcome_iff hl hs).2 hf

theorem forest_of_data {ls : List Lexeme} (h : ∀ l ∈ ls, IsData l) : Forest none ls := by
  induction ls with
  | nil => exact .nil
  | cons l ls ih =>
    refine .data (h l List.mem_cons_self) (ih ?_)
    exact fun m hm => h m (List.mem_cons_of_mem l hm)

theorem read_of_no_tags {text stop : List Char} {ls : List Lexeme}
    (h : Lexes (withoutMark text) ls stop) (hs : next? stop = .ok none) (hd : ∀ l ∈ ls, IsData l) :
    read text = .ok .empty := by
  obtain ⟨log, ho⟩ := (exists_outcome_iff h hs).2 (forest_of_data hd)
  obtain ⟨d, hr, hl⟩ := Draft.run_of_outcome h ho
  rw [outcome_end hs] at hl
  obtain ⟨-, rfl⟩ := Draft.close_eq_some hl
  rw [Draft.run_others_log (fun l hm => (hd l hm).isTag) hr, ← outcome_read] at ho
  exact toOption_eq_some.1 ho

/-! ### Texts with one element at the top -/

theorem lexes_unique {cs stop stop' : List Char} {ls ls' : List Lexeme} (h : Lexes cs ls stop)
    (h' : Lexes cs ls' stop') (hs : next? stop = .ok none) (hs' : next? stop' = .ok none) :
    ls = ls' := by
  induction h generalizing ls' with
  | done cs =>
    cases h' with
    | done => rfl
    | next hn _ => cases hs.symm.trans hn
  | next hn _ ih =>
    cases h' with
    | done => cases hs'.symm.trans hn
    | next hn' hr =>
      cases hn.symm.trans hn'
      rw [ih hr hs]

def IsBlankData : Lexeme → Prop
  | .text raw => ∃ value, expand raw = .ok value ∧ Text.allBlank value = true
  | .cdata text => Text.allBlank text = true
  | .aside => True
  | _ => False

/-- A text with exactly one element at the top and no character data beside it. -/
inductive HasSoleRoot (text : List Char) : Prop
  | intro {before root after : List Lexeme} {stop : List Char} :
      Lexes (withoutMark text) (before ++ (root ++ after)) stop → next? stop = .ok none →
      IsElement root → (∀ l ∈ before ++ after, IsBlankData l) → HasSoleRoot text

theorem HasSoleRoot.tag {text stop : List Char} {ls : List Lexeme} (h : HasSoleRoot text)
    (hl : Lexes (withoutMark text) ls stop) (hs : next? stop = .ok none) :
    ∃ content, .opening content ∈ ls ∨ ∃ before after, ls = before ++ .empty content :: after ∧
      ∀ l ∈ before ++ after, IsBlankData l := by
  obtain ⟨hl', hs', hr, hd⟩ := h
  cases lexes_unique hl hl' hs hs'
  cases hr with
  | empty content => exact ⟨content, Or.inr ⟨_, _, rfl, hd⟩⟩
  | @pair content =>
    refine ⟨content, Or.inl ?_⟩
    exact List.mem_append_right _ (List.mem_append_left _ List.mem_cons_self)

end Log

/-- The log texts are the texts that are read as logs: in them every element at the
top is a test case, each function in one has a name, and what is opened is closed.
Any other text stops a run for which it is to stand as an existing log. A text
without an element is a log text all the same, and the run takes it for an empty log. -/
theorem log_texts_are_read (text : List Char) :
    ((∃ log, Log.read text = .ok log) ↔ Log.IsLogText text) ∧
    (∀ ls stop, Lexes (Log.withoutMark text) ls stop → next? stop = .ok none →
      (∀ l ∈ ls, Log.IsData l) → Log.read text = .ok .empty) ∧
    ∀ (Memory : Type) (s : Setup) (x : Executor Memory) (files ready : Files) (memory : Memory)
      (path : String) (bytes : Text.Bytes), s.policy.fault? = none → s.existingLog = some path →
      s.makeLogDirectory files = .ok ready → ready.read path = .ok bytes →
      Text.decode bytes = .ok text →
        let started := Event.started s.invocation s.policy
        (¬ Log.IsLogText text → ∃ cause, supervise s x .willing files memory =
          ⟨[started], [], .fault (.existingLog ⟨some path, cause⟩), ready⟩) ∧
        ∀ log, Log.read text = .ok log → ∃ es, (supervise s x .willing files memory).events =
          started :: .existingLogParsed path log (s.classifyExisting log) :: es := by
  refine ⟨Log.read_ok_iff, fun _ _ => Log.read_of_no_tags, ?_⟩
  intro Memory s x files ready memory path bytes hv he hd hf ht
  have hl : Log.load ready path = (Log.read text).mapError (⟨some path, ·⟩) :=
    Log.load_eq_read hf ht
  refine ⟨fun hn => ?_, fun log hr => ?_⟩
  · rw [← Log.read_ok_iff] at hn
    cases hr : Log.read text with
    | ok log => exact absurd ⟨log, hr⟩ hn
    | error cause =>
      rw [hr] at hl
      refine ⟨cause, ?_⟩
      simp only [supervise, begin, hv, hd, he, hl, Listener.willing, Except.mapError]
      rfl
  · rw [hr] at hl
    simp only [supervise, begin, hv, hd, he, hl, Listener.willing, Except.mapError, publish_willing]
    exact ⟨_, rfl⟩

namespace Rehearsal

def strayText : String := "<TestCase/><Results/>"

def plainText : String := "text only"

def twoRoots : String := "<TestCase/><TestCase/>"

end Rehearsal

open Rehearsal in
theorem log_texts_are_read_behind_test_case :
    ∃ cause, supervise fromOldLog (.reading mended (fun _ files _ => files) fun _ => ⟨7⟩) .willing
      (withOldLog (Text.encode strayText.toList)) 0 =
        ⟨[.started fromOldLog.invocation fromOldLog.policy], [],
          .fault (.existingLog ⟨some "old", cause⟩),
          withOldLog (Text.encode strayText.toList)⟩ := by
  have hd := makeLogDirectory_fromOldLog (Text.encode strayText.toList)
  have ht : Text.decode (Text.encode strayText.toList) = .ok strayText.toList :=
    Text.decode_encode (by decide +kernel)
  have hr : (Log.read strayText.toList).toOption = none := by decide +kernel
  obtain ⟨hiff, -, hrun⟩ := log_texts_are_read strayText.toList
  have hn : ¬ Log.IsLogText strayText.toList := by
    rw [← hiff]
    rintro ⟨log, h⟩
    rw [h] at hr
    cases hr
  exact (hrun Nat fromOldLog _ _ _ 0 "old" _ rfl rfl hd (read_withOldLog _) ht).1 hn

open Rehearsal in
/-- A text without an element and a text with two are read as logs, though neither
has one element at the top; and a run takes the first for an empty log, a crash
that it meets with a whole rerun. -/
theorem rootless_text_is_read :
    Text.allBlank plainText.toList = false ∧ Log.read plainText.toList = .ok .empty ∧
      ¬ Log.HasSoleRoot plainText.toList ∧
      Log.read twoRoots.toList = .ok .empty ∧ ¬ Log.HasSoleRoot twoRoots.toList ∧
      (supervise fromOldLog (.reading mended (fun _ files _ => files) fun _ => ⟨7⟩) .willing
        (withOldLog (Text.encode plainText.toList)) 0).ending =
          .summary ⟨.pass, 1, 1, [], [], ⟨7⟩⟩ := by
  have hp : Lexes (Log.withoutMark plainText.toList) [.text plainText.toList] [] :=
    .of_lexemes? (by decide +kernel : lexemes? 1 _ = _)
  have ht : Lexes (Log.withoutMark twoRoots.toList)
      [.empty "TestCase".toList, .empty "TestCase".toList] [] :=
    .of_lexemes? (by decide +kernel : lexemes? 2 _ = _)
  have hr : Log.read plainText.toList = .ok .empty := toOption_eq_some.1 (by decide +kernel)
  have hr' : Log.read twoRoots.toList = .ok .empty := toOption_eq_some.1 (by decide +kernel)
  refine ⟨by decide, hr, ?_, hr', ?_, ?_⟩
  · intro h
    obtain ⟨content, h | ⟨before, after, h, -⟩⟩ := h.tag hp rfl
    · simp at h
    · have hm : Lexeme.empty content ∈ [Lexeme.text plainText.toList] := h ▸ by simp
      simp at hm
  · intro h
    obtain ⟨content, h | ⟨before, after, h, hd⟩⟩ := h.tag ht rfl
    · simp at h
    · cases before with
      | nil =>
        cases h
        exact hd (.empty "TestCase".toList) List.mem_cons_self
      | cons l before =>
        obtain ⟨rfl, -⟩ := List.cons.inj h
        exact hd (.empty "TestCase".toList) List.mem_cons_self
  · have hl : Log.load (withOldLog (Text.encode plainText.toList)) "old" = .ok .empty := by
      rw [load_withOldLog (by decide +kernel), hr]
      rfl
    have hv : fromOldLog.policy.fault? = none := rfl
    have he : fromOldLog.existingLog = some "old" := rfl
    have hd := makeLogDirectory_fromOldLog (Text.encode plainText.toList)
    rw [supervise_existing _ 0 hv he hd hl, proceed_within 1 rfl]
    rfl

end Retrial
