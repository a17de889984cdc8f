import Retrial.Proofs.LogNames
import Retrial.Transcript

/-!
# Style sequences

A terminal takes an escape, a bracket, numbers and the letter `m` for a style.
Color adds such sequences around whole pieces of text, with the padding inside
of them, and nothing else: once they are taken out again, a colored transcript
is the plain one, byte for byte, as long as nothing that an event carries holds
an escape of its own.
-/

set_option autoImplicit false

namespace Retrial

open Text

/-!
## The texts of an event
-/

def TestCase.texts (c : TestCase) : List String := c.function :: c.tag.toList

def CrashReason.texts : CrashReason → List String
  | .unreadableLog message => [message]
  | .fatalMessage function message => [function, message]
  | .noRerunFailure function => [function]
  | _ => []

def Classification.texts : Classification → List String
  | .functionsFailed failures => failures.flatMap TestCase.texts
  | .crashed reason => reason.texts
  | _ => []

def RerunReason.texts : RerunReason → List String
  | .crashed reason => reason.texts
  | .executableFailed _ => []

def AttemptKind.texts (k : AttemptKind) : List String := k.selection.toList.flatMap TestCase.texts

def Event.texts : Event → List String
  | .started invocation _ => [invocation.logBaseName.getD invocation.command.program]
  | .existingLogParsed path _ c => path :: c.texts
  | .attemptStarted q => q.kind.texts ++ q.args ++ q.env.flatMap fun p => [p.1, p.2]
  | .attemptFinished _ _ c => c.texts
  | .wholeRerunScheduled reason _ => reason.texts
  | .recovered testCase _ => testCase.texts
  | .confirmed testCase _ => testCase.texts
  | .finished _ failing recovering _ _ => (failing ++ recovering).flatMap TestCase.texts

def Event.output : Event → Bytes
  | .attemptFinished _ outcome _ => outcome.output
  | _ => []

namespace Transcript

/-!
## Taking styles out
-/

def escapeByte : UInt8 := 0x1b

def isParameter (b : UInt8) : Bool := (0x30 ≤ b && b ≤ 0x39) || b == 0x3b

def afterStyle? (bs : Bytes) : Option Bytes :=
  if bs.take 2 == [escapeByte, 0x5b] then
    match (bs.drop 2).dropWhile isParameter with
    | [] => none
    | b :: rest => if b == 0x6d then some rest else none
  else none

theorem length_lt_of_afterStyle? {bs rest : Bytes} (h : afterStyle? bs = some rest) :
    rest.length < bs.length := by
  unfold afterStyle? at h
  split at h
  · have hl := (List.dropWhile_sublist isParameter (l := bs.drop 2)).length_le
    split at h
    · cases h
    · next b rest' hd =>
      rw [hd, List.length_cons, List.length_drop] at hl
      split at h
      · cases h
        omega
      · cases h
  · cases h

def eraseStyles (bs : Bytes) : Bytes :=
  match _h : afterStyle? bs with
  | some rest => eraseStyles rest
  | none =>
    match bs with
    | [] => []
    | b :: bs => b :: eraseStyles bs
  termination_by bs.length
  decreasing_by
    · exact length_lt_of_afterStyle? _h
    · simp

section Erasing

variable {b : UInt8} {bs rest : Bytes}

theorem eraseStyles_nil : eraseStyles [] = [] := by
  rw [eraseStyles]
  rfl

theorem eraseStyles_of_style (h : afterStyle? bs = some rest) :
    eraseStyles bs = eraseStyles rest := by
  rw [eraseStyles]
  split
  · next hr => rw [Option.some.inj (h.symm.trans hr)]
  · next hn => cases h.symm.trans hn

theorem eraseStyles_cons (hb : b ≠ escapeByte) : eraseStyles (b :: bs) = b :: eraseStyles bs := by
  have hn : afterStyle? (b :: bs) = none := by
    unfold afterStyle?
    cases bs <;> simp [hb]
  rw [eraseStyles]
  split
  · next hr => cases hn.symm.trans hr
  · rfl

theorem eraseStyles_append (h : escapeByte ∉ bs) :
    eraseStyles (bs ++ rest) = bs ++ eraseStyles rest := by
  induction bs with
  | nil => rfl
  | cons b bs ih =>
    have hb : b ≠ escapeByte := fun hb => h (hb ▸ List.mem_cons_self)
    rw [List.cons_append, eraseStyles_cons hb, ih fun hs => h (List.mem_cons_of_mem _ hs),
      List.cons_append]

theorem eraseStyles_role (role : Role) :
    eraseStyles (encodeString role.sequence ++ rest) = eraseStyles rest := by
  apply eraseStyles_of_style
  cases role <;> rfl

theorem eraseStyles_reset : eraseStyles (encodeString resetSequence ++ rest) = eraseStyles rest :=
  eraseStyles_of_style rfl

end Erasing

/-!
## Texts without an escape
-/

def EscapeFree (text : String) : Prop := '\x1b' ∉ text.toList

instance (text : String) : Decidable (EscapeFree text) :=
  inferInstanceAs (Decidable ('\x1b' ∉ text.toList))

/-- Only an escape is encoded with the byte of one: the bytes of a longer
character all have their upper bit set. -/
theorem eq_escape_of_mem {c : Char} (h : escapeByte ∈ String.utf8EncodeChar c) : c = '\x1b' := by
  have hne : ∀ n, 128 ≤ n → n < 256 → escapeByte ≠ UInt8.ofNat n := by
    intro n hm hlt he
    have hn := congrArg UInt8.toNat he
    rw [UInt8.toNat_ofNat_of_lt' hlt] at hn
    exact absurd (hn ▸ hm) (by decide)
  unfold String.utf8EncodeChar at h
  dsimp only at h
  split at h
  · next h7 =>
    have hc := congrArg UInt8.toNat (List.mem_singleton.1 h)
    rw [UInt8.toNat_ofNat_of_lt' (Nat.lt_of_le_of_lt h7 (by decide))] at hc
    exact Char.ext (UInt32.toNat_inj.1 hc.symm)
  · exfalso
    repeat' split at h
    all_goals
      simp only [List.mem_cons, List.not_mem_nil, or_false] at h
      grind

theorem EscapeFree.encode {text : String} (h : EscapeFree text) :
    escapeByte ∉ encodeString text := by
  intro hm
  obtain ⟨c, hc, hm⟩ := List.mem_flatMap.1 hm
  exact h (eq_escape_of_mem hm ▸ hc)

section Texts

variable {s t : String}

@[simp] theorem escapeFree_append : EscapeFree (s ++ t) ↔ EscapeFree s ∧ EscapeFree t := by
  simp [EscapeFree]

@[simp] theorem escapeFree_repr (n : Nat) : EscapeFree n.repr := by
  intro h
  rw [Nat.toList_repr] at h
  exact absurd (Nat.isDigit_of_mem_toDigits (by decide) (by decide) h) (by decide)

@[simp] theorem escapeFree_intRepr (n : Int) : EscapeFree n.repr := by
  cases n with
  | ofNat n => exact escapeFree_repr n
  | negSucc n => exact escapeFree_append.2 ⟨by decide, escapeFree_repr _⟩

theorem escapeFree_replicate (n : Nat) {c : Char} (hc : c ≠ '\x1b') :
    EscapeFree (String.ofList (List.replicate n c)) := by
  simp [EscapeFree, hc.symm]

@[simp] theorem escapeFree_column : EscapeFree (column t) ↔ EscapeFree t := by
  simp [column, escapeFree_replicate]

@[simp] theorem escapeFree_plural (n : Nat) : EscapeFree (plural n t) ↔ EscapeFree t := by
  unfold plural
  split
  · rfl
  · simp +decide

theorem escapeFree_secondsText (d : Duration) : EscapeFree d.secondsText := by
  unfold Duration.secondsText
  split <;> simp +decide [Number.fixedThree, escapeFree_replicate]

@[simp] theorem escapeFree_bracketed (d : Duration) : EscapeFree d.bracketed := by
  simp +decide [Duration.bracketed, escapeFree_secondsText, escapeFree_replicate]

theorem escapeFree_testCase {c : TestCase} (h : ∀ t ∈ c.texts, EscapeFree t) :
    EscapeFree c.text := by
  have hf : EscapeFree c.function := h _ List.mem_cons_self
  unfold TestCase.text
  split
  · exact hf
  · next tag ht =>
    have htag : EscapeFree tag := h _ (List.mem_cons_of_mem _ (by simp [ht]))
    simp +decide [hf, htag]

theorem escapeFree_of_signalName? {signal : Int} {name : String}
    (h : Exit.signalName? signal = some name) : EscapeFree name := by
  obtain ⟨l, l', hl, -⟩ := List.lookup_eq_some_iff.1 h
  have hm : (signal, name) ∈ l ++ (signal, name) :: l' := List.mem_append_right _ List.mem_cons_self
  rw [← hl] at hm
  exact (show ∀ p ∈ _, EscapeFree p.2 by decide) _ hm

@[simp] theorem escapeFree_exit (x : Exit) : EscapeFree x.text := by
  unfold Exit.text
  split
  · simp +decide
  · split
    · next name hn => simp +decide [escapeFree_of_signalName? hn]
    · simp +decide
  · simp +decide
  · decide
  · decide

theorem escapeFree_crashReason {r : CrashReason} (h : ∀ t ∈ r.texts, EscapeFree t) :
    EscapeFree r.text := by
  unfold CrashReason.text
  split <;> simp_all +decide [CrashReason.texts]

theorem escape_notMem_quoteBody {cs : List Char} (h : '\x1b' ∉ cs) : '\x1b' ∉ quoteBody cs := by
  induction cs with
  | nil => exact h
  | cons c cs ih =>
    rw [List.mem_cons, not_or] at h
    unfold quoteBody
    split <;> simp [h.1, ih h.2]

theorem escapeFree_quoteArg (h : EscapeFree t) : EscapeFree (quoteArg t) := by
  unfold quoteArg
  split
  · decide
  · split
    · have hb : EscapeFree (String.ofList (quoteBody t.toList)) := by
        simpa [EscapeFree] using escape_notMem_quoteBody h
      simp +decide [hb]
    · exact h

theorem eq_or_mem_of_mem_intersperse {α : Type} {x a : α} {xs : List α}
    (h : x ∈ xs.intersperse a) : x = a ∨ x ∈ xs := by
  induction xs with
  | nil => cases h
  | cons y ys ih =>
    cases ys with
    | nil => exact .inr h
    | cons z zs =>
      rw [List.intersperse_cons_cons, List.mem_cons, List.mem_cons] at h
      obtain rfl | rfl | h := h
      · exact .inr List.mem_cons_self
      · exact .inl rfl
      · exact (ih h).imp_right (List.mem_cons_of_mem _)

theorem escapeFree_commandLine {args : List String} (h : ∀ a ∈ args, EscapeFree a) :
    EscapeFree (commandLine args) := by
  intro hm
  rw [commandLine, String.toList_intercalate] at hm
  obtain ⟨cs, hcs, hm⟩ := List.mem_flatten.1 hm
  obtain rfl | hcs := eq_or_mem_of_mem_intersperse hcs
  · exact absurd hm (by decide)
  · rw [List.map_map] at hcs
    obtain ⟨a, ha, rfl⟩ := List.mem_map.1 hcs
    exact escapeFree_quoteArg (h a ha) hm

end Texts

/-!
## Pieces without an escape
-/

def Piece.EscapeFree : Piece → Prop
  | .plain text => Transcript.EscapeFree text
  | .styled _ text => Transcript.EscapeFree text
  | .raw bytes => escapeByte ∉ bytes

theorem eraseStyles_piece {p : Piece} (h : p.EscapeFree) (rest : Bytes) :
    eraseStyles (p.bytes true ++ rest) = p.bytes false ++ eraseStyles rest := by
  cases p with
  | plain text => exact eraseStyles_append h.encode
  | raw bytes => exact eraseStyles_append h
  | styled role text =>
    calc eraseStyles (encodeString role.sequence ++ encodeString text ++
          encodeString resetSequence ++ rest)
      _ = eraseStyles (encodeString text ++ (encodeString resetSequence ++ rest)) := by
        rw [List.append_assoc, List.append_assoc, eraseStyles_role]
      _ = encodeString text ++ eraseStyles rest := by
        rw [eraseStyles_append (EscapeFree.encode h), eraseStyles_reset]

def AllEscapeFree (ps : List Piece) : Prop := ∀ p ∈ ps, p.EscapeFree

theorem eraseStyles_bytes {ps : List Piece} (h : AllEscapeFree ps) (rest : Bytes) :
    eraseStyles (bytes true ps ++ rest) = bytes false ps ++ eraseStyles rest := by
  induction ps with
  | nil => rfl
  | cons p ps ih =>
    obtain ⟨hp, hps⟩ := List.forall_mem_cons.1 h
    calc eraseStyles (bytes true (p :: ps) ++ rest)
      _ = eraseStyles (p.bytes true ++ (bytes true ps ++ rest)) := by
        rw [bytes, List.flatMap_cons, List.append_assoc, bytes]
      _ = p.bytes false ++ (bytes false ps ++ eraseStyles rest) := by
        rw [eraseStyles_piece hp, ih hps]
      _ = bytes false (p :: ps) ++ eraseStyles rest := by
        rw [← List.append_assoc, bytes, bytes, List.flatMap_cons]

section Pieces

variable {ps qs : List Piece} {t : String}

@[simp] theorem allEscapeFree_nil : AllEscapeFree [] := List.forall_mem_nil _

@[simp] theorem allEscapeFree_cons {p : Piece} :
    AllEscapeFree (p :: ps) ↔ p.EscapeFree ∧ AllEscapeFree ps := List.forall_mem_cons

@[simp] theorem allEscapeFree_append :
    AllEscapeFree (ps ++ qs) ↔ AllEscapeFree ps ∧ AllEscapeFree qs := List.forall_mem_append

@[simp] theorem escapeFree_plain : (Piece.plain t).EscapeFree ↔ EscapeFree t := Iff.rfl

@[simp] theorem escapeFree_styled (role : Role) : (Piece.styled role t).EscapeFree ↔ EscapeFree t :=
  Iff.rfl

@[simp] theorem escapeFree_raw {bs : Bytes} : (Piece.raw bs).EscapeFree ↔ escapeByte ∉ bs := Iff.rfl

@[simp] theorem escapeFree_line : line.EscapeFree :=
  escapeFree_plain.2 (by decide)

@[simp] theorem escapeFree_count (n : Nat) : (count n).EscapeFree := escapeFree_repr n

@[simp] theorem escapeFree_label : (label t).EscapeFree ↔ EscapeFree t := by
  simp +decide [label]

@[simp] theorem allEscapeFree_status (role : Role) :
    AllEscapeFree (status role t) ↔ EscapeFree t := by
  simp +decide [status]

theorem escapeFree_case {c : TestCase} (h : ∀ t ∈ c.texts, EscapeFree t) : (case c).EscapeFree :=
  escapeFree_testCase h

theorem allEscapeFree_cases {cs : List TestCase}
    (h : ∀ t ∈ cs.flatMap TestCase.texts, EscapeFree t) : AllEscapeFree (cases cs) := by
  intro p hp
  obtain rfl | hp := eq_or_mem_of_mem_intersperse hp
  · exact escapeFree_plain.2 (by decide)
  · obtain ⟨c, hc, rfl⟩ := List.mem_map.1 hp
    exact escapeFree_case fun t ht => h t (List.mem_flatMap_of_mem hc ht)

theorem allEscapeFree_classification {c : Classification} (h : ∀ t ∈ c.texts, EscapeFree t)
    (timing : Option (Nat × Duration)) : AllEscapeFree (classification timing c) := by
  have hs : AllEscapeFree (classificationStatus c) := by
    cases c <;> simp +decide [classificationStatus]
  have ht : AllEscapeFree (classificationText c) := by
    cases c with
    | passed => simp +decide [classificationText]
    | functionsFailed failures =>
      simp +decide [classificationText, allEscapeFree_cases h]
    | executableFailed code => simp +decide [classificationText]
    | crashed reason => simp [classificationText, escapeFree_crashReason h]
  cases timing <;> simp +decide [classification, hs, ht]

theorem allEscapeFree_caseList {cs : List TestCase}
    (h : ∀ t ∈ cs.flatMap TestCase.texts, EscapeFree t) (hw : EscapeFree t) :
    AllEscapeFree (caseList t cs) := by
  unfold caseList
  split
  · simp
  · simp [hw, allEscapeFree_cases h]

end Pieces

/-!
## Events without an escape
-/

end Transcript

structure Event.EscapeFree (e : Event) : Prop where
  texts : ∀ t ∈ e.texts, Transcript.EscapeFree t
  output : Transcript.escapeByte ∉ e.output

namespace Transcript

theorem allEscapeFree_started {i : Invocation} (p : Policy)
    (h : EscapeFree (i.logBaseName.getD i.command.program)) : AllEscapeFree (started i p) := by
  unfold started
  split <;> simp +decide [h]

theorem allEscapeFree_attemptText {k : AttemptKind} (h : ∀ t ∈ k.texts, EscapeFree t) (n : Nat) :
    AllEscapeFree (attemptText n k) := by
  cases k with
  | fullRun => simp +decide [attemptText]
  | rerun c ticket =>
    have hc : (case c).EscapeFree :=
      escapeFree_case fun t ht => h t (by simpa [AttemptKind.texts, AttemptKind.selection] using ht)
    simp +decide [attemptText, hc]

theorem allEscapeFree_attemptStatus (k : AttemptKind) : AllEscapeFree (attemptStatus k) := by
  cases k with
  | fullRun => simp +decide [attemptStatus]
  | rerun c ticket =>
    have hw : EscapeFree (if ticket.verbose then "VERBOSE RUN" else "RERUNNING") := by
      split <;> decide
    simpa [attemptStatus] using hw

theorem allEscapeFree_commandText {q : Request} (ha : ∀ a ∈ q.args, EscapeFree a)
    (he : ∀ p ∈ q.env, EscapeFree p.1 ∧ EscapeFree p.2) : AllEscapeFree (commandText q) := by
  have hv : AllEscapeFree
      (q.env.flatMap fun p => [label "env", .plain (p.1 ++ "=" ++ p.2), line]) := by
    intro x hx
    obtain ⟨p, hp, hx⟩ := List.mem_flatMap.1 hx
    have hl : AllEscapeFree [label "env", .plain (p.1 ++ "=" ++ p.2), line] := by
      simp +decide [he p hp]
    exact hl x hx
  simp +decide [commandText, escapeFree_commandLine ha, hv]

theorem allEscapeFree_outputText {output : Bytes} (h : escapeByte ∉ output) :
    AllEscapeFree (outputText output) := by
  unfold outputText
  split <;> simp [h]

theorem allEscapeFree_wholeRerun {reason : RerunReason} (h : ∀ t ∈ reason.texts, EscapeFree t)
    (left : Nat) : AllEscapeFree (wholeRerun reason left) := by
  cases reason with
  | crashed reason => simp +decide [wholeRerun, escapeFree_crashReason h]
  | executableFailed code => simp +decide [wholeRerun]

theorem allEscapeFree_confirmedText {c : TestCase} (h : ∀ t ∈ c.texts, EscapeFree t) (n : Nat) :
    AllEscapeFree (confirmedText c n) := by
  unfold confirmedText
  split <;> simp +decide [escapeFree_case h]

theorem allEscapeFree_summary {failing recovering : List TestCase}
    (hf : ∀ t ∈ failing.flatMap TestCase.texts, EscapeFree t)
    (hr : ∀ t ∈ recovering.flatMap TestCase.texts, EscapeFree t) (v : Verdict) (n : Nat)
    (d : Duration) :
    AllEscapeFree (summary v failing recovering n d) := by
  have hv : EscapeFree v.text := by cases v <;> decide
  simp +decide [summary, allEscapeFree_caseList hf, allEscapeFree_caseList hr, hv]

theorem allEscapeFree_pieces {e : Event} (h : e.EscapeFree) (verbose : Bool) :
    AllEscapeFree (pieces verbose e) := by
  have ht := h.texts
  cases e with
  | started i p => exact allEscapeFree_started p (ht _ List.mem_cons_self)
  | existingLogParsed path log c =>
    obtain ⟨hp, hc⟩ := List.forall_mem_cons.1 ht
    simp +decide [pieces, hp, allEscapeFree_classification hc]
  | attemptStarted q =>
    simp only [Event.texts, List.forall_mem_append] at ht
    have hv : AllEscapeFree (commandText q) := by
      refine allEscapeFree_commandText ht.1.2 fun p hp => ?_
      have hp := fun t ht' => ht.2 t (List.mem_flatMap_of_mem hp ht')
      simpa using hp
    simp only [pieces, allEscapeFree_append, allEscapeFree_attemptStatus,
      allEscapeFree_attemptText ht.1.1, true_and]
    split
    · exact hv
    · exact allEscapeFree_nil
  | attemptFinished q outcome c =>
    have ho : AllEscapeFree (outputText outcome.output) := allEscapeFree_outputText h.output
    simp [pieces, ho, allEscapeFree_classification ht]
  | wholeRerunScheduled reason left => exact allEscapeFree_wholeRerun ht left
  | recovered c n => simp +decide [pieces, escapeFree_case ht]
  | confirmed c n => exact allEscapeFree_confirmedText ht n
  | finished v failing recovering n d =>
    simp only [Event.texts, List.flatMap_append, List.forall_mem_append] at ht
    exact allEscapeFree_summary ht.1 ht.2 v n d

theorem eraseStyles_render {e : Event} (h : e.EscapeFree) (verbose : Bool) (rest : Bytes) :
    eraseStyles (render ⟨true, verbose⟩ e ++ rest) =
      render ⟨false, verbose⟩ e ++ eraseStyles rest :=
  eraseStyles_bytes (allEscapeFree_pieces h verbose) rest

theorem eraseStyles_transcript {events : List Event} (h : ∀ e ∈ events, e.EscapeFree)
    (verbose : Bool) :
    eraseStyles (events.flatMap (render ⟨true, verbose⟩)) =
      events.flatMap (render ⟨false, verbose⟩) := by
  induction events with
  | nil => exact eraseStyles_nil
  | cons e es ih =>
    obtain ⟨he, hes⟩ := List.forall_mem_cons.1 h
    rw [List.flatMap_cons, eraseStyles_render he, ih hes, List.flatMap_cons]

theorem encodeString_column (word : String) :
    encodeString (column word) = List.replicate (12 - word.length) 0x20 ++ encodeString word := by
  have hs : ∀ n, encode (List.replicate n ' ') = List.replicate n 0x20 := by
    intro n
    induction n with
    | zero => rfl
    | succ n ih =>
      rw [List.replicate_succ, encode_cons_of_lt (by decide), ih, List.replicate_succ]
      rfl
  rw [column, encodeString_append, encodeString, String.toList_ofList, hs]

theorem eraseStyles_status (role : Role) {word : String} (h : EscapeFree word) :
    eraseStyles (bytes true (status role word)) =
      List.replicate (12 - word.length) 0x20 ++ encodeString word ++ [0x20] := by
  have he := eraseStyles_bytes ((allEscapeFree_status role).2 h) []
  have hb : encodeString " " = [0x20] := rfl
  rw [List.append_nil, eraseStyles_nil, List.append_nil] at he
  rw [he, ← encodeString_column, ← hb]
  simp [bytes, status, Piece.bytes]

/-- Without its styles a colored event reads as the plain one does, and so does
a whole transcript; a status word stands at the right of its twelve columns. -/
theorem color_adds_only_styles (verbose : Bool) :
    (∀ e : Event, e.EscapeFree →
      eraseStyles (render ⟨true, verbose⟩ e) = render ⟨false, verbose⟩ e) ∧
    (∀ events : List Event, (∀ e ∈ events, e.EscapeFree) →
      eraseStyles (events.flatMap (render ⟨true, verbose⟩)) =
        events.flatMap (render ⟨false, verbose⟩)) ∧
    ∀ (role : Role) (word : String), EscapeFree word →
      eraseStyles (bytes true (status role word)) =
        List.replicate (12 - word.length) 0x20 ++ encodeString word ++ [0x20] := by
  refine ⟨fun e he => ?_, fun events he => eraseStyles_transcript he verbose,
    fun role word hw => eraseStyles_status role hw⟩
  have hr := eraseStyles_render he verbose []
  rwa [List.append_nil, eraseStyles_nil, List.append_nil] at hr

def sampleFinish : Event :=
  .attemptFinished ⟨2, .fullRun, ["./t"], [], none, some "t.xml", none⟩
    ⟨.exited 2, .missing, [0x46, 0xff], ⟨1500000000⟩⟩
    (.functionsFailed [⟨"a", none⟩, ⟨"b", some "row 1"⟩])

theorem color_adds_only_styles_to_failures :
    sampleFinish.EscapeFree ∧
    eraseStyles (render ⟨true, true⟩ sampleFinish) = render ⟨false, true⟩ sampleFinish ∧
    eraseStyles ([sampleFinish, sampleFinish].flatMap (render ⟨true, true⟩)) =
      [sampleFinish, sampleFinish].flatMap (render ⟨false, true⟩) ∧
    EscapeFree "FAIL" ∧
    eraseStyles (bytes true (status .fail "FAIL")) =
      List.replicate 8 0x20 ++ encodeString "FAIL" ++ [0x20] :=
  have h : sampleFinish.EscapeFree := ⟨by decide, by decide⟩
  have hs : ∀ e ∈ [sampleFinish, sampleFinish], e.EscapeFree := by simp [h]
  have hw : EscapeFree "FAIL" := by decide
  ⟨h, (color_adds_only_styles true).1 sampleFinish h, (color_adds_only_styles true).2.1 _ hs, hw,
    (color_adds_only_styles true).2.2 .fail "FAIL" hw⟩

end Transcript

end Retrial
