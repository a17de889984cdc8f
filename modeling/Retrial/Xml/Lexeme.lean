import Retrial.Xml.Fault

/-!
# Lexemes of a markup text

What stands next in a text: character data up to the next tag, a tag, a CDATA
section, or an aside (comment, processing instruction, declaration, document
type). Space around character data is dropped, and data that is only space is
no lexeme. Tags are cut out by their quotes and the closing angle bracket; what
is inside one is read later, and only where it is asked for.
-/

set_option autoImplicit false

namespace Retrial.Xml

def isSpace (c : Char) : Bool := c == ' ' || c == '\t' || c == '\n' || c == '\r'

def trimEnd (cs : List Char) : List Char := (cs.reverse.dropWhile isSpace).reverse

inductive Lexeme
  | text (raw : List Char)
  | opening (content : List Char)
  | empty (content : List Char)
  | closing (name : List Char)
  | cdata (text : List Char)
  | aside
  deriving DecidableEq, Repr

def splitAt? (mark : List Char) : List Char → Option (List Char × List Char)
  | [] => if mark.isEmpty then some ([], []) else none
  | c :: cs =>
    if mark.isPrefixOf (c :: cs) then some ([], (c :: cs).drop mark.length)
    else (splitAt? mark cs).map fun (before, after) => (c :: before, after)

/-- The inside of a tag: everything up to an angle bracket outside quotes. -/
def tagBody? : Option Char → List Char → Option (List Char × List Char)
  | _, [] => none
  | none, c :: cs =>
    if c == '>' then some ([], cs)
    else
      (tagBody? (if c == '\'' || c == '"' then some c else none) cs).map
        fun (body, rest) => (c :: body, rest)
  | some quote, c :: cs =>
    (tagBody? (if c == quote then none else some quote) cs).map
      fun (body, rest) => (c :: body, rest)

/-- The inside of a document type declaration: up to the angle bracket that
closes as many as were opened. -/
def doctypeBody? : Nat → List Char → Option (List Char × List Char)
  | _, [] => none
  | depth, c :: cs =>
    if c == '>' && depth == 0 then some ([], cs)
    else
      let depth := if c == '<' then depth + 1 else if c == '>' then depth - 1 else depth
      (doctypeBody? depth cs).map fun (body, rest) => (c :: body, rest)

def startsWithAnyCase (word cs : List Char) : Bool :=
  (cs.take word.length).map Char.toLower == word.map Char.toLower

/-- The name that a closing tag gives: space after it does not count, unless
there is nothing else. -/
def closingName (content : List Char) : List Char :=
  if content.all isSpace then content else trimEnd content

def openingName (content : List Char) : List Char := content.takeWhile (fun c => !isSpace c)

def tagLexeme (content : List Char) : Lexeme :=
  match content.reverse with
  | '/' :: rest => .empty rest.reverse
  | _ => .opening content

def comment (cs : List Char) : Except SyntaxFault (Lexeme × List Char) :=
  match cs with
  | '-' :: rest =>
    match splitAt? ['-', '-', '>'] rest with
    | some (_, after) => .ok (.aside, after)
    | none => .error .unclosedComment
  | _ => .error .unclosedComment

def cdataSection (cs : List Char) : Except SyntaxFault (Lexeme × List Char) :=
  if "CDATA[".toList.isPrefixOf cs then
    match splitAt? [']', ']', '>'] (cs.drop 6) with
    | some (text, after) => .ok (.cdata text, after)
    | none => .error .unclosedCdata
  else .error .unclosedCdata

def doctype (cs : List Char) : Except Fault (Lexeme × List Char) :=
  match doctypeBody? 0 cs with
  | none => .error (.syntaxFault .unclosedDoctype)
  | some (body, after) =>
    if !startsWithAnyCase "DOCTYPE".toList body then .error (.syntaxFault .unclosedDoctype)
    else if (body.drop 7).all isSpace then .error (.form .unnamedDoctype)
    else .ok (.aside, after)

def instruction (cs : List Char) : Except SyntaxFault (Lexeme × List Char) :=
  match cs with
  | '>' :: _ => .error .unclosedInstruction
  | _ =>
    match splitAt? ['?', '>'] cs with
    | some (_, after) => .ok (.aside, after)
    | none => .error .unclosedInstruction

def markup (cs : List Char) : Except Fault (Lexeme × List Char) :=
  match cs with
  | '!' :: '[' :: rest => (cdataSection rest).mapError .syntaxFault
  | '!' :: '-' :: rest => (comment rest).mapError .syntaxFault
  | '!' :: 'D' :: rest => doctype ('D' :: rest)
  | '!' :: 'd' :: rest => doctype ('d' :: rest)
  | '!' :: _ => .error (.syntaxFault .unknownMarkup)
  | '?' :: rest => (instruction rest).mapError .syntaxFault
  | '/' :: rest =>
    match tagBody? none rest with
    | some (content, after) => .ok (.closing (closingName content), after)
    | none => .error (.syntaxFault .unclosedTag)
  | _ =>
    match tagBody? none cs with
    | some (content, after) => .ok (tagLexeme content, after)
    | none => .error (.syntaxFault .unclosedTag)

def next? (cs : List Char) : Except Fault (Option (Lexeme × List Char)) :=
  match cs.dropWhile isSpace with
  | [] => .ok none
  | '<' :: rest => (markup rest).map some
  | c :: rest =>
    let data := (c :: rest).takeWhile (fun c => c != '<')
    .ok (some (.text (trimEnd data), rest.dropWhile (fun c => c != '<')))

theorem splitAt?_length {mark : List Char} {cs before after : List Char}
    (h : splitAt? mark cs = some (before, after)) : after.length ≤ cs.length := by
  induction cs generalizing before with
  | nil => simp [splitAt?] at h; simp [← h.2.2]
  | cons c cs ih =>
    simp only [splitAt?] at h
    split at h
    · simp only [Option.some.injEq, Prod.mk.injEq] at h
      rw [← h.2, List.length_drop]
      omega
    · cases e : splitAt? mark cs with
      | none => simp [e] at h
      | some p =>
        simp only [e, Option.map_some, Option.some.injEq, Prod.mk.injEq] at h
        have := @ih p.1 (by rw [e, ← h.2])
        simp only [List.length_cons]
        omega

theorem tagBody?_length {quote : Option Char} {cs body rest : List Char}
    (h : tagBody? quote cs = some (body, rest)) : rest.length < cs.length := by
  induction cs generalizing quote body with
  | nil => cases quote <;> simp [tagBody?] at h
  | cons c cs ih =>
    cases quote with
    | none =>
      simp only [tagBody?] at h
      split at h
      · simp only [Option.some.injEq, Prod.mk.injEq] at h
        simp [← h.2]
      · simp only [Option.map_eq_some_iff, Prod.mk.injEq] at h
        obtain ⟨p, e, _, rfl⟩ := h
        have := ih e
        simp only [List.length_cons]
        omega
    | some q =>
      simp only [tagBody?, Option.map_eq_some_iff, Prod.mk.injEq] at h
      obtain ⟨p, e, _, rfl⟩ := h
      have := ih e
      simp only [List.length_cons]
      omega

theorem doctypeBody?_length {depth : Nat} {cs body rest : List Char}
    (h : doctypeBody? depth cs = some (body, rest)) : rest.length < cs.length := by
  induction cs generalizing depth body with
  | nil => simp [doctypeBody?] at h
  | cons c cs ih =>
    simp only [doctypeBody?] at h
    split at h
    · simp only [Option.some.injEq, Prod.mk.injEq] at h
      simp [← h.2]
    · simp only [Option.map_eq_some_iff, Prod.mk.injEq] at h
      obtain ⟨p, e, _, rfl⟩ := h
      have := ih e
      simp only [List.length_cons]
      omega

theorem comment_length {cs rest : List Char} {l : Lexeme}
    (h : comment cs = .ok (l, rest)) : rest.length ≤ cs.length := by
  unfold comment at h
  split at h
  · split at h
    · next e =>
      simp only [Except.ok.injEq, Prod.mk.injEq] at h
      have := splitAt?_length e
      simp only [← h.2, List.length_cons]
      omega
    · simp at h
  · simp at h

theorem cdataSection_length {cs rest : List Char} {l : Lexeme}
    (h : cdataSection cs = .ok (l, rest)) : rest.length ≤ cs.length := by
  unfold cdataSection at h
  split at h
  · split at h
    · next e =>
      simp only [Except.ok.injEq, Prod.mk.injEq] at h
      have := splitAt?_length e
      rw [List.length_drop] at this
      simp only [← h.2]
      omega
    · simp at h
  · simp at h

theorem instruction_length {cs rest : List Char} {l : Lexeme}
    (h : instruction cs = .ok (l, rest)) : rest.length ≤ cs.length := by
  unfold instruction at h
  split at h
  · simp at h
  · split at h
    · next e =>
      simp only [Except.ok.injEq, Prod.mk.injEq] at h
      have := splitAt?_length e
      simp only [← h.2]
      omega
    · simp at h

theorem doctype_length {cs rest : List Char} {l : Lexeme}
    (h : doctype cs = .ok (l, rest)) : rest.length < cs.length := by
  unfold doctype at h
  split at h
  · simp at h
  · next e =>
    split at h
    · simp at h
    · split at h
      · simp at h
      · simp only [Except.ok.injEq, Prod.mk.injEq] at h
        have := doctypeBody?_length e
        simp only [← h.2]
        omega

theorem ok_of_mapError_ok {α β ε : Type} {f : ε → β} {x : Except ε α} {a : α}
    (h : x.mapError f = .ok a) : x = .ok a := by
  cases x with
  | error e => nomatch h
  | ok b => exact congrArg _ (Except.ok.inj h)

theorem markup_length {cs rest : List Char} {l : Lexeme}
    (h : markup cs = .ok (l, rest)) : rest.length ≤ cs.length := by
  unfold markup at h
  split at h
  · have := cdataSection_length (ok_of_mapError_ok h)
    simp only [List.length_cons]; omega
  · have := comment_length (ok_of_mapError_ok h)
    simp only [List.length_cons]; omega
  · have := doctype_length h
    simp only [List.length_cons] at *; omega
  · have := doctype_length h
    simp only [List.length_cons] at *; omega
  · simp at h
  · have := instruction_length (ok_of_mapError_ok h)
    simp only [List.length_cons]; omega
  · split at h
    · next e =>
      simp only [Except.ok.injEq, Prod.mk.injEq] at h
      have := tagBody?_length e
      simp only [← h.2, List.length_cons]; omega
    · simp at h
  · split at h
    · next e =>
      simp only [Except.ok.injEq, Prod.mk.injEq] at h
      have := tagBody?_length e
      simp only [← h.2]; omega
    · simp at h

theorem length_dropWhile_le (p : Char → Bool) (cs : List Char) :
    (cs.dropWhile p).length ≤ cs.length := by
  induction cs with
  | nil => simp
  | cons c cs ih =>
    rw [List.dropWhile_cons]
    split
    · simp only [List.length_cons]; omega
    · simp

theorem next?_length {cs rest : List Char} {l : Lexeme}
    (h : next? cs = .ok (some (l, rest))) : rest.length < cs.length := by
  have hd := length_dropWhile_le isSpace cs
  unfold next? at h
  split at h
  · simp at h
  · next tail e =>
    rw [e, List.length_cons] at hd
    cases hm : markup tail with
    | error f => simp [hm, Except.map] at h
    | ok p =>
      simp only [hm, Except.map, Except.ok.injEq, Option.some.injEq] at h
      subst h
      have := markup_length hm
      omega
  · next c tail _ e =>
    rw [e, List.length_cons] at hd
    simp only [Except.ok.injEq, Option.some.injEq, Prod.mk.injEq] at h
    have := length_dropWhile_le (fun c => c != '<') tail
    rw [← h.2]
    omega

end Retrial.Xml
