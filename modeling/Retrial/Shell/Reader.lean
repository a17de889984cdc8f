import Retrial.Shell.Token

/-!
# Reading scripts

The script of a child is read from its text by descent, one complete command at a
time, so that what stands before a fault can be run. What a character means
depends on the quotes around it; a word of the language itself is only one where a
command may begin. The body of a here document is taken from the lines below the
one that announces it. An alias puts its text in front of what is still to be
read, and is not expanded again inside of that text.
-/

set_option autoImplicit false

namespace Retrial.Shell

structure Awaited where
  number : Nat
  mark : List Char
  dropsTabs : Bool
  literal : Bool
  deriving DecidableEq, Repr

structure Source where
  rest : List Char
  line : Nat
  again : Option Token
  awaited : List Awaited
  documents : Documents
  counter : Nat
  aliases : List (String × String)
  /-- The aliases inside of whose text the reading stands. -/
  expanding : List String

abbrev Reading := StateT Source (Except SyntaxFault)

def aliasEnd : Char := '\u0100'

def refuse {α : Type} (message : String) : Reading α := fun s => .error ⟨s.line, message⟩

def unexpected {α : Type} (t : Token) (wanted : Option String) : Reading α :=
  refuse (t.describe ++ " unexpected" ++
    match wanted with
    | some token => " (expecting " ++ token ++ ")"
    | none => "")

def skip (n : Nat) : Reading Unit := modify fun s =>
  { s with rest := s.rest.drop n, line := s.line + countLines (s.rest.take n) }

def atCharacter : List Char → Nat → List String → List Char × Nat × List String
  | '\\' :: '\n' :: cs, line, expanding => atCharacter cs (line + 1) expanding
  | c :: cs, line, expanding =>
    if c == aliasEnd then atCharacter cs line (expanding.drop 1) else (c :: cs, line, expanding)
  | [], line, expanding => ([], line, expanding)

def joinLines : Reading Unit := modify fun s =>
  let (rest, line, expanding) := atCharacter s.rest s.line s.expanding
  { s with rest := rest, line := line, expanding := expanding }

def skipBlanks : Nat → Reading Unit
  | 0 => return
  | fuel + 1 => do
    joinLines
    match (← get).rest with
    | ' ' :: _ | '\t' :: _ =>
      skip 1
      skipBlanks fuel
    | '#' :: cs => skip (1 + (cs.takeWhile (· != '\n')).length)
    | _ => return

def next? : Reading (Option Char) := do
  joinLines
  return (← get).rest.head?

def pushBack (t : Token) : Reading Unit := modify fun s => { s with again := some t }

inductive Context
  | bare
  | quotes
  | braces (quoted : Bool)
  | brackets (depth : Nat)
  | document
  deriving DecidableEq, Repr

namespace Context

def isQuoted : Context → Bool
  | .bare => false
  | .braces quoted => quoted
  | _ => true

def endsAt (x : Context) (c : Char) (cs : List Char) : Bool :=
  match x with
  | .bare => isMeta c
  | .quotes => c == '"'
  | .braces _ => c == '\x7d'
  | .brackets depth => c == ')' && depth == 0 && cs.head? == some ')'
  | .document => false

def isOrdinary (x : Context) (c : Char) : Bool :=
  !("\\$'\"()\x7d".toList.contains c || c == '\x60' || c == aliasEnd || (x == .bare && isMeta c))

def escapes (x : Context) (c : Char) : Bool :=
  let always := c == '$' || c == '\\' || c == '\x60'
  match x with
  | .bare | .braces false => true
  | .braces true => always || c == '"' || c == '\x7d'
  | .quotes | .brackets _ => always || c == '"'
  | .document => always

def missing? : Context → Option String
  | .bare | .document => none
  | .quotes | .braces true => some "Unterminated quoted string"
  | .braces false => some "Missing '\x7d'"
  | .brackets _ => some "Missing '))'"

end Context

def takeBackquoted (inQuotes : Bool) : List Char → Option (List Char × List Char)
  | [] => none
  | '\x60' :: cs => some ([], cs)
  | '\\' :: c :: cs =>
    (takeBackquoted inQuotes cs).map fun (text, rest) =>
      (if c == '\n' then text
        else if c == '$' || c == '\x60' || c == '\\' || (inQuotes && c == '"') then c :: text
        else '\\' :: c :: text, rest)
  | c :: cs => (takeBackquoted inQuotes cs).map fun (text, rest) => (c :: text, rest)

def takeMark : Nat → Option Char → List Char → List Char × Bool × List Char
  | 0, _, cs => ([], false, cs)
  | _, _, [] => ([], false, [])
  | fuel + 1, quote, c :: cs =>
    let add (ds : List Char) (isQuote : Bool) (answer : List Char × Bool × List Char) :=
      (ds ++ answer.1, isQuote || answer.2.1, answer.2.2)
    match quote, c, cs with
    | none, '\\', d :: ds => add [d] true (takeMark fuel none ds)
    | none, _, _ =>
      if isMeta c then ([], false, c :: cs)
      else if c == '\'' || c == '"' then add [] true (takeMark fuel (some c) cs)
      else add [c] false (takeMark fuel none cs)
    | some q, _, _ =>
      if c == q then takeMark fuel none cs
      else
        match q, c, cs with
        | '"', '\\', d :: ds =>
          if "$\\\"".toList.contains d || d == '\x60' then add [d] true (takeMark fuel quote ds)
          else add ['\\', d] true (takeMark fuel quote ds)
        | _, _, _ => add [c] true (takeMark fuel quote cs)

/-- The lines of a here document up to its mark, and what follows. In a body
that is no literal text a backslash at its end joins a line with the next one. -/
def takeDocument (a : Awaited) : Nat → Bool → List Char → List Char × List Char
  | 0, _, cs => ([], cs)
  | _, _, [] => ([], [])
  | fuel + 1, continued, cs =>
    let raw := cs.takeWhile (· != '\n')
    let line := if a.dropsTabs && !continued then raw.dropWhile (· == '\t') else raw
    if line == a.mark && !continued then ([], (cs.dropWhile (· != '\n')).drop 1)
    else
      match cs.dropWhile (· != '\n') with
      | [] => (line, [])
      | _ :: rest =>
        let isJoined := !a.literal && (raw.reverse.takeWhile (· == '\\')).length % 2 == 1
        let (body, after) := takeDocument a fuel isJoined rest
        (line ++ '\n' :: body, after)

def fallbackMode? : Char → Option Fallback
  | '-' => some .use
  | '=' => some .assign
  | '?' => some .refuse
  | '+' => some .alternative
  | _ => none

structure Heed where
  /-- Line ends are passed over. -/
  passesLines : Bool
  keywords : Bool
  aliases : Bool

namespace Heed

def nothing : Heed := ⟨false, false, false⟩

def command : Heed := ⟨false, true, true⟩

def later : Heed := ⟨true, true, true⟩

end Heed

def readDoubled (c : Char) (single double : String) : Reading Token := do
  skip 1
  if (← next?) == some c then
    skip 1
    return .op double
  else return .op single

def readSign (stream : Nat) : Reading Token := do
  let _ ← next?
  let found (width : Nat) (sign : RedirectSign) : Reading Token := do
    skip width
    return .redirect stream sign
  match (← get).rest with
  | '<' :: '<' :: '-' :: _ => found 3 (.here true)
  | '<' :: '<' :: _ => found 2 (.here false)
  | '<' :: '&' :: _ => found 2 .copy
  | '<' :: '>' :: _ => found 2 (.file .readWrite)
  | '<' :: _ => found 1 (.file .read)
  | '>' :: '>' :: _ => found 2 (.file .append)
  | '>' :: '|' :: _ => found 2 (.file .overwrite)
  | '>' :: '&' :: _ => found 2 .copy
  | _ => found 1 (.file .write)

def specialNames : List String :=
  [":", "exit", "return", "break", "continue", "shift", "set", "unset", "export", "readonly", "eval",
    ".", "exec", "trap", "times", "local"]

mutual

def readParts : Nat → Context → Reading Word
  | 0, _ => refuse "word too long"
  | fuel + 1, x => do
    joinLines
    match (← get).rest with
    | [] =>
      match x.missing? with
      | some message => refuse message
      | none => return []
    | c :: cs =>
      if x.endsAt c cs then return []
      else if x.isOrdinary c then
        let run := (c :: cs).takeWhile x.isOrdinary
        skip run.length
        return prepend x.isQuoted run (← readParts fuel x)
      else
        match c, cs with
        | '\\', [] =>
          skip 1
          return [.text true ['\\']]
        | '\\', d :: _ =>
          skip 2
          return prepend true (if x.escapes d then [d] else ['\\', d]) (← readParts fuel x)
        | '$', _ =>
          skip 1
          match ← readDollar fuel x with
          | .text quoted text => return prepend quoted text (← readParts fuel x)
          | part => return part :: (← readParts fuel x)
        | '\x60', _ =>
          skip 1
          let part ← readBackquoted fuel x.isQuoted
          return part :: (← readParts fuel x)
        | '\'', ds =>
          if x == .bare || x == .braces false then
            let text := ds.takeWhile (· != '\'')
            skip (1 + text.length)
            if (← get).rest.isEmpty then refuse "Unterminated quoted string"
            skip 1
            return .text true text :: (← readParts fuel x)
          else
            skip 1
            return prepend true ['\''] (← readParts fuel x)
        | '"', _ =>
          skip 1
          match x with
          | .document | .brackets _ => return prepend true ['"'] (← readParts fuel x)
          | _ =>
            let inner ← readParts fuel .quotes
            skip 1
            return (if inner.isEmpty then [.text true []] else inner) ++ (← readParts fuel x)
        | c, _ =>
          skip 1
          let y := match x with
            | .brackets depth =>
              if c == '(' then .brackets (depth + 1)
              else if c == ')' then .brackets (depth - 1)
              else x
            | _ => x
          return prepend x.isQuoted [c] (← readParts fuel y)

def readDollar : Nat → Context → Reading Part
  | 0, _ => refuse "word too long"
  | fuel + 1, x => do
    let quoted := x.isQuoted
    match ← next? with
    | some '(' =>
      skip 1
      match ← next? with
      | some '(' =>
        skip 1
        let w ← readParts fuel (.brackets 0)
        skip 2
        return .arithmetic quoted w
      | _ => readSubstitution fuel quoted
    | some '\x7b' =>
      skip 1
      readBraces fuel x
    | some c =>
      let cs := (← get).rest
      if isNameStart c then
        let name := cs.takeWhile isNameChar
        skip name.length
        return .parameter quoted (String.ofList name) .plain
      else if isSpecialName c then
        skip 1
        return .parameter quoted (String.singleton c) .plain
      else return .text quoted ['$']
    | none => return .text quoted ['$']

def readSubstitution : Nat → Bool → Reading Part
  | 0, _ => refuse "word too long"
  | fuel + 1, quoted => do
    let outer ← get
    set { outer with again := none, awaited := [], documents := [] }
    let script ← readItems fuel false true
    let t ← readToken fuel .nothing
    unless t.isOp ")" do unexpected t (some "\")\"")
    let documents := (← get).documents
    modify fun s => { s with again := none, awaited := outer.awaited, documents := outer.documents }
    return .substitution quoted (Item.filledAll documents script)

/-- A script between backquotes has lines of its own, and is read as far as it goes. -/
def readBackquoted : Nat → Bool → Reading Part
  | 0, _ => refuse "word too long"
  | fuel + 1, quoted => do
    let outer ← get
    match takeBackquoted quoted outer.rest with
    | none =>
      skip outer.rest.length
      refuse "EOF in backquote substitution"
    | some (text, rest) =>
      let taken := outer.rest.take (outer.rest.length - rest.length)
      set { outer with rest := text, line := 1, again := none, awaited := [], documents := [] }
      let script ← readItems fuel false true
      let documents := (← get).documents
      modify fun s =>
        { outer with
          rest := rest
          line := outer.line + countLines taken
          counter := s.counter }
      return .substitution quoted (Item.filledAll documents script)

def readBraces : Nat → Context → Reading Part
  | 0, _ => refuse "word too long"
  | fuel + 1, x => do
    let quoted := x.isQuoted
    let inner : Context := .braces quoted
    let close : Reading Unit := skip 1
    let senseless (name : String) : Reading Part := do
      let _ ← readParts fuel inner
      close
      return .parameter quoted name .senseless
    let _ ← next?
    let cs := (← get).rest
    let isLength : Bool := match cs with
      | '#' :: c :: d :: _ => isNameChar c || (c != '\x7d' && d == '\x7d')
      | _ => false
    if isLength then skip 1
    let cs := (← get).rest
    let name : List Char := match cs with
      | c :: _ =>
        if isNameStart c then cs.takeWhile isNameChar
        else if c.isDigit then cs.takeWhile Char.isDigit
        else if isSpecialName c then [c]
        else []
      | [] => []
    skip name.length
    let title := String.ofList name
    if name.isEmpty then senseless ""
    else if isLength then
      if (← next?) == some '\x7d' then
        close
        return .parameter quoted title .length
      else senseless title
    else
      let _ ← next?
      match (← get).rest with
      | '\x7d' :: _ =>
        close
        return .parameter quoted title .plain
      | '%' :: '%' :: _ => readTrim fuel quoted title 2 .longestBack
      | '%' :: _ => readTrim fuel quoted title 1 .shortestBack
      | '#' :: '#' :: _ => readTrim fuel quoted title 2 .longestFront
      | '#' :: _ => readTrim fuel quoted title 1 .shortestFront
      | rest =>
        let (emptyToo, sign, width) : Bool × Option Char × Nat := match rest with
          | ':' :: c :: _ => (true, some c, 2)
          | c :: _ => (false, some c, 1)
          | [] => (false, none, 0)
        match sign.bind fallbackMode? with
        | some mode =>
          skip width
          let w ← readParts fuel inner
          close
          return .parameter quoted title (.fallback mode emptyToo w)
        | none =>
          -- A line end that stands here is not counted.
          modify fun s => if s.rest.head? == some '\n' then { s with rest := s.rest.drop 1 } else s
          senseless title

def readTrim : Nat → Bool → String → Nat → Trim → Reading Part
  | 0, _, _, _, _ => refuse "word too long"
  | fuel + 1, quoted, title, width, mode => do
    skip width
    let w ← readParts fuel (.braces false)
    skip 1
    return .parameter quoted title (.trim mode w)

def readRaw : Nat → Reading Token
  | 0 => refuse "word too long"
  | fuel + 1 => do
    let s ← get
    match s.again with
    | some t =>
      set { s with again := none }
      return t
    | none =>
      skipBlanks (s.rest.length + 1)
      match (← get).rest with
      | [] => return .ended
      | '\n' :: _ =>
        skip 1
        return .newline
      | '(' :: _ =>
        skip 1
        return .op "("
      | ')' :: _ =>
        skip 1
        return .op ")"
      | ';' :: _ => readDoubled ';' ";" ";;"
      | '&' :: _ => readDoubled '&' "&" "&&"
      | '|' :: _ => readDoubled '|' "|" "||"
      | '<' :: _ => readSign 0
      | '>' :: _ => readSign 1
      | c :: d :: _ =>
        if c.isDigit && (d == '<' || d == '>') then
          skip 1
          readSign (c.toNat - '0'.toNat)
        else return .word (← readParts fuel .bare)
      | _ => return .word (← readParts fuel .bare)
def readToken : Nat → Heed → Reading Token
  | 0, _ => refuse "word too long"
  | fuel + 1, heed => do
    let t ← readRaw fuel
    match t with
    | .newline =>
      if heed.passesLines then
        readDocuments fuel
        readToken fuel heed
      else return t
    | .word w =>
      match w.bareText? with
      | none => return t
      | some cs =>
        let text := String.ofList cs
        if heed.keywords && keywords.contains text then return .keyword text
        else if heed.aliases then
          let s ← get
          match s.aliases.lookup text, s.expanding.contains text with
          | some value, false =>
            set { s with rest := value.toList ++ aliasEnd :: s.rest, expanding := text :: s.expanding }
            readToken fuel heed
          | _, _ => return t
        else return t
    | t => return t

def readDocuments : Nat → Reading Unit
  | 0 => refuse "word too long"
  | fuel + 1 => do
    let s ← get
    match s.awaited with
    | [] => return
    | a :: more =>
      let (body, after) := takeDocument a (s.rest.length + 1) false s.rest
      let lines := countLines (s.rest.take (s.rest.length - after.length))
      let word : Word ←
        if a.literal then pure [.text true body]
        else do
          set { s with rest := body, again := none, awaited := [] }
          readParts fuel .document
      modify fun t =>
        { t with
          rest := after
          line := s.line + lines
          again := s.again
          awaited := more
          documents := (a.number, word) :: t.documents }
      readDocuments fuel

def readRedirect : Nat → Nat → RedirectSign → Reading Redirect
  | 0, _, _ => refuse "word too long"
  | fuel + 1, stream, sign => do
    match sign with
    | .here dropsTabs =>
      skipBlanks ((← get).rest.length + 1)
      let rest := (← get).rest
      let (mark, literal, after) := takeMark (rest.length + 1) none rest
      if after.length == rest.length then
        unexpected (← readRaw fuel) none
      else
        skip (rest.length - after.length)
        let number := (← get).counter
        modify fun s =>
          { s with
            counter := number + 1
            awaited := s.awaited ++ [⟨number, mark, dropsTabs, literal⟩] }
        return .here stream number []
    | .file opening =>
      match ← readToken fuel .nothing with
      | .word w => return .file stream opening w
      | t => unexpected t none
    | .copy =>
      match ← readToken fuel .nothing with
      | .word w => return .copy stream w
      | t => unexpected t none

def readRedirects : Nat → Reading (List Redirect)
  | 0 => refuse "word too long"
  | fuel + 1 => do
    match ← readToken fuel .command with
    | .redirect stream sign =>
      let r ← readRedirect fuel stream sign
      return r :: (← readRedirects fuel)
    | t =>
      pushBack t
      return []

def readItems : Nat → Bool → Bool → Reading Script
  | 0, _, _ => refuse "script too long"
  | fuel + 1, top, mayEnd => do
    match ← readToken fuel (if top then .command else .later) with
    | .newline =>
      readDocuments fuel
      return []
    | .ended =>
      readDocuments fuel
      pushBack .ended
      return []
    | t =>
      pushBack t
      if mayEnd && !top && t.endsList then return []
      else
        let first ← readPipeline fuel .nothing
        let item ← readJoined fuel first
        let t ← readToken fuel .nothing
        let item := if t.isOp "&" then .background item else item
        match t with
        | .ended =>
          readDocuments fuel
          pushBack t
          return [item]
        | .newline =>
          pushBack t
          return item :: (← readItems fuel top true)
        | t =>
          if t.isOp "&" || t.isOp ";" then return item :: (← readItems fuel top true)
          else if top then unexpected t none
          else
            pushBack t
            return [item]

def readJoined : Nat → Item → Reading Item
  | 0, _ => refuse "script too long"
  | fuel + 1, item => do
    let t ← readToken fuel .nothing
    if t.isOp "&&" then
      let next ← readPipeline fuel .later
      readJoined fuel (.both item next)
    else if t.isOp "||" then
      let next ← readPipeline fuel .later
      readJoined fuel (.either item next)
    else
      pushBack t
      return item

def readPipeline : Nat → Heed → Reading Item
  | 0, _ => refuse "script too long"
  | fuel + 1, heed => do
    let t ← readToken fuel heed
    let negated := t.isKeyword "!"
    unless negated do pushBack t
    let first ← readCommand fuel (if negated then .command else .nothing)
    return .pipeline negated (first :: (← readPiped fuel))

def readPiped : Nat → Reading (List Command)
  | 0 => refuse "script too long"
  | fuel + 1 => do
    let t ← readToken fuel .nothing
    if t.isOp "|" then
      let c ← readCommand fuel .later
      return c :: (← readPiped fuel)
    else
      pushBack t
      return []

def readCommand : Nat → Heed → Reading Command
  | 0, _ => refuse "script too long"
  | fuel + 1, heed => do
    let line := (← get).line
    match ← readToken fuel heed with
    | .keyword "if" =>
      let (branches, otherwise) ← readBranches fuel
      readClosing fuel line "\"fi\"" (.conditional branches otherwise)
    | .keyword "while" => readLoop fuel true line
    | .keyword "until" => readLoop fuel false line
    | .keyword "for" => readEach fuel line
    | .keyword "case" => readChoice fuel line
    | .keyword "\x7b" =>
      let body ← readItems fuel false false
      readClosing fuel line "\"\x7d\"" (.group body)
    | .op "(" =>
      let body ← readItems fuel false false
      readClosing fuel line "\")\"" (.subshell line body)
    | .word w =>
      pushBack (.word w)
      readSimple fuel (← get).line false [] [] []
    | .redirect stream sign =>
      pushBack (.redirect stream sign)
      readSimple fuel (← get).line false [] [] []
    | t => unexpected t none
def readClosing : Nat → Nat → String → Command → Reading Command
  | 0, _, _, _ => refuse "script too long"
  | fuel + 1, line, word, c => do
    let t ← readToken fuel .nothing
    unless t.describe == word do unexpected t (some word)
    readOutside fuel line c

def readOutside : Nat → Nat → Command → Reading Command
  | 0, _, _ => refuse "script too long"
  | fuel + 1, line, c => do
    let redirects ← readRedirects fuel
    return if redirects.isEmpty then c else .redirected line c redirects

def readBranches : Nat → Reading (List (Script × Script) × Script)
  | 0 => refuse "script too long"
  | fuel + 1 => do
    let test ← readItems fuel false false
    let t ← readToken fuel .nothing
    unless t.isKeyword "then" do unexpected t (some "\"then\"")
    let body ← readItems fuel false false
    let t ← readToken fuel .nothing
    if t.isKeyword "elif" then
      let (branches, otherwise) ← readBranches fuel
      return ((test, body) :: branches, otherwise)
    else if t.isKeyword "else" then
      let otherwise ← readItems fuel false false
      return ([(test, body)], otherwise)
    else
      pushBack t
      return ([(test, body)], [])

def readLoop : Nat → Bool → Nat → Reading Command
  | 0, _, _ => refuse "script too long"
  | fuel + 1, goal, line => do
    let test ← readItems fuel false false
    let body ← readBody fuel .nothing
    readOutside fuel line (.loop goal test body)

def readBody : Nat → Heed → Reading Script
  | 0, _ => refuse "script too long"
  | fuel + 1, heed => do
    let t ← readToken fuel heed
    unless t.isKeyword "do" do unexpected t (some "\"do\"")
    let body ← readItems fuel false false
    let t ← readToken fuel .nothing
    unless t.isKeyword "done" do unexpected t (some "\"done\"")
    return body

def readEach : Nat → Nat → Reading Command
  | 0, _ => refuse "script too long"
  | fuel + 1, line => do
    let name : List Char ← match ← readToken fuel .nothing with
      | .word w => pure (w.bareText?.getD [])
      | _ => pure []
    unless isName name do refuse "Bad for loop variable"
    let t ← readToken fuel .later
    let words : Option (List Word) ←
      if t.isKeyword "in" then do pure (some (← readWords fuel))
      else do
        unless t.isOp ";" do pushBack t
        pure none
    let body ← readBody fuel .later
    readOutside fuel line (.each line (String.ofList name) words body)

def readWords : Nat → Reading (List Word)
  | 0 => refuse "script too long"
  | fuel + 1 => do
    match ← readToken fuel .nothing with
    | .word w => return w :: (← readWords fuel)
    | .newline => return []
    | t => if t.isOp ";" then return [] else unexpected t none

def readChoice : Nat → Nat → Reading Command
  | 0, _ => refuse "script too long"
  | fuel + 1, line => do
    match ← readToken fuel .nothing with
    | .word w =>
      let t ← readToken fuel .later
      unless t.isKeyword "in" do unexpected t (some "\"in\"")
      let arms ← readArms fuel
      readOutside fuel line (.choice line w arms)
    | t => unexpected t (some "word")

def readArms : Nat → Reading (List (List Word × Script))
  | 0 => refuse "script too long"
  | fuel + 1 => do
    let t ← readToken fuel ⟨true, true, false⟩
    if t.isKeyword "esac" then return []
    else
      let t ← if t.isOp "(" then readToken fuel .nothing else pure t
      let patterns ← readPatterns fuel t
      let body ← readItems fuel false true
      let t ← readToken fuel ⟨true, true, false⟩
      if t.isKeyword "esac" then return [(patterns, body)]
      else
        unless t.isOp ";;" do unexpected t (some "\";;\"")
        return (patterns, body) :: (← readArms fuel)

/-- The patterns of an arm, up to the bracket behind them. A word of the language
is taken for a pattern here. -/
def readPatterns : Nat → Token → Reading (List Word)
  | 0, _ => refuse "script too long"
  | fuel + 1, t => do
    let pattern : Word ← match t with
      | .word w => pure w
      | .keyword text => pure [.text false text.toList]
      | t => unexpected t (some "word")
    let t ← readToken fuel .nothing
    if t.isOp "|" then
      let t ← readToken fuel .nothing
      return pattern :: (← readPatterns fuel t)
    else
      unless t.isOp ")" do unexpected t (some "\")\"")
      return [pattern]

def readSimple : Nat → Nat → Bool → List (String × Word) → List Word → List Redirect → Reading Command
  | 0, _, _, _, _, _ => refuse "script too long"
  | fuel + 1, line, named, assignments, words, redirects => do
    let t ← readToken fuel ⟨false, false, !named⟩
    match t with
    | .word w =>
      match w.assignment?, named with
      | some (name, value), false =>
        readSimple fuel line false (assignments ++ [(name, value)]) words redirects
      | _, _ => readSimple fuel line true assignments (words ++ [w]) redirects
    | .redirect stream sign =>
      let r ← readRedirect fuel stream sign
      readSimple fuel line named assignments words (redirects ++ [r])
    | t =>
      if t.isOp "(" && assignments.isEmpty && redirects.isEmpty && words.length == 1 then
        readDefinition fuel (words.headD [])
      else
        pushBack t
        return .simple line assignments words redirects

def readDefinition : Nat → Word → Reading Command
  | 0, _ => refuse "script too long"
  | fuel + 1, word => do
    let t ← readToken fuel .nothing
    unless t.isOp ")" do unexpected t (some "\")\"")
    let name := (word.bareText?.getD [])
    if !isName name || specialNames.contains (String.ofList name) then refuse "Bad function name"
    let line := (← get).line
    let body ← readCommand fuel .later
    return .definition line (String.ofList name) body

end

def Source.start (text : List Char) (line : Nat) (aliases : List (String × String)) : Source :=
  ⟨text, line, none, [], [], 0, aliases, []⟩

structure Reading.Step where
  items : Script
  /-- Whether nothing at all was left to be read. -/
  finished : Bool
  rest : List Char
  line : Nat

def readStep (text : List Char) (line : Nat) (aliases : List (String × String)) :
    Except SyntaxFault Reading.Step :=
  match (readItems (16 * (text.length + 8)) true false).run (.start text line aliases) with
  | .error fault => .error fault
  | .ok (items, s) =>
    let finished := match s.again with
      | some .ended => true
      | _ => false
    .ok ⟨Item.filledAll s.documents items, finished, s.rest.filter (· != aliasEnd), s.line⟩

end Retrial.Shell
