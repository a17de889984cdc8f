import Retrial.Toml.Scalar

/-!
# Quoted text

Text in double quotes has escapes, text in single quotes stands for itself.
Three quotes open a text of several lines; it ends at three quotes, and up to
two more of them right before its end belong to it. A line end right behind the
opening quotes is dropped, and any other is kept as it is written. A backslash
at the end of a line swallows all blanks up to the next character that is not one.
-/

set_option autoImplicit false

namespace Retrial.Toml

def isPlain (c : Char) : Bool := c == '\t' || (0x20 ≤ c.toNat && c.toNat != 0x7F)

def isSpace (c : Char) : Bool := c == ' ' || c == '\t'

def afterNewline? : List Char → Option (List Char)
  | '\n' :: cs => some cs
  | '\r' :: '\n' :: cs => some cs
  | _ => none

def takeCodePoint? (width : Nat) (cs : List Char) : Option (Char × List Char) :=
  let ds := cs.take width
  let n := valueOf 16 ds
  if ds.length == width && ds.all (isDigit 16) && n.isValidChar then
    some (Char.ofNat n, cs.drop width)
  else none

def takeEscape? : List Char → Option (Char × List Char)
  | 'b' :: cs => some ('\x08', cs)
  | 't' :: cs => some ('\t', cs)
  | 'n' :: cs => some ('\n', cs)
  | 'f' :: cs => some ('\x0c', cs)
  | 'r' :: cs => some ('\r', cs)
  | 'e' :: cs => some ('\x1b', cs)
  | '"' :: cs => some ('"', cs)
  | '\\' :: cs => some ('\\', cs)
  | 'x' :: cs => takeCodePoint? 2 cs
  | 'u' :: cs => takeCodePoint? 4 cs
  | 'U' :: cs => takeCodePoint? 8 cs
  | _ => none

def takeLine? (quote : Char) : Nat → List Char → Option (List Char × List Char)
  | 0, _ => none
  | _, [] => none
  | fuel + 1, c :: cs =>
    if c == quote then some ([], cs)
    else if c == '\\' && quote == '"' then do
      let (e, cs) ← takeEscape? cs
      let (text, rest) ← takeLine? quote fuel cs
      return (e :: text, rest)
    else if isPlain c then do
      let (text, rest) ← takeLine? quote fuel cs
      return (c :: text, rest)
    else none

def dropBlankLines : List Char → List Char
  | '\r' :: '\n' :: cs => dropBlankLines cs
  | c :: cs => if isSpace c || c == '\n' then dropBlankLines cs else c :: cs
  | [] => []

def takeLines? (quote : Char) : Nat → List Char → Option (List Char × List Char)
  | 0, _ => none
  | _, [] => none
  | fuel + 1, c :: cs =>
    if c == quote then
      let run := 1 + (cs.takeWhile (· == quote)).length
      if run < 3 then do
        let (text, rest) ← takeLines? quote fuel cs
        return (c :: text, rest)
      else if run ≤ 5 then some (List.replicate (run - 3) quote, (c :: cs).drop run)
      else none
    else if c == '\\' && quote == '"' then
      match afterNewline? (cs.dropWhile isSpace) with
      | some cs => takeLines? quote fuel (dropBlankLines cs)
      | none => do
        let (e, cs) ← takeEscape? cs
        let (text, rest) ← takeLines? quote fuel cs
        return (e :: text, rest)
    else if isPlain c || (afterNewline? (c :: cs)).isSome then do
      let (text, rest) ← takeLines? quote fuel cs
      return (c :: text, rest)
    else none

def takeText? (quote : Char) (cs : List Char) : Option (String × List Char) :=
  let read :=
    if cs.take 3 == [quote, quote, quote] then
      let body := cs.drop 3
      takeLines? quote (body.length + 1) ((afterNewline? body).getD body)
    else takeLine? quote cs.length (cs.drop 1)
  read.map fun (text, rest) => (String.ofList text, rest)

end Retrial.Toml
