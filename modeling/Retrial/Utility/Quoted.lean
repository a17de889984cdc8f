/-!
# Quoted names

How the tools of the child's side show a name in what they tell: as a word that a
shell would read as that name. Some always quote it, others only where a character
asks for it.
-/

set_option autoImplicit false

namespace Retrial.Utility

def isTelling (c : Char) : Bool := "?\\ !\"$&()*;<=>[^\x60|'".toList.contains c

def isPrintable (c : Char) : Bool := ' ' ≤ c && c ≤ '~'

def needsQuotes (name : List Char) : Bool :=
  match name with
  | [] => true
  | ['{'] | ['}'] => true
  | c :: _ => c == '#' || c == '~' || name.any fun c => isTelling c || !isPrintable c

def escaped (c : Char) : List Char :=
  let letters := [(7, 'a'), (8, 'b'), (9, 't'), (10, 'n'), (11, 'v'), (12, 'f'), (13, 'r')]
  match letters.lookup c.toNat with
  | some letter => ['\\', letter]
  | none =>
    let ds := Nat.toDigits 8 c.toNat
    '\\' :: List.replicate (3 - ds.length) '0' ++ ds

def quotedInside : Bool → List Char → List Char
  | _, [] => ['\'']
  | inEscape, c :: cs =>
    if !isPrintable c then
      (if inEscape then [] else "'$'".toList) ++ escaped c ++ quotedInside true cs
    else if c == '\'' then "'\\''".toList ++ quotedInside false cs
    else (if inEscape then "''".toList else []) ++ c :: quotedInside false cs

def isPlainInDoubleQuotes (name : List Char) : Bool :=
  name.all fun c => isPrintable c && (c == ' ' || c == '\'' || !isTelling c)

def quoted (name : String) : String :=
  let cs := name.toList
  if cs.contains '\'' && isPlainInDoubleQuotes cs then "\"" ++ name ++ "\""
  else String.ofList ('\'' :: quotedInside false cs)

def shown (name : String) : String := if needsQuotes name.toList then quoted name else name

end Retrial.Utility
