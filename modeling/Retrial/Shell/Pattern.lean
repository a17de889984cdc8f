/-!
# Patterns

A pattern in the script of a child describes texts: a star stands for any text, a
question mark for any character, brackets for one of several characters, and a
character that is quoted, or stands behind a backslash, for itself alone.
-/

set_option autoImplicit false

namespace Retrial.Shell

structure Glyph where
  char : Char
  quoted : Bool
  deriving DecidableEq, Repr

def Glyph.isBare (g : Glyph) (c : Char) : Bool := !g.quoted && g.char == c

def bareGlyphs (cs : List Char) : List Glyph := cs.map (⟨·, false⟩)

def quotedGlyphs (cs : List Char) : List Glyph := cs.map (⟨·, true⟩)

inductive Matcher
  | star
  | any
  | char (c : Char)
  | oneOf (negated : Bool) (ranges : List (Char × Char))
  deriving DecidableEq, Repr

def classRanges (name : String) : List (Char × Char) :=
  match name with
  | "digit" => [('0', '9')]
  | "alpha" => [('a', 'z'), ('A', 'Z')]
  | "alnum" => [('0', '9'), ('a', 'z'), ('A', 'Z')]
  | "upper" => [('A', 'Z')]
  | "lower" => [('a', 'z')]
  | "space" => [(' ', ' '), ('\t', '\r')]
  | "cntrl" => [('\x00', '\x1f'), ('\x7f', '\x7f')]
  | "graph" => [('!', '~')]
  | "print" => [(' ', '~')]
  | "xdigit" => [('0', '9'), ('a', 'f'), ('A', 'F')]
  | "blank" => [(' ', ' '), ('\t', '\t')]
  | "punct" => [('!', '/'), (':', '@'), ('[', '\x60'), ('\x7b', '~')]
  | _ => []

def takeRanges (first : Bool) : Nat → List Glyph → Option (List (Char × Char) × List Glyph)
  | 0, _ => none
  | _, [] => none
  | fuel + 1, g :: gs =>
    if g.isBare ']' && !first then some ([], gs)
    else
      let name := gs.drop 1 |>.takeWhile fun h => h.char != ':'
      let rest := gs.drop (1 + name.length)
      if g.isBare '[' && (gs.head?.map (·.char)) == some ':' && rest.length ≥ 2 &&
          ((rest.drop 1).head?.map (·.char)) == some ']' then do
        let (more, after) ← takeRanges false fuel (rest.drop 2)
        return (classRanges (String.ofList (name.map (·.char))) ++ more, after)
      else
        match gs with
        | d :: h :: hs =>
          if d.isBare '-' && !h.isBare ']' then do
            let (more, after) ← takeRanges false fuel hs
            return ((g.char, h.char) :: more, after)
          else do
            let (more, after) ← takeRanges false fuel gs
            return ((g.char, g.char) :: more, after)
        | _ => do
          let (more, after) ← takeRanges false fuel gs
          return ((g.char, g.char) :: more, after)

def takeBrackets (gs : List Glyph) : Option (Matcher × List Glyph) :=
  match gs with
  | g :: rest =>
    if g.isBare '!' then
      (takeRanges true (rest.length + 1) rest).map fun (ranges, after) => (.oneOf true ranges, after)
    else (takeRanges true (gs.length + 1) gs).map fun (ranges, after) => (.oneOf false ranges, after)
  | [] => none

/-- A pattern as the matchers it is made of. An opening bracket without its
closing one stands for itself. -/
def compile : Nat → List Glyph → List Matcher
  | 0, _ => []
  | _, [] => []
  | fuel + 1, g :: gs =>
    if g.isBare '\\' then
      match gs with
      | h :: hs => .char h.char :: compile fuel hs
      | [] => [.char '\\']
    else if g.isBare '*' then .star :: compile fuel gs
    else if g.isBare '?' then .any :: compile fuel gs
    else if g.isBare '[' then
      match takeBrackets gs with
      | some (m, rest) => m :: compile fuel rest
      | none => .char '[' :: compile fuel gs
    else .char g.char :: compile fuel gs

def Matcher.accepts (m : Matcher) (c : Char) : Bool :=
  match m with
  | .star | .any => true
  | .char d => c == d
  | .oneOf negated ranges => ranges.any (fun r => r.1 ≤ c && c ≤ r.2) != negated

def accept : List Matcher → List Char → Bool
  | [], cs => cs.isEmpty
  | .star :: ms, [] => accept ms []
  | .star :: ms, c :: cs => accept ms (c :: cs) || accept (.star :: ms) cs
  | _ :: _, [] => false
  | m :: ms, c :: cs => m.accepts c && accept ms cs

def isMatch (pattern : List Glyph) (cs : List Char) : Bool :=
  accept (compile (pattern.length + 1) pattern) cs

def isPattern (gs : List Glyph) : Bool :=
  gs.any fun g => g.isBare '*' || g.isBare '?' || g.isBare '['

def splits (cs : List Char) : List (List Char × List Char) :=
  (List.range (cs.length + 1)).map fun n => (cs.take n, cs.drop n)

def trimmedFront (longest : Bool) (pattern : List Glyph) (cs : List Char) : List Char :=
  let points := if longest then (splits cs).reverse else splits cs
  ((points.find? fun p => isMatch pattern p.1).map (·.2)).getD cs

def trimmedBack (longest : Bool) (pattern : List Glyph) (cs : List Char) : List Char :=
  let points := if longest then splits cs else (splits cs).reverse
  ((points.find? fun p => isMatch pattern p.2).map (·.1)).getD cs

end Retrial.Shell
