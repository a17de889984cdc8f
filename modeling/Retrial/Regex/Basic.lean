/-!
# Regular expressions

Expressions that describe texts for the tools of the child's side, and where in a
text they match: at the leftmost place, and there as far as possible. Of the ways
to match that far, the one in which earlier parts take more counts; it says what
each group stands for.
-/

set_option autoImplicit false

namespace Retrial

inductive Anchor
  | lineStart
  | lineEnd
  | textStart
  | textEnd
  | wordStart
  | wordEnd
  | wordEdge
  | wordInside
  deriving DecidableEq, Repr

inductive Regex
  | nothing
  | one (negated : Bool) (ranges : List (Char × Char))
  | anchor (a : Anchor)
  | sequence (first second : Regex)
  | either (first second : Regex)
  | repeated (low : Nat) (high : Option Nat) (body : Regex)
  | group (number : Nat) (body : Regex)
  | back (number : Nat)
  deriving Repr

namespace Regex

abbrev Spans := List (Nat × Nat × Nat)

structure Subject where
  chars : Array Char
  folds : Bool
  /-- Whether lines inside of the text count as lines. -/
  byLines : Bool

namespace Subject

def isWordAt (s : Subject) (i : Nat) : Bool :=
  match s.chars[i]? with
  | some c => c.isAlphanum || c == '_'
  | none => false

def isWordBefore (s : Subject) (i : Nat) : Bool := 0 < i && s.isWordAt (i - 1)

def holds (s : Subject) (i : Nat) : Anchor → Bool
  | .textStart => i == 0
  | .textEnd => i == s.chars.size
  | .lineStart => i == 0 || (s.byLines && s.chars[i - 1]? == some '\n')
  | .lineEnd => i == s.chars.size || (s.byLines && s.chars[i]? == some '\n')
  | .wordStart => !s.isWordBefore i && s.isWordAt i
  | .wordEnd => s.isWordBefore i && !s.isWordAt i
  | .wordEdge => s.isWordBefore i != s.isWordAt i
  | .wordInside => s.isWordBefore i == s.isWordAt i

def isIn (ranges : List (Char × Char)) (c : Char) : Bool := ranges.any fun (a, b) => a ≤ c && c ≤ b

def accepts (s : Subject) (negated : Bool) (ranges : List (Char × Char)) (i : Nat) : Bool :=
  match s.chars[i]? with
  | some c =>
    let found := isIn ranges c || (s.folds && (isIn ranges c.toLower || isIn ranges c.toUpper))
    found != negated
  | none => false

def repeats (s : Subject) (i first last : Nat) : Bool :=
  let fold (c : Option Char) : Option Char := if s.folds then c.map Char.toLower else c
  (List.range (last - first)).all fun k =>
    (s.chars[i + k]?).isSome && fold s.chars[i + k]? == fold s.chars[first + k]?

end Subject

abbrev Ends := List (Nat × Spans)

def farthestFirst (exact : Bool) (ends : Ends) : Ends :=
  let distinct := ends.foldl
    (fun (kept : Ends) e =>
      if kept.any fun k => k.1 == e.1 && (!exact || k.2 == e.2) then kept else kept ++ [e]) []
  distinct.mergeSort fun a b => b.1 ≤ a.1

def closure (step : Nat × Spans → Ends) : Nat → Ends → Ends → Ends
  | 0, _, seen => seen
  | fuel + 1, front, seen =>
    let isNew (e : Nat × Spans) : Bool := !(seen.any fun k => k.1 == e.1)
    let next := (farthestFirst false (front.flatMap step)).filter isNew
    if next.isEmpty then seen else closure step fuel next (seen ++ next)

def upTo (step : Nat × Spans → Ends) : Nat → Ends → Ends
  | 0, front => front
  | n + 1, front =>
    let next := farthestFirst false (front.flatMap step)
    if next.isEmpty then front else front ++ upTo step n next

def exactly (step : Nat × Spans → Ends) : Nat → Ends → Ends
  | 0, front => front
  | n + 1, front => exactly step n (farthestFirst false (front.flatMap step))

def run (s : Subject) (negated : Bool) (ranges : List (Char × Char)) : Nat → Nat → Nat
  | 0, _ => 0
  | fuel + 1, i => if s.accepts negated ranges i then 1 + run s negated ranges fuel (i + 1) else 0

def ends (s : Subject) (exact : Bool) : Regex → Nat → Spans → Ends
  | .nothing, i, spans => [(i, spans)]
  | .one negated ranges, i, spans => if s.accepts negated ranges i then [(i + 1, spans)] else []
  | .anchor a, i, spans => if s.holds i a then [(i, spans)] else []
  | .sequence a b, i, spans =>
    match a.ends s exact i spans with
    | [] => []
    | [(j, spans)] => b.ends s exact j spans
    | many => farthestFirst exact (many.flatMap fun (j, spans) => b.ends s exact j spans)
  | .either a b, i, spans => farthestFirst exact (a.ends s exact i spans ++ b.ends s exact i spans)
  | .repeated low high (.one negated ranges), i, spans =>
    let room := match high with
      | some n => min n (s.chars.size - i)
      | none => s.chars.size - i
    let n := run s negated ranges room i
    ((List.range (n + 1)).drop low).reverse.map fun k => (i + k, spans)
  | .repeated low high body, i, spans =>
    let step (e : Nat × Spans) : Ends := body.ends s exact e.1 e.2
    let first := exactly step low [(i, spans)]
    let all := match high with
      | some high => upTo step (high - low) first
      | none => closure step (s.chars.size + 1) first first
    farthestFirst exact all
  | .group number body, i, spans =>
    (body.ends s exact i spans).map fun (j, spans) =>
      (j, (number, i, j) :: spans.filter (·.1 != number))
  | .back number, i, spans =>
    match spans.lookup number with
    | some (first, last) => if s.repeats i first last then [(i + (last - first), spans)] else []
    | none => []

def looksBack : Regex → Bool
  | .back _ => true
  | .sequence a b | .either a b => a.looksBack || b.looksBack
  | .repeated _ _ body | .group _ body => body.looksBack
  | _ => false

structure Found where
  start : Nat
  stop : Nat
  groups : Spans
  deriving Repr

def matchAt (r : Regex) (s : Subject) (i : Nat) : Option Found :=
  ((r.ends s r.looksBack i []).head?).map fun (j, spans) => ⟨i, j, spans⟩

def searchFrom (r : Regex) (s : Subject) : Nat → Nat → Option Found
  | 0, _ => none
  | n + 1, i =>
    match r.matchAt s i with
    | some found => some found
    | none => searchFrom r s n (i + 1)

def search (r : Regex) (s : Subject) (start : Nat) : Option Found :=
  r.searchFrom s (s.chars.size + 1 - start) start

def Found.text (f : Found) (s : Subject) (group : Nat) : List Char :=
  let part (first last : Nat) : List Char := (s.chars.extract first last).toList
  if group == 0 then part f.start f.stop
  else
    match f.groups.lookup group with
    | some (first, last) => part first last
    | none => []

end Regex

end Retrial
