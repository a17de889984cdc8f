/-!
# Similar texts

How alike two texts are, to guess which word a user meant. Characters match if
they are equal and stand at most half the length of the longer text apart, each
being matched once from the left. The measure is the mean of three ratios: the
matches to the length of either text, and those in the same order to all of them.
-/

set_option autoImplicit false

namespace Retrial.Text

structure Ratio where
  part : Nat
  whole : Nat
  deriving DecidableEq, Repr

namespace Ratio

def add (a b : Ratio) : Ratio := ⟨a.part * b.whole + b.part * a.whole, a.whole * b.whole⟩

def below (a b : Ratio) : Bool := a.part * b.whole < b.part * a.whole

end Ratio

def placeOf? (c : Char) (low high : Nat) (taken : List Nat) (cs : List Char) : Option Nat :=
  (cs.zipIdx.find? fun p => low ≤ p.2 && p.2 < high && p.1 == c && !taken.contains p.2).map (·.2)

def matchPlaces (reach : Nat) (bs : List Char) :
    List (Char × Nat) → List (Nat × Nat) → List (Nat × Nat)
  | [], found => found
  | (a, i) :: rest, found =>
    match placeOf? a (i - reach) (i + reach + 1) (found.map (·.2)) bs with
    | some j => matchPlaces reach bs rest (found ++ [(i, j)])
    | none => matchPlaces reach bs rest found

def likeness (a b : String) : Ratio :=
  let as := a.toList
  let bs := b.toList
  let reach := max as.length bs.length / 2 - 1
  let found := matchPlaces reach bs as.zipIdx []
  let left := found.filterMap fun p => as[p.1]?
  let right := (found.map (·.2)).mergeSort.filterMap fun j => bs[j]?
  let moved := ((left.zip right).filter fun p => p.1 != p.2).length / 2
  let n := found.length
  if as.isEmpty && bs.isEmpty then ⟨3, 1⟩
  else if n == 0 then ⟨0, 1⟩
  else ((Ratio.mk n as.length).add ⟨n, bs.length⟩).add ⟨n - moved, n⟩

/-- Seven tenths of full likeness: texts that are less alike are not taken for one another. -/
def leastLikeness : Ratio := ⟨21, 10⟩

/-- The word that is most like a text, if one is alike enough. Of equals the last is taken. -/
def closest? (text : String) (words : List String) : Option String :=
  ((words.filter fun w => leastLikeness.below (likeness text w)).foldl
    (fun best w =>
      match best with
      | some b => if (likeness text w).below (likeness text b) then some b else some w
      | none => some w)
    none)

end Retrial.Text
