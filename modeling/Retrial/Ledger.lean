import Retrial.Attempt
import Retrial.Policy

/-!
# The ledger of a supervised run

What is left of each budget, how every failing test case stands, and which are
pending, confirmed or recovered. Budgets only shrink. A case keeps its progress
over whole reruns, and one that is decided never becomes pending again.
-/

set_option autoImplicit false

namespace Retrial

structure Progress where
  left : Nat
  reruns : Nat
  passes : Nat
  deriving DecidableEq, Repr

structure Ledger where
  maxRepeats : Nat
  passesNeeded : Nat
  crashLeft : Nat
  executableLeft : Nat
  cases : List (TestCase × Progress)
  pending : List TestCase
  confirmed : List TestCase
  recovered : List TestCase
  verdict : Option Verdict
  deriving DecidableEq, Repr

namespace Ledger

def start (p : Policy) : Ledger :=
  ⟨p.maxRepeats, p.passesNeeded, p.crashReruns, p.executableReruns, [], [], [], [], none⟩

def takeCrash? (l : Ledger) : Option Ledger :=
  match l.crashLeft with
  | 0 => none
  | n + 1 => some { l with crashLeft := n }

def takeExecutable? (l : Ledger) : Option Ledger :=
  match l.executableLeft with
  | 0 => none
  | n + 1 => some { l with executableLeft := n }

def progress? (l : Ledger) (c : TestCase) : Option Progress := l.cases.lookup c

def setProgress (c : TestCase) (p : Progress) :
    List (TestCase × Progress) → List (TestCase × Progress)
  | [] => [(c, p)]
  | (d, q) :: rest => if d == c then (d, p) :: rest else (d, q) :: setProgress c p rest

def isDecided (l : Ledger) (c : TestCase) : Bool :=
  l.recovered.contains c || l.confirmed.contains c

def enter (l : Ledger) (c : TestCase) : Ledger :=
  if l.isDecided c || l.pending.contains c then l
  else
    { l with
      pending := l.pending ++ [c]
      cases := if (l.progress? c).isSome then l.cases else l.cases ++ [(c, ⟨l.maxRepeats, 0, 0⟩)] }

/-- Starts confirming the failures of a full run. Cases that were pending before
are forgotten, but not their progress. -/
def beginConfirmation (l : Ledger) (failures : List TestCase) : Ledger :=
  failures.foldl enter { l with pending := [] }

/-- Takes one rerun of a pending case, if its budget has one left. The last one is verbose. -/
def nextRerun? (l : Ledger) (c : TestCase) : Option (Ticket × Ledger) :=
  if l.pending.contains c then
    match l.progress? c with
    | some ⟨left + 1, reruns, passes⟩ =>
      some (⟨reruns + 1, l.maxRepeats, left == 0⟩,
        { l with cases := setProgress c ⟨left, reruns + 1, passes⟩ l.cases })
    | _ => none
  else none

/-- Records a passing rerun. The case recovers when it has passed often enough. -/
def recordPass (l : Ledger) (c : TestCase) : Bool × Ledger :=
  match l.progress? c with
  | none => (false, l)
  | some p =>
    let p := { p with passes := p.passes + 1 }
    let l := { l with cases := setProgress c p l.cases }
    if l.passesNeeded ≤ p.passes then
      (true, { l with
        pending := l.pending.filter (· != c)
        recovered := l.recovered ++ [c] })
    else (false, l)

def confirm (l : Ledger) (c : TestCase) : Ledger :=
  { l with
    pending := l.pending.filter (· != c)
    confirmed := if l.confirmed.contains c then l.confirmed else l.confirmed ++ [c] }

def rerunsOf (l : Ledger) (c : TestCase) : Nat :=
  match l.progress? c with
  | some p => p.reruns
  | none => 0

def finish (l : Ledger) (v : Verdict) : Except String Ledger :=
  match l.verdict with
  | some earlier => .error ("verdict already recorded: Some(" ++ earlier.name ++ ")")
  | none => .ok { l with verdict := some v }

/-- The verdict where nothing is left to rerun. A confirmed failure counts to the end. -/
def settled (l : Ledger) : Verdict := if l.confirmed.isEmpty then .pass else .fail

theorem lookup_setProgress (c d : TestCase) (p : Progress) (cases : List (TestCase × Progress)) :
    (setProgress c p cases).lookup d = if d = c then some p else cases.lookup d := by
  induction cases with
  | nil =>
    by_cases h : d = c
    · simp [setProgress, h]
    · simp [setProgress, h]
  | cons e rest ih =>
    obtain ⟨k, q⟩ := e
    simp only [setProgress]
    by_cases hk : k = c
    · subst hk
      by_cases h : d = k
      · simp [h]
      · simp [List.lookup_cons, beq_eq_false_iff_ne.2 h, h]
    · simp only [beq_eq_false_iff_ne.2 hk, Bool.false_eq_true, if_false]
      by_cases h : d = k
      · subst h; simp [hk]
      · rw [List.lookup_cons, List.lookup_cons, beq_eq_false_iff_ne.2 h]
        simpa using ih

theorem progress?_nextRerun {l l' : Ledger} {c d : TestCase} {t : Ticket}
    (h : l.nextRerun? c = some (t, l')) :
    ∃ p : Progress, l.progress? c = some ⟨p.left + 1, p.reruns, p.passes⟩ ∧
      l'.progress? d = if d = c then some ⟨p.left, p.reruns + 1, p.passes⟩ else l.progress? d := by
  unfold nextRerun? at h
  split at h
  · split at h
    · next left reruns passes e =>
      simp only [Option.some.injEq, Prod.mk.injEq] at h
      refine ⟨⟨left, reruns, passes⟩, e, ?_⟩
      rw [← h.2]
      exact lookup_setProgress c d _ l.cases
    · simp at h
  · simp at h

end Ledger

end Retrial
