import Retrial.Proofs.Ledger.Effects

/-!
# Ledgers and their journals

A ledger may be asked for any of its operations, of any test case and in any
order, whether a run would ask for it or not. Its journal notes each operation
with the reply to it. All that an operation can do is said once; what each of
them preserves then holds of a ledger after any number of them.
-/

set_option autoImplicit false

namespace Retrial.Ledger

inductive Operation
  | beginConfirmation (failures : List TestCase)
  | nextRerun (c : TestCase)
  | recordPass (c : TestCase)
  | confirm (c : TestCase)
  | takeCrash
  | takeExecutable
  | finish (v : Verdict)
  deriving DecidableEq, Repr

def Operation.subject? : Operation → Option TestCase
  | .nextRerun c | .recordPass c | .confirm c => some c
  | _ => none

inductive Reply
  | pending (cases : List TestCase)
  | ticket (t : Option Ticket)
  | recovered (b : Bool)
  | noted
  | taken (b : Bool)
  | refused (message : String)
  deriving DecidableEq, Repr

structure Line where
  operation : Operation
  reply : Reply
  deriving DecidableEq, Repr

/-- Carries out one operation. What fails leaves the ledger as it was. -/
def perform (l : Ledger) : Operation → Reply × Ledger
  | .beginConfirmation failures =>
    (.pending (l.beginConfirmation failures).pending, l.beginConfirmation failures)
  | .nextRerun c =>
    match l.nextRerun? c with
    | some (t, l') => (.ticket (some t), l')
    | none => (.ticket none, l)
  | .recordPass c => (.recovered (l.recordPass c).1, (l.recordPass c).2)
  | .confirm c => (.noted, l.confirm c)
  | .takeCrash =>
    match l.takeCrash? with
    | some l' => (.taken true, l')
    | none => (.taken false, l)
  | .takeExecutable =>
    match l.takeExecutable? with
    | some l' => (.taken true, l')
    | none => (.taken false, l)
  | .finish v =>
    match l.finish v with
    | .ok l' => (.noted, l')
    | .error message => (.refused message, l)

def after (l : Ledger) : List Operation → Ledger
  | [] => l
  | op :: ops => (l.perform op).2.after ops

def journal (l : Ledger) : List Operation → List Line
  | [] => []
  | op :: ops => ⟨op, (l.perform op).1⟩ :: (l.perform op).2.journal ops

theorem after_append (l : Ledger) (ops more : List Operation) :
    l.after (ops ++ more) = (l.after ops).after more := by
  induction ops generalizing l with
  | nil => rfl
  | cons op ops ih => exact ih _

inductive Performed (l : Ledger) : Operation → Reply → Ledger → Prop
  | begun (failures : List TestCase) :
      Performed l (.beginConfirmation failures) (.pending (l.beginConfirmation failures).pending)
        (l.beginConfirmation failures)
  | granted {l' : Ledger} {c : TestCase} {t : Ticket} : l.nextRerun? c = some (t, l') →
      Performed l (.nextRerun c) (.ticket (some t)) l'
  | denied {c : TestCase} : l.nextRerun? c = none → Performed l (.nextRerun c) (.ticket none) l
  | unknown {c : TestCase} : l.progress? c = none → Performed l (.recordPass c) (.recovered false) l
  | counted {c : TestCase} {p : Progress} : l.progress? c = some p → p.passes + 1 < l.passesNeeded →
      Performed l (.recordPass c) (.recovered false)
        { l with cases := setProgress c { p with passes := p.passes + 1 } l.cases }
  | recovered {c : TestCase} {p : Progress} : l.progress? c = some p →
      l.passesNeeded ≤ p.passes + 1 → Performed l (.recordPass c) (.recovered true)
        { l with
          cases := setProgress c { p with passes := p.passes + 1 } l.cases
          pending := l.pending.filter (· != c)
          recovered := l.recovered ++ [c] }
  | confirmed (c : TestCase) : Performed l (.confirm c) .noted (l.confirm c)
  | crashTaken {n : Nat} : l.crashLeft = n + 1 →
      Performed l .takeCrash (.taken true) { l with crashLeft := n }
  | crashSpent : l.crashLeft = 0 → Performed l .takeCrash (.taken false) l
  | executableTaken {n : Nat} : l.executableLeft = n + 1 →
      Performed l .takeExecutable (.taken true) { l with executableLeft := n }
  | executableSpent : l.executableLeft = 0 → Performed l .takeExecutable (.taken false) l
  | finished (v : Verdict) : l.verdict = none →
      Performed l (.finish v) .noted { l with verdict := some v }
  | finishedBefore {earlier : Verdict} (v : Verdict) : l.verdict = some earlier →
      Performed l (.finish v)
        (.refused ("verdict already recorded: Some(" ++ earlier.name ++ ")")) l

theorem performed_perform (l : Ledger) (op : Operation) :
    Performed l op (l.perform op).1 (l.perform op).2 := by
  cases op with
  | beginConfirmation failures => exact .begun failures
  | nextRerun c =>
    cases h : l.nextRerun? c with
    | none =>
      simp only [perform, h]
      exact .denied h
    | some granted =>
      simp only [perform, h]
      exact .granted h
  | recordPass c =>
    cases h : l.progress? c with
    | none =>
      simp only [perform, recordPass, h]
      exact .unknown h
    | some p =>
      simp only [perform, recordPass_of_progress? h]
      by_cases hn : l.passesNeeded ≤ p.passes + 1
      · rw [if_pos hn]
        exact .recovered h hn
      · rw [if_neg hn]
        exact .counted h (Nat.not_le.1 hn)
  | confirm c => exact .confirmed c
  | takeCrash =>
    cases h : l.takeCrash? with
    | none =>
      simp only [perform, h]
      exact .crashSpent (takeCrash?_eq_none.1 h)
    | some l' =>
      obtain ⟨n, hn, rfl⟩ := takeCrash?_eq_some.1 h
      simp only [perform, h]
      exact .crashTaken hn
  | takeExecutable =>
    cases h : l.takeExecutable? with
    | none =>
      simp only [perform, h]
      exact .executableSpent (takeExecutable?_eq_none.1 h)
    | some l' =>
      obtain ⟨n, hn, rfl⟩ := takeExecutable?_eq_some.1 h
      simp only [perform, h]
      exact .executableTaken hn
  | finish v =>
    cases hv : l.verdict with
    | none =>
      have h : l.finish v = .ok { l with verdict := some v } := by simp only [finish, hv]
      simp only [perform, h]
      exact .finished v hv
    | some earlier =>
      simp only [perform, finish, hv]
      exact .finishedBefore v hv

/-- What holds at the start, and is preserved by each operation, holds of the
journal and of the ledger after any operations. -/
theorem journal_induction {P : List Line → Ledger → Prop} {l : Ledger} (h : P [] l)
    (hp : ∀ js l op, P js l → P (js ++ [⟨op, (l.perform op).1⟩]) (l.perform op).2)
    (ops : List Operation) : P (l.journal ops) (l.after ops) := by
  have hg : ∀ js, P js l → P (js ++ l.journal ops) (l.after ops) := by
    clear h
    induction ops generalizing l with
    | nil =>
      intro js h
      rw [journal, List.append_nil]
      exact h
    | cons op ops ih =>
      intro js h
      rw [journal, List.append_cons]
      exact ih _ (hp js l op h)
  exact hg [] h

theorem after_induction {P : Ledger → Prop} {l : Ledger} (h : P l)
    (hp : ∀ l op, P l → P (l.perform op).2) (ops : List Operation) : P (l.after ops) :=
  journal_induction (P := fun _ l => P l) h (fun _ l op => hp l op) ops

end Retrial.Ledger
