import Retrial.Event
import Retrial.Ledger

/-!
# What to run next

After each attempt its classification decides whether the whole binary is run
again, a single test case is rerun, or the run stops with a verdict. A decision
may settle test cases on the way, which it reports as events. Whatever the
attempts show, the weight of the ledger and of what is run next goes down with
each decision, so a run comes to an end.
-/

set_option autoImplicit false

namespace Retrial

/-- What an attempt is run for. Behind a rerun stand the cases that are to be
confirmed after its own. -/
inductive Step
  | fullRun
  | rerun (testCase : TestCase) (ticket : Ticket) (later : List TestCase)
  deriving DecidableEq, Repr

def Step.kind : Step → AttemptKind
  | .fullRun => .fullRun
  | .rerun testCase ticket _ => .rerun testCase ticket

inductive Next
  | attempt (step : Step)
  | stop (verdict : Verdict)
  deriving DecidableEq, Repr

structure Decision where
  events : List Event
  ledger : Ledger
  next : Next
  deriving DecidableEq, Repr

namespace Decision

def report (e : Event) (d : Decision) : Decision := { d with events := e :: d.events }

/-- Goes through cases that are to be confirmed: the first with a rerun left is
rerun, and those before it, whose budgets are used up, are confirmed. -/
def confirmFrom (l : Ledger) : List TestCase → Decision
  | [] => ⟨[], l, .stop l.settled⟩
  | c :: later =>
    match l.nextRerun? c with
    | some (ticket, l) => ⟨[], l, .attempt (.rerun c ticket later)⟩
    | none => (confirmFrom (l.confirm c) later).report (.confirmed c ((l.confirm c).rerunsOf c))

def afterCrash (l : Ledger) (reason : CrashReason) : Decision :=
  if reason.allowsRerun then
    match l.takeCrash? with
    | some l => ⟨[.wholeRerunScheduled (.crashed reason) l.crashLeft], l, .attempt .fullRun⟩
    | none => ⟨[], l, .stop .crash⟩
  else ⟨[], l, .stop .crash⟩

def afterFullRun (l : Ledger) : Classification → Decision
  | .passed => ⟨[], l, .stop l.settled⟩
  | .executableFailed code =>
    match l.takeExecutable? with
    | some l => ⟨[.wholeRerunScheduled (.executableFailed code) 0], l, .attempt .fullRun⟩
    | none => ⟨[], l, .stop .fail⟩
  | .functionsFailed failures =>
    confirmFrom (l.beginConfirmation failures) (l.beginConfirmation failures).pending
  | .crashed reason => afterCrash l reason

def afterRerun (l : Ledger) (c : TestCase) (ticket : Ticket) (later : List TestCase) :
    Classification → Decision
  | .passed =>
    match l.recordPass c with
    | (true, l) => (confirmFrom l later).report (.recovered c ticket.rerun)
    | (false, l) => confirmFrom l (c :: later)
  | .functionsFailed _ => confirmFrom l (c :: later)
  | .executableFailed _ => confirmFrom l (c :: later)
  | .crashed reason => afterCrash l reason

def after (l : Ledger) : Step → Classification → Decision
  | .fullRun, c => afterFullRun l c
  | .rerun testCase ticket later, c => afterRerun l testCase ticket later c

@[simp] theorem report_ledger (e : Event) (d : Decision) : (d.report e).ledger = d.ledger := rfl

@[simp] theorem report_next (e : Event) (d : Decision) : (d.report e).next = d.next := rfl

@[simp] theorem report_events (e : Event) (d : Decision) :
    (d.report e).events = e :: d.events := rfl

end Decision

namespace Ledger

def wholeLeft (l : Ledger) : Nat := l.crashLeft + l.executableLeft

def leftOf (l : Ledger) (c : TestCase) : Nat :=
  match l.progress? c with
  | some p => p.left
  | none => 0

def leftOfAll (l : Ledger) : List TestCase → Nat
  | [] => 0
  | c :: cs => l.leftOf c + l.leftOfAll cs

theorem leftOfAll_le {l l' : Ledger} (h : ∀ c, l'.leftOf c ≤ l.leftOf c) (cs : List TestCase) :
    l'.leftOfAll cs ≤ l.leftOfAll cs := by
  induction cs with
  | nil => simp [leftOfAll]
  | cons c cs ih =>
    have := h c
    simp only [leftOfAll]
    omega

theorem leftOf_nextRerun {l l' : Ledger} {c : TestCase} {t : Ticket}
    (h : l.nextRerun? c = some (t, l')) (d : TestCase) :
    l'.leftOf d ≤ l.leftOf d ∧ (d = c → l'.leftOf d + 1 = l.leftOf d) := by
  obtain ⟨p, hc, hd⟩ := progress?_nextRerun h (d := d)
  by_cases e : d = c
  · subst e
    rw [if_pos rfl] at hd
    simp [leftOf, hc, hd]
  · rw [if_neg e] at hd
    simp [leftOf, hd, e]

theorem wholeLeft_nextRerun {l l' : Ledger} {c : TestCase} {t : Ticket}
    (h : l.nextRerun? c = some (t, l')) : l'.wholeLeft = l.wholeLeft := by
  unfold nextRerun? at h
  split at h
  · split at h
    · simp only [Option.some.injEq, Prod.mk.injEq] at h
      rw [← h.2]; rfl
    · simp at h
  · simp at h

theorem leftOf_confirm (l : Ledger) (c d : TestCase) : (l.confirm c).leftOf d = l.leftOf d := rfl

theorem wholeLeft_confirm (l : Ledger) (c : TestCase) : (l.confirm c).wholeLeft = l.wholeLeft := rfl

theorem leftOf_recordPass (l : Ledger) (c d : TestCase) :
    (l.recordPass c).2.leftOf d = l.leftOf d := by
  unfold recordPass
  split
  · rfl
  · next p e =>
    have key : ∀ q : Progress, q.left = p.left →
        (match (setProgress c q l.cases).lookup d with | some r => r.left | none => 0) =
          l.leftOf d := by
      intro q hq
      rw [lookup_setProgress]
      by_cases h : d = c
      · subst h; simp [leftOf, e, hq]
      · rw [if_neg h]; rfl
    dsimp only
    split <;> exact key _ rfl

theorem wholeLeft_recordPass (l : Ledger) (c : TestCase) :
    (l.recordPass c).2.wholeLeft = l.wholeLeft := by
  unfold recordPass
  split
  · rfl
  · dsimp only; split <;> rfl

theorem wholeLeft_enter (l : Ledger) (c : TestCase) : (l.enter c).wholeLeft = l.wholeLeft := by
  unfold enter
  split <;> rfl

theorem wholeLeft_foldl_enter (failures : List TestCase) (l : Ledger) :
    (failures.foldl enter l).wholeLeft = l.wholeLeft := by
  induction failures generalizing l with
  | nil => rfl
  | cons c cs ih => rw [List.foldl_cons, ih, wholeLeft_enter]

theorem wholeLeft_beginConfirmation (l : Ledger) (failures : List TestCase) :
    (l.beginConfirmation failures).wholeLeft = l.wholeLeft :=
  wholeLeft_foldl_enter failures _

theorem wholeLeft_takeCrash {l l' : Ledger} (h : l.takeCrash? = some l') :
    l'.wholeLeft + 1 = l.wholeLeft := by
  unfold takeCrash? at h
  split at h
  · simp at h
  · next n e =>
    simp only [Option.some.injEq] at h
    subst h
    simp only [wholeLeft, e]
    omega

theorem wholeLeft_takeExecutable {l l' : Ledger} (h : l.takeExecutable? = some l') :
    l'.wholeLeft + 1 = l.wholeLeft := by
  unfold takeExecutable? at h
  split at h
  · simp at h
  · next n e =>
    simp only [Option.some.injEq] at h
    subst h
    simp only [wholeLeft, e]
    omega

end Ledger

/-- How much a run can still do: whole reruns first, then a full run that is
about to start, then the reruns of the cases under confirmation. -/
def weight (l : Ledger) : Next → Nat × Nat × Nat
  | .attempt .fullRun => (l.wholeLeft, 1, 0)
  | .attempt (.rerun c _ later) => (l.wholeLeft, 0, 1 + l.leftOfAll (c :: later))
  | .stop _ => (l.wholeLeft, 0, 0)

def Lighter (a b : Nat × Nat × Nat) : Prop :=
  Prod.Lex (· < ·) (Prod.Lex (· < ·) (· < ·)) a b

namespace Decision

theorem confirmFrom_weight (l : Ledger) (cs : List TestCase) :
    (weight (confirmFrom l cs).ledger (confirmFrom l cs).next).1 = l.wholeLeft ∧
      (weight (confirmFrom l cs).ledger (confirmFrom l cs).next).2.1 = 0 ∧
      (weight (confirmFrom l cs).ledger (confirmFrom l cs).next).2.2 ≤ l.leftOfAll cs := by
  induction cs generalizing l with
  | nil => simp [confirmFrom, weight]
  | cons c later ih =>
    simp only [confirmFrom]
    split
    · next ticket l' e =>
      have hc := Ledger.leftOf_nextRerun e
      have := Ledger.leftOfAll_le (fun d => (hc d).1) later
      have := (hc c).2 rfl
      simp only [weight, Ledger.leftOfAll, Ledger.wholeLeft_nextRerun e, true_and]
      omega
    · obtain ⟨h₁, h₂, h₃⟩ := ih (l.confirm c)
      simp only [report_ledger, report_next]
      refine ⟨by rw [h₁, Ledger.wholeLeft_confirm], h₂, Nat.le_trans h₃ ?_⟩
      have := Ledger.leftOfAll_le (fun d => Nat.le_of_eq (Ledger.leftOf_confirm l c d)) later
      simp only [Ledger.leftOfAll]
      omega

theorem lighter_of_fst {a b : Nat × Nat × Nat} (h : a.1 < b.1) : Lighter a b := by
  obtain ⟨a₁, a₂⟩ := a
  obtain ⟨b₁, b₂⟩ := b
  exact Prod.Lex.left _ _ h

theorem lighter_of_snd {a b : Nat × Nat × Nat} (h₁ : a.1 = b.1) (h₂ : a.2.1 < b.2.1) :
    Lighter a b := by
  obtain ⟨a₁, a₂, a₃⟩ := a
  obtain ⟨b₁, b₂, b₃⟩ := b
  obtain rfl : a₁ = b₁ := h₁
  exact Prod.Lex.right _ (Prod.Lex.left _ _ h₂)

theorem lighter_of_thd {a b : Nat × Nat × Nat} (h₁ : a.1 = b.1) (h₂ : a.2.1 = b.2.1)
    (h₃ : a.2.2 < b.2.2) : Lighter a b := by
  obtain ⟨a₁, a₂, a₃⟩ := a
  obtain ⟨b₁, b₂, b₃⟩ := b
  obtain rfl : a₁ = b₁ := h₁
  obtain rfl : a₂ = b₂ := h₂
  exact Prod.Lex.right _ (Prod.Lex.right _ h₃)

theorem afterCrash_weight (l : Ledger) (reason : CrashReason) :
    (weight (afterCrash l reason).ledger (afterCrash l reason).next).1 < l.wholeLeft ∨
      (weight (afterCrash l reason).ledger (afterCrash l reason).next) = (l.wholeLeft, 0, 0) := by
  unfold afterCrash
  split
  · split
    · next l' e =>
      have := Ledger.wholeLeft_takeCrash e
      left
      simp only [weight]
      omega
    · right; rfl
  · right; rfl

theorem afterFullRun_lighter (l : Ledger) (c : Classification) :
    Lighter (weight (afterFullRun l c).ledger (afterFullRun l c).next) (weight l (.attempt .fullRun)) := by
  cases c with
  | passed => exact lighter_of_snd rfl Nat.one_pos
  | executableFailed code =>
    simp only [afterFullRun]
    split
    · next l' e =>
      have := Ledger.wholeLeft_takeExecutable e
      exact lighter_of_fst (by simp only [weight]; omega)
    · exact lighter_of_snd rfl Nat.one_pos
  | functionsFailed failures =>
    obtain ⟨h₁, h₂, _⟩ := confirmFrom_weight (l.beginConfirmation failures)
      (l.beginConfirmation failures).pending
    refine lighter_of_snd ?_ ?_
    · rw [afterFullRun, h₁, Ledger.wholeLeft_beginConfirmation]; rfl
    · rw [afterFullRun, h₂]; exact Nat.one_pos
  | crashed reason =>
    rcases afterCrash_weight l reason with h | h
    · exact lighter_of_fst h
    · rw [afterFullRun, h]; exact lighter_of_snd rfl Nat.one_pos

theorem afterRerun_lighter (l : Ledger) (c : TestCase) (ticket : Ticket) (later : List TestCase)
    (k : Classification) :
    Lighter (weight (afterRerun l c ticket later k).ledger (afterRerun l c ticket later k).next)
      (weight l (.attempt (.rerun c ticket later))) := by
  have again : ∀ l' : Ledger, l'.wholeLeft = l.wholeLeft → (∀ d, l'.leftOf d = l.leftOf d) →
      ∀ cs : List TestCase, l.leftOfAll cs ≤ l.leftOfAll (c :: later) →
      Lighter (weight (confirmFrom l' cs).ledger (confirmFrom l' cs).next)
        (weight l (.attempt (.rerun c ticket later))) := by
    intro l' hw hl cs hcs
    obtain ⟨h₁, h₂, h₃⟩ := confirmFrom_weight l' cs
    have := Ledger.leftOfAll_le (fun d => Nat.le_of_eq (hl d)) cs
    refine lighter_of_thd (by rw [h₁, hw]; rfl) (by rw [h₂]; rfl) ?_
    change _ < 1 + l.leftOfAll (c :: later)
    omega
  cases k with
  | passed =>
    simp only [afterRerun]
    have hw := Ledger.wholeLeft_recordPass l c
    have hl := Ledger.leftOf_recordPass l c
    split
    · next l' e =>
      rw [e] at hw hl
      exact again l' hw hl later (by simp only [Ledger.leftOfAll]; omega)
    · next l' e =>
      rw [e] at hw hl
      exact again l' hw hl _ (Nat.le_refl _)
  | functionsFailed failures => exact again l rfl (fun _ => rfl) _ (Nat.le_refl _)
  | executableFailed code => exact again l rfl (fun _ => rfl) _ (Nat.le_refl _)
  | crashed reason =>
    rcases afterCrash_weight l reason with h | h
    · exact lighter_of_fst h
    · rw [afterRerun, h]
      exact lighter_of_thd rfl rfl (by simp only [weight]; omega)

/-- Every decision makes the rest of a run lighter. -/
theorem after_lighter (l : Ledger) (step : Step) (c : Classification) :
    Lighter (weight (after l step c).ledger (after l step c).next) (weight l (.attempt step)) := by
  cases step with
  | fullRun => exact afterFullRun_lighter l c
  | rerun testCase ticket later => exact afterRerun_lighter l testCase ticket later c

end Decision

end Retrial
