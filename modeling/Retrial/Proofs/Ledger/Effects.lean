import Retrial.Decision

/-!
# What an entry changes

Each operation on the ledger, taken apart: when it succeeds, which fields it
writes, and what it says of a test case afterwards. Later arguments use these
equations and never look inside an operation again.
-/

set_option autoImplicit false

namespace Retrial.Ledger

/-- How a case stands. One that never failed has its whole budget before it. -/
def standing (l : Ledger) (c : TestCase) : Progress :=
  (l.progress? c).getD ⟨l.maxRepeats, 0, 0⟩

theorem standing_of_progress? {l : Ledger} {c : TestCase} {p : Progress}
    (h : l.progress? c = some p) : l.standing c = p := by
  simp [standing, h]

theorem rerunsOf_eq_standing (l : Ledger) (c : TestCase) :
    l.rerunsOf c = (l.standing c).reruns := by
  unfold rerunsOf standing
  cases l.progress? c <;> rfl

theorem standing_of_setProgress {l l' : Ledger} {c : TestCase} {p : Progress}
    (hc : l'.cases = setProgress c p l.cases) (hm : l'.maxRepeats = l.maxRepeats) (d : TestCase) :
    l'.standing d = if d = c then p else l.standing d := by
  unfold standing progress?
  rw [hc, hm, lookup_setProgress]
  by_cases h : d = c <;> simp [h]

theorem standing_of_same {l l' : Ledger} (hc : l'.cases = l.cases)
    (hm : l'.maxRepeats = l.maxRepeats) (c : TestCase) : l'.standing c = l.standing c := by
  rw [standing, progress?, hc, hm]
  rfl

@[simp] theorem standing_confirm (l : Ledger) (c d : TestCase) :
    (l.confirm c).standing d = l.standing d := rfl

def keys (l : Ledger) : List TestCase := l.cases.map Prod.fst

theorem isSome_progress?_iff {l : Ledger} {c : TestCase} : (l.progress? c).isSome ↔ c ∈ l.keys := by
  unfold progress? keys
  induction l.cases with
  | nil => simp
  | cons e rest ih =>
    obtain ⟨d, q⟩ := e
    by_cases hd : c = d
    · simp [hd]
    · rw [List.lookup_cons, beq_eq_false_iff_ne.2 hd, List.map_cons, List.mem_cons, ih]
      simp [hd]

theorem map_fst_setProgress {c : TestCase} (p : Progress) (cases : List (TestCase × Progress))
    (h : c ∈ cases.map Prod.fst) : (setProgress c p cases).map Prod.fst = cases.map Prod.fst := by
  induction cases with
  | nil => simp at h
  | cons e rest ih =>
    obtain ⟨d, q⟩ := e
    by_cases hd : d = c
    · simp [setProgress, hd]
    · have hr : c ∈ rest.map Prod.fst := by simpa [Ne.symm hd] using h
      simp [setProgress, hd, ih hr]

theorem keys_of_setProgress {l l' : Ledger} {c : TestCase} {p : Progress} (hk : c ∈ l.keys)
    (hc : l'.cases = setProgress c p l.cases) : l'.keys = l.keys := by
  rw [keys, hc, map_fst_setProgress p l.cases hk]
  rfl

theorem keys_of_same {l l' : Ledger} (h : l'.cases = l.cases) : l'.keys = l.keys := by
  rw [keys, h]
  rfl

@[simp] theorem keys_confirm (l : Ledger) (c : TestCase) : (l.confirm c).keys = l.keys := rfl

theorem takeCrash?_eq_some {l l' : Ledger} :
    l.takeCrash? = some l' ↔ ∃ n, l.crashLeft = n + 1 ∧ l' = { l with crashLeft := n } := by
  unfold takeCrash?
  cases h : l.crashLeft <;> simp [eq_comm]

theorem takeCrash?_eq_none {l : Ledger} : l.takeCrash? = none ↔ l.crashLeft = 0 := by
  unfold takeCrash?
  cases h : l.crashLeft <;> simp

theorem takeExecutable?_eq_some {l l' : Ledger} :
    l.takeExecutable? = some l' ↔
      ∃ n, l.executableLeft = n + 1 ∧ l' = { l with executableLeft := n } := by
  unfold takeExecutable?
  cases h : l.executableLeft <;> simp [eq_comm]

theorem takeExecutable?_eq_none {l : Ledger} :
    l.takeExecutable? = none ↔ l.executableLeft = 0 := by
  unfold takeExecutable?
  cases h : l.executableLeft <;> simp

/-- A rerun is granted to a pending case that has one left. Only the progress of
that case is written. -/
theorem nextRerun?_eq_some {l l' : Ledger} {c : TestCase} {t : Ticket}
    (h : l.nextRerun? c = some (t, l')) :
    c ∈ l.pending ∧ ∃ p : Progress, l.progress? c = some ⟨p.left + 1, p.reruns, p.passes⟩ ∧
      t = ⟨p.reruns + 1, l.maxRepeats, p.left == 0⟩ ∧
      l' = { l with cases := setProgress c ⟨p.left, p.reruns + 1, p.passes⟩ l.cases } := by
  unfold nextRerun? at h
  split at h
  · next hp =>
    split at h
    · next left reruns passes e =>
      simp only [Option.some.injEq, Prod.mk.injEq] at h
      exact ⟨List.contains_iff_mem.1 hp, ⟨left, reruns, passes⟩, e, h.1.symm, h.2.symm⟩
    · simp at h
  · simp at h

theorem nextRerun?_frame {l l' : Ledger} {c : TestCase} {t : Ticket}
    (h : l.nextRerun? c = some (t, l')) : l' = { l with cases := l'.cases } := by
  obtain ⟨-, p, -, -, rfl⟩ := nextRerun?_eq_some h
  rfl

theorem keys_nextRerun? {l l' : Ledger} {c : TestCase} {t : Ticket}
    (h : l.nextRerun? c = some (t, l')) (hk : c ∈ l.keys) : l'.keys = l.keys := by
  obtain ⟨-, p, -, -, rfl⟩ := nextRerun?_eq_some h
  exact keys_of_setProgress hk rfl

theorem standing_nextRerun? {l l' : Ledger} {c : TestCase} {t : Ticket}
    (h : l.nextRerun? c = some (t, l')) :
    ∃ p : Progress, l.standing c = ⟨p.left + 1, p.reruns, p.passes⟩ ∧
      t = ⟨p.reruns + 1, l.maxRepeats, p.left == 0⟩ ∧
      ∀ d, l'.standing d = if d = c then ⟨p.left, p.reruns + 1, p.passes⟩ else l.standing d := by
  obtain ⟨-, p, hp, ht, rfl⟩ := nextRerun?_eq_some h
  exact ⟨p, standing_of_progress? hp, ht, standing_of_setProgress rfl rfl⟩

theorem left_eq_zero_of_nextRerun? {l : Ledger} {c : TestCase} (h : l.nextRerun? c = none)
    (hp : c ∈ l.pending) (hk : c ∈ l.keys) : (l.standing c).left = 0 := by
  obtain ⟨p, hq⟩ := Option.isSome_iff_exists.1 (isSome_progress?_iff.2 hk)
  rw [standing_of_progress? hq]
  obtain ⟨left, reruns, passes⟩ := p
  cases left with
  | zero => rfl
  | succ n => simp [nextRerun?, hp, hq] at h

theorem recordPass_of_progress? {l : Ledger} {c : TestCase} {p : Progress}
    (h : l.progress? c = some p) :
    l.recordPass c =
      if l.passesNeeded ≤ p.passes + 1 then
        (true, { l with
          cases := setProgress c { p with passes := p.passes + 1 } l.cases
          pending := l.pending.filter (· != c)
          recovered := l.recovered ++ [c] })
      else
        (false, { l with cases := setProgress c { p with passes := p.passes + 1 } l.cases }) := by
  unfold recordPass
  rw [h]

theorem standing_recordPass {l l' : Ledger} {c : TestCase} {b : Bool}
    (h : l.recordPass c = (b, l')) (hk : c ∈ l.keys) (d : TestCase) :
    l'.standing d =
      if d = c then { l.standing c with passes := (l.standing c).passes + 1 } else l.standing d := by
  obtain ⟨p, hp⟩ := Option.isSome_iff_exists.1 (isSome_progress?_iff.2 hk)
  rw [recordPass_of_progress? hp] at h
  rw [standing_of_progress? hp]
  have hs : l'.cases = setProgress c { p with passes := p.passes + 1 } l.cases ∧
      l'.maxRepeats = l.maxRepeats := by
    split at h <;> cases h <;> exact ⟨rfl, rfl⟩
  exact standing_of_setProgress hs.1 hs.2 d

theorem keys_recordPass {l l' : Ledger} {c : TestCase} {b : Bool}
    (h : l.recordPass c = (b, l')) (hk : c ∈ l.keys) : l'.keys = l.keys := by
  obtain ⟨p, hp⟩ := Option.isSome_iff_exists.1 (isSome_progress?_iff.2 hk)
  rw [recordPass_of_progress? hp] at h
  split at h <;> cases h <;> exact keys_of_setProgress hk rfl

theorem recordPass_eq_true {l l' : Ledger} {c : TestCase} (h : l.recordPass c = (true, l'))
    (hk : c ∈ l.keys) : l.passesNeeded ≤ (l.standing c).passes + 1 ∧
      l' = { l with
        cases := l'.cases
        pending := l.pending.filter (· != c)
        recovered := l.recovered ++ [c] } := by
  obtain ⟨p, hp⟩ := Option.isSome_iff_exists.1 (isSome_progress?_iff.2 hk)
  rw [recordPass_of_progress? hp] at h
  rw [standing_of_progress? hp]
  split at h
  · next hn => cases h; exact ⟨hn, rfl⟩
  · cases h

theorem recordPass_eq_false {l l' : Ledger} {c : TestCase} (h : l.recordPass c = (false, l'))
    (hk : c ∈ l.keys) : (l.standing c).passes + 1 < l.passesNeeded ∧
      l' = { l with cases := l'.cases } := by
  obtain ⟨p, hp⟩ := Option.isSome_iff_exists.1 (isSome_progress?_iff.2 hk)
  rw [recordPass_of_progress? hp] at h
  rw [standing_of_progress? hp]
  split at h
  · cases h
  · next hn => cases h; exact ⟨Nat.not_le.1 hn, rfl⟩

@[simp] theorem recovered_confirm (l : Ledger) (c : TestCase) :
    (l.confirm c).recovered = l.recovered := rfl

@[simp] theorem mem_confirmed_confirm {l : Ledger} {c d : TestCase} :
    d ∈ (l.confirm c).confirmed ↔ d ∈ l.confirmed ∨ d = c := by
  unfold confirm
  by_cases hc : c ∈ l.confirmed
  · simpa [hc] using fun h => h ▸ hc
  · simp [hc]

@[simp] theorem mem_pending_confirm {l : Ledger} {c d : TestCase} :
    d ∈ (l.confirm c).pending ↔ d ∈ l.pending ∧ d ≠ c := by
  simp [confirm]

theorem isDecided_iff {l : Ledger} {c : TestCase} :
    l.isDecided c = true ↔ c ∈ l.recovered ∨ c ∈ l.confirmed := by
  simp [isDecided]

theorem enter_of_known {l : Ledger} {c : TestCase}
    (h : (c ∈ l.recovered ∨ c ∈ l.confirmed) ∨ c ∈ l.pending) : l.enter c = l := by
  have hc : (l.isDecided c || l.pending.contains c) = true := by
    simpa [isDecided_iff] using h
  simp only [enter, hc, if_true]

theorem enter_of_fresh {l : Ledger} {c : TestCase}
    (h : ¬((c ∈ l.recovered ∨ c ∈ l.confirmed) ∨ c ∈ l.pending)) :
    l.enter c = { l with
      pending := l.pending ++ [c]
      cases := if (l.progress? c).isSome then l.cases
        else l.cases ++ [(c, ⟨l.maxRepeats, 0, 0⟩)] } := by
  have hc : (l.isDecided c || l.pending.contains c) = false := by
    rw [Bool.eq_false_iff]
    simpa [isDecided_iff] using h
  simp only [enter, hc, Bool.false_eq_true, if_false]

structure Entered (l l' : Ledger) (failures : List TestCase) : Prop where
  frame : l' = { l with cases := l'.cases, pending := l'.pending }
  standing : ∀ c, l'.standing c = l.standing c
  pending : ∀ c, c ∈ l'.pending ↔
    c ∈ l.pending ∨ c ∈ failures ∧ ¬(c ∈ l.recovered ∨ c ∈ l.confirmed)
  pending_nodup : l.pending.Nodup → l'.pending.Nodup
  keys : ∀ c, c ∈ l'.keys ↔ c ∈ l.keys ∨ c ∈ l'.pending ∧ c ∉ l.pending
  keys_nodup : l.keys.Nodup → l'.keys.Nodup

/-- A fresh account says of a case what was true without it. -/
theorem standing_of_account {l l' : Ledger} {c : TestCase} (hk : c ∉ l.keys)
    (hc : l'.cases = l.cases ++ [(c, ⟨l.maxRepeats, 0, 0⟩)]) (hm : l'.maxRepeats = l.maxRepeats)
    (d : TestCase) : l'.standing d = l.standing d := by
  have hn : l.progress? c = none := by
    simpa using mt isSome_progress?_iff.1 hk
  unfold standing progress? at *
  rw [hc, hm, List.lookup_append]
  by_cases h : d = c
  · simp [h, hn]
  · simp [List.lookup_cons, beq_eq_false_iff_ne.2 h]

theorem nodup_concat {c : TestCase} {cs : List TestCase} (hn : cs.Nodup) (hc : c ∉ cs) :
    (cs ++ [c]).Nodup := by
  simpa [List.nodup_append, hn] using fun d hd (e : d = c) => hc (e ▸ hd)

theorem entered_enter (l : Ledger) (c : TestCase) : Entered l (l.enter c) [c] := by
  by_cases h : (c ∈ l.recovered ∨ c ∈ l.confirmed) ∨ c ∈ l.pending
  · rw [enter_of_known h]
    constructor
    case pending => intro d; simp only [List.mem_singleton]; grind
    all_goals simp
  · have hp : c ∉ l.pending := fun hp => h (Or.inr hp)
    rw [enter_of_fresh h]
    by_cases hk : c ∈ l.keys
    · rw [if_pos (isSome_progress?_iff.2 hk)]
      constructor
      case pending => intro d; simp only [List.mem_append, List.mem_singleton]; grind
      case pending_nodup => exact fun hn => nodup_concat hn hp
      case keys => intro d; simp only [keys, List.mem_append, List.mem_singleton] at *; grind
      all_goals simp [standing, progress?, Ledger.keys]
    · rw [if_neg (mt isSome_progress?_iff.1 hk)]
      constructor
      case standing => exact standing_of_account hk rfl rfl
      case pending => intro d; simp only [List.mem_append, List.mem_singleton]; grind
      case pending_nodup => exact fun hn => nodup_concat hn hp
      case keys => intro d; simp [Ledger.keys]; grind
      case keys_nodup => intro hn; simpa [Ledger.keys] using nodup_concat hn hk
      case frame => rfl

theorem Entered.trans {l l' l'' : Ledger} {first second : List TestCase}
    (h : Entered l l' first) (h' : Entered l' l'' second) : Entered l l'' (first ++ second) := by
  have hr : l'.recovered = l.recovered := by rw [h.frame]
  have hc : l'.confirmed = l.confirmed := by rw [h.frame]
  constructor
  case frame => rw [h'.frame, h.frame]
  case standing => intro c; rw [h'.standing, h.standing]
  case pending =>
    intro c
    rw [h'.pending, h.pending, hr, hc, List.mem_append]
    grind
  case pending_nodup => exact fun hn => h'.pending_nodup (h.pending_nodup hn)
  case keys =>
    intro c
    have := h.pending c
    have := h'.pending c
    rw [h'.keys, h.keys]
    grind
  case keys_nodup => exact fun hn => h'.keys_nodup (h.keys_nodup hn)

theorem entered_foldl (failures : List TestCase) (l : Ledger) :
    Entered l (failures.foldl enter l) failures := by
  induction failures generalizing l with
  | nil => constructor <;> simp
  | cons c cs ih => exact (entered_enter l c).trans (ih (l.enter c))

theorem entered_beginConfirmation (l : Ledger) (failures : List TestCase) :
    Entered { l with pending := [] } (l.beginConfirmation failures) failures :=
  entered_foldl failures _

end Retrial.Ledger
