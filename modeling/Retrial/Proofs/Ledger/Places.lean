import Retrial.Proofs.Ledger.Journal

/-!
# One place for every case

Whatever is asked of a ledger, a pending case is pending once and undecided, and
a confirmed case is confirmed once. That the recovered cases stand apart from
each other and from the confirmed ones is left to those who ask: a pass that
makes a decided case recover, and the confirmation of a recovered case, put it
in a second place. Nothing else does, and nothing takes it away again.
-/

set_option autoImplicit false

namespace Retrial.Ledger

structure Placed (l : Ledger) : Prop where
  pending_nodup : l.pending.Nodup
  confirmed_nodup : l.confirmed.Nodup
  undecided : ∀ c ∈ l.pending, c ∉ l.recovered ∧ c ∉ l.confirmed

structure Apart (l : Ledger) : Prop where
  recovered_nodup : l.recovered.Nodup
  unconfirmed : ∀ c ∈ l.recovered, c ∉ l.confirmed

/-- Whether an operation puts a decided case in a second place. -/
def Misplaces (l : Ledger) : Operation → Prop
  | .recordPass c => (l.recordPass c).1 = true ∧ (c ∈ l.recovered ∨ c ∈ l.confirmed)
  | .confirm c => c ∈ l.recovered
  | _ => False

def Orderly : Ledger → List Operation → Prop
  | _, [] => True
  | l, op :: ops => ¬ l.Misplaces op ∧ Orderly (l.perform op).2 ops

variable {l l' : Ledger} {op : Operation} {reply : Reply} {c : TestCase}

theorem placed_beginConfirmation (h : Placed l) (failures : List TestCase) :
    Placed (l.beginConfirmation failures) := by
  have he := entered_beginConfirmation l failures
  constructor
  case pending_nodup => exact he.pending_nodup List.nodup_nil
  case confirmed_nodup => rw [he.frame]; exact h.confirmed_nodup
  case undecided =>
    intro c hc
    rw [he.frame]
    exact not_or.1 (((he.pending c).1 hc).resolve_left List.not_mem_nil).2

theorem placed_confirm (h : Placed l) (c : TestCase) : Placed (l.confirm c) := by
  constructor
  case pending_nodup => exact h.pending_nodup.filter _
  case confirmed_nodup =>
    unfold confirm
    by_cases hc : c ∈ l.confirmed
    · simpa [hc] using h.confirmed_nodup
    · simpa [hc] using nodup_concat h.confirmed_nodup hc
  case undecided =>
    intro d hd
    obtain ⟨hd, hne⟩ := mem_pending_confirm.1 hd
    simpa [hne] using h.undecided d hd

/-- No operation, of whatever case, brings the pending and the confirmed cases into disorder. -/
theorem placed_of_performed (h : Placed l) (hp : Performed l op reply l') : Placed l' := by
  cases hp with
  | begun failures => exact placed_beginConfirmation h failures
  | granted e =>
    rw [nextRerun?_frame e]
    exact ⟨h.pending_nodup, h.confirmed_nodup, h.undecided⟩
  | counted | crashTaken | executableTaken | finished =>
    exact ⟨h.pending_nodup, h.confirmed_nodup, h.undecided⟩
  | denied | unknown | crashSpent | executableSpent | finishedBefore => exact h
  | @recovered c p _ _ =>
    constructor
    case pending_nodup => exact h.pending_nodup.filter _
    case confirmed_nodup => exact h.confirmed_nodup
    case undecided =>
      intro d hd
      obtain ⟨hd, hne⟩ := List.mem_filter.1 hd
      simpa [bne_iff_ne.1 hne] using h.undecided d hd
  | confirmed c => exact placed_confirm h c

theorem placed_after (p : Policy) (ops : List Operation) : Placed ((start p).after ops) := by
  apply after_induction
  case h => exact ⟨List.nodup_nil, List.nodup_nil, by simp [start]⟩
  case hp => exact fun l op h => placed_of_performed h (performed_perform l op)

theorem apart_of_same (hr : l'.recovered = l.recovered) (hc : l'.confirmed = l.confirmed) :
    Apart l' ↔ Apart l :=
  ⟨fun h => ⟨hr ▸ h.1, hr ▸ hc ▸ h.2⟩, fun h => ⟨hr.symm ▸ h.1, hr.symm ▸ hc.symm ▸ h.2⟩⟩

theorem apart_recovered (hr : l'.recovered = l.recovered ++ [c]) (hc : l'.confirmed = l.confirmed) :
    Apart l' ↔ Apart l ∧ ¬(c ∈ l.recovered ∨ c ∈ l.confirmed) := by
  constructor
  · intro h
    have hn := h.recovered_nodup
    have hu := h.unconfirmed
    rw [hr] at hn hu
    rw [hc] at hu
    rw [List.nodup_append] at hn
    refine ⟨⟨hn.1, fun d hd => hu d (List.mem_append_left _ hd)⟩, ?_⟩
    rintro (hm | hm)
    · exact hn.2.2 c hm c List.mem_cons_self rfl
    · exact hu c (by simp) hm
  · rintro ⟨h, hn⟩
    constructor
    case recovered_nodup => rw [hr]; exact nodup_concat h.recovered_nodup fun hm => hn (Or.inl hm)
    case unconfirmed =>
      rw [hr, hc]
      intro d hd hm
      obtain hd | rfl : d ∈ l.recovered ∨ d = c := by simpa using hd
      · exact h.unconfirmed d hd hm
      · exact hn (Or.inr hm)

theorem apart_confirm : Apart (l.confirm c) ↔ Apart l ∧ c ∉ l.recovered := by
  constructor
  · intro h
    have hu : ∀ d ∈ l.recovered, d ∉ l.confirmed ∧ d ≠ c := by
      simpa [not_or] using h.unconfirmed
    exact ⟨⟨h.recovered_nodup, fun d hd => (hu d hd).1⟩, fun hm => (hu c hm).2 rfl⟩
  · rintro ⟨h, hn⟩
    refine ⟨h.recovered_nodup, fun d hd hm => ?_⟩
    obtain hm | rfl := mem_confirmed_confirm.1 hm
    · exact h.unconfirmed d hd hm
    · exact hn hd

/-- The decided cases stay apart exactly where the operation misplaces none. -/
theorem apart_iff_of_performed (hp : Performed l op reply l') :
    Apart l' ↔ Apart l ∧ ¬ l.Misplaces op := by
  cases hp with
  | begun failures =>
    have hf := (entered_beginConfirmation l failures).frame
    simpa [Misplaces] using apart_of_same (by rw [hf]) (by rw [hf])
  | granted e =>
    have hf := nextRerun?_frame e
    simpa [Misplaces] using apart_of_same (by rw [hf]) (by rw [hf])
  | unknown h => simp [Misplaces, recordPass, h]
  | @counted c p h hn =>
    have hf : (l.recordPass c).1 = false := by
      rw [recordPass_of_progress? h, if_neg (Nat.not_le.2 hn)]
    simp only [Misplaces, hf, Bool.false_eq_true, false_and, not_false_eq_true, and_true]
    exact apart_of_same rfl rfl
  | @recovered c p h hn =>
    have ht : (l.recordPass c).1 = true := by rw [recordPass_of_progress? h, if_pos hn]
    simp only [Misplaces, ht, true_and]
    exact apart_recovered rfl rfl
  | confirmed c => exact apart_confirm
  | crashTaken | executableTaken | finished =>
    simp only [Misplaces, not_false_eq_true, and_true]
    exact apart_of_same rfl rfl
  | denied | crashSpent | executableSpent | finishedBefore => simp [Misplaces]

theorem apart_after_iff (l : Ledger) (ops : List Operation) :
    Apart (l.after ops) ↔ Apart l ∧ Orderly l ops := by
  induction ops generalizing l with
  | nil => simp [after, Orderly]
  | cons op ops ih =>
    rw [after, ih, apart_iff_of_performed (performed_perform l op), Orderly, and_assoc]

/-- After any operations each case is pending at most once, or confirmed at most
once, and not both; it has recovered at most once, and not while it is confirmed,
exactly if no operation misplaced a case. An operation on a pending case never does. -/
theorem each_case_in_one_place_iff (p : Policy) (ops : List Operation) :
    let l := (start p).after ops
    Placed l ∧ (Apart l ↔ Orderly (start p) ops) ∧
      ∀ op, (∀ c, op.subject? = some c → c ∈ l.pending) → ¬ l.Misplaces op := by
  intro l
  have hp : Placed l := placed_after p ops
  have hs : Apart (start p) := ⟨List.nodup_nil, by simp [start]⟩
  refine ⟨hp, by rw [apart_after_iff]; exact and_iff_right hs, ?_⟩
  intro op ho hm
  cases op with
  | recordPass c =>
    have hu := hp.undecided c (ho c rfl)
    exact hm.2.elim hu.1 hu.2
  | confirm c => exact (hp.undecided c (ho c rfl)).1 hm
  | beginConfirmation | nextRerun | takeCrash | takeExecutable | finish => exact hm

/-- Passes and confirmations are mixed, but of pending cases only. -/
theorem each_case_in_one_place_of_mixed :
    Apart ((start .standard).after [.beginConfirmation [⟨"a", none⟩, ⟨"b", none⟩],
      .nextRerun ⟨"a", none⟩, .recordPass ⟨"a", none⟩, .confirm ⟨"b", none⟩,
      .beginConfirmation [⟨"b", none⟩, ⟨"a", none⟩, ⟨"c", none⟩]]) := by
  apply (each_case_in_one_place_iff .standard _).2.1.2
  simp only [Orderly, Misplaces]
  decide

/-- A second pass, a confirmation behind a pass and a pass behind a confirmation put
one case in two places. -/
theorem decided_case_misplaced :
    let a : TestCase := ⟨"a", none⟩
    let l := (start .standard).after [.beginConfirmation [a], .nextRerun a]
    (l.after [.recordPass a, .recordPass a]).recovered = [a, a] ∧
      ((l.after [.recordPass a, .confirm a]).recovered = [a] ∧
        (l.after [.recordPass a, .confirm a]).confirmed = [a]) ∧
      (l.after [.confirm a, .recordPass a]).confirmed = [a] ∧
        (l.after [.confirm a, .recordPass a]).recovered = [a] := by
  decide

end Retrial.Ledger
