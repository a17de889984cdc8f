import Retrial.Proofs.Ledger.Effects

/-!
# A tidy ledger

Every case stands in one place: pending, recovered or confirmed, and once there.
The operations keep it so as long as passes are recorded and failures confirmed
of pending cases only.
-/

set_option autoImplicit false

namespace Retrial.Ledger

structure Tidy (l : Ledger) : Prop where
  keys_nodup : l.keys.Nodup
  recovered_nodup : l.recovered.Nodup
  confirmed_nodup : l.confirmed.Nodup
  known : ∀ c ∈ l.pending, c ∈ l.keys
  undecided : ∀ c ∈ l.pending, c ∉ l.recovered ∧ c ∉ l.confirmed
  apart : ∀ c ∈ l.recovered, c ∉ l.confirmed

variable {l l' : Ledger} {c : TestCase}

theorem tidy_start (p : Policy) : Tidy (.start p) := by
  constructor <;> simp [start, keys]

theorem tidy_beginConfirmation (h : Tidy l) (failures : List TestCase) :
    Tidy (l.beginConfirmation failures) := by
  have he := entered_beginConfirmation l failures
  have hr : (l.beginConfirmation failures).recovered = l.recovered := by rw [he.frame]
  have hc : (l.beginConfirmation failures).confirmed = l.confirmed := by rw [he.frame]
  constructor
  case keys_nodup => exact he.keys_nodup h.keys_nodup
  case recovered_nodup => rw [hr]; exact h.recovered_nodup
  case confirmed_nodup => rw [hc]; exact h.confirmed_nodup
  case known => intro c hp; exact (he.keys c).2 (Or.inr ⟨hp, by simp⟩)
  case undecided =>
    intro c hp
    rw [hr, hc]
    obtain hn | ⟨-, hn⟩ := (he.pending c).1 hp
    · simp at hn
    · exact not_or.1 hn
  case apart => rw [hr, hc]; exact h.apart

theorem Tidy.of_same (h : Tidy l) (hk : l'.keys = l.keys) (hp : l'.pending = l.pending)
    (hr : l'.recovered = l.recovered) (hc : l'.confirmed = l.confirmed) : Tidy l' := by
  obtain ⟨h₁, h₂, h₃, h₄, h₅, h₆⟩ := h
  constructor <;> simpa only [hk, hp, hr, hc]

theorem tidy_nextRerun? {t : Ticket} (h : Tidy l) (e : l.nextRerun? c = some (t, l')) : Tidy l' := by
  have hk := keys_nextRerun? e (h.known c (nextRerun?_eq_some e).1)
  have hl := nextRerun?_frame e
  exact h.of_same hk (by rw [hl]) (by rw [hl]) (by rw [hl])

theorem tidy_recordPass {b : Bool} (h : Tidy l) (hp : c ∈ l.pending)
    (e : l.recordPass c = (b, l')) : Tidy l' := by
  have hk := h.known c hp
  have hs := keys_recordPass e hk
  cases b with
  | false =>
    have hl := (recordPass_eq_false e hk).2
    exact h.of_same hs (by rw [hl]) (by rw [hl]) (by rw [hl])
  | true =>
    have hl := (recordPass_eq_true e hk).2
    have hu := h.undecided
    constructor
    case keys_nodup => rw [hs]; exact h.keys_nodup
    case recovered_nodup => rw [hl]; exact nodup_concat h.recovered_nodup (hu c hp).1
    case confirmed_nodup => rw [hl]; exact h.confirmed_nodup
    case known => rw [hs, hl]; exact fun d hd => h.known d (List.mem_filter.1 hd).1
    case undecided =>
      rw [hl]
      intro d hd
      obtain ⟨hd, hne⟩ := List.mem_filter.1 hd
      simpa [bne_iff_ne.1 hne] using hu d hd
    case apart =>
      rw [hl]
      intro d hd
      obtain hd | rfl : d ∈ l.recovered ∨ d = c := by simpa using hd
      · exact h.apart d hd
      · exact (hu d hp).2

theorem tidy_confirm (h : Tidy l) (hp : c ∈ l.pending) : Tidy (l.confirm c) := by
  have hu := h.undecided
  have hc : (l.confirm c).confirmed = l.confirmed ++ [c] := by
    simp [confirm, (hu c hp).2]
  constructor
  case keys_nodup => exact h.keys_nodup
  case recovered_nodup => exact h.recovered_nodup
  case confirmed_nodup => rw [hc]; exact nodup_concat h.confirmed_nodup (hu c hp).2
  case known => exact fun d hd => h.known d (mem_pending_confirm.1 hd).1
  case undecided =>
    intro d hd
    obtain ⟨hd, hne⟩ := mem_pending_confirm.1 hd
    simpa [hne] using hu d hd
  case apart =>
    intro d hd
    have hne : d ≠ c := fun e => (hu c hp).1 (e ▸ hd)
    simpa [hne] using h.apart d hd

end Retrial.Ledger
