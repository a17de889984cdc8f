import Retrial.Proofs.BudgetLaw
import Retrial.Transcript

/-!
# Confirmed failures

A case is confirmed once its reruns are used up, and the number that is reported
with it is the whole budget. Each of them was made and has shown something; but
what decides is only that too few of them passed. Where one pass is enough, too
few means none, and the case has failed on all of its reruns.
-/

set_option autoImplicit false

namespace Retrial

open History

variable {s : Setup} {c : TestCase} {n : Nat}

namespace Course

variable {es : List Event} {l : Ledger} {φ : Phase}

theorem reruns_of_confirmed (h : Course s es l φ) (hm : .confirmed c n ∈ es) :
    n = s.policy.maxRepeats := by
  induction h with
  | fresh | existing => simp at hm
  | attempted _ _ _ _ _ _ ih | recovered _ _ ih | scheduled _ _ ih => exact ih (by simpa using hm)
  | @confirmed es l d later h e ih =>
    obtain hm | hm := List.mem_append.1 hm
    · exact ih hm
    · obtain ⟨rfl, rfl⟩ : c = d ∧ n = (l.confirm d).rerunsOf d := by simpa using hm
      have hz := Ledger.left_eq_zero_of_nextRerun? e (h.head_pending rfl) (h.head_known rfl)
      have hl := (h.standings c).1
      rw [hz, Nat.zero_add] at hl
      rw [Ledger.rerunsOf_eq_standing, Ledger.standing_confirm, hl]
  | passed _ ih | failed _ ih | executableFailed _ ih | crashed _ ih | counted _ _ ih
  | repeated _ _ _ ih | givenUp _ _ ih | granted _ _ ih | settled _ ih => exact ih hm

end Course

namespace Stage

variable {es : List Event}

theorem confirming (h : Stage s (es ++ [.confirmed c n])) :
    ∃ l φ, Course s (es ++ [.confirmed c n]) l φ := by
  generalize hx : es ++ [Event.confirmed c n] = all at h
  cases h with
  | silent => simp at hx
  | started => cases es <;> simp at hx
  | between hc => exact ⟨_, _, hc⟩
  | underWay | ended => simpa using List.append_inj_right' hx rfl

/-- No rerun has shown anything that was not made. -/
theorem length_rerunResults_le (h : Stage s es) (c : TestCase) :
    (rerunResults c es).length ≤ rerunsOf c (requests es) := by
  cases h with
  | silent | started => exact Nat.zero_le _
  | between hc => exact (hc.length_rerunResults c).le
  | underWay hc =>
    have hl := hc.length_rerunResults c
    simp [rerunResults] at hl ⊢
    omega
  | ended _ _ hc =>
    have hl := hc.length_rerunResults c
    simpa [rerunResults] using hl.le

end Stage

variable {Memory : Type} {x : Executor Memory} {listen : Listener} {files : Files}
  {memory : Memory} {before behind : List Event}

/-- When a case is confirmed, all reruns of its budget have been made and have shown
something, and too few of them have passed: none, where one pass is enough. The case
is not rerun again, so these are its reruns in the whole run. -/
theorem confirmed_case_used_up_reruns
    (h : (supervise s x listen files memory).events = before ++ .confirmed c n :: behind) :
    n = s.policy.maxRepeats ∧ (rerunResults c before).length = n ∧
      (rerunResults c before).count .passed < s.policy.passesNeeded ∧
      (s.policy.passesNeeded = 1 → .passed ∉ rerunResults c before) ∧
      rerunsOf c (supervise s x listen files memory).requests = n ∧
      rerunResults c (supervise s x listen files memory).events = rerunResults c before := by
  have hp : before ++ [.confirmed c n] <+: (supervise s x listen files memory).events :=
    ⟨behind, by simp [h]⟩
  obtain ⟨l, φ, hc⟩ := (stage_supervise hp).confirming
  have hn : n = s.policy.maxRepeats := hc.reruns_of_confirmed (c := c) (by simp)
  have hr : rerunsOf c (requests before) = n ∧ passes c before < s.policy.passesNeeded := by
    simpa [hn] using (hc.lifeCycle c).confirmed (by simp)
  have hlen : (rerunResults c before).length = n := by
    have hl := hc.length_rerunResults c
    have hx : rerunResults c [.confirmed c n] = [] := rfl
    rw [rerunResults_append, hx, List.append_nil] at hl
    rw [hl, ← hr.1]
    simp
  have hpass : (rerunResults c before).count .passed < s.policy.passesNeeded := by
    rw [← passes_eq_count]
    exact hr.2
  have hs : Stage s (supervise s x listen files memory).events := stage_supervise List.prefix_rfl
  have hall : rerunsOf c (supervise s x listen files memory).requests = n := by
    rw [supervise_requests, hn]
    exact ((hs.lifeCycle c).confirmed (mem_confirmed.2 ⟨n, by simp [h]⟩)).1
  refine ⟨hn, hlen, hpass, ?_, hall, ?_⟩
  · intro ho
    rw [ho, Nat.lt_one_iff] at hpass
    exact List.count_eq_zero.1 hpass
  · have hle := hs.length_rerunResults_le c
    rw [← supervise_requests, hall, ← hlen] at hle
    have hb : before <+: (supervise s x listen files memory).events := ⟨_, h.symm⟩
    have hr : rerunResults c before <+: rerunResults c (supervise s x listen files memory).events :=
      (read_initial Event.showing? hb).filterMap _
    exact (hr.eq_of_length_le hle).symm

def RerunScript.passing (n : Nat) : RerunScript := fun _ k => decide (k ≤ n)

theorem RerunScript.passes_passing {n m : Nat} (h : n ≤ m) (c : TestCase) :
    (passing n).passes c m = n := by
  induction h with
  | refl =>
    rw [passes, List.countP_eq_length.2, List.length_range']
    intro k hk
    simp [passing] at hk ⊢
    omega
  | @step m hm ih =>
    have hn : ¬passing n c (m + 1) = true := by
      have hle : n ≤ m := hm
      simp only [passing, decide_eq_true_eq]
      omega
    rw [passes_succ, ih, if_neg hn, Nat.add_zero]

open Rehearsal in
/-- The bound is reached: short of the passes that are needed, a case may pass in any
number of its reruns and is confirmed all the same. -/
theorem confirmed_despite_passes {p : Policy} (c : TestCase) (hv : p.fault? = none)
    (hp : p.noRerun = []) (hn : n < p.passesNeeded) (hm : n ≤ p.maxRepeats) :
    let r := supervise (under p) (playing (.passing n) [c]) .willing .empty ()
    .confirmed c p.maxRepeats ∈ r.events ∧ (rerunResults c r.events).count .passed = n := by
  have hpass : (RerunScript.passing n).passes c p.maxRepeats = n := RerunScript.passes_passing hm c
  have hs : Scripted (under p) (playing (.passing n) [c]) .empty () (.passing n) [c] :=
    scripted_playing hv hp (by simp)
  obtain ⟨sm, hd⟩ := hs.decided
  obtain ⟨es, l, hc, hsum, hev⟩ := course_of_summary hd.ending
  have hmem : c ∈ confirmed es := by
    have hr : (RerunScript.passing n).recovers p c = false := by
      rw [RerunScript.recovers, hpass]
      exact decide_eq_false (Nat.not_le.2 hn)
    have hl : sm.confirmed = l.confirmed := by rw [hsum]
    rw [← hc.decided.1, ← hl, hd.confirmed]
    exact List.mem_filter.2 ⟨List.mem_cons_self, by simp [under, hr]⟩
  obtain ⟨k, hk⟩ := mem_confirmed.1 hmem
  obtain rfl : k = p.maxRepeats := hc.reruns_of_confirmed hk
  refine ⟨by rw [hev]; exact List.mem_append_left _ hk, ?_⟩
  have hlen : (rerunResults c es).length = p.maxRepeats :=
    (hc.length_rerunResults c).trans ((hc.lifeCycle c).confirmed hmem).1
  have ho : Obeys (.passing n) es := Obeys.of_append (hev ▸ hs.obeys)
  have he := ho.passes_eq c
  rw [hlen, hpass] at he
  rw [hev, ← passes_eq_count]
  simpa using he

open Rehearsal in
theorem confirmed_case_used_up_reruns_of_failing : ∃ before behind,
    (supervise (under ⟨2, 1, 1, []⟩) (playing (.passing 0) [⟨"a", none⟩]) .willing .empty
        ()).events = before ++ .confirmed ⟨"a", none⟩ 2 :: behind ∧
      (rerunResults ⟨"a", none⟩ before).length = 2 ∧ .passed ∉ rerunResults ⟨"a", none⟩ before := by
  obtain ⟨hm, -⟩ := confirmed_despite_passes (n := 0) (p := ⟨2, 1, 1, []⟩) ⟨"a", none⟩ rfl rfl
    (by decide) (by decide)
  obtain ⟨before, behind, he⟩ := List.append_of_mem hm
  obtain ⟨-, hl, -, ho, -⟩ := confirmed_case_used_up_reruns he
  exact ⟨before, behind, he, hl, ho rfl⟩

open Rehearsal in
/-- Where both of two reruns have to pass, a case that passed in the first of them is
confirmed, and said to have failed on both. -/
theorem passing_case_said_to_fail_on_all_reruns :
    let r := supervise (under ⟨2, 2, 1, []⟩) (playing (.passing 1) [⟨"a", none⟩]) .willing .empty ()
    .confirmed ⟨"a", none⟩ 2 ∈ r.events ∧ (rerunResults ⟨"a", none⟩ r.events).count .passed = 1 ∧
      Transcript.render ⟨false, false⟩ (.confirmed ⟨"a", none⟩ 2) =
        Text.encode "   CONFIRMED a failed on all 2 reruns\n".toList := by
  obtain ⟨hm, hn⟩ := confirmed_despite_passes (n := 1) (p := ⟨2, 2, 1, []⟩) ⟨"a", none⟩ rfl rfl
    (by decide) (by decide)
  exact ⟨hm, hn, by decide +kernel⟩

end Retrial
