import Retrial.Proofs.Playing

/-!
# The budget law

A run that follows a script goes through the failures of its first result once,
in their order, and never runs the whole binary again. What becomes of a case
is settled by its own script, whatever the others do.
-/

set_option autoImplicit false

namespace Retrial

open History

theorem Ledger.pending_foldl_enter (failures : List TestCase) {l : Ledger}
    (hr : l.recovered = []) (hc : l.confirmed = []) :
    (failures.foldl enter l).pending = failures.foldl Log.addNew l.pending := by
  induction failures generalizing l with
  | nil => rfl
  | cons c cs ih =>
    have he : (l.enter c).pending = Log.addNew l.pending c ∧
        (l.enter c).recovered = [] ∧ (l.enter c).confirmed = [] := by
      by_cases hp : c ∈ l.pending
      · rw [enter_of_known (Or.inr hp)]
        simp [Log.addNew, hp, hr, hc]
      · rw [enter_of_fresh (by simp [hp, hr, hc])]
        simp [Log.addNew, hp, hr, hc]
    rw [List.foldl_cons, List.foldl_cons, ih he.2.1 he.2.2, he.1]

theorem Ledger.pending_beginConfirmation_start (p : Policy) (failures : List TestCase) :
    ((start p).beginConfirmation failures).pending = Log.distinct failures :=
  pending_foldl_enter failures rfl rfl

/-- The failures that no longer remain are decided as a script says, in their order. -/
def Sorted (script : RerunScript) (p : Policy) (failures : List TestCase) (l : Ledger)
    (remaining : List TestCase) : Prop :=
  ∃ done, Log.distinct failures = done ++ remaining ∧
    l.recovered = done.filter (script.recovers p) ∧
    l.confirmed = done.filter (!script.recovers p ·)

theorem Sorted.next {script : RerunScript} {p : Policy} {failures later : List TestCase}
    {l l' : Ledger} {c : TestCase} (h : Sorted script p failures l (c :: later))
    (hr : l'.recovered = l.recovered ++ [c].filter (script.recovers p))
    (hc : l'.confirmed = l.confirmed ++ [c].filter (!script.recovers p ·)) :
    Sorted script p failures l' later := by
  obtain ⟨done, hd, hr', hc'⟩ := h
  refine ⟨done ++ [c], by simpa using hd, ?_, ?_⟩
  · rw [hr, hr', List.filter_append]
  · rw [hc, hc', List.filter_append]

namespace Phase

@[simp] def Obeys (script : RerunScript) (p : Policy) (failures : List TestCase) (es : List Event)
    (l : Ledger) : Phase → Prop
  | .attempting .fullRun => l = .start p ∧ wholeResults es = []
  | .met .fullRun k => l = .start p ∧ k = .functionsFailed failures
  | .wanting _ => False
  | .closed v => v = l.settled ∧ Sorted script p failures l []
  | φ => Sorted script p failures l φ.remaining

end Phase

namespace Course

variable {s : Setup} {es : List Event} {l : Ledger} {φ : Phase} {script : RerunScript}
  {failures : List TestCase}

theorem not_crashed {c : TestCase} {t : Ticket} {later : List TestCase} {reason : CrashReason}
    (ho : Obeys script es) : ¬Course s es l (.met (.rerun c t later) (.crashed reason)) := by
  intro h
  have hk := h.getLast_rerunResults
  rw [List.getLast?_eq_getElem?] at hk
  simpa [Classification.isFailure] using ho c _ _ hk

/-- A scripted run goes through the failures of its first result, and that is all. -/
theorem obeys (h : Course s es l φ)
    (hw : ∀ w, (wholeResults es).head? = some w → w.classification = .functionsFailed failures)
    (ho : Obeys script es) : wholeReruns es = [] ∧ φ.Obeys script s.policy failures es l := by
  induction h with
  | fresh => exact ⟨rfl, rfl, rfl⟩
  | existing log => exact ⟨rfl, rfl, hw _ rfl⟩
  | @attempted es l step q o k _ hq _ ih =>
    have hk : q.kind = step.kind := by rw [hq]; rfl
    obtain ⟨hn, hi⟩ := ih (fun w hx => hw w (by simp_all)) ho.of_append
    refine ⟨by simpa using hn, ?_⟩
    cases step with
    | fullRun => exact ⟨hi.1, hw ⟨o.exit, o.log, k⟩ (by simp_all [Step.kind])⟩
    | rerun c t later => exact hi
  | passed _ ih | executableFailed _ ih =>
    obtain ⟨-, -, hk⟩ := ih hw ho
    cases hk
  | @failed es l failures' _ ih =>
    obtain ⟨hn, rfl, hk⟩ := ih hw ho
    cases hk
    refine ⟨hn, [], ?_⟩
    rw [(Ledger.entered_beginConfirmation _ _).frame]
    exact ⟨(Ledger.pending_beginConfirmation_start _ _).symm, rfl, rfl⟩
  | @crashed es l step reason h ih =>
    cases step with
    | fullRun =>
      obtain ⟨-, -, hk⟩ := ih hw ho
      cases hk
    | rerun c t later => exact absurd h (not_crashed ho)
  | @recovered es l l' c t later h e ih =>
    obtain ⟨hn, hs⟩ := ih (by simpa using hw) ho.of_append
    have hl := (Ledger.recordPass_eq_true e (h.head_known rfl)).2
    -- The script is asked after the move, when the case counts as recovered.
    have hv := ((h.recovered e).script_of_recovered ho (c := c) (by rw [hl]; simp)).1
    exact ⟨by simpa using hn, hs.next (by rw [hl]; simp [hv]) (by rw [hl]; simp [hv])⟩
  | counted h e ih =>
    rw [(Ledger.recordPass_eq_false e (h.head_known rfl)).2]
    exact ih hw ho
  | repeated _ _ _ ih => exact ih hw ho
  | scheduled _ _ ih => exact (ih (by simpa using hw) ho.of_append).2.elim
  | givenUp _ _ ih => exact (ih hw ho).2.elim
  | granted _ e ih => rw [Ledger.nextRerun?_frame e]; exact ih hw ho
  | @confirmed es l c later h e ih =>
    obtain ⟨hn, hs⟩ := ih (by simpa using hw) ho.of_append
    have hv := ((h.confirmed e).script_of_confirmed ho (c := c) (by simp)).1
    have hu := (h.tidy.undecided c (h.head_pending rfl)).2
    exact ⟨by simpa using hn, hs.next (by simp [hv]) (by simp [Ledger.confirm, hu, hv])⟩
  | settled _ ih => exact ⟨(ih hw ho).1, rfl, (ih hw ho).2⟩

end Course

structure Decided (s : Setup) (script : RerunScript) (failures : List TestCase) (r : Run)
    (sm : Summary) : Prop where
  ending : r.ending = .summary sm
  fullRuns : fullRuns r.requests = if s.existingLog = none then 1 else 0
  recovered : sm.recovered = (Log.distinct failures).filter (script.recovers s.policy)
  confirmed : sm.confirmed = (Log.distinct failures).filter (!script.recovers s.policy ·)
  verdict : sm.verdict = if sm.confirmed = [] then .pass else .fail
  reruns : ∀ c ∈ failures, rerunsOf c r.requests = script.reruns s.policy c

section

variable {Memory : Type} {s : Setup} {x : Executor Memory} {files : Files} {memory : Memory}
  {script : RerunScript} {failures : List TestCase}

theorem Scripted.decided (h : Scripted s x files memory script failures) :
    ∃ sm, Decided s script failures (supervise s x .willing files memory) sm := by
  obtain ⟨able, hx, ha⟩ := h.obliging
  obtain ⟨w, hw, hk⟩ := h.first
  obtain ⟨sm, he⟩ := supervise_obliging hx ha (List.ne_nil_of_mem (List.mem_of_head? hw))
  obtain ⟨es, l, hc, hs, hev⟩ := course_of_summary he
  have ho : Obeys script es := Obeys.of_append (hev ▸ h.obeys)
  have hfirst : ∀ w', (wholeResults es).head? = some w' →
      w'.classification = .functionsFailed failures := by
    intro w' hw'
    have hx : wholeResults (supervise s x .willing files memory).events = wholeResults es := by
      rw [hev]; simp
    rw [hx, hw'] at hw
    cases hw
    exact hk
  obtain ⟨hn, hv, done, hd, hr, hf⟩ := hc.obeys hfirst ho
  rw [List.append_nil] at hd
  subst hd
  have hq : (supervise s x .willing files memory).requests = requests es := by
    rw [supervise_requests, hev]
    simp
  have hsr : sm.recovered = l.recovered := by rw [hs]
  have hsc : sm.confirmed = l.confirmed := by rw [hs]
  refine ⟨sm, he, ?_, hsr.trans hr, hsc.trans hf, ?_, ?_⟩
  · have hf : fullRuns (requests es) = _ := hc.fullRuns_eq
    rw [hq, hf, crashReruns, executableReruns, hn]
    simp
  · rw [hv, hsc, Ledger.settled]
    cases l.confirmed <;> rfl
  · intro c hx
    rw [hq]
    have hm := Log.mem_distinct.2 hx
    by_cases hb : script.recovers s.policy c = true
    · exact (hc.script_of_recovered ho (by rw [hr]; exact List.mem_filter.2 ⟨hm, hb⟩)).2
    · exact (hc.script_of_confirmed ho
        (by rw [hf]; exact List.mem_filter.2 ⟨hm, by simpa using hb⟩)).2

/-- The budget law: a script decides the failures of a run one by one. A case is
decided alike in every run with the same policy in which it fails with the same script. -/
theorem decided_by_script (h : Scripted s x files memory script failures) :
    (∃ sm, Decided s script failures (supervise s x .willing files memory) sm) ∧
    ∀ {Memory' : Type} {s' : Setup} {x' : Executor Memory'} {files' : Files} {memory' : Memory'}
      {script' : RerunScript} {failures' : List TestCase} {sm sm' : Summary},
      Scripted s' x' files' memory' script' failures' → s'.policy = s.policy →
      (supervise s x .willing files memory).ending = .summary sm →
      (supervise s' x' .willing files' memory').ending = .summary sm' →
      ∀ c ∈ failures, c ∈ failures' → script' c = script c →
        (c ∈ sm'.recovered ↔ c ∈ sm.recovered) ∧ (c ∈ sm'.confirmed ↔ c ∈ sm.confirmed) ∧
          rerunsOf c (supervise s' x' .willing files' memory').requests =
            rerunsOf c (supervise s x .willing files memory).requests := by
  refine ⟨h.decided, ?_⟩
  intro Memory' s' x' files' memory' script' failures' sm sm' h' hp he he' c hc hc' hs
  obtain ⟨_, hd⟩ := h.decided
  obtain ⟨_, hd'⟩ := h'.decided
  cases hd.ending.symm.trans he
  cases hd'.ending.symm.trans he'
  have hv : script'.recovers s'.policy c = script.recovers s.policy c := by
    rw [RerunScript.recovers, RerunScript.recovers, RerunScript.passes, RerunScript.passes, hs, hp]
  have hr : script'.reruns s'.policy c = script.reruns s.policy c := by
    simp [RerunScript.reruns, RerunScript.passes, hs, hp]
  have hm := Log.mem_distinct.2 hc
  have hm' := Log.mem_distinct.2 hc'
  refine ⟨?_, ?_, ?_⟩
  · simp [hd.recovered, hd'.recovered, hm, hm', hv]
  · simp [hd.confirmed, hd'.confirmed, hm, hm', hv]
  · rw [hd'.reruns c hc', hd.reruns c hc, hr]

end

namespace Rehearsal

/-- One function fails in its first rerun only, another in all but its first. -/
def hesitant : RerunScript := fun c k =>
  (c.function != "a" || k != 1) && (c.function != "b" || k == 1)

def repeated : List TestCase := [⟨"a", none⟩, ⟨"b", none⟩, ⟨"a", none⟩, ⟨"c", none⟩]

end Rehearsal

theorem decided_by_script_of_hesitant : ∃ sm,
    let r := supervise (Rehearsal.under ⟨3, 2, 1, []⟩)
      (Rehearsal.playing Rehearsal.hesitant Rehearsal.repeated) .willing .empty ()
    Decided (Rehearsal.under ⟨3, 2, 1, []⟩) Rehearsal.hesitant Rehearsal.repeated r sm ∧
      sm.recovered = [⟨"a", none⟩, ⟨"c", none⟩] ∧ sm.confirmed = [⟨"b", none⟩] ∧
      sm.verdict = .fail ∧
      rerunsOf ⟨"a", none⟩ r.requests = 3 ∧ rerunsOf ⟨"b", none⟩ r.requests = 3 ∧
      rerunsOf ⟨"c", none⟩ r.requests = 2 := by
  have hs : Scripted (Rehearsal.under ⟨3, 2, 1, []⟩)
      (Rehearsal.playing Rehearsal.hesitant Rehearsal.repeated) .empty () Rehearsal.hesitant
      Rehearsal.repeated := Rehearsal.scripted_playing rfl rfl (by decide)
  obtain ⟨⟨sm, h⟩, -⟩ := decided_by_script hs
  have hc : sm.confirmed = [⟨"b", none⟩] := h.confirmed.trans (by decide)
  have hv : sm.verdict = .fail := by rw [h.verdict, hc]; rfl
  have ha := h.reruns ⟨"a", none⟩ (by decide)
  have hb := h.reruns ⟨"b", none⟩ (by decide)
  have hl := h.reruns ⟨"c", none⟩ (by decide)
  exact ⟨sm, h, h.recovered.trans (by decide), hc, hv, ha.trans (by decide), hb.trans (by decide),
    hl.trans (by decide)⟩

end Retrial
