import Retrial.Proofs.Calls
import Retrial.Proofs.LifeCycle
import Retrial.Proofs.Script

/-!
# Playing a script

A stand-in for a test binary can play any script: each of its reruns shows what the
script has for the number on the ticket. So the budget law governs such runs, for
every script and every policy that lets all functions be rerun.
-/

set_option autoImplicit false

namespace Retrial

open History

/-- Reruns that show what a script has under their numbers follow that script. -/
theorem Course.obeys_of_finishes {s : Setup} {es : List Event} {l : Ledger} {φ : Phase}
    {script : RerunScript} (h : Course s es l φ)
    (hf : ∀ w ∈ finishes es, ∀ c t, w.request.kind = .rerun c t →
      if script c t.rerun then w.classification = .passed else w.classification.isFailure = true) :
    Obeys script es := by
  induction h with
  | fresh | existing => intro c i k hk; simp [rerunResults] at hk
  | @attempted es l step q o k h hq _ ih =>
    have hk : q.kind = step.kind := by rw [hq]; rfl
    have hsub : finishes es ⊆ finishes (es ++ [.attemptStarted q, .attemptFinished q o k]) := by
      simp [finishes]
    have ih := ih fun w hw => hf w (hsub hw)
    intro c i k' hi
    rw [rerunResults_append] at hi
    cases hs : q.kind.isRerunOf c with
    | false => exact ih c i k' (by simpa [rerunResults, hs] using hi)
    | true =>
      obtain ⟨t, later, rfl⟩ : ∃ t later, step = .rerun c t later := by
        cases step with
        | fullRun => simp [hk, Step.kind] at hs
        | rerun d t later => exact ⟨t, later, by simpa [hk, Step.kind] using hs⟩
      have hx : rerunResults c [.attemptStarted q, .attemptFinished q o k] = [k] := by
        simp [rerunResults, hs]
      have hl := h.length_rerunResults c
      rw [hx] at hi
      obtain hlt | hge := Nat.lt_or_ge i (rerunResults c es).length
      · exact ih c i k' (by rwa [List.getElem?_append_left hlt] at hi)
      · rw [List.getElem?_append_right hge, List.getElem?_singleton] at hi
        obtain ⟨hz, rfl⟩ : i - (rerunResults c es).length = 0 ∧ k = k' := by
          split at hi
          · next hz => exact ⟨hz, Option.some.inj hi⟩
          · cases hi
        have ht : t.rerun = i + 1 := by
          rw [h.ticket_eq, Policy.ticket]
          dsimp only
          omega
        rw [← ht]
        exact hf ⟨q, o, k⟩ (by simp) c t hk
  | recovered _ _ ih | scheduled _ _ ih | confirmed _ _ ih =>
    have ih := ih fun w hw => hf w (by simpa using hw)
    intro c i k hk
    exact ih c i k (by simpa [rerunResults] using hk)
  | passed _ ih | failed _ ih | executableFailed _ ih | crashed _ ih | counted _ _ ih
  | repeated _ _ _ ih | givenUp _ _ ih | granted _ _ ih | settled _ ih => exact ih hf

namespace Rehearsal

def unlogged : Setup := { setup .standard with invocation := ⟨⟨none, some "t", []⟩, none⟩ }

def result (outcome : String) (c : TestCase) : Log.FunctionResult :=
  ⟨c.function, [⟨.ofType outcome, c.tag, none, none, none⟩], [], none⟩

/-- A binary that fails in some cases when it is run whole, and whose reruns follow a script. -/
def playing (script : RerunScript) (failures : List TestCase) : Executor Unit where
  elapsed := fun _ => ⟨0⟩
  run := fun q files _ =>
    let log : TestLog := ⟨none, match q.kind with
      | .fullRun => failures.map (result "fail")
      | .rerun c t => [result (if script c t.rerun then "pass" else "fail") c]⟩
    (.ok ⟨.exited log.failures.length, .parsed log, [], ⟨0⟩⟩, files, ())

def under (p : Policy) : Setup := { unlogged with policy := p }

variable {p : Policy} {script : RerunScript} {failures : List TestCase}

theorem failures_result_fail (cs : List TestCase) :
    (⟨none, cs.map (result "fail")⟩ : TestLog).failures = cs := by
  have hc : ∀ c, (result "fail" c).failures = [c] := fun c => rfl
  induction cs with
  | nil => rfl
  | cons c cs ih =>
    simp only [TestLog.failures, List.map_cons, List.flatMap_cons, hc] at ih ⊢
    rw [ih]
    rfl

theorem fatalMessages_result (outcome : String) (cs : List TestCase) :
    (⟨none, cs.map (result outcome)⟩ : TestLog).fatalMessages = [] := by
  simp [TestLog.fatalMessages, result]

theorem classify_failing (hn : failures ≠ []) :
    classify [] (.exited failures.length) (.parsed ⟨none, failures.map (result "fail")⟩) =
      .functionsFailed failures := by
  have hl : ((failures.length : Int) == 0) = false := by simpa using hn
  have hx : (failures.find? fun c => ([] : List String).contains c.function) = none := by
    simp
  have he : failures.isEmpty = false := by simpa using hn
  rw [classify, classifyLog, fatalMessages_result, failures_result_fail]
  simp only [TestLog.isEmpty, List.isEmpty_map, he, hl, hx, bne_self_eq_false, Bool.false_eq_true,
    if_false]

theorem classify_playing {c : TestCase} {t : Ticket} {q : Request} {files files' : Files}
    {o : Outcome} (hq : q.kind = .rerun c t)
    (hx : (playing script failures).run q files () = (.ok o, files', ())) :
    classify [] o.exit o.log = if script c t.rerun then .passed else .functionsFailed [c] := by
  simp only [playing, hq, Prod.mk.injEq, Except.ok.injEq] at hx
  rw [← hx.1]
  cases hs : script c t.rerun with
  | true => rfl
  | false => exact classify_failing (List.cons_ne_nil c [])

theorem obliging_playing : Obliging (under p) (playing script failures) fun _ _ _ => True :=
  fun _ files _ _ => ⟨files, rfl, fun _ => ⟨_, _, _, rfl, trivial⟩⟩

theorem first_playing (script : RerunScript) (hv : p.fault? = none) (hp : p.noRerun = [])
    (hn : failures ≠ []) :
    ∃ w, (wholeResults (supervise (under p) (playing script failures) .willing .empty
      ()).events).head? = some w ∧ w.classification = .functionsFailed failures := by
  have hd : (under p).makeLogDirectory .empty = .ok .empty := rfl
  have hx : (playing script failures).run ((under p).request 1 .fullRun) .empty () =
      (.ok ⟨.exited failures.length, .parsed ⟨none, failures.map (result "fail")⟩, [], ⟨0⟩⟩,
        .empty, ()) := by
    simp [playing, Setup.request, failures_result_fail]
  have ha : attemptOnce (under p) (playing script failures) .willing ⟨0, 0, 1⟩ .fullRun .empty () =
      .done _ _ _ _ _ := attemptOnce_eq_iff.2 (.done ⟨rfl, rfl⟩ hx rfl)
  have hs : supervise (under p) (playing script failures) .willing .empty () =
      (proceed (under p) (playing script failures) .willing ⟨0, 0, 1⟩ (.start p)
        (.attempt .fullRun) .empty ()).heard [.started (under p).invocation p] := by
    simp only [supervise, show (under p).policy.fault? = none from hv, hd]
    rfl
  refine ⟨⟨.exited failures.length, .parsed ⟨none, failures.map (result "fail")⟩,
    .functionsFailed failures⟩, ?_, rfl⟩
  rw [hs, proceed_done ha, publish_willing]
  simp [Setup.classify, under, unlogged, hp, classify_failing hn, Setup.request]

/-- The budget law governs the rehearsal of any script, under any policy that
lets all functions be rerun. -/
theorem scripted_playing (hv : p.fault? = none) (hp : p.noRerun = []) (hn : failures ≠ []) :
    Scripted (under p) (playing script failures) .empty () script failures := by
  have hf := first_playing script hv hp hn
  constructor
  case obliging => exact ⟨_, obliging_playing, fun _ _ => trivial⟩
  case first => exact hf
  case obeys =>
    obtain ⟨w, hw, -⟩ := hf
    obtain ⟨sm, he⟩ := supervise_obliging obliging_playing (fun _ _ => trivial)
      (List.ne_nil_of_mem (List.mem_of_head? hw))
    obtain ⟨es, l, hc, -, hev⟩ := course_of_summary he
    obtain ⟨start, calls, last, -, ht⟩ := @told_supervise Unit (under p) (playing script failures)
      .willing .empty ()
    have ho : Obeys script es := by
      apply hc.obeys_of_finishes
      intro w hw c t hk
      obtain ⟨hx, call, hm, hq, ha⟩ := ht.finishes w (by rw [hev]; simpa [finishes] using hw)
      obtain ⟨-, -, -, -, ⟨⟩, ⟨⟩, hr⟩ := ht.made.mem hm
      rw [hq, ha] at hr
      have hk := classify_playing hk hr
      rw [hx, Setup.classify, show (under p).policy.noRerun = [] from hp, hk]
      cases script c t.rerun <;> rfl
    rw [hev]
    intro c i k hi
    exact ho c i k (by simpa [rerunResults] using hi)

end Rehearsal

end Retrial
