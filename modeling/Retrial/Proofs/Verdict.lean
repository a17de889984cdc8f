import Retrial.Proofs.Classification
import Retrial.Proofs.Standing
import Retrial.Proofs.Within
import Retrial.Rehearsal

/-!
# What a verdict means

The verdict of a run is read off its history. A pass is earned by the last
result of the whole binary and by the reruns of every case that failed in it; a
crash is the last thing that was seen, with no whole rerun left to meet it; and
a confirmed failure is never forgiven.
-/

set_option autoImplicit false

namespace Retrial

open History

def Showing.IsCalm (w : Showing) : Prop :=
  (∀ reason, w.classification ≠ .crashed reason) ∧
    ∀ code, w ≠ ⟨some .fullRun, .executableFailed code⟩

/-- A result of the whole binary of which nothing is left open: it passed, or each
failing case remains to be confirmed or is decided. -/
def Answered (l : Ledger) (remaining : List TestCase) (w : WholeResult) : Prop :=
  w.classification = .passed ∨ ∃ failures, w.classification = .functionsFailed failures ∧
    ∀ c ∈ failures, c ∈ remaining ∨ c ∈ l.recovered ∨ c ∈ l.confirmed

theorem Answered.mono {l l' : Ledger} {remaining remaining' : List TestCase} {w : WholeResult}
    (h : Answered l remaining w)
    (hm : ∀ c, c ∈ remaining ∨ c ∈ l.recovered ∨ c ∈ l.confirmed →
      c ∈ remaining' ∨ c ∈ l'.recovered ∨ c ∈ l'.confirmed) : Answered l' remaining' w := by
  obtain hp | ⟨failures, hf, hc⟩ := h
  · exact Or.inl hp
  · exact Or.inr ⟨failures, hf, fun c hx => hm c (hc c hx)⟩

namespace Phase

@[simp] def Follows (l : Ledger) (last : Option Showing) : Phase → Prop
  | .attempting .fullRun => True
  | .met step k => ∃ w, last = some w ∧ w.classification = k ∧
      (w.kind = some step.kind ∨
        w.kind = none ∧ step = .fullRun ∧ ∀ code, k ≠ .executableFailed code)
  | .wanting (.crashed reason) => ∃ w, last = some w ∧ w.classification = .crashed reason
  | .wanting (.executableFailed code) => last = some ⟨some .fullRun, .executableFailed code⟩
  | .closed v => ∃ w, last = some w ∧
      ((∃ reason, w.classification = .crashed reason ∧ v = .crash ∧
          (reason.allowsRerun = false ∨ l.crashLeft = 0)) ∨
        (∃ code, w = ⟨some .fullRun, .executableFailed code⟩ ∧ v = .fail ∧ l.executableLeft = 0) ∨
        (w.IsCalm ∧ v = l.settled))
  | _ => ∃ w, last = some w ∧ w.IsCalm

@[simp] def Answers (l : Ledger) (last : Option WholeResult) : Phase → Prop
  | .attempting .fullRun => True
  | .wanting _ => True
  | .met .fullRun k => ∃ w, last = some w ∧ w.classification = k
  | .closed v => v = .pass → ∃ w, last = some w ∧ Answered l [] w
  | φ => ∃ w, last = some w ∧ Answered l φ.remaining w

end Phase

namespace RerunReason

theorem take?_crashed_eq_none {l : Ledger} {reason : CrashReason}
    (h : (crashed reason).take? l = none) : reason.allowsRerun = false ∨ l.crashLeft = 0 := by
  by_cases ha : reason.allowsRerun = true
  · rw [take?, if_pos ha] at h
    exact Or.inr (Ledger.takeCrash?_eq_none.1 h)
  · exact Or.inl (Bool.eq_false_iff.2 ha)

theorem take?_executableFailed_eq_none {l : Ledger} {code : Int}
    (h : (executableFailed code).take? l = none) : l.executableLeft = 0 :=
  Ledger.takeExecutable?_eq_none.1 h

end RerunReason

namespace Course

variable {s : Setup} {es : List Event} {l : Ledger} {φ : Phase}

theorem follows (h : Course s es l φ) : φ.Follows l (showings es).getLast? := by
  induction h with
  | fresh | scheduled => trivial
  | existing log =>
    refine ⟨_, rfl, rfl, Or.inr ⟨rfl, rfl, fun code => ?_⟩⟩
    exact classifyLog_ne_executableFailed
  | @attempted es l step q o k _ hq _ ih =>
    have hk : q.kind = step.kind := by rw [hq]; rfl
    simp [hk]
  | passed _ ih | failed _ ih =>
    obtain ⟨w, hw, hc, -⟩ := ih
    refine ⟨w, hw, by simp [hc], ?_⟩
    rintro code rfl
    simp at hc
  | executableFailed _ ih =>
    obtain ⟨⟨kind, k⟩, hw, rfl, hk | ⟨-, -, hn⟩⟩ := ih
    · obtain rfl : kind = some .fullRun := hk
      exact hw
    · exact absurd rfl (hn _)
  | crashed _ ih =>
    obtain ⟨w, hw, hc, -⟩ := ih
    exact ⟨w, hw, hc⟩
  | recovered _ _ ih | counted _ _ ih =>
    obtain ⟨w, hw, hc, -⟩ := ih
    refine ⟨w, by simpa using hw, by simp [hc], ?_⟩
    rintro code rfl
    simp at hc
  | repeated _ _ hn ih =>
    -- What was shown last is a rerun's, so it is neither of a full run nor of an existing log.
    obtain ⟨w, hw, hc, hk | ⟨-, hk, -⟩⟩ := ih
    · refine ⟨w, hw, by simpa [hc] using hn, ?_⟩
      rintro code rfl
      simp [Step.kind] at hk
    · cases hk
  | @givenUp es l reason _ e ih =>
    cases reason with
    | crashed reason =>
      obtain ⟨w, hw, hc⟩ := ih
      exact ⟨w, hw, Or.inl ⟨reason, hc, rfl, RerunReason.take?_crashed_eq_none e⟩⟩
    | executableFailed code =>
      exact ⟨_, ih, Or.inr (Or.inl ⟨code, rfl, rfl, RerunReason.take?_executableFailed_eq_none e⟩)⟩
  | granted _ _ ih => exact ih
  | confirmed _ _ ih => simpa using ih
  | settled _ ih =>
    obtain ⟨w, hw, hc⟩ := ih
    exact ⟨w, hw, Or.inr (Or.inr ⟨hc, rfl⟩)⟩

theorem answers (h : Course s es l φ) : φ.Answers l (wholeResults es).getLast? := by
  induction h with
  | fresh | scheduled | crashed | executableFailed => trivial
  | existing => exact ⟨_, rfl, rfl⟩
  | @attempted es l step q o k _ hq _ ih =>
    have hk : q.kind = step.kind := by rw [hq]; rfl
    cases step with
    | fullRun => simp [hk, Step.kind]
    | rerun c t later => simpa [hk, Step.kind] using ih
  | passed _ ih =>
    obtain ⟨w, hw, hc⟩ := ih
    exact ⟨w, hw, Or.inl hc⟩
  | @failed es l failures _ ih =>
    obtain ⟨w, hw, hc⟩ := ih
    have he := Ledger.entered_beginConfirmation l failures
    refine ⟨w, hw, Or.inr ⟨failures, hc, fun c hx => ?_⟩⟩
    have hp := he.pending c
    rw [he.frame]
    simp only [Phase.remaining, List.not_mem_nil, false_or] at hp ⊢
    by_cases hd : c ∈ l.recovered ∨ c ∈ l.confirmed
    · exact Or.inr hd
    · exact Or.inl (hp.2 ⟨hx, hd⟩)
  | @recovered es l l' c t later h e ih =>
    obtain ⟨w, hw, ha⟩ := ih
    refine ⟨w, by simpa using hw, ha.mono fun d hd => ?_⟩
    rw [(Ledger.recordPass_eq_true e (h.head_known rfl)).2]
    simp only [Phase.remaining, List.mem_cons, List.mem_append, List.not_mem_nil, or_false] at hd ⊢
    grind
  | counted h e ih =>
    rw [(Ledger.recordPass_eq_false e (h.head_known rfl)).2]
    exact ih
  | repeated _ _ _ ih => exact ih
  | @givenUp es l reason _ _ _ => cases reason <;> simp
  | granted _ e ih => rw [Ledger.nextRerun?_frame e]; exact ih
  | @confirmed es l c later h _ ih =>
    obtain ⟨w, hw, ha⟩ := ih
    refine ⟨w, by simpa using hw, ha.mono fun d hd => ?_⟩
    simp only [Phase.remaining, List.mem_cons, Ledger.recovered_confirm,
      Ledger.mem_confirmed_confirm] at hd ⊢
    grind
  | settled _ ih => exact fun _ => ih

theorem whole_classified (h : Course s es l φ) :
    ∀ w ∈ wholeResults es, w.classification = s.classify w.exit w.log := by
  induction h with
  | fresh => simp
  | existing log => simp [Setup.classifyExisting]
  | @attempted es l step q o k _ _ hk ih =>
    intro w hw
    obtain hw | ⟨-, rfl⟩ :
        w ∈ wholeResults es ∨ q.kind.isFullRun = true ∧ ⟨o.exit, o.log, k⟩ = w := by
      simpa using hw
    · exact ih w hw
    · exact hk
  | recovered _ _ ih | scheduled _ _ ih | confirmed _ _ ih => simpa using ih
  | passed _ ih | failed _ ih | executableFailed _ ih | crashed _ ih | counted _ _ ih
  | repeated _ _ _ ih | givenUp _ _ ih | granted _ _ ih | settled _ ih => exact ih

end Course

theorem Ledger.settled_eq_pass {l : Ledger} : l.settled = .pass ↔ l.confirmed = [] := by
  simp [settled]

theorem Ledger.settled_eq_fail {l : Ledger} : l.settled = .fail ↔ l.confirmed ≠ [] := by
  simp [settled]

theorem Ledger.settled_cases (l : Ledger) : l.settled = .pass ∨ l.settled = .fail := by
  by_cases hn : l.confirmed = []
  · exact Or.inl (settled_eq_pass.2 hn)
  · exact Or.inr (settled_eq_fail.2 hn)

namespace Course

variable {s : Setup} {es : List Event} {l : Ledger} {φ : Phase} {v : Verdict}

theorem confirmed_eq_nil (h : Course s es l (.closed .pass)) : l.confirmed = [] := by
  obtain ⟨w, -, ⟨_, -, hv, -⟩ | ⟨_, -, hv, -⟩ | ⟨-, hv⟩⟩ := h.follows
  · cases hv
  · cases hv
  · exact Ledger.settled_eq_pass.1 hv.symm

theorem passes_of_recovered {c : TestCase} (h : Course s es l (.closed v)) (hc : c ∈ l.recovered) :
    passes c es = s.policy.passesNeeded := by
  have hp := (h.standings c).2.2
  rw [(h.thresholds c).2.1.1 hc] at hp
  exact hp

theorem conclusive {w : WholeResult} (h : Course s es l (.closed v)) (hw : w ∈ wholeResults es)
    (ha : Answered l [] w) : Conclusive s.policy.noRerun w.exit w.log := by
  have hk : w.classification = classify s.policy.noRerun w.exit w.log := h.whole_classified w hw
  apply classify_conclusive <;> rw [← hk] <;> obtain hp | ⟨failures, hf, -⟩ := ha
  · simp [hp]
  · simp [hf]
  · simp [hp]
  · simp [hf]

theorem crashLeft_eq_zero (h : Course s es l φ) :
    l.crashLeft = 0 ↔ crashReruns es = s.policy.crashReruns := by
  have := h.budgets.1
  omega

theorem executableLeft_eq_zero (h : Course s es l φ) :
    l.executableLeft = 0 ↔ 0 < executableReruns es ∨ s.policy.maxRepeats = 0 := by
  have hb := h.budgets.2
  unfold Policy.executableReruns at hb
  split at hb <;> omega

/-- A run is over with a crash that no whole rerun can meet, with a full run that
failed without a log and cannot be taken again, or with nothing left to confirm. -/
theorem closed_cases (h : Course s es l (.closed v)) : ∃ w, (showings es).getLast? = some w ∧
    ((∃ reason, w.classification = .crashed reason ∧ v = .crash ∧
        ((∃ function, reason = .noRerunFailure function) ∨
          crashReruns es = s.policy.crashReruns)) ∨
      (∃ code, w = ⟨some .fullRun, .executableFailed code⟩ ∧ v = .fail ∧
        (0 < executableReruns es ∨ s.policy.maxRepeats = 0)) ∨
      (w.IsCalm ∧ v = l.settled)) := by
  obtain ⟨w, hw, hv⟩ := h.follows
  refine ⟨w, hw, ?_⟩
  rcases hv with ⟨reason, hr, hv, hb⟩ | ⟨code, hx, hv, hb⟩ | hv
  · rw [CrashReason.allowsRerun_eq_false, h.crashLeft_eq_zero] at hb
    exact Or.inl ⟨reason, hr, hv, hb⟩
  · exact Or.inr (Or.inl ⟨code, hx, hv, h.executableLeft_eq_zero.1 hb⟩)
  · exact Or.inr (Or.inr hv)

theorem verdict_cases (h : Course s es l (.closed v)) : v = .pass ∨ v = .fail ∨ v = .crash := by
  obtain ⟨w, -, ⟨_, -, hv, -⟩ | ⟨_, -, hv, -⟩ | ⟨-, hv⟩⟩ := h.closed_cases
  · exact Or.inr (Or.inr hv)
  · exact Or.inr (Or.inl hv)
  · rw [hv]
    exact l.settled_cases.imp_right Or.inl

theorem verdict_eq_crash (h : Course s es l (.closed v)) : v = .crash ↔
    ∃ w reason, (showings es).getLast? = some w ∧ w.classification = .crashed reason ∧
      ((∃ function, reason = .noRerunFailure function) ∨
        crashReruns es = s.policy.crashReruns) := by
  obtain ⟨w, hw, ⟨reason, hk, hv, hb⟩ | ⟨code, rfl, hv, -⟩ | ⟨⟨hk, -⟩, hv⟩⟩ := h.closed_cases
  · exact ⟨fun _ => ⟨w, reason, hw, hk, hb⟩, fun _ => hv⟩
  · refine ⟨fun hc => absurd (hv.symm.trans hc) (by simp), ?_⟩
    rintro ⟨w', reason, hw', hk', -⟩
    cases hw.symm.trans hw'
    cases hk'
  · constructor
    · intro hc
      obtain hs | hs := l.settled_cases <;> simp [hv, hs] at hc
    · rintro ⟨w', reason, hw', hk', -⟩
      cases hw.symm.trans hw'
      exact absurd hk' (hk reason)

theorem verdict_eq_fail (h : Course s es l (.closed v)) (hc : v ≠ .crash) : v = .fail ↔
    l.confirmed ≠ [] ∨
      (∃ code, (showings es).getLast? = some ⟨some .fullRun, .executableFailed code⟩) ∧
        (0 < executableReruns es ∨ s.policy.maxRepeats = 0) := by
  obtain ⟨w, hw, ⟨_, -, hv, -⟩ | ⟨code, rfl, hv, hb⟩ | ⟨⟨-, hn⟩, hv⟩⟩ := h.closed_cases
  · exact absurd hv hc
  · exact ⟨fun _ => Or.inr ⟨⟨code, hw⟩, hb⟩, fun _ => hv⟩
  · rw [hv, Ledger.settled_eq_fail]
    refine ⟨Or.inl, fun hx => hx.elim id ?_⟩
    rintro ⟨⟨code, hx⟩, -⟩
    exact absurd (Option.some.inj (hw.symm.trans hx)) (hn code)

theorem verdict_of_confirmed (h : Course s es l (.closed v)) (hn : l.confirmed ≠ []) :
    v = .fail ∨ v = .crash := by
  by_cases hc : v = .crash
  · exact Or.inr hc
  · exact Or.inl ((h.verdict_eq_fail hc).2 (Or.inl hn))

end Course

namespace Rehearsal

def setup (p : Policy) : Setup :=
  ⟨⟨⟨none, some "t", []⟩, some "t"⟩, p, ".", .fixed, none, [], none, none⟩

/-- Two functions that fail at first. The first rerun of the second one crashes. -/
def shaky (after : List String) : List ScriptedCase :=
  [⟨"a", none, ["fail", "fail", "pass"]⟩, ⟨"b", none, "fail" :: "crash" :: after⟩]

theorem ending_shaky : (supervise (setup .standard) (functions ⟨0⟩) .willing .empty
    (shaky ["fail", "pass"])).ending =
      .summary ⟨.pass, 6, 2, [], [⟨"a", none⟩, ⟨"b", none⟩], ⟨0⟩⟩ := by
  rw [supervise_within 6 rfl rfl (Setup.makeLogDirectory_here rfl rfl) rfl]
  rfl

end Rehearsal

variable {Memory : Type} {s : Setup} {x : Executor Memory} {listen : Listener}
  {files : Files} {memory : Memory} {sm : Summary}

/-- A run that passes has earned it: the last result of the whole binary is
beyond doubt, every case that failed in it has passed as many reruns as it
needs, and no failure was ever confirmed. -/
theorem pass_is_earned (h : (supervise s x listen files memory).ending = .summary sm)
    (hv : sm.verdict = .pass) :
    (∃ w, (wholeResults (supervise s x listen files memory).events).getLast? = some w ∧
      Conclusive s.policy.noRerun w.exit w.log ∧
      (w.classification = .passed ∨ ∃ failures, w.classification = .functionsFailed failures ∧
        ∀ c ∈ failures, 0 < s.policy.passesNeeded ∧
          s.policy.passesNeeded ≤ passes c (supervise s x listen files memory).events)) ∧
    ∀ c n, Event.confirmed c n ∉ (supervise s x listen files memory).events := by
  obtain ⟨es, l, hc, -, he⟩ := course_of_summary h
  rw [hv] at hc he
  rw [he]
  have hn := hc.confirmed_eq_nil
  obtain ⟨w, hw, ha⟩ := hc.answers rfl
  refine ⟨⟨w, by simpa using hw, hc.conclusive (List.mem_of_getLast? hw) ha, ?_⟩, ?_⟩
  · refine ha.imp_right fun ⟨failures, hf, hd⟩ => ⟨failures, hf, fun c hx => ?_⟩
    have hr : c ∈ l.recovered := by simpa [hn] using hd c hx
    have hp := hc.passes_of_recovered hr
    exact ⟨(Policy.fault?_eq_none.1 hc.valid).1, by simpa using Nat.le_of_eq hp.symm⟩
  · intro c n hx
    have hm : c ∈ History.confirmed es := mem_confirmed.2 ⟨n, by simpa using hx⟩
    rw [← hc.decided.1, hn] at hm
    cases hm

theorem pass_is_earned_after_crash :
    (supervise (Rehearsal.setup .standard) (Rehearsal.functions ⟨0⟩) .willing .empty
        (Rehearsal.shaky ["fail", "pass"])).ending =
      .summary ⟨.pass, 6, 2, [], [⟨"a", none⟩, ⟨"b", none⟩], ⟨0⟩⟩ ∧
    ∀ c n, Event.confirmed c n ∉ (supervise (Rehearsal.setup .standard) (Rehearsal.functions ⟨0⟩)
      .willing .empty (Rehearsal.shaky ["fail", "pass"])).events := by
  have h := Rehearsal.ending_shaky
  exact ⟨h, (pass_is_earned h rfl).2⟩

/-- The verdict, read off the last thing that was seen, the whole reruns that
were announced and the failures that were confirmed. -/
theorem verdict_reading (h : (supervise s x listen files memory).ending = .summary sm) :
    (sm.verdict = .crash ↔
      ∃ w reason, (showings (supervise s x listen files memory).events).getLast? = some w ∧
        w.classification = .crashed reason ∧
        ((∃ function, reason = .noRerunFailure function) ∨
          crashReruns (supervise s x listen files memory).events = s.policy.crashReruns)) ∧
    (sm.verdict ≠ .crash → (sm.verdict = .fail ↔ sm.confirmed ≠ [] ∨
      ((∃ code, (showings (supervise s x listen files memory).events).getLast? =
          some ⟨some .fullRun, .executableFailed code⟩) ∧
        (0 < executableReruns (supervise s x listen files memory).events ∨
          s.policy.maxRepeats = 0)))) ∧
    (sm.verdict ≠ .crash → sm.verdict ≠ .fail → sm.verdict = .pass) ∧
    sm.verdict ≠ .usageError ∧
    sm.confirmed = History.confirmed (supervise s x listen files memory).events ∧
    ((∃ c n, Event.confirmed c n ∈ (supervise s x listen files memory).events) →
      sm.verdict = .fail ∨ sm.verdict = .crash) := by
  obtain ⟨es, l, hc, hs, he⟩ := course_of_summary h
  have hl : sm.confirmed = l.confirmed := by rw [hs]
  have hd : l.confirmed = History.confirmed (supervise s x listen files memory).events := by
    rw [hc.decided.1, he]; simp
  have hm : (∃ c n, Event.confirmed c n ∈ (supervise s x listen files memory).events) ↔
      l.confirmed ≠ [] := by
    rw [hd]
    simp only [← mem_confirmed]
    exact ⟨fun ⟨_, hx⟩ => List.ne_nil_of_mem hx, List.exists_mem_of_ne_nil _⟩
  have hx : showings (supervise s x listen files memory).events = showings es := by rw [he]; simp
  have hr : wholeReruns (supervise s x listen files memory).events = wholeReruns es := by
    rw [he]; simp
  simp only [hl, hm, ← hd, hx, crashReruns, executableReruns, hr]
  have hv := hc.verdict_cases
  refine ⟨hc.verdict_eq_crash, hc.verdict_eq_fail, fun hnc hnf => ?_, ?_, trivial,
    hc.verdict_of_confirmed⟩
  · exact hv.resolve_right (not_or.2 ⟨hnf, hnc⟩)
  · rintro hu
    simp [hu] at hv

theorem verdict_reading_after_crash :
    (supervise (Rehearsal.setup .standard) (Rehearsal.functions ⟨0⟩) .willing .empty
        (Rehearsal.shaky ["crash"])).ending =
      .summary ⟨.crash, 5, 2, [], [⟨"a", none⟩], ⟨0⟩⟩ ∧
    ∃ w reason, (showings (supervise (Rehearsal.setup .standard) (Rehearsal.functions ⟨0⟩) .willing
        .empty (Rehearsal.shaky ["crash"])).events).getLast? = some w ∧
      w.classification = .crashed reason := by
  have h : (supervise (Rehearsal.setup .standard) (Rehearsal.functions ⟨0⟩) .willing .empty
        (Rehearsal.shaky ["crash"])).ending =
      .summary ⟨.crash, 5, 2, [], [⟨"a", none⟩], ⟨0⟩⟩ := by
    rw [supervise_within 5 rfl rfl (Setup.makeLogDirectory_here rfl rfl) rfl]
    rfl
  obtain ⟨w, reason, hw, hr, -⟩ := (verdict_reading h).1.1 rfl
  exact ⟨h, w, reason, hw, hr⟩

end Retrial
