import Retrial.Proofs.Course

/-!
# The stages of a run

Whatever a run has reported so far is what its course has reported by then: the
events up to some move, with the start of an attempt behind them when an attempt
is under way. This holds at every event, and so of runs that a fault cuts short.
-/

set_option autoImplicit false

namespace Retrial

/-- The events that a run with a setup can have reported at some time. -/
inductive Stage (s : Setup) : List Event → Prop
  | silent : Stage s []
  | started : Stage s [.started s.invocation s.policy]
  | between {es : List Event} {l : Ledger} {φ : Phase} : Course s es l φ → Stage s es
  | underWay {es : List Event} {l : Ledger} {step : Step} : Course s es l (.attempting step) →
      Stage s (es ++ [.attemptStarted (s.request ((History.requests es).length + 1) step.kind)])
  | ended {es : List Event} {l : Ledger} {v : Verdict} (attempts : Nat) (elapsed : Duration) :
      Course s es l (.closed v) →
      Stage s (es ++ [.finished v l.confirmed l.recovered attempts elapsed])

namespace Course

variable {s : Setup} {es past : List Event} {l : Ledger} {φ : Phase}

theorem stage (h : Course s es l φ) (hp : past <+: es) : Stage s past := by
  induction h with
  | fresh hv he =>
    obtain rfl | ⟨rest, rfl, hr⟩ := List.prefix_cons_iff.1 hp
    · exact .silent
    · rw [List.prefix_nil.1 hr]; exact .started
  | existing log hv he =>
    obtain rfl | ⟨rest, rfl, hr⟩ := List.prefix_cons_iff.1 hp
    · exact .silent
    · obtain rfl | ⟨rest, rfl, hn⟩ := List.prefix_cons_iff.1 hr
      · exact .started
      · rw [List.prefix_nil.1 hn]; exact .between (.existing log hv he)
  | @attempted es l step q o k h hq hk ih =>
    rw [List.append_cons, List.prefix_concat_iff, List.prefix_concat_iff] at hp
    obtain rfl | rfl | hp := hp
    · simpa using Stage.between (h.attempted q o k hq hk)
    · rw [hq]; exact .underWay h
    · exact ih hp
  | recovered h e ih =>
    obtain rfl | hp := List.prefix_concat_iff.1 hp
    · exact .between (h.recovered e)
    · exact ih hp
  | scheduled h e ih =>
    obtain rfl | hp := List.prefix_concat_iff.1 hp
    · exact .between (h.scheduled e)
    · exact ih hp
  | confirmed h e ih =>
    obtain rfl | hp := List.prefix_concat_iff.1 hp
    · exact .between (h.confirmed e)
    · exact ih hp
  | passed _ ih | failed _ ih | executableFailed _ ih | crashed _ ih | counted _ _ ih
  | repeated _ _ _ ih | givenUp _ _ ih | granted _ _ ih | settled _ ih => exact ih hp

theorem getLast?_ne_attemptStarted (h : Course s es l φ) (q : Request) :
    es.getLast? ≠ some (.attemptStarted q) := by
  induction h with
  | fresh | existing | attempted | recovered | scheduled | confirmed => simp
  | passed _ ih | failed _ ih | executableFailed _ ih | crashed _ ih | counted _ _ ih
  | repeated _ _ _ ih | givenUp _ _ ih | granted _ _ ih | settled _ ih => exact ih

end Course

namespace Stage

variable {s : Setup} {es : List Event}

theorem attempting {q : Request} (h : Stage s (es ++ [.attemptStarted q])) :
    ∃ l step, Course s es l (.attempting step) ∧
      q = s.request ((History.requests es).length + 1) step.kind := by
  generalize hx : es ++ [Event.attemptStarted q] = all at h
  cases h with
  | silent => simp at hx
  | started => cases es <;> simp at hx
  | between hc => exact absurd (by rw [← hx]; simp) (hc.getLast?_ne_attemptStarted q)
  | @underWay es' l step hc =>
    obtain ⟨rfl, hq⟩ := List.append_inj' hx rfl
    exact ⟨l, step, hc, by simpa using hq⟩
  | ended attempts elapsed hc => simpa using List.append_inj_right' hx rfl

end Stage

variable {Memory : Type} {s : Setup} {x : Executor Memory} {listen : Listener} {t : Tally}
  {files : Files} {memory : Memory} {past : List Event}

theorem stage_conclude {es : List Event} {l : Ledger} {v : Verdict}
    (h : Course s es l (.closed v))
    (hp : past <+: es ++ (conclude x listen t l v files memory).events) : Stage s past := by
  unfold conclude at hp
  dsimp only at hp
  split at hp
  · exact h.stage (by simpa [Run.failed] using hp)
  · obtain rfl | hp := List.prefix_concat_iff.1 hp
    · exact .ended _ _ h
    · exact h.stage hp

theorem stage_proceed {es : List Event} {l : Ledger} {n : Next} (h : Course s es l n.phase)
    (ha : t.attempts = (History.requests es).length)
    (hp : past <+: es ++ (proceed s x listen t l n files memory).events) : Stage s past := by
  fun_induction proceed s x listen t l n files memory generalizing es
  case case1 => exact stage_conclude h hp
  case case2 t l files memory step r hr =>
    obtain hr | ⟨-, hr⟩ := launched_of_stopped hr
    · exact h.stage (by simpa [hr] using hp)
    · rw [hr, ha, List.prefix_concat_iff] at hp
      obtain rfl | hp := hp
      · exact .underWay h
      · exact h.stage hp
  case case3 t l files memory step events q k files' memory' hd d heard fault hq =>
    obtain ⟨hk, o, hc, rfl⟩ := attemptOnce_done hd
    have hm := (h.attempted q o k (ha ▸ hk) hc).after
    have hh := publish_initial listen (t.events + 2) (Decision.after l step k).events
    rw [hq] at hh
    refine hm.stage (hp.trans ?_)
    simpa [Run.failed, List.prefix_append_right_inj] using hh
  case case4 t l files memory step events q k files' memory' hd d heard hq ih =>
    obtain ⟨hk, o, hc, rfl⟩ := attemptOnce_done hd
    have hm := (h.attempted q o k (ha ▸ hk) hc).after
    have hh : heard = d.events := by simpa [hq] using publish_all (congrArg Prod.snd hq)
    subst hh
    refine ih hm ?_ (by simpa using hp)
    simp [Tally.after, ha, Decision.requests_after]

theorem stage_begin (hv : s.policy.fault? = none)
    (hp : past <+: .started s.invocation s.policy :: (begin s x listen files memory).events) :
    Stage s past := by
  unfold begin at hp
  dsimp only at hp
  split at hp
  · next he => exact stage_proceed (n := .attempt .fullRun) (.fresh hv he) rfl hp
  · next path he =>
    split at hp
    · exact (Course.existing .empty hv he).stage
        (hp.trans (by simp [Run.failed]))
    · next log _ =>
      have hr := requests_existing (.start s.policy) path log (s.classifyExisting log)
      have hm := (Course.existing log hv he).after
      split at hp
      · refine hm.stage (hp.trans ((List.prefix_cons_inj _).2 ?_))
        simpa [Run.failed, Decision.after] using publish_initial listen 1 _
      · next hq =>
        rw [publish_all hq] at hp
        exact stage_proceed hm (congrArg List.length hr).symm hp

/-- What a run has reported up to any of its events is a stage of it. -/
theorem stage_supervise (hp : past <+: (supervise s x listen files memory).events) :
    Stage s past := by
  unfold supervise at hp
  split at hp
  · rw [List.prefix_nil.1 hp]; exact .silent
  · next hv =>
    split at hp
    · rw [List.prefix_nil.1 hp]; exact .silent
    · dsimp only at hp
      split at hp
      · rw [List.prefix_nil.1 hp]; exact .silent
      · exact stage_begin hv hp

theorem attempting_of_mem {q : Request} (h : q ∈ (supervise s x listen files memory).requests) :
    ∃ es l step, Course s es l (.attempting step) ∧
      q = s.request ((History.requests es).length + 1) step.kind := by
  rw [supervise_requests, History.mem_requests] at h
  obtain ⟨past, rest, he⟩ := List.append_of_mem h
  have hp : past ++ [.attemptStarted q] <+: (supervise s x listen files memory).events :=
    ⟨rest, by simp [he]⟩
  have hs : Stage s (past ++ [.attemptStarted q]) := stage_supervise hp
  obtain ⟨l, step, hc, hq⟩ := hs.attempting
  exact ⟨past, l, step, hc, hq⟩

end Retrial
