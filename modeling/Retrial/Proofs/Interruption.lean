import Retrial.Proofs.Grammar
import Retrial.Proofs.LifeCycle
import Retrial.Proofs.Obliging

/-!
# Runs that are cut off

A listener that refuses an event cuts a run off in front of it, and an attempt
that cannot be run cuts it off behind its start. Up to there the run is the one
that there would have been otherwise; behind it nothing is reported or run.
-/

set_option autoImplicit false

namespace Retrial

open History

/-! ### Hearing events out -/

section Publish

variable {listen : Listener} {count : Nat} {es fs : List Event}

theorem publish_append_refused {fault : IoFault} (h : (publish listen count es).2 = some fault) :
    publish listen count (es ++ fs) = publish listen count es := by
  induction es generalizing count with
  | nil => cases h
  | cons e es ih =>
    cases hl : listen count e with
    | some fault => rw [List.cons_append, publish_refused hl, publish_refused hl]
    | none =>
      rw [publish_heard hl] at h
      rw [List.cons_append, publish_heard hl, publish_heard hl, ih h]

theorem publish_append_heard (h : (publish listen count es).2 = none) :
    publish listen count (es ++ fs) = (es ++ (publish listen (count + es.length) fs).1,
      (publish listen (count + es.length) fs).2) := by
  induction es generalizing count with
  | nil => rfl
  | cons e es ih =>
    cases hl : listen count e with
    | some fault => rw [publish_refused hl] at h; cases h
    | none =>
      rw [publish_heard hl] at h
      rw [List.cons_append, publish_heard hl, ih h, List.length_cons, Nat.add_assoc, Nat.add_comm 1]
      rfl

theorem publish_take {k : Nat} {e : Event} {fault : IoFault} (he : es[k]? = some e)
    (hf : listen (count + k) e = some fault)
    (hb : ∀ i < k, ∀ b, es[i]? = some b → listen (count + i) b = none) :
    publish listen count es = (es.take k, some fault) := by
  induction k generalizing count es with
  | zero =>
    obtain ⟨b, es, rfl⟩ := List.exists_cons_of_ne_nil (l := es) (by rintro rfl; cases he)
    obtain rfl : b = e := Option.some.inj he
    exact publish_refused hf
  | succ k ih =>
    obtain ⟨b, es, rfl⟩ := List.exists_cons_of_ne_nil (l := es) (by rintro rfl; cases he)
    have hr : publish listen (count + 1) es = (es.take k, some fault) := by
      apply ih he
      · rw [Nat.add_assoc, Nat.add_comm 1]
        exact hf
      · intro i hi b hbi
        rw [Nat.add_assoc, Nat.add_comm 1]
        exact hb (i + 1) (Nat.succ_lt_succ hi) b hbi
    have hh : listen count b = none := hb 0 (Nat.succ_pos k) b rfl
    rw [publish_heard hh, hr, List.take_succ_cons]

end Publish

/-- A run in which a listener counts, compared to the same run in which all is heard. -/
structure Run.Cut (listen : Listener) (count : Nat) (full r : Run) : Prop where
  events : r.events = (publish listen count full.events).1
  ending : r.ending = match (publish listen count full.events).2 with
    | some fault => .fault (.writeEvent fault)
    | none => full.ending

variable {Memory : Type} {s : Setup} {x : Executor Memory} {listen : Listener} {t : Tally}
  {l : Ledger} {files files' : Files} {memory memory' : Memory}

namespace Run.Cut

variable {count : Nat} {full r : Run} {es : List Event}

theorem refused {heard : List Event} {fault : IoFault} (h : publish listen count es = (heard, some fault))
    (he : r.events = heard) (hf : r.ending = .fault (.writeEvent fault)) :
    Run.Cut listen count (full.heard es) r := by
  have hp : publish listen count (full.heard es).events = (heard, some fault) := by
    rw [Run.heard_events, publish_append_refused (by rw [h]), h]
  constructor
  · rw [hp, he]
  · rw [hp, hf]

theorem heard (h : (publish listen count es).2 = none)
    (hc : Run.Cut listen (count + es.length) full r) :
    Run.Cut listen count (full.heard es) (r.heard es) := by
  have hp : publish listen count (es ++ full.events) = _ := publish_append_heard h
  constructor
  · rw [Run.heard_events, Run.heard_events, hp, hc.events]
  · rw [Run.heard_events, hp]
    exact hc.ending

theorem carriedOut {q q' : Request} (h : Run.Cut listen count full r) :
    Run.Cut listen count (full.carriedOut q) (r.carriedOut q') := ⟨h.events, h.ending⟩

end Run.Cut

/-! ### A listener that refuses an event -/

theorem attemptOnce_cut_stopped {kind : AttemptKind} {full : Run}
    (h : attemptOnce s x .willing t kind files memory = .stopped full) :
    ∃ r, attemptOnce s x listen t kind files memory = .stopped r ∧
      Run.Cut listen t.events full r := by
  cases attemptOnce_eq_iff.1 h with
  | unprepared hp => exact ⟨_, attemptOnce_eq_iff.2 (.unprepared hp), rfl, rfl⟩
  | unheard _ hl => cases hl
  | unreported _ _ hr => cases hr
  | unrun hq hx =>
    cases hl : listen t.events (.attemptStarted (s.request (t.attempts + 1) kind)) with
    | some fault =>
      exact ⟨_, attemptOnce_eq_iff.2 (.unheard hq.prepared hl),
        .refused (publish_refused hl) rfl rfl⟩
    | none =>
      exact ⟨_, attemptOnce_eq_iff.2 (.unrun ⟨hq.prepared, hl⟩ hx),
        .heard (by rw [publish_heard hl]; rfl) ⟨rfl, rfl⟩⟩

theorem attemptOnce_cut_done (listen : Listener) {kind : AttemptKind} {es : List Event}
    {q : Request} {k : Classification}
    (h : attemptOnce s x .willing t kind files memory = .done es q k files' memory') :
    (publish listen t.events es).2 = none ∧
        attemptOnce s x listen t kind files memory = .done es q k files' memory' ∨
      ∃ heard fault r, publish listen t.events es = (heard, some fault) ∧
        attemptOnce s x listen t kind files memory = .stopped r ∧
        r.events = heard ∧ r.ending = .fault (.writeEvent fault) := by
  cases attemptOnce_eq_iff.1 h with
  | @done _ _ _ o hq hx =>
  cases hl : listen t.events (.attemptStarted (s.request (t.attempts + 1) kind)) with
  | some fault =>
    exact .inr ⟨_, _, _, publish_refused hl, attemptOnce_eq_iff.2 (.unheard hq.prepared hl),
      rfl, rfl⟩
  | none =>
    cases hr : listen (t.events + 1) (.attemptFinished (s.request (t.attempts + 1) kind) o
        (s.classify o.exit o.log)) with
    | some fault =>
      refine .inr ⟨_, _, _, ?_, attemptOnce_eq_iff.2 (.unreported ⟨hq.prepared, hl⟩ hx hr),
        rfl, rfl⟩
      rw [publish_heard hl, publish_refused hr]
      rfl
    | none =>
      refine .inl ⟨?_, attemptOnce_eq_iff.2 (.done ⟨hq.prepared, hl⟩ hx hr)⟩
      rw [publish_heard hl, publish_heard hr]
      rfl

theorem conclude_cut {v : Verdict} : Run.Cut listen t.events
    (conclude x .willing t l v files memory) (conclude x listen t l v files memory) := by
  unfold conclude
  dsimp only [Listener.willing]
  split
  · next hl => constructor <;> rw [publish_refused hl] <;> rfl
  · next hl => constructor <;> rw [publish_heard hl] <;> rfl

theorem proceed_cut {n : Next} : Run.Cut listen t.events
    (proceed s x .willing t l n files memory) (proceed s x listen t l n files memory) := by
  fun_induction proceed s x .willing t l n files memory
  case case1 => rw [proceed]; exact conclude_cut
  case case2 t l files memory step full hr =>
    obtain ⟨r, hs, hc⟩ := attemptOnce_cut_stopped hr
    rw [proceed_stopped hs]
    exact hc
  case case3 hp =>
    rw [publish_willing] at hp
    cases hp
  case case4 t l files memory step es q k files' memory' hd d heard hp ih =>
    have hwill : d.events = heard := by
      rw [publish_willing] at hp
      exact (Prod.mk.inj hp).1
    subst hwill
    have hlen : es.length = 2 := by
      obtain ⟨-, o, -, rfl⟩ := attemptOnce_done hd
      rfl
    obtain ⟨hh, hd'⟩ | ⟨heard, fault, r, hh, hs, he, hf⟩ := attemptOnce_cut_done listen hd
    · have hes : publish listen t.events (es ++ d.events) = _ := publish_append_heard hh
      rw [hlen] at hes
      rw [proceed_done hd']
      split
      · next heard fault hp =>
        rw [hp] at hes
        exact .refused hes (by simp [Run.failed]) rfl
      · next heard hp =>
        rw [hp] at hes
        have hall : heard = d.events := by simpa [hp] using publish_all (congrArg Prod.snd hp)
        subst hall
        refine .heard (by rw [hes]) (.carriedOut ?_)
        rw [List.length_append, hlen]
        exact ih
    · rw [proceed_stopped hs]
      refine .refused ?_ he hf
      rw [publish_append_refused (by rw [hh]), hh]

theorem begin_cut : Run.Cut listen 1 (begin s x .willing files memory)
    (begin s x listen files memory) := by
  unfold begin
  dsimp only
  split
  · exact proceed_cut (t := ⟨0, 0, 1⟩)
  · split
    · exact ⟨rfl, rfl⟩
    · next path _ _ log _ =>
      simp only [publish_willing]
      split
      · next fault hp => exact .refused (Prod.ext rfl hp) (by simp [Run.failed]) rfl
      · next hp =>
        rw [publish_all hp]
        refine .heard hp ?_
        rw [List.length_cons, Nat.add_comm _ 1, ← Nat.add_assoc]
        exact proceed_cut (t := ⟨0, 0, _⟩)

theorem supervise_cut (s : Setup) (x : Executor Memory) (listen : Listener) (files : Files)
    (memory : Memory) : Run.Cut listen 0 (supervise s x .willing files memory)
      (supervise s x listen files memory) := by
  unfold supervise
  split
  · exact ⟨rfl, rfl⟩
  · split
    · exact ⟨rfl, rfl⟩
    · dsimp only [Listener.willing]
      split
      · next hl => exact .refused (publish_refused hl) rfl rfl
      · next hl => exact .heard (by rw [publish_heard hl]; rfl) begin_cut

/-! ### An execution that fails -/

/-- The executions are counted, and the one with a number fails. -/
def Executor.failingAt (x : Executor Memory) (n : Nat) (fault : Request → ExecuteFault) :
    Executor (Nat × Memory) where
  run q files m :=
    if m.1 + 1 = n then (.error (fault q), files, m)
    else
      let (result, files, memory) := x.run q files m.2
      (result, files, m.1 + 1, memory)
  elapsed m := x.elapsed m.2

/-- A run that stops in an attempt of another one, since the execution with a number fails. -/
inductive Run.FailsAt (fault : Request → ExecuteFault) (n count : Nat) (full r : Run) : Prop
  | intro {es later : List Event} {q : Request} : full.events = es ++ .attemptStarted q :: later →
      r.events = es ++ [.attemptStarted q] → r.ending = .fault (.execute (fault q)) →
      count + (History.requests es).length + 1 = n → FailsAt fault n count full r

variable {n count : Nat} {fault : Request → ExecuteFault}

theorem Run.FailsAt.heard {full r : Run} {es : List Event}
    (h : Run.FailsAt fault n (count + (History.requests es).length) full r) :
    Run.FailsAt fault n count (full.heard es) (r.heard es) := by
  cases h with
  | @intro es' later q hfull hr hf hn =>
  have hfull' : (full.heard es).events = (es ++ es') ++ .attemptStarted q :: later := by
    rw [Run.heard_events, hfull, List.append_assoc]
  refine .intro hfull' ?_ hf ?_
  · rw [Run.heard_events, hr, List.append_assoc]
  · rw [History.requests_append, List.length_append]
    omega

theorem Run.FailsAt.carriedOut {full r : Run} {q q' : Request} (h : Run.FailsAt fault n count full r) :
    Run.FailsAt fault n count (full.carriedOut q) (r.carriedOut q') := by
  cases h with
  | intro hfull hr hf hn => exact .intro hfull hr hf hn

theorem Launched.failing {kind : AttemptKind} (h : Launched s listen t kind files files')
    (hn : count + 1 = n) :
    ∃ r, attemptOnce s (x.failingAt n fault) listen t kind files (count, memory) = .stopped r ∧
      r.events = [.attemptStarted (s.request (t.attempts + 1) kind)] ∧
      r.ending = .fault (.execute (fault (s.request (t.attempts + 1) kind))) := by
  have hx : (x.failingAt n fault).run (s.request (t.attempts + 1) kind) files' (count, memory) =
      (.error (fault (s.request (t.attempts + 1) kind)), files', count, memory) := if_pos hn
  exact ⟨_, attemptOnce_eq_iff.2 (.unrun h hx), rfl, rfl⟩

theorem attemptOnce_failing_done (fault : Request → ExecuteFault) {kind : AttemptKind}
    {es : List Event} {q : Request} {k : Classification} (hn : count + 1 ≠ n)
    (h : attemptOnce s x listen t kind files memory = .done es q k files' memory') :
    attemptOnce s (x.failingAt n fault) listen t kind files (count, memory) =
      .done es q k files' (count + 1, memory') := by
  cases attemptOnce_eq_iff.1 h with
  | @done ready _ _ o hl hx hr =>
  have hx' : (x.failingAt n fault).run (s.request (t.attempts + 1) kind) ready (count, memory) =
      (.ok o, files', count + 1, memory') := by
    simp only [Executor.failingAt, if_neg hn, hx]
  exact attemptOnce_eq_iff.2 (.done hl hx' hr)

theorem launched_of_done {kind : AttemptKind} {es : List Event} {q : Request} {k : Classification}
    (h : attemptOnce s x listen t kind files memory = .done es q k files' memory') :
    ∃ ready, Launched s listen t kind files ready := by
  cases attemptOnce_eq_iff.1 h with
  | done hl => exact ⟨_, hl⟩

theorem proceed_failing {next : Next} (hc : count < n)
    (hn : n ≤ count + (requests (proceed s x listen t l next files memory).events).length) :
    Run.FailsAt fault n count (proceed s x listen t l next files memory)
      (proceed s (x.failingAt n fault) listen t l next files (count, memory)) := by
  fun_induction proceed s x listen t l next files memory generalizing count
  case case1 t l files memory v =>
    have hr : requests (conclude x listen t l v files memory).events = [] := by
      rw [← conclude_requests]
      unfold conclude
      dsimp only
      split <;> rfl
    simp [hr] at hn
    omega
  case case2 t l files memory step full hr =>
    obtain he | ⟨⟨files₁, hl⟩, he⟩ := launched_of_stopped hr
    · simp [he] at hn
      omega
    · have hcount : count + 1 = n := by
        simp [he] at hn
        omega
      obtain ⟨r, hs, hr, hf⟩ := hl.failing hcount
      rw [proceed_stopped hs]
      have hfull : full.events = [] ++ [.attemptStarted _] := he
      exact .intro hfull hr hf hcount
  case case3 t l files memory step es q k files' memory' hd d heard refusal hp =>
    obtain ⟨hq, o, -, rfl⟩ := attemptOnce_done hd
    obtain ⟨ready, hl⟩ := launched_of_done hd
    have hnone := requests_heard listen (t.events + 2) (Decision.requests_after l step k)
    rw [hp] at hnone
    have hcount : count + 1 = n := by
      simp [Run.failed, hnone] at hn
      omega
    obtain ⟨r, hs, hr, hf⟩ := hl.failing hcount
    rw [← hq] at hr hf
    rw [proceed_stopped hs]
    exact .intro (List.nil_append _).symm hr hf hcount
  case case4 t l files memory step es q k files' memory' hd d heard hp ih =>
    obtain ⟨hq, o, -, rfl⟩ := attemptOnce_done hd
    have hnone := requests_heard listen (t.events + 2) (Decision.requests_after l step k)
    rw [hp] at hnone
    -- The fault strikes in this attempt, or in a run that has made one attempt more.
    by_cases hcount : count + 1 = n
    · obtain ⟨files₁, hl⟩ := launched_of_done hd
      obtain ⟨r, hs, hr, hf⟩ := hl.failing hcount
      rw [← hq] at hr hf
      rw [proceed_stopped hs]
      exact .intro (List.nil_append _).symm hr hf hcount
    · have hd' := attemptOnce_failing_done fault hcount hd
      have hp' : publish listen (t.events + 2) (Decision.after l step k).events = (heard, none) := hp
      rw [proceed_done hd', hp']
      refine .heard (.carriedOut ?_)
      have hlen : (requests ([.attemptStarted q, .attemptFinished q o k] ++ heard)).length = 1 := by
        simp [hnone]
      rw [hlen]
      refine ih (by omega) ?_
      simp [hnone] at hn
      omega

theorem begin_failing (hc : 0 < n)
    (hn : n ≤ (requests (begin s x listen files memory).events).length) :
    Run.FailsAt fault n 0 (begin s x listen files memory)
      (begin s (x.failingAt n fault) listen files (0, memory)) := by
  unfold begin at hn ⊢
  dsimp only at hn ⊢
  split at hn
  · exact proceed_failing hc (by omega)
  · next path he =>
    split at hn
    · simp [Run.failed] at hn
      omega
    · next log hl =>
      have hr := requests_existing (.start s.policy) path log (s.classifyExisting log)
      split at hn
      · have hh := requests_heard listen 1 hr
        simp [Run.failed, hh] at hn
        omega
      · next hp =>
        rw [publish_all hp] at hn ⊢
        refine .heard ?_
        rw [hr]
        refine proceed_failing hc ?_
        rw [Run.heard_events, requests_append, hr] at hn
        simpa using hn

theorem supervise_failing (hc : 0 < n)
    (hn : n ≤ (requests (supervise s x listen files memory).events).length) :
    Run.FailsAt fault n 0 (supervise s x listen files memory)
      (supervise s (x.failingAt n fault) listen files (0, memory)) := by
  unfold supervise at hn ⊢
  split at hn
  · simp [Run.failed] at hn
    omega
  · split at hn
    · simp [Run.failed] at hn
      omega
    · dsimp only at hn ⊢
      split at hn
      · simp [Run.failed] at hn
        omega
      · exact .heard (begin_failing hc (by simpa using hn))

theorem attemptStarted_unique {es es' later later' : List Event} {q q' : Request}
    (h : es ++ .attemptStarted q :: later = es' ++ .attemptStarted q' :: later')
    (hn : (requests es).length = (requests es').length) : es = es' ∧ q = q' := by
  induction es generalizing es' with
  | nil =>
    cases es' with
    | nil => cases h; exact ⟨rfl, rfl⟩
    | cons e es' =>
      obtain ⟨rfl, -⟩ := List.cons.inj h
      simp at hn
  | cons e es ih =>
    cases es' with
    | nil =>
      obtain ⟨rfl, -⟩ := List.cons.inj h
      simp at hn
    | cons e' es' =>
      obtain ⟨rfl, ht⟩ := List.cons.inj h
      have hlen : (requests es).length = (requests es').length := by simpa using hn
      obtain ⟨hes, hq⟩ := ih ht hlen
      exact ⟨congrArg (e :: ·) hes, hq⟩

/-! ### Nothing follows -/

theorem Stage.unfinished {es : List Event} {e : Event} (h : Stage s (es ++ [e])) :
    ∀ b ∈ es, b.isFinished = false := by
  generalize hx : es ++ [e] = all at h
  intro b hb
  cases h with
  | silent => simp at hx
  | started =>
    obtain rfl : es = [] := by simpa using congrArg List.length hx
    cases hb
  | between hc => exact hc.unfinished b (hx ▸ List.mem_append_left _ hb)
  | underWay hc | ended _ _ hc =>
    obtain ⟨rfl, -⟩ := List.append_inj' hx rfl
    exact hc.unfinished b hb

theorem attemptOnce_execute {kind : AttemptKind} {r : Run} {fault : ExecuteFault}
    (h : attemptOnce s x listen t kind files memory = .stopped r)
    (hf : r.ending = .fault (.execute fault)) : ∃ q, r.events = [.attemptStarted q] := by
  cases attemptOnce_eq_iff.1 h with
  | unprepared hp =>
    cases hf
    obtain ⟨_, _, he⟩ := Setup.prepare_eq_error hp
    cases he
  | unheard | unreported => cases hf
  | unrun => exact ⟨_, rfl⟩

theorem proceed_execute {next : Next} {fault : ExecuteFault}
    (hf : (proceed s x listen t l next files memory).ending = .fault (.execute fault)) :
    ∃ es q, (proceed s x listen t l next files memory).events = es ++ [.attemptStarted q] := by
  fun_induction proceed s x listen t l next files memory
  case case1 =>
    unfold conclude at hf
    dsimp only at hf
    split at hf <;> cases hf
  case case2 hr =>
    obtain ⟨q, he⟩ := attemptOnce_execute hr hf
    exact ⟨[], q, he⟩
  case case3 => cases hf
  case case4 es _ _ _ _ _ _ heard _ ih =>
    obtain ⟨es', q, he⟩ := ih hf
    exact ⟨es ++ heard ++ es', q, by simp [he]⟩

theorem begin_execute {fault : ExecuteFault}
    (hf : (begin s x listen files memory).ending = .fault (.execute fault)) :
    ∃ es q, (begin s x listen files memory).events = es ++ [.attemptStarted q] := by
  unfold begin at hf ⊢
  dsimp only at hf ⊢
  split at hf
  · exact proceed_execute hf
  · split at hf
    · cases hf
    · split at hf
      · cases hf
      · obtain ⟨es, q, he⟩ := proceed_execute hf
        exact ⟨_, q, by rw [Run.heard_events, he, List.append_assoc]⟩

theorem supervise_execute {fault : ExecuteFault}
    (hf : (supervise s x listen files memory).ending = .fault (.execute fault)) :
    ∃ es q, (supervise s x listen files memory).events = es ++ [.attemptStarted q] := by
  unfold supervise at hf ⊢
  split at hf
  · cases hf
  · split at hf
    · next refusal hd =>
      cases hf
      obtain ⟨_, _, he⟩ := Setup.makeLogDirectory_eq_error hd
      cases he
    · dsimp only at hf ⊢
      split at hf
      · cases hf
      · obtain ⟨es, q, he⟩ := begin_execute hf
        exact ⟨_, q, by rw [Run.heard_events, he, ← List.append_assoc]⟩

/-- A run that a fault cut off. These events are all that it reported, and the
attempts that they start are all that it carried out. -/
structure Run.CutOff (r : Run) (f : SupervisionFault) (es : List Event) : Prop where
  ending : r.ending = .fault f
  events : r.events = es
  requests : r.requests = History.requests es
  unfinished : ∀ e ∈ es, e.isFinished = false

theorem cutOff_in_attempt {f : SupervisionFault} {es : List Event} {q : Request}
    (hf : (supervise s x listen files memory).ending = .fault f)
    (he : (supervise s x listen files memory).events = es ++ [.attemptStarted q]) :
    (supervise s x listen files memory).CutOff f (es ++ [.attemptStarted q]) := by
  have hs : Stage s (es ++ [.attemptStarted q]) := stage_supervise (by rw [← he])
  refine ⟨hf, he, by rw [supervise_requests, he], fun e hm => ?_⟩
  rw [List.mem_append, List.mem_singleton] at hm
  obtain hm | rfl := hm
  · exact hs.unfinished e hm
  · rfl

/-- A run is cut off where its listener refuses an event for the first time, and
where the execution with a number fails: up to there it is the run without the
refusal, and without the failure. An execution that fails always cuts it off there. -/
theorem supervision_stops_at_fault (s : Setup) (x : Executor Memory) (listen : Listener)
    (files : Files) (memory : Memory) :
    (∀ (k : Nat) (e : Event) (fault : IoFault),
      (supervise s x .willing files memory).events[k]? = some e → listen k e = some fault →
      (∀ i < k, ∀ b, (supervise s x .willing files memory).events[i]? = some b →
        listen i b = none) →
      (supervise s x listen files memory).CutOff (.writeEvent fault)
        ((supervise s x .willing files memory).events.take k)) ∧
    (∀ (es : List Event) (q : Request) (later : List Event) (n : Nat)
        (fault : Request → ExecuteFault),
      (supervise s x listen files memory).events = es ++ .attemptStarted q :: later →
      n = (requests es).length + 1 →
      (supervise s (x.failingAt n fault) listen files (0, memory)).CutOff (.execute (fault q))
        (es ++ [.attemptStarted q])) ∧
    (∀ fault : ExecuteFault,
      (supervise s x listen files memory).ending = .fault (.execute fault) →
      ∃ es q, (supervise s x listen files memory).CutOff (.execute fault)
        (es ++ [.attemptStarted q])) := by
  refine ⟨fun k e fault he hf hb => ?_, fun es q later n fault hes hn => ?_, fun fault hf => ?_⟩
  · have hp : publish listen 0 (supervise s x .willing files memory).events =
        ((supervise s x .willing files memory).events.take k, some fault) := by
      apply publish_take he (by rwa [Nat.zero_add])
      intro i hi b hbi
      rw [Nat.zero_add]
      exact hb i hi b hbi
    obtain ⟨hev, hend⟩ := supervise_cut s x listen files memory
    rw [hp] at hev hend
    have hstage : Stage s ((supervise s x .willing files memory).events.take k ++ [e]) := by
      have hk := List.take_prefix (k + 1) (supervise s x .willing files memory).events
      rw [List.take_add_one, he] at hk
      exact stage_supervise hk
    exact ⟨hend, hev, by rw [supervise_requests, hev], hstage.unfinished⟩
  · have hfail : Run.FailsAt fault n 0 (supervise s x listen files memory)
        (supervise s (x.failingAt n fault) listen files (0, memory)) := by
      apply supervise_failing (by omega)
      simp [hes]
      omega
    cases hfail with
    | intro hfull hr hf hcount =>
      obtain ⟨rfl, rfl⟩ := attemptStarted_unique (hes.symm.trans hfull) (by omega)
      exact cutOff_in_attempt hf hr
  · obtain ⟨es, q, he⟩ := supervise_execute hf
    exact ⟨es, q, cutOff_in_attempt hf he⟩

namespace Rehearsal

def refusing : Listener := fun i _ => if i = 3 then some (.other "scripted") else none

def firstRerun : Request := (setup .standard).request 2 (.rerun ⟨"a", none⟩ ⟨1, 5, false⟩)

end Rehearsal

open Rehearsal in
theorem supervision_stops_at_fault_in_rerun :
    (supervise (setup .standard) (functions ⟨0⟩) refusing .empty (shaky ["fail", "pass"])).CutOff
        (.writeEvent (.other "scripted")) (shakyRun.events.take 3) ∧
      (supervise (setup .standard) ((functions ⟨0⟩).failingAt 2 fun q => .emptyCommand q.attempt)
        .willing .empty (0, shaky ["fail", "pass"])).CutOff
          (.execute (.emptyCommand 2)) (shakyRun.events.take 3 ++ [.attemptStarted firstRerun]) := by
  have hrun : shakyRun = _ := supervise_within 6 rfl rfl (Setup.makeLogDirectory_here rfl rfl) rfl
  have he : shakyRun.events[3]? = some (.attemptStarted firstRerun) := by
    rw [hrun]
    rfl
  have hes : shakyRun.events =
      shakyRun.events.take 3 ++ .attemptStarted firstRerun :: shakyRun.events.drop 4 := by
    obtain ⟨hlen, hq⟩ := List.getElem?_eq_some_iff.1 he
    rw [← hq, List.getElem_cons_drop, List.take_append_drop]
  have hn : 2 = (requests (shakyRun.events.take 3)).length + 1 := by
    rw [hrun]
    rfl
  have hb : ∀ i < 3, ∀ b, shakyRun.events[i]? = some b → refusing i b = none := by
    intro i hi b _
    exact if_neg (by omega)
  obtain ⟨hrefused, -, -⟩ := supervision_stops_at_fault (setup .standard) (functions ⟨0⟩)
    refusing .empty (shaky ["fail", "pass"])
  obtain ⟨-, hfailed, -⟩ := supervision_stops_at_fault (setup .standard) (functions ⟨0⟩)
    .willing .empty (shaky ["fail", "pass"])
  exact ⟨hrefused 3 _ _ he rfl hb, hfailed _ _ _ 2 _ hes hn⟩

end Retrial
