import Mathlib.Data.List.Chain
import Retrial.Proofs.Stage
import Retrial.Proofs.Verdict

/-!
# The grammar of events

Which event may stand right behind which is settled by a table. Every move of a
run keeps to it: what a phase offers to report next is what the table admits
behind the last event. So the events of a run are a chain, and how its attempts,
whole reruns and recoveries follow one another is read off the table.
-/

set_option autoImplicit false

namespace Retrial

open History

namespace Event

/-- The case at hand is rerun, or confirmed. -/
@[simp] def Pursues (c : TestCase) : Event → Prop
  | .attemptStarted q => ∃ t, q.kind = .rerun c t
  | .confirmed d _ => d = c
  | _ => False

@[simp] def Settles : Event → Prop
  | .finished v _ _ _ _ => v ≠ .crash
  | _ => False

/-- A whole rerun is scheduled for a reason, or the run ends for want of one. -/
@[simp] def Meets (reason : RerunReason) : Event → Prop
  | .wholeRerunScheduled reason' _ => reason' = reason
  | .finished v _ _ _ _ => v = reason.verdict
  | _ => False

/-- What may be reported on what an attempt showed. -/
@[simp] def Heeds (e : Event) : AttemptKind → Classification → Prop
  | _, .crashed reason => e.Meets (.crashed reason)
  | .fullRun, .passed => e.Settles
  | .fullRun, .executableFailed code => e.Meets (.executableFailed code)
  | .fullRun, .functionsFailed _ => e.Settles ∨ ∃ c, e.Pursues c
  | .rerun c t, .passed => e = .recovered c t.rerun ∨ e.Pursues c
  | .rerun c _, .executableFailed _ => e.Pursues c
  | .rerun c _, .functionsFailed _ => e.Pursues c

/-- Which event may stand right behind an event. -/
@[simp] def Admits : Event → Event → Prop
  | .started _ _, .existingLogParsed _ _ _ => True
  | .started _ _, .attemptStarted q => q.kind = .fullRun
  | .started _ _, _ => False
  | .existingLogParsed _ _ k, e => e.Heeds .fullRun k
  | .attemptStarted q, e => ∃ o k, e = .attemptFinished q o k
  | .attemptFinished q _ k, e => e.Heeds q.kind k
  | .wholeRerunScheduled _ _, e => ∃ q, e = .attemptStarted q ∧ q.kind = .fullRun
  | .recovered _ _, e => e.Settles ∨ ∃ c, e.Pursues c
  | .confirmed _ _, e => e.Settles ∨ ∃ c, e.Pursues c
  | .finished _ _ _ _ _, _ => False

def isFinished : Event → Bool
  | .finished _ _ _ _ _ => true
  | _ => false

end Event

@[simp] def Phase.Offers : Phase → Event → Prop
  | .attempting step, e => ∃ q, e = .attemptStarted q ∧ q.kind = step.kind
  | .met step k, e => e.Heeds step.kind k
  | .confirming [], e => e.Settles
  | .confirming (c :: _), e => e.Pursues c
  | .wanting reason, e => e.Meets reason
  | .closed v, e => ∃ confirmed recovered attempts elapsed,
      e = .finished v confirmed recovered attempts elapsed

theorem Phase.offers_confirming {e : Event} {cases : List TestCase}
    (h : (Phase.confirming cases).Offers e) : e.Settles ∨ ∃ c, e.Pursues c := by
  cases cases with
  | nil => exact Or.inl h
  | cons c later => exact Or.inr ⟨c, h⟩

/-- Events that follow one another as the table says, and what it then admits next. -/
structure Chained (es : List Event) (next : Event → Prop) : Prop where
  chain : es.IsChain Event.Admits
  admits : ∃ last, es.getLast? = some last ∧ ∀ e, next e → last.Admits e

namespace Chained

variable {es : List Event} {next next' : Event → Prop}

theorem mono (h : Chained es next) (hn : ∀ e, next' e → next e) : Chained es next' := by
  obtain ⟨last, hl, ha⟩ := h.admits
  exact ⟨h.chain, last, hl, fun e he => ha e (hn e he)⟩

theorem concat {x : Event} (h : Chained es next) (hx : next x)
    (hn : ∀ e, next' e → x.Admits e) : Chained (es ++ [x]) next' := by
  obtain ⟨last, hl, ha⟩ := h.admits
  refine ⟨h.chain.append (.singleton x) fun a hm b hb => ?_, x, by simp, hn⟩
  cases hl.symm.trans hm
  cases hb
  exact ha x hx

end Chained

namespace Course

variable {s : Setup} {es : List Event} {l : Ledger} {φ : Phase}

/-- Every move keeps to the table. -/
theorem chained (h : Course s es l φ) : Chained es φ.Offers := by
  induction h with
  | fresh => exact ⟨.singleton _, _, rfl, by rintro e ⟨q, rfl, hq⟩; exact hq⟩
  | existing => exact ⟨by simp, _, rfl, fun e he => he⟩
  | @attempted es l step q o k _ hq _ ih =>
    have hk : q.kind = step.kind := by rw [hq]; rfl
    have hs : Chained (es ++ [.attemptStarted q]) (fun e => ∃ o k, e = .attemptFinished q o k) :=
      ih.concat ⟨q, rfl, hk⟩ fun e he => he
    rw [List.append_cons]
    exact hs.concat ⟨o, k, rfl⟩ fun e he => show e.Heeds q.kind k from hk ▸ he
  | passed _ ih => exact ih.mono fun e he => he
  | failed _ ih => exact ih.mono fun e he => Phase.offers_confirming he
  | executableFailed _ ih => exact ih.mono fun e he => he
  | crashed _ ih => exact ih.mono fun e he => by simpa using he
  | recovered _ _ ih =>
    exact ih.concat (Or.inl rfl) fun e he => Phase.offers_confirming he
  | counted _ _ ih => exact ih.mono fun e he => Or.inr he
  | @repeated es l c t later k _ hp hc ih =>
    refine ih.mono fun e he => ?_
    cases k with
    | passed => exact absurd rfl hp
    | crashed reason => exact absurd rfl (hc reason)
    | functionsFailed failures => exact he
    | executableFailed code => exact he
  | scheduled _ _ ih => exact ih.concat rfl fun e he => he
  | givenUp _ _ ih =>
    refine ih.mono ?_
    rintro e ⟨confirmed, recovered, attempts, elapsed, rfl⟩
    rfl
  | @granted es l l' c t later _ _ ih =>
    refine ih.mono ?_
    rintro e ⟨q, rfl, hq⟩
    exact ⟨t, hq⟩
  | confirmed _ _ ih => exact ih.concat rfl fun e he => Phase.offers_confirming he
  | @settled es l _ ih =>
    refine ih.mono ?_
    rintro e ⟨confirmed, recovered, attempts, elapsed, rfl⟩
    show l.settled ≠ .crash
    unfold Ledger.settled
    split <;> simp

theorem unfinished (h : Course s es l φ) : ∀ e ∈ es, e.isFinished = false := by
  induction h with
  | fresh | existing => simp [Event.isFinished]
  | attempted _ _ _ _ _ _ ih | recovered _ _ ih | scheduled _ _ ih | confirmed _ _ ih =>
    simpa [or_imp, forall_and, Event.isFinished] using ih
  | passed _ ih | failed _ ih | executableFailed _ ih | crashed _ ih | counted _ _ ih
  | repeated _ _ _ ih | givenUp _ _ ih | granted _ _ ih | settled _ ih => exact ih

theorem numbered (h : Course s es l φ) :
    (requests es).map (·.attempt) = List.range' 1 (requests es).length := by
  induction h with
  | fresh | existing => rfl
  | @attempted es l step q o k _ hq _ ih =>
    have ha : q.attempt = 1 + (requests es).length := by rw [hq, Nat.add_comm]; rfl
    simp [ih, ha, List.range'_concat]
  | recovered _ _ ih | scheduled _ _ ih | confirmed _ _ ih => simpa using ih
  | passed _ ih | failed _ ih | executableFailed _ ih | crashed _ ih | counted _ _ ih
  | repeated _ _ _ ih | givenUp _ _ ih | granted _ _ ih | settled _ ih => exact ih

theorem started_first (h : Course s es l φ) : [.started s.invocation s.policy] <+: es := by
  induction h with
  | fresh | existing => simp
  | attempted _ _ _ _ _ _ ih | recovered _ _ ih | scheduled _ _ ih | confirmed _ _ ih =>
    exact ih.trans (List.prefix_append _ _)
  | passed _ ih | failed _ ih | executableFailed _ ih | crashed _ ih | counted _ _ ih
  | repeated _ _ _ ih | givenUp _ _ ih | granted _ _ ih | settled _ ih => exact ih

theorem existing_second (h : Course s es l φ) :
    (∀ path, s.existingLog = some path → ∃ log k,
      [.started s.invocation s.policy, .existingLogParsed path log k] <+: es) ∧
    (s.existingLog = none → ∀ path log k, .existingLogParsed path log k ∉ es) := by
  induction h with
  | fresh _ he => simp [he]
  | existing log _ he =>
    refine ⟨fun path hp => ?_, fun hn => by simp [he] at hn⟩
    cases he.symm.trans hp
    exact ⟨log, _, List.prefix_rfl⟩
  | attempted _ _ _ _ _ _ ih | recovered _ _ ih | scheduled _ _ ih | confirmed _ _ ih =>
    refine ⟨fun path hp => ?_, by simpa using ih.2⟩
    obtain ⟨log, k, hk⟩ := ih.1 path hp
    exact ⟨log, k, hk.trans (List.prefix_append _ _)⟩
  | passed _ ih | failed _ ih | executableFailed _ ih | crashed _ ih | counted _ _ ih
  | repeated _ _ _ ih | givenUp _ _ ih | granted _ _ ih | settled _ ih => exact ih

/-- Behind the announcement of a whole rerun a full run is due, and the budget is as announced. -/
theorem announced (h : Course s es l φ) {reason : RerunReason} {left : Nat}
    (hl : es.getLast? = some (.wholeRerunScheduled reason left)) :
    φ = .attempting .fullRun ∧ left = reason.left l := by
  induction h with
  | fresh | existing | attempted | recovered | confirmed => simp at hl
  | scheduled _ e =>
    obtain ⟨rfl, rfl⟩ : _ = reason ∧ _ = left := by simpa using hl
    exact ⟨rfl, rfl⟩
  | passed _ ih | failed _ ih | executableFailed _ ih | crashed _ ih | counted _ _ ih
  | repeated _ _ _ ih | givenUp _ _ ih | granted _ _ ih | settled _ ih =>
    obtain ⟨hφ, -⟩ := ih hl
    cases hφ

end Course

theorem Stage.announced {s : Setup} {es : List Event} {reason : CrashReason} {left : Nat}
    (h : Stage s es) (hl : es.getLast? = some (.wholeRerunScheduled (.crashed reason) left)) :
    left + crashReruns es = s.policy.crashReruns := by
  cases h with
  | silent | started | underWay | ended => simp at hl
  | between h => rw [(h.announced hl).2]; exact h.budgets.1

namespace Event

variable {a e : Event}

theorem not_heeds_started {kind : AttemptKind} {k : Classification} {i : Invocation} {p : Policy} :
    ¬(started i p).Heeds kind k := by
  cases kind <;> cases k <;> simp

theorem not_admits_started {i : Invocation} {p : Policy} : ¬a.Admits (.started i p) := by
  cases a <;> simp [-Heeds, not_heeds_started]

theorem heeds_attemptStarted {q : Request} {kind : AttemptKind} {k : Classification}
    (h : (attemptStarted q).Heeds kind k) : q.kind ≠ .fullRun := by
  have hr : (∃ c t, q.kind = .rerun c t) → q.kind ≠ .fullRun := by
    rintro ⟨c, t, hq⟩
    simp [hq]
  apply hr
  cases kind <;> cases k <;> simp at h <;> first | exact h | exact ⟨_, h⟩

theorem admits_attemptStarted {q : Request} (h : a.Admits (.attemptStarted q))
    (hs : ∀ i p, a ≠ .started i p) :
    q.kind = .fullRun ↔ ∃ reason left, a = .wholeRerunScheduled reason left := by
  cases a with
  | started i p => exact absurd rfl (hs i p)
  | existingLogParsed path log k => simpa using heeds_attemptStarted h
  | attemptFinished q' o k => simpa using heeds_attemptStarted h
  | attemptStarted q' => simp at h
  | wholeRerunScheduled reason left =>
    obtain ⟨q', hq, hk⟩ := h
    cases hq
    simp [hk]
  | recovered c n | confirmed c n =>
    obtain ⟨c, t, hq⟩ : ∃ c t, q.kind = .rerun c t := by simpa using h
    simp [hq]
  | finished v confirmed recovered attempts elapsed => exact h.elim

theorem meets_of_crash {w : Showing} {reason : CrashReason} (h : a.Admits e)
    (hw : a.showing? = some w) (hc : w.classification = .crashed reason) :
    e.Meets (.crashed reason) := by
  cases a <;> simp at hw <;> subst hw <;> obtain rfl := hc <;> simpa using h

theorem admits_recovered {c : TestCase} {n : Nat} (h : a.Admits (.recovered c n)) :
    ∃ q o t, a = .attemptFinished q o .passed ∧ q.kind = .rerun c t ∧ t.rerun = n := by
  have hr : ∀ {kind k}, (recovered c n).Heeds kind k →
      k = .passed ∧ ∃ t, kind = .rerun c t ∧ t.rerun = n := by
    intro kind k hk
    cases kind <;> cases k <;> simp at hk ⊢
    exact ⟨hk.1.symm, hk.2.symm⟩
  cases a with
  | attemptFinished q o k =>
    obtain ⟨rfl, t, hq, hn⟩ := hr h
    exact ⟨q, o, t, rfl, hq, hn⟩
  | existingLogParsed path log k =>
    obtain ⟨-, t, hk, -⟩ := hr h
    cases hk
  | _ => simp at h

variable {es : List Event} {i : Nat} {b : Event}

theorem admits_next (hc : es.IsChain Admits) (ha : es[i]? = some a) (hb : es[i + 1]? = some b) :
    a.Admits b := by
  obtain ⟨hi, rfl⟩ := List.getElem?_eq_some_iff.1 hb
  obtain ⟨-, rfl⟩ := List.getElem?_eq_some_iff.1 ha
  exact List.isChain_iff_getElem.1 hc i hi

theorem exists_next (hc : (es ++ [b]).IsChain Admits) (hb : b.isFinished = true)
    (ha : (es ++ [b])[i]? = some a) (hn : a.isFinished = false) :
    ∃ c, (es ++ [b])[i + 1]? = some c ∧ a.Admits c := by
  have hi : i < es.length := by
    obtain ⟨hi, hx⟩ := List.getElem?_eq_some_iff.1 ha
    by_contra hge
    obtain rfl : i = es.length := by simp at hi; omega
    simp at hx
    simp [hx, hn] at hb
  obtain ⟨c, hx⟩ : ∃ c, (es ++ [b])[i + 1]? = some c :=
    ⟨_, List.getElem?_eq_getElem (by simpa using hi)⟩
  exact ⟨c, hx, admits_next hc ha hx⟩

theorem exists_before (hc : es.IsChain Admits) (hb : es[i + 1]? = some b) :
    ∃ a, es[i]? = some a ∧ a.Admits b := by
  obtain ⟨hi, -⟩ := List.getElem?_eq_some_iff.1 hb
  have ha : es[i]? = some es[i] := List.getElem?_eq_getElem (Nat.lt_of_succ_lt hi)
  exact ⟨_, ha, admits_next hc ha hb⟩

theorem fullRun_iff_scheduled {q : Request} (hc : es.IsChain Admits) (hi : 0 < i)
    (hq : es[i + 1]? = some (.attemptStarted q)) :
    q.kind = .fullRun ↔ ∃ reason left, es[i]? = some (.wholeRerunScheduled reason left) := by
  obtain ⟨a, ha, hn⟩ := exists_before hc hq
  rw [ha, admits_attemptStarted hn]
  · simp
  · rintro inv pol rfl
    obtain ⟨j, rfl⟩ : ∃ j, i = j + 1 := ⟨i - 1, by omega⟩
    obtain ⟨b, -, hb⟩ := exists_before hc ha
    exact not_admits_started hb

end Event

namespace Course

variable {s : Setup} {es : List Event} {l : Ledger} {φ : Phase} {e : Event}

theorem first (h : Course s es l φ) (e : Event) :
    (es ++ [e])[0]? = some (.started s.invocation s.policy) := by
  obtain ⟨rest, rfl⟩ := h.started_first
  rfl

theorem eq_length_of_isFinished {b : Event} {i : Nat} (h : Course s es l φ)
    (hb : (es ++ [e])[i]? = some b) (hf : b.isFinished = true) : i = es.length ∧ b = e := by
  obtain hlt | hge := Nat.lt_or_ge i es.length
  · rw [List.getElem?_append_left hlt] at hb
    simp [h.unfinished b (List.mem_of_getElem? hb)] at hf
  · obtain ⟨hlt, -⟩ := List.getElem?_eq_some_iff.1 hb
    obtain rfl : i = es.length := by simp at hlt; omega
    exact ⟨rfl, by simpa using hb.symm⟩

theorem second (h : Course s es l φ) (hc : (es ++ [e]).IsChain Event.Admits)
    (he : e.isFinished = true) :
    match s.existingLog with
    | some path => ∃ log k, (es ++ [e])[1]? = some (.existingLogParsed path log k)
    | none => ∃ q, (es ++ [e])[1]? = some (.attemptStarted q) ∧ q.kind = .fullRun := by
  obtain ⟨hsome, hnone⟩ := h.existing_second
  cases hx : s.existingLog with
  | some path =>
    obtain ⟨log, k, rest, rfl⟩ := hsome path hx
    exact ⟨log, k, rfl⟩
  | none =>
    obtain ⟨b, hb, hn⟩ := Event.exists_next hc he (h.first e) rfl
    cases b with
    | existingLogParsed path log k =>
      have hm := List.mem_of_getElem? hb
      rw [List.mem_append, List.mem_singleton] at hm
      obtain hm | rfl := hm
      · exact absurd hm (hnone hx path log k)
      · cases he
    | attemptStarted q => exact ⟨q, hb, hn⟩
    | _ => exact hn.elim

/-- What stands behind a crash: a whole rerun, with what its budget has left, or the end. -/
theorem crash_answered {a : Event} {w : Showing} {reason : CrashReason} {i : Nat}
    (h : Course s es l φ) (hc : (es ++ [e]).IsChain Event.Admits) (he : e.isFinished = true)
    (hs : ∀ {past}, past <+: es ++ [e] → Stage s past)
    (ha : (es ++ [e])[i]? = some a) (hw : a.showing? = some w)
    (hk : w.classification = .crashed reason) :
    (∃ left, (es ++ [e])[i + 1]? = some (.wholeRerunScheduled (.crashed reason) left) ∧
      left + crashReruns ((es ++ [e]).take (i + 2)) = s.policy.crashReruns) ∨
    e.Meets (.crashed reason) ∧ i + 2 = (es ++ [e]).length := by
  have hn : a.isFinished = false := by
    cases a <;> first | rfl | simp at hw
  obtain ⟨b, hb, hab⟩ := Event.exists_next hc he ha hn
  have hm := Event.meets_of_crash hab hw hk
  cases b with
  | wholeRerunScheduled reason' left =>
    obtain rfl := hm
    have hlast : ((es ++ [e]).take (i + 2)).getLast? =
        some (.wholeRerunScheduled (.crashed reason) left) := by
      simp [List.getLast?_take, hb]
    exact Or.inl ⟨left, hb, (hs (List.take_prefix _ _)).announced hlast⟩
  | finished v confirmed recovered attempts elapsed =>
    obtain ⟨hi, rfl⟩ := h.eq_length_of_isFinished hb rfl
    exact Or.inr ⟨hm, by simp [← hi]⟩
  | _ => exact hm.elim

end Course

/-- How the events of a run that reached a verdict stand in line. -/
structure Grammatical (s : Setup) (es : List Event) (sm : Summary) : Prop where
  chain : es.IsChain Event.Admits
  first : es[0]? = some (.started s.invocation s.policy)
  last : es.getLast? =
    some (.finished sm.verdict sm.confirmed sm.recovered sm.attempts sm.elapsed)
  finished_once : es.countP (·.isFinished) = 1
  second : match s.existingLog with
    | some path => ∃ log k, es[1]? = some (.existingLogParsed path log k)
    | none => ∃ q, es[1]? = some (.attemptStarted q) ∧ q.kind = .fullRun
  answered : ∀ (i : Nat) (q : Request), es[i]? = some (.attemptStarted q) →
    ∃ o k, es[i + 1]? = some (.attemptFinished q o k)
  numbered : (requests es).map (·.attempt) = List.range' 1 (requests es).length
  fullRun : ∀ (i : Nat) (q : Request), 0 < i → es[i + 1]? = some (.attemptStarted q) →
    (q.kind = .fullRun ↔ ∃ reason left, es[i]? = some (.wholeRerunScheduled reason left))
  scheduled : ∀ (i : Nat) (reason : RerunReason) (left : Nat),
    es[i]? = some (.wholeRerunScheduled reason left) →
      ∃ q, es[i + 1]? = some (.attemptStarted q) ∧ q.kind = .fullRun
  crashed : ∀ (i : Nat) (e : Event) (w : Showing) (reason : CrashReason),
    es[i]? = some e → e.showing? = some w → w.classification = .crashed reason →
    (∃ left, es[i + 1]? = some (.wholeRerunScheduled (.crashed reason) left) ∧
      left + crashReruns (es.take (i + 2)) = s.policy.crashReruns) ∨
    sm.verdict = .crash ∧ i + 2 = es.length
  recovered : ∀ (i : Nat) (c : TestCase) (n : Nat), es[i + 1]? = some (.recovered c n) →
    ∃ q o t, es[i]? = some (.attemptFinished q o .passed) ∧ q.kind = .rerun c t ∧ t.rerun = n
  decided : sm.confirmed = confirmed es ∧ sm.recovered = History.recovered es
  attempts : sm.attempts = (requests es).length

variable {Memory : Type} {s : Setup} {x : Executor Memory} {listen : Listener}
  {files : Files} {memory : Memory} {sm : Summary}

/-- The events of every run that reaches a verdict obey one grammar. -/
theorem events_grammatical (h : (supervise s x listen files memory).ending = .summary sm) :
    Grammatical s (supervise s x listen files memory).events sm := by
  obtain ⟨es, l, hc, hs, he⟩ := course_of_summary h
  have hstage : ∀ {past}, past <+: (supervise s x listen files memory).events → Stage s past :=
    stage_supervise
  have ha : sm.attempts = (requests es).length := by rw [hs]
  have hl : sm.confirmed = l.confirmed ∧ sm.recovered = l.recovered := by rw [hs]; exact ⟨rfl, rfl⟩
  rw [← ha, ← hl.1, ← hl.2] at he
  rw [he] at hstage ⊢
  generalize hv : Event.finished sm.verdict sm.confirmed sm.recovered sm.attempts sm.elapsed = e
    at hstage
  have hf : e.isFinished = true := by rw [← hv]; rfl
  have hchained : Chained (es ++ [e]) fun _ => False :=
    hc.chained.concat ⟨_, _, _, _, hv.symm⟩ fun _ hf => hf.elim
  have hchain : (es ++ [e]).IsChain Event.Admits := hchained.chain
  constructor
  case chain => exact hchain
  case first => exact hc.first e
  case last => simp [hv]
  case finished_once =>
    rw [List.countP_append, List.countP_eq_zero.2 (by simpa using hc.unfinished)]
    simp [hf]
  case second => exact hc.second hchain hf
  case answered =>
    intro i q hq
    obtain ⟨b, hb, o, k, rfl⟩ := Event.exists_next hchain hf hq rfl
    exact ⟨o, k, hb⟩
  case numbered => simpa [← hv] using hc.numbered
  case fullRun => exact fun i q hi hq => Event.fullRun_iff_scheduled hchain hi hq
  case scheduled =>
    intro i reason left hr
    obtain ⟨b, hb, q, rfl, hq⟩ := Event.exists_next hchain hf hr rfl
    exact ⟨q, hb, hq⟩
  case crashed =>
    intro i a w reason ha hw hk
    obtain hmet | ⟨hm, hi⟩ := hc.crash_answered hchain hf hstage ha hw hk
    · exact Or.inl hmet
    · rw [← hv] at hm
      exact Or.inr ⟨hm, hi⟩
  case recovered =>
    intro i c n hr
    obtain ⟨a, ha, hn⟩ := Event.exists_before hchain hr
    obtain ⟨q, o, t, rfl, hq, ht⟩ := Event.admits_recovered hn
    exact ⟨q, o, t, ha, hq, ht⟩
  case decided =>
    rw [hl.1, hl.2, hc.decided.1, hc.decided.2, ← hv]
    simp
  case attempts => simpa [← hv] using ha

theorem events_grammatical_after_crash :
    (supervise (Rehearsal.setup .standard) (Rehearsal.functions ⟨0⟩) .willing .empty
        (Rehearsal.shaky ["fail", "pass"])).ending =
      .summary ⟨.pass, 6, 2, [], [⟨"a", none⟩, ⟨"b", none⟩], ⟨0⟩⟩ ∧
    Grammatical (Rehearsal.setup .standard) (supervise (Rehearsal.setup .standard)
        (Rehearsal.functions ⟨0⟩) .willing .empty (Rehearsal.shaky ["fail", "pass"])).events
      ⟨.pass, 6, 2, [], [⟨"a", none⟩, ⟨"b", none⟩], ⟨0⟩⟩ := by
  have h := Rehearsal.ending_shaky
  exact ⟨h, events_grammatical h⟩

end Retrial
