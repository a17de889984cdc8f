import Retrial.Proofs.Script
import Retrial.Proofs.Stage

/-!
# The life cycle of a test case

A failing test case is rerun under tickets with the numbers from one on, which
go on counting where the whole binary was run again. It is rerun only while the
last result of the whole binary names it as failing and nothing is decided of
it. Then it recovers with the last pass that it needs, or is confirmed when its
reruns are used up; either happens once, and after it the case is left alone.
-/

set_option autoImplicit false

namespace Retrial

open History

/-- The ticket for the rerun of a case with a number. The last one is verbose. -/
def Policy.ticket (p : Policy) (n : Nat) : Ticket := ⟨n, p.maxRepeats, n == p.maxRepeats⟩

@[simp] def AttemptKind.ticketOf? (c : TestCase) : AttemptKind → Option Ticket
  | .fullRun => none
  | .rerun d t => if d = c then some t else none

def tickets (c : TestCase) (qs : List Request) : List Ticket := qs.filterMap (·.kind.ticketOf? c)

@[simp] theorem tickets_append (c : TestCase) (qs qs' : List Request) :
    tickets c (qs ++ qs') = tickets c qs ++ tickets c qs' :=
  List.filterMap_append

theorem mem_tickets {c : TestCase} {t : Ticket} {es : List Event} :
    t ∈ tickets c (requests es) ↔
      ∃ es₁ q es₂, es = es₁ ++ .attemptStarted q :: es₂ ∧ q.kind = .rerun c t := by
  have hk : ∀ kind : AttemptKind, kind.ticketOf? c = some t ↔ kind = .rerun c t := by
    intro kind
    cases kind with
    | fullRun => simp
    | rerun d u => by_cases hd : d = c <;> simp [hd]
  simp only [tickets, List.mem_filterMap, hk, mem_requests]
  constructor
  · rintro ⟨q, he, hq⟩
    obtain ⟨es₁, es₂, rfl⟩ := List.append_of_mem he
    exact ⟨es₁, q, es₂, rfl, hq⟩
  · rintro ⟨es₁, q, es₂, rfl, hq⟩
    exact ⟨q, by simp, hq⟩

def Policy.tickets (p : Policy) (n : Nat) : List Ticket := (List.range' 1 n).map p.ticket

theorem Policy.tickets_succ (p : Policy) (n : Nat) :
    p.tickets (n + 1) = p.tickets n ++ [p.ticket (n + 1)] := by
  rw [tickets, List.range'_concat, List.map_append, Nat.one_mul, Nat.add_comm 1 n]
  rfl

theorem Policy.countP_verbose_tickets (p : Policy) (n : Nat) :
    (p.tickets n).countP (·.verbose) ≤ 1 := by
  rw [tickets, List.countP_map]
  have hn : (List.range' 1 n).count p.maxRepeats ≤ 1 :=
    List.nodup_iff_count_le_one.1 List.nodup_range' _
  simpa [List.count, Function.comp_def, ticket] using hn

structure LifeCycle (p : Policy) (c : TestCase) (es : List Event) : Prop where
  tickets : tickets c (requests es) = p.tickets (rerunsOf c (requests es))
  within : rerunsOf c (requests es) ≤ p.maxRepeats
  once : (recovered es).count c + (confirmed es).count c ≤ 1
  recovered : c ∈ recovered es → passes c es = p.passesNeeded
  confirmed : c ∈ confirmed es →
    rerunsOf c (requests es) = p.maxRepeats ∧ passes c es < p.passesNeeded

/-- The last result of the whole binary names a case as failing, and it is undecided. -/
def Open (c : TestCase) (es : List Event) : Prop :=
  (∃ w, (wholeResults es).getLast? = some w ∧ c ∈ w.classification.failures) ∧
    c ∉ recovered es ∧ c ∉ confirmed es

namespace Course

variable {s : Setup} {es : List Event} {l : Ledger} {φ : Phase} {c : TestCase}

theorem ticket_eq {t : Ticket} {later : List TestCase}
    (h : Course s es l (.attempting (.rerun c t later))) :
    t = s.policy.ticket (rerunsOf c (requests es) + 1) := by
  cases h with
  | granted h e =>
    obtain ⟨p, hp, ht, -⟩ := Ledger.standing_nextRerun? e
    obtain ⟨hl, hr, -⟩ := h.standings c
    rw [hp] at hl hr
    have hv : (p.left == 0) = (p.reruns + 1 == s.policy.maxRepeats) := by
      rw [Bool.eq_iff_iff, beq_iff_eq, beq_iff_eq]
      dsimp only at hl
      omega
    rw [ht, h.limits.1, hv, Policy.ticket, hr]
    rfl

theorem tickets_eq (h : Course s es l φ) (c : TestCase) :
    tickets c (requests es) = s.policy.tickets (rerunsOf c (requests es)) := by
  induction h with
  | fresh | existing => rfl
  | @attempted es l step q o k h hq _ ih =>
    have hk : q.kind = step.kind := by rw [hq]; rfl
    cases step with
    | fullRun => simpa [hk, Step.kind, tickets] using ih
    | rerun d t later =>
      by_cases hd : d = c
      · subst hd
        simp [hk, Step.kind, tickets, Policy.tickets_succ, h.ticket_eq] at ih ⊢
        exact ih
      · simpa [hk, Step.kind, tickets, hd] using ih
  | recovered _ _ ih | scheduled _ _ ih | confirmed _ _ ih => simpa using ih
  | passed _ ih | failed _ ih | executableFailed _ ih | crashed _ ih | counted _ _ ih
  | repeated _ _ _ ih | givenUp _ _ ih | granted _ _ ih | settled _ ih => exact ih

theorem remaining_failing (h : Course s es l φ) : ∀ d ∈ φ.remaining,
    ∃ w, (wholeResults es).getLast? = some w ∧ d ∈ w.classification.failures := by
  induction h with
  | fresh | existing | passed | executableFailed | crashed | scheduled | givenUp | settled => simp
  | @attempted es l step q o k _ hq _ ih =>
    have hk : q.kind = step.kind := by rw [hq]; rfl
    cases step with
    | fullRun => simp
    | rerun d t later => simpa [hk, Step.kind] using ih
  | @failed es l failures h ih =>
    intro d hd
    obtain ⟨w, hw, hf⟩ := h.answers
    have hp := ((Ledger.entered_beginConfirmation l failures).pending d).1 hd
    exact ⟨w, hw, by rw [hf]; exact (hp.resolve_left List.not_mem_nil).1⟩
  | recovered _ _ ih | confirmed _ _ ih =>
    exact fun d hd => by simpa using ih d (List.mem_cons_of_mem _ hd)
  | counted _ _ ih | repeated _ _ _ ih | granted _ _ ih => exact ih

theorem open_of_remaining (h : Course s es l φ) (hc : c ∈ φ.remaining) : Open c es := by
  have hd := mt h.decided_not_remaining (not_not.2 hc)
  rw [h.decided.1, h.decided.2, not_or] at hd
  exact ⟨h.remaining_failing c hc, hd⟩

theorem lifeCycle (h : Course s es l φ) (c : TestCase) : LifeCycle s.policy c es := by
  obtain ⟨hl, hn, hp⟩ := h.standings c
  obtain ⟨hle, hr, hz⟩ := h.thresholds c
  have hd : c ∈ l.recovered ∨ c ∈ l.confirmed → φ.granted c = 0 ∧ φ.uncounted c = 0 := fun hd =>
    have hr := h.decided_not_remaining hd
    ⟨Phase.granted_eq_zero hr, Phase.uncounted_eq_zero hr⟩
  have ht := h.tidy
  constructor
  case tickets => exact h.tickets_eq c
  case within => omega
  case once =>
    rw [← h.decided.1, ← h.decided.2, ht.recovered_nodup.count, ht.confirmed_nodup.count]
    have := ht.apart c
    split <;> split <;> simp_all
  case recovered =>
    rw [← h.decided.2]
    intro hc
    have := hd (Or.inl hc)
    have := hr.1 hc
    omega
  case confirmed =>
    rw [← h.decided.1]
    intro hc
    have := hd (Or.inr hc)
    have := mt hr.2 fun hc' => ht.apart c hc' hc
    have := hz hc
    omega

end Course

namespace Stage

variable {s : Setup} {es : List Event}

/-- The life of a case at any stage of a run. An attempt that is under way is
not of a case that is decided. -/
theorem lifeCycle (h : Stage s es) (c : TestCase) : LifeCycle s.policy c es := by
  cases h with
  | silent | started => constructor <;> simp [tickets, Policy.tickets]
  | between h => exact h.lifeCycle c
  | ended attempts elapsed h =>
    have hc := h.lifeCycle c
    constructor
    case tickets => simpa using hc.tickets
    case within => simpa using hc.within
    case once => simpa using hc.once
    case recovered => simpa using hc.recovered
    case confirmed => simpa using hc.confirmed
  | @underWay es l step h =>
    have hc := h.lifeCycle c
    by_cases hq : step.kind.isRerunOf c = true
    · obtain ⟨t, later, rfl⟩ : ∃ t later, step = .rerun c t later := by
        cases step with
        | fullRun => simp [Step.kind] at hq
        | rerun d t later => exact ⟨t, later, by simpa [Step.kind] using hq⟩
      have hl := h.rerunsOf_le c
      obtain ⟨-, hr, hn⟩ := h.open_of_remaining (c := c) (by simp)
      constructor
      case tickets =>
        have ht := hc.tickets
        simp [tickets, Setup.request, Step.kind, Policy.tickets_succ, h.ticket_eq] at ht ⊢
        exact ht
      case within => simpa [Setup.request, Step.kind] using hl
      case once => simpa using hc.once
      case recovered => exact fun hx => absurd (by simpa using hx) hr
      case confirmed => exact fun hx => absurd (by simpa using hx) hn
    · have ht : tickets c [s.request ((requests es).length + 1) step.kind] = [] := by
        cases step with
        | fullRun => rfl
        | rerun d t later => simpa [tickets, Setup.request, Step.kind] using hq
      have hk : (s.request ((requests es).length + 1) step.kind).kind.isRerunOf c = false := by
        simpa [Setup.request] using hq
      constructor
      case tickets => simpa [ht, hk] using hc.tickets
      case within => simpa [hk] using hc.within
      case once => simpa using hc.once
      case recovered => simpa using hc.recovered
      case confirmed => simpa [hk] using hc.confirmed

theorem open_of_rerun {q : Request} {c : TestCase} (h : Stage s (es ++ [.attemptStarted q]))
    (hq : q.kind.isRerunOf c = true) : Open c es := by
  obtain ⟨l, step, hc, rfl⟩ := h.attempting
  cases step with
  | fullRun => simp [Setup.request, Step.kind] at hq
  | rerun d t later =>
    obtain rfl : d = c := by simpa [Setup.request, Step.kind] using hq
    exact hc.open_of_remaining (by simp)

end Stage

variable {Memory : Type}

/-- The life cycle of a test case in any run: its reruns bear the numbers from
one on up to the budget, the last of them alone verbose, and are made only while
the case is open; it is decided at most once, by the passes among its reruns. -/
theorem case_life_cycle (s : Setup) (x : Executor Memory) (listen : Listener) (files : Files)
    (memory : Memory) (c : TestCase) :
    let r := supervise s x listen files memory
    (tickets c r.requests =
        (List.range' 1 (rerunsOf c r.requests)).map
          fun n => ⟨n, s.policy.maxRepeats, n == s.policy.maxRepeats⟩) ∧
      rerunsOf c r.requests ≤ s.policy.maxRepeats ∧
      (tickets c r.requests).countP (·.verbose) ≤ 1 ∧
      (∀ es q later, r.events = es ++ .attemptStarted q :: later → q.kind.isRerunOf c = true →
        Open c es) ∧
      (recovered r.events).count c + (confirmed r.events).count c ≤ 1 ∧
      (c ∈ recovered r.events → passes c r.events = s.policy.passesNeeded) ∧
      (c ∈ confirmed r.events → rerunsOf c r.requests = s.policy.maxRepeats ∧
        passes c r.events < s.policy.passesNeeded) ∧
      ∀ sm, r.ending = .summary sm → sm.recovered = recovered r.events ∧
        sm.confirmed = confirmed r.events ∧ (sm.recovered ++ sm.confirmed).Nodup := by
  intro r
  have hq : r.requests = requests r.events := supervise_requests
  have hc : LifeCycle s.policy c r.events :=
    (stage_supervise (List.prefix_refl _)).lifeCycle c
  rw [hq]
  refine ⟨hc.tickets, hc.within, ?_, ?_, hc.once, hc.recovered, hc.confirmed, ?_⟩
  · rw [hc.tickets]
    exact s.policy.countP_verbose_tickets _
  · intro es q later he hk
    have hp : es ++ [.attemptStarted q] <+: (supervise s x listen files memory).events :=
      ⟨later, by simpa using he.symm⟩
    exact (stage_supervise hp).open_of_rerun hk
  · intro sm h
    obtain ⟨es, l, hl, hs, he⟩ := course_of_summary h
    have ht := hl.tidy
    have hd := hl.decided
    have hr : sm.recovered = l.recovered := by rw [hs]
    have hf : sm.confirmed = l.confirmed := by rw [hs]
    refine ⟨?_, ?_, ?_⟩
    · rw [hr, hd.2, he]; simp
    · rw [hf, hd.1, he]; simp
    · rw [hr, hf]
      exact ht.recovered_nodup.append ht.confirmed_nodup ht.apart

namespace Rehearsal

def shakyRun : Run :=
  supervise (setup .standard) (functions ⟨0⟩) .willing .empty (shaky ["fail", "pass"])

def strictRun : Run :=
  supervise (setup ⟨0, 1, 0, []⟩) (functions ⟨0⟩) .willing .empty [⟨"a", none, ["fail"]⟩]

end Rehearsal

open Rehearsal in
theorem case_life_cycle_after_crash :
    (shakyRun.ending = .summary ⟨.pass, 6, 2, [], [⟨"a", none⟩, ⟨"b", none⟩], ⟨0⟩⟩ ∧
      tickets ⟨"b", none⟩ shakyRun.requests = [⟨1, 5, false⟩, ⟨2, 5, false⟩] ∧
      passes ⟨"b", none⟩ shakyRun.events = 1 ∧
      (∃ es q later, shakyRun.events = es ++ .attemptStarted q :: later ∧
        q.kind = .rerun ⟨"b", none⟩ ⟨2, 5, false⟩ ∧ Open ⟨"b", none⟩ es) ∧
      ([⟨"a", none⟩, ⟨"b", none⟩] : List TestCase).Nodup) ∧
    strictRun.ending = .summary ⟨.fail, 1, 1, [⟨"a", none⟩], [], ⟨0⟩⟩ ∧
      rerunsOf ⟨"a", none⟩ strictRun.requests = 0 ∧ passes ⟨"a", none⟩ strictRun.events < 1 := by
  have h : shakyRun.ending =
      .summary ⟨.pass, 6, 2, [], [⟨"a", none⟩, ⟨"b", none⟩], ⟨0⟩⟩ := ending_shaky
  have hn : rerunsOf ⟨"b", none⟩ shakyRun.requests = 2 := by
    rw [shakyRun, supervise_within 6 rfl rfl (Setup.makeLogDirectory_here rfl rfl) rfl]
    rfl
  have h' : strictRun.ending = .summary ⟨.fail, 1, 1, [⟨"a", none⟩], [], ⟨0⟩⟩ := by
    rw [strictRun, supervise_within 1 rfl rfl (Setup.makeLogDirectory_here rfl rfl) rfl]
    rfl
  obtain ⟨ht, -, -, ho, -, hr, -, hs⟩ := case_life_cycle (setup .standard) (functions ⟨0⟩) .willing
    .empty (shaky ["fail", "pass"]) ⟨"b", none⟩
  obtain ⟨-, -, -, -, -, -, hc, hs'⟩ := case_life_cycle (setup ⟨0, 1, 0, []⟩) (functions ⟨0⟩)
    .willing .empty [⟨"a", none, ["fail"]⟩] ⟨"a", none⟩
  obtain ⟨hd, -, hu⟩ := hs _ h
  obtain ⟨-, hd', -⟩ := hs' _ h'
  change tickets ⟨"b", none⟩ shakyRun.requests =
    (List.range' 1 (rerunsOf _ shakyRun.requests)).map _ at ht
  rw [hn] at ht
  have hm : (⟨2, 5, false⟩ : Ticket) ∈ tickets ⟨"b", none⟩ shakyRun.requests := by
    rw [ht]
    decide
  rw [shakyRun, supervise_requests] at hm
  obtain ⟨es, q, later, he, hq⟩ := mem_tickets.1 hm
  exact ⟨⟨h, ht, hr (hd ▸ by decide), ⟨es, q, later, he, hq, ho es q later he (by rw [hq]; rfl)⟩,
    hu⟩, h', hc (hd' ▸ by decide)⟩

end Retrial
