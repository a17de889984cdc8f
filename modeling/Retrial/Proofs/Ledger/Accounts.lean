import Retrial.Proofs.Ledger.Places
import Retrial.Proofs.LifeCycle

/-!
# Accounts of a ledger

Whatever is asked of a ledger, its journal accounts for what it holds. The
tickets given out for a case are the reruns taken from its budget, and each whole
rerun that was granted is one less in the budget it was taken from. What is
written down is never taken back: progress only goes on, the lists of decided
cases only grow at their ends, and nothing more is granted to a case in them.
-/

set_option autoImplicit false

namespace Retrial.Ledger

def Line.ticketFor? (c : TestCase) : Line → Option Ticket
  | ⟨.nextRerun d, .ticket t⟩ => if d = c then t else none
  | _ => none

def ticketsFor (c : TestCase) (js : List Line) : List Ticket := js.filterMap (·.ticketFor? c)

def crashGranted : Line := ⟨.takeCrash, .taken true⟩

def executableGranted : Line := ⟨.takeExecutable, .taken true⟩

/-- A journal and the ledger behind it balance, under the policy that both began with. -/
structure Accounts (p : Policy) (js : List Line) (l : Ledger) : Prop where
  limit : l.maxRepeats = p.maxRepeats
  reruns : ∀ c, (l.standing c).reruns + (l.standing c).left = p.maxRepeats
  tickets : ∀ c, ticketsFor c js = p.tickets (l.standing c).reruns
  crash : l.crashLeft + js.count crashGranted = p.crashReruns
  executable : l.executableLeft + js.count executableGranted = p.executableReruns

structure Precedes (l l' : Ledger) : Prop where
  recovered : l.recovered <+: l'.recovered
  confirmed : l.confirmed <+: l'.confirmed
  progress : ∀ c p, l.progress? c = some p → ∃ p', l'.progress? c = some p' ∧
    p'.left ≤ p.left ∧ p.reruns ≤ p'.reruns ∧ p.passes ≤ p'.passes

variable {p : Policy} {js : List Line} {l l' l'' : Ledger} {op : Operation} {reply : Reply}
  {c d : TestCase}

theorem accounts_start (p : Policy) : Accounts p [] (start p) := by
  constructor
  case limit => rfl
  case reruns => exact fun c => Nat.zero_add _
  case tickets => exact fun c => rfl
  case crash => rfl
  case executable => rfl

theorem Accounts.of_unticketed (h : Accounts p js l) {line : Line}
    (ht : ∀ c, line.ticketFor? c = none) (hm : l'.maxRepeats = l.maxRepeats)
    (hs : ∀ c, ∃ n, l'.standing c = { l.standing c with passes := n })
    (hc : l'.crashLeft + [line].count crashGranted = l.crashLeft)
    (he : l'.executableLeft + [line].count executableGranted = l.executableLeft) :
    Accounts p (js ++ [line]) l' := by
  constructor
  case limit => rw [hm, h.limit]
  case reruns =>
    intro c
    obtain ⟨n, hn⟩ := hs c
    rw [hn]
    exact h.reruns c
  case tickets =>
    intro c
    obtain ⟨n, hn⟩ := hs c
    have hnil : ticketsFor c [line] = [] := by simp [ticketsFor, ht]
    rw [hn, ticketsFor, List.filterMap_append]
    exact (congrArg _ hnil).trans ((List.append_nil _).trans (h.tickets c))
  case crash => rw [List.count_append, ← h.crash]; omega
  case executable => rw [List.count_append, ← h.executable]; omega

theorem standing_but_passes (hc : l'.cases = l.cases) (hm : l'.maxRepeats = l.maxRepeats)
    (d : TestCase) : ∃ n, l'.standing d = { l.standing d with passes := n } :=
  ⟨(l.standing d).passes, standing_of_same hc hm d⟩

theorem standing_but_passes_of_pass {q : Progress} {n : Nat} (hq : l.progress? c = some q)
    (hc : l'.cases = setProgress c { q with passes := n } l.cases)
    (hm : l'.maxRepeats = l.maxRepeats) (d : TestCase) :
    ∃ n, l'.standing d = { l.standing d with passes := n } := by
  rw [standing_of_setProgress hc hm]
  by_cases hd : d = c
  · rw [if_pos hd, hd, standing_of_progress? hq]
    exact ⟨n, rfl⟩
  · rw [if_neg hd]
    exact ⟨(l.standing d).passes, rfl⟩

/-- A rerun that is granted is taken from the budget of the case, under its next ticket. -/
theorem Accounts.of_granted {t : Ticket} (h : Accounts p js l)
    (e : l.nextRerun? c = some (t, l')) :
    Accounts p (js ++ [⟨.nextRerun c, .ticket (some t)⟩]) l' := by
  obtain ⟨q, hq, ht, hs⟩ := standing_nextRerun? e
  have hf := nextRerun?_frame e
  have hr : q.reruns + (q.left + 1) = p.maxRepeats := by simpa [hq] using h.reruns c
  constructor
  case limit => rw [hf]; exact h.limit
  case reruns =>
    intro d
    rw [hs]
    by_cases hd : d = c
    · rw [if_pos hd, ← hr]
      exact Nat.add_right_comm _ _ _
    · rw [if_neg hd]
      exact h.reruns d
  case tickets =>
    intro d
    have hl : (q.left == 0) = (q.reruns + 1 == p.maxRepeats) := by
      rw [Bool.eq_iff_iff, beq_iff_eq, beq_iff_eq]
      omega
    have hd := h.tickets d
    rw [hs, ticketsFor, List.filterMap_append, ← ticketsFor, hd]
    by_cases hc : d = c
    · rw [if_pos hc, hc, hq, Policy.tickets_succ, ht, hl, h.limit]
      simp [Line.ticketFor?, Policy.ticket]
    · simp [Line.ticketFor?, hc, Ne.symm hc]
  case crash => rw [List.count_append, hf]; exact h.crash
  case executable => rw [List.count_append, hf]; exact h.executable

theorem accounts_of_performed (h : Accounts p js l) (hp : Performed l op reply l') :
    Accounts p (js ++ [⟨op, reply⟩]) l' := by
  cases hp with
  | begun failures =>
    have he := entered_beginConfirmation l failures
    have hf := he.frame
    apply h.of_unticketed (fun _ => rfl)
    case hm => rw [hf]
    case hs => exact fun c => ⟨(l.standing c).passes, he.standing c⟩
    case hc => rw [hf]; rfl
    case he => rw [hf]; rfl
  | granted e => exact h.of_granted e
  | denied =>
    exact h.of_unticketed (fun _ => ite_self none) rfl (standing_but_passes rfl rfl) rfl rfl
  | unknown | confirmed | finished | finishedBefore | crashSpent | executableSpent =>
    exact h.of_unticketed (fun _ => rfl) rfl (standing_but_passes rfl rfl) rfl rfl
  | counted hq | recovered hq =>
    exact h.of_unticketed (fun _ => rfl) rfl (standing_but_passes_of_pass hq rfl rfl) rfl rfl
  | crashTaken hn =>
    exact h.of_unticketed (fun _ => rfl) rfl (standing_but_passes rfl rfl) hn.symm rfl
  | executableTaken hn =>
    exact h.of_unticketed (fun _ => rfl) rfl (standing_but_passes rfl rfl) rfl hn.symm

theorem accounts_after (p : Policy) (ops : List Operation) :
    Accounts p ((start p).journal ops) ((start p).after ops) := by
  apply journal_induction (accounts_start p)
  intro js l op h
  exact accounts_of_performed h (performed_perform l op)

theorem progress?_eq_some {q : Progress} :
    l.progress? c = some q ↔ c ∈ l.keys ∧ l.standing c = q := by
  rw [← isSome_progress?_iff, standing]
  cases l.progress? c <;> simp

theorem progress?_beginConfirmation {q : Progress} (h : l.progress? c = some q)
    (failures : List TestCase) : (l.beginConfirmation failures).progress? c = some q := by
  have he := entered_beginConfirmation l failures
  obtain ⟨hk, hq⟩ := progress?_eq_some.1 h
  exact progress?_eq_some.2 ⟨(he.keys c).2 (Or.inl hk), (he.standing c).trans hq⟩

theorem progress?_perform_of_ne (l : Ledger) (h : op.subject? = some c) (hd : d ≠ c) :
    (l.perform op).2.progress? d = l.progress? d := by
  have hp := performed_perform l op
  generalize (l.perform op).1 = reply, (l.perform op).2 = l' at hp
  cases hp with
  | granted e =>
    obtain rfl : _ = c := Option.some.inj h
    obtain ⟨q, -, hs⟩ := progress?_nextRerun (d := d) e
    rw [hs, if_neg hd]
  | counted | recovered =>
    obtain rfl : _ = c := Option.some.inj h
    rw [progress?, lookup_setProgress, if_neg hd]
    rfl
  | begun | crashTaken | executableTaken | finished => cases h
  | denied | unknown | confirmed | crashSpent | executableSpent | finishedBefore => rfl

theorem Precedes.refl (l : Ledger) : Precedes l l :=
  ⟨List.prefix_rfl, List.prefix_rfl, fun _ q h => ⟨q, h, le_rfl, le_rfl, le_rfl⟩⟩

theorem Precedes.trans (h : Precedes l l') (h' : Precedes l' l'') : Precedes l l'' := by
  constructor
  case recovered => exact h.recovered.trans h'.recovered
  case confirmed => exact h.confirmed.trans h'.confirmed
  case progress =>
    intro c q hq
    obtain ⟨q', hq', hl, hr, hp⟩ := h.progress c q hq
    obtain ⟨q'', hq'', hl', hr', hp'⟩ := h'.progress c q' hq'
    exact ⟨q'', hq'', hl'.trans hl, hr.trans hr', hp.trans hp'⟩

theorem progress_of_setProgress {q q' : Progress} (hq : l.progress? c = some q)
    (hc : l'.cases = setProgress c q' l.cases)
    (hle : q'.left ≤ q.left ∧ q.reruns ≤ q'.reruns ∧ q.passes ≤ q'.passes) :
    ∀ d r, l.progress? d = some r → ∃ r', l'.progress? d = some r' ∧
      r'.left ≤ r.left ∧ r.reruns ≤ r'.reruns ∧ r.passes ≤ r'.passes := by
  intro d r hr
  rw [progress?, hc, lookup_setProgress]
  by_cases hd : d = c
  · obtain rfl : q = r := Option.some.inj (hq.symm.trans (hd ▸ hr))
    exact ⟨q', if_pos hd, hle⟩
  · exact ⟨r, (if_neg hd).trans hr, le_rfl, le_rfl, le_rfl⟩

theorem precedes_of_performed (hp : Performed l op reply l') : Precedes l l' := by
  have kept : ∀ c q, l.progress? c = some q → ∃ q', l.progress? c = some q' ∧
      q'.left ≤ q.left ∧ q.reruns ≤ q'.reruns ∧ q.passes ≤ q'.passes := (Precedes.refl l).progress
  cases hp with
  | begun failures =>
    have hf := (entered_beginConfirmation l failures).frame
    constructor
    case recovered => rw [hf]
    case confirmed => rw [hf]
    case progress =>
      exact fun c q hq => ⟨q, progress?_beginConfirmation hq failures, le_rfl, le_rfl, le_rfl⟩
  | granted e =>
    obtain ⟨-, q, hq, -, rfl⟩ := nextRerun?_eq_some e
    constructor
    case recovered => exact List.prefix_rfl
    case confirmed => exact List.prefix_rfl
    case progress =>
      exact progress_of_setProgress hq rfl ⟨Nat.le_succ _, Nat.le_succ _, le_rfl⟩
  | counted hq =>
    constructor
    case recovered => exact List.prefix_rfl
    case confirmed => exact List.prefix_rfl
    case progress => exact progress_of_setProgress hq rfl ⟨le_rfl, le_rfl, Nat.le_succ _⟩
  | recovered hq =>
    constructor
    case recovered => exact List.prefix_append _ _
    case confirmed => exact List.prefix_rfl
    case progress => exact progress_of_setProgress hq rfl ⟨le_rfl, le_rfl, Nat.le_succ _⟩
  | confirmed c =>
    constructor
    case recovered => exact List.prefix_rfl
    case confirmed =>
      unfold confirm
      by_cases hc : l.confirmed.contains c = true
      · rw [if_pos hc]
      · rw [if_neg hc]; exact List.prefix_append _ _
    case progress => exact kept
  | crashTaken | executableTaken | finished => exact ⟨List.prefix_rfl, List.prefix_rfl, kept⟩
  | denied | unknown | crashSpent | executableSpent | finishedBefore => exact .refl l

theorem precedes_after (l : Ledger) (ops : List Operation) : Precedes l (l.after ops) := by
  apply after_induction (Precedes.refl l)
  intro l' op h
  exact h.trans (precedes_of_performed (performed_perform l' op))

/-- A decided case gets no ticket, and no failure makes it pending again. -/
theorem left_alone_of_decided (h : Placed l) (hd : c ∈ l.recovered ∨ c ∈ l.confirmed) :
    l.nextRerun? c = none ∧ ∀ failures, c ∉ (l.beginConfirmation failures).pending := by
  constructor
  · rw [Option.eq_none_iff_forall_ne_some]
    rintro ⟨t, l'⟩ e
    have hu := h.undecided c (nextRerun?_eq_some e).1
    exact hd.elim hu.1 hu.2
  · intro failures hp
    obtain hn | ⟨-, hn⟩ := ((entered_beginConfirmation l failures).pending c).1 hp
    · exact List.not_mem_nil hn
    · exact hn hd

/-- After any operations, for any policy: the reruns of a case and what is left of its
budget make up the budget, and each rerun was one ticket, numbered from one on; the
whole reruns granted and those left make up theirs. Failures of a later run and
operations on other cases leave the progress of a case, the lists of decided cases
only grow at their ends, and a decided case is never rerun or pending again. -/
theorem budgets_conserved (p : Policy) (ops : List Operation) :
    let l := (start p).after ops
    let js := (start p).journal ops
    (∀ c q, l.progress? c = some q →
      q.reruns + q.left = p.maxRepeats ∧ q.reruns = (ticketsFor c js).length) ∧
    (∀ c, ticketsFor c js = p.tickets (ticketsFor c js).length) ∧
    l.crashLeft + js.count crashGranted = p.crashReruns ∧
    l.executableLeft + js.count executableGranted = p.executableReruns ∧
    (∀ failures c q, l.progress? c = some q →
      (l.beginConfirmation failures).progress? c = some q) ∧
    (∀ op c d, op.subject? = some c → d ≠ c → (l.perform op).2.progress? d = l.progress? d) ∧
    ∀ more, let l' := l.after more
      Precedes l l' ∧ ∀ c, c ∈ l.recovered ∨ c ∈ l.confirmed →
        l'.nextRerun? c = none ∧ ∀ failures, c ∉ (l'.beginConfirmation failures).pending := by
  intro l js
  have ha : Accounts p js l := accounts_after p ops
  have hlen : ∀ c, (ticketsFor c js).length = (l.standing c).reruns := by
    intro c
    rw [ha.tickets, Policy.tickets, List.length_map, List.length_range']
  refine ⟨?reruns, ?tickets, ha.crash, ha.executable, ?failures, ?others, ?later⟩
  case reruns =>
    intro c q hq
    rw [hlen, ← standing_of_progress? hq]
    exact ⟨ha.reruns c, rfl⟩
  case tickets => intro c; rw [hlen]; exact ha.tickets c
  case failures => exact fun failures c q hq => progress?_beginConfirmation hq failures
  case others => exact fun op c d => progress?_perform_of_ne l
  case later =>
    intro more l'
    have hk : Precedes l l' := precedes_after l more
    have hp : Placed l' := by
      have h := placed_after p (ops ++ more)
      rwa [after_append] at h
    refine ⟨hk, fun c hc => left_alone_of_decided hp ?_⟩
    exact hc.imp (fun h => hk.recovered.subset h) (fun h => hk.confirmed.subset h)

/-- The budget of a case is carried over a whole rerun, up to the second of its passes. -/
theorem budgets_conserved_over_whole_rerun :
    let p : Policy := ⟨3, 2, 1, []⟩
    let a : TestCase := ⟨"a", none⟩
    let ops := [Operation.beginConfirmation [a, ⟨"b", none⟩], .nextRerun a, .recordPass a,
      .takeCrash, .beginConfirmation [a], .nextRerun a, .recordPass a, .takeCrash]
    let l := (start p).after ops
    l.progress? a = some ⟨1, 2, 2⟩ ∧ (ticketsFor a ((start p).journal ops)).length = 2 ∧
      a ∈ l.recovered ∧ (l.after [.beginConfirmation [a], .confirm a]).nextRerun? a = none := by
  intro p a ops l
  have hc := budgets_conserved p ops
  have hq : l.progress? a = some ⟨1, 2, 2⟩ := by decide
  have hr : a ∈ l.recovered := by decide
  have hl := (hc.2.2.2.2.2.2 [.beginConfirmation [a], .confirm a]).2 a (Or.inl hr)
  exact ⟨hq, (hc.1 a _ hq).2.symm, hr, hl.1⟩

end Retrial.Ledger
