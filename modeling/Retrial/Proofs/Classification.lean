import Retrial.Classification

/-!
# What a classification rests on

Where an attempt is not taken for a crash, its process exited with a code, and
either no log was expected or the log deserves trust: it is not empty, nothing
fatal is in it, its failures agree with the code, and each of them can be rerun.
-/

set_option autoImplicit false

namespace Retrial

namespace Log

section Distinct

variable {α : Type} [BEq α] [LawfulBEq α]

def addNew (seen : List α) (x : α) : List α := if seen.contains x then seen else seen ++ [x]

theorem mem_addNew {seen : List α} {x y : α} : y ∈ addNew seen x ↔ y ∈ seen ∨ y = x := by
  unfold addNew
  by_cases h : x ∈ seen
  · simpa [h] using fun e => e ▸ h
  · simp [h]

theorem mem_foldl_addNew {xs seen : List α} {y : α} :
    y ∈ xs.foldl addNew seen ↔ y ∈ seen ∨ y ∈ xs := by
  induction xs generalizing seen with
  | nil => simp
  | cons x xs ih => simp [ih, mem_addNew, or_assoc]

theorem mem_distinct {xs : List α} {y : α} : y ∈ distinct xs ↔ y ∈ xs := by
  unfold distinct
  exact mem_foldl_addNew.trans (by simp)

end Distinct

theorem FunctionResult.mem_failures {f : FunctionResult} {c : TestCase} :
    c ∈ f.failures ↔ ∃ i ∈ f.incidents, i.isFailure = true ∧ c = ⟨f.name, i.tag⟩ := by
  unfold failures
  rw [mem_distinct, List.mem_map]
  constructor
  · rintro ⟨i, hi, rfl⟩
    obtain ⟨hi, hf⟩ := List.mem_filter.1 hi
    exact ⟨i, hi, hf, rfl⟩
  · rintro ⟨i, hi, hf, rfl⟩
    exact ⟨i, List.mem_filter.2 ⟨hi, hf⟩, rfl⟩

end Log

namespace TestLog

open Log

theorem mem_failures {log : TestLog} {c : TestCase} :
    c ∈ log.failures ↔ ∃ f ∈ log.functions, ∃ i ∈ f.incidents,
      i.isFailure = true ∧ c = ⟨f.name, i.tag⟩ := by
  simp [failures, FunctionResult.mem_failures]

theorem failures_eq_nil {log : TestLog} :
    log.failures = [] ↔ ∀ f ∈ log.functions, f.failed = false := by
  rw [List.eq_nil_iff_forall_not_mem]
  constructor
  · intro h f hf
    rw [FunctionResult.failed, List.any_eq_false]
    intro i hi hx
    exact h _ (mem_failures.2 ⟨f, hf, i, hi, hx, rfl⟩)
  · intro h c hc
    obtain ⟨f, hf, i, hi, hx, -⟩ := mem_failures.1 hc
    have := h f hf
    rw [FunctionResult.failed, List.any_eq_false] at this
    exact this i hi hx

theorem fatalMessages_eq_nil {log : TestLog} :
    log.fatalMessages = [] ↔ ∀ f ∈ log.functions, ∀ m ∈ f.messages, m.severity ≠ .fatal := by
  simp [fatalMessages, List.flatMap_eq_nil_iff, Message.isFatal]

end TestLog

theorem CrashReason.allowsRerun_eq_false {reason : CrashReason} :
    reason.allowsRerun = false ↔ ∃ function, reason = .noRerunFailure function := by
  cases reason <;> simp [allowsRerun]

/-- A log that may be believed, for a process that exited with a code. -/
structure Credible (noRerun : List String) (code : Int) (log : TestLog) : Prop where
  inhabited : log.functions ≠ []
  unharmed : ∀ f ∈ log.functions, ∀ m ∈ f.messages, m.severity ≠ .fatal
  consistent : code = 0 ↔ ∀ f ∈ log.functions, f.failed = false
  rerunnable : ∀ f ∈ log.functions, f.failed = true → f.name ∉ noRerun

/-- The ways to know what an attempt did: its code alone, where no log was
expected, or a log that may be believed. -/
def Conclusive (noRerun : List String) (exit : Exit) (log : LogState) : Prop :=
  ∃ code, exit = .exited code ∧
    (log = .notExpected ∧ code = 0 ∨ ∃ parsed, log = .parsed parsed ∧ Credible noRerun code parsed)

theorem classify_unreadable (noRerun : List String) (exit : Exit) (fault : Log.Fault) :
    ∃ reason, classify noRerun exit (.unreadable fault) = .crashed reason := by
  cases exit <;> exact ⟨_, rfl⟩

theorem classify_missing (noRerun : List String) (exit : Exit) :
    ∃ reason, classify noRerun exit .missing = .crashed reason := by
  cases exit <;> exact ⟨_, rfl⟩

theorem classifyLog_ne_executableFailed {noRerun : List String} {code n : Int} {log : TestLog} :
    classifyLog noRerun code log ≠ .executableFailed n := by
  unfold classifyLog
  split
  · simp
  · split
    · simp
    · dsimp only
      split
      · simp
      · split
        · simp
        · split <;> simp

theorem classifyLog_credible {noRerun : List String} {code : Int} {log : TestLog}
    (h : ∀ reason, classifyLog noRerun code log ≠ .crashed reason) : Credible noRerun code log := by
  unfold classifyLog at h
  split at h
  · simp at h
  · next hi =>
    split at h
    · simp at h
    · next hf =>
      dsimp only at h
      split at h
      · simp at h
      · next hc =>
        split at h
        · simp at h
        · next hr =>
          constructor
          case inhabited => simpa [TestLog.isEmpty] using hi
          case unharmed => exact TestLog.fatalMessages_eq_nil.1 hf
          case consistent =>
            rw [← TestLog.failures_eq_nil]
            have hb : (code == 0) = log.failures.isEmpty := by simpa using hc
            rw [← beq_iff_eq, hb, List.isEmpty_iff]
          case rerunnable =>
            intro f hf hx hn
            obtain ⟨i, hi, hx⟩ := List.any_eq_true.1 hx
            have hm := TestLog.mem_failures.2 ⟨f, hf, i, hi, hx, rfl⟩
            simpa [hn] using List.find?_eq_none.1 hr _ hm

theorem classify_conclusive {noRerun : List String} {exit : Exit} {log : LogState}
    (hc : ∀ reason, classify noRerun exit log ≠ .crashed reason)
    (hx : ∀ code, classify noRerun exit log ≠ .executableFailed code) :
    Conclusive noRerun exit log := by
  cases exit with
  | timedOut => exact absurd rfl (hc _)
  | abnormal code signal => exact absurd rfl (hc _)
  | exited code =>
    refine ⟨code, rfl, ?_⟩
    cases log with
    | missing => exact absurd rfl (hc _)
    | unreadable fault => exact absurd rfl (hc _)
    | notExpected =>
      by_cases hz : code = 0
      · exact Or.inl ⟨rfl, hz⟩
      · exact absurd (if_neg (by simpa using hz)) (hx code)
    | parsed parsed => exact Or.inr ⟨parsed, rfl, classifyLog_credible hc⟩

end Retrial
