import Mathlib.Data.List.Basic
import Mathlib.Data.List.Forall2
import Mathlib.Data.List.Induction
import Mathlib.Data.List.Nodup
import Retrial.Proofs.Classification

/-!
# The classification table

Classification is given by a table of thirteen rows, of which the first that
fits decides. Here the table is written down without any computation: which
attempts a row fits, and what it gives for them. The failures that a row names
are listed in the order of the log, and the function or the message that a crash
names is the first of its sort.
-/

set_option autoImplicit false

namespace Retrial

section First

variable {α : Type} {p : α → Prop} {xs : List α} {x y : α}

def IsFirst (p : α → Prop) (xs : List α) (x : α) : Prop :=
  ∃ before after, xs = before ++ x :: after ∧ p x ∧ ∀ y ∈ before, ¬ p y

theorem find?_eq_some_iff_isFirst {q : α → Bool} (hq : ∀ x, q x = true ↔ p x) :
    xs.find? q = some x ↔ IsFirst p xs x := by
  rw [List.find?_eq_some_iff_append]
  constructor
  · rintro ⟨hx, before, after, e, hb⟩
    exact ⟨before, after, e, (hq x).1 hx, fun y hy => by simpa [← hq] using hb y hy⟩
  · rintro ⟨before, after, e, hx, hb⟩
    exact ⟨(hq x).2 hx, before, after, e, fun y hy => by simpa [← hq] using hb y hy⟩

theorem isFirst_iff_find? [DecidablePred p] : IsFirst p xs x ↔ xs.find? (p ·) = some x :=
  (find?_eq_some_iff_isFirst fun _ => decide_eq_true_iff).symm

theorem IsFirst.unique (hx : IsFirst p xs x) (hy : IsFirst p xs y) : x = y := by
  classical
  rw [isFirst_iff_find?] at hx hy
  exact Option.some.inj (hx.symm.trans hy)

theorem exists_isFirst (h : ∃ x ∈ xs, p x) : ∃ x, IsFirst p xs x := by
  classical
  simp only [isFirst_iff_find?]
  apply Option.isSome_iff_exists.1
  rw [List.find?_isSome]
  obtain ⟨x, hx, hp⟩ := h
  exact ⟨x, hx, decide_eq_true hp⟩

theorem IsFirst.mem (h : IsFirst p xs x) : x ∈ xs := by
  obtain ⟨before, after, rfl, -, -⟩ := h
  simp

theorem IsFirst.holds (h : IsFirst p xs x) : p x := by
  obtain ⟨_, _, -, hp, -⟩ := h
  exact hp

end First

section FirstOccurrences

variable {α : Type} [BEq α]

structure FirstOccurrences (xs ds : List α) : Prop where
  mem : ∀ x, x ∈ ds ↔ x ∈ xs
  ordered : ds.Pairwise fun x y => xs.idxOf x < xs.idxOf y

namespace FirstOccurrences

theorem nodup {xs ds : List α} (h : FirstOccurrences xs ds) : ds.Nodup := by
  refine h.ordered.imp ?_
  rintro x _ hxy rfl
  exact Nat.lt_irrefl _ hxy

theorem unique {xs ds ds' : List α} (h : FirstOccurrences xs ds) (h' : FirstOccurrences xs ds') :
    ds = ds' := by
  have hp : ds.Perm ds' :=
    (List.perm_ext_iff_of_nodup h.nodup h'.nodup).2 fun x => (h.mem x).trans (h'.mem x).symm
  refine hp.eq_of_pairwise ?_ h.ordered h'.ordered
  intro x y _ _ hxy hyx
  exact absurd (Nat.lt_trans hxy hyx) (Nat.lt_irrefl _)

variable [LawfulBEq α]

theorem addNew {xs ds : List α} (h : FirstOccurrences xs ds) (x : α) :
    FirstOccurrences (xs ++ [x]) (Log.addNew ds x) := by
  have kept : ∀ y ∈ ds, (xs ++ [x]).idxOf y = xs.idxOf y := fun y hy =>
    List.idxOf_append_of_mem ((h.mem y).1 hy)
  have hord : ds.Pairwise fun y z => (xs ++ [x]).idxOf y < (xs ++ [x]).idxOf z := by
    refine h.ordered.imp_of_mem ?_
    intro y z hy hz hyz
    rwa [kept y hy, kept z hz]
  constructor
  case mem =>
    intro y
    rw [Log.mem_addNew, h.mem, List.mem_append, List.mem_singleton]
  case ordered =>
    unfold Log.addNew
    by_cases hx : x ∈ ds
    · rwa [if_pos (by simpa using hx)]
    · rw [if_neg (by simpa using hx), List.pairwise_append]
      refine ⟨hord, List.pairwise_singleton _ _, ?_⟩
      intro y hy z hz
      have hn : x ∉ xs := fun hm => hx ((h.mem x).2 hm)
      rw [List.mem_singleton.1 hz, kept y hy, List.idxOf_append_of_notMem hn]
      exact Nat.lt_of_lt_of_le (List.idxOf_lt_length_of_mem ((h.mem y).1 hy)) (Nat.le_add_right _ _)

end FirstOccurrences

variable [LawfulBEq α]

theorem firstOccurrences_distinct (xs : List α) : FirstOccurrences xs (Log.distinct xs) := by
  induction xs using List.reverseRecOn with
  | nil => exact ⟨fun x => Iff.rfl, List.Pairwise.nil⟩
  | append_singleton xs x ih =>
    have e : Log.distinct (xs ++ [x]) = Log.addNew (Log.distinct xs) x := List.foldl_append
    rw [e]
    exact ih.addNew x

theorem firstOccurrences_iff {xs ds : List α} :
    FirstOccurrences xs ds ↔ ds = Log.distinct xs :=
  ⟨fun h => h.unique (firstOccurrences_distinct xs), fun h => h ▸ firstOccurrences_distinct xs⟩

end FirstOccurrences

namespace Log

def failingKinds : List IncidentKind :=
  [.fail, .unexpectedPass, .blacklistedFail, .blacklistedUnexpectedPass]

theorem Incident.isFailure_iff {i : Incident} : i.isFailure = true ↔ i.kind ∈ failingKinds := by
  unfold isFailure failingKinds
  cases i.kind <;> simp [IncidentKind.isFailure]

namespace FunctionResult

def Fails (f : FunctionResult) : Prop := ∃ i ∈ f.incidents, i.kind ∈ failingKinds

def Fatal (f : FunctionResult) : Prop := ∃ m ∈ f.messages, m.severity = .fatal

def failingCases (f : FunctionResult) : List TestCase :=
  (f.incidents.filter (·.kind ∈ failingKinds)).map fun i => ⟨f.name, i.tag⟩

theorem failures_eq (f : FunctionResult) : f.failures = distinct f.failingCases := by
  have h : Incident.isFailure = fun i => decide (i.kind ∈ failingKinds) := by
    funext i
    rw [Bool.eq_iff_iff, Incident.isFailure_iff, decide_eq_true_iff]
  rw [failures, failingCases, h]

theorem failed_iff {f : FunctionResult} : f.failed = true ↔ f.Fails := by
  simp only [failed, Fails, List.any_eq_true, Incident.isFailure_iff]

theorem function_of_mem_failures {f : FunctionResult} {c : TestCase} (h : c ∈ f.failures) :
    c.function = f.name := by
  obtain ⟨i, -, -, rfl⟩ := mem_failures.1 h
  rfl

/-- Only the name of a function tells whether one of its failures is barred from a rerun. -/
theorem find?_failures {f : FunctionResult} {noRerun : List String} :
    (f.failures.find? fun c => noRerun.contains c.function) = none ↔
      ¬ (f.Fails ∧ f.name ∈ noRerun) := by
  rw [List.find?_eq_none]
  constructor
  · rintro h ⟨⟨i, hi, hk⟩, hn⟩
    exact h _ (mem_failures.2 ⟨i, hi, Incident.isFailure_iff.2 hk, rfl⟩) (by simpa using hn)
  · intro h c hc hn
    obtain ⟨i, hi, hk, rfl⟩ := mem_failures.1 hc
    exact h ⟨⟨i, hi, Incident.isFailure_iff.1 hk⟩, by simpa using hn⟩

end FunctionResult

end Log

namespace TestLog

open Log

variable {log : TestLog}

def Fails (log : TestLog) : Prop := ∃ f ∈ log.functions, f.Fails

def Fatal (log : TestLog) : Prop := ∃ f ∈ log.functions, f.Fatal

/-- A list of the failing cases of a log: those of its functions one after the
other, those of one function without repeats. -/
def Lists (log : TestLog) (fs : List TestCase) : Prop :=
  ∃ parts, List.Forall₂ (fun f part => FirstOccurrences f.failingCases part) log.functions parts ∧
    fs = parts.flatten

theorem lists_iff {fs : List TestCase} : log.Lists fs ↔ fs = log.failures := by
  have h : ∀ parts : List (List TestCase),
      List.Forall₂ (fun f part => FirstOccurrences f.failingCases part) log.functions parts ↔
        log.functions.map FunctionResult.failures = parts := by
    intro parts
    rw [← List.forall₂_eq_eq_eq, List.forall₂_map_left_iff]
    simp only [firstOccurrences_iff, FunctionResult.failures_eq, eq_comm]
  simp only [Lists, h, exists_eq_left', failures, List.flatMap_def]

theorem failures_eq_nil_iff : log.failures = [] ↔ ¬ log.Fails := by
  rw [failures_eq_nil, Fails, not_exists]
  simp only [not_and, ← FunctionResult.failed_iff, Bool.not_eq_true]

theorem fatalMessages_eq_nil_iff : log.fatalMessages = [] ↔ ¬ log.Fatal := by
  rw [fatalMessages_eq_nil]
  simp [Fatal, FunctionResult.Fatal]

theorem head?_fatalMessages {f : FunctionResult} {m : Message}
    (hf : IsFirst FunctionResult.Fatal log.functions f)
    (hm : IsFirst (·.severity = .fatal) f.messages m) :
    log.fatalMessages.head? = some (f, m) := by
  obtain ⟨before, after, e, -, hb⟩ := hf
  rw [fatalMessages, List.head?_flatMap, List.findSome?_eq_some_iff]
  refine ⟨before, f, after, e, ?_, ?_⟩
  · rw [List.head?_map, List.head?_filter,
      (find?_eq_some_iff_isFirst fun m => by simp [Message.isFatal]).2 hm]
    rfl
  · intro g hg
    have hn := hb g hg
    rw [List.head?_map, List.head?_filter, Option.map_eq_none_iff, List.find?_eq_none]
    intro m' hm' h
    exact hn ⟨m', hm', by simpa [Message.isFatal] using h⟩

/-- The first failure that is barred from a rerun is one of the first failing
function that is. -/
theorem find?_failures {noRerun : List String} {f : FunctionResult}
    (hf : IsFirst (fun f => f.Fails ∧ f.name ∈ noRerun) log.functions f) :
    ∃ c, (log.failures.find? fun c => noRerun.contains c.function) = some c ∧
      c.function = f.name := by
  obtain ⟨before, after, e, hx, hb⟩ := hf
  cases hc : f.failures.find? fun c => noRerun.contains c.function with
  | none => exact absurd hx (FunctionResult.find?_failures.1 hc)
  | some c =>
    refine ⟨c, ?_, FunctionResult.function_of_mem_failures (List.mem_of_find?_eq_some hc)⟩
    rw [failures, List.find?_flatMap, List.findSome?_eq_some_iff]
    exact ⟨before, f, after, e, hc, fun g hg => FunctionResult.find?_failures.2 (hb g hg)⟩

end TestLog

/-! ### What is classified as what, for a log that was read -/

section Log

variable {noRerun : List String} {code : Int} {log : TestLog}

theorem classifyLog_of_empty (h : log.functions = []) :
    classifyLog noRerun code log = .crashed .emptyLog := by
  simp [classifyLog, TestLog.isEmpty, h]

theorem classifyLog_of_fatal {f : Log.FunctionResult} {m : Log.Message}
    (hf : IsFirst Log.FunctionResult.Fatal log.functions f)
    (hm : IsFirst (·.severity = .fatal) f.messages m) :
    classifyLog noRerun code log = .crashed (.fatalMessage f.name m.description) := by
  have hi : ¬ log.isEmpty = true := by
    simpa [TestLog.isEmpty] using List.ne_nil_of_mem hf.mem
  obtain ⟨rest, e⟩ := List.head?_eq_some_iff.1 (TestLog.head?_fatalMessages hf hm)
  rw [classifyLog, if_neg hi, e]

theorem mismatch_iff :
    ((code == 0) != log.failures.isEmpty) = true ↔ ¬ (code = 0 ↔ ¬ log.Fails) := by
  rw [bne_iff_ne, ne_eq, Bool.eq_iff_iff, beq_iff_eq, List.isEmpty_iff, TestLog.failures_eq_nil_iff]

theorem classifyLog_of_mismatch (hi : log.functions ≠ []) (hf : ¬ log.Fatal)
    (hc : ¬ (code = 0 ↔ ¬ log.Fails)) :
    classifyLog noRerun code log = .crashed (.exitCodeMismatch code log.failures.length) := by
  rw [classifyLog, if_neg (by simpa [TestLog.isEmpty] using hi),
    TestLog.fatalMessages_eq_nil_iff.2 hf]
  exact if_pos (mismatch_iff.2 hc)

theorem classifyLog_of_consistent (hi : log.functions ≠ []) (hf : ¬ log.Fatal)
    (hc : code = 0 ↔ ¬ log.Fails) :
    classifyLog noRerun code log =
      match log.failures.find? fun c => noRerun.contains c.function with
      | some c => .crashed (.noRerunFailure c.function)
      | none => if log.failures.isEmpty then .passed else .functionsFailed log.failures := by
  rw [classifyLog, if_neg (by simpa [TestLog.isEmpty] using hi),
    TestLog.fatalMessages_eq_nil_iff.2 hf]
  exact if_neg fun hm => mismatch_iff.1 hm hc

theorem classifyLog_of_noRerun {f : Log.FunctionResult} (hf : ¬ log.Fatal) (hc : code ≠ 0)
    (hr : IsFirst (fun f => f.Fails ∧ f.name ∈ noRerun) log.functions f) :
    classifyLog noRerun code log = .crashed (.noRerunFailure f.name) := by
  have hx : log.Fails := ⟨f, hr.mem, hr.holds.1⟩
  obtain ⟨c, e, hn⟩ := TestLog.find?_failures hr
  rw [classifyLog_of_consistent (List.ne_nil_of_mem hr.mem) hf (by simp [hc, hx]), e, ← hn]

theorem classifyLog_of_rerunnable (hf : ¬ log.Fatal) (hc : code ≠ 0) (hx : log.Fails)
    (hr : ∀ f ∈ log.functions, f.Fails → f.name ∉ noRerun) :
    classifyLog noRerun code log = .functionsFailed log.failures := by
  have hi : log.functions ≠ [] := by
    obtain ⟨g, hg, -⟩ := hx
    exact List.ne_nil_of_mem hg
  have hn : (log.failures.find? fun c => noRerun.contains c.function) = none := by
    rw [TestLog.failures, List.find?_flatMap, List.findSome?_eq_none_iff]
    intro f hm
    exact Log.FunctionResult.find?_failures.2 fun h => hr f hm h.1 h.2
  have hne : ¬ log.failures.isEmpty = true := by
    rw [List.isEmpty_iff, TestLog.failures_eq_nil_iff, not_not]
    exact hx
  rw [classifyLog_of_consistent hi hf (by simp [hc, hx]), hn]
  exact if_neg hne

theorem classifyLog_of_clean (hi : log.functions ≠ []) (hf : ¬ log.Fatal) (hx : ¬ log.Fails) :
    classifyLog noRerun 0 log = .passed := by
  rw [classifyLog_of_consistent hi hf (by simp [hx]), TestLog.failures_eq_nil_iff.2 hx]
  rfl

end Log

/-! ### The table -/

/-- The rows of the table. The mismatches between code and log are two rows: a
failure behind the code of a success, and the code of a failure without one. -/
inductive Row
  | timedOut
  | abnormalExit
  | unloggedPass
  | unloggedFailure
  | missingLog
  | unreadableLog
  | emptyLog
  | fatalMessage
  | hiddenFailure
  | missingFailure
  | noRerunFailure
  | functionsFailed
  | passed
  deriving DecidableEq, Repr

namespace Row

def table : List Row :=
  [timedOut, abnormalExit, unloggedPass, unloggedFailure, missingLog, unreadableLog, emptyLog,
    fatalMessage, hiddenFailure, missingFailure, noRerunFailure, functionsFailed, passed]

def Fits (noRerun : List String) (exit : Exit) (log : LogState) : Row → Prop
  | .timedOut => exit = .timedOut
  | .abnormalExit => ∃ code signal, exit = .abnormal code signal
  | .unloggedPass => exit = .exited 0 ∧ log = .notExpected
  | .unloggedFailure => (∃ code, exit = .exited code ∧ code ≠ 0) ∧ log = .notExpected
  | .missingLog => log = .missing
  | .unreadableLog => ∃ fault, log = .unreadable fault
  | .emptyLog => ∃ parsed, log = .parsed parsed ∧ parsed.functions = []
  | .fatalMessage => ∃ parsed, log = .parsed parsed ∧ parsed.Fatal
  | .hiddenFailure => exit = .exited 0 ∧ ∃ parsed, log = .parsed parsed ∧ parsed.Fails
  | .missingFailure =>
    (∃ code, exit = .exited code ∧ code ≠ 0) ∧ ∃ parsed, log = .parsed parsed ∧ ¬ parsed.Fails
  | .noRerunFailure =>
    ∃ parsed, log = .parsed parsed ∧ ∃ f ∈ parsed.functions, f.Fails ∧ f.name ∈ noRerun
  | .functionsFailed =>
    (∃ code, exit = .exited code ∧ code ≠ 0) ∧ ∃ parsed, log = .parsed parsed ∧ parsed.Fails
  | .passed => exit = .exited 0 ∧ ∃ parsed, log = .parsed parsed ∧ ¬ parsed.Fails

def Gives (noRerun : List String) (exit : Exit) (log : LogState) : Row → Classification → Prop
  | .timedOut, k => k = .crashed .timedOut
  | .abnormalExit, k =>
    ∃ code signal, exit = .abnormal code signal ∧ k = .crashed (.abnormalExit code signal)
  | .unloggedPass, k => k = .passed
  | .unloggedFailure, k => ∃ code, exit = .exited code ∧ k = .executableFailed code
  | .missingLog, k => k = .crashed .missingLog
  | .unreadableLog, k =>
    ∃ fault, log = .unreadable fault ∧ k = .crashed (.unreadableLog fault.fullMessage)
  | .emptyLog, k => k = .crashed .emptyLog
  | .fatalMessage, k =>
    ∃ parsed f m, log = .parsed parsed ∧ IsFirst Log.FunctionResult.Fatal parsed.functions f ∧
      IsFirst (·.severity = .fatal) f.messages m ∧
      k = .crashed (.fatalMessage f.name m.description)
  | .hiddenFailure, k | .missingFailure, k =>
    ∃ code parsed fs, exit = .exited code ∧ log = .parsed parsed ∧ parsed.Lists fs ∧
      k = .crashed (.exitCodeMismatch code fs.length)
  | .noRerunFailure, k =>
    ∃ parsed f, log = .parsed parsed ∧
      IsFirst (fun f => f.Fails ∧ f.name ∈ noRerun) parsed.functions f ∧
      k = .crashed (.noRerunFailure f.name)
  | .functionsFailed, k => ∃ parsed fs, log = .parsed parsed ∧ parsed.Lists fs ∧
      k = .functionsFailed fs
  | .passed, k => k = .passed

variable {noRerun : List String} {exit : Exit} {log : LogState} {row : Row}
  {k k' : Classification}

theorem Gives.unique (h : row.Gives noRerun exit log k) (h' : row.Gives noRerun exit log k') :
    k = k' := by
  cases row with
  | timedOut | unloggedPass | missingLog | emptyLog | passed => exact h.trans h'.symm
  | abnormalExit =>
    obtain ⟨code, signal, e, rfl⟩ := h
    obtain ⟨code', signal', e', rfl⟩ := h'
    cases e.symm.trans e'
    rfl
  | unloggedFailure =>
    obtain ⟨code, e, rfl⟩ := h
    obtain ⟨code', e', rfl⟩ := h'
    cases e.symm.trans e'
    rfl
  | unreadableLog =>
    obtain ⟨fault, e, rfl⟩ := h
    obtain ⟨fault', e', rfl⟩ := h'
    cases e.symm.trans e'
    rfl
  | fatalMessage =>
    obtain ⟨parsed, f, m, e, hf, hm, rfl⟩ := h
    obtain ⟨parsed', f', m', e', hf', hm', rfl⟩ := h'
    cases e.symm.trans e'
    cases hf.unique hf'
    cases hm.unique hm'
    rfl
  | hiddenFailure | missingFailure =>
    obtain ⟨code, parsed, fs, e, el, hl, rfl⟩ := h
    obtain ⟨code', parsed', fs', e', el', hl', rfl⟩ := h'
    cases e.symm.trans e'
    cases el.symm.trans el'
    rw [TestLog.lists_iff.1 hl, TestLog.lists_iff.1 hl']
  | noRerunFailure =>
    obtain ⟨parsed, f, e, hf, rfl⟩ := h
    obtain ⟨parsed', f', e', hf', rfl⟩ := h'
    cases e.symm.trans e'
    cases hf.unique hf'
    rfl
  | functionsFailed =>
    obtain ⟨parsed, fs, e, hl, rfl⟩ := h
    obtain ⟨parsed', fs', e', hl', rfl⟩ := h'
    cases e.symm.trans e'
    rw [TestLog.lists_iff.1 hl, TestLog.lists_iff.1 hl']

/-- The first row that fits, and what it gives. -/
def Decides (noRerun : List String) (exit : Exit) (log : LogState) (row : Row)
    (k : Classification) : Prop :=
  IsFirst (Fits noRerun exit log) table row ∧ row.Gives noRerun exit log k

theorem exists_decides_parsed (code : Int) (parsed : TestLog) :
    ∃ row : Row, row.Decides noRerun (.exited code) (.parsed parsed)
      (classifyLog noRerun code parsed) := by
  by_cases hi : parsed.functions = []
  · refine ⟨.emptyLog, ⟨table.take 6, table.drop 7, rfl, ⟨parsed, rfl, hi⟩, ?_⟩, ?_⟩
    · simp [table, Fits]
    · exact classifyLog_of_empty hi
  by_cases hf : parsed.Fatal
  · obtain ⟨f, hf'⟩ := exists_isFirst hf
    obtain ⟨m, hm⟩ := exists_isFirst hf'.holds
    refine ⟨.fatalMessage, ⟨table.take 7, table.drop 8, rfl, ⟨parsed, rfl, hf⟩, ?_⟩, ?_⟩
    · simp [table, Fits, hi]
    · exact ⟨parsed, f, m, rfl, hf', hm, classifyLog_of_fatal hf' hm⟩
  have listed := TestLog.lists_iff.2 (Eq.refl parsed.failures)
  by_cases hc : code = 0
  · subst hc
    by_cases hx : parsed.Fails
    · refine ⟨.hiddenFailure, ⟨table.take 8, table.drop 9, rfl, ⟨rfl, parsed, rfl, hx⟩, ?_⟩, ?_⟩
      · simp [table, Fits, hi, hf]
      · exact ⟨0, parsed, _, rfl, rfl, listed, classifyLog_of_mismatch hi hf (by simp [hx])⟩
    · refine ⟨.passed, ⟨table.take 12, [], rfl, ⟨rfl, parsed, rfl, hx⟩, ?_⟩, ?_⟩
      · have hn : ∀ f ∈ parsed.functions, f.Fails → f.name ∉ noRerun := fun f hm h =>
          absurd ⟨f, hm, h⟩ hx
        simpa [table, Fits, hi, hf, hx] using hn
      · exact classifyLog_of_clean hi hf hx
  by_cases hx : parsed.Fails
  · by_cases hr : ∃ f ∈ parsed.functions, f.Fails ∧ f.name ∈ noRerun
    · obtain ⟨f, hf'⟩ := exists_isFirst hr
      refine ⟨.noRerunFailure, ⟨table.take 10, table.drop 11, rfl, ⟨parsed, rfl, hr⟩, ?_⟩, ?_⟩
      · simp [table, Fits, hi, hf, hc, hx]
      · exact ⟨parsed, f, rfl, hf', classifyLog_of_noRerun hf hc hf'⟩
    · refine ⟨.functionsFailed, ⟨table.take 11, table.drop 12, rfl,
        ⟨⟨code, rfl, hc⟩, parsed, rfl, hx⟩, ?_⟩, ?_⟩
      · simpa [table, Fits, hi, hf, hc, hx] using hr
      · exact ⟨parsed, _, rfl, listed,
          classifyLog_of_rerunnable hf hc hx fun f hm h hn => hr ⟨f, hm, h, hn⟩⟩
  · refine ⟨.missingFailure, ⟨table.take 9, table.drop 10, rfl,
      ⟨⟨code, rfl, hc⟩, parsed, rfl, hx⟩, ?_⟩, ?_⟩
    · simp [table, Fits, hi, hf, hc]
    · exact ⟨code, parsed, _, rfl, rfl, listed, classifyLog_of_mismatch hi hf (by simp [hc, hx])⟩

theorem exists_decides (noRerun : List String) (exit : Exit) (log : LogState) :
    ∃ row : Row, row.Decides noRerun exit log (classify noRerun exit log) := by
  cases exit with
  | timedOut => exact ⟨.timedOut, ⟨[], table.drop 1, rfl, rfl, by simp⟩, rfl⟩
  | abnormal code signal =>
    refine ⟨.abnormalExit, ⟨table.take 1, table.drop 2, rfl, ⟨code, signal, rfl⟩, ?_⟩, ?_⟩
    · simp [table, Fits]
    · exact ⟨code, signal, rfl, rfl⟩
  | exited code =>
    cases log with
    | missing =>
      exact ⟨.missingLog, ⟨table.take 4, table.drop 5, rfl, rfl, by simp [table, Fits]⟩, rfl⟩
    | unreadable fault =>
      refine ⟨.unreadableLog, ⟨table.take 5, table.drop 6, rfl, ⟨fault, rfl⟩, ?_⟩, ?_⟩
      · simp [table, Fits]
      · exact ⟨fault, rfl, rfl⟩
    | parsed parsed => exact exists_decides_parsed code parsed
    | notExpected =>
      by_cases hc : code = 0
      · subst hc
        refine ⟨.unloggedPass, ⟨table.take 2, table.drop 3, rfl, ⟨rfl, rfl⟩, ?_⟩, rfl⟩
        simp [table, Fits]
      · refine ⟨.unloggedFailure, ⟨table.take 3, table.drop 4, rfl, ⟨⟨code, rfl, hc⟩, rfl⟩, ?_⟩, ?_⟩
        · simp [table, Fits, hc]
        · exact ⟨code, rfl, if_neg (by simpa using hc)⟩

/-- An attempt is classified by the first row that fits. -/
theorem classify_eq_iff :
    classify noRerun exit log = k ↔ ∃ row : Row, row.Decides noRerun exit log k := by
  obtain ⟨row, hfirst, hgives⟩ := exists_decides noRerun exit log
  constructor
  · rintro rfl
    exact ⟨row, hfirst, hgives⟩
  · rintro ⟨row', hfirst', hgives'⟩
    cases hfirst.unique hfirst'
    exact hgives.unique hgives'

end Row

/-! ### The table read by its results -/

section Results

variable {noRerun : List String} {exit : Exit} {log : LogState}

namespace Credible

variable {code : Int} {parsed : TestLog}

theorem not_fatal (h : Credible noRerun code parsed) : ¬ parsed.Fatal := by
  rintro ⟨f, hf, m, hm, hs⟩
  exact h.unharmed f hf m hm hs

theorem code_eq_zero_iff (h : Credible noRerun code parsed) : code = 0 ↔ ¬ parsed.Fails := by
  rw [h.consistent, ← TestLog.failures_eq_nil, TestLog.failures_eq_nil_iff]

theorem not_mem_noRerun (h : Credible noRerun code parsed) :
    ∀ f ∈ parsed.functions, f.Fails → f.name ∉ noRerun := fun f hf hx =>
  h.rerunnable f hf (Log.FunctionResult.failed_iff.2 hx)

end Credible

theorem classify_eq_passed_iff : classify noRerun exit log = .passed ↔
    exit = .exited 0 ∧ (log = .notExpected ∨ ∃ parsed, log = .parsed parsed ∧
      parsed.functions ≠ [] ∧ ¬ parsed.Fatal ∧ ¬ parsed.Fails) := by
  constructor
  · intro h
    have hc : Conclusive noRerun exit log := classify_conclusive (by simp [h]) (by simp [h])
    obtain ⟨code, rfl, ⟨rfl, rfl⟩ | ⟨parsed, rfl, hp⟩⟩ := hc
    · exact ⟨rfl, Or.inl rfl⟩
    · have hx : ¬ parsed.Fails := by
        intro hx
        have hc : code ≠ 0 := fun hz => hp.code_eq_zero_iff.1 hz hx
        cases h.symm.trans (classifyLog_of_rerunnable hp.not_fatal hc hx hp.not_mem_noRerun)
      cases hp.code_eq_zero_iff.2 hx
      exact ⟨rfl, Or.inr ⟨parsed, rfl, hp.inhabited, hp.not_fatal, hx⟩⟩
  · rintro ⟨rfl, rfl | ⟨parsed, rfl, hi, hf, hx⟩⟩
    · rfl
    · exact classifyLog_of_clean hi hf hx

theorem classify_eq_functionsFailed_iff {fs : List TestCase} :
    classify noRerun exit log = .functionsFailed fs ↔
      ∃ code parsed, exit = .exited code ∧ code ≠ 0 ∧ log = .parsed parsed ∧
        parsed.functions ≠ [] ∧ ¬ parsed.Fatal ∧ parsed.Fails ∧
        (∀ f ∈ parsed.functions, f.Fails → f.name ∉ noRerun) ∧ parsed.Lists fs := by
  constructor
  · intro h
    have hc : Conclusive noRerun exit log := classify_conclusive (by simp [h]) (by simp [h])
    obtain ⟨code, rfl, ⟨rfl, rfl⟩ | ⟨parsed, rfl, hp⟩⟩ := hc
    · cases h
    · have hx : parsed.Fails := by
        by_contra hx
        cases hp.code_eq_zero_iff.2 hx
        cases h.symm.trans (classifyLog_of_clean hp.inhabited hp.not_fatal hx)
      have hc : code ≠ 0 := fun hz => hp.code_eq_zero_iff.1 hz hx
      have e := classifyLog_of_rerunnable hp.not_fatal hc hx hp.not_mem_noRerun
      refine ⟨code, parsed, rfl, hc, rfl, hp.inhabited, hp.not_fatal, hx, hp.not_mem_noRerun, ?_⟩
      exact TestLog.lists_iff.2 (Classification.functionsFailed.inj (h.symm.trans e))
  · rintro ⟨code, parsed, rfl, hc, rfl, -, hf, hx, hr, hl⟩
    rw [TestLog.lists_iff.1 hl]
    exact classifyLog_of_rerunnable hf hc hx hr

theorem classify_eq_executableFailed_iff {code : Int} :
    classify noRerun exit log = .executableFailed code ↔
      exit = .exited code ∧ code ≠ 0 ∧ log = .notExpected := by
  constructor
  · intro h
    cases exit with
    | timedOut => cases h
    | abnormal => cases h
    | exited code' =>
      cases log with
      | missing => cases h
      | unreadable => cases h
      | parsed => exact absurd h classifyLog_ne_executableFailed
      | notExpected =>
        by_cases hc : code' = 0
        · subst hc
          cases h
        · cases h.symm.trans (if_neg (by simpa using hc))
          exact ⟨rfl, hc, rfl⟩
  · rintro ⟨rfl, hc, rfl⟩
    exact if_neg (by simpa using hc)

theorem of_classify_noRerunFailure {function : String}
    (h : classify noRerun exit log = .crashed (.noRerunFailure function)) :
    ∃ code parsed, exit = .exited code ∧ code ≠ 0 ∧ log = .parsed parsed ∧ ¬ parsed.Fatal := by
  cases exit with
  | timedOut => cases h
  | abnormal => cases h
  | exited code =>
    cases log with
    | missing => cases h
    | unreadable => cases h
    | notExpected =>
      by_cases hc : code = 0
      · subst hc
        cases h
      · cases h.symm.trans (if_neg (by simpa using hc))
    | parsed parsed =>
      change classifyLog noRerun code parsed = _ at h
      have hi : parsed.functions ≠ [] := fun hi => by cases h.symm.trans (classifyLog_of_empty hi)
      have hf : ¬ parsed.Fatal := by
        intro hf
        obtain ⟨f, hf⟩ := exists_isFirst hf
        obtain ⟨m, hm⟩ := exists_isFirst hf.holds
        cases h.symm.trans (classifyLog_of_fatal hf hm)
      refine ⟨code, parsed, rfl, ?_, rfl, hf⟩
      rintro rfl
      by_cases hx : parsed.Fails
      · cases h.symm.trans (classifyLog_of_mismatch hi hf (by simp [hx]))
      · cases h.symm.trans (classifyLog_of_clean hi hf hx)

/-- The classification table is exact: what passes, what fails, with which cases,
and what crashes, for which reason and whether a rerun may still recover it. -/
theorem classification_table_exact (noRerun : List String) (exit : Exit) (log : LogState) :
    (classify noRerun exit log = .passed ↔
      exit = .exited 0 ∧ (log = .notExpected ∨ ∃ parsed, log = .parsed parsed ∧
        parsed.functions ≠ [] ∧ ¬ parsed.Fatal ∧ ¬ parsed.Fails)) ∧
    (∀ fs, classify noRerun exit log = .functionsFailed fs ↔
      ∃ code parsed, exit = .exited code ∧ code ≠ 0 ∧ log = .parsed parsed ∧
        parsed.functions ≠ [] ∧ ¬ parsed.Fatal ∧ parsed.Fails ∧
        (∀ f ∈ parsed.functions, f.Fails → f.name ∉ noRerun) ∧ parsed.Lists fs) ∧
    (∀ code, classify noRerun exit log = .executableFailed code ↔
      exit = .exited code ∧ code ≠ 0 ∧ log = .notExpected) ∧
    (∀ k, classify noRerun exit log = k ↔
      ∃ row : Row, IsFirst (Row.Fits noRerun exit log) Row.table row ∧
        row.Gives noRerun exit log k) ∧
    ∀ reason, classify noRerun exit log = .crashed reason →
      (reason.allowsRerun = false ↔ ∃ function, reason = .noRerunFailure function) ∧
      ((∃ function, reason = .noRerunFailure function) →
        ∃ code parsed, exit = .exited code ∧ code ≠ 0 ∧ log = .parsed parsed ∧
          ¬ parsed.Fatal) := by
  refine ⟨classify_eq_passed_iff, fun _ => classify_eq_functionsFailed_iff,
    fun _ => classify_eq_executableFailed_iff, fun _ => Row.classify_eq_iff, ?_⟩
  intro reason h
  refine ⟨CrashReason.allowsRerun_eq_false, ?_⟩
  rintro ⟨function, rfl⟩
  exact of_classify_noRerunFailure h

end Results

def setupFailure : TestLog :=
  ⟨none, [⟨"a", [⟨.fail, none, none, none, none⟩], [], none⟩,
    ⟨"init", [⟨.fail, none, none, none, none⟩], [⟨"qwarn", none, "odd"⟩], none⟩]⟩

theorem classification_table_exact_of_setup_failure :
    classify ["init"] (.exited 2) (.parsed setupFailure) = .crashed (.noRerunFailure "init") ∧
      ∃ code parsed, Exit.exited 2 = .exited code ∧ code ≠ 0 ∧
        LogState.parsed setupFailure = .parsed parsed ∧ ¬ parsed.Fatal := by
  have h : classify ["init"] (.exited 2) (.parsed setupFailure) =
      .crashed (.noRerunFailure "init") := by decide
  obtain ⟨-, -, -, -, hcrash⟩ :=
    classification_table_exact ["init"] (.exited 2) (.parsed setupFailure)
  exact ⟨h, (hcrash _ h).2 ⟨"init", rfl⟩⟩

/-- Where several rows fit the first one counts: the fatal message, and neither the
code of a success nor the function that cannot be rerun. -/
example : classify ["init"] (.exited 0) (.parsed ⟨none,
    [⟨"init", [⟨.fail, none, none, none, none⟩], [⟨"qfatal", none, "gone"⟩], none⟩]⟩) =
      .crashed (.fatalMessage "init" "gone") := by
  decide

end Retrial
