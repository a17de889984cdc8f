import Mathlib.Data.List.TakeWhile
import Retrial.Proofs.LifeCycle

/-!
# What attempts add to a command

The arguments of an attempt are read back as they were put together: splitting
them gives the command that was split off the command line, with what the
attempt added behind its own test arguments. No wrapper keeps any of it to
itself, and nothing of the command line is lost.
-/

set_option autoImplicit false

namespace Retrial

open History

namespace Command

/-- The command that a command line stands for. The arguments of a wrapper end at
the first separator, or with the command line. -/
inductive Reads (registry : Registry) : List String → Command → Prop
  | plain {program : String} (args : List String) : registry.kindOf? program = none →
      Reads registry (program :: args) ⟨none, some program, args⟩
  | passthrough {program : String} (binary : String) (args : List String) :
      registry.kindOf? program = some .passthrough →
      Reads registry (program :: binary :: args)
        ⟨some ⟨program, .passthrough, []⟩, some binary, args⟩
  | unseparated {program : String} {own : List String} :
      registry.kindOf? program = some .separator → separatorArg ∉ own →
      Reads registry (program :: own) ⟨some ⟨program, .separator, own⟩, none, []⟩
  | separated {program : String} {own : List String} (args : List String) :
      registry.kindOf? program = some .separator → separatorArg ∉ own →
      Reads registry (program :: (own ++ separatorArg :: args))
        ⟨some ⟨program, .separator, own⟩, none, args⟩

variable {registry : Registry} {line : List String} {c : Command}

theorem ne_separator_of_mem {own : List String} (h : separatorArg ∉ own) :
    ∀ a ∈ own, (a != separatorArg) = true := by
  intro a ha
  rw [bne_iff_ne]
  rintro rfl
  exact h ha

theorem reads_of_split (h : split registry line = .ok c) : Reads registry line c := by
  unfold split at h
  split at h
  · cases h
  · next program args =>
    split at h
    · next hk =>
      cases h
      exact .plain args hk
    · next hk =>
      split at h
      · cases h
      · next binary args =>
        cases h
        exact .passthrough binary args hk
    · next hk =>
      by_cases hs : separatorArg ∈ args
      · obtain ⟨own, rest, rfl, ho⟩ := List.eq_append_cons_of_mem hs
        have hp := ne_separator_of_mem ho
        rw [List.takeWhile_append_of_pos hp, List.dropWhile_append_of_pos hp] at h
        have hc : c = ⟨some ⟨program, .separator, own⟩, none, rest⟩ := by
          simpa using (Except.ok.inj h).symm
        rw [hc]
        exact .separated rest hk ho
      · have hp := ne_separator_of_mem hs
        have ht : args.takeWhile (· != separatorArg) = args := List.takeWhile_eq_self_iff.2 hp
        have hd : args.dropWhile (· != separatorArg) = [] := List.dropWhile_eq_nil_iff.2 hp
        rw [ht, hd] at h
        cases h
        exact .unseparated hk hs

theorem split_of_reads (h : Reads registry line c) : split registry line = .ok c := by
  cases h with
  | plain args hk => simp only [split, hk]
  | passthrough binary args hk => simp only [split, hk]
  | unseparated hk ho =>
    have hp := ne_separator_of_mem ho
    simp only [split, hk, List.takeWhile_eq_self_iff.2 hp, List.dropWhile_eq_nil_iff.2 hp,
      List.drop_nil]
  | separated args hk ho =>
    have hp := ne_separator_of_mem ho
    simp [split, hk, List.takeWhile_append_of_pos hp, List.dropWhile_append_of_pos hp]

/-- The arguments of an attempt behind a wrapper: a separator stands in front of
those for the test binary, if there are any. -/
theorem args_behind_wrapper (program : String) (own args : List String) (name : Option String)
    (a : Additions) :
    let i : Invocation := ⟨⟨some ⟨program, .separator, own⟩, none, args⟩, name⟩
    i.args a = program :: (own ++ match args ++ i.injected a with
      | [] => []
      | first :: rest => separatorArg :: first :: rest) := by
  intro i
  have hl : Invocation.leadArgs i.command = program :: own := by simp [i, Invocation.leadArgs]
  have hs : i.command.hasSeparator = true := rfl
  rw [Invocation.args, hl, hs]
  change program :: own ++ _ ++ (args ++ i.injected a) = _
  cases args ++ i.injected a with
  | nil => simp
  | cons first rest => simp

theorem Reads.args (h : Reads registry line c) (name : Option String) (a : Additions) :
    Reads registry (Invocation.args ⟨c, name⟩ a)
      { c with testArgs := c.testArgs ++ Invocation.injected ⟨c, name⟩ a } := by
  cases h with
  | plain args hk => exact .plain _ hk
  | passthrough binary args hk => exact .passthrough binary _ hk
  | unseparated hk ho | separated args hk ho =>
    rw [args_behind_wrapper]
    generalize _ ++ Invocation.injected _ a = tail
    cases tail with
    | nil => simpa using Reads.unseparated hk ho
    | cons first rest => exact .separated _ hk ho

end Command

namespace Environment

variable {base env : Environment} {key value : String} {overlay : List (String × String)}

/-- An environment with an overlay on top: the overlay decides the values of its
own names, every other variable stays as it was, and names that were not there
before follow behind the others. -/
structure Overlaid (base : Environment) (overlay : List (String × String)) (env : Environment) :
    Prop where
  names : env.map Prod.fst =
    base.map Prod.fst ++ (overlay.map Prod.fst).filter (· ∉ base.map Prod.fst)
  values : ∀ key, env.get? key = (overlay.lookup key).or (base.get? key)
  others : env.filter (fun p => p.1 ∉ overlay.map Prod.fst) =
    base.filter fun p => p.1 ∉ overlay.map Prod.fst

theorem any_name_iff : base.any (fun p => p.1 == key) = true ↔ key ∈ base.map Prod.fst := by
  simp

theorem get?_cons (p : String × String) :
    get? (p :: base) key = if key = p.1 then some p.2 else base.get? key := by
  unfold get?
  obtain ⟨name, text⟩ := p
  by_cases h : key = name
  · simp [h]
  · rw [List.lookup_cons, beq_eq_false_iff_ne.2 h, if_neg h]

theorem get?_eq_none_iff : base.get? key = none ↔ key ∉ base.map Prod.fst := by
  induction base with
  | nil => simp [get?]
  | cons p base ih =>
    rw [get?_cons, List.map_cons, List.mem_cons, not_or]
    by_cases h : key = p.1
    · simp [h]
    · simp only [h, if_false, ih, not_false_eq_true, true_and]

theorem get?_replaced (other : String) :
    get? (base.map fun p => if p.1 == key then (key, value) else p) other =
      if other = key then (base.get? key).map fun _ => value else base.get? other := by
  induction base with
  | nil => simp [get?]
  | cons p base ih =>
    rw [List.map_cons, get?_cons, get?_cons, get?_cons, ih]
    by_cases hn : p.1 = key
    · by_cases ho : other = key <;> simp [hn, ho]
    · by_cases ho : other = key
      · simp [hn, ho, Ne.symm hn]
      · simp [hn, ho]

theorem names_set : (base.set key value).map Prod.fst =
    base.map Prod.fst ++ [key].filter (· ∉ base.map Prod.fst) := by
  unfold set
  by_cases h : key ∈ base.map Prod.fst
  · have hk : ∀ p ∈ base, (Prod.fst ∘ fun p => if p.1 == key then (key, value) else p) p = p.1 := by
      intro p _
      by_cases hp : p.1 = key <;> simp [hp]
    rw [if_pos (any_name_iff.2 h), List.map_map, List.map_congr_left hk]
    simp [h]
  · rw [if_neg (mt any_name_iff.1 h)]
    simp [h]

theorem get?_set (other : String) : (base.set key value).get? other =
    if other = key then some value else base.get? other := by
  unfold set
  by_cases h : key ∈ base.map Prod.fst
  · obtain ⟨before, hb⟩ := Option.ne_none_iff_exists'.1 (mt get?_eq_none_iff.1 (not_not.2 h))
    rw [if_pos (any_name_iff.2 h), get?_replaced other, hb]
    rfl
  · rw [if_neg (mt any_name_iff.1 h), get?, List.lookup_append]
    change (base.get? other).or (get? [(key, value)] other) = _
    rw [get?_cons]
    by_cases ho : other = key
    · simp [ho, get?_eq_none_iff.2 h]
    · simp [ho, get?]

theorem others_set {names : List String} (h : key ∈ names) :
    (base.set key value).filter (fun p => p.1 ∉ names) = base.filter fun p => p.1 ∉ names := by
  unfold set
  by_cases hk : base.any (fun p => p.1 == key) = true
  · rw [if_pos hk]
    clear hk
    induction base with
    | nil => rfl
    | cons p base ih =>
      by_cases hp : p.1 = key
      · simpa [hp, h] using ih
      · by_cases hn : p.1 ∈ names
        · simpa [hp, hn] using ih
        · simpa [hp, hn] using ih
  · rw [if_neg hk]
    simp [h]

theorem mem_names_set {other : String} :
    other ∈ (base.set key value).map Prod.fst ↔ other ∈ base.map Prod.fst ∨ other = key := by
  rw [names_set, List.mem_append, List.mem_filter, List.mem_singleton]
  by_cases h : other ∈ base.map Prod.fst
  · simp only [h, true_or]
  · simp only [h, false_or, not_false_eq_true, decide_true, and_true]

theorem names_setAll (h : (overlay.map Prod.fst).Nodup) : (base.setAll overlay).map Prod.fst =
    base.map Prod.fst ++ (overlay.map Prod.fst).filter (· ∉ base.map Prod.fst) := by
  unfold setAll
  induction overlay generalizing base with
  | nil => simp
  | cons p overlay ih =>
    rw [List.map_cons, List.nodup_cons] at h
    have hk : ∀ name ∈ overlay.map Prod.fst,
        decide (name ∉ (base.set p.1 p.2).map Prod.fst) = decide (name ∉ base.map Prod.fst) := by
      intro name hm
      have hp : name ≠ p.1 := by
        rintro rfl
        exact h.1 hm
      rw [decide_eq_decide, mem_names_set, not_or]
      exact and_iff_left hp
    rw [List.foldl_cons, ih h.2, List.filter_congr hk, names_set, List.append_assoc,
      ← List.filter_append, List.map_cons, List.singleton_append]

theorem get?_setAll (h : (overlay.map Prod.fst).Nodup) :
    (base.setAll overlay).get? key = (overlay.lookup key).or (base.get? key) := by
  unfold setAll
  induction overlay generalizing base with
  | nil => simp
  | cons p overlay ih =>
    rw [List.map_cons, List.nodup_cons] at h
    rw [List.foldl_cons, ih h.2, get?_set]
    change _ = (get? (p :: overlay) key).or _
    rw [get?_cons]
    by_cases hk : key = p.1
    · have hn : overlay.lookup key = none := get?_eq_none_iff.2 (hk ▸ h.1)
      rw [if_pos hk, if_pos hk, hn, Option.none_or, Option.some_or]
    · rw [if_neg hk, if_neg hk]
      rfl

theorem others_setAll {names : List String} (h : overlay.map Prod.fst ⊆ names) :
    (base.setAll overlay).filter (fun p => p.1 ∉ names) = base.filter fun p => p.1 ∉ names := by
  unfold setAll
  induction overlay generalizing base with
  | nil => rfl
  | cons p overlay ih =>
    rw [List.map_cons, List.cons_subset] at h
    rw [List.foldl_cons, ih h.2, others_set h.1]

theorem overlaid_setAll (h : (overlay.map Prod.fst).Nodup) :
    Overlaid base overlay (base.setAll overlay) where
  names := names_setAll h
  values _ := get?_setAll h
  others := others_setAll (List.Subset.refl _)

end Environment

namespace Invocation

theorem nodup_verboseEnv : (verboseEnv.map Prod.fst).Nodup := by decide

theorem overlaid_env (base : Environment) (verbose : Bool) :
    Environment.Overlaid base (if verbose then verboseEnv else []) (env base verbose) := by
  cases verbose with
  | false => exact Environment.overlaid_setAll List.nodup_nil
  | true => exact Environment.overlaid_setAll nodup_verboseEnv

theorem build_eq_ok {c : Command} {wantsLog : Bool} {rules : List ArtifactRule} {i : Invocation}
    (h : build c wantsLog rules = .ok i) : i.command = c ∧ i.wantsLog = wantsLog := by
  unfold build at h
  cases wantsLog with
  | false =>
    cases h
    exact ⟨rfl, rfl⟩
  | true =>
    cases hr : ArtifactRule.resolve rules c with
    | error fault => simp [hr, Except.map] at h
    | ok name =>
      simp only [hr, Except.map, if_true] at h
      cases h
      exact ⟨rfl, rfl⟩

end Invocation

/-- What the arguments of a request have behind those of the command line: they ask
for a log, and in a rerun for its test case, verbosely where its ticket says so. -/
def Request.additions (q : Request) : List String :=
  (q.logPath.elim [] fun path => ["-o", path ++ ",xml", "-o", "-,txt"]) ++
    match q.kind with
    | .fullRun => []
    | .rerun c ticket => (if ticket.verbose then Invocation.verboseArgs else []) ++ [c.text]

def Request.overlay (q : Request) : List (String × String) :=
  match q.kind with
  | .fullRun => []
  | .rerun _ ticket => if ticket.verbose then Invocation.verboseEnv else []

variable {Memory : Type} {s : Setup} {x : Executor Memory} {listen : Listener}
  {files : Files} {memory : Memory} {registry : Registry} {line : List String} {c : Command}
  {wantsLog : Bool} {rules : List ArtifactRule} {q : Request}

theorem Setup.isSome_logPath (n : Nat) (kind : AttemptKind) :
    (s.request n kind).logPath.isSome = s.invocation.wantsLog := by
  simp [Setup.request, Setup.namer?, Invocation.wantsLog]

theorem Setup.injected_request (n : Nat) (kind : AttemptKind) :
    s.invocation.injected ⟨(s.request n kind).logPath, kind.verbose, kind.selection⟩ =
      (s.request n kind).additions := by
  have hl := s.isSome_logPath n kind
  have hk : (s.request n kind).kind = kind := rfl
  unfold Invocation.injected Request.additions
  rw [← hl, hk]
  cases (s.request n kind).logPath <;> cases kind <;> rfl

theorem Setup.overlay_request (n : Nat) (kind : AttemptKind) :
    (s.request n kind).overlay = if kind.verbose then Invocation.verboseEnv else [] := by
  cases kind with
  | fullRun => rfl
  | rerun c ticket => rfl

theorem Setup.reads_request (h : Command.Reads registry line s.invocation.command) (n : Nat)
    (kind : AttemptKind) :
    Command.Reads registry (s.request n kind).args { s.invocation.command with
      testArgs := s.invocation.command.testArgs ++ (s.request n kind).additions } := by
  rw [← s.injected_request n kind]
  exact h.args s.invocation.logBaseName _

/-- Where nothing is added, the arguments are the command line itself, without a
separator that nothing stands behind. -/
theorem Command.Reads.args_of_injected_eq_nil (h : Command.Reads registry line c)
    {name : Option String} {a : Additions} (hn : Invocation.injected ⟨c, name⟩ a = []) :
    Invocation.args ⟨c, name⟩ a =
      if c.hasSeparator = true ∧ line = Invocation.leadArgs c ++ [separatorArg] then
        Invocation.leadArgs c
      else line := by
  cases h with
  | plain args _ | passthrough binary args _ =>
    simp [Invocation.args, hn, Invocation.leadArgs, Command.hasSeparator]
  | unseparated _ _ =>
    simp [Invocation.args, hn, Invocation.leadArgs, Command.hasSeparator]
  | separated args _ _ =>
    cases args <;> simp [Invocation.args, hn, Invocation.leadArgs, Command.hasSeparator]

/-- Every attempt of a run passes to the test binary what its command line had for
it, with what the attempt adds behind that and nothing else. The wrapper
finds its own arguments as they were. -/
theorem additions_reach_test_binary (hc : Command.split registry line = .ok c)
    (hi : Invocation.build c wantsLog rules = .ok s.invocation)
    (hq : q ∈ (supervise s x listen files memory).requests) :
    q.logPath.isSome = wantsLog ∧
    Command.split registry q.args = .ok { c with testArgs := c.testArgs ++ q.additions } ∧
    Environment.Overlaid s.env q.overlay q.env ∧
    (q.overlay = [] → q.env = s.env) ∧
    (q.additions = [] → q.args =
      if c.hasSeparator = true ∧ line = Invocation.leadArgs c ++ [Command.separatorArg] then
        Invocation.leadArgs c
      else line) := by
  obtain ⟨es, l, step, -, rfl⟩ := attempting_of_mem hq
  obtain ⟨rfl, hw⟩ := Invocation.build_eq_ok hi
  have hr := Command.reads_of_split hc
  have hlog := (s.isSome_logPath ((History.requests es).length + 1) step.kind).trans hw
  have hargs := Command.split_of_reads
    (s.reads_request hr ((History.requests es).length + 1) step.kind)
  have henv := Invocation.overlaid_env s.env step.kind.verbose
  rw [← s.overlay_request ((History.requests es).length + 1) step.kind] at henv
  apply And.intro hlog
  apply And.intro hargs
  apply And.intro henv
  apply And.intro
  · intro ho
    rw [s.overlay_request] at ho
    show Invocation.env s.env step.kind.verbose = s.env
    cases hv : step.kind.verbose with
    | false => rfl
    | true =>
      rw [hv] at ho
      cases ho
  · intro hn
    rw [← s.injected_request] at hn
    exact hr.args_of_injected_eq_nil hn

namespace Rehearsal

/-- A wrapper with a separator, whose test arguments hold another one. Of two reruns
the second is the last. -/
def wrappedSetup : Setup :=
  ⟨⟨⟨some ⟨"androidtestrunner", .separator, ["--apk", "t.apk"]⟩, none, ["-x", "--", "y"]⟩,
    some "t"⟩,
    { Policy.standard with maxRepeats := 2 }, ".", .fixed, none, [("HOME", "/h")], none, none⟩

end Rehearsal

theorem additions_reach_test_binary_behind_wrapper :
    ∃ q ∈ (supervise Rehearsal.wrappedSetup (Rehearsal.functions ⟨0⟩) .willing .empty
        [⟨"a", none, ["fail", "fail", "pass"]⟩]).requests,
      q.kind = .rerun ⟨"a", none⟩ ⟨2, 2, true⟩ ∧
      q.additions = ["-o", "./t.xml,xml", "-o", "-,txt", "-v2", "-maxwarnings", "0", "a"] ∧
      Command.split ⟨["qemu"], ["androidtestrunner"]⟩ q.args =
        .ok ⟨some ⟨"androidtestrunner", .separator, ["--apk", "t.apk"]⟩, none,
          ["-x", "--", "y"] ++ q.additions⟩ ∧
      q.env.get? "QT_LOGGING_RULES" = some "*.debug=true" ∧ q.env.get? "HOME" = some "/h" := by
  have hr : (supervise Rehearsal.wrappedSetup (Rehearsal.functions ⟨0⟩) .willing .empty
      [⟨"a", none, ["fail", "fail", "pass"]⟩]).requests =
        [Rehearsal.wrappedSetup.request 1 .fullRun,
          Rehearsal.wrappedSetup.request 2 (.rerun ⟨"a", none⟩ ⟨1, 2, false⟩),
          Rehearsal.wrappedSetup.request 3 (.rerun ⟨"a", none⟩ ⟨2, 2, true⟩)] := by
    rw [supervise_within 3 rfl rfl (Setup.makeLogDirectory_here rfl rfl) rfl]
    rfl
  have hq : Rehearsal.wrappedSetup.request 3 (.rerun ⟨"a", none⟩ ⟨2, 2, true⟩) ∈
      (supervise Rehearsal.wrappedSetup (Rehearsal.functions ⟨0⟩) .willing .empty
        [⟨"a", none, ["fail", "fail", "pass"]⟩]).requests := by simp [hr]
  have hs : Command.split ⟨["qemu"], ["androidtestrunner"]⟩
      ["androidtestrunner", "--apk", "t.apk", "--", "-x", "--", "y"] =
        .ok Rehearsal.wrappedSetup.invocation.command := rfl
  have hb : Invocation.build Rehearsal.wrappedSetup.invocation.command true [.packageOption] =
      .ok Rehearsal.wrappedSetup.invocation := rfl
  obtain ⟨-, hargs, henv, -⟩ := additions_reach_test_binary hs hb hq
  have hrules := henv.values "QT_LOGGING_RULES"
  have hhome := henv.values "HOME"
  exact ⟨_, hq, rfl, rfl, hargs, hrules, hhome⟩

end Retrial
