import Retrial.Proofs.Additions
import Retrial.Proofs.Files.Joining
import Retrial.Proofs.Files.Stems

/-!
# The artifact that logs are named after

Behind a separator wrapper logs take their name from the first package on the
wrapper's own command line whose file name has a stem; otherwise from the test
binary. What the tests are given is never looked at. Such a name is one segment of a
path, so every log path made of it leads straight into the log directory.
-/

set_option autoImplicit false

namespace Retrial

theorem Command.hasSeparator_iff {c : Command} :
    c.hasSeparator = true ↔ ∃ w, c.wrapper = some w ∧ w.kind = .separator := by
  unfold hasSeparator
  cases c.wrapper <;> simp

namespace ArtifactRule

def GivesValue (option arg : String) (following : Option String) (value : String) : Prop :=
  arg = option ++ "=" ++ value ∨ arg = option ∧ following = some value

def NamesPackage (args : List String) (i : Nat) (name : String) : Prop :=
  ∃ option ∈ ["--apk", "--aab"], ∃ arg value, args[i]? = some arg ∧
    GivesValue option arg args[i + 1]? value ∧ Path.HasStem value name

def FirstPackage (args : List String) (i : Nat) (name : String) : Prop :=
  NamesPackage args i name ∧ ∀ j < i, ∀ other, ¬ NamesPackage args j other

variable {option arg value name : String} {following : Option String} {args : List String} {i : Nat}

theorem optionValue?_eq_some_iff :
    optionValue? option arg following = some value ↔ GivesValue option arg following value := by
  have hne : ∀ text, option ++ "=" ++ text ≠ option := by
    intro text h
    simpa using congrArg (·.toList.length) h
  unfold optionValue? GivesValue
  by_cases ho : arg = option
  · rw [if_pos (by simpa using ho), ho]
    simp [Ne.symm (hne value)]
  · rw [if_neg (by simpa using ho)]
    by_cases hp : (option.toList ++ ['=']).isPrefixOf arg.toList = true
    · obtain ⟨rest, hr⟩ := List.isPrefixOf_iff_prefix.1 hp
      rw [if_pos hp, Option.some.injEq, ← String.toList_inj, ← String.toList_inj, ← hr]
      simp [ho]
    · rw [if_neg hp]
      simp only [reduceCtorEq, ho, false_and, or_false, false_iff]
      rintro rfl
      exact hp (List.isPrefixOf_iff_prefix.2 ⟨value.toList, by simp⟩)

theorem givesValue_apk_aab {value' : String} (h : GivesValue "--apk" arg following value) :
    ¬ GivesValue "--aab" arg following value' := by
  have ha : arg.toList.take 5 = "--apk".toList := by
    obtain rfl | ⟨rfl, -⟩ := h <;> simp
  intro h'
  have hb : arg.toList.take 5 = "--aab".toList := by
    obtain rfl | ⟨rfl, -⟩ := h' <;> simp
  exact absurd (ha.symm.trans hb) (by decide)

theorem package_at_head : (packageOptions.findSome? fun option =>
      (optionValue? option arg following).bind Path.artifactStem?) = some name ↔
    ∃ option ∈ ["--apk", "--aab"], ∃ value, GivesValue option arg following value ∧
      Path.HasStem value name := by
  have ho : ∀ option, (optionValue? option arg following).bind Path.artifactStem? = some name ↔
      ∃ value, GivesValue option arg following value ∧ Path.HasStem value name := by
    intro option
    simp only [Option.bind_eq_some_iff, optionValue?_eq_some_iff, Path.artifactStem?_eq_some_iff]
  constructor
  · intro h
    obtain ⟨option, hm, hv⟩ := List.exists_of_findSome?_eq_some h
    exact ⟨option, hm, (ho option).1 hv⟩
  · rintro ⟨option, hm, hv⟩
    simp only [List.mem_cons, List.not_mem_nil, or_false] at hm
    obtain rfl | rfl := hm
    · rw [packageOptions, List.findSome?_cons, (ho _).2 hv]
    · have hnone : optionValue? "--apk" arg following = none := by
        rw [Option.eq_none_iff_forall_ne_some]
        intro value h
        obtain ⟨value', hv', -⟩ := hv
        exact givesValue_apk_aab (optionValue?_eq_some_iff.1 h) hv'
      rw [packageOptions, List.findSome?_cons, hnone, Option.bind_none, List.findSome?_cons,
        (ho _).2 hv]

@[simp] theorem namesPackage_nil : ¬ NamesPackage [] i name := by
  rintro ⟨-, -, arg, -, h, -⟩
  simp at h

theorem namesPackage_zero {rest : List String} : NamesPackage (arg :: rest) 0 name ↔
    (packageOptions.findSome? fun option =>
      (optionValue? option arg rest.head?).bind Path.artifactStem?) = some name := by
  rw [package_at_head]
  simp [NamesPackage, List.head?_eq_getElem?]

@[simp] theorem namesPackage_succ {rest : List String} :
    NamesPackage (arg :: rest) (i + 1) name ↔ NamesPackage rest i name := Iff.rfl

theorem packageName?_eq_some_iff :
    packageName? args = some name ↔ ∃ i, FirstPackage args i name := by
  induction args with
  | nil => simp [packageName?, FirstPackage]
  | cons arg rest ih =>
    rw [packageName?]
    split
    · next first hf =>
      constructor
      · rintro ⟨⟩
        exact ⟨0, namesPackage_zero.2 hf, fun j hj => absurd hj (Nat.not_lt_zero j)⟩
      · rintro ⟨i, hn, hb⟩
        cases i with
        | zero => exact hf.symm.trans (namesPackage_zero.1 hn)
        | succ i => exact absurd (namesPackage_zero.2 hf) (hb 0 (Nat.succ_pos i) first)
    · next hf =>
      have hz : ∀ other, ¬ NamesPackage (arg :: rest) 0 other := by
        intro other h
        cases hf.symm.trans (namesPackage_zero.1 h)
      rw [ih]
      constructor
      · rintro ⟨i, hn, hb⟩
        refine ⟨i + 1, hn, fun j hj other => ?_⟩
        cases j with
        | zero => exact hz other
        | succ j => exact hb j (Nat.lt_of_succ_lt_succ hj) other
      · rintro ⟨i, hn, hb⟩
        cases i with
        | zero => exact absurd hn (hz name)
        | succ i => exact ⟨i, hn, fun j hj => hb (j + 1) (Nat.succ_lt_succ hj)⟩

theorem packageName?_eq_none_iff :
    packageName? args = none ↔ ∀ i name, ¬ NamesPackage args i name := by
  induction args with
  | nil => simp [packageName?]
  | cons arg rest ih =>
    rw [packageName?]
    split
    · next first hf =>
      constructor
      · rintro ⟨⟩
      · exact fun h => absurd (namesPackage_zero.2 hf) (h 0 first)
    · next hf =>
      rw [ih]
      constructor
      · intro h i name hn
        cases i with
        | zero => cases hf.symm.trans (namesPackage_zero.1 hn)
        | succ i => exact h i name hn
      · exact fun h i => h (i + 1)

theorem resolve_standard_of_separator {c : Command} {w : Wrapper} (hw : c.wrapper = some w)
    (hk : w.kind = .separator) : resolve standard c =
      (packageName? w.args).elim
        (.error (.artifactNotFound w.program "an --apk or --aab wrapper argument")) .ok := by
  obtain ⟨program, kind, args⟩ := w
  cases hk
  have hp : c.program = program := by simp [Command.program, hw]
  simp only [standard, resolve, lookup, hw]
  cases packageName? args with
  | none => simp [hp]
  | some name => rfl

theorem resolve_standard_of_binary {c : Command} (h : c.hasSeparator = false) :
    resolve standard c = match c.testBinary with
      | none => .error (.artifactNotFound c.program "a test binary")
      | some binary => (Path.artifactStem? binary).elim
          (.error (.artifactNotFound c.program "a test binary file name")) .ok := by
  have hl : packageOption.lookup c = .notApplicable := by
    obtain ⟨_ | ⟨program, _ | _, own⟩, binary, testArgs⟩ := c
    case none => rfl
    case some.passthrough => rfl
    case some.separator => simp [Command.hasSeparator] at h
  rw [standard, resolve, hl]
  cases hb : c.testBinary with
  | none => simp [resolve, lookup, hb]
  | some binary =>
    simp only [resolve, lookup, hb]
    cases Path.artifactStem? binary <;> rfl

theorem resolve_standard_congr {c c' : Command} (hw : c'.wrapper = c.wrapper)
    (hb : c'.testBinary = c.testBinary) : resolve standard c' = resolve standard c := by
  simp only [standard, resolve, lookup, Command.program, hw, hb]

section Separator

variable {c : Command} {w : Wrapper}

theorem resolve_separator_eq_ok_iff (hw : c.wrapper = some w) (hk : w.kind = .separator) :
    resolve standard c = .ok name ↔ ∃ i, FirstPackage w.args i name := by
  rw [resolve_standard_of_separator hw hk, ← packageName?_eq_some_iff]
  cases packageName? w.args <;> simp

theorem resolve_separator_eq_error_iff (hw : c.wrapper = some w) (hk : w.kind = .separator) :
    resolve standard c =
        .error (.artifactNotFound w.program "an --apk or --aab wrapper argument") ↔
      ∀ i name, ¬ NamesPackage w.args i name := by
  rw [resolve_standard_of_separator hw hk, ← packageName?_eq_none_iff]
  cases packageName? w.args <;> simp

end Separator

section Binary

variable {c : Command}

theorem resolve_binary_eq_ok_iff (hs : c.hasSeparator = false) : resolve standard c = .ok name ↔
    ∃ binary, c.testBinary = some binary ∧ Path.HasStem binary name := by
  rw [resolve_standard_of_binary hs]
  cases c.testBinary with
  | none => simp
  | some binary =>
    simp only [← Path.artifactStem?_eq_some_iff]
    cases hp : Path.artifactStem? binary <;> simp [hp]

theorem resolve_binary_eq_error_iff (hs : c.hasSeparator = false) :
    (∃ expected, resolve standard c = .error (.artifactNotFound c.program expected)) ↔
      ∀ binary name, c.testBinary = some binary → ¬ Path.HasStem binary name := by
  rw [resolve_standard_of_binary hs]
  cases c.testBinary with
  | none => simp
  | some binary =>
    have hb : (∀ path name, some binary = some path → ¬ Path.HasStem path name) ↔
        ∀ name, Path.artifactStem? binary ≠ some name := by
      simp only [ne_eq, Path.artifactStem?_eq_some_iff]
      exact ⟨fun h name => h binary name rfl, by rintro h _ name ⟨⟩; exact h name⟩
    rw [hb]
    cases hp : Path.artifactStem? binary <;> simp [hp]

end Binary

theorem hasStem_of_resolve {c : Command} (h : resolve standard c = .ok name) :
    ∃ path, Path.HasStem path name := by
  cases hs : c.hasSeparator with
  | true =>
    obtain ⟨w, hw, hk⟩ := Command.hasSeparator_iff.1 hs
    obtain ⟨i, ⟨option, -, arg, value, -, -, hv⟩, -⟩ := (resolve_separator_eq_ok_iff hw hk).1 h
    exact ⟨value, hv⟩
  | false =>
    obtain ⟨binary, -, hb⟩ := (resolve_binary_eq_ok_iff hs).1 h
    exact ⟨binary, hb⟩

end ArtifactRule

theorem slash_notMem_toDigits (n : Nat) : '/' ∉ Nat.toDigits 10 n := by
  intro h
  exact absurd (Nat.isDigit_of_mem_toDigits (by decide) (by decide) h) (by decide)

theorem Moment.slash_notMem_stamp (m : Moment) : '/' ∉ m.stamp.toList := by
  have hp : ∀ width n, '/' ∉ (padded width n).toList := by
    intro width n
    simp [padded, slash_notMem_toDigits]
  have hy : '/' ∉ (yearText m.year).toList := by
    unfold yearText
    split
    · simp [hp]
    · split <;> simp [hp]
  simp [stamp, hy, hp]

/-- A naming whose stamp is no path. A stamp that tells a moment is none. -/
def LogNaming.IsFlat : LogNaming → Prop
  | .unique stamp => '/' ∉ stamp.toList
  | .fixed => True

theorem LogNaming.isFlat_ofVariable (value : Option String) (start : Moment) :
    (ofVariable value start).IsFlat := by
  unfold ofVariable
  split
  · trivial
  · exact start.slash_notMem_stamp

namespace LogNamer

variable {a : LogNamer}

theorem slash_notMem_fileName_iff (hb : '/' ∉ a.baseName.toList) (n : Nat) :
    '/' ∉ (a.fileName n).toList ↔ a.naming.IsFlat := by
  cases hn : a.naming with
  | unique stamp =>
    rw [toList_fileName hn]
    simp [LogNaming.IsFlat, hb, slash_notMem_toDigits]
  | fixed => simp [LogNaming.IsFlat, fileName, hn, hb]

theorem fileName_proper (n : Nat) : a.fileName n ∉ ["", ".", ".."] := by
  have hl : 2 < (a.fileName n).toList.length := by
    cases hn : a.naming with
    | unique stamp =>
      rw [toList_fileName hn]
      simp
      omega
    | fixed => simp [fileName, hn]
  intro h
  simp only [List.mem_cons, List.not_mem_nil, or_false] at h
  obtain h | h | h := h <;> rw [h] at hl <;> exact absurd hl (by decide)

/-- Logs of an artifact whose name is no path lie straight in their directory, exactly
if the stamp is no path either. -/
theorem directlyIn_iff (hb : '/' ∉ a.baseName.toList) (n : Nat) :
    Path.DirectlyIn a.directory (a.path n) (a.fileName n) ↔ a.naming.IsFlat := by
  rw [← slash_notMem_fileName_iff hb n]
  constructor
  · exact fun h => h.slash
  · exact fun h => Path.directlyIn_join a.directory h (fileName_proper n)

end LogNamer

namespace Invocation

variable {c : Command} {rules : List ArtifactRule} {name : String}

theorem build_eq_ok_iff : build c true rules = .ok ⟨c, some name⟩ ↔
    ArtifactRule.resolve rules c = .ok name := by
  simp only [build, if_true]
  cases ArtifactRule.resolve rules c <;> simp [Except.map]

theorem build_eq_error_iff {fault : InvocationFault} : build c true rules = .error fault ↔
    ArtifactRule.resolve rules c = .error fault := by
  simp only [build, if_true]
  cases ArtifactRule.resolve rules c <;> simp [Except.map]

theorem map_logBaseName_build (c : Command) (rules : List ArtifactRule) :
    (build c true rules).map (·.logBaseName) = (ArtifactRule.resolve rules c).map some := by
  simp only [build, if_true]
  cases ArtifactRule.resolve rules c <;> rfl

theorem resolve_of_build {i : Invocation} (h : build c true rules = .ok i)
    (hn : i.logBaseName = some name) : ArtifactRule.resolve rules c = .ok name := by
  obtain ⟨rfl, -⟩ := build_eq_ok h
  exact build_eq_ok_iff.1 (h.trans (by rw [← hn]))

end Invocation

theorem Command.takeWhile_own (own args : List String) :
    (own ++ separatorArg :: args).takeWhile (· != separatorArg) =
      own.takeWhile (· != separatorArg) := by
  induction own with
  | nil => simp
  | cons arg own ih => simp only [List.cons_append, List.takeWhile_cons, ih]

theorem Command.split_behind_separator {registry : Registry} {program : String}
    {own args : List String} {c : Command} (hs : c.hasSeparator = true)
    (h : split registry (program :: (own ++ separatorArg :: args)) = .ok c) (args' : List String) :
    ∃ testArgs, split registry (program :: (own ++ separatorArg :: args')) =
      .ok { c with testArgs := testArgs } := by
  simp only [split, takeWhile_own] at h ⊢
  split at h
  · cases h
    cases hs
  · split at h
    · cases h
    · cases h
      cases hs
  · cases h
    exact ⟨_, rfl⟩

open ArtifactRule in
/-- The base name of the logs of a command. A separator wrapper gives it with the first
package on its own command line whose file name has a stem, and there is none if no
argument gives such a package; any other command gives it with the stem of its test
binary. Test arguments do not matter, on a flat command line neither what stands behind
the separator. The name is not empty and holds no separator of directories, so that
logs lie straight in their directory, under either naming. -/
theorem log_base_name_of_artifact (c : Command) :
    let built := Invocation.build c true standard
    (∀ w, c.wrapper = some w → w.kind = .separator →
      (∀ name, built = .ok ⟨c, some name⟩ ↔ ∃ i, FirstPackage w.args i name) ∧
      (built = .error (.artifactNotFound w.program "an --apk or --aab wrapper argument") ↔
        ∀ i name, ¬ NamesPackage w.args i name)) ∧
    (c.hasSeparator = false →
      (∀ name, built = .ok ⟨c, some name⟩ ↔
        ∃ binary, c.testBinary = some binary ∧ Path.HasStem binary name) ∧
      ((∃ expected, built = .error (.artifactNotFound c.program expected)) ↔
        ∀ binary name, c.testBinary = some binary → ¬ Path.HasStem binary name)) ∧
    (∀ args, (Invocation.build { c with testArgs := args } true standard).map (·.logBaseName) =
      built.map (·.logBaseName)) ∧
    (∀ registry program own args args', c.hasSeparator = true →
      Command.split registry (program :: (own ++ Command.separatorArg :: args)) = .ok c →
      ∃ c', Command.split registry (program :: (own ++ Command.separatorArg :: args')) = .ok c' ∧
        (Invocation.build c' true standard).map (·.logBaseName) = built.map (·.logBaseName)) ∧
    ∀ i name, built = .ok i → i.logBaseName = some name →
      name ≠ "" ∧ '/' ∉ name.toList ∧ '\\' ∉ name.toList ∧
      ∀ directory naming n, let namer : LogNamer := ⟨directory, name, naming⟩
        (Path.DirectlyIn directory (namer.path n) (namer.fileName n) ↔ naming.IsFlat) ∧
        ∀ value start, naming = .ofVariable value start →
          Path.DirectlyIn directory (namer.path n) (namer.fileName n) := by
  intro built
  refine ⟨?wrapped, ?direct, ?tests, ?flat, ?inert⟩
  case wrapped =>
    intro w hw hk
    exact ⟨fun name => Invocation.build_eq_ok_iff.trans (resolve_separator_eq_ok_iff hw hk),
      Invocation.build_eq_error_iff.trans (resolve_separator_eq_error_iff hw hk)⟩
  case direct =>
    intro hs
    refine ⟨fun name => Invocation.build_eq_ok_iff.trans (resolve_binary_eq_ok_iff hs), ?_⟩
    rw [← resolve_binary_eq_error_iff hs]
    exact exists_congr fun expected => Invocation.build_eq_error_iff
  case tests =>
    intro args
    have hr : resolve standard { c with testArgs := args } = resolve standard c :=
      resolve_standard_congr rfl rfl
    rw [Invocation.map_logBaseName_build, Invocation.map_logBaseName_build, hr]
  case flat =>
    intro registry program own args args' hs hc
    obtain ⟨testArgs, hc'⟩ := Command.split_behind_separator hs hc args'
    have hr : resolve standard { c with testArgs := testArgs } = resolve standard c :=
      resolve_standard_congr rfl rfl
    refine ⟨_, hc', ?_⟩
    rw [Invocation.map_logBaseName_build, Invocation.map_logBaseName_build, hr]
  case inert =>
    intro i name hi hn
    obtain ⟨path, hp⟩ := hasStem_of_resolve (Invocation.resolve_of_build hi hn)
    obtain ⟨hne, hsep⟩ := hp.inert
    have hslash : '/' ∉ name.toList := fun h => absurd (hsep _ h) (by decide)
    have hback : '\\' ∉ name.toList := fun h => absurd (hsep _ h) (by decide)
    refine ⟨hne, hslash, hback, ?_⟩
    intro directory naming n namer
    have hiff := LogNamer.directlyIn_iff (a := namer) hslash n
    refine ⟨hiff, ?_⟩
    rintro value start rfl
    exact hiff.2 (LogNaming.isFlat_ofVariable value start)

open ArtifactRule in
/-- A value without a stem is passed over, a Windows path is taken apart, and neither the
package behind it nor the one among the test arguments counts. -/
theorem log_base_name_of_second_package :
    let args := ["--aab", "..", "--apk=C:\\out\\one.apk", "--apk", "two.apk"]
    let c : Command := ⟨some ⟨"androidtestrunner", .separator, args⟩, none, ["--apk=three.apk"]⟩
    Invocation.build c true standard = .ok ⟨c, some "one"⟩ ∧ (∃ i, FirstPackage args i "one") ∧
      Path.DirectlyIn "logs" (LogNamer.path ⟨"logs", "one", .fixed⟩ 1) "one.xml" := by
  intro args c
  have hb : Invocation.build c true standard = .ok ⟨c, some "one"⟩ := by decide
  obtain ⟨hw, -, -, -, hi⟩ := log_base_name_of_artifact c
  have hp := ((hi _ "one" hb rfl).2.2.2 "logs" .fixed 1).2 (some "1") ⟨2024, 2, 29, 12, 0, 0⟩
  exact ⟨hb, ((hw _ rfl rfl).1 "one").1 hb, hp (by decide)⟩

end Retrial
