import Mathlib.Tactic.Ring
import Retrial.Program
import Retrial.Proofs.Config.Layering
import Retrial.Proofs.Files.Following
import Retrial.Proofs.Options.Reading
import Retrial.Proofs.Stage

/-!
# Timeouts that are accepted

A timeout comes from a text of the command line or of a profile. What is wrong
with such a text ends the program as a usage error, and what is accepted on the
command line is never zero. Two texts go their own way: a number of seconds that
no clock counts ends the program before it could report anything, and a profile
may set a timeout of zero. The main statement lists all that can come of the texts.
-/

set_option autoImplicit false

namespace Retrial

open Number

section Rounding

variable {num den : Nat}

theorem roundHalfEven_bounds (num den : Nat) :
    num / den ≤ roundHalfEven num den ∧ roundHalfEven num den ≤ num / den + 1 := by
  unfold roundHalfEven
  grind

theorem le_roundHalfEven_iff {n : Nat} (hd : 0 < den) (hn : 0 < n) (he : n % 2 = 0) :
    n ≤ roundHalfEven num den ↔ (2 * n - 1) * den ≤ 2 * num := by
  have hm := Nat.div_add_mod num den
  have hr := Nat.mod_lt num hd
  obtain ⟨hl, hu⟩ := roundHalfEven_bounds num den
  -- The result is the quotient or the number above it, so that it is rounding that
  -- decides only where n is the latter.
  obtain h | h | h := lt_trichotomy n (num / den + 1)
  · have hs : (2 * n - 1) * den ≤ 2 * (num / den) * den := Nat.mul_le_mul_right den (by omega)
    have hq : 2 * (num / den) * den = 2 * (den * (num / den)) := by ring
    exact iff_of_true (by omega) (by omega)
  · have hs : (2 * n - 1) * den = 2 * (den * (num / den)) + den := by
      rw [show 2 * n - 1 = 2 * (num / den) + 1 by omega]
      ring
    rw [hs]
    unfold roundHalfEven
    grind
  · have hs : (2 * (num / den) + 3) * den ≤ (2 * n - 1) * den := Nat.mul_le_mul_right den (by omega)
    have hq : (2 * (num / den) + 3) * den = 2 * (den * (num / den)) + 3 * den := by ring
    exact iff_of_false (by omega) (by omega)

theorem roundHalfEven_eq_zero_iff (hd : 0 < den) : roundHalfEven num den = 0 ↔ 2 * num ≤ den := by
  have hm := Nat.div_add_mod num den
  have hr := Nat.mod_lt num hd
  obtain ⟨hl, -⟩ := roundHalfEven_bounds num den
  obtain h | h := Nat.eq_zero_or_pos (num / den)
  · unfold roundHalfEven
    grind
  · have hs : den ≤ den * (num / den) := Nat.le_mul_of_pos_right den h
    exact iff_of_false (by omega) (by omega)

end Rounding

namespace Duration

section Numbers

variable {text : String} {negative : Bool} {v : Number.Dyadic}

theorem denominator_pos (v : Number.Dyadic) : 0 < v.denominator := Nat.two_pow_pos _

theorem readTimeout_number (h : readLiteral text.toList = some (.number negative (.finite v)))
    (hv : negative = false ∨ v.isZero = true) : readTimeout text =
      if bound ≤ (ofDyadicSeconds v).nanoseconds then .error .tooLong
      else if (ofDyadicSeconds v).isZero then .error .zero else .ok (ofDyadicSeconds v) := by
  have hn : (negative && !v.isZero) = false := by obtain rfl | hv := hv <;> simp_all
  simp only [readTimeout, readSpan, h, ofLiteral, hn]
  by_cases hb : (ofDyadicSeconds v).nanoseconds < bound
  · simp [hb]
  · simp [hb]

/-- A number is too long from half a nanosecond below the bound on. -/
theorem readTimeout_eq_tooLong_iff
    (h : readLiteral text.toList = some (.number negative (.finite v)))
    (hv : negative = false ∨ v.isZero = true) : readTimeout text = .error .tooLong ↔
      (2 * bound - 1) * v.denominator ≤ 2 * (v.numerator * 1000000000) := by
  rw [← le_roundHalfEven_iff (denominator_pos v) (by decide) (by decide), readTimeout_number h hv]
  show _ ↔ bound ≤ (ofDyadicSeconds v).nanoseconds
  split
  · next hb => simp [hb]
  · next hb => split <;> simp [hb]

/-- A number up to half a nanosecond is zero. -/
theorem readTimeout_eq_zero_iff
    (h : readLiteral text.toList = some (.number negative (.finite v)))
    (hv : negative = false ∨ v.isZero = true) : readTimeout text = .error .zero ↔
      2 * (v.numerator * 1000000000) ≤ v.denominator := by
  rw [← roundHalfEven_eq_zero_iff (denominator_pos v), readTimeout_number h hv]
  show _ ↔ (ofDyadicSeconds v).nanoseconds = 0
  split
  · next hb =>
    have hz : (ofDyadicSeconds v).nanoseconds ≠ 0 := by
      intro hz
      rw [hz] at hb
      exact absurd hb (by decide)
    simp [hz]
  · split <;> simp_all [isZero]

end Numbers

end Duration

section Program

variable {here : Surroundings} {args : List String} {o : Options} {s : Setup} {c : Config}
  {p : Profile} {text : String} {t : Duration}

def FileStates (here : Surroundings) (o : Options) (text : String) : Prop :=
  ∃ file cs, Config.source? here.files o.configFile "." = some file ∧
    Config.readFileText here.files file = .ok cs ∧ Config.StatesTimeout cs text

theorem loadLayer_eq_ok {files : Files} {file : String} {layer : ConfigLayer}
    (h : Config.loadLayer files file = .ok layer) :
    ∃ cs, Config.readFileText files file = .ok cs ∧ Config.readLayer cs = .ok layer := by
  unfold Config.loadLayer at h
  split at h
  · cases h
  · next cs hc => exact ⟨cs, hc, mapError_eq_ok.1 h⟩

theorem loadLayer_overflow {files : Files} {file message : String} {fault : ConfigFault}
    (h : Config.loadLayer files file = .error fault) (ho : fault.overflow? = some message) :
    ∃ cs, Config.readFileText files file = .ok cs ∧
      Config.readLayer cs = .error .uncountable := by
  unfold Config.loadLayer at h
  split at h
  · cases h
    cases ho
  · next cs hc =>
    obtain ⟨defect, hd, rfl⟩ := mapError_eq_error.1 h
    cases defect with
    | malformed => cases ho
    | uncountable => exact ⟨cs, hc, hd⟩

/-- A configuration that was read has all timeouts that its file states, and no others. -/
theorem layer_of_configOf (h : Program.configOf here o = .ok c) : ∃ layer,
    c = Config.standard.lay layer ∧ (layer.profiles.map (·.1)).Nodup ∧
    (∀ p ∈ layer.profiles, ∀ t, p.2.timeout = some t →
      ∃ text, FileStates here o text ∧ Duration.read text.toList = .ok t) ∧
    ∀ text, FileStates here o text → ∃ t, Duration.read text.toList = .ok t := by
  unfold Program.configOf Config.load at h
  split at h
  · next file hf =>
    obtain ⟨layer, hl, rfl⟩ := map_eq_ok.1 (mapError_eq_ok.1 h)
    obtain ⟨cs, hc, hl⟩ := loadLayer_eq_ok hl
    refine ⟨layer, rfl, Config.nodup_readLayer hl, ?_, ?_⟩
    · intro p hp t ht
      obtain ⟨text, hs, hr⟩ := Config.timeout_readLayer hl hp ht
      exact ⟨text, ⟨file, cs, hf, hc, hs⟩, hr⟩
    · rintro text ⟨file', cs', hf', hc', hs⟩
      cases hf.symm.trans hf'
      cases hc.symm.trans hc'
      exact Config.read_of_statesTimeout hl hs
  · next hf =>
    cases h
    refine ⟨⟨none, [], ⟨[], []⟩⟩, rfl, List.nodup_nil, by simp, ?_⟩
    rintro text ⟨file, cs, hs, -⟩
    cases hf.symm.trans hs

theorem overflow_of_configOf {fault : ProgramFault} {message : String}
    (h : Program.configOf here o = .error fault) (ho : fault.overflow? = some message) :
    ∃ text, FileStates here o text ∧ Duration.read text.toList = .error .sumTooLarge := by
  obtain ⟨fault, hl, rfl⟩ := mapError_eq_error.1 h
  unfold Config.load at hl
  split at hl
  · next file hf =>
    obtain ⟨cs, hc, hl⟩ := loadLayer_overflow (map_eq_error.1 hl) ho
    obtain ⟨text, hs, hr⟩ := Config.statesTimeout_of_uncountable hl
    exact ⟨text, ⟨file, cs, hf, hc, hs⟩, hr⟩
  · cases hl

theorem timeout_of_mem_layersOf {layer : ConfigLayer} {name : String} {u : ProfileSettings}
    (hu : u ∈ Config.layersOf layer o name) (ht : u.timeout = some t) :
    u = Program.overrides o ∨ ∃ n, (n, u) ∈ layer.profiles := by
  have hn : ∀ n, Config.standard.profiles.lookup n ≠ some u := by
    intro n hu
    simp only [Config.standard, Config.lookup_cons] at hu
    split at hu <;> cases hu
    cases ht
  simp only [Config.layersOf, List.mem_append, List.mem_singleton, Option.mem_toList] at hu
  obtain (hu | hu | hu) | hu | hu := hu
  · exact .inl hu
  · exact .inr ⟨_, Config.mem_of_lookup hu⟩
  · exact absurd hu (hn _)
  · exact .inr ⟨_, Config.mem_of_lookup hu⟩
  · exact absurd hu (hn _)

theorem timeout_of_profileOf (hc : Program.configOf here o = .ok c)
    (hp : Program.profileOf c o = .ok p) (ht : p.timeout = some t) : o.timeout = some t ∨
      o.timeout = none ∧ ∃ text, FileStates here o text ∧ Duration.read text.toList = .ok t := by
  obtain ⟨layer, rfl, hn, hr, -⟩ := layer_of_configOf hc
  have hk : Config.Names layer (Config.chosenProfile layer o) := by
    by_contra hk
    rw [(Config.profileOf_eq_error_iff hn).2 ⟨hk, rfl⟩] at hp
    cases hp
  obtain ⟨p', hp', -, hs⟩ := Config.profileOf_of_names hn hk
  obtain rfl : p' = p := Except.ok.inj (hp'.symm.trans hp)
  rw [hs.timeout] at ht
  cases ho : o.timeout with
  | some t' =>
    obtain rfl : t' = t := by simpa [Config.layersOf, Program.overrides, ho] using ht
    exact .inl rfl
  | none =>
    obtain ⟨u, hu, ht⟩ := List.exists_of_findSome?_eq_some ht
    obtain rfl | ⟨n, hm⟩ := timeout_of_mem_layersOf hu ht
    · cases ho.symm.trans ht
    · exact .inr ⟨rfl, hr (n, u) hm t ht⟩

theorem setup_eq_ok (h : Program.setup here o = .ok s) : ∃ c p, Program.configOf here o = .ok c ∧
    Program.profileOf c o = .ok p ∧ s.timeout = p.timeout := by
  obtain ⟨c, hc, h⟩ := bind_eq_ok.1 h
  obtain ⟨p, hp, h⟩ := bind_eq_ok.1 h
  obtain ⟨command, -, h⟩ := bind_eq_ok.1 h
  obtain ⟨invocation, -, h⟩ := bind_eq_ok.1 h
  cases h
  exact ⟨c, p, hc, hp, rfl⟩

theorem overflow_of_setup {fault : ProgramFault} {message : String}
    (h : Program.setup here o = .error fault) (ho : fault.overflow? = some message) :
    ∃ text, FileStates here o text ∧ Duration.read text.toList = .error .sumTooLarge := by
  obtain h | ⟨c, -, h⟩ := bind_eq_error.1 h
  · exact overflow_of_configOf h ho
  · obtain h | ⟨p, -, h⟩ := bind_eq_error.1 h
    · obtain ⟨_, -, rfl⟩ := mapError_eq_error.1 (map_eq_error.1 h)
      cases ho
    · obtain h | ⟨command, -, h⟩ := bind_eq_error.1 h
      · obtain ⟨_, -, rfl⟩ := mapError_eq_error.1 h
        cases ho
      · obtain h | ⟨invocation, -, h⟩ := bind_eq_error.1 h
        · obtain ⟨_, -, rfl⟩ := mapError_eq_error.1 h
          cases ho
        · cases h

theorem timeout_of_setup (h : Program.setup here o = .ok s) (ht : o.timeout = some t) :
    s.timeout = some t := by
  obtain ⟨c, p, -, hp, hs⟩ := setup_eq_ok h
  obtain ⟨p, -, rfl⟩ := map_eq_ok.1 hp
  rw [hs]
  simp [Profile.apply, Program.overrides, ht]

variable {Memory : Type} {x : Executor Memory} {listen : Listener} {files : Files} {memory : Memory}

theorem timeout_of_request {q : Request} (h : q ∈ (supervise s x listen files memory).requests) :
    q.timeout = s.timeout := by
  obtain ⟨-, -, step, -, rfl⟩ := attempting_of_mem h
  rfl

def OptionFault.IsUsage (f : OptionFault) : Prop :=
  f.option? ≠ none ∨ ∃ given, f = .testArgsMissing given

/-- Why a program refuses to supervise, and what it writes of that: its options are
not read, or nothing can be set up from them. -/
inductive Refusal (here : Surroundings) (args : List String) : Text.Bytes → Prop
  | options {f : OptionFault} : Options.read here.env args = .error f →
      f.IsUsage → Refusal here args (Text.encodeString f.report)
  | setup {o : Options} {fault : ProgramFault} : Options.read here.env args = .ok o →
      Program.setup here o = .error fault → fault.overflow? = none →
      Refusal here args (Program.noteText (o.color.colors here.env here.errorsOnTerminal)
        (Diagnostics.filterFor o.verbose (here.env.get? Program.filterVariable))
        (Program.setupNotes here o ++
          fault.notes (o.color.colors here.env here.errorsOnTerminal)))

/-- What a program that is given texts for timeouts may come to. -/
inductive MeetsTimeouts (here : Surroundings) (args : List String) : Report → Prop
  /-- It was asked what it is, and not to run anything. -/
  | informed {r : Report} : r.exitCode = 0 → r.files = here.files →
      ((∃ long, Options.read here.env args = .error (.helpAsked long)) ∨
        Options.read here.env args = .error .versionAsked) → MeetsTimeouts here args r
  /-- It ends as a usage error. -/
  | refused {r : Report} : r.exitCode = 1 → r.output = [] → r.files = here.files →
      Refusal here args r.errors → MeetsTimeouts here args r
  /-- It gives up on a number of seconds, or on a sum of amounts, that cannot be counted. -/
  | gaveUp {r : Report} {text : String} : r.exitCode = 101 → r.output = [] → r.files = here.files →
      (Options.Gives args text ∧ Duration.readTimeout text = .error .tooLong ∨
        (Options.Gives args text ∨ ∃ o, FileStates here o text) ∧
          Duration.read text.toList = .error .sumTooLarge) → MeetsTimeouts here args r
  /-- It supervises, and every attempt has the timeout that was given. -/
  | supervised {r : Report} {o : Options} {s : Setup} :
      Options.read here.env args = .ok o → Program.setup here o = .ok s →
      r = Program.carryOut here o → r.exitCode ≠ 101 →
      (∀ text, Options.Gives args text →
        ∃ t, Duration.readTimeout text = .ok t ∧ s.timeout = some t ∧ 0 < t.nanoseconds) →
      (∀ text, FileStates here o text → ∃ t, Duration.read text.toList = .ok t) →
      (∀ t, s.timeout = some t → 0 < t.nanoseconds ∨ o.timeout = none ∧
        ∃ text, FileStates here o text ∧ Duration.read text.toList = .ok .zero) →
      (∀ q ∈ (supervise s (Shell.executor here.env) .willing here.files 0).requests,
        q.timeout = s.timeout) → MeetsTimeouts here args r

/-- Only a span of time that is written out has a sum that may not fit. -/
theorem read_of_readTimeout {fault : Duration.ReadFault}
    (h : Duration.readTimeout text = .error (.unreadable fault)) :
    Duration.read text.toList = .error fault := by
  unfold Duration.readTimeout at h
  split at h
  · split at h <;> cases h
  · next hs =>
    unfold Duration.readSpan at hs
    cases h
    split at hs
    · unfold Duration.ofLiteral at hs
      split at hs
      · cases hs
      · cases hs
      · split at hs
        · cases hs
        · dsimp only at hs
          split at hs <;> cases hs
    · obtain ⟨fault', hr, hf⟩ := mapError_eq_error.1 hs
      cases hf
      exact hr

theorem nanoseconds_pos (h : t.isZero = false) : 0 < t.nanoseconds :=
  Nat.pos_of_ne_zero fun hz => by simp [Duration.isZero, hz] at h

theorem exitCode_carryOut (hs : Program.setup here o = .ok s) :
    (Program.carryOut here o).exitCode ≠ 101 := by
  have hv : ∀ v : Verdict, v.exitCode ≠ 101 := fun v => by cases v <;> decide
  unfold Program.carryOut
  simp only [hs]
  split
  · next summary _ => exact hv summary.verdict
  · exact hv .usageError

theorem refuse_of_isUsage {f : OptionFault} (h : f.IsUsage) :
    Program.refuse here f = ⟨1, [], Text.encodeString f.report, here.files⟩ := by
  obtain h | ⟨given, rfl⟩ := h
  · cases f <;> first | rfl | exact absurd rfl h
  · rfl

theorem refused_of_isUsage {f : OptionFault} (h : Options.read here.env args = .error f)
    (hu : f.IsUsage) : MeetsTimeouts here args (Program.refuse here f) := by
  rw [refuse_of_isUsage hu]
  exact .refused rfl rfl rfl (.options h hu)

theorem meetsTimeouts_refuse {f : OptionFault} (h : Options.read here.env args = .error f) :
    MeetsTimeouts here args (Program.refuse here f) := by
  cases f with
  | helpAsked long => exact .informed rfl rfl (.inl ⟨long, h⟩)
  | versionAsked => exact .informed rfl rfl (.inr h)
  | timeoutOverflow message =>
    obtain ⟨text, fault, hg, ht, hv⟩ := Options.gives_of_overflow h
    have hf : fault = .tooLong ∨ fault = .unreadable .sumTooLarge := by
      unfold Duration.TimeoutFault.isOverflow at hv
      split at hv
      · exact .inl rfl
      · exact .inr rfl
      · cases hv
    obtain rfl | rfl := hf
    · exact .gaveUp rfl rfl rfl (.inl ⟨hg, ht⟩)
    · exact .gaveUp rfl rfl rfl (.inr ⟨.inl hg, read_of_readTimeout ht⟩)
  | testArgsMissing given => exact refused_of_isUsage h (.inr ⟨given, rfl⟩)
  | repeated | conflicting | valueMissing | valueUnknown | valueRefused | valueUnneeded =>
    exact refused_of_isUsage h (.inl (Option.some_ne_none _))

theorem meetsTimeouts_carryOut (h : Options.read here.env args = .ok o) :
    MeetsTimeouts here args (Program.carryOut here o) := by
  cases hs : Program.setup here o with
  | error fault =>
    cases ho : fault.overflow? with
    | some message =>
      obtain ⟨text, hf, ht⟩ := overflow_of_setup hs ho
      have hr : Program.carryOut here o = Program.giveUp here message := by
        simp only [Program.carryOut, hs, ho]
      rw [hr]
      exact .gaveUp rfl rfl rfl (.inr ⟨.inr ⟨o, hf⟩, ht⟩)
    | none =>
      unfold Program.carryOut
      simp only [hs, ho]
      exact .refused rfl rfl rfl (.setup h hs ho)
  | ok s =>
    obtain ⟨c, p, hc, hp, ht⟩ := setup_eq_ok hs
    refine .supervised h hs rfl (exitCode_carryOut hs) ?_ ?_ ?_ fun q => timeout_of_request
    · intro text hg
      obtain ⟨t, hr, ho⟩ := Options.timeout_of_gives h hg
      exact ⟨t, hr, timeout_of_setup hs ho, nanoseconds_pos (Duration.readTimeout_ne_zero hr)⟩
    · obtain ⟨-, -, -, -, hr⟩ := layer_of_configOf hc
      exact hr
    · intro t hst
      obtain ho | ⟨ho, text, hf, hr⟩ := timeout_of_profileOf hc hp (ht.symm.trans hst)
      · exact .inl (nanoseconds_pos (Options.timeout_positive h ho))
      · obtain hz | hz := Nat.eq_zero_or_pos t.nanoseconds
        · obtain rfl : t = .zero := congrArg Duration.mk hz
          exact .inr ⟨ho, text, hf, hr⟩
        · exact .inl hz

theorem meetsTimeouts_run (here : Surroundings) (args : List String) :
    MeetsTimeouts here args (Program.run here args) := by
  unfold Program.run
  split
  · next f h => exact meetsTimeouts_refuse h
  · next o h => exact meetsTimeouts_carryOut h

theorem run_refused_timeout {rest : List String} {fault : Duration.TimeoutFault}
    (h : Duration.readTimeout text = .error fault) :
    ∃ errors, Program.run here (("--timeout=" ++ text) :: rest) =
      ⟨if fault.isOverflow then 101 else 1, [], errors, here.files⟩ := by
  rw [Program.run, Options.read_attached_timeout h]
  cases fault.isOverflow <;> exact ⟨_, rfl⟩

end Program

/-- Every text for a timeout is refused as a usage error or is a timeout above zero
that every attempt has, but for two kinds of text: a number of seconds, or a sum of
amounts, that cannot be counted, and a zero in a profile. A text in front decides
what is refused and what is set, and a number does so by its nearest nanosecond. -/
theorem timeouts_positive_or_refused (here : Surroundings) :
    (∀ args, MeetsTimeouts here args (Program.run here args)) ∧
    (∀ text rest fault, Duration.readTimeout text = .error fault →
      ∃ errors, Program.run here (("--timeout=" ++ text) :: rest) =
        ⟨if fault.isOverflow then 101 else 1, [], errors, here.files⟩) ∧
    (∀ text t command rest, Duration.readTimeout text = .ok t → Options.formOf command = .word →
      (∀ o : OptionName, o.environmentName?.bind here.env.get? = none) →
      Options.read here.env (("--timeout=" ++ text) :: command :: rest) =
        .ok { Options.standard with timeout := some t, testArgs := command :: rest }) ∧
    ∀ (text : String) (negative : Bool) (v : Number.Dyadic),
      readLiteral text.toList = some (.number negative (.finite v)) →
      negative = false ∨ v.isZero = true →
      (Duration.readTimeout text = .error .tooLong ↔
        (2 * Duration.bound - 1) * v.denominator ≤ 2 * (v.numerator * 1000000000)) ∧
      (Duration.readTimeout text = .error .zero ↔
        2 * (v.numerator * 1000000000) ≤ v.denominator) := by
  refine ⟨meetsTimeouts_run here, ?_, ?_, ?_⟩
  · intro text rest fault h
    exact run_refused_timeout h
  · intro text t command rest ht hc he
    exact Options.read_accepted_timeout ht hc he
  · intro text negative v h hv
    exact ⟨Duration.readTimeout_eq_tooLong_iff h hv, Duration.readTimeout_eq_zero_iff h hv⟩

def lonely (content : Text.Bytes) : Surroundings :=
  ⟨[], ⟨2024, 1, 2, 3, 4, 5⟩, ⟨[], [(["t.toml"], .file content Entry.usualMode)]⟩, false, false⟩

theorem timeouts_positive_or_refused_in_samples :
    Duration.readTimeout "-0" = .error .zero ∧
    (∃ errors, Program.run (lonely []) ["--timeout=-0", "./t"] =
      ⟨1, [], errors, (lonely []).files⟩) ∧
    Duration.readTimeout "2m 30s" = .ok (.ofSeconds 150) ∧
    Options.read [] ["--timeout=2m 30s", "./t"] =
      .ok { Options.standard with timeout := some (.ofSeconds 150), testArgs := ["./t"] } ∧
    readLiteral "1e20".toList = some (.number false (.finite ⟨6103515625000000, 14⟩)) ∧
    Duration.readTimeout "1e20" = .error .tooLong := by
  have hz : Duration.readTimeout "-0" = .error .zero := by decide +kernel
  have hs : Duration.readTimeout "2m 30s" = .ok (.ofSeconds 150) := by decide +kernel
  have hl : readLiteral "1e20".toList = some (.number false (.finite ⟨6103515625000000, 14⟩)) := by
    decide +kernel
  obtain ⟨-, hr, ha, hn⟩ := timeouts_positive_or_refused (lonely [])
  exact ⟨hz, hr "-0" ["./t"] .zero hz, hs,
    ha "2m 30s" (.ofSeconds 150) "./t" [] hs (by decide) (fun o => by cases o <;> rfl), hl,
    (hn "1e20" false _ hl (.inl rfl)).1.2 (by decide)⟩

def zeroText : String := "[profile.default]\ntimeout = \"0s\"\n"

def zeroLayer : ConfigLayer where
  defaultProfile := none
  profiles := [("default", ⟨none, none, none, some .zero, none⟩)]
  wrappers := ⟨[], []⟩

def zeroOptions : Options :=
  { Options.standard with configFile := some "t.toml", testArgs := ["./t"] }

theorem locate_lonely (content : Text.Bytes) :
    (lonely content).files.locate "t.toml" = .ok ["t.toml"] :=
  Files.follow_of_descends rfl

theorem configOf_zeroText :
    Program.configOf (lonely (Text.encodeString zeroText)) zeroOptions =
      .ok (Config.standard.lay zeroLayer) := by
  have hd : Text.decode (Text.encodeString zeroText) = .ok zeroText.toList :=
    Text.decode_encode (by decide +kernel)
  have hf : Config.readFileText (lonely (Text.encodeString zeroText)).files "t.toml" =
      .ok zeroText.toList := by
    rw [Config.readFileText, Files.read, locate_lonely]
    show (Text.decode (Text.encodeString zeroText)).mapError _ = _
    rw [hd]
    rfl
  have hr : Config.readLayer zeroText.toList = .ok zeroLayer := by decide +kernel
  exact mapError_eq_ok.2 (Config.load_of_readLayer rfl hf hr)

/-- Seconds beyond all counting end the program with neither a report nor a usage
error, and a profile makes every attempt of a run one without any time. -/
theorem uncounted_and_zero_timeouts :
    (Program.run (lonely []) ["--timeout=1e20", "./t"]).exitCode = 101 ∧
    Options.read [] ["--config-file=t.toml", "./t"] = .ok zeroOptions ∧
    ∃ s, Program.setup (lonely (Text.encodeString zeroText)) zeroOptions = .ok s ∧
      ∀ q ∈ (supervise s (Shell.executor []) .willing
        (lonely (Text.encodeString zeroText)).files 0).requests, q.timeout = some .zero := by
  refine ⟨by decide +kernel, by decide +kernel, ⟨⟨⟨none, some "./t", []⟩, some "t"⟩,
    ⟨5, 1, 1, ["initTestCase", "init", "cleanup", "cleanupTestCase"]⟩, ".",
    .unique "20240102T030405", some .zero, [], none, none⟩, ?_, fun q hq => timeout_of_request hq⟩
  exact bind_eq_ok.2 ⟨_, configOf_zeroText, by decide +kernel⟩

end Retrial
