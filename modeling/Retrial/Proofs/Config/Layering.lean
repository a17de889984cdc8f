import Mathlib
import Retrial.Program
import Retrial.Proofs.ClassificationTable
import Retrial.Proofs.Config.Reading

/-!
# The order of layers

A value of a profile is settled by the first layer that sets it. The layers are
written down as a list, topmost first: the options, the profile as the file and
as the standard configuration have it, and the base profile as these two have
it. Laying a file over the standard configuration and settling a profile are two
passes over the fields, and both keep to this order for each field on its own.
-/

set_option autoImplicit false

namespace Retrial

namespace ProfileSettings

variable {α : Type} {f : ProfileSettings → Option α}

structure IsField (f : ProfileSettings → Option α) : Prop where
  above : ∀ s t : ProfileSettings, f (s.above t) = (f s).or (f t)
  none : f .none = .none

theorem isField_maxRepeats : IsField maxRepeats := ⟨fun _ _ => Option.orElse_eq_or, rfl⟩

theorem isField_passesNeeded : IsField passesNeeded := ⟨fun _ _ => Option.orElse_eq_or, rfl⟩

theorem isField_crashReruns : IsField crashReruns := ⟨fun _ _ => Option.orElse_eq_or, rfl⟩

theorem isField_timeout : IsField timeout := ⟨fun _ _ => Option.orElse_eq_or, rfl⟩

theorem isField_noRerun : IsField noRerun := ⟨fun _ _ => Option.orElse_eq_or, rfl⟩

theorem IsField.merge (hf : IsField f) (upper lower : Option ProfileSettings) :
    f ((upper.merge ProfileSettings.above lower).getD .none) =
      (upper.toList ++ lower.toList).findSome? f := by
  rw [List.findSome?_append]
  cases upper <;> cases lower <;> simp [hf.above, hf.none]

theorem above_none (s : ProfileSettings) : s.above .none = s := by
  simp [above, none]

theorem above_self (s : ProfileSettings) : s.above s = s := by
  simp [above]

theorem above_above (s t : ProfileSettings) : s.above (s.above t) = s.above t := by
  simp [above, ← Option.or_assoc]

end ProfileSettings

namespace Config

variable {c : Config} {layer : ConfigLayer} {profiles ps : List (String × ProfileSettings)}
  {name : String} {names added : List String}

theorem lookup_cons {n : String} {s : ProfileSettings} :
    List.lookup name ((n, s) :: ps) = if name = n then some s else ps.lookup name := by
  by_cases h : name = n
  · simp [h]
  · have hb : (name == n) = false := by simpa using h
    rw [List.lookup_cons, hb, if_neg h]

theorem lookup_eq_none_iff : ps.lookup name = none ↔ name ∉ ps.map (·.1) := by
  induction ps with
  | nil => simp
  | cons p ps ih =>
    obtain ⟨n, s⟩ := p
    by_cases h : name = n <;> simp [lookup_cons, h, ih]

theorem lookup_of_mem {s : ProfileSettings} (hn : (ps.map (·.1)).Nodup) (h : (name, s) ∈ ps) :
    ps.lookup name = some s := by
  induction ps with
  | nil => cases h
  | cons p ps ih =>
    obtain ⟨n, t⟩ := p
    obtain ⟨hp, hn⟩ := List.nodup_cons.1 hn
    rw [lookup_cons]
    cases List.mem_cons.1 h with
    | inl he =>
      cases he
      simp
    | inr hm =>
      have hne : name ≠ n := by
        rintro rfl
        exact hp (List.mem_map.2 ⟨_, hm, rfl⟩)
      rw [if_neg hne]
      exact ih hn hm

theorem mem_of_lookup {s : ProfileSettings} (h : ps.lookup name = some s) : (name, s) ∈ ps := by
  obtain ⟨l, l', rfl, -⟩ := List.lookup_eq_some_iff.1 h
  exact List.mem_append_right l List.mem_cons_self

theorem lookup_layProfile_of_ne {n : String} {s : ProfileSettings} (h : name ≠ n) :
    (layProfile n s profiles).lookup name = profiles.lookup name := by
  induction profiles with
  | nil => simp [layProfile, lookup_cons, h]
  | cons p rest ih =>
    obtain ⟨m, t⟩ := p
    by_cases hm : m = n
    · subst hm
      simp [layProfile, lookup_cons, h]
    · simp [layProfile, lookup_cons, hm, ih]

theorem lookup_layProfiles (hn : (ps.map (·.1)).Nodup) :
    (ps.foldl (fun profiles p => layProfile p.1 p.2 profiles) profiles).lookup name =
      (ps.lookup name).merge ProfileSettings.above (profiles.lookup name) := by
  induction ps generalizing profiles with
  | nil => cases h : profiles.lookup name <;> simp [h]
  | cons p ps ih =>
    obtain ⟨n, s⟩ := p
    obtain ⟨hp, hn⟩ := List.nodup_cons.1 hn
    rw [List.foldl_cons, ih hn]
    by_cases h : name = n
    · subst h
      have hl : ps.lookup name = none := lookup_eq_none_iff.2 hp
      rw [settings?_layProfile_self, hl]
      cases profiles.lookup name <;> simp [ProfileSettings.above_none]
    · rw [lookup_layProfile_of_ne h, lookup_cons, if_neg h]

theorem settings?_lay (hn : (layer.profiles.map (·.1)).Nodup) : (c.lay layer).settings? name =
    (layer.profiles.lookup name).merge ProfileSettings.above (c.settings? name) :=
  lookup_layProfiles hn

theorem layProfile_self {n : String} {s t : ProfileSettings} (h : profiles.lookup n = some t)
    (hs : s.above t = t) : layProfile n s profiles = profiles := by
  induction profiles with
  | nil => cases h
  | cons p rest ih =>
    obtain ⟨m, u⟩ := p
    by_cases hm : m = n
    · subst hm
      obtain rfl : u = t := by simpa using h
      simp [layProfile, hs]
    · have hr : rest.lookup n = some t := by simpa [lookup_cons, Ne.symm hm] using h
      simp [layProfile, hm, ih hr]

theorem extendNames_of_subset (h : added ⊆ names) : extendNames names added = names := by
  unfold extendNames
  induction added with
  | nil => rfl
  | cons n added ih =>
    obtain ⟨hn, ha⟩ := List.cons_subset.1 h
    rw [List.foldl_cons, if_pos (by simpa using hn)]
    exact ih ha

theorem extendNames_extendNames :
    extendNames (extendNames names added) added = extendNames names added :=
  extendNames_of_subset fun _ hn => mem_extendNames.2 (Or.inr hn)

theorem prefix_extendNames (names added : List String) : names <+: extendNames names added := by
  unfold extendNames
  induction added generalizing names with
  | nil => exact List.prefix_rfl
  | cons n added ih =>
    rw [List.foldl_cons]
    split
    · exact ih names
    · exact (List.prefix_append names [n]).trans (ih _)

theorem firstOccurrences_extendNames {past : List String} (h : FirstOccurrences past names) :
    FirstOccurrences (past ++ added) (extendNames names added) := by
  induction added generalizing past names with
  | nil => simpa [extendNames] using h
  | cons n added ih =>
    rw [List.append_cons]
    exact ih (h.addNew n)

theorem lay_lay (hn : (layer.profiles.map (·.1)).Nodup) :
    (c.lay layer).lay layer = c.lay layer := by
  have hp : layer.profiles.foldl (fun ps p => layProfile p.1 p.2 ps) (c.lay layer).profiles =
      (c.lay layer).profiles := by
    have hs : ∀ p ∈ layer.profiles, ∃ t, (c.lay layer).profiles.lookup p.1 = some t ∧
        p.2.above t = t := by
      rintro ⟨n, s⟩ hm
      have hc := @settings?_lay c layer n hn
      rw [lookup_of_mem hn hm] at hc
      cases h : c.settings? n with
      | none =>
        rw [h] at hc
        exact ⟨s, hc, s.above_self⟩
      | some t =>
        rw [h] at hc
        exact ⟨s.above t, hc, s.above_above t⟩
    generalize (c.lay layer).profiles = profiles at hs
    generalize layer.profiles = ps at hs
    induction ps with
    | nil => rfl
    | cons p ps ih =>
      obtain ⟨⟨t, ht, hp⟩, hs⟩ := List.forall_mem_cons.1 hs
      rw [List.foldl_cons, layProfile_self ht hp]
      exact ih hs
  have hd : layer.defaultProfile.getD (layer.defaultProfile.getD c.defaultProfile) =
      layer.defaultProfile.getD c.defaultProfile := by
    cases layer.defaultProfile <;> rfl
  rw [lay, hp]
  simp only [lay, extendNames_extendNames, hd]

theorem mem_profileNames : name ∈ c.profileNames ↔ name ∈ c.profiles.map (·.1) := by
  unfold profileNames
  induction c.profiles.map (·.1) with
  | nil => simp
  | cons n names ih => simp [Policy.mem_insertName, ih]

theorem isSome_kindOf? {r : Registry} {program : String} : (r.kindOf? program).isSome ↔
    Path.programName program ∈ r.passthrough ∨ Path.programName program ∈ r.separator := by
  unfold Registry.kindOf?
  dsimp only
  split
  · next h => simpa using Or.inl (List.contains_iff_mem.1 h)
  · next h =>
    have hp : Path.programName program ∉ r.passthrough := by simpa using h
    split
    · next hs => simpa using Or.inr (List.contains_iff_mem.1 hs)
    · next hs => simpa [hp] using hs

def chosenProfile (layer : ConfigLayer) (o : Options) : String :=
  (o.profile.or layer.defaultProfile).getD standard.defaultProfile

def Names (layer : ConfigLayer) (name : String) : Prop :=
  name ∈ standard.profiles.map (·.1) ∨ name ∈ layer.profiles.map (·.1)

/-- What may settle the values of a profile, the topmost first. -/
def layersOf (layer : ConfigLayer) (o : Options) (name : String) : List ProfileSettings :=
  [Program.overrides o] ++
    ((layer.profiles.lookup name).toList ++ (standard.profiles.lookup name).toList) ++
    ((layer.profiles.lookup baseProfile).toList ++ (standard.profiles.lookup baseProfile).toList)

/-- A profile in which each value is the first one that some settings have for it,
or the one of the standard policy where none of them has one. -/
structure SettledBy (layers : List ProfileSettings) (p : Profile) : Prop where
  maxRepeats : p.policy.maxRepeats =
    (layers.findSome? (·.maxRepeats)).getD Policy.standard.maxRepeats
  passesNeeded : p.policy.passesNeeded =
    (layers.findSome? (·.passesNeeded)).getD Policy.standard.passesNeeded
  crashReruns : p.policy.crashReruns =
    (layers.findSome? (·.crashReruns)).getD Policy.standard.crashReruns
  timeout : p.timeout = layers.findSome? (·.timeout)
  noRerun : p.policy.noRerun = (layers.findSome? (·.noRerun)).getD Policy.standard.noRerun

/-- Wrappers that begin with those of the standard configuration, with the new ones
behind them in their order and each once. -/
structure Enlarges (added all : Registry) : Prop where
  passthrough : standard.wrappers.passthrough <+: all.passthrough ∧
    FirstOccurrences (standard.wrappers.passthrough ++ added.passthrough) all.passthrough
  separator : standard.wrappers.separator <+: all.separator ∧
    FirstOccurrences (standard.wrappers.separator ++ added.separator) all.separator
  known : ∀ program, (standard.wrappers.kindOf? program).isSome → (all.kindOf? program).isSome

theorem findSome?_layersOf {α : Type} {f : ProfileSettings → Option α} {o : Options}
    (hf : ProfileSettings.IsField f) (hn : (layer.profiles.map (·.1)).Nodup) :
    (layersOf layer o name).findSome? f = (f (Program.overrides o)).or
      ((f (((standard.lay layer).settings? name).getD .none)).or
        (f (((standard.lay layer).settings? baseProfile).getD .none))) := by
  rw [settings?_lay hn, settings?_lay hn, hf.merge, hf.merge, layersOf, List.append_assoc,
    List.findSome?_append, List.findSome?_append]
  simp [settings?]

theorem enlarges_lay (layer : ConfigLayer) :
    Enlarges layer.wrappers (standard.lay layer).wrappers := by
  constructor
  case passthrough =>
    exact ⟨prefix_extendNames _ _,
      firstOccurrences_extendNames (firstOccurrences_iff.2 (by decide))⟩
  case separator =>
    exact ⟨prefix_extendNames _ _,
      firstOccurrences_extendNames (firstOccurrences_iff.2 (by decide))⟩
  case known =>
    intro program h
    rw [isSome_kindOf?] at h ⊢
    exact h.imp (fun hp => mem_extendNames.2 (Or.inl hp)) fun hs => mem_extendNames.2 (Or.inl hs)

theorem mem_names_iff : name ∈ ps.map (·.1) ↔ ∃ s, ps.lookup name = some s := by
  rw [← Option.ne_none_iff_exists', ne_eq, lookup_eq_none_iff, not_not]

theorem names_iff (hn : (layer.profiles.map (·.1)).Nodup) :
    Names layer name ↔ ∃ s, (standard.lay layer).settings? name = some s := by
  rw [Names, settings?_lay hn, settings?, or_comm, mem_names_iff, mem_names_iff]
  cases layer.profiles.lookup name <;> cases standard.profiles.lookup name <;> simp

theorem mem_profileNames_lay (hn : (layer.profiles.map (·.1)).Nodup) :
    name ∈ (standard.lay layer).profileNames ↔ Names layer name := by
  rw [mem_profileNames, names_iff hn, mem_names_iff]
  rfl

section Resolution

variable {o : Options} {s : ProfileSettings} {p : Profile} {fault : ProgramFault}

theorem profileOf_of_some (hs : c.settings? (o.profile.getD c.defaultProfile) = some s) :
    Program.profileOf c o = .ok ((((Profile.standard (o.profile.getD c.defaultProfile)).apply
      ((c.settings? baseProfile).getD .none)).apply s).apply (Program.overrides o)) := by
  rw [Program.profileOf, profile, hs]
  rfl

theorem profileOf_of_none (hs : c.settings? (o.profile.getD c.defaultProfile) = none) :
    Program.profileOf c o =
      .error (.profile ⟨o.profile.getD c.defaultProfile, c.profileNames⟩) := by
  rw [Program.profileOf, profile, hs]
  rfl

theorem getD_defaultProfile_lay :
    o.profile.getD (standard.lay layer).defaultProfile = chosenProfile layer o :=
  Option.getD_or.symm

theorem settledBy_apply (hn : (layer.profiles.map (·.1)).Nodup)
    (hs : (standard.lay layer).settings? name = some s) : SettledBy (layersOf layer o name)
      ((((Profile.standard name).apply (((standard.lay layer).settings? baseProfile).getD
        .none)).apply s).apply (Program.overrides o)) := by
  have hl : ∀ {α : Type} {f : ProfileSettings → Option α}, ProfileSettings.IsField f →
      (layersOf layer o name).findSome? f = (f (Program.overrides o)).or
        ((f s).or (f (((standard.lay layer).settings? baseProfile).getD .none))) := by
    intro α f hf
    rw [findSome?_layersOf hf hn, hs]
    rfl
  constructor
  case maxRepeats => simp [hl ProfileSettings.isField_maxRepeats, Profile.apply, Profile.standard]
  case passesNeeded =>
    simp [hl ProfileSettings.isField_passesNeeded, Profile.apply, Profile.standard]
  case crashReruns =>
    simp [hl ProfileSettings.isField_crashReruns, Profile.apply, Profile.standard]
  case timeout => simp [hl ProfileSettings.isField_timeout, Profile.apply, Profile.standard]
  case noRerun => simp [hl ProfileSettings.isField_noRerun, Profile.apply, Profile.standard]

theorem profileOf_of_names (hn : (layer.profiles.map (·.1)).Nodup)
    (hk : Names layer (chosenProfile layer o)) : ∃ p,
      Program.profileOf (standard.lay layer) o = .ok p ∧ p.name = chosenProfile layer o ∧
      SettledBy (layersOf layer o (chosenProfile layer o)) p := by
  obtain ⟨s, hs⟩ := (names_iff hn).1 hk
  rw [← getD_defaultProfile_lay] at hs ⊢
  exact ⟨_, profileOf_of_some hs, rfl, settledBy_apply hn hs⟩

theorem profileOf_eq_error_iff (hn : (layer.profiles.map (·.1)).Nodup) :
    Program.profileOf (standard.lay layer) o = .error fault ↔
      ¬ Names layer (chosenProfile layer o) ∧
        fault = .profile ⟨chosenProfile layer o, (standard.lay layer).profileNames⟩ := by
  have lost : ¬ Names layer (chosenProfile layer o) → Program.profileOf (standard.lay layer) o =
      .error (.profile ⟨chosenProfile layer o, (standard.lay layer).profileNames⟩) := by
    intro hl
    rw [names_iff hn, ← Option.ne_none_iff_exists', ne_eq, not_not,
      ← getD_defaultProfile_lay] at hl
    rw [profileOf_of_none hl, getD_defaultProfile_lay]
  constructor
  · intro hf
    have hl : ¬ Names layer (chosenProfile layer o) := by
      intro hk
      obtain ⟨p, hp, -⟩ := profileOf_of_names hn hk
      rw [hp] at hf
      cases hf
    rw [lost hl] at hf
    exact ⟨hl, (Except.error.inj hf).symm⟩
  · rintro ⟨hl, rfl⟩
    exact lost hl

theorem load_of_readLayer {files : Files} {explicit : Option String} {directory file : String}
    {text : List Char} (hf : source? files explicit directory = some file)
    (ht : readFileText files file = .ok text) (h : readLayer text = .ok layer) :
    load files explicit directory = .ok (standard.lay layer) := by
  simp only [load, hf, loadLayer, ht, h]
  rfl

end Resolution

/-- Each value of a profile is settled by the first layer that sets it. A profile
that no layer names is not found, a layer laid twice counts once, and no wrapper is
forgotten. -/
theorem values_settled_by_layers {text : List Char} {layer : ConfigLayer}
    (h : readLayer text = .ok layer) (o : Options) :
    (∀ files explicit directory file, source? files explicit directory = some file →
      readFileText files file = .ok text →
      load files explicit directory = .ok (standard.lay layer)) ∧
    (∀ fault, Program.profileOf (standard.lay layer) o = .error fault ↔
      ¬ Names layer (chosenProfile layer o) ∧
        fault = .profile ⟨chosenProfile layer o, (standard.lay layer).profileNames⟩) ∧
    (Names layer (chosenProfile layer o) → ∃ p, Program.profileOf (standard.lay layer) o = .ok p ∧
      p.name = chosenProfile layer o ∧ SettledBy (layersOf layer o (chosenProfile layer o)) p) ∧
    (∀ name, name ∈ (standard.lay layer).profileNames ↔ Names layer name) ∧
    (standard.lay layer).lay layer = standard.lay layer ∧
    Enlarges layer.wrappers (standard.lay layer).wrappers := by
  have hn : (layer.profiles.map (·.1)).Nodup := nodup_readLayer h
  refine ⟨?_, ?_, profileOf_of_names hn, ?_, lay_lay hn, enlarges_lay layer⟩
  · intro files explicit directory file hf ht
    exact load_of_readLayer hf ht h
  · intro fault
    exact profileOf_eq_error_iff hn
  · intro name
    exact mem_profileNames_lay hn

/-- A file that makes a profile of its own the default, changes the base profile and
names wrappers, one of them twice. -/
def sampleText : List Char :=
  "default-profile = \"ci\"
[profile.ci]
passes-needed = 2
timeout = \"90s\"
[profile.default]
max-repeats = 2
passes-needed = 3
[wrappers]
passthrough = [\"emulator.sh\", \"coin_qnx_qemu_runner.sh\", \"emulator.sh\"]
".toList

def sampleLayer : ConfigLayer where
  defaultProfile := some "ci"
  profiles := [("ci", ⟨none, some 2, none, some (.ofSeconds 90), none⟩),
    ("default", ⟨some 2, some 3, none, none, none⟩)]
  wrappers := ⟨["emulator.sh", "coin_qnx_qemu_runner.sh", "emulator.sh"], []⟩

def sampleEntries : Toml.Entries :=
  [("default-profile", .string "ci"),
    ("profile", .table .implied
      [("ci", .table .headed [("passes-needed", .integer 2), ("timeout", .string "90s")]),
        ("default", .table .headed [("max-repeats", .integer 2), ("passes-needed", .integer 3)])]),
    ("wrappers", .table .headed [("passthrough", .array
      [.string "emulator.sh", .string "coin_qnx_qemu_runner.sh", .string "emulator.sh"])])]

set_option maxRecDepth 10000 in
theorem entries_sampleText : Toml.read? sampleText = some sampleEntries := by
  unfold sampleText
  rw [Text.toList_literal rfl]
  rfl

theorem read_sampleText : readLayer sampleText = .ok sampleLayer := by
  rw [readLayer, entries_sampleText]
  cbv

/-- The values of the sample's profile come from four layers and the options; a
profile that nobody names is not found. -/
theorem values_settled_by_layers_of_sample :
    readLayer sampleText = .ok sampleLayer ∧
    (∃ p, Program.profileOf (standard.lay sampleLayer)
        { Options.standard with crashReruns := some 4 } = .ok p ∧ p.name = "ci" ∧
      p.policy.maxRepeats = 2 ∧ p.policy.passesNeeded = 2 ∧ p.policy.crashReruns = 4 ∧
      p.timeout = some (.ofSeconds 90) ∧
      p.policy.noRerun = ["initTestCase", "init", "cleanup", "cleanupTestCase"]) ∧
    Program.profileOf (standard.lay sampleLayer)
      { Options.standard with profile := some "nightly" } =
      .error (.profile ⟨"nightly", (standard.lay sampleLayer).profileNames⟩) := by
  have h : readLayer sampleText = .ok sampleLayer := read_sampleText
  have hk : Names sampleLayer "ci" := Or.inr (by decide)
  have hl : ¬ Names sampleLayer "nightly" := not_or.2 ⟨by decide, by decide⟩
  obtain ⟨-, -, hp, -⟩ := values_settled_by_layers h { Options.standard with crashReruns := some 4 }
  obtain ⟨-, hf, -⟩ :=
    values_settled_by_layers h { Options.standard with profile := some "nightly" }
  obtain ⟨p, hp, hn, hs⟩ := hp hk
  exact ⟨h, ⟨p, hp, hn, hs.maxRepeats, hs.passesNeeded, hs.crashReruns, hs.timeout, hs.noRerun⟩,
    (hf _).2 ⟨hl, rfl⟩⟩

end Config

end Retrial
