import Mathlib.Data.List.Nodup
import Retrial.Config.Reader
import Retrial.Proofs.Toml.Keys

/-!
# What a configuration file says

A group of settings is read setting by setting, so what holds of it is what each
setting keeps, and it cannot be read where one of its settings cannot. From this
the profiles of a layer are followed back to the document: each is named once,
and its timeout, if it has one, is what a text in the document denotes.
-/

set_option autoImplicit false

namespace Retrial

section Except

variable {α β ε : Type} {x : Except ε α} {e : ε} {b : β}

theorem bind_eq_ok {f : α → Except ε β} : x >>= f = .ok b ↔ ∃ a, x = .ok a ∧ f a = .ok b := by
  cases x <;> simp [bind, Except.bind]

theorem bind_eq_error {f : α → Except ε β} :
    x >>= f = .error e ↔ x = .error e ∨ ∃ a, x = .ok a ∧ f a = .error e := by
  cases x <;> simp [bind, Except.bind]

theorem map_eq_ok {f : α → β} : x.map f = .ok b ↔ ∃ a, x = .ok a ∧ f a = b := by
  cases x <;> simp [Except.map]

theorem map_eq_error {f : α → β} : x.map f = .error e ↔ x = .error e := by
  cases x <;> simp [Except.map]

theorem mapError_eq_ok {δ : Type} {f : ε → δ} {a : α} : x.mapError f = .ok a ↔ x = .ok a := by
  cases x <;> simp [Except.mapError]

theorem mapError_eq_error {δ : Type} {f : ε → δ} {e : δ} :
    x.mapError f = .error e ↔ ∃ e', x = .error e' ∧ f e' = e := by
  cases x <;> simp [Except.mapError]

theorem mapM_eq_ok {f : α → Except ε β} {xs : List α} {ys : List β} :
    xs.mapM f = .ok ys ↔ List.Forall₂ (fun a b => f a = .ok b) xs ys := by
  induction xs generalizing ys with
  | nil => simp [pure, Except.pure, eq_comm]
  | cons a xs ih =>
    rw [List.mapM_cons, bind_eq_ok, List.forall₂_cons_left_iff]
    constructor
    · rintro ⟨b, hb, h⟩
      obtain ⟨rest, hr, hy⟩ := bind_eq_ok.1 h
      exact ⟨b, rest, hb, ih.1 hr, (Except.ok.inj hy).symm⟩
    · rintro ⟨b, rest, hb, hr, rfl⟩
      exact ⟨b, hb, bind_eq_ok.2 ⟨rest, ih.2 hr, rfl⟩⟩

theorem exists_of_forall₂ {R : α → β → Prop} {xs : List α} {ys : List β}
    (h : List.Forall₂ R xs ys) {b : β} (hb : b ∈ ys) : ∃ a ∈ xs, R a b := by
  induction h with
  | nil => cases hb
  | @cons a b' xs ys hr _ ih =>
    obtain rfl | hb := List.mem_cons.1 hb
    · exact ⟨a, List.mem_cons_self, hr⟩
    · obtain ⟨a, ha, hr⟩ := ih hb
      exact ⟨a, List.mem_cons_of_mem _ ha, hr⟩

theorem mapM_eq_error {f : α → Except ε β} {xs : List α} (h : xs.mapM f = .error e) :
    ∃ a ∈ xs, f a = .error e := by
  induction xs with
  | nil => cases h
  | cons a xs ih =>
    rw [List.mapM_cons, bind_eq_error] at h
    obtain h | ⟨b, -, h⟩ := h
    · exact ⟨a, List.mem_cons_self, h⟩
    · obtain h | ⟨rest, -, h⟩ := bind_eq_error.1 h
      · obtain ⟨a, ha, h⟩ := ih h
        exact ⟨a, List.mem_cons_of_mem _ ha, h⟩
      · cases h

variable {f : β → α → Except ε β} {xs : List α} {start stop : β}

/-- What every step keeps is kept by all of them. -/
theorem foldlM_induction {P : β → Prop} (hs : ∀ a ∈ xs, ∀ b c, P b → f b a = .ok c → P c)
    (hp : P start) (h : xs.foldlM f start = .ok stop) : P stop := by
  induction xs generalizing start with
  | nil =>
    cases h
    exact hp
  | cons a xs ih =>
    obtain ⟨c, hc, h⟩ := bind_eq_ok.1 h
    exact ih (fun a ha => hs a (List.mem_cons_of_mem _ ha)) (hs a List.mem_cons_self _ c hp hc) h

theorem foldlM_eq_error (h : xs.foldlM f start = .error e) : ∃ a ∈ xs, ∃ b, f b a = .error e := by
  induction xs generalizing start with
  | nil => cases h
  | cons a xs ih =>
    obtain h | ⟨c, -, h⟩ := bind_eq_error.1 h
    · exact ⟨a, List.mem_cons_self, start, h⟩
    · obtain ⟨a, ha, h⟩ := ih h
      exact ⟨a, List.mem_cons_of_mem _ ha, h⟩

theorem exists_of_foldlM (h : xs.foldlM f start = .ok stop) : ∀ a ∈ xs, ∃ b c, f b a = .ok c := by
  induction xs generalizing start with
  | nil => simp
  | cons a xs ih =>
    obtain ⟨c, hc, h⟩ := bind_eq_ok.1 h
    exact List.forall_mem_cons.2 ⟨⟨start, c, hc⟩, ih h⟩

end Except

namespace Config

open Retrial.Toml (Value Entries Form)

section Group

variable {α : Type} {fields : List String} {unset group : α}
  {set : α → String → Value → Except ConfigDefect α} {v : Value}

theorem readGroup_eq_ok : readGroup fields unset set v = .ok group ↔ ∃ es,
    settings fields v = .ok es ∧ es.foldlM (fun group e => set group e.1 e.2) unset = .ok group :=
  bind_eq_ok

theorem readGroup_eq_error {d : ConfigDefect} (h : readGroup fields unset set v = .error d) :
    settings fields v = .error d ∨
      ∃ es, settings fields v = .ok es ∧ ∃ e ∈ es, ∃ group, set group e.1 e.2 = .error d := by
  obtain h | ⟨es, he, h⟩ := bind_eq_error.1 h
  · exact Or.inl h
  · exact Or.inr ⟨es, he, foldlM_eq_error h⟩

theorem settings_eq_error {d : ConfigDefect} (h : settings fields v = .error d) :
    d = .malformed := by
  unfold settings at h
  split at h <;> cases h
  rfl

end Group

theorem mem_inKeyOrder {es : Entries} {e : String × Value} : e ∈ inKeyOrder es ↔ e ∈ es :=
  (List.mergeSort_perm es _).mem_iff

theorem readCount_ne_uncountable (v : Value) : readCount v ≠ .error .uncountable := by
  unfold readCount
  split
  · split <;> simp
  · simp

theorem readString_ne_uncountable (v : Value) : readString v ≠ .error .uncountable := by
  unfold readString
  split <;> simp

theorem readNames_ne_uncountable (v : Value) : readNames v ≠ .error .uncountable := by
  unfold readNames
  split
  · intro h
    obtain ⟨v, -, h⟩ := mapM_eq_error h
    exact readString_ne_uncountable v h
  · simp

theorem readRegistry_ne_uncountable (v : Value) : readRegistry v ≠ .error .uncountable := by
  intro h
  obtain h | ⟨es, -, e, -, r, h⟩ := readGroup_eq_error h
  · cases settings_eq_error h
  · unfold setWrapperField at h
    split at h
    case h_3 => cases h
    all_goals exact readNames_ne_uncountable _ (map_eq_error.1 h)

theorem readString_eq_ok {v : Value} {text : String} :
    readString v = .ok text ↔ v = .string text := by
  unfold readString
  split <;> simp_all

theorem readSpan_eq_ok {v : Value} {d : Duration} :
    readSpan v = .ok d ↔ ∃ text, v = .string text ∧ Duration.read text.toList = .ok d := by
  unfold readSpan
  rw [bind_eq_ok]
  refine exists_congr fun text => and_congr readString_eq_ok ?_
  split <;> simp_all

theorem readSpan_eq_uncountable {v : Value} (h : readSpan v = .error .uncountable) :
    ∃ text, v = .string text ∧ Duration.read text.toList = .error .sumTooLarge := by
  obtain h | ⟨text, ht, h⟩ := bind_eq_error.1 h
  · exact absurd h (readString_ne_uncountable v)
  · refine ⟨text, readString_eq_ok.1 ht, ?_⟩
    split at h
    · cases h
    · assumption
    · cases h

section Profile

variable {v : Value} {s s' : ProfileSettings} {key : String} {d : Duration}

def profileFields : List String :=
  ["max-repeats", "passes-needed", "crash-reruns", "timeout", "no-rerun-functions"]

theorem readProfile_eq : readProfile = readGroup profileFields .none setProfileField := rfl

theorem setProfileField_timeout (h : setProfileField s key v = .ok s') :
    s'.timeout = s.timeout ∨ key = "timeout" ∧ ∃ d, readSpan v = .ok d ∧ s'.timeout = some d := by
  unfold setProfileField at h
  split at h
  case h_4 =>
    obtain ⟨d, hd, rfl⟩ := map_eq_ok.1 h
    exact Or.inr ⟨rfl, d, hd, rfl⟩
  case h_6 => cases h
  all_goals
    obtain ⟨a, -, rfl⟩ := map_eq_ok.1 h
    exact Or.inl rfl

theorem setProfileField_uncountable (h : setProfileField s key v = .error .uncountable) :
    key = "timeout" ∧ readSpan v = .error .uncountable := by
  unfold setProfileField at h
  split at h
  case h_1 | h_2 | h_3 => exact absurd (map_eq_error.1 h) (readCount_ne_uncountable v)
  case h_4 => exact ⟨rfl, map_eq_error.1 h⟩
  case h_5 => exact absurd (map_eq_error.1 h) (readNames_ne_uncountable v)
  case h_6 => cases h

def HasTimeout (v : Value) (text : String) : Prop :=
  ∃ es, settings profileFields v = .ok es ∧ ("timeout", .string text) ∈ es

theorem hasTimeout_of_readProfile (h : readProfile v = .ok s) (ht : s.timeout = some d) :
    ∃ text, HasTimeout v text ∧ Duration.read text.toList = .ok d := by
  obtain ⟨es, he, h⟩ := readGroup_eq_ok.1 (readProfile_eq ▸ h)
  let P (s : ProfileSettings) : Prop := ∀ d, s.timeout = some d →
    ∃ text, HasTimeout v text ∧ Duration.read text.toList = .ok d
  have step : ∀ e ∈ es, ∀ s s', P s → setProfileField s e.1 e.2 = .ok s' → P s' := by
    rintro ⟨key, w⟩ hm s s' hp hs d hd
    obtain hs | ⟨rfl, d', hr, hs⟩ := setProfileField_timeout hs
    · exact hp d (hs ▸ hd)
    · obtain rfl : d' = d := Option.some.inj (hs.symm.trans hd)
      obtain ⟨text, rfl, ht⟩ := readSpan_eq_ok.1 hr
      exact ⟨text, ⟨es, he, hm⟩, ht⟩
  have none : P ProfileSettings.none := fun d hd => by cases hd
  exact foldlM_induction (P := P) step none h d ht

theorem hasTimeout_of_uncountable (h : readProfile v = .error .uncountable) :
    ∃ text, HasTimeout v text ∧ Duration.read text.toList = .error .sumTooLarge := by
  obtain h | ⟨es, he, e, hm, s, h⟩ := readGroup_eq_error (readProfile_eq ▸ h)
  · cases settings_eq_error h
  · obtain ⟨key, w⟩ := e
    obtain ⟨rfl, h⟩ := setProfileField_uncountable h
    obtain ⟨text, rfl, ht⟩ := readSpan_eq_uncountable h
    exact ⟨text, ⟨es, he, hm⟩, ht⟩

theorem read_of_hasTimeout {text : String} (h : readProfile v = .ok s) (ht : HasTimeout v text) :
    ∃ d, Duration.read text.toList = .ok d := by
  obtain ⟨es, he, h⟩ := readGroup_eq_ok.1 (readProfile_eq ▸ h)
  obtain ⟨es', he', hm⟩ := ht
  obtain rfl : es = es' := Except.ok.inj (he.symm.trans he')
  obtain ⟨s, s', hs⟩ := exists_of_foldlM h _ hm
  obtain ⟨d, hd, -⟩ := map_eq_ok.1 (hs : (readSpan (.string text)).map _ = .ok s')
  obtain ⟨text', ht', hr⟩ := readSpan_eq_ok.1 hd
  cases ht'
  exact ⟨d, hr⟩

end Profile

section Layer

variable {v : Value} {layer layer' : ConfigLayer} {key : String} {cs : List Char}
  {ps : List (String × ProfileSettings)}

theorem readProfiles_eq_ok (h : readProfiles v = .ok ps) : ∃ form es, v = .table form es ∧
    List.Forall₂ (fun e p => e.1 = p.1 ∧ readProfile e.2 = .ok p.2) (inKeyOrder es) ps := by
  unfold readProfiles at h
  split at h
  · next form es =>
    refine ⟨form, es, rfl, (mapM_eq_ok.1 h).imp fun e p hp => ?_⟩
    obtain ⟨s, hs, rfl⟩ := map_eq_ok.1 hp
    exact ⟨rfl, hs⟩
  · cases h

theorem nodup_readProfiles (hv : v.Keyed) (h : readProfiles v = .ok ps) :
    (ps.map (·.1)).Nodup := by
  obtain ⟨form, es, rfl, hr⟩ := readProfiles_eq_ok h
  have hn : List.Forall₂ (· = ·) ((inKeyOrder es).map (·.1)) (ps.map (·.1)) :=
    List.forall₂_map_left_iff.2 (List.forall₂_map_right_iff.2 (hr.imp fun _ _ h => h.1))
  rw [List.forall₂_eq_eq_eq] at hn
  rw [← hn]
  exact ((List.mergeSort_perm es _).map _).nodup_iff.2 (Toml.Value.keyed_table.1 hv).nodup

theorem setLayerField_profiles (h : setLayerField layer key v = .ok layer') :
    layer'.profiles = layer.profiles ∨
      key = "profile" ∧ ∃ ps, readProfiles v = .ok ps ∧ layer'.profiles = ps := by
  unfold setLayerField at h
  split at h
  case h_2 =>
    obtain ⟨ps, hp, rfl⟩ := map_eq_ok.1 h
    exact Or.inr ⟨rfl, ps, hp, rfl⟩
  case h_4 => cases h
  all_goals
    obtain ⟨a, -, rfl⟩ := map_eq_ok.1 h
    exact Or.inl rfl

theorem readLayer_eq_ok (h : readLayer cs = .ok layer) : ∃ es, Toml.read? cs = some es ∧
    (inKeyOrder es).foldlM (fun layer e => setLayerField layer e.1 e.2)
      (⟨none, [], ⟨[], []⟩⟩ : ConfigLayer) = .ok layer := by
  unfold readLayer at h
  split at h
  · cases h
  · next es he =>
    obtain ⟨es', hs, h⟩ := readGroup_eq_ok.1 h
    cases hs
    exact ⟨es, he, h⟩

theorem nodup_readLayer (h : readLayer cs = .ok layer) : (layer.profiles.map (·.1)).Nodup := by
  obtain ⟨es, he, h⟩ := readLayer_eq_ok h
  let P (l : ConfigLayer) : Prop := (l.profiles.map (·.1)).Nodup
  have step : ∀ e ∈ inKeyOrder es, ∀ l l', P l → setLayerField l e.1 e.2 = .ok l' → P l' := by
    intro e hm l l' hn hl
    obtain hl | ⟨-, ps, hp, rfl⟩ := setLayerField_profiles hl
    · show (l'.profiles.map (·.1)).Nodup
      rwa [hl]
    · exact nodup_readProfiles ((Toml.keyed_read? he).values e (mem_inKeyOrder.1 hm)) hp
  have none : P ⟨none, [], ⟨[], []⟩⟩ := List.nodup_nil
  exact foldlM_induction (P := P) step none h

inductive StatesTimeout (cs : List Char) (text : String) : Prop
  | intro {es profiles : Entries} {form : Form} {name : String} {v : Value} :
      Toml.read? cs = some es → ("profile", .table form profiles) ∈ es → (name, v) ∈ profiles →
      HasTimeout v text → StatesTimeout cs text

theorem timeout_readLayer {p : String × ProfileSettings} {d : Duration}
    (h : readLayer cs = .ok layer) (hp : p ∈ layer.profiles) (ht : p.2.timeout = some d) :
    ∃ text, StatesTimeout cs text ∧ Duration.read text.toList = .ok d := by
  obtain ⟨es, he, h⟩ := readLayer_eq_ok h
  let P (l : ConfigLayer) : Prop := ∀ p ∈ l.profiles, ∀ d, p.2.timeout = some d →
    ∃ text, StatesTimeout cs text ∧ Duration.read text.toList = .ok d
  have step : ∀ e ∈ inKeyOrder es, ∀ l l', P l → setLayerField l e.1 e.2 = .ok l' → P l' := by
    rintro ⟨key, v⟩ hm l l' hp hl p hx d hd
    obtain hl | ⟨rfl, ps, hps, rfl⟩ := setLayerField_profiles hl
    · exact hp p (hl ▸ hx) d hd
    · obtain ⟨form, profiles, rfl, hf⟩ := readProfiles_eq_ok hps
      obtain ⟨e, hy, hn, hr⟩ := exists_of_forall₂ hf hx
      obtain ⟨text, ht, hr⟩ := hasTimeout_of_readProfile hr hd
      exact ⟨text, .intro he (mem_inKeyOrder.1 hm) (mem_inKeyOrder.1 hy) ht, hr⟩
  have none : P ⟨none, [], ⟨[], []⟩⟩ := by simp [P]
  exact foldlM_induction (P := P) step none h p hp d ht

theorem read_of_statesTimeout {text : String} (h : readLayer cs = .ok layer)
    (ht : StatesTimeout cs text) : ∃ d, Duration.read text.toList = .ok d := by
  obtain ⟨he', hp, hn, ht⟩ := ht
  obtain ⟨es, he, h⟩ := readLayer_eq_ok h
  cases he.symm.trans he'
  obtain ⟨l, l', hl⟩ := exists_of_foldlM h _ (mem_inKeyOrder.2 hp)
  obtain ⟨ps, hps, -⟩ := map_eq_ok.1 (hl : (readProfiles _).map _ = .ok l')
  obtain ⟨form, profiles, hv, hf⟩ := readProfiles_eq_ok hps
  cases hv
  obtain ⟨p, -, -, hr⟩ := exists_of_forall₂ hf.flip (mem_inKeyOrder.2 hn)
  exact read_of_hasTimeout hr ht

theorem setLayerField_uncountable (h : setLayerField layer key v = .error .uncountable) :
    key = "profile" ∧ readProfiles v = .error .uncountable := by
  unfold setLayerField at h
  split at h
  case h_1 => exact absurd (map_eq_error.1 h) (readString_ne_uncountable v)
  case h_2 => exact ⟨rfl, map_eq_error.1 h⟩
  case h_3 => exact absurd (map_eq_error.1 h) (readRegistry_ne_uncountable v)
  case h_4 => cases h

/-- Where the reading of a layer cannot be finished, the document states a timeout
that cannot be counted. -/
theorem statesTimeout_of_uncountable (h : readLayer cs = .error .uncountable) :
    ∃ text, StatesTimeout cs text ∧ Duration.read text.toList = .error .sumTooLarge := by
  unfold readLayer at h
  split at h
  · cases h
  · next es he =>
    obtain h | ⟨es', hs, ⟨key, v⟩, hm, l, h⟩ := readGroup_eq_error h
    · cases h
    · cases hs
      obtain ⟨rfl, h⟩ := setLayerField_uncountable h
      unfold readProfiles at h
      split at h
      · next form profiles hv =>
        obtain ⟨e, hn, h⟩ := mapM_eq_error h
        obtain ⟨text, ht, hr⟩ := hasTimeout_of_uncountable (map_eq_error.1 h)
        obtain rfl : v = .table form profiles := hv
        exact ⟨text, .intro he (mem_inKeyOrder.1 hm) (mem_inKeyOrder.1 hn) ht, hr⟩
      · cases h

end Layer

end Config

end Retrial
