import Retrial.Options.Reader
import Retrial.Proofs.Config.Reading

/-!
# What a command line gives

Options stand in front of the test command, each with its value attached or
behind it. What is kept by entering one option is kept by reading them all; from
this it follows that a timeout, once it is given, is the timeout of the options
that are read, and that only a timeout makes reading give up.
-/

set_option autoImplicit false

namespace Retrial.Options

section Forms

variable {arg text : String} {cs : List Char} {o : OptionName}

theorem eq_of_splitAttached (h : (splitAttached cs).2 = some text) :
    cs = (splitAttached cs).1.toList ++ '=' :: text.toList := by
  unfold splitAttached at h ⊢
  split
  · next hd => simp [hd] at h
  · next c value hd =>
    have hc : c = '=' := by
      have hne : cs.dropWhile (· != '=') ≠ [] := by simp [hd]
      have hh := List.head_dropWhile_not (· != '=') hne
      simpa [hd] using hh
    have ha := List.takeWhile_append_dropWhile (p := (· != '=')) (l := cs)
    obtain rfl : String.ofList value = text := by simpa [hd] using h
    rw [hd, hc] at ha
    simpa using ha.symm

theorem eq_of_splitAttached_none (h : (splitAttached cs).2 = none) :
    cs = (splitAttached cs).1.toList := by
  unfold splitAttached at h ⊢
  split
  · simp
  · next hd => simp [hd] at h

theorem long_of_ofLong? {name : String} (h : OptionName.ofLong? name = some o) : o.long = name := by
  simpa using List.find?_some h

theorem formOf_eq_long {attached : Option String} (h : formOf arg = .long o attached) :
    arg = "--" ++ o.long ++ attached.elim "" ("=" ++ ·) := by
  unfold formOf at h
  split at h
  · cases h
  · next cs _ hcs =>
    dsimp only at h
    split at h
    · next o' ho =>
      obtain ⟨rfl, ha⟩ : o' = o ∧ (splitAttached cs).2 = attached := by simpa using h
      rw [long_of_ofLong? ho, ← String.toList_inj, hcs]
      cases attached with
      | none => simpa using eq_of_splitAttached_none ha
      | some text => simpa using eq_of_splitAttached ha
    · cases h
  · split at h <;> cases h
  · cases h

theorem formOf_timeout : formOf "--timeout" = .long .timeout none := by decide

theorem formOf_attached_timeout (text : String) :
    formOf ("--timeout=" ++ text) = .long .timeout (some text) := by
  have hl : ("--timeout=" ++ text).toList =
      '-' :: '-' :: 't' :: ("imeout=".toList ++ text.toList) := by simp
  have hs : splitAttached ('t' :: ("imeout=".toList ++ text.toList)) = ("timeout", some text) := by
    simp [splitAttached]
  have ho : OptionName.ofLong? "timeout" = some .timeout := by decide
  simp only [formOf, hl, hs, ho]

theorem formOf_ne_shorts_nil : formOf arg ≠ .shorts [] := by
  intro h
  unfold formOf at h
  split at h
  · cases h
  · dsimp only at h
    split at h <;> cases h
  · next c cs _ _ =>
    split at h
    · next os ho =>
      cases h
      rw [List.mapM_cons] at ho
      obtain ⟨o, -, ho⟩ := Option.bind_eq_some_iff.1 ho
      obtain ⟨os, -, ho⟩ := Option.bind_eq_some_iff.1 ho
      cases ho
    · cases h
  · cases h

end Forms

section Drafts

variable {d d' : Draft} {o : OptionName} {text : String} {f : OptionFault}

theorem enter_eq_ok : d.enter o text = .ok d' ↔ o ∉ d.given ∧ ∃ opts,
    assign d.options o text = .ok opts ∧
      d' = { d with options := opts, given := d.given ++ [o] } := by
  unfold Draft.enter
  by_cases ho : o ∈ d.given
  · simp [ho]
  · rw [if_neg (by simpa using ho), map_eq_ok]
    simp [ho, eq_comm]

theorem settle_eq_ok : d.settle = .ok d' ↔ d.pending = none ∧ d' = d ∨
    ∃ o text, d.pending = some ⟨o, some text⟩ ∧
      { d with pending := none }.enter o text = .ok d' := by
  unfold Draft.settle
  split
  · next hp => simp [hp, eq_comm]
  · next hp => simp [hp]
  · next hp => simp [hp]

theorem enterFlag_eq_ok : d.enterFlag o = .ok d' ↔
    ∃ d₁, d.settle = .ok d₁ ∧ d₁.enter o "true" = .ok d' :=
  bind_eq_ok

theorem enterFlags_cons_eq_ok {os : List OptionName} (h : d.enterFlags (o :: os) = .ok d') :
    ∃ d₁, d.enterFlag o = .ok d₁ ∧ d₁.enterFlags os = .ok d' := by
  unfold Draft.enterFlags at h
  split at h
  case h_1 he => cases he
  case h_2 he =>
    obtain ⟨d₁, -, h⟩ := bind_eq_ok.1 h
    cases h
  case h_3 he =>
    cases he
    exact bind_eq_ok.1 h

theorem pending_of_settle (h : d.settle = .ok d') : d'.pending = none := by
  obtain ⟨hp, rfl⟩ | ⟨o, text, -, h⟩ := settle_eq_ok.1 h
  · exact hp
  · obtain ⟨-, opts, -, rfl⟩ := enter_eq_ok.1 h
    rfl

theorem settle_settle (h : d.settle = .ok d') : d'.settle = .ok d' :=
  settle_eq_ok.2 (.inl ⟨pending_of_settle h, rfl⟩)

theorem settled_of_map {α : Type} {g : Draft → α} {a : α} (h : d.settle.map g = .ok a) :
    ∃ d₁, d.settle = .ok d₁ ∧ d₁.settle.map g = .ok a := by
  obtain ⟨d₁, hs, hg⟩ := map_eq_ok.1 h
  exact ⟨d₁, hs, map_eq_ok.2 ⟨d₁, settle_settle hs, hg⟩⟩

theorem settled_of_bind {g : Draft → Except OptionFault Draft} (h : d.settle.bind g = .ok d') :
    ∃ d₁, d.settle = .ok d₁ ∧ d₁.settle.bind g = .ok d' := by
  obtain ⟨d₁, hs, hg⟩ := bind_eq_ok.1 h
  exact ⟨d₁, hs, bind_eq_ok.2 ⟨d₁, settle_settle hs, hg⟩⟩

theorem settled_of_enterLong {attached : Option String} (h : d.enterLong o attached = .ok d') :
    ∃ d₁, d.settle = .ok d₁ ∧ d₁.enterLong o attached = .ok d' := by
  cases attached with
  | none =>
    cases ht : o.takesValue with
    | true =>
      simp only [Draft.enterLong, ht] at h ⊢
      exact settled_of_map h
    | false =>
      simp only [Draft.enterLong, ht] at h ⊢
      exact settled_of_bind h
  | some text =>
    cases ht : o.takesValue with
    | true =>
      simp only [Draft.enterLong, ht] at h ⊢
      exact settled_of_bind h
    | false => simp [Draft.enterLong, ht] at h

theorem settled_of_enterFlags {os : List OptionName} (hos : os ≠ [])
    (h : d.enterFlags os = .ok d') : ∃ d₁, d.settle = .ok d₁ ∧ d₁.enterFlags os = .ok d' := by
  unfold Draft.enterFlags at h ⊢
  split at h
  · exact absurd rfl hos
  · exact settled_of_bind h
  · obtain ⟨d₂, hf, h⟩ := bind_eq_ok.1 h
    obtain ⟨d₁, hs, hf⟩ := settled_of_bind hf
    exact ⟨d₁, hs, bind_eq_ok.2 ⟨d₂, hf, h⟩⟩

theorem settled_of_readArgs {args : List String} {r : Draft × List String} (hp : d.awaiting? = none)
    (h : readArgs d args = .ok r) : ∃ d₁, d.settle = .ok d₁ ∧ readArgs d₁ args = .ok r := by
  cases args with
  | nil => exact settled_of_map h
  | cons arg args =>
    unfold readArgs at h ⊢
    cases hf : formOf arg with
    | separator =>
      simp only [hf] at h ⊢
      exact settled_of_map h
    | long o attached =>
      simp only [hf] at h ⊢
      obtain ⟨d₂, he, h⟩ := bind_eq_ok.1 h
      obtain ⟨d₁, hs, he⟩ := settled_of_enterLong he
      exact ⟨d₁, hs, bind_eq_ok.2 ⟨d₂, he, h⟩⟩
    | shorts os =>
      simp only [hf] at h ⊢
      obtain ⟨d₂, he, h⟩ := bind_eq_ok.1 h
      obtain ⟨d₁, hs, he⟩ := settled_of_enterFlags (fun ho => formOf_ne_shorts_nil (ho ▸ hf)) he
      exact ⟨d₁, hs, bind_eq_ok.2 ⟨d₂, he, h⟩⟩
    | word =>
      simp only [hf, hp] at h ⊢
      obtain ⟨d₁, hs, h⟩ := settled_of_map h
      have hw : d₁.awaiting? = none := by rw [Draft.awaiting?, pending_of_settle hs]
      exact ⟨d₁, hs, by rw [hw]; exact h⟩

/-- What holds of a draft however an option is entered into it, and whatever is pending. -/
structure Kept (P : Draft → Prop) : Prop where
  enter : ∀ {d d' o text}, P d → d.enter o text = .ok d' → P d'
  pending : ∀ {d} p, P d → P { d with pending := p }

namespace Kept

variable {P : Draft → Prop} {args rest : List String}

theorem settle (hk : Kept P) (hd : P d) (h : d.settle = .ok d') : P d' := by
  obtain ⟨-, rfl⟩ | ⟨o, text, -, h⟩ := settle_eq_ok.1 h
  · exact hd
  · exact hk.enter (hk.pending none hd) h

theorem enterFlag (hk : Kept P) (hd : P d) (h : d.enterFlag o = .ok d') : P d' := by
  obtain ⟨d₁, hs, he⟩ := enterFlag_eq_ok.1 h
  exact hk.enter (hk.settle hd hs) he

theorem enterFlags (hk : Kept P) {os : List OptionName} (hd : P d) (h : d.enterFlags os = .ok d') :
    P d' := by
  induction os generalizing d with
  | nil =>
    cases h
    exact hd
  | cons o os ih =>
    obtain ⟨d₁, hf, h⟩ := enterFlags_cons_eq_ok h
    exact ih (hk.enterFlag hd hf) h

theorem enterLong (hk : Kept P) {attached : Option String} (hd : P d)
    (h : d.enterLong o attached = .ok d') : P d' := by
  unfold Draft.enterLong at h
  split at h
  · split at h
    · obtain ⟨d₁, hs, he⟩ := bind_eq_ok.1 h
      exact hk.enter (hk.settle hd hs) he
    · cases h
  · split at h
    · obtain ⟨d₁, hs, rfl⟩ := map_eq_ok.1 h
      exact hk.pending _ (hk.settle hd hs)
    · exact hk.enterFlag hd h

/-- What every option that is entered keeps is kept by the whole command line. -/
theorem readArgs (hk : Kept P) (hd : P d) (h : readArgs d args = .ok (d', rest)) : P d' := by
  induction args generalizing d with
  | nil =>
    obtain ⟨d₁, hs, he⟩ := map_eq_ok.1 h
    cases he
    exact hk.settle hd hs
  | cons arg args ih =>
    unfold Options.readArgs at h
    split at h
    · obtain ⟨d₁, hs, he⟩ := map_eq_ok.1 h
      cases he
      exact hk.settle hd hs
    · obtain ⟨d₁, hs, h⟩ := bind_eq_ok.1 h
      exact ih (hk.enterLong hd hs) h
    · obtain ⟨d₁, hs, h⟩ := bind_eq_ok.1 h
      exact ih (hk.enterFlags hd hs) h
    · split at h
      · exact ih (hk.pending _ hd) h
      · obtain ⟨d₁, hs, he⟩ := map_eq_ok.1 h
        cases he
        exact hk.settle hd hs

theorem readVariables (hk : Kept P) {env : Environment} {os : List OptionName} (hd : P d)
    (h : readVariables env d os = .ok d') : P d' := by
  induction os generalizing d with
  | nil =>
    cases h
    exact hd
  | cons o os ih =>
    unfold Options.readVariables at h
    split at h
    · split at h
      · exact ih hd h
      · obtain ⟨d₁, he, h⟩ := bind_eq_ok.1 h
        exact ih (hk.enter hd he) h
    · exact ih hd h

end Kept

end Drafts

section Timeouts

variable {opts opts' : Options} {d d' : Draft} {o : OptionName} {text message : String}
  {t : Duration} {args rest : List String}

theorem timeoutOf_eq_ok : timeoutOf text = .ok t ↔ Duration.readTimeout text = .ok t := by
  unfold timeoutOf
  split <;> simp_all

theorem timeoutOf_of_error {fault : Duration.TimeoutFault}
    (h : Duration.readTimeout text = .error fault) :
    timeoutOf text = .error (if fault.isOverflow then .timeoutOverflow fault.message
      else .valueRefused .timeout text fault.message) := by
  simp only [timeoutOf, h]

theorem overflow_of_timeoutOf (h : timeoutOf text = .error (.timeoutOverflow message)) :
    ∃ fault, Duration.readTimeout text = .error fault ∧ fault.isOverflow = true := by
  unfold timeoutOf at h
  split at h
  · cases h
  · next fault hf =>
    refine ⟨fault, hf, ?_⟩
    by_contra ho
    rw [if_neg ho] at h
    cases h

theorem assign_timeout (h : assign opts o text = .ok opts') :
    o ≠ .timeout ∧ opts'.timeout = opts.timeout ∨
      o = .timeout ∧ ∃ t, Duration.readTimeout text = .ok t ∧ opts'.timeout = some t := by
  unfold assign at h
  split at h
  case h_9 =>
    obtain ⟨t, ht, rfl⟩ := map_eq_ok.1 h
    exact .inr ⟨rfl, t, timeoutOf_eq_ok.1 ht, rfl⟩
  case h_1 | h_2 | h_3 =>
    split at h <;> cases h
    exact .inl ⟨by simp, rfl⟩
  case h_6 | h_7 | h_8 =>
    obtain ⟨n, -, rfl⟩ := map_eq_ok.1 h
    exact .inl ⟨by simp, rfl⟩
  all_goals
    cases h
    try exact .inl ⟨by simp, rfl⟩

theorem assign_overflow (h : assign opts o text = .error (.timeoutOverflow message)) :
    o = .timeout ∧ timeoutOf text = .error (.timeoutOverflow message) := by
  unfold assign at h
  split at h
  case h_9 => exact ⟨rfl, map_eq_error.1 h⟩
  case h_1 | h_2 | h_3 => split at h <;> cases h
  case h_6 | h_7 | h_8 =>
    have hc := map_eq_error.1 h
    unfold countOf at hc
    cases hr : readCount text <;> rw [hr] at hc <;> cases hc
  all_goals cases h

def Fixes (t : Duration) (d : Draft) : Prop := .timeout ∈ d.given ∧ d.options.timeout = some t

theorem kept_fixes (t : Duration) : Kept (Fixes t) where
  enter := by
    intro d d' o text hd h
    obtain ⟨hg, opts, ha, rfl⟩ := enter_eq_ok.1 h
    obtain ⟨-, ht⟩ | ⟨rfl, -⟩ := assign_timeout ha
    · exact ⟨List.mem_append_left _ hd.1, ht.trans hd.2⟩
    · exact absurd hd.1 hg
  pending _ hd := hd

theorem fixes_of_enter (h : d.enter .timeout text = .ok d') :
    ∃ t, Duration.readTimeout text = .ok t ∧ Fixes t d' := by
  obtain ⟨-, opts, ha, rfl⟩ := enter_eq_ok.1 h
  obtain ⟨hn, -⟩ | ⟨-, t, ht, ho⟩ := assign_timeout ha
  · exact absurd rfl hn
  · exact ⟨t, ht, by simp, ho⟩

theorem kept_positive : Kept fun d => ∀ t, d.options.timeout = some t → t.isZero = false where
  enter := by
    intro d d' o text hd h t ht
    obtain ⟨-, opts, ha, rfl⟩ := enter_eq_ok.1 h
    obtain ⟨-, ho⟩ | ⟨-, t', hr, ho⟩ := assign_timeout ha
    · exact hd t (ho.symm.trans ht)
    · obtain rfl : t' = t := Option.some.inj (ho.symm.trans ht)
      exact Duration.readTimeout_ne_zero hr
  pending _ hd := hd

/-- A text that stands as the value of the timeout among the options in front of
the test command. -/
inductive Gives : List String → String → Prop
  | attached {text : String} {rest : List String} : Gives (("--timeout=" ++ text) :: rest) text
  | separate {text : String} {rest : List String} :
      formOf text = .word → Gives ("--timeout" :: text :: rest) text
  | behindFlags {arg text : String} {os : List OptionName} {rest : List String} :
      formOf arg = .shorts os → Gives rest text → Gives (arg :: rest) text
  | behindOption {arg text value : String} {o : OptionName} {rest : List String} :
      formOf arg = .long o (some value) → Gives rest text → Gives (arg :: rest) text
  | behindFlag {arg text : String} {o : OptionName} {rest : List String} :
      formOf arg = .long o none → o.takesValue = false → Gives rest text → Gives (arg :: rest) text
  | behindValue {arg text value : String} {o : OptionName} {rest : List String} :
      formOf arg = .long o none → o.takesValue = true → formOf value = .word → Gives rest text →
      Gives (arg :: value :: rest) text

/-- The text of a timeout is read, and its timeout is the one that counts. -/
theorem fixes_of_gives (hg : Gives args text) (h : readArgs d args = .ok (d', rest)) :
    ∃ t, Duration.readTimeout text = .ok t ∧ Fixes t d' := by
  induction hg generalizing d with
  | attached =>
    rw [readArgs, formOf_attached_timeout] at h
    obtain ⟨d₁, he, h⟩ := bind_eq_ok.1 h
    obtain ⟨d₂, -, he⟩ := bind_eq_ok.1 (he : d.settle.bind (·.enter .timeout _) = .ok d₁)
    obtain ⟨t, ht, hf⟩ := fixes_of_enter he
    exact ⟨t, ht, (kept_fixes t).readArgs hf h⟩
  | @separate text rest' hw =>
    rw [readArgs, formOf_timeout] at h
    obtain ⟨d₁, he, h⟩ := bind_eq_ok.1 h
    obtain ⟨d₂, -, rfl⟩ := map_eq_ok.1 (he : d.settle.map _ = .ok d₁)
    rw [readArgs, hw] at h
    obtain ⟨d₃, hs, h⟩ := settled_of_readArgs rfl h
    obtain ⟨t, ht, hf⟩ := fixes_of_enter hs
    exact ⟨t, ht, (kept_fixes t).readArgs hf h⟩
  | behindFlags ho hg ih =>
    rw [readArgs, ho] at h
    obtain ⟨d₁, -, h⟩ := bind_eq_ok.1 h
    exact ih h
  | behindOption ho hg ih =>
    rw [readArgs, ho] at h
    obtain ⟨d₁, -, h⟩ := bind_eq_ok.1 h
    exact ih h
  | behindFlag ho _ hg ih =>
    rw [readArgs, ho] at h
    obtain ⟨d₁, -, h⟩ := bind_eq_ok.1 h
    exact ih h
  | @behindValue arg text value o rest' ho ht hw hg ih =>
    rw [readArgs, ho] at h
    obtain ⟨d₁, he, h⟩ := bind_eq_ok.1 h
    rw [Draft.enterLong, if_pos ht] at he
    obtain ⟨d₂, -, rfl⟩ := map_eq_ok.1 he
    rw [readArgs, hw] at h
    exact ih h

theorem enter_overflow (h : d.enter o text = .error (.timeoutOverflow message)) :
    o = .timeout ∧ timeoutOf text = .error (.timeoutOverflow message) := by
  unfold Draft.enter at h
  split at h
  · cases h
  · exact assign_overflow (map_eq_error.1 h)

theorem settle_overflow (h : d.settle = .error (.timeoutOverflow message)) :
    ∃ text, d.pending = some ⟨.timeout, some text⟩ ∧
      timeoutOf text = .error (.timeoutOverflow message) := by
  unfold Draft.settle at h
  split at h
  · cases h
  · cases h
  · next o text hp =>
    obtain ⟨rfl, ht⟩ := enter_overflow h
    exact ⟨text, hp, ht⟩

theorem timeoutOf_true :
    timeoutOf "true" = .error (.valueRefused .timeout "true" "expected number at 0") := by
  have hl : Number.readLiteral "true".toList = none := by decide +kernel
  have hr : Duration.read "true".toList = .error (.numberExpected 0) := rfl
  have ht : Duration.readTimeout "true" = .error (.unreadable (.numberExpected 0)) := by
    simp only [Duration.readTimeout, Duration.readSpan, hl, hr]
    rfl
  exact timeoutOf_of_error ht

theorem enterFlag_overflow (h : d.enterFlag o = .error (.timeoutOverflow message)) :
    d.settle = .error (.timeoutOverflow message) := by
  obtain h | ⟨d₁, -, h⟩ := bind_eq_error.1 h
  · exact h
  · have ht := (enter_overflow h).2
    rw [timeoutOf_true] at ht
    cases ht

theorem pending_of_enterFlag (h : d.enterFlag o = .ok d') : d'.pending = none := by
  obtain ⟨d₁, hs, he⟩ := enterFlag_eq_ok.1 h
  obtain ⟨-, opts, -, rfl⟩ := enter_eq_ok.1 he
  have hp : d₁.pending = none := pending_of_settle hs
  exact hp

theorem pending_of_enterFlags {os : List OptionName} (hos : os ≠ [])
    (h : d.enterFlags os = .ok d') : d'.pending = none := by
  induction os generalizing d with
  | nil => exact absurd rfl hos
  | cons o os ih =>
    obtain ⟨d₁, hf, h⟩ := enterFlags_cons_eq_ok h
    cases os with
    | nil =>
      cases h
      exact pending_of_enterFlag hf
    | cons o os => exact ih (List.cons_ne_nil o os) h

theorem enterFlags_overflow {os : List OptionName}
    (h : d.enterFlags os = .error (.timeoutOverflow message)) :
    d.settle = .error (.timeoutOverflow message) := by
  induction os generalizing d with
  | nil => cases h
  | cons o os ih =>
    unfold Draft.enterFlags at h
    split at h
    case h_1 he => cases he
    case h_2 he =>
      obtain h | ⟨d₁, -, h⟩ := bind_eq_error.1 h
      · exact h
      · cases h
    case h_3 he =>
      cases he
      obtain h | ⟨d₁, hf, h⟩ := bind_eq_error.1 h
      · exact enterFlag_overflow h
      · obtain ⟨text, hp, -⟩ := settle_overflow (ih h)
        rw [pending_of_enterFlag hf] at hp
        cases hp

theorem enterLong_overflow {attached : Option String}
    (h : d.enterLong o attached = .error (.timeoutOverflow message)) :
    d.settle = .error (.timeoutOverflow message) ∨ o = .timeout ∧ ∃ text d₁, attached = some text ∧
      d.settle = .ok d₁ ∧ timeoutOf text = .error (.timeoutOverflow message) := by
  unfold Draft.enterLong at h
  split at h
  · split at h
    · obtain h | ⟨d₁, hs, h⟩ := bind_eq_error.1 h
      · exact .inl h
      · obtain ⟨ho, ht⟩ := enter_overflow h
        exact .inr ⟨ho, _, d₁, rfl, hs, ht⟩
    · unfold Draft.unneeded at h
      split at h
      · next hs =>
        cases h
        exact .inl hs
      · cases h
  · split at h
    · exact .inl (map_eq_error.1 h)
    · exact .inl (enterFlag_overflow h)

def Draft.Offers (d : Draft) (args : List String) (text : String) : Prop :=
  match d.pending with
  | none => Gives args text
  | some ⟨o, some value⟩ => o = .timeout ∧ value = text ∨ Gives args text
  | some ⟨o, none⟩ => ∃ value rest, args = value :: rest ∧ formOf value = .word ∧
      (o = .timeout ∧ value = text ∨ Gives rest text)

theorem offers_of_gives (hs : d.settle = .ok d') (hg : Gives args text) : d.Offers args text := by
  unfold Draft.Offers
  obtain ⟨hp, -⟩ | ⟨o, value, hp, -⟩ := settle_eq_ok.1 hs
  · rw [hp]
    exact hg
  · rw [hp]
    exact .inr hg

theorem gives_of_offers (hp : d.pending = none) (ho : d.Offers args text) : Gives args text := by
  rwa [Draft.Offers, hp] at ho

theorem pending_of_awaiting (h : d.awaiting? = some o) : d.pending = some ⟨o, none⟩ := by
  unfold Draft.awaiting? at h
  split at h
  · cases h
    assumption
  · cases h

theorem gives_behind_long {arg : String} {attached : Option String}
    (hf : formOf arg = .long o attached) (he : d.enterLong o attached = .ok d')
    (ho : d'.Offers args text) : Gives (arg :: args) text := by
  unfold Draft.enterLong at he
  split at he
  · next value =>
    split at he
    · obtain ⟨d₁, hs, he⟩ := bind_eq_ok.1 he
      obtain ⟨-, opts, -, rfl⟩ := enter_eq_ok.1 he
      have hp : d₁.pending = none := pending_of_settle hs
      exact .behindOption hf (gives_of_offers hp ho)
    · cases he
  · split at he
    · next hv =>
      obtain ⟨d₁, -, rfl⟩ := map_eq_ok.1 he
      obtain ⟨value, rest, rfl, hw, ⟨rfl, rfl⟩ | hg⟩ := ho
      · exact formOf_eq_long hf ▸ .separate hw
      · exact .behindValue hf hv hw hg
    · next hv =>
      exact .behindFlag hf (by simpa using hv) (gives_of_offers (pending_of_enterFlag he) ho)

/-- Reading gives up only on a text that is given for the timeout. -/
theorem offers_of_overflow (h : readArgs d args = .error (.timeoutOverflow message)) :
    ∃ text, timeoutOf text = .error (.timeoutOverflow message) ∧ d.Offers args text := by
  have hs : ∀ {d : Draft} {args : List String}, d.settle = .error (.timeoutOverflow message) →
      ∃ text, timeoutOf text = .error (.timeoutOverflow message) ∧ d.Offers args text := by
    intro d args h
    obtain ⟨text, hp, ht⟩ := settle_overflow h
    exact ⟨text, ht, by rw [Draft.Offers, hp]; exact .inl ⟨rfl, rfl⟩⟩
  induction args generalizing d with
  | nil => exact hs (map_eq_error.1 h)
  | cons arg args ih =>
    unfold readArgs at h
    split at h
    case h_1 => exact hs (map_eq_error.1 h)
    case h_2 o attached hf =>
      obtain h | ⟨d₁, he, h⟩ := bind_eq_error.1 h
      · obtain h | ⟨rfl, text, d₁, rfl, hd, ht⟩ := enterLong_overflow h
        · exact hs h
        · exact ⟨text, ht, offers_of_gives hd (formOf_eq_long hf ▸ .attached)⟩
      · obtain ⟨text, ht, ho⟩ := ih h
        obtain ⟨d₂, hd, -⟩ := settled_of_enterLong he
        exact ⟨text, ht, offers_of_gives hd (gives_behind_long hf he ho)⟩
    case h_3 os hf =>
      obtain h | ⟨d₁, he, h⟩ := bind_eq_error.1 h
      · exact hs (enterFlags_overflow h)
      · obtain ⟨text, ht, ho⟩ := ih h
        have hos : os ≠ [] := fun ho => formOf_ne_shorts_nil (ho ▸ hf)
        obtain ⟨d₂, hd, -⟩ := settled_of_enterFlags hos he
        exact ⟨text, ht, offers_of_gives hd
          (.behindFlags hf (gives_of_offers (pending_of_enterFlags hos he) ho))⟩
    case h_4 hf =>
      cases hp : d.awaiting? with
      | none =>
        rw [hp] at h
        exact hs (map_eq_error.1 h)
      | some o =>
        rw [hp] at h
        obtain ⟨text, ht, ho⟩ := ih h
        refine ⟨text, ht, ?_⟩
        rw [Draft.Offers, pending_of_awaiting hp]
        exact ⟨arg, args, rfl, hf, ho⟩

section Whole

variable {env : Environment} {opts : Options}

theorem read_eq_ok (h : Options.read env args = .ok opts) : ∃ d rest d',
    readArgs .start args = .ok (d, rest) ∧ readVariables env d OptionName.all = .ok d' ∧
      opts.timeout = d'.options.timeout := by
  obtain ⟨⟨d, rest⟩, ha, h⟩ := bind_eq_ok.1 h
  obtain ⟨d', hv, h⟩ := bind_eq_ok.1 h
  refine ⟨d, rest, d', ha, hv, ?_⟩
  split at h
  · cases h
  · split at h <;> cases h
    rfl

theorem timeout_of_gives (h : Options.read env args = .ok opts) (hg : Gives args text) :
    ∃ t, Duration.readTimeout text = .ok t ∧ opts.timeout = some t := by
  obtain ⟨d, rest, d', ha, hv, ho⟩ := read_eq_ok h
  obtain ⟨t, ht, hf⟩ := fixes_of_gives hg ha
  exact ⟨t, ht, ho.trans ((kept_fixes t).readVariables hf hv).2⟩

theorem timeout_positive (h : Options.read env args = .ok opts) (ht : opts.timeout = some t) :
    t.isZero = false := by
  obtain ⟨d, rest, d', ha, hv, ho⟩ := read_eq_ok h
  have hd := kept_positive.readArgs (by simp [Draft.start, Options.standard]) ha
  exact kept_positive.readVariables hd hv t (ho.symm.trans ht)

theorem readVariables_ne_overflow {os : List OptionName} :
    readVariables env d os ≠ .error (.timeoutOverflow message) := by
  intro h
  induction os generalizing d with
  | nil => cases h
  | cons o os ih =>
    unfold readVariables at h
    split at h
    · next value hn =>
      split at h
      · exact ih h
      · obtain h | ⟨d₁, -, h⟩ := bind_eq_error.1 h
        · -- No variable speaks for a timeout.
          obtain ⟨rfl, -⟩ := enter_overflow h
          cases hn
        · exact ih h
    · exact ih h

theorem gives_of_overflow (h : Options.read env args = .error (.timeoutOverflow message)) :
    ∃ text fault, Gives args text ∧ Duration.readTimeout text = .error fault ∧
      fault.isOverflow = true := by
  obtain h | ⟨⟨d, rest⟩, -, h⟩ := bind_eq_error.1 h
  · obtain ⟨text, ht, ho⟩ := offers_of_overflow h
    obtain ⟨fault, hf, hv⟩ := overflow_of_timeoutOf ht
    exact ⟨text, fault, gives_of_offers rfl ho, hf, hv⟩
  · obtain h | ⟨d', -, h⟩ := bind_eq_error.1 h
    · exact absurd h readVariables_ne_overflow
    · split at h
      · cases h
      · split at h <;> cases h

theorem read_attached_timeout {fault : Duration.TimeoutFault}
    (h : Duration.readTimeout text = .error fault) :
    Options.read env (("--timeout=" ++ text) :: rest) =
      .error (if fault.isOverflow then .timeoutOverflow fault.message
        else .valueRefused .timeout text fault.message) := by
  have he : Draft.start.enterLong .timeout (some text) = .error _ :=
    map_eq_error.2 (map_eq_error.2 (timeoutOf_of_error h))
  refine bind_eq_error.2 (.inl ?_)
  rw [readArgs, formOf_attached_timeout]
  exact bind_eq_error.2 (.inl he)

theorem readVariables_unset (he : ∀ o : OptionName, o.environmentName?.bind env.get? = none)
    (os : List OptionName) : readVariables env d os = .ok d := by
  induction os with
  | nil => rfl
  | cons o os ih =>
    rw [readVariables, he o]
    exact ih

theorem read_accepted_timeout {command : String} (ht : Duration.readTimeout text = .ok t)
    (hc : formOf command = .word) (he : ∀ o : OptionName, o.environmentName?.bind env.get? = none) :
    Options.read env (("--timeout=" ++ text) :: command :: rest) =
      .ok { Options.standard with timeout := some t, testArgs := command :: rest } := by
  have hd : Draft.start.enterLong .timeout (some text) =
      .ok ⟨{ Options.standard with timeout := some t }, [.timeout], none⟩ := by
    show ((timeoutOf text).map _).map _ = _
    rw [timeoutOf_eq_ok.2 ht]
    rfl
  have ha : readArgs .start (("--timeout=" ++ text) :: command :: rest) =
      .ok (⟨{ Options.standard with timeout := some t }, [.timeout], none⟩, command :: rest) := by
    rw [readArgs, formOf_attached_timeout]
    refine bind_eq_ok.2 ⟨_, hd, ?_⟩
    rw [readArgs, hc]
    rfl
  refine bind_eq_ok.2 ⟨_, ha, bind_eq_ok.2 ⟨_, readVariables_unset he _, ?_⟩⟩
  rfl

end Whole

end Timeouts

end Retrial.Options
