import Retrial.Proofs.Xml.Markup

/-!
# Attributes that are read back

A value is escaped by a reference for each character that means something in
markup. Whatever the order, the space and the quotes of the attributes of a tag,
the value that is read for a key is the first one that was written for it.
-/

set_option autoImplicit false

namespace Retrial.Xml

def escapeChar (c : Char) : List Char :=
  if c = '&' then "&amp;".toList
  else if c = '<' then "&lt;".toList
  else if c = '>' then "&gt;".toList
  else if c = '"' then "&quot;".toList
  else if c = '\'' then "&apos;".toList
  else [c]

def escape (value : List Char) : List Char := value.flatMap escapeChar

theorem denotes_escapeChar (c : Char) : Denotes (escapeChar c) [c] := by
  have entity : ∀ (name : List Char) (d : Char), (∀ x ∈ name, isNameChar x = true) →
      resolve name 0 0 = .ok d → Denotes ('&' :: (name ++ [';'])) [d] :=
    fun name d hn hr => .reference hn hr .nil
  unfold escapeChar
  split
  · next h => rw [h]; exact entity "amp".toList '&' (List.all_eq_true.1 rfl) rfl
  split
  · next h => rw [h]; exact entity "lt".toList '<' (List.all_eq_true.1 rfl) rfl
  split
  · next h => rw [h]; exact entity "gt".toList '>' (List.all_eq_true.1 rfl) rfl
  split
  · next h => rw [h]; exact entity "quot".toList '"' (List.all_eq_true.1 rfl) rfl
  split
  · next h => rw [h]; exact entity "apos".toList '\'' (List.all_eq_true.1 rfl) rfl
  · next h _ _ _ _ => exact .plain h .nil

theorem denotes_escape (value : List Char) : Denotes (escape value) value := by
  induction value with
  | nil => exact .nil
  | cons c value ih => exact (denotes_escapeChar c).append ih

theorem quote_notMem_escape {quote : Char} (hq : quote = '"' ∨ quote = '\'') (value : List Char) :
    quote ∉ escape value := by
  intro h
  obtain ⟨c, -, hc⟩ := List.mem_flatMap.1 h
  unfold escapeChar at hc
  rcases hq with rfl | rfl
  all_goals
    repeat' split at hc
    all_goals first
      | exact absurd hc (by decide)
      | (rw [List.mem_singleton] at hc; exact absurd hc.symm ‹_›)

/-! ### Looking for a key -/

theorem IsName.isKeyChar {key : List Char} (h : IsName key) : ∀ c ∈ key, isKeyChar c = true := by
  intro c hc
  obtain ⟨hs, hm⟩ := h.plain c hc
  have he : c ≠ '=' := by rintro rfl; exact hm (by decide)
  simp [Xml.isKeyChar, hs, he]

theorem dropWhile_space {s : List Char} (hs : ∀ c ∈ s, isSpace c = true) {c : Char}
    (hc : isSpace c = false) (cs : List Char) : (s ++ c :: cs).dropWhile isSpace = c :: cs := by
  rw [List.dropWhile_append_of_pos hs, List.dropWhile_cons_of_neg (by simp [hc])]

theorem takeWhile_key {key s : List Char} (hk : ∀ c ∈ key, isKeyChar c = true)
    (hs : ∀ c ∈ s, isSpace c = true) (cs : List Char) :
    (key ++ (s ++ '=' :: cs)).takeWhile isKeyChar = key ∧
      (key ++ (s ++ '=' :: cs)).dropWhile isKeyChar = s ++ '=' :: cs := by
  rw [List.takeWhile_append_of_pos hk, List.dropWhile_append_of_pos hk]
  cases s with
  | nil => simp [isKeyChar]
  | cons c s => simp [isKeyChar, hs c List.mem_cons_self]

theorem takeWhile_quoted {quote : Char} {value : List Char} (h : quote ∉ value) (rest : List Char) :
    (value ++ quote :: rest).takeWhile (fun d => d != quote) = value ∧
      (value ++ quote :: rest).dropWhile (fun d => d != quote) = quote :: rest := by
  have hp : ∀ d ∈ value, (d != quote) = true := fun d hd => by
    rw [bne_iff_ne]
    rintro rfl
    exact h hd
  rw [List.takeWhile_append_of_pos hp, List.dropWhile_append_of_pos hp]
  simp

theorem nextAttribute?_written {n : Nat} {s key s₁ s₂ value : List Char} {quote : Char}
    (hs : ∀ c ∈ s ++ s₁ ++ s₂, isSpace c = true) (hk : IsName key)
    (hq : quote = '"' ∨ quote = '\'') (hv : quote ∉ value) (rest : List Char) :
    nextAttribute? n (s ++ (key ++ (s₁ ++ '=' :: (s₂ ++ quote :: (value ++ quote :: rest))))) =
      .ok (some (key, value, rest)) := by
  simp only [List.mem_append, or_imp, forall_and] at hs
  obtain ⟨⟨hs, hs₁⟩, hs₂⟩ := hs
  obtain ⟨k, ks, rfl⟩ := List.exists_cons_of_ne_nil hk.inhabited
  have hkey : ∀ c ∈ ks, isKeyChar c = true := fun c hc => hk.isKeyChar c (List.mem_cons_of_mem k hc)
  have hfirst : isSpace k = false := (hk.plain k List.mem_cons_self).1
  have hquote : isSpace quote = false ∧ (quote == '"' || quote == '\'') = true := by
    rcases hq with rfl | rfl <;> decide
  have hbefore := dropWhile_space hs hfirst
    (ks ++ (s₁ ++ '=' :: (s₂ ++ quote :: (value ++ quote :: rest))))
  obtain ⟨htake, hdrop⟩ := takeWhile_key hkey hs₁ (s₂ ++ quote :: (value ++ quote :: rest))
  have hequals := dropWhile_space hs₁ (by decide : isSpace '=' = false)
    (s₂ ++ quote :: (value ++ quote :: rest))
  have hvalue := dropWhile_space hs₂ hquote.1 (value ++ quote :: rest)
  obtain ⟨hvtake, hvdrop⟩ := takeWhile_quoted hv rest
  unfold nextAttribute?
  simp only [List.cons_append, hbefore, htake, hdrop, hequals, hvalue, hquote.2, hvtake, hvdrop,
    if_true]

theorem findAttribute?_written {key attrs : List Char} {raws : List (List Char × List Char)}
    (h : Attributes raws attrs) (n : Nat) :
    findAttribute? key n attrs = .ok (raws.lookup key) := by
  induction h with
  | @nil s hs =>
    have hn : nextAttribute? n s = .ok none := by
      have hd : s.dropWhile isSpace = [] := List.dropWhile_eq_nil_iff.2 hs
      unfold nextAttribute?
      rw [hd]
    unfold findAttribute?
    split <;> simp_all
  | @cons s k s₁ s₂ value rest quote raws _ hs hk hq hv _ ih =>
    have hn := nextAttribute?_written (n := n) hs hk hq hv rest
    unfold findAttribute?
    split
    · next he => rw [hn] at he; cases he
    · next he => rw [hn] at he; cases he
    · next k' value' rest' he =>
      rw [hn] at he
      cases he
      by_cases hkey : k = key
      · simp [hkey]
      · have hb : (key == k) = false := beq_eq_false_iff_ne.2 (Ne.symm hkey)
        rw [if_neg (by simpa using hkey), ih, List.lookup_cons, hb]

def escaped (pairs : List (String × String)) : List (List Char × List Char) :=
  pairs.map fun p => (p.1.toList, escape p.2.toList)

theorem lookup_escaped (key : String) (pairs : List (String × String)) :
    (escaped pairs).lookup key.toList = (pairs.lookup key).map fun v => escape v.toList := by
  induction pairs with
  | nil => rfl
  | cons p pairs ih =>
    obtain ⟨k, v⟩ := p
    have hb : (key.toList == k.toList) = (key == k) := by
      rw [Bool.eq_iff_iff, beq_iff_eq, beq_iff_eq, String.toList_inj]
    have he : escaped ((k, v) :: pairs) = (k.toList, escape v.toList) :: escaped pairs := rfl
    rw [he, List.lookup_cons, List.lookup_cons, hb]
    cases key == k with
    | true => rfl
    | false => exact ih

theorem attribute?_written {name attrs : List Char} {pairs : List (String × String)}
    (hn : IsName name) (ha : Attributes (escaped pairs) attrs) (key : String) :
    attribute? key (name ++ attrs) = .ok (pairs.lookup key) := by
  have hraw : rawAttribute? key.toList (name ++ attrs) =
      .ok ((pairs.lookup key).map fun v => escape v.toList) := by
    rw [rawAttribute?, openingName_append hn ha.head, List.drop_left, findAttribute?_written ha,
      lookup_escaped]
  rw [attribute?, hraw]
  cases pairs.lookup key with
  | none => rfl
  | some value =>
    simp only [Option.map_some, (denotes_escape value.toList).expand, String.ofList_toList]

end Retrial.Xml
