import Retrial.Toml.Reader

/-!
# Keys of a settings document

A table never has two entries under one key: a line that would give it a second
one contradicts the first, and the document is refused. Every assignment and
every header keeps to this, so it holds of each table of each document that is
read, however deep the table stands.
-/

set_option autoImplicit false

namespace Retrial.Toml

/-- A value in whose tables each key stands once. -/
inductive Value.Keyed : Value → Prop
  | string (text : String) : Keyed (.string text)
  | integer (n : Int) : Keyed (.integer n)
  | scalar : Keyed .scalar
  | array {items : List Value} : (∀ v ∈ items, Keyed v) → Keyed (.array items)
  | rows {rows : List (List (String × Value))} : (∀ es ∈ rows, (es.map (·.1)).Nodup) →
      (∀ es ∈ rows, ∀ e ∈ es, Keyed e.2) → Keyed (.rows rows)
  | table {form : Form} {es : List (String × Value)} : (es.map (·.1)).Nodup →
      (∀ e ∈ es, Keyed e.2) → Keyed (.table form es)

structure Entries.Keyed (es : Entries) : Prop where
  nodup : (es.map (·.1)).Nodup
  values : ∀ e ∈ es, e.2.Keyed

namespace Value

theorem keyed_table {form : Form} {es : Entries} : (table form es).Keyed ↔ es.Keyed := by
  constructor
  · rintro (_ | _ | _ | _ | _ | ⟨hn, hv⟩)
    exact ⟨hn, hv⟩
  · exact fun h => .table h.nodup h.values

theorem keyed_rows {rs : List Entries} : (rows rs).Keyed ↔ ∀ es ∈ rs, es.Keyed := by
  constructor
  · rintro (_ | _ | _ | _ | ⟨hn, hv⟩)
    exact fun es he => ⟨hn es he, hv es he⟩
  · exact fun h => .rows (fun es he => (h es he).nodup) fun es he => (h es he).values

end Value

namespace Entries

variable {es es' : Entries} {key : String} {v : Value}

theorem keyed_nil : Keyed [] := ⟨List.nodup_nil, by simp⟩

theorem mem_of_lookup? (h : es.lookup? key = some v) : (key, v) ∈ es := by
  induction es with
  | nil => cases h
  | cons e es ih =>
    obtain ⟨k, w⟩ := e
    by_cases hk : k = key
    · obtain rfl : w = v := by simpa [lookup?, hk] using h
      simp [hk]
    · exact List.mem_cons_of_mem _ (ih (by simpa [lookup?, hk] using h))

theorem mem_put {e : String × Value} (h : e ∈ es.put key v) : e = (key, v) ∨ e ∈ es := by
  induction es with
  | nil => exact Or.inl (List.mem_singleton.1 h)
  | cons x es ih =>
    obtain ⟨k, w⟩ := x
    by_cases hk : k = key
    · subst hk
      have hm : e = (k, v) ∨ e ∈ es := by simpa [put] using h
      exact hm.imp_right (List.mem_cons_of_mem _)
    · obtain rfl | hm : e = (k, w) ∨ e ∈ put key v es := by simpa [put, hk] using h
      · exact Or.inr List.mem_cons_self
      · exact (ih hm).imp_right (List.mem_cons_of_mem _)

namespace Keyed

theorem put (h : es.Keyed) (hv : v.Keyed) : (es.put key v).Keyed := by
  obtain ⟨hn, hs⟩ := h
  constructor
  case nodup =>
    induction es with
    | nil => simp [Entries.put]
    | cons e es ih =>
      obtain ⟨k, w⟩ := e
      obtain ⟨hk, hn⟩ := List.nodup_cons.1 hn
      have ih := ih hn fun e he => hs e (List.mem_cons_of_mem _ he)
      by_cases he : k = key
      · simpa [Entries.put, he] using ⟨by simpa [he] using hk, hn⟩
      · have hp : k ∉ (Entries.put key v es).map (·.1) := by
          intro hm
          obtain ⟨x, hx, rfl⟩ := List.mem_map.1 hm
          obtain rfl | hx := mem_put hx
          · exact he rfl
          · exact hk (List.mem_map.2 ⟨x, hx, rfl⟩)
        simpa [Entries.put, he] using ⟨by simpa using hp, ih⟩
  case values =>
    intro e he
    obtain rfl | he := mem_put he
    · exact hv
    · exact hs e he

theorem lookup? (h : es.Keyed) (hl : es.lookup? key = some v) : v.Keyed :=
  h.values _ (mem_of_lookup? hl)

theorem lastRow? {rows before : List Entries} {last : Entries} (h : (Value.rows rows).Keyed)
    (hl : Entries.lastRow? rows = some (before, last)) :
    last.Keyed ∧ ∀ last' : Entries, last'.Keyed → (Value.rows (before ++ [last'])).Keyed := by
  rw [Value.keyed_rows] at h
  obtain ⟨row, hr, he⟩ := Option.map_eq_some_iff.1 hl
  obtain ⟨rfl, rfl⟩ := Prod.mk.inj he
  refine ⟨h row (List.mem_of_getLast? hr), fun last' hk => Value.keyed_rows.2 fun es hm => ?_⟩
  obtain hm | hm := List.mem_append.1 hm
  · exact h es (List.dropLast_subset _ hm)
  · rw [List.mem_singleton.1 hm]
    exact hk

theorem assign {path : List String} (hv : v.Keyed) (h : es.Keyed)
    (ha : es.assign v key path = some es') : es'.Keyed := by
  fun_induction Entries.assign v es key path generalizing es' with
  | case1 es key hl =>
    cases ha
    exact h.put hv
  | case2 => cases ha
  | case3 es key next path hl ih =>
    obtain ⟨inner, hi, rfl⟩ := Option.map_eq_some_iff.1 ha
    exact h.put (Value.keyed_table.2 (ih keyed_nil hi))
  | case4 es key next path inner hl ih =>
    obtain ⟨inner', hi, rfl⟩ := Option.map_eq_some_iff.1 ha
    exact h.put (Value.keyed_table.2 (ih (Value.keyed_table.1 (h.lookup? hl)) hi))
  | case5 => cases ha
  | case6 es key next path inner hl hp ih =>
    obtain ⟨inner', hi, rfl⟩ := Option.map_eq_some_iff.1 ha
    exact h.put (Value.keyed_table.2 (ih (Value.keyed_table.1 (h.lookup? hl)) hi))
  | case7 => cases ha
  | case8 es key next path rows hl hp ih =>
    obtain ⟨⟨before, last⟩, hr, ha⟩ := Option.bind_eq_some_iff.1 ha
    obtain ⟨last', hi, ha⟩ := Option.bind_eq_some_iff.1 ha
    cases ha
    obtain ⟨hk, hb⟩ := lastRow? (h.lookup? hl) hr
    exact h.put (hb last' (ih _ hk hi))
  | case9 => cases ha

theorem assignAll {lines : List (Key × Value)} (hv : ∀ line ∈ lines, line.2.Keyed) (h : es.Keyed)
    (ha : es.assignAll lines = some es') : es'.Keyed := by
  induction lines generalizing es with
  | nil =>
    cases ha
    exact h
  | cons line lines ih =>
    obtain ⟨⟨key, path⟩, v⟩ := line
    obtain ⟨between, hb, ha⟩ := Option.bind_eq_some_iff.1 ha
    have hk : between.Keyed := h.assign (hv _ List.mem_cons_self) hb
    exact ih (fun line hl => hv line (List.mem_cons_of_mem _ hl)) hk ha

/-- A change that leaves a value with distinct keys in its place may be made at the
path of any header. -/
theorem alter {f : Option Value → Option Value} {path : List String}
    (hf : ∀ o v, (∀ w ∈ o, w.Keyed) → f o = some v → v.Keyed) (h : es.Keyed)
    (ha : es.alter f key path = some es') : es'.Keyed := by
  fun_induction Entries.alter f es key path generalizing es' with
  | case1 es key =>
    obtain ⟨v, hv, rfl⟩ := Option.map_eq_some_iff.1 ha
    exact h.put (hf _ v (fun w hw => h.lookup? hw) hv)
  | case2 es key next path hl ih =>
    obtain ⟨inner, hi, rfl⟩ := Option.map_eq_some_iff.1 ha
    exact h.put (Value.keyed_table.2 (ih keyed_nil hi))
  | case3 => cases ha
  | case4 es key next path form inner hl hn ih =>
    obtain ⟨inner', hi, rfl⟩ := Option.map_eq_some_iff.1 ha
    exact h.put (Value.keyed_table.2 (ih (Value.keyed_table.1 (h.lookup? hl)) hi))
  | case5 es key next path rows hl ih =>
    obtain ⟨⟨before, last⟩, hr, ha⟩ := Option.bind_eq_some_iff.1 ha
    obtain ⟨last', hi, ha⟩ := Option.bind_eq_some_iff.1 ha
    cases ha
    obtain ⟨hk, hb⟩ := lastRow? (h.lookup? hl) hr
    exact h.put (hb last' (ih _ hk hi))
  | case6 => cases ha

end Keyed

end Entries

section Document

variable {lines : List (Key × Value)} {es es' : Entries}

theorem keyed_openTable (hl : ∀ line ∈ lines, line.2.Keyed) (o : Option Value) (v : Value)
    (ho : ∀ w ∈ o, w.Keyed) (h : openTable lines o = some v) : v.Keyed := by
  unfold openTable at h
  split at h
  · obtain ⟨es, he, rfl⟩ := Option.map_eq_some_iff.1 h
    exact Value.keyed_table.2 (Entries.keyed_nil.assignAll hl he)
  · obtain ⟨es, he, rfl⟩ := Option.map_eq_some_iff.1 h
    exact Value.keyed_table.2 ((Value.keyed_table.1 (ho _ rfl)).assignAll hl he)
  · cases h

theorem keyed_addRow (hl : ∀ line ∈ lines, line.2.Keyed) (o : Option Value) (v : Value)
    (ho : ∀ w ∈ o, w.Keyed) (h : addRow lines o = some v) : v.Keyed := by
  unfold addRow at h
  split at h
  · obtain ⟨es, he, rfl⟩ := Option.map_eq_some_iff.1 h
    have hk : Entries.Keyed es := Entries.keyed_nil.assignAll hl he
    exact Value.keyed_rows.2 (by simpa using hk)
  · next rows =>
    obtain ⟨es, he, rfl⟩ := Option.map_eq_some_iff.1 h
    have hk : Entries.Keyed es := Entries.keyed_nil.assignAll hl he
    have hr := Value.keyed_rows.1 (ho _ rfl)
    refine Value.keyed_rows.2 fun row hm => ?_
    obtain hm | hm := List.mem_append.1 hm
    · exact hr row hm
    · rw [List.mem_singleton.1 hm]
      exact hk
  · cases h

theorem Section.keyed_layInto {s : Section} (hs : ∀ line ∈ s.lines, line.2.Keyed) (h : es.Keyed)
    (hl : s.layInto es = some es') : es'.Keyed := by
  unfold layInto at hl
  split at hl
  · exact h.alter (keyed_openTable hs) hl
  · exact h.alter (keyed_addRow hs) hl

structure Document.Keyed (d : Document) : Prop where
  opening : ∀ line ∈ d.opening, line.2.Keyed
  sections : ∀ s ∈ d.sections, ∀ line ∈ s.lines, line.2.Keyed

theorem Document.Keyed.entries? {d : Document} (h : d.Keyed) (he : d.entries? = some es) :
    es.Keyed := by
  obtain ⟨start, hs, he⟩ := Option.bind_eq_some_iff.1 he
  have hk : start.Keyed := Entries.keyed_nil.assignAll h.opening hs
  have hl := h.sections
  generalize d.sections = sections at he hl
  clear hs
  induction sections generalizing start with
  | nil =>
    cases he
    exact hk
  | cons s sections ih =>
    obtain ⟨next, hn, he⟩ := Option.bind_eq_some_iff.1 he
    have hk := Section.keyed_layInto (hl s List.mem_cons_self) hk hn
    exact ih next hk he fun s hm => hl s (List.mem_cons_of_mem _ hm)

end Document

section Reading

variable {cs rest : List Char} {v : Value}

theorem keyed_denoted (radix : Nat) (negative : Bool) (cs : List Char) :
    (denoted radix negative cs).Keyed := by
  unfold denoted
  dsimp only
  generalize cs.filter (· != '_') = ds
  split
  · exact .scalar
  · exact .integer _

theorem keyed_number? (h : number? cs = some v) : v.Keyed := by
  simp only [number?] at h
  split at h
  · split at h
    · cases h
      exact keyed_denoted 10 _ _
    · cases h
  · split at h
    · split at h
      · cases h
        exact .scalar
      · cases h
    · split at h
      · cases h
      · split at h
        · split at h
          · cases h
            exact .scalar
          · cases h
        · split at h
          · cases h
            exact keyed_denoted 10 _ _
          · cases h

theorem keyed_scalar? (h : scalar? cs = some v) : v.Keyed := by
  unfold scalar? at h
  split at h
  · cases h
    exact .scalar
  · split at h
    · cases h
      exact .scalar
    · split at h
      · split at h
        · cases h
          exact keyed_denoted _ _ _
        · cases h
      · exact keyed_number? h

structure Reads (fuel : Nat) : Prop where
  value : ∀ depth cs v rest, takeValue? depth fuel cs = some (v, rest) → v.Keyed
  items : ∀ depth cs vs rest, takeItems? depth fuel cs = some (vs, rest) → ∀ v ∈ vs, v.Keyed
  inline : ∀ depth cs lines rest, takeInline? depth fuel cs = some (lines, rest) →
    ∀ line ∈ lines, line.2.Keyed

theorem reads (fuel : Nat) : Reads fuel := by
  induction fuel with
  | zero =>
    constructor
    case value => intro depth cs v rest h; simp [takeValue?] at h
    case items => intro depth cs vs rest h; simp [takeItems?] at h
    case inline => intro depth cs lines rest h; simp [takeInline?] at h
  | succ fuel ih =>
    constructor
    case value =>
      intro depth cs v rest h
      unfold takeValue? at h
      split at h
      · obtain ⟨p, -, he⟩ := Option.map_eq_some_iff.1 h
        cases he
        exact .string _
      · obtain ⟨p, -, he⟩ := Option.map_eq_some_iff.1 h
        cases he
        exact .string _
      · obtain ⟨p, hp, he⟩ := Option.map_eq_some_iff.1 h
        cases he
        exact .array (ih.items _ _ _ _ hp)
      · obtain ⟨⟨lines, behind⟩, hp, h⟩ := Option.bind_eq_some_iff.1 h
        obtain ⟨es, he, h⟩ := Option.bind_eq_some_iff.1 h
        cases h
        exact Value.keyed_table.2 (Entries.keyed_nil.assignAll (ih.inline _ _ _ _ hp) he)
      · obtain ⟨w, hw, he⟩ := Option.map_eq_some_iff.1 h
        cases he
        exact keyed_scalar? hw
    case items =>
      intro depth cs vs rest h
      unfold takeItems? at h
      split at h
      · cases h
        simp
      · obtain ⟨⟨item, behind⟩, hi, h⟩ := Option.bind_eq_some_iff.1 h
        have hk : item.Keyed := ih.value _ _ _ _ hi
        dsimp only at h
        split at h
        · obtain ⟨⟨more, behind⟩, hm, h⟩ := Option.bind_eq_some_iff.1 h
          cases h
          exact List.forall_mem_cons.2 ⟨hk, ih.items _ _ _ _ hm⟩
        · cases h
          simpa using hk
        · cases h
    case inline =>
      intro depth cs lines rest h
      unfold takeInline? at h
      split at h
      · cases h
        simp
      · obtain ⟨⟨key, behind⟩, -, h⟩ := Option.bind_eq_some_iff.1 h
        obtain ⟨⟨v, behind⟩, hv, h⟩ := Option.bind_eq_some_iff.1 h
        have hk : v.Keyed := ih.value _ _ _ _ hv
        dsimp only at h
        split at h
        · obtain ⟨⟨more, behind⟩, hm, h⟩ := Option.bind_eq_some_iff.1 h
          cases h
          exact List.forall_mem_cons.2 ⟨hk, ih.inline _ _ _ _ hm⟩
        · cases h
          simpa using hk
        · cases h

def Statement.Keyed : Statement → Prop
  | .header _ => True
  | .assignment _ v => v.Keyed

theorem keyed_takeStatement? {said : Statement} (h : takeStatement? cs = some (said, rest)) :
    said.Keyed := by
  unfold takeStatement? at h
  split at h
  · obtain ⟨⟨header, behind⟩, -, h⟩ := Option.bind_eq_some_iff.1 h
    cases h
    trivial
  · obtain ⟨⟨key, behind⟩, -, h⟩ := Option.bind_eq_some_iff.1 h
    obtain ⟨⟨v, behind⟩, hv, h⟩ := Option.bind_eq_some_iff.1 h
    cases h
    exact (reads _).value _ _ _ _ hv

theorem keyed_takeStatements? {fuel : Nat} {said : List Statement}
    (h : takeStatements? fuel cs = some said) : ∀ line ∈ said, line.Keyed := by
  induction fuel generalizing cs said with
  | zero => cases h
  | succ fuel ih =>
    unfold takeStatements? at h
    split at h
    · cases h
      simp
    · obtain ⟨⟨first, behind⟩, hf, h⟩ := Option.bind_eq_some_iff.1 h
      obtain ⟨next, -, h⟩ := Option.bind_eq_some_iff.1 h
      obtain ⟨more, hm, h⟩ := Option.bind_eq_some_iff.1 h
      cases h
      exact List.forall_mem_cons.2 ⟨keyed_takeStatement? hf, ih hm⟩

theorem Document.keyed_ofStatements {said : List Statement} (h : ∀ line ∈ said, line.Keyed) :
    (ofStatements said).Keyed := by
  induction said with
  | nil => exact ⟨by simp [ofStatements], by simp [ofStatements]⟩
  | cons line said ih =>
    obtain ⟨hl, hs⟩ := List.forall_mem_cons.1 h
    obtain ⟨ho, hn⟩ := ih hs
    cases line with
    | header header => exact ⟨by simp [ofStatements], List.forall_mem_cons.2 ⟨ho, hn⟩⟩
    | assignment key v => exact ⟨List.forall_mem_cons.2 ⟨hl, ho⟩, hn⟩

/-- In every document that is read, each table has each of its keys once. -/
theorem keyed_read? {es : Entries} (h : read? cs = some es) : es.Keyed := by
  obtain ⟨said, hs, he⟩ := Option.bind_eq_some_iff.1 h
  exact (Document.keyed_ofStatements (keyed_takeStatements? hs)).entries? he

end Reading

end Retrial.Toml
