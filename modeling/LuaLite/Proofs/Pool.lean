import LuaLite.ConstantPool
import Mathlib.Data.Finset.Card

/-!
# Constants by their keys

`ConstantKey` is what tells two constants apart: strings by their text, integers by their value,
floats by their bits. A valid pool holds no key twice and no more than fit, and its tables give the
places of its values (`ConstantTable.Indexes`). `Valid.add_cases` says all that adding a constant can
do: it keeps the pool valid, adds only at its end (`Extends`), and succeeds exactly if the key fits
(`isSome_intern_iff`).
-/

namespace LuaLite

/-- The type of a constant, with what tells it from others of the type. -/
inductive ConstantKey where
  | string (text : String)
  | integer (n : Int64)
  | float (bits : UInt64)
  deriving DecidableEq

/-- The key of a value that can be a constant. -/
def Value.key? : Value → Option ConstantKey
  | .string text => some (.string text)
  | .integer n => some (.integer n)
  | .float x => some (.float x.bits)
  | _ => none

theorem Value.eq_of_key? {v w : Value} {k : ConstantKey} (hv : v.key? = some k)
    (hw : w.key? = some k) : v = w := by
  have h : v.key? = w.key? := hv.trans hw.symm
  cases v <;> cases w <;> simp [key?] at h hv hw ⊢
  · exact h
  · exact Binary64.ext h
  · exact h

theorem Value.key?_eq_string {v : Value} {s : String} :
    v.key? = some (.string s) ↔ v = .string s := by
  cases v <;> simp [key?]

theorem Value.key?_eq_integer {v : Value} {n : Int64} :
    v.key? = some (.integer n) ↔ v = .integer n := by
  cases v <;> simp [key?]

theorem Value.key?_eq_float {v : Value} {b : UInt64} :
    v.key? = some (.float b) ↔ v = .float ⟨b⟩ := by
  cases v <;> simp [key?, Binary64.ext_iff]

/-! ### Tables -/

namespace ConstantTable

variable {κ : Type} [BEq κ] {table : ConstantTable κ} {kind : κ → ConstantKey}
  {values : Numbered Value} {key : κ} {v : Value}

/-- The table gives the places of the values whose keys are of one kind, and holds no other key. -/
def Indexes (table : ConstantTable κ) (kind : κ → ConstantKey) (values : Numbered Value) : Prop :=
  ∀ key i, table.lookup key = some i ↔
    ∃ v, values.toList[i.toNat]? = some v ∧ v.key? = some (kind key)

theorem Indexes.empty (kind : κ → ConstantKey) : Indexes [] kind .empty := by
  intro key i
  simp

/-- What is not in the table is not among the values, since all places are within reach of it. -/
theorem Indexes.notMem (h : table.Indexes kind values) (hs : values.size ≤ ConstantPool.capacity)
    (hv : v.key? = some (kind key)) (hl : table.lookup key = none) : v ∉ values.toList := by
  intro hm
  obtain ⟨n, hn⟩ := List.mem_iff_getElem?.mp hm
  have hlt : n < values.size := values.length_toList ▸ (List.getElem?_eq_some_iff.mp hn).1
  have hb : (UInt8.ofNat n).toNat = n := UInt8.toNat_ofNat_of_lt' (Nat.lt_of_lt_of_le hlt hs)
  have hi := (h key (UInt8.ofNat n)).mpr ⟨v, by rw [hb, hn], hv⟩
  rw [hl] at hi
  cases hi

theorem Indexes.add (h : table.Indexes kind values) (hv : ∀ key, v.key? ≠ some (kind key)) :
    table.Indexes kind (values.add v) := by
  intro key i
  rw [h key i]
  constructor
  · rintro ⟨w, hi, hw⟩
    exact ⟨w, Numbered.getElem?_toList_add.mpr (.inl hi), hw⟩
  · rintro ⟨w, hi, hw⟩
    rcases Numbered.getElem?_toList_add.mp hi with hi | ⟨-, rfl⟩
    · exact ⟨w, hi, hw⟩
    · exact absurd hw (hv key)

theorem Indexes.cons [LawfulBEq κ] (h : table.Indexes kind values) (hkind : kind.Injective)
    (hs : values.size < ConstantPool.capacity) (hv : v.key? = some (kind key))
    (hn : v ∉ values.toList) :
    Indexes ((key, UInt8.ofNat values.size) :: table) kind (values.add v) := by
  intro key' i
  have hb : (UInt8.ofNat values.size).toNat = values.size := UInt8.toNat_ofNat_of_lt' hs
  rw [List.lookup_cons]
  split
  · rename_i he
    obtain rfl := eq_of_beq he
    constructor
    · rintro ⟨⟩
      exact ⟨v, Numbered.getElem?_toList_add.mpr (.inr ⟨hb, rfl⟩), hv⟩
    · rintro ⟨w, hi, hw⟩
      obtain rfl := Value.eq_of_key? hv hw
      rcases Numbered.getElem?_toList_add.mp hi with hi | ⟨hi, -⟩
      · exact absurd (List.mem_of_getElem? hi) hn
      · rw [← hi, UInt8.ofNat_toNat]
  · rename_i he
    rw [h key' i]
    constructor
    · rintro ⟨w, hi, hw⟩
      exact ⟨w, Numbered.getElem?_toList_add.mpr (.inl hi), hw⟩
    · rintro ⟨w, hi, hw⟩
      rcases Numbered.getElem?_toList_add.mp hi with hi | ⟨-, rfl⟩
      · exact ⟨w, hi, hw⟩
      · have hk : kind key = kind key' := Option.some.inj (hv.symm.trans hw)
        simp [hkind hk] at he

end ConstantTable

namespace ConstantPool

/-- Every value has a key, no value is there twice, there are no more than fit, and the tables give
their places. -/
structure Valid (p : ConstantPool) : Prop where
  keyed : ∀ v ∈ p.values.toList, v.key?.isSome
  nodup : p.values.toList.Nodup
  size_le : p.values.size ≤ capacity
  strings : p.strings.Indexes .string p.values
  integers : p.integers.Indexes .integer p.values
  floats : p.floats.Indexes .float p.values

/-- The values of `p` are there in `q`, at the same places. -/
def Extends (q p : ConstantPool) : Prop := p.values.toList <+: q.values.toList

/-- The keys in a pool. -/
def keys (p : ConstantPool) : Finset ConstantKey := (p.values.toList.filterMap Value.key?).toFinset

/-- The index of a value, with the pool that has it; `none` if there is no room for the value. -/
def intern (p : ConstantPool) (v : Value) : Option (UInt8 × ConstantPool) :=
  match p.add v with
  | (some i, q) => some (i, q)
  | (none, _) => none

variable {p q r : ConstantPool} {v : Value} {i : UInt8} {k : ConstantKey}

theorem Extends.refl (p : ConstantPool) : p.Extends p := List.prefix_refl _

theorem Extends.trans (h : r.Extends q) (h' : q.Extends p) : r.Extends p := List.IsPrefix.trans h' h

theorem Extends.getElem? (h : q.Extends p) {n : Nat} (hv : p.values.toList[n]? = some v) :
    q.values.toList[n]? = some v := by
  obtain ⟨t, ht⟩ := h
  rw [← ht, List.getElem?_append_left (List.getElem?_eq_some_iff.mp hv).1, hv]

theorem valid_empty : empty.Valid where
  keyed _ hv := by cases hv
  nodup := List.nodup_nil
  size_le := Nat.zero_le _
  strings := .empty _
  integers := .empty _
  floats := .empty _

@[simp] theorem keys_empty : empty.keys = ∅ := rfl

theorem mem_keys (hv : v.key? = some k) : k ∈ p.keys ↔ v ∈ p.values.toList := by
  rw [keys, List.mem_toFinset, List.mem_filterMap]
  constructor
  · rintro ⟨w, hw, hk⟩
    rwa [Value.eq_of_key? hv hk]
  · exact fun h => ⟨v, h, hv⟩

theorem Valid.card_keys (hp : p.Valid) : p.keys.card = p.values.size := by
  have hinj : ∀ a a' : Value, ∀ b ∈ a.key?, b ∈ a'.key? → a = a' := fun a a' b h h' =>
    Value.eq_of_key? h h'
  rw [keys, List.toFinset_card_of_nodup (hp.nodup.filterMap hinj),
    List.length_filterMap_eq_countP, List.countP_eq_length.mpr hp.keyed, Numbered.length_toList]

/-! ### Adding -/

theorem internIn_cases {κ : Type} [BEq κ] {table : ConstantTable κ} {kind : κ → ConstantKey}
    {values : Numbered Value} {key : κ} (h : table.Indexes kind values)
    (hs : values.size ≤ capacity) (hv : v.key? = some (kind key)) :
    (∃ i, values.toList[i.toNat]? = some v ∧
      internIn table values key v = (some i, table, values)) ∨
    (v ∉ values.toList ∧ values.size < capacity ∧
      internIn table values key v = (some (UInt8.ofNat values.size),
        (key, UInt8.ofNat values.size) :: table, values.add v)) ∨
    (v ∉ values.toList ∧ capacity ≤ values.size ∧
      internIn table values key v = (none, table, values)) := by
  cases hl : table.lookup key with
  | some i =>
    obtain ⟨w, hi, hw⟩ := (h key i).mp hl
    obtain rfl := Value.eq_of_key? hv hw
    exact .inl ⟨i, hi, by rw [internIn, hl]⟩
  | none =>
    have hn := h.notMem hs hv hl
    by_cases hc : values.size < capacity
    · exact .inr (.inl ⟨hn, hc, by simp [internIn, push, hl, hc]⟩)
    · exact .inr (.inr ⟨hn, Nat.le_of_not_lt hc, by simp [internIn, push, hl, hc]⟩)

theorem Valid.of_add (hp : p.Valid) (hk : v.key?.isSome) (hn : v ∉ p.values.toList)
    (hs : p.values.size < capacity) (hq : q.values = p.values.add v)
    (hstrings : q.strings.Indexes .string (p.values.add v))
    (hintegers : q.integers.Indexes .integer (p.values.add v))
    (hfloats : q.floats.Indexes .float (p.values.add v)) : q.Valid := by
  refine ⟨fun w hw => ?_, ?_, ?_, hq ▸ hstrings, hq ▸ hintegers, hq ▸ hfloats⟩
  · rw [hq, Numbered.toList_add, List.mem_append, List.mem_singleton] at hw
    rcases hw with hw | rfl
    · exact hp.keyed w hw
    · exact hk
  · rw [hq, Numbered.toList_add]
    exact List.nodup_append.mpr ⟨hp.nodup, List.nodup_singleton v, fun a ha b hb e =>
      hn (List.mem_singleton.mp hb ▸ e ▸ ha)⟩
  · rw [hq]
    exact hs

/-- A value is found, or put behind the others, or there is no room for it. -/
theorem Valid.add_cases (hp : p.Valid) (hk : v.key?.isSome) :
    (∃ i, p.values.toList[i.toNat]? = some v ∧ p.add v = (some i, p)) ∨
    (∃ q, v ∉ p.values.toList ∧ p.values.size < capacity ∧ q.Valid ∧
      q.values = p.values.add v ∧ p.add v = (some (UInt8.ofNat p.values.size), q)) ∨
    (v ∉ p.values.toList ∧ capacity ≤ p.values.size ∧ p.add v = (none, p)) := by
  cases v with
  | string s =>
    rcases internIn_cases (v := .string s) hp.strings hp.size_le rfl with
      ⟨i, hi, e⟩ | ⟨hn, hs, e⟩ | ⟨hn, hs, e⟩
    · exact .inl ⟨i, hi, by rw [add, addString, e]⟩
    · refine .inr (.inl ⟨_, hn, hs, ?_, rfl, by rw [add, addString, e]⟩)
      exact hp.of_add hk hn hs rfl (hp.strings.cons (fun _ _ => ConstantKey.string.inj) hs rfl hn)
        (hp.integers.add fun _ h => by cases h) (hp.floats.add fun _ h => by cases h)
    · exact .inr (.inr ⟨hn, hs, by rw [add, addString, e]⟩)
  | integer n =>
    rcases internIn_cases (v := .integer n) hp.integers hp.size_le rfl with
      ⟨i, hi, e⟩ | ⟨hn, hs, e⟩ | ⟨hn, hs, e⟩
    · exact .inl ⟨i, hi, by rw [add, addInteger, e]⟩
    · refine .inr (.inl ⟨_, hn, hs, ?_, rfl, by rw [add, addInteger, e]⟩)
      exact hp.of_add hk hn hs rfl (hp.strings.add fun _ h => by cases h)
        (hp.integers.cons (fun _ _ => ConstantKey.integer.inj) hs rfl hn)
        (hp.floats.add fun _ h => by cases h)
    · exact .inr (.inr ⟨hn, hs, by rw [add, addInteger, e]⟩)
  | float x =>
    rcases internIn_cases (v := .float x) hp.floats hp.size_le rfl with
      ⟨i, hi, e⟩ | ⟨hn, hs, e⟩ | ⟨hn, hs, e⟩
    · exact .inl ⟨i, hi, by rw [add, addFloat, e]⟩
    · refine .inr (.inl ⟨_, hn, hs, ?_, rfl, by rw [add, addFloat, e]⟩)
      exact hp.of_add hk hn hs rfl (hp.strings.add fun _ h => by cases h)
        (hp.integers.add fun _ h => by cases h)
        (hp.floats.cons (fun _ _ => ConstantKey.float.inj) hs rfl hn)
    · exact .inr (.inr ⟨hn, hs, by rw [add, addFloat, e]⟩)
  | _ => cases hk

/-! ### Interning -/

theorem intern_eq_some_iff : p.intern v = some (i, q) ↔ p.add v = (some i, q) := by
  rw [intern]
  split
  · rename_i j r e
    rw [e]
    simp
  · rename_i r e
    rw [e]
    simp

theorem key?_of_intern (h : p.intern v = some (i, q)) : v.key?.isSome := by
  rw [intern_eq_some_iff] at h
  cases v with
  | string s => rfl
  | integer n => rfl
  | float x => rfl
  | _ => cases h

theorem extends_of_intern (h : p.intern v = some (i, q)) : q.Extends p := by
  rw [intern_eq_some_iff] at h
  rcases p.add_or v with ⟨j, r, e, hr⟩ | e <;> rw [h] at e <;> cases e
  rcases hr with hr | hr <;> rw [Extends, hr]
  exact ⟨[v], (Numbered.toList_add ..).symm⟩

theorem getElem?_of_intern (hp : p.Valid) (h : p.intern v = some (i, q)) :
    q.values.toList[i.toNat]? = some v := by
  have hk := key?_of_intern h
  rw [intern_eq_some_iff] at h
  rcases hp.add_cases hk with ⟨j, hj, e⟩ | ⟨r, -, hs, -, hr, e⟩ | ⟨-, -, e⟩ <;> rw [h] at e <;>
    cases e
  · exact hj
  · rw [UInt8.toNat_ofNat_of_lt' hs, hr]
    exact Numbered.getElem?_toList_add.mpr (.inr ⟨rfl, rfl⟩)

theorem Valid.intern (hp : p.Valid) (h : p.intern v = some (i, q)) : q.Valid := by
  have hk := key?_of_intern h
  rw [intern_eq_some_iff] at h
  rcases hp.add_cases hk with ⟨j, -, e⟩ | ⟨r, -, -, hr, -, e⟩ | ⟨-, -, e⟩ <;> rw [h] at e <;>
    cases e
  · exact hp
  · exact hr

theorem keys_intern (hp : p.Valid) (hk : v.key? = some k) (h : p.intern v = some (i, q)) :
    q.keys = insert k p.keys := by
  rw [intern_eq_some_iff] at h
  rcases hp.add_cases (by rw [hk]; rfl) with ⟨j, hj, e⟩ | ⟨r, -, -, -, hr, e⟩ | ⟨-, -, e⟩ <;>
    rw [h] at e <;> cases e
  · rw [Finset.insert_eq_of_mem ((mem_keys hk).mpr (List.mem_of_getElem? hj))]
  · ext k'
    simp [keys, hr, hk, eq_comm]

/-- There is room for a value exactly if its key makes the keys no more than fit. -/
theorem isSome_intern_iff (hp : p.Valid) (hk : v.key? = some k) :
    (p.intern v).isSome ↔ (insert k p.keys).card ≤ capacity := by
  have hcard := hp.card_keys
  have hsize := hp.size_le
  rcases hp.add_cases (by rw [hk]; rfl) with ⟨j, hj, e⟩ | ⟨r, hn, hs, -, -, e⟩ | ⟨hn, hs, e⟩ <;>
    rw [ConstantPool.intern, e]
  · rw [Finset.insert_eq_of_mem ((mem_keys hk).mpr (List.mem_of_getElem? hj))]
    simp [hcard, hsize]
  · rw [Finset.card_insert_of_notMem (mt (mem_keys hk).mp hn), hcard]
    simpa using Nat.succ_le_of_lt hs
  · rw [Finset.card_insert_of_notMem (mt (mem_keys hk).mp hn), hcard]
    simpa using Nat.lt_succ_of_le hs

end ConstantPool

end LuaLite
