import LuaLite.Proofs.Pool

/-!
# Calls on a constant pool

Constants are added to a pool one after the other, and now and then its values are taken out. A
`History` keeps, beside the pool, the additions that succeeded since the values were taken out last,
each with the index that it was given.

One call keeps `History.Recorded`: the pool is valid, and its values are the constants of these
additions, each once and where the additions put it. So this holds behind any calls, in any order and
whether they succeed or not; `History.interned_behind` says what it comes to.
-/

namespace LuaLite

namespace ConstantPool

/-- What can be asked of a pool. -/
inductive Call where
  | addString (s : String)
  | addInteger (n : Int64)
  | addFloat (x : Binary64)
  | take
  deriving DecidableEq

/-- The constant that a call adds. -/
def Call.constant? : Call → Option Value
  | .addString s => some (.string s)
  | .addInteger n => some (.integer n)
  | .addFloat x => some (.float x)
  | .take => none

/-- The index that a call gives, if it adds a constant and there is room, and the pool behind it. -/
def call (p : ConstantPool) : Call → Option UInt8 × ConstantPool
  | .addString s => p.addString s
  | .addInteger n => p.addInteger n
  | .addFloat x => p.addFloat x
  | .take => (none, p.take.2)

theorem call_of_constant? {p : ConstantPool} {c : Call} {v : Value} (h : c.constant? = some v) :
    p.call c = p.add v := by
  cases c <;> cases h <;> rfl

theorem Call.isSome_key? {c : Call} {v : Value} (h : c.constant? = some v) : v.key?.isSome := by
  cases c <;> cases h <;> rfl

end ConstantPool

open ConstantPool (Call capacity)

/-- A pool, and the additions that succeeded since its values were taken out, in order: the constant
and its index. -/
structure History where
  pool : ConstantPool
  additions : List (Value × UInt8)

namespace History

def empty : History := ⟨.empty, []⟩

/-- One more call. An addition that fails is none, and taking the values out ends the history so
far. -/
def call (h : History) (c : Call) : History where
  pool := (h.pool.call c).2
  additions :=
    match c.constant?, (h.pool.call c).1 with
    | some v, some i => h.additions ++ [(v, i)]
    | some _, none => h.additions
    | none, _ => []

/-- The history of calls on a new pool. -/
def behind (calls : List Call) : History := calls.foldl call empty

/-- The pool is valid, and its values are those added, each where the additions say. -/
structure Recorded (h : History) : Prop where
  valid : h.pool.Valid
  values : h.pool.values.toList = (h.additions.map Prod.fst).eraseDups
  places : ∀ a ∈ h.additions, h.pool.values.toList[a.2.toNat]? = some a.1

namespace Recorded

variable {h : History}

theorem empty : History.empty.Recorded where
  valid := ConstantPool.valid_empty
  values := by simp [History.empty, ConstantPool.empty]
  places _ ha := nomatch ha

theorem found (hr : h.Recorded) {v : Value} {i : UInt8}
    (hi : h.pool.values.toList[i.toNat]? = some v) :
    Recorded ⟨h.pool, h.additions ++ [(v, i)]⟩ := by
  have hm : v ∈ h.additions.map Prod.fst :=
    List.mem_eraseDups.mp (hr.values ▸ List.mem_of_getElem? hi)
  refine ⟨hr.valid, ?_, fun a ha => ?_⟩
  · have hnone : [v].removeAll (h.additions.map Prod.fst) = [] :=
      List.filter_cons_of_neg (by simpa using hm)
    rw [List.map_append, List.eraseDups_append, ← hr.values, List.map_singleton, hnone,
      List.eraseDups_nil, List.append_nil]
  · rcases List.mem_append.mp ha with ha | ha
    · exact hr.places a ha
    · rw [List.mem_singleton.mp ha]
      exact hi

theorem added (hr : h.Recorded) {v : Value} {q : ConstantPool} (hn : v ∉ h.pool.values.toList)
    (hs : h.pool.values.size < capacity) (hv : q.Valid) (hq : q.values = h.pool.values.add v) :
    Recorded ⟨q, h.additions ++ [(v, UInt8.ofNat h.pool.values.size)]⟩ := by
  have hm : v ∉ h.additions.map Prod.fst := fun hm =>
    hn (hr.values ▸ List.mem_eraseDups.mpr hm)
  refine ⟨hv, ?_, fun a ha => ?_⟩
  · have hall : [v].removeAll (h.additions.map Prod.fst) = [v] :=
      List.filter_cons_of_pos (by simpa using hm)
    rw [hq, Numbered.toList_add, List.map_append, List.eraseDups_append, ← hr.values,
      List.map_singleton, hall]
    rfl
  · rw [hq]
    refine Numbered.getElem?_toList_add.mpr ?_
    rcases List.mem_append.mp ha with ha | ha
    · exact .inl (hr.places a ha)
    · rw [List.mem_singleton.mp ha]
      exact .inr ⟨UInt8.toNat_ofNat_of_lt' hs, rfl⟩

theorem call (hr : h.Recorded) (c : Call) : (h.call c).Recorded := by
  cases hc : c.constant? with
  | none =>
    cases c with
    | take => exact .empty
    | _ => cases hc
  | some v =>
    have he := ConstantPool.call_of_constant? (p := h.pool) hc
    rcases hr.valid.add_cases (Call.isSome_key? hc) with
      ⟨i, hi, e⟩ | ⟨q, hn, hs, hv, hq, e⟩ | ⟨-, -, e⟩ <;>
      simp only [History.call, hc, he, e]
    · exact hr.found hi
    · exact hr.added hn hs hv hq
    · exact hr

theorem behind (calls : List Call) : (History.behind calls).Recorded := by
  induction calls using List.reverseRecOn with
  | nil => exact .empty
  | append_singleton calls c ih =>
    rw [History.behind, List.foldl_append]
    exact ih.call c

end Recorded

/-- What calls on a pool can rely on. -/
structure Interned (h : History) : Prop where
  /-- There are no more values than a byte tells apart. -/
  size_le : h.pool.values.size ≤ capacity
  /-- All values are constants, and no two have the same key. -/
  keyed : ∀ v ∈ h.pool.values.toList, v.key?.isSome
  nodup : (h.pool.values.toList.map Value.key?).Nodup
  /-- Each table has the keys of its type that are there, with their places, and no others. -/
  strings : ∀ (s : String) (i : UInt8), h.pool.strings.lookup s = some i ↔
    h.pool.values.toList[i.toNat]? = some (.string s)
  integers : ∀ (n : Int64) (i : UInt8), h.pool.integers.lookup n = some i ↔
    h.pool.values.toList[i.toNat]? = some (.integer n)
  floats : ∀ (b : UInt64) (i : UInt8), h.pool.floats.lookup b = some i ↔
    h.pool.values.toList[i.toNat]? = some (.float ⟨b⟩)
  /-- The values are what was added since they were taken out, each once, in the order in which they
  were first added. -/
  values : h.pool.values.toList = (h.additions.map Prod.fst).eraseDups
  /-- They stand where their additions said. -/
  places : ∀ a ∈ h.additions, h.pool.values.toList[a.2.toNat]? = some a.1
  /-- Two additions gave the same index exactly if their keys are the same. -/
  indices : ∀ a ∈ h.additions, ∀ b ∈ h.additions, a.2 = b.2 ↔ a.1.key? = b.1.key?
  /-- An addition that succeeds is kept, as are those before it, until the values are taken out. -/
  succeeds : ∀ c v i, c.constant? = some v → (h.pool.call c).1 = some i →
    (h.call c).additions = h.additions ++ [(v, i)]
  /-- An addition fails exactly if its key is new and the pool is full. -/
  fails : ∀ c v, c.constant? = some v → ((h.pool.call c).1 = none ↔
    (∀ w ∈ h.pool.values.toList, w.key? ≠ v.key?) ∧ h.pool.values.size = capacity)
  /-- An addition that fails changes nothing. -/
  unchanged : ∀ c v, c.constant? = some v → (h.pool.call c).1 = none → h.call c = h

namespace Recorded

variable {h : History}

theorem eq_of_key?_eq (hr : h.Recorded) {v w : Value} (hv : v ∈ h.pool.values.toList)
    (he : v.key? = w.key?) : v = w := by
  obtain ⟨k, hk⟩ := Option.isSome_iff_exists.mp (hr.valid.keyed v hv)
  exact Value.eq_of_key? hk (he ▸ hk)

theorem index_eq_iff (hr : h.Recorded) {a b : Value × UInt8} (ha : a ∈ h.additions)
    (hb : b ∈ h.additions) : a.2 = b.2 ↔ a.1.key? = b.1.key? := by
  have hpa := hr.places a ha
  have hpb := hr.places b hb
  constructor
  · intro he
    rw [he, hpb] at hpa
    rw [Option.some.inj hpa]
  · intro he
    have hv := hr.eq_of_key?_eq (List.mem_of_getElem? hpa) he
    rw [← hv] at hpb
    obtain ⟨hlt, hga⟩ := List.getElem?_eq_some_iff.mp hpa
    obtain ⟨hlt', hgb⟩ := List.getElem?_eq_some_iff.mp hpb
    exact UInt8.toNat_inj.mp ((hr.valid.nodup.getElem_inj_iff).mp (hga.trans hgb.symm))

theorem fails_iff (hr : h.Recorded) {c : Call} {v : Value} (hc : c.constant? = some v) :
    (h.pool.call c).1 = none ↔
      (∀ w ∈ h.pool.values.toList, w.key? ≠ v.key?) ∧ h.pool.values.size = capacity := by
  rw [ConstantPool.call_of_constant? hc]
  rcases hr.valid.add_cases (Call.isSome_key? hc) with
    ⟨i, hi, e⟩ | ⟨q, -, hs, -, -, e⟩ | ⟨hn, hs, e⟩ <;> rw [e]
  · have hm := List.mem_of_getElem? hi
    simp only [reduceCtorEq, false_iff, not_and]
    exact fun hne => absurd rfl (hne v hm)
  · simp only [reduceCtorEq, false_iff, not_and]
    exact fun _ => Nat.ne_of_lt hs
  · refine ⟨fun _ => ⟨fun w hw he => hn ?_, Nat.le_antisymm hr.valid.size_le hs⟩, fun _ => rfl⟩
    exact hr.eq_of_key?_eq hw he ▸ hw

end Recorded

/-- Calls on a pool that is new at first leave it so, whatever they are and however they end. -/
theorem interned_behind (calls : List Call) : (behind calls).Interned := by
  have hr := Recorded.behind calls
  generalize behind calls = h at hr
  constructor
  case size_le => exact hr.valid.size_le
  case keyed => exact hr.valid.keyed
  case nodup => exact hr.valid.nodup.map_on fun v hv w _ => hr.eq_of_key?_eq hv
  case strings =>
    intro s i
    rw [hr.valid.strings s i]
    simp [Value.key?_eq_string]
  case integers =>
    intro n i
    rw [hr.valid.integers n i]
    simp [Value.key?_eq_integer]
  case floats =>
    intro b i
    rw [hr.valid.floats b i]
    simp [Value.key?_eq_float]
  case values => exact hr.values
  case places => exact hr.places
  case indices => exact fun a ha b hb => hr.index_eq_iff ha hb
  case succeeds =>
    intro c v i hc hi
    simp only [call, hc, hi]
  case fails => exact fun c v hc => hr.fails_iff hc
  case unchanged =>
    intro c v hc hn
    have he := ConstantPool.call_of_constant? (p := h.pool) hc
    rcases h.pool.add_or v with ⟨i, q, e, -⟩ | e <;> rw [he, e] at hn
    · cases hn
    · simp only [call, hc, he, e]

-- Types are told apart, and so are the zeros and two patterns that are no number.
example : (behind [.addString "5", .addInteger 5, .addFloat 0.0, .addFloat (-0.0),
    .addFloat ⟨0x7FF8000000000000⟩, .addFloat ⟨0xFFF8000000000000⟩,
    .addString "5"]).additions.map Prod.snd = [0, 1, 2, 3, 4, 5, 0] := by
  decide +kernel

end History

end LuaLite
