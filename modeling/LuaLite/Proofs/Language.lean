import LuaLite.Proofs.Compilation
import Mathlib.Data.Finset.Card

/-!
# What the compiler accepts

A source is compiled exactly if its tokens spell statements that stay within the limits
(`compile_succeeds_iff`). The constants that count are those that the statements demand: a name
demands one only where it is not that of a local.
-/

namespace LuaLite

/-- The constant that an expression demands where these locals are declared, if it demands one. -/
def Expression.demands (bound : List String) : Expression → List ConstantKey
  | .nil => []
  | .boolean _ => []
  | .numeral (.integer n) =>
    if -32768 ≤ n.toInt ∧ n.toInt ≤ 32767 then [] else [.integer n]
  | .numeral (.float x) => [.float x.bits]
  | .string text => [.string text]
  | .name x => if x ∈ bound then [] else [.string x]

namespace Statement

/-- The constants that statements demand, one after the other. -/
def demands (bound : List String) : List Statement → List ConstantKey
  | [] => []
  | .declare x e :: ss => e.demands bound ++ demands (x :: bound) ss
  | .call f e :: ss => (Expression.name f).demands bound ++ (e.demands bound ++ demands bound ss)

def isDeclare : Statement → Bool
  | .declare _ _ => true
  | .call _ _ => false

/-- Behind statements that have declared `bound` and demanded `keys` there is room for more. -/
structure Fit (bound : List String) (keys : Finset ConstantKey) (ss : List Statement) : Prop where
  declared : bound.length + ss.countP isDeclare ≤ registerCount
  called : ∀ before f e behind, ss = before ++ .call f e :: behind →
    bound.length + before.countP isDeclare + 2 ≤ registerCount
  demanded : (keys ∪ (demands bound ss).toFinset).card ≤ ConstantPool.capacity

variable {bound : List String} {keys : Finset ConstantKey} {ss : List Statement}

theorem Fit.length_le (h : Fit bound keys ss) : bound.length ≤ registerCount :=
  Nat.le_trans (Nat.le_add_right ..) h.declared

theorem Fit.card_le (h : Fit bound keys ss) : keys.card ≤ ConstantPool.capacity :=
  Nat.le_trans (Finset.card_le_card Finset.subset_union_left) h.demanded

theorem fit_nil_iff :
    Fit bound keys [] ↔ bound.length ≤ registerCount ∧ keys.card ≤ ConstantPool.capacity := by
  constructor
  · exact fun h => ⟨h.length_le, h.card_le⟩
  · rintro ⟨hb, hk⟩
    refine ⟨hb, fun before f e behind h => ?_, ?_⟩
    · simp at h
    · simpa [demands] using hk

theorem countP_declare {x : String} {e : Expression} :
    (declare x e :: ss).countP isDeclare = ss.countP isDeclare + 1 :=
  List.countP_cons_of_pos rfl

theorem countP_call {f : String} {e : Expression} :
    (call f e :: ss).countP isDeclare = ss.countP isDeclare :=
  List.countP_cons_of_neg Bool.false_ne_true

theorem fit_declare_iff {x : String} {e : Expression} :
    Fit bound keys (.declare x e :: ss) ↔
      Fit (x :: bound) (keys ∪ (e.demands bound).toFinset) ss := by
  have hlen : (x :: bound).length = bound.length + 1 := rfl
  have hkeys : keys ∪ (demands bound (.declare x e :: ss)).toFinset =
      keys ∪ (e.demands bound).toFinset ∪ (demands (x :: bound) ss).toFinset := by
    rw [demands, List.toFinset_append, Finset.union_assoc]
  constructor
  · rintro ⟨hd, hf, hk⟩
    refine ⟨?_, fun before f e' behind h => ?_, hkeys ▸ hk⟩
    · rw [countP_declare] at hd
      omega
    · have := hf (.declare x e :: before) f e' behind (by rw [h]; rfl)
      rw [countP_declare] at this
      omega
  · rintro ⟨hd, hf, hk⟩
    refine ⟨?_, fun before f e' behind h => ?_, hkeys ▸ hk⟩
    · rw [countP_declare]
      omega
    · cases before with
      | nil => cases h
      | cons s before =>
        cases h
        have := hf before f e' behind rfl
        rw [countP_declare]
        omega

theorem fit_call_iff {f : String} {e : Expression} :
    Fit bound keys (.call f e :: ss) ↔ bound.length + 2 ≤ registerCount ∧
      Fit bound (keys ∪ ((Expression.name f).demands bound).toFinset ∪
        (e.demands bound).toFinset) ss := by
  have hkeys : keys ∪ (demands bound (.call f e :: ss)).toFinset =
      keys ∪ ((Expression.name f).demands bound).toFinset ∪ (e.demands bound).toFinset ∪
        (demands bound ss).toFinset := by
    rw [demands, List.toFinset_append, List.toFinset_append, Finset.union_assoc,
      Finset.union_assoc]
  constructor
  · rintro ⟨hd, hf, hk⟩
    refine ⟨hf [] f e ss rfl, countP_call ▸ hd, fun before f' e' behind h => ?_, hkeys ▸ hk⟩
    have := hf (.call f e :: before) f' e' behind (by rw [h]; rfl)
    rwa [countP_call] at this
  · rintro ⟨hb, hd, hf, hk⟩
    refine ⟨by rwa [countP_call], fun before f' e' behind h => ?_, hkeys ▸ hk⟩
    cases before with
    | nil => exact hb
    | cons s before =>
      cases h
      rw [countP_call]
      exact hf before f' e' behind rfl

theorem fit_empty_iff : Fit [] ∅ ss ↔ ss.countP isDeclare ≤ 256 ∧
    (∀ before f e behind, ss = before ++ .call f e :: behind → before.countP isDeclare ≤ 254) ∧
    (demands [] ss).toFinset.card ≤ 256 := by
  have hr : registerCount = 256 := rfl
  have hlen : ([] : List String).length = 0 := rfl
  have hkeys : ∅ ∪ (demands [] ss).toFinset = (demands [] ss).toFinset := Finset.empty_union _
  constructor
  · rintro ⟨hd, hf, hk⟩
    refine ⟨by omega, fun before f e behind h => ?_, hkeys ▸ hk⟩
    have := hf before f e behind h
    omega
  · rintro ⟨hd, hf, hk⟩
    refine ⟨by omega, fun before f e behind h => ?_, hkeys.symm ▸ hk⟩
    have := hf before f e behind h
    omega

end Statement

/-! ### Room in a layout -/

namespace Layout

variable {y z : Layout} {v : Value} {k : ConstantKey}

theorem constant_cases (hp : y.pool.Valid) (hk : v.key? = some k) :
    (∃ i z, y.constant v = some (i, z) ∧ z.pool.keys = y.pool.keys ∪ [k].toFinset) ∨
    (y.constant v = none ∧ ConstantPool.capacity < (y.pool.keys ∪ [k].toFinset).card) := by
  have hi := ConstantPool.isSome_intern_iff hp hk
  have hu : y.pool.keys ∪ [k].toFinset = insert k y.pool.keys := by
    rw [List.toFinset_cons, List.toFinset_nil, Finset.union_insert, Finset.union_empty]
  rw [hu, Layout.constant]
  cases h : y.pool.intern v with
  | none =>
    rw [h] at hi
    exact .inr ⟨rfl, Nat.lt_of_not_le fun hle => by simpa using hi.mpr hle⟩
  | some r => exact .inl ⟨r.1, { y with pool := r.2 }, rfl, ConstantPool.keys_intern hp hk h⟩

theorem loadConstant_cases (hp : y.pool.Valid) (hk : v.key? = some k) (dst : UInt8) :
    (∃ i z, y.loadConstant dst v = some (i, z) ∧ z.pool.keys = y.pool.keys ∪ [k].toFinset) ∨
    (y.loadConstant dst v = none ∧
      ConstantPool.capacity < (y.pool.keys ∪ [k].toFinset).card) := by
  rw [loadConstant]
  rcases constant_cases hp hk with ⟨i, z, h, hz⟩ | ⟨h, hlt⟩
  · exact .inl ⟨.loadConst dst i, z, by rw [h]; rfl, hz⟩
  · exact .inr ⟨by rw [h]; rfl, hlt⟩

end Layout

/-- An expression is loaded exactly if what it demands is among what fits. -/
theorem Expression.load_cases {y : Layout} (hp : y.pool.Valid) (hy : y.locals.Valid) (dst : UInt8)
    (e : Expression) :
    (∃ i z, e.load y dst = some (i, z) ∧
      z.pool.keys = y.pool.keys ∪ (e.demands y.locals.latestFirst).toFinset) ∨
    (e.load y dst = none ∧
      ConstantPool.capacity < (y.pool.keys ∪ (e.demands y.locals.latestFirst).toFinset).card) := by
  have nothing : y.pool.keys = y.pool.keys ∪ ([] : List ConstantKey).toFinset := by simp
  cases e with
  | nil => exact .inl ⟨_, y, rfl, nothing⟩
  | boolean b => exact .inl ⟨_, y, rfl, nothing⟩
  | numeral n =>
    cases n with
    | integer n =>
      rw [load, demands]
      split
      · exact .inl ⟨_, y, rfl, nothing⟩
      · exact Layout.loadConstant_cases hp rfl dst
    | float x => exact Layout.loadConstant_cases hp rfl dst
  | string text => exact Layout.loadConstant_cases hp rfl dst
  | name x =>
    rw [load, demands]
    cases h : y.locals.slot? x with
    | some s =>
      have hx := hy.isSome_slot?_iff.mp (Option.isSome_of_eq_some h)
      rw [if_pos (LocalTable.mem_latestFirst.mpr hx)]
      exact .inl ⟨_, y, rfl, nothing⟩
    | none =>
      have hx := hy.slot?_eq_none_iff.mp h
      rw [if_neg (mt LocalTable.mem_latestFirst.mp hx)]
      rcases Layout.constant_cases (v := .string x) hp rfl with ⟨i, z, h', hz⟩ | ⟨h', hlt⟩
      · exact .inl ⟨.getGlobal dst i, z, by rw [h']; rfl, hz⟩
      · exact .inr ⟨by rw [h']; rfl, hlt⟩

theorem Expression.keys_of_load {y z : Layout} {dst : UInt8} {e : Expression} {i : Instruction}
    (hp : y.pool.Valid) (hy : y.locals.Valid) (h : e.load y dst = some (i, z)) :
    z.pool.keys = y.pool.keys ∪ (e.demands y.locals.latestFirst).toFinset := by
  rcases load_cases hp hy dst e with ⟨i', z', h', hz⟩ | ⟨h', -⟩
  · rw [h'] at h
    cases h
    exact hz
  · rw [h'] at h
    cases h

theorem Expression.exists_load {y : Layout} {e : Expression} (hp : y.pool.Valid)
    (hy : y.locals.Valid) (dst : UInt8)
    (h : (y.pool.keys ∪ (e.demands y.locals.latestFirst).toFinset).card ≤ ConstantPool.capacity) :
    ∃ i z, e.load y dst = some (i, z) := by
  rcases load_cases hp hy dst e with ⟨i, z, h', -⟩ | ⟨-, hlt⟩
  · exact ⟨i, z, h'⟩
  · exact absurd h (Nat.not_le_of_lt hlt)

namespace Statement

/-- Room that was found is counted right: the keys of the pool are those demanded so far. -/
theorem fit_of_assembleAll {y z : Layout} {ss : List Statement} {code : List Instruction}
    (hp : y.pool.Valid) (hy : y.locals.Valid)
    (h : assembleAll y ss = some (code, z)) : Fit y.locals.latestFirst y.pool.keys ss := by
  induction ss generalizing y code with
  | nil => exact fit_nil_iff.mpr ⟨hy.size_le, hp.card_keys ▸ hp.size_le⟩
  | cons s ss ih =>
    obtain ⟨block, y', code', hs, hss, rfl⟩ := assembleAll_cons.mp h
    cases s with
    | declare x e =>
      obtain ⟨hr, i, w, he, rfl, rfl⟩ := assemble_declare.mp hs
      obtain ⟨hg, -⟩ := Expression.loads_of_load he
      have hl := hg.locals_declare x
      have hf := ih (y := w.declare x) (hg.valid hp) (hl ▸ Layout.valid_declare hy hr) hss
      rw [hl, show (w.declare x).pool = w.pool from rfl, Expression.keys_of_load hp hy he] at hf
      exact fit_declare_iff.mpr hf
    | call f e =>
      obtain ⟨hr, i, w, j, hc, he, rfl⟩ := assemble_call.mp hs
      obtain ⟨hg, -⟩ := Expression.loads_of_load hc
      obtain ⟨hg', -⟩ := Expression.loads_of_load he
      have hw : w.locals.Valid := hg.locals ▸ hy
      have hf := ih (hg'.valid (hg.valid hp)) (hg'.locals ▸ hw) hss
      rw [Expression.keys_of_load (hg.valid hp) hw he, Expression.keys_of_load hp hy hc, hg'.locals,
        hg.locals] at hf
      exact fit_call_iff.mpr ⟨hr, hf⟩

theorem exists_assembleAll {y : Layout} {ss : List Statement} (hp : y.pool.Valid)
    (hy : y.locals.Valid) (h : Fit y.locals.latestFirst y.pool.keys ss) :
    ∃ code z, assembleAll y ss = some (code, z) := by
  induction ss generalizing y with
  | nil => exact ⟨[], y, rfl⟩
  | cons s ss ih =>
    cases s with
    | declare x e =>
      have hf := fit_declare_iff.mp h
      obtain ⟨i, w, he⟩ := Expression.exists_load hp hy y.slot hf.card_le
      obtain ⟨hg, -⟩ := Expression.loads_of_load he
      have hl := hg.locals_declare x
      obtain ⟨code, z, hss⟩ := ih (y := w.declare x) (hg.valid hp)
        (hl ▸ Layout.valid_declare hy hf.length_le) (by
          rw [hl, show (w.declare x).pool = w.pool from rfl, Expression.keys_of_load hp hy he]
          exact hf)
      exact ⟨_, z, assembleAll_cons.mpr ⟨_, _, code,
        assemble_declare.mpr ⟨hf.length_le, i, w, he, rfl, rfl⟩, hss, rfl⟩⟩
    | call f e =>
      obtain ⟨hr, hf⟩ := fit_call_iff.mp h
      have hcard := Nat.le_trans (Finset.card_le_card Finset.subset_union_left) hf.card_le
      obtain ⟨i, w, hc⟩ := Expression.exists_load hp hy y.slot hcard
      obtain ⟨hg, -⟩ := Expression.loads_of_load hc
      have hk := Expression.keys_of_load hp hy hc
      have hw : w.locals.Valid := hg.locals ▸ hy
      obtain ⟨j, w', he⟩ := Expression.exists_load (hg.valid hp) hw (y.slot + 1) (by
        rw [hk, hg.locals]
        exact hf.card_le)
      obtain ⟨hg', -⟩ := Expression.loads_of_load he
      obtain ⟨code, z, hss⟩ := ih (y := w') (hg'.valid (hg.valid hp)) (hg'.locals ▸ hw) (by
        rw [Expression.keys_of_load (hg.valid hp) hw he, hk, hg'.locals, hg.locals]
        exact hf)
      exact ⟨_, z, assembleAll_cons.mpr ⟨_, _, code,
        assemble_call.mpr ⟨hr, i, w, j, hc, he, rfl⟩, hss, rfl⟩⟩

end Statement

/-- The sources that are compiled: the tokens spell statements, of which at most 256 declare a
local, with at most 254 of those before a call, and which demand at most 256 constants. -/
theorem compile_succeeds_iff (source : String) :
    (∃ chunk, compile source = .ok chunk) ↔
      ∃ ts ss, (Lexer.ofSource source).all.1 = .ok ts ∧ Statement.ListSpelled ss ts ∧
        ss.countP Statement.isDeclare ≤ 256 ∧
        (∀ before f e behind, ss = before ++ .call f e :: behind →
          before.countP Statement.isDeclare ≤ 254) ∧
        (Statement.demands [] ss).toFinset.card ≤ 256 := by
  constructor
  · rintro ⟨chunk, h⟩
    obtain ⟨ss, code, y, ⟨ts, ht, hss⟩, hc, -⟩ := compile_eq_ok_iff.mp h
    exact ⟨ts, ss, ht, hss, Statement.fit_empty_iff.mp
      (Statement.fit_of_assembleAll ConstantPool.valid_empty LocalTable.valid_empty hc)⟩
  · rintro ⟨ts, ss, ht, hss, h⟩
    obtain ⟨code, y, hc⟩ := Statement.exists_assembleAll (y := .empty) ConstantPool.valid_empty
      LocalTable.valid_empty
      (Statement.fit_empty_iff.mpr h)
    exact ⟨_, compile_eq_ok_iff.mpr ⟨ss, code, y, ⟨ts, ht, hss⟩, hc, rfl⟩⟩

end LuaLite
