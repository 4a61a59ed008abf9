import LuaLite.Compiler
import LuaLite.Statement.Meaning
import LuaLite.Proofs.Pool

/-!
# The code of statements

The code that a list of statements is compiled to, without the reading: `Statement.assembleAll` puts
together the blocks of the statements. A block depends on the statements before it only through a
`Layout`, which is the locals and the constants so far. `Expression.Loads` lists the instructions
that load an expression.
-/

namespace LuaLite

/-- The locals with their registers, and the constants. -/
structure Layout where
  locals : LocalTable
  pool : ConstantPool

namespace Layout

def empty : Layout := ⟨.empty, .empty⟩

/-- The register above the locals. -/
def slot (y : Layout) : UInt8 := UInt8.ofNat y.locals.size

def declare (y : Layout) (x : String) : Layout := { y with locals := y.locals.add x y.slot }

/-- The index of a constant, which is added if it is new. -/
def constant (y : Layout) (v : Value) : Option (UInt8 × Layout) :=
  (y.pool.intern v).map fun (k, pool) => (k, { y with pool })

def loadConstant (y : Layout) (dst : UInt8) (v : Value) : Option (Instruction × Layout) :=
  (y.constant v).map fun (k, y) => (.loadConst dst k, y)

end Layout

/-- The instruction that loads an expression into register `dst`, if its constant has room. -/
def Expression.load (y : Layout) (dst : UInt8) : Expression → Option (Instruction × Layout)
  | .nil => some (.loadNil dst, y)
  | .boolean b => some (.loadBool dst b, y)
  | .numeral (.integer n) =>
    if -32768 ≤ n.toInt ∧ n.toInt ≤ 32767 then some (.loadInt dst (Int16.ofInt n.toInt), y)
    else y.loadConstant dst (.integer n)
  | .numeral (.float x) => y.loadConstant dst (.float x)
  | .string text => y.loadConstant dst (.string text)
  | .name x =>
    match y.locals.slot? x with
    | some slot => some (.move dst slot, y)
    | none => (y.constant (.string x)).map fun (k, y) => (.getGlobal dst k, y)

/-- The block of a statement, if there is room for its registers and constants. -/
def Statement.assemble (y : Layout) : Statement → Option (List Instruction × Layout)
  | .declare x e =>
    if y.locals.size + 1 ≤ registerCount then
      (e.load y y.slot).map fun (i, y) => ([i], y.declare x)
    else none
  | .call f e =>
    if y.locals.size + 2 ≤ registerCount then
      (Expression.load y y.slot (.name f)).bind fun (i, y') =>
        (e.load y' (y.slot + 1)).map fun (j, y'') => ([i, j, .call y.slot 1], y'')
    else none

/-- The blocks of statements, one after the other. -/
def Statement.assembleAll (y : Layout) : List Statement → Option (List Instruction × Layout)
  | [] => some ([], y)
  | s :: ss =>
    (s.assemble y).bind fun (block, y') =>
      (assembleAll y' ss).map fun (code, y'') => (block ++ code, y'')

/-! ### The instructions that load -/

/-- The value of an expression that is not a name. -/
def Expression.literal? : Expression → Option Value
  | .nil => some .nil
  | .boolean b => some (.boolean b)
  | .numeral n => some n.value
  | .string text => some (.string text)
  | .name _ => none

/-- In the layout `y` the instruction loads the expression into register `dst`. -/
inductive Expression.Loads (y : Layout) (dst : UInt8) : Expression → Instruction → Prop
  | nil : Loads y dst .nil (.loadNil dst)
  | boolean (b : Bool) : Loads y dst (.boolean b) (.loadBool dst b)
  | small {n : Int64} (hn : -32768 ≤ n.toInt ∧ n.toInt ≤ 32767) :
    Loads y dst (.numeral (.integer n)) (.loadInt dst (Int16.ofInt n.toInt))
  | constant {e : Expression} {v : Value} {k : UInt8} (hv : e.literal? = some v)
    (hk : y.pool.values.toList[k.toNat]? = some v) : Loads y dst e (.loadConst dst k)
  | global {x : String} {k : UInt8} (hx : y.locals.slot? x = none)
    (hk : y.pool.values.toList[k.toNat]? = some (.string x)) :
    Loads y dst (.name x) (.getGlobal dst k)
  | slot {x : String} {s : UInt8} (hx : y.locals.slot? x = some s) :
    Loads y dst (.name x) (.move dst s)

namespace Layout

/-- The constants and the locals are found at their places. -/
structure Valid (y : Layout) : Prop where
  pool : y.pool.Valid
  locals : y.locals.Valid

/-- The constants of `y` keep their places in `z`, and the locals are the same. -/
structure Grows (y z : Layout) : Prop where
  locals : z.locals = y.locals
  pool : z.pool.Extends y.pool
  valid : y.pool.Valid → z.pool.Valid

variable {y z : Layout} {dst : UInt8} {v : Value} {k : UInt8}

theorem Grows.refl (y : Layout) : y.Grows y := ⟨rfl, .refl _, id⟩

theorem Grows.trans {w : Layout} (h : y.Grows z) (h' : z.Grows w) : y.Grows w :=
  ⟨h'.locals.trans h.locals, h'.pool.trans h.pool, fun hv => h'.valid (h.valid hv)⟩

theorem valid_empty : empty.Valid := ⟨ConstantPool.valid_empty, LocalTable.valid_empty⟩

theorem Valid.grows (h : y.Valid) (hg : y.Grows z) : z.Valid :=
  ⟨hg.valid h.pool, hg.locals ▸ h.locals⟩

theorem Grows.slot_eq (h : y.Grows z) : z.slot = y.slot := by
  rw [slot, slot, h.locals]

theorem Grows.locals_declare (h : y.Grows z) (x : String) :
    (z.declare x).locals = (y.declare x).locals := by
  rw [declare, declare, h.slot_eq, h.locals]

theorem toList_declare (y : Layout) (x : String) :
    (y.declare x).locals.toList = y.locals.toList ++ [x] :=
  y.locals.toList_add x y.slot

theorem size_declare (y : Layout) (x : String) : (y.declare x).locals.size = y.locals.size + 1 := rfl

theorem valid_declare {x : String} (h : y.locals.Valid) (hr : y.locals.size + 1 ≤ registerCount) :
    (y.declare x).locals.Valid :=
  h.add hr x

theorem toNat_slot (h : y.locals.size + 1 ≤ registerCount) : y.slot.toNat = y.locals.size :=
  UInt8.toNat_ofNat_of_lt' h

theorem toNat_slot_add_one (h : y.locals.size + 2 ≤ registerCount) :
    (y.slot + 1).toNat = y.locals.size + 1 := by
  have hc : registerCount = 256 := rfl
  rw [UInt8.toNat_add, toNat_slot (by omega), show (1 : UInt8).toNat = 1 from rfl]
  omega

theorem constant_eq_some (h : y.constant v = some (k, z)) :
    y.Grows z ∧ (y.pool.Valid → z.pool.values.toList[k.toNat]? = some v) := by
  obtain ⟨⟨k', q⟩, hq, e⟩ := Option.map_eq_some_iff.mp h
  cases e
  exact ⟨⟨rfl, ConstantPool.extends_of_intern hq, fun hp => hp.intern hq⟩,
    fun hp => ConstantPool.getElem?_of_intern hp hq⟩

end Layout

namespace Expression

variable {y z : Layout} {dst : UInt8} {e : Expression} {i : Instruction}

theorem Loads.extends (h : e.Loads y dst i) {q : ConstantPool} (hq : q.Extends y.pool) :
    e.Loads ⟨y.locals, q⟩ dst i := by
  cases h with
  | nil => exact .nil
  | boolean b => exact .boolean b
  | small hn => exact .small hn
  | constant hv hk => exact .constant hv (hq.getElem? hk)
  | global hx hk => exact .global hx (hq.getElem? hk)
  | slot hx => exact .slot hx

theorem Loads.grows (h : e.Loads y dst i) (hg : y.Grows z) : e.Loads z dst i := by
  have hz := h.extends hg.pool
  rwa [← hg.locals] at hz

theorem loads_of_loadConstant {v : Value} (he : e.literal? = some v)
    (h : y.loadConstant dst v = some (i, z)) : y.Grows z ∧ (y.pool.Valid → e.Loads z dst i) := by
  obtain ⟨⟨k, z'⟩, hk, e'⟩ := Option.map_eq_some_iff.mp h
  cases e'
  obtain ⟨hg, hi⟩ := Layout.constant_eq_some hk
  exact ⟨hg, fun hp => .constant he (hi hp)⟩

theorem loads_of_load (h : e.load y dst = some (i, z)) :
    y.Grows z ∧ (y.pool.Valid → e.Loads z dst i) := by
  cases e with
  | nil => cases h; exact ⟨.refl y, fun _ => .nil⟩
  | boolean b => cases h; exact ⟨.refl y, fun _ => .boolean b⟩
  | numeral n =>
    cases n with
    | integer n =>
      rw [load] at h
      split at h
      · rename_i hn
        cases h
        exact ⟨.refl y, fun _ => .small hn⟩
      · exact loads_of_loadConstant rfl h
    | float x => exact loads_of_loadConstant rfl h
  | string text => exact loads_of_loadConstant rfl h
  | name x =>
    rw [load] at h
    split at h
    · rename_i hx
      cases h
      exact ⟨.refl y, fun _ => .slot hx⟩
    · rename_i hx
      obtain ⟨⟨k, z'⟩, hk, e'⟩ := Option.map_eq_some_iff.mp h
      cases e'
      obtain ⟨hg, hi⟩ := Layout.constant_eq_some hk
      exact ⟨hg, fun hp => .global (hg.locals ▸ hx) (hi hp)⟩

end Expression

/-! ### Blocks -/

theorem Statement.assemble_declare {y z : Layout} {x : String} {e : Expression}
    {block : List Instruction} :
    (Statement.declare x e).assemble y = some (block, z) ↔
      y.locals.size + 1 ≤ registerCount ∧ ∃ i y', e.load y y.slot = some (i, y') ∧ block = [i] ∧
        z = y'.declare x := by
  rw [assemble]
  split
  · rename_i hr
    simp only [Option.map_eq_some_iff, Prod.exists, Prod.mk.injEq, hr, true_and]
    constructor
    · rintro ⟨i, y', he, rfl, rfl⟩
      exact ⟨i, y', he, rfl, rfl⟩
    · rintro ⟨i, y', he, rfl, rfl⟩
      exact ⟨i, y', he, rfl, rfl⟩
  · rename_i hr
    simp [hr]

theorem Statement.assemble_call {y z : Layout} {f : String} {e : Expression}
    {block : List Instruction} :
    (Statement.call f e).assemble y = some (block, z) ↔
      y.locals.size + 2 ≤ registerCount ∧ ∃ i y' j,
        Expression.load y y.slot (.name f) = some (i, y') ∧
        e.load y' (y.slot + 1) = some (j, z) ∧ block = [i, j, .call y.slot 1] := by
  rw [assemble]
  split
  · rename_i hr
    simp only [Option.bind_eq_some_iff, Option.map_eq_some_iff, Prod.exists, Prod.mk.injEq, hr,
      true_and]
    constructor
    · rintro ⟨i, y', hf, j, y'', he, rfl, rfl⟩
      exact ⟨i, y', j, hf, he, rfl⟩
    · rintro ⟨i, y', j, hf, he, rfl⟩
      exact ⟨i, y', hf, j, z, he, rfl, rfl⟩
  · rename_i hr
    simp [hr]

theorem Statement.assembleAll_cons {y z : Layout} {s : Statement} {ss : List Statement}
    {code : List Instruction} :
    assembleAll y (s :: ss) = some (code, z) ↔
      ∃ block y' code', s.assemble y = some (block, y') ∧ assembleAll y' ss = some (code', z) ∧
        code = block ++ code' := by
  simp only [assembleAll, Option.bind_eq_some_iff, Option.map_eq_some_iff, Prod.exists,
    Prod.mk.injEq]
  constructor
  · rintro ⟨block, y', hs, code', y'', hss, rfl, rfl⟩
    exact ⟨block, y', code', hs, hss, rfl⟩
  · rintro ⟨block, y', code', hs, hss, rfl⟩
    exact ⟨block, y', hs, code', z, hss, rfl, rfl⟩

theorem Statement.grows_of_assemble_call {y z : Layout} {f : String} {e : Expression}
    {block : List Instruction} (h : (Statement.call f e).assemble y = some (block, z)) :
    y.Grows z := by
  obtain ⟨-, i, w, j, hf, he, -⟩ := assemble_call.mp h
  exact (Expression.loads_of_load hf).1.trans (Expression.loads_of_load he).1

theorem Statement.grows_of_assemble {y z : Layout} {s : Statement} {block : List Instruction}
    (h : s.assemble y = some (block, z)) :
    z.pool.Extends y.pool ∧ (y.pool.Valid → z.pool.Valid) := by
  cases s with
  | declare x e =>
    obtain ⟨-, i, w, he, -, rfl⟩ := assemble_declare.mp h
    obtain ⟨hg, -⟩ := Expression.loads_of_load he
    exact ⟨hg.pool, hg.valid⟩
  | call f e =>
    have hg := grows_of_assemble_call h
    exact ⟨hg.pool, hg.valid⟩

theorem Statement.valid_of_assemble {y z : Layout} {s : Statement} {block : List Instruction}
    (h : s.assemble y = some (block, z)) (hy : y.Valid) : z.Valid := by
  cases s with
  | declare x e =>
    obtain ⟨hr, i, w, he, -, rfl⟩ := assemble_declare.mp h
    have hg := (Expression.loads_of_load he).1
    exact ⟨hg.valid hy.pool, hg.locals_declare x ▸ Layout.valid_declare hy.locals hr⟩
  | call f e => exact hy.grows (grows_of_assemble_call h)

theorem Statement.grows_of_assembleAll {y z : Layout} {ss : List Statement}
    {code : List Instruction} (h : assembleAll y ss = some (code, z)) :
    z.pool.Extends y.pool ∧ (y.pool.Valid → z.pool.Valid) := by
  induction ss generalizing y code with
  | nil =>
    cases h
    exact ⟨.refl _, id⟩
  | cons s ss ih =>
    obtain ⟨block, y', code', hs, hss, rfl⟩ := assembleAll_cons.mp h
    obtain ⟨he, hv⟩ := grows_of_assemble hs
    obtain ⟨he', hv'⟩ := ih hss
    exact ⟨he'.trans he, fun hp => hv' (hv hp)⟩

theorem Statement.extends_of_assembleAll {y z : Layout} {ss : List Statement}
    {code : List Instruction} (h : assembleAll y ss = some (code, z)) : z.pool.Extends y.pool :=
  (grows_of_assembleAll h).1

end LuaLite
