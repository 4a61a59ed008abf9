import LuaLite.Proofs.Actions
import LuaLite.Proofs.Compilation
import LuaLite.Script

/-!
# Compiled scripts do what their statements say

`Holds` relates the locals of the statements to the registers: a local's value stands in the register
with its number. Registers above are free, so what a call leaves there does not matter. With it, an
instruction that loads an expression writes the value of the expression or fails as the evaluation
does (`action_of_loads`), and the code of statements goes as they do (`follows_of_assembleAll`), for
functions that see no more of the machine than their argument and the output.
-/

namespace LuaLite

/-! ### Locals in registers -/

/-- The registers hold the locals, whose names are given as well, the latest first. -/
inductive Holds (r : Registers) : List String → Locals → Prop
  | nil : Holds r [] []
  | cons {x : String} {v : Value} {names : List String} {locals : Locals}
    (h : Holds r names locals) (hv : r.get? names.length = some v) :
    Holds r (x :: names) ((x, v) :: locals)

namespace Holds

variable {r : Registers} {names : List String} {locals : Locals} {x : String}

theorem set (h : Holds r names locals) {slot : Nat} (hs : names.length ≤ slot) (v : Value) :
    Holds (r.set slot v) names locals := by
  induction h with
  | nil => exact .nil
  | @cons y w names locals _ hv ih =>
    rw [List.length_cons] at hs
    refine .cons (ih (by omega)) ?_
    rw [Registers.get?_set, if_neg (by omega), hv]

theorem lookup_of_none (h : Holds r names locals) (hx : Numbered.indexIn x names = none) :
    locals.lookup x = none := by
  induction h with
  | nil => rfl
  | @cons y w names locals _ _ ih =>
    rw [Numbered.indexIn] at hx
    split at hx
    · cases hx
    · rename_i hne
      rw [List.lookup_cons, beq_false_of_ne (Ne.symm hne)]
      exact ih hx

theorem lookup_of_some (h : Holds r names locals) {n : Nat}
    (hx : Numbered.indexIn x names = some n) :
    ∃ v, locals.lookup x = some v ∧ r.get? n = some v := by
  induction h with
  | nil => cases hx
  | @cons y w names locals _ hv ih =>
    rw [Numbered.indexIn] at hx
    split at hx
    · rename_i he
      cases hx
      exact ⟨w, by rw [he, List.lookup_cons_self], hv⟩
    · rename_i hne
      rw [List.lookup_cons, beq_false_of_ne (Ne.symm hne)]
      exact ih hx

end Holds

/-! ### Loading -/

theorem Int16.toInt64_ofInt_toInt {n : Int64} (h : -32768 ≤ n.toInt ∧ n.toInt ≤ 32767) :
    (Int16.ofInt n.toInt).toInt64 = n := by
  apply Int64.toInt_inj.mp
  rw [Int16.toInt_toInt64, Int16.toInt_ofInt_of_le (by omega) (by omega)]

theorem Expression.value_of_literal? {e : Expression} {v : Value} (h : e.literal? = some v)
    (globals : Globals) (locals : Locals) : e.value globals locals = .ok v := by
  cases e <;> cases h <;> rfl

/-- An instruction that loads an expression does what the evaluation does. -/
theorem Expression.Loads.action_cases {y : Layout} {dst : UInt8} {e : Expression} {i : Instruction}
    {m : Machine} {constants : List Value} {locals : Locals} (h : e.Loads y dst i)
    (hy : y.locals.Valid)
    (hc : ∀ (n : Nat) v, y.pool.values.toList[n]? = some v → constants[n]? = some v)
    (hl : Holds m.registers y.locals.latestFirst locals) :
    (∃ v, e.value m.globals locals = .ok v ∧ m.action constants i = .ok (.write dst v)) ∨
    ∃ x, e.value m.globals locals = .error (.undefinedGlobal x) ∧
      m.action constants i = .error (.undefinedGlobal x) := by
  cases h with
  | nil => exact .inl ⟨.nil, rfl, Machine.action_loadNil⟩
  | boolean b => exact .inl ⟨.boolean b, rfl, Machine.action_loadBool⟩
  | @small n hn =>
    refine .inl ⟨.integer n, rfl, ?_⟩
    rw [Machine.action_loadInt, Int16.toInt64_ofInt_toInt hn]
  | @constant _ v k hv hk =>
    exact .inl ⟨v, value_of_literal? hv _ _, Machine.action_loadConst (hc _ _ hk)⟩
  | @global x k hx hk =>
    rw [Machine.action_getGlobal (hc _ _ hk), value, nameValue,
      hl.lookup_of_none (hy.index?_of_slot?_none hx)]
    cases m.globals.get? x with
    | none => exact .inr ⟨x, rfl, rfl⟩
    | some v => exact .inl ⟨v, rfl, rfl⟩
  | @slot x s hx =>
    obtain ⟨v, hv, hr⟩ := hl.lookup_of_some (hy.index?_of_slot? hx)
    rw [Machine.action_move, value, nameValue, hv, hr]
    exact .inl ⟨v, rfl, rfl⟩

/-! ### Courses -/

/-- Code and statements end in the same way. -/
inductive SameEnd : Except RuntimeError Unit → Except ScriptFault Unit → Prop
  | success : SameEnd (.ok ()) (.ok ())
  | failure {e : RuntimeError} {fault : ScriptFault} (h : e.fault.ofStatement? = some fault) :
    SameEnd (.error e) (.error fault)

namespace Machine

/-- The code goes like this: it ends in the same way, with this output, and makes these calls. -/
def Follows (b : Behaviour) (constants : List Value) (pc : Nat) (code : List Instruction)
    (m : Machine) (course : Course) : Prop :=
  ∃ outcome m', executeFrom b.host constants pc code m = some (outcome, m') ∧
    SameEnd outcome course.outcome ∧ m'.output = course.output ∧
    (m.invocations b.host constants code).map (fun c => (c.1, c.2.argument)) =
      course.calls.map fun c => (c.1, .ok c.2)

variable {b : Behaviour} {constants : List Value} {pc : Nat} {i : Instruction}
  {rest : List Instruction} {m : Machine} {course : Course} {slot : UInt8} {f : NativeFunction}
  {v : Value}

theorem follows_nil : m.Follows b constants pc [] ⟨.ok (), [], m.output⟩ :=
  ⟨.ok (), m, rfl, .success, rfl, rfl⟩

theorem follows_error {fault : RuntimeFault} {fault' : ScriptFault}
    (ha : m.action constants i = .error fault) (hf : fault.ofStatement? = some fault') :
    m.Follows b constants pc (i :: rest) ⟨.error fault', [], m.output⟩ := by
  have hs : m.step b.host constants i = some (.error fault, m) := by rw [step, ha]
  refine ⟨.error ⟨pc, i, fault⟩, m, by rw [executeFrom, hs], .failure hf, rfl, ?_⟩
  rw [invocations, hs, invocation?, ha]
  rfl

theorem follows_write (ha : m.action constants i = .ok (.write slot v))
    (h : { m with registers := m.registers.set slot.toNat v }.Follows b constants (pc + 1) rest
      course) : m.Follows b constants pc (i :: rest) course := by
  obtain ⟨outcome, m', hr, he, ho, hc⟩ := h
  have hs : m.step b.host constants i =
      some (.ok (), { m with registers := m.registers.set slot.toNat v }) := by
    rw [step, ha]
    rfl
  refine ⟨outcome, m', by rw [executeFrom, hs]; exact hr, he, ho, ?_⟩
  rw [invocations, hs, invocation?, ha]
  exact hc

theorem argument_enter (hv : m.registers.get? (slot.toNat + 1) = some v) :
    (m.enter slot).argument = .ok v := by
  have hr : (m.enter slot).registers.get? ((m.enter slot).funcIndex + 1) = some v := hv
  rw [argument, register, hr]

theorem step_invoke {status : Int32} {output : Sink}
    (ha : m.action constants i = .ok (.invoke slot f))
    (hv : m.registers.get? (slot.toNat + 1) = some v)
    (hb : b (m.calls + 1) f (.ok v) m.output = (status, output)) :
    m.step b.host constants i =
      some (if status = 0 then .ok () else .error (.nativeFailure f.name status),
        { m.enter slot with output := output }) := by
  have hb' : b (m.enter slot).calls f (.ok v) (m.enter slot).output = (status, output) := hb
  rw [step, ha]
  dsimp only
  rw [perform, Behaviour.host, argument_enter hv, hb']
  rfl

theorem follows_return {output : Sink} (ha : m.action constants i = .ok (.invoke slot f))
    (hv : m.registers.get? (slot.toNat + 1) = some v)
    (hb : b (m.calls + 1) f (.ok v) m.output = (0, output))
    (h : { m.enter slot with output := output }.Follows b constants (pc + 1) rest course) :
    m.Follows b constants pc (i :: rest) { course with calls := (f, v) :: course.calls } := by
  obtain ⟨outcome, m', hr, he, ho, hc⟩ := h
  have hs := step_invoke ha hv hb
  rw [if_pos rfl] at hs
  refine ⟨outcome, m', by rw [executeFrom, hs]; exact hr, he, ho, ?_⟩
  rw [invocations, hs, invocation?, ha, List.map_append, hc]
  simp [argument_enter hv]

theorem follows_failure {status : Int32} {output : Sink}
    (ha : m.action constants i = .ok (.invoke slot f))
    (hv : m.registers.get? (slot.toNat + 1) = some v)
    (hb : b (m.calls + 1) f (.ok v) m.output = (status, output)) (hne : status ≠ 0) :
    m.Follows b constants pc (i :: rest)
      ⟨.error (.nativeFailure f.name status), [(f, v)], output⟩ := by
  have hs := step_invoke ha hv hb
  rw [if_neg hne] at hs
  refine ⟨.error ⟨pc, i, .nativeFailure f.name status⟩, { m.enter slot with output := output },
    by rw [executeFrom, hs], .failure rfl, rfl, ?_⟩
  rw [invocations, hs, invocation?, ha]
  simp [argument_enter hv]

end Machine

/-! ### Statements -/

namespace Statement

variable {b : Behaviour} {globals : Globals} {ss : List Statement} {locals : Locals} {calls : Nat}
  {output : Sink}

theorem perform_declare_ok {x : String} {e : Expression} {v : Value}
    (h : e.value globals locals = .ok v) :
    perform b globals (.declare x e :: ss) locals calls output =
      perform b globals ss ((x, v) :: locals) calls output := by
  rw [perform, h]

theorem perform_declare_error {x : String} {e : Expression} {fault : ScriptFault}
    (h : e.value globals locals = .error fault) :
    perform b globals (.declare x e :: ss) locals calls output = ⟨.error fault, [], output⟩ := by
  rw [perform, h]

theorem perform_call_error {g : String} {e : Expression} {fault : ScriptFault}
    (h : nativeCall globals locals g e = .error fault) :
    perform b globals (.call g e :: ss) locals calls output = ⟨.error fault, [], output⟩ := by
  rw [perform, h]

theorem perform_call_return {g : String} {e : Expression} {f : NativeFunction} {v : Value}
    {output' : Sink} (h : nativeCall globals locals g e = .ok (f, v))
    (hb : b (calls + 1) f (.ok v) output = (0, output')) :
    perform b globals (.call g e :: ss) locals calls output =
      let course := perform b globals ss locals (calls + 1) output'
      { course with calls := (f, v) :: course.calls } := by
  rw [perform, h]
  dsimp only
  rw [hb]
  rfl

theorem perform_call_failure {g : String} {e : Expression} {f : NativeFunction} {v : Value}
    {status : Int32} {output' : Sink} (h : nativeCall globals locals g e = .ok (f, v))
    (hb : b (calls + 1) f (.ok v) output = (status, output')) (hne : status ≠ 0) :
    perform b globals (.call g e :: ss) locals calls output =
      ⟨.error (.nativeFailure f.name status), [(f, v)], output'⟩ := by
  rw [perform, h]
  dsimp only
  rw [hb]
  dsimp only
  rw [if_neg hne]

end Statement

theorem nativeCall_callee_error {globals : Globals} {locals : Locals} {g : String} {e : Expression}
    {fault : ScriptFault} (h : (Expression.name g).value globals locals = .error fault) :
    nativeCall globals locals g e = .error fault := by
  rw [nativeCall, show nameValue globals locals g = _ from h]
  rfl

theorem nativeCall_argument_error {globals : Globals} {locals : Locals} {g : String}
    {e : Expression} {v : Value} {fault : ScriptFault}
    (h : (Expression.name g).value globals locals = .ok v)
    (he : e.value globals locals = .error fault) :
    nativeCall globals locals g e = .error fault := by
  rw [nativeCall, show nameValue globals locals g = _ from h, he]
  rfl

theorem nativeCall_ok {globals : Globals} {locals : Locals} {g : String} {e : Expression}
    {v w : Value} (h : (Expression.name g).value globals locals = .ok v)
    (he : e.value globals locals = .ok w) :
    nativeCall globals locals g e = v.asFunction.map (·, w) := by
  rw [nativeCall, show nameValue globals locals g = _ from h, he]
  cases v <;> rfl

/-! ### Runs -/

namespace Machine

variable {b : Behaviour} {constants : List Value} {pc : Nat} {y z : Layout}
  {code : List Instruction} {ss : List Statement} {m : Machine} {locals : Locals}

theorem follows_call {slot : UInt8} {g : String} {e : Expression} {v w : Value}
    (hv : m.registers.get? slot.toNat = some v) (hw : m.registers.get? (slot.toNat + 1) = some w)
    (hc : nativeCall m.globals locals g e = v.asFunction.map (·, w))
    (h : ∀ output, { m.enter slot with output := output }.Follows b constants (pc + 1) code
      (Statement.perform b m.globals ss locals (m.calls + 1) output)) :
    m.Follows b constants pc (.call slot 1 :: code)
      (Statement.perform b m.globals (.call g e :: ss) locals m.calls m.output) := by
  have ha : m.action constants (.call slot 1) = _ := action_call
  rw [hv, hw] at ha
  cases v with
  | function f =>
    rcases hb : b (m.calls + 1) f (.ok w) m.output with ⟨status, output⟩
    by_cases hs : status = 0
    · subst hs
      rw [Statement.perform_call_return hc hb]
      exact follows_return ha hw hb (h output)
    · rw [Statement.perform_call_failure hc hb hs]
      exact follows_failure ha hw hb hs
  | _ =>
    rw [Statement.perform_call_error hc]
    exact follows_error ha rfl

/-- The code of statements goes as the statements do. -/
theorem follows_of_assembleAll (h : Statement.assembleAll y ss = some (code, z))
    (hp : y.pool.Valid) (hy : y.locals.Valid)
    (hc : ∀ (n : Nat) v, z.pool.values.toList[n]? = some v → constants[n]? = some v)
    (hl : Holds m.registers y.locals.latestFirst locals) :
    m.Follows b constants pc code
      (Statement.perform b m.globals ss locals m.calls m.output) := by
  induction ss generalizing y code m locals pc with
  | nil =>
    cases h
    exact follows_nil
  | cons s ss ih =>
    obtain ⟨block, y', code', hs, hss, rfl⟩ := Statement.assembleAll_cons.mp h
    -- The chunk has the constants of every layout on the way.
    have hc' := fun (n : Nat) v hn => hc n v
      ((Statement.extends_of_assembleAll hss).getElem? (n := n) (v := v) hn)
    cases s with
    | declare x e =>
      obtain ⟨hr, i, w, he, rfl, rfl⟩ := Statement.assemble_declare.mp hs
      obtain ⟨hg, hi⟩ := Expression.loads_of_load he
      rcases (hi hp).action_cases (hg.locals ▸ hy) hc' (hg.locals ▸ hl) with
        ⟨v, hv, ha⟩ | ⟨x', hv, ha⟩
      · have hslot : y.slot.toNat = y.locals.latestFirst.length := Layout.toNat_slot hr
        rw [Statement.perform_declare_ok hv]
        refine follows_write ha (ih hss (hg.valid hp) ?_ ?_)
        · rw [hg.locals_declare]
          exact Layout.valid_declare hy hr
        · rw [hg.locals_declare]
          refine .cons (hl.set (Nat.le_of_eq hslot.symm) v) ?_
          rw [Registers.get?_set]
          exact if_pos hslot
      · rw [Statement.perform_declare_error hv]
        exact follows_error ha rfl
    | call g e =>
      obtain ⟨hr, i, w, j, hf, he, rfl⟩ := Statement.assemble_call.mp hs
      obtain ⟨hg, hi⟩ := Expression.loads_of_load hf
      obtain ⟨hg', hj⟩ := Expression.loads_of_load he
      have hw := hg.valid hp
      have hlocals : y'.locals = y.locals := hg'.locals.trans hg.locals
      have hslot : y.slot.toNat = y.locals.latestFirst.length :=
        Layout.toNat_slot (Nat.le_of_succ_le hr)
      have hslot' : (y.slot + 1).toNat = y.slot.toNat + 1 := by
        rw [Layout.toNat_slot_add_one hr, hslot]
        rfl
      rcases ((hi hp).grows hg').action_cases (hlocals ▸ hy) hc' (hlocals ▸ hl) with
        ⟨v, hv, ha⟩ | ⟨x, hv, ha⟩
      · -- The callee stands above the locals, so the argument is loaded from the same ones.
        refine follows_write ha ?_
        have hl' : Holds (m.registers.set y.slot.toNat v) y.locals.latestFirst locals :=
          hl.set (Nat.le_of_eq hslot.symm) v
        rcases (hj hw).action_cases (m := { m with registers := m.registers.set y.slot.toNat v })
          (hlocals ▸ hy) hc' (hlocals ▸ hl') with ⟨u, hu, ha'⟩ | ⟨x, hu, ha'⟩
        · refine follows_write ha' (follows_call (v := v) (w := u) ?_ ?_ (nativeCall_ok hv hu) ?_)
          · rw [Registers.get?_set, if_neg (by omega), Registers.get?_set, if_pos rfl]
          · rw [Registers.get?_set, if_pos hslot']
          · intro output
            refine ih hss (hg'.valid hw) (hlocals ▸ hy) (hlocals ▸ hl'.set ?_ u)
            rw [hslot', hslot]
            exact Nat.le_succ _
        · rw [Statement.perform_call_error (nativeCall_argument_error hv hu)]
          exact follows_error ha' rfl
      · rw [Statement.perform_call_error (nativeCall_callee_error hv)]
        exact follows_error ha rfl

end Machine

namespace Script

end Script

end LuaLite
