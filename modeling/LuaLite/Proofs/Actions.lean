import LuaLite.Proofs.Steps
import LuaLite.Statement.Meaning

/-!
# What single instructions do

The actions of the instructions that the compiler emits. `Instruction.Sound` says of an instruction
that it is one of these and finds the constants that it needs; `Sound.action_cases` says what it can
do and how it can fail then.
-/

namespace LuaLite

theorem Instruction.opcode?_eq {i : Instruction} (o : Opcode) (h : i.op = o.byte) :
    i.opcode? = some o := by
  rw [opcode?, h, Opcode.ofByte?_byte]

namespace Machine

variable {m : Machine} {constants : List Value} {d k s : UInt8} {v : Value}

theorem action_loadNil : m.action constants (.loadNil d) = .ok (.write d .nil) :=
  Writes.action_eq (.nil (Instruction.opcode?_eq .loadNil rfl))

theorem action_loadBool {b : Bool} :
    m.action constants (.loadBool d b) = .ok (.write d (.boolean b)) :=
  Writes.action_eq (.boolean (Instruction.opcode?_eq .loadBool rfl) rfl)

theorem action_loadInt {n : Int16} :
    m.action constants (.loadInt d n) = .ok (.write d (.integer n.toInt64)) := by
  have h : m.action constants (.loadInt d n) =
      .ok (.write d (.integer (Instruction.loadInt d n).wide.toInt64)) :=
    Writes.action_eq (.integer (Instruction.opcode?_eq .loadInt rfl))
  rwa [Instruction.wide_loadInt] at h

theorem action_loadConst (h : constants[k.toNat]? = some v) :
    m.action constants (.loadConst d k) = .ok (.write d v) :=
  Writes.action_eq (.constant (Instruction.opcode?_eq .loadConst rfl) h)

theorem action_getGlobal {x : String} (h : constants[k.toNat]? = some (.string x)) :
    m.action constants (.getGlobal d k) = match m.globals.get? x with
      | some v => .ok (.write d v)
      | none => .error (.undefinedGlobal x) := by
  have ho : (Instruction.getGlobal d k).opcode? = some .getGlobal := Instruction.opcode?_eq _ rfl
  cases hx : m.globals.get? x with
  | none => exact Refuses.action_eq (.undefinedGlobal ho h hx)
  | some v => exact Writes.action_eq (.global ho h hx)

theorem action_move : m.action constants (.move d s) = match m.registers.get? s.toNat with
      | some v => .ok (.write d v)
      | none => .error (.unwrittenRegister s.toNat) := by
  have ho : (Instruction.move d s).opcode? = some .move := Instruction.opcode?_eq _ rfl
  cases hs : m.registers.get? s.toNat with
  | none => exact Refuses.action_eq (.unwrittenSource ho hs)
  | some v => exact Writes.action_eq (.copy ho hs)

theorem action_call : m.action constants (.call s 1) = match m.registers.get? s.toNat with
      | some (.function f) =>
        if (m.registers.get? (s.toNat + 1)).isSome then .ok (.invoke s f)
        else .error (.unwrittenRegister (s.toNat + 1))
      | some v => .error (.notAFunction s v.type)
      | none => .error (.unwrittenRegister s.toNat) := by
  have ho : (Instruction.call s 1).opcode? = some .call := Instruction.opcode?_eq _ rfl
  -- The argument is the only register behind the callee.
  have hone : ∀ k, s.toNat < k → k ≤ s.toNat + 1 → k = s.toNat + 1 := fun k h h' => by omega
  cases hs : m.registers.get? s.toNat with
  | none => exact Refuses.action_eq (.unwrittenCallee ho hs)
  | some v =>
    cases v with
    | function f =>
      dsimp only
      split
      · rename_i ha
        exact Invokes.action_eq ⟨ho, hs, fun k h h' => hone k h h' ▸ ha⟩
      · rename_i ha
        rw [Bool.not_eq_true, Option.isSome_eq_false_iff, Option.isNone_iff_eq_none] at ha
        refine Refuses.action_eq (.unwrittenArgument ho hs (Nat.lt_succ_self _) (Nat.le_refl _) ha ?_)
        intro j h h'
        exact absurd (Nat.lt_of_lt_of_le h (Nat.le_of_lt_succ h')) (Nat.lt_irrefl _)
    | _ => exact Refuses.action_eq (.notAFunction ho hs nofun)

end Machine

/-! ### Instructions that find their constants -/

namespace Instruction

/-- The instructions that the compiler emits, with the constants that they need. -/
inductive Sound (constants : List Value) : Instruction → Prop
  | loadNil (d : UInt8) : Sound constants (.loadNil d)
  | loadBool (d : UInt8) (b : Bool) : Sound constants (.loadBool d b)
  | loadInt (d : UInt8) (n : Int16) : Sound constants (.loadInt d n)
  | loadConst (d : UInt8) {k : UInt8} {v : Value} (h : constants[k.toNat]? = some v) :
    Sound constants (.loadConst d k)
  | getGlobal (d : UInt8) {k : UInt8} {x : String} (h : constants[k.toNat]? = some (.string x)) :
    Sound constants (.getGlobal d k)
  | move (d s : UInt8) : Sound constants (.move d s)
  | call (s : UInt8) : Sound constants (.call s 1)

/-- The registers that an instruction reads. -/
def reads (i : Instruction) : List Nat :=
  match i.opcode? with
  | some .move => [i.b.toNat]
  | some .call => (List.range (i.b.toNat + 1)).map (i.a.toNat + ·)
  | _ => []

/-- The registers that an instruction writes. -/
def writes (i : Instruction) : List Nat :=
  match i.opcode? with
  | some .call => []
  | _ => [i.a.toNat]

variable {d k s : UInt8}

theorem writes_of_op {i : Instruction} (o : Opcode) (h : i.op = o.byte) (ho : o ≠ .call) :
    i.writes = [i.a.toNat] := by
  rw [writes, opcode?_eq o h]
  cases o <;> first | rfl | exact absurd rfl ho

theorem reads_of_op {i : Instruction} (o : Opcode) (h : i.op = o.byte) (hm : o ≠ .move)
    (hc : o ≠ .call) : i.reads = [] := by
  rw [reads, opcode?_eq o h]
  cases o <;> first | rfl | exact absurd rfl hm | exact absurd rfl hc

theorem reads_move : (move d s).reads = [s.toNat] := by
  rw [reads, opcode?_eq .move rfl]
  rfl

theorem reads_call : (call s 1).reads = [s.toNat, s.toNat + 1] := by
  rw [reads, opcode?_eq .call rfl]
  rfl

theorem writes_call : (call s 1).writes = [] := by
  rw [writes, opcode?_eq .call rfl]

namespace Sound

variable {constants constants' : List Value} {i : Instruction}

theorem mono (h : i.Sound constants)
    (hc : ∀ (n : Nat) v, constants[n]? = some v → constants'[n]? = some v) :
    i.Sound constants' := by
  cases h with
  | loadNil d => exact .loadNil d
  | loadBool d b => exact .loadBool d b
  | loadInt d n => exact .loadInt d n
  | loadConst d h => exact .loadConst d (hc _ _ h)
  | getGlobal d h => exact .getGlobal d (hc _ _ h)
  | move d s => exact .move d s
  | call s => exact .call s

/-- What a sound instruction does, or why it fails. -/
theorem action_cases (h : i.Sound constants) (m : Machine) :
    (∃ v, m.action constants i = .ok (.write i.a v) ∧ i.writes = [i.a.toNat]) ∨
    (∃ f, m.action constants i = .ok (.invoke i.a f) ∧ i.writes = []) ∨
    (∃ x, m.action constants i = .error (.undefinedGlobal x)) ∨
    (∃ t, m.action constants i = .error (.notAFunction i.a t)) ∨
    ∃ r ∈ i.reads, m.registers.get? r = none ∧
      m.action constants i = .error (.unwrittenRegister r) := by
  cases h with
  | loadNil d =>
    exact .inl ⟨_, Machine.action_loadNil, writes_of_op .loadNil rfl nofun⟩
  | loadBool d b =>
    exact .inl ⟨_, Machine.action_loadBool, writes_of_op .loadBool rfl nofun⟩
  | loadInt d n =>
    exact .inl ⟨_, Machine.action_loadInt, writes_of_op .loadInt rfl nofun⟩
  | loadConst d h =>
    exact .inl ⟨_, Machine.action_loadConst h, writes_of_op .loadConst rfl nofun⟩
  | @getGlobal d k x h =>
    rw [Machine.action_getGlobal h]
    cases m.globals.get? x with
    | none => exact .inr (.inr (.inl ⟨x, rfl⟩))
    | some v => exact .inl ⟨v, rfl, writes_of_op .getGlobal rfl nofun⟩
  | move d s =>
    rw [Machine.action_move, reads_move]
    cases hs : m.registers.get? s.toNat with
    | none => exact .inr (.inr (.inr (.inr ⟨_, List.mem_singleton_self _, hs, rfl⟩)))
    | some v => exact .inl ⟨v, rfl, writes_of_op .move rfl nofun⟩
  | call s =>
    rw [Machine.action_call, reads_call]
    cases hs : m.registers.get? s.toNat with
    | none => exact .inr (.inr (.inr (.inr ⟨s.toNat, by simp, hs, rfl⟩)))
    | some v =>
      cases v with
      | function f =>
        cases ha : m.registers.get? (s.toNat + 1) with
        | none => exact .inr (.inr (.inr (.inr ⟨s.toNat + 1, by simp, ha, rfl⟩)))
        | some v => exact .inr (.inl ⟨f, rfl, writes_call⟩)
      | _ => exact .inr (.inr (.inr (.inl ⟨_, rfl⟩)))

end Sound

end Instruction

namespace Machine

variable {m : Machine} {constants : List Value} {i : Instruction} {v : Value} {g : NativeFunction}

theorem Writes.writes (h : m.Writes constants i v) : i.writes = [i.a.toNat] := by
  cases h with
  | global ho _ _ | constant ho _ | nil ho | boolean ho _ | integer ho | copy ho _ =>
    rw [Instruction.writes, ho]

theorem Invokes.writes (h : m.Invokes i g) : i.writes = [] := by
  rw [Instruction.writes, h.opcode]

end Machine

end LuaLite
