import LuaLite.Machine
import Mathlib.Data.Nat.Find

/-!
# What instructions do and why they fail

What each operation takes and does, without an order of checks: `Machine.Writes` says which value an
instruction writes into its register `a`, `Machine.Invokes` which function it calls, and
`Machine.Refuses` why it does neither. One of these is the answer of `Machine.action`
(`action_cases`), and what they say is what it answers (`action_eq_write_iff`,
`action_eq_invoke_iff`, `action_eq_error_iff`).
-/

namespace LuaLite

namespace Machine

/-- The instruction writes the value into its register `a`. -/
inductive Writes (m : Machine) (constants : List Value) (i : Instruction) : Value → Prop
  | global {x : String} {v : Value} (ho : i.opcode? = some .getGlobal)
    (hc : constants[i.b.toNat]? = some (.string x)) (hg : m.globals.get? x = some v) :
    Writes m constants i v
  | constant {v : Value} (ho : i.opcode? = some .loadConst)
    (hc : constants[i.b.toNat]? = some v) : Writes m constants i v
  | nil (ho : i.opcode? = some .loadNil) : Writes m constants i .nil
  | boolean {b : Bool} (ho : i.opcode? = some .loadBool) (hb : i.b = if b then 1 else 0) :
    Writes m constants i (.boolean b)
  | integer (ho : i.opcode? = some .loadInt) : Writes m constants i (.integer i.wide.toInt64)
  | copy {v : Value} (ho : i.opcode? = some .move) (hr : m.registers.get? i.b.toNat = some v) :
    Writes m constants i v

/-- The instruction calls the function, which stands in its register `a`. All arguments behind it
are written. -/
structure Invokes (m : Machine) (i : Instruction) (g : NativeFunction) : Prop where
  opcode : i.opcode? = some .call
  callee : m.registers.get? i.a.toNat = some (.function g)
  arguments : ∀ k, i.a.toNat < k → k ≤ i.a.toNat + i.b.toNat → (m.registers.get? k).isSome

/-- Why an instruction can do nothing on this machine. -/
inductive Refuses (m : Machine) (constants : List Value) (i : Instruction) : RuntimeFault → Prop
  | unknownOpcode (ho : i.opcode? = none) : Refuses m constants i (.unknownOpcode i.op)
  | constantOutOfRange (ho : i.opcode? = some .getGlobal ∨ i.opcode? = some .loadConst)
    (hc : constants[i.b.toNat]? = none) :
    Refuses m constants i (.constantOutOfRange i.b constants.length)
  | globalNameNotString {v : Value} (ho : i.opcode? = some .getGlobal)
    (hc : constants[i.b.toNat]? = some v) (hv : ∀ x, v ≠ .string x) :
    Refuses m constants i (.globalNameNotString i.b v.type)
  | undefinedGlobal {x : String} (ho : i.opcode? = some .getGlobal)
    (hc : constants[i.b.toNat]? = some (.string x)) (hg : m.globals.get? x = none) :
    Refuses m constants i (.undefinedGlobal x)
  | unwrittenCallee (ho : i.opcode? = some .call) (hr : m.registers.get? i.a.toNat = none) :
    Refuses m constants i (.unwrittenRegister i.a.toNat)
  | notAFunction {v : Value} (ho : i.opcode? = some .call)
    (hr : m.registers.get? i.a.toNat = some v) (hv : ∀ g, v ≠ .function g) :
    Refuses m constants i (.notAFunction i.a v.type)
  | unwrittenArgument {g : NativeFunction} {k : Nat} (ho : i.opcode? = some .call)
    (hr : m.registers.get? i.a.toNat = some (.function g)) (hlt : i.a.toNat < k)
    (hle : k ≤ i.a.toNat + i.b.toNat) (hk : m.registers.get? k = none)
    (hfirst : ∀ j, i.a.toNat < j → j < k → (m.registers.get? j).isSome) :
    Refuses m constants i (.unwrittenRegister k)
  | invalidOperand (ho : i.opcode? = some .loadBool) (hb : 1 < i.b) :
    Refuses m constants i (.invalidOperand .loadBool i.b)
  | unwrittenSource (ho : i.opcode? = some .move) (hr : m.registers.get? i.b.toNat = none) :
    Refuses m constants i (.unwrittenRegister i.b.toNat)

variable {m : Machine} {constants : List Value} {i : Instruction} {v : Value} {g : NativeFunction}
  {f : RuntimeFault} {slot : UInt8}

theorem checkArguments_of_isSome {s n : Nat}
    (h : ∀ k, s < k → k ≤ s + n → (m.registers.get? k).isSome) : m.checkArguments s n = .ok () := by
  have hn : (((List.range n).map (s + 1 + ·)).find? fun k => (m.registers.get? k).isNone) = none := by
    rw [List.find?_eq_none]
    intro k hk
    obtain ⟨j, hj, rfl⟩ := List.mem_map.mp hk
    have hj := List.mem_range.mp hj
    have hs := h (s + 1 + j) (by omega) (by omega)
    simp [Option.isSome_iff_ne_none.mp hs]
  rw [checkArguments, hn]

theorem checkArguments_of_first {s n k : Nat} (hlt : s < k) (hle : k ≤ s + n)
    (hk : m.registers.get? k = none)
    (hfirst : ∀ j, s < j → j < k → (m.registers.get? j).isSome) :
    m.checkArguments s n = .error (.unwrittenRegister k) := by
  have hsome : (((List.range n).map (s + 1 + ·)).find? fun k => (m.registers.get? k).isNone) =
      some k := by
    rw [List.find?_map]
    have hr : (List.range n).find? ((fun k => (m.registers.get? k).isNone) ∘ (s + 1 + ·)) =
        some (k - (s + 1)) := by
      rw [List.find?_range_eq_some]
      refine ⟨?_, ?_, fun j hj => ?_⟩
      · have e : s + 1 + (k - (s + 1)) = k := by omega
        simp [e, hk]
      · rw [List.mem_range]
        omega
      · have hs := hfirst (s + 1 + j) (by omega) (by omega)
        simpa using hs
    rw [hr]
    simp only [Option.map_some, Option.some.injEq]
    omega
  rw [checkArguments, hsome]

theorem exists_first_unwritten {s n : Nat}
    (h : ¬ ∀ k, s < k → k ≤ s + n → (m.registers.get? k).isSome) :
    ∃ k, s < k ∧ k ≤ s + n ∧ m.registers.get? k = none ∧
      ∀ j, s < j → j < k → (m.registers.get? j).isSome := by
  classical
  have hex : ∃ k, s < k ∧ k ≤ s + n ∧ m.registers.get? k = none := by
    by_contra hno
    refine h fun k hlt hle => ?_
    rw [Option.isSome_iff_ne_none]
    exact fun hk => hno ⟨k, hlt, hle, hk⟩
  obtain ⟨hlt, hle, hk⟩ := Nat.find_spec hex
  refine ⟨Nat.find hex, hlt, hle, hk, fun j hs hj => ?_⟩
  rw [Option.isSome_iff_ne_none]
  exact fun hn => Nat.find_min hex hj ⟨hs, by omega, hn⟩

/-! ### The answer of `action` -/

theorem Writes.action_eq (h : m.Writes constants i v) :
    m.action constants i = .ok (.write i.a v) := by
  cases h with
  | global ho hc hg =>
    simp only [action, ho, Machine.global, Machine.constant, hc, bind, Except.bind, hg]
    rfl
  | constant ho hc => simp only [action, ho, Machine.constant, hc]; rfl
  | nil ho => simp only [action, ho]
  | @boolean b ho hb =>
    simp only [action, ho, hb]
    cases b <;> rfl
  | integer ho => simp only [action, ho]
  | copy ho hr => simp only [action, ho, register, hr]; rfl

theorem Invokes.action_eq (h : m.Invokes i g) : m.action constants i = .ok (.invoke i.a g) := by
  have ha := checkArguments_of_isSome h.arguments
  simp only [action, h.opcode, function, register, h.callee, ha, bind, Except.bind]
  rfl

theorem Refuses.action_eq (h : m.Refuses constants i f) : m.action constants i = .error f := by
  cases h with
  | unknownOpcode ho => simp only [action, ho]
  | constantOutOfRange ho hc =>
    rcases ho with ho | ho <;> simp only [action, ho, global, constant, hc] <;> rfl
  | @globalNameNotString v ho hc hv =>
    simp only [action, ho, global, constant, hc]
    cases v with
    | string x => exact absurd rfl (hv x)
    | _ => rfl
  | undefinedGlobal ho hc hg =>
    simp only [action, ho, global, constant, hc, bind, Except.bind, hg]
  | unwrittenCallee ho hr => simp only [action, ho, function, register, hr]; rfl
  | @notAFunction v ho hr hv =>
    simp only [action, ho, function, register, hr]
    cases v with
    | function g => exact absurd rfl (hv g)
    | _ => rfl
  | unwrittenArgument ho hr hlt hle hk hfirst =>
    have ha := checkArguments_of_first hlt hle hk hfirst
    simp only [action, ho, function, register, hr, ha, bind, Except.bind]
  | invalidOperand ho hb =>
    have h0 : i.b ≠ 0 := fun e => by rw [e] at hb; exact absurd hb (by decide)
    have h1 : i.b ≠ 1 := fun e => by rw [e] at hb; exact absurd hb (by decide)
    simp only [action, ho, if_neg h0, if_neg h1]
  | unwrittenSource ho hr => simp only [action, ho, register, hr]; rfl

/-- An instruction writes a value, calls a function, or can do nothing. -/
theorem action_cases (m : Machine) (constants : List Value) (i : Instruction) :
    (∃ v, m.Writes constants i v) ∨ (∃ g, m.Invokes i g) ∨ ∃ f, m.Refuses constants i f := by
  cases ho : i.opcode? with
  | none => exact .inr (.inr ⟨_, .unknownOpcode ho⟩)
  | some o =>
    cases o with
    | getGlobal =>
      cases hc : constants[i.b.toNat]? with
      | none => exact .inr (.inr ⟨_, .constantOutOfRange (.inl ho) hc⟩)
      | some v =>
        by_cases hx : ∃ x, v = .string x
        · obtain ⟨x, rfl⟩ := hx
          cases hg : m.globals.get? x with
          | none => exact .inr (.inr ⟨_, .undefinedGlobal ho hc hg⟩)
          | some v => exact .inl ⟨v, .global ho hc hg⟩
        · exact .inr (.inr ⟨_, .globalNameNotString ho hc fun x e => hx ⟨x, e⟩⟩)
    | loadConst =>
      cases hc : constants[i.b.toNat]? with
      | none => exact .inr (.inr ⟨_, .constantOutOfRange (.inr ho) hc⟩)
      | some v => exact .inl ⟨v, .constant ho hc⟩
    | call =>
      cases hr : m.registers.get? i.a.toNat with
      | none => exact .inr (.inr ⟨_, .unwrittenCallee ho hr⟩)
      | some v =>
        by_cases hf : ∃ g, v = .function g
        · obtain ⟨g, rfl⟩ := hf
          by_cases ha : ∀ k, i.a.toNat < k → k ≤ i.a.toNat + i.b.toNat →
              (m.registers.get? k).isSome
          · exact .inr (.inl ⟨g, ho, hr, ha⟩)
          · obtain ⟨k, hlt, hle, hk, hfirst⟩ := exists_first_unwritten ha
            exact .inr (.inr ⟨_, .unwrittenArgument ho hr hlt hle hk hfirst⟩)
        · exact .inr (.inr ⟨_, .notAFunction ho hr fun g e => hf ⟨g, e⟩⟩)
    | loadNil => exact .inl ⟨_, .nil ho⟩
    | loadBool =>
      by_cases hb : 1 < i.b
      · exact .inr (.inr ⟨_, .invalidOperand ho hb⟩)
      · by_cases h1 : i.b = 1
        · exact .inl ⟨.boolean true, .boolean ho h1⟩
        · exact .inl ⟨.boolean false, .boolean ho (by grind)⟩
    | loadInt => exact .inl ⟨_, .integer ho⟩
    | move =>
      cases hr : m.registers.get? i.b.toNat with
      | none => exact .inr (.inr ⟨_, .unwrittenSource ho hr⟩)
      | some v => exact .inl ⟨v, .copy ho hr⟩

theorem action_spec (m : Machine) (constants : List Value) (i : Instruction) :
    match m.action constants i with
    | .ok (.write slot v) => slot = i.a ∧ m.Writes constants i v
    | .ok (.invoke slot g) => slot = i.a ∧ m.Invokes i g
    | .error f => m.Refuses constants i f := by
  rcases m.action_cases constants i with ⟨v, hv⟩ | ⟨g, hg⟩ | ⟨f, hf⟩
  · rw [hv.action_eq]
    exact ⟨rfl, hv⟩
  · rw [hg.action_eq]
    exact ⟨rfl, hg⟩
  · rw [hf.action_eq]
    exact hf

theorem action_eq_write_iff :
    m.action constants i = .ok (.write slot v) ↔ slot = i.a ∧ m.Writes constants i v := by
  refine ⟨fun h => ?_, fun ⟨hs, h⟩ => hs ▸ h.action_eq⟩
  have hspec := m.action_spec constants i
  rwa [h] at hspec

theorem action_eq_invoke_iff :
    m.action constants i = .ok (.invoke slot g) ↔ slot = i.a ∧ m.Invokes i g := by
  refine ⟨fun h => ?_, fun ⟨hs, h⟩ => hs ▸ h.action_eq⟩
  have hspec := m.action_spec constants i
  rwa [h] at hspec

theorem action_eq_error_iff : m.action constants i = .error f ↔ m.Refuses constants i f := by
  refine ⟨fun h => ?_, Refuses.action_eq⟩
  have hspec := m.action_spec constants i
  rwa [h] at hspec

end Machine

end LuaLite
