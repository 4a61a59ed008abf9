import LuaLite.Proofs.Execution
import LuaLite.Proofs.Steps

/-!
# What a failing instruction leaves

Execution stops at the first instruction that fails, with the machine that the code in front of it
left: an instruction that is refused has changed nothing, and one that calls a function leaves what
the function left (`Machine.Fails`, `step_error_iff`). So the code behind it has no effect on the
error or on the machine (`execute_error_iff`, `execute_take_append_of_error`).
-/

namespace LuaLite

namespace Machine

/-- The instruction fails on this machine with the fault, and leaves the machine `m'`. -/
inductive Fails (host : Host) (constants : List Value) (i : Instruction) (m : Machine) :
    RuntimeFault → Machine → Prop
  | refused {f : RuntimeFault} (h : m.Refuses constants i f) : Fails host constants i m f m
  | native {g : NativeFunction} {status : Int32} {m' : Machine} (h : m.Invokes i g)
    (hs : status ≠ 0) (hc : host g (m.enter i.a) = some (status, m')) :
    Fails host constants i m (.nativeFailure g.name status) m'

variable {host : Host} {constants : List Value} {i : Instruction} {code : List Instruction}
  {m m' : Machine} {e : RuntimeError} {f : RuntimeFault}

theorem Refuses.ne_nativeFailure (h : m.Refuses constants i f) (name : String) (status : Int32) :
    f ≠ .nativeFailure name status := by
  cases h <;> nofun

theorem step_error_iff :
    m.step host constants i = some (.error f, m') ↔ Fails host constants i m f m' := by
  constructor
  · intro h
    rcases m.action_cases constants i with ⟨v, hv⟩ | ⟨g, hg⟩ | ⟨f', hf⟩
    · rw [step_of_write hv.action_eq] at h
      cases h
    · obtain ⟨status, hs, hc, rfl⟩ := step_invoke_error hg.action_eq h
      exact .native hg hs hc
    · rw [step_of_error hf.action_eq] at h
      cases h
      exact .refused hf
  · intro h
    cases h with
    | refused h => exact step_of_error h.action_eq
    | native h hs hc =>
      rw [step_of_invoke h.action_eq, hc, Option.map_some]
      dsimp only
      rw [if_neg hs]

/-- What a failing instruction leaves, told by its fault. -/
theorem Fails.by_fault (h : Fails host constants i m f m') :
    ((∀ name status, f ≠ .nativeFailure name status) → m.Refuses constants i f ∧ m' = m) ∧
    ∀ name status, f = .nativeFailure name status →
      ∃ g, m.Invokes i g ∧ g.name = name ∧ status ≠ 0 ∧
        host g (m.enter i.a) = some (status, m') := by
  cases h with
  | refused h => exact ⟨fun _ => ⟨h, rfl⟩, fun name status e => absurd e (h.ne_nativeFailure _ _)⟩
  | @native g status m' h hs hc =>
    refine ⟨fun hn => absurd rfl (hn g.name status), fun name status' e => ?_⟩
    cases e
    exact ⟨g, h, rfl, hs, hc⟩

theorem execute_error_iff :
    m.execute host ⟨constants, code⟩ = some (.error e, m') ↔
      e.pc < code.length ∧ code[e.pc]? = some e.instruction ∧
      ∃ m₁, m.execute host ⟨constants, code.take e.pc⟩ = some (.ok (), m₁) ∧
        m₁.step host constants e.instruction = some (.error e.fault, m') := by
  rw [execute, executeFrom_error_iff]
  constructor
  · rintro ⟨before, behind, m₁, rfl, hpc, hb, hf⟩
    rw [Nat.zero_add] at hpc
    refine ⟨?_, ?_, m₁, ?_, hf⟩
    · rw [hpc, List.length_append, List.length_cons]
      omega
    · rw [hpc, List.getElem?_append_right (Nat.le_refl _), Nat.sub_self, List.getElem?_cons_zero]
    · rwa [hpc, List.take_left]
  · rintro ⟨hlt, hi, m₁, hb, hf⟩
    obtain ⟨_, hi⟩ := List.getElem?_eq_some_iff.mp hi
    refine ⟨code.take e.pc, code.drop (e.pc + 1), m₁, ?_, ?_, hb, hf⟩
    · rw [← hi, ← List.drop_eq_getElem_cons hlt, List.take_append_drop]
    · rw [Nat.zero_add, List.length_take, Nat.min_eq_left (Nat.le_of_lt hlt)]

theorem execute_error_of_refuses {n : Nat} {m₁ : Machine} (hi : code[n]? = some i)
    (hc : m.execute host ⟨constants, code.take n⟩ = some (.ok (), m₁))
    (hf : m₁.Refuses constants i f) :
    m.execute host ⟨constants, code⟩ = some (.error ⟨n, i, f⟩, m₁) := by
  obtain ⟨hlt, -⟩ := List.getElem?_eq_some_iff.mp hi
  exact execute_error_iff.mpr ⟨hlt, hi, m₁, hc, step_of_error hf.action_eq⟩

theorem execute_take_append_of_error
    (h : m.execute host ⟨constants, code⟩ = some (.error e, m')) (others : List Instruction) :
    m.execute host ⟨constants, code.take (e.pc + 1) ++ others⟩ = some (.error e, m') := by
  obtain ⟨hlt, hi, m₁, hb, hf⟩ := execute_error_iff.mp h
  have hlen : (code.take e.pc).length = e.pc := List.length_take_of_le (Nat.le_of_lt hlt)
  have hcode : code.take (e.pc + 1) ++ others = code.take e.pc ++ e.instruction :: others := by
    rw [List.take_add_one, hi, List.append_assoc]
    rfl
  refine execute_error_iff.mpr ⟨?_, ?_, m₁, ?_, hf⟩
  · rw [hcode, List.length_append, hlen, List.length_cons]
    omega
  · rw [hcode, List.getElem?_append_right (Nat.le_of_eq hlen), hlen, Nat.sub_self,
      List.getElem?_cons_zero]
  · rwa [hcode, List.take_left' hlen]

/-- Execution returns an error if and only if it stands in the code, the code in front of it
succeeds, and its instruction fails on the machine that this leaves. That machine is then left as it
is, unless a function failed, which leaves a machine of its own; and the code behind the error can be
replaced by any other. -/
theorem execute_error_atomic (host : Host) (constants : List Value) (code : List Instruction)
    (m m' : Machine) (e : RuntimeError) :
    (m.execute host ⟨constants, code⟩ = some (.error e, m') ↔
      e.pc < code.length ∧ code[e.pc]? = some e.instruction ∧
      ∃ m₁, m.execute host ⟨constants, code.take e.pc⟩ = some (.ok (), m₁) ∧
        m₁.step host constants e.instruction = some (.error e.fault, m')) ∧
    (m.execute host ⟨constants, code⟩ = some (.error e, m') →
      (∃ m₁, m.execute host ⟨constants, code.take e.pc⟩ = some (.ok (), m₁) ∧
        ((∀ name status, e.fault ≠ .nativeFailure name status) →
          m₁.Refuses constants e.instruction e.fault ∧ m' = m₁) ∧
        ∀ name status, e.fault = .nativeFailure name status →
          ∃ g, m₁.Invokes e.instruction g ∧ g.name = name ∧ status ≠ 0 ∧
            host g (m₁.enter e.instruction.a) = some (status, m')) ∧
      ∀ others, m.execute host ⟨constants, code.take (e.pc + 1) ++ others⟩ =
        some (.error e, m')) := by
  refine ⟨execute_error_iff, fun h => ⟨?_, execute_take_append_of_error h⟩⟩
  obtain ⟨-, -, m₁, hb, hf⟩ := execute_error_iff.mp h
  exact ⟨m₁, hb, (step_error_iff.mp hf).by_fault⟩

/-- What was printed before the error stays printed, whatever stands behind the error. -/
theorem execute_error_atomic_behind_print :
    ∃ m', (∀ others, (Machine.new .standard none).execute (Native.host #[.print])
        ⟨[.string "print"], [.getGlobal 0 0, .loadInt 1 5, .call 0 1, .move 3 7] ++ others⟩ =
          some (.error ⟨3, .move 3 7, .unwrittenRegister 7⟩, m')) ∧
      m'.output.taken = "5\n".toUTF8.data := by
  obtain ⟨m', he, ht⟩ : ∃ m', (Machine.new .standard none).execute (Native.host #[.print])
      ⟨[.string "print"], [.getGlobal 0 0, .loadInt 1 5, .call 0 1, .move 3 7, .loadNil 9]⟩ =
        some (.error ⟨3, .move 3 7, .unwrittenRegister 7⟩, m') ∧
      m'.output.taken = "5\n".toUTF8.data := ⟨_, rfl, by decide +kernel⟩
  exact ⟨m', ((execute_error_atomic _ _ _ _ m' _).2 he).2, ht⟩

end Machine

end LuaLite
