import LuaLite.Proofs.Execution
import LuaLite.Proofs.Soundness
import LuaLite.Script

/-!
# Printing to a full sink

A script whose output is limited does what it does without the limit, up to the call that would
write too much: this one writes what fits, and fails (`Script.run_limited`). `Machine.limited` takes
a machine without a limit to the one with it; a step is the same for both, or goes over the limit
(`PrintOnly.step_cases`), and so is an execution (`PrintOnly.executeFrom_cases`).
-/

namespace LuaLite

/-! ### Sinks and machines with a limit -/

namespace Sink

/-- The sink with a limit. -/
def limited (s : Sink) (n : Nat) : Sink := { s with limit := some n }

variable {s : Sink} {n : Nat} {bytes : Array UInt8}

theorem write_limited_of_le (hs : s.limit = none) (h : s.taken.size + bytes.size ≤ n) :
    (s.limited n).write bytes = (true, (s.write bytes).2.limited n) := by
  have hb : min bytes.size (n - s.taken.size) = bytes.size := by omega
  rw [write_of_limit_eq_none hs]
  simp [write, limited, fits, room, h, hb]

theorem write_limited_of_gt (hs : s.limit = none) (hn : s.taken.size ≤ n)
    (h : n < s.taken.size + bytes.size) :
    (s.limited n).write bytes = (false, ⟨(s.write bytes).2.taken.take n, some n⟩) := by
  have hb : min bytes.size (n - s.taken.size) = n - s.taken.size := by omega
  have hf : ¬ s.taken.size + bytes.size ≤ n := by omega
  have ht : (s.taken ++ bytes).take n = s.taken ++ bytes.take (n - s.taken.size) := by
    apply Array.ext'
    simp [List.take_of_length_le, hn]
  rw [write_of_limit_eq_none hs, ht]
  simp [write, limited, fits, room, hf, hb]

end Sink

namespace Machine

/-- The machine with a limit for its output. -/
def limited (m : Machine) (n : Nat) : Machine := { m with output := m.output.limited n }

/-- Output has no limit, and no function is within reach but `print`. -/
structure PrintOnly (m : Machine) : Prop where
  unlimited : m.output.limit = none
  globals : ∀ x f, m.globals.get? x = some (.function f) → f = .print
  registers : ∀ r f, m.registers.get? r = some (.function f) → f = .print

variable {m : Machine} {constants : List Value} {i : Instruction} {slot : UInt8} {v : Value}
  {n : Nat}

theorem PrintOnly.write (h : m.PrintOnly) (hv : ∀ f, v = .function f → f = .print) :
    { m with registers := m.registers.set slot.toNat v }.PrintOnly := by
  refine ⟨h.unlimited, h.globals, fun r f hr => ?_⟩
  rw [Registers.get?_set] at hr
  split at hr
  · cases hr
    exact hv f rfl
  · exact h.registers r f hr

theorem PrintOnly.action_cases (h : m.PrintOnly) (hi : i.Sound constants)
    (hc : ∀ f, .function f ∉ constants) :
    (∃ slot v, m.action constants i = .ok (.write slot v) ∧ ∀ f, v = .function f → f = .print) ∨
    (∃ slot, i = .call slot 1 ∧ m.action constants i = .ok (.invoke slot .print)) ∨
    ∃ f, m.action constants i = .error f := by
  cases hi with
  | loadNil d => exact .inl ⟨d, _, action_loadNil, nofun⟩
  | loadBool d b => exact .inl ⟨d, _, action_loadBool, nofun⟩
  | loadInt d n => exact .inl ⟨d, _, action_loadInt, nofun⟩
  | @loadConst d k v hk =>
    refine .inl ⟨d, v, action_loadConst hk, fun f hf => ?_⟩
    subst hf
    exact absurd (List.mem_of_getElem? hk) (hc f)
  | @getGlobal d k x hk =>
    rw [action_getGlobal hk]
    cases hx : m.globals.get? x with
    | none => exact .inr (.inr ⟨_, rfl⟩)
    | some v => exact .inl ⟨d, v, rfl, fun f hf => h.globals x f (hf ▸ hx)⟩
  | move d s =>
    rw [action_move]
    cases hr : m.registers.get? s.toNat with
    | none => exact .inr (.inr ⟨_, rfl⟩)
    | some v => exact .inl ⟨d, v, rfl, fun f hf => h.registers _ f (hf ▸ hr)⟩
  | call s =>
    rw [action_call]
    cases hr : m.registers.get? s.toNat with
    | none => exact .inr (.inr ⟨_, rfl⟩)
    | some v =>
      cases v with
      | function f =>
        have hf := h.registers _ f hr
        subst hf
        dsimp only
        split
        · exact .inr (.inl ⟨s, rfl, rfl⟩)
        · exact .inr (.inr ⟨_, rfl⟩)
      | _ => exact .inr (.inr ⟨_, rfl⟩)

/-- Printing is the same with the limit, or goes over it. -/
theorem PrintOnly.print_cases (h : m.PrintOnly) (hn : m.output.taken.size ≤ n) :
    ∃ status m₁, Native.printArgument m = (status, m₁) ∧ m₁.PrintOnly ∧
      (m₁.output.taken.size ≤ n ∧ Native.printArgument (m.limited n) = (status, m₁.limited n) ∨
        n < m₁.output.taken.size ∧ status = 0 ∧
          ∃ m₂, Native.printArgument (m.limited n) = (1, m₂) ∧
            m₂.output.taken = m₁.output.taken.take n) := by
  have ha : (m.limited n).argument = m.argument := rfl
  rw [Native.printArgument, Native.printArgument, ha]
  cases m.argument with
  | error e => exact ⟨1, m, rfl, h, .inl ⟨hn, rfl⟩⟩
  | ok v =>
    obtain ⟨bytes, hb⟩ : ∃ bytes, bytes = (v.text ++ "\n").toUTF8.data := ⟨_, rfl⟩
    have hw := Sink.write_of_limit_eq_none h.unlimited bytes
    have hsize : (m.output.write bytes).2.taken.size = m.output.taken.size + bytes.size := by
      rw [hw, Array.size_append]
    have hlimit : (m.output.write bytes).2.limit = none := by
      rw [hw]
      exact h.unlimited
    refine ⟨0, { m with output := (m.output.write bytes).2 }, ?_, ⟨hlimit, h.globals, h.registers⟩,
      ?_⟩
    · simp only [Native.writeLine, Sink.writeLine, ← hb, hw]
      rfl
    · simp only [Native.writeLine, Sink.writeLine, ← hb, limited]
      by_cases hle : m.output.taken.size + bytes.size ≤ n
      · rw [Sink.write_limited_of_le h.unlimited hle]
        exact .inl ⟨hsize ▸ hle, rfl⟩
      · have hgt := Nat.lt_of_not_le hle
        rw [Sink.write_limited_of_gt h.unlimited hn hgt]
        exact .inr ⟨hsize ▸ hgt, trivial, _, rfl, rfl⟩

/-! ### Executions -/

theorem PrintOnly.step_cases (h : m.PrintOnly) (hn : m.output.taken.size ≤ n)
    (hi : i.Sound constants) (hc : ∀ f, .function f ∉ constants) :
    ∃ r m₁, m.step Script.host constants i = some (r, m₁) ∧ m₁.PrintOnly ∧
      (m₁.output.taken.size ≤ n ∧
          (m.limited n).step Script.host constants i = some (r, m₁.limited n) ∨
        n < m₁.output.taken.size ∧ r = .ok () ∧ ∃ slot m₂, i = .call slot 1 ∧
          (m.limited n).step Script.host constants i =
            some (.error (.nativeFailure "print" 1), m₂) ∧
          m₂.output.taken = m₁.output.taken.take n) := by
  have hl : (m.limited n).action constants i = m.action constants i := rfl
  rcases h.action_cases hi hc with ⟨slot, v, ha, hv⟩ | ⟨slot, rfl, ha⟩ | ⟨f, ha⟩
  · rw [ha] at hl
    rw [step_of_write ha, step_of_write hl]
    exact ⟨.ok (), _, rfl, h.write hv, .inl ⟨hn, rfl⟩⟩
  · rw [ha] at hl
    have he : (m.enter slot).PrintOnly := ⟨h.unlimited, h.globals, h.registers⟩
    have hp : ∀ m : Machine, Script.host .print m = some (Native.printArgument m) := fun _ => rfl
    have hle : (m.limited n).enter slot = (m.enter slot).limited n := rfl
    rw [step_of_invoke ha, step_of_invoke hl, hp, hp, hle]
    obtain ⟨status, m₁, hs, hm₁, hcase⟩ := he.print_cases hn
    rw [hs]
    refine ⟨_, m₁, rfl, hm₁, ?_⟩
    rcases hcase with ⟨hle, hs'⟩ | ⟨hgt, rfl, m₂, hs', ht⟩ <;> rw [hs']
    · exact .inl ⟨hle, rfl⟩
    · exact .inr ⟨hgt, rfl, slot, m₂, rfl, rfl, ht⟩
  · rw [ha] at hl
    rw [step_of_error ha, step_of_error hl]
    exact ⟨.error f, m, rfl, h, .inl ⟨hn, rfl⟩⟩

variable {code : List Instruction}

/-- An execution is the same with the limit, or a call goes over it. -/
theorem PrintOnly.executeFrom_cases (h : m.PrintOnly) (hn : m.output.taken.size ≤ n)
    (hs : ∀ i ∈ code, i.Sound constants) (hc : ∀ f, .function f ∉ constants) (pc : Nat) :
    ∃ outcome m', executeFrom Script.host constants pc code m = some (outcome, m') ∧
      (m'.output.taken.size ≤ n ∧
          executeFrom Script.host constants pc code (m.limited n) = some (outcome, m'.limited n) ∨
        n < m'.output.taken.size ∧ ∃ before slot behind m₁ m₂ m₃,
          code = before ++ .call slot 1 :: behind ∧
          executeFrom Script.host constants pc before m = some (.ok (), m₁) ∧
          m₁.output.taken.size ≤ n ∧
          m₁.step Script.host constants (.call slot 1) = some (.ok (), m₂) ∧
          n < m₂.output.taken.size ∧
          executeFrom Script.host constants pc code (m.limited n) =
            some (.error ⟨pc + before.length, .call slot 1, .nativeFailure "print" 1⟩, m₃) ∧
          m₃.output.taken = m'.output.taken.take n) := by
  induction code generalizing m n pc with
  | nil => exact ⟨.ok (), m, rfl, .inl ⟨hn, rfl⟩⟩
  | cons i code ih =>
    have hs' := fun j hj => hs j (List.mem_cons_of_mem i hj)
    obtain ⟨r, m₁, hstep, hm₁, ⟨hle, hl⟩ | ⟨hgt, rfl, slot, m₂, rfl, hl, ht⟩⟩ :=
      h.step_cases hn (hs i List.mem_cons_self) hc
    · cases r with
      | error f =>
        rw [executeFrom_cons_error hstep, executeFrom_cons_error hl]
        exact ⟨_, m₁, rfl, .inl ⟨hle, rfl⟩⟩
      | ok u =>
        obtain ⟨outcome, m', hr, hcase⟩ := ih hm₁ hle hs' (pc + 1)
        rw [executeFrom_cons_ok hstep, executeFrom_cons_ok hl]
        refine ⟨outcome, m', hr, ?_⟩
        rcases hcase with hcase | ⟨hgt, before, slot, behind, m₂, m₃, m₄, rfl, hb, hle', hb', hgt',
          hr', ht⟩
        · exact .inl hcase
        · refine .inr ⟨hgt, i :: before, slot, behind, m₂, m₃, m₄, rfl, ?_, hle', hb', hgt', ?_, ht⟩
          · rw [executeFrom_cons_ok hstep, hb]
          · rw [hr', List.length_cons, Nat.add_right_comm, Nat.add_assoc]
    · -- The execution without the limit goes on, and keeps what was written so far.
      obtain ⟨outcome, m', hr, -⟩ := ih hm₁ (Nat.le_refl _) hs' (pc + 1)
      obtain ⟨more, hmore⟩ := executeFrom_appends (Native.appends_host _) hr
      have htaken : m'.output.taken = m₁.output.taken ++ more.toArray :=
        Array.ext' (by simp [← hmore])
      refine ⟨outcome, m', by rw [executeFrom_cons_ok hstep, hr], .inr ⟨?_, [], slot, code, m, m₁,
        m₂, rfl, rfl, hn, hstep, hgt, executeFrom_cons_error hl, ?_⟩⟩
      · rw [htaken, Array.size_append]
        omega
      · rw [ht, htaken]
        apply Array.ext'
        have hz : n - m₁.output.taken.size = 0 := by omega
        simp [hz]

end Machine

/-! ### Scripts -/

/-- A script that can do nothing but print does the same where the output is limited, if all that it
prints fits. Otherwise what fits is printed, and the call fails that first goes over the limit. -/
theorem Script.run_limited {source : String} {chunk : Chunk} (h : compile source = .ok chunk)
    {globals : Globals} (hg : ∀ x v, globals.get? x = some v → v = .function .print) (n : Nat) :
    ∃ r m r' m', run host source (.new globals none) = some (r, m) ∧
      run host source (.new globals (some n)) = some (r', m') ∧
      (m.output.taken.size ≤ n → r' = r ∧ m'.output.taken = m.output.taken) ∧
      (n < m.output.taken.size → m'.output.taken = m.output.taken.take n ∧
        ∃ before slot behind m₁ m₂, chunk.code = before ++ .call slot 1 :: behind ∧
          r' = .error (.runtime ⟨before.length, .call slot 1, .nativeFailure "print" 1⟩) ∧
          Machine.executeFrom host chunk.constants 0 before (.new globals none) =
            some (.ok (), m₁) ∧ m₁.output.taken.size ≤ n ∧
          Machine.executeFrom host chunk.constants 0 (before ++ [.call slot 1])
            (.new globals none) = some (.ok (), m₂) ∧ n < m₂.output.taken.size) := by
  have hs := (Compiler.sound_of_compile h).sound
  have hc : ∀ f, .function f ∉ chunk.constants := by
    intro f hf
    obtain ⟨ss, code, z, -, ha, rfl⟩ := compile_eq_ok_iff.mp h
    have hv := (Statement.grows_of_assembleAll ha).2 ConstantPool.valid_empty
    exact absurd (hv.keyed _ hf) Bool.false_ne_true
  have hm : (Machine.new globals none).PrintOnly := by
    refine ⟨rfl, fun x f hx => ?_, fun r f hr => nomatch hr⟩
    injection hg x _ hx
  obtain ⟨outcome, m, hr, hcase⟩ := hm.executeFrom_cases (Nat.zero_le n) hs hc 0
  have hrun : run host source (.new globals none) = some (outcome.mapError .runtime, m) := by
    rw [run_of_compile h]
    exact congrArg (Option.map _) hr
  rcases hcase with ⟨hle, hl⟩ | ⟨hgt, before, slot, behind, m₁, m₂, m₃, hcode, hb, hle, hstep,
    hgt', hl, ht⟩
  · refine ⟨_, m, outcome.mapError .runtime, m.limited n, hrun, ?_, fun _ => ⟨rfl, rfl⟩,
      fun hgt => absurd hle (Nat.not_le_of_lt hgt)⟩
    rw [run_of_compile h]
    exact congrArg (Option.map _) hl
  · refine ⟨_, m, _, m₃, hrun, ?_, fun hle => absurd hle (Nat.not_le_of_lt hgt), fun _ => ⟨ht,
      before, slot, behind, m₁, m₂, hcode, rfl, hb, hle, ?_, hgt'⟩⟩
    · rw [run_of_compile h, ← Nat.zero_add before.length]
      exact congrArg (Option.map _) hl
    · rw [Machine.executeFrom_append hb, Machine.executeFrom_cons_ok hstep]
      rfl

/-- Of the second line, one byte fits. -/
theorem Script.run_limited_second_line :
    ∃ (chunk : Chunk) (m m' : Machine) (pc : Nat) (slot : UInt8),
      compile "print 'ab' print 'cd'" = .ok chunk ∧
      (∀ x v, Globals.standard.get? x = some v → v = .function .print) ∧
      run host "print 'ab' print 'cd'" (.new .standard none) = some (.ok (), m) ∧
      m.output.taken = #[97, 98, 10, 99, 100, 10] ∧
      run host "print 'ab' print 'cd'" (.new .standard (some 4)) =
        some (.error (.runtime ⟨pc, .call slot 1, .nativeFailure "print" 1⟩), m') ∧
      m'.output.taken = #[97, 98, 10, 99] := by
  obtain ⟨chunk, hchunk⟩ : ∃ chunk : Chunk, chunk =
      ⟨[.string "print", .string "ab", .string "cd"],
        [.getGlobal 0 0, .loadConst 1 1, .call 0 1, .getGlobal 0 0, .loadConst 1 2, .call 0 1]⟩ :=
    ⟨_, rfl⟩
  have hc : compile "print 'ab' print 'cd'" = .ok chunk := by
    subst hchunk
    exact eq_ok_of_toOption (by decide +kernel)
  have hg : ∀ x v, Globals.standard.get? x = some v → v = .function .print := by
    intro x v hx
    rw [Globals.standard, Globals.get?_insert] at hx
    split at hx
    · injection hx with hx
      exact hx.symm
    · cases hx
  have he : ∃ m, chunk.run host (.new .standard none) = some (.ok (), m) ∧
      m.output.taken = #[97, 98, 10, 99, 100, 10] := by
    subst hchunk
    exact ⟨_, rfl, by decide +kernel⟩
  obtain ⟨m₀, hm₀, ht₀⟩ := he
  obtain ⟨r, m, r', m', hr, hr', -, hgt⟩ := run_limited hc hg 4
  rw [run_of_compile hc] at hr
  cases hm₀.symm.trans hr
  obtain ⟨ht, before, slot, -, -, -, -, rfl, -⟩ := hgt (by rw [ht₀]; decide)
  rw [ht₀] at ht
  exact ⟨chunk, m₀, m', _, slot, hc, hg, by rw [run_of_compile hc, hm₀], ht₀, hr', ht⟩

end LuaLite
