import LuaLite.Proofs.Atomicity
import LuaLite.Proofs.Soundness

/-!
# The register file as a map

The registers grow with the slots that are written and have holes between them. Read by their slots
they are a map all the same: a slot holds what the latest instruction that writes it has written, and
nothing if there is none (`Machine.Latest`). `Machine.FilledBy` is what an execution keeps, provided
that the functions that it calls leave the registers alone; `filledBy_of_execute` says so of a whole
run.
-/

namespace LuaLite

namespace Instruction

/-- Some instruction of the code writes the slot. -/
def Writing (code : List Instruction) (slot : Nat) : Prop := ∃ i ∈ code, slot ∈ i.writes

instance (code : List Instruction) (slot : Nat) : Decidable (Writing code slot) :=
  inferInstanceAs (Decidable (∃ i ∈ code, slot ∈ i.writes))

/-- The slot is the first one, among the arguments of the call, that the code does not write. -/
def FirstMissing (code : List Instruction) (i : Instruction) (slot : Nat) : Prop :=
  i.a.toNat < slot ∧ slot ≤ i.a.toNat + i.b.toNat ∧ ¬ Writing code slot ∧
    ∀ other, i.a.toNat < other → other < slot → Writing code other

variable {code : List Instruction} {i : Instruction} {slot : Nat}

theorem lt_of_mem_writes (h : slot ∈ i.writes) : slot < registerCount := by
  rw [writes] at h
  split at h
  · cases h
  · rw [List.mem_singleton.mp h]
    exact i.a.toNat_lt

theorem Writing.lt (h : Writing code slot) : slot < registerCount := by
  obtain ⟨i, -, h⟩ := h
  exact lt_of_mem_writes h

theorem not_writing_nil : ¬ Writing [] slot :=
  fun ⟨_, h, _⟩ => nomatch h

theorem writing_append_singleton :
    Writing (code ++ [i]) slot ↔ Writing code slot ∨ slot ∈ i.writes := by
  simp [Writing, or_and_right, exists_or]

end Instruction

namespace Machine

open Instruction (Writing FirstMissing)

variable {host : Host} {constants : List Value} {i : Instruction} {code : List Instruction}
  {m m' m₁ : Machine} {e : RuntimeError} {f : RuntimeFault} {slot : Nat} {v : Value}
  {g : NativeFunction}

/-- The value is what the latest instruction of the code that writes the slot has written. -/
def Latest (host : Host) (constants : List Value) (m : Machine) (code : List Instruction)
    (slot : Nat) (v : Value) : Prop :=
  ∃ before i behind m₁, code = before ++ i :: behind ∧ slot ∈ i.writes ∧ ¬ Writing behind slot ∧
    m.execute host ⟨constants, before⟩ = some (.ok (), m₁) ∧ m₁.Writes constants i v

/-- The registers of `m'` are what executing the code on `m` has written, seen as a map and as a
file. -/
structure FilledBy (host : Host) (constants : List Value) (m : Machine) (code : List Instruction)
    (m' : Machine) : Prop where
  value : ∀ slot, (∃ v, m.Latest host constants code slot v ∧ m'.registers.get? slot = some v) ∨
    ¬ Writing code slot ∧ m'.registers.get? slot = none
  lt_size : ∀ slot, Writing code slot → slot < m'.registers.slots.size
  size_eq : m'.registers.slots.size = 0 ∨
    ∃ slot, Writing code slot ∧ m'.registers.slots.size = slot + 1

theorem latest_last (hc : m.execute host ⟨constants, code⟩ = some (.ok (), m₁))
    (hw : m₁.Writes constants i v) : m.Latest host constants (code ++ [i]) i.a.toNat v := by
  refine ⟨code, i, [], m₁, rfl, ?_, Instruction.not_writing_nil, hc, hw⟩
  rw [hw.writes]
  exact List.mem_singleton_self _

theorem Latest.append_singleton (h : m.Latest host constants code slot v)
    (hi : slot ∉ i.writes) : m.Latest host constants (code ++ [i]) slot v := by
  obtain ⟨before, j, behind, m₁, rfl, hj, hb, hm, hw⟩ := h
  refine ⟨before, j, behind ++ [i], m₁, ?_, hj, fun hw' => ?_, hm, hw⟩
  · rw [List.append_assoc, List.cons_append]
  · exact (Instruction.writing_append_singleton.mp hw').elim hb hi

namespace FilledBy

theorem writing_iff (h : m.FilledBy host constants code m') :
    Writing code slot ↔ (m'.registers.get? slot).isSome := by
  rcases h.value slot with ⟨v, ⟨before, i, behind, -, rfl, hi, -⟩, hv⟩ | ⟨hw, hn⟩
  · refine ⟨fun _ => by rw [hv]; rfl, fun _ => ⟨i, ?_, hi⟩⟩
    exact List.mem_append_right _ List.mem_cons_self
  · refine ⟨fun h => absurd h hw, fun h => ?_⟩
    rw [hn] at h
    cases h

theorem append_of_writes_nil (h : m.FilledBy host constants code m₁) (hi : i.writes = [])
    (hr : m'.registers = m₁.registers) : m.FilledBy host constants (code ++ [i]) m' where
  value slot := by
    have hs : slot ∉ i.writes := by
      rw [hi]
      exact List.not_mem_nil
    rw [hr]
    rcases h.value slot with ⟨v, hl, hv⟩ | ⟨hw, hn⟩
    · exact .inl ⟨v, hl.append_singleton hs, hv⟩
    · exact .inr ⟨fun h => (Instruction.writing_append_singleton.mp h).elim hw hs, hn⟩
  lt_size slot hw := by
    rw [Instruction.writing_append_singleton, hi] at hw
    rw [hr]
    exact h.lt_size slot (hw.resolve_right List.not_mem_nil)
  size_eq := by
    rw [hr]
    exact h.size_eq.imp_right fun ⟨slot, hw, hs⟩ =>
      ⟨slot, Instruction.writing_append_singleton.mpr (.inl hw), hs⟩

theorem append_of_writes (h : m.FilledBy host constants code m₁)
    (hc : m.execute host ⟨constants, code⟩ = some (.ok (), m₁)) (hw : m₁.Writes constants i v)
    (hr : m'.registers = m₁.registers.set i.a.toNat v) :
    m.FilledBy host constants (code ++ [i]) m' where
  value slot := by
    rw [hr, Registers.get?_set]
    by_cases hs : i.a.toNat = slot
    · rw [if_pos hs, ← hs]
      exact .inl ⟨v, latest_last hc hw, rfl⟩
    · have hs' : slot ∉ i.writes := by
        rw [hw.writes, List.mem_singleton]
        exact fun e => hs e.symm
      rw [if_neg hs]
      rcases h.value slot with ⟨w, hl, hv⟩ | ⟨hn, hv⟩
      · exact .inl ⟨w, hl.append_singleton hs', hv⟩
      · exact .inr ⟨fun h => (Instruction.writing_append_singleton.mp h).elim hn hs', hv⟩
  lt_size slot hs := by
    rw [Instruction.writing_append_singleton, hw.writes, List.mem_singleton] at hs
    rw [hr, Registers.size_set]
    rcases hs with hs | rfl
    · exact lt_of_lt_of_le (h.lt_size slot hs) (Nat.le_max_left _ _)
    · exact Nat.le_max_right _ _
  size_eq := by
    have hi : Writing (code ++ [i]) i.a.toNat :=
      Instruction.writing_append_singleton.mpr
        (.inr (by rw [hw.writes]; exact List.mem_singleton_self _))
    rw [hr, Registers.size_set]
    rcases Nat.le_total m₁.registers.slots.size (i.a.toNat + 1) with hle | hle
    · exact .inr ⟨i.a.toNat, hi, Nat.max_eq_right hle⟩
    · rw [Nat.max_eq_left hle]
      exact h.size_eq.imp_right fun ⟨slot, hs, e⟩ =>
        ⟨slot, Instruction.writing_append_singleton.mpr (.inl hs), e⟩

theorem isSome_back (h : m.FilledBy host constants code m') {entry : Option Value}
    (he : m'.registers.slots.back? = some entry) : entry.isSome := by
  rw [Array.back?_eq_getElem?] at he
  rcases h.size_eq with hz | ⟨slot, hw, hs⟩
  · rw [Array.getElem?_eq_none (by omega)] at he
    cases he
  · have hr := h.writing_iff.mp hw
    rw [hs, Nat.add_sub_cancel] at he
    rw [Registers.get?, he] at hr
    exact hr

end FilledBy

/-- Executing code fills the registers, one instruction after the other. -/
theorem filledBy_of_execute
    (hk : Host.KeepsRegisters host (m.reset.invocations host constants code))
    (h : m.execute host ⟨constants, code⟩ = some (.ok (), m')) :
    m.FilledBy host constants code m' := by
  -- The last instruction is taken off: what is kept speaks of the code from the start on.
  induction code using List.reverseRecOn generalizing m' with
  | nil =>
    cases h
    have hn : ∀ slot, ¬ Writing [] slot := fun _ => Instruction.not_writing_nil
    exact ⟨fun slot => .inr ⟨hn slot, rfl⟩, fun slot h => absurd h (hn slot), .inl rfl⟩
  | append_singleton code i ih =>
    obtain ⟨m₁, hc, hi⟩ := exists_executeFrom_of_append h
    obtain ⟨m₂, hs, hn⟩ := exists_step_of_executeFrom_cons hi
    cases hn
    rw [invocations_append hc] at hk
    have hf := ih (fun c h => hk c (List.mem_append_left _ h)) hc
    have hki : Host.KeepsRegisters host (m₁.invocation? constants i).toList := by
      intro c hmem
      refine hk c (List.mem_append_right _ ?_)
      rw [invocations]
      exact List.mem_append_left _ hmem
    rcases registers_of_step hs hki with ⟨v, hw, hr⟩ | ⟨hw, hr⟩
    · exact hf.append_of_writes hc hw hr
    · exact hf.append_of_writes_nil hw hr

namespace FilledBy

theorem get?_eq_none (h : m.FilledBy host constants code m') (hw : ¬ Writing code slot) :
    m'.registers.get? slot = none := by
  rw [h.writing_iff, Option.isSome_iff_ne_none, not_not] at hw
  exact hw

theorem refuses (h : m.FilledBy host constants code m') (ho : i.opcode? = some .call)
    (hr : m'.registers.get? i.a.toNat = some (.function g)) {k : Nat}
    (hk : FirstMissing code i k) : m'.Refuses constants i (.unwrittenRegister k) := by
  obtain ⟨hlt, hle, hw, hfirst⟩ := hk
  exact .unwrittenArgument ho hr hlt hle (h.get?_eq_none hw)
    fun j hj hjk => h.writing_iff.mp (hfirst j hj hjk)

theorem exists_firstMissing (h : m.FilledBy host constants code m')
    (hi : 255 < i.a.toNat + i.b.toNat) : ∃ k ≤ 256, FirstMissing code i k := by
  have hpast : ¬ Writing code 256 := fun hw => absurd hw.lt (Nat.lt_irrefl _)
  have hmissing : ¬ ∀ k, i.a.toNat < k → k ≤ i.a.toNat + i.b.toNat →
      (m'.registers.get? k).isSome := by
    intro hall
    exact hpast (h.writing_iff.mpr (hall 256 i.a.toNat_lt hi))
  obtain ⟨k, hlt, hle, hk, hfirst⟩ := exists_first_unwritten hmissing
  refine ⟨k, Nat.not_lt.mp fun hk' => ?_, hlt, hle, ?_, fun j hj hjk => ?_⟩
  · exact hpast (h.writing_iff.mpr (hfirst 256 i.a.toNat_lt hk'))
  · rw [h.writing_iff, hk]
    nofun
  · exact h.writing_iff.mpr (hfirst j hj hjk)

end FilledBy

theorem register_eq_ok_iff : m.register slot = .ok v ↔ m.registers.get? slot = some v := by
  rw [register]
  cases m.registers.get? slot <;> simp

theorem register_of_none (h : m.registers.get? slot = none) :
    m.register slot = .error (.unwrittenRegister slot) := by
  rw [register, h]

end Machine

namespace Native

/-- Functions that execute nothing leave the registers as they are. -/
theorem registers_of_host {natives : Array Native} (hn : ∀ n ∈ natives, ∀ c, n ≠ .execute c)
    {f : NativeFunction} {m m' : Machine} {status : Int32}
    (h : host natives f m = some (status, m')) : m'.registers = m.registers := by
  rw [host, hostTo] at h
  dsimp only at h
  split at h
  · cases h
    rfl
  · rw [Option.some.injEq, printArgument] at h
    split at h <;> cases h <;> rfl
  · cases h
    rfl
  · cases h
    rfl
  · rename_i chunk hc
    exact absurd rfl (hn _ (Array.mem_of_getElem? hc) chunk)

theorem keepsRegisters_host {natives : Array Native} (hn : ∀ n ∈ natives, ∀ c, n ≠ .execute c)
    (calls : List (NativeFunction × Machine)) : (host natives).KeepsRegisters calls :=
  fun _ _ _ _ h => registers_of_host hn h

end Native

namespace Machine

open Instruction (Writing FirstMissing)

/-- As long as the functions that it calls leave the registers alone, executing code keeps a map from
slots to the values written last, in a file that ends with the highest slot written. What a call then
finds missing is the first of its arguments that was never written. -/
theorem register_file {host : Host} {constants : List Value} {code : List Instruction} {n : Nat}
    {m m' : Machine}
    (hk : Host.KeepsRegisters host (m.reset.invocations host constants (code.take n)))
    (h : m.execute host ⟨constants, code.take n⟩ = some (.ok (), m')) :
    (∀ slot,
      (∃ v, m.Latest host constants (code.take n) slot v ∧ m'.register slot = .ok v) ∨
      ¬ Writing (code.take n) slot ∧ m'.register slot = .error (.unwrittenRegister slot)) ∧
    (∀ slot, 256 ≤ slot → m'.register slot = .error (.unwrittenRegister slot)) ∧
    (∀ slot, Writing (code.take n) slot → slot < m'.registers.slots.size) ∧
    (m'.registers.slots.size = 0 ∨
      ∃ slot, Writing (code.take n) slot ∧ m'.registers.slots.size = slot + 1) ∧
    (∀ entry, m'.registers.slots.back? = some entry → entry.isSome) ∧
    ∀ i g, code[n]? = some i → i.opcode? = some .call →
      m'.register i.a.toNat = .ok (.function g) →
      (∀ k, FirstMissing (code.take n) i k →
        m.execute host ⟨constants, code⟩ = some (.error ⟨n, i, .unwrittenRegister k⟩, m')) ∧
      (255 < i.a.toNat + i.b.toNat → ∃ k ≤ 256, FirstMissing (code.take n) i k ∧
        m.execute host ⟨constants, code⟩ = some (.error ⟨n, i, .unwrittenRegister k⟩, m')) := by
  have hf := filledBy_of_execute hk h
  refine ⟨fun slot => ?_, fun slot hs => ?_, hf.lt_size, hf.size_eq, fun _ => hf.isSome_back, ?_⟩
  · rcases hf.value slot with ⟨v, hl, hv⟩ | ⟨hw, hn⟩
    · exact .inl ⟨v, hl, register_eq_ok_iff.mpr hv⟩
    · exact .inr ⟨hw, register_of_none hn⟩
  · refine register_of_none (hf.get?_eq_none fun hw => ?_)
    exact absurd hw.lt (Nat.not_lt.mpr hs)
  · intro i g hi ho hg
    have hmissing : ∀ k, FirstMissing (code.take n) i k →
        m.execute host ⟨constants, code⟩ = some (.error ⟨n, i, .unwrittenRegister k⟩, m') :=
      fun k hk => execute_error_of_refuses hi h (hf.refuses ho (register_eq_ok_iff.mp hg) hk)
    refine ⟨hmissing, fun hpast => ?_⟩
    obtain ⟨k, hle, hk⟩ := hf.exists_firstMissing hpast
    exact ⟨k, hle, hk, hmissing k hk⟩

/-- Slots 6 to 8 are a hole of the file, and slot 9 was written twice. -/
theorem register_file_hole :
    ∃ (code : List Instruction) (m' : Machine),
      (Machine.new .standard none).execute (Native.host #[.print])
        ⟨[.string "print"], code.take 6⟩ = some (.ok (), m') ∧
      m'.register 9 = .ok (.boolean true) ∧
      m'.register 256 = .error (.unwrittenRegister 256) ∧
      (Machine.new .standard none).execute (Native.host #[.print]) ⟨[.string "print"], code⟩ =
        some (.error ⟨6, .call 4 5, .unwrittenRegister 6⟩, m') := by
  obtain ⟨code, hcode⟩ : ∃ code : List Instruction, code =
      [.getGlobal 4 0, .loadInt 9 1, .loadNil 5, .call 4 1, .move 2 9, .loadBool 9 true,
        .call 4 5] := ⟨_, rfl⟩
  obtain ⟨m', h, h9, h4⟩ : ∃ m', (Machine.new .standard none).execute (Native.host #[.print])
      ⟨[.string "print"], code.take 6⟩ = some (.ok (), m') ∧
      m'.register 9 = .ok (.boolean true) ∧ m'.register 4 = .ok (.function .print) := by
    rw [hcode]
    exact ⟨_, rfl, rfl, rfl⟩
  have hn : ∀ n ∈ #[Native.print], ∀ c, n ≠ .execute c := by
    intro n hn c
    rw [Array.mem_singleton.mp hn]
    nofun
  obtain ⟨-, hbig, -, -, -, hcall⟩ := register_file (Native.keepsRegisters_host hn _) h
  refine ⟨code, m', h, h9, hbig 256 (Nat.le_refl _), ?_⟩
  refine (hcall (.call 4 5) .print (by rw [hcode]; rfl) (by decide) h4).1 6 ?_
  refine ⟨by decide, by decide, by rw [hcode]; decide, fun other hlt hle => ?_⟩
  obtain rfl : other = 5 := by
    have : 4 < other := hlt
    omega
  rw [hcode]
  decide

end Machine

end LuaLite
