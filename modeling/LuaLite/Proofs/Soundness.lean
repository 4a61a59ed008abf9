import LuaLite.Proofs.Actions
import LuaLite.Proofs.Compilation
import LuaLite.Proofs.Execution
import LuaLite.Proofs.Pieces

/-!
# Compiled code does not go wrong

Of the faults of the machine, compiled code meets only those that are the script's: an undefined
global, a value that is not a function, a function that fails. The others would be the compiler's.

`Layout.Sound` is the invariant of the compiler: the code so far finds its constants, reads no
register that it has not written, and has written those of the locals. It holds after a statement
that fails as well, since the instructions that such a statement leaves load something each.
-/

namespace LuaLite

namespace Instruction

/-- No instruction reads a register that is not written by then. -/
def Covered (written : List Nat) : List Instruction → Prop
  | [] => True
  | i :: rest => i.reads ⊆ written ∧ Covered (written ++ i.writes) rest

theorem covered_append {written : List Nat} {code code' : List Instruction} :
    Covered written (code ++ code') ↔
      Covered written code ∧ Covered (written ++ code.flatMap writes) code' := by
  induction code generalizing written with
  | nil => simp [Covered]
  | cons i rest ih => simp [Covered, ih, and_assoc]

end Instruction

/-! ### Execution -/

/-- These calls leave the registers as they are. A function that executes nothing on the machine
does so, as it is handed no more of the machine than its argument and the output;
`Native.keepsRegisters_host` shows this of the functions that the library has. -/
def Host.KeepsRegisters (host : Host) (calls : List (NativeFunction × Machine)) : Prop :=
  ∀ c ∈ calls, ∀ status m', host c.1 c.2 = some (status, m') → m'.registers = c.2.registers

namespace Machine

variable {host : Host} {constants : List Value} {i : Instruction} {code : List Instruction}
  {m m' : Machine} {pc : Nat} {e : RuntimeError} {f : RuntimeFault} {written : List Nat}

theorem step_error (hi : i.Sound constants) (h : m.step host constants i = some (.error f, m')) :
    (∃ x, f = .undefinedGlobal x) ∨ (∃ s t, f = .notAFunction s t) ∨
    (∃ name status, f = .nativeFailure name status) ∨
    ∃ r ∈ i.reads, m.registers.get? r = none ∧ f = .unwrittenRegister r := by
  rcases hi.action_cases m with
    ⟨v, ha, -⟩ | ⟨g, ha, -⟩ | ⟨x, ha⟩ | ⟨t, ha⟩ | ⟨r, hr, hn, ha⟩
  · rw [step_of_write ha] at h
    cases h
  · obtain ⟨status, -, -, rfl⟩ := step_invoke_error ha h
    exact .inr (.inr (.inl ⟨_, _, rfl⟩))
  · rw [step_of_error ha] at h
    cases h
    exact .inl ⟨x, rfl⟩
  · rw [step_of_error ha] at h
    cases h
    exact .inr (.inl ⟨i.a, t, rfl⟩)
  · rw [step_of_error ha] at h
    cases h
    exact .inr (.inr (.inr ⟨r, hr, hn, rfl⟩))

/-- An instruction that succeeds writes its register, or leaves all as they are. -/
theorem registers_of_step (h : m.step host constants i = some (.ok (), m'))
    (hk : Host.KeepsRegisters host (m.invocation? constants i).toList) :
    (∃ v, m.Writes constants i v ∧ m'.registers = m.registers.set i.a.toNat v) ∨
      i.writes = [] ∧ m'.registers = m.registers := by
  rcases m.action_cases constants i with ⟨v, hv⟩ | ⟨g, hg⟩ | ⟨f, hf⟩
  · rw [step_of_write hv.action_eq] at h
    cases h
    exact .inl ⟨v, hv, rfl⟩
  · rw [step_of_invoke hg.action_eq] at h
    obtain ⟨⟨status, m₁⟩, hc, h⟩ := Option.map_eq_some_iff.mp h
    have hm : m₁ = m' := congrArg Prod.snd h
    rw [invocation?, hg.action_eq] at hk
    have hr := hk _ (List.mem_singleton_self _) status m₁ hc
    exact .inr ⟨hg.writes, hm ▸ hr⟩
  · rw [step_of_error hf.action_eq] at h
    cases h

theorem written_of_step (h : m.step host constants i = some (.ok (), m'))
    (hk : Host.KeepsRegisters host (m.invocation? constants i).toList)
    (hw : ∀ r ∈ written, (m.registers.get? r).isSome) :
    ∀ r ∈ written ++ i.writes, (m'.registers.get? r).isSome := by
  intro r hr
  rw [List.mem_append] at hr
  rcases registers_of_step h hk with ⟨v, hv, he⟩ | ⟨hn, he⟩
  · rw [he, Registers.get?_set]
    split
    · rfl
    · rename_i hne
      rw [hv.writes, List.mem_singleton] at hr
      exact hw r (hr.resolve_right fun e => hne e.symm)
  · rw [hn] at hr
    rw [he]
    exact hw r (hr.resolve_right List.not_mem_nil)

theorem fault_of_executeFrom (hs : ∀ i ∈ code, i.Sound constants)
    (h : executeFrom host constants pc code m = some (.error e, m')) :
    (∃ x, e.fault = .undefinedGlobal x) ∨ (∃ s t, e.fault = .notAFunction s t) ∨
    (∃ name status, e.fault = .nativeFailure name status) ∨
    ∃ r, e.fault = .unwrittenRegister r := by
  obtain ⟨before, behind, m₁, rfl, -, -, hstep⟩ := executeFrom_error_iff.mp h
  have hi := hs e.instruction (List.mem_append_right before List.mem_cons_self)
  rcases step_error hi hstep with hf | hf | hf | ⟨r, -, -, hf⟩
  · exact .inl hf
  · exact .inr (.inl hf)
  · exact .inr (.inr (.inl hf))
  · exact .inr (.inr (.inr ⟨r, hf⟩))

theorem ne_unwrittenRegister_of_executeFrom (hs : ∀ i ∈ code, i.Sound constants)
    (hc : Instruction.Covered written code) (hw : ∀ r ∈ written, (m.registers.get? r).isSome)
    (hk : Host.KeepsRegisters host (m.invocations host constants code))
    (h : executeFrom host constants pc code m = some (.error e, m')) (r : Nat) :
    e.fault ≠ .unwrittenRegister r := by
  induction code generalizing m pc written with
  | nil => cases h
  | cons i rest ih =>
    rw [executeFrom] at h
    rw [invocations] at hk
    obtain ⟨hread, hc⟩ := hc
    have hi := hs i List.mem_cons_self
    split at h
    · cases h
    · rename_i hstep
      cases h
      rcases step_error hi hstep with ⟨x, hf⟩ | ⟨s, t, hf⟩ | ⟨name, status, hf⟩ | ⟨r', hr, hn, hf⟩
      · rw [hf]
        exact RuntimeFault.noConfusion
      · rw [hf]
        exact RuntimeFault.noConfusion
      · rw [hf]
        exact RuntimeFault.noConfusion
      · have := hw r' (hread hr)
        rw [hn] at this
        cases this
    · rename_i hstep
      rw [hstep] at hk
      have hw' := written_of_step hstep (fun c hc => hk c (List.mem_append_left _ hc)) hw
      exact ih (fun j hj => hs j (List.mem_cons_of_mem i hj)) hc hw'
        (fun c hc => hk c (List.mem_append_right _ hc)) h

end Machine

/-! ### Compilation -/

namespace Expression

variable {y : Layout} {dst : UInt8} {e : Expression} {i : Instruction}

theorem Loads.sound (h : e.Loads y dst i) : i.Sound y.pool.values.toList := by
  cases h with
  | nil => exact .loadNil dst
  | boolean b => exact .loadBool dst b
  | small hn => exact .loadInt dst _
  | constant hv hk => exact .loadConst dst hk
  | global hx hk => exact .getGlobal dst hk
  | slot hx => exact .move dst _

theorem Loads.writes (h : e.Loads y dst i) : i.writes = [dst.toNat] := by
  cases h with
  | nil => exact Instruction.writes_of_op .loadNil rfl nofun
  | boolean b => exact Instruction.writes_of_op .loadBool rfl nofun
  | small hn => exact Instruction.writes_of_op .loadInt rfl nofun
  | constant hv hk => exact Instruction.writes_of_op .loadConst rfl nofun
  | global hx hk => exact Instruction.writes_of_op .getGlobal rfl nofun
  | slot hx => exact Instruction.writes_of_op .move rfl nofun

theorem Loads.lt_of_mem_reads (h : e.Loads y dst i) (hy : y.locals.Valid) {r : Nat}
    (hr : r ∈ i.reads) : r < y.locals.size := by
  cases h with
  | nil => rw [Instruction.reads_of_op .loadNil rfl nofun nofun] at hr; cases hr
  | boolean b => rw [Instruction.reads_of_op .loadBool rfl nofun nofun] at hr; cases hr
  | small hn => rw [Instruction.reads_of_op .loadInt rfl nofun nofun] at hr; cases hr
  | constant hv hk => rw [Instruction.reads_of_op .loadConst rfl nofun nofun] at hr; cases hr
  | global hx hk => rw [Instruction.reads_of_op .getGlobal rfl nofun nofun] at hr; cases hr
  | slot hx =>
    rw [Instruction.reads_move, List.mem_singleton] at hr
    exact hr ▸ hy.toNat_lt hx

end Expression

/-- The code finds its constants, reads nothing unwritten, and has written the locals. -/
structure Layout.Sound (y : Layout) (code : List Instruction) : Prop where
  valid : y.pool.Valid
  locals : y.locals.Valid
  sound : ∀ i ∈ code, i.Sound y.pool.values.toList
  covered : Instruction.Covered [] code
  written : ∀ r < y.locals.size, r ∈ code.flatMap Instruction.writes

namespace Layout.Sound

variable {y z : Layout} {code block : List Instruction} {dst : UInt8} {e : Expression}
  {i : Instruction} {s : Statement}

theorem empty : Layout.empty.Sound [] where
  valid := ConstantPool.valid_empty
  locals := LocalTable.valid_empty
  sound _ h := nomatch h
  covered := trivial
  written _ h := absurd h (Nat.not_lt_zero _)

theorem load (h : y.Sound code) (he : e.load y dst = some (i, z)) :
    z.Sound (code ++ [i]) ∧ dst.toNat ∈ (code ++ [i]).flatMap Instruction.writes := by
  obtain ⟨hg, hl⟩ := Expression.loads_of_load he
  have hl := hl h.valid
  refine ⟨⟨hg.valid h.valid, hg.locals ▸ h.locals, fun j hj => ?_, ?_, fun r hr => ?_⟩, ?_⟩
  · rcases List.mem_append.mp hj with hj | hj
    · exact (h.sound j hj).mono fun _ _ => hg.pool.getElem?
    · rw [List.mem_singleton.mp hj]
      exact hl.sound
  · refine Instruction.covered_append.mpr ⟨h.covered, fun r hr => ?_, trivial⟩
    exact h.written r (hg.locals ▸ hl.lt_of_mem_reads (hg.locals ▸ h.locals) hr)
  · rw [hg.locals] at hr
    rw [List.flatMap_append]
    exact List.mem_append_left _ (h.written r hr)
  · rw [List.flatMap_append, List.flatMap_singleton, hl.writes]
    exact List.mem_append_right _ (List.mem_singleton_self _)

theorem call {slot : UInt8} (h : y.Sound code)
    (hs : slot.toNat ∈ code.flatMap Instruction.writes)
    (hs' : slot.toNat + 1 ∈ code.flatMap Instruction.writes) :
    y.Sound (code ++ [.call slot 1]) := by
  refine ⟨h.valid, h.locals, fun j hj => ?_, ?_, fun r hr => ?_⟩
  · rcases List.mem_append.mp hj with hj | hj
    · exact h.sound j hj
    · rw [List.mem_singleton.mp hj]
      exact .call slot
  · refine Instruction.covered_append.mpr ⟨h.covered, fun r hr => ?_, trivial⟩
    rw [Instruction.reads_call] at hr
    simp only [List.mem_cons, List.not_mem_nil, or_false] at hr
    rcases hr with rfl | rfl
    · exact hs
    · exact hs'
  · rw [List.flatMap_append]
    exact List.mem_append_left _ (h.written r hr)

theorem declare (h : y.Sound code) (x : String) (hr : y.locals.size + 1 ≤ registerCount)
    (hw : y.locals.size ∈ code.flatMap Instruction.writes) : (y.declare x).Sound code := by
  refine ⟨h.valid, valid_declare h.locals hr, h.sound, h.covered, fun r hlt => ?_⟩
  rcases Nat.lt_succ_iff_lt_or_eq.mp hlt with hlt | rfl
  · exact h.written r hlt
  · exact hw

theorem begun (h : y.Sound code) {l : Lexer} {t : Token} (hb : y.Begun l t block z) :
    z.Sound (code ++ block) := by
  cases hb with
  | nothing => rwa [List.append_nil]
  | callee hr hf => exact (h.load hf).1
  | argument hr hf he hl hj => simpa using ((h.load hf).1.load hj).1

theorem assemble (h : y.Sound code) (hb : s.assemble y = some (block, z)) :
    z.Sound (code ++ block) := by
  cases s with
  | declare x e =>
    obtain ⟨hr, i, w, he, rfl, rfl⟩ := Statement.assemble_declare.mp hb
    obtain ⟨hg, -⟩ := Expression.loads_of_load he
    obtain ⟨hw, hm⟩ := h.load he
    rw [toNat_slot hr, ← hg.locals] at hm
    exact hw.declare x (hg.locals ▸ hr) hm
  | call f e =>
    obtain ⟨hr, i, w, j, hf, he, rfl⟩ := Statement.assemble_call.mp hb
    obtain ⟨hw, hm⟩ := h.load hf
    obtain ⟨hz, hm'⟩ := hw.load he
    have hs : y.slot.toNat = y.locals.size := toNat_slot (Nat.le_of_succ_le hr)
    rw [toNat_slot_add_one hr, ← hs] at hm'
    have hall := hz.call (List.flatMap_append ▸ List.mem_append_left _ hm) hm'
    simpa using hall

end Layout.Sound

/-- The code of the chunk finds its constants and reads nothing unwritten. -/
structure Chunk.Sound (chunk : Chunk) : Prop where
  sound : ∀ i ∈ chunk.code, i.Sound chunk.constants
  covered : Instruction.Covered [] chunk.code

namespace Compiler

variable {c : Compiler}

/-- The invariant between calls of `parse`. Behind the end of the source the locals have no registers
any more, but nothing more is compiled there. -/
def Sound (c : Compiler) : Prop :=
  c.layout.Sound c.code.toList ∨ c.lexer.next.1 = .ok none ∧ c.chunk = ⟨[], []⟩

theorem Sound.chunk (h : c.Sound) : c.chunk.Sound := by
  rcases h with h | ⟨-, h⟩
  · exact ⟨h.sound, h.covered⟩
  · rw [h]
    exact ⟨fun _ hi => (nomatch hi), trivial⟩

theorem Sound.layout (h : c.Sound) (hn : c.lexer.next.1 ≠ .ok none) :
    c.layout.Sound c.code.toList :=
  h.resolve_right fun h => hn h.1

theorem sound_forward {l : Lexer} {block : List Instruction} {y : Layout}
    (h : y.Sound (c.code.toList ++ block)) : (c.forward l block y).Sound :=
  .inl (by rwa [layout_forward, code_forward])

theorem sound_parse (h : c.Sound) :
    c.parse.2.Sound ∧ ∀ chunk, c.parse.1 = .ok chunk → chunk.Sound := by
  induction c using parse_induction with
  | unreadable c e l hn hp =>
    have hl := h.layout (by rw [hn]; intro e; cases e)
    rw [hp]
    refine ⟨sound_forward (by rwa [List.append_nil]), fun chunk e => ?_⟩
    cases e
  | ended c l hn hp =>
    have he := Lexer.next_next_of_none (l := c.lexer) (by rw [hn])
    rw [hn] at he
    rw [hp]
    refine ⟨.inr ⟨he, rfl⟩, fun chunk e => ?_⟩
    cases e
    exact h.chunk
  | failing c t l e l' block y hn hs hb hp =>
    -- The statement that fails leaves `block`, which a later chunk holds.
    have hl := h.layout (by rw [hn]; intro e; cases e)
    rw [hp]
    refine ⟨sound_forward (hl.begun hb), fun chunk e => ?_⟩
    cases e
  | comment c text l hn hp ih =>
    have hl := h.layout (by rw [hn]; intro e; cases e)
    rw [hp]
    exact ih (sound_forward (by rwa [List.append_nil]))
  | complete c s t us l l' block y hn hsp hr hb hp ih =>
    have hl := h.layout (by rw [hn]; intro e; cases e)
    rw [hp]
    exact ih (sound_forward (hl.assemble hb))

theorem sound_of_compile {source : String} {chunk : Chunk} (h : compile source = .ok chunk) :
    chunk.Sound :=
  (sound_parse (c := .ofSource source) (.inl Layout.Sound.empty)).2 chunk h

theorem sound_of_mem_parses {n : Nat} {chunk : Chunk} (h : c.Sound) (hc : .ok chunk ∈ c.parses n) :
    chunk.Sound := by
  induction n generalizing c with
  | zero => cases hc
  | succ n ih =>
    obtain ⟨hnext, hchunk⟩ := sound_parse h
    rcases List.mem_cons.mp hc with hc | hc
    · exact hchunk chunk hc.symm
    · exact ih hnext hc

/-- Whatever the functions do that a chunk calls, executing the chunk fails only by an undefined
global, a value that is not a function, a function that fails, or an unwritten register; and by the
last only if some function changes registers. -/
theorem fault_of_mem_parses {source : String} {n : Nat} {chunk : Chunk}
    (hc : .ok chunk ∈ (ofSource source).parses n) {host : Host} {m m' : Machine} {e : RuntimeError}
    (he : m.execute host chunk = some (.error e, m')) :
    ((∃ x, e.fault = .undefinedGlobal x) ∨ (∃ s t, e.fault = .notAFunction s t) ∨
      (∃ name status, e.fault = .nativeFailure name status) ∨
      ∃ r, e.fault = .unwrittenRegister r) ∧
    (Host.KeepsRegisters host (m.reset.invocations host chunk.constants chunk.code) →
      ∀ r, e.fault ≠ .unwrittenRegister r) := by
  have hs := sound_of_mem_parses (c := .ofSource source) (.inl Layout.Sound.empty) hc
  refine ⟨Machine.fault_of_executeFrom hs.sound he, fun hk r => ?_⟩
  exact Machine.ne_unwrittenRegister_of_executeFrom hs.sound hs.covered (fun _ h => nomatch h) hk
    he r

/-- The third call returns a chunk that begins with what is left of the call of `f`. -/
theorem fault_of_leftover_callee :
    ∃ (chunk : Chunk) (host : Host) (m m' : Machine) (e : RuntimeError),
      .ok chunk ∈ (ofSource "f(=)g(1)").parses 3 ∧
      Host.KeepsRegisters host (m.reset.invocations host chunk.constants chunk.code) ∧
      m.execute host chunk = some (.error e, m') ∧ e.fault = .nativeFailure "g" 1 ∧
      ∀ r, e.fault ≠ .unwrittenRegister r := by
  obtain ⟨chunk, hchunk⟩ : ∃ chunk : Chunk, chunk =
      ⟨[.string "f", .string "g"],
        [.getGlobal 0 0, .getGlobal 0 1, .loadInt 1 1, .call 0 1]⟩ := ⟨_, rfl⟩
  have hp : ((ofSource "f(=)g(1)").parses 3)[2]?.bind Except.toOption = some chunk := by
    rw [hchunk]
    decide +kernel
  have hc : .ok chunk ∈ (ofSource "f(=)g(1)").parses 3 := by
    obtain ⟨o, ho, h⟩ := Option.bind_eq_some_iff.mp hp
    rw [eq_ok_of_toOption h] at ho
    exact List.mem_of_getElem? ho
  have hk : ∀ m : Machine, Host.KeepsRegisters (fun _ m => some (1, m))
      (m.reset.invocations (fun _ m => some (1, m)) chunk.constants chunk.code) := by
    intro m c _ status m' h
    cases h
    rfl
  have he : ∃ m', (Machine.new ⟨[("f", .nil), ("g", .function ⟨"g", 0⟩)]⟩ none).execute
      (fun _ m => some (1, m)) chunk =
      some (.error ⟨3, .call 0 1, .nativeFailure "g" 1⟩, m') := by
    rw [hchunk]
    exact ⟨_, rfl⟩
  obtain ⟨m', he⟩ := he
  exact ⟨chunk, _, _, m', _, hc, hk _, he, rfl, (fault_of_mem_parses hc he).2 (hk _)⟩

end Compiler

end LuaLite
