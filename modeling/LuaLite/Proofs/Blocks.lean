import LuaLite.Proofs.Execution
import LuaLite.Proofs.Language
import LuaLite.Proofs.Soundness

/-!
# The statement in which an execution fails

The code of a script has one block for each statement (`Statement.Blocks`): a declaration loads its
value into the register above the locals, and a call loads the function there and the argument above
it, and then calls. When executing the code fails, the place of the failing instruction tells the
statement: those before it are done, those after it did nothing, and the offset in the block decides
what can have gone wrong (`Statement.FailsAt`).
-/

namespace LuaLite

/-! ### Blocks -/

/-- The locals that are declared behind a statement. -/
def Layout.behind (y : Layout) : Statement → Layout
  | .declare x _ => y.declare x
  | .call _ _ => y

theorem Layout.pool_behind (y : Layout) (s : Statement) : (y.behind s).pool = y.pool := by
  cases s <;> rfl

theorem Layout.size_foldl_behind (y : Layout) (ss : List Statement) :
    (ss.foldl behind y).locals.size = y.locals.size + ss.countP Statement.isDeclare := by
  induction ss generalizing y with
  | nil => rfl
  | cons s ss ih =>
    rw [List.foldl_cons, ih]
    cases s with
    | declare x e =>
      rw [Statement.countP_declare, behind, size_declare]
      omega
    | call f e => rw [Statement.countP_call, behind]

theorem Layout.pool_foldl_behind (y : Layout) (ss : List Statement) :
    (ss.foldl behind y).pool = y.pool := by
  induction ss generalizing y with
  | nil => rfl
  | cons s ss ih => rw [List.foldl_cons, ih, pool_behind]

namespace Statement

/-- The block of a statement where the locals and the constants are these. -/
inductive Block (y : Layout) : Statement → List Instruction → Prop
  | declare {x : String} {e : Expression} {i : Instruction}
    (hr : y.locals.size + 1 ≤ registerCount) (hi : e.Loads y y.slot i) :
    Block y (.declare x e) [i]
  | call {f : String} {e : Expression} {i j : Instruction}
    (hr : y.locals.size + 2 ≤ registerCount) (hi : (Expression.name f).Loads y y.slot i)
    (hj : e.Loads y (y.slot + 1) j) : Block y (.call f e) [i, j, .call y.slot 1]

/-- The blocks of statements, where the constants are those of all of them. -/
inductive Blocks : Layout → List Statement → List (List Instruction) → Prop
  | nil {y : Layout} : Blocks y [] []
  | cons {y : Layout} {s : Statement} {ss : List Statement} {block : List Instruction}
    {blocks : List (List Instruction)} (h : s.Block y block) (hs : Blocks (y.behind s) ss blocks) :
    Blocks y (s :: ss) (block :: blocks)

variable {y z : Layout} {s : Statement} {ss : List Statement} {code block : List Instruction}
  {blocks : List (List Instruction)}

theorem block_of_assemble (h : s.assemble y = some (block, z)) (hp : y.pool.Valid)
    {q : ConstantPool} (hq : q.Extends z.pool) :
    s.Block ⟨y.locals, q⟩ block ∧ z.locals = (y.behind s).locals := by
  cases s with
  | declare x e =>
    obtain ⟨hr, i, w, he, rfl, rfl⟩ := assemble_declare.mp h
    obtain ⟨hg, hi⟩ := Expression.loads_of_load he
    have hi' := (hi hp).extends hq
    rw [hg.locals] at hi'
    exact ⟨.declare hr hi', hg.locals_declare x⟩
  | call f e =>
    obtain ⟨hr, i, w, j, hf, he, rfl⟩ := assemble_call.mp h
    obtain ⟨hg, hi⟩ := Expression.loads_of_load hf
    obtain ⟨hg', hj⟩ := Expression.loads_of_load he
    have hlocals : z.locals = y.locals := hg'.locals.trans hg.locals
    have hi' := ((hi hp).grows hg').extends hq
    have hj' := (hj (hg.valid hp)).extends hq
    rw [hlocals] at hi' hj'
    exact ⟨.call hr hi' hj', hlocals⟩

theorem blocks_of_assembleAll (h : assembleAll y ss = some (code, z)) (hp : y.pool.Valid) :
    ∃ blocks, Blocks ⟨y.locals, z.pool⟩ ss blocks ∧ code = blocks.flatten := by
  induction ss generalizing y code with
  | nil =>
    cases h
    exact ⟨[], .nil, rfl⟩
  | cons s ss ih =>
    obtain ⟨block, y', code', hs, hss, rfl⟩ := assembleAll_cons.mp h
    obtain ⟨hb, hlocals⟩ := block_of_assemble hs hp (extends_of_assembleAll hss)
    obtain ⟨blocks, hbs, rfl⟩ := ih hss ((grows_of_assemble hs).2 hp)
    refine ⟨block :: blocks, .cons hb ?_, rfl⟩
    rw [hlocals] at hbs
    cases s <;> exact hbs

end Statement

/-! ### Failing instructions -/

/-- What can go wrong in a statement that has `n` locals declared before it, at an instruction with
an offset in its block. -/
inductive Statement.FailsAt (n : Nat) : Statement → Nat → Instruction → RuntimeFault → Prop
  | value {x y : String} {k : UInt8} :
    FailsAt n (.declare x (.name y)) 0 (.getGlobal (UInt8.ofNat n) k) (.undefinedGlobal y)
  | callee {f : String} {e : Expression} {k : UInt8} :
    FailsAt n (.call f e) 0 (.getGlobal (UInt8.ofNat n) k) (.undefinedGlobal f)
  | argument {f y : String} {k : UInt8} :
    FailsAt n (.call f (.name y)) 1 (.getGlobal (UInt8.ofNat n + 1) k) (.undefinedGlobal y)
  | notAFunction {f : String} {e : Expression} {t : ValueType} :
    FailsAt n (.call f e) 2 (.call (UInt8.ofNat n) 1) (.notAFunction (UInt8.ofNat n) t)
  | native {f name : String} {e : Expression} {status : Int32} (hs : status ≠ 0) :
    FailsAt n (.call f e) 2 (.call (UInt8.ofNat n) 1) (.nativeFailure name status)

namespace Expression

variable {y : Layout} {dst : UInt8} {e : Expression} {i : Instruction}

theorem Loads.action_or (h : e.Loads y dst i) (m : Machine) :
    (∃ v, m.action y.pool.values.toList i = .ok (.write dst v)) ∨
    (∃ x k, e = .name x ∧ i = .getGlobal dst k ∧
      m.action y.pool.values.toList i = .error (.undefinedGlobal x)) ∨
    ∃ r, m.action y.pool.values.toList i = .error (.unwrittenRegister r) := by
  cases h with
  | nil => exact .inl ⟨_, Machine.action_loadNil⟩
  | boolean b => exact .inl ⟨_, Machine.action_loadBool⟩
  | small hn => exact .inl ⟨_, Machine.action_loadInt⟩
  | constant hv hk => exact .inl ⟨_, Machine.action_loadConst hk⟩
  | @global x k hx hk =>
    rw [Machine.action_getGlobal hk]
    cases m.globals.get? x with
    | none => exact .inr (.inl ⟨x, k, rfl, rfl, rfl⟩)
    | some v => exact .inl ⟨v, rfl⟩
  | @slot x s hx =>
    rw [Machine.action_move]
    cases m.registers.get? s.toNat with
    | none => exact .inr (.inr ⟨_, rfl⟩)
    | some v => exact .inl ⟨v, rfl⟩

theorem Loads.invocation?_eq_none (h : e.Loads y dst i) (m : Machine) :
    m.invocation? y.pool.values.toList i = none := by
  rw [Machine.invocation?]
  rcases h.action_or m with ⟨v, ha⟩ | ⟨x, k, -, -, ha⟩ | ⟨r, ha⟩ <;> rw [ha]

theorem Loads.fault (h : e.Loads y dst i) {host : Host} {m m' : Machine} {f : RuntimeFault}
    (hs : m.step host y.pool.values.toList i = some (.error f, m'))
    (hf : ∀ r, f ≠ .unwrittenRegister r) :
    ∃ x k, e = .name x ∧ i = .getGlobal dst k ∧ f = .undefinedGlobal x := by
  rcases h.action_or m with ⟨v, ha⟩ | ⟨x, k, he, hi, ha⟩ | ⟨r, ha⟩
  · rw [Machine.step_of_write ha] at hs
    cases hs
  · rw [Machine.step_of_error ha] at hs
    cases hs
    exact ⟨x, k, he, hi, rfl⟩
  · rw [Machine.step_of_error ha] at hs
    cases hs
    exact absurd rfl (hf r)

end Expression

namespace Machine

variable {host : Host} {constants : List Value} {slot : UInt8} {f : RuntimeFault} {m m' : Machine}

theorem action_call_or (m : Machine) (constants : List Value) (slot : UInt8) :
    (∃ g, m.action constants (.call slot 1) = .ok (.invoke slot g)) ∨
    (∃ t, m.action constants (.call slot 1) = .error (.notAFunction slot t)) ∨
    ∃ r, m.action constants (.call slot 1) = .error (.unwrittenRegister r) := by
  rw [action_call]
  cases m.registers.get? slot.toNat with
  | none => exact .inr (.inr ⟨_, rfl⟩)
  | some v =>
    cases v with
    | function g =>
      dsimp only
      split
      · exact .inl ⟨g, rfl⟩
      · exact .inr (.inr ⟨_, rfl⟩)
    | _ => exact .inr (.inl ⟨_, rfl⟩)

theorem fault_of_step_call (hs : m.step host constants (.call slot 1) = some (.error f, m'))
    (hf : ∀ r, f ≠ .unwrittenRegister r) :
    (∃ t, f = .notAFunction slot t) ∨
      ∃ name status, status ≠ 0 ∧ f = .nativeFailure name status := by
  rcases action_call_or m constants slot with ⟨g, ha⟩ | ⟨t, ha⟩ | ⟨r, ha⟩
  · obtain ⟨status, hne, -, rfl⟩ := step_invoke_error ha hs
    exact .inr ⟨g.name, status, hne, rfl⟩
  · rw [step_of_error ha] at hs
    cases hs
    exact .inl ⟨t, rfl⟩
  · rw [step_of_error ha] at hs
    cases hs
    exact absurd rfl (hf r)

theorem length_invocation?_of_step_call
    (hs : m.step host constants (.call slot 1) = some (.ok (), m')) :
    (m.invocation? constants (.call slot 1)).toList.length = 1 := by
  rcases action_call_or m constants slot with ⟨g, ha⟩ | ⟨t, ha⟩ | ⟨r, ha⟩
  · rw [invocation?, ha]
    rfl
  · rw [step_of_error ha] at hs
    cases hs
  · rw [step_of_error ha] at hs
    cases hs

end Machine

/-! ### Failing blocks -/

namespace Statement

variable {y : Layout} {s : Statement} {ss : List Statement} {block : List Instruction}
  {blocks : List (List Instruction)} {host : Host} {m m' m₁ : Machine} {pc n : Nat}

/-- An instruction of a block fails in the way that its offset says. -/
theorem Block.failsAt (h : s.Block y block) (hn : y.locals.size = n)
    {before behind : List Instruction} {i : Instruction} {f : RuntimeFault}
    (hb : block = before ++ i :: behind)
    (hs : m.step host y.pool.values.toList i = some (.error f, m'))
    (hf : ∀ r, f ≠ .unwrittenRegister r) : s.FailsAt n before.length i f := by
  have hslot : y.slot = UInt8.ofNat n := by rw [Layout.slot, hn]
  cases h with
  | declare hr hi =>
    rw [hslot] at hi
    rcases before with _ | ⟨j, before⟩
    · cases hb
      obtain ⟨x, k, rfl, rfl, rfl⟩ := hi.fault hs hf
      exact .value
    · simp at hb
  | call hr hi hj =>
    rw [hslot] at hi hj hb
    rcases before with _ | ⟨_, _ | ⟨_, _ | ⟨_, before⟩⟩⟩
    · cases hb
      obtain ⟨x, k, hx, rfl, rfl⟩ := hi.fault hs hf
      cases hx
      exact .callee
    · cases hb
      obtain ⟨x, k, rfl, rfl, rfl⟩ := hj.fault hs hf
      exact .argument
    · cases hb
      rcases Machine.fault_of_step_call hs hf with ⟨t, rfl⟩ | ⟨name, status, hne, rfl⟩
      · exact .notAFunction
      · exact .native hne
    · simp at hb

/-- A block that comes to its end has made the call of its statement, if that is one. -/
theorem Block.length_invocations (h : s.Block y block)
    (hr : Machine.executeFrom host y.pool.values.toList pc block m = some (.ok (), m₁)) :
    (m.invocations host y.pool.values.toList block).length = [s].countP (!·.isDeclare) := by
  cases h with
  | declare _ hi =>
    obtain ⟨m₂, hs, -⟩ := Machine.exists_step_of_executeFrom_cons hr
    rw [Machine.invocations_cons_ok hs, hi.invocation?_eq_none]
    rfl
  | call _ hi hj =>
    obtain ⟨m₂, hs, hr⟩ := Machine.exists_step_of_executeFrom_cons hr
    obtain ⟨m₃, hs', hr⟩ := Machine.exists_step_of_executeFrom_cons hr
    obtain ⟨m₄, hs'', -⟩ := Machine.exists_step_of_executeFrom_cons hr
    have hc := Machine.length_invocation?_of_step_call hs''
    rw [Machine.invocations_cons_ok hs, Machine.invocations_cons_ok hs',
      Machine.invocations_cons_ok hs'', hi.invocation?_eq_none, hj.invocation?_eq_none]
    simp only [Option.toList_none, List.nil_append, Machine.invocations, List.append_nil, hc]
    rfl

theorem Blocks.length_invocations (h : Blocks y ss blocks)
    (hr : Machine.executeFrom host y.pool.values.toList pc blocks.flatten m = some (.ok (), m₁)) :
    (m.invocations host y.pool.values.toList blocks.flatten).length =
      ss.countP (!·.isDeclare) := by
  induction h generalizing m pc with
  | nil => rfl
  | @cons y s ss block blocks hb hs ih =>
    obtain ⟨m₂, hr₁, hr₂⟩ := Machine.exists_executeFrom_of_append hr
    rw [List.flatten_cons, Machine.invocations_append hr₁, List.length_append,
      hb.length_invocations hr₁]
    rw [Layout.pool_behind] at ih
    rw [ih hr₂, ← List.countP_append, List.singleton_append]

/-- An error comes from one block: those in front of it are executed to their end. -/
theorem Blocks.exists_failing (h : Blocks y ss blocks) {e : RuntimeError}
    (he : Machine.executeFrom host y.pool.values.toList pc blocks.flatten m =
      some (.error e, m')) :
    ∃ before s after codes block codes' m₁, ss = before ++ s :: after ∧
      blocks = codes ++ block :: codes' ∧ Blocks y before codes ∧
      s.Block (before.foldl Layout.behind y) block ∧
      Machine.executeFrom host y.pool.values.toList pc codes.flatten m = some (.ok (), m₁) ∧
      Machine.executeFrom host y.pool.values.toList (pc + codes.flatten.length) block m₁ =
        some (.error e, m') := by
  induction h generalizing m pc with
  | nil => cases he
  | @cons y s ss block blocks hb hs ih =>
    -- The error comes from the first block, unless this is executed to its end.
    by_cases hr : ∃ m₂, Machine.executeFrom host y.pool.values.toList pc block m =
      some (.ok (), m₂)
    · obtain ⟨m₂, hr⟩ := hr
      rw [List.flatten_cons, Machine.executeFrom_append hr] at he
      rw [Layout.pool_behind] at ih
      obtain ⟨before, s', after, codes, block', codes', m₁, rfl, rfl, hbs, hb', hr₁, hr₂⟩ := ih he
      refine ⟨s :: before, s', after, block :: codes, block', codes', m₁, rfl, rfl, .cons hb hbs,
        hb', ?_, ?_⟩
      · rw [List.flatten_cons, Machine.executeFrom_append hr, hr₁]
      · rw [List.flatten_cons, List.length_append, ← Nat.add_assoc, hr₂]
    · have hne := fun m₂ h₂ => hr ⟨m₂, h₂⟩
      rw [List.flatten_cons, Machine.executeFrom_append_of_ne_ok hne] at he
      exact ⟨[], s, ss, [], block, blocks, m, rfl, rfl, .nil, hb, rfl, he⟩

end Statement

/-- The code of a script is made of the blocks of its statements. If executing it fails, and the
functions that it calls leave the registers alone, it fails in one of these blocks. The statements
before are done, calls included; those behind do nothing; and the kind of the fault is one that
there can be at this offset. -/
theorem Chunk.fails_in_block {source : String} {chunk : Chunk} (h : compile source = .ok chunk) :
    ∃ (ss : List Statement) (pool : ConstantPool) (blocks : List (List Instruction)),
      Statement.ReadFrom source ss ∧ pool.values.toList = chunk.constants ∧
      Statement.Blocks ⟨.empty, pool⟩ ss blocks ∧ chunk.code = blocks.flatten ∧
      ∀ (host : Host) (m m' : Machine) (e : RuntimeError),
        Host.KeepsRegisters host (m.reset.invocations host chunk.constants chunk.code) →
        m.execute host chunk = some (.error e, m') →
        ∃ before s after codes block codes' offset m₁, ss = before ++ s :: after ∧
          blocks = codes ++ block :: codes' ∧ Statement.Blocks ⟨.empty, pool⟩ before codes ∧
          e.pc = codes.flatten.length + offset ∧ block[offset]? = some e.instruction ∧
          s.FailsAt (before.countP Statement.isDeclare) offset e.instruction e.fault ∧
          Machine.executeFrom host chunk.constants 0 codes.flatten m.reset = some (.ok (), m₁) ∧
          Machine.executeFrom host chunk.constants codes.flatten.length block m₁ =
            some (.error e, m') ∧
          (m.reset.invocations host chunk.constants codes.flatten).length =
            before.countP (!·.isDeclare) ∧
          m.reset.invocations host chunk.constants chunk.code =
            m.reset.invocations host chunk.constants codes.flatten ++
              m₁.invocations host chunk.constants block := by
  have hsound := Compiler.sound_of_compile h
  obtain ⟨ss, code, z, hss, hc, rfl⟩ := compile_eq_ok_iff.mp h
  obtain ⟨blocks, hbs, rfl⟩ := Statement.blocks_of_assembleAll hc ConstantPool.valid_empty
  refine ⟨ss, z.pool, blocks, hss, rfl, hbs, rfl, fun host m m' e hk he => ?_⟩
  have hf := Machine.ne_unwrittenRegister_of_executeFrom hsound.sound hsound.covered
    (fun _ h => nomatch h) hk he
  obtain ⟨before, s, after, codes, block, codes', m₁, hss, hblocks, hcodes, hb, hr₁, hr₂⟩ :=
    hbs.exists_failing he
  obtain ⟨front, back, m₂, hblock, hpc, -, hs⟩ := Machine.executeFrom_error_iff.mp hr₂
  have hsize : (before.foldl Layout.behind ⟨.empty, z.pool⟩).locals.size =
      before.countP Statement.isDeclare := by
    rw [Layout.size_foldl_behind]
    exact Nat.zero_add _
  have hs' : m₂.step host (before.foldl Layout.behind ⟨.empty, z.pool⟩).pool.values.toList
      e.instruction = some (.error e.fault, m') := by
    rw [Layout.pool_foldl_behind]
    exact hs
  rw [Nat.zero_add] at hr₂ hpc
  refine ⟨before, s, after, codes, block, codes', front.length, m₁, hss, hblocks, hcodes, hpc, ?_,
    hb.failsAt hsize hblock hs' hf, hr₁, hr₂, hcodes.length_invocations hr₁, ?_⟩
  · rw [hblock, List.getElem?_append_right (Nat.le_refl _), Nat.sub_self]
    rfl
  · -- Since the failing block does not come to its end, those behind it make no call.
    have hne : ∀ m₃, Machine.executeFrom host z.pool.values.toList codes.flatten.length block m₁ ≠
        some (.ok (), m₃) := fun m₃ h₃ => nomatch hr₂.symm.trans h₃
    show m.reset.invocations host z.pool.values.toList blocks.flatten = _
    rw [hblocks, List.flatten_append, List.flatten_cons, Machine.invocations_append hr₁,
      Machine.invocations_append_of_ne_ok hne]

/-- The third statement fails at its argument, behind one call. -/
theorem Chunk.fails_in_third_block :
    ∃ (chunk : Chunk) (host : Host) (m m' : Machine) (e : RuntimeError) (before : List Statement)
      (s : Statement) (after : List Statement) (offset : Nat),
      compile "local x = 1 f(x) f(y) f(x)" = .ok chunk ∧
      Host.KeepsRegisters host (m.reset.invocations host chunk.constants chunk.code) ∧
      m.execute host chunk = some (.error e, m') ∧ e.pc = 5 ∧
      Statement.ReadFrom "local x = 1 f(x) f(y) f(x)" (before ++ s :: after) ∧
      s.FailsAt (before.countP Statement.isDeclare) offset e.instruction
        (.undefinedGlobal "y") := by
  obtain ⟨chunk, hchunk⟩ : ∃ chunk : Chunk, chunk =
      ⟨[.string "f", .string "y"],
        [.loadInt 0 1, .getGlobal 1 0, .move 2 0, .call 1 1, .getGlobal 1 0, .getGlobal 2 1,
          .call 1 1, .getGlobal 1 0, .move 2 0, .call 1 1]⟩ := ⟨_, rfl⟩
  have hc : compile "local x = 1 f(x) f(y) f(x)" = .ok chunk := by
    subst hchunk
    exact eq_ok_of_toOption (by decide +kernel)
  have hk : ∀ m : Machine, Host.KeepsRegisters (fun _ m => some (0, m))
      (m.reset.invocations (fun _ m => some (0, m)) chunk.constants chunk.code) := by
    intro m c _ status m' h
    cases h
    rfl
  have he : ∃ m', (Machine.new ⟨[("f", .function ⟨"f", 0⟩)]⟩ none).execute
      (fun _ m => some (0, m)) chunk =
      some (.error ⟨5, .getGlobal 2 1, .undefinedGlobal "y"⟩, m') := by
    subst hchunk
    exact ⟨_, rfl⟩
  obtain ⟨m', he⟩ := he
  obtain ⟨ss, pool, blocks, hss, -, -, -, hrun⟩ := fails_in_block hc
  obtain ⟨before, s, after, -, -, -, offset, -, rfl, -, -, -, -, hf, -⟩ :=
    hrun _ _ m' _ (hk _) he
  exact ⟨chunk, _, _, m', _, before, s, after, offset, hc, hk _, he, rfl, hss, hf⟩

end LuaLite
