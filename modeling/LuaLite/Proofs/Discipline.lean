import LuaLite.Proofs.Recovery
import LuaLite.Proofs.Soundness

/-!
# Which registers the compiler writes

A statement writes the register above the locals, and a call the next one for its argument
(`Instruction.Spares`). So whatever follows a declaration leaves its register as it is, however many
calls of `Compiler.parse` it takes and however they end (`Compiler.Disciplined`).

What a statement leaves does not show whether it has declared its name before or behind what it has
emitted. So a statement is taken apart: `Compiler.emitting` is all of it but the declaration at its
end (`Compiler.statement_eq_bind`). The statements that calls of `parse` begin are listed as turns,
each with the compiler in front of it (`Compiler.turns`).
-/

namespace LuaLite

/-- Above so many locals the instructions of a statement, whose first token is `head`, write the next
register only, and the one above that for the argument of a call, which comes second. They copy from
the locals only. -/
structure Instruction.Spares (locals : Nat) (head : Token) (block : List Instruction) : Prop where
  writes : ∀ n i r, block[n]? = some i → r ∈ i.writes →
    r = locals ∨ r = locals + 1 ∧ locals + 2 ≤ registerCount ∧ n = 1 ∧ ∃ f, head = .name f
  moves : ∀ i ∈ block, i.opcode? = some .move → i.b.toNat < locals

namespace Instruction

variable {locals : Nat} {head : Token} {block : List Instruction} {i : Instruction}

namespace Spares

theorem nil : Spares locals head [] where
  writes _ _ _ h := by cases h
  moves _ h := nomatch h

theorem snoc (h : Spares locals head block)
    (hw : ∀ r ∈ i.writes, r = locals ∨ r = locals + 1 ∧ locals + 2 ≤ registerCount ∧
      block.length = 1 ∧ ∃ f, head = .name f)
    (hm : i.opcode? = some .move → i.b.toNat < locals) : Spares locals head (block ++ [i]) where
  writes n j r hj hr := by
    rcases Nat.lt_or_ge n block.length with hn | hn
    · rw [List.getElem?_append_left hn] at hj
      exact h.writes n j r hj hr
    · rw [List.getElem?_append_right hn, List.getElem?_singleton] at hj
      split at hj
      · cases hj
        obtain rfl : n = block.length := by omega
        exact hw r hr
      · cases hj
  moves j hj := by
    rcases List.mem_append.mp hj with hj | hj
    · exact h.moves j hj
    · rw [List.mem_singleton.mp hj]
      exact hm

theorem le_of_mem_writes (h : Spares locals head block) (hi : i ∈ block) {r : Nat}
    (hr : r ∈ i.writes) : locals ≤ r := by
  obtain ⟨n, hn⟩ := List.getElem?_of_mem hi
  rcases h.writes n i r hn hr with rfl | ⟨rfl, -⟩
  · exact Nat.le_refl _
  · exact Nat.le_succ _

end Spares

end Instruction

/-! ### Blocks -/

namespace Layout

variable {y y' z : Layout} {dst : UInt8} {e : Expression} {i j : Instruction} {f : String}
  {block : List Instruction} {l : Lexer} {t : Token}

theorem Valid.loads (h : y.Valid) (hi : e.load y dst = some (i, z)) :
    z.Valid ∧ z.locals = y.locals ∧ i.writes = [dst.toNat] ∧
      (i.opcode? = some .move → i.b.toNat < y.locals.size) := by
  obtain ⟨hg, hl⟩ := Expression.loads_of_load hi
  have hz := h.grows hg
  have hl := hl h.pool
  refine ⟨hz, hg.locals, hl.writes, fun hm => ?_⟩
  have hb : i.b.toNat ∈ i.reads := by
    rw [Instruction.reads, hm]
    exact List.mem_singleton_self _
  have hlt := hl.lt_of_mem_reads hz.locals hb
  rwa [hg.locals] at hlt

theorem Valid.spares_load (h : y.Valid) (hr : y.locals.size + 1 ≤ registerCount)
    (hi : e.load y y.slot = some (i, z)) (head : Token) :
    Instruction.Spares y.locals.size head [i] := by
  obtain ⟨-, -, hw, hm⟩ := h.loads hi
  rw [toNat_slot hr] at hw
  refine Instruction.Spares.nil.snoc (fun r hr => .inl ?_) hm
  rw [hw] at hr
  exact List.mem_singleton.mp hr

theorem Valid.spares_argument (h : y.Valid) (hr : y.locals.size + 2 ≤ registerCount)
    (hi : Expression.load y y.slot (.name f) = some (i, y'))
    (hj : e.load y' (y.slot + 1) = some (j, z)) :
    Instruction.Spares y.locals.size (.name f) [i, j] := by
  obtain ⟨hy', hl, -, -⟩ := h.loads hi
  obtain ⟨-, -, hw, hm⟩ := hy'.loads hj
  rw [toNat_slot_add_one hr] at hw
  rw [hl] at hm
  refine (h.spares_load (Nat.le_of_succ_le hr) hi (.name f)).snoc (fun r hr' => .inr ?_) hm
  rw [hw] at hr'
  exact ⟨List.mem_singleton.mp hr', hr, rfl, f, rfl⟩

theorem Begun.spares (h : y.Begun l t block z) (hy : y.Valid) :
    Instruction.Spares y.locals.size t block := by
  cases h with
  | nothing => exact .nil
  | callee hr hf => exact hy.spares_load (Nat.le_of_succ_le hr) hf _
  | argument hr hf he hl hj => exact hy.spares_argument hr hf hj

end Layout

namespace Statement

variable {y z : Layout} {s : Statement} {t : Token} {us : List Token} {block : List Instruction}

theorem spares_of_assemble (h : s.assemble y = some (block, z)) (hs : s.Spelled (t :: us))
    (hy : y.Valid) : Instruction.Spares y.locals.size t block := by
  have call : ∀ {f e}, (Statement.call f e).assemble y = some (block, z) →
      Instruction.Spares y.locals.size (.name f) block := by
    intro f e h
    obtain ⟨hr, i, y', j, hf, hj, rfl⟩ := assemble_call.mp h
    -- The call itself writes nothing.
    refine (hy.spares_argument hr hf hj).snoc (fun r hr => ?_) fun hm => ?_
    · rw [Instruction.writes_call] at hr
      cases hr
    · cases hm
  cases hs with
  | declare x he =>
    obtain ⟨hr, i, y', hi, rfl, rfl⟩ := assemble_declare.mp h
    exact hy.spares_load hr hi _
  | callString f text => exact call h
  | call f he => exact call h

end Statement

/-! ### Statements -/

namespace Compiler

/-- All of a statement but the declaration that it ends with. It returns what is to be declared. -/
def emitting : Token → Compile (Option (String × UInt8))
  | .keyword .local_ => do
    let name ← reading Lexer.expectName
    let _ ← reading (Lexer.expect (.symbol .assign))
    let slot ← freeRegister 1
    expression slot
    return some (name, slot)
  | t => do
    statement t
    return none

def declaring : Option (String × UInt8) → Compile Unit
  | some (name, slot) => modify fun c => { c with locals := c.locals.add name slot }
  | none => return

theorem statement_eq_bind (t : Token) : statement t = emitting t >>= declaring := by
  unfold emitting
  split
  · simp only [bind_assoc, pure_bind]
    rfl
  · simp only [bind_assoc, pure_bind, declaring, bind_pure_unit]

/-- A statement that the compiler begins: its first token, and the compiler behind that. -/
structure Turn where
  head : Token
  start : Compiler

namespace Turn

/-- The compiler behind all that the statement emits, and what is declared then. -/
def emitted (m : Turn) : Except CompileError (Option (String × UInt8)) × Compiler :=
  m.start.after (emitting m.head)

def stop (m : Turn) : Compiler := m.emitted.2

/-- The instructions that the statement emits. -/
def block (m : Turn) : List Instruction := m.stop.code.toList.drop m.start.code.size

/-- The name that the statement declares, if it gets so far. -/
def declared (m : Turn) : List String :=
  match m.emitted.1 with
  | .ok (some (name, _)) => [name]
  | _ => []

/-- The statement begins with the locals `declared`. It has these as long as it emits instructions,
and the instructions spare them. -/
structure Disciplined (declared : List String) (m : Turn) : Prop where
  start : m.start.locals.toList = declared
  stop : m.stop.locals = m.start.locals
  code : m.stop.code.toList = m.start.code.toList ++ m.block
  spares : Instruction.Spares declared.length m.head m.block

/-- Each statement begins with the locals `declared` and those that the ones before it declare. -/
def AllDisciplined (declared : List String) : List Turn → Prop
  | [] => True
  | m :: ms => m.Disciplined declared ∧ AllDisciplined (declared ++ m.declared) ms

theorem allDisciplined_append {names : List String} {ms ms' : List Turn} :
    AllDisciplined names (ms ++ ms') ↔
      AllDisciplined names ms ∧ AllDisciplined (names ++ ms.flatMap declared) ms' := by
  induction ms generalizing names with
  | nil => simp [AllDisciplined]
  | cons m ms ih =>
    rw [List.cons_append, AllDisciplined, AllDisciplined, ih, List.flatMap_cons, and_assoc,
      List.append_assoc]

end Turn

variable {c c' : Compiler} {l : Lexer} {t : Token}

theorem locals_after_bind {α β : Type} {m : Compile α} {f : α → Compile β}
    (hm : (c.after m).2.locals = c.locals)
    (hf : ∀ a c, (after c (f a)).2.locals = c.locals) :
    (c.after (m >>= f)).2.locals = c.locals := by
  rw [after_bind]
  split
  · rename_i a c' h
    rw [h] at hm
    exact (hf a c').trans hm
  · rename_i e c' h
    rw [h] at hm
    exact hm

theorem locals_after_expression (c : Compiler) (dst : UInt8) :
    (c.after (expression dst)).2.locals = c.locals := by
  rcases expression_cases c dst with ⟨f, l, h⟩ | ⟨e, us, l, i, y, -, -, hi, h⟩
  · rw [h]
    rfl
  · rw [h]
    exact (Expression.loads_of_load hi).1.locals

theorem locals_after_emitting (c : Compiler) (t : Token) :
    (c.after (emitting t)).2.locals = c.locals := by
  unfold emitting
  split
  · refine locals_after_bind rfl fun name c => ?_
    refine locals_after_bind rfl fun _ c => ?_
    refine locals_after_bind (by rw [after_freeRegister]) fun slot c => ?_
    exact locals_after_bind (locals_after_expression c slot) fun _ _ => rfl
  · rename_i ht
    refine locals_after_bind ?_ fun _ _ => rfl
    rcases statement_cases c t with
      ⟨f, l, block, y, hb, h⟩ | ⟨text, rfl, h⟩ | ⟨s, us, l, block, y, hs, hr, hb, h⟩
    · rw [h]
      exact hb.grows.locals
    · rw [h]
    · rw [h]
      cases hs with
      | declare x he => exact absurd rfl ht
      | callString f text => exact (Statement.grows_of_assemble_call hb).locals
      | call f he => exact (Statement.grows_of_assemble_call hb).locals

namespace Turn

variable {m : Turn}

/-- A statement that fails has failed before it declares anything. -/
theorem emitted_of_error {e : CompileError}
    (h : m.start.after (statement m.head) = (.error e, c')) : m.emitted = (.error e, c') := by
  rw [statement_eq_bind, after_bind] at h
  split at h
  · rename_i o d ho
    cases o <;> cases h
  · rename_i e' d he
    cases h
    exact he

theorem emitted_of_ok (h : m.start.after (statement m.head) = (.ok (), c')) :
    ∃ o, m.emitted = (.ok o, m.stop) ∧ m.stop.after (declaring o) = (.ok (), c') := by
  rw [statement_eq_bind, after_bind] at h
  split at h
  · rename_i o d ho
    have hd : d = m.stop := by rw [stop, emitted, ho]
    exact ⟨o, hd ▸ ho, hd ▸ h⟩
  · cases h

theorem after_statement (m : Turn) :
    (m.start.after (statement m.head)).2.code = m.stop.code ∧
      (m.start.after (statement m.head)).2.locals.toList =
        m.start.locals.toList ++ m.declared := by
  have hl : m.stop.locals = m.start.locals := locals_after_emitting m.start m.head
  rcases h : m.start.after (statement m.head) with ⟨e | u, c'⟩
  · have he := emitted_of_error h
    have hs : m.stop = c' := by rw [stop, he]
    rw [declared, he, List.append_nil, ← hl, hs]
    exact ⟨rfl, rfl⟩
  · obtain ⟨o, ho, hc⟩ := emitted_of_ok h
    rw [declared, ho]
    cases o with
    | none =>
      cases hc
      exact ⟨rfl, by rw [hl, List.append_nil]⟩
    | some d =>
      cases hc
      exact ⟨rfl, by rw [LocalTable.toList_add, hl]⟩

theorem exists_spares (hv : m.start.layout.Valid) :
    ∃ block, (m.start.after (statement m.head)).2.code.toList = m.start.code.toList ++ block ∧
      Instruction.Spares m.start.locals.size m.head block ∧
      (m.start.after (statement m.head)).2.layout.Valid := by
  rcases statement_cases m.start m.head with
    ⟨f, l, block, y, hb, h⟩ | ⟨text, ht, h⟩ | ⟨s, us, l, block, y, hs, hr, hb, h⟩
  · rw [h]
    exact ⟨block, code_forward .., hb.spares hv, hv.grows hb.grows⟩
  · rw [h]
    exact ⟨[], (List.append_nil _).symm, .nil, hv⟩
  · rw [h]
    exact ⟨block, code_forward .., Statement.spares_of_assemble hb hs hv,
      Statement.valid_of_assemble hb hv⟩

/-- One step: whether it fails or not, a statement spares the locals that it begins with, and leaves
its instructions and the name that it declares. -/
theorem step (hv : m.start.layout.Valid) :
    m.Disciplined m.start.locals.toList ∧
      (m.start.after (statement m.head)).2.layout.Valid ∧
      (m.start.after (statement m.head)).2.code.toList = m.start.code.toList ++ m.block ∧
      (m.start.after (statement m.head)).2.locals.toList =
        m.start.locals.toList ++ m.declared := by
  obtain ⟨block, hc, hs, hv'⟩ := exists_spares hv
  obtain ⟨hstop, hl⟩ := after_statement m
  have hb : m.block = block := by
    rw [Turn.block, ← hstop, hc, ← Array.length_toList, List.drop_left]
  rw [← hb] at hc hs
  rw [← LocalTable.length_toList] at hs
  exact ⟨⟨rfl, locals_after_emitting m.start m.head, hstop ▸ hc, hs⟩, hv', hc, hl⟩

end Turn

/-! ### Calls -/

/-- The statements that a call of `parse` begins, in order. -/
def turns (c : Compiler) : List Turn :=
  match _h : c.lexer.next with
  | (.ok (some t), l) =>
    ⟨t, { c with lexer := l }⟩ ::
      match _hs : ({ c with lexer := l } : Compiler).after (statement t) with
      | (.ok (), c') => turns c'
      | (.error _, _) => []
  | _ => []
termination_by c.lexer.rest.length
decreasing_by
  have hl := Lexer.length_of_next_token _h
  have hk := Keeps.statement t { c with lexer := l }
  rw [_hs] at hk
  exact Nat.lt_of_le_of_lt hk hl

/-- The statements that so many calls of `parse` begin, one call after the other. -/
def history (c : Compiler) (k : Nat) : List Turn :=
  (List.range k).flatMap fun j => (c.behind j).turns

theorem turns_of_error {e : LexError} (h : c.lexer.next = (.error e, l)) : c.turns = [] := by
  rw [turns]
  split <;> simp_all

theorem turns_of_none (h : c.lexer.next = (.ok none, l)) : c.turns = [] := by
  rw [turns]
  split <;> simp_all

theorem turns_of_token (h : c.lexer.next = (.ok (some t), l)) :
    c.turns = ⟨t, c.forward l [] c.layout⟩ ::
      match (c.forward l [] c.layout).after (statement t) with
      | (.ok (), c') => c'.turns
      | (.error _, _) => [] := by
  rw [turns, forward_nil]
  split
  · rename_i t' l' hn
    rw [h] at hn
    cases hn
    congr 1
    split <;> simp_all
  · rename_i hn
    exact absurd h (hn t l)

theorem history_succ (c : Compiler) (k : Nat) :
    c.history (k + 1) = c.history k ++ (c.behind k).turns := by
  rw [history, history, List.range_succ, List.flatMap_append, List.flatMap_singleton]

/-- How a call ends that emits `code`: it returns that with what was there before, or fails and keeps
it. -/
def Emits (c : Compiler) (code : List Instruction) : Prop :=
  (∃ constants, c.parse.1 = .ok ⟨constants, c.code.toList ++ code⟩) ∨
    (∃ e, c.parse.1 = .error e) ∧ c.parse.2.code.toList = c.code.toList ++ code

/-- One call: its statements spare the locals that there are, and emit and declare all that it emits
and declares. -/
theorem disciplined_parse (h : c.layout.Valid) :
    Turn.AllDisciplined c.locals.toList c.turns ∧ c.Emits (c.turns.flatMap Turn.block) ∧
      c.parse.2.locals.toList = c.locals.toList ++ c.turns.flatMap Turn.declared := by
  induction c using parse.induct with
  | case1 c e l hn =>
    rw [Emits, turns_of_error hn, parse_of_error hn, code_forward]
    exact ⟨trivial, .inr ⟨⟨_, rfl⟩, rfl⟩, (List.append_nil _).symm⟩
  | case2 c l hn =>
    rw [Emits, turns_of_none hn, parse_of_none hn, List.flatMap_nil, List.append_nil]
    exact ⟨trivial, .inl ⟨_, rfl⟩, (List.append_nil _).symm⟩
  | case3 c t l hn e c' hs =>
    rw [← forward_nil] at hs
    have hm := Turn.step (m := ⟨t, c.forward l [] c.layout⟩) h
    rw [Emits, turns_of_token hn, parse_of_token hn]
    rw [hs, code_forward, List.append_nil] at hm
    rw [hs]
    obtain ⟨hm, -, hc, hl⟩ := hm
    rw [List.flatMap_singleton, List.flatMap_singleton]
    exact ⟨⟨hm, trivial⟩, .inr ⟨⟨e, rfl⟩, hc⟩, hl⟩
  | case4 c t l hn c' hs ih =>
    -- The rest of the call goes on with the locals that this statement leaves.
    rw [← forward_nil] at hs
    have hm := Turn.step (m := ⟨t, c.forward l [] c.layout⟩) h
    have hp := parse_of_token hn
    rw [hs, code_forward, List.append_nil] at hm
    rw [hs] at hp
    obtain ⟨hm, hv, hc, hl⟩ := hm
    obtain ⟨hms, hc', hl'⟩ := ih hv
    rw [Emits, turns_of_token hn, hp, hs, List.flatMap_cons, List.flatMap_cons,
      ← List.append_assoc, ← List.append_assoc]
    rw [Emits, hc] at hc'
    rw [hl] at hms hl'
    exact ⟨⟨hm, hms⟩, hc', hl'⟩

/-! ### Call after call -/

/-- So many calls: the locals are the names that their statements declare, and each statement spares
those before it. -/
theorem disciplined_history (h : c.layout.Valid) (k : Nat) :
    Turn.AllDisciplined c.locals.toList (c.history k) ∧
      (c.behind k).locals.toList = c.locals.toList ++ (c.history k).flatMap Turn.declared := by
  induction k with
  | zero => exact ⟨trivial, (List.append_nil _).symm⟩
  | succ k ih =>
    obtain ⟨hms, hl⟩ := ih
    obtain ⟨hms', -, hl'⟩ := disciplined_parse (valid_behind h k)
    rw [history_succ, behind, List.flatMap_append, ← List.append_assoc, ← hl]
    refine ⟨Turn.allDisciplined_append.mpr ⟨hms, ?_⟩, hl'⟩
    rwa [← hl]

/-- A compiler and the statements that have led to it. There are no more locals than registers; the
table finds exactly their names, each at its last place; and they are the names that the statements
declare. A statement spares the locals declared before it, and the statements behind it spare those
that it declares too. -/
structure Disciplined (c : Compiler) (ms : List Turn) : Prop where
  size_le : c.locals.size ≤ registerCount
  slot?_eq_some_iff : ∀ x s, c.locals.slot? x = some s ↔
    c.locals.toList[s.toNat]? = some x ∧ ∀ j, s.toNat < j → c.locals.toList[j]? ≠ some x
  isSome_slot?_iff : ∀ x, (c.locals.slot? x).isSome ↔ x ∈ c.locals.toList
  locals : c.locals.toList = ms.flatMap Turn.declared
  turn : ∀ before m after, ms = before ++ m :: after →
    m.Disciplined (before.flatMap Turn.declared)
  behind : ∀ before m after, ms = before ++ m :: after → ∀ m' ∈ after, ∀ i ∈ m'.block,
    ∀ r ∈ i.writes, ((before ++ [m]).flatMap Turn.declared).length ≤ r

/-- Registers are used with discipline in all that the compiler does, on any source and in any number
of calls, whether they fail or not. -/
theorem disciplined_behind (source : String) (k : Nat) :
    ((ofSource source).behind k).Disciplined ((ofSource source).history k) ∧
      ((ofSource source).behind k).Emits
        (((ofSource source).behind k).turns.flatMap Turn.block) := by
  obtain ⟨hms, hl⟩ := disciplined_history (c := ofSource source) Layout.valid_empty k
  have hv := valid_behind (c := ofSource source) Layout.valid_empty k
  obtain ⟨-, he, -⟩ := disciplined_parse hv
  have hturn : ∀ before m after, (ofSource source).history k = before ++ m :: after →
      m.Disciplined (before.flatMap Turn.declared) := by
    intro before m after hk
    rw [hk] at hms
    exact (Turn.allDisciplined_append.mp hms).2.1
  refine ⟨⟨hv.locals.size_le, fun x s => hv.locals.slot?_eq_some_iff,
    fun x => hv.locals.isSome_slot?_iff, hl, hturn, ?_⟩, he⟩
  intro before m after hk m' hm' i hi r hr
  obtain ⟨between, rest, rfl⟩ := List.append_of_mem hm'
  have hk' : (ofSource source).history k = (before ++ m :: between) ++ m' :: rest := by
    rw [hk, List.append_assoc, List.cons_append]
  have hle := (hturn _ m' rest hk').spares.le_of_mem_writes hi hr
  refine Nat.le_trans ?_ hle
  simp only [List.flatMap_append, List.flatMap_cons, List.length_append, List.flatMap_nil,
    List.append_nil]
  omega

-- The first call fails at `=`, where the function of a call is loaded; the second declares `a` again.
example : ((ofSource "local a = 1 f(= local a = a").history 3).map (fun m => (m.declared, m.block)) =
    [(["a"], [.loadInt 0 1]), ([], [.getGlobal 1 0]), (["a"], [.move 1 0])] := by
  decide +kernel

end Compiler

end LuaLite
