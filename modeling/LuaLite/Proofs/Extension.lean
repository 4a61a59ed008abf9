import LuaLite.Proofs.Execution
import LuaLite.Proofs.Locality
import LuaLite.Proofs.Soundness
import LuaLite.Script

/-!
# Extending a script

More statements behind a script, on a new line, change nothing of what the script was compiled to or
does (`compile_extended`). The tokens of the script are read as before (`Lexer.Reads.extend`), the
statements begin with its statements (`Statement.ListSpelled.split`), and their code begins with its
code. Since constants keep their places, that code is executed as before (`executeFrom_constants`).
-/

namespace LuaLite

/-! ### Reading -/

namespace Lexer.Reads

variable {l k k' : Lexer} {ts us : List Token}

theorem extend (h : l.Reads ts k) (s : List Char) : ∃ k', (l.extend s).Reads ts k' := by
  induction h with
  | nil l => exact ⟨_, .nil _⟩
  | @cons l m k t ts hn hs ih =>
    have hne : l.next.1 ≠ .ok none := by rw [hn]; nofun
    rcases next_extend hne s with hn' | ⟨hm, hn'⟩ <;> rw [hn] at hn'
    · obtain ⟨k', hk'⟩ := ih
      exact ⟨k', .cons hn' hk'⟩
    · -- Behind a comment that ends the source there are no more tokens.
      cases hs with
      | nil => exact ⟨_, .single hn'⟩
      | cons hn₂ _ =>
        have := length_of_next_token hn₂
        rw [show m.rest = [] by rw [← hm, hn]] at this
        exact absurd this (Nat.not_lt_zero _)

theorem prefix_of_end (h : l.Reads ts k) (h' : l.Reads us k') (he : k'.next.1 = .ok none) :
    ∃ vs, us = ts ++ vs := by
  induction h generalizing us with
  | nil l => exact ⟨us, rfl⟩
  | cons hn _ ih =>
    cases h' with
    | nil =>
      rw [hn] at he
      cases he
    | cons hn' hs' =>
      rw [hn] at hn'
      cases hn'
      obtain ⟨vs, rfl⟩ := ih hs'
      exact ⟨vs, rfl⟩

end Lexer.Reads

theorem Statement.ListSpelled.split {ss ss' : List Statement} {ts us : List Token}
    (h : ListSpelled ss ts) (h' : ListSpelled ss' (ts ++ us)) : ∃ ss₂, ss' = ss ++ ss₂ := by
  induction h generalizing ss' with
  | nil => exact ⟨ss', rfl⟩
  | comment text _ ih =>
    generalize hts : Token.comment text :: _ ++ us = ts at h'
    cases h' with
    | nil => cases hts
    | comment _ h' =>
      cases hts
      exact ih h'
    | cons hs => cases hs <;> simp at hts
  | @cons s ss ws ts hs _ ih =>
    generalize hts : ws ++ ts ++ us = ts' at h'
    rw [List.append_assoc] at hts
    cases h' with
    | nil => cases hs <;> simp at hts
    | comment => cases hs <;> simp at hts
    | cons hs' h' =>
      obtain ⟨rfl, rfl⟩ := hs.unique hs' hts
      obtain ⟨ss₂, rfl⟩ := ih h'
      exact ⟨ss₂, rfl⟩

theorem Statement.ReadFrom.extended {s₁ s₂ : String} {ss₁ ss : List Statement}
    (h₁ : ReadFrom s₁ ss₁) (h : ReadFrom (s₁ ++ "\n" ++ s₂) ss) : ∃ ss₂, ss = ss₁ ++ ss₂ := by
  obtain ⟨ts₁, ht₁, hs₁⟩ := h₁
  obtain ⟨ts, ht, hs⟩ := h
  obtain ⟨k₁, hr₁, -⟩ := Lexer.all_eq_ok_iff.mp ht₁
  obtain ⟨k, hr, he⟩ := Lexer.all_eq_ok_iff.mp ht
  rw [Lexer.ofSource_newline] at hr
  obtain ⟨k', hr'⟩ := hr₁.extend s₂.toList
  obtain ⟨us, rfl⟩ := hr'.prefix_of_end hr he
  exact hs₁.split hs

theorem Statement.assembleAll_append {y z : Layout} {ss₁ ss₂ : List Statement}
    {code : List Instruction} :
    assembleAll y (ss₁ ++ ss₂) = some (code, z) ↔ ∃ code₁ w code₂,
      assembleAll y ss₁ = some (code₁, w) ∧ assembleAll w ss₂ = some (code₂, z) ∧
        code = code₁ ++ code₂ := by
  induction ss₁ generalizing y code with
  | nil =>
    constructor
    · intro h
      exact ⟨[], y, code, rfl, h, rfl⟩
    · rintro ⟨code₁, w, code₂, h₁, h₂, rfl⟩
      cases h₁
      exact h₂
  | cons s ss₁ ih =>
    rw [List.cons_append, assembleAll_cons]
    constructor
    · rintro ⟨block, y', code', hs, hss, rfl⟩
      obtain ⟨code₁, w, code₂, h₁, h₂, rfl⟩ := ih.mp hss
      exact ⟨block ++ code₁, w, code₂, assembleAll_cons.mpr ⟨block, y', code₁, hs, h₁, rfl⟩, h₂,
        (List.append_assoc ..).symm⟩
    · rintro ⟨code₁, w, code₂, h₁, h₂, rfl⟩
      obtain ⟨block, y', code', hs, hss, rfl⟩ := assembleAll_cons.mp h₁
      exact ⟨block, y', code' ++ code₂, hs, ih.mpr ⟨code', w, code₂, hss, h₂, rfl⟩,
        List.append_assoc ..⟩

/-! ### Execution with more constants -/

namespace Machine

variable {host : Host} {constants constants' : List Value} {code : List Instruction} {m : Machine}

theorem action_constants {i : Instruction} (hi : i.Sound constants)
    (hc : constants <+: constants') : m.action constants' i = m.action constants i := by
  have keep : ∀ (n : Nat) v, constants[n]? = some v → constants'[n]? = some v := by
    intro n v hv
    obtain ⟨more, rfl⟩ := hc
    rw [List.getElem?_append_left (List.getElem?_eq_some_iff.mp hv).1, hv]
  cases hi with
  | loadNil d => rw [action_loadNil, action_loadNil]
  | loadBool d b => rw [action_loadBool, action_loadBool]
  | loadInt d n => rw [action_loadInt, action_loadInt]
  | loadConst d h => rw [action_loadConst h, action_loadConst (keep _ _ h)]
  | getGlobal d h => rw [action_getGlobal h, action_getGlobal (keep _ _ h)]
  | move d s => rw [action_move, action_move]
  | call s => rw [action_call, action_call]

theorem executeFrom_constants (hs : ∀ i ∈ code, i.Sound constants) (hc : constants <+: constants')
    (host : Host) (m : Machine) (pc : Nat) :
    executeFrom host constants' pc code m = executeFrom host constants pc code m ∧
      m.invocations host constants' code = m.invocations host constants code := by
  induction code generalizing m pc with
  | nil => exact ⟨rfl, rfl⟩
  | cons i code ih =>
    have ha := action_constants (m := m) (hs i List.mem_cons_self) hc
    have hstep : m.step host constants' i = m.step host constants i := by rw [step, step, ha]
    have hrest := fun m' => ih (fun j hj => hs j (List.mem_cons_of_mem i hj)) m' (pc + 1)
    rw [executeFrom, executeFrom, invocations, invocations, invocation?, invocation?, ha, hstep]
    rcases m.step host constants i with _ | ⟨f | u, m'⟩
    · exact ⟨rfl, rfl⟩
    · exact ⟨rfl, rfl⟩
    · exact ⟨(hrest m').1, congrArg _ (hrest m').2⟩

variable {c₁ c : Chunk} {behind : List Instruction} {m₁ : Machine}

/-- Unless the shorter chunk's code comes to its end, the longer one's goes no further. -/
theorem execute_extended_of_ne_ok (hs : c₁.Sound) (hc : c₁.constants <+: c.constants)
    (hcode : c.code = c₁.code ++ behind) (h : ∀ m₁, m.execute host c₁ ≠ some (.ok (), m₁)) :
    m.execute host c = m.execute host c₁ ∧ m.reset.invocations host c.constants c.code =
      m.reset.invocations host c₁.constants c₁.code := by
  obtain ⟨hex, hinv⟩ := executeFrom_constants hs.sound hc host m.reset 0
  simp only [execute] at h ⊢
  rw [← hex] at h ⊢
  rw [hcode, executeFrom_append_of_ne_ok h, invocations_append_of_ne_ok h, hinv]
  exact ⟨rfl, rfl⟩

/-- Where the shorter chunk's code comes to its end, the longer one's goes on. -/
theorem execute_extended_of_ok (hs : c₁.Sound) (hc : c₁.constants <+: c.constants)
    (hcode : c.code = c₁.code ++ behind) (h : m.execute host c₁ = some (.ok (), m₁)) :
    m.execute host c = executeFrom host c.constants c₁.code.length behind m₁ ∧
      m.reset.invocations host c.constants c.code =
        m.reset.invocations host c₁.constants c₁.code ++
          m₁.invocations host c.constants behind := by
  obtain ⟨hex, hinv⟩ := executeFrom_constants hs.sound hc host m.reset 0
  simp only [execute] at h ⊢
  rw [← hex] at h
  rw [hcode, executeFrom_append h, invocations_append h, hinv, Nat.zero_add]
  exact ⟨rfl, rfl⟩

end Machine

/-- A script that goes on behind a line feed is compiled to a chunk that begins as the script's
does. Executing that chunk begins with executing the script's: if this fails, or never ends, so does
the longer one; if it succeeds, the longer one goes on from there, and keeps what was written. -/
theorem compile_extended {s₁ s₂ : String} {c₁ c : Chunk} (h₁ : compile s₁ = .ok c₁)
    (h : compile (s₁ ++ "\n" ++ s₂) = .ok c) :
    c₁.constants <+: c.constants ∧ c₁.code <+: c.code ∧
    ∀ (host : Host) (m : Machine),
      (∀ e m', m.execute host c₁ = some (.error e, m') →
        m.execute host c = some (.error e, m') ∧
        m.reset.invocations host c.constants c.code =
          m.reset.invocations host c₁.constants c₁.code) ∧
      (m.execute host c₁ = none → m.execute host c = none) ∧
      ∀ m₁, m.execute host c₁ = some (.ok (), m₁) →
        m.execute host c = Machine.executeFrom host c.constants c₁.code.length
          (c.code.drop c₁.code.length) m₁ ∧
        m.reset.invocations host c₁.constants c₁.code <+:
          m.reset.invocations host c.constants c.code ∧
        (host.Appends → ∀ outcome m', m.execute host c = some (outcome, m') →
          m₁.output.taken.toList <+: m'.output.taken.toList) := by
  have hs := Compiler.sound_of_compile h₁
  obtain ⟨ss₁, code₁, w, hss₁, ha₁, rfl⟩ := compile_eq_ok_iff.mp h₁
  obtain ⟨ss, code, z, hss, ha, rfl⟩ := compile_eq_ok_iff.mp h
  obtain ⟨ss₂, rfl⟩ := hss₁.extended hss
  obtain ⟨code₁', w', behind, ha₁', ha₂, rfl⟩ := Statement.assembleAll_append.mp ha
  rw [ha₁] at ha₁'
  cases ha₁'
  have hc : w.pool.values.toList <+: z.pool.values.toList := Statement.extends_of_assembleAll ha₂
  have hcode : (⟨z.pool.values.toList, code₁ ++ behind⟩ : Chunk).code =
      (⟨w.pool.values.toList, code₁⟩ : Chunk).code ++ behind := rfl
  refine ⟨hc, List.prefix_append _ _, fun host m => ⟨fun e m' he => ?_, fun hn => ?_, ?_⟩⟩
  · obtain ⟨hx, hinv⟩ := Machine.execute_extended_of_ne_ok hs hc hcode
      (fun m₁ hm => nomatch he.symm.trans hm)
    exact ⟨hx.trans he, hinv⟩
  · obtain ⟨hx, -⟩ := Machine.execute_extended_of_ne_ok hs hc hcode
      (fun m₁ hm => nomatch hn.symm.trans hm)
    exact hx.trans hn
  · intro m₁ hok
    obtain ⟨hx, hinv⟩ := Machine.execute_extended_of_ok hs hc hcode hok
    refine ⟨by rw [hx, List.drop_left], hinv ▸ List.prefix_append _ _, fun hh outcome m' hm => ?_⟩
    rw [hx] at hm
    exact Machine.executeFrom_appends hh hm

/-- The script prints a line, and what is added fails at an undefined global. -/
theorem compile_extended_undefined :
    ∃ (c₁ c : Chunk) (m₁ m' : Machine) (e : RuntimeError),
      compile "print 'a' -- b" = .ok c₁ ∧
      compile ("print 'a' -- b" ++ "\n" ++ "print(b)") = .ok c ∧
      c₁.constants <+: c.constants ∧ c₁.code <+: c.code ∧
      Script.machine.execute Script.host c₁ = some (.ok (), m₁) ∧
      Script.machine.execute Script.host c = some (.error e, m') ∧
      e.pc = 4 ∧ e.fault = .undefinedGlobal "b" ∧
      m₁.output.taken.toList <+: m'.output.taken.toList := by
  obtain ⟨c₁, hc₁⟩ : ∃ c₁ : Chunk, c₁ = ⟨[.string "print", .string "a"],
      [.getGlobal 0 0, .loadConst 1 1, .call 0 1]⟩ := ⟨_, rfl⟩
  obtain ⟨c, hc⟩ : ∃ c : Chunk, c = ⟨[.string "print", .string "a", .string "b"],
      [.getGlobal 0 0, .loadConst 1 1, .call 0 1, .getGlobal 0 0, .getGlobal 1 2, .call 0 1]⟩ :=
    ⟨_, rfl⟩
  have h₁ : compile "print 'a' -- b" = .ok c₁ := by
    subst hc₁
    exact eq_ok_of_toOption (by decide +kernel)
  have h : compile ("print 'a' -- b" ++ "\n" ++ "print(b)") = .ok c := by
    subst hc
    exact eq_ok_of_toOption (by decide +kernel)
  have hr₁ : ∃ m₁, Script.machine.execute Script.host c₁ = some (.ok (), m₁) := by
    subst hc₁
    exact ⟨_, rfl⟩
  have hr : ∃ m', Script.machine.execute Script.host c =
      some (.error ⟨4, .getGlobal 1 2, .undefinedGlobal "b"⟩, m') := by
    subst hc
    exact ⟨_, rfl⟩
  obtain ⟨m₁, hr₁⟩ := hr₁
  obtain ⟨m', hr⟩ := hr
  obtain ⟨hk, hcode, hrun⟩ := compile_extended h₁ h
  obtain ⟨-, -, hok⟩ := hrun Script.host Script.machine
  obtain ⟨-, -, hout⟩ := hok m₁ hr₁
  exact ⟨c₁, c, m₁, m', _, h₁, h, hk, hcode, hr₁, hr, rfl, rfl,
    hout (Native.appends_host _) _ _ hr⟩

end LuaLite
