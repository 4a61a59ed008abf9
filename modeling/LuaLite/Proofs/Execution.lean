import LuaLite.Machine.Natives
import LuaLite.Statement.Meaning

/-!
# Executing code piece by piece

Code that is put together is executed one piece after the other (`executeFrom_append`), and an error
stems from one instruction: those in front of it succeed, and those behind it do nothing
(`executeFrom_error_iff`). What functions do to the globals and the output, executing code does to
them (`executeFrom_along`): if functions only ever add to the output, so does code
(`executeFrom_appends`). The functions of this library do (`Native.appends_host`).
-/

namespace LuaLite

/-- What a machine and the functions that it calls share but for the registers. -/
def Machine.shared (m : Machine) : Globals × Sink := (m.globals, m.output)

/-- Calls that return take the machine from something to something that `R` relates to it. -/
def Host.Along (R : Globals × Sink → Globals × Sink → Prop) (host : Host) : Prop :=
  ∀ f m status m', host f m = some (status, m') → R m.shared m'.shared

/-- Calls that return keep what was written before them. -/
def Host.Appends (host : Host) : Prop :=
  ∀ f m status m', host f m = some (status, m') → m.output.taken.toList <+: m'.output.taken.toList

namespace Machine

variable {host : Host} {constants : List Value} {i : Instruction}
  {code before behind : List Instruction} {m m' m₁ : Machine} {pc : Nat} {e : RuntimeError}
  {f : RuntimeFault} {outcome : Except RuntimeError Unit}

theorem step_of_error (ha : m.action constants i = .error f) :
    m.step host constants i = some (.error f, m) := by
  rw [step, ha]

theorem step_of_write {slot : UInt8} {v : Value} (ha : m.action constants i = .ok (.write slot v)) :
    m.step host constants i =
      some (.ok (), { m with registers := m.registers.set slot.toNat v }) := by
  rw [step, ha]
  rfl

theorem step_of_invoke {slot : UInt8} {g : NativeFunction}
    (ha : m.action constants i = .ok (.invoke slot g)) :
    m.step host constants i = (host g (m.enter slot)).map fun (status, m') =>
      (if status = 0 then .ok () else .error (.nativeFailure g.name status), m') := by
  rw [step, ha]
  rfl

theorem step_invoke_error {slot : UInt8} {g : NativeFunction}
    (ha : m.action constants i = .ok (.invoke slot g))
    (hs : m.step host constants i = some (.error f, m')) :
    ∃ status, status ≠ 0 ∧ host g (m.enter slot) = some (status, m') ∧
      f = .nativeFailure g.name status := by
  rw [step_of_invoke ha] at hs
  obtain ⟨⟨status, m₁⟩, hc, hs⟩ := Option.map_eq_some_iff.mp hs
  dsimp only at hs
  split at hs
  · cases hs
  · rename_i hne
    cases hs
    exact ⟨status, hne, hc, rfl⟩

theorem executeFrom_cons_ok (h : m.step host constants i = some (.ok (), m₁)) :
    executeFrom host constants pc (i :: code) m = executeFrom host constants (pc + 1) code m₁ := by
  rw [executeFrom, h]

theorem executeFrom_cons_error (h : m.step host constants i = some (.error f, m₁)) :
    executeFrom host constants pc (i :: code) m = some (.error ⟨pc, i, f⟩, m₁) := by
  rw [executeFrom, h]

theorem executeFrom_cons_none (h : m.step host constants i = none) :
    executeFrom host constants pc (i :: code) m = none := by
  rw [executeFrom, h]

theorem exists_step_of_executeFrom_cons
    (h : executeFrom host constants pc (i :: code) m = some (.ok (), m')) :
    ∃ m₁, m.step host constants i = some (.ok (), m₁) ∧
      executeFrom host constants (pc + 1) code m₁ = some (.ok (), m') := by
  rcases hs : m.step host constants i with _ | ⟨f | u, m₁⟩
  · rw [executeFrom_cons_none hs] at h
    cases h
  · rw [executeFrom_cons_error hs] at h
    cases h
  · rw [executeFrom_cons_ok hs] at h
    exact ⟨m₁, rfl, h⟩

theorem executeFrom_append (h : executeFrom host constants pc before m = some (.ok (), m₁)) :
    executeFrom host constants pc (before ++ behind) m =
      executeFrom host constants (pc + before.length) behind m₁ := by
  induction before generalizing m pc with
  | nil =>
    cases h
    rfl
  | cons i before ih =>
    rw [List.cons_append, List.length_cons]
    rcases hs : m.step host constants i with _ | ⟨f | u, m₂⟩
    · rw [executeFrom_cons_none hs] at h
      cases h
    · rw [executeFrom_cons_error hs] at h
      cases h
    · rw [executeFrom_cons_ok hs] at h ⊢
      rw [ih h]
      congr 1
      omega

theorem executeFrom_append_of_ne_ok
    (h : ∀ m₁, executeFrom host constants pc before m ≠ some (.ok (), m₁)) :
    executeFrom host constants pc (before ++ behind) m =
      executeFrom host constants pc before m := by
  induction before generalizing m pc with
  | nil => exact absurd rfl (h m)
  | cons i before ih =>
    rw [List.cons_append]
    rcases hs : m.step host constants i with _ | ⟨f | u, m₂⟩
    · rw [executeFrom_cons_none hs, executeFrom_cons_none hs]
    · rw [executeFrom_cons_error hs, executeFrom_cons_error hs]
    · rw [executeFrom_cons_ok hs, executeFrom_cons_ok hs]
      refine ih fun m₁ h₁ => h m₁ ?_
      rw [executeFrom_cons_ok hs, h₁]

theorem exists_executeFrom_of_append
    (h : executeFrom host constants pc (before ++ behind) m = some (.ok (), m')) :
    ∃ m₁, executeFrom host constants pc before m = some (.ok (), m₁) ∧
      executeFrom host constants (pc + before.length) behind m₁ = some (.ok (), m') := by
  by_cases hb : ∃ m₁, executeFrom host constants pc before m = some (.ok (), m₁)
  · obtain ⟨m₁, hb⟩ := hb
    exact ⟨m₁, hb, by rw [← executeFrom_append hb, h]⟩
  · have hne := fun m₁ h₁ => hb ⟨m₁, h₁⟩
    rw [executeFrom_append_of_ne_ok hne] at h
    exact absurd h (hne m')

/-- An error is one instruction's: those in front of it succeed, and it then fails. -/
theorem executeFrom_error_iff :
    executeFrom host constants pc code m = some (.error e, m') ↔
      ∃ before behind m₁, code = before ++ e.instruction :: behind ∧ e.pc = pc + before.length ∧
        executeFrom host constants pc before m = some (.ok (), m₁) ∧
        m₁.step host constants e.instruction = some (.error e.fault, m') := by
  constructor
  · intro h
    induction code generalizing m pc with
    | nil => cases h
    | cons i code ih =>
      rcases hs : m.step host constants i with _ | ⟨f | u, m₂⟩
      · rw [executeFrom_cons_none hs] at h
        cases h
      · rw [executeFrom_cons_error hs] at h
        cases h
        exact ⟨[], code, m, rfl, rfl, rfl, hs⟩
      · rw [executeFrom_cons_ok hs] at h
        obtain ⟨before, behind, m₁, rfl, hpc, hb, hf⟩ := ih h
        refine ⟨i :: before, behind, m₁, rfl, ?_, by rw [executeFrom_cons_ok hs, hb], hf⟩
        rw [hpc, List.length_cons]
        omega
  · rintro ⟨before, behind, m₁, rfl, hpc, hb, hf⟩
    rw [executeFrom_append hb, executeFrom_cons_error hf, ← hpc]

/-! ### Calls -/

theorem invocations_cons_ok (h : m.step host constants i = some (.ok (), m₁)) :
    m.invocations host constants (i :: code) =
      (m.invocation? constants i).toList ++ m₁.invocations host constants code := by
  rw [invocations, h]

theorem invocations_append (h : executeFrom host constants pc before m = some (.ok (), m₁)) :
    m.invocations host constants (before ++ behind) =
      m.invocations host constants before ++ m₁.invocations host constants behind := by
  induction before generalizing m pc with
  | nil =>
    cases h
    rfl
  | cons i before ih =>
    rcases hs : m.step host constants i with _ | ⟨f | u, m₂⟩
    · rw [executeFrom_cons_none hs] at h
      cases h
    · rw [executeFrom_cons_error hs] at h
      cases h
    · rw [executeFrom_cons_ok hs] at h
      rw [List.cons_append, invocations_cons_ok hs, invocations_cons_ok hs, ih h,
        List.append_assoc]

theorem invocations_append_of_ne_ok
    (h : ∀ m₁, executeFrom host constants pc before m ≠ some (.ok (), m₁)) :
    m.invocations host constants (before ++ behind) = m.invocations host constants before := by
  induction before generalizing m pc with
  | nil => exact absurd rfl (h m)
  | cons i before ih =>
    rw [List.cons_append, invocations, invocations]
    rcases hs : m.step host constants i with _ | ⟨f | u, m₂⟩
    · rfl
    · rfl
    · have hb : ∀ m₁, executeFrom host constants (pc + 1) before m₂ ≠ some (.ok (), m₁) := by
        intro m₁ h₁
        exact h m₁ (by rw [executeFrom_cons_ok hs, h₁])
      exact congrArg _ (ih hb)

/-! ### What calls do to the machine -/

section Along

variable {R : Globals × Sink → Globals × Sink → Prop}

theorem step_along (hrefl : ∀ a, R a a) (hh : host.Along R) {r : Except RuntimeFault Unit}
    (h : m.step host constants i = some (r, m')) : R m.shared m'.shared := by
  rw [step] at h
  split at h
  · rename_i a _
    cases a with
    | write slot v =>
      cases h
      exact hrefl _
    | invoke slot g =>
      obtain ⟨⟨status, m₁⟩, hc, h⟩ := Option.map_eq_some_iff.mp h
      cases h
      exact hh g (m.enter slot) status m' hc
  · cases h
    exact hrefl _

theorem executeFrom_along (hrefl : ∀ a, R a a) (htrans : ∀ a b c, R a b → R b c → R a c)
    (hh : host.Along R) (h : executeFrom host constants pc code m = some (outcome, m')) :
    R m.shared m'.shared := by
  induction code generalizing m pc with
  | nil =>
    cases h
    exact hrefl _
  | cons i code ih =>
    rcases hs : m.step host constants i with _ | ⟨f | u, m₂⟩
    · rw [executeFrom_cons_none hs] at h
      cases h
    · rw [executeFrom_cons_error hs] at h
      cases h
      exact step_along hrefl hh hs
    · rw [executeFrom_cons_ok hs] at h
      exact htrans _ _ _ (step_along hrefl hh hs) (ih h)

end Along

theorem executeFrom_appends (hh : host.Appends)
    (h : executeFrom host constants pc code m = some (outcome, m')) :
    m.output.taken.toList <+: m'.output.taken.toList :=
  executeFrom_along (R := fun a b => a.2.taken.toList <+: b.2.taken.toList)
    (fun _ => List.prefix_refl _) (fun _ _ _ => List.IsPrefix.trans) hh h

end Machine

namespace Native

/-- The functions of this library go along all that writing a line goes along. -/
theorem hostTo_along {R : Globals × Sink → Globals × Sink → Prop} (hrefl : ∀ a, R a a)
    (htrans : ∀ a b c, R a b → R b c → R a c)
    (hwrite : ∀ m text failure, R m.shared (writeLine m text failure).2.shared)
    (natives : Array Native) (depth : Nat) : (hostTo natives depth).Along R := by
  induction depth with
  | zero => intro f m status m' h; cases h
  | succ depth ih =>
    intro f m status m' h
    rw [hostTo] at h
    dsimp only at h
    split at h
    · cases h
      exact hrefl _
    · rw [Option.some.injEq, printArgument] at h
      split at h
      · rename_i v _
        have hw := hwrite m v.text 1
        rwa [h] at hw
      · cases h
        exact hrefl _
    · cases h
      exact hrefl _
    · cases h
      exact hwrite m _ 9
    · obtain ⟨⟨outcome, m₁⟩, hc, h⟩ := Option.map_eq_some_iff.mp h
      cases h
      have hr : R m.reset.shared m₁.shared := Machine.executeFrom_along hrefl htrans ih hc
      exact htrans _ _ _ hr (hwrite m₁ _ 9)

theorem appends_host (natives : Array Native) : (host natives).Appends :=
  fun f m => hostTo_along (R := fun a b => a.2.taken.toList <+: b.2.taken.toList)
    (fun _ => List.prefix_refl _) (fun _ _ _ => List.IsPrefix.trans)
    (fun m _ _ => m.output.taken_prefix_write _) natives _ f m

end Native

end LuaLite
