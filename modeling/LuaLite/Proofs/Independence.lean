import LuaLite.Proofs.Execution
import LuaLite.Proofs.Reading
import LuaLite.Script

/-!
# Runs do not influence each other

What is run on a machine does not depend on what was run on it before: it ends in the same way,
leaves the same registers and writes the same as on a new machine with the same globals
(`Task.run_behind`).

All that earlier runs leave behind, once a run has reset the registers, is what they wrote and the
number of calls. `Machine.following` puts such a past in front of a machine, and a host that
`Forgets` does the same with and without it. So does a step (`step_following`), and so does an
execution, which begins as on a new machine (`execute_eq`).
-/

namespace LuaLite

/-- What functions and instructions leave as it is. -/
structure Kept (a b : Globals × Sink) : Prop where
  globals : b.1 = a.1
  limit : b.2.limit = a.2.limit

theorem Kept.refl (a : Globals × Sink) : Kept a a := ⟨rfl, rfl⟩

theorem Kept.trans {a b c : Globals × Sink} (h : Kept a b) (h' : Kept b c) : Kept a c :=
  ⟨h'.globals.trans h.globals, h'.limit.trans h.limit⟩

namespace Machine

abbrev Keeps (m m' : Machine) : Prop := Kept m.shared m'.shared

/-- The machine `m` with what `p` has written and called in front. -/
def following (m p : Machine) : Machine :=
  { m with
    output := ⟨p.output.taken ++ m.output.taken, m.output.limit⟩
    calls := p.calls + m.calls }

theorem following_following (m p q : Machine) :
    (m.following p).following q = m.following (p.following q) := by
  simp [following, Nat.add_assoc]

end Machine

/-- Where output has no limit, calls do not see what was written and called before; and they change
neither the globals nor the limit. -/
structure Host.Forgets (host : Host) : Prop where
  following : ∀ f m p, m.output.limit = none →
    host f (m.following p) = (host f m).map fun r => (r.1, r.2.following p)
  keeps : host.Along Kept

namespace Machine

variable {host : Host} {constants : List Value} {i : Instruction} {code : List Instruction}
  {m m' : Machine} {pc : Nat} {r : Except RuntimeFault Unit} {outcome : Except RuntimeError Unit}

theorem step_keeps (hh : host.Forgets) (h : m.step host constants i = some (r, m')) :
    m.Keeps m' :=
  step_along Kept.refl hh.keeps h

theorem step_following (hh : host.Forgets) (hm : m.output.limit = none) (p : Machine) :
    (m.following p).step host constants i =
      (m.step host constants i).map fun r => (r.1, r.2.following p) := by
  have ha : (m.following p).action constants i = m.action constants i := rfl
  rw [step, step, ha]
  cases m.action constants i with
  | error f => rfl
  | ok a =>
    cases a with
    | write slot v => rfl
    | invoke slot g =>
      have he : (m.following p).enter slot = (m.enter slot).following p := by
        simp [enter, following, Nat.add_assoc]
      have hc := hh.following g (m.enter slot) p hm
      dsimp only [perform]
      rw [he, hc, Option.map_map, Option.map_map]
      rfl

theorem executeFrom_following (hh : host.Forgets) (hm : m.output.limit = none) (p : Machine) :
    executeFrom host constants pc code (m.following p) =
      (executeFrom host constants pc code m).map fun r => (r.1, r.2.following p) := by
  induction code generalizing m pc with
  | nil => rfl
  | cons i code ih =>
    have hp : (m.following p).step host constants i = _ := step_following hh hm p
    rcases hs : m.step host constants i with _ | ⟨f | u, m₁⟩ <;> rw [hs] at hp
    · rw [executeFrom_cons_none hs, executeFrom_cons_none hp]
      rfl
    · rw [executeFrom_cons_error hs, executeFrom_cons_error hp]
      rfl
    · have hm₁ : m₁.output.limit = none := (step_keeps hh hs).limit.trans hm
      rw [executeFrom_cons_ok hs, executeFrom_cons_ok hp, ih hm₁]

theorem execute_eq (hh : host.Forgets) (hm : m.output.limit = none) (chunk : Chunk) :
    m.execute host chunk =
      ((new m.globals none).execute host chunk).map fun r => (r.1, r.2.following m) := by
  have hr : m.reset = (new m.globals none).reset.following m := by
    obtain ⟨globals, registers, funcIndex, ⟨taken, limit⟩, calls⟩ := m
    cases hm
    simp [reset, new, following, Sink.empty]
  rw [execute, hr]
  exact executeFrom_following hh rfl m

theorem execute_keeps (hh : host.Forgets) {chunk : Chunk}
    (h : m.execute host chunk = some (outcome, m')) : m.Keeps m' := by
  have hk : m.reset.Keeps m' := executeFrom_along Kept.refl (fun _ _ _ => Kept.trans) hh.keeps h
  exact hk

end Machine

/-! ### The functions of this library -/

namespace Native

variable {m : Machine}

theorem writeLine_following (hm : m.output.limit = none) (p : Machine) (text : String)
    (failure : Int32) :
    writeLine (m.following p) text failure =
      ((writeLine m text failure).1, (writeLine m text failure).2.following p) := by
  have hp : (m.following p).output.limit = none := hm
  simp only [writeLine, Sink.writeLine, Sink.write_of_limit_eq_none hm,
    Sink.write_of_limit_eq_none hp]
  simp [Machine.following]

theorem printArgument_following (hm : m.output.limit = none) (p : Machine) :
    printArgument (m.following p) = ((printArgument m).1, (printArgument m).2.following p) := by
  have ha : (m.following p).argument = m.argument := rfl
  rw [printArgument, printArgument, ha]
  cases m.argument with
  | ok v => exact writeLine_following hm p _ 1
  | error e => rfl

theorem hostTo_keeps (natives : Array Native) (depth : Nat) : (hostTo natives depth).Along Kept :=
  hostTo_along Kept.refl (fun _ _ _ => Kept.trans) (fun _ _ _ => ⟨rfl, rfl⟩) natives depth

theorem hostTo_forgets (natives : Array Native) (depth : Nat) :
    (hostTo natives depth).Forgets := by
  induction depth with
  | zero => exact ⟨fun _ _ _ _ => rfl, hostTo_keeps natives 0⟩
  | succ depth ih =>
    refine ⟨fun f m p hm => ?_, hostTo_keeps natives (depth + 1)⟩
    rw [hostTo]
    dsimp only
    split
    · rfl
    · rw [printArgument_following hm]
      rfl
    · rfl
    · have ht : traceText f (m.following p) = traceText f m := rfl
      rw [ht, writeLine_following hm]
      rfl
    · rename_i chunk _
      have hp : (m.following p).output.limit = none := hm
      have hg : (m.following p).globals = m.globals := rfl
      rw [Machine.execute_eq ih hp, Machine.execute_eq ih hm, hg, Option.map_map, Option.map_map,
        Option.map_map]
      rcases hx : (Machine.new m.globals none).execute (hostTo natives depth) chunk with
        _ | ⟨outcome, m₁⟩
      · rfl
      · have hl : (m₁.following m).output.limit = none := (Machine.execute_keeps ih hx).limit
        simp only [Option.map_some, Function.comp_apply]
        rw [← Machine.following_following, writeLine_following hl]

/-- How deep calls may be nested depends on the output only where it has a limit. -/
theorem host_forgets (natives : Array Native) : (host natives).Forgets := by
  constructor
  · intro f m p hm
    have hd : depth natives (m.following p).output = depth natives m.output := by
      have hp : (m.following p).output.limit = none := hm
      rw [depth, depth, hp, hm]
    rw [host, host, hd]
    exact (hostTo_forgets natives _).following f m p hm
  · intro f m
    exact hostTo_keeps natives _ f m

end Native

/-! ### One run after the other -/

/-- What is run on a machine. -/
inductive Task where
  | script (source : String)
  | chunk (chunk : Chunk)

namespace Task

def compile : Task → Except CompileError Chunk
  | .script source => LuaLite.compile source
  | .chunk c => .ok c

def run (host : Host) (m : Machine) : Task → Option (Except ScriptError Unit × Machine)
  | .script source => Script.run host source m
  | .chunk c => c.run host m

/-- The machine behind tasks that are run one after the other, however they fail, if each of them
comes to an end. -/
def runAll (host : Host) (m : Machine) : List Task → Option Machine
  | [] => some m
  | t :: ts => (t.run host m).bind fun r => runAll host r.2 ts

variable {host : Host} {m m' : Machine} {t : Task} {ts : List Task} {chunk : Chunk}
  {r : Except ScriptError Unit}

theorem run_of_ok (h : t.compile = .ok chunk) (host : Host) (m : Machine) :
    t.run host m = chunk.run host m := by
  cases t with
  | script source => exact Script.run_of_compile h m
  | chunk c =>
    cases h
    rfl

theorem run_of_error {e : CompileError} (h : t.compile = .error e) (host : Host) (m : Machine) :
    t.run host m = some (.error (.compile e), m) := by
  cases t with
  | script source => exact Script.run_of_compile_error h m
  | chunk c => cases h

theorem run_keeps (hh : host.Forgets) (h : t.run host m = some (r, m')) : m.Keeps m' := by
  cases hc : t.compile with
  | error e =>
    rw [run_of_error hc] at h
    cases h
    exact .refl _
  | ok chunk =>
    rw [run_of_ok hc] at h
    obtain ⟨⟨outcome, m₁⟩, he, h⟩ := Option.map_eq_some_iff.mp h
    cases h
    exact Machine.execute_keeps hh he

theorem runAll_keeps (hh : host.Forgets) (h : runAll host m ts = some m') : m.Keeps m' := by
  induction ts generalizing m with
  | nil =>
    cases h
    exact .refl _
  | cons t ts ih =>
    obtain ⟨⟨r, m₁⟩, hr, hts⟩ := Option.bind_eq_some_iff.mp h
    exact (run_keeps hh hr).trans (ih hts)

theorem run_eq (hh : host.Forgets) (hm : m.output.limit = none) (h : t.compile = .ok chunk) :
    t.run host m = (t.run host (.new m.globals none)).map fun r => (r.1, r.2.following m) := by
  rw [run_of_ok h, run_of_ok h, Chunk.run, Chunk.run, Machine.execute_eq hh hm, Option.map_map,
    Option.map_map]
  rfl

/-- Whatever was run on a machine before and however it ended, the globals are those that the
machine began with. A task that does not compile changes nothing. Any other task ends as it does on
a new machine with these globals, or like there does not end; it leaves the same registers, and
writes the same behind what was written before. -/
theorem run_behind {natives : Array Native} {globals : Globals}
    (h : runAll (Native.host natives) (.new globals none) ts = some m) (t : Task) :
    m.globals = globals ∧
    (∀ e, t.compile = .error e → t.run (Native.host natives) m = some (.error (.compile e), m)) ∧
    ∀ chunk, t.compile = .ok chunk → ∀ r m', t.run (Native.host natives) m = some (r, m') ↔
      ∃ m₁, t.run (Native.host natives) (.new globals none) = some (r, m₁) ∧
        m'.globals = globals ∧ m'.registers = m₁.registers ∧ m'.funcIndex = m₁.funcIndex ∧
        m'.output = ⟨m.output.taken ++ m₁.output.taken, none⟩ ∧ m'.calls = m.calls + m₁.calls := by
  have hh := Native.host_forgets natives
  have hk := runAll_keeps hh h
  have hlimit : m.output.limit = none := hk.limit
  have hglobals : m.globals = globals := hk.globals
  refine ⟨hglobals, fun e he => run_of_error he _ m, fun chunk hc r m' => ?_⟩
  have following : ∀ m₁, t.run (Native.host natives) (.new globals none) = some (r, m₁) →
      m₁.following m = ⟨globals, m₁.registers, m₁.funcIndex,
        ⟨m.output.taken ++ m₁.output.taken, none⟩, m.calls + m₁.calls⟩ := by
    intro m₁ hr
    have hk₁ := run_keeps hh hr
    rw [Machine.following, show m₁.globals = globals from hk₁.globals,
      show m₁.output.limit = none from hk₁.limit]
  rw [run_eq hh hlimit hc, hglobals, Option.map_eq_some_iff]
  constructor
  · rintro ⟨⟨r, m₁⟩, hr, he⟩
    cases he
    refine ⟨m₁, hr, ?_⟩
    rw [following m₁ hr]
    exact ⟨rfl, rfl, rfl, rfl, rfl⟩
  · rintro ⟨m₁, hr, hg, hreg, hf, ho, hcalls⟩
    refine ⟨(r, m₁), hr, ?_⟩
    rw [following m₁ hr, ← hg, ← hreg, ← hf, ← ho, ← hcalls]

/-- The script that fails leaves its registers, but the chunk behind it finds none written. -/
theorem run_behind_failed :
    ∃ (natives : Array Native) (globals : Globals) (m m' : Machine),
      natives = #[.print, .status 3] ∧
      globals = Globals.standard.insert "fail" (.function ⟨"fail", 1⟩) ∧
      runAll (Native.host natives) (.new globals none)
        [.script "local a = 'x' print(a) fail(a)", .script "print("] = some m ∧
      m.registers.get? 0 = some (.string "x") ∧ m.output.taken = #[120, 10] ∧
      (Task.chunk ⟨[], [.move 1 0]⟩).run (Native.host natives) m =
        some (.error (.runtime ⟨0, .move 1 0, .unwrittenRegister 0⟩), m') ∧
      m'.globals = globals ∧ m'.output.taken = #[120, 10] := by
  obtain ⟨natives, hnatives⟩ : ∃ natives : Array Native, natives = #[.print, .status 3] := ⟨_, rfl⟩
  obtain ⟨globals, hglobals⟩ : ∃ globals : Globals,
    globals = Globals.standard.insert "fail" (.function ⟨"fail", 1⟩) := ⟨_, rfl⟩
  obtain ⟨chunk, hchunk⟩ : ∃ chunk : Chunk, chunk =
      ⟨[.string "x", .string "print", .string "fail"],
        [.loadConst 0 0, .getGlobal 1 1, .move 2 0, .call 1 1, .getGlobal 1 2, .move 2 0,
          .call 1 1]⟩ := ⟨_, rfl⟩
  have hc : (Task.script "local a = 'x' print(a) fail(a)").compile = .ok chunk := by
    subst hchunk
    exact eq_ok_of_toOption (by decide +kernel)
  have he : ∃ e, (Task.script "print(").compile = .error e := by
    cases hp : (Task.script "print(").compile with
    | error e => exact ⟨e, rfl⟩
    | ok c =>
      have hn : (Task.script "print(").compile.toOption = none := by decide +kernel
      rw [hp] at hn
      cases hn
  obtain ⟨e, he⟩ := he
  obtain ⟨m, hrun, hreg, htaken⟩ : ∃ m, chunk.run (Native.host natives) (.new globals none) =
      some (.error (.runtime ⟨6, .call 1 1, .nativeFailure "fail" 3⟩), m) ∧
        m.registers.get? 0 = some (.string "x") ∧ m.output.taken = #[120, 10] := by
    subst hchunk hnatives hglobals
    exact ⟨_, rfl, rfl, by decide +kernel⟩
  have hall : runAll (Native.host natives) (.new globals none)
      [.script "local a = 'x' print(a) fail(a)", .script "print("] = some m := by
    simp only [runAll, run_of_ok hc, hrun, Option.bind_some, run_of_error he]
  have halone : (Task.chunk ⟨[], [.move 1 0]⟩).run (Native.host natives) (.new globals none) =
      some (.error (.runtime ⟨0, .move 1 0, .unwrittenRegister 0⟩), .new globals none) := rfl
  have hbehind := (run_behind hall (.chunk ⟨[], [.move 1 0]⟩)).2.2 _ rfl
    (.error (.runtime ⟨0, .move 1 0, .unwrittenRegister 0⟩))
    ⟨globals, .empty, 0, ⟨m.output.taken, none⟩, m.calls⟩
  exact ⟨natives, globals, m, _, hnatives, hglobals, hall, hreg, htaken,
    hbehind.mpr ⟨_, halone, rfl, rfl, rfl, by simp [Machine.new, Sink.empty], rfl⟩, rfl, htaken⟩

end Task

end LuaLite
