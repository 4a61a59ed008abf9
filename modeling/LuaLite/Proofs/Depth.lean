import LuaLite.Proofs.Independence
import Mathlib.Data.Finset.Card

/-!
# How deep calls are nested

A call of a function of the library returns with the depth of `Native.depth` if it returns with any
depth, where output has no limit (`Native.host_eq_some_iff`).

With one more level the functions return that return with one less, and perhaps more of them. Which
do depends on their identity and the globals only, so at some level there is none more, and then
there is none at any deeper level (`Native.exists_settled`).
-/

namespace LuaLite

/-- Where `host` returns on a machine with the globals and the limit of `m₀`, `host'` returns the
same. -/
def Host.Below (m₀ : Machine) (host host' : Host) : Prop :=
  ∀ f m r, m₀.Keeps m → host f m = some r → host' f m = some r

theorem Host.Below.trans {m₀ : Machine} {host host' host'' : Host} (h : host.Below m₀ host')
    (h' : host'.Below m₀ host'') : host.Below m₀ host'' :=
  fun f m r hm hr => h' f m r hm (h f m r hm hr)

namespace Machine

variable {host host' : Host} {m₀ m m' : Machine} {constants : List Value} {code : List Instruction}
  {pc : Nat}

theorem step_below (h : host.Below m₀ host') (hm : m₀.Keeps m) {i : Instruction}
    {r : Except RuntimeFault Unit} (hs : m.step host constants i = some (r, m')) :
    m.step host' constants i = some (r, m') := by
  rw [step] at hs ⊢
  cases ha : m.action constants i with
  | error f => rwa [ha] at hs
  | ok a =>
    rw [ha] at hs
    cases a with
    | write slot v => exact hs
    | invoke slot g =>
      obtain ⟨r₁, hr₁, he⟩ := Option.map_eq_some_iff.mp hs
      have hr₂ := h g (m.enter slot) r₁ ⟨hm.globals, hm.limit⟩ hr₁
      exact Option.map_eq_some_iff.mpr ⟨r₁, hr₂, he⟩

theorem executeFrom_below (hh : host.Forgets) (h : host.Below m₀ host') (hm : m₀.Keeps m)
    {r : Except RuntimeError Unit} (he : executeFrom host constants pc code m = some (r, m')) :
    executeFrom host' constants pc code m = some (r, m') := by
  induction code generalizing m pc with
  | nil => exact he
  | cons i code ih =>
    rcases hs : m.step host constants i with _ | ⟨f | u, m₁⟩
    · rw [executeFrom_cons_none hs] at he
      cases he
    · rw [executeFrom_cons_error hs] at he
      rw [executeFrom_cons_error (step_below h hm hs), he]
    · rw [executeFrom_cons_ok hs] at he
      rw [executeFrom_cons_ok (step_below h hm hs)]
      exact ih (hm.trans (step_keeps hh hs)) he

theorem execute_below (hh : host.Forgets) (h : host.Below m₀ host') (hm : m₀.Keeps m)
    {chunk : Chunk} {r : Except RuntimeError Unit} (he : m.execute host chunk = some (r, m')) :
    m.execute host' chunk = some (r, m') :=
  executeFrom_below hh h (m := m.reset) ⟨hm.globals, hm.limit⟩ he

end Machine

namespace Native

variable {natives : Array Native} {m₀ m m' : Machine} {f f' : NativeFunction} {a b d : Nat}

theorem below_succ (h : (hostTo natives a).Below m₀ (hostTo natives b)) :
    (hostTo natives (a + 1)).Below m₀ (hostTo natives (b + 1)) := by
  intro f m r hm hr
  unfold hostTo at hr ⊢
  split at hr
  · exact hr
  · exact hr
  · exact hr
  · exact hr
  · obtain ⟨⟨outcome, m₁⟩, he, hr⟩ := Option.map_eq_some_iff.mp hr
    have he' := Machine.execute_below (hostTo_forgets natives a) h hm he
    exact Option.map_eq_some_iff.mpr ⟨_, he', hr⟩

theorem below_of_le (h : a ≤ b) : (hostTo natives a).Below m₀ (hostTo natives b) := by
  induction a generalizing b with
  | zero => exact fun _ _ _ _ hr => nomatch hr
  | succ a ih =>
    obtain ⟨b, rfl⟩ : ∃ k, b = k + 1 := ⟨b - 1, by omega⟩
    exact below_succ (ih (by omega))

/-- Where nothing more returns with one more level, nothing more returns with any. -/
theorem below_of_settled (h : (hostTo natives (d + 1)).Below m₀ (hostTo natives d)) (n : Nat) :
    (hostTo natives n).Below m₀ (hostTo natives d) := by
  induction n with
  | zero => exact below_of_le (Nat.zero_le d)
  | succ n ih => exact (below_succ ih).trans h

theorem isSome_hostTo (hm₀ : m₀.output.limit = none) (hm : m₀.Keeps m) (hm' : m₀.Keeps m')
    (hf : f.id = f'.id) (h : (hostTo natives d f m).isSome) : (hostTo natives d f' m').isSome := by
  cases d with
  | zero => cases h
  | succ d =>
    unfold hostTo at h ⊢
    rw [← hf]
    split at h
    · rfl
    · rfl
    · rfl
    · rfl
    · rename_i chunk _
      have hl : m.output.limit = none := hm.limit.trans hm₀
      have hl' : m'.output.limit = none := hm'.limit.trans hm₀
      have hg : m'.globals = m.globals := hm'.globals.trans hm.globals.symm
      rw [Machine.execute_eq (hostTo_forgets natives d) hl] at h
      rw [Machine.execute_eq (hostTo_forgets natives d) hl', hg]
      simpa using h

/-- The functions of which a call returns that nests at most `d` others. -/
def returning (natives : Array Native) (m₀ : Machine) (d : Nat) : Finset Nat :=
  (Finset.range natives.size).filter fun i => (hostTo natives (d + 1) ⟨"", i⟩ m₀).isSome

theorem mem_returning (hm₀ : m₀.output.limit = none) (hm : m₀.Keeps m) :
    f.id ∈ returning natives m₀ d ↔
      f.id < natives.size ∧ (hostTo natives (d + 1) f m).isSome := by
  rw [returning, Finset.mem_filter, Finset.mem_range]
  refine and_congr_right fun _ => ?_
  exact ⟨isSome_hostTo hm₀ (.refl _) hm rfl, isSome_hostTo hm₀ hm (.refl _) rfl⟩

theorem returning_subset (natives : Array Native) (m₀ : Machine) (d : Nat) :
    returning natives m₀ d ⊆ returning natives m₀ (d + 1) := by
  intro i hi
  obtain ⟨hsize, hr⟩ := Finset.mem_filter.mp hi
  obtain ⟨r, hr⟩ := Option.isSome_iff_exists.mp hr
  have hr' := below_of_le (Nat.le_succ (d + 1)) _ m₀ r (.refl _) hr
  exact Finset.mem_filter.mpr ⟨hsize, by rw [hr']; rfl⟩

theorem settled_of_subset (hm₀ : m₀.output.limit = none)
    (h : returning natives m₀ (d + 1) ⊆ returning natives m₀ d) :
    (hostTo natives (d + 2)).Below m₀ (hostTo natives (d + 1)) := by
  intro f m r hm hr
  have hsome : (hostTo natives (d + 1) f m).isSome := by
    by_cases hsize : f.id < natives.size
    · have hf : f.id ∈ returning natives m₀ (d + 1) :=
        (mem_returning hm₀ hm).mpr ⟨hsize, by rw [hr]; rfl⟩
      exact ((mem_returning hm₀ hm).mp (h hf)).2
    · have hnone : natives[f.id]? = none := Array.getElem?_eq_none (Nat.le_of_not_lt hsize)
      simp [hostTo, hnone]
  obtain ⟨r', hr'⟩ := Option.isSome_iff_exists.mp hsome
  have hboth := below_of_le (Nat.le_succ (d + 1)) f m r' hm hr'
  rw [hr] at hboth
  rw [hr', hboth]

/-- At some level, no deeper than there are functions, one level more lets no other call return. -/
theorem exists_settled (natives : Array Native) (hm₀ : m₀.output.limit = none) :
    ∃ d ≤ natives.size, (hostTo natives (d + 2)).Below m₀ (hostTo natives (d + 1)) := by
  by_contra hno
  have hstrict : ∀ d ≤ natives.size, ¬ returning natives m₀ (d + 1) ⊆ returning natives m₀ d :=
    fun d hd h => hno ⟨d, hd, settled_of_subset hm₀ h⟩
  -- Each level lets at least one more function return, and there are only so many.
  have hcard : ∀ d ≤ natives.size + 1, d ≤ (returning natives m₀ d).card := by
    intro d hd
    induction d with
    | zero => exact Nat.zero_le _
    | succ d ih =>
      have hlt := Finset.card_lt_card
        (Finset.ssubset_def.mpr ⟨returning_subset natives m₀ d, hstrict d (by omega)⟩)
      have := ih (by omega)
      omega
  have hle : (returning natives m₀ (natives.size + 1)).card ≤ natives.size := by
    have := Finset.card_le_card (Finset.filter_subset _ _ :
      returning natives m₀ (natives.size + 1) ⊆ Finset.range natives.size)
    rwa [Finset.card_range] at this
  have := hcard (natives.size + 1) (Nat.le_refl _)
  omega

/-- Where output has no limit, the bound on the depth of calls keeps no call from returning. -/
theorem host_eq_some_iff (hm : m.output.limit = none) {r : Int32 × Machine} :
    host natives f m = some r ↔ ∃ d, hostTo natives d f m = some r := by
  have hd : host natives f m = hostTo natives (natives.size + 1) f m := by
    rw [host, depth, hm]
  rw [hd]
  constructor
  · exact fun h => ⟨_, h⟩
  · rintro ⟨n, h⟩
    obtain ⟨d, hd, hs⟩ := exists_settled natives hm
    have hr := below_of_settled hs n f m r (.refl _) h
    exact below_of_le (by omega) f m r (.refl _) hr

end Native

/-- Where output has no limit, an execution comes to an end if it does with some bound on the depth
of calls. -/
theorem Machine.execute_host_eq_some_iff {natives : Array Native} {m m' : Machine}
    (hm : m.output.limit = none) {chunk : Chunk} {r : Except RuntimeError Unit} :
    m.execute (Native.host natives) chunk = some (r, m') ↔
      ∃ d, m.execute (Native.hostTo natives d) chunk = some (r, m') := by
  have hb : ∀ d, (Native.hostTo natives d).Below m (Native.host natives) := by
    intro d f m₁ r₁ hk h
    exact (Native.host_eq_some_iff (hk.limit.trans hm)).mpr ⟨d, h⟩
  have hb' : (Native.host natives).Below m (Native.hostTo natives (natives.size + 1)) := by
    intro f m₁ r₁ hk h
    have hl : m₁.output.limit = none := hk.limit.trans hm
    rwa [Native.host, Native.depth, hl] at h
  constructor
  · intro h
    exact ⟨_, execute_below (Native.host_forgets natives) hb' (.refl _) h⟩
  · rintro ⟨d, h⟩
    exact execute_below (Native.hostTo_forgets natives d) (hb d) (.refl _) h

end LuaLite
