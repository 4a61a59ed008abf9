import LuaLite.Value

/-!
# Globals

The names that a host gives values before a script runs. Each name occurs once.
-/

namespace LuaLite

/-- Names and their values, the latest inserted first. -/
structure Globals where
  entries : List (String × Value)
  deriving DecidableEq

namespace Globals

def empty : Globals := ⟨[]⟩

/-- Gives a name a value, in place of the one that it had. -/
def insert (g : Globals) (name : String) (v : Value) : Globals :=
  ⟨(name, v) :: g.entries.filter (·.1 != name)⟩

def get? (g : Globals) (name : String) : Option Value :=
  g.entries.lookup name

def size (g : Globals) : Nat := g.entries.length

def names (g : Globals) : List String :=
  (g.entries.map (·.1)).mergeSort (fun a b => a ≤ b)

@[simp] theorem get?_empty (name : String) : empty.get? name = none := rfl

theorem lookup_filter_ne (entries : List (String × Value)) {name other : String} (h : name ≠ other) :
    (entries.filter (·.1 != name)).lookup other = entries.lookup other := by
  induction entries with
  | nil => rfl
  | cons e rest ih =>
    obtain ⟨k, v⟩ := e
    by_cases hk : k = name
    · subst hk
      have e : (other == k) = false := by simpa using Ne.symm h
      simp [List.lookup_cons, ih, e]
    · simp [hk, List.lookup_cons, ih]

theorem get?_insert (g : Globals) (name other : String) (v : Value) :
    (g.insert name v).get? other = if name = other then some v else g.get? other := by
  split
  · rename_i h
    subst h
    simp [insert, get?]
  · rename_i h
    have e : (other == name) = false := by simpa using Ne.symm h
    simp [insert, get?, List.lookup_cons, e, lookup_filter_ne _ h]

end Globals

end LuaLite
