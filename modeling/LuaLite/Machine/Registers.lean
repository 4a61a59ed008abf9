import LuaLite.Value

/-!
# Register files

A register file holds no more slots than writing took so far. Seen through `Registers.get?` it is a
map from slots to values: `get?_set` says that a write changes its own slot and no other.
-/

namespace LuaLite

/-- The slots up to the last one written; a slot in between may be unwritten. -/
structure Registers where
  slots : Array (Option Value)

namespace Registers

def empty : Registers := ⟨#[]⟩

/-- The value of a register, if it was written. -/
def get? (r : Registers) (slot : Nat) : Option Value :=
  (r.slots[slot]?).join

/-- Adds unwritten slots until there are `count`. -/
def grow (r : Registers) (count : Nat) : Registers :=
  ⟨r.slots ++ Array.replicate (count - r.slots.size) none⟩

def set (r : Registers) (slot : Nat) (v : Value) : Registers :=
  ⟨(r.grow (slot + 1)).slots.setIfInBounds slot (some v)⟩

/-- The written registers, in ascending order, with their slots. -/
def written (r : Registers) : List (Nat × Value) :=
  (r.slots.toList.mapIdx fun i v => v.map (i, ·)).reduceOption

@[simp] theorem get?_empty (slot : Nat) : empty.get? slot = none := rfl

theorem get?_grow (r : Registers) (count slot : Nat) : (r.grow count).get? slot = r.get? slot := by
  simp only [get?, grow, Array.getElem?_append, Array.getElem?_replicate]
  split
  · rfl
  · rename_i h
    rw [Array.getElem?_eq_none (Nat.le_of_not_lt h)]
    split <;> rfl

theorem get?_set (r : Registers) (slot other : Nat) (v : Value) :
    (r.set slot v).get? other = if slot = other then some v else r.get? other := by
  have hs : slot < (r.grow (slot + 1)).slots.size := by
    simp only [grow, Array.size_append, Array.size_replicate]
    omega
  split
  · rename_i h
    subst h
    simp [get?, set, hs]
  · rename_i h
    rw [← get?_grow r (slot + 1) other]
    simp [get?, set, Array.getElem?_setIfInBounds_ne, h]

/-- The file grows to the highest slot written. -/
theorem size_set (r : Registers) (slot : Nat) (v : Value) :
    (r.set slot v).slots.size = max r.slots.size (slot + 1) := by
  simp only [set, grow, Array.size_setIfInBounds, Array.size_append, Array.size_replicate]
  omega

end Registers

end LuaLite
