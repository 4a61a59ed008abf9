import LuaLite.Numbered

/-!
# Locals and their slots

The names that a script declares are numbered by their slots, and a table beside them finds the slot
of a name. A name that is declared again gets a new slot, and the old one stays taken. A table is
`LocalTable.Valid` as long as it finds for each name the number of its latest declaration.
-/

namespace LuaLite

/-- A register index is one byte. -/
def registerCount : Nat := 256

/-- The names that are declared, and their slots, of which a later one hides those before it. -/
structure LocalTable where
  names : Numbered String
  slots : List (String × UInt8)

namespace LocalTable

def empty : LocalTable := ⟨.empty, []⟩

/-- How many slots are taken. -/
def size (l : LocalTable) : Nat := l.names.size

/-- The names in the order of their slots. -/
def toList (l : LocalTable) : List String := l.names.toList

def latestFirst (l : LocalTable) : List String := l.names.latestFirst

/-- The slot that the table has for a name. -/
def slot? (l : LocalTable) (x : String) : Option UInt8 := l.slots.lookup x

/-- The number of that slot. -/
def index? (l : LocalTable) (x : String) : Option Nat := (l.slot? x).map UInt8.toNat

/-- Declares a name and gives it a slot. -/
def add (l : LocalTable) (x : String) (slot : UInt8) : LocalTable :=
  ⟨l.names.add x, (x, slot) :: l.slots⟩

/-- The table finds for each name the number of its latest declaration, and all slots are bytes. -/
structure Valid (l : LocalTable) : Prop where
  size_le : l.size ≤ registerCount
  index?_eq : ∀ x, l.index? x = l.names.index? x

variable {l : LocalTable} {x : String} {s : UInt8}

@[simp] theorem size_empty : empty.size = 0 := rfl

@[simp] theorem toList_empty : empty.toList = [] := rfl

@[simp] theorem size_add (l : LocalTable) (x : String) (s : UInt8) :
    (l.add x s).size = l.size + 1 := rfl

@[simp] theorem toList_add (l : LocalTable) (x : String) (s : UInt8) :
    (l.add x s).toList = l.toList ++ [x] :=
  Numbered.toList_add l.names x

@[simp] theorem length_toList (l : LocalTable) : l.toList.length = l.size :=
  Numbered.length_toList l.names

theorem mem_latestFirst : x ∈ l.latestFirst ↔ x ∈ l.toList := List.mem_reverse.symm

/-- A declaration gives its name the slot, and the others keep theirs. -/
theorem slot?_add (l : LocalTable) (x y : String) (s : UInt8) :
    (l.add x s).slot? y = if x = y then some s else l.slot? y := by
  rw [slot?, add, List.lookup_cons]
  by_cases h : x = y
  · rw [if_pos h, beq_iff_eq.mpr h.symm]
  · rw [if_neg h, beq_false_of_ne (Ne.symm h)]
    rfl

theorem valid_empty : empty.Valid := ⟨Nat.zero_le _, fun _ => rfl⟩

namespace Valid

theorem add (h : l.Valid) (hs : l.size + 1 ≤ registerCount) (x : String) :
    (l.add x (UInt8.ofNat l.size)).Valid := by
  refine ⟨hs, fun y => ?_⟩
  have hy := h.index?_eq y
  rw [LocalTable.index?] at hy ⊢
  rw [slot?_add, LocalTable.add, Numbered.index?_add, ← hy]
  split
  · rw [Option.map_some, UInt8.toNat_ofNat_of_lt' hs]
    rfl
  · rfl

theorem index?_of_slot? (h : l.Valid) (hx : l.slot? x = some s) :
    l.names.index? x = some s.toNat := by
  rw [← h.index?_eq, LocalTable.index?, hx]
  rfl

theorem slot?_eq_none_iff (h : l.Valid) : l.slot? x = none ↔ x ∉ l.toList := by
  have hi : l.slot? x = none ↔ l.names.index? x = none := by
    rw [← h.index?_eq, LocalTable.index?, Option.map_eq_none_iff]
  rw [hi]
  exact Numbered.index?_eq_none_iff

theorem index?_of_slot?_none (h : l.Valid) (hx : l.slot? x = none) : l.names.index? x = none :=
  Numbered.index?_eq_none_iff.mpr (h.slot?_eq_none_iff.mp hx)

theorem toNat_lt (h : l.Valid) (hx : l.slot? x = some s) : s.toNat < l.size :=
  Numbered.index?_lt (h.index?_of_slot? hx)

/-- The slot of a name is its last place. -/
theorem slot?_eq_some_iff (h : l.Valid) : l.slot? x = some s ↔
    l.toList[s.toNat]? = some x ∧ ∀ j, s.toNat < j → l.toList[j]? ≠ some x := by
  have hi : l.slot? x = some s ↔ l.names.index? x = some s.toNat := by
    rw [← h.index?_eq, LocalTable.index?, Option.map_eq_some_iff]
    constructor
    · exact fun hx => ⟨s, hx, rfl⟩
    · rintro ⟨s', hx, e⟩
      rwa [← UInt8.toNat_inj.mp e]
  rw [hi]
  exact Numbered.index?_eq_some_iff

theorem isSome_slot?_iff (h : l.Valid) : (l.slot? x).isSome ↔ x ∈ l.toList := by
  rw [Option.isSome_iff_ne_none, ne_eq, h.slot?_eq_none_iff, Decidable.not_not]

end Valid

end LocalTable

end LuaLite
