/-!
# Numbered lists

A numbered list grows at its end, and its items are numbered from zero. `Numbered.index?` finds the
latest number of an item: a name that is declared again means its latest declaration, and a constant
is there only once.
-/

namespace LuaLite

/-- Items in the order in which they were added, the latest first. -/
structure Numbered (α : Type) where
  latestFirst : List α
  deriving DecidableEq

namespace Numbered

variable {α : Type}

def empty : Numbered α := ⟨[]⟩

/-- How many items there are, which is also the number of the next one. -/
def size (l : Numbered α) : Nat := l.latestFirst.length

def add (l : Numbered α) (x : α) : Numbered α := ⟨x :: l.latestFirst⟩

/-- The items in the order of their numbers. -/
def toList (l : Numbered α) : List α := l.latestFirst.reverse

/-- The number of the first item in a list, latest first, that is `x`. -/
def indexIn [DecidableEq α] (x : α) : List α → Option Nat
  | [] => none
  | y :: rest => if y = x then some rest.length else indexIn x rest

/-- The latest number of an item, if it is there. -/
def index? [DecidableEq α] (l : Numbered α) (x : α) : Option Nat := indexIn x l.latestFirst

@[simp] theorem size_empty : (empty : Numbered α).size = 0 := rfl

@[simp] theorem toList_empty : (empty : Numbered α).toList = [] := rfl

@[simp] theorem size_add (l : Numbered α) (x : α) : (l.add x).size = l.size + 1 := rfl

@[simp] theorem toList_add (l : Numbered α) (x : α) : (l.add x).toList = l.toList ++ [x] :=
  List.reverse_cons

@[simp] theorem length_toList (l : Numbered α) : l.toList.length = l.size :=
  List.length_reverse

/-- A new item stands under the next number, and the others where they stood. -/
theorem getElem?_toList_add {l : Numbered α} {x y : α} {n : Nat} :
    (l.add x).toList[n]? = some y ↔ l.toList[n]? = some y ∨ n = l.size ∧ x = y := by
  rw [toList_add, ← length_toList, List.getElem?_append]
  split
  · rename_i h
    simp only [Nat.ne_of_lt h, false_and, or_false]
  · rename_i h
    rw [List.getElem?_eq_none (Nat.le_of_not_lt h), List.getElem?_singleton]
    split
    · have hn : n = l.toList.length := by omega
      simp [hn]
    · have hn : n ≠ l.toList.length := by omega
      simp only [hn, reduceCtorEq, false_and, or_false]

variable [DecidableEq α]

@[simp] theorem index?_empty (x : α) : (empty : Numbered α).index? x = none := rfl

theorem index?_add (l : Numbered α) (x y : α) :
    (l.add x).index? y = if x = y then some l.size else l.index? y := rfl

theorem getElem?_of_index? {l : Numbered α} {x : α} {i : Nat} (h : l.index? x = some i) :
    l.toList[i]? = some x := by
  obtain ⟨items⟩ := l
  induction items with
  | nil => cases h
  | cons y rest ih =>
    rw [show (⟨y :: rest⟩ : Numbered α) = add ⟨rest⟩ y from rfl] at h ⊢
    rw [index?_add] at h
    rw [toList_add]
    split at h
    · rename_i hy
      injection h with h
      subst hy h
      simp [← length_toList]
    · have hi := ih h
      rw [List.getElem?_append_left, hi]
      exact (List.getElem?_eq_some_iff.mp hi).1

theorem index?_lt {l : Numbered α} {x : α} {i : Nat} (h : l.index? x = some i) : i < l.size := by
  rw [← length_toList]
  exact (List.getElem?_eq_some_iff.mp (getElem?_of_index? h)).1

theorem index?_eq_none_iff {l : Numbered α} {x : α} : l.index? x = none ↔ x ∉ l.toList := by
  obtain ⟨items⟩ := l
  induction items with
  | nil => simp [index?, indexIn, toList]
  | cons y rest ih =>
    rw [show (⟨y :: rest⟩ : Numbered α) = add ⟨rest⟩ y from rfl, index?_add, toList_add]
    split
    · rename_i hy
      simp [hy]
    · rename_i hy
      rw [ih]
      simp [Ne.symm hy]

/-- Behind the number of an item the item is not there again. -/
theorem getElem?_ne_of_index?_lt {l : Numbered α} {x : α} {i j : Nat} (h : l.index? x = some i)
    (hj : i < j) : l.toList[j]? ≠ some x := by
  obtain ⟨items⟩ := l
  induction items with
  | nil => cases h
  | cons y rest ih =>
    rw [show (⟨y :: rest⟩ : Numbered α) = add ⟨rest⟩ y from rfl] at h ⊢
    rw [index?_add] at h
    rw [toList_add]
    intro hx
    have hlen := (List.getElem?_eq_some_iff.mp hx).1
    rw [List.length_append, length_toList, List.length_singleton] at hlen
    split at h
    · injection h
      omega
    · rename_i hy
      rcases Nat.lt_succ_iff_lt_or_eq.mp hlen with hlt | rfl
      · rw [List.getElem?_append_left (by rwa [length_toList])] at hx
        exact ih h hx
      · rw [← length_toList, List.getElem?_concat_length] at hx
        exact hy (Option.some.inj hx)

/-- The number of an item is its last place. -/
theorem index?_eq_some_iff {l : Numbered α} {x : α} {i : Nat} :
    l.index? x = some i ↔ l.toList[i]? = some x ∧ ∀ j, i < j → l.toList[j]? ≠ some x := by
  constructor
  · intro h
    exact ⟨getElem?_of_index? h, fun j => getElem?_ne_of_index?_lt h⟩
  · rintro ⟨hi, hlast⟩
    cases hk : l.index? x with
    | none => exact absurd (List.mem_of_getElem? hi) (index?_eq_none_iff.mp hk)
    | some k =>
      have hki : ¬ k < i := fun h => getElem?_ne_of_index?_lt hk h hi
      have hik : ¬ i < k := fun h => hlast k h (getElem?_of_index? hk)
      rw [show k = i by omega]

end Numbered

end LuaLite
