import Mathlib.Data.List.Basic

/-!
# Swap removal

A vector whose order does not matter deletes a position in constant time by
moving its last element into the hole and dropping the last position.  Parallel
vectors that are swap-removed at one position stay parallel.
-/

/-- Move the last element into position `index` and drop the last position. -/
def swapRemove (items : List α) (index : Nat) : List α :=
  match items.getLast? with
  | none => []
  | some last => (items.set index last).dropLast

/-- One item is removed. -/
@[simp] theorem length_swapRemove (items : List α) (index : Nat) :
    (swapRemove items index).length = items.length - 1 := by
  unfold swapRemove
  cases lastValue : items.getLast? with
  | none =>
      rw [List.getLast?_eq_none_iff] at lastValue
      simp [lastValue]
  | some last => simp

/-- Every surviving position keeps its element, except the hole, which receives
the last one. -/
theorem getElem?_swapRemove (items : List α) (index position : Nat) :
    (swapRemove items index)[position]? =
      if position + 1 < items.length then
        if position = index then items.getLast? else items[position]?
      else none := by
  unfold swapRemove
  cases lastValue : items.getLast? with
  | none =>
      rw [List.getLast?_eq_none_iff] at lastValue
      simp [lastValue]
  | some last =>
      by_cases survives : position + 1 < items.length
      · have inRange : position < (items.set index last).length - 1 := by
          rw [List.length_set]
          omega
        rw [List.getElem?_dropLast, if_pos inRange, if_pos survives,
          List.getElem?_set]
        by_cases hole : index = position
        · have bounded : index < items.length := by omega
          rw [if_pos hole, if_pos bounded, if_pos hole.symm]
        · rw [if_neg hole, if_neg (Ne.symm hole)]
      · have outOfRange : ¬position < (items.set index last).length - 1 := by
          rw [List.length_set]
          omega
        rw [List.getElem?_dropLast, if_neg outOfRange, if_neg survives]

/-- Removing the last position is a plain pop. -/
theorem swapRemove_last (items : List α) (index : Nat)
    (isLast : index + 1 = items.length) :
    swapRemove items index = items.dropLast := by
  apply List.ext_getElem?
  intro position
  rw [getElem?_swapRemove, List.getElem?_dropLast]
  by_cases survives : position + 1 < items.length
  · rw [if_pos survives, if_neg (by omega), if_pos (by omega)]
  · rw [if_neg survives, if_neg (by omega)]

/-- Nothing comes in by removing. -/
theorem mem_of_mem_swapRemove
    {items : List α} {index : Nat} {item : α}
    (member : item ∈ swapRemove items index) : item ∈ items := by
  obtain ⟨position, value⟩ := List.mem_iff_getElem?.mp member
  rw [getElem?_swapRemove] at value
  by_cases survives : position + 1 < items.length
  · rw [if_pos survives] at value
    by_cases hole : position = index
    · rw [if_pos hole] at value
      exact List.mem_of_getLast? value
    · rw [if_neg hole] at value
      exact List.mem_of_getElem? value
  · rw [if_neg survives] at value
    exact absurd value (by simp)

/-- Where an element of a duplicate-free vector is found after a swap removal:
the last element in the hole, every other survivor where it was. -/
theorem getElem?_swapRemove_eq_some_iff
    {items : List α} [DecidableEq α]
    (distinct : ∀ (i j : Nat) (item : α),
      items[i]? = some item → items[j]? = some item → i = j)
    {index : Nat} {removed last : α}
    (found : items[index]? = some removed)
    (lastValue : items[items.length - 1]? = some last)
    (position : Nat) (item : α) :
    (swapRemove items index)[position]? = some item ↔
      item ≠ removed ∧
        if item = last then position = index
        else items[position]? = some item := by
  have bounded := (List.getElem?_eq_some_iff.mp found).1
  rw [getElem?_swapRemove, List.getLast?_eq_getElem?, lastValue]
  constructor
  · intro here
    by_cases survives : position + 1 < items.length
    · rw [if_pos survives] at here
      by_cases hole : position = index
      · rw [if_pos hole, Option.some.injEq] at here
        subst here
        refine ⟨?_, by rw [if_pos rfl]; exact hole⟩
        rintro rfl
        have same := distinct _ _ _ found lastValue
        omega
      · rw [if_neg hole] at here
        have notRemoved : item ≠ removed := by
          rintro rfl
          exact hole (distinct _ _ _ here found)
        have notLast : item ≠ last := by
          rintro rfl
          have same := distinct _ _ _ here lastValue
          omega
        rw [if_neg notLast]
        exact ⟨notRemoved, here⟩
    · rw [if_neg survives] at here
      exact absurd here (by simp)
  · rintro ⟨notRemoved, here⟩
    by_cases isLast : item = last
    · rw [if_pos isLast] at here
      subst here
      have inner : position + 1 < items.length := by
        by_contra outer
        have sameIndex : items.length - 1 = position := by omega
        rw [sameIndex, found] at lastValue
        exact notRemoved (isLast.trans (Option.some.inj lastValue).symm)
      rw [if_pos inner, if_pos rfl, isLast]
    · rw [if_neg isLast] at here
      have inRange := (List.getElem?_eq_some_iff.mp here).1
      have notHole : position ≠ index := by
        rintro rfl
        rw [found] at here
        exact notRemoved (Option.some.inj here).symm
      have notEnd : position ≠ items.length - 1 := by
        rintro rfl
        rw [lastValue] at here
        exact isLast (Option.some.inj here).symm
      rw [if_pos (by omega), if_neg notHole]
      exact here
