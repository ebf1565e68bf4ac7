import Mathlib.Data.List.Basic
import Mathlib.Data.List.Nodup

/-!
# Keys and values paired by position

A list of different keys and a list of values make a table, which finds with a
key the value at its position.
-/

namespace List

variable {α : Type u} {β : Type v} [DecidableEq α]

theorem lookup_zip_of_not_mem
    {keys : List α} {key : α} (absent : key ∉ keys) (values : List β) :
    (keys.zip values).lookup key = none := by
  rw [lookup_eq_none_iff]
  intro pair member
  rw [bne_iff_ne]
  rintro rfl
  exact absent (of_mem_zip member).1

/-- A key is found at the position of its value. -/
theorem getElem?_of_lookup_zip
    {keys : List α} {values : List β} {key : α} {value : β}
    (found : (keys.zip values).lookup key = some value) :
    ∃ i : Nat, keys[i]? = some key ∧ values[i]? = some value := by
  induction keys generalizing values with
  | nil => exact absurd found (by simp)
  | cons head keys inductionHypothesis =>
      cases values with
      | nil => exact absurd found (by simp)
      | cons first values =>
          rw [zip_cons_cons, lookup_cons] at found
          by_cases isHead : key = head
          · subst isHead
            rw [beq_self_eq_true] at found
            exact ⟨0, rfl, found⟩
          · rw [beq_false_of_ne isHead] at found
            obtain ⟨i, here⟩ := inductionHypothesis found
            exact ⟨i + 1, here⟩

/-- The value at a position is found under its key. -/
theorem lookup_zip_of_getElem?
    {keys : List α} (once : keys.Nodup) {values : List β} {i : Nat} {key : α}
    {value : β} (atKey : keys[i]? = some key)
    (atValue : values[i]? = some value) :
    (keys.zip values).lookup key = some value := by
  induction keys generalizing values i with
  | nil => exact absurd atKey (by simp)
  | cons head keys inductionHypothesis =>
      rw [nodup_cons] at once
      cases values with
      | nil => exact absurd atValue (by simp)
      | cons first values =>
          rw [zip_cons_cons, lookup_cons]
          cases i with
          | zero =>
              obtain rfl := Option.some.inj atKey
              rw [beq_self_eq_true]
              exact atValue
          | succ i =>
              have inTail : key ∈ keys := mem_of_getElem? atKey
              have other : key ≠ head := fun same => once.1 (same ▸ inTail)
              rw [beq_false_of_ne other]
              exact inductionHypothesis once.2 atKey atValue

/-- What a predicate finds does not depend on the order if it holds of one
element only. -/
theorem find?_of_perm
    {α : Type u} {p : α → Bool} {items others : List α}
    (perm : items.Perm others)
    (only : ∀ a ∈ others, ∀ b ∈ others, p a = true → p b = true → a = b) :
    items.find? p = others.find? p := by
  cases found : items.find? p with
  | none =>
      rw [find?_eq_none] at found
      symm
      rw [find?_eq_none]
      exact fun a member => found a (perm.mem_iff.mpr member)
  | some a =>
      have member := perm.mem_iff.mp (mem_of_find?_eq_some found)
      have holds := find?_some found
      obtain ⟨b, isFound⟩ : ∃ b, others.find? p = some b :=
        Option.isSome_iff_exists.mp (find?_isSome.mpr ⟨a, member, holds⟩)
      rw [isFound, only a member b (mem_of_find?_eq_some isFound) holds
        (find?_some isFound)]

end List
