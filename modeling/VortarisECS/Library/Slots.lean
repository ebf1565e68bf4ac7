import VortarisECS.Library.Bytes

/-!
# Arrays of slots in a byte string

Memory that holds values of one size one behind the other is an array, and a
write that fills one slot replaces one value.
-/

namespace VortarisECS

variable {α : Type u} (read : List UInt8 → α) {size offset count i : Nat}
variable {base bytes : List UInt8}

/-- What was written is read back, with what lies behind it. -/
theorem window_overlay_longer {length : Nat}
    (shorter : bytes.length ≤ length) (inside : offset + length ≤ base.length) :
    ∃ rest, window (overlay base offset bytes) offset length = bytes ++ rest := by
  have front : (base.take offset).length = offset := by
    rw [List.length_take]
    omega
  refine ⟨(base.drop (offset + bytes.length)).take (length - bytes.length), ?_⟩
  have whole : bytes.take (base.length - offset) = bytes :=
    List.take_of_length_le (by omega)
  unfold window overlay
  rw [whole, List.drop_append_of_le_length front.ge,
    List.drop_of_length_le front.le, List.nil_append, List.take_append,
    List.take_of_length_le shorter]

/-- The values in `count` slots of a size, from an offset on. -/
def slots (size : Nat) (base : List UInt8) (offset count : Nat) : List α :=
  (List.range count).map fun i => read (window base (offset + i * size) size)

/-- There are as many slots as counted. -/
@[simp] theorem length_slots (size : Nat) (base : List UInt8)
    (offset count : Nat) :
    (slots read size base offset count).length = count := by
  simp [slots]

/-- A slot is read from its own window. -/
theorem getElem?_slots (within : i < count) :
    (slots read size base offset count)[i]? =
      some (read (window base (offset + i * size) size)) := by
  unfold slots
  rw [List.getElem?_map, List.getElem?_range within, Option.map_some]

theorem slots_one (size : Nat) (base : List UInt8) (offset : Nat) :
    slots read size base offset 1 = [read (window base offset size)] := by
  simp [slots]

/-- Slots lie one behind the other. -/
theorem slot_le (size : Nat) {i j : Nat} (before : i < j) :
    i * size + size ≤ j * size := by
  rw [← Nat.succ_mul]
  exact Nat.mul_le_mul_right size before

/-- A write that fills one slot. -/
theorem slots_overlay_slot
    (inside : offset + count * size ≤ base.length) (within : i < count)
    (sized : bytes.length = size) :
    slots read size (overlay base (offset + i * size) bytes) offset count =
      (slots read size base offset count).set i (read bytes) := by
  apply List.ext_getElem?
  intro j
  rw [List.getElem?_set, length_slots]
  by_cases inRange : j < count
  · rw [getElem?_slots read inRange]
    by_cases here : i = j
    · subst here
      rw [if_pos rfl, if_pos within]
      have last := slot_le size within
      subst sized
      rw [window_overlay_self (by rw [Nat.add_assoc]; omega)]
    · rw [if_neg here, getElem?_slots read inRange,
        window_overlay_of_disjoint]
      rcases Nat.lt_or_gt_of_ne here with before | behind
      · have apart := slot_le size before
        omega
      · have apart := slot_le size behind
        omega
  · have beyond : ∀ other : List UInt8,
        (slots read size other offset count)[j]? = none := fun other =>
      List.getElem?_eq_none (by rw [length_slots]; omega)
    rw [beyond, beyond, if_neg (show ¬i = j by omega)]

end VortarisECS
