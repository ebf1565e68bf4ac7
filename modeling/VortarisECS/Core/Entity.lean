import Mathlib.Data.Nat.Bitwise
import Mathlib.Order.Defs.LinearOrder

/-!
# Entity handles and component type ids

An entity is a 64-bit handle.  Its low half holds the slot index plus one, so
that zero is the null handle, and its high half holds the generation of the
slot.  Component types are numbered by 32-bit ids, zero being invalid.
-/

namespace VortarisECS

/-- Bit patterns are ordered as the numbers they denote. -/
instance instLinearOrderUInt32 : LinearOrder UInt32 where
  le_refl value := UInt32.le_refl value
  le_trans _ _ _ first second := UInt32.le_trans first second
  le_antisymm _ _ first second := UInt32.le_antisymm first second
  le_total left right := UInt32.le_total left right
  lt_iff_le_not_ge left right := by
    rw [UInt32.lt_iff_toNat_lt, UInt32.le_iff_toNat_le, UInt32.le_iff_toNat_le]
    omega
  min_def _ _ := rfl
  max_def _ _ := rfl
  toDecidableLE := inferInstance

/-- Component type ids. -/
abbrev ComponentTypeId := UInt32

/-- The id no registered component has. -/
def invalidComponentType : ComponentTypeId := 0

/-- A 64-bit entity handle. -/
structure Entity where
  id : UInt64
  deriving DecidableEq, Repr

namespace Entity

/-- The null handle. -/
def null : Entity := ⟨0⟩

/-- Slot index: the low half minus one, wrapping at 32 bits, so that the null
handle and every other handle with an empty low half has slot `0xFFFFFFFF`. -/
def slot (e : Entity) : Nat :=
  ((2 ^ 32 - 1) + e.id.toNat % 2 ^ 32) % 2 ^ 32

/-- Generation: the high half. -/
def generation (e : Entity) : Nat := e.id.toNat / 2 ^ 32

/-- The handle of a slot at a generation. -/
def ofSlot (slot generation : Nat) : Entity :=
  ⟨UInt64.ofNat ((slot + 1) ||| (generation <<< 32))⟩

/-- The generation stands above the slot in an id. -/
theorem ofSlot_id_toNat
    {slot generation : Nat}
    (slotBound : slot + 1 < 2 ^ 32)
    (generationBound : generation < 2 ^ 32) :
    (ofSlot slot generation).id.toNat = generation * 2 ^ 32 + (slot + 1) := by
  have joined : (slot + 1) ||| (generation <<< 32) =
      generation * 2 ^ 32 + (slot + 1) := by
    rw [Nat.or_comm, ← Nat.shiftLeft_add_eq_or_of_lt slotBound,
      Nat.shiftLeft_eq]
  rw [ofSlot, joined]
  apply UInt64.toNat_ofNat_of_lt'
  change generation * 2 ^ 32 + (slot + 1) < 2 ^ 64
  omega

/-- The slot of an id. -/
@[simp] theorem slot_ofSlot
    {slot generation : Nat}
    (slotBound : slot + 1 < 2 ^ 32)
    (generationBound : generation < 2 ^ 32) :
    (ofSlot slot generation).slot = slot := by
  rw [Entity.slot, ofSlot_id_toNat slotBound generationBound]
  omega

/-- The generation of an id. -/
@[simp] theorem generation_ofSlot
    {slot generation : Nat}
    (slotBound : slot + 1 < 2 ^ 32)
    (generationBound : generation < 2 ^ 32) :
    (ofSlot slot generation).generation = generation := by
  rw [Entity.generation, ofSlot_id_toNat slotBound generationBound]
  omega

/-- No slot has the null id. -/
theorem ofSlot_ne_null
    {slot generation : Nat}
    (slotBound : slot + 1 < 2 ^ 32)
    (generationBound : generation < 2 ^ 32) :
    ofSlot slot generation ≠ null := by
  intro isNull
  have idValue := ofSlot_id_toNat slotBound generationBound
  rw [isNull] at idValue
  change 0 = generation * 2 ^ 32 + (slot + 1) at idValue
  omega

/-- Slot and generation determine the handle. -/
theorem eq_of_slot_generation
    {e x : Entity} (sameSlot : e.slot = x.slot)
    (sameGeneration : e.generation = x.generation) : e = x := by
  have idEq : e.id.toNat = x.id.toNat := by
    unfold slot at sameSlot
    unfold generation at sameGeneration
    have boundE : e.id.toNat < 2 ^ 64 := e.id.toNat_lt
    have boundX : x.id.toNat < 2 ^ 64 := x.id.toNat_lt
    omega
  cases e
  cases x
  rw [Entity.mk.injEq]
  exact UInt64.toNat_inj.mp idEq

theorem generation_lt (e : Entity) : e.generation < 2 ^ 32 := by
  have bound : e.id.toNat < 2 ^ 64 := e.id.toNat_lt
  unfold generation
  omega

end Entity
end VortarisECS
