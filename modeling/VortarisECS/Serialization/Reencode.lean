import Mathlib.Data.List.TakeWhile
import VortarisECS.Serialization.Layout
import VortarisECS.Serialization.RecordEncoding

/-!
# Encoding again what was stored

The fields of a component are all there after they were stored if they agree
wherever two of them overlap.  Then the instance they were stored in is encoded
as the one they came from.
-/

namespace VortarisECS

/-- The fields of the block that are sent lie inside the component and agree
wherever two of them overlap. -/
def ComponentBlock.FieldsAgree (registry : ComponentRegistry)
    (block : ComponentBlock) : Prop :=
  ∀ schema, registry.schemaOf block.type = some schema →
    Compatible schema.size (block.patches schema)

/-- The fields of a layout that fits agree. -/
theorem fieldsAgree_of_laidOut
    {registry : ComponentRegistry} {block : ComponentBlock}
    (laid : ∀ schema, registry.schemaOf block.type = some schema →
      LaidOut schema.fields 0 schema.size) : block.FieldsAgree registry := by
  intro schema registered
  exact ((laid schema registered).sublist
    (maskedFields_sublist _ _)).compatible _

/-! ## Strings and windows -/

/-- A padded string has its padding already. -/
@[simp] theorem padString_padString (bytes : List UInt8) :
    padString (padString bytes) = padString bytes := by
  have sameContent : (padString bytes).takeWhile (· ≠ 0) =
      bytes.takeWhile (· ≠ 0) := by
    unfold padString
    dsimp only
    have nonzero : ∀ byte ∈ bytes.takeWhile (· ≠ 0), decide (byte ≠ 0) = true :=
      fun byte member =>
        List.mem_takeWhile_imp (p := fun byte => decide (byte ≠ 0)) member
    rw [List.takeWhile_append_of_pos nonzero]
    cases bytes.length - (bytes.takeWhile (· ≠ 0)).length with
    | zero => exact List.append_nil _
    | succ count =>
        rw [List.replicate_succ, List.takeWhile_cons, if_neg (by simp)]
        exact List.append_nil _
  have sameLength := length_padString bytes
  have unfolded : padString (padString bytes) =
      (padString bytes).takeWhile (· ≠ 0) ++ List.replicate
        ((padString bytes).length -
          ((padString bytes).takeWhile (· ≠ 0)).length) 0 := rfl
  rw [unfolded, sameContent, sameLength]
  rfl

/-- What fields put where when they are stored as they were encoded. -/
theorem fieldPatches_encodeFields
    (fields : List FieldDescriptor) (source : List UInt8) :
    fieldPatches fields (encodeFields fields source) =
      fields.map fun fd => ⟨fd.offset, encodeField fd source⟩ := by
  induction fields with
  | nil => rfl
  | cons fd fields inductionHypothesis =>
      have sized := length_encodeField fd source
      rw [fieldPatches, encodeFields, List.flatMap_cons, ← encodeFields,
        List.take_left' sized, List.drop_left' sized, inductionHypothesis]
      rfl

/-- A field whose wire bytes lie in the instance is encoded as them. -/
theorem encodeField_of_writtenIn
    {fd : FieldDescriptor} {source inst : List UInt8}
    (inside : fd.offset + fieldSize fd ≤ inst.length ∨ fieldSize fd = 0)
    (written : Patch.WrittenIn ⟨fd.offset, encodeField fd source⟩ inst) :
    encodeField fd inst = encodeField fd source := by
  unfold Patch.WrittenIn at written
  dsimp only at written
  rw [length_encodeField] at written
  have bytesEq : fd.bytesOf inst (fieldSize fd) = encodeField fd source := by
    obtain inside | empty := inside
    · rw [fd.bytesOf_eq_window inside, written]
    · have nothing := length_encodeField fd source
      rw [empty] at nothing ⊢
      rw [List.length_eq_zero_iff.mp nothing]
      exact List.length_eq_zero_iff.mp (fd.length_bytesOf inst 0)
  unfold fieldSize at bytesEq
  conv_lhs => unfold encodeField
  cases widthEq : fd.type.scalarWidth with
  | some width =>
      rw [widthEq] at bytesEq
      exact bytesEq
  | none =>
      rw [widthEq] at bytesEq
      dsimp only at bytesEq ⊢
      rw [bytesEq]
      by_cases isString : fd.type = .stringFixed
      · rw [if_pos isString]
        unfold encodeField
        rw [widthEq]
        dsimp only
        rw [if_pos isString, padString_padString]
      · rw [if_neg isString]

/-- Fields that agree are encoded again as they were. -/
theorem encodeFields_writePatches
    {fields : List FieldDescriptor} {source base : List UInt8}
    (compatible : Compatible base.length
      (fieldPatches fields (encodeFields fields source))) :
    encodeFields fields
        (writePatches base (fieldPatches fields (encodeFields fields source))) =
      encodeFields fields source := by
  have written := writePatches_writes_iff.mpr compatible
  have inside := compatible.inside
  rw [fieldPatches_encodeFields] at written inside ⊢
  apply List.flatMap_congr
  intro fd member
  have inPatches := List.mem_map_of_mem (f := fun fd : FieldDescriptor =>
    (⟨fd.offset, encodeField fd source⟩ : Patch)) member
  apply encodeField_of_writtenIn ?_ (written _ inPatches)
  rw [length_writePatches]
  by_contra outside
  rw [not_or, not_le] at outside
  have covers := inside _ inPatches (fd.offset + fieldSize fd - 1)
  unfold Patch.Covers at covers
  dsimp only at covers
  rw [length_encodeField] at covers
  omega

end VortarisECS
