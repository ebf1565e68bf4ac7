import VortarisECS.Reflect.FieldRoundTrip
import VortarisECS.Serialization.Reencode

/-!
# Components come back from their dictionaries

A dictionary has one entry for each field.  A component made from it is zero but
for the fields, and every field has the value it had.
-/

namespace VortarisECS

/-! ## Layouts -/

/-- An array of scalars is laid out with its own type as element type. -/
theorem sizeField_element
    {godot : GodotTypes} {fd sized : FieldDescriptor} {elemAlign : Nat}
    (sizes : sizeField godot fd = some (sized, elemAlign))
    (scalar : fd.type.IsScalar) (several : 1 < fd.count) :
    sized.elementType = some fd.type := by
  unfold sizeField at sizes
  split at sizes
  · rename_i isText
    exact absurd isText scalar.1
  · rename_i isBlob
    exact absurd isBlob scalar.2
  · dsimp only at sizes
    split at sizes
    · exact absurd sizes (by simp)
    · rw [Option.some.injEq, Prod.mk.injEq] at sizes
      rw [← sizes.1]

/-- A layout of fields that fit places all of them. -/
theorem layoutFields_placed
    {godot : GodotTypes} {raw placed : List FieldDescriptor}
    {offset maxAlign finish align : Nat}
    (lays : layoutFields godot raw offset maxAlign =
      some (placed, finish, align))
    (fits : ∀ fd ∈ raw, fd.exactStorage godot < sizeLimit) :
    ∀ fd ∈ placed, fd.Placed godot := by
  intro field member
  obtain ⟨fd, inRaw, sized, elemAlign, start, sizes, rfl⟩ :=
    layoutFields_mem lays member
  obtain ⟨-, storage, typeEq, countEq⟩ := sizeField_spec sizes (fits fd inRaw)
  refine ⟨?_, fun scalar several => ?_⟩
  · change sized.byteSize = _
    rw [storage]
    unfold FieldDescriptor.exactStorage
    dsimp only
    rw [typeEq, countEq]
  · dsimp only at scalar several ⊢
    rw [typeEq] at scalar ⊢
    rw [countEq] at several
    exact sizeField_element sizes scalar several

/-- A script layout that fits places all fields. -/
theorem layoutSchema_placed
    {godot : GodotTypes} {name : String} {raw : List FieldDescriptor}
    {schema : ComponentSchema}
    (lays : layoutSchema godot name raw = some schema)
    (fits : FitsMemory godot raw) : ∀ fd ∈ schema.fields, fd.Placed godot := by
  unfold layoutSchema at lays
  split at lays
  · exact absurd lays (by simp)
  · rename_i fields offset maxAlign layout
    rw [Option.some.injEq] at lays
    rw [← lays]
    apply layoutFields_placed layout
    intro fd member
    have positive := widestAlign_pos godot raw
    have inside := exactStorage_le_layoutEnd godot member 0
    unfold FitsMemory at fits
    omega

/-! ## Values -/

section Value

variable {engine : Engine} {schema : ComponentSchema} {inst : List UInt8}
variable {fd : FieldDescriptor}

/-- What a component has to be for its dictionary to bring it back. -/
structure Saves (engine : Engine) (schema : ComponentSchema)
    (inst : List UInt8) : Prop where
  laid : LaidOut schema.fields 0 schema.size
  sized : inst.length = schema.size
  names : (schema.fields.map FieldDescriptor.name).Nodup
  placed : ∀ fd ∈ schema.fields, fd.Placed engine.types
  fits : ∀ fd ∈ schema.fields, fd.FitsArray
  formed : ∀ fd ∈ schema.fields, fd.WellFormed inst
  unmarked : ∀ fd ∈ schema.fields, fd.Unmarked inst

/-- The fields of a saved instance lie inside it. -/
theorem Saves.inside
    (saves : Saves engine schema inst) (member : fd ∈ schema.fields) :
    fd.offset + fd.storageSize ≤ inst.length := by
  rw [saves.sized]
  exact saves.laid.inside fd member

theorem Saves.restores
    (saves : Saves engine schema inst) (member : fd ∈ schema.fields) :
    ∃ variant, fieldToVariant engine fd (inst.drop fd.offset) = some variant ∧
      ∀ base, fieldFromVariant engine fd base variant =
        some (overlay base fd.offset (fd.restored inst)) :=
  field_restored engine (saves.placed fd member) (saves.fits fd member)
    (saves.inside member) (saves.formed fd member) (saves.unmarked fd member)

/-- A component made from its dictionary has the fields one after the other. -/
theorem Saves.componentDictToBytes_eq (saves : Saves engine schema inst) :
    componentDictToBytes engine schema
        (componentBytesToVariantDict engine schema inst) =
      overlayFields schema.fields (·.restored inst)
        (List.replicate schema.size 0) := by
  have each : ∀ fd, ∃ variant, fd ∈ schema.fields →
      fieldToVariant engine fd (inst.drop fd.offset) = some variant ∧
        ∀ base, fieldFromVariant engine fd base variant =
          some (overlay base fd.offset (fd.restored inst)) := by
    intro fd
    by_cases member : fd ∈ schema.fields
    · obtain ⟨variant, restores⟩ := saves.restores member
      exact ⟨variant, fun _ => restores⟩
    · exact ⟨.nil, fun within => absurd within member⟩
  choose value restores using each
  have once : ((schema.fields.map fun fd => (fd.name, value fd)).map
      Prod.fst).Nodup := by
    rw [List.map_map]
    exact saves.names
  have entries : componentBytesToVariantDict engine schema inst =
      textEntries (schema.fields.map fun fd => (fd.name, value fd)) := by
    have written := engine.foldl_set []
      (schema.fields.map fun fd : FieldDescriptor => (fd.name, value fd)) once
    rw [List.nil_append, List.foldl_map] at written
    rw [← written]
    unfold componentBytesToVariantDict
    apply List.foldl_ext
    intro dict fd member
    rw [(restores fd member).1]
  unfold componentDictToBytes overlayFields
  rw [entries]
  apply List.foldl_ext
  intro dst fd member
  have found := engine.lookup_textEntries_of_mem once
    (List.mem_map_of_mem (f := fun fd => (fd.name, value fd)) member)
  dsimp only at found ⊢
  rw [found]
  dsimp only
  rw [(restores fd member).2, Option.getD_some]

theorem Saves.length_componentDictToBytes (saves : Saves engine schema inst) :
    (componentDictToBytes engine schema
      (componentBytesToVariantDict engine schema inst)).length =
      schema.size := by
  rw [saves.componentDictToBytes_eq, length_overlayFields,
    List.length_replicate]

end Value

end VortarisECS
