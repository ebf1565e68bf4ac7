import Mathlib.Data.List.Induction
import VortarisECS.Core.Entity
import VortarisECS.Library.Association

/-!
# Component schemas and the component registry

A schema lists the fields of a component with their storage inside an
instance.  Script components have their layout computed by
`registerSchemaComponent` from raw field descriptors, in `size_t` arithmetic;
C++ components come with the layout of their struct.
-/

namespace VortarisECS

/-- One past the largest `size_t`. -/
def sizeLimit : Nat := 2 ^ 64

/-- Reduction of a computed size to `size_t`. -/
def sizeT (value : Nat) : Nat := value % sizeLimit

/-- Small sizes do not wrap around. -/
theorem sizeT_of_lt {value : Nat} (bounded : value < sizeLimit) :
    sizeT value = value :=
  Nat.mod_eq_of_lt bounded

/-- Sizes may only get smaller. -/
theorem sizeT_le (value : Nat) : sizeT value ≤ value :=
  Nat.mod_le value sizeLimit

/-- The field types of the reflection system. -/
inductive FieldType
  | bool
  | i8 | i16 | i32 | i64
  | u8 | u16 | u32 | u64
  | f32 | f64
  | vector2 | vector2i | vector3 | vector3i | vector4 | vector4i
  | color | quaternion | basis | transform2D | transform3D | aabb | rect2 | plane
  | stringFixed
  | blob
  deriving DecidableEq, Repr

/-- Network tiers of a field; any byte may be stored, these are the named ones. -/
def syncRealtime : UInt8 := 0

/-- The priority of fields that are sent often. -/
def syncHigh : UInt8 := 1

/-- The priority of fields that are sent now and then. -/
def syncMedium : UInt8 := 2

/-- The priority of fields that are sent seldom. -/
def syncLow : UInt8 := 3

/-- The priority of fields that are sent with the spawn only. -/
def syncSpawnOnly : UInt8 := 4

/-- The priority of fields that are never sent. -/
def syncLocal : UInt8 := 5

/-- One reflected field.  `byteSize` is the storage of the whole field: all
`count` elements of a fixed array, or the whole buffer of a `stringFixed` or
`blob`, whose capacity is carried by `count`. -/
structure FieldDescriptor where
  name : String
  type : FieldType
  offset : Nat := 0
  byteSize : Nat := 0
  count : Nat := 1
  elementType : Option FieldType := none
  syncPriority : UInt8 := syncMedium
  isNetworked : Bool := true
  deriving DecidableEq, Repr

/-- Total bytes the field occupies within the component. -/
def FieldDescriptor.storageSize (fd : FieldDescriptor) : Nat := fd.byteSize

/-- The reflected layout of a component. -/
structure ComponentSchema where
  typeName : String
  typeId : ComponentTypeId := invalidComponentType
  size : Nat := 0
  alignment : Nat := 1
  fields : List FieldDescriptor := []
  isNetworked : Bool := false
  deriving DecidableEq, Repr

/-- The first field of that name. -/
def ComponentSchema.findField (schema : ComponentSchema) (name : String) :
    Option FieldDescriptor :=
  schema.fields.find? (·.name = name)

/-- Sizes and alignments of the engine's value types on the target.  They
belong to the engine bindings; a value type is never empty and every alignment
is positive. -/
structure GodotTypes where
  sizeOf : FieldType → Nat
  alignOf : FieldType → Nat
  sizeOf_pos : ∀ type, 0 < sizeOf type
  alignOf_pos : ∀ type, 0 < alignOf type

/-- The engine's value types in a single-precision build. -/
def GodotTypes.singlePrecision : GodotTypes where
  sizeOf
    | .vector2 | .vector2i => 8
    | .vector3 | .vector3i => 12
    | .vector4 | .vector4i | .color | .quaternion | .rect2 | .plane => 16
    | .transform2D | .aabb => 24
    | .basis => 36
    | .transform3D => 48
    | _ => 1
  alignOf
    | .vector2 | .vector2i | .vector3 | .vector3i | .vector4 | .vector4i
    | .color | .quaternion | .rect2 | .plane | .transform2D | .aabb | .basis
    | .transform3D => 4
    | _ => 1
  sizeOf_pos type := by cases type <;> decide
  alignOf_pos type := by cases type <;> decide

/-- Size in bytes of one element of a field type, zero for the two buffer
types, whose size is carried by `count`. -/
def fieldTypeSize (godot : GodotTypes) : FieldType → Nat
  | .bool | .i8 | .u8 => 1
  | .i16 | .u16 => 2
  | .i32 | .u32 | .f32 => 4
  | .i64 | .u64 | .f64 => 8
  | .stringFixed | .blob => 0
  | type => godot.sizeOf type

/-- Alignment in bytes of one element of a field type. -/
def fieldTypeAlign (godot : GodotTypes) : FieldType → Nat
  | .bool | .i8 | .u8 => 1
  | .i16 | .u16 => 2
  | .i32 | .u32 | .f32 => 4
  | .i64 | .u64 | .f64 => 8
  | .stringFixed | .blob => 1
  | type => godot.alignOf type

/-- Round a size up to a multiple of an alignment, in `size_t`. -/
def alignUp (value align : Nat) : Nat :=
  sizeT (value + align - 1) / align * align

/-- Size one raw descriptor: its `elementType` and `byteSize`, with the
alignment it needs.  `none` is the unsupported field type. -/
def sizeField (godot : GodotTypes) (fd : FieldDescriptor) :
    Option (FieldDescriptor × Nat) :=
  match fd.type with
  | .stringFixed | .blob =>
      some ({ fd with elementType := none, byteSize := fd.count }, 1)
  | type =>
      let elemSize := fieldTypeSize godot type
      if elemSize = 0 then none
      else
        some ({ fd with
          elementType := if fd.count > 1 then some type else none
          byteSize := sizeT (elemSize * (if fd.count > 0 then fd.count else 1)) },
          fieldTypeAlign godot type)

/-- Place the fields one after the other.  Returns the placed fields, the first
offset after them and the largest alignment. -/
def layoutFields (godot : GodotTypes) :
    List FieldDescriptor → Nat → Nat →
      Option (List FieldDescriptor × Nat × Nat)
  | [], offset, maxAlign => some ([], offset, maxAlign)
  | fd :: rest, offset, maxAlign =>
      match sizeField godot fd with
      | none => none
      | some (sized, elemAlign) =>
          let placed := { sized with offset := alignUp offset elemAlign }
          match layoutFields godot rest
              (sizeT (placed.offset + placed.byteSize))
              (max maxAlign elemAlign) with
          | none => none
          | some (fields, finish, align) => some (placed :: fields, finish, align)

/-- The schema `registerSchemaComponent` computes for raw field descriptors. -/
def layoutSchema (godot : GodotTypes) (name : String)
    (rawFields : List FieldDescriptor) : Option ComponentSchema :=
  match layoutFields godot rawFields 0 1 with
  | none => none
  | some (fields, offset, maxAlign) =>
      some {
        typeName := name
        size := alignUp offset maxAlign
        alignment := maxAlign
        fields := fields
        isNetworked := fields.any (·.isNetworked) }

/-- The registry: schemas indexed by type id minus one, and ids by name. -/
structure ComponentRegistry where
  schemas : List ComponentSchema := []
  idByName : AList fun _ : String => ComponentTypeId := ∅

namespace ComponentRegistry

/-- Register a schema and return its id.  An empty name yields the invalid id
and a taken name the id it already has; both leave the registry alone. -/
def registerComponent (registry : ComponentRegistry) (schema : ComponentSchema) :
    ComponentTypeId × ComponentRegistry :=
  if schema.typeName = "" then (invalidComponentType, registry)
  else
    match registry.idByName.lookup schema.typeName with
    | some taken => (taken, registry)
    | none =>
        let id := UInt32.ofNat (registry.schemas.length + 1)
        (id, {
          schemas := registry.schemas ++ [{ schema with typeId := id }]
          idByName := registry.idByName.insert schema.typeName id })

/-- Register a schema-only component from raw field descriptors. -/
def registerSchemaComponent (godot : GodotTypes) (registry : ComponentRegistry)
    (name : String) (rawFields : List FieldDescriptor) :
    ComponentTypeId × ComponentRegistry :=
  match layoutSchema godot name rawFields with
  | none => (invalidComponentType, registry)
  | some schema => registry.registerComponent schema

/-- The schema of a type id. -/
def schemaOf (registry : ComponentRegistry) (id : ComponentTypeId) :
    Option ComponentSchema :=
  if id = invalidComponentType ∨ registry.schemas.length < id.toNat then none
  else registry.schemas[id.toNat - 1]?

/-- The id registered under a name. -/
def idOf (registry : ComponentRegistry) (name : String) : ComponentTypeId :=
  (registry.idByName.lookup name).getD invalidComponentType

/-- The byte size of a type's instances, as every caller that has checked the
type reads it. -/
def sizeOf (registry : ComponentRegistry) (id : ComponentTypeId) : Nat :=
  ((registry.schemaOf id).map ComponentSchema.size).getD 0

/-- The registry after the registration of schemas one after the other. -/
def ofSchemas (schemas : List ComponentSchema) : ComponentRegistry :=
  schemas.foldl (fun registry schema => (registry.registerComponent schema).2)
    {}

/-- A registry with one script component of one byte. -/
def healthRegistry : ComponentRegistry :=
  (registerSchemaComponent .singlePrecision {} "Health"
    [{ name := "hp", type := .u8 }]).2

/-- A registry with two script components of one byte. -/
def manaRegistry : ComponentRegistry :=
  (healthRegistry.registerSchemaComponent .singlePrecision
    "Mana" [{ name := "mp", type := .u8 }]).2

/-- A registered schema is one of the list. -/
theorem mem_schemas_of_schemaOf
    {registry : ComponentRegistry} {id : ComponentTypeId}
    {schema : ComponentSchema}
    (registered : registry.schemaOf id = some schema) :
    schema ∈ registry.schemas := by
  unfold schemaOf at registered
  split at registered
  · exact absurd registered (by simp)
  · exact List.mem_of_getElem? registered

/-- Schemas with different names that are not empty are registered in order. -/
theorem ofSchemas_spec
    {schemas : List ComponentSchema}
    (named : ∀ schema ∈ schemas, schema.typeName ≠ "")
    (distinct : (schemas.map ComponentSchema.typeName).Nodup) :
    (ofSchemas schemas).schemas = schemas.mapIdx (fun i schema =>
        { schema with typeId := UInt32.ofNat (i + 1) }) ∧
    ∀ name, name ∉ schemas.map ComponentSchema.typeName →
      (ofSchemas schemas).idByName.lookup name = none := by
  induction schemas using List.reverseRec with
  | nil => exact ⟨rfl, fun _ _ => AList.lookup_empty_none _⟩
  | append_singleton schemas schema inductionHypothesis =>
      rw [List.map_append, List.map_singleton, List.nodup_append] at distinct
      obtain ⟨registered, free⟩ := inductionHypothesis
        (fun other member => named other (List.mem_append_left _ member))
        distinct.1
      have hasName : schema.typeName ≠ "" :=
        named schema (List.mem_append_right _ (List.mem_singleton_self _))
      have isFree := free schema.typeName fun taken =>
        distinct.2.2 _ taken _ (List.mem_singleton_self _) rfl
      have last : ofSchemas (schemas ++ [schema]) =
          ((ofSchemas schemas).registerComponent schema).2 := by
        unfold ofSchemas
        rw [List.foldl_append]
        rfl
      rw [last]
      unfold registerComponent
      rw [if_neg hasName, isFree]
      dsimp only
      refine ⟨?_, fun name other => ?_⟩
      · rw [registered, List.length_mapIdx, List.mapIdx_concat]
      · rw [List.map_append, List.map_singleton, List.mem_append,
          List.mem_singleton, not_or] at other
        rw [AList.lookup_insert_if, if_neg other.2]
        exact free name other.1

/-- No name has an id beyond the schemas. -/
theorem idByName_ofSchemas
    {schemas : List ComponentSchema} {name : String} {id : ComponentTypeId}
    (named : (ofSchemas schemas).idByName.lookup name = some id) :
    id.toNat ≤ (ofSchemas schemas).schemas.length := by
  unfold ofSchemas at named ⊢
  induction schemas using List.reverseRec generalizing id with
  | nil => exact absurd named (by simp)
  | append_singleton schemas schema inductionHypothesis =>
      rw [List.foldl_append, List.foldl_cons, List.foldl_nil] at named ⊢
      generalize List.foldl _ _ schemas = registry at named inductionHypothesis ⊢
      unfold registerComponent at named ⊢
      split at named
      · rename_i nameless
        rw [if_pos nameless]
        exact inductionHypothesis named
      · rename_i hasName
        rw [if_neg hasName]
        cases taken : registry.idByName.lookup schema.typeName with
        | some old =>
            rw [taken] at named
            exact inductionHypothesis named
        | none =>
            rw [taken] at named
            dsimp only at named ⊢
            rw [List.length_append, List.length_singleton]
            rw [AList.lookup_insert_if] at named
            split at named
            · obtain rfl := Option.some.inj named
              rw [UInt32.toNat_ofNat']
              exact Nat.mod_le _ _
            · exact Nat.le_succ_of_le (inductionHypothesis named)

/-- A name that has an id has a schema. -/
theorem schemaOf_idOf_isSome
    {schemas : List ComponentSchema} {name : String}
    (registered : (ofSchemas schemas).idOf name ≠ invalidComponentType) :
    ((ofSchemas schemas).schemaOf ((ofSchemas schemas).idOf name)).isSome := by
  unfold idOf at registered ⊢
  cases named : (ofSchemas schemas).idByName.lookup name with
  | none => exact absurd (by rw [named]; rfl) registered
  | some id =>
      rw [named, Option.getD_some] at registered
      have bounded := idByName_ofSchemas named
      have positive : id.toNat ≠ 0 := fun zero =>
        registered (UInt32.toNat_inj.mp zero)
      rw [Option.getD_some, schemaOf,
        if_neg (not_or.mpr ⟨registered, Nat.not_lt.mpr bounded⟩),
        List.getElem?_eq_getElem (by omega)]
      rfl

/-- Each schema is registered under its name. -/
theorem idByName_typeName
    {schemas : List ComponentSchema} {i : Nat} {schema : ComponentSchema}
    (stored : (ofSchemas schemas).schemas[i]? = some schema) :
    (ofSchemas schemas).idByName.lookup schema.typeName =
      some (UInt32.ofNat (i + 1)) := by
  unfold ofSchemas at stored ⊢
  induction schemas using List.reverseRec with
  | nil => exact absurd stored (by simp)
  | append_singleton schemas added inductionHypothesis =>
      rw [List.foldl_append, List.foldl_cons, List.foldl_nil] at stored ⊢
      generalize List.foldl _ _ schemas = registry at stored inductionHypothesis ⊢
      unfold registerComponent at stored ⊢
      split at stored
      · rename_i nameless
        rw [if_pos nameless]
        exact inductionHypothesis stored
      · rename_i hasName
        rw [if_neg hasName]
        cases taken : registry.idByName.lookup added.typeName with
        | some old =>
            rw [taken] at stored
            exact inductionHypothesis stored
        | none =>
            rw [taken] at stored
            dsimp only at stored ⊢
            rw [AList.lookup_insert_if]
            rw [List.getElem?_append] at stored
            split at stored
            · have named := inductionHypothesis stored
              rw [if_neg]
              · exact named
              · intro same
                rw [same, taken] at named
                exact absurd named (by simp)
            · rename_i beyond
              have isLast : i - registry.schemas.length = 0 := by
                have inRange := (List.getElem?_eq_some_iff.mp stored).1
                rw [List.length_singleton] at inRange
                omega
              rw [isLast, List.getElem?_cons_zero] at stored
              obtain rfl := Option.some.inj stored
              rw [if_pos rfl, show i = registry.schemas.length by omega]

/-- The name of a schema leads back to it. -/
theorem idOf_typeName
    {schemas : List ComponentSchema} {id : ComponentTypeId}
    {schema : ComponentSchema}
    (registered : (ofSchemas schemas).schemaOf id = some schema) :
    (ofSchemas schemas).idOf schema.typeName = id := by
  unfold schemaOf at registered
  split at registered
  · exact absurd registered (by simp)
  · rename_i inRange
    obtain ⟨positive, -⟩ := not_or.mp inRange
    have nonzero : id.toNat ≠ 0 := fun zero =>
      positive (UInt32.toNat_inj.mp zero)
    unfold idOf
    rw [idByName_typeName registered, Option.getD_some,
      Nat.sub_add_cancel (Nat.pos_of_ne_zero nonzero), UInt32.ofNat_toNat]

/-- The size of a registered component is that of its schema. -/
theorem sizeOf_of_schemaOf
    {registry : ComponentRegistry} {id : ComponentTypeId}
    {schema : ComponentSchema}
    (registered : registry.schemaOf id = some schema) :
    registry.sizeOf id = schema.size := by
  rw [sizeOf, registered]
  rfl

/-- Different registered types are no more than the registered schemas. -/
theorem registered_length_le
    {registry : ComponentRegistry} {types : List ComponentTypeId}
    (once : types.Nodup)
    (registered : ∀ t ∈ types, (registry.schemaOf t).isSome) :
    types.length ≤ registry.schemas.length := by
  have inRange : types ⊆ (List.range registry.schemas.length).map
      fun i => UInt32.ofNat (i + 1) := by
    intro t member
    have found := registered t member
    unfold schemaOf at found
    split at found
    · exact absurd found (by simp)
    · rename_i valid
      rw [not_or, Nat.not_lt] at valid
      have positive : t.toNat ≠ 0 := fun zero =>
        valid.1 (UInt32.toNat_inj.mp zero)
      rw [List.mem_map]
      refine ⟨t.toNat - 1, List.mem_range.mpr (by omega), ?_⟩
      rw [Nat.sub_add_cancel (by omega), UInt32.ofNat_toNat]
  have shorter := (List.subperm_of_subset once inRange).length_le
  rwa [List.length_map, List.length_range] at shorter

end ComponentRegistry
end VortarisECS
