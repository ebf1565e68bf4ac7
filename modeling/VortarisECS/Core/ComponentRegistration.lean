import VortarisECS.Core.Schema

/-!
# Registration of components

C++ types, raw field descriptors and scripts register components in one
registry.  It numbers its schemas from one on and finds them by their names; a
C++ type remembers the id it was registered with.
-/

namespace VortarisECS
namespace ComponentRegistry

/-- `name_of`. -/
def nameOf (registry : ComponentRegistry) (id : ComponentTypeId) : String :=
  ((registry.schemaOf id).map ComponentSchema.typeName).getD ""

/-- The assigned ids are the numbers from one on, in order, and ids and names
are each other's inverse. -/
structure Numbered (registry : ComponentRegistry) : Prop where
  inOrder : registry.schemas.map (·.typeId.toNat) =
    List.range' 1 registry.schemas.length
  assigned : ∀ id, (registry.schemaOf id).isSome ↔
    1 ≤ id.toNat ∧ id.toNat ≤ registry.schemas.length
  idOf_nameOf : ∀ id, (registry.schemaOf id).isSome →
    registry.idOf (registry.nameOf id) = id
  nameOf_idOf : ∀ name, registry.idOf name ≠ invalidComponentType →
    (registry.schemaOf (registry.idOf name)).isSome ∧
      registry.nameOf (registry.idOf name) = name

/-- What the numbering rests on: there are fewer schemas than ids, none is
nameless, and the table of names lists each under its number. -/
structure Indexed (registry : ComponentRegistry) : Prop where
  few : registry.schemas.length < 2 ^ 32
  titled : ∀ schema ∈ registry.schemas, schema.typeName ≠ ""
  inOrder : ∀ i schema, registry.schemas[i]? = some schema →
    schema.typeId = UInt32.ofNat (i + 1)
  listed : ∀ name id, registry.idByName.lookup name = some id ↔
    ∃ i schema, registry.schemas[i]? = some schema ∧
      schema.typeName = name ∧ id = UInt32.ofNat (i + 1)

/-- An empty registry has nothing to index. -/
theorem empty_indexed : Indexed {} where
  few := by decide
  titled _ member := absurd member List.not_mem_nil
  inOrder _ _ found := absurd found (by simp)
  listed _ _ := by simp

variable {registry : ComponentRegistry} {schema : ComponentSchema}

/-- Ids count the schemas from one on. -/
theorem schemaOf_eq_some_iff {id : ComponentTypeId} :
    registry.schemaOf id = some schema ↔
      ∃ i, registry.schemas[i]? = some schema ∧ id.toNat = i + 1 := by
  unfold schemaOf
  constructor
  · intro found
    split at found
    · exact absurd found (by simp)
    · rename_i inRange
      obtain ⟨positive, -⟩ := not_or.mp inRange
      have nonzero : id.toNat ≠ 0 := fun zero =>
        positive (UInt32.toNat_inj.mp zero)
      exact ⟨id.toNat - 1, found, by omega⟩
  · rintro ⟨i, found, number⟩
    have bounded := (List.getElem?_eq_some_iff.mp found).1
    have positive : id ≠ invalidComponentType := by
      rintro rfl
      exact absurd number (Nat.zero_ne_add_one i)
    rw [if_neg (not_or.mpr ⟨positive, by omega⟩), number, Nat.add_sub_cancel]
    exact found

namespace Indexed

/-- The id of a schema does not overflow. -/
theorem toNat_ofNat
    (indexed : registry.Indexed) {i : Nat}
    (found : registry.schemas[i]? = some schema) :
    (UInt32.ofNat (i + 1)).toNat = i + 1 := by
  have bounded := (List.getElem?_eq_some_iff.mp found).1
  have few := indexed.few
  exact UInt32.toNat_ofNat_of_lt' (show i + 1 < 2 ^ 32 by omega)

/-- A name is bound to the id of its schema. -/
theorem lookup_eq_some_iff
    (indexed : registry.Indexed) {name : String} {id : ComponentTypeId} :
    registry.idByName.lookup name = some id ↔
      ∃ schema, registry.schemaOf id = some schema ∧
        schema.typeName = name := by
  rw [indexed.listed]
  constructor
  · rintro ⟨i, schema, found, named, rfl⟩
    exact ⟨schema, schemaOf_eq_some_iff.mpr
      ⟨i, found, indexed.toNat_ofNat found⟩, named⟩
  · rintro ⟨schema, registered, named⟩
    obtain ⟨i, found, number⟩ := schemaOf_eq_some_iff.mp registered
    refine ⟨i, schema, found, named, ?_⟩
    rw [← number, UInt32.ofNat_toNat]

/-- A known name has a valid id. -/
theorem idOf_ne_invalid_iff
    (indexed : registry.Indexed) {name : String} :
    registry.idOf name ≠ invalidComponentType ↔
      registry.idByName.lookup name = some (registry.idOf name) := by
  unfold idOf
  cases named : registry.idByName.lookup name with
  | none => exact iff_of_false (fun valid => valid rfl) (by simp)
  | some id =>
      rw [Option.getD_some]
      refine iff_of_true ?_ rfl
      rintro rfl
      obtain ⟨schema, registered, -⟩ := indexed.lookup_eq_some_iff.mp named
      exact absurd registered (by simp [schemaOf])

/-- An unknown name has the invalid id. -/
theorem lookup_eq_none_iff
    (indexed : registry.Indexed) {name : String} :
    registry.idByName.lookup name = none ↔
      registry.idOf name = invalidComponentType := by
  constructor
  · intro free
    unfold idOf
    rw [free]
    rfl
  · intro invalid
    by_contra taken
    obtain ⟨id, named⟩ := Option.ne_none_iff_exists'.mp taken
    refine indexed.idOf_ne_invalid_iff.mpr ?_ invalid
    unfold idOf
    rw [named]
    rfl

/-- An indexed registry is numbered. -/
theorem numbered (indexed : registry.Indexed) : registry.Numbered where
  inOrder := by
    refine List.ext_getElem (by simp) fun i inRange _ => ?_
    rw [List.length_map] at inRange
    have found := List.getElem?_eq_getElem inRange
    rw [List.getElem_map, indexed.inOrder i _ found, indexed.toNat_ofNat found,
      List.getElem_range', Nat.one_mul, Nat.add_comm]
  assigned id := by
    rw [Option.isSome_iff_exists]
    constructor
    · rintro ⟨schema, registered⟩
      obtain ⟨i, found, number⟩ := schemaOf_eq_some_iff.mp registered
      have bounded := (List.getElem?_eq_some_iff.mp found).1
      omega
    · rintro ⟨positive, bounded⟩
      have inRange : id.toNat - 1 < registry.schemas.length := by omega
      exact ⟨registry.schemas[id.toNat - 1], schemaOf_eq_some_iff.mpr
        ⟨id.toNat - 1, List.getElem?_eq_getElem inRange, by omega⟩⟩
  idOf_nameOf id isSome := by
    obtain ⟨schema, registered⟩ := Option.isSome_iff_exists.mp isSome
    unfold nameOf idOf
    rw [registered, Option.map_some, Option.getD_some,
      indexed.lookup_eq_some_iff.mpr ⟨schema, registered, rfl⟩]
    rfl
  nameOf_idOf name valid := by
    obtain ⟨schema, registered, named⟩ := indexed.lookup_eq_some_iff.mp
      (indexed.idOf_ne_invalid_iff.mp valid)
    unfold nameOf
    rw [registered, Option.map_some, Option.getD_some]
    exact ⟨rfl, named⟩

end Indexed

/-- What a registration does. -/
theorem registerComponent_cases (registry : ComponentRegistry)
    (schema : ComponentSchema) :
    (schema.typeName = "" ∧
      registry.registerComponent schema = (invalidComponentType, registry)) ∨
    (schema.typeName ≠ "" ∧ ∃ taken,
      registry.idByName.lookup schema.typeName = some taken ∧
      registry.registerComponent schema = (taken, registry)) ∨
    (schema.typeName ≠ "" ∧
      registry.idByName.lookup schema.typeName = none ∧
      registry.registerComponent schema =
        (UInt32.ofNat (registry.schemas.length + 1), {
          schemas := registry.schemas ++ [{ schema with
            typeId := UInt32.ofNat (registry.schemas.length + 1) }]
          idByName := registry.idByName.insert schema.typeName
            (UInt32.ofNat (registry.schemas.length + 1)) })) := by
  unfold registerComponent
  by_cases nameless : schema.typeName = ""
  · exact Or.inl ⟨nameless, if_pos nameless⟩
  · rw [if_neg nameless]
    cases named : registry.idByName.lookup schema.typeName with
    | some taken => exact Or.inr (Or.inl ⟨nameless, taken, rfl, rfl⟩)
    | none => exact Or.inr (Or.inr ⟨nameless, rfl, rfl⟩)

/-- Registered schemas stay. -/
theorem schemaOf_registerComponent
    {id : ComponentTypeId} {added : ComponentSchema}
    (registered : registry.schemaOf id = some schema) :
    (registry.registerComponent added).2.schemaOf id = some schema := by
  obtain ⟨-, same⟩ | ⟨-, taken, -, same⟩ | ⟨-, -, added⟩ :=
    registry.registerComponent_cases added
  · rw [same]
    exact registered
  · rw [same]
    exact registered
  · rw [added]
    obtain ⟨i, found, number⟩ := schemaOf_eq_some_iff.mp registered
    refine schemaOf_eq_some_iff.mpr ⟨i, ?_, number⟩
    rw [List.getElem?_append_left (List.getElem?_eq_some_iff.mp found).1]
    exact found

/-- As long as an id is left, a registration keeps the numbering. -/
theorem Indexed.registerComponent
    (indexed : registry.Indexed) (added : ComponentSchema)
    (room : added.typeName ≠ "" →
      registry.idOf added.typeName = invalidComponentType →
      registry.schemas.length + 1 < 2 ^ 32) :
    (registry.registerComponent added).2.Indexed := by
  obtain ⟨-, same⟩ | ⟨-, taken, -, same⟩ | ⟨hasName, free, isNew⟩ :=
    registry.registerComponent_cases added
  · rw [same]
    exact indexed
  · rw [same]
    exact indexed
  rw [isNew]
  have positions : ∀ i schema,
      (registry.schemas ++ [{ added with
        typeId := UInt32.ofNat (registry.schemas.length + 1) }])[i]? =
          some schema ↔
        registry.schemas[i]? = some schema ∨
          i = registry.schemas.length ∧ schema = { added with
            typeId := UInt32.ofNat (registry.schemas.length + 1) } := by
    intro i schema
    rw [List.getElem?_append]
    split
    · rename_i before
      exact ⟨Or.inl, fun found => found.resolve_right fun last =>
        absurd before (by omega)⟩
    · rename_i beyond
      rw [List.getElem?_eq_none (Nat.not_lt.mp beyond),
        List.getElem?_singleton]
      constructor
      · intro found
        split at found
        · exact Or.inr ⟨by omega, (Option.some.inj found).symm⟩
        · exact absurd found (by simp)
      · rintro (none | ⟨last, rfl⟩)
        · exact absurd none (by simp)
        · rw [if_pos (by omega)]
  constructor
  · rw [List.length_append, List.length_singleton]
    exact room hasName (indexed.lookup_eq_none_iff.mp free)
  · intro schema member
    obtain old | new := List.mem_append.mp member
    · exact indexed.titled schema old
    · rw [List.mem_singleton.mp new]
      exact hasName
  · intro i schema found
    obtain old | ⟨rfl, rfl⟩ := (positions i schema).mp found
    · exact indexed.inOrder i schema old
    · rfl
  · intro name id
    dsimp only
    rw [AList.lookup_insert_if]
    split
    · rename_i isName
      subst isName
      constructor
      · intro isId
        exact ⟨_, _, (positions _ _).mpr (Or.inr ⟨rfl, rfl⟩), rfl,
          (Option.some.inj isId).symm⟩
      · rintro ⟨i, schema, found, named, rfl⟩
        obtain old | ⟨rfl, -⟩ := (positions i schema).mp found
        · have listed := (indexed.listed schema.typeName _).mpr
            ⟨i, schema, old, rfl, rfl⟩
          rw [named, free] at listed
          exact absurd listed (by simp)
        · rfl
    · rename_i other
      rw [indexed.listed]
      constructor
      · rintro ⟨i, schema, found, named⟩
        exact ⟨i, schema, (positions i schema).mpr (Or.inl found), named⟩
      · rintro ⟨i, schema, found, named, isId⟩
        obtain old | ⟨-, rfl⟩ := (positions i schema).mp found
        · exact ⟨i, schema, old, named, isId⟩
        · exact absurd named.symm other

end ComponentRegistry

/-! ## C++ types -/

/-- The registry with the id every C++ type of the program remembers. -/
structure Registrations (τ : Type u) where
  registry : ComponentRegistry := {}
  typeIdHolder : τ → ComponentTypeId := fun _ => invalidComponentType

namespace Registrations

variable {τ : Type u} [DecidableEq τ]

/-- `register_component_type<T>`, for a type with the given size and
alignment. -/
def registerComponentType (st : Registrations τ) (T : τ)
    (size alignment : Nat) (name : String) (fields : List FieldDescriptor) :
    Registrations τ × ComponentTypeId :=
  if st.typeIdHolder T ≠ invalidComponentType then (st, st.typeIdHolder T)
  else
    let schema : ComponentSchema := {
      typeName := name
      size := size
      alignment := alignment
      fields := fields
      isNetworked := fields.any (·.isNetworked) }
    let (id, registry) := st.registry.registerComponent schema
    (⟨registry, Function.update st.typeIdHolder T id⟩, id)

/-- `ComponentRegistry::register_schema_component`. -/
def registerSchemaComponent (godot : GodotTypes) (st : Registrations τ)
    (name : String) (rawFields : List FieldDescriptor) :
    Registrations τ × ComponentTypeId :=
  let (id, registry) :=
    st.registry.registerSchemaComponent godot name rawFields
  ({ st with registry := registry }, id)

end Registrations
end VortarisECS
