import VortarisECS.Core.ComponentRegistration
import VortarisECS.Gdscript.SavedData
import VortarisECS.Reflect.ComponentRoundTrip

/-!
# Worlds come back from their data

A save lists every entity with the fields of its components by name.  A loader
brings back the same entities with the same component types, and every component
as its dictionary makes it.
-/

namespace VortarisECS
namespace World

variable {engine : Engine} {registry : ComponentRegistry} {w : World}

/-! ## What a save says -/

/-- The fields of a component by name. -/
def fieldsOf (engine : Engine) (registry : ComponentRegistry) (w : World)
    (e : Entity) (t : ComponentTypeId) : List (Variant × Variant) :=
  match registry.schemaOf t, w.getRaw e t with
  | some schema, some raw => componentBytesToVariantDict engine schema raw
  | _, _ => []

/-- What a save says about an entity. -/
def dataRecord (engine : Engine) (registry : ComponentRegistry) (w : World)
    (e : Entity) : DataRecord where
  id := e.id.toInt64
  components := (w.getEntityComponentTypes e).map fun t =>
    (registry.nameOf t, w.fieldsOf engine registry e t)

@[simp] theorem dataRecord_entity (w : World) (e : Entity) :
    (w.dataRecord engine registry e).entity = e := by
  unfold DataRecord.entity dataRecord
  exact congrArg Entity.mk (UInt64.toUInt64_toInt64 e.id)

/-- The entry of an entity in a save. -/
def dataEntry (engine : Engine) (registry : ComponentRegistry) (w : World)
    (e : Entity) : Variant :=
  .dictionary (textEntries [("id", .int e.id.toInt64),
    ("components", .dictionary (textEntries
      ((w.dataRecord engine registry e).components.map fun comp =>
        (comp.1, .dictionary comp.2))))])

section Saved

variable {e : Entity}

/-- The name of a component leads back to it. -/
theorem idOf_nameOf_of_mem
    (titled : ∀ t schema, registry.schemaOf t = some schema →
      registry.idOf schema.typeName = t)
    (consistent : w.store.Consistent registry) {t : ComponentTypeId}
    (member : t ∈ w.getEntityComponentTypes e) :
    registry.idOf (registry.nameOf t) = t := by
  obtain ⟨schema, _, registered, -⟩ := getRaw_of_mem_types consistent member
  unfold ComponentRegistry.nameOf
  rw [registered]
  exact titled t schema registered

/-- What is saved of an entity has known components. -/
theorem dataRecord_known
    (engine : Engine)
    (titled : ∀ t schema, registry.schemaOf t = some schema →
      registry.idOf schema.typeName = t)
    (consistent : w.store.Consistent registry) (e : Entity) :
    (w.dataRecord engine registry e).Known registry := by
  have types := (getEntityComponentTypes_ascending consistent e).imp ne_of_lt
  constructor
  · intro comp member
    obtain ⟨t, present, rfl⟩ := List.mem_map.mp member
    rw [idOf_nameOf_of_mem titled consistent present]
    obtain ⟨_, _, registered, -⟩ := getRaw_of_mem_types consistent present
    rintro rfl
    exact absurd registered (by simp [ComponentRegistry.schemaOf])
  · unfold dataRecord
    rw [List.map_map]
    refine List.Nodup.map_on (fun t member u member' same => ?_) types
    rw [← idOf_nameOf_of_mem titled consistent member,
      ← idOf_nameOf_of_mem titled consistent member']
    exact same

/-- It has each of them once. -/
theorem dataRecord_names
    (engine : Engine)
    (titled : ∀ t schema, registry.schemaOf t = some schema →
      registry.idOf schema.typeName = t)
    (consistent : w.store.Consistent registry) (e : Entity) :
    ((w.dataRecord engine registry e).components.map Prod.fst).Nodup := by
  have known := dataRecord_known engine titled consistent e
  have once : (((w.dataRecord engine registry e).components.map
      Prod.fst).map registry.idOf).Nodup := by
    rw [List.map_map]
    exact known.once
  exact once.of_map _

/-- A row is written as the entry of its entity. -/
theorem rowToData_eq
    (titled : ∀ t schema, registry.schemaOf t = some schema →
      registry.idOf schema.typeName = t)
    (consistent : w.store.Consistent registry) {p : Ptr}
    (listed : p ∈ w.store.archetypeList) {row : Nat}
    (found : (w.store.deref p).entities[row]? = some e) :
    rowToData engine registry (w.store.deref p) (e, row) =
      w.dataEntry engine registry e := by
  have types := getEntityComponentTypes_of_row consistent listed
    (List.mem_of_getElem? found)
  have once := dataRecord_names engine titled consistent e
  have written := engine.foldl_set []
    ((w.dataRecord engine registry e).components.map fun comp =>
      (comp.1, Variant.dictionary comp.2)) (by
        rw [List.nil_append, List.map_map]
        exact once)
  have sameFold : (w.store.deref p).componentIds.foldl
      (componentToData engine registry (w.store.deref p) row) [] =
      textEntries ((w.dataRecord engine registry e).components.map fun comp =>
        (comp.1, .dictionary comp.2)) := by
    rw [List.nil_append] at written
    rw [← written]
    unfold dataRecord
    rw [types, List.map_map, List.foldl_map]
    apply List.foldl_ext
    intro comps t present
    obtain ⟨schema, registered⟩ := Option.isSome_iff_exists.mp
      ((consistent.wellFormed p listed).registered t present)
    unfold componentToData fieldsOf ComponentRegistry.nameOf
    dsimp only [Function.comp_apply]
    rw [registered, getRaw_of_row consistent listed found present]
    rfl
  unfold rowToData
  dsimp only
  rw [sameFold]
  rfl

/-- A save lists the entries of all entities. -/
theorem entitiesToData_eq
    (titled : ∀ t schema, registry.schemaOf t = some schema →
      registry.idOf schema.typeName = t)
    (consistent : w.store.Consistent registry)
    {sort : ArchetypeStore → List Ptr}
    (perm : (sort w.store).Perm w.store.archetypeList) :
    w.entitiesToData engine registry sort 0 =
      (w.store.listing (sort w.store)).map (w.dataEntry engine registry) := by
  unfold entitiesToData ArchetypeStore.listing
  dsimp only
  rw [if_neg (by decide), List.map_flatMap]
  refine List.flatMap_congr fun p member => ?_
  have inList := perm.mem_iff.mp member
  have entities := List.zipIdx_map_fst 0 (w.store.deref p).entities
  conv_rhs => rw [← entities]
  rw [List.map_map]
  refine List.map_congr_left fun entry inRows => ?_
  exact rowToData_eq titled consistent inList
    (List.mem_zipIdx_iff_getElem?.mp inRows)

end Saved

end World

/-! ## What a loader reads -/

/-- Components by name are read in the order they come. -/
theorem Engine.entryComponents_perm
    {engine : Engine} {edata comps : List (Variant × Variant)}
    {named : NamedComponents} (once : (named.map Prod.fst).Nodup)
    (found : engine.lookup edata (.string "components") =
      some (.dictionary comps))
    (perm : comps.Perm (textEntries (named.map fun comp =>
      (comp.1, .dictionary comp.2)))) :
    (engine.entryComponents edata).Perm named := by
  have names : ((named.map fun comp =>
      (comp.1, Variant.dictionary comp.2)).map Prod.fst).Nodup := by
    rw [List.map_map]
    exact once
  have read : (engine.entryComponents edata).Perm ((textEntries (named.map
      fun comp => (comp.1, .dictionary comp.2))).map fun comp =>
        (engine.toText comp.1, engine.toDictionary
          (engine.get comps (.string (engine.toText comp.1))))) := by
    unfold entryComponents
    rw [found]
    dsimp only
    rw [engine.toDictionary_dictionary]
    exact perm.map _
  refine read.trans (List.Perm.of_eq ?_)
  unfold textEntries
  rw [List.map_map, List.map_map]
  conv_rhs => rw [← List.map_id named]
  refine List.map_congr_left fun comp member => ?_
  dsimp only [Function.comp_apply]
  rw [engine.toText_string, get, engine.lookup_of_perm names perm,
    engine.lookup_textEntries_of_mem names (List.mem_map_of_mem
      (f := fun comp => (comp.1, Variant.dictionary comp.2)) member),
    Option.getD_some, engine.toDictionary_dictionary]
  rfl

namespace World

variable {engine : Engine} {registry : ComponentRegistry} {w : World}
variable {e : Entity}

/-- The bytes of a dictionary have the size of the component. -/
theorem length_componentDictToBytes
    (engine : Engine) (schema : ComponentSchema)
    (entries : List (Variant × Variant)) :
    (componentDictToBytes engine schema entries).length = schema.size := by
  unfold componentDictToBytes
  induction schema.fields using List.reverseRecOn with
  | nil => rw [List.foldl_nil, List.length_replicate]
  | append_singleton fields fd inductionHypothesis =>
      rw [List.foldl_append, List.foldl_cons, List.foldl_nil]
      split
      · exact inductionHypothesis
      · rename_i value _
        cases stored : fieldFromVariant engine fd _ value with
        | none => exact inductionHypothesis
        | some bytes =>
            exact (length_fieldFromVariant stored).trans inductionHypothesis

/-- A component made of what a text leaves of its fields. -/
def reloaded (engine : Engine) (registry : ComponentRegistry)
    (fields : List (Variant × Variant) → List (Variant × Variant))
    (t : ComponentTypeId) (raw : List UInt8) : List UInt8 :=
  match registry.schemaOf t with
  | none => []
  | some schema => componentDictToBytes engine schema
      (fields (componentBytesToVariantDict engine schema raw))

end World

/-- What is left of a record when its id and its fields have become other
values. -/
def DataRecord.through (toId : Int64 → Int64)
    (fields : List (Variant × Variant) → List (Variant × Variant))
    (record : DataRecord) : DataRecord where
  id := toId record.id
  components := record.components.map fun comp => (comp.1, fields comp.2)

/-- A record keeps known components on its way. -/
theorem DataRecord.Known.through
    {registry : ComponentRegistry} {record : DataRecord}
    (known : record.Known registry) (toId : Int64 → Int64)
    (fields : List (Variant × Variant) → List (Variant × Variant)) :
    (record.through toId fields).Known registry := by
  constructor
  · intro comp member
    obtain ⟨source, inRecord, rfl⟩ := List.mem_map.mp member
    exact known.valid source inRecord
  · unfold DataRecord.through
    rw [List.map_map]
    exact known.once

namespace World

variable {engine : Engine} {registry : ComponentRegistry} {w : World}
variable {e : Entity}
variable {fields : List (Variant × Variant) → List (Variant × Variant)}

/-- The components that a record of an entity gives. -/
theorem givenComponents_through
    (titled : ∀ t schema, registry.schemaOf t = some schema →
      registry.idOf schema.typeName = t)
    (stable : w.Stable registry) (toId : Int64 → Int64) (e : Entity)
    (t : ComponentTypeId) :
    givenComponents engine registry
        ((w.dataRecord engine registry e).through toId fields).components t =
      (w.getRaw e t).map (reloaded engine registry fields t) := by
  have represents := represents_contents stable.consistent
  have known := (dataRecord_known engine titled stable.consistent e).through
    toId fields
  by_cases present : t ∈ w.getEntityComponentTypes e
  · obtain ⟨schema, raw, registered, found⟩ :=
      getRaw_of_mem_types stable.consistent present
    have named := idOf_nameOf_of_mem titled stable.consistent present
    have member : (registry.nameOf t,
        fields (w.fieldsOf engine registry e t)) ∈
          ((w.dataRecord engine registry e).through toId fields).components :=
      List.mem_map_of_mem
        (f := fun comp : String × List (Variant × Variant) =>
          (comp.1, fields comp.2)) (List.mem_map_of_mem present)
    have given := givenComponents_of_mem engine known.once member
    dsimp only at given
    unfold givenBytes fieldsOf at given
    rw [named, registered, found] at given
    rw [given, found, Option.map_some, reloaded, registered]
    dsimp only [componentBytes]
    rw [copyBytes_of_length (length_componentDictToBytes engine schema _)]
  · have absent : w.getRaw e t = none := by
      rw [represents.mem_types, Option.not_isSome_iff_eq_none] at present
      rw [represents.getRaw, present]
    rw [absent, Option.map_none, givenComponents_eq_none_iff]
    intro comp member isType
    obtain ⟨source, inRecord, rfl⟩ := List.mem_map.mp member
    obtain ⟨u, inTypes, rfl⟩ := List.mem_map.mp inRecord
    have named := idOf_nameOf_of_mem titled stable.consistent inTypes
    dsimp only at isType
    rw [named] at isType
    rw [isType] at inTypes
    exact present inTypes

/-- When the ids come back as they are, so does every entity. -/
theorem contents_of_holdsData
    (titled : ∀ t schema, registry.schemaOf t = some schema →
      registry.idOf schema.typeName = t)
    (stable : w.Stable registry) {order : List Ptr}
    (perm : order.Perm w.store.archetypeList) (toId : Int64 → Int64)
    (kept : ∀ e, w.isAlive e = true → toId e.id.toInt64 = e.id.toInt64)
    {contents : Contents}
    (holds : contents.HoldsData engine registry
      ((w.store.listing order).map fun e =>
        (w.dataRecord engine registry e).through toId fields))
    (e : Entity) :
    contents e = (w.contents e).map fun had t =>
      (had t).map (reloaded engine registry fields t) := by
  have represents := represents_contents stable.consistent
  have entity : ∀ x, w.isAlive x = true →
      ((w.dataRecord engine registry x).through toId fields).entity = x := by
    intro x alive
    have sameId : ((w.dataRecord engine registry x).through toId fields).id =
        x.id.toInt64 := kept x alive
    unfold DataRecord.entity
    rw [sameId, UInt64.toUInt64_toInt64]
  have listed := fun x =>
    mem_listing_iff_isAlive (e := x) stable.consistent perm
  cases alive : w.isAlive e with
  | true =>
      have own := holds.own _ (List.mem_map_of_mem ((listed e).mpr alive))
      rw [entity e alive] at own
      rw [own, contents_of_alive alive, Option.map_some, Option.some.injEq]
      funext t
      rw [givenComponents_through titled stable, represents.getRaw,
        contents_of_alive alive, Option.bind_some]
  | false =>
      rw [contents_of_dead alive, Option.map_none]
      refine holds.elsewhere e fun record member => ?_
      obtain ⟨x, inListing, rfl⟩ := List.mem_map.mp member
      have aliveX := (listed x).mp inListing
      rw [entity x aliveX]
      rintro rfl
      rw [alive] at aliveX
      exact absurd aliveX Bool.false_ne_true

/-- Another world has the same entities with the same component types. -/
structure SameEntities (w v : World) : Prop where
  alive : ∀ e, v.isAlive e = w.isAlive e
  types : ∀ e, v.getEntityComponentTypes e = w.getEntityComponentTypes e

/-- Besides, each field of a component has the value it had. -/
structure SameData (registry : ComponentRegistry) (w v : World) : Prop extends
    w.SameEntities v where
  values : ∀ e t schema raw, registry.schemaOf t = some schema →
    w.getRaw e t = some raw → ∃ raw', v.getRaw e t = some raw' ∧
      ∀ fd ∈ schema.fields, fd.valueIn raw' = fd.valueIn raw

/-- Every field has the value it had when its component is made of what is left
of the fields. -/
def Reloads (engine : Engine) (registry : ComponentRegistry)
    (fields : List (Variant × Variant) → List (Variant × Variant)) (w : World) :
    Prop :=
  ∀ e t schema raw, registry.schemaOf t = some schema →
    w.getRaw e t = some raw → ∀ fd ∈ schema.fields,
      fd.valueIn (reloaded engine registry fields t raw) = fd.valueIn raw

section Reloaded

variable {v : World}

/-- The components of a world that comes back. -/
theorem getRaw_reloaded
    (stable : w.Stable registry) (stable' : v.Stable registry)
    (contentsEq : ∀ e, v.contents e = (w.contents e).map fun had t =>
      (had t).map (reloaded engine registry fields t))
    (e : Entity) (t : ComponentTypeId) :
    v.getRaw e t = (w.getRaw e t).map (reloaded engine registry fields t) := by
  rw [(represents_contents stable'.consistent).getRaw,
    (represents_contents stable.consistent).getRaw, contentsEq]
  cases w.contents e <;> rfl

/-- Entities come back with their component types, whatever becomes of the
fields. -/
theorem sameEntities_reloaded
    (stable : w.Stable registry) (stable' : v.Stable registry)
    (contentsEq : ∀ e, v.contents e = (w.contents e).map fun had t =>
      (had t).map (reloaded engine registry fields t)) :
    w.SameEntities v := by
  have represents := represents_contents stable.consistent
  have represents' := represents_contents stable'.consistent
  refine ⟨fun e => ?_, fun e => ?_⟩
  · rw [represents'.isAlive, represents.isAlive, contentsEq, Option.isSome_map]
  · refine getEntityComponentTypes_ext stable'.consistent stable.consistent
      fun t => ?_
    rw [represents'.mem_types, represents.mem_types, ← represents'.getRaw,
      ← represents.getRaw, getRaw_reloaded stable stable' contentsEq,
      Option.isSome_map]

/-- The data is the same exactly if every field comes back. -/
theorem sameData_iff_reloads
    (stable : w.Stable registry) (stable' : v.Stable registry)
    (contentsEq : ∀ e, v.contents e = (w.contents e).map fun had t =>
      (had t).map (reloaded engine registry fields t)) :
    w.SameData registry v ↔ w.Reloads engine registry fields := by
  have getRaw := getRaw_reloaded stable stable' contentsEq
  constructor
  · intro same e t schema raw registered found
    obtain ⟨raw', found', values⟩ := same.values e t schema raw registered found
    rw [getRaw, found, Option.map_some] at found'
    rw [Option.some.inj found']
    exact values
  · intro reloads
    refine ⟨sameEntities_reloaded stable stable' contentsEq,
      fun e t schema raw registered found => ?_⟩
    refine ⟨_, (getRaw e t).trans (congrArg _ found), ?_⟩
    exact reloads e t schema raw registered found

end Reloaded

/-- The ids of all entities can be created again. -/
theorem loadable_iff
    (engine : Engine) (stable : w.Stable registry) {order : List Ptr}
    (perm : order.Perm w.store.archetypeList) :
    Loadable ((w.store.listing order).map (w.dataRecord engine registry)) ↔
      ∀ e, w.isAlive e = true →
        0 < e.id.toInt64 ∧ e.slot < maxPreassignedSlot := by
  have listed := fun e =>
    mem_listing_iff_isAlive (e := e) stable.consistent perm
  have once : (((w.store.listing order).map
      (w.dataRecord engine registry)).map DataRecord.entity).Nodup := by
    rw [List.map_map]
    refine (ArchetypeStore.listing_nodup stable.consistent perm).map
      fun e x same => ?_
    simpa only [Function.comp_apply, dataRecord_entity] using same
  unfold Loadable
  rw [and_iff_left once, List.forall_mem_map]
  refine forall_congr' fun e => ?_
  rw [listed]
  refine imp_congr_right fun _ => and_congr_right fun _ => ?_
  rw [← idRefused_eq_false_iff]
  exact iff_of_eq (congrArg (fun id => idRefused id = false)
    (UInt64.toUInt64_toInt64 e.id))

/-- An entity that is a node. -/
def nodeOps : List ModeOp :=
  [.operate .createEntity, .operate (.addRaw ⟨1⟩ 1 (some [7]))]

/-- A component of one reference to another entity. -/
def nodeSchema : ComponentSchema where
  typeName := "Node"
  typeId := 1
  size := 8
  alignment := 8
  fields := [{ name := "parent", type := .i64, byteSize := 8 }]
  isNetworked := true

/-- A node is registered. -/
theorem schemaOf_node : (ComponentRegistry.ofSchemas
    nodeRegistry.schemas).schemaOf 1 = some nodeSchema := by decide +kernel

/-- There is one node. -/
theorem isAlive_node
    {e : Entity} (alive : (ModeOp.run (ComponentRegistry.ofSchemas
      nodeRegistry.schemas) nodeOps).state.isAlive e = true) : e = ⟨1⟩ := by
  have consistent : (ModeOp.run (ComponentRegistry.ofSchemas
      nodeRegistry.schemas) nodeOps).state.store.Consistent
        (ComponentRegistry.ofSchemas nodeRegistry.schemas) :=
    (ModeOp.run_stable (by decide +kernel)).consistent
  have only : ∀ x ∈ (ModeOp.run (ComponentRegistry.ofSchemas
      nodeRegistry.schemas) nodeOps).state.store.listing (ModeOp.run
        (ComponentRegistry.ofSchemas nodeRegistry.schemas)
          nodeOps).state.store.archetypeList, x = ⟨1⟩ := by decide +kernel
  exact only e ((mem_listing_iff_isAlive consistent (List.Perm.refl _)).mpr
    alive)

/-- The node is all there is. -/
theorem getRaw_node
    {e : Entity} {t : ComponentTypeId} {raw : List UInt8}
    (found : (ModeOp.run (ComponentRegistry.ofSchemas nodeRegistry.schemas)
      nodeOps).state.getRaw e t = some raw) :
    e = ⟨1⟩ ∧ t = 1 ∧ raw = [7, 0, 0, 0, 0, 0, 0, 0] := by
  generalize isSaved : (ModeOp.run (ComponentRegistry.ofSchemas
    nodeRegistry.schemas) nodeOps).state = saved at found
  have represents : saved.Represents saved.contents := by
    rw [← isSaved]
    exact represents_contents (ModeOp.run_stable (by decide +kernel)).consistent
  have present : t ∈ saved.getEntityComponentTypes e := by
    rw [represents.mem_types, ← represents.getRaw, found]
    rfl
  have alive : saved.isAlive e = true := by
    rw [represents.isAlive]
    exact Option.isSome_of_isSome_bind ((represents.mem_types e t).mp present)
  rw [← isSaved] at alive
  obtain rfl := isAlive_node alive
  have types : saved.getEntityComponentTypes ⟨1⟩ = [1] := by
    rw [← isSaved]
    decide +kernel
  obtain rfl := List.mem_singleton.mp (types ▸ present)
  have isSeven : saved.getRaw ⟨1⟩ 1 = some [7, 0, 0, 0, 0, 0, 0, 0] := by
    rw [← isSaved]
    decide +kernel
  exact ⟨rfl, rfl, Option.some.inj (found.symm.trans isSeven)⟩

end World
end VortarisECS
