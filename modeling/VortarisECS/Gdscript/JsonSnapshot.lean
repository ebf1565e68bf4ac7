import VortarisECS.Gdscript.SpawnFromData
import VortarisECS.Reflect.JsonText
import VortarisECS.Serialization.SavedWorld

/-!
# JSON snapshots

A JSON snapshot lists every entity with the fields of its components by name.
Loading one replaces the world.  Before it does, the loaders write the world as
JSON text, and when an entry cannot be spawned, they load that text.
-/

namespace VortarisECS

namespace World

variable (engine : Engine) (registry : ComponentRegistry)
variable (sort : ArchetypeStore → List Ptr)

/-! ## Saving -/

/-- One component of a row. -/
def componentToData (a : Archetype) (row : Nat)
    (comps : List (Variant × Variant)) (t : ComponentTypeId) :
    List (Variant × Variant) :=
  match registry.schemaOf t with
  | none => comps
  | some schema =>
      engine.set comps (.string schema.typeName)
        (.dictionary (componentBytesToVariantDict engine schema
          ((a.column t).row row)))

/-- One row of an archetype. -/
def rowToData (a : Archetype) (entry : Entity × Nat) : Variant :=
  let comps :=
    a.componentIds.foldl (componentToData engine registry a entry.2) []
  .dictionary [(.string "id", .int entry.1.id.toInt64),
    (.string "components", .dictionary comps)]

/-- `VECSWorld::entities_to_data`, with the archetypes in the order that
`std::sort` leaves them in. -/
def entitiesToData (w : World) (maxEntities : Int64) : List Variant :=
  let rows := (sort w.store).flatMap fun p =>
    (w.store.deref p).entities.zipIdx.map
      (rowToData engine registry (w.store.deref p))
  if 0 < maxEntities then rows.take maxEntities.toInt.toNat else rows

/-- `VECSWorld::serialize_snapshot_json`. -/
def serializeSnapshotJson (w : World) : Variant :=
  .dictionary [(.string "version", .int (Int64.ofNat snapshotVersion)),
    (.string "entities", .array (w.entitiesToData engine registry sort 0))]

/-- `VECSWorld::serialize_snapshot_json_string`. -/
def serializeSnapshotJsonString (w : World) : String :=
  engine.stringify (w.serializeSnapshotJson engine registry sort)

end World

/-! ## Loading -/

/-- `parse_snapshot_root`. -/
def Engine.parseSnapshotRoot (engine : Engine) :
    Variant → Option (List (Variant × Variant))
  | .string text => (engine.parseString text).dictionary?
  | .dictionary entries => some entries
  | _ => none

/-- The list of entities, unless the loaders refuse the data. -/
def Engine.snapshotEntities (engine : Engine) (data : Variant) :
    Option (List Variant) :=
  match engine.parseSnapshotRoot data with
  | none => none
  | some root =>
      if (engine.lookup root (.string "version")).any
          (engine.toInt · != Int64.ofNat snapshotVersion) then none
      else (engine.lookup root (.string "entities")).map engine.toArray

namespace World

variable (engine : Engine) (registry : ComponentRegistry)
variable (sort : ArchetypeStore → List Ptr)

/-- `VECSWorld::deserialize_snapshot_json`: what it does to the world, and
whether it succeeds.  The calls nest at most as deep as the fuel. -/
def deserializeSnapshotJson :
    Nat → World → Variant → Traced Effect World × Bool
  | 0, w, _ => (.pure w, false)
  | fuel + 1, w, data =>
      match engine.snapshotEntities data with
      | none => (.pure w, false)
      | some ents =>
          let backup := w.serializeSnapshotJsonString engine registry sort
          let spawned := w.clear.state.spawnFromData engine registry ents
          let replaced := w.clear.andThen fun _ => spawned.1
          if spawned.2.length ≠ ents.length then
            (replaced.andThen fun w => w.clear.andThen fun w =>
              (deserializeSnapshotJson fuel w (.string backup)).1, false)
          else (replaced, true)

/-- `VECSWorld::deserialize_snapshot_json_mapped`: what it does to the world,
and the mapping. -/
def deserializeSnapshotJsonMapped (fuel : Nat) (w : World) (data : Variant) :
    Traced Effect World × List (Variant × Variant) :=
  match engine.snapshotEntities data with
  | none => (.pure w, [])
  | some ents =>
      let backup := w.serializeSnapshotJsonString engine registry sort
      let spawned := w.clear.state.spawnFromDataMapped engine registry ents
      let replaced := w.clear.andThen fun _ => spawned.1
      if spawned.2.length ≠ ents.length then
        (replaced.andThen fun w => w.clear.andThen fun w =>
          (w.deserializeSnapshotJson engine registry sort fuel
            (.string backup)).1, [])
      else (replaced, spawned.2)

end World
end VortarisECS
