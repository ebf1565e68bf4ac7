import VortarisECS.Core.SlotSteps
import VortarisECS.Gdscript.CreateWithComponents
import VortarisECS.Gdscript.EntityHandle

/-!
# Batches of entities

A script spawns a list of entities from data.  An entry is skipped when it is no
dictionary, when its id is refused or when a component is not registered.  Which
entries are spawned, and under which ids, is settled by the allocator and the
live ids alone.
-/

namespace VortarisECS

/-- The components of an entry, with their fields. -/
def Engine.entryComponents (engine : Engine)
    (edata : List (Variant × Variant)) : NamedComponents :=
  match engine.lookup edata (.string "components") with
  | none => []
  | some components =>
      let comps := engine.toDictionary components
      comps.map fun comp =>
        let name := engine.toText comp.1
        (name, engine.toDictionary (engine.get comps (.string name)))

/-- The key of an entry in the mapping: its id, or else its index. -/
def Engine.sourceKey (engine : Engine) (indexed : Variant × Nat) : Variant :=
  (indexed.1.dictionary?.bind fun edata =>
    engine.lookup edata (.string "id")).getD (.int (Int64.ofNat indexed.2))

/-- The entry names a parent that has an id in the mapping: the id. -/
def Engine.parentOf (engine : Engine)
    (mapping : List (Variant × Variant)) (entry : Variant) : Option Variant :=
  (entry.dictionary?.bind fun edata =>
    engine.lookup edata (.string "parent")).bind (engine.lookup mapping)

/-- What a batch has made so far. -/
structure Batch where
  world : World
  out : List Entity := []
  mapping : List (Variant × Variant) := []

namespace World

variable (engine : Engine) (registry : ComponentRegistry)

/-- The creation for an entry. -/
def createForEntry (w : World) (edata : List (Variant × Variant)) :
    Traced Effect World × Option Entity :=
  match engine.lookup edata (.string "id") with
  | some id => w.createEntityPreassignedRef (engine.toInt id)
  | none => w.createEntityRef

/-- One entry of `_spawn_from_data_impl`: the handle, unless the entry is
skipped. -/
def spawnEntry (w : World) (entry : Variant) :
    Traced Effect World × Option Entity :=
  match entry.dictionary? with
  | none => (.pure w, none)
  | some edata =>
      match w.createForEntry engine edata with
      | (created, none) => (created, none)
      | (created, some e) =>
          let components := engine.entryComponents edata
          if ∃ comp ∈ components, registry.idOf comp.1 = invalidComponentType
          then (created.andThen (·.destroyEntity e), none)
          else
            (created.andThen (·.addComponents engine registry e components),
              some e)

/-- The first loop of `_spawn_from_data_impl`, for one entry and its index. -/
def spawnStep (batch : Batch) (indexed : Variant × Nat) :
    Traced Effect Batch :=
  let spawned := batch.world.spawnEntry engine registry indexed.1
  match spawned.2 with
  | none => ⟨{ batch with world := spawned.1.state }, spawned.1.effects⟩
  | some e =>
      ⟨{ world := spawned.1.state
         out := batch.out ++ [e]
         mapping := engine.set batch.mapping (engine.sourceKey indexed)
           (.int e.id.toInt64) },
        spawned.1.effects⟩

/-- All entries of a batch, one after the other. -/
def spawnEntries (w : World) (entries : List Variant) : Traced Effect Batch :=
  Traced.forEach (spawnStep engine registry) { world := w } entries.zipIdx

/-- `VECSWorld::remap_reference`. -/
def remapReference (w : World) (e : Entity) (comp field : String)
    (map : List (Variant × Variant)) : Traced Effect World :=
  let remap (current : Variant) : Traced Effect World :=
    match engine.lookup map (.int (engine.toInt current)) with
    | none => .pure w
    | some dst =>
        w.setf engine registry e comp field (.int (engine.toInt dst))
  match w.getf engine registry e comp field .nil with
  | .int value => remap (.int value)
  | .float bits => remap (.float bits)
  | _ => .pure w

/-- The second loop of `_spawn_from_data_impl`, for the entry and the handle
with one index. -/
def autoParent (mapping : List (Variant × Variant)) (w : World)
    (item : Variant × Entity) : Traced Effect World :=
  match engine.parentOf mapping item.1 with
  | none => .pure w
  | some _ =>
      let hasParent (t : ComponentTypeId) : Option ComponentSchema :=
        (registry.schemaOf t).filter fun schema =>
          (schema.findField "parent").isSome
      match (w.getEntityComponentTypes item.2).findSome? hasParent with
      | none => .pure w
      | some schema =>
          w.remapReference engine registry item.2 schema.typeName "parent"
            mapping

/-- `VECSWorld::_spawn_from_data_impl`: the batch at its end. -/
def spawnFromDataImpl (w : World) (entries : List Variant) :
    Traced Effect Batch :=
  (w.spawnEntries engine registry entries).andThen fun batch =>
    let parented := Traced.forEach (autoParent engine registry batch.mapping)
      batch.world (entries.zip batch.out)
    ⟨{ batch with world := parented.state }, parented.effects⟩

/-- `VECSWorld::spawn_from_data`. -/
def spawnFromData (w : World) (entries : List Variant) :
    Traced Effect World × List Entity :=
  let batch := w.spawnFromDataImpl engine registry entries
  (⟨batch.state.world, batch.effects⟩, batch.state.out)

/-- `VECSWorld::spawn_from_data_mapped`. -/
def spawnFromDataMapped (w : World) (entries : List Variant) :
    Traced Effect World × List (Variant × Variant) :=
  let batch := w.spawnFromDataImpl engine registry entries
  (⟨batch.state.world, batch.effects⟩, batch.state.mapping)

end World

/-! ## Which entries are spawned -/

/-- An entry with its index and the entity that was spawned for it. -/
structure SpawnedEntry where
  source : Variant × Nat
  entity : Entity

/-- The entry has an entity, not just a null handle. -/
def SpawnedEntry.Real (spawned : SpawnedEntry) : Prop :=
  spawned.entity ≠ Entity.null

/-- The components of the entry. -/
def SpawnedEntry.components (engine : Engine) (spawned : SpawnedEntry) :
    NamedComponents :=
  engine.entryComponents (spawned.source.1.dictionary?.getD [])

/-- The mapping that a list of spawned entries adds to. -/
def Engine.mapSources (engine : Engine)
    (mapping : List (Variant × Variant)) (spawned : List SpawnedEntry) :
    List (Variant × Variant) :=
  spawned.foldl (fun mapping s =>
    engine.set mapping (engine.sourceKey s.source)
      (.int s.entity.id.toInt64)) mapping

/-- The entries of a batch that are spawned. -/
def World.spawnedEntries (engine : Engine) (registry : ComponentRegistry)
    (w : World) : List (Variant × Nat) → List SpawnedEntry
  | [] => []
  | indexed :: later =>
      let spawned := w.spawnEntry engine registry indexed.1
      (spawned.2.map (SpawnedEntry.mk indexed)).toList ++
        spawned.1.state.spawnedEntries engine registry later

/-- What the ids of a batch depend on. -/
structure Ids where
  slots : EntitySlots
  live : Entity → Bool

/-- The ids of a world: its allocator, and which entities are alive. -/
def World.ids (w : World) : Ids := ⟨w.slots, w.isAlive⟩

namespace Ids

variable (engine : Engine) (registry : ComponentRegistry)

/-- An entity comes to life. -/
def bear (ids : Ids) (slots : EntitySlots) (e : Entity) : Ids :=
  ⟨slots, Function.update ids.live e true⟩

/-- Create an entity, with the given id if there is one. -/
def create (ids : Ids) : Option Int64 → Ids × Option Entity
  | none =>
      let allocated := ids.slots.allocEntityId
      (if allocated.2 = Entity.null then { ids with slots := allocated.1 }
        else ids.bear allocated.1 allocated.2, some allocated.2)
  | some id =>
      let e : Entity := ⟨id.toUInt64⟩
      if id ≤ 0 ∨ idRefused e.id = true then (ids, none)
      else if ids.live e then
        ({ ids with slots := ids.slots.growTo (e.slot + 1) }, none)
      else (ids.bear (ids.slots.adopt e) e, some e)

/-- An entity dies and its slot is freed; a dead one is left alone. -/
def release (ids : Ids) (e : Entity) : Ids :=
  if ids.live e then
    ⟨ids.slots.freeEntityId e, Function.update ids.live e false⟩
  else ids

/-- Spawn an entry; an iteration keeps what cannot be completed. -/
def spawn (inIteration : Bool) (ids : Ids) (entry : Variant) :
    Ids × Option Entity :=
  match entry.dictionary? with
  | none => (ids, none)
  | some edata =>
      match ids.create ((engine.lookup edata (.string "id")).map engine.toInt)
        with
      | (created, none) => (created, none)
      | (created, some e) =>
          if ∃ comp ∈ engine.entryComponents edata,
              registry.idOf comp.1 = invalidComponentType
          then (if inIteration then created else created.release e, none)
          else (created, some e)

/-- The entries of a batch that will be spawned. -/
def plan (inIteration : Bool) (ids : Ids) :
    List (Variant × Nat) → List SpawnedEntry
  | [] => []
  | indexed :: later =>
      let spawned := ids.spawn engine registry inIteration indexed.1
      (spawned.2.map (SpawnedEntry.mk indexed)).toList ++
        spawned.1.plan inIteration later

end Ids

namespace World

variable {engine : Engine} {registry : ComponentRegistry} {w : World}
variable {e : Entity}

/-! ### The creation -/

/-- The creation is one that `create_with_components` makes, too, or it is
refused. -/
theorem createForEntry_eq
    (engine : Engine) (w : World) (edata : List (Variant × Variant)) :
    w.createForEntry engine edata = (.pure w, none) ∨
      ∃ defId, w.createForEntry engine edata = w.createForDef defId := by
  unfold createForEntry
  cases engine.lookup edata (.string "id") with
  | none => exact Or.inr ⟨0, rfl⟩
  | some id =>
      dsimp only
      by_cases positive : 0 < engine.toInt id
      · refine Or.inr ⟨engine.toInt id, ?_⟩
        rw [createForDef, if_pos positive]
      · refine Or.inl ?_
        rw [createEntityPreassignedRef,
          if_pos (Int64.not_lt.mp positive)]

/-- Creating the entity of an entry opens no walk or window. -/
theorem createForEntry_control
    (engine : Engine) (w : World) (edata : List (Variant × Variant)) :
    (w.createForEntry engine edata).1.state.control = w.control := by
  obtain refused | ⟨defId, same⟩ := createForEntry_eq engine w edata
  · rw [refused]
    rfl
  · rw [same]
    exact createForDef_control w defId

/-- It keeps the world stable. -/
theorem createForEntry_stable
    {edata : List (Variant × Variant)} (stable : w.Stable registry)
    (issuesDead : Traced.Accepted Effect.IssuesDead
      (w.createForEntry engine edata).1) :
    (w.createForEntry engine edata).1.state.Stable registry := by
  obtain refused | ⟨defId, same⟩ := createForEntry_eq engine w edata
  · rw [refused]
    exact stable
  · rw [same] at issuesDead ⊢
    exact (createForDef_realizes defId).keeps (stable_inductiveOn registry) w
      stable issuesDead

/-- A refused creation does nothing. -/
theorem createForEntry_refused
    {edata : List (Variant × Variant)} (stable : w.Stable registry)
    (issuesDead : Traced.Accepted Effect.IssuesDead
      (w.createForEntry engine edata).1)
    (refused : (w.createForEntry engine edata).2 = none) :
    (w.createForEntry engine edata).1.state.contents = w.contents := by
  obtain nothing | ⟨defId, same⟩ := createForEntry_eq engine w edata
  · rw [nothing]
    rfl
  · rw [same] at issuesDead refused ⊢
    have contents := createForDef_contents stable issuesDead
    rw [← createForDef_handle, refused] at contents
    exact contents

/-- A creation that hands out an id brings it to life. -/
theorem createForEntry_created
    {edata : List (Variant × Variant)} (stable : w.Stable registry)
    (issuesDead : Traced.Accepted Effect.IssuesDead
      (w.createForEntry engine edata).1)
    (handle : (w.createForEntry engine edata).2 = some e) :
    if e = Entity.null then
      (w.createForEntry engine edata).1.state.contents = w.contents
    else w.isAlive e = false ∧
      (w.createForEntry engine edata).1.state.contents =
        w.contents.spawn e := by
  obtain nothing | ⟨defId, same⟩ := createForEntry_eq engine w edata
  · rw [nothing] at handle
    exact absurd handle (by simp)
  · rw [same] at issuesDead handle ⊢
    have contents := createForDef_contents stable issuesDead
    rw [← createForDef_handle, handle] at contents
    exact contents

/-- An entity that is spawned is born. -/
theorem ids_eq_bear
    {w' : World} {slots : EntitySlots} (slotsEq : w'.slots = slots)
    (spawned : w'.contents = w.contents.spawn e) :
    w'.ids = w.ids.bear slots e := by
  unfold ids Ids.bear
  rw [slotsEq, Ids.mk.injEq]
  refine ⟨rfl, funext fun x => ?_⟩
  rw [← contents_isSome, spawned, Contents.spawn, Function.update_apply]
  split
  · rfl
  · exact contents_isSome w x

/-- The ids depend on the allocator and on who is alive. -/
theorem ids_eq_of_contents
    {w' : World} {slots : EntitySlots} (slotsEq : w'.slots = slots)
    (same : w'.contents = w.contents) :
    w'.ids = { w.ids with slots := slots } := by
  unfold ids
  rw [slotsEq, Ids.mk.injEq]
  refine ⟨rfl, funext fun x => ?_⟩
  rw [← contents_isSome, same, contents_isSome]

/-- A creation allocates an id. -/
theorem createEntity_slots (w : World) :
    w.createEntity.1.state.slots = w.slots.allocEntityId.1 := by
  unfold createEntity
  dsimp only
  split
  · rfl
  · exact slots_invalidateCache _

/-- A creation of a given id adopts it, if it is free. -/
theorem createEntityPreassigned_slots
    {id : UInt64} (accepted : idRefused id = false) :
    (w.createEntityPreassigned id).state.slots =
      if w.isAlive ⟨id⟩ then w.slots.growTo ((⟨id⟩ : Entity).slot + 1)
      else w.slots.adopt ⟨id⟩ := by
  obtain ⟨formed, bounded⟩ := idRefused_eq_false accepted
  have sameAlive : w.isAlive ⟨id⟩ = w.store.isAlive ⟨id⟩ := by
    rw [isAlive, decide_eq_true (real_of_accepted accepted), Bool.true_and]
  unfold createEntityPreassigned
  dsimp only
  rw [if_neg formed, if_neg bounded, sameAlive]
  cases alive : w.store.isAlive ⟨id⟩ with
  | true =>
      exact congrArg (fun step : Traced Effect World => step.state.slots)
        (if_pos alive)
  | false =>
      have grownDead : ¬(w.setSlots (w.slots.growTo
          ((⟨id⟩ : Entity).slot + 1))).store.isAlive ⟨id⟩ = true :=
        Bool.eq_false_iff.mp alive
      rw [if_neg grownDead, if_neg Bool.false_ne_true]
      exact slots_invalidateCache _

/-- An id that is refused in every world changes nothing. -/
theorem createEntityPreassigned_invalid
    {id : UInt64} (refused : idRefused id = true) :
    w.createEntityPreassigned id = .pure w := by
  unfold idRefused at refused
  rw [Bool.or_eq_true, decide_eq_true_eq, decide_eq_true_eq] at refused
  unfold createEntityPreassigned
  dsimp only
  split
  · rfl
  · rename_i formed
    rw [if_pos (refused.resolve_left formed)]

/-- A given id is handed back if it was accepted. -/
theorem preassignedHandle_eq
    (stable : w.Stable registry) (id : UInt64) :
    w.preassignedHandle id =
      if idRefused id = true ∨ w.isAlive ⟨id⟩ = true then Entity.null
      else ⟨id⟩ := by
  split
  · rename_i refused
    by_contra given
    obtain ⟨accepted, dead⟩ := preassignedHandle_given given
    rw [accepted, dead] at refused
    exact absurd refused (by simp)
  · rename_i given
    obtain ⟨accepted, dead⟩ := not_or.mp given
    exact (createEntityPreassigned_spawns stable (Bool.eq_false_iff.mpr accepted)
      (Bool.eq_false_iff.mpr dead)).1

/-- A creation, as the ids see it. -/
theorem createEntityRef_ids
    (stable : w.Stable registry)
    (issuesDead : Traced.Accepted Effect.IssuesDead w.createEntity.1) :
    w.ids.create none = (w.createEntity.1.state.ids, some w.createEntity.2) := by
  have handle : w.createEntityRef = w.createForDef 0 := rfl
  have contents := createForDef_contents stable
    (show Traced.Accepted Effect.IssuesDead (w.createForDef 0).1 from issuesDead)
  rw [← createForDef_handle, ← handle] at contents
  dsimp only [createEntityRef] at contents
  unfold Ids.create
  dsimp only
  rw [show w.ids.slots.allocEntityId.2 = w.createEntity.2 from
    (createEntity_handle w).symm]
  refine Prod.ext ?_ rfl
  dsimp only
  split
  · rename_i isNull
    rw [if_pos isNull] at contents
    exact (ids_eq_of_contents (createEntity_slots w) contents).symm
  · rename_i isReal
    rw [if_neg isReal] at contents
    exact (ids_eq_bear (createEntity_slots w) contents.2).symm

/-- A creation of a given id, as the ids see it. -/
theorem createEntityPreassignedRef_ids
    (stable : w.Stable registry) (id : Int64) :
    w.ids.create (some id) =
      ((w.createEntityPreassignedRef id).1.state.ids,
        (w.createEntityPreassignedRef id).2) := by
  unfold createEntityPreassignedRef Ids.create
  dsimp only
  by_cases negative : id ≤ 0
  · rw [if_pos negative, if_pos (Or.inl negative)]
    rfl
  rw [if_neg negative]
  have handle := preassignedHandle_eq stable id.toUInt64
  cases refused : idRefused id.toUInt64 with
  | true =>
      rw [refused, if_pos (Or.inl rfl)] at handle
      rw [createEntityPreassigned_invalid refused, if_pos (Or.inr rfl), handle,
        if_pos rfl]
      rfl
  | false =>
      have slotsEq := createEntityPreassigned_slots (w := w) refused
      rw [if_neg (not_or.mpr ⟨negative, Bool.false_ne_true⟩)]
      change (if w.isAlive ⟨id.toUInt64⟩ = true then _ else _) = _
      cases alive : w.isAlive ⟨id.toUInt64⟩ with
      | true =>
          rw [alive, if_pos rfl] at slotsEq
          rw [refused, alive, if_pos (Or.inr rfl)] at handle
          rw [ids_eq_of_contents slotsEq
            (createEntityPreassigned_refused handle), handle, if_pos rfl,
            if_pos rfl]
          rfl
      | false =>
          rw [alive, if_neg Bool.false_ne_true] at slotsEq
          obtain ⟨given, -, contents⟩ :=
            createEntityPreassigned_spawns stable refused alive
          rw [ids_eq_bear slotsEq contents, given,
            if_neg (real_of_accepted refused), if_neg Bool.false_ne_true]
          rfl

/-- The creation is settled by the allocator and the live ids. -/
theorem createForEntry_ids
    {edata : List (Variant × Variant)} (stable : w.Stable registry)
    (issuesDead : Traced.Accepted Effect.IssuesDead
      (w.createForEntry engine edata).1) :
    w.ids.create ((engine.lookup edata (.string "id")).map engine.toInt) =
      ((w.createForEntry engine edata).1.state.ids,
        (w.createForEntry engine edata).2) := by
  unfold createForEntry at issuesDead ⊢
  cases found : engine.lookup edata (.string "id") with
  | none =>
      rw [found] at issuesDead
      exact createEntityRef_ids stable issuesDead
  | some id => exact createEntityPreassignedRef_ids stable (engine.toInt id)

/-! ### One entry -/

/-- A destruction, as the ids see it. -/
theorem destroyEntity_ids (stable : w.Stable registry) (e : Entity) :
    (w.destroyEntity e).state.ids =
      if w.inIteration then w.ids else w.ids.release e := by
  have live : w.ids.live e = w.isAlive e := rfl
  unfold Ids.release
  rw [live]
  cases iterating : w.inIteration with
  | true =>
      unfold destroyEntity
      rw [iterating]
      split <;> rfl
  | false =>
      rw [if_neg Bool.false_ne_true]
      have killed := destroyEntity_contents (e := e) stable.consistent iterating
      cases alive : w.isAlive e with
      | false =>
          rw [if_neg Bool.false_ne_true]
          by_cases isNull : e = Entity.null
          · rw [isNull, rollback_null stable, Traced.pure_state]
          · unfold destroyEntity
            rw [lookup_eq_none_of_dead isNull alive, Traced.pure_state]
      | true =>
          obtain ⟨loc, location⟩ := location_of_isAlive alive
          have slotsEq : (w.destroyEntity e).state.slots =
              w.slots.freeEntityId e := by
            unfold destroyEntity
            rw [location, iterating]
            exact slots_invalidateCache _
          rw [if_pos rfl]
          unfold ids
          rw [slotsEq, Ids.mk.injEq]
          refine ⟨rfl, funext fun x => ?_⟩
          rw [← contents_isSome, killed, Contents.kill, Function.update_apply]
          split
          · rfl
          · exact contents_isSome w x

/-- A dead entity gets no components. -/
theorem addComponents_dead
    (dead : w.isAlive e = false) (components : NamedComponents) :
    w.addComponents engine registry e components = .pure w := by
  have skips : ∀ name fields,
      w.addComponent engine registry e name fields = .pure w := by
    intro name fields
    unfold addComponent
    dsimp only
    rw [dead]
    split <;> rfl
  unfold addComponents
  induction components with
  | nil => rfl
  | cons comp components inductionHypothesis =>
      rw [Traced.forEach_cons, skips, Traced.pure_andThen, inductionHypothesis]

/-- Components need no ids. -/
theorem addComponents_slots (w : World) (components : NamedComponents) :
    (w.addComponents engine registry e components).state.slots = w.slots := by
  unfold addComponents
  induction components generalizing w with
  | nil => rfl
  | cons comp components inductionHypothesis =>
      rw [Traced.forEach_cons, Traced.andThen_state, inductionHypothesis]
      unfold addComponent
      dsimp only
      split
      · rfl
      · split
        · rfl
        · split
          · rfl
          · exact addRaw_slots _ _ _ _

/-- An entity that gets its components keeps the ids as they are. -/
theorem Adding.ids_eq
    {start : World} {added : Components → Components}
    (adding : Adding registry start e added w) (slotsEq : w.slots = start.slots)
    (alive : start.isAlive e = true) : w.ids = start.ids := by
  unfold ids
  rw [slotsEq, Ids.mk.injEq]
  refine ⟨rfl, funext fun x => ?_⟩
  by_cases isSelf : x = e
  · rw [isSelf, adding.alive, alive]
  · rw [← contents_isSome, adding.elsewhere x isSelf, contents_isSome]

/-- A step that at most brings a bare entity to life. -/
structure Skips (registry : ComponentRegistry) (w w' : World) : Prop where
  stable : w'.Stable registry
  control : w'.control = w.control
  kept : ∀ x, w.isAlive x = true → w'.contents x = w.contents x
  whole : w.inIteration = false → w'.contents = w.contents

/-- The entry brings an entity to life and adds its components. -/
structure Spawns (engine : Engine) (registry : ComponentRegistry)
    (w : World) (entry : Variant) (e : Entity) (w' : World) : Prop where
  dead : w.isAlive e = false
  adds : ∃ created : World, created.control = w.control ∧
    created.contents = w.contents.spawn e ∧
    Adding registry created e (putGiven engine registry
      (engine.entryComponents (entry.dictionary?.getD []))) w'

/-- What became of an entry. -/
def Outcome (engine : Engine) (registry : ComponentRegistry) (w : World)
    (entry : Variant) (spawned : Traced Effect World × Option Entity) : Prop :=
  match spawned.2 with
  | none => Skips registry w spawned.1.state
  | some e =>
      if e = Entity.null then Skips registry w spawned.1.state
      else Spawns engine registry w entry e spawned.1.state

/-- A creation that is taken back at most leaves a bare entity. -/
theorem skips_rollback
    {created : World} (stable : created.Stable registry)
    (control : created.control = w.control)
    (spawned : if e = Entity.null then created.contents = w.contents
      else w.isAlive e = false ∧ created.contents = w.contents.spawn e) :
    Skips registry w (created.destroyEntity e).state := by
  have iterationEq : created.inIteration = w.inIteration :=
    inIteration_congr control
  have isNullOr : e = Entity.null →
      (created.destroyEntity e).state.contents = w.contents := by
    intro isNull
    rw [if_pos isNull] at spawned
    rw [isNull, rollback_null stable, Traced.pure_state, spawned]
  have whole : w.inIteration = false →
      (created.destroyEntity e).state.contents = w.contents := by
    intro outside
    by_cases isNull : e = Entity.null
    · exact isNullOr isNull
    · rw [if_neg isNull] at spawned
      rw [destroyEntity_contents stable.consistent (iterationEq.trans outside),
        spawned.2]
      funext x
      by_cases isSelf : x = e
      · rw [isSelf, Contents.kill_self, contents_of_dead spawned.1]
      · rw [Contents.kill_of_ne _ isSelf, Contents.spawn, if_neg isSelf]
  have kept : ∀ x, w.isAlive x = true →
      (created.destroyEntity e).state.contents x = w.contents x := by
    intro x alive
    cases iterating : w.inIteration with
    | false => rw [whole iterating]
    | true =>
        by_cases isNull : e = Entity.null
        · rw [isNullOr isNull]
        · rw [if_neg isNull] at spawned
          have other : x ≠ e := by
            rintro rfl
            rw [alive] at spawned
            exact absurd spawned.1 (by simp)
          have refused : created.destroyEntity e = .pure created := by
            unfold destroyEntity
            rw [iterationEq.trans iterating]
            split <;> rfl
          rw [refused, Traced.pure_state, spawned.2, Contents.spawn,
            if_neg other]
  exact {
    stable := stable.keeps
      (destroyEntity_realizes e)
      (destroyEntity_createsNothing created e)
    control := (destroyEntity_control created e).trans control
    kept := kept
    whole := whole }

/-- Registered components are added to a bare entity. -/
theorem adding_of_valid
    (engine : Engine)
    (named : ∀ name, registry.idOf name ≠ invalidComponentType →
      (registry.schemaOf (registry.idOf name)).isSome)
    (stable : w.Stable registry) (listed : w.control.Listed)
    (bare : w.contents e = some fun _ => none) {components : NamedComponents}
    (valid : ¬∃ comp ∈ components,
      registry.idOf comp.1 = invalidComponentType) :
    Adding registry w e (putGiven engine registry components)
      (w.addComponents engine registry e components).state := by
  refine (Adding.refl stable listed bare).addComponents fun comp member => ?_
  have hasId : registry.idOf comp.1 ≠ invalidComponentType :=
    fun invalid => valid ⟨comp, member, invalid⟩
  exact ⟨hasId, named comp.1 hasId⟩

/-- The allocator and the live ids settle what becomes of an entry, and it is
skipped or spawned with its components. -/
theorem spawnEntry_spec
    (named : ∀ name, registry.idOf name ≠ invalidComponentType →
      (registry.schemaOf (registry.idOf name)).isSome)
    (stable : w.Stable registry) (listed : w.control.Listed) {entry : Variant}
    (issuesDead : Traced.Accepted Effect.IssuesDead
      (w.spawnEntry engine registry entry).1) :
    w.ids.spawn engine registry w.inIteration entry =
        ((w.spawnEntry engine registry entry).1.state.ids,
          (w.spawnEntry engine registry entry).2) ∧
      w.Outcome engine registry entry
        (w.spawnEntry engine registry entry) := by
  unfold spawnEntry at issuesDead ⊢
  unfold Ids.spawn Outcome
  cases isEntry : entry.dictionary? with
  | none =>
      exact ⟨rfl, stable, rfl, fun _ _ => rfl, fun _ => rfl⟩
  | some edata =>
  rw [isEntry] at issuesDead
  dsimp only at issuesDead ⊢
  have creationIssuesDead : Traced.Accepted Effect.IssuesDead
      (w.createForEntry engine edata).1 := by
    cases creation : w.createForEntry engine edata with
    | mk created handle =>
        rw [creation] at issuesDead
        cases handle with
        | none => exact issuesDead
        | some e =>
            dsimp only at issuesDead ⊢
            split at issuesDead
            · exact ((Traced.accepted_andThen _ _ _).mp issuesDead).1
            · exact ((Traced.accepted_andThen _ _ _).mp issuesDead).1
  have control := createForEntry_control engine w edata
  have createdStable := createForEntry_stable stable creationIssuesDead
  have refuses := createForEntry_refused stable creationIssuesDead
  have creates := fun e =>
    createForEntry_created (e := e) stable creationIssuesDead
  rw [createForEntry_ids stable creationIssuesDead]
  cases creation : w.createForEntry engine edata with
  | mk created handle =>
  rw [creation] at control createdStable refuses creates
  cases handle with
  | none =>
      have same := refuses rfl
      exact ⟨rfl, createdStable, control, fun x _ => congrFun same x,
        fun _ => same⟩
  | some e =>
  have spawned := creates e rfl
  dsimp only at control createdStable spawned ⊢
  by_cases invalid : ∃ comp ∈ engine.entryComponents edata,
      registry.idOf comp.1 = invalidComponentType
  · rw [if_pos invalid, if_pos invalid]
    dsimp only [Traced.andThen_state]
    rw [destroyEntity_ids createdStable, inIteration_congr control]
    exact ⟨rfl, skips_rollback createdStable control spawned⟩
  · rw [if_neg invalid, if_neg invalid]
    dsimp only [Traced.andThen_state]
    by_cases isNull : e = Entity.null
    · rw [if_pos isNull] at spawned ⊢
      have dead : created.state.isAlive e = false := by
        rw [isNull]
        rfl
      rw [addComponents_dead dead, Traced.pure_state]
      exact ⟨rfl, createdStable, control, fun x _ => congrFun spawned x,
        fun _ => spawned⟩
    · rw [if_neg isNull] at spawned ⊢
      have bare : created.state.contents e = some fun _ => none := by
        rw [spawned.2, Contents.spawn, if_pos rfl]
      have adding := adding_of_valid engine named createdStable
        (listed_of_control listed control) bare invalid
      have alive : created.state.isAlive e = true := by
        rw [← contents_isSome, bare]
        rfl
      have data : entry.dictionary?.getD [] = edata := by
        rw [isEntry, Option.getD_some]
      refine ⟨?_, spawned.1, created.state, control, spawned.2, ?_⟩
      · rw [adding.ids_eq (addComponents_slots _ _) alive]
      · rw [data]
        exact adding

/-! ### The batch -/

/-- What the end of the window will leave of an entity that the world spawns
with the components. -/
def spawnSettles (engine : Engine) (registry : ComponentRegistry) (w : World)
    (e : Entity) (components : NamedComponents) : Option Components :=
  if w.deferMoves then
    if e ∈ w.pendingDestroy then
      if w.inIteration then some fun _ => none else none
    else
      some (putGiven engine registry components
        (Components.executeAll registry (fun _ => none)
          ((w.pendingOps.lookup e).getD [])))
  else if w.inIteration then some fun _ => none
  else some (givenComponents engine registry components)

/-- What the entity of an entry settles to. -/
theorem Spawns.settles
    {entry : Variant} {w' : World}
    (spawns : Spawns engine registry w entry e w') :
    w'.settled registry e = w.spawnSettles engine registry e
      (engine.entryComponents (entry.dictionary?.getD [])) := by
  obtain ⟨created, control, spawned, adding⟩ := spawns.adds
  have bare : created.contents e = some fun _ => none := by
    rw [spawned, Contents.spawn, if_pos rfl]
  obtain ⟨deferEq, iterationEq, destroyEq, opsEq⟩ :=
    inIteration_of_control control
  have before : created.settled registry e =
      if w.deferMoves then
        if e ∈ w.pendingDestroy then
          if w.inIteration then some fun _ => none else none
        else some (Components.executeAll registry (fun _ => none)
          ((w.pendingOps.lookup e).getD []))
      else some fun _ => none := by
    unfold settled
    rw [deferEq, iterationEq, destroyEq, opsEq, bare]
    rfl
  have takes : created.TakesAdditions e ↔
      if w.deferMoves then e ∉ w.pendingDestroy else w.inIteration = false := by
    unfold TakesAdditions
    rw [deferEq, iterationEq, destroyEq]
  unfold spawnSettles
  by_cases taken : created.TakesAdditions e
  · rw [adding.taken taken, before]
    rw [takes] at taken
    cases deferred : w.deferMoves with
    | true =>
        rw [deferred, if_pos rfl] at taken
        rw [if_pos rfl, if_pos rfl, if_neg taken, if_neg taken,
          Option.map_some]
    | false =>
        rw [deferred, if_neg Bool.false_ne_true] at taken
        rw [if_neg Bool.false_ne_true, if_neg Bool.false_ne_true, taken,
          if_neg Bool.false_ne_true, Option.map_some]
        rfl
  · rw [adding.refused taken, before]
    rw [takes] at taken
    cases deferred : w.deferMoves with
    | true =>
        rw [deferred, if_pos rfl, not_not] at taken
        rw [if_pos rfl, if_pos rfl, if_pos taken, if_pos taken]
    | false =>
        rw [deferred, if_neg Bool.false_ne_true, Bool.not_eq_false] at taken
        rw [if_neg Bool.false_ne_true, if_neg Bool.false_ne_true, taken,
          if_pos rfl]

/-- What has become of a world that spawned the entries. -/
structure Batched (engine : Engine) (registry : ComponentRegistry)
    (start : World) (spawned : List SpawnedEntry) (w : World) : Prop where
  stable : w.Stable registry
  listed : w.control.Listed
  deferMoves : w.deferMoves = start.deferMoves
  inIteration : w.inIteration = start.inIteration
  pendingDestroy : w.pendingDestroy = start.pendingDestroy
  queued : ∀ x, (∀ s ∈ spawned, s.entity ≠ x) →
    (w.pendingOps.lookup x).getD [] = (start.pendingOps.lookup x).getD []
  old : ∀ x, start.isAlive x = true → w.contents x = start.contents x
  elsewhere : start.inIteration = false → ∀ x, (∀ s ∈ spawned, s.entity ≠ x) →
    w.contents x = start.contents x
  fresh : ∀ s ∈ spawned, s.Real →
    start.isAlive s.entity = false ∧ w.isAlive s.entity = true
  once : spawned.Pairwise fun s later => s.Real → s.entity ≠ later.entity
  own : ∀ s ∈ spawned, s.Real → w.settled registry s.entity =
    start.spawnSettles engine registry s.entity (s.components engine)
  bare : start.deferMoves = true ∨ start.inIteration = true →
    ∀ s ∈ spawned, s.Real → w.contents s.entity = some fun _ => none

section Batched

variable {start w' : World} {spawned : List SpawnedEntry}

/-- Nothing was spawned yet. -/
theorem Batched.refl
    (stable : w.Stable registry) (listed : w.control.Listed) :
    Batched engine registry w [] w where
  stable := stable
  listed := listed
  deferMoves := rfl
  inIteration := rfl
  pendingDestroy := rfl
  queued _ _ := rfl
  old _ _ := rfl
  elsewhere _ _ _ := rfl
  fresh _ member := absurd member List.not_mem_nil
  once := List.Pairwise.nil
  own _ member := absurd member List.not_mem_nil
  bare _ _ member := absurd member List.not_mem_nil

/-- A skipped entry changes nothing for the others. -/
theorem Batched.skips
    (batched : Batched engine registry start spawned w)
    (skips : Skips registry w w') :
    Batched engine registry start spawned w' := by
  obtain ⟨deferEq, iterationEq, destroyEq, opsEq⟩ :=
    inIteration_of_control skips.control
  have kept : ∀ s ∈ spawned, s.Real →
      w'.contents s.entity = w.contents s.entity :=
    fun s member real => skips.kept _ (batched.fresh s member real).2
  exact {
    stable := skips.stable
    listed := listed_of_control batched.listed skips.control
    deferMoves := deferEq.trans batched.deferMoves
    inIteration := iterationEq.trans batched.inIteration
    pendingDestroy := destroyEq.trans batched.pendingDestroy
    queued := fun x other => by
      rw [opsEq]
      exact batched.queued x other
    old := fun x alive => by
      have aliveNow : w.isAlive x = true := by
        rw [← contents_isSome, batched.old x alive, contents_isSome, alive]
      exact (skips.kept x aliveNow).trans (batched.old x alive)
    elsewhere := fun outside x apart => by
      rw [skips.whole (batched.inIteration.trans outside)]
      exact batched.elsewhere outside x apart
    fresh := fun s member real => by
      refine ⟨(batched.fresh s member real).1, ?_⟩
      rw [← contents_isSome, kept s member real, contents_isSome,
        (batched.fresh s member real).2]
    once := batched.once
    own := fun s member real =>
      (settled_congr skips.control (kept s member real)).trans
        (batched.own s member real)
    bare := fun closed s member real =>
      (kept s member real).trans (batched.bare closed s member real) }

/-- A null handle is nothing to speak of. -/
theorem Batched.append_null
    (batched : Batched engine registry start spawned w)
    (source : Variant × Nat) :
    Batched engine registry start (spawned ++ [⟨source, Entity.null⟩]) w := by
  have fromList : ∀ s ∈ spawned ++ [⟨source, Entity.null⟩], s.Real →
      s ∈ spawned := by
    intro s member real
    obtain member | isNull := List.mem_append.mp member
    · exact member
    · rw [List.mem_singleton.mp isNull] at real
      exact absurd rfl real
  exact {
    batched with
    queued := fun x other => batched.queued x fun s member =>
      other s (List.mem_append_left _ member)
    elsewhere := fun outside x apart =>
      batched.elsewhere outside x fun s member =>
        apart s (List.mem_append_left _ member)
    fresh := fun s member real =>
      batched.fresh s (fromList s member real) real
    once := List.pairwise_append.mpr ⟨batched.once, List.pairwise_singleton _ _,
      fun s _ later isNull real => by
        rw [List.mem_singleton.mp isNull]
        exact real⟩
    own := fun s member real => batched.own s (fromList s member real) real
    bare := fun closed s member real =>
      batched.bare closed s (fromList s member real) real }

/-- One more spawned entry. -/
theorem Batched.spawns
    (batched : Batched engine registry start spawned w)
    {source : Variant × Nat} (real : e ≠ Entity.null)
    (spawns : Spawns engine registry w source.1 e w') :
    Batched engine registry start (spawned ++ [⟨source, e⟩]) w' := by
  obtain ⟨created, control, births, adding⟩ := spawns.adds
  obtain ⟨deferEq, iterationEq, destroyEq, opsEq⟩ :=
    inIteration_of_control control
  have other : ∀ x, w.isAlive x = true → x ≠ e := by
    rintro x alive rfl
    rw [spawns.dead] at alive
    exact absurd alive Bool.false_ne_true
  have others : ∀ s ∈ spawned, s.entity ≠ e := by
    intro s member
    by_cases isReal : s.Real
    · exact other _ (batched.fresh s member isReal).2
    · rw [SpawnedEntry.Real, not_not] at isReal
      rw [isReal]
      exact real.symm
  have before : ∀ x, x ≠ e → created.contents x = w.contents x := by
    intro x isOther
    rw [births, Contents.spawn, if_neg isOther]
  have kept : ∀ x, x ≠ e → w'.contents x = w.contents x := fun x isOther =>
    (adding.elsewhere x isOther).trans (before x isOther)
  have aliveBefore : ∀ x, start.isAlive x = true → w.isAlive x = true := by
    intro x alive
    rw [← contents_isSome, batched.old x alive, contents_isSome, alive]
  have forEach : ∀ {p : SpawnedEntry → Prop}, (∀ s ∈ spawned, p s) →
      p ⟨source, e⟩ → ∀ s ∈ spawned ++ [⟨source, e⟩], p s :=
    fun all new => List.forall_mem_append.mpr
      ⟨all, List.forall_mem_singleton.mpr new⟩
  exact {
    stable := adding.stable
    listed := adding.listed
    deferMoves := (adding.deferMoves.trans deferEq).trans batched.deferMoves
    inIteration :=
      (adding.inIteration.trans iterationEq).trans batched.inIteration
    pendingDestroy :=
      (adding.pendingDestroy.trans destroyEq).trans batched.pendingDestroy
    queued := fun x apart => by
      have isOther : x ≠ e := (apart ⟨source, e⟩ (by simp)).symm
      rw [adding.queuedElsewhere x isOther, opsEq]
      exact batched.queued x fun s member =>
        apart s (List.mem_append_left _ member)
    old := fun x alive => (kept x (other x (aliveBefore x alive))).trans
      (batched.old x alive)
    elsewhere := fun outside x apart => by
      have isOther : x ≠ e := (apart ⟨source, e⟩ (by simp)).symm
      rw [kept x isOther]
      exact batched.elsewhere outside x fun s member =>
        apart s (List.mem_append_left _ member)
    fresh := by
      refine forEach (fun s member isReal => ?_) fun _ => ?_
      · refine ⟨(batched.fresh s member isReal).1, ?_⟩
        rw [← contents_isSome, kept _ (others s member), contents_isSome,
          (batched.fresh s member isReal).2]
      · refine ⟨Bool.eq_false_iff.mpr fun alive => ?_, adding.alive⟩
        exact other e (aliveBefore e alive) rfl
    once := List.pairwise_append.mpr ⟨batched.once, List.pairwise_singleton _ _,
      fun s member later isNew _ => by
        rw [List.mem_singleton.mp isNew]
        exact others s member⟩
    own := by
      refine forEach (fun s member isReal => ?_) fun _ => ?_
      · rw [adding.settledElsewhere _ (others s member),
          settled_congr control (before _ (others s member))]
        exact batched.own s member isReal
      · have queued := batched.queued e others
        rw [spawns.settles]
        unfold spawnSettles
        rw [batched.deferMoves, batched.inIteration, batched.pendingDestroy,
          queued]
        rfl
    bare := by
      intro closed
      refine forEach (fun s member isReal => ?_) fun _ => ?_
      · rw [kept _ (others s member)]
        exact batched.bare closed s member isReal
      · apply adding.bare
        rw [deferEq, iterationEq, batched.deferMoves, batched.inIteration]
        exact closed }

/-- What a spawned or skipped entry adds to a batch. -/
theorem Batched.outcome
    (batched : Batched engine registry start spawned w)
    {source : Variant × Nat} {result : Traced Effect World × Option Entity}
    (outcome : w.Outcome engine registry source.1 result) :
    Batched engine registry start
      (spawned ++ (result.2.map (SpawnedEntry.mk source)).toList)
      result.1.state := by
  obtain ⟨traced, handle⟩ := result
  unfold Outcome at outcome
  cases handle with
  | none =>
      rw [Option.map_none, Option.toList_none, List.append_nil]
      exact batched.skips outcome
  | some e =>
      rw [Option.map_some, Option.toList_some]
      dsimp only at outcome
      by_cases isNull : e = Entity.null
      · rw [if_pos isNull] at outcome
        rw [isNull]
        exact (batched.skips outcome).append_null source
      · rw [if_neg isNull] at outcome
        exact batched.spawns isNull outcome

/-- The first loop. -/
theorem Batched.spawnEntries
    (named : ∀ name, registry.idOf name ≠ invalidComponentType →
      (registry.schemaOf (registry.idOf name)).isSome)
    (batched : Batched engine registry start spawned w)
    (entries : List (Variant × Nat))
    (out : List Entity) (mapping : List (Variant × Variant))
    (issuesDead : Traced.Accepted Effect.IssuesDead
      (Traced.forEach (spawnStep engine registry) ⟨w, out, mapping⟩ entries)) :
    let done := (Traced.forEach (spawnStep engine registry) ⟨w, out, mapping⟩
      entries).state
    let made := w.ids.plan engine registry w.inIteration entries
    w.spawnedEntries engine registry entries = made ∧
      Batched engine registry start (spawned ++ made) done.world ∧
      done.out = out ++ made.map SpawnedEntry.entity ∧
      done.mapping = engine.mapSources mapping made := by
  induction entries generalizing w spawned out mapping with
  | nil => simp [spawnedEntries, Ids.plan, Engine.mapSources, batched]
  | cons indexed entries inductionHypothesis =>
      rw [Traced.forEach_cons] at issuesDead ⊢
      obtain ⟨stepIssuesDead, laterIssuesDead⟩ :=
        (Traced.accepted_andThen _ _ _).mp issuesDead
      have entryIssuesDead : Traced.Accepted Effect.IssuesDead
          (w.spawnEntry engine registry indexed.1).1 := by
        unfold spawnStep at stepIssuesDead
        dsimp only at stepIssuesDead
        split at stepIssuesDead <;> exact stepIssuesDead
      obtain ⟨ids, outcome⟩ := spawnEntry_spec named batched.stable
        batched.listed entryIssuesDead
      have next := batched.outcome outcome
      have sameIteration : (w.spawnEntry engine registry
          indexed.1).1.state.inIteration = w.inIteration :=
        next.inIteration.trans batched.inIteration.symm
      unfold spawnedEntries Ids.plan
      dsimp only [Traced.andThen_state]
      rw [ids]
      unfold spawnStep at laterIssuesDead ⊢
      dsimp only at laterIssuesDead ⊢
      cases handle : (w.spawnEntry engine registry indexed.1).2 with
      | none =>
          rw [handle] at laterIssuesDead next
          obtain ⟨sameEntries, nextBatched, outEq, mappingEq⟩ :=
            inductionHypothesis next out mapping laterIssuesDead
          rw [sameIteration] at sameEntries nextBatched outEq mappingEq
          rw [Option.map_none, Option.toList_none, List.append_nil]
            at nextBatched
          exact ⟨sameEntries, nextBatched, outEq, mappingEq⟩
      | some e =>
          rw [handle] at laterIssuesDead next
          obtain ⟨sameEntries, nextBatched, outEq, mappingEq⟩ :=
            inductionHypothesis next _ _ laterIssuesDead
          rw [sameIteration] at sameEntries nextBatched outEq mappingEq
          rw [List.append_assoc] at nextBatched outEq
          exact ⟨congrArg ([SpawnedEntry.mk indexed e] ++ ·) sameEntries,
            nextBatched, outEq, mappingEq⟩

end Batched

end World
end VortarisECS
