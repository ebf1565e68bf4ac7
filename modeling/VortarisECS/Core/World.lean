import VortarisECS.Core.ArchetypeStore
import VortarisECS.Library.Bytes
import VortarisECS.Library.Traced

/-!
# The world

The state of a world and its operations.  Observers are passive: an operation
that dispatches events yields them as effects, each with the world it was
dispatched from, and the effects also record every id a creation hands out,
every component write and every archetype move.
-/

namespace VortarisECS

/-- One deferred component write queued for an entity during a command-buffer
flush.  Empty data stands for the null pointer. -/
structure PendingComponentOp where
  type : ComponentTypeId := 0
  add : Bool := true
  data : List UInt8 := []
  deriving DecidableEq, Repr

/-- An entity whose component `comp` was written at `tick`. -/
structure ChangeLogEntry where
  entity : Entity
  comp : ComponentTypeId := 0
  tick : Nat := 0
  deriving DecidableEq, Repr

/-- A queued structural change. -/
inductive Command
  | addComponent (entity : Entity) (type : ComponentTypeId) (data : List UInt8)
  | removeComponent (entity : Entity) (type : ComponentTypeId)
  | addEntity (entity : Entity)
  | removeEntity (entity : Entity)
  | custom (customId : UInt32) (data : List UInt8)
  deriving DecidableEq, Repr

/-- The allocator: the generation of every slot, and the recycled slots and
pooled ids with the back of each vector first. -/
structure EntitySlots where
  slotGenerations : List Nat := []
  freeSlots : List Nat := []
  poolSlots : List Entity := []
  deriving DecidableEq, Repr

/-- A world: its store and allocator, the clock and the change log, and what is
pending. -/
structure World where
  store : ArchetypeStore
  slots : EntitySlots := {}
  commandBuffer : List Command := []
  changeTick : Nat := 1
  cacheVersion : UInt32 := 0
  suppressDepth : Nat := 0
  iterationDepth : Nat := 0
  pendingCacheInvalidation : Bool := false
  deferMoves : Bool := false
  deferredEntities : List Entity := []
  deferredSet : List Entity := []
  pendingOps : AList fun _ : Entity => List PendingComponentOp := ∅
  pendingDestroy : List Entity := []
  changedBaselines : AList fun _ : UInt64 => Nat := ∅
  customCommands : List UInt32 := []
  changeLog : List ChangeLogEntry := []
  changeLogGeneration : UInt64 := 0

/-- The events that observers are called for. -/
inductive ObserverEventType
  | added
  | changed
  | removed
  | custom
  deriving DecidableEq, Repr

/-- What an operation does besides changing the world. -/
inductive Effect
  /-- An event was dispatched while the world was `at`. -/
  | dispatched (type : ObserverEventType) (entity : Entity)
      (comp : ComponentTypeId) (name : String) (seen : World)
  /-- `create_entity` or `create_entity_pooled` handed out an id. -/
  | issued (entity : Entity) (before : World)
  /-- `create_entity_preassigned` accepted an id. -/
  | adopted (entity : Entity) (before : World)
  /-- A component was written and marked changed. -/
  | wrote (entity : Entity) (comp : ComponentTypeId)
  /-- An entity was moved to another archetype. -/
  | moved (entity : Entity)
  | ranCustomCommand (customId : UInt32) (data : List UInt8)

/-- The change tick saturates here. -/
def tickLimit : Nat := 2 ^ 64 - 1

/-- The change log never grows past this before being halved. -/
def changeLogSoftCap : Nat := 65536

/-- Ids from outside must have a slot below this. -/
def maxPreassignedSlot : Nat := 2 ^ 24

/-- The allocator stops growing here. -/
def maxSlots : Nat := 0xFFFFFFFE

namespace EntitySlots

/-- The generation of a slot, zero if there is none. -/
def generationOf (s : EntitySlots) (slot : Nat) : Nat :=
  (s.slotGenerations[slot]?).getD 0

/-- `resize` of the generations to at least `count` slots. -/
def growTo (s : EntitySlots) (count : Nat) : EntitySlots :=
  { s with
    slotGenerations := s.slotGenerations ++
      List.replicate (count - s.slotGenerations.length) 0 }

/-- `_alloc_entity_id`. -/
def allocEntityId (s : EntitySlots) : EntitySlots × Entity :=
  match s.freeSlots with
  | [] =>
      if s.slotGenerations.length ≥ maxSlots then (s, Entity.null)
      else
        let idx := s.slotGenerations.length
        let grown := { s with slotGenerations := s.slotGenerations ++ [0] }
        (grown, Entity.ofSlot idx (grown.generationOf idx))
  | idx :: rest =>
      ({ s with freeSlots := rest }, Entity.ofSlot idx (s.generationOf idx))

/-- Give an id from outside its slot. -/
def adopt (s : EntitySlots) (e : Entity) : EntitySlots :=
  let grown := s.growTo (e.slot + 1)
  { grown with
    slotGenerations := grown.slotGenerations.set e.slot e.generation }

/-- Take an id back without touching its generation. -/
def pushPool (s : EntitySlots) (e : Entity) : EntitySlots :=
  { s with poolSlots := e :: s.poolSlots }

/-- `_free_entity_id`. -/
def freeEntityId (s : EntitySlots) (e : Entity) : EntitySlots :=
  if e.slot ≥ s.slotGenerations.length then s
  else if s.generationOf e.slot ≠ e.generation then s
  else if e.generation = 2 ^ 32 - 1 then
    { s with slotGenerations := s.slotGenerations.set e.slot (2 ^ 32 - 1) }
  else
    { s with
      slotGenerations := s.slotGenerations.set e.slot (e.generation + 1)
      freeSlots := e.slot :: s.freeSlots }

end EntitySlots

namespace World

/-- A fresh world. -/
def empty (registry : ComponentRegistry) : World where
  store := ArchetypeStore.initial registry

/-- A walk is going on. -/
def inIteration (w : World) : Bool := decide (w.iterationDepth > 0)

/-- The id stands for an entity of this world. -/
def isAlive (w : World) (e : Entity) : Bool :=
  decide (e ≠ Entity.null) && w.store.isAlive e

/-- The number of entities, as 32 bits. -/
def entityCount (w : World) : UInt32 :=
  UInt32.ofNat w.store.entityLocations.size

/-- The entity is alive and has the component. -/
def «has» (w : World) (e : Entity) (t : ComponentTypeId) : Bool :=
  match w.store.entityLocations.lookup e with
  | none => false
  | some loc =>
      decide (e ≠ Entity.null) && (w.store.deref loc.archetype).hasComponent t

/-- The bytes behind `get_raw`, when it is not the null pointer. -/
def getRaw (w : World) (e : Entity) (t : ComponentTypeId) :
    Option (List UInt8) :=
  match w.store.entityLocations.lookup e with
  | none => none
  | some loc =>
      let a := w.store.deref loc.archetype
      if e ≠ Entity.null ∧ a.hasComponent t then
        some ((a.column t).row loc.row)
      else none

/-- The components of an entity, none if it is dead. -/
def getEntityComponentTypes (w : World) (e : Entity) : List ComponentTypeId :=
  if w.isAlive e then (w.store.typesOf e).getD [] else []

/-! ## Clock, caches and log -/

/-- `_bump_tick`. -/
def bumpTick (w : World) : World :=
  { w with
    changeTick := if w.changeTick < tickLimit then w.changeTick + 1
      else w.changeTick }

/-- `_invalidate_cache`. -/
def invalidateCache (w : World) : World :=
  if w.suppressDepth > 0 then { w with pendingCacheInvalidation := true }
  else { w with cacheVersion := w.cacheVersion + 1 }

/-- `_compact_change_log`: drop the older half. -/
def compactChangeLog (w : World) : World :=
  { w with
    changeLog := w.changeLog.drop (w.changeLog.length / 2)
    changeLogGeneration := w.changeLogGeneration + 1 }

/-- `_log_change`. -/
def logChange (w : World) (e : Entity) (t : ComponentTypeId) (tick : Nat) :
    World :=
  let logged := { w with changeLog := w.changeLog ++ [⟨e, t, tick⟩] }
  if logged.changeLog.length > changeLogSoftCap then logged.compactChangeLog
  else logged

/-- Change one column of an archetype. -/
def modifyColumn (w : World) (loc : EntityLocation) (t : ComponentTypeId)
    (f : Column → Column) : World :=
  { w with
    store := w.store.modify loc.archetype fun a => a.setColumn t (f (a.column t)) }

/-- The column of a component at a location. -/
def columnAt (w : World) (loc : EntityLocation) (t : ComponentTypeId) : Column :=
  (w.store.deref loc.archetype).column t

/-- `col.mark_changed(row, _bump_tick())`, logged when the column is tracked. -/
def stampWrite (w : World) (e : Entity) (loc : EntityLocation)
    (t : ComponentTypeId) : World :=
  let ticked := w.bumpTick
  let marked := ticked.modifyColumn loc t (·.markChanged loc.row ticked.changeTick)
  if (marked.columnAt loc t).hasVersions then
    marked.logChange e t marked.changeTick
  else marked

/-- The bytes `add_raw` puts into a component: `size` bytes of the data, or
zeros for the null pointer. -/
def componentBytes (size : Nat) : Option (List UInt8) → List UInt8
  | some data => copyBytes size data
  | none => List.replicate size 0

/-- Overwrite a component instance and stamp the write. -/
def writeComponent (w : World) (e : Entity) (loc : EntityLocation)
    (t : ComponentTypeId) (bytes : List UInt8) : World :=
  (w.modifyColumn loc t (·.setRow loc.row bytes)).stampWrite e loc t

/-- The body of `mark_changed`: track the column, stamp the row, log it. -/
def markRow (w : World) (e : Entity) (loc : EntityLocation)
    (t : ComponentTypeId) : World :=
  let tracked := w.modifyColumn loc t (·.ensureVersions w.changeTick)
  let ticked := tracked.bumpTick
  let marked := ticked.modifyColumn loc t (·.markChanged loc.row ticked.changeTick)
  marked.logChange e t marked.changeTick

/-! ## Entities -/

/-- Replace the store. -/
def setStore (w : World) (store : ArchetypeStore) : World :=
  { w with store := store }

/-- Replace the allocator. -/
def setSlots (w : World) (slots : EntitySlots) : World :=
  { w with slots := slots }

/-- Put an entity without components into the empty archetype. -/
def enterEmpty (w : World) (e : Entity) : World :=
  w.setStore (w.store.addTo w.store.emptyArchetype e w.changeTick)

/-- Call a creation without using the handle it returns. -/
def discardHandle (created : Traced Effect World × Entity) :
    Traced Effect World :=
  created.1

/-- `create_entity`: the new world and the handle, null when the slot space is
exhausted. -/
def createEntity (w : World) : Traced Effect World × Entity :=
  let (slots, e) := w.slots.allocEntityId
  if e = Entity.null then (.pure (w.setSlots slots), e)
  else (⟨((w.setSlots slots).enterEmpty e).invalidateCache, [.issued e w]⟩, e)

/-- `create_entity_preassigned`, for ids from the network or a save: what it
does to the world. -/
def createEntityPreassigned (w : World) (id : UInt64) :
    Traced Effect World :=
  let e : Entity := ⟨id⟩
  if e.slot = 2 ^ 32 - 1 then .pure w
  else if e.slot ≥ maxPreassignedSlot then .pure w
  else
    let grown := w.setSlots (w.slots.growTo (e.slot + 1))
    if grown.store.isAlive e then .pure grown
    else
      ⟨((w.setSlots (w.slots.adopt e)).enterEmpty e).invalidateCache,
        [.adopted e w]⟩

/-- The handle `create_entity_preassigned` returns: the null entity when the
slot is out of range or occupied by a live entity. -/
def preassignedHandle (w : World) (id : UInt64) : Entity :=
  let e : Entity := ⟨id⟩
  if e.slot = 2 ^ 32 - 1 then Entity.null
  else if e.slot ≥ maxPreassignedSlot then Entity.null
  else if w.store.isAlive e then Entity.null
  else e

/-- Events for the components an entity had. -/
def removedEvents (e : Entity) (types : List ComponentTypeId) (seen : World) :
    List Effect :=
  types.map fun t => .dispatched .removed e t "" seen

/-- Take a live entity out of its row and give its slot up. -/
def leave (w : World) (e : Entity) (loc : EntityLocation)
    (slots : EntitySlots) : Traced Effect World :=
  let removedTypes := (w.store.deref loc.archetype).componentIds
  let gone := (w.setStore (w.store.detach e loc)).setSlots slots
  ⟨gone.invalidateCache, removedEvents e removedTypes gone⟩

/-- Destroy an entity and free its slot; refused in a walk. -/
def destroyEntity (w : World) (e : Entity) : Traced Effect World :=
  match w.store.entityLocations.lookup e with
  | none => .pure w
  | some loc =>
      if w.inIteration then .pure w
      else w.leave e loc (w.slots.freeEntityId e)

/-- `create_entity_pooled`: a pooled id keeps its generation. -/
def createEntityPooled (w : World) : Traced Effect World × Entity :=
  match w.slots.poolSlots with
  | e :: rest =>
      (⟨((w.setSlots { w.slots with poolSlots := rest }).enterEmpty
          e).invalidateCache, [.issued e w]⟩, e)
  | [] => w.createEntity

/-- Destroy an entity and put its slot into the pool; refused in a walk. -/
def destroyEntityPooled (w : World) (e : Entity) : Traced Effect World :=
  match w.store.entityLocations.lookup e with
  | none => .pure w
  | some loc =>
      if w.inIteration then .pure w
      else w.leave e loc (w.slots.pushPool e)

/-- Let new slots begin at a base index. -/
def setEntityRange (w : World) (baseIndex : UInt32) : World :=
  w.setSlots (w.slots.growTo baseIndex.toNat)

/-! ## Components -/

/-- `_queue_deferred_move`. -/
def queueDeferredMove (w : World) (e : Entity) : World :=
  if e ∈ w.deferredSet then w
  else
    { w with
      deferredSet := e :: w.deferredSet
      deferredEntities := w.deferredEntities ++ [e] }

/-- Queue one component operation of a flush. -/
def deferOp (w : World) (e : Entity) (op : PendingComponentOp) : World :=
  World.queueDeferredMove
    { w with
      pendingOps := w.pendingOps.insert e
        ((w.pendingOps.lookup e).getD [] ++ [op]) } e

/-- `_ensure_archetype` and `_move_entity_to`, with the location update that
follows them everywhere.  Returns the new location. -/
def moveToSet (registry : ComponentRegistry) (w : World) (e : Entity)
    (loc : EntityLocation) (ids : List ComponentTypeId) :
    World × EntityLocation :=
  let (ensured, target) := w.store.ensureArchetype registry ids
  let (moved, row) := ensured.relocate registry e loc target w.changeTick
  (w.setStore moved, ⟨target, row⟩)

/-- Add a component or overwrite it.  Refused for unregistered types and, when the
entity would have to move, in a walk; queued in a window of deferred moves. -/
def addRaw (registry : ComponentRegistry) (w : World) (e : Entity)
    (t : ComponentTypeId) (data : Option (List UInt8)) :
    Traced Effect World :=
  if !w.isAlive e then .pure w
  else
    match registry.schemaOf t, w.store.entityLocations.lookup e with
    | some schema, some loc =>
        if w.deferMoves then
          .pure (w.deferOp e {
            type := t
            add := true
            data := match data with
              | some bytes => copyBytes schema.size bytes
              | none => [] })
        else
          let cur := w.store.deref loc.archetype
          if cur.hasComponent t then
            let written :=
              w.writeComponent e loc t (componentBytes schema.size data)
            ⟨written, [.wrote e t, .dispatched .changed e t "" written]⟩
          else if w.inIteration then .pure w
          else
            let newIds := sortIds (cur.componentIds ++ [t])
            let (moved, newLoc) := w.moveToSet registry e loc newIds
            let written :=
              moved.writeComponent e newLoc t (componentBytes schema.size data)
            ⟨written.invalidateCache,
              [.moved e, .wrote e t, .dispatched .added e t "" written]⟩
    | _, _ => .pure w

/-- Remove a component; refused in a walk, and queued in a window of deferred
moves. -/
def removeComponent (registry : ComponentRegistry) (w : World) (e : Entity)
    (t : ComponentTypeId) : Traced Effect World :=
  if !w.isAlive e then .pure w
  else if w.deferMoves then .pure (w.deferOp e { type := t, add := false })
  else
    match w.store.entityLocations.lookup e with
    | none => .pure w
    | some loc =>
        let cur := w.store.deref loc.archetype
        if !cur.hasComponent t then .pure w
        else if w.inIteration then .pure w
        else
          let newIds := cur.componentIds.erase t
          let (moved, _) := w.moveToSet registry e loc newIds
          ⟨moved.invalidateCache,
            [.moved e, .dispatched .removed e t "" moved]⟩

/-- `mark_changed`, with the field name of the event. -/
def markChanged (w : World) (e : Entity) (t : ComponentTypeId)
    (field : String) : Traced Effect World :=
  if !w.isAlive e then .pure w
  else
    match w.store.entityLocations.lookup e with
    | none => .pure w
    | some loc =>
        if !(w.store.deref loc.archetype).hasComponent t then .pure w
        else
          let logged := w.markRow e loc t
          ⟨logged, [.wrote e t, .dispatched .changed e t field logged]⟩

/-- A write through the pointer `get_raw` returns, without `mark_changed`. -/
def writeRaw (w : World) (e : Entity) (t : ComponentTypeId)
    (bytes : List UInt8) : World :=
  match w.store.entityLocations.lookup e with
  | none => w
  | some loc =>
      if (w.store.deref loc.archetype).hasComponent t then
        w.modifyColumn loc t (·.setRow loc.row bytes)
      else w

/-- `set_field`: the bytes the conversion stores go to the field's place, and
the write is marked under the field's name. -/
def setField (registry : ComponentRegistry) (w : World) (e : Entity)
    (t : ComponentTypeId) (name : String) (value : List UInt8) :
    Traced Effect World :=
  match (registry.schemaOf t).bind (·.findField name), w.getRaw e t with
  | some fd, some raw =>
      (w.writeRaw e t
        (overlay raw fd.offset (value.take fd.storageSize))).markChanged e t name
  | _, _ => .pure w

/-- `move_entity`, the internal transition to an archetype the caller names. -/
def moveEntity (registry : ComponentRegistry) (w : World) (e : Entity)
    (target : Ptr) : Traced Effect World :=
  match w.store.entityLocations.lookup e with
  | none => .pure w
  | some loc =>
      if !w.isAlive e ∨ w.inIteration ∨ loc.archetype = target then .pure w
      else
        let (moved, _) :=
          w.store.relocate registry e loc target w.changeTick
        ⟨(w.setStore moved).invalidateCache, [.moved e]⟩

/-! ## Deferred moves -/

/-- Open a window in which cache invalidations are only noted. -/
def beginSuppress (w : World) : World :=
  { w with suppressDepth := w.suppressDepth + 1 }

/-- Count an invalidation that was held back. -/
def releaseInvalidation (w : World) : World :=
  if w.suppressDepth = 0 ∧ w.pendingCacheInvalidation = true then
    { w with
      pendingCacheInvalidation := false
      cacheVersion := w.cacheVersion + 1 }
  else w

/-- Close a window; the last one makes up for a noted invalidation. -/
def endSuppress (w : World) : World :=
  if w.suppressDepth > 0 then
    World.releaseInvalidation { w with suppressDepth := w.suppressDepth - 1 }
  else w

/-- Open a window in which entities are moved at its end. -/
def beginDeferredMoves (w : World) : World := { w with deferMoves := true }

/-- Destroy an entity at the end of the window, or at once if there is none. -/
def destroyEntityDeferred (w : World) (e : Entity) : Traced Effect World :=
  if w.deferMoves then
    if w.isAlive e then
      .pure (World.queueDeferredMove
        { w with pendingDestroy := w.pendingDestroy.insert e } e)
    else .pure w
  else w.destroyEntity e

/-- The final component set of a list of queued operations. -/
def finalSet (original : List ComponentTypeId)
    (ops : List PendingComponentOp) : List ComponentTypeId :=
  ops.foldl
    (fun set op =>
      if op.add then set.insert op.type else set.filter (· ≠ op.type))
    original

/-- The data of the last addition of each type; a null pointer is `none`. -/
def lastAddData (ops : List PendingComponentOp) :
    AList fun _ : ComponentTypeId => Option (List UInt8) :=
  ops.foldl
    (fun last op =>
      if op.add then
        last.insert op.type (if op.data.isEmpty then none else some op.data)
      else last)
    ∅

/-- One surviving write of a flush: the data of the last addition, or zeros. -/
def commitWrite (registry : ComponentRegistry) (e : Entity)
    (loc : EntityLocation)
    (last : AList fun _ : ComponentTypeId => Option (List UInt8))
    (w : World) (t : ComponentTypeId) : Traced Effect World :=
  match last.lookup t with
  | none => .pure w
  | some data =>
      let bytes := match data with
        | some bytes => bytes ++ ((w.columnAt loc t).row loc.row).drop bytes.length
        | none => List.replicate (registry.sizeOf t) 0
      ⟨w.writeComponent e loc t bytes, [.wrote e t]⟩

/-- The net-change events of a flush. -/
def commitEvents (e : Entity) (original finalIds : List ComponentTypeId)
    (last : AList fun _ : ComponentTypeId => Option (List UInt8))
    (seen : World) : List Effect :=
  finalIds.filterMap (fun t =>
    if t ∉ original then some (.dispatched .added e t "" seen)
    else if (last.lookup t).isSome then some (.dispatched .changed e t "" seen)
    else none) ++
  original.filterMap fun t =>
    if t ∉ finalIds then some (.dispatched .removed e t "" seen) else none

/-- `_commit_deferred_move`. -/
def commitDeferredMove (registry : ComponentRegistry) (w : World) (e : Entity) :
    Traced Effect World :=
  match w.store.entityLocations.lookup e, w.pendingOps.lookup e with
  | some loc, some ops =>
      let original := (w.store.deref loc.archetype).componentIds
      let finalIds := sortIds (finalSet original ops)
      let last := lastAddData ops
      if finalIds ≠ original then
        let (moved, host) := w.moveToSet registry e loc finalIds
        let written :=
          Traced.forEach (commitWrite registry e host last) moved finalIds
        ⟨written.state.invalidateCache,
          .moved e :: written.effects ++
            commitEvents e original finalIds last written.state⟩
      else
        let written :=
          Traced.forEach (commitWrite registry e loc last) w finalIds
        ⟨written.state,
          written.effects ++
            commitEvents e original finalIds last written.state⟩
  | _, _ => .pure w

/-- Forget the operations of a finished flush. -/
def clearPending (w : World) : World :=
  { w with
    pendingOps := ∅
    pendingDestroy := []
    deferredEntities := []
    deferredSet := [] }

/-- One entity of the destroying loop of `end_deferred_moves`. -/
def flushDestroy (w : World) (e : Entity) : Traced Effect World :=
  if e ∈ w.pendingDestroy then w.destroyEntity e else .pure w

/-- One entity of the moving loop of `end_deferred_moves`. -/
def flushMove (registry : ComponentRegistry) (w : World) (e : Entity) :
    Traced Effect World :=
  if e ∈ w.pendingDestroy then .pure w else w.commitDeferredMove registry e

/-- Close the window: destroy what is to be destroyed, then move every other
entity once. -/
def endDeferredMoves (registry : ComponentRegistry) (w : World) :
    Traced Effect World :=
  if !w.deferMoves then .pure w
  else
    let entities := w.deferredEntities
    let destroyed :=
      Traced.forEach flushDestroy { w with deferMoves := false } entities
    let moved := destroyed.andThen fun w =>
      Traced.forEach (flushMove registry) w entities
    moved.mapState fun w => w.clearPending.releaseInvalidation

/-! ## The command buffer -/

/-- Append a command to the buffer. -/
def queueCommand (w : World) (command : Command) : World :=
  { w with commandBuffer := w.commandBuffer ++ [command] }

/-- Call the function registered for a custom command, if there is one. -/
def runCustomCommand (w : World) (id : UInt32) (data : List UInt8) :
    Traced Effect World :=
  if id ∈ w.customCommands then ⟨w, [.ranCustomCommand id data]⟩ else .pure w

/-- Queued data is empty for a null pointer. -/
def commandData (data : List UInt8) : Option (List UInt8) :=
  if data.isEmpty then none else some data

/-- One command of the loop of `CommandBuffer::execute`. -/
def executeCommand (registry : ComponentRegistry) (w : World) :
    Command → Traced Effect World
  | .addComponent e t data => w.addRaw registry e t (commandData data)
  | .removeComponent e t => w.removeComponent registry e t
  | .addEntity e =>
      if !w.isAlive e then w.createEntityPreassigned e.id
      else .pure w
  | .removeEntity e => w.destroyEntityDeferred e
  | .custom id data => w.runCustomCommand id data

/-- `CommandBuffer::execute`, for a buffer holding `ops`. -/
def executeBuffer (registry : ComponentRegistry) (w : World)
    (ops : List Command) : Traced Effect World :=
  if ops.isEmpty then .pure w
  else if w.inIteration then .pure w
  else
    let opened := w.beginSuppress.beginDeferredMoves
    let executed := Traced.forEach (executeCommand registry) opened ops
    (executed.andThen (endDeferredMoves registry)).mapState endSuppress

/-- `flush_command_buffers`: run the world's own buffer, which a flush inside an
iteration leaves as it is. -/
def flushCommandBuffers (registry : ComponentRegistry) (w : World) :
    Traced Effect World :=
  if w.inIteration then .pure w
  else executeBuffer registry { w with commandBuffer := [] } w.commandBuffer

/-! ## Lifecycle -/

/-- Free the vacant archetypes. -/
def compact (w : World) : World := w.setStore w.store.compact

/-- One entity of the loop of `clear`. -/
def clearEntity (w : World) (e : Entity) : World :=
  match w.store.entityLocations.lookup e with
  | none => w
  | some loc =>
      (w.setStore (w.store.detach e loc)).setSlots (w.slots.freeEntityId e)

/-- Remove all entities without a REMOVED event, and drop the change log; refused
in a walk. -/
def clear (w : World) : Traced Effect World :=
  if w.inIteration then .pure w
  else
    let cleared := (w.store.entityLocations.keys.foldl clearEntity w).invalidateCache
    let dropped := { cleared with
      changeLog := []
      changeLogGeneration := cleared.changeLogGeneration + 1 }
    ⟨dropped, [.dispatched .custom Entity.null 0 "world_cleared" dropped]⟩

/-- Store the tick up to which a query has seen changes. -/
def setChangedBaseline (w : World) (signature : UInt64) (tick : Nat) : World :=
  { w with changedBaselines := w.changedBaselines.insert signature tick }

end World
end VortarisECS
