import VortarisECS.Network.FullState

/-!
# The replicating server

The sending side of `VECSSnapshotReplication`.  Events of the world put entities
and components into unordered sets; a tick turns these into packets, spawns
first, then one delta, despawns and, every now and then, a full state.  Time is
counted in exact rationals.
-/

namespace VortarisECS

/-- The sending side of `VECSSnapshotReplication`.  Sets are lists without an
order of their own. -/
structure Replication where
  tracked : List Entity := []
  dirty : AList fun _ : Entity => List ComponentTypeId := ∅
  pendingSpawn : List Entity := []
  pendingDespawn : List Entity := []
  reconcileAccum : ℚ := 0
  reconciliationInterval : ℚ := 30
  elapsedTime : ℚ := 0
  nextSendTick : AList fun _ : Entity =>
    AList fun _ : ComponentTypeId => List ℚ := ∅

namespace Replication

/-! ## Events -/

/-- `dirty_[e].insert(t)`. -/
def markDirty (r : Replication) (e : Entity) (t : ComponentTypeId) :
    Replication :=
  { r with dirty := r.dirty.insert e (((r.dirty.lookup e).getD []).insert t) }

/-- Track an entity that is not tracked yet and queue its spawn. -/
def track (r : Replication) (e : Entity) : Replication :=
  { r with
    tracked := r.tracked.insert e
    pendingSpawn := r.pendingSpawn.insert e }

/-- `dirty_[e].erase(t)`, if there is such a set. -/
def clearDirty (r : Replication) (e : Entity) (t : ComponentTypeId) :
    Replication :=
  match r.dirty.lookup e with
  | none => r
  | some types => { r with dirty := r.dirty.insert e (types.filter (· ≠ t)) }

/-- Forget an entity and queue its despawn. -/
def untrack (r : Replication) (e : Entity) : Replication :=
  { r with
    tracked := r.tracked.filter (· ≠ e)
    dirty := r.dirty.erase e
    nextSendTick := r.nextSendTick.erase e
    pendingDespawn := r.pendingDespawn.insert e }

/-- `on_entity_component_added`. -/
def onEntityComponentAdded (registry : ComponentRegistry) (r : Replication)
    (e : Entity) (t : ComponentTypeId) : Replication :=
  if !isNetworked registry t then r
  else if e ∈ r.tracked then r.markDirty e t
  else r.track e

/-- `on_entity_component_changed`. -/
def onEntityComponentChanged (registry : ComponentRegistry) (r : Replication)
    (e : Entity) (t : ComponentTypeId) : Replication :=
  if !isNetworked registry t then r
  else if e ∈ r.tracked then r.markDirty e t
  else r

/-- `on_entity_component_removed`, with the world at the time of the event. -/
def onEntityComponentRemoved (registry : ComponentRegistry) (r : Replication)
    (seen : World) (e : Entity) (t : ComponentTypeId) : Replication :=
  if !isNetworked registry t then r
  else
    let cleared := r.clearDirty e t
    if e ∈ cleared.tracked then
      if (seen.getEntityComponentTypes e).any (isNetworked registry) then cleared
      else cleared.untrack e
    else cleared

/-- `reset_state`. -/
def resetState (r : Replication) : Replication where
  reconciliationInterval := r.reconciliationInterval

/-- `_on_world_event`, on a server that is not applying a packet. -/
def onWorldEvent (registry : ComponentRegistry) (r : Replication) :
    Effect → Replication
  | .dispatched .added e t _ _ => r.onEntityComponentAdded registry e t
  | .dispatched .changed e t _ _ => r.onEntityComponentChanged registry e t
  | .dispatched .removed e t _ seen =>
      r.onEntityComponentRemoved registry seen e t
  | .dispatched .custom _ _ name _ =>
      if name = "world_cleared" then r.resetState else r
  | _ => r

/-- The events of a step of the world, in order. -/
def onWorldEvents (registry : ComponentRegistry) (r : Replication)
    (effects : List Effect) : Replication :=
  effects.foldl (onWorldEvent registry) r

/-- `seed_from_world`: queue the spawn of every networked entity that is not
tracked. -/
def seedFromWorld (registry : ComponentRegistry) (r : Replication)
    (w : World) : Replication :=
  w.store.archetypeList.foldl
    (fun r p =>
      if (w.store.deref p).componentIds.any (isNetworked registry) then
        (w.store.deref p).entities.foldl
          (fun r e => if e ∈ r.tracked then r else r.track e) r
      else r)
    r

/-- Another iteration order of the unordered sets. -/
def rehash (r : Replication) (order : List Entity)
    (typeOrder : Entity → List ComponentTypeId) : Replication :=
  { r with
    pendingSpawn := r.pendingSpawn.insertionSort fun x y =>
      order.idxOf x ≤ order.idxOf y
    pendingDespawn := r.pendingDespawn.insertionSort fun x y =>
      order.idxOf x ≤ order.idxOf y
    dirty := (r.dirty.rearrange order).mapValues fun e types =>
      types.insertionSort fun t u =>
        (typeOrder e).idxOf t ≤ (typeOrder e).idxOf u }

end Replication

/-! ## Deltas -/

/-- A bucket of a plan: its index, interval and mask. -/
abbrev SyncBucket := Nat × ℚ × List Bool

/-- The buckets of a plan in order. -/
def FieldSyncPlan.buckets (plan : FieldSyncPlan) : List SyncBucket :=
  (plan.bucketIntervals.zip plan.bucketMasks).zipIdx.map fun entry =>
    (entry.2, entry.1.1, entry.1.2)

/-- What the loop over the buckets of a component has so far. -/
structure BucketSends where
  ticks : List ℚ
  buf : BinaryBuffer := {}
  nrec : Nat := 0
  allSent : Bool := true

/-- One bucket: send it if it is due. -/
def sendBucket (schema : ComponentSchema) (data : List UInt8) (elapsed : ℚ)
    (sends : BucketSends) : SyncBucket → BucketSends
  | (bucket, interval, mask) =>
      if elapsed < (sends.ticks[bucket]?).getD 0 then
        { sends with allSent := false }
      else
        { sends with
          ticks := sends.ticks.set bucket (elapsed + interval)
          buf := serializeComponentFields schema data
            (writeFieldMask (sends.buf.writeU8 bucket) mask) mask
          nrec := (sends.nrec + 1) % 2 ^ 8 }

/-- `resize` of the times of a component to at least `count`. -/
def growTicks (ticks : List ℚ) (count : Nat) : List ℚ :=
  ticks ++ List.replicate (count - ticks.length) 0

/-- What the loop over the dirty components of an entity has so far: the times
of its components, the bytes and their number, and the components that stay
dirty. -/
structure ComponentSends where
  ticks : AList fun _ : ComponentTypeId => List ℚ
  buf : BinaryBuffer := {}
  ncomp : Nat := 0
  kept : List ComponentTypeId := []

/-- One dirty component. -/
def sendComponent (registry : ComponentRegistry) (w : World) (elapsed : ℚ)
    (e : Entity) (sends : ComponentSends) (t : ComponentTypeId) :
    ComponentSends :=
  if !isNetworked registry t || !w.has e t then sends
  else
    let plan := syncPlanFor registry t
    if !plan.anyDelta then sends
    else
      match registry.schemaOf t, w.getRaw e t with
      | some schema, some data =>
          let ticks := growTicks ((sends.ticks.lookup t).getD [])
            plan.bucketIntervals.length
          let sent := plan.buckets.foldl (sendBucket schema data elapsed)
            { ticks := ticks }
          let timed := { sends with ticks := sends.ticks.insert t sent.ticks }
          let written :=
            if sent.nrec > 0 then
              { timed with
                buf := ((timed.buf.writeU32 t.toNat).writeU8
                  sent.nrec).writeBytes sent.buf.data
                ncomp := (timed.ncomp + 1) % 2 ^ 8 }
            else timed
          if sent.allSent then written
          else { written with kept := written.kept ++ [t] }
      | _, _ => sends

/-- What the loop over the dirty entities has so far. -/
structure DeltaSends where
  dirty : AList fun _ : Entity => List ComponentTypeId
  nextSendTick : AList fun _ : Entity =>
    AList fun _ : ComponentTypeId => List ℚ
  buf : BinaryBuffer
  count : Nat := 0

/-- One dirty entity. -/
def sendEntity (registry : ComponentRegistry) (w : World) (elapsed : ℚ)
    (sends : DeltaSends) (entry : Σ _ : Entity, List ComponentTypeId) :
    DeltaSends :=
  let e := entry.1
  if !w.isAlive e then { sends with dirty := sends.dirty.erase e }
  else
    let sent := entry.2.foldl (sendComponent registry w elapsed e)
      { ticks := (sends.nextSendTick.lookup e).getD ∅ }
    let timed := { sends with
      nextSendTick := if sent.ticks.keys.isEmpty then sends.nextSendTick
        else sends.nextSendTick.insert e sent.ticks }
    let written :=
      if sent.ncomp > 0 then
        { timed with
          buf := ((timed.buf.writeU64 e.id.toNat).writeU8
            sent.ncomp).writeBytes sent.buf.data
          count := (timed.count + 1) % 2 ^ 32 }
      else timed
    { written with
      dirty := if sent.kept.isEmpty then written.dirty.erase e
        else written.dirty.insert e sent.kept }

namespace Replication

/-- `build_delta`. -/
def buildDelta (registry : ComponentRegistry) (w : World) (r : Replication) :
    Replication × BinaryBuffer :=
  let versioned := ({} : BinaryBuffer).writeU16 syncVersion
  let sent := r.dirty.entries.foldl (sendEntity registry w r.elapsedTime) {
    dirty := r.dirty
    nextSendTick := r.nextSendTick
    buf := versioned.writeU32 0 }
  ({ r with dirty := sent.dirty, nextSendTick := sent.nextSendTick },
    if sent.count > 0 then sent.buf.overwriteU32 versioned.pos sent.count
    else {})

/-! ## Ticks -/

/-- A spawn packet. -/
def spawnPacket (registry : ComponentRegistry) (w : World) (e : Entity) :
    BinaryBuffer :=
  let comps := w.getEntityComponentTypes e
  ((((({} : BinaryBuffer).writeU16 syncVersion).writeU64 e.id.toNat).writeU16
    ((networkedTypes registry comps).length % 2 ^ 16)).writeBytes
      (w.serializeNetworked registry comps e).data)

/-- A despawn packet. -/
def despawnPacket (e : Entity) : BinaryBuffer :=
  ({} : BinaryBuffer).writeU64 e.id.toNat

/-- A packet on its way, with its kind. -/
abbrev SentPacket := SyncPacketKind × List UInt8

/-- Send a buffer unless it is empty. -/
def sendNonempty (kind : SyncPacketKind) (buf : BinaryBuffer) :
    List SentPacket :=
  if buf.size > 0 then [(kind, buf.data)] else []

/-- The spawns of a tick. -/
def sendSpawns (registry : ComponentRegistry) (w : World) (r : Replication) :
    Replication × List SentPacket :=
  ({ r with pendingSpawn := [] },
    (r.pendingSpawn.filter (w.isAlive ·)).map fun e =>
      (.spawn, (spawnPacket registry w e).data))

/-- The delta of a tick. -/
def sendDelta (registry : ComponentRegistry) (w : World) (r : Replication) :
    Replication × List SentPacket :=
  if r.dirty.keys.isEmpty then (r, [])
  else
    let (r, buf) := r.buildDelta registry w
    (r, sendNonempty .delta buf)

/-- The despawns of a tick. -/
def sendDespawns (r : Replication) : Replication × List SentPacket :=
  ({ r with
      nextSendTick := r.pendingDespawn.foldl (fun ticks e => ticks.erase e)
        r.nextSendTick
      pendingDespawn := [] },
    r.pendingDespawn.map fun e => (.despawn, (despawnPacket e).data))

/-- The reconciliation of a tick, with the archetypes in the order the sort left
them in. -/
def reconcile (registry : ComponentRegistry) (w : World) (order : List Ptr)
    (delta : ℚ) (r : Replication) : Replication × List SentPacket :=
  let accum := r.reconcileAccum + delta
  if accum ≥ r.reconciliationInterval then
    ({ r with reconcileAccum := 0 },
      sendNonempty .fullState (w.serializeFullState registry order))
  else ({ r with reconcileAccum := accum }, [])

/-- `tick`. -/
def tick (registry : ComponentRegistry) (w : World) (order : List Ptr)
    (delta : ℚ) (r : Replication) : Replication × List SentPacket :=
  let timed := { r with elapsedTime := r.elapsedTime + delta }
  let (r, spawns) := timed.sendSpawns registry w
  let (r, deltas) := r.sendDelta registry w
  let (r, despawns) := r.sendDespawns
  let (r, fullStates) := r.reconcile registry w order delta
  (r, spawns ++ (deltas ++ (despawns ++ fullStates)))

end Replication
end VortarisECS
