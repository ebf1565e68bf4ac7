import VortarisECS.Network.Packet
import VortarisECS.Serialization.Install

/-!
# Applying packets

What a peer does with the packets it receives.  A packet that fails the check is
dropped.  The set of replicated entities is a list without an order of its own.
-/

namespace VortarisECS

/-- The receiving side of `VECSSnapshotReplication`: its world and
`client_replicated_`. -/
structure Client where
  world : World
  replicated : List Entity := []

namespace Client

/-- A step of the world. -/
def onWorld (c : Client) (step : Traced Effect World) : Traced Effect Client :=
  ⟨{ c with world := step.state }, step.effects⟩

/-- Tracking is no concern of a step of the world. -/
@[simp] theorem onWorld_world (c : Client) (step : Traced Effect World) :
    (c.onWorld step).state.world = step.state := rfl

/-- A step of the world is no concern of tracking. -/
@[simp] theorem onWorld_replicated (c : Client) (step : Traced Effect World) :
    (c.onWorld step).state.replicated = c.replicated := rfl

/-- `client_replicated_.insert`. -/
def track (c : Client) (e : Entity) : Client :=
  { c with replicated := c.replicated.insert e }

@[simp] theorem track_world (c : Client) (e : Entity) :
    (c.track e).world = c.world := rfl

/-! ## Spawns -/

/-- The walk of `apply_spawn`: what it does, and its cursor when it has read
everything.  There is no cursor when it returns early. -/
def walkSpawn (registry : ComponentRegistry) (c : Client)
    (data : List UInt8) : Traced Effect Client × Option BinaryBuffer :=
  match readSyncVersion ⟨data, 0⟩ with
  | none => (.pure c, none)
  | some (version, buf) =>
      match buf.readU64 with
      | none => (.pure c, none)
      | some (id, buf) =>
          let e := c.world.preassignedHandle (UInt64.ofNat id)
          let created := c.world.createEntityPreassigned (UInt64.ofNat id)
          if e = Entity.null then (c.onWorld created, none)
          else
            let received := receiveBlocks registry (.ofVersion version) e
              created.state buf
            let applied := c.onWorld (created.andThen fun _ => received.1)
            (if received.2.isSome then applied.mapState (·.track e) else applied,
              received.2)

/-- `apply_spawn`. -/
def applySpawn (registry : ComponentRegistry) (c : Client)
    (data : List UInt8) : Traced Effect Client :=
  (c.walkSpawn registry data).1

/-! ## Deltas -/

/-- Read whole fields into a scratch instance: an entity that is dead here. -/
def discardBlock (registry : ComponentRegistry) : Check := fun buf =>
  match buf.readU32 with
  | none => none
  | some (t, buf) =>
      match registry.schemaOf (UInt32.ofNat t) with
      | none => none
      | some schema =>
          (deserializeComponent schema (List.replicate schema.size 0) buf).2

/-- A whole component of a delta. -/
def applyWhole (registry : ComponentRegistry) (e : Entity) :
    Act Effect World := fun w buf =>
  if w.isAlive e then receiveBlock registry .whole e w buf
  else (.pure w, discardBlock registry buf)

/-- Read one bucket into a scratch buffer of the size it needs. -/
def discardBucket (schema : ComponentSchema) : Check := fun buf =>
  match buf.readU8 with
  | none => none
  | some (_, buf) =>
      match readFieldMask buf schema.fields.length with
      | none => none
      | some (mask, buf) =>
          if sizeT (buf.pos + serializedComponentFieldsSize schema mask) >
              buf.size then none
          else (deserializeComponentFields schema [] buf mask).2

/-- Read one bucket into an instance. -/
def readBucket (schema : ComponentSchema) (inst : List UInt8)
    (buf : BinaryBuffer) : List UInt8 × Option BinaryBuffer :=
  match buf.readU8 with
  | none => (inst, none)
  | some (_, buf) =>
      match readFieldMask buf schema.fields.length with
      | none => (inst, none)
      | some (mask, buf) => deserializeComponentFields schema inst buf mask

/-- Read buckets into an instance, up to the first that fails. -/
def readBuckets (schema : ComponentSchema) :
    Nat → List UInt8 → BinaryBuffer → List UInt8 × Option BinaryBuffer
  | 0, inst, buf => (inst, some buf)
  | count + 1, inst, buf =>
      match readBucket schema inst buf with
      | (inst, none) => (inst, none)
      | (inst, some buf) => readBuckets schema count inst buf

/-- The buckets of a component of a delta: fields they do not carry keep their
value. -/
def applyBuckets (registry : ComponentRegistry) (e : Entity) :
    Act Effect World := fun w buf =>
  match buf.readU32 with
  | none => (.pure w, none)
  | some (t, buf) =>
      match registry.schemaOf (UInt32.ofNat t) with
      | none => (.pure w, none)
      | some schema =>
          match buf.readU8 with
          | none => (.pure w, none)
          | some (count, buf) =>
              if w.isAlive e then
                let added :=
                  if w.has e (UInt32.ofNat t) then .pure w
                  else w.addRaw registry e (UInt32.ofNat t) none
                match added.state.getRaw e (UInt32.ofNat t) with
                | none => (added, none)
                | some dst =>
                    let (inst, cursor) := readBuckets schema count dst buf
                    (added.mapState (·.writeRaw e (UInt32.ofNat t) inst), cursor)
              else (.pure w, (discardBucket schema).times count buf)

/-- One component of a delta. -/
def applyDeltaComponent (registry : ComponentRegistry) (version : Nat)
    (e : Entity) : Act Effect World :=
  if version = 1 then applyWhole registry e else applyBuckets registry e

/-- One entity of a delta. -/
def applyDeltaEntity (registry : ComponentRegistry) (version : Nat) :
    Act Effect Client := fun c buf =>
  match buf.readU64 with
  | none => (.pure c, none)
  | some (id, buf) =>
      let e : Entity := ⟨UInt64.ofNat id⟩
      match buf.readU8 with
      | none => (.pure c, none)
      | some (count, buf) =>
          let (step, cursor) :=
            (applyDeltaComponent registry version e).times count c.world buf
          if cursor.isSome ∧ step.state.isAlive e then
            ((c.onWorld step).mapState (·.track e), cursor)
          else (c.onWorld step, cursor)

/-- The walk of `apply_delta`: what it does, and its cursor when it has read
everything. -/
def walkDelta (registry : ComponentRegistry) (c : Client)
    (data : List UInt8) : Traced Effect Client × Option BinaryBuffer :=
  match readSyncVersion ⟨data, 0⟩ with
  | none => (.pure c, none)
  | some (version, buf) =>
      match buf.readU32 with
      | none => (.pure c, none)
      | some (count, buf) =>
          (applyDeltaEntity registry version).times count c buf

/-- `apply_delta`. -/
def applyDelta (registry : ComponentRegistry) (c : Client)
    (data : List UInt8) : Traced Effect Client :=
  (c.walkDelta registry data).1

/-! ## Full states -/

/-- Destroy an entity that is alive. -/
def destroyIfAlive (w : World) (e : Entity) : Traced Effect World :=
  if w.isAlive e then w.destroyEntity e else .pure w

/-- Destroy and rebuild one entity.  The replicated entities are the ones that
came in so far. -/
def rebuildRecord (registry : ComponentRegistry) (format : PayloadFormat) :
    Act Effect Client := fun c buf =>
  match buf.readU64 with
  | none => (.pure c, none)
  | some (id, buf) =>
      let destroyed := destroyIfAlive c.world ⟨UInt64.ofNat id⟩
      let e := destroyed.state.preassignedHandle (UInt64.ofNat id)
      let created := destroyed.andThen
        (·.createEntityPreassigned (UInt64.ofNat id))
      if e = Entity.null then (c.onWorld created, none)
      else
        let received := receiveBlocks registry format e created.state buf
        ((c.onWorld (created.andThen fun _ => received.1)).mapState (·.track e),
          received.2)

/-- Remove one formerly replicated entity that did not come in again. -/
def sweepGhost (incoming : List Entity) (w : World) (e : Entity) :
    Traced Effect World :=
  if e ∈ incoming then .pure w else destroyIfAlive w e

/-- The walk of `apply_full_state`: check all ids, rebuild all entities, remove
ghosts.  The cursor is the one of the second pass, when it has read
everything. -/
def walkFullState (registry : ComponentRegistry) (c : Client)
    (data : List UInt8) : Traced Effect Client × Option BinaryBuffer :=
  match readSyncVersion ⟨data, 0⟩ with
  | none => (.pure c, none)
  | some (version, buf) =>
      match buf.readU32 with
      | none => (.pure c, none)
      | some (count, buf) =>
          match scanRecords registry (.ofVersion version) count [] buf with
          | none => (.pure c, none)
          | some _ =>
              let (rebuilt, cursor) :=
                (rebuildRecord registry (.ofVersion version)).times count
                  ⟨c.world, []⟩ buf
              match cursor with
              | none => (c.onWorld ⟨rebuilt.state.world, rebuilt.effects⟩, none)
              | some buf =>
                  (rebuilt.andThen fun incoming =>
                    incoming.onWorld (Traced.forEach
                      (sweepGhost incoming.replicated) incoming.world
                      c.replicated), some buf)

/-- `apply_full_state`. -/
def applyFullState (registry : ComponentRegistry) (c : Client)
    (data : List UInt8) : Traced Effect Client :=
  (c.walkFullState registry data).1

/-! ## Despawns -/

/-- The walk of `apply_despawn`: what it does, and its cursor when it has read
the id. -/
def walkDespawn (c : Client) (data : List UInt8) :
    Traced Effect Client × Option BinaryBuffer :=
  match BinaryBuffer.readU64 ⟨data, 0⟩ with
  | none => (.pure c, none)
  | some (id, buf) =>
      let e : Entity := ⟨UInt64.ofNat id⟩
      ({ c with replicated := c.replicated.filter (· ≠ e) }.onWorld
        (destroyIfAlive c.world e), some buf)

/-- `apply_despawn`. -/
def applyDespawn (c : Client) (data : List UInt8) : Traced Effect Client :=
  (c.walkDespawn data).1

/-! ## Packets -/

/-- The walk of the applier of a kind. -/
def walkKind (registry : ComponentRegistry) (c : Client) (data : List UInt8) :
    SyncPacketKind → Traced Effect Client × Option BinaryBuffer
  | .spawn => c.walkSpawn registry data
  | .delta => c.walkDelta registry data
  | .fullState => c.walkFullState registry data
  | .despawn => c.walkDespawn data

/-- The walk of `apply_packet`: what it does, and the cursor of the applier when
the packet has passed the check and everything has been read. -/
def walkPacket (registry : ComponentRegistry) (c : Client)
    (kind : SyncPacketKind) (data : List UInt8) :
    Traced Effect Client × Option BinaryBuffer :=
  if validatePacket registry kind data then c.walkKind registry data kind
  else (.pure c, none)

/-- `apply_packet`. -/
def applyPacket (registry : ComponentRegistry) (c : Client)
    (kind : SyncPacketKind) (data : List UInt8) : Traced Effect Client :=
  (c.walkPacket registry kind data).1

/-- A packet that passes the check is walked by the applier of its kind. -/
theorem walkPacket_of_accepted
    {registry : ComponentRegistry} {c : Client} {kind : SyncPacketKind}
    {data : List UInt8} (accepted : validatePacket registry kind data = true) :
    c.walkPacket registry kind data = c.walkKind registry data kind :=
  if_pos accepted

/-- A packet that passes the check does what the applier of its kind does. -/
theorem applyPacket_of_accepted
    {registry : ComponentRegistry} {c : Client} {kind : SyncPacketKind}
    {data : List UInt8} (accepted : validatePacket registry kind data = true) :
    c.applyPacket registry kind data = (c.walkKind registry data kind).1 :=
  congrArg Prod.fst (walkPacket_of_accepted accepted)

end Client
end VortarisECS
