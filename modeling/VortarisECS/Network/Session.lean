import VortarisECS.Network.Client
import VortarisECS.Serialization.Builds

/-!
# Sessions

A session works on one world with operations, snapshot loads and packets, in any
order.  What holds along runs of operations holds along sessions, since loads
and packets build with operations of the world whatever their bytes are.
-/

namespace VortarisECS
namespace Client

variable {registry : ComponentRegistry}

/-- A spawn takes steps of the world. -/
theorem applySpawn_builds (c : Client) (data : List UInt8) :
    Builds registry c.world (c.applySpawn registry data).effects
      (c.applySpawn registry data).state.world := by
  unfold applySpawn walkSpawn
  cases readSyncVersion ⟨data, 0⟩ with
  | none => exact .refl c.world
  | some read =>
      dsimp only
      cases read.2.readU64 with
      | none => exact .refl c.world
      | some named =>
          dsimp only
          have created : Builds registry _ _ _ := .create c.world
            (UInt64.ofNat named.1)
          split
          · exact created
          · have received := created.trans
              (World.receiveBlocks_builds (.ofVersion read.1)
                (c.world.preassignedHandle (UInt64.ofNat named.1)) _ named.2)
            split
            · exact received
            · exact received

/-- So does a whole component. -/
theorem applyWhole_builds (e : Entity) :
    (applyWhole registry e).Builds registry id := by
  intro w buf
  unfold applyWhole
  split
  · exact World.receiveBlock_builds .whole e w buf
  · exact .refl w

/-- A bucket keeps the size of the component. -/
theorem readBucket_length
    (schema : ComponentSchema) (inst : List UInt8) (buf : BinaryBuffer) :
    (readBucket schema inst buf).1.length = inst.length := by
  unfold readBucket
  split
  · rfl
  · split
    · rfl
    · exact readFields_length _ _ _

theorem readBuckets_length
    (schema : ComponentSchema) (count : Nat) (inst : List UInt8)
    (buf : BinaryBuffer) :
    (readBuckets schema count inst buf).1.length = inst.length := by
  induction count generalizing inst buf with
  | zero => rfl
  | succ count inductionHypothesis =>
      have first := readBucket_length schema inst buf
      unfold readBuckets
      split
      · rename_i read
        rw [read] at first
        exact first
      · rename_i read
        rw [read] at first
        exact (inductionHypothesis _ _).trans first

/-- Buckets take steps of the world. -/
theorem applyBuckets_builds (e : Entity) :
    (applyBuckets registry e).Builds registry id := by
  intro w buf
  unfold applyBuckets
  cases buf.readU32 with
  | none => exact .refl w
  | some typed =>
      dsimp only [id]
      cases registry.schemaOf (UInt32.ofNat typed.1) with
      | none => exact .refl w
      | some schema =>
          dsimp only
          cases typed.2.readU8 with
          | none => exact .refl w
          | some counted =>
              dsimp only
              split
              swap
              · exact .refl w
              have added : Builds registry w
                  (if w.has e (UInt32.ofNat typed.1) then Traced.pure w
                    else w.addRaw registry e (UInt32.ofNat typed.1) none).effects
                  (if w.has e (UInt32.ofNat typed.1) then Traced.pure w
                    else w.addRaw registry e
                      (UInt32.ofNat typed.1) none).state := by
                split
                · exact .refl w
                · exact .add w e _
              generalize (if w.has e (UInt32.ofNat typed.1) then Traced.pure w
                else w.addRaw registry e (UInt32.ofNat typed.1) none) =
                step at added ⊢
              cases found : step.state.getRaw e (UInt32.ofNat typed.1) with
              | none => exact added
              | some dst =>
                  have written := added.trans (.write found
                    (readBuckets_length schema counted.1 dst counted.2))
                  rwa [List.append_nil] at written

/-- So does a component of a delta. -/
theorem applyDeltaComponent_builds (version : Nat) (e : Entity) :
    (applyDeltaComponent registry version e).Builds registry id := by
  unfold applyDeltaComponent
  split
  · exact applyWhole_builds e
  · exact applyBuckets_builds e

/-- So does an entity of a delta. -/
theorem applyDeltaEntity_builds (version : Nat) :
    (applyDeltaEntity registry version).Builds registry Client.world := by
  intro c buf
  unfold applyDeltaEntity
  cases buf.readU64 with
  | none => exact .refl c.world
  | some named =>
      dsimp only
      cases named.2.readU8 with
      | none => exact .refl c.world
      | some counted =>
          dsimp only
          have component : (applyDeltaComponent registry version
              ⟨UInt64.ofNat named.1⟩).Builds registry id :=
            applyDeltaComponent_builds version _
          have built := component.times counted.1 c.world counted.2
          split
          · exact built
          · exact built

/-- So does a delta. -/
theorem applyDelta_builds (c : Client) (data : List UInt8) :
    Builds registry c.world (c.applyDelta registry data).effects
      (c.applyDelta registry data).state.world := by
  unfold applyDelta walkDelta
  cases readSyncVersion ⟨data, 0⟩ with
  | none => exact .refl c.world
  | some read =>
      dsimp only
      cases read.2.readU32 with
      | none => exact .refl c.world
      | some counted =>
          exact (applyDeltaEntity_builds read.1).times counted.1 c counted.2

/-- Destroying the entity a record replaces takes steps of the world. -/
theorem destroyIfAlive_builds (w : World) (e : Entity) :
    Builds registry w (destroyIfAlive w e).effects
      (destroyIfAlive w e).state := by
  unfold destroyIfAlive
  split
  · exact .destroy w e
  · exact .refl w

/-- So does rebuilding a record. -/
theorem rebuildRecord_builds (format : PayloadFormat) :
    (rebuildRecord registry format).Builds registry Client.world := by
  intro c buf
  unfold rebuildRecord
  cases buf.readU64 with
  | none => exact .refl c.world
  | some named =>
      dsimp only
      have created : Builds registry _ _ _ := (destroyIfAlive_builds c.world
        ⟨UInt64.ofNat named.1⟩).trans (.create _ (UInt64.ofNat named.1))
      split
      · exact created
      · exact created.trans (World.receiveBlocks_builds format _ _ named.2)

/-- So does the sweep of ghosts. -/
theorem sweep_builds (incoming former : List Entity) (w : World) :
    Builds registry w
      (Traced.forEach (sweepGhost incoming) w former).effects
      (Traced.forEach (sweepGhost incoming) w former).state := by
  induction former generalizing w with
  | nil => exact .refl w
  | cons ghost former inductionHypothesis =>
      have swept : Builds registry w (sweepGhost incoming w ghost).effects
          (sweepGhost incoming w ghost).state := by
        unfold sweepGhost
        split
        · exact .refl w
        · exact destroyIfAlive_builds w ghost
      exact swept.trans (inductionHypothesis _)

/-- A full state takes steps of the world. -/
theorem applyFullState_builds (c : Client) (data : List UInt8) :
    Builds registry c.world (c.applyFullState registry data).effects
      (c.applyFullState registry data).state.world := by
  unfold applyFullState walkFullState
  cases readSyncVersion ⟨data, 0⟩ with
  | none => exact .refl c.world
  | some read =>
      dsimp only
      cases read.2.readU32 with
      | none => exact .refl c.world
      | some counted =>
          dsimp only
          cases scanRecords registry (.ofVersion read.1) counted.1 []
              counted.2 with
          | none => exact .refl c.world
          | some _ =>
              dsimp only
              have record : (rebuildRecord registry
                  (.ofVersion read.1)).Builds registry Client.world :=
                rebuildRecord_builds _
              have rebuilt := record.times counted.1 ⟨c.world, []⟩ counted.2
              generalize (rebuildRecord registry (.ofVersion read.1)).times
                counted.1 ⟨c.world, []⟩ counted.2 = result at rebuilt ⊢
              obtain ⟨step, cursor⟩ := result
              cases cursor with
              | none => exact rebuilt
              | some _ => exact rebuilt.trans (sweep_builds _ _ _)

/-- So does a despawn. -/
theorem applyDespawn_builds (c : Client) (data : List UInt8) :
    Builds registry c.world (c.applyDespawn data).effects
      (c.applyDespawn data).state.world := by
  unfold applyDespawn walkDespawn
  cases BinaryBuffer.readU64 ⟨data, 0⟩ with
  | none => exact .refl c.world
  | some named => exact destroyIfAlive_builds c.world _

/-- A packet of any kind, whatever its bytes. -/
theorem applyPacket_builds
    (c : Client) (kind : SyncPacketKind) (data : List UInt8) :
    Builds registry c.world (c.applyPacket registry kind data).effects
      (c.applyPacket registry kind data).state.world := by
  unfold applyPacket walkPacket
  split
  · cases kind with
    | spawn => exact applySpawn_builds c data
    | delta => exact applyDelta_builds c data
    | fullState => exact applyFullState_builds c data
    | despawn => exact applyDespawn_builds c data
  · exact .refl c.world

end Client

/-! ## Runs -/

/-- A step of a session: an operation, a snapshot load, or a packet that comes in
while the entities `former` count as replicated. -/
inductive SessionOp
  | world (op : WorldOp)
  | deserializeSnapshot (data : List UInt8)
  | applyPacket (former : List Entity) (kind : SyncPacketKind)
      (data : List UInt8)

namespace SessionOp

/-- Perform one step. -/
def apply (registry : ComponentRegistry) (w : World) :
    SessionOp → Traced Effect World
  | world op => op.apply registry w
  | deserializeSnapshot data =>
      (deserializeWorldSnapshot registry w ⟨data, 0⟩).1
  | applyPacket former kind data =>
      let applied := Client.applyPacket registry ⟨w, former⟩ kind data
      ⟨applied.state.world, applied.effects⟩

/-- A session that starts from a fresh world. -/
def run (registry : ComponentRegistry) (ops : List SessionOp) :
    Traced Effect World :=
  Traced.forEach (apply registry) (World.empty registry) ops

variable {registry : ComponentRegistry} {ops : List SessionOp}

/-- So does every step of a session. -/
theorem apply_realizes
    {invariant : World → Prop} {accept : Effect → Prop}
    (inductiveOn : InductiveOn registry invariant accept) (op : SessionOp) :
    Realizes registry invariant accept fun w => op.apply registry w := by
  cases op with
  | world op => exact WorldOp.apply_realizes inductiveOn op
  | deserializeSnapshot data =>
      exact fun w => (World.deserializeWorldSnapshot_builds w data).steps
        inductiveOn
  | applyPacket former kind data =>
      exact fun w => (Client.applyPacket_builds ⟨w, former⟩ kind data).steps
        inductiveOn

/-- So does every session. -/
theorem run_realizes
    {invariant : World → Prop} {accept : Effect → Prop}
    (inductiveOn : InductiveOn registry invariant accept)
    (ops : List SessionOp) :
    Realizes registry invariant accept
      fun w => Traced.forEach (apply registry) w ops :=
  Realizes.forEach inductiveOn fun op _ => apply_realizes inductiveOn op

/-- A session ends idle. -/
theorem run_idle (registry : ComponentRegistry) (ops : List SessionOp) :
    (run registry ops).state.Idle := by
  induction ops using List.reverseRec with
  | nil => exact show (World.empty registry).Idle from rfl
  | append_singleton ops op inductionHypothesis =>
      unfold run
      rw [Traced.forEach_append_state]
      cases op with
      | world op => exact WorldOp.apply_idle inductionHypothesis op
      | deserializeSnapshot data =>
          exact (World.deserializeWorldSnapshot_builds _ data).idle
            inductionHypothesis
      | applyPacket former kind data =>
          exact (Client.applyPacket_builds ⟨_, former⟩ kind data).idle
            inductionHypothesis

/-- A session in which no creation hands out a live id ends in a stable world. -/
theorem run_stable
    (issuesDead : Traced.Accepted Effect.IssuesDead (run registry ops)) :
    (run registry ops).state.Stable registry :=
  (run_realizes (World.stable_inductiveOn registry) ops).keeps
    (World.stable_inductiveOn registry) _ (World.empty_stable registry)
    issuesDead

/-- A session in which every accepted id from outside claims a fresh slot ends in
a sound world. -/
theorem run_sound
    (adoptsFresh : Traced.Accepted Effect.AdoptsFresh (run registry ops)) :
    (run registry ops).state.Sound registry :=
  (run_realizes (World.sound_inductiveOn registry) ops).keeps
    (World.sound_inductiveOn registry) _ (World.empty_sound registry)
    adoptsFresh

end SessionOp
end VortarisECS
