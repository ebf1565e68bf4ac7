import VortarisECS.Network.DeltaInstall
import VortarisECS.Network.FullStateTransfer
import VortarisECS.Serialization.Builds

/-!
# Receiving packets

What a client at rest does with a packet in the grammar.  A spawn brings an
entity to life unless its id is refused or taken, a delta changes live entities
and a despawn removes one.
-/

namespace VortarisECS
namespace Client

variable {registry : ComponentRegistry} {w : World} {e : Entity} {c : Client}

/-- Receiving a delta. -/
theorem receiveDelta_spec
    (rest : c.world.AtRest registry) {data : List UInt8}
    (inMemory : data.length < sizeLimit) {entities : List DeltaEntity}
    (parsed : parsePacket registry .delta data = some (.delta entities)) :
    let applied := (c.applyPacket registry .delta data).state
    applied.world.AtRest registry ∧
    (∀ e, applied.world.contents e = (c.world.contents e).map fun held =>
      (saidOf entities e).foldl (Components.receiveDelta registry) held) ∧
    ∀ e, e ∈ applied.replicated ↔ e ∈ c.replicated ∨
      e.id ∈ entities.map DeltaEntity.id ∧ c.world.isAlive e = true := by
  have applied : c.applyPacket registry .delta data =
      c.applyDelta registry data :=
    applyPacket_of_accepted (validatePacket_of_parsed inMemory parsed)
  rw [applied, applyDelta_of_parsed rest inMemory parsed]
  exact installDeltaEntities_spec rest entities

/-- Receiving a despawn. -/
theorem receiveDespawn_spec
    (rest : c.world.AtRest registry) {data : List UInt8}
    (inMemory : data.length < sizeLimit) {id : UInt64}
    (parsed : parsePacket registry .despawn data = some (.despawn id)) :
    let applied := (c.applyPacket registry .despawn data).state
    applied.world.AtRest registry ∧
    applied.world.contents = c.world.contents.kill ⟨id⟩ ∧
    ∀ e, e ∈ applied.replicated ↔ e ∈ c.replicated ∧ e ≠ ⟨id⟩ := by
  have applied : c.applyPacket registry .despawn data = c.applyDespawn data :=
    applyPacket_of_accepted (validatePacket_of_parsed inMemory parsed)
  obtain ⟨found, buf, same, readId, _⟩ := despawn_reads inMemory parsed
  rw [SyncPacket.despawn.injEq] at same
  subst same
  obtain ⟨after, killed⟩ := destroyIfAlive_spec rest ⟨UInt64.ofNat found⟩
  rw [applied]
  unfold applyDespawn walkDespawn
  rw [readId]
  refine ⟨after, killed, fun e => ?_⟩
  change e ∈ c.replicated.filter _ ↔ _
  rw [List.mem_filter, decide_eq_true_iff]

/-- The client can take in a spawn of the id: it is accepted and not alive. -/
def CanSpawn (c : Client) (id : UInt64) : Prop :=
  idRefused id = false ∧ c.world.isAlive ⟨id⟩ = false

instance (c : Client) (id : UInt64) : Decidable (c.CanSpawn id) :=
  inferInstanceAs (Decidable (_ ∧ _))

/-- An id that is refused or taken gets no handle. -/
theorem preassignedHandle_of_not_canSpawn
    {id : UInt64} (refused : ¬c.CanSpawn id) :
    c.world.preassignedHandle id = Entity.null := by
  unfold World.preassignedHandle
  dsimp only
  by_cases last : (⟨id⟩ : Entity).slot = 2 ^ 32 - 1
  · exact if_pos last
  · rw [if_neg last]
    by_cases far : (⟨id⟩ : Entity).slot ≥ maxPreassignedSlot
    · exact if_pos far
    · rw [if_neg far]
      refine if_pos (Bool.not_eq_false _ ▸ fun dead => refused ⟨?_, ?_⟩)
      · unfold idRefused
        rw [decide_eq_false last, decide_eq_false far]
        rfl
      · rw [World.isAlive, dead]
        exact Bool.and_false _

/-- Receiving a spawn. -/
theorem receiveSpawn_spec
    (rest : c.world.AtRest registry) {data : List UInt8}
    (inMemory : data.length < sizeLimit) {record : EntityRecord}
    (parsed : parsePacket registry .spawn data = some (.spawn record)) :
    let applied := (c.applyPacket registry .spawn data).state
    applied.world.AtRest registry ∧
    (∀ e, applied.world.contents e =
      if e = ⟨record.id⟩ ∧ c.CanSpawn record.id then
        some (record.components registry)
      else c.world.contents e) ∧
    ∀ e, e ∈ applied.replicated ↔
      e ∈ c.replicated ∨ e = ⟨record.id⟩ ∧ c.CanSpawn record.id := by
  have applied : c.applyPacket registry .spawn data =
      c.applySpawn registry data :=
    applyPacket_of_accepted (validatePacket_of_parsed inMemory parsed)
  obtain ⟨version, headed, id, blocks, buf, input, rfl, readVersion, readId,
    remaining, parsedBlocks⟩ := spawn_reads inMemory parsed
  rw [applied]
  unfold applySpawn walkSpawn
  rw [readVersion]
  dsimp only
  rw [readId]
  dsimp only
  by_cases canSpawn : c.CanSpawn (UInt64.ofNat id)
  · obtain ⟨handle, hosts, spawned⟩ := World.createEntityPreassigned_spec
      rest.stable rest.idle canSpawn.1 canSpawn.2
    obtain ⟨received, _⟩ := World.receiveBlocks_performs _ buf input blocks []
      hosts remaining parsedBlocks
    obtain ⟨lastHosts, installed⟩ := World.installBlocks_spec hosts blocks
    rw [handle, if_neg (World.real_of_accepted canSpawn.1), received]
    refine ⟨⟨lastHosts.stable, lastHosts.idle⟩, fun e => ?_, fun e => ?_⟩
    · change (installBlocks registry ⟨UInt64.ofNat id⟩ _
        blocks).state.contents e = _
      rw [installed, spawned]
      by_cases isSelf : e = ⟨UInt64.ofNat id⟩
      · rw [if_pos ⟨isSelf, canSpawn⟩, isSelf, Contents.adjust_self,
          Contents.spawn, if_pos rfl]
        rfl
      · rw [if_neg fun both => isSelf both.1, Contents.adjust_of_ne _ _ isSelf,
          Contents.spawn, if_neg isSelf]
    · change e ∈ c.replicated.insert _ ↔ _
      rw [List.mem_insert_iff, or_comm]
      exact or_congr_right ⟨fun isSelf => ⟨isSelf, canSpawn⟩, And.left⟩
  · have handle := preassignedHandle_of_not_canSpawn canSpawn
    have created : Builds registry _ _ _ :=
      .create c.world (UInt64.ofNat id)
    rw [if_pos handle]
    refine ⟨⟨?_, ?_⟩, fun e => ?_, fun e => ?_⟩
    · exact (World.createEntityPreassigned_realizes _).keeps
        (World.stable_inductiveOn registry) c.world rest.stable
        created.issuesDead
    · exact (World.createEntityPreassigned_control c.world _).trans rest.idle
    · rw [if_neg fun both => canSpawn both.2]
      exact congrFun (World.createEntityPreassigned_refused handle) e
    · exact (or_iff_left fun both => canSpawn both.2).symm

end Client
end VortarisECS
