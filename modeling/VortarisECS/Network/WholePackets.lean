import VortarisECS.Network.Receive
import VortarisECS.Network.Validation

/-!
# Packets are applied as a whole

The validator, the pre-flight of a full state and the appliers walk a packet
each for itself.  As long as what the validator accepts is a packet of the
grammar, an applier that has changed something reads the packet to its end.
-/

namespace VortarisECS
namespace Client

variable {registry : ComponentRegistry} {c : Client}

/-- The client is as it was: the same entities with the same components and
bytes, and the same replicated entities. -/
structure SameState (c c' : Client) : Prop where
  contents : c'.world.contents = c.world.contents
  replicated : ∀ e, e ∈ c'.replicated ↔ e ∈ c.replicated

/-- One walk of `apply_packet` leaves the client as it was, or it processes every
record and its cursor stops at the end of the packet. -/
def AllOrNothing (registry : ComponentRegistry) (c : Client)
    (kind : SyncPacketKind) (data : List UInt8) : Prop :=
  c.SameState (c.walkPacket registry kind data).1.state ∨
    ∃ buf, (c.walkPacket registry kind data).2 = some buf ∧ buf.atEnd = true

/-! ## Packets of the grammar -/

/-- A spawn that can be applied is read to its end. -/
theorem walkSpawn_atEnd
    (rest : c.world.AtRest registry) {data : List UInt8}
    (inMemory : data.length < sizeLimit) {record : EntityRecord}
    (parsed : parsePacket registry .spawn data = some (.spawn record))
    (canSpawn : c.CanSpawn record.id) :
    ∃ buf, (c.walkSpawn registry data).2 = some buf ∧ buf.atEnd = true := by
  obtain ⟨version, headed, id, blocks, buf, input, rfl, readVersion, readId,
    remaining, parsedBlocks⟩ := spawn_reads inMemory parsed
  obtain ⟨handle, hosts, _⟩ := World.createEntityPreassigned_spec
    rest.stable rest.idle canSpawn.1 canSpawn.2
  obtain ⟨received, last⟩ := World.receiveBlocks_performs _ buf input blocks []
    hosts remaining parsedBlocks
  refine ⟨_, ?_, last.atEnd_iff.mpr rfl⟩
  unfold walkSpawn
  rw [readVersion]
  dsimp only
  rw [readId]
  dsimp only
  rw [handle, if_neg (World.real_of_accepted canSpawn.1), received]

/-- A delta is read to its end. -/
theorem walkDelta_atEnd
    (rest : c.world.AtRest registry) {data : List UInt8}
    (inMemory : data.length < sizeLimit) {entities : List DeltaEntity}
    (parsed : parsePacket registry .delta data = some (.delta entities)) :
    ∃ buf, (c.walkDelta registry data).2 = some buf ∧ buf.atEnd = true := by
  obtain ⟨version, headed, count, buf, input, readVersion, readCount, remaining,
    parsedEntities⟩ := delta_reads inMemory parsed
  obtain ⟨performed, last⟩ := applyDeltaEntities_performs version count c buf
    input entities [] rest remaining parsedEntities
  refine ⟨_, ?_, last.atEnd_iff.mpr rfl⟩
  unfold walkDelta
  rw [readVersion]
  dsimp only
  rw [readCount]
  dsimp only
  rw [performed]

/-- A full state whose ids are admissible is read to its end. -/
theorem walkFullState_atEnd
    (rest : c.world.AtRest registry) {data : List UInt8}
    (inMemory : data.length < sizeLimit) {records : List EntityRecord}
    (parsed : parsePacket registry .fullState data = some (.fullState records))
    (admissible : Admissible records []) :
    ∃ buf, (c.walkFullState registry data).2 = some buf ∧ buf.atEnd = true := by
  obtain ⟨version, headed, count, buf, input, readVersion, readCount, remaining,
    parsedRecords⟩ := fullState_reads inMemory parsed
  have scanned := (scanRecords_eq [] remaining parsedRecords).1
  have accepts : Accepts registry ⟨c.world, []⟩ records :=
    ⟨rest, fun record member => (admissible.1 record member).1⟩
  obtain ⟨performed, last⟩ := rebuildRecords_performs count _ buf input records
    [] accepts remaining parsedRecords
  refine ⟨_, ?_, last.atEnd_iff.mpr rfl⟩
  unfold walkFullState
  rw [readVersion]
  dsimp only
  rw [readCount]
  dsimp only
  rw [scanned, if_pos admissible]
  dsimp only
  rw [performed]

/-! ## All or nothing -/

/-- A packet that is rejected changes nothing. -/
theorem applyPacket_rejected
    {kind : SyncPacketKind} {data : List UInt8}
    (rejected : ¬validatePacket registry kind data = true) :
    c.AllOrNothing registry kind data := by
  unfold AllOrNothing walkPacket
  rw [if_neg rejected]
  exact Or.inl ⟨rfl, fun _ => Iff.rfl⟩

/-- A packet of the grammar: a spawn under an id that is refused or taken and a
full state whose ids are not admissible change nothing, any other one is read to
its end. -/
theorem allOrNothing_of_parsed
    (rest : c.world.AtRest registry) {kind : SyncPacketKind}
    {data : List UInt8} (inMemory : data.length < sizeLimit)
    {packet : SyncPacket}
    (parsed : parsePacket registry kind data = some packet) :
    c.AllOrNothing registry kind data := by
  have walked := walkPacket_of_accepted (c := c)
    (validatePacket_of_parsed inMemory parsed)
  unfold AllOrNothing
  cases kind with
  | spawn =>
      obtain ⟨_, _, record, _, _, rfl⟩ := parsePacket_spawn_eq_some.mp parsed
      by_cases canSpawn : c.CanSpawn record.id
      · rw [walked]
        exact Or.inr (walkSpawn_atEnd rest inMemory parsed canSpawn)
      · obtain ⟨_, contentsEq, tracked⟩ := receiveSpawn_spec rest inMemory parsed
        refine Or.inl ⟨funext fun e => ?_, fun e => ?_⟩
        · exact (contentsEq e).trans (if_neg fun both => canSpawn both.2)
        · exact (tracked e).trans (or_iff_left fun both => canSpawn both.2)
  | delta =>
      obtain ⟨_, _, _, _, entities, _, _, _, rfl⟩ :=
        parsePacket_delta_eq_some.mp parsed
      rw [walked]
      exact Or.inr (walkDelta_atEnd rest inMemory parsed)
  | fullState =>
      obtain ⟨_, _, _, _, records, _, _, _, rfl⟩ :=
        parsePacket_fullState_eq_some.mp parsed
      by_cases admissible : Admissible records []
      · rw [walked]
        exact Or.inr (walkFullState_atEnd rest inMemory parsed admissible)
      · have unchanged : c.applyPacket registry .fullState data = .pure c := by
          rw [applyPacket_fullState inMemory parsed,
            applyFullState_of_parsed rest inMemory parsed, if_neg admissible]
        have same : (c.walkPacket registry .fullState data).1.state = c :=
          congrArg Traced.state unchanged
        rw [same]
        exact Or.inl ⟨rfl, fun _ => Iff.rfl⟩
  | despawn =>
      obtain ⟨id, buf, _, readId, remaining⟩ := despawn_reads inMemory parsed
      rw [walked]
      unfold walkKind walkDespawn
      rw [readId]
      exact Or.inr ⟨buf, rfl, remaining.atEnd_iff.mpr rfl⟩

/-- **A packet is applied as a whole or not at all** when no size of a component
wraps, and more generally when what the validator accepts is a packet of the
grammar. -/
theorem applyPacket_allOrNothing
    (rest : c.world.AtRest registry) {kind : SyncPacketKind}
    {data : List UInt8} (inMemory : data.length < vectorLimit)
    (measured : registry.WireSizesFit ∨
      (validatePacket registry kind data = true →
        (parsePacket registry kind data).isSome = true)) :
    c.AllOrNothing registry kind data := by
  by_cases accepted : validatePacket registry kind data = true
  · have parsed : ∃ packet, parsePacket registry kind data = some packet := by
      obtain fit | found := measured
      · exact parsed_of_validatePacket fit inMemory accepted
      · exact Option.isSome_iff_exists.mp (found accepted)
    obtain ⟨packet, parsed⟩ := parsed
    exact allOrNothing_of_parsed rest (inMemory.trans (by decide)) parsed
  · exact applyPacket_rejected accepted

/-- A full state with one entity that has one component of one byte. -/
theorem applyPacket_allOrNothing_health :
    let c : Client :=
      ⟨(WorldOp.run ComponentRegistry.healthRegistry [.createEntity]).state, []⟩
    c.AllOrNothing ComponentRegistry.healthRegistry .fullState
      [1, 0, 1, 0, 0, 0, 1, 0, 0, 0, 0, 0, 0, 0, 1, 0, 1, 0, 0, 0, 7] := by
  intro c
  have sound : World.Sound ComponentRegistry.healthRegistry c.world :=
    WorldOp.run_sound (by simp [WorldOp.PreassignsNothing])
  exact applyPacket_allOrNothing ⟨sound.stable, WorldOp.run_idle _ _⟩
    (by decide) (Or.inl healthRegistry_fits)

/-- The sizes of four raw fields sum up to zero: the validator skips no byte of
the component, and `apply_spawn` returns early with the entity created. -/
theorem not_allOrNothing_chunk :
    let field : String → FieldDescriptor := fun name =>
      { name := name, type := .blob, count := 2 ^ 62 }
    let registry := (ComponentRegistry.registerSchemaComponent
      .singlePrecision {} "Chunk"
      [field "a", field "b", field "c", field "d"]).2
    ¬(Client.mk (World.empty registry) []).AllOrNothing registry .spawn
      [1, 0, 1, 0, 0, 0, 0, 0, 0, 0, 1, 0, 1, 0, 0, 0] := by
  rintro field registry (same | ⟨buf, ends, _⟩)
  · have alive := congrArg Option.isSome (congrFun same.contents ⟨1⟩)
    rw [World.contents_isSome, World.contents_isSome] at alive
    exact absurd alive (by decide +kernel)
  · exact absurd ends (by
      rw [show (Client.walkPacket _ _ _ _).2 = none by decide +kernel]
      exact (Option.some_ne_none buf).symm)

end Client
end VortarisECS
