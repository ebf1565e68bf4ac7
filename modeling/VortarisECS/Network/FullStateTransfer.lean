import VortarisECS.Network.FullState
import VortarisECS.Serialization.Snapshot

/-!
# Sending a full state

A full state goes from the server straight to the client.  It is not sent when
it lists nobody, and not applied when an id in it is out of range.
-/

namespace VortarisECS
namespace Client

/-- `send_full_state` over the direct transport. -/
def sendFullState (registry : ComponentRegistry) (server : World)
    (order : List Ptr) (c : Client) : Traced Effect Client :=
  let buf := server.serializeFullState registry order
  if buf.size > 0 then c.applyPacket registry .fullState buf.data else .pure c

variable {registry : ComponentRegistry} {server : World} {order : List Ptr}
variable {c : Client}

/-- What a server sends is applied when it has something to send and all ids are
in range; otherwise the client stays as it is. -/
theorem sendFullState_cases
    (consistent : server.store.Consistent registry)
    (perm : order.Perm server.store.archetypeList)
    (counted : ∀ e, (server.networkedOf registry e).length < 2 ^ 16)
    (small : (server.fullStateRecords registry order).length < 2 ^ 32)
    (inMemory : (server.serializeFullState registry order).size < sizeLimit)
    (rest : c.world.AtRest registry) :
    (((∃ e, server.Replicates registry e) ∧
        ∀ e, server.Replicates registry e → e.slot < maxPreassignedSlot) ∧
      parsePacket registry .fullState
          (server.serializeFullState registry order).data =
        some (.fullState (server.fullStateRecords registry order)) ∧
      Admissible (server.fullStateRecords registry order) [] ∧
      c.sendFullState registry server order =
        c.applyFullState registry
          (server.serializeFullState registry order).data) ∨
    ¬((∃ e, server.Replicates registry e) ∧
        ∀ e, server.Replicates registry e → e.slot < maxPreassignedSlot) ∧
      c.sendFullState registry server order = .pure c := by
  have written := World.serializeFullState_data consistent perm counted small
  have listed (e : Entity) : e.id ∈ (server.fullStateRecords registry
      order).map EntityRecord.id ↔ server.Replicates registry e :=
    World.mem_fullStateRecords_iff consistent perm
  have admissible := (World.fullStateRecords_admissible_iff consistent perm).trans
    (forall₂_congr fun e _ => idRefused_eq_false_iff e)
  by_cases nobody : server.fullStateRecords registry order = []
  · refine Or.inr ⟨?_, ?_⟩
    · rintro ⟨⟨e, replicates⟩, _⟩
      have member := (listed e).mpr replicates
      rw [nobody] at member
      exact absurd member List.not_mem_nil
    · rw [if_pos nobody] at written
      unfold sendFullState BinaryBuffer.size
      dsimp only
      rw [written]
      rfl
  · have parsed := World.serializeFullState_parsed consistent perm counted small
      nobody
    have sent : c.sendFullState registry server order =
        c.applyFullState registry
          (server.serializeFullState registry order).data := by
      rw [← applyPacket_fullState inMemory parsed]
      unfold sendFullState BinaryBuffer.size
      dsimp only
      rw [written, if_neg nobody]
      apply if_pos
      rw [List.length_append, length_littleEndian]
      exact Nat.lt_add_right _ (by decide)
    have somebody : ∃ e, server.Replicates registry e := by
      obtain ⟨record, member⟩ := List.exists_mem_of_ne_nil _ nobody
      exact ⟨⟨record.id⟩, (listed _).mp (List.mem_map_of_mem member)⟩
    by_cases inRange : ∀ e, server.Replicates registry e →
        e.slot < maxPreassignedSlot
    · exact Or.inl ⟨⟨somebody, inRange⟩, parsed, admissible.mpr inRange, sent⟩
    · refine Or.inr ⟨fun both => inRange both.2, ?_⟩
      rw [sent, applyFullState_of_parsed rest inMemory parsed,
        if_neg (mt admissible.mp inRange)]

/-! ## Ghosts -/

/-- After a full state was sent, every formerly replicated entity that the server
does not replicate is dead on the client. -/
def GhostsSwept (registry : ComponentRegistry) (server : World)
    (order : List Ptr) (c : Client) : Prop :=
  ∀ e ∈ c.replicated, ¬server.Replicates registry e →
    (c.sendFullState registry server order).state.world.isAlive e = false

/-- Ghosts are swept exactly when the server has a networked entity and all of
them have slots in range, or when there was no ghost anyway. -/
theorem ghostsSwept_iff
    (consistent : server.store.Consistent registry)
    (sorted : SortedBySignature server.store order)
    (counted : ∀ e, (server.networkedOf registry e).length < 2 ^ 16)
    (small : (server.fullStateRecords registry order).length < 2 ^ 32)
    (inMemory : (server.serializeFullState registry order).size < sizeLimit)
    (rest : c.world.AtRest registry) :
    GhostsSwept registry server order c ↔
      ((∃ e, server.Replicates registry e) ∧
        ∀ e, server.Replicates registry e → e.slot < maxPreassignedSlot) ∨
      ∀ e ∈ c.replicated, ¬server.Replicates registry e →
        c.world.isAlive e = false := by
  unfold GhostsSwept
  obtain ⟨sends, parsed, admissible, sent⟩ | ⟨stays, unchanged⟩ :=
    sendFullState_cases consistent sorted.perm counted small inMemory rest
  · refine ⟨fun _ => Or.inl sends, fun _ e former ghost => ?_⟩
    obtain ⟨_, contentsEq, _⟩ :=
      applyFullState_installs rest inMemory parsed admissible
    have absent := mt
      (World.mem_fullStateRecords_iff consistent sorted.perm).mp ghost
    have dead := contentsEq e
    rw [find?_record_eq_none absent] at dead
    dsimp only at dead
    rw [if_pos former] at dead
    rw [sent, ← World.contents_isSome, dead]
    rfl
  · rw [unchanged]
    exact ⟨Or.inr, fun condition => condition.resolve_left stays⟩

/-- A server with one networked entity, and a client that still has another. -/
theorem ghostsSwept_iff_health :
    let registry := ComponentRegistry.healthRegistry
    let server := (WorldOp.run registry
      [.createEntity, .createEntity, .addRaw ⟨2⟩ 1 (some [7])]).state
    let c : Client := ⟨(WorldOp.run registry [.createEntity]).state, [⟨1⟩]⟩
    GhostsSwept registry server [1, 0] c ↔
      ((∃ e, server.Replicates registry e) ∧
        ∀ e, server.Replicates registry e → e.slot < maxPreassignedSlot) ∨
      ∀ e ∈ c.replicated, ¬server.Replicates registry e →
        c.world.isAlive e = false := by
  have serverSound : World.Sound ComponentRegistry.healthRegistry
      (WorldOp.run ComponentRegistry.healthRegistry
        [.createEntity, .createEntity, .addRaw ⟨2⟩ 1 (some [7])]).state :=
    WorldOp.run_sound (by simp [WorldOp.PreassignsNothing])
  have clientSound : World.Sound ComponentRegistry.healthRegistry
      (WorldOp.run ComponentRegistry.healthRegistry [.createEntity]).state :=
    WorldOp.run_sound (by simp [WorldOp.PreassignsNothing])
  exact ghostsSwept_iff serverSound.stable.consistent
    ⟨by decide, by decide⟩
    (fun e => (World.networkedOf_length_le serverSound.stable.consistent
      e).trans_lt (by decide))
    (by decide) (by decide)
    ⟨clientSound.stable, WorldOp.run_idle _ _⟩

end Client

/-- A server without networked entities sends nothing: what the client spawned
before stays. -/
theorem Client.not_ghostsSwept_emptyServer :
    let registry := ComponentRegistry.healthRegistry
    let server := World.empty registry
    let c := (Client.applyPacket registry ⟨World.empty registry, []⟩ .spawn
      [2, 0, 1, 0, 0, 0, 0, 0, 0, 0, 1, 0, 1, 0, 0, 0, 1, 9]).state
    SortedBySignature server.store [0] ∧
      ¬Client.GhostsSwept registry server [0] c := by
  refine ⟨⟨by decide, by decide⟩, fun swept => ?_⟩
  have dead := swept ⟨1⟩ (by decide) (by decide)
  revert dead
  decide

end VortarisECS
