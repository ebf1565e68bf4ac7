import VortarisECS.Network.DeltaInstall
import VortarisECS.Network.Server

/-!
# Packets that come in on a server

The surface for remote calls is open to every peer, and a server applies what
comes in like a client does.  It stays in charge as long as each packet is
malformed or changes nothing in the state it is applied to.
-/

namespace VortarisECS

variable {registry : ComponentRegistry} {w : World} {e : Entity}
variable {t : ComponentTypeId}

/-! ## Writing what is there already -/

/-- Putting back what was read changes no list. -/
theorem List.set_getD_self (items : List α) (i : Nat) (default : α) :
    items.set i ((items[i]?).getD default) = items := by
  by_cases inside : i < items.length
  · rw [List.getElem?_eq_getElem inside, Option.getD_some,
      List.set_getElem_self]
  · exact List.set_eq_of_length_le (Nat.le_of_not_lt inside)

namespace World

/-- What can be read is there. -/
theorem has_of_getRaw {inst : List UInt8} (found : w.getRaw e t = some inst) :
    w.has e t = true := by
  unfold getRaw at found
  unfold «has»
  cases location : w.store.entityLocations.lookup e with
  | none =>
      rw [location] at found
      exact absurd found (by simp)
  | some loc =>
      rw [location] at found
      dsimp only at found ⊢
      split at found
      · rename_i both
        simp [both.1, both.2]
      · exact absurd found (by simp)

/-- Writing the bytes of a component back leaves the world as it is. -/
theorem writeRaw_same {inst : List UInt8} (found : w.getRaw e t = some inst) :
    w.writeRaw e t inst = w := by
  unfold getRaw at found
  unfold writeRaw
  cases location : w.store.entityLocations.lookup e with
  | none => rfl
  | some loc =>
      rw [location] at found
      dsimp only at found ⊢
      split at found
      swap
      · exact absurd found (by simp)
      rename_i both
      rw [Option.some.injEq] at found
      subst found
      have sameColumn : ∀ c : Column, c.setRow loc.row (c.row loc.row) = c := by
        intro c
        unfold Column.setRow Column.row
        rw [List.set_getD_self]
      have sameArchetype : ∀ a : Archetype,
          a.setColumn t ((a.column t).setRow loc.row
            ((a.column t).row loc.row)) = a := by
        intro a
        rw [sameColumn]
        unfold Archetype.setColumn Archetype.column
        rw [List.set_getD_self]
      have sameHeap : w.store.heap.modify loc.archetype (fun a => a.setColumn t
          ((a.column t).setRow loc.row
            (((w.store.deref loc.archetype).column t).row loc.row))) =
          w.store.heap := by
        apply List.ext_getElem?
        intro i
        rw [List.getElem?_modify]
        unfold ArchetypeStore.deref
        cases stored : w.store.heap[i]? with
        | none => rfl
        | some a =>
            by_cases here : loc.archetype = i
            · subst here
              rw [stored, Option.map_eq_map, Option.map_some, if_pos rfl]
              exact congrArg some (sameArchetype a)
            · rw [Option.map_eq_map, Option.map_some, if_neg here]
      rw [if_pos both.2]
      unfold modifyColumn ArchetypeStore.modify
      rw [sameHeap]

/-- A refused id is not created, and one that is taken neither. -/
theorem createEntityPreassigned_of_taken
    {id : UInt64} (taken : idRefused id = true ∨ w.store.isAlive ⟨id⟩ = true ∧
      (⟨id⟩ : Entity).slot < w.slots.slotGenerations.length) :
    w.preassignedHandle id = Entity.null ∧
      w.createEntityPreassigned id = .pure w := by
  unfold preassignedHandle createEntityPreassigned
  dsimp only
  by_cases last : (⟨id⟩ : Entity).slot = 2 ^ 32 - 1
  · rw [if_pos last, if_pos last]
    exact ⟨rfl, rfl⟩
  rw [if_neg last, if_neg last]
  by_cases far : (⟨id⟩ : Entity).slot ≥ maxPreassignedSlot
  · rw [if_pos far, if_pos far]
    exact ⟨rfl, rfl⟩
  rw [if_neg far, if_neg far]
  obtain refused | ⟨alive, inRange⟩ := taken
  · unfold idRefused at refused
    rw [decide_eq_false last, decide_eq_false far] at refused
    exact absurd refused (by simp)
  · have grown : w.slots.growTo ((⟨id⟩ : Entity).slot + 1) = w.slots := by
      unfold EntitySlots.growTo
      rw [Nat.sub_eq_zero_of_le inRange, List.replicate_zero, List.append_nil]
    rw [if_pos alive, grown]
    exact ⟨rfl, if_pos alive⟩

/-- A component of a delta changes nothing of a live entity: it carries buckets
with the bytes the component has. -/
def Holds (registry : ComponentRegistry) (w : World) (e : Entity) :
    DeltaComponent → Prop
  | .whole _ => False
  | .buckets t records => ∃ schema inst, registry.schemaOf t = some schema ∧
      w.getRaw e t = some inst ∧ storeBuckets schema inst records = inst

end World

/-! ## Packets that change nothing -/

namespace Client

variable {c : Client}

/-- The client is not moved by the packet: a spawn under an id that is refused or
taken, a delta that names no live entity or has nothing new, a full state that is
refused or empty, or a despawn of a dead entity. -/
def Unmoved (registry : ComponentRegistry) (c : Client) : SyncPacket → Prop
  | .spawn record =>
      let e : Entity := ⟨record.id⟩
      idRefused record.id = true ∨ c.world.store.isAlive e = true ∧
        e.slot < c.world.slots.slotGenerations.length
  | .delta entities => ∀ entity ∈ entities, c.world.isAlive ⟨entity.id⟩ = true →
      ∀ component ∈ entity.components,
        c.world.Holds registry ⟨entity.id⟩ component
  | .fullState records => ¬Admissible records [] ∨
      records = [] ∧ ∀ e ∈ c.replicated, c.world.isAlive e = false
  | .despawn id => c.world.isAlive ⟨id⟩ = false

/-- What comes in is malformed or a packet that changes nothing. -/
def Inert (registry : ComponentRegistry) (c : Client) (kind : SyncPacketKind)
    (data : List UInt8) : Prop :=
  validatePacket registry kind data = false ∨
    data.length < sizeLimit ∧ ∃ packet,
      parsePacket registry kind data = some packet ∧ c.Unmoved registry packet

/-- The dead are not destroyed again. -/
theorem destroyIfAlive_of_dead (dead : w.isAlive e = false) :
    destroyIfAlive w e = .pure w := by
  unfold destroyIfAlive
  rw [dead, if_neg Bool.false_ne_true]

/-- A spawn under an id that is refused or taken. -/
theorem applySpawn_unmoved
    {data : List UInt8} (inMemory : data.length < sizeLimit)
    {record : EntityRecord}
    (parsed : parsePacket registry .spawn data = some (.spawn record))
    (unmoved : c.Unmoved registry (.spawn record)) :
    c.applySpawn registry data = .pure c := by
  obtain ⟨version, headed, id, blocks, buf, input, rfl, readVersion, readId, _⟩ :=
    spawn_reads inMemory parsed
  have refused := World.createEntityPreassigned_of_taken unmoved
  unfold applySpawn walkSpawn
  rw [readVersion]
  dsimp only
  rw [readId]
  dsimp only
  rw [if_pos refused.1, refused.2]
  rfl

/-- A component of a delta for a dead entity, or with nothing new. -/
theorem applyDeltaComponent_unmoved (version : Nat) (e : Entity) :
    (applyDeltaComponent registry version e).Performs
      (fun w component => w.isAlive e = true → w.Holds registry e component)
      (deltaComponentParser registry version) (fun w _ => .pure w) := by
  intro w buf input component rest unmoved remaining parsed
  unfold applyDeltaComponent
  unfold deltaComponentParser at parsed
  split at parsed <;> rename_i isFirst
  · obtain ⟨block, parsedBlock, rfl⟩ := Parser.map_eq_some.mp parsed
    rw [if_pos isFirst]
    unfold applyWhole
    split <;> rename_i alive
    · exact (unmoved alive).elim
    · obtain ⟨passed, last⟩ := discardBlock_passes buf input block rest
        remaining parsedBlock
      rw [passed]
      exact ⟨rfl, last⟩
  · rw [if_neg isFirst]
    obtain ⟨t, between, schema, count, later, records, parsedType, registered,
      parsedCount, parsedRecords, rfl⟩ := bucketsParser_eq_some.mp parsed
    obtain ⟨readType, afterType⟩ := BinaryBuffer.readNumber_follows 4 buf input
      t between remaining parsedType
    have readType' : buf.readU32 = some (t, buf.upTo between) := readType
    obtain ⟨readCount, afterCount⟩ := BinaryBuffer.readNumber_follows 1
      (buf.upTo between) between count later afterType parsedCount
    have readCount' : (buf.upTo between).readU8 =
        some (count, (buf.upTo between).upTo later) := readCount
    unfold applyBuckets
    rw [readType']
    dsimp only
    rw [registered]
    dsimp only
    rw [readCount']
    dsimp only
    split <;> rename_i alive
    · obtain ⟨schema', inst, registered', found, stored⟩ := unmoved alive
      rw [registered, Option.some.injEq] at registered'
      subst registered'
      obtain ⟨read, last⟩ := readBuckets_eq count inst afterCount parsedRecords
      simp only [BinaryBuffer.upTo_upTo] at read last
      rw [if_pos (World.has_of_getRaw found), Traced.pure_state, found]
      dsimp only
      rw [BinaryBuffer.upTo_upTo, read, stored]
      refine ⟨?_, last⟩
      dsimp only [Traced.mapState, Traced.pure]
      rw [World.writeRaw_same found]
    · obtain ⟨passed, last⟩ := (discardBucket_passes schema).times count _ later
        records rest afterCount parsedRecords
      rw [passed]
      exact ⟨rfl, last⟩

/-- An entity of a delta that is dead, or about which there is nothing new. -/
theorem applyDeltaEntity_unmoved (version : Nat) :
    (applyDeltaEntity registry version).Performs
      (fun c entity => c.world.isAlive ⟨entity.id⟩ = true →
        ∀ component ∈ entity.components,
          c.world.Holds registry ⟨entity.id⟩ component)
      (deltaEntityParser registry version)
      (fun c entity => .pure
        (if c.world.isAlive ⟨entity.id⟩ then c.track ⟨entity.id⟩ else c)) := by
  intro c buf input entity rest unmoved remaining parsed
  obtain ⟨id, between, parsedId, parsedContent⟩ :=
    Parser.andThen_eq_some.mp parsed
  obtain ⟨count, later, parsedCount, parsedComponents⟩ :=
    Parser.andThen_eq_some.mp parsedContent
  obtain ⟨components, parsedMany, rfl⟩ := Parser.map_eq_some.mp parsedComponents
  obtain ⟨readId, afterId⟩ := BinaryBuffer.readNumber_follows 8 buf input id
    between remaining parsedId
  have readId' : buf.readU64 = some (id, buf.upTo between) := readId
  obtain ⟨readCount, afterCount⟩ := BinaryBuffer.readNumber_follows 1
    (buf.upTo between) between count later afterId parsedCount
  have readCount' : (buf.upTo between).readU8 =
      some (count, (buf.upTo between).upTo later) := readCount
  have repeated : ((applyDeltaComponent registry version
      ⟨UInt64.ofNat id⟩).times count).Performs
      (fun w components => w.isAlive ⟨UInt64.ofNat id⟩ = true →
        ∀ component ∈ components, w.Holds registry ⟨UInt64.ofNat id⟩ component)
      (Parser.many count (deltaComponentParser registry version))
      (fun w components => Traced.forEach (fun w _ => .pure w) w components) :=
    (applyDeltaComponent_unmoved version _).times
    (fun _ _ _ pends alive => pends alive _ List.mem_cons_self)
    (fun _ _ _ pends alive component member =>
      pends alive component (List.mem_cons_of_mem _ member)) count
  obtain ⟨performed, last⟩ := repeated c.world _ later components rest unmoved
    afterCount parsedMany
  refine ⟨?_, last⟩
  dsimp only at performed
  rw [Traced.forEach_pure, List.foldl_fixed] at performed
  unfold applyDeltaEntity
  rw [readId']
  dsimp only
  rw [readCount']
  dsimp only
  rw [performed]
  dsimp only [BinaryBuffer.upTo_upTo]
  simp only [Option.isSome_some, true_and, Traced.pure_state]
  split
  · rfl
  · rfl

/-- What counts as replicated is not part of the world. -/
theorem trackIfAlive_world (c : Client) (entity : DeltaEntity) :
    (if c.world.isAlive ⟨entity.id⟩ then c.track ⟨entity.id⟩ else c).world =
      c.world := by
  split
  · rfl
  · rfl

/-- The world stays when the entities of a delta are tracked. -/
theorem trackAlive_world (entities : List DeltaEntity) (c : Client) :
    (entities.foldl (fun c entity =>
      if c.world.isAlive ⟨entity.id⟩ then c.track ⟨entity.id⟩ else c) c).world =
      c.world := by
  induction entities generalizing c with
  | nil => rfl
  | cons entity entities inductionHypothesis =>
      rw [List.foldl_cons, inductionHypothesis, trackIfAlive_world]

/-- A delta with nothing new only tells which entities count as replicated. -/
theorem applyDelta_unmoved
    {data : List UInt8} (inMemory : data.length < sizeLimit)
    {entities : List DeltaEntity}
    (parsed : parsePacket registry .delta data = some (.delta entities))
    (unmoved : c.Unmoved registry (.delta entities)) :
    c.applyDelta registry data = .pure (entities.foldl (fun c entity =>
      if c.world.isAlive ⟨entity.id⟩ then c.track ⟨entity.id⟩ else c) c) := by
  obtain ⟨version, headed, count, buf, input, readVersion, readCount, remaining,
    parsedEntities⟩ := delta_reads inMemory parsed
  have repeated : ((applyDeltaEntity registry version).times count).Performs
      (fun c entities => c.Unmoved registry (.delta entities))
      (Parser.many count (deltaEntityParser registry version))
      (fun c entities => Traced.forEach (fun c entity => .pure
        (if c.world.isAlive ⟨entity.id⟩ then c.track ⟨entity.id⟩ else c)) c
        entities) :=
    (applyDeltaEntity_unmoved version).times
    (fun _ entity _ pends => pends entity List.mem_cons_self)
    (fun c entity entities pends later member => by
      dsimp only [Traced.pure_state]
      rw [trackIfAlive_world]
      exact pends later (List.mem_cons_of_mem entity member)) count
  have performed := (repeated c buf input entities [] unmoved remaining
    parsedEntities).1
  dsimp only at performed
  rw [Traced.forEach_pure] at performed
  unfold applyDelta walkDelta
  rw [readVersion]
  dsimp only
  rw [readCount]
  dsimp only
  rw [performed]

/-- Ghosts that are dead are not swept. -/
theorem sweep_of_dead
    (incoming : List Entity) {former : List Entity}
    (dead : ∀ e ∈ former, w.isAlive e = false) :
    Traced.forEach (sweepGhost incoming) w former = .pure w := by
  induction former with
  | nil => rfl
  | cons ghost former inductionHypothesis =>
      have swept : sweepGhost incoming w ghost = .pure w := by
        unfold sweepGhost
        split
        · rfl
        · exact destroyIfAlive_of_dead (dead ghost List.mem_cons_self)
      rw [Traced.forEach_cons, swept, Traced.andThen, Traced.pure_state,
        inductionHypothesis fun e member =>
          dead e (List.mem_cons_of_mem ghost member)]
      rfl

/-- A full state that is refused, or lists nobody and finds no ghosts. -/
theorem applyFullState_unmoved
    {data : List UInt8} (inMemory : data.length < sizeLimit)
    {records : List EntityRecord}
    (parsed : parsePacket registry .fullState data = some (.fullState records))
    (unmoved : c.Unmoved registry (.fullState records)) :
    (c.applyFullState registry data).state.world = c.world ∧
      (c.applyFullState registry data).effects = [] := by
  obtain ⟨version, headed, count, buf, input, readVersion, readCount, remaining,
    parsedRecords⟩ := fullState_reads inMemory parsed
  have scanned := (scanRecords_eq [] remaining parsedRecords).1
  unfold applyFullState walkFullState
  rw [readVersion]
  dsimp only
  rw [readCount]
  dsimp only
  rw [scanned]
  obtain refused | ⟨rfl, dead⟩ := unmoved
  · rw [if_neg refused]
    exact ⟨rfl, rfl⟩
  · have none : count = 0 := (Parser.many_length parsedRecords).symm
    subst none
    rw [if_pos ⟨fun _ member => absurd member List.not_mem_nil, List.nodup_nil⟩]
    dsimp only [Act.times, Traced.andThen, Traced.pure, onWorld]
    rw [sweep_of_dead [] dead]
    exact ⟨rfl, rfl⟩

/-- What comes in changes nothing: the world stays, and no event is dispatched. -/
theorem applyPacket_inert
    {kind : SyncPacketKind} {data : List UInt8} (inert : c.Inert registry kind data) :
    (c.applyPacket registry kind data).state.world = c.world ∧
      (c.applyPacket registry kind data).effects = [] := by
  obtain malformed | ⟨inMemory, packet, parsed, unmoved⟩ := inert
  · unfold applyPacket walkPacket
    rw [malformed, if_neg Bool.false_ne_true]
    exact ⟨rfl, rfl⟩
  · rw [applyPacket_of_accepted (validatePacket_of_parsed inMemory parsed)]
    cases kind with
    | spawn =>
        obtain ⟨_, _, record, _, _, rfl⟩ := parsePacket_spawn_eq_some.mp parsed
        change (c.applySpawn registry data).state.world = c.world ∧
          (c.applySpawn registry data).effects = []
        rw [applySpawn_unmoved inMemory parsed unmoved]
        exact ⟨rfl, rfl⟩
    | delta =>
        obtain ⟨_, _, _, _, entities, _, _, _, rfl⟩ :=
          parsePacket_delta_eq_some.mp parsed
        change (c.applyDelta registry data).state.world = c.world ∧
          (c.applyDelta registry data).effects = []
        rw [applyDelta_unmoved inMemory parsed unmoved]
        exact ⟨trackAlive_world entities c, rfl⟩
    | fullState =>
        obtain ⟨_, _, _, _, records, _, _, _, rfl⟩ :=
          parsePacket_fullState_eq_some.mp parsed
        exact applyFullState_unmoved inMemory parsed unmoved
    | despawn =>
        obtain ⟨id, buf, rfl, readId, _⟩ := despawn_reads inMemory parsed
        unfold walkKind walkDespawn
        rw [readId]
        dsimp only
        rw [destroyIfAlive_of_dead unmoved]
        exact ⟨rfl, rfl⟩

end Client

/-! ## A server among its peers -/

/-- A server, with what it has in `client_replicated_` itself. -/
structure Peer where
  server : Server
  replicated : List Entity := []

/-- A step of a server among its peers: one of its own, or a packet that comes in
with the current session. -/
inductive PeerOp
  | own (op : ServerOp)
  | receive (kind : SyncPacketKind) (data : List UInt8)

namespace PeerOp

/-- The step of the server itself, if it is one. -/
def own? : PeerOp → Option ServerOp
  | own op => some op
  | receive _ _ => none

/-- The world was cleared. -/
def clears : Effect → Bool
  | .dispatched .custom _ _ name _ => name = "world_cleared"
  | _ => false

/-- While a packet is applied the sending side only hears that the world was
cleared. -/
def onWhileApplying (r : Replication) (effects : List Effect) : Replication :=
  if effects.any clears then r.resetState else r

/-- Perform one operation; a world that is cleared forgets whom it replicates. -/
def apply (registry : ComponentRegistry) (p : Peer) :
    PeerOp → Peer × List Replication.SentPacket
  | own op =>
      let stepped := op.apply registry p.server
      let cleared := (op.onWorld registry p.server.world).effects.any clears
      (⟨stepped.1, if cleared then [] else p.replicated⟩, stepped.2)
  | receive kind data =>
      let applied := Client.applyPacket registry
        ⟨p.server.world, p.replicated⟩ kind data
      (⟨⟨applied.state.world,
          onWhileApplying p.server.replication applied.effects⟩,
        applied.state.replicated⟩, [])

/-- If the step is a packet, it is inert. -/
def Inert (registry : ComponentRegistry) (p : Peer) : PeerOp → Prop
  | own _ => True
  | receive kind data =>
      Client.Inert registry ⟨p.server.world, p.replicated⟩ kind data

end PeerOp

namespace Peer

/-- `bind_world` on a server. -/
def bindWorld (registry : ComponentRegistry) (w : World) : Peer where
  server := Server.bindWorld registry w

/-- A run, with the packets it sends. -/
def run (registry : ComponentRegistry) (p : Peer) :
    List PeerOp → Peer × List Replication.SentPacket
  | [] => (p, [])
  | op :: ops =>
      let stepped := op.apply registry p
      let later := run registry stepped.1 ops
      (later.1, stepped.2 ++ later.2)

/-- Every packet that comes in during a run is inert where it comes in. -/
def Inert (registry : ComponentRegistry) : Peer → List PeerOp → Prop
  | _, [] => True
  | p, op :: ops =>
      op.Inert registry p ∧ Inert registry (op.apply registry p).1 ops

/-- Inert packets change neither the server nor what it sends. -/
theorem run_authoritative
    (w : World) {ops : List PeerOp}
    (inert : (bindWorld registry w).Inert registry ops) :
    let disturbed := (bindWorld registry w).run registry ops
    let alone := (Server.bindWorld registry w).run registry
      (ops.filterMap PeerOp.own?)
    disturbed.1.server = alone.1 ∧ disturbed.2 = alone.2 := by
  have general : ∀ (ops : List PeerOp) (p : Peer), p.Inert registry ops →
      (p.run registry ops).1.server =
        (p.server.run registry (ops.filterMap PeerOp.own?)).1 ∧
      (p.run registry ops).2 =
        (p.server.run registry (ops.filterMap PeerOp.own?)).2 := by
    intro ops
    induction ops with
    | nil => exact fun _ _ => ⟨rfl, rfl⟩
    | cons op ops inductionHypothesis =>
        intro p inert
        obtain ⟨here, later⟩ := inert
        obtain ⟨sameServer, samePackets⟩ := inductionHypothesis _ later
        cases op with
        | own op =>
            refine ⟨sameServer, ?_⟩
            exact congrArg _ samePackets
        | receive kind data =>
            obtain ⟨sameWorld, noEffects⟩ := Client.applyPacket_inert here
            have unmoved : ((PeerOp.receive kind data).apply registry
                p).1.server = p.server := by
              dsimp only [PeerOp.apply]
              rw [sameWorld, noEffects]
              rfl
            rw [unmoved] at sameServer samePackets
            exact ⟨sameServer, (List.nil_append _).trans samePackets⟩
  exact general ops _ inert

/-- Junk, a delta with the value that is there, and the despawn of somebody
unknown. -/
theorem run_authoritative_health :
    let registry := ComponentRegistry.healthRegistry
    let ops : List PeerOp := [.own (.world .createEntity),
      .own (.world (.addRaw ⟨1⟩ 1 (some [7]))), .receive .spawn [1, 2, 3],
      .receive .delta [2, 0, 1, 0, 0, 0, 1, 0, 0, 0, 0, 0, 0, 0, 1, 1, 0, 0, 0,
        1, 0, 1, 7],
      .own (.tick [1, 0] 1), .receive .despawn [9, 0, 0, 0, 0, 0, 0, 0]]
    let disturbed := (bindWorld registry (World.empty registry)).run registry ops
    let alone := (Server.bindWorld registry (World.empty registry)).run registry
      (ops.filterMap PeerOp.own?)
    disturbed.1.server = alone.1 ∧ disturbed.2 = alone.2 := by
  refine run_authoritative _ ⟨trivial, trivial, Or.inl ?_, Or.inr ⟨?_,
    .delta [⟨1, [.buckets 1 [⟨0, [true], [7]⟩]]⟩], ?_, ?_⟩, trivial,
    Or.inr ⟨?_, .despawn 9, ?_, ?_⟩, trivial⟩
  · decide +kernel
  · decide
  · decide +kernel
  · intro entity member _ component inside
    rw [List.mem_singleton] at member
    subst member
    rw [List.mem_singleton] at inside
    subst inside
    exact ⟨_, [7], rfl, by decide +kernel, by decide +kernel⟩
  · decide
  · decide +kernel
  · exact show World.isAlive _ ⟨9⟩ = false by decide +kernel

/-- A despawn from anywhere removes an entity of the server. -/
theorem not_run_authoritative_despawn :
    let registry := ComponentRegistry.healthRegistry
    let ops : List PeerOp := [.own (.world .createEntity),
      .own (.world (.addRaw ⟨1⟩ 1 (some [7]))),
      .receive .despawn [1, 0, 0, 0, 0, 0, 0, 0], .own (.tick [1, 0] 1)]
    let disturbed := (bindWorld registry (World.empty registry)).run registry ops
    let alone := (Server.bindWorld registry (World.empty registry)).run registry
      (ops.filterMap PeerOp.own?)
    ¬disturbed.1.server.world = alone.1.world ∧ ¬disturbed.2 = alone.2 := by
  refine ⟨fun same => ?_, by decide +kernel⟩
  have alive := congrArg (·.isAlive ⟨1⟩) same
  revert alive
  decide +kernel

end Peer
end VortarisECS
