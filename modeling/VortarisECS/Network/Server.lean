import VortarisECS.Network.Session
import VortarisECS.Network.Tracking

/-!
# The server on its own

A server binds a world, listens to its events and ticks.  Whatever the run, the
entities that it keeps dirty components or send times for are tracked, and in
step with the world it tracks exactly the entities that replicate.
-/

namespace VortarisECS

/-- A world with the sending side bound to it. -/
structure Server where
  world : World
  replication : Replication

/-- A write through a reference into a component, which no event tells of. -/
def World.poke (w : World) (e : Entity) (t : ComponentTypeId) (offset : Nat)
    (bytes : List UInt8) : World :=
  match w.getRaw e t with
  | none => w
  | some inst => w.writeRaw e t (overlay inst offset bytes)

/-- A step of a server. -/
inductive ServerOp
  | world (op : WorldOp)
  | poke (e : Entity) (t : ComponentTypeId) (offset : Nat) (bytes : List UInt8)
  | deserializeSnapshot (data : List UInt8)
  | tick (order : List Ptr) (delta : ℚ)
  | requestFullState (order : List Ptr)
  | setReconciliationInterval (seconds : ℚ)
  | rehash (order : List Entity) (typeOrder : Entity → List ComponentTypeId)

/-- `bind_world` on a server. -/
def Server.bindWorld (registry : ComponentRegistry) (w : World) : Server where
  world := w
  replication := ({} : Replication).seedFromWorld registry w

namespace ServerOp

/-- What a step does to the world. -/
def onWorld (registry : ComponentRegistry) (w : World) :
    ServerOp → Traced Effect World
  | world op => op.apply registry w
  | poke e t offset bytes => .pure (w.poke e t offset bytes)
  | deserializeSnapshot data => (deserializeWorldSnapshot registry w ⟨data, 0⟩).1
  | _ => .pure w

/-- What a step does to the sending side after the events of the world, with the
packets it sends. -/
def onReplication (registry : ComponentRegistry) (w : World) (r : Replication) :
    ServerOp → Replication × List Replication.SentPacket
  | tick order delta => r.tick registry w order delta
  | requestFullState order =>
      (r, Replication.sendNonempty .fullState
        (w.serializeFullState registry order))
  | setReconciliationInterval seconds =>
      ({ r with reconciliationInterval := seconds }, [])
  | rehash order typeOrder => (r.rehash order typeOrder, [])
  | _ => (r, [])

/-- A step, with the packets it sends. -/
def apply (registry : ComponentRegistry) (s : Server) (op : ServerOp) :
    Server × List Replication.SentPacket :=
  let stepped := op.onWorld registry s.world
  let sent := op.onReplication registry stepped.state
    (s.replication.onWorldEvents registry stepped.effects)
  (⟨stepped.state, sent.1⟩, sent.2)

end ServerOp

namespace Server

/-- A run, with the packets it sends. -/
def run (registry : ComponentRegistry) (s : Server) :
    List ServerOp → Server × List Replication.SentPacket
  | [] => (s, [])
  | op :: ops =>
      let stepped := op.apply registry s
      let later := run registry stepped.1 ops
      (later.1, stepped.2 ++ later.2)

/-- Every step of a run is allowed where it is taken. -/
def Allows (registry : ComponentRegistry) (allowed : Server → ServerOp → Prop) :
    Server → List ServerOp → Prop
  | _, [] => True
  | s, op :: ops =>
      allowed s op ∧ Allows registry allowed (op.apply registry s).1 ops

instance instDecidableAllows (registry : ComponentRegistry)
    (allowed : Server → ServerOp → Prop)
    [∀ s op, Decidable (allowed s op)] :
    (s : Server) → (ops : List ServerOp) →
      Decidable (s.Allows registry allowed ops)
  | _, [] => inferInstanceAs (Decidable True)
  | s, op :: ops =>
      have := instDecidableAllows registry allowed (op.apply registry s).1 ops
      inferInstanceAs (Decidable (allowed s op ∧
        Allows registry allowed (op.apply registry s).1 ops))

/-- What every allowed step keeps is kept by a run of them. -/
theorem run_keeps
    {registry : ComponentRegistry} (invariant : Server → Prop)
    {allowed : Server → ServerOp → Prop}
    (each : ∀ {s op}, invariant s → allowed s op →
      invariant (op.apply registry s).1)
    {s : Server} (holds : invariant s) {ops : List ServerOp}
    (allows : s.Allows registry allowed ops) :
    invariant (s.run registry ops).1 := by
  induction ops generalizing s with
  | nil => exact holds
  | cons op ops inductionHypothesis =>
      exact inductionHypothesis (each holds allows.1) allows.2

end Server

variable {registry : ComponentRegistry}

/-! ## What is remembered of an entity -/

namespace Replication

/-- Dirty components and send times are kept for tracked entities only. -/
structure KeysTracked (r : Replication) : Prop where
  dirty : ∀ e ∈ r.dirty.keys, e ∈ r.tracked
  nextSendTick : ∀ e ∈ r.nextSendTick.keys, e ∈ r.tracked

variable {r : Replication} {e : Entity} {t : ComponentTypeId}

/-- A mark of a tracked entity keeps the keys tracked. -/
theorem KeysTracked.markDirty (keys : r.KeysTracked) (tracked : e ∈ r.tracked) :
    (r.markDirty e t).KeysTracked := by
  refine ⟨fun x member => ?_, keys.nextSendTick⟩
  unfold Replication.markDirty at member
  dsimp only at member
  rw [← AList.mem_keys, AList.mem_insert] at member
  obtain rfl | old := member
  · exact tracked
  · exact keys.dirty x (AList.mem_keys.mp old)

theorem KeysTracked.track (keys : r.KeysTracked) (e : Entity) :
    (r.track e).KeysTracked :=
  ⟨fun x member => List.mem_insert_of_mem (keys.dirty x member),
    fun x member => List.mem_insert_of_mem (keys.nextSendTick x member)⟩

theorem KeysTracked.clearDirty (keys : r.KeysTracked) (e : Entity)
    (t : ComponentTypeId) : (r.clearDirty e t).KeysTracked := by
  unfold Replication.clearDirty
  cases found : r.dirty.lookup e with
  | none => exact keys
  | some types =>
      refine ⟨fun x member => ?_, keys.nextSendTick⟩
      dsimp only at member
      rw [← AList.mem_keys, AList.mem_insert] at member
      obtain rfl | old := member
      · exact keys.dirty x (AList.mem_keys.mp
          (AList.lookup_isSome.mp (by rw [found]; rfl)))
      · exact keys.dirty x (AList.mem_keys.mp old)

/-- An entity that is forgotten leaves no key behind. -/
theorem KeysTracked.untrack (keys : r.KeysTracked) (e : Entity) :
    (r.untrack e).KeysTracked := by
  have kept : ∀ x, x ≠ e → x ∈ r.tracked → x ∈ (r.untrack e).tracked :=
    fun x other tracked => List.mem_filter.mpr ⟨tracked, decide_eq_true other⟩
  constructor
  · intro x member
    unfold Replication.untrack at member
    dsimp only at member
    rw [← AList.mem_keys, AList.mem_erase] at member
    exact kept x member.1 (keys.dirty x (AList.mem_keys.mp member.2))
  · intro x member
    unfold Replication.untrack at member
    dsimp only at member
    rw [← AList.mem_keys, AList.mem_erase] at member
    exact kept x member.1 (keys.nextSendTick x (AList.mem_keys.mp member.2))

/-- No event leaves anything behind of an entity that is not tracked. -/
theorem onWorldEvent_keysTracked (keys : r.KeysTracked) (effect : Effect) :
    (r.onWorldEvent registry effect).KeysTracked := by
  cases effect with
  | dispatched type e t name seen =>
      cases type with
      | added =>
          dsimp only [onWorldEvent, onEntityComponentAdded]
          split
          · exact keys
          · split
            · exact keys.markDirty ‹_›
            · exact keys.track e
      | changed =>
          dsimp only [onWorldEvent, onEntityComponentChanged]
          split
          · exact keys
          · split
            · exact keys.markDirty ‹_›
            · exact keys
      | removed =>
          dsimp only [onWorldEvent, onEntityComponentRemoved]
          split
          · exact keys
          · split
            · split
              · exact keys.clearDirty e t
              · exact (keys.clearDirty e t).untrack e
            · exact keys.clearDirty e t
      | custom =>
          dsimp only [onWorldEvent]
          split
          · exact ⟨fun _ member => absurd member List.not_mem_nil,
              fun _ member => absurd member List.not_mem_nil⟩
          · exact keys
  | _ => exact keys

/-- Events keep the keys tracked. -/
theorem onWorldEvents_keysTracked
    (keys : r.KeysTracked) (effects : List Effect) :
    (r.onWorldEvents registry effects).KeysTracked := by
  induction effects generalizing r with
  | nil => exact keys
  | cons effect effects inductionHypothesis =>
      exact inductionHypothesis (onWorldEvent_keysTracked keys effect)

/-! ## Ticks -/

variable (registry) in
/-- One dirty entity gets dirty components and send times at most for itself. -/
theorem sendEntity_keys
    (w : World) (elapsed : ℚ) (sends : DeltaSends)
    (entry : Σ _ : Entity, List ComponentTypeId) (x : Entity) :
    let sent := sendEntity registry w elapsed sends entry
    (x ∈ sent.dirty → x = entry.1 ∨ x ∈ sends.dirty) ∧
    (x ∈ sent.nextSendTick → x = entry.1 ∨ x ∈ sends.nextSendTick) := by
  unfold sendEntity
  dsimp only
  split
  · exact ⟨fun member => Or.inr (AList.mem_erase.mp member).2, Or.inr⟩
  · generalize entry.2.foldl (sendComponent registry w elapsed entry.1)
      { ticks := (sends.nextSendTick.lookup entry.1).getD ∅ } = sent
    have times : x ∈ (if sent.ticks.keys.isEmpty then sends.nextSendTick
        else sends.nextSendTick.insert entry.1 sent.ticks) →
        x = entry.1 ∨ x ∈ sends.nextSendTick := by
      split
      · exact Or.inr
      · exact fun member => (AList.mem_insert _).mp member
    constructor
    · split
      · rw [AList.mem_erase]
        split
        · exact fun member => Or.inr member.2
        · exact fun member => Or.inr member.2
      · rw [AList.mem_insert]
        split
        · exact id
        · exact id
    · by_cases counted : sent.ncomp > 0
      · rw [if_pos counted]
        exact times
      · rw [if_neg counted]
        exact times

variable (registry) in
/-- Sending adds no keys of other entities. -/
theorem sendEntities_keys
    (w : World) (elapsed : ℚ) (tracked : Entity → Prop)
    {entries : List (Σ _ : Entity, List ComponentTypeId)}
    (entriesTracked : ∀ entry ∈ entries, tracked entry.1) (sends : DeltaSends)
    (dirty : ∀ x ∈ sends.dirty, tracked x)
    (nextSendTick : ∀ x ∈ sends.nextSendTick, tracked x) :
    let sent := entries.foldl (sendEntity registry w elapsed) sends
    (∀ x ∈ sent.dirty, tracked x) ∧ ∀ x ∈ sent.nextSendTick, tracked x := by
  induction entries generalizing sends with
  | nil => exact ⟨dirty, nextSendTick⟩
  | cons entry entries inductionHypothesis =>
      have here := entriesTracked entry List.mem_cons_self
      have keys := sendEntity_keys registry w elapsed sends entry
      refine inductionHypothesis
        (fun later member => entriesTracked later (List.mem_cons_of_mem _ member))
        _ (fun x member => ?_) fun x member => ?_
      · obtain rfl | old := (keys x).1 member
        · exact here
        · exact dirty x old
      · obtain rfl | old := (keys x).2 member
        · exact here
        · exact nextSendTick x old

/-- A delta keeps dirty components a set. -/
theorem buildDelta_dirtySets (w : World) (sets : r.DirtySets) :
    (r.buildDelta registry w).1.DirtySets := by
  intro e
  rw [(buildDelta_written registry w sets).2]
  split
  · exact (sets e).filter _
  · exact List.nodup_nil

/-- A delta keeps the keys tracked. -/
theorem buildDelta_keysTracked (keys : r.KeysTracked) (w : World) :
    (r.buildDelta registry w).1.KeysTracked := by
  have entriesTracked : ∀ entry ∈ r.dirty.entries, entry.1 ∈ r.tracked :=
    fun entry member => keys.dirty _ (List.mem_map_of_mem member)
  have sent := sendEntities_keys registry w r.elapsedTime (· ∈ r.tracked)
    entriesTracked {
      dirty := r.dirty
      nextSendTick := r.nextSendTick
      buf := (({} : BinaryBuffer).writeU16 syncVersion).writeU32 0 }
    (fun x member => keys.dirty x (AList.mem_keys.mp member))
    fun x member => keys.nextSendTick x (AList.mem_keys.mp member)
  exact ⟨fun x member => sent.1 x (AList.mem_keys.mpr member),
    fun x member => sent.2 x (AList.mem_keys.mpr member)⟩

@[simp] theorem sendDelta_tracked (r : Replication) (w : World) :
    (r.sendDelta registry w).1.tracked = r.tracked := by
  unfold sendDelta
  split
  · rfl
  · rfl

variable (registry) in
theorem sendDelta_keysTracked (keys : r.KeysTracked) (w : World) :
    (r.sendDelta registry w).1.KeysTracked := by
  unfold sendDelta
  split
  · exact keys
  · exact buildDelta_keysTracked keys w

variable (registry) in
theorem sendDelta_dirtySets (w : World) (sets : r.DirtySets) :
    (r.sendDelta registry w).1.DirtySets := by
  unfold sendDelta
  split
  · exact sets
  · exact buildDelta_dirtySets w sets

/-- Despawns keep the keys tracked. -/
theorem sendDespawns_keysTracked (keys : r.KeysTracked) :
    r.sendDespawns.1.KeysTracked := by
  refine ⟨keys.dirty, fun x member => keys.nextSendTick x ?_⟩
  unfold sendDespawns at member
  dsimp only at member
  rw [← AList.mem_keys] at member ⊢
  have kept : ∀ (gone : List Entity)
      (ticks : AList fun _ : Entity => AList fun _ : ComponentTypeId => List ℚ),
      x ∈ gone.foldl (fun ticks e => ticks.erase e) ticks → x ∈ ticks := by
    intro gone
    induction gone with
    | nil => exact fun _ member => member
    | cons e gone inductionHypothesis =>
        exact fun ticks member =>
          (AList.mem_erase.mp (inductionHypothesis _ member)).2
  exact kept _ _ member

@[simp] theorem tick_tracked
    (r : Replication) (w : World) (order : List Ptr) (delta : ℚ) :
    (r.tick registry w order delta).1.tracked = r.tracked := by
  have reconciled : ∀ r : Replication,
      (r.reconcile registry w order delta).1.tracked = r.tracked := by
    intro r
    unfold reconcile
    dsimp only
    split
    · rfl
    · rfl
  exact (reconciled _).trans (sendDelta_tracked _ w)

/-- A tick leaves nothing behind of an entity that is not tracked. -/
theorem tick_keysTracked
    (keys : r.KeysTracked) (w : World) (order : List Ptr) (delta : ℚ) :
    (r.tick registry w order delta).1.KeysTracked := by
  have timed : Replication.KeysTracked
      { r with elapsedTime := r.elapsedTime + delta, pendingSpawn := [] } :=
    ⟨keys.dirty, keys.nextSendTick⟩
  have despawned := sendDespawns_keysTracked
    (sendDelta_keysTracked registry timed w)
  unfold tick reconcile
  dsimp only
  split
  · exact ⟨despawned.dirty, despawned.nextSendTick⟩
  · exact ⟨despawned.dirty, despawned.nextSendTick⟩

/-- A tick keeps dirty components a set. -/
theorem tick_dirtySets
    (sets : r.DirtySets) (w : World) (order : List Ptr) (delta : ℚ) :
    (r.tick registry w order delta).1.DirtySets := by
  have sent := sendDelta_dirtySets registry
    (r := { r with elapsedTime := r.elapsedTime + delta, pendingSpawn := [] })
    w sets
  unfold tick reconcile
  dsimp only
  split
  · exact sent
  · exact sent

/-- Another hash order keeps the keys tracked. -/
theorem rehash_keysTracked
    (keys : r.KeysTracked) (order : List Entity)
    (typeOrder : Entity → List ComponentTypeId) :
    (r.rehash order typeOrder).KeysTracked := by
  refine ⟨fun x member => keys.dirty x ?_, keys.nextSendTick⟩
  rw [← AList.mem_keys, ← AList.lookup_isSome] at member ⊢
  unfold rehash at member
  dsimp only at member
  rw [AList.lookup_mapValues, AList.lookup_rearrange, Option.isSome_map]
    at member
  exact member

end Replication

/-! ## In step with the world -/

/-- A write through the pointer `get_raw` returns changes no component set. -/
theorem World.writeRaw_types
    (w : World) (e : Entity) (t : ComponentTypeId) (bytes : List UInt8)
    (x : Entity) : (w.writeRaw e t bytes).getEntityComponentTypes x =
      w.getEntityComponentTypes x := by
  unfold writeRaw
  split
  · rfl
  · split
    · unfold getEntityComponentTypes
      rw [modifyColumn_typesOf, World.isAlive_congr
        (modifyColumn_entityLocations w _ _ _)]
    · rfl

variable (registry) in
/-- Bytes written behind the world's back are a step of it. -/
theorem World.poke_builds
    (w : World) (e : Entity) (t : ComponentTypeId) (offset : Nat)
    (bytes : List UInt8) : Builds registry w [] (w.poke e t offset bytes) := by
  unfold poke
  cases found : w.getRaw e t with
  | none => exact .refl w
  | some inst => exact .write found (length_overlay inst offset bytes)

namespace Replication

variable {w w' : World} {r : Replication} {effects : List Effect}

/-- A cleared world replicates nobody, and the sending side starts over. -/
theorem clear_tracks (stable : w.Stable registry) (idle : w.Idle) :
    (r.onWorldEvents registry w.clear.effects).Tracks registry
      w.clear.state := by
  have reset : r.onWorldEvents registry w.clear.effects = r.resetState := by
    unfold World.clear
    rw [idle.outside]
    rfl
  rw [reset]
  refine ⟨fun e => iff_of_false List.not_mem_nil fun replicates => ?_,
    fun _ => List.nodup_nil⟩
  have alive := World.alive_of_replicates replicates
  rw [← World.contents_isSome,
    World.clear_contents stable idle.outside] at alive
  exact Bool.noConfusion alive

/-- Operations keep the sending side in step. -/
theorem Tracks.worldOp
    (tracks : r.Tracks registry w) (stable : w.Stable registry) (idle : w.Idle)
    {op : WorldOp}
    (issuesDead : Traced.Accepted Effect.IssuesDead (op.apply registry w)) :
    (r.onWorldEvents registry (op.apply registry w).effects).Tracks registry
      (op.apply registry w).state := by
  have reported : op.ClearsNothing →
      (r.onWorldEvents registry (op.apply registry w).effects).Tracks registry
        (op.apply registry w).state := fun clearsNothing =>
    reports_keep (fun w r => r.Tracks registry w)
      (fun reported tracks => (tracks.reported reported).1)
      (WorldOp.apply_reports stable idle clearsNothing issuesDead) tracks
  cases op with
  | clear => exact clear_tracks stable idle
  | _ => exact reported trivial

/-- So do loads, whatever their bytes and wherever they stop. -/
theorem Tracks.builds
    (tracks : r.Tracks registry w) (stable : w.Stable registry) (idle : w.Idle)
    (builds : Builds registry w effects w') :
    (r.onWorldEvents registry effects).Tracks registry w' := by
  have step : ∀ {w w' effects} {r : Replication}, World.Reports w effects w' →
      r.Tracks registry w →
      (r.onWorldEvents registry effects).Tracks registry w' :=
    fun reports tracks => reports_keep (fun w r => r.Tracks registry w)
      (fun reported tracks => (tracks.reported reported).1) reports tracks
  induction builds generalizing r with
  | refl w => exact tracks
  | create w id =>
      exact step (World.createEntityPreassigned_reports stable id) tracks
  | destroy w e =>
      exact step (World.destroyEntity_reports stable.consistent e) tracks
  | add w e t =>
      exact step (World.addRaw_reports stable idle.immediate idle.outside e t
        none) tracks
  | write found sized =>
      exact step (World.Reports.quiet (World.writeRaw_types _ _ _ _)
        fun _ member => absurd member List.not_mem_nil) tracks
  | clear w => exact clear_tracks stable idle
  | trans before after firstIH secondIH =>
      have stableAfter := (before.steps (World.stable_inductiveOn registry)
        stable before.issuesDead).keeps (World.stable_inductiveOn registry)
        stable before.issuesDead
      rw [onWorldEvents_append]
      exact secondIH (firstIH tracks stable idle) stableAfter
        (before.idle idle)

end Replication

namespace Server

/-- A tick leaves the world alone. -/
theorem apply_tick (s : Server) (order : List Ptr) (delta : ℚ) :
    (ServerOp.tick order delta).apply registry s =
      (⟨s.world, (s.replication.tick registry s.world order delta).1⟩,
        (s.replication.tick registry s.world order delta).2) := rfl

/-- The world is in order, and the sending side knows its entities and no
others. -/
structure Kept (registry : ComponentRegistry) (s : Server) : Prop where
  stable : s.world.Stable registry
  idle : s.world.Idle
  tracks : s.replication.Tracks registry s.world
  keys : s.replication.KeysTracked

/-- No creation of the step hands out a live id. -/
def IssuesDead (registry : ComponentRegistry) (s : Server) (op : ServerOp) :
    Prop :=
  Traced.Accepted Effect.IssuesDead (op.onWorld registry s.world)

instance (s : Server) (op : ServerOp) : Decidable (s.IssuesDead registry op) :=
  inferInstanceAs (Decidable (Traced.Accepted _ _))

/-- A server that binds an idle world keeps what it should. -/
theorem bindWorld_kept
    {w : World} (stable : w.Stable registry) (idle : w.Idle) :
    (bindWorld registry w).Kept registry := by
  obtain ⟨tracked, _, others⟩ :=
    Replication.seedFromWorld_spec stable.consistent {}
  refine ⟨stable, idle, ⟨fun e => ?_, fun e => ?_⟩, ⟨fun e member => ?_,
    fun e member => ?_⟩⟩
  · exact (tracked e).trans (or_iff_right List.not_mem_nil)
  · unfold bindWorld
    rw [others]
    exact List.nodup_nil
  · unfold bindWorld at member
    rw [others] at member
    exact absurd member List.not_mem_nil
  · unfold bindWorld at member
    rw [others] at member
    exact absurd member List.not_mem_nil

/-- So does every operation that hands out no live id. -/
theorem apply_kept
    {s : Server} {op : ServerOp} (kept : s.Kept registry)
    (issuesDead : s.IssuesDead registry op) :
    (op.apply registry s).1.Kept registry := by
  obtain ⟨stable, idle, tracks, keys⟩ := kept
  cases op with
  | world op =>
      exact ⟨(WorldOp.apply_realizes (World.stable_inductiveOn registry)
          op).keeps (World.stable_inductiveOn registry) _ stable issuesDead,
        WorldOp.apply_idle idle op, tracks.worldOp stable idle issuesDead,
        Replication.onWorldEvents_keysTracked keys _⟩
  | poke e t offset bytes =>
      have builds := World.poke_builds registry s.world e t offset bytes
      exact ⟨(builds.steps (World.stable_inductiveOn registry) stable
          builds.issuesDead).keeps (World.stable_inductiveOn registry) stable
          builds.issuesDead,
        builds.idle idle, tracks.builds stable idle builds, keys⟩
  | deserializeSnapshot data =>
      have builds : Builds registry s.world _ _ :=
        World.deserializeWorldSnapshot_builds s.world data
      exact ⟨(builds.steps (World.stable_inductiveOn registry) stable
          builds.issuesDead).keeps (World.stable_inductiveOn registry) stable
          builds.issuesDead,
        builds.idle idle, tracks.builds stable idle builds,
        Replication.onWorldEvents_keysTracked keys _⟩
  | tick order delta =>
      refine ⟨stable, idle, ⟨fun e => ?_, ?_⟩, ?_⟩
      · change e ∈ (Replication.tick ..).1.tracked ↔ _
        rw [Replication.tick_tracked]
        exact tracks.tracked e
      · exact Replication.tick_dirtySets tracks.sets s.world order delta
      · exact Replication.tick_keysTracked keys s.world order delta
  | requestFullState order => exact ⟨stable, idle, tracks, keys⟩
  | setReconciliationInterval seconds =>
      exact ⟨stable, idle, ⟨tracks.tracked, tracks.sets⟩,
        ⟨keys.dirty, keys.nextSendTick⟩⟩
  | rehash order typeOrder =>
      exact ⟨stable, idle, ⟨tracks.tracked, fun e =>
          (Replication.rehash_dirtyOf_perm s.replication order typeOrder
            e).nodup_iff.mpr (tracks.sets e)⟩,
        Replication.rehash_keysTracked keys order typeOrder⟩

/-- In every run in which no creation hands out a live id, exactly the live
entities with a networked component are tracked, and nothing is kept of
others. -/
theorem run_bookkeeping
    (prelude : List SessionOp) (ops : List ServerOp)
    (preludeDead : Traced.Accepted Effect.IssuesDead
      (SessionOp.run registry prelude))
    (issuesDead : (bindWorld registry (SessionOp.run registry prelude).state).Allows
      registry (IssuesDead registry) ops) :
    let s := ((bindWorld registry (SessionOp.run registry prelude).state).run
      registry ops).1
    (∀ e, e ∈ s.replication.tracked ↔ s.world.isAlive e = true ∧
      ∃ t ∈ s.world.getEntityComponentTypes e, isNetworked registry t = true) ∧
    (∀ e ∈ s.replication.dirty.keys, e ∈ s.replication.tracked) ∧
    ∀ e ∈ s.replication.nextSendTick.keys, e ∈ s.replication.tracked := by
  have kept := run_keeps (Kept registry) apply_kept
    (bindWorld_kept (SessionOp.run_stable preludeDead)
      (SessionOp.run_idle registry prelude)) issuesDead
  refine ⟨fun e => ?_, kept.keys.dirty, kept.keys.nextSendTick⟩
  rw [kept.tracks.tracked, Replication.replicates_iff_any, List.any_eq_true]
  refine (and_iff_right_of_imp ?_).symm
  rintro ⟨t, member, networked⟩
  exact World.alive_of_replicates (List.ne_nil_of_mem
    (World.mem_networkedOf.mpr ⟨member, networked⟩))

/-- An entity that was there before the binding, changed, removed and cleared
away while the server ticks. -/
theorem run_bookkeeping_health :
    let registry := ComponentRegistry.healthRegistry
    let s := ((bindWorld registry (SessionOp.run registry
      [.world .createEntity]).state).run registry
        [.world (.addRaw ⟨1⟩ 1 (some [7])), .tick [1, 0] 1,
          .world (.markChanged ⟨1⟩ 1 "hp"), .tick [1, 0] 1,
          .world (.destroyEntityPooled ⟨1⟩), .world .clear]).1
    (∀ e, e ∈ s.replication.tracked ↔ s.world.isAlive e = true ∧
      ∃ t ∈ s.world.getEntityComponentTypes e, isNetworked registry t = true) ∧
    (∀ e ∈ s.replication.dirty.keys, e ∈ s.replication.tracked) ∧
    ∀ e ∈ s.replication.nextSendTick.keys, e ∈ s.replication.tracked := by
  exact run_bookkeeping _ _ (by decide +kernel) (by decide +kernel)

/-- A creation after a load hands out the id of the loaded entity, which loses
its components without an event. -/
theorem not_run_bookkeeping_loaded :
    let registry := ComponentRegistry.healthRegistry
    let s := ((bindWorld registry (World.empty registry)).run registry
      [.world .createEntity, .deserializeSnapshot
          [1, 0, 1, 0, 0, 0, 1, 0, 0, 0, 0, 0, 0, 0, 1, 0, 1, 0, 0, 0, 9],
        .world .createEntity]).1
    ¬∀ e, e ∈ s.replication.tracked ↔ s.world.isAlive e = true ∧
      ∃ t ∈ s.world.getEntityComponentTypes e,
        isNetworked registry t = true := by
  intro registry s tracks
  have tracked : (⟨1⟩ : Entity) ∈ s.replication.tracked := by decide +kernel
  have none : s.world.getEntityComponentTypes ⟨1⟩ = [] := by decide +kernel
  obtain ⟨t, member, _⟩ := ((tracks ⟨1⟩).mp tracked).2
  rw [none] at member
  exact List.not_mem_nil member

end Server
end VortarisECS
