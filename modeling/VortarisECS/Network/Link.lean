import VortarisECS.Network.TickTransfer

/-!
# A server and its client

A server replicates to one client over the direct transport.  World operations,
ticks and requests for a full state come in any order, and hash tables may be
rearranged at any point.
-/

namespace VortarisECS

/-- A server, a client, and, as a history of the run, the component types that
each entity was described with to the client. -/
structure Link where
  server : World
  replication : Replication
  client : Client
  described : Entity → List ComponentTypeId := fun _ => []

/-- A step of the server. -/
inductive LinkOp
  | world (op : WorldOp)
  | tick (order : List Ptr) (delta : ℚ)
  | requestFullState (order : List Ptr)
  | setReconciliationInterval (seconds : ℚ)
  | rehash (order : List Entity) (typeOrder : Entity → List ComponentTypeId)

namespace Link

variable (registry : ComponentRegistry)

/-- `bind_world` on a server, with an empty client. -/
def start (server : World) : Link where
  server := server
  replication := ({} : Replication).seedFromWorld registry server
  client := ⟨World.empty registry, []⟩

/-- The client takes a spawn of the entity. -/
def Spawns (l : Link) (e : Entity) : Prop :=
  e ∈ l.replication.pendingSpawn ∧ l.server.isAlive e = true ∧
    l.client.CanSpawn e.id

instance (l : Link) (e : Entity) : Decidable (l.Spawns e) :=
  inferInstanceAs (Decidable (_ ∧ _))

/-- A spawn that the client takes describes an entity whole.  A delta adds the
components with a bucket due. -/
def describeSent (l : Link) (delta : ℚ) (e : Entity) : List ComponentTypeId :=
  if l.Spawns e then l.server.networkedOf registry e
  else
    l.described e ++ (l.server.networkedOf registry e).filter fun t =>
      !((syncPlanFor registry t).due (l.replication.ticksOf e t)
        (l.replication.elapsedTime + delta)).isEmpty

/-- A full state that arrives describes everybody whole. -/
def describeTick (l : Link) (order : List Ptr) (delta : ℚ) :
    Entity → List ComponentTypeId :=
  if l.replication.Reconciles delta ∧ l.server.FullStateArrives registry order then
    l.server.networkedOf registry
  else l.describeSent registry delta

/-- A tick of the server, whose packets the client receives at once. -/
def tick (l : Link) (order : List Ptr) (delta : ℚ) : Link :=
  let sent := l.replication.tick registry l.server order delta
  { server := l.server
    replication := sent.1
    client := l.client.receiveAll registry sent.2
    described := l.describeTick registry order delta }

/-- `request_full_state`. -/
def requestFullState (l : Link) (order : List Ptr) : Link :=
  { l with
    client := l.client.receiveAll registry (Replication.sendNonempty .fullState
      (l.server.serializeFullState registry order))
    described :=
      if l.server.FullStateArrives registry order then
        l.server.networkedOf registry
      else l.described }

/-- A step of the server's world, with its events. -/
def onServer (l : Link) (step : Traced Effect World) : Link :=
  { l with
    server := step.state
    replication := l.replication.onWorldEvents registry step.effects }

end Link

namespace LinkOp

/-- Perform one operation. -/
def apply (registry : ComponentRegistry) (l : Link) : LinkOp → Link
  | world op => l.onServer registry (op.apply registry l.server)
  | tick order delta => l.tick registry order delta
  | requestFullState order => l.requestFullState registry order
  | setReconciliationInterval seconds =>
      { l with replication :=
        { l.replication with reconciliationInterval := seconds } }
  | rehash order typeOrder =>
      { l with replication := l.replication.rehash order typeOrder }

/-- No creation hands out a live id, nothing is cleared, and what is sent can be
counted and fits into memory. -/
def Fits (registry : ComponentRegistry) (l : Link) : LinkOp → Prop
  | world op => op.ClearsNothing ∧
      Traced.Accepted Effect.IssuesDead (op.apply registry l.server)
  | tick order delta => l.replication.TickFits registry l.server order delta
  | requestFullState order => l.server.FullStateFits registry order
  | _ => True

end LinkOp

namespace Link

variable {registry : ComponentRegistry}

/-- Operations one after the other. -/
def run (registry : ComponentRegistry) (l : Link) (ops : List LinkOp) : Link :=
  ops.foldl (fun l op => op.apply registry l) l

/-- Every step of a run is allowed where it is taken. -/
def Allows (registry : ComponentRegistry) (allowed : Link → LinkOp → Prop) :
    Link → List LinkOp → Prop
  | _, [] => True
  | l, op :: ops => allowed l op ∧ Allows registry allowed (op.apply registry l) ops

/-- What every allowed step keeps is kept by a run of them. -/
theorem run_keeps
    (invariant : Link → Prop) {allowed : Link → LinkOp → Prop}
    (each : ∀ {l op}, invariant l → allowed l op →
      invariant (op.apply registry l))
    {l : Link} (holds : invariant l) {ops : List LinkOp}
    (allows : l.Allows registry allowed ops) :
    invariant (l.run registry ops) := by
  induction ops generalizing l with
  | nil => exact holds
  | cons op ops inductionHypothesis =>
      exact inductionHypothesis (each holds allows.1) allows.2

/-- A run that is allowed is allowed part by part. -/
theorem allows_append
    {allowed : Link → LinkOp → Prop} {l : Link} {ops later : List LinkOp} :
    l.Allows registry allowed (ops ++ later) ↔
      l.Allows registry allowed ops ∧
        (l.run registry ops).Allows registry allowed later := by
  induction ops generalizing l with
  | nil => exact (and_iff_right trivial).symm
  | cons op ops inductionHypothesis =>
      exact (and_congr_right fun _ => inductionHypothesis).trans and_assoc.symm

end Link

/-! ## In step -/

/-- The tracked entities are the replicated ones, and whoever has a pending spawn
or is alive on the client is replicated or has a pending despawn. -/
structure Replication.Covers (registry : ComponentRegistry) (w : World)
    (r : Replication) (c : Client) : Prop where
  tracks : r.Tracks registry w
  spawns : ∀ e ∈ r.pendingSpawn,
    w.Replicates registry e ∨ e ∈ r.pendingDespawn
  alive : ∀ e, c.world.isAlive e = true →
    w.Replicates registry e ∨ e ∈ r.pendingDespawn

variable {registry : ComponentRegistry}

/-- A change of the world leaves nobody out. -/
theorem Replication.Covers.reported
    {w w' : World} {r : Replication} {c : Client} {effects : List Effect}
    {e : Entity} (covers : r.Covers registry w c)
    (reported : World.Reported e w effects w') :
    (r.onWorldEvents registry effects).Covers registry w' c := by
  obtain ⟨tracks, notes⟩ := covers.tracks.reported reported
  have stays : ∀ x, w.Replicates registry x ∨ x ∈ r.pendingDespawn →
      w'.Replicates registry x ∨
        x ∈ (r.onWorldEvents registry effects).pendingDespawn := by
    intro x covered
    rw [notes.pendingDespawn]
    tauto
  refine ⟨tracks, fun x pending => ?_, fun x alive =>
    stays x (covers.alive x alive)⟩
  obtain old | new := (notes.pendingSpawn x).mp pending
  · exact stays x (covers.spawns x old)
  · exact Or.inl new.2

/-- A full state brings nobody to life that is not replicated. -/
theorem Client.Reconciled.alive
    {w : World} {c c' : Client} (reconciled : Client.Reconciled registry w c c')
    (covered : Prop) {e : Entity}
    (before : c.world.isAlive e = true → w.Replicates registry e ∨ covered)
    (alive : c'.world.isAlive e = true) :
    w.Replicates registry e ∨ covered := by
  rw [← World.contents_isSome, reconciled.contents] at alive
  split at alive
  · exact Or.inl ‹_›
  · split at alive
    · exact Bool.noConfusion alive
    · rw [World.contents_isSome] at alive
      exact before alive

namespace Link

/-- Both worlds are in order, and the replication covers all that is on its
way. -/
structure InStep (registry : ComponentRegistry) (l : Link) : Prop where
  stable : l.server.Stable registry
  idle : l.server.Idle
  rest : l.client.world.AtRest registry
  covers : l.replication.Covers registry l.server l.client

/-- A link starts in step. -/
theorem start_inStep
    {w : World} (stable : w.Stable registry) (idle : w.Idle) :
    (start registry w).InStep registry := by
  obtain ⟨tracked, spawns, others⟩ :=
    Replication.seedFromWorld_spec stable.consistent {}
  refine ⟨stable, idle, ⟨World.empty_stable registry, rfl⟩,
    ⟨⟨fun e => ?_, fun e => ?_⟩, fun e pending => ?_, fun e alive => ?_⟩⟩
  · exact (tracked e).trans (or_iff_right List.not_mem_nil)
  · change (Replication.dirtyOf (Replication.seedFromWorld registry {} w)
      e).Nodup
    rw [others]
    exact List.nodup_nil
  · exact Or.inl (((spawns e).mp pending).resolve_left List.not_mem_nil).2
  · rw [show (start registry w).client.world.isAlive e = false from
      Bool.and_false _] at alive
    exact Bool.noConfusion alive

/-- Steps of the server keep a link in step. -/
theorem onServer_inStep
    {l : Link} (inStep : l.InStep registry) {op : WorldOp}
    (clearsNothing : op.ClearsNothing)
    (issuesDead : Traced.Accepted Effect.IssuesDead
      (op.apply registry l.server)) :
    (l.onServer registry (op.apply registry l.server)).InStep registry where
  stable := (WorldOp.apply_realizes (World.stable_inductiveOn registry) op).keeps
    (World.stable_inductiveOn registry) l.server inStep.stable issuesDead
  idle := WorldOp.apply_idle inStep.idle op
  rest := inStep.rest
  covers := Replication.reports_keep
    (fun w r => r.Covers registry w l.client)
    (fun reported covers => covers.reported reported)
    (WorldOp.apply_reports inStep.stable inStep.idle clearsNothing issuesDead)
    inStep.covers

/-- Until the full state comes, a tick brings no entity to life that is not
covered, and puts the doomed ones to death. -/
theorem survivor_of_alive
    {l : Link} (inStep : l.InStep registry) {r : Replication}
    {spawned updated despawned : Client}
    (spawns : Client.Spawned registry l.server
      (l.replication.pendingSpawn.filter (l.server.isAlive ·)) l.client spawned)
    (updates : Client.Updated registry l.server r spawned updated)
    (despawns : Client.Despawned registry l.replication.pendingDespawn updated
      despawned)
    {e : Entity} (alive : despawned.world.isAlive e = true) :
    l.server.Replicates registry e ∧ e ∉ l.replication.pendingDespawn ∧
      spawned.world.isAlive e = true := by
  rw [← World.contents_isSome, despawns.contents] at alive
  split at alive
  · exact Bool.noConfusion alive
  rename_i survives
  rw [updates.contents, Option.isSome_map, World.contents_isSome] at alive
  refine ⟨?_, survives, alive⟩
  rw [← World.contents_isSome, spawns.contents] at alive
  split at alive
  · rename_i taken
    exact (inStep.covers.spawns e
      (List.mem_of_mem_filter taken.1)).resolve_right survives
  · rw [World.contents_isSome] at alive
    exact (inStep.covers.alive e alive).resolve_right survives

/-- So does a tick. -/
theorem tick_inStep
    {l : Link} (inStep : l.InStep registry) {order : List Ptr} {delta : ℚ}
    (fits : l.replication.TickFits registry l.server order delta) :
    (l.tick registry order delta).InStep registry := by
  have consistent := inStep.stable.consistent
  have sets := inStep.covers.tracks.sets
  obtain ⟨tracked, noSpawns, noDespawns, dirty⟩ :=
    Replication.tick_spec consistent sets fits
  obtain ⟨spawned, updated, despawned, spawns, updates, despawns, reconciled,
    unreconciled⟩ := Client.receiveTick_spec consistent sets fits inStep.rest
  have survivors : ∀ e, despawned.world.isAlive e = true →
      l.server.Replicates registry e := fun e alive =>
    (survivor_of_alive inStep spawns updates despawns alive).1
  have after : (l.tick registry order delta).client.world.AtRest registry ∧
      ∀ e, (l.tick registry order delta).client.world.isAlive e = true →
        l.server.Replicates registry e := by
    by_cases arrives : l.replication.Reconciles delta ∧
        l.server.FullStateArrives registry order
    · exact ⟨(reconciled arrives).rest,
        fun e alive => ((reconciled arrives).alive False
          (fun alive => Or.inl (survivors e alive)) alive).resolve_right id⟩
    · have same : (l.tick registry order delta).client = despawned :=
        unreconciled arrives
      rw [same]
      exact ⟨despawns.rest, survivors⟩
  obtain ⟨restAfter, aliveAfter⟩ := after
  refine ⟨inStep.stable, inStep.idle, restAfter, ⟨⟨fun e => ?_, fun e => ?_⟩,
    fun e pending => ?_, fun e alive => Or.inl (aliveAfter e alive)⟩⟩
  · change e ∈ (Replication.tick ..).1.tracked ↔ _
    rw [tracked]
    exact inStep.covers.tracks.tracked e
  · change (Replication.dirtyOf (Replication.tick ..).1 e).Nodup
    rw [dirty]
    split
    · exact (sets e).filter _
    · exact List.nodup_nil
  · change e ∈ (Replication.tick ..).1.pendingSpawn at pending
    rw [noSpawns] at pending
    exact absurd pending List.not_mem_nil

/-- So does a full state that is asked for. -/
theorem requestFullState_inStep
    {l : Link} (inStep : l.InStep registry) {order : List Ptr}
    (fits : l.server.FullStateFits registry order) :
    (l.requestFullState registry order).InStep registry := by
  have consistent := inStep.stable.consistent
  by_cases arrives : l.server.FullStateArrives registry order
  · have reconciled := Client.receiveFullState_reconciled consistent fits
      inStep.rest arrives
    exact ⟨inStep.stable, inStep.idle, reconciled.rest, inStep.covers.tracks,
      inStep.covers.spawns, fun e alive =>
        reconciled.alive _ (inStep.covers.alive e) alive⟩
  · have unchanged : (l.requestFullState registry order).client = l.client :=
      Client.receiveFullState_unchanged consistent fits inStep.rest arrives
    refine ⟨inStep.stable, inStep.idle, ?_, ?_⟩
    · rw [unchanged]
      exact inStep.rest
    · rw [unchanged]
      exact inStep.covers

/-- So does another hash order. -/
theorem rehash_inStep
    {l : Link} (inStep : l.InStep registry) (order : List Entity)
    (typeOrder : Entity → List ComponentTypeId) :
    InStep registry
      { l with replication := l.replication.rehash order typeOrder } := by
  obtain ⟨⟨tracked, sets⟩, spawns, alive⟩ := inStep.covers
  have despawns : ∀ e,
      e ∈ (l.replication.rehash order typeOrder).pendingDespawn ↔
        e ∈ l.replication.pendingDespawn := fun e =>
    (List.perm_insertionSort _ _).mem_iff
  refine ⟨inStep.stable, inStep.idle, inStep.rest, ⟨⟨tracked, fun e => ?_⟩,
    fun e pending => ?_, fun e isAlive => ?_⟩⟩
  · exact (Replication.rehash_dirtyOf_perm l.replication order typeOrder
      e).nodup_iff.mpr (sets e)
  · exact (spawns e ((List.perm_insertionSort _ _).mem_iff.mp
      pending)).imp_right (despawns e).mpr
  · exact (alive e isAlive).imp_right (despawns e).mpr

/-- Steps that fit keep both sides in step. -/
theorem apply_inStep
    {l : Link} {op : LinkOp} (inStep : l.InStep registry)
    (fits : op.Fits registry l) : (op.apply registry l).InStep registry := by
  cases op with
  | world op => exact onServer_inStep inStep fits.1 fits.2
  | tick order delta => exact tick_inStep inStep fits
  | requestFullState order => exact requestFullState_inStep inStep fits
  | setReconciliationInterval seconds =>
      obtain ⟨⟨tracked, sets⟩, spawns, alive⟩ := inStep.covers
      exact ⟨inStep.stable, inStep.idle, inStep.rest,
        ⟨⟨tracked, sets⟩, spawns, alive⟩⟩
  | rehash order typeOrder => exact rehash_inStep inStep order typeOrder

end Link
end VortarisECS
