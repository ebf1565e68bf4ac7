import VortarisECS.Network.Agreement

/-!
# Entity sets on both sides

Spawns, deltas and despawns are collected apart and sent in that order.  An
entity that left the replicated ones and came back before the tick has a spawn
and a despawn pending, and the despawn comes last.
-/

namespace VortarisECS
namespace Link

variable (registry : ComponentRegistry)

/-- Both sides have the same entities: those of the server that are alive with a
networked component. -/
def Agrees (l : Link) : Prop :=
  ∀ e, l.client.world.isAlive e = true ↔ l.server.Replicates registry e

/-- Nobody left the replicated entities and came back, and the client accepts all
ids. -/
def LosesNobody (l : Link) : Prop :=
  ∀ e, l.server.Replicates registry e →
    e ∉ l.replication.pendingDespawn ∧ e.slot < maxPreassignedSlot

/-- The tick sends a full state that the client takes. -/
def Restores (l : Link) (order : List Ptr) (delta : ℚ) : Prop :=
  l.replication.Reconciles delta ∧ l.server.FullStateArrives registry order

instance (l : Link) (order : List Ptr) (delta : ℚ) :
    Decidable (l.Restores registry order delta) :=
  inferInstanceAs (Decidable (_ ∧ _))

/-- The tick sends a full state that the client takes, or loses nobody. -/
def Settles (l : Link) (order : List Ptr) (delta : ℚ) : Prop :=
  l.Restores registry order delta ∨ l.LosesNobody registry

end Link

/-- A tick that loses somebody is repaired by the next full state only. -/
def LinkOp.Repairs (registry : ComponentRegistry) (l : Link) (settled : Prop) :
    LinkOp → Prop
  | tick order delta => l.Restores registry order delta ∨
      settled ∧ l.LosesNobody registry
  | requestFullState order => l.server.FullStateArrives registry order ∨ settled
  | _ => settled

namespace Link

/-- Every tick since the last full state, or since the start, lost nobody. -/
def SettledFrom (registry : ComponentRegistry) :
    Link → Prop → List LinkOp → Prop
  | _, settled, [] => settled
  | l, settled, op :: ops =>
      SettledFrom registry (op.apply registry l) (op.Repairs registry l settled)
        ops

/-- No tick of a run since its last full state, or its start, lost anybody. -/
def Settled (registry : ComponentRegistry) (l : Link) (ops : List LinkOp) :
    Prop :=
  l.SettledFrom registry True ops

variable {registry}

/-! ## What the client has -/

/-- The client's entities have ids that it accepts. -/
def Accepts (l : Link) : Prop :=
  ∀ e, l.client.world.isAlive e = true → e.slot < maxPreassignedSlot

/-- A replicated entity is alive on the client, or its spawn is pending. -/
def Reaches (registry : ComponentRegistry) (l : Link) : Prop :=
  ∀ e, l.server.Replicates registry e →
    l.client.world.isAlive e = true ∨ e ∈ l.replication.pendingSpawn

/-- A client without entities takes every id. -/
theorem start_accepts (w : World) : (start registry w).Accepts := by
  intro e alive
  rw [show (start registry w).client.world.isAlive e = false from
    Bool.and_false _] at alive
  exact Bool.noConfusion alive

/-- At the start every entity is known to the client. -/
theorem start_reaches {w : World} (stable : w.Stable registry) :
    (start registry w).Reaches registry := by
  obtain ⟨_, spawns, _⟩ := Replication.seedFromWorld_spec stable.consistent {}
  exact fun e replicates =>
    Or.inr ((spawns e).mpr (Or.inr ⟨List.not_mem_nil, replicates⟩))

/-- A full state brings every replicated entity. -/
theorem reconciled_isAlive
    {w : World} {c c' : Client} (reconciled : Client.Reconciled registry w c c')
    {e : Entity} (replicates : w.Replicates registry e) :
    c'.world.isAlive e = true := by
  rw [← World.contents_isSome, reconciled.contents, if_pos replicates]
  rfl

/-- Only tracked entities have to be looked at. -/
theorem losesNobody_iff {l : Link} (inStep : l.InStep registry) :
    l.LosesNobody registry ↔ ∀ e ∈ l.replication.tracked,
      e ∉ l.replication.pendingDespawn ∧ e.slot < maxPreassignedSlot :=
  forall_congr' fun e => imp_congr_left (inStep.covers.tracks.tracked e).symm

/-- A full state that arrives leaves the replicated entities. -/
theorem reconciled_alive_iff
    {w : World} {c c' : Client} (reconciled : Client.Reconciled registry w c c')
    (before : ∀ e, c.world.isAlive e = true → w.Replicates registry e)
    (e : Entity) :
    c'.world.isAlive e = true ↔ w.Replicates registry e := by
  constructor
  · exact fun alive => (reconciled.alive False
      (fun alive => Or.inl (before e alive)) alive).resolve_right id
  · exact reconciled_isAlive reconciled

section Tick

variable {l : Link} {order : List Ptr} {delta : ℚ}

/-- Without a full state, an entity is alive on the client after the tick if it
survives the despawns and was there before or came in by a spawn. -/
theorem unreconciled_alive_iff
    (inStep : l.InStep registry) {r : Replication}
    {spawned updated despawned : Client}
    (spawns : Client.Spawned registry l.server
      (l.replication.pendingSpawn.filter (l.server.isAlive ·)) l.client spawned)
    (updates : Client.Updated registry l.server r spawned updated)
    (despawns : Client.Despawned registry l.replication.pendingDespawn updated
      despawned)
    (e : Entity) :
    despawned.world.isAlive e = true ↔
      (l.server.Replicates registry e ∧ e ∉ l.replication.pendingDespawn) ∧
        (l.client.world.isAlive e = true ∨ l.Spawns e) := by
  constructor
  · intro alive
    obtain ⟨replicates, survives, spawnedAlive⟩ :=
      survivor_of_alive inStep spawns updates despawns alive
    refine ⟨⟨replicates, survives⟩, ?_⟩
    obtain ⟨taken, _⟩ | ⟨_, _, clientAlive⟩ := spawned_cases spawns spawnedAlive
    · exact Or.inr taken
    · exact Or.inl clientAlive
  · rintro ⟨⟨_, survives⟩, present⟩
    rw [← World.contents_isSome, despawns.contents, if_neg survives,
      updates.contents, Option.isSome_map, spawns.contents]
    by_cases taken : e ∈ l.replication.pendingSpawn.filter
        (l.server.isAlive ·) ∧ l.client.CanSpawn e.id
    · rw [if_pos taken]
      rfl
    · rw [if_neg taken, World.contents_isSome]
      refine present.resolve_right fun spawn => taken ⟨?_, spawn.2.2⟩
      exact List.mem_filter.mpr ⟨spawn.1, spawn.2.1⟩

/-- Who is on the client after a tick, from what is there and pending before
it. -/
theorem tick_alive_iff
    (inStep : l.InStep registry)
    (fits : l.replication.TickFits registry l.server order delta) (e : Entity) :
    (l.tick registry order delta).client.world.isAlive e = true ↔
      l.server.Replicates registry e ∧
        (l.Restores registry order delta ∨
          e ∉ l.replication.pendingDespawn ∧
            (l.client.world.isAlive e = true ∨ l.Spawns e)) := by
  obtain ⟨spawned, updated, despawned, spawns, updates, despawns, reconciled,
    unreconciled⟩ := Client.receiveTick_spec inStep.stable.consistent
      inStep.covers.tracks.sets fits inStep.rest
  by_cases restores : l.Restores registry order delta
  · rw [and_iff_left (Or.inl restores)]
    exact reconciled_alive_iff (reconciled restores) (fun _ alive =>
      (survivor_of_alive inStep spawns updates despawns alive).1) e
  · have client : (l.tick registry order delta).client = despawned :=
      unreconciled restores
    rw [client, or_iff_right restores, ← and_assoc]
    exact unreconciled_alive_iff inStep spawns updates despawns e

/-- The client takes a pending spawn of an entity whose id it accepts, unless it
has the entity. -/
theorem spawns_or_alive {e : Entity} (pending : e ∈ l.replication.pendingSpawn)
    (replicates : l.server.Replicates registry e)
    (near : e.slot < maxPreassignedSlot) :
    l.client.world.isAlive e = true ∨ l.Spawns e := by
  cases alive : l.client.world.isAlive e with
  | true => exact Or.inl rfl
  | false =>
      exact Or.inr ⟨pending, World.alive_of_replicates replicates,
        (idRefused_eq_false_iff e).mpr near, alive⟩

/-- After a tick the client takes the ids it took before. -/
theorem tick_accepts (inStep : l.InStep registry) (accepts : l.Accepts)
    (fits : l.replication.TickFits registry l.server order delta) :
    (l.tick registry order delta).Accepts := by
  intro e alive
  obtain ⟨replicates, restores | ⟨_, clientAlive | spawns⟩⟩ :=
    (tick_alive_iff inStep fits e).mp alive
  · exact ((World.fullStateArrives_iff inStep.stable.consistent
      fits.fullState.sorted.perm).mp restores.2).2 e replicates
  · exact accepts e clientAlive
  · exact (idRefused_eq_false_iff e).mp spawns.2.2.1

/-- The entity sets agree after a tick exactly if it settles. -/
theorem tick_agrees_iff (inStep : l.InStep registry) (accepts : l.Accepts)
    (reaches : l.Reaches registry)
    (fits : l.replication.TickFits registry l.server order delta) :
    (l.tick registry order delta).Agrees registry ↔
      l.Settles registry order delta := by
  constructor
  · intro agrees
    refine or_iff_not_imp_left.mpr fun unrestored e replicates => ?_
    have alive := (agrees e).mpr replicates
    obtain ⟨_, restores | ⟨survives, _⟩⟩ := (tick_alive_iff inStep fits e).mp alive
    · exact absurd restores unrestored
    · exact ⟨survives, tick_accepts inStep accepts fits e alive⟩
  · intro settles e
    rw [tick_alive_iff inStep fits e]
    refine and_iff_left_of_imp fun replicates => settles.imp_right fun loses => ?_
    obtain ⟨survives, near⟩ := loses e replicates
    exact ⟨survives, (reaches e replicates).elim Or.inl fun pending =>
      spawns_or_alive pending replicates near⟩

/-- A tick that settles reaches every entity. -/
theorem tick_reaches (inStep : l.InStep registry) (accepts : l.Accepts)
    (reaches : l.Restores registry order delta ∨
      l.Reaches registry ∧ l.LosesNobody registry)
    (fits : l.replication.TickFits registry l.server order delta) :
    (l.tick registry order delta).Reaches registry := by
  intro e replicates
  refine Or.inl ?_
  obtain restores | ⟨reaches, loses⟩ := reaches
  · exact (tick_alive_iff inStep fits e).mpr ⟨replicates, Or.inl restores⟩
  · exact ((tick_agrees_iff inStep accepts reaches fits).mpr (Or.inr loses)
      e).mpr replicates

end Tick

/-! ## Whole runs -/

/-- Steps of the server are heard of. -/
theorem onServer_reaches
    {l : Link} (inStep : l.InStep registry) (reaches : l.Reaches registry)
    {op : WorldOp} (clearsNothing : op.ClearsNothing)
    (issuesDead : Traced.Accepted Effect.IssuesDead
      (op.apply registry l.server)) :
    (l.onServer registry (op.apply registry l.server)).Reaches registry := by
  have kept := Replication.reports_keep
    (fun w r => r.Tracks registry w ∧ ∀ e, w.Replicates registry e →
      l.client.world.isAlive e = true ∨ e ∈ r.pendingSpawn)
    (fun {w w' effects changed r} reported both => by
      obtain ⟨tracks, notes⟩ := both.1.reported reported
      refine ⟨tracks, fun e replicates => ?_⟩
      rw [notes.pendingSpawn]
      by_cases before : w.Replicates registry e
      · exact (both.2 e before).imp_right Or.inl
      · exact Or.inr (Or.inr ⟨before, replicates⟩))
    (WorldOp.apply_reports inStep.stable inStep.idle clearsNothing issuesDead)
    ⟨inStep.covers.tracks, reaches⟩
  exact kept.2

/-- After every operation the client takes the ids it took before. -/
theorem apply_accepts
    {l : Link} {op : LinkOp} (inStep : l.InStep registry) (accepts : l.Accepts)
    (fits : op.Fits registry l) : (op.apply registry l).Accepts := by
  cases op with
  | world op => exact accepts
  | tick order delta => exact tick_accepts inStep accepts fits
  | requestFullState order =>
      by_cases arrives : l.server.FullStateArrives registry order
      · have consistent := inStep.stable.consistent
        have reconciled := Client.receiveFullState_reconciled consistent fits
          inStep.rest arrives
        intro e alive
        obtain replicates | before := reconciled.alive _ Or.inr alive
        · exact ((World.fullStateArrives_iff consistent
            fits.sorted.perm).mp arrives).2 e replicates
        · exact accepts e before
      · have unchanged : (l.requestFullState registry order).client = l.client :=
          Client.receiveFullState_unchanged inStep.stable.consistent fits
            inStep.rest arrives
        intro e alive
        rw [show ((LinkOp.requestFullState order).apply registry l).client =
          l.client from unchanged] at alive
        exact accepts e alive
  | setReconciliationInterval seconds => exact accepts
  | rehash order typeOrder => exact accepts

/-- A step of which all earlier ticks settled keeps every replicated entity in
reach. -/
theorem apply_reaches
    {l : Link} {op : LinkOp} {settled : Prop} (inStep : l.InStep registry)
    (accepts : l.Accepts) (reaches : settled → l.Reaches registry)
    (fits : op.Fits registry l) (repairs : op.Repairs registry l settled) :
    (op.apply registry l).Reaches registry := by
  cases op with
  | world op => exact onServer_reaches inStep (reaches repairs) fits.1 fits.2
  | tick order delta =>
      exact tick_reaches inStep accepts
        (repairs.imp_right fun both => ⟨reaches both.1, both.2⟩) fits
  | requestFullState order =>
      by_cases arrives : l.server.FullStateArrives registry order
      · exact fun e replicates => Or.inl (reconciled_isAlive
          (Client.receiveFullState_reconciled inStep.stable.consistent fits
            inStep.rest arrives) replicates)
      · have unchanged : (l.requestFullState registry order).client = l.client :=
          Client.receiveFullState_unchanged inStep.stable.consistent fits
            inStep.rest arrives
        intro e replicates
        rw [show ((LinkOp.requestFullState order).apply registry l).client =
          l.client from unchanged]
        exact reaches (repairs.resolve_left arrives) e replicates
  | setReconciliationInterval seconds => exact reaches repairs
  | rehash order typeOrder =>
      exact fun e replicates => (reaches repairs e replicates).imp_right
        (List.perm_insertionSort _ _).mem_iff.mpr

/-- A run that is repaired in time reaches every entity. -/
theorem run_reaches
    {l : Link} {settled : Prop} {ops : List LinkOp} (inStep : l.InStep registry)
    (accepts : l.Accepts) (reaches : settled → l.Reaches registry)
    (fits : l.Allows registry (fun l op => op.Fits registry l) ops)
    (repaired : l.SettledFrom registry settled ops) :
    (l.run registry ops).InStep registry ∧ (l.run registry ops).Accepts ∧
      (l.run registry ops).Reaches registry := by
  induction ops generalizing l settled with
  | nil => exact ⟨inStep, accepts, reaches repaired⟩
  | cons op ops inductionHypothesis =>
      exact inductionHypothesis (apply_inStep inStep fits.1)
        (apply_accepts inStep accepts fits.1)
        (apply_reaches inStep accepts reaches fits.1) fits.2 repaired

/-- In every run whose ticks since the last full state lost nobody, the entity
sets agree after the next tick exactly if that tick settles. -/
theorem run_entitySets
    {prelude : List WorldOp}
    (issuesDead : Traced.Accepted Effect.IssuesDead
      (WorldOp.run registry prelude))
    {ops : List LinkOp} {order : List Ptr} {delta : ℚ}
    (fits : (start registry (WorldOp.run registry prelude).state).Allows
      registry (fun l op => op.Fits registry l) (ops ++ [.tick order delta]))
    (settled : (start registry (WorldOp.run registry prelude).state).Settled
      registry ops) :
    let before := (start registry (WorldOp.run registry prelude).state).run
      registry ops
    (before.tick registry order delta).Agrees registry ↔
      before.Settles registry order delta := by
  intro before
  obtain ⟨fitsBefore, fitsTick, _⟩ := allows_append.mp fits
  have stable := WorldOp.run_stable issuesDead
  obtain ⟨inStep, accepts, reaches⟩ := run_reaches
    (start_inStep stable (WorldOp.run_idle registry prelude))
    (start_accepts _) (fun _ => start_reaches stable) fitsBefore settled
  exact tick_agrees_iff inStep accepts reaches fitsTick

/-- A component that is removed and added again between two ticks. -/
theorem run_entitySets_readded :
    let registry := ComponentRegistry.manaRegistry
    let before := (start registry (WorldOp.run registry
      [.createEntity, .addRaw ⟨1⟩ 1 (some [7])]).state).run registry
      [.tick [1, 0] 30, .world (.removeComponent ⟨1⟩ 1),
        .world (.addRaw ⟨1⟩ 1 (some [9]))]
    (before.tick registry [1, 0] 1).Agrees registry ↔
      before.Settles registry [1, 0] 1 := by
  have issuesDead : Traced.Accepted Effect.IssuesDead
      (WorldOp.run ComponentRegistry.manaRegistry
        [.createEntity, .addRaw ⟨1⟩ 1 (some [7])]) := by decide +kernel
  have stable := WorldOp.run_stable issuesDead
  have first : LinkOp.Fits ComponentRegistry.manaRegistry
      (start ComponentRegistry.manaRegistry
        (WorldOp.run ComponentRegistry.manaRegistry
          [.createEntity, .addRaw ⟨1⟩ 1 (some [7])]).state)
      (.tick [1, 0] 30) :=
    ⟨World.fullStateFits_of_few stable.consistent (by decide)
      ⟨by decide +kernel, by decide +kernel⟩ (by decide +kernel)
      (by decide +kernel), by decide +kernel, by decide +kernel,
      by decide +kernel, by decide +kernel⟩
  have second : LinkOp.Fits ComponentRegistry.manaRegistry
      ((start ComponentRegistry.manaRegistry
        (WorldOp.run ComponentRegistry.manaRegistry
          [.createEntity, .addRaw ⟨1⟩ 1 (some [7])]).state).tick
            ComponentRegistry.manaRegistry [1, 0] 30)
      (.world (.removeComponent ⟨1⟩ 1)) :=
    ⟨trivial, by decide +kernel⟩
  have third : LinkOp.Fits ComponentRegistry.manaRegistry
      ((LinkOp.world (.removeComponent ⟨1⟩ 1)).apply
        ComponentRegistry.manaRegistry
        ((start ComponentRegistry.manaRegistry
          (WorldOp.run ComponentRegistry.manaRegistry
            [.createEntity, .addRaw ⟨1⟩ 1 (some [7])]).state).tick
              ComponentRegistry.manaRegistry [1, 0] 30))
      (.world (.addRaw ⟨1⟩ 1 (some [9]))) :=
    ⟨trivial, by decide +kernel⟩
  have inStep := apply_inStep (apply_inStep (apply_inStep
    (start_inStep stable (WorldOp.run_idle _ _)) first) second) third
  exact run_entitySets issuesDead ⟨first, second, third,
    ⟨World.fullStateFits_of_few inStep.stable.consistent (by decide)
      ⟨by decide +kernel, by decide +kernel⟩ (by decide +kernel)
      (by decide +kernel), by decide +kernel, by decide +kernel,
      by decide +kernel, by decide +kernel⟩, trivial⟩
    (Or.inl (by decide +kernel))

/-- The entity is lost: its despawn comes after its spawn. -/
example :
    let registry := ComponentRegistry.manaRegistry
    let after := (start registry (WorldOp.run registry
      [.createEntity, .addRaw ⟨1⟩ 1 (some [7])]).state).run registry
      [.tick [1, 0] 30, .world (.removeComponent ⟨1⟩ 1),
        .world (.addRaw ⟨1⟩ 1 (some [9])), .tick [1, 0] 1]
    after.client.world.isAlive ⟨1⟩ = false ∧
      after.server.Replicates registry ⟨1⟩ := by
  decide +kernel

end Link
end VortarisECS
