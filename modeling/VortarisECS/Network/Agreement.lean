import VortarisECS.Network.Link

/-!
# Component sets on both sides

No packet removes a component, and components without a delta bucket travel in
spawns and full states only.  What the client has is exactly what its entities
were described with.
-/

namespace VortarisECS

variable {registry : ComponentRegistry}

/-! ## What a delta adds -/

/-- Records of a component that is registered neither add nor remove others. -/
theorem Components.receiveDelta_isSome
    {components : Components} {t : ComponentTypeId} {schema : ComponentSchema}
    (registered : registry.schemaOf t = some schema)
    (records : List BucketRecord) (u : ComponentTypeId) :
    (components.receiveDelta registry (.buckets t records) u).isSome ↔
      (components u).isSome ∨ u = t := by
  unfold receiveDelta
  dsimp only
  rw [registered]
  dsimp only [Components.put]
  split
  · rename_i same
    exact iff_of_true rfl (Or.inr same)
  · rename_i other
    exact (or_iff_left other).symm

namespace World

variable {w : World} {r : Replication} {e : Entity}

/-- A dirty component that a delta carries. -/
def Carries (registry : ComponentRegistry) (w : World) (r : Replication)
    (e : Entity) (t : ComponentTypeId) : Prop :=
  t ∈ r.dirtyOf e ∧ t ∈ w.networkedOf registry e ∧
    (syncPlanFor registry t).due (r.ticksOf e t) r.elapsedTime ≠ []

/-- A delta adds the components it carries. -/
theorem receive_saidAbout_isSome
    (consistent : w.store.Consistent registry) (held : Components)
    (u : ComponentTypeId) :
    ((w.saidAbout registry r e).foldl (Components.receiveDelta registry)
        held u).isSome ↔
      (held u).isSome ∨ w.Carries registry r e u := by
  have general : ∀ (types : List ComponentTypeId) (held : Components),
      ((w.deltaComponents registry r e types).foldl
          (Components.receiveDelta registry) held u).isSome ↔
        (held u).isSome ∨ u ∈ types ∧ u ∈ w.networkedOf registry e ∧
          (syncPlanFor registry u).due (r.ticksOf e u) r.elapsedTime ≠ [] := by
    intro types
    induction types with
    | nil =>
        intro held
        exact (or_iff_left fun both => absurd both.1 List.not_mem_nil).symm
    | cons t types inductionHypothesis =>
        intro held
        have here : (∃ component, w.deltaComponent registry r.elapsedTime e
            (r.ticksOf e t) t = some component) ↔
            t ∈ w.networkedOf registry e ∧
              (syncPlanFor registry t).due (r.ticksOf e t) r.elapsedTime ≠
                [] := by
          simp only [deltaComponent_eq_some, mem_networkedOf]
          constructor
          · rintro ⟨_, networked, has, _, _, _, _, due, _⟩
            exact ⟨⟨(has_iff_mem_types consistent).mp has, networked⟩, due⟩
          · rintro ⟨⟨member, networked⟩, due⟩
            obtain ⟨schema, inst, registered, found⟩ :=
              getRaw_of_mem_types consistent member
            exact ⟨_, networked, (has_iff_mem_types consistent).mpr member,
              schema, inst, registered, found, due, rfl⟩
        unfold deltaComponents
        rw [List.filterMap_cons]
        cases said : w.deltaComponent registry r.elapsedTime e
            (r.ticksOf e t) t with
        | none =>
            have unsaid := mt here.mpr fun ⟨_, saidSome⟩ => by
              rw [said] at saidSome
              exact absurd saidSome (by simp)
            refine (inductionHypothesis held).trans (or_congr_right
              (and_congr_left fun carried => ?_))
            rw [List.mem_cons]
            refine (or_iff_right ?_).symm
            rintro rfl
            exact unsaid carried
        | some component =>
            have carried := here.mp ⟨component, said⟩
            obtain ⟨_, _, schema, _, registered, _, _, rfl⟩ :=
              deltaComponent_eq_some.mp said
            rw [List.foldl_cons]
            refine (inductionHypothesis _).trans ?_
            rw [Components.receiveDelta_isSome registered, List.mem_cons,
              or_assoc]
            refine or_congr_right ⟨?_, ?_⟩
            · rintro (rfl | ⟨later, both⟩)
              · exact ⟨Or.inl rfl, carried⟩
              · exact ⟨Or.inr later, both⟩
            · rintro ⟨rfl | later, both⟩
              · exact Or.inl rfl
              · exact Or.inr ⟨later, both⟩
  unfold saidAbout
  split
  · exact general _ _
  · rename_i dead
    refine (or_iff_left fun carries => dead ?_).symm
    exact alive_of_replicates (List.ne_nil_of_mem carries.2.1)

end World
namespace Replication

variable {w : World} {r : Replication} {c : Client}

/-- A component that an entity on the client was not described with is dirty, if
deltas can carry it. -/
def Marks (registry : ComponentRegistry) (w : World) (r : Replication)
    (c : Client) (described : Entity → List ComponentTypeId) : Prop :=
  ∀ e, c.world.isAlive e = true → e ∉ r.pendingDespawn →
    ∀ t ∈ w.networkedOf registry e, t ∉ described e →
      (syncPlanFor registry t).anyDelta = true → t ∈ r.dirtyOf e

/-- What is reported of an entity marks it. -/
theorem Marks.reported
    {w' : World} {effects : List Effect} {e : Entity}
    {described : Entity → List ComponentTypeId}
    (covers : r.Covers registry w c) (marks : r.Marks registry w c described)
    (reported : World.Reported e w effects w') :
    (r.onWorldEvents registry effects).Marks registry w' c described := by
  obtain ⟨_, notes⟩ := covers.tracks.reported reported
  intro x alive survives t member undescribed carried
  have survived : x ∉ r.pendingDespawn := fun doomed =>
    survives ((notes.pendingDespawn x).mpr (Or.inl doomed))
  have replicates := (covers.alive x alive).resolve_right survived
  apply notes.dirty x replicates t member
  by_cases before : t ∈ w.networkedOf registry x
  · exact Or.inl (marks x alive survived t before undescribed carried)
  · exact Or.inr before

/-- A component that is due has fields in deltas. -/
theorem anyDelta_of_due
    {t : ComponentTypeId} {ticks : List ℚ} {elapsed : ℚ}
    (due : (syncPlanFor registry t).due ticks elapsed ≠ []) :
    (syncPlanFor registry t).anyDelta = true := by
  rw [FieldSyncPlan.anyDelta_eq, Bool.not_eq_true', Bool.eq_false_iff]
  intro empty
  apply due
  unfold FieldSyncPlan.due
  rw [List.isEmpty_iff.mp empty]
  rfl

/-- A component none of whose buckets is due stays dirty. -/
theorem staysDirty_of_not_due
    (consistent : w.store.Consistent registry) {e : Entity}
    {t : ComponentTypeId} (member : t ∈ w.networkedOf registry e)
    (carried : (syncPlanFor registry t).anyDelta = true) {ticks : List ℚ}
    {elapsed : ℚ} (late : (syncPlanFor registry t).due ticks elapsed = []) :
    w.staysDirty registry elapsed e ticks t = true := by
  obtain ⟨here, networked⟩ := World.mem_networkedOf.mp member
  have some : (syncPlanFor registry t).buckets ≠ [] := by
    rw [FieldSyncPlan.anyDelta_eq, Bool.not_eq_true', Bool.eq_false_iff]
      at carried
    exact mt List.isEmpty_iff.mpr carried
  unfold World.staysDirty
  rw [networked, (World.has_iff_mem_types consistent).mpr here, Bool.true_and,
    Bool.true_and, Bool.not_eq_true', Bool.eq_false_iff]
  intro allDue
  obtain ⟨bucket, inPlan⟩ := List.exists_mem_of_ne_nil _ some
  have isDue := List.mem_filter.mpr
    ⟨inPlan, List.all_eq_true.mp allDue bucket inPlan⟩
  rw [← FieldSyncPlan.due, late] at isDue
  exact absurd isDue List.not_mem_nil

end Replication

namespace Link

/-- Entities on the client have the components they were described with, and
components they were not described with are dirty. -/
structure Describes (registry : ComponentRegistry) (l : Link) : Prop where
  types : ∀ e, l.client.world.isAlive e = true →
    e ∉ l.replication.pendingDespawn →
    ∀ t, t ∈ l.client.world.getEntityComponentTypes e ↔ t ∈ l.described e
  marks : l.replication.Marks registry l.server l.client l.described

/-- At the start everything is described. -/
theorem start_describes (w : World) : (start registry w).Describes registry := by
  have dead : ∀ e, (start registry w).client.world.isAlive e = false :=
    fun _ => Bool.and_false _
  refine ⟨fun e alive => ?_, fun e alive => ?_⟩
  · rw [dead] at alive
    exact Bool.noConfusion alive
  · rw [dead] at alive
    exact Bool.noConfusion alive

/-- Steps of the server mark what they change. -/
theorem onServer_describes
    {l : Link} (inStep : l.InStep registry) (describes : l.Describes registry)
    {op : WorldOp} (clearsNothing : op.ClearsNothing)
    (issuesDead : Traced.Accepted Effect.IssuesDead
      (op.apply registry l.server)) :
    (l.onServer registry (op.apply registry l.server)).Describes registry := by
  have kept := Replication.reports_keep
    (fun w r => r.Covers registry w l.client ∧
      r.Marks registry w l.client l.described ∧
      ∀ e ∈ l.replication.pendingDespawn, e ∈ r.pendingDespawn)
    (fun reported both => ⟨both.1.reported reported,
      both.2.1.reported both.1 reported, fun e doomed =>
        ((both.1.tracks.reported reported).2.pendingDespawn e).mpr
          (Or.inl (both.2.2 e doomed))⟩)
    (WorldOp.apply_reports inStep.stable inStep.idle clearsNothing issuesDead)
    ⟨inStep.covers, describes.marks, fun _ doomed => doomed⟩
  exact ⟨fun e alive survives => describes.types e alive
    (mt (kept.2.2 e) survives), kept.2.1⟩

/-- Types of the components that a client's entity has. -/
theorem mem_types_iff_contents
    {w : World} (rest : w.AtRest registry) {e : Entity} {t : ComponentTypeId} :
    t ∈ w.getEntityComponentTypes e ↔
      ((w.contents e).bind (· t)).isSome :=
  (World.represents_contents rest.stable.consistent).mem_types e t

/-- An entity that came in whole has the networked components it has on the
server. -/
theorem spawnRecord_components_isSome
    {w : World} (consistent : w.store.Consistent registry) (e : Entity)
    (t : ComponentTypeId) :
    ((w.spawnRecord registry e).components registry t).isSome ↔
      t ∈ w.networkedOf registry e := by
  have types : (w.spawnRecord registry e).blocks.map ComponentBlock.type =
      w.networkedOf registry e := World.recordOf_types _ _
  have ascending := (World.represents_contents consistent).typesAscending e
  have once : ((w.spawnRecord registry e).blocks.map
      ComponentBlock.type).Nodup := by
    rw [types]
    exact (ascending.imp ne_of_lt).filter _
  rw [EntityRecord.components_isSome_iff once, types]
  intro block member
  have inTypes : block.type ∈ w.networkedOf registry e := by
    rw [← types]
    exact List.mem_map_of_mem member
  obtain ⟨schema, _, registered, _⟩ := World.getRaw_of_mem_types consistent
    (World.mem_networkedOf.mp inTypes).1
  rw [registered]
  rfl

/-- A full state that arrived describes everybody whole. -/
theorem reconciled_types
    {w : World} (consistent : w.store.Consistent registry) {c c' : Client}
    (reconciled : Client.Reconciled registry w c c') {e : Entity}
    (replicates : w.Replicates registry e) (t : ComponentTypeId) :
    t ∈ c'.world.getEntityComponentTypes e ↔ t ∈ w.networkedOf registry e := by
  rw [mem_types_iff_contents reconciled.rest, reconciled.contents,
    if_pos replicates, Option.bind_some,
    spawnRecord_components_isSome consistent]

/-- The delta adds the components it carries to what was there after the
spawns. -/
theorem despawned_types
    {w : World} (consistent : w.store.Consistent registry) {r : Replication}
    {entities : List Entity} {spawned updated despawned : Client}
    (updates : Client.Updated registry w r spawned updated)
    (despawns : Client.Despawned registry entities updated despawned)
    {e : Entity} (survives : e ∉ entities)
    (alive : spawned.world.isAlive e = true) (t : ComponentTypeId) :
    t ∈ despawned.world.getEntityComponentTypes e ↔
      ((spawned.world.contents e).bind (· t)).isSome ∨
        w.Carries registry r e t := by
  rw [mem_types_iff_contents despawns.rest, despawns.contents, if_neg survives,
    updates.contents]
  rw [← World.contents_isSome] at alive
  obtain ⟨held, found⟩ := Option.isSome_iff_exists.mp alive
  rw [found, Option.map_some, Option.bind_some, Option.bind_some]
  exact World.receive_saidAbout_isSome consistent held t

/-- Who is alive after the spawns came in by a spawn or was there before. -/
theorem spawned_cases
    {l : Link} {spawned : Client}
    (spawns : Client.Spawned registry l.server
      (l.replication.pendingSpawn.filter (l.server.isAlive ·)) l.client spawned)
    {e : Entity} (alive : spawned.world.isAlive e = true) :
    l.Spawns e ∧ spawned.world.contents e =
        some ((l.server.spawnRecord registry e).components registry) ∨
      ¬l.Spawns e ∧ spawned.world.contents e = l.client.world.contents e ∧
        l.client.world.isAlive e = true := by
  have member : e ∈ l.replication.pendingSpawn.filter (l.server.isAlive ·) ∧
      l.client.CanSpawn e.id ↔ l.Spawns e := by
    rw [List.mem_filter, and_assoc]
    rfl
  by_cases taken : l.Spawns e
  · refine Or.inl ⟨taken, ?_⟩
    rw [spawns.contents, if_pos (member.mpr taken)]
  · have kept : spawned.world.contents e = l.client.world.contents e := by
      rw [spawns.contents, if_neg (mt member.mp taken)]
    refine Or.inr ⟨taken, kept, ?_⟩
    rwa [← World.contents_isSome, kept, World.contents_isSome] at alive

section Unreconciled

variable {l : Link} {delta : ℚ} {spawned updated despawned : Client}
variable (inStep : l.InStep registry) (describes : l.Describes registry)
variable (spawns : Client.Spawned registry l.server
  (l.replication.pendingSpawn.filter (l.server.isAlive ·)) l.client spawned)
variable (updates : Client.Updated registry l.server
  (l.replication.beforeDelta delta) spawned updated)
variable (despawns : Client.Despawned registry l.replication.pendingDespawn
  updated despawned)
variable {e : Entity} (alive : despawned.world.isAlive e = true)
include inStep describes spawns updates despawns alive

/-- Without a full state, an entity has the components described in its spawn or
known before, and those a delta carries. -/
theorem unreconciled_types (t : ComponentTypeId) :
    t ∈ despawned.world.getEntityComponentTypes e ↔
      t ∈ l.describeSent registry delta e := by
  have consistent := inStep.stable.consistent
  obtain ⟨_, survives, spawnedAlive⟩ :=
    survivor_of_alive inStep spawns updates despawns alive
  rw [despawned_types consistent updates despawns survives spawnedAlive,
    describeSent]
  obtain ⟨taken, contentsEq⟩ | ⟨untaken, contentsEq, clientAlive⟩ :=
    spawned_cases spawns spawnedAlive
  · rw [if_pos taken, contentsEq, Option.bind_some,
      spawnRecord_components_isSome consistent]
    exact or_iff_left_of_imp fun carries => carries.2.1
  · rw [if_neg untaken, contentsEq, ← mem_types_iff_contents inStep.rest,
      describes.types e clientAlive survives, List.mem_append, List.mem_filter]
    constructor
    · rintro (described | carries)
      · exact Or.inl described
      · have due : (syncPlanFor registry t).due (l.replication.ticksOf e t)
            (l.replication.elapsedTime + delta) ≠ [] := carries.2.2
        exact Or.inr ⟨carries.2.1, by simpa using due⟩
    · rintro (described | ⟨member, isDue⟩)
      · exact Or.inl described
      · by_cases described : t ∈ l.described e
        · exact Or.inl described
        · have due : (syncPlanFor registry t).due (l.replication.ticksOf e t)
              (l.replication.elapsedTime + delta) ≠ [] := by simpa using isDue
          exact Or.inr ⟨describes.marks e clientAlive survives t member
            described (Replication.anyDelta_of_due due), member, due⟩

/-- Components that were not described stay dirty until a bucket is due. -/
theorem unreconciled_marks {t : ComponentTypeId}
    (member : t ∈ l.server.networkedOf registry e)
    (undescribed : t ∉ l.describeSent registry delta e)
    (carried : (syncPlanFor registry t).anyDelta = true) :
    t ∈ (l.replication.dirtyOf e).filter fun t =>
      l.server.staysDirty registry (l.replication.elapsedTime + delta) e
        (l.replication.ticksOf e t) t := by
  obtain ⟨_, survives, spawnedAlive⟩ :=
    survivor_of_alive inStep spawns updates despawns alive
  unfold describeSent at undescribed
  obtain ⟨taken, _⟩ | ⟨untaken, _, clientAlive⟩ :=
    spawned_cases spawns spawnedAlive
  · rw [if_pos taken] at undescribed
    exact absurd member undescribed
  · rw [if_neg untaken, List.mem_append, not_or] at undescribed
    have late : (syncPlanFor registry t).due (l.replication.ticksOf e t)
        (l.replication.elapsedTime + delta) = [] := by
      by_contra due
      exact undescribed.2 (List.mem_filter.mpr ⟨member, by simpa using due⟩)
    exact List.mem_filter.mpr
      ⟨describes.marks e clientAlive survives t member undescribed.1 carried,
        Replication.staysDirty_of_not_due inStep.stable.consistent member
          carried late⟩

end Unreconciled

/-- A tick describes what was marked. -/
theorem tick_describes
    {l : Link} (inStep : l.InStep registry) (describes : l.Describes registry)
    {order : List Ptr} {delta : ℚ}
    (fits : l.replication.TickFits registry l.server order delta) :
    (l.tick registry order delta).Describes registry := by
  have consistent := inStep.stable.consistent
  have sets := inStep.covers.tracks.sets
  obtain ⟨_, _, noDespawns, dirty⟩ :=
    Replication.tick_spec consistent sets fits
  obtain ⟨spawned, updated, despawned, spawns, updates, despawns, reconciled,
    unreconciled⟩ := Client.receiveTick_spec consistent sets fits inStep.rest
  have replicates : ∀ e,
      (l.tick registry order delta).client.world.isAlive e = true →
      l.server.Replicates registry e := by
    intro e alive
    refine ((tick_inStep inStep fits).covers.alive e
      alive).resolve_right fun doomed => ?_
    change e ∈ (Replication.tick ..).1.pendingDespawn at doomed
    rw [noDespawns] at doomed
    exact absurd doomed List.not_mem_nil
  by_cases arrives : l.replication.Reconciles delta ∧
      l.server.FullStateArrives registry order
  · have describedEq : (l.tick registry order delta).described =
        l.server.networkedOf registry := if_pos arrives
    refine ⟨fun e alive _ t => ?_, fun e _ _ t member undescribed => ?_⟩
    · rw [describedEq]
      exact reconciled_types consistent (reconciled arrives)
        (replicates e alive) t
    · rw [describedEq] at undescribed
      exact absurd member undescribed
  · have client : (l.tick registry order delta).client = despawned :=
      unreconciled arrives
    have describedEq : (l.tick registry order delta).described =
        l.describeSent registry delta := if_neg arrives
    refine ⟨fun e alive _ t => ?_,
      fun e alive _ t member undescribed carried => ?_⟩
    · rw [client] at alive ⊢
      rw [describedEq]
      exact unreconciled_types inStep describes spawns updates despawns alive t
    · have serverAlive := World.alive_of_replicates (replicates e alive)
      rw [client] at alive
      rw [describedEq] at undescribed
      change t ∈ (Replication.tick ..).1.dirtyOf e
      rw [dirty, if_pos serverAlive]
      exact unreconciled_marks inStep describes spawns updates despawns alive
        member undescribed carried

/-- A full state describes all. -/
theorem requestFullState_describes
    {l : Link} (inStep : l.InStep registry) (describes : l.Describes registry)
    {order : List Ptr} (fits : l.server.FullStateFits registry order) :
    (l.requestFullState registry order).Describes registry := by
  have consistent := inStep.stable.consistent
  by_cases arrives : l.server.FullStateArrives registry order
  · have reconciled := Client.receiveFullState_reconciled consistent fits
      inStep.rest arrives
    have describedEq : (l.requestFullState registry order).described =
        l.server.networkedOf registry := if_pos arrives
    refine ⟨fun e alive survives t => ?_, fun e _ _ t member undescribed => ?_⟩
    · rw [describedEq]
      exact reconciled_types consistent reconciled
        ((reconciled.alive _ (inStep.covers.alive e) alive).resolve_right
          survives) t
    · rw [describedEq] at undescribed
      exact absurd member undescribed
  · have unchanged : (l.requestFullState registry order).client = l.client :=
      Client.receiveFullState_unchanged consistent fits inStep.rest arrives
    have describedEq : (l.requestFullState registry order).described =
        l.described := if_neg arrives
    constructor
    · rw [unchanged, describedEq]
      exact describes.types
    · rw [unchanged, describedEq]
      exact describes.marks

/-- Another hash order describes the same. -/
theorem rehash_describes
    {l : Link} (describes : l.Describes registry) (order : List Entity)
    (typeOrder : Entity → List ComponentTypeId) :
    Describes registry
      { l with replication := l.replication.rehash order typeOrder } := by
  have despawns : ∀ e,
      e ∈ (l.replication.rehash order typeOrder).pendingDespawn ↔
        e ∈ l.replication.pendingDespawn := fun e =>
    (List.perm_insertionSort _ _).mem_iff
  refine ⟨fun e alive survives => describes.types e alive
    (mt (despawns e).mpr survives), fun e alive survives t member undescribed
      carried => ?_⟩
  exact (Replication.rehash_dirtyOf_perm l.replication order typeOrder
    e).mem_iff.mpr (describes.marks e alive (mt (despawns e).mpr survives) t
      member undescribed carried)

/-- Every operation leaves the rest described. -/
theorem apply_describes
    {l : Link} {op : LinkOp} (inStep : l.InStep registry)
    (describes : l.Describes registry) (fits : op.Fits registry l) :
    (op.apply registry l).Describes registry := by
  cases op with
  | world op => exact onServer_describes inStep describes fits.1 fits.2
  | tick order delta => exact tick_describes inStep describes fits
  | requestFullState order =>
      exact requestFullState_describes inStep describes fits
  | setReconciliationInterval seconds =>
      exact ⟨describes.types, describes.marks⟩
  | rehash order typeOrder => exact rehash_describes describes order typeOrder

/-- In every run, what is not marked is described. -/
theorem run_describes
    {w : World} (stable : w.Stable registry) (idle : w.Idle)
    {ops : List LinkOp}
    (fits : (start registry w).Allows registry (fun l op => op.Fits registry l)
      ops) :
    ((start registry w).run registry ops).InStep registry ∧
      ((start registry w).run registry ops).Describes registry :=
  run_keeps
    (fun l => l.InStep registry ∧ l.Describes registry)
    (fun both fits => ⟨apply_inStep both.1 fits,
      apply_describes both.1 both.2 fits⟩)
    ⟨start_inStep stable idle, start_describes w⟩ fits

/-- A networked component that was not described had no bucket due. -/
theorem late_of_not_described
    {l : Link} {order : List Ptr} {delta : ℚ} {e : Entity} {t : ComponentTypeId}
    (member : t ∈ l.server.networkedOf registry e)
    (undescribed : t ∉ l.describeTick registry order delta e) :
    (syncPlanFor registry t).due (l.replication.ticksOf e t)
      (l.replication.elapsedTime + delta) = [] := by
  unfold describeTick at undescribed
  split at undescribed
  · exact absurd member undescribed
  · unfold describeSent at undescribed
    split at undescribed
    · exact absurd member undescribed
    · by_contra due
      exact undescribed (List.mem_append_right _
        (List.mem_filter.mpr ⟨member, by simpa using due⟩))

/-- After every tick of a run, an entity that is alive on both sides has on the
client exactly the components it was described with.  A networked component the
client lacks had no bucket due in this tick. -/
theorem run_componentSets
    {prelude : List WorldOp}
    (issuesDead : Traced.Accepted Effect.IssuesDead
      (WorldOp.run registry prelude))
    {ops : List LinkOp} {order : List Ptr} {delta : ℚ}
    (fits : (start registry (WorldOp.run registry prelude).state).Allows
      registry (fun l op => op.Fits registry l) (ops ++ [.tick order delta])) :
    let before := (start registry (WorldOp.run registry prelude).state).run
      registry ops
    let after := before.tick registry order delta
    ∀ e, after.server.isAlive e = true → after.client.world.isAlive e = true →
      (∀ t, t ∈ after.client.world.getEntityComponentTypes e ↔
        t ∈ after.described e) ∧
      ∀ t ∈ after.server.networkedOf registry e,
        t ∉ after.client.world.getEntityComponentTypes e →
        (syncPlanFor registry t).due (before.replication.ticksOf e t)
          (before.replication.elapsedTime + delta) = [] := by
  intro before after e _ alive
  obtain ⟨fitsBefore, fitsTick, _⟩ := allows_append.mp fits
  obtain ⟨inStep, describes⟩ := run_describes (WorldOp.run_stable issuesDead)
    (WorldOp.run_idle registry prelude) fitsBefore
  obtain ⟨_, _, noDespawns, _⟩ := Replication.tick_spec
    inStep.stable.consistent inStep.covers.tracks.sets fitsTick
  have survives : e ∉ after.replication.pendingDespawn := by
    change e ∉ (Replication.tick ..).1.pendingDespawn
    rw [noDespawns]
    exact List.not_mem_nil
  have types := (tick_describes inStep describes fitsTick).types e alive survives
  refine ⟨types, fun t member missing => ?_⟩
  exact late_of_not_described member (mt (types t).mpr missing)

end Link

namespace Link

/-- An entity that gained a component between two ticks. -/
theorem run_componentSets_mana :
    let registry := ComponentRegistry.manaRegistry
    let before := (start registry (WorldOp.run registry
      [.createEntity, .addRaw ⟨1⟩ 1 (some [7])]).state).run registry
      [.tick [1, 0] 1, .world (.addRaw ⟨1⟩ 2 (some [9]))]
    let after := before.tick registry [1, 2, 0] 1
    ∀ e, after.server.isAlive e = true → after.client.world.isAlive e = true →
      (∀ t, t ∈ after.client.world.getEntityComponentTypes e ↔
        t ∈ after.described e) ∧
      ∀ t ∈ after.server.networkedOf registry e,
        t ∉ after.client.world.getEntityComponentTypes e →
        (syncPlanFor registry t).due (before.replication.ticksOf e t)
          (before.replication.elapsedTime + 1) = [] := by
  have issuesDead : Traced.Accepted Effect.IssuesDead
      (WorldOp.run ComponentRegistry.manaRegistry
        [.createEntity, .addRaw ⟨1⟩ 1 (some [7])]) := by decide +kernel
  have stable := WorldOp.run_stable issuesDead
  have first : LinkOp.Fits ComponentRegistry.manaRegistry
      (start ComponentRegistry.manaRegistry
        (WorldOp.run ComponentRegistry.manaRegistry
          [.createEntity, .addRaw ⟨1⟩ 1 (some [7])]).state)
      (.tick [1, 0] 1) :=
    ⟨World.fullStateFits_of_few stable.consistent (by decide)
      ⟨by decide +kernel, by decide +kernel⟩ (by decide +kernel)
      (by decide +kernel), by decide +kernel, by decide +kernel,
      by decide +kernel, by decide +kernel⟩
  have second : LinkOp.Fits ComponentRegistry.manaRegistry
      ((start ComponentRegistry.manaRegistry
        (WorldOp.run ComponentRegistry.manaRegistry
          [.createEntity, .addRaw ⟨1⟩ 1 (some [7])]).state).tick
            ComponentRegistry.manaRegistry [1, 0] 1)
      (.world (.addRaw ⟨1⟩ 2 (some [9]))) :=
    ⟨trivial, by decide +kernel⟩
  have inStep := apply_inStep (apply_inStep
    (start_inStep stable (WorldOp.run_idle _ _)) first) second
  exact run_componentSets issuesDead ⟨first, second,
    ⟨World.fullStateFits_of_few inStep.stable.consistent (by decide)
      ⟨by decide +kernel, by decide +kernel⟩ (by decide +kernel)
      (by decide +kernel), by decide +kernel, by decide +kernel,
      by decide +kernel, by decide +kernel⟩, trivial⟩

/-- No packet removes a component: the client keeps one that the server's entity
lost. -/
theorem componentSets_differ_mana :
    let registry := ComponentRegistry.manaRegistry
    let after := (start registry (World.empty registry)).run registry
      [.world .createEntity, .world (.addRaw ⟨1⟩ 1 none),
        .world (.addRaw ⟨1⟩ 2 none), .tick [1, 2, 0] 1,
        .world (.removeComponent ⟨1⟩ 2), .tick [1, 2, 0] 1]
    after.server.isAlive ⟨1⟩ = true ∧ after.client.world.isAlive ⟨1⟩ = true ∧
      after.server.networkedOf registry ⟨1⟩ = [1] ∧
      after.client.world.getEntityComponentTypes ⟨1⟩ = [1, 2] := by
  decide +kernel

end Link
end VortarisECS
