import VortarisECS.Core.EventCopies
import VortarisECS.Network.LoadTransfer
import VortarisECS.Network.Retransmission

/-!
# No field update is lost

A component that the server does not hold for dirty has on the client the values
it has on the server, in all fields that deltas carry.  Buckets are sent on
clocks of their own; a component stays dirty until all of them go out at once.
-/

namespace VortarisECS

variable {registry : ComponentRegistry}

/-! ## Events of a component that is not dirty in the end -/

/-- The effect is no event without a component. -/
def Effect.NotCustom : Effect → Prop
  | .dispatched .custom .. => False
  | _ => True

/-- What is reported is no custom event. -/
theorem World.Reports.notCustom
    {w w' : World} {effects : List Effect} (reports : World.Reports w effects w') :
    ∀ effect ∈ effects, effect.NotCustom := by
  induction reports with
  | refl => exact fun _ member => absurd member List.not_mem_nil
  | tail _ reported inductionHypothesis =>
      intro effect member
      obtain early | late := List.mem_append.mp member
      · exact inductionHypothesis effect early
      · have about := reported.about effect late
        cases effect with
        | dispatched type x u name seen =>
            cases type with
            | custom => exact about.elim
            | _ => trivial
        | _ => trivial

namespace Replication

variable {r : Replication} {e x : Entity} {t u : ComponentTypeId}
variable {effect : Effect} {effects : List Effect}

/-- Clearing removes one mark. -/
theorem mem_dirtyOf_clearDirty :
    t ∈ (r.clearDirty x u).dirtyOf e ↔ t ∈ r.dirtyOf e ∧ ¬(x = e ∧ u = t) := by
  rw [dirtyOf_clearDirty]
  by_cases same : e = x
  · subst same
    rw [if_pos rfl, List.mem_filter, decide_eq_true_iff, and_iff_right rfl]
    exact and_congr_right fun _ => not_congr eq_comm
  · rw [if_neg same]
    exact (and_iff_left fun both => same both.1.symm).symm

/-- Marking adds one mark. -/
theorem mem_dirtyOf_markDirty :
    t ∈ (r.markDirty x u).dirtyOf e ↔ t ∈ r.dirtyOf e ∨ x = e ∧ u = t := by
  rw [dirtyOf_markDirty]
  by_cases same : e = x
  · subst same
    rw [if_pos rfl, List.mem_insert_iff, and_iff_right rfl, or_comm]
    exact or_congr_right eq_comm
  · rw [if_neg same]
    exact (or_iff_left fun both => same both.1.symm).symm

/-- What the sending side does at an event of a component. -/
inductive Hears (registry : ComponentRegistry) (r : Replication) :
    Effect → Replication → Prop
  | nothing {effect : Effect}
      (unnamed : ∀ e ∈ r.tracked, ∀ t, isNetworked registry t = true →
        ¬World.Names e t effect) : Hears registry r effect r
  | marks {type : ObserverEventType} {x : Entity} {u : ComponentTypeId}
      {name : String} {seen : World} (kind : type ≠ .removed) :
      Hears registry r (.dispatched type x u name seen) (r.markDirty x u)
  | tracks {x : Entity} {u : ComponentTypeId} {name : String} {seen : World}
      (untracked : x ∉ r.tracked) :
      Hears registry r (.dispatched .added x u name seen) (r.track x)
  | clears {x : Entity} {u : ComponentTypeId} {name : String} {seen : World} :
      Hears registry r (.dispatched .removed x u name seen) (r.clearDirty x u)
  | untracks {x : Entity} {u : ComponentTypeId} {name : String} {seen : World} :
      Hears registry r (.dispatched .removed x u name seen)
        ((r.clearDirty x u).untrack x)

/-- An event is heard. -/
theorem onWorldEvent_hears (notCustom : effect.NotCustom) :
    Hears registry r effect (r.onWorldEvent registry effect) := by
  cases effect with
  | dispatched type x u name seen =>
      have unheard (local' : ¬isNetworked registry u = true) :
          Hears registry r (.dispatched type x u name seen) r := by
        refine .nothing fun e _ t networked names => ?_
        cases type with
        | custom => exact names.elim
        | _ => exact local' (names.2 ▸ networked)
      cases type with
      | added =>
          dsimp only [onWorldEvent, onEntityComponentAdded]
          split
          · exact unheard (by simp_all)
          · split
            · exact .marks (by decide)
            · exact .tracks ‹_›
      | changed =>
          dsimp only [onWorldEvent, onEntityComponentChanged]
          split
          · exact unheard (by simp_all)
          · split
            · exact .marks (by decide)
            · rename_i untracked
              exact .nothing fun e isTracked _ _ names =>
                untracked (names.1 ▸ isTracked)
      | removed =>
          dsimp only [onWorldEvent, onEntityComponentRemoved]
          split
          · exact unheard (by simp_all)
          · split
            · split
              · exact .clears
              · exact .untracks
            · exact .clears
      | custom => exact notCustom.elim
  | _ => exact .nothing fun _ _ _ _ names => names.elim

/-- No event takes a despawn back. -/
theorem Hears.survives {r' : Replication} (hears : Hears registry r effect r')
    (survives : e ∉ r'.pendingDespawn) : e ∉ r.pendingDespawn := by
  cases hears with
  | nothing => exact survives
  | marks => exact survives
  | tracks => exact survives
  | clears => rwa [clearDirty_pendingDespawn] at survives
  | untracks =>
      have before := (not_or.mp (mt List.mem_insert_iff.mpr survives)).2
      rwa [clearDirty_pendingDespawn] at before

/-- An entity for which no despawn is pending in the end stays tracked. -/
theorem Hears.tracked {r' : Replication} (hears : Hears registry r effect r')
    (isTracked : e ∈ r.tracked) (survives : e ∉ r'.pendingDespawn) :
    e ∈ r'.tracked := by
  cases hears with
  | nothing => exact isTracked
  | marks => exact isTracked
  | tracks => exact List.mem_insert_of_mem isTracked
  | clears => rwa [clearDirty_tracked]
  | untracks =>
      have other := (not_or.mp (mt List.mem_insert_iff.mpr survives)).1
      refine List.mem_filter.mpr ⟨?_, decide_eq_true other⟩
      rwa [clearDirty_tracked]

/-- A component of a tracked entity that is not dirty after an event was removed
by it, or was not dirty before and is not named by it. -/
theorem Hears.clean {r' : Replication} (hears : Hears registry r effect r')
    (isTracked : e ∈ r.tracked) (survives : e ∉ r'.pendingDespawn)
    (networked : isNetworked registry t = true) (clean : t ∉ r'.dirtyOf e) :
    effect.notice = some (.holds (e, t) none) ∨
      t ∉ r.dirtyOf e ∧ ¬World.Names e t effect := by
  cases hears with
  | nothing unnamed => exact Or.inr ⟨clean, unnamed e isTracked t networked⟩
  | @marks type x u name seen kind =>
      obtain ⟨before, differs⟩ := not_or.mp (mt mem_dirtyOf_markDirty.mpr clean)
      refine Or.inr ⟨before, fun names => ?_⟩
      cases type with
      | custom => exact names.elim
      | _ => exact differs names
  | @tracks x u name seen untracked =>
      exact Or.inr ⟨clean, fun names => untracked (names.1 ▸ isTracked)⟩
  | @clears x u name seen =>
      by_cases here : x = e ∧ u = t
      · obtain ⟨rfl, rfl⟩ := here
        exact Or.inl rfl
      · exact Or.inr ⟨fun before => clean
          (mem_dirtyOf_clearDirty.mpr ⟨before, here⟩), here⟩
  | @untracks x u name seen =>
      have other : e ≠ x := fun same =>
        survives (List.mem_insert_iff.mpr (Or.inl same))
      rw [dirtyOf_untrack, if_neg other, mem_dirtyOf_clearDirty] at clean
      have differs : ¬(x = e ∧ u = t) := fun both => other both.1.symm
      exact Or.inr ⟨fun before => clean ⟨before, differs⟩, differs⟩

/-- An entity that is not despawned after a step was not before. -/
theorem onWorldEvents_survives
    (notCustom : ∀ effect ∈ effects, effect.NotCustom)
    (survives : e ∉ (r.onWorldEvents registry effects).pendingDespawn) :
    e ∉ r.pendingDespawn := by
  induction effects generalizing r with
  | nil => exact survives
  | cons effect effects inductionHypothesis =>
      exact (onWorldEvent_hears (notCustom effect List.mem_cons_self)).survives
        (inductionHypothesis
          (fun later member => notCustom later (List.mem_cons_of_mem _ member))
          survives)

/-- It stays tracked. -/
theorem onWorldEvents_tracked
    (notCustom : ∀ effect ∈ effects, effect.NotCustom)
    (isTracked : e ∈ r.tracked)
    (survives : e ∉ (r.onWorldEvents registry effects).pendingDespawn) :
    e ∈ (r.onWorldEvents registry effects).tracked := by
  induction effects generalizing r with
  | nil => exact isTracked
  | cons effect effects inductionHypothesis =>
      have later : ∀ effect ∈ effects, effect.NotCustom :=
        fun later member => notCustom later (List.mem_cons_of_mem _ member)
      exact inductionHypothesis later
        ((onWorldEvent_hears (notCustom effect List.mem_cons_self)).tracked
          isTracked (onWorldEvents_survives later survives)) survives

/-- A copy keeps the components that an event does not name. -/
theorem copyEvents_unnamed
    (notCustom : effect.NotCustom) (unnamed : ¬World.Names e t effect)
    (copy : Entity × ComponentTypeId → Option (List UInt8)) :
    copyEvents copy [effect] (e, t) = copy (e, t) := by
  refine Notice.takeAll_of_silent fun notice member => ?_
  obtain ⟨_, inEffects, read⟩ := List.mem_filterMap.mp member
  rw [List.mem_singleton.mp inEffects] at read
  cases effect with
  | dispatched type x u name seen =>
      have differs : (x, u) ≠ (e, t) → notice.IsSilentOn (e, t) := by
        intro differs
        cases type with
        | custom => exact notCustom.elim
        | _ =>
            rw [← Option.some.inj read]
            exact differs
      refine differs fun same => unnamed ?_
      cases type with
      | custom => exact notCustom.elim
      | _ => exact Prod.mk.inj same
  | _ => exact absurd read (by simp [Effect.notice])

/-- A component of a tracked entity that is not dirty after some events has no
value then, or was not dirty before and is as it was. -/
theorem onWorldEvents_clean
    (notCustom : ∀ effect ∈ effects, effect.NotCustom)
    (isTracked : e ∈ r.tracked) (networked : isNetworked registry t = true)
    (survives : e ∉ (r.onWorldEvents registry effects).pendingDespawn)
    (clean : t ∉ (r.onWorldEvents registry effects).dirtyOf e)
    (copy : Entity × ComponentTypeId → Option (List UInt8)) :
    copyEvents copy effects (e, t) = none ∨
      copyEvents copy effects (e, t) = copy (e, t) ∧ t ∉ r.dirtyOf e := by
  induction effects using List.reverseRec with
  | nil => exact Or.inr ⟨rfl, clean⟩
  | append_singleton effects effect inductionHypothesis =>
      have earlier : ∀ effect ∈ effects, effect.NotCustom :=
        fun early member => notCustom early (List.mem_append_left _ member)
      have lastNotCustom := notCustom effect
        (List.mem_append_right _ (List.mem_singleton_self _))
      rw [onWorldEvents_append] at survives clean
      have hears : Hears registry (r.onWorldEvents registry effects) effect
          ((r.onWorldEvents registry effects).onWorldEvents registry
            [effect]) := onWorldEvent_hears lastNotCustom
      have survivesBefore := hears.survives survives
      rw [copyEvents_append]
      obtain removed | ⟨cleanBefore, unnamed⟩ := hears.clean
        (onWorldEvents_tracked earlier isTracked survivesBefore) survives
        networked clean
      · refine Or.inl ?_
        unfold copyEvents
        rw [List.filterMap_cons, removed]
        exact Function.update_self _ _ _
      · rw [copyEvents_unnamed lastNotCustom unnamed]
        exact inductionHypothesis earlier survivesBefore cleanBefore

end Replication

namespace Link

/-- The fields that deltas carry have the same values on both sides. -/
def SameFields (registry : ComponentRegistry) (l : Link) (e : Entity)
    (t : ComponentTypeId) : Prop :=
  ∀ schema, registry.schemaOf t = some schema → ∀ fd ∈ schema.fields,
    fd.CarriedBy (syncPlanFor registry t).buckets →
    l.client.world.contents.valueOf registry e t fd =
      l.server.contents.valueOf registry e t fd

/-- Components on both sides that are not dirty have the same values. -/
def Clean (registry : ComponentRegistry) (l : Link) : Prop :=
  ∀ e, l.client.world.isAlive e = true → e ∉ l.replication.pendingDespawn →
    ∀ t ∈ l.server.networkedOf registry e,
    t ∈ l.client.world.getEntityComponentTypes e →
    t ∉ l.replication.dirtyOf e → l.SameFields registry e t

/-- At the start everything that is not dirty agrees. -/
theorem start_clean (w : World) : (start registry w).Clean registry := by
  intro e alive
  rw [show (start registry w).client.world.isAlive e = false from
    Bool.and_false _] at alive
  exact Bool.noConfusion alive

/-- What the server does to a component without making it dirty leaves it as it
was. -/
theorem onServer_clean
    {l : Link} (inStep : l.InStep registry) (clean : l.Clean registry)
    {op : WorldOp} (clearsNothing : op.ClearsNothing)
    (issuesDead : Traced.Accepted Effect.IssuesDead
      (op.apply registry l.server)) :
    (l.onServer registry (op.apply registry l.server)).Clean registry := by
  intro e alive survives t member onClient notDirty schema registered fd inFields
    carried
  have notCustom := (WorldOp.apply_reports inStep.stable inStep.idle
    clearsNothing issuesDead).notCustom
  have survivesBefore := Replication.onWorldEvents_survives notCustom survives
  have replicates : l.server.Replicates registry e :=
    (inStep.covers.alive e alive).resolve_right survivesBefore
  obtain ⟨here, networked⟩ := World.mem_networkedOf.mp member
  have after := (onServer_inStep inStep clearsNothing issuesDead).stable
  obtain ⟨_, inst, _, found⟩ := World.getRaw_of_mem_types after.consistent here
  have copied := congrFun (WorldOp.apply_copied inStep.stable inStep.idle op
    issuesDead) (e, t)
  have foundCopy : copyEvents l.server.rawComponents
      (op.apply registry l.server).effects (e, t) = some inst :=
    copied.trans found
  obtain gone | ⟨same, cleanBefore⟩ := Replication.onWorldEvents_clean notCustom
    ((inStep.covers.tracks.tracked e).mpr replicates) networked survives notDirty
    l.server.rawComponents
  · rw [foundCopy] at gone
    exact absurd gone (by simp)
  · have foundBefore : l.server.getRaw e t = some inst :=
      same.symm.trans foundCopy
    have memberBefore : t ∈ l.server.networkedOf registry e := by
      refine World.mem_networkedOf.mpr ⟨?_, networked⟩
      have represents := World.represents_contents inStep.stable.consistent
      rw [represents.mem_types, ← represents.getRaw, foundBefore]
      rfl
    have before := clean e alive survivesBefore t memberBefore onClient
      cleanBefore schema registered fd inFields carried
    have valueAfter := World.contents_valueOf (t := t) after.consistent
      (World.alive_of_replicates (List.ne_nil_of_mem member)) fd
    rw [found] at valueAfter
    refine before.trans (Eq.trans ?_ valueAfter.symm)
    rw [World.contents_valueOf inStep.stable.consistent
      (World.alive_of_replicates replicates), foundBefore]

/-- A full state gives all fields that are sent the values they have. -/
theorem reconciled_sameFields
    {w : World} (consistent : w.store.Consistent registry)
    (apart : registry.FieldsApart) {c c' : Client}
    (reconciled : Client.Reconciled registry w c c') {e : Entity}
    {t : ComponentTypeId} (member : t ∈ w.networkedOf registry e)
    {schema : ComponentSchema} (registered : registry.schemaOf t = some schema)
    {fd : FieldDescriptor} (inFields : fd ∈ schema.fields)
    (sent : fd.isSent = true) :
    c'.world.contents.valueOf registry e t fd =
      w.contents.valueOf registry e t fd := by
  have found : c'.world.contents e =
      some ((w.spawnRecord registry e).components registry) := by
    rw [reconciled.contents]
    exact if_pos (List.ne_nil_of_mem member)
  rw [Contents.valueOf_of_eq found]
  exact World.spawnRecord_valueOf consistent apart registered member inFields
    sent

/-- A component that does not stay dirty has all its buckets due. -/
theorem due_eq_of_not_staysDirty
    {w : World} (consistent : w.store.Consistent registry) {e : Entity}
    {t : ComponentTypeId} (member : t ∈ w.networkedOf registry e)
    {ticks : List ℚ} {elapsed : ℚ}
    (leaves : ¬w.staysDirty registry elapsed e ticks t = true) :
    (syncPlanFor registry t).due ticks elapsed =
      (syncPlanFor registry t).buckets := by
  obtain ⟨here, networked⟩ := World.mem_networkedOf.mp member
  unfold World.staysDirty at leaves
  rw [networked, (World.has_iff_mem_types consistent).mpr here, Bool.true_and,
    Bool.true_and, Bool.not_eq_true', Bool.not_eq_false] at leaves
  exact List.filter_eq_self.mpr (List.all_eq_true.mp leaves)

section Unreconciled

variable {l : Link} {delta : ℚ} {spawned updated despawned : Client}
variable (inStep : l.InStep registry) (clean : l.Clean registry)
variable (spawns : Client.Spawned registry l.server
  (l.replication.pendingSpawn.filter (l.server.isAlive ·)) l.client spawned)
variable (updates : Client.Updated registry l.server
  (l.replication.beforeDelta delta) spawned updated)
variable (despawns : Client.Despawned registry l.replication.pendingDespawn
  updated despawned)
variable {e : Entity} {t : ComponentTypeId} {schema : ComponentSchema}
variable {fd : FieldDescriptor}
include inStep spawns updates despawns

/-- What a delta leaves of the value that a field had after the spawns. -/
theorem unreconciled_valueOf
    (apart : registry.FieldsApart) (alive : despawned.world.isAlive e = true)
    (registered : registry.schemaOf t = some schema)
    (inFields : fd ∈ schema.fields) :
    despawned.world.contents.valueOf registry e t fd =
      if l.server.Carries registry (l.replication.beforeDelta delta) e t ∧
          fd.CarriedBy ((syncPlanFor registry t).due (l.replication.ticksOf e t)
            (l.replication.elapsedTime + delta)) then
        l.server.contents.valueOf registry e t fd
      else spawned.world.contents.valueOf registry e t fd := by
  obtain ⟨replicates, survives, spawnedAlive⟩ :=
    survivor_of_alive inStep spawns updates despawns alive
  have held := World.contents_of_alive spawnedAlive
  have found : despawned.world.contents e = some ((l.server.saidAbout registry
      (l.replication.beforeDelta delta) e).foldl
        (Components.receiveDelta registry) (spawned.world.bytesAt e)) := by
    rw [despawns.contents, if_neg survives, updates.contents, held]
    rfl
  have sets : (l.replication.beforeDelta delta).DirtySets :=
    inStep.covers.tracks.sets
  rw [Contents.valueOf_of_eq found, World.receive_saidAbout_valueOf
    inStep.stable.consistent sets (apart.laidOut registered) registered
    (fun inst isHere => ?_) inFields, Contents.valueOf_of_eq held,
    World.contents_valueOf inStep.stable.consistent
      (World.alive_of_replicates replicates)]
  · rfl
  · rw [World.bytesAt_length spawns.rest.stable.consistent isHere,
      ComponentRegistry.sizeOf_of_schemaOf registered]

include clean

/-- A field of a component that is not dirty any more went out, or was right
before. -/
theorem unreconciled_sameFields
    (apart : registry.FieldsApart) (alive : despawned.world.isAlive e = true)
    (member : t ∈ l.server.networkedOf registry e)
    (onClient : t ∈ despawned.world.getEntityComponentTypes e)
    (notDirty : t ∉ (l.replication.dirtyOf e).filter fun t =>
      l.server.staysDirty registry (l.replication.elapsedTime + delta) e
        (l.replication.ticksOf e t) t)
    (registered : registry.schemaOf t = some schema)
    (inFields : fd ∈ schema.fields)
    (carried : fd.CarriedBy (syncPlanFor registry t).buckets) :
    despawned.world.contents.valueOf registry e t fd =
      l.server.contents.valueOf registry e t fd := by
  have consistent := inStep.stable.consistent
  obtain ⟨_, survives, spawnedAlive⟩ :=
    survivor_of_alive inStep spawns updates despawns alive
  rw [unreconciled_valueOf inStep spawns updates despawns apart alive registered
    inFields]
  split
  · rfl
  rename_i unsent
  obtain ⟨_, contentsEq⟩ | ⟨_, contentsEq, clientAlive⟩ :=
    spawned_cases spawns spawnedAlive
  · rw [Contents.valueOf_of_eq contentsEq]
    exact World.spawnRecord_valueOf consistent apart registered member inFields
      carried.1
  · have notSaid : ¬l.server.Carries registry
        (l.replication.beforeDelta delta) e t := by
      intro carries
      have allDue := due_eq_of_not_staysDirty consistent member fun stays =>
        notDirty (List.mem_filter.mpr ⟨carries.1, stays⟩)
      exact unsent ⟨carries, allDue ▸ carried⟩
    have cleanBefore : t ∉ l.replication.dirtyOf e := by
      intro isDirty
      have allDue := due_eq_of_not_staysDirty consistent member fun stays =>
        notDirty (List.mem_filter.mpr ⟨isDirty, stays⟩)
      obtain ⟨bucket, inPlan, _⟩ := carried.2
      rw [← allDue] at inPlan
      exact notSaid ⟨isDirty, member, List.ne_nil_of_mem inPlan⟩
    have present := ((despawned_types consistent updates despawns survives
      spawnedAlive t).mp onClient).resolve_right notSaid
    rw [contentsEq, ← mem_types_iff_contents inStep.rest] at present
    have before := clean e clientAlive survives t member present cleanBefore
      schema registered fd inFields carried
    rw [← before]
    unfold Contents.valueOf
    rw [contentsEq]

end Unreconciled

/-- After a tick everything that is not dirty agrees. -/
theorem tick_clean
    {l : Link} (inStep : l.InStep registry) (clean : l.Clean registry)
    (apart : registry.FieldsApart) {order : List Ptr} {delta : ℚ}
    (fits : l.replication.TickFits registry l.server order delta) :
    (l.tick registry order delta).Clean registry := by
  have consistent := inStep.stable.consistent
  have sets := inStep.covers.tracks.sets
  obtain ⟨_, _, _, dirty⟩ := Replication.tick_spec consistent sets fits
  obtain ⟨spawned, updated, despawned, spawns, updates, despawns, reconciled,
    unreconciled⟩ := Client.receiveTick_spec consistent sets fits inStep.rest
  intro e alive _ t member onClient notDirty schema registered fd inFields
    carried
  have serverAlive : l.server.isAlive e = true :=
    World.alive_of_replicates (List.ne_nil_of_mem member)
  by_cases arrives : l.replication.Reconciles delta ∧
      l.server.FullStateArrives registry order
  · exact reconciled_sameFields consistent apart (reconciled arrives) member
      registered inFields carried.1
  · have client : (l.tick registry order delta).client = despawned :=
      unreconciled arrives
    rw [client] at alive onClient ⊢
    change t ∉ (Replication.tick ..).1.dirtyOf e at notDirty
    rw [dirty, if_pos serverAlive] at notDirty
    exact unreconciled_sameFields inStep clean spawns updates despawns apart
      alive member onClient notDirty registered inFields carried

/-- So it does after every operation. -/
theorem apply_clean
    {l : Link} {op : LinkOp} (inStep : l.InStep registry)
    (clean : l.Clean registry) (apart : registry.FieldsApart)
    (fits : op.Fits registry l) : (op.apply registry l).Clean registry := by
  cases op with
  | world op => exact onServer_clean inStep clean fits.1 fits.2
  | tick order delta => exact tick_clean inStep clean apart fits
  | requestFullState order =>
      have consistent := inStep.stable.consistent
      by_cases arrives : l.server.FullStateArrives registry order
      · have reconciled := Client.receiveFullState_reconciled consistent fits
          inStep.rest arrives
        exact fun e _ _ t member _ _ schema registered fd inFields carried =>
          reconciled_sameFields consistent apart reconciled member registered
            inFields carried.1
      · have unchanged : (l.requestFullState registry order).client = l.client :=
          Client.receiveFullState_unchanged consistent fits inStep.rest arrives
        intro e alive survives t member onClient notDirty schema registered fd
          inFields carried
        rw [show ((LinkOp.requestFullState order).apply registry l).client =
          l.client from unchanged] at alive onClient ⊢
        exact clean e alive survives t member onClient notDirty schema registered
          fd inFields carried
  | setReconciliationInterval seconds => exact clean
  | rehash order typeOrder =>
      intro e alive survives t member onClient notDirty
      refine clean e alive (mt (List.perm_insertionSort _ _).mem_iff.mpr survives)
        t member onClient (mt ?_ notDirty)
      exact (Replication.rehash_dirtyOf_perm l.replication order typeOrder
        e).mem_iff.mpr

/-- In every run, what is not dirty agrees. -/
theorem run_clean
    {w : World} (stable : w.Stable registry) (idle : w.Idle)
    (apart : registry.FieldsApart) {ops : List LinkOp}
    (fits : (start registry w).Allows registry (fun l op => op.Fits registry l)
      ops) :
    ((start registry w).run registry ops).InStep registry ∧
      ((start registry w).run registry ops).Clean registry :=
  run_keeps
    (fun l => l.InStep registry ∧ l.Clean registry)
    (fun both fits => ⟨apply_inStep both.1 fits,
      apply_clean both.1 both.2 apart fits⟩)
    ⟨start_inStep stable idle, start_clean w⟩ fits

/-- No update is lost: after every tick of a run, a networked component that both
sides have and that the server does not hold for dirty has the same value on both
sides in every field that deltas carry. -/
theorem run_losesNoUpdate
    (apart : registry.FieldsApart) {prelude : List WorldOp}
    (issuesDead : Traced.Accepted Effect.IssuesDead
      (WorldOp.run registry prelude))
    {ops : List LinkOp} {order : List Ptr} {delta : ℚ}
    (fits : (start registry (WorldOp.run registry prelude).state).Allows
      registry (fun l op => op.Fits registry l) (ops ++ [.tick order delta])) :
    let after := ((start registry (WorldOp.run registry prelude).state).run
      registry ops).tick registry order delta
    ∀ e, after.client.world.isAlive e = true →
      ∀ t ∈ after.server.networkedOf registry e,
      t ∈ after.client.world.getEntityComponentTypes e →
      t ∉ after.replication.dirtyOf e → after.SameFields registry e t := by
  intro after e alive
  obtain ⟨fitsBefore, fitsTick, _⟩ := allows_append.mp fits
  obtain ⟨inStep, clean⟩ := run_clean (WorldOp.run_stable issuesDead)
    (WorldOp.run_idle registry prelude) apart fitsBefore
  obtain ⟨_, _, noDespawns, _⟩ := Replication.tick_spec
    inStep.stable.consistent inStep.covers.tracks.sets fitsTick
  refine tick_clean inStep clean apart fitsTick e alive ?_
  change e ∉ (Replication.tick ..).1.pendingDespawn
  rw [noDespawns]
  exact List.not_mem_nil

/-- The fields of soldiers share no bytes. -/
theorem soldierRegistry_apart :
    ComponentRegistry.soldierRegistry.FieldsApart :=
  ComponentRegistry.FieldsApart.register
    (fun _ none => absurd none List.not_mem_nil) (by decide)

/-- A soldier whose slow field changes between two ticks. -/
theorem run_losesNoUpdate_soldier :
    let registry := ComponentRegistry.soldierRegistry
    let after := ((start registry (WorldOp.run registry
      [.createEntity, .addRaw ⟨1⟩ 1 (some [7, 8])]).state).run registry
        [.tick [1, 0] 1, .world (.setField ⟨1⟩ 1 "hp" [5])]).tick registry
          [1, 0] 1
    ∀ e, after.client.world.isAlive e = true →
      ∀ t ∈ after.server.networkedOf registry e,
      t ∈ after.client.world.getEntityComponentTypes e →
      t ∉ after.replication.dirtyOf e → after.SameFields registry e t := by
  have issuesDead : Traced.Accepted Effect.IssuesDead
      (WorldOp.run ComponentRegistry.soldierRegistry
        [.createEntity, .addRaw ⟨1⟩ 1 (some [7, 8])]) := by decide +kernel
  have stable := WorldOp.run_stable issuesDead
  have first : LinkOp.Fits ComponentRegistry.soldierRegistry
      (start ComponentRegistry.soldierRegistry
        (WorldOp.run ComponentRegistry.soldierRegistry
          [.createEntity, .addRaw ⟨1⟩ 1 (some [7, 8])]).state)
      (.tick [1, 0] 1) :=
    ⟨World.fullStateFits_of_few stable.consistent (by decide)
      ⟨by decide +kernel, by decide +kernel⟩ (by decide +kernel)
      (by decide +kernel), by decide +kernel, by decide +kernel,
      by decide +kernel, by decide +kernel⟩
  have second : LinkOp.Fits ComponentRegistry.soldierRegistry
      ((start ComponentRegistry.soldierRegistry
        (WorldOp.run ComponentRegistry.soldierRegistry
          [.createEntity, .addRaw ⟨1⟩ 1 (some [7, 8])]).state).tick
            ComponentRegistry.soldierRegistry [1, 0] 1)
      (.world (.setField ⟨1⟩ 1 "hp" [5])) :=
    ⟨trivial, by decide +kernel⟩
  have inStep := apply_inStep (apply_inStep
    (start_inStep stable (WorldOp.run_idle _ _)) first) second
  exact run_losesNoUpdate soldierRegistry_apart issuesDead ⟨first, second,
    ⟨World.fullStateFits_of_few inStep.stable.consistent (by decide)
      ⟨by decide +kernel, by decide +kernel⟩ (by decide +kernel)
      (by decide +kernel), by decide +kernel, by decide +kernel,
      by decide +kernel, by decide +kernel⟩, trivial⟩

end Link
end VortarisECS
