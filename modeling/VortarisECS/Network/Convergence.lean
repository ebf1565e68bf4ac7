import VortarisECS.Network.EntitySets
import VortarisECS.Network.FieldAgreement
import VortarisECS.Network.RateLimit

/-!
# The client catches up

No deadline of a bucket is further away than the longest interval of a tier.  A
tick of half a second sends every dirty component whole, and if it loses no
entity, both sides agree in everything that deltas carry.
-/

namespace VortarisECS

variable {registry : ComponentRegistry}

/-- The longest interval of a tier. -/
def longestInterval : ℚ := 1 / 2

/-- No deadline is later than the bound. -/
def Soon (bound : ℚ) (times : List ℚ) : Prop :=
  ∀ time ∈ times, time ≤ bound

/-- Soon is soon by any later bound. -/
theorem Soon.mono {bound later : ℚ} {times : List ℚ} (soon : Soon bound times)
    (le : bound ≤ later) : Soon later times :=
  fun time member => (soon time member).trans le

/-- New buckets are due at once. -/
theorem Soon.grow {bound : ℚ} {times : List ℚ} (soon : Soon bound times)
    (nonneg : 0 ≤ bound) (count : Nat) : Soon bound (growTicks times count) := by
  intro time member
  obtain old | new := List.mem_append.mp member
  · exact soon time old
  · rw [List.eq_of_mem_replicate new]
    exact nonneg

/-- No bucket waits longer than the longest interval. -/
theorem FieldSyncPlan.bucket_le_longest
    {t : ComponentTypeId} {bucket : SyncBucket}
    (member : bucket ∈ (syncPlanFor registry t).buckets) :
    bucket.2.1 ≤ longestInterval := by
  have inPlan := List.mem_of_getElem? (getElem?_of_mem_buckets member).1
  unfold syncPlanFor at inPlan
  cases registered : registry.schemaOf t with
  | none =>
      rw [registered] at inPlan
      exact absurd inPlan List.not_mem_nil
  | some schema =>
      rw [registered] at inPlan
      have short : ∀ tier ∈ [0, 1 / 20, 1 / 10, (1 / 2 : ℚ)],
          tier ≤ longestInterval := by decide +kernel
      exact short _ ((collectIntervals_spec schema.fields).2 _
        ((List.mem_insertionSort _).mp inPlan))

/-! ## Deadlines are soon -/

section Sends

variable {w : World} {r : Replication} {e x : Entity} {t u : ComponentTypeId}
variable {elapsed : ℚ}

/-- A bucket that is sent is due again soon. -/
theorem sendBuckets_soon
    {schema : ComponentSchema} {data : List UInt8} {buckets : List SyncBucket}
    (short : ∀ bucket ∈ buckets, bucket.2.1 ≤ longestInterval)
    {sends : BucketSends} (soon : Soon (elapsed + longestInterval) sends.ticks) :
    Soon (elapsed + longestInterval)
      (buckets.foldl (sendBucket schema data elapsed) sends).ticks := by
  induction buckets generalizing sends with
  | nil => exact soon
  | cons bucket buckets inductionHypothesis =>
      refine inductionHypothesis
        (fun later member => short later (List.mem_cons_of_mem _ member)) ?_
      rw [sendBucket_ticks]
      split
      · exact soon
      · intro time member
        obtain old | rfl := List.mem_or_eq_of_mem_set member
        · exact soon time old
        · exact add_le_add_right (short bucket List.mem_cons_self) _

/-- A component that is sent is due again soon. -/
theorem sendComponent_soon
    {sends : ComponentSends} (nonneg : 0 ≤ elapsed + longestInterval)
    (soon : ∀ u, Soon (elapsed + longestInterval)
      ((sends.ticks.lookup u).getD [])) (t u : ComponentTypeId) :
    Soon (elapsed + longestInterval)
      (((sendComponent registry w elapsed e sends t).ticks.lookup u).getD
        []) := by
  obtain same | ⟨schema, data, timed⟩ :=
    @sendComponent_ticks registry w e elapsed sends t
  · rw [same]
    exact soon u
  · rw [timed]
    by_cases isSelf : u = t
    · rw [isSelf, AList.lookup_insert, Option.getD_some]
      exact sendBuckets_soon
        (fun bucket member => FieldSyncPlan.bucket_le_longest member)
        ((soon t).grow nonneg _)
    · rw [AList.lookup_insert_ne isSelf]
      exact soon u

/-- So are many components. -/
theorem sendComponents_soon
    {types : List ComponentTypeId} {sends : ComponentSends}
    (nonneg : 0 ≤ elapsed + longestInterval)
    (soon : ∀ u, Soon (elapsed + longestInterval)
      ((sends.ticks.lookup u).getD [])) (u : ComponentTypeId) :
    Soon (elapsed + longestInterval)
      (((types.foldl (sendComponent registry w elapsed e) sends).ticks.lookup
        u).getD []) := by
  induction types generalizing sends with
  | nil => exact soon u
  | cons t types inductionHypothesis =>
      exact inductionHypothesis (sendComponent_soon nonneg soon t)

/-- So are many entities. -/
theorem sendEntities_soon
    {entries : List (Σ _ : Entity, List ComponentTypeId)} {sends : DeltaSends}
    (nonneg : 0 ≤ elapsed + longestInterval)
    (soon : ∀ e t, Soon (elapsed + longestInterval)
      (timesOf sends.nextSendTick e t)) (e : Entity) (t : ComponentTypeId) :
    Soon (elapsed + longestInterval) (timesOf (entries.foldl
      (sendEntity registry w elapsed) sends).nextSendTick e t) := by
  induction entries generalizing sends with
  | nil => exact soon e t
  | cons entry entries inductionHypothesis =>
      refine inductionHypothesis fun e t => ?_
      rw [sendEntity_nextSendTick]
      split
      · by_cases isSelf : e = entry.1
        · subst isSelf
          have start : ∀ u, Soon (elapsed + longestInterval)
              (((({ ticks := (sends.nextSendTick.lookup entry.1).getD ∅ } :
                ComponentSends)).ticks.lookup u).getD []) := soon entry.1
          unfold timesOf
          rw [AList.lookup_insert, Option.getD_some]
          exact sendComponents_soon nonneg start t
        · unfold timesOf
          rw [AList.lookup_insert_ne isSelf]
          exact soon e t
      · exact soon e t

/-- No deadline is further away than the longest interval. -/
structure Replication.Timely (r : Replication) : Prop where
  nonneg : 0 ≤ r.elapsedTime
  soon : ∀ e t, Soon (r.elapsedTime + longestInterval) (r.ticksOf e t)

/-- An entity that is gone has no times. -/
theorem timesOf_erase
    (ticks : AList fun _ : Entity => AList fun _ : ComponentTypeId => List ℚ)
    (x e : Entity) (t : ComponentTypeId) :
    timesOf (ticks.erase x) e t = if e = x then [] else timesOf ticks e t := by
  unfold timesOf
  split
  · rename_i same
    rw [same, AList.lookup_erase]
    rfl
  · rename_i other
    rw [AList.lookup_erase_ne other]

theorem Soon.erase
    {bound : ℚ}
    {ticks : AList fun _ : Entity => AList fun _ : ComponentTypeId => List ℚ}
    (soon : ∀ e t, Soon bound (timesOf ticks e t)) (x e : Entity)
    (t : ComponentTypeId) : Soon bound (timesOf (ticks.erase x) e t) := by
  rw [timesOf_erase]
  split
  · exact fun _ member => absurd member List.not_mem_nil
  · exact soon e t

theorem Soon.eraseAll
    {bound : ℚ} {gone : List Entity}
    {ticks : AList fun _ : Entity => AList fun _ : ComponentTypeId => List ℚ}
    (soon : ∀ e t, Soon bound (timesOf ticks e t)) (e : Entity)
    (t : ComponentTypeId) :
    Soon bound (timesOf (gone.foldl (fun ticks x => ticks.erase x) ticks) e
      t) := by
  induction gone generalizing ticks with
  | nil => exact soon e t
  | cons x gone inductionHypothesis => exact inductionHypothesis (Soon.erase soon x)

end Sends

namespace Replication

variable {w : World} {r : Replication}

/-- What a replication hears makes nothing wait. -/
theorem Timely.hears {effect : Effect} {r' : Replication}
    (timely : r.Timely) (hears : Hears registry r effect r') : r'.Timely := by
  have clears : ∀ x u, (r.clearDirty x u).nextSendTick = r.nextSendTick ∧
      (r.clearDirty x u).elapsedTime = r.elapsedTime := by
    intro x u
    unfold clearDirty
    split <;> exact ⟨rfl, rfl⟩
  cases hears with
  | nothing => exact timely
  | marks => exact ⟨timely.nonneg, timely.soon⟩
  | tracks => exact ⟨timely.nonneg, timely.soon⟩
  | @clears x u =>
      constructor
      · rw [(clears x u).2]
        exact timely.nonneg
      · rw [(clears x u).2]
        unfold ticksOf
        rw [(clears x u).1]
        exact timely.soon
  | @untracks x u =>
      have elapsed : ((r.clearDirty x u).untrack x).elapsedTime =
          r.elapsedTime := (clears x u).2
      have ticks : ((r.clearDirty x u).untrack x).nextSendTick =
          r.nextSendTick.erase x := by
        unfold untrack
        rw [(clears x u).1]
      constructor
      · rw [elapsed]
        exact timely.nonneg
      · rw [elapsed]
        intro e t
        unfold ticksOf
        rw [ticks]
        exact Soon.erase timely.soon x e t

/-- Nor do all events of a step. -/
theorem Timely.onWorldEvents {effects : List Effect} (timely : r.Timely)
    (notCustom : ∀ effect ∈ effects, effect.NotCustom) :
    (r.onWorldEvents registry effects).Timely := by
  induction effects generalizing r with
  | nil => exact timely
  | cons effect effects inductionHypothesis =>
      exact inductionHypothesis
        (timely.hears (onWorldEvent_hears (notCustom effect List.mem_cons_self)))
        fun later member => notCustom later (List.mem_cons_of_mem _ member)

/-- A tick leaves everything due soon. -/
theorem Timely.tick (timely : r.Timely) {order : List Ptr} {delta : ℚ}
    (forward : 0 ≤ delta) : (r.tick registry w order delta).1.Timely := by
  have elapsedNonneg : 0 ≤ r.elapsedTime + delta :=
    add_nonneg timely.nonneg forward
  have waits : ∀ e t, Soon (r.elapsedTime + delta + longestInterval)
      (((r.beforeDelta delta).buildDelta registry w).1.ticksOf e t) := by
    refine sendEntities_soon (add_nonneg elapsedNonneg (by decide +kernel)) ?_
    intro e t
    refine (timely.soon e t).mono ?_
    exact add_le_add_left (le_add_of_nonneg_right forward) _
  have ticked : (r.tick registry w order delta).1.elapsedTime =
        r.elapsedTime + delta ∧
      (r.tick registry w order delta).1.nextSendTick =
        r.pendingDespawn.foldl (fun ticks x => ticks.erase x)
          ((r.beforeDelta delta).buildDelta registry w).1.nextSendTick := by
    unfold Replication.tick
    dsimp only
    rw [sendDelta_eq, reconcile_eq]
    split <;> exact ⟨rfl, rfl⟩
  constructor
  · rw [ticked.1]
    exact elapsedNonneg
  · intro e t
    unfold ticksOf
    rw [ticked.1, ticked.2]
    exact Soon.eraseAll waits e t

/-- After half a second all buckets are due. -/
theorem Timely.due (timely : r.Timely) {delta : ℚ}
    (enough : longestInterval ≤ delta) (e : Entity) (t : ComponentTypeId) :
    (syncPlanFor registry t).due (r.ticksOf e t) (r.elapsedTime + delta) =
      (syncPlanFor registry t).buckets := by
  refine List.filter_eq_self.mpr fun bucket _ => decide_eq_true ?_
  have late : r.elapsedTime + longestInterval ≤ r.elapsedTime + delta :=
    add_le_add_right enough _
  rw [not_lt]
  cases found : (r.ticksOf e t)[bucket.1]? with
  | none =>
      have nonneg : 0 ≤ r.elapsedTime + longestInterval :=
        add_nonneg timely.nonneg (by decide +kernel)
      exact nonneg.trans late
  | some time =>
      exact (timely.soon e t time (List.mem_of_getElem? found)).trans late

end Replication

/-- Time does not run backwards. -/
def LinkOp.Forward : LinkOp → Prop
  | tick _ delta => 0 ≤ delta
  | _ => True

namespace Link

/-- The client has the server's entities, and all components that deltas carry,
with the same values. -/
structure Converged (registry : ComponentRegistry) (l : Link) : Prop where
  entities : l.Agrees registry
  nothingDirty : ∀ e, l.replication.dirtyOf e = []
  components : ∀ e, ∀ t ∈ l.server.networkedOf registry e,
    (syncPlanFor registry t).anyDelta = true →
    t ∈ l.client.world.getEntityComponentTypes e ∧ l.SameFields registry e t

/-- At the start everything is due. -/
theorem start_timely {w : World} (stable : w.Stable registry) :
    (start registry w).replication.Timely := by
  obtain ⟨_, _, others⟩ := Replication.seedFromWorld_spec stable.consistent {}
  have clock : (start registry w).replication.elapsedTime = 0 := by
    change (Replication.seedFromWorld registry {} w).elapsedTime = 0
    rw [others]
  have noTicks : (start registry w).replication.nextSendTick = ∅ := by
    change (Replication.seedFromWorld registry {} w).nextSendTick = ∅
    rw [others]
  constructor
  · rw [clock]
  · intro e t time member
    unfold Replication.ticksOf at member
    rw [noTicks] at member
    exact absurd member List.not_mem_nil

/-- Every operation that does not turn back time leaves everything due soon. -/
theorem apply_timely
    {l : Link} {op : LinkOp} (inStep : l.InStep registry)
    (timely : l.replication.Timely) (fits : op.Fits registry l)
    (forward : op.Forward) : (op.apply registry l).replication.Timely := by
  cases op with
  | world op =>
      exact timely.onWorldEvents (WorldOp.apply_reports inStep.stable inStep.idle
        fits.1 fits.2).notCustom
  | tick order delta => exact timely.tick forward
  | requestFullState order => exact timely
  | setReconciliationInterval seconds => exact ⟨timely.nonneg, timely.soon⟩
  | rehash order typeOrder => exact ⟨timely.nonneg, timely.soon⟩

/-- In every run everything is due soon. -/
theorem run_timely
    {w : World} (stable : w.Stable registry) (idle : w.Idle)
    {ops : List LinkOp}
    (fits : (start registry w).Allows registry
      (fun l op => op.Fits registry l ∧ op.Forward) ops) :
    ((start registry w).run registry ops).InStep registry ∧
      ((start registry w).run registry ops).replication.Timely :=
  run_keeps
    (fun l => l.InStep registry ∧ l.replication.Timely)
    (fun both allowed => ⟨apply_inStep both.1 allowed.1,
      apply_timely both.1 both.2 allowed.1 allowed.2⟩)
    ⟨start_inStep stable idle, start_timely stable⟩ fits

/-- What is allowed is allowed by a weaker rule. -/
theorem Allows.imp
    {allowed weaker : Link → LinkOp → Prop} {l : Link} {ops : List LinkOp}
    (allows : l.Allows registry allowed ops)
    (implies : ∀ l op, allowed l op → weaker l op) :
    l.Allows registry weaker ops := by
  induction ops generalizing l with
  | nil => trivial
  | cons op ops inductionHypothesis =>
      exact ⟨implies l op allows.1, inductionHypothesis allows.2⟩

/-- A tick of half a second leaves nothing dirty. -/
theorem tick_nothingDirty
    {l : Link} (inStep : l.InStep registry) (timely : l.replication.Timely)
    {order : List Ptr} {delta : ℚ} (enough : longestInterval ≤ delta)
    (fits : l.replication.TickFits registry l.server order delta) (e : Entity) :
    (l.tick registry order delta).replication.dirtyOf e = [] := by
  obtain ⟨_, _, _, dirty⟩ := Replication.tick_spec inStep.stable.consistent
    inStep.covers.tracks.sets fits
  refine (dirty e).trans ?_
  split
  · refine List.filter_eq_nil_iff.mpr fun t _ stays => ?_
    have allDue : (syncPlanFor registry t).due _ _ = _ := timely.due enough e t
    unfold World.staysDirty at stays
    rw [Bool.and_eq_true, Bool.not_eq_true'] at stays
    have every := List.filter_eq_self.mp allDue
    rw [List.all_eq_true.mpr every] at stays
    exact Bool.noConfusion stays.2
  · rfl

/-- The components that deltas carry reach the client with a tick of half a
second. -/
theorem tick_shows
    {l : Link} (inStep : l.InStep registry) (describes : l.Describes registry)
    (timely : l.replication.Timely) {order : List Ptr} {delta : ℚ}
    (enough : longestInterval ≤ delta)
    (fits : l.replication.TickFits registry l.server order delta) {e : Entity}
    (alive : (l.tick registry order delta).client.world.isAlive e = true)
    {t : ComponentTypeId} (member : t ∈ l.server.networkedOf registry e)
    (carried : (syncPlanFor registry t).anyDelta = true) :
    t ∈ (l.tick registry order delta).client.world.getEntityComponentTypes e := by
  obtain ⟨_, _, noDespawns, _⟩ := Replication.tick_spec inStep.stable.consistent
    inStep.covers.tracks.sets fits
  have survives : e ∉ (l.tick registry order delta).replication.pendingDespawn := by
    change e ∉ (Replication.tick ..).1.pendingDespawn
    rw [noDespawns]
    exact List.not_mem_nil
  rw [(tick_describes inStep describes fits).types e alive survives]
  by_contra undescribed
  have late := late_of_not_described member undescribed
  rw [timely.due enough] at late
  rw [FieldSyncPlan.anyDelta_eq, late] at carried
  exact Bool.noConfusion carried

/-- Whatever happened before, a tick of half a second that settles brings both
sides together, as long as the ticks since the last full state lost nobody. -/
theorem run_converges
    (apart : registry.FieldsApart) {prelude : List WorldOp}
    (issuesDead : Traced.Accepted Effect.IssuesDead
      (WorldOp.run registry prelude))
    {ops : List LinkOp} {order : List Ptr} {delta : ℚ}
    (fits : (start registry (WorldOp.run registry prelude).state).Allows
      registry (fun l op => op.Fits registry l ∧ op.Forward)
      (ops ++ [.tick order delta]))
    (settled : (start registry (WorldOp.run registry prelude).state).Settled
      registry ops)
    (settles : ((start registry (WorldOp.run registry prelude).state).run
      registry ops).Settles registry order delta)
    (enough : 1 / 2 ≤ delta) :
    (((start registry (WorldOp.run registry prelude).state).run registry
      ops).tick registry order delta).Converged registry := by
  have stable := WorldOp.run_stable issuesDead
  have idle := WorldOp.run_idle registry prelude
  obtain ⟨allowed, ⟨fitsTick, _⟩, _⟩ := allows_append.mp fits
  have fitsBefore := allowed.imp fun _ _ both => both.1
  obtain ⟨inStep, timely⟩ := run_timely stable idle allowed
  obtain ⟨_, describes⟩ := run_describes stable idle fitsBefore
  obtain ⟨_, clean⟩ := run_clean stable idle apart fitsBefore
  obtain ⟨_, accepts, reaches⟩ := run_reaches (start_inStep stable idle)
    (start_accepts _) (fun _ => start_reaches stable) fitsBefore settled
  have agrees := (tick_agrees_iff inStep accepts reaches fitsTick).mpr settles
  have nothingDirty := tick_nothingDirty inStep timely enough fitsTick
  refine ⟨agrees, nothingDirty, fun e t member carried => ?_⟩
  have alive := (agrees e).mpr (List.ne_nil_of_mem member)
  have shows := tick_shows inStep describes timely enough fitsTick alive member
    carried
  refine ⟨shows, tick_clean inStep clean apart fitsTick e alive ?_ t member shows
    ?_⟩
  · obtain ⟨_, _, noDespawns, _⟩ := Replication.tick_spec
      inStep.stable.consistent inStep.covers.tracks.sets fitsTick
    change e ∉ (Replication.tick ..).1.pendingDespawn
    rw [noDespawns]
    exact List.not_mem_nil
  · rw [nothingDirty]
    exact List.not_mem_nil

/-- A soldier whose fields change between two ticks. -/
theorem run_converges_soldier :
    let registry := ComponentRegistry.soldierRegistry
    (((start registry (WorldOp.run registry
      [.createEntity, .addRaw ⟨1⟩ 1 (some [7, 8])]).state).run registry
        [.world (.setField ⟨1⟩ 1 "hp" [5])]).tick registry [1, 0]
          1).Converged registry := by
  have issuesDead : Traced.Accepted Effect.IssuesDead
      (WorldOp.run ComponentRegistry.soldierRegistry
        [.createEntity, .addRaw ⟨1⟩ 1 (some [7, 8])]) := by decide +kernel
  have stable := WorldOp.run_stable issuesDead
  have first : LinkOp.Fits ComponentRegistry.soldierRegistry
      (start ComponentRegistry.soldierRegistry
        (WorldOp.run ComponentRegistry.soldierRegistry
          [.createEntity, .addRaw ⟨1⟩ 1 (some [7, 8])]).state)
      (.world (.setField ⟨1⟩ 1 "hp" [5])) :=
    ⟨trivial, by decide +kernel⟩
  have inStep := apply_inStep (start_inStep stable (WorldOp.run_idle _ _)) first
  exact run_converges soldierRegistry_apart issuesDead
    ⟨⟨first, trivial⟩,
      ⟨⟨World.fullStateFits_of_few inStep.stable.consistent (by decide)
        ⟨by decide +kernel, by decide +kernel⟩ (by decide +kernel)
        (by decide +kernel), by decide +kernel, by decide +kernel,
        by decide +kernel, by decide +kernel⟩,
        show (0 : ℚ) ≤ 1 by decide +kernel⟩, trivial⟩
    trivial
    (Or.inr ((losesNobody_iff inStep).mpr (by decide +kernel)))
    (by decide +kernel)

end Link
end VortarisECS
