import VortarisECS.Core.Reports
import VortarisECS.Library.Notices

/-!
# Observers that copy what they are told

An observer is called back while the event is dispatched and reads the component
then.  A copy of all components that is changed by events only, and emptied when
the world is cleared, holds the bytes of every component after every run.
-/

namespace VortarisECS

/-- The bytes of all components. -/
def World.rawComponents (w : World) :
    Entity × ComponentTypeId → Option (List UInt8) :=
  fun key => w.getRaw key.1 key.2

/-- What an observer reads when it is called. -/
def Effect.notice :
    Effect → Option (Notice (Entity × ComponentTypeId) (List UInt8))
  | .dispatched .removed e t _ _ => some (.holds (e, t) none)
  | .dispatched .custom _ _ name _ =>
      if name = "world_cleared" then some .emptied else none
  | .dispatched _ e t _ seen => some (.holds (e, t) (seen.getRaw e t))
  | _ => none

/-- A copy that an observer keeps. -/
def copyEvents (copy : Entity × ComponentTypeId → Option (List UInt8))
    (effects : List Effect) : Entity × ComponentTypeId → Option (List UInt8) :=
  Notice.takeAll copy (effects.filterMap Effect.notice)

/-- Events are copied one after the other. -/
theorem copyEvents_append
    (copy : Entity × ComponentTypeId → Option (List UInt8))
    (first second : List Effect) :
    copyEvents copy (first ++ second) =
      copyEvents (copyEvents copy first) second := by
  unfold copyEvents
  rw [List.filterMap_append, Notice.takeAll_append]

namespace World

variable {registry : ComponentRegistry} {w w' w'' : World} {e : Entity}
variable {t : ComponentTypeId} {effects first second : List Effect}

/-- The components that can be read are those of the contents. -/
theorem rawComponents_eq (consistent : w.store.Consistent registry)
    (key : Entity × ComponentTypeId) :
    w.rawComponents key = (w.contents key.1).bind (· key.2) :=
  (represents_contents consistent).getRaw key.1 key.2

theorem getRaw_congr (same : w'.store = w.store) (e : Entity)
    (t : ComponentTypeId) : w'.getRaw e t = w.getRaw e t := by
  unfold getRaw
  rw [same]

/-- A right copy that takes in the events is right again. -/
def Copied (w : World) (effects : List Effect) (w' : World) : Prop :=
  copyEvents w.rawComponents effects = w'.rawComponents

namespace Copied

/-- Without events the copy stays. -/
theorem refl (w : World) : Copied w [] w := rfl

/-- A copy stays a copy through two steps. -/
theorem trans (before : Copied w first w') (after : Copied w' second w'') :
    Copied w (first ++ second) w'' := by
  unfold Copied
  rw [copyEvents_append, before]
  exact after

/-- A step without events must not change what can be read. -/
theorem quiet (same : w'.rawComponents = w.rawComponents)
    (silent : ∀ effect ∈ effects, effect.IsSilent) : Copied w effects w' := by
  have nothing : effects.filterMap Effect.notice = [] := by
    rw [List.filterMap_eq_nil_iff]
    intro effect member
    have isSilent := silent effect member
    cases effect <;> first | rfl | exact isSilent.elim
  unfold Copied copyEvents
  rw [nothing]
  exact same.symm

theorem ofStoreEq (same : w'.store = w.store) : Copied w [] w' :=
  quiet (funext fun key => getRaw_congr same key.1 key.2)
    fun _ member => absurd member List.not_mem_nil

/-- Neither may one that changes other things only. -/
theorem ofContentsEq (consistent : w.store.Consistent registry)
    (consistent' : w'.store.Consistent registry)
    (same : w'.contents = w.contents) : Copied w [] w' :=
  quiet (funext fun key => by
    rw [rawComponents_eq consistent, rawComponents_eq consistent', same])
    fun _ member => absurd member List.not_mem_nil

/-- A new entity has no components. -/
theorem ofSpawn (consistent : w.store.Consistent registry)
    (consistent' : w'.store.Consistent registry) (dead : w.isAlive e = false)
    (spawned : w'.contents = w.contents.spawn e)
    (silent : ∀ effect ∈ effects, effect.IsSilent) : Copied w effects w' := by
  refine quiet (funext fun key => ?_) silent
  rw [rawComponents_eq consistent, rawComponents_eq consistent', spawned]
  unfold Contents.spawn
  by_cases isSelf : key.1 = e
  · rw [if_pos isSelf, isSelf, contents_of_dead dead]
    rfl
  · rw [if_neg isSelf]

/-- Every item keeps the copy. -/
theorem forEach
    {step : World → α → Traced Effect World} (invariant : World → Prop)
    {items : List α}
    (each : ∀ item ∈ items, ∀ w, invariant w →
      Copied w (step w item).effects (step w item).state ∧
        invariant (step w item).state)
    {w : World} (holds : invariant w) :
    Copied w (Traced.forEach step w items).effects
        (Traced.forEach step w items).state ∧
      invariant (Traced.forEach step w items).state := by
  induction items generalizing w with
  | nil => exact ⟨.refl w, holds⟩
  | cons item items inductionHypothesis =>
      obtain ⟨first, holdsAfter⟩ := each item List.mem_cons_self w holds
      obtain ⟨later, holdsLast⟩ := inductionHypothesis
        (fun other member => each other (List.mem_cons_of_mem item member))
        holdsAfter
      exact ⟨first.trans later, holdsLast⟩

end Copied

/-- The event reads what the component is in the end. -/
def Truthful (w' : World) : Effect → Prop
  | .dispatched .removed e t _ _ => w'.getRaw e t = none
  | .dispatched .custom .. => False
  | .dispatched _ e t _ seen => seen.getRaw e t = w'.getRaw e t
  | _ => True

/-- An event nobody copies is truthful. -/
theorem Truthful.of_silent {effect : Effect} (silent : effect.IsSilent) :
    w'.Truthful effect := by
  cases effect <;> trivial

/-- An event of the component. -/
def Names (e : Entity) (t : ComponentTypeId) : Effect → Prop
  | .dispatched .custom .. => False
  | .dispatched _ x u _ _ => x = e ∧ u = t
  | _ => False

/-- Truthful events that name all changes keep a copy right. -/
theorem Copied.of_truthful
    (truthful : ∀ effect ∈ effects, w'.Truthful effect)
    (complete : ∀ e t, w'.getRaw e t ≠ w.getRaw e t →
      ∃ effect ∈ effects, Names e t effect) : Copied w effects w' := by
  have told : ∀ effect ∈ effects, ∀ e t, Names e t effect →
      effect.notice = some (.holds (e, t) (w'.getRaw e t)) := by
    intro effect member e t names
    have reads := truthful effect member
    cases effect with
    | dispatched type x u name seen =>
        cases type with
        | custom => exact names.elim
        | removed =>
            obtain ⟨rfl, rfl⟩ := names
            rw [show w'.getRaw x u = none from reads]
            rfl
        | added | changed =>
            obtain ⟨rfl, rfl⟩ := names
            rw [← show seen.getRaw x u = w'.getRaw x u from reads]
            rfl
    | _ => exact names.elim
  refine Notice.Tell.takeAll_eq ⟨fun notice member => ?_, fun key changed => ?_⟩
  · obtain ⟨effect, inEffects, read⟩ := List.mem_filterMap.mp member
    have reads := truthful effect inEffects
    cases effect with
    | dispatched type x u name seen =>
        cases type with
        | custom => exact reads.elim
        | removed | added | changed =>
            have same := told _ inEffects x u ⟨rfl, rfl⟩
            exact ⟨(x, u), Option.some.inj (read.symm.trans same)⟩
    | _ => exact absurd read (by simp [Effect.notice])
  · obtain ⟨effect, member, names⟩ := complete key.1 key.2 changed
    exact List.mem_filterMap.mpr ⟨effect, member, told _ member _ _ names⟩

/-! ## Operations -/

/-- A new entity has nothing to copy. -/
theorem createEntity_copied
    (stable : w.Stable registry)
    (issuesDead : Traced.Accepted Effect.IssuesDead
      (discardHandle w.createEntity)) :
    Copied w (discardHandle w.createEntity).effects
      (discardHandle w.createEntity).state := by
  have stable' := createEntity_realizes.keeps (stable_inductiveOn registry) w
    stable issuesDead
  cases allocates : w.slots.allocEntityId with
  | mk slots e =>
      simp only [discardHandle, createEntity, allocates] at issuesDead stable' ⊢
      by_cases isNull : e = Entity.null
      · rw [if_pos isNull]
        exact .ofStoreEq rfl
      · rw [if_neg isNull] at issuesDead stable' ⊢
        have dead : w.isAlive e = false :=
          issuesDead _ (List.mem_singleton_self _)
        have entered := enterEmpty_contents (w := w.setSlots slots)
          stable.consistent isNull (lookup_eq_none_of_dead isNull dead)
        refine .ofSpawn stable.consistent stable'.consistent dead
          ((contents_congr (agrees_invalidateCache _ :
            Agrees registry _ _).store_eq).trans entered) fun effect member => ?_
        rw [List.mem_singleton.mp member]
        trivial

theorem createEntityPooled_copied
    (stable : w.Stable registry)
    (issuesDead : Traced.Accepted Effect.IssuesDead
      (discardHandle w.createEntityPooled)) :
    Copied w (discardHandle w.createEntityPooled).effects
      (discardHandle w.createEntityPooled).state := by
  have stable' := (createEntityPooled_realizes (stable_inductiveOn registry)).keeps
    (stable_inductiveOn registry) w stable issuesDead
  cases pooled : w.slots.poolSlots with
  | nil =>
      simp only [discardHandle, createEntityPooled, pooled] at issuesDead ⊢
      exact createEntity_copied stable issuesDead
  | cons e rest =>
      have real := stable.poolReal e (by rw [pooled]; exact List.mem_cons_self)
      simp only [discardHandle, createEntityPooled, pooled]
        at issuesDead stable' ⊢
      have dead : w.isAlive e = false :=
        issuesDead _ (List.mem_singleton_self _)
      have entered := enterEmpty_contents
        (w := w.setSlots { w.slots with poolSlots := rest }) stable.consistent
        real (lookup_eq_none_of_dead real dead)
      refine .ofSpawn stable.consistent stable'.consistent dead
        ((contents_congr (agrees_invalidateCache _ :
          Agrees registry _ _).store_eq).trans entered) fun effect member => ?_
      rw [List.mem_singleton.mp member]
      trivial

/-- Neither has one whose id is given. -/
theorem createEntityPreassigned_copied
    (stable : w.Stable registry) (id : UInt64) :
    Copied w (w.createEntityPreassigned id).effects
      (w.createEntityPreassigned id).state := by
  have stable' := (createEntityPreassigned_realizes id).keeps
    (stable_inductiveOn registry) w stable
    (createEntityPreassigned_issuesDead w id)
  unfold createEntityPreassigned at stable' ⊢
  dsimp only at stable' ⊢
  by_cases last : (⟨id⟩ : Entity).slot = 2 ^ 32 - 1
  · rw [if_pos last]
    exact .refl w
  rw [if_neg last] at stable' ⊢
  by_cases far : (⟨id⟩ : Entity).slot ≥ maxPreassignedSlot
  · rw [if_pos far]
    exact .refl w
  rw [if_neg far] at stable' ⊢
  cases storeAlive : w.store.isAlive ⟨id⟩ with
  | true =>
      rw [if_pos (show (w.setSlots (w.slots.growTo
        ((⟨id⟩ : Entity).slot + 1))).store.isAlive ⟨id⟩ = true from storeAlive)]
      exact .ofStoreEq rfl
  | false =>
      have grownDead : ¬(w.setSlots (w.slots.growTo
          ((⟨id⟩ : Entity).slot + 1))).store.isAlive ⟨id⟩ = true :=
        Bool.eq_false_iff.mp storeAlive
      rw [if_neg grownDead] at stable' ⊢
      have real : (⟨id⟩ : Entity) ≠ Entity.null := by
        intro isNull
        rw [isNull] at last
        exact last null_slot
      have dead : w.isAlive ⟨id⟩ = false := by
        rw [isAlive, storeAlive]
        exact Bool.and_false _
      have entered := enterEmpty_contents
        (w := w.setSlots (w.slots.adopt ⟨id⟩)) stable.consistent real
        (lookup_eq_none_of_dead real dead)
      refine .ofSpawn stable.consistent stable'.consistent dead
        ((contents_congr (agrees_invalidateCache _ :
          Agrees registry _ _).store_eq).trans entered) fun effect member => ?_
      rw [List.mem_singleton.mp member]
      trivial

/-- An entity that leaves has a removal for each component it had. -/
theorem leave_copied
    (consistent : w.store.Consistent registry) {loc : EntityLocation}
    (location : w.store.entityLocations.lookup e = some loc)
    (slots : EntitySlots) :
    Copied w (w.leave e loc slots).effects (w.leave e loc slots).state := by
  have consistent' : (w.leave e loc slots).state.store.Consistent registry := by
    rw [show (w.leave e loc slots).state.store =
      ((w.setStore (w.store.detach e loc)).setSlots slots).store from
      (agrees_invalidateCache _ : Agrees registry _ _).store_eq]
    exact ArchetypeStore.detach_consistent consistent location
  have killed : (w.leave e loc slots).state.contents = w.contents.kill e :=
    (contents_congr (agrees_invalidateCache _ :
      Agrees registry _ _).store_eq).trans
        (detach_contents consistent location slots)
  have gone : ∀ t, (w.leave e loc slots).state.getRaw e t = none := by
    intro t
    rw [(represents_contents consistent').getRaw, killed, Contents.kill_self]
    rfl
  apply Copied.of_truthful
  · intro effect member
    obtain ⟨t, _, rfl⟩ := List.mem_map.mp member
    exact gone t
  · intro x t changed
    rw [(represents_contents consistent').getRaw,
      (represents_contents consistent).getRaw, killed] at changed
    by_cases isSelf : x = e
    · subst isSelf
      rw [Contents.kill_self] at changed
      have held : t ∈ w.getEntityComponentTypes x := by
        rw [(represents_contents consistent).mem_types, Option.isSome_iff_ne_none]
        exact Ne.symm changed
      exact ⟨_, List.mem_map_of_mem ((mem_types_iff consistent location).mp held),
        rfl, rfl⟩
    · rw [Contents.kill_of_ne _ isSelf] at changed
      exact absurd rfl changed

/-- The components of an entity that is destroyed are announced as removed. -/
theorem destroyEntity_copied
    (consistent : w.store.Consistent registry) (e : Entity) :
    Copied w (w.destroyEntity e).effects (w.destroyEntity e).state := by
  unfold destroyEntity
  cases location : w.store.entityLocations.lookup e with
  | none => exact .refl w
  | some loc =>
      dsimp only
      split
      · exact .refl w
      · exact leave_copied consistent location _

theorem destroyEntityPooled_copied
    (consistent : w.store.Consistent registry) (e : Entity) :
    Copied w (w.destroyEntityPooled e).effects
      (w.destroyEntityPooled e).state := by
  unfold destroyEntityPooled
  cases location : w.store.entityLocations.lookup e with
  | none => exact .refl w
  | some loc =>
      dsimp only
      split
      · exact .refl w
      · exact leave_copied consistent location _

/-- Only one component of one entity changes when bytes are put there. -/
theorem getRaw_put_of_ne
    (consistent : w.store.Consistent registry)
    (consistent' : w'.store.Consistent registry) {bytes : Option (List UInt8)}
    (put : w'.contents = w.contents.put e t bytes) {x : Entity}
    {u : ComponentTypeId} (changed : w'.getRaw x u ≠ w.getRaw x u) :
    x = e ∧ u = t := by
  rw [(represents_contents consistent').getRaw,
    (represents_contents consistent).getRaw, put] at changed
  by_contra differs
  apply changed
  unfold Contents.put
  by_cases isSelf : x = e
  · rw [isSelf, Contents.adjust_self]
    have other : u ≠ t := fun same => differs ⟨isSelf, same⟩
    cases w.contents e with
    | none => rfl
    | some components => exact if_neg other
  · rw [Contents.adjust_of_ne _ _ isSelf]

/-- An addition is announced where it can be read. -/
theorem addRaw_copied
    (stable : w.Stable registry) (immediate : w.deferMoves = false)
    (outside : w.inIteration = false) (e : Entity) (t : ComponentTypeId)
    (data : Option (List UInt8)) :
    Copied w (w.addRaw registry e t data).effects
      (w.addRaw registry e t data).state := by
  cases registered : registry.schemaOf t with
  | none =>
      rw [addRaw_unregistered data registered]
      exact .refl w
  | some schema =>
  cases alive : w.isAlive e with
  | false =>
      rw [addRaw_dead data alive]
      exact .refl w
  | true =>
  have consistent := stable.consistent
  have consistent' : (w.addRaw registry e t data).state.store.Consistent
      registry := (stable.keeps
    (addRaw_realizes (stable_inductiveOn registry) e t data)
    (addRaw_createsNothing w e t data)).consistent
  have contentsEq := addRaw_contents (e := e) (t := t) consistent immediate
    outside data
  rw [registered, if_pos Option.isSome_some] at contentsEq
  have atMost := @getRaw_put_of_ne registry w _ e t consistent consistent' _
    contentsEq
  obtain ⟨loc, location⟩ := location_of_isAlive alive
  by_cases present : t ∈ (w.store.deref loc.archetype).componentIds
  · rw [addRaw_overwrites data alive registered location immediate present]
      at atMost ⊢
    refine Copied.of_truthful (fun effect member => ?_) fun x u changed => ?_
    · rcases List.mem_cons.mp member with rfl | member
      · trivial
      · rw [List.mem_singleton.mp member]
        rfl
    · obtain ⟨rfl, rfl⟩ := atMost changed
      exact ⟨_, List.mem_cons_of_mem _ (List.mem_singleton_self _), rfl, rfl⟩
  · rw [addRaw_moves data alive registered location immediate present outside]
      at atMost ⊢
    refine Copied.of_truthful (fun effect member => ?_) fun x u changed => ?_
    · rcases List.mem_cons.mp member with rfl | member
      · trivial
      rcases List.mem_cons.mp member with rfl | member
      · trivial
      · rw [List.mem_singleton.mp member]
        exact (getRaw_congr (agrees_invalidateCache _ :
          Agrees registry _ _).store_eq e t).symm
    · obtain ⟨rfl, rfl⟩ := atMost changed
      exact ⟨_, List.mem_cons_of_mem _ (List.mem_cons_of_mem _
        (List.mem_singleton_self _)), rfl, rfl⟩

/-- A removal is announced. -/
theorem removeComponent_copied
    (stable : w.Stable registry) (immediate : w.deferMoves = false)
    (outside : w.inIteration = false) (e : Entity) (t : ComponentTypeId) :
    Copied w (w.removeComponent registry e t).effects
      (w.removeComponent registry e t).state := by
  cases alive : w.isAlive e with
  | false =>
      rw [removeComponent_dead alive]
      exact .refl w
  | true =>
  have consistent := stable.consistent
  have consistent' : (w.removeComponent registry e t).state.store.Consistent
      registry := (stable.keeps
    (removeComponent_realizes (stable_inductiveOn registry) e t)
    (removeComponent_createsNothing w e t)).consistent
  have contentsEq := removeComponent_contents (e := e) (t := t) consistent
    immediate outside
  obtain ⟨loc, location⟩ := location_of_isAlive alive
  by_cases present : t ∈ (w.store.deref loc.archetype).componentIds
  swap
  · rw [removeComponent_absent location immediate present]
    exact .refl w
  have gone : (w.removeComponent registry e t).state.getRaw e t = none := by
    rw [(represents_contents consistent').getRaw, contentsEq, Contents.put,
      Contents.adjust_self, contents_of_alive alive, Option.map_some,
      Option.bind_some]
    exact if_pos rfl
  refine Copied.of_truthful (fun effect member => ?_) fun x u changed => ?_
  · rw [removeComponent_moves alive location immediate present outside]
      at member gone ⊢
    rcases List.mem_cons.mp member with rfl | member
    · trivial
    · rw [List.mem_singleton.mp member]
      exact gone
  · obtain ⟨rfl, rfl⟩ := getRaw_put_of_ne consistent consistent' contentsEq
      changed
    rw [removeComponent_moves alive location immediate present outside]
    exact ⟨_, List.mem_cons_of_mem _ (List.mem_singleton_self _), rfl, rfl⟩

/-- Marking an entity that has the component calls the observers. -/
theorem markChanged_names (found : (w.getRaw e t).isSome) (field : String)
    (alive : w.isAlive e = true) :
    ∃ effect ∈ (w.markChanged e t field).effects, Names e t effect := by
  unfold markChanged
  rw [alive, Bool.not_true, if_neg Bool.false_ne_true]
  unfold getRaw at found
  cases location : w.store.entityLocations.lookup e with
  | none =>
      rw [location] at found
      exact Bool.noConfusion found
  | some loc =>
      rw [location] at found
      dsimp only at found ⊢
      split at found
      · rename_i has
        rw [has.2, Bool.not_true, if_neg Bool.false_ne_true]
        exact ⟨_, List.mem_cons_of_mem _ (List.mem_singleton_self _), rfl, rfl⟩
      · exact Bool.noConfusion found

/-- The bytes a mark announces are those that are read. -/
theorem markChanged_truthful (e : Entity) (t : ComponentTypeId)
    (field : String) :
    ∀ effect ∈ (w.markChanged e t field).effects,
      (w.markChanged e t field).state.Truthful effect := by
  unfold markChanged
  split
  · exact fun _ member => absurd member List.not_mem_nil
  · cases w.store.entityLocations.lookup e with
    | none => exact fun _ member => absurd member List.not_mem_nil
    | some loc =>
        dsimp only
        split
        · exact fun _ member => absurd member List.not_mem_nil
        · intro effect member
          rcases List.mem_cons.mp member with rfl | member
          · trivial
          · rw [List.mem_singleton.mp member]
            rfl

/-- Marking changes nothing that is read. -/
theorem markChanged_getRaw
    (stable : w.Stable registry) (e : Entity) (t : ComponentTypeId)
    (field : String) (x : Entity) (u : ComponentTypeId) :
    (w.markChanged e t field).state.getRaw x u = w.getRaw x u := by
  have stable' : (w.markChanged e t field).state.Stable registry :=
    stable.keeps (markChanged_realizes e t field)
      (markChanged_createsNothing w e t field)
  rw [(represents_contents stable'.consistent).getRaw,
    (represents_contents stable.consistent).getRaw,
    markChanged_contents stable.consistent]

theorem markChanged_copied
    (stable : w.Stable registry) (e : Entity) (t : ComponentTypeId)
    (field : String) :
    Copied w (w.markChanged e t field).effects
      (w.markChanged e t field).state :=
  .of_truthful (markChanged_truthful e t field) fun x u changed =>
    absurd (markChanged_getRaw stable e t field x u) changed

/-- What can be read belongs to an entity that is alive. -/
theorem isAlive_of_getRaw (consistent : w.store.Consistent registry)
    {raw : List UInt8} (found : w.getRaw e t = some raw) :
    w.isAlive e = true := by
  rw [(represents_contents consistent).getRaw] at found
  obtain ⟨components, here, _⟩ := Option.bind_eq_some_iff.mp found
  rw [← contents_isSome, here]
  rfl

/-- The field is written first and marked afterwards. -/
theorem setField_copied
    (stable : w.Stable registry) (e : Entity) (t : ComponentTypeId)
    (name : String) (value : List UInt8) :
    Copied w (w.setField registry e t name value).effects
      (w.setField registry e t name value).state := by
  unfold setField
  split
  swap
  · exact .refl w
  rename_i fd raw _ found
  have consistent := stable.consistent
  have alive := isAlive_of_getRaw consistent found
  have sized : (overlay raw fd.offset
      (value.take fd.storageSize)).length = registry.sizeOf t := by
    rw [length_overlay]
    exact getRaw_length consistent found
  have stable' : (w.writeRaw e t (overlay raw fd.offset
      (value.take fd.storageSize))).Stable registry :=
    stable.keeps (writeRaw_realizes e t sized) (Traced.accepted_pure _ _)
  have written := writeRaw_contents consistent found alive
    (overlay raw fd.offset (value.take fd.storageSize))
  refine Copied.of_truthful (markChanged_truthful e t name) fun x u changed => ?_
  rw [markChanged_getRaw stable'] at changed
  obtain ⟨rfl, rfl⟩ := getRaw_put_of_ne consistent stable'.consistent written
    changed
  have present : (w.writeRaw x u (overlay raw fd.offset
      (value.take fd.storageSize))).getRaw x u =
      some (overlay raw fd.offset (value.take fd.storageSize)) := by
    rw [(represents_contents stable'.consistent).getRaw, written, Contents.put,
      Contents.adjust_self, contents_of_alive alive, Option.map_some,
      Option.bind_some]
    exact if_pos rfl
  exact markChanged_names (by rw [present]; rfl) name
    (isAlive_of_getRaw stable'.consistent present)

/-! ## Flushes -/

/-- The component that a committed entity has, if it was not added or written
over, is the one it had. -/
theorem commitDeferredMove_getRaw
    (stable : w.Stable registry) {loc : EntityLocation}
    (location : w.store.entityLocations.lookup e = some loc)
    {ops : List PendingComponentOp} (queued : w.pendingOps.lookup e = some ops)
    (t : ComponentTypeId) :
    (w.commitDeferredMove registry e).state.getRaw e t =
      if t ∈ sortIds (finalSet (w.store.deref loc.archetype).componentIds ops)
      then (w.bytesAt e).netBytes registry (lastAddData ops) t
      else none := by
  have consistent := stable.consistent
  have alive := isAlive_of_location consistent location
  rw [(represents_contents (commitDeferredMove_stable stable e).consistent).getRaw,
    commitDeferredMove_contents consistent stable.pendingSound e,
    Contents.adjust_self, contents_of_alive alive, Option.map_some,
    Option.bind_some, queued, Option.getD_some,
    Components.executeAll_eq_net registry (bytesAt_isSome_iff location)]
  simp only [mem_sortIds]

/-- The events of a flush tell what became of an entity's components. -/
theorem commitEvents_copied
    {original finalIds : List ComponentTypeId} {silent : List Effect}
    {last : AList fun _ : ComponentTypeId => Option (List UInt8)}
    {seen : World}
    (others : ∀ x u, x ≠ e → w'.getRaw x u = w.getRaw x u)
    (before : ∀ t, t ∉ original → w.getRaw e t = none)
    (gone : ∀ t, t ∉ finalIds → w'.getRaw e t = none)
    (kept : ∀ t ∈ finalIds, last.lookup t = none →
      w'.getRaw e t = w.getRaw e t)
    (seenAfter : seen.store = w'.store)
    (noEvents : ∀ effect ∈ silent, effect.IsSilent) :
    Copied w (silent ++ commitEvents e original finalIds last seen) w' := by
  refine Copied.of_truthful (fun effect member => ?_) fun x t changed => ?_
  · obtain member | member := List.mem_append.mp member
    · exact .of_silent (noEvents effect member)
    obtain member | member := List.mem_append.mp member
    · obtain ⟨t, _, event⟩ := List.mem_filterMap.mp member
      split at event
      · rw [← Option.some.inj event]
        exact getRaw_congr seenAfter e t
      · split at event
        · rw [← Option.some.inj event]
          exact getRaw_congr seenAfter e t
        · exact absurd event (by simp)
    · obtain ⟨t, _, event⟩ := List.mem_filterMap.mp member
      split at event
      · rename_i left
        rw [← Option.some.inj event]
        exact gone t left
      · exact absurd event (by simp)
  · obtain rfl : x = e := by
      by_contra other
      exact changed (others x t other)
    by_cases inFinal : t ∈ finalIds
    · have event : ∃ type name, (if t ∉ original then
            some (Effect.dispatched .added x t "" seen)
          else if (last.lookup t).isSome then
            some (.dispatched .changed x t "" seen)
          else none) = some (.dispatched type x t name seen) ∧
          type ≠ .custom := by
        split
        · exact ⟨_, _, rfl, by decide⟩
        · have rewritten : (last.lookup t).isSome = true := by
            rw [Option.isSome_iff_ne_none]
            exact fun none => changed (kept t inFinal none)
          rw [if_pos rewritten]
          exact ⟨_, _, rfl, by decide⟩
      obtain ⟨type, name, event, notCustom⟩ := event
      refine ⟨_, List.mem_append_right _ (List.mem_append_left _
        (List.mem_filterMap.mpr ⟨t, inFinal, event⟩)), ?_⟩
      cases type with
      | custom => exact absurd rfl notCustom
      | added | changed | removed => exact ⟨rfl, rfl⟩
    · have inOriginal : t ∈ original := by
        by_contra absent
        exact changed ((gone t inFinal).trans (before t absent).symm)
      exact ⟨_, List.mem_append_right _ (List.mem_append_right _
        (List.mem_filterMap.mpr ⟨t, inOriginal, if_pos inFinal⟩)), rfl, rfl⟩

/-- A commit announces everything it did. -/
theorem commitDeferredMove_copied
    (stable : w.Stable registry) (e : Entity) :
    Copied w (w.commitDeferredMove registry e).effects
      (w.commitDeferredMove registry e).state := by
  have consistent := stable.consistent
  have stable' := commitDeferredMove_stable stable e
  cases location : w.store.entityLocations.lookup e with
  | none =>
      unfold commitDeferredMove
      rw [location]
      exact .refl w
  | some loc =>
  cases queued : w.pendingOps.lookup e with
  | none =>
      unfold commitDeferredMove
      rw [location, queued]
      exact .refl w
  | some ops =>
  have after := commitDeferredMove_getRaw stable location queued
  have gone : ∀ t, t ∉ sortIds (finalSet
      (w.store.deref loc.archetype).componentIds ops) →
      (w.commitDeferredMove registry e).state.getRaw e t = none :=
    fun t left => (after t).trans (if_neg left)
  have kept : ∀ t ∈ sortIds (finalSet
      (w.store.deref loc.archetype).componentIds ops),
      (lastAddData ops).lookup t = none →
      (w.commitDeferredMove registry e).state.getRaw e t = w.getRaw e t := by
    intro t member unwritten
    rw [after, if_pos member, ← bytesAt_eq_getRaw consistent]
    unfold Components.netBytes
    rw [unwritten]
  have before : ∀ t, t ∉ (w.store.deref loc.archetype).componentIds →
      w.getRaw e t = none := fun t absent => by
    rw [← bytesAt_eq_getRaw consistent, ← Option.not_isSome_iff_eq_none,
      bytesAt_isSome_iff location]
    exact absent
  have others : ∀ x u, x ≠ e →
      (w.commitDeferredMove registry e).state.getRaw x u = w.getRaw x u := by
    intro x u other
    rw [(represents_contents stable'.consistent).getRaw,
      (represents_contents consistent).getRaw,
      commitDeferredMove_contents consistent stable.pendingSound e,
      Contents.adjust_of_ne _ _ other]
  clear after
  unfold commitDeferredMove at gone kept others ⊢
  rw [location, queued] at gone kept others ⊢
  dsimp only at gone kept others ⊢
  by_cases structural :
      sortIds (finalSet (w.store.deref loc.archetype).componentIds ops) ≠
        (w.store.deref loc.archetype).componentIds
  · rw [if_pos structural] at gone kept others ⊢
    refine commitEvents_copied others before gone kept ?_ ?_
    · exact (agrees_invalidateCache _ : Agrees registry _ _).store_eq.symm
    · intro effect member
      obtain rfl | member := List.mem_cons.mp member
      · trivial
      · exact commitWrites_silent e _ _ _ _ effect member
  · rw [if_neg structural] at gone kept others ⊢
    exact commitEvents_copied others before gone kept rfl
      (commitWrites_silent e loc _ _ w)

/-- A command inside a deferred window changes no component. -/
theorem executeCommand_deferred_copied
    (stable : w.Stable registry) (deferred : w.deferMoves = true)
    (command : Command) :
    Copied w (w.executeCommand registry command).effects
      (w.executeCommand registry command).state := by
  have deferOp_copied : ∀ e op, Copied w [] (w.deferOp e op) := by
    intro e op
    refine .ofStoreEq ?_
    unfold deferOp queueDeferredMove
    split <;> rfl
  cases command with
  | addComponent e t data =>
      dsimp only [executeCommand]
      unfold addRaw
      rw [deferred]
      split
      · exact .refl w
      · split
        · exact deferOp_copied e _
        · exact .refl w
  | removeComponent e t =>
      dsimp only [executeCommand]
      unfold removeComponent
      rw [deferred]
      split
      · exact .refl w
      · exact deferOp_copied e _
  | addEntity e =>
      dsimp only [executeCommand]
      split
      · exact createEntityPreassigned_copied stable e.id
      · exact .refl w
  | removeEntity e =>
      dsimp only [executeCommand]
      unfold destroyEntityDeferred
      rw [deferred, if_pos rfl]
      split
      · refine .ofStoreEq ?_
        unfold queueDeferredMove
        split <;> rfl
      · exact .refl w
  | custom id data =>
      dsimp only [executeCommand]
      unfold runCustomCommand
      split
      · refine .quiet rfl fun effect member => ?_
        rw [List.mem_singleton.mp member]
        trivial
      · exact .refl w

/-- Commands in a window announce nothing and change nothing that is read. -/
theorem executeCommands_copied
    (stable : w.Stable registry) (deferred : w.deferMoves = true)
    (ops : List Command) :
    Copied w (Traced.forEach (executeCommand registry) w ops).effects
      (Traced.forEach (executeCommand registry) w ops).state := by
  refine (Copied.forEach
    (fun v => v.Stable registry ∧ v.deferMoves = true)
    (fun command _ v holds => ?_) ⟨stable, deferred⟩).1
  obtain ⟨stable, deferred⟩ := holds
  exact ⟨executeCommand_deferred_copied stable deferred command,
    (executeCommand_realizes (stable_inductiveOn registry) command).keeps
      (stable_inductiveOn registry) v stable
      (executeCommand_issuesDead v command),
    (executeCommand_depth registry deferred command).2⟩

/-- The destructions at the end of a window are announced. -/
theorem flushDestroys_copied
    (stable : w.Stable registry) (entities : List Entity) :
    Copied w (Traced.forEach flushDestroy w entities).effects
      (Traced.forEach flushDestroy w entities).state := by
  refine (Copied.forEach (fun v => v.Stable registry)
    (fun e _ v stable => ⟨?_, flushDestroy_stable stable e⟩) stable).1
  unfold flushDestroy
  split
  · exact destroyEntity_copied stable.consistent e
  · exact .refl v

/-- So are the moves. -/
theorem flushMoves_copied
    (stable : w.Stable registry) (entities : List Entity) :
    Copied w (Traced.forEach (flushMove registry) w entities).effects
      (Traced.forEach (flushMove registry) w entities).state := by
  refine (Copied.forEach (fun v => v.Stable registry)
    (fun e _ v stable => ⟨?_, flushMove_stable stable e⟩) stable).1
  unfold flushMove
  split
  · exact .refl v
  · exact commitDeferredMove_copied stable e

/-- The end of a window keeps the copy. -/
theorem endDeferredMoves_copied (stable : w.Stable registry) :
    Copied w (w.endDeferredMoves registry).effects
      (w.endDeferredMoves registry).state := by
  unfold endDeferredMoves
  split
  · exact .refl w
  · have closed : Copied w [] { w with deferMoves := false } := .ofStoreEq rfl
    have closedStable : Stable registry { w with deferMoves := false } :=
      ⟨stable.consistent, stable.pendingSound, stable.poolReal⟩
    have destroyed := flushDestroys_copied closedStable w.deferredEntities
    have moved := flushMoves_copied
      (flushDestroys_reports closedStable w.deferredEntities).2
      w.deferredEntities
    have finished : ∀ v : World,
        Copied v [] v.clearPending.releaseInvalidation := fun v =>
      .ofStoreEq (((agrees_clearPending v).trans
        (agrees_releaseInvalidation _) : Agrees registry _ _).store_eq)
    have whole := ((closed.trans destroyed).trans moved).trans (finished _)
    rwa [List.nil_append, List.append_nil] at whole

/-- A buffer that is executed keeps the copy. -/
theorem executeBuffer_copied
    (stable : w.Stable registry) (ops : List Command) :
    Copied w (w.executeBuffer registry ops).effects
      (w.executeBuffer registry ops).state := by
  unfold executeBuffer
  split
  · exact .refl w
  · split
    · exact .refl w
    · have opened : Copied w [] w.beginSuppress.beginDeferredMoves :=
        .ofStoreEq rfl
      have openedStable : w.beginSuppress.beginDeferredMoves.Stable registry :=
        ⟨stable.consistent, stable.pendingSound, stable.poolReal⟩
      have executed := executeCommands_copied openedStable rfl ops
      have flushed := endDeferredMoves_copied
        (executeCommands_reports openedStable rfl ops).2.1
      have closed : ∀ v : World, Copied v [] v.endSuppress := fun v =>
        .ofStoreEq (agrees_endSuppress v : Agrees registry _ _).store_eq
      have whole := ((opened.trans executed).trans flushed).trans (closed _)
      rwa [List.nil_append, List.append_nil] at whole

/-- `clear` says so, and nobody has a component then. -/
theorem clear_copied (stable : w.Stable registry)
    (outside : w.inIteration = false) :
    Copied w w.clear.effects w.clear.state := by
  have emptied := clear_contents stable outside
  have stable' : w.clear.state.Stable registry :=
    stable.keeps clear_realizes (clear_createsNothing w)
  have nothing : w.clear.state.rawComponents = fun _ => none := by
    funext key
    rw [rawComponents_eq stable'.consistent, emptied]
    rfl
  unfold Copied
  rw [nothing]
  unfold clear
  rw [outside, if_neg Bool.false_ne_true]
  rfl

end World

namespace WorldOp

variable {registry : ComponentRegistry} {w : World}

/-- Every operation keeps the copy. -/
theorem apply_copied
    (stable : w.Stable registry) (idle : w.Idle) (op : WorldOp)
    (issuesDead : Traced.Accepted Effect.IssuesDead (op.apply registry w)) :
    World.Copied w (op.apply registry w).effects
      (op.apply registry w).state := by
  cases op with
  | createEntity => exact World.createEntity_copied stable issuesDead
  | createEntityPreassigned id =>
      exact World.createEntityPreassigned_copied stable id
  | createEntityPooled => exact World.createEntityPooled_copied stable issuesDead
  | destroyEntity e => exact World.destroyEntity_copied stable.consistent e
  | destroyEntityPooled e =>
      exact World.destroyEntityPooled_copied stable.consistent e
  | setEntityRange baseIndex => exact .ofStoreEq rfl
  | addRaw e t data =>
      exact World.addRaw_copied stable idle.immediate idle.outside e t data
  | removeComponent e t =>
      exact World.removeComponent_copied stable idle.immediate idle.outside e t
  | markChanged e t field => exact World.markChanged_copied stable e t field
  | setField e t name value => exact World.setField_copied stable e t name value
  | executeBuffer ops => exact World.executeBuffer_copied stable ops
  | compact =>
      exact .ofContentsEq stable.consistent
        (ArchetypeStore.compact_consistent stable.consistent)
        (World.compact_contents w)
  | clear => exact World.clear_copied stable idle.outside
  | rehash order =>
      exact .ofContentsEq stable.consistent
        (ArchetypeStore.rehash_consistent stable.consistent order)
        (World.rehash_contents w order)

/-- Every run keeps the copy. -/
theorem run_copied
    {ops : List WorldOp}
    (issuesDead : Traced.Accepted Effect.IssuesDead (run registry ops)) :
    World.Copied (World.empty registry) (run registry ops).effects
      (run registry ops).state := by
  induction ops using List.reverseRec with
  | nil => exact .refl _
  | append_singleton ops op inductionHypothesis =>
      unfold run at issuesDead ⊢
      rw [Traced.forEach_append] at issuesDead ⊢
      obtain ⟨before, last⟩ := Traced.accepted_andThen _ _ _ |>.mp issuesDead
      have single : ∀ v : World, Traced.forEach (apply registry) v [op] =
          op.apply registry v := fun v => by
        rw [Traced.forEach_cons, Traced.andThen]
        simp
      rw [single] at last
      rw [Traced.andThen_effects, Traced.andThen_state, single]
      exact (inductionHypothesis before).trans
        (apply_copied (run_stable before) (run_idle registry ops) op last)

/-- A component changes only with an event about it, and the last event about it
is dispatched when it is what it will be: an observer that reads the component
when it is called has the bytes of every component after every run. -/
theorem run_copies
    {ops : List WorldOp}
    (issuesDead : Traced.Accepted Effect.IssuesDead (run registry ops))
    (e : Entity) (t : ComponentTypeId) :
    copyEvents (fun _ => none) (run registry ops).effects (e, t) =
      (run registry ops).state.getRaw e t := by
  have nothing : (World.empty registry).rawComponents = fun _ => none := by
    funext key
    rfl
  have copied := congrFun (run_copied issuesDead) (e, t)
  rwa [nothing] at copied

/-- Components that are added, moved by a buffer, written and cleared. -/
def busyRun : List WorldOp :=
  [.createEntity, .createEntity, .addRaw ⟨1⟩ 1 (some [7]),
    .executeBuffer [.addComponent ⟨1⟩ 2 [8], .removeComponent ⟨1⟩ 1,
      .addComponent ⟨2⟩ 1 [9]],
    .setField ⟨2⟩ 1 "hp" [5], .destroyEntity ⟨2⟩, .compact]

/-- The copy after a busy run holds what is read. -/
theorem run_copies_busy :
    copyEvents (fun _ => none)
        (run ComponentRegistry.manaRegistry busyRun).effects (⟨1⟩, 2) =
      (run ComponentRegistry.manaRegistry busyRun).state.getRaw ⟨1⟩ 2 :=
  run_copies (by decide +kernel) ⟨1⟩ 2

end WorldOp
end VortarisECS
