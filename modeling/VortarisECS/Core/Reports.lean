import VortarisECS.Core.FiniteMap
import VortarisECS.Core.FlushEquivalence

/-!
# What events report

Events name every change of a component set.  An operation is a sequence of
changes of one entity each: events about it name all types it gained and all it
lost, an event about a component the entity has now is no removal, and a removal
is dispatched from a world in which the entity already has its new types.
-/

namespace VortarisECS

/-- No event. -/
def Effect.IsSilent : Effect → Prop
  | .dispatched .. => False
  | _ => True

/-- No event, or one about an entity that has the types `types` now. -/
def Effect.IsAbout (e : Entity) (types : List ComponentTypeId) : Effect → Prop
  | .dispatched .added x t _ _ => x = e ∧ t ∈ types
  | .dispatched .changed x t _ _ => x = e ∧ t ∈ types
  | .dispatched .removed x t _ seen =>
      x = e ∧ t ∉ types ∧ seen.getEntityComponentTypes e = types
  | .dispatched .custom .. => False
  | _ => True

/-- A silent effect is about nobody. -/
theorem Effect.IsSilent.isAbout
    {effect : Effect} (silent : effect.IsSilent) (e : Entity)
    (types : List ComponentTypeId) : effect.IsAbout e types := by
  cases effect <;> trivial

/-- The effects contain an event of a component. -/
def HasEvent (effects : List Effect) (type : ObserverEventType) (e : Entity)
    (t : ComponentTypeId) : Prop :=
  ∃ name seen, Effect.dispatched type e t name seen ∈ effects

namespace World

/-- At most the component set of `e` changed, and the events tell. -/
structure Reported (e : Entity) (w : World) (effects : List Effect)
    (w' : World) : Prop where
  others : ∀ x, x ≠ e →
    w'.getEntityComponentTypes x = w.getEntityComponentTypes x
  about : ∀ effect ∈ effects, effect.IsAbout e (w'.getEntityComponentTypes e)
  gains : ∀ t ∈ w'.getEntityComponentTypes e,
    t ∉ w.getEntityComponentTypes e → HasEvent effects .added e t
  losses : ∀ t ∈ w.getEntityComponentTypes e,
    t ∉ w'.getEntityComponentTypes e → HasEvent effects .removed e t

/-- A sequence of reported changes. -/
inductive Reports : World → List Effect → World → Prop
  | refl (w : World) : Reports w [] w
  | tail {w w' w'' : World} {first second : List Effect} {e : Entity}
      (before : Reports w first w') (reported : Reported e w' second w'') :
      Reports w (first ++ second) w''

/-- What is reported of one entity is reported. -/
theorem Reported.reports
    {w w' : World} {effects : List Effect} {e : Entity}
    (reported : Reported e w effects w') : Reports w effects w' := by
  have reports := (Reports.refl w).tail reported
  rwa [List.nil_append] at reports

/-- Two steps report what they do. -/
theorem Reports.trans
    {w w' w'' : World} {first second : List Effect}
    (before : Reports w first w') (after : Reports w' second w'') :
    Reports w (first ++ second) w'' := by
  induction after with
  | refl => rwa [List.append_nil]
  | tail _ reported inductionHypothesis =>
      rw [← List.append_assoc]
      exact inductionHypothesis.tail reported

/-- Nothing changed and nothing was said. -/
theorem Reports.quiet
    {w w' : World} {effects : List Effect}
    (same : ∀ x, w'.getEntityComponentTypes x = w.getEntityComponentTypes x)
    (silent : ∀ effect ∈ effects, effect.IsSilent) :
    Reports w effects w' := by
  refine Reported.reports (e := Entity.null) ⟨fun x _ => same x, ?_, ?_, ?_⟩
  · exact fun effect member => (silent effect member).isAbout _ _
  · exact fun t member fresh => absurd (same _ ▸ member) fresh
  · exact fun t member gone => absurd (same Entity.null ▸ member) gone

/-- So do steps for many items. -/
theorem Reports.forEach
    {step : World → α → Traced Effect World} (invariant : World → Prop)
    {items : List α}
    (each : ∀ item ∈ items, ∀ w, invariant w →
      Reports w (step w item).effects (step w item).state ∧
        invariant (step w item).state)
    {w : World} (holds : invariant w) :
    Reports w (Traced.forEach step w items).effects
        (Traced.forEach step w items).state ∧
      invariant (Traced.forEach step w items).state := by
  induction items generalizing w with
  | nil => exact ⟨.refl w, holds⟩
  | cons item items inductionHypothesis =>
      obtain ⟨first, holdsAfter⟩ := each item List.mem_cons_self w holds
      obtain ⟨later, holdsLast⟩ := inductionHypothesis
        (fun other member => each other (List.mem_cons_of_mem item member))
        holdsAfter
      exact ⟨first.trans later, holdsLast⟩

/-! ## Component sets -/

variable {registry : ComponentRegistry} {w w' : World} {e : Entity}
variable {t : ComponentTypeId}

/-- Entities with components of the same types have the same types. -/
theorem types_eq_of_contents
    (consistent : w.store.Consistent registry)
    (consistent' : w'.store.Consistent registry)
    (same : ∀ t, ((w'.contents e).bind (· t)).isSome =
      ((w.contents e).bind (· t)).isSome) :
    w'.getEntityComponentTypes e = w.getEntityComponentTypes e := by
  have represents := represents_contents consistent
  have represents' := represents_contents consistent'
  apply List.Pairwise.eq_of_mem_iff (represents'.typesAscending e)
    (represents.typesAscending e)
  intro t
  rw [represents'.mem_types, represents.mem_types, same]

/-- The components of an entity are in the store. -/
theorem types_of_store_eq (same : w'.store = w.store) (x : Entity) :
    w'.getEntityComponentTypes x = w.getEntityComponentTypes x := by
  unfold getEntityComponentTypes isAlive
  rw [same]

/-- The components of an entity are those of its archetype. -/
theorem mem_types_iff
    (consistent : w.store.Consistent registry)
    {loc : EntityLocation}
    (location : w.store.entityLocations.lookup e = some loc) :
    t ∈ w.getEntityComponentTypes e ↔
      t ∈ (w.store.deref loc.archetype).componentIds := by
  unfold getEntityComponentTypes
  rw [isAlive_of_location consistent location,
    ArchetypeStore.typesOf_of_location location]
  rfl

/-- A new entity has no components, like a dead one. -/
theorem types_spawn
    (consistent : w.store.Consistent registry)
    (consistent' : w'.store.Consistent registry) (dead : w.isAlive e = false)
    (spawned : w'.contents = w.contents.spawn e) (x : Entity) :
    w'.getEntityComponentTypes x = w.getEntityComponentTypes x := by
  apply types_eq_of_contents consistent consistent'
  intro t
  rw [spawned]
  unfold Contents.spawn
  by_cases isSelf : x = e
  · rw [if_pos isSelf, isSelf, contents_of_dead dead]
    rfl
  · rw [if_neg isSelf]

/-! ## Operations -/

/-- A creation reports nothing, as nothing is there yet. -/
theorem createEntity_reports
    (stable : w.Stable registry)
    (issuesDead : Traced.Accepted Effect.IssuesDead
      (discardHandle w.createEntity)) :
    Reports w (discardHandle w.createEntity).effects
      (discardHandle w.createEntity).state := by
  have inductiveOn := stable_inductiveOn registry
  have stable' := createEntity_realizes.keeps inductiveOn w stable issuesDead
  have contentsEq := createEntity_contents stable.consistent (w := w)
  have silent : ∀ effect ∈ (discardHandle w.createEntity).effects,
      effect.IsSilent := by
    unfold discardHandle createEntity
    dsimp only
    split
    · exact fun _ member => absurd member List.not_mem_nil
    · intro effect member
      rw [List.mem_singleton.mp member]
      trivial
  have issued : w.createEntity.2 ≠ Entity.null →
      w.isAlive w.createEntity.2 = false := by
    intro real
    apply issuesDead (.issued w.createEntity.2 w)
    unfold discardHandle
    unfold createEntity at real ⊢
    dsimp only at real ⊢
    split
    · rename_i isNull
      rw [if_pos isNull] at real
      exact absurd isNull real
    · exact List.mem_singleton_self _
  refine .quiet (fun x => ?_) silent
  by_cases isNull : w.createEntity.2 = Entity.null
  · have same := contentsEq issued
    rw [if_pos isNull] at same
    exact types_eq_of_contents stable.consistent stable'.consistent fun t => by
      rw [discardHandle, same]
  · have spawned := contentsEq issued
    rw [if_neg isNull] at spawned
    exact types_spawn stable.consistent stable'.consistent (issued isNull)
      spawned x

theorem createEntityPooled_reports
    (stable : w.Stable registry)
    (issuesDead : Traced.Accepted Effect.IssuesDead
      (discardHandle w.createEntityPooled)) :
    Reports w (discardHandle w.createEntityPooled).effects
      (discardHandle w.createEntityPooled).state := by
  have inductiveOn := stable_inductiveOn registry
  have stable' := (createEntityPooled_realizes inductiveOn).keeps inductiveOn w
    stable issuesDead
  cases pooled : w.slots.poolSlots with
  | nil =>
      simp only [discardHandle, createEntityPooled, pooled] at issuesDead ⊢
      exact createEntity_reports stable issuesDead
  | cons e rest =>
      have real := stable.poolReal e (by rw [pooled]; exact List.mem_cons_self)
      simp only [discardHandle, createEntityPooled, pooled]
        at issuesDead stable' ⊢
      have dead : w.isAlive e = false :=
        issuesDead _ (List.mem_singleton_self _)
      have entered := enterEmpty_contents
        (w := w.setSlots { w.slots with poolSlots := rest }) stable.consistent
        real (lookup_eq_none_of_dead real dead)
      refine .quiet (types_spawn stable.consistent stable'.consistent dead ?_)
        fun effect member => ?_
      · exact (contents_congr (agrees_invalidateCache _ :
          Agrees registry _ _).store_eq).trans entered
      · rw [List.mem_singleton.mp member]
        trivial

/-- A creation never issues an id when it is given one. -/
theorem createEntityPreassigned_issuesDead (w : World) (id : UInt64) :
    Traced.Accepted Effect.IssuesDead (w.createEntityPreassigned id) := by
  unfold createEntityPreassigned
  dsimp only
  split
  · exact Traced.accepted_pure _ _
  · split
    · exact Traced.accepted_pure _ _
    · split
      · exact Traced.accepted_pure _ _
      · intro effect member
        rw [List.mem_singleton.mp member]
        trivial

theorem createEntityPreassigned_reports
    (stable : w.Stable registry) (id : UInt64) :
    Reports w (w.createEntityPreassigned id).effects
      (w.createEntityPreassigned id).state := by
  have stable' := (createEntityPreassigned_realizes id).keeps
    (stable_inductiveOn registry) w stable
    (createEntityPreassigned_issuesDead w id)
  unfold createEntityPreassigned at stable' ⊢
  dsimp only at stable' ⊢
  by_cases last : (⟨id⟩ : Entity).slot = 2 ^ 32 - 1
  · rw [if_pos last]
    exact .refl w
  rw [if_neg last] at stable' ⊢
  by_cases far : (⟨id⟩ : Entity).slot ≥ maxPreassignedSlot
  · rw [if_pos far]
    exact .refl w
  rw [if_neg far] at stable' ⊢
  cases storeAlive : w.store.isAlive ⟨id⟩ with
  | true =>
      have grownAlive : (w.setSlots (w.slots.growTo
          ((⟨id⟩ : Entity).slot + 1))).store.isAlive ⟨id⟩ = true := storeAlive
      rw [if_pos grownAlive]
      exact .quiet (types_of_store_eq rfl)
        fun _ member => absurd member List.not_mem_nil
  | false =>
      have grownDead : ¬(w.setSlots (w.slots.growTo
          ((⟨id⟩ : Entity).slot + 1))).store.isAlive ⟨id⟩ = true :=
        Bool.eq_false_iff.mp storeAlive
      rw [if_neg grownDead] at stable' ⊢
      have real : (⟨id⟩ : Entity) ≠ Entity.null := by
        intro isNull
        rw [isNull] at last
        exact last null_slot
      have dead : w.isAlive ⟨id⟩ = false := by
        rw [isAlive, storeAlive]
        exact Bool.and_false _
      have entered := enterEmpty_contents
        (w := w.setSlots (w.slots.adopt ⟨id⟩)) stable.consistent real
        (lookup_eq_none_of_dead real dead)
      refine .quiet (types_spawn stable.consistent stable'.consistent dead ?_)
        fun effect member => ?_
      · exact (contents_congr (agrees_invalidateCache _ :
          Agrees registry _ _).store_eq).trans entered
      · rw [List.mem_singleton.mp member]
        trivial

/-- An entity that leaves loses all its components. -/
theorem leave_reported
    (consistent : w.store.Consistent registry) {loc : EntityLocation}
    (location : w.store.entityLocations.lookup e = some loc)
    (slots : EntitySlots) :
    Reported e w (w.leave e loc slots).effects (w.leave e loc slots).state := by
  have consistent' := ArchetypeStore.detach_consistent consistent location
  have killed := detach_contents consistent location slots
  have gone : ((w.setStore (w.store.detach e loc)).setSlots
      slots).getEntityComponentTypes e = [] := by
    rw [List.eq_nil_iff_forall_not_mem]
    intro t member
    have represents := represents_contents
      (w := (w.setStore (w.store.detach e loc)).setSlots slots) consistent'
    rw [represents.mem_types, killed, Contents.kill_self] at member
    exact absurd member (by simp)
  have sameStore : ∀ x, (w.leave e loc slots).state.getEntityComponentTypes x =
      ((w.setStore (w.store.detach e loc)).setSlots
        slots).getEntityComponentTypes x :=
    types_of_store_eq (agrees_invalidateCache _ : Agrees registry _ _).store_eq
  constructor
  · intro x other
    rw [sameStore]
    apply types_eq_of_contents consistent consistent'
    intro t
    rw [killed, Contents.kill_of_ne _ other]
  · intro effect member
    obtain ⟨t, _, rfl⟩ := List.mem_map.mp member
    rw [sameStore, gone]
    exact ⟨rfl, List.not_mem_nil, gone⟩
  · intro t member
    rw [sameStore, gone] at member
    exact absurd member List.not_mem_nil
  · intro t member _
    exact ⟨"", _, List.mem_map_of_mem ((mem_types_iff consistent location).mp
      member)⟩

/-- A destruction reports the components that go. -/
theorem destroyEntity_reports
    (consistent : w.store.Consistent registry) (e : Entity) :
    Reports w (w.destroyEntity e).effects (w.destroyEntity e).state := by
  unfold destroyEntity
  cases location : w.store.entityLocations.lookup e with
  | none => exact .refl w
  | some loc =>
      dsimp only
      split
      · exact .refl w
      · exact (leave_reported consistent location _).reports

theorem destroyEntityPooled_reports
    (consistent : w.store.Consistent registry) (e : Entity) :
    Reports w (w.destroyEntityPooled e).effects
      (w.destroyEntityPooled e).state := by
  unfold destroyEntityPooled
  cases location : w.store.entityLocations.lookup e with
  | none => exact .refl w
  | some loc =>
      dsimp only
      split
      · exact .refl w
      · exact (leave_reported consistent location _).reports

/-- A change of the components of one entity shows in its types only. -/
theorem types_adjust_of_ne
    (consistent : w.store.Consistent registry)
    (consistent' : w'.store.Consistent registry)
    {change : Components → Components}
    (adjusted : w'.contents = w.contents.adjust e change) {x : Entity}
    (other : x ≠ e) :
    w'.getEntityComponentTypes x = w.getEntityComponentTypes x := by
  apply types_eq_of_contents consistent consistent'
  intro t
  rw [adjusted, Contents.adjust_of_ne _ _ other]

/-- The types after a component was put or taken away. -/
theorem mem_types_put_iff
    (consistent : w.store.Consistent registry)
    (consistent' : w'.store.Consistent registry)
    (alive : w.isAlive e = true) {bytes : Option (List UInt8)}
    (put : w'.contents = w.contents.put e t bytes) (u : ComponentTypeId) :
    u ∈ w'.getEntityComponentTypes e ↔
      if u = t then bytes.isSome = true
      else u ∈ w.getEntityComponentTypes e := by
  rw [(represents_contents consistent').mem_types,
    (represents_contents consistent).mem_types, put, Contents.put,
    Contents.adjust_self, contents_of_alive alive, Option.map_some,
    Option.bind_some, Option.bind_some]
  unfold Components.put
  split <;> rfl

/-- An addition to a live entity is a change of that entity. -/
theorem addRaw_reported
    (stable : w.Stable registry) (immediate : w.deferMoves = false)
    (outside : w.inIteration = false) {schema : ComponentSchema}
    (registered : registry.schemaOf t = some schema)
    (alive : w.isAlive e = true) (data : Option (List UInt8)) :
    Reported e w (w.addRaw registry e t data).effects
      (w.addRaw registry e t data).state := by
  have consistent := stable.consistent
  have stable' : (w.addRaw registry e t data).state.Stable registry :=
    stable.keeps (addRaw_realizes (stable_inductiveOn registry) e t data)
      (addRaw_createsNothing w e t data)
  have consistent' := stable'.consistent
  have contentsEq := addRaw_contents (e := e) (t := t) consistent immediate
    outside data
  rw [registered, if_pos Option.isSome_some] at contentsEq
  have mem := mem_types_put_iff consistent consistent' alive contentsEq
  obtain ⟨loc, location⟩ := location_of_isAlive alive
  have before := fun u => mem_types_iff (t := u) consistent location
  refine ⟨fun x other =>
    types_adjust_of_ne consistent consistent' contentsEq other, ?_, ?_, ?_⟩
  · by_cases present : t ∈ (w.store.deref loc.archetype).componentIds
    · intro effect member
      rw [addRaw_overwrites data alive registered location immediate present]
        at member mem ⊢
      rcases List.mem_cons.mp member with rfl | member
      · trivial
      · rw [List.mem_singleton.mp member]
        exact ⟨rfl, (mem t).mpr (by rw [if_pos rfl]; rfl)⟩
    · intro effect member
      rw [addRaw_moves data alive registered location immediate present
        outside] at member mem ⊢
      rcases List.mem_cons.mp member with rfl | member
      · trivial
      rcases List.mem_cons.mp member with rfl | member
      · trivial
      · rw [List.mem_singleton.mp member]
        exact ⟨rfl, (mem t).mpr (by rw [if_pos rfl]; rfl)⟩
  · intro u member fresh
    rw [mem u] at member
    by_cases isNew : u = t
    · subst isNew
      rw [before] at fresh
      rw [addRaw_moves data alive registered location immediate fresh outside]
      exact ⟨"", _, List.mem_cons_of_mem _ (List.mem_cons_of_mem _
        (List.mem_singleton_self _))⟩
    · rw [if_neg isNew] at member
      exact absurd member fresh
  · intro u member gone
    rw [mem u] at gone
    by_cases isNew : u = t
    · rw [if_pos isNew] at gone
      exact absurd rfl gone
    · rw [if_neg isNew] at gone
      exact absurd member gone

/-- An addition is reported. -/
theorem addRaw_reports
    (stable : w.Stable registry) (immediate : w.deferMoves = false)
    (outside : w.inIteration = false) (e : Entity) (t : ComponentTypeId)
    (data : Option (List UInt8)) :
    Reports w (w.addRaw registry e t data).effects
      (w.addRaw registry e t data).state := by
  cases registered : registry.schemaOf t with
  | none =>
      rw [addRaw_unregistered data registered]
      exact .refl w
  | some schema =>
  cases alive : w.isAlive e with
  | false =>
      rw [addRaw_dead data alive]
      exact .refl w
  | true =>
      exact (addRaw_reported stable immediate outside registered alive
        data).reports

/-- A removal is reported. -/
theorem removeComponent_reports
    (stable : w.Stable registry) (immediate : w.deferMoves = false)
    (outside : w.inIteration = false) (e : Entity) (t : ComponentTypeId) :
    Reports w (w.removeComponent registry e t).effects
      (w.removeComponent registry e t).state := by
  have consistent := stable.consistent
  have stable' : (w.removeComponent registry e t).state.Stable registry :=
    stable.keeps (removeComponent_realizes (stable_inductiveOn registry) e t)
      (removeComponent_createsNothing w e t)
  have consistent' := stable'.consistent
  have contentsEq := removeComponent_contents (e := e) (t := t) consistent
    immediate outside
  cases alive : w.isAlive e with
  | false =>
      rw [removeComponent_dead alive]
      exact .refl w
  | true =>
  have mem := mem_types_put_iff consistent consistent' alive contentsEq
  obtain ⟨loc, location⟩ := location_of_isAlive alive
  by_cases present : t ∈ (w.store.deref loc.archetype).componentIds
  swap
  · rw [removeComponent_absent location immediate present]
    exact .refl w
  refine Reported.reports (e := e) ⟨fun x other =>
    types_adjust_of_ne consistent consistent' contentsEq other, ?_, ?_, ?_⟩
  · intro effect member
    have moves : w.removeComponent registry e t = _ :=
      removeComponent_moves alive location immediate present outside
    rw [moves] at member
    rcases List.mem_cons.mp member with rfl | member
    · trivial
    · rw [List.mem_singleton.mp member]
      refine ⟨rfl, fun inTypes => ?_, ?_⟩
      · rw [mem t, if_pos rfl] at inTypes
        exact absurd inTypes (by simp)
      · rw [moves]
        exact (types_of_store_eq (agrees_invalidateCache _ :
          Agrees registry _ _).store_eq e).symm
  · intro u member fresh
    rw [mem u] at member
    split at member
    · exact absurd member (by simp)
    · exact absurd member fresh
  · intro u member gone
    rw [mem u] at gone
    split at gone
    · rename_i isGone
      rw [isGone, removeComponent_moves alive location immediate present
        outside]
      exact ⟨"", _, List.mem_cons_of_mem _ (List.mem_singleton_self _)⟩
    · exact absurd member gone

/-- Marking reports what it marks. -/
theorem markChanged_reports
    (stable : w.Stable registry) (e : Entity) (t : ComponentTypeId)
    (field : String) :
    Reports w (w.markChanged e t field).effects
      (w.markChanged e t field).state := by
  have consistent := stable.consistent
  have stable' : (w.markChanged e t field).state.Stable registry :=
    stable.keeps (markChanged_realizes e t field)
      (markChanged_createsNothing w e t field)
  have same : ∀ x, (w.markChanged e t field).state.getEntityComponentTypes x =
      w.getEntityComponentTypes x := fun x =>
    types_eq_of_contents consistent stable'.consistent fun u => by
      rw [markChanged_contents consistent]
  refine Reported.reports (e := e) ⟨fun x _ => same x, ?_,
    fun u member fresh => absurd (same e ▸ member) fresh,
    fun u member gone => absurd ((same e).symm ▸ member) gone⟩
  rw [same]
  unfold markChanged
  split
  · exact fun _ member => absurd member List.not_mem_nil
  · cases location : w.store.entityLocations.lookup e with
    | none => exact fun _ member => absurd member List.not_mem_nil
    | some loc =>
        dsimp only
        split
        · exact fun _ member => absurd member List.not_mem_nil
        · rename_i present
          intro effect member
          rcases List.mem_cons.mp member with rfl | member
          · trivial
          · rw [List.mem_singleton.mp member]
            refine ⟨rfl, (mem_types_iff consistent location).mpr ?_⟩
            exact Archetype.hasComponent_iff.mp (by simpa using present)

theorem setField_reports
    (stable : w.Stable registry) (e : Entity) (t : ComponentTypeId)
    (name : String) (value : List UInt8) :
    Reports w (w.setField registry e t name value).effects
      (w.setField registry e t name value).state := by
  unfold setField
  split
  · rename_i fd raw _ found
    have sized : (overlay raw fd.offset
        (value.take fd.storageSize)).length = registry.sizeOf t := by
      rw [length_overlay]
      exact getRaw_length stable.consistent found
    have alive : w.isAlive e = true := by
      have represents := represents_contents stable.consistent
      rw [represents.getRaw] at found
      rw [← contents_isSome]
      cases here : w.contents e with
      | none =>
          rw [here] at found
          exact absurd found (by simp)
      | some components => rfl
    have stable' : (w.writeRaw e t (overlay raw fd.offset
        (value.take fd.storageSize))).Stable registry :=
      stable.keeps (writeRaw_realizes e t sized) (Traced.accepted_pure _ _)
    have written := writeRaw_contents stable.consistent found alive
      (overlay raw fd.offset (value.take fd.storageSize))
    have same : ∀ x, (w.writeRaw e t (overlay raw fd.offset
        (value.take fd.storageSize))).getEntityComponentTypes x =
        w.getEntityComponentTypes x := by
      intro x
      apply types_eq_of_contents stable.consistent stable'.consistent
      intro u
      rw [written]
      by_cases isSelf : x = e
      · rw [isSelf, Contents.put, Contents.adjust_self,
          contents_of_alive alive, Option.map_some, Option.bind_some,
          Option.bind_some]
        unfold Components.put
        split <;> rename_i here
        · rw [here, bytesAt_eq_getRaw stable.consistent, found]
          rfl
        · rfl
      · rw [Contents.put, Contents.adjust_of_ne _ _ isSelf]
    exact (Reports.quiet same fun _ member =>
      absurd member List.not_mem_nil).trans
        (markChanged_reports stable' e t name)
  · exact .refl w

/-! ## Flushes -/

/-- The events of a flush tell what became of an entity's components. -/
theorem commitEvents_reported
    {original finalIds : List ComponentTypeId} {silent : List Effect}
    {last : AList fun _ : ComponentTypeId => Option (List UInt8)}
    {seen : World}
    (others : ∀ x, x ≠ e →
      w'.getEntityComponentTypes x = w.getEntityComponentTypes x)
    (before : ∀ t, t ∈ w.getEntityComponentTypes e ↔ t ∈ original)
    (after : ∀ t, t ∈ w'.getEntityComponentTypes e ↔ t ∈ finalIds)
    (seenAfter : seen.getEntityComponentTypes e = w'.getEntityComponentTypes e)
    (noEvents : ∀ effect ∈ silent, effect.IsSilent) :
    Reported e w (silent ++ commitEvents e original finalIds last seen) w' := by
  refine ⟨others, fun effect member => ?_, fun t member fresh => ?_,
    fun t member gone => ?_⟩
  · obtain member | member := List.mem_append.mp member
    · exact (noEvents effect member).isAbout _ _
    · obtain member | member := List.mem_append.mp member
      · obtain ⟨t, inFinal, event⟩ := List.mem_filterMap.mp member
        split at event
        · rw [← Option.some.inj event]
          exact ⟨rfl, (after t).mpr inFinal⟩
        · split at event
          · rw [← Option.some.inj event]
            exact ⟨rfl, (after t).mpr inFinal⟩
          · exact absurd event (by simp)
      · obtain ⟨t, _, event⟩ := List.mem_filterMap.mp member
        split at event
        · rename_i gone
          rw [← Option.some.inj event]
          exact ⟨rfl, mt (after t).mp gone, seenAfter⟩
        · exact absurd event (by simp)
  · refine ⟨"", seen, List.mem_append_right _ (List.mem_append_left _
      (List.mem_filterMap.mpr ⟨t, (after t).mp member, ?_⟩))⟩
    exact if_pos (mt (before t).mpr fresh)
  · refine ⟨"", seen, List.mem_append_right _ (List.mem_append_right _
      (List.mem_filterMap.mpr ⟨t, (before t).mp member, ?_⟩))⟩
    exact if_pos (mt (after t).mpr gone)

/-- Writes in a commit are not reported yet. -/
theorem commitWrites_silent
    (e : Entity) (loc : EntityLocation)
    (last : AList fun _ : ComponentTypeId => Option (List UInt8))
    (ts : List ComponentTypeId) (w : World) :
    ∀ effect ∈ (Traced.forEach (commitWrite registry e loc last) w ts).effects,
      effect.IsSilent := by
  induction ts generalizing w with
  | nil => exact fun _ member => absurd member List.not_mem_nil
  | cons t ts inductionHypothesis =>
      intro effect member
      rw [Traced.forEach_cons, Traced.andThen_effects] at member
      obtain member | member := List.mem_append.mp member
      · unfold commitWrite at member
        split at member
        · exact absurd member List.not_mem_nil
        · rw [List.mem_singleton.mp member]
          trivial
      · exact inductionHypothesis _ effect member

/-- A commit keeps the world stable. -/
theorem commitDeferredMove_stable
    (stable : w.Stable registry) (e : Entity) :
    (w.commitDeferredMove registry e).state.Stable registry :=
  stable.keeps (commitDeferredMove_realizes (stable_inductiveOn registry) e)
    (commitDeferredMove_createsNothing w e)

/-- A committed entity has the final component set. -/
theorem commitDeferredMove_types
    (stable : w.Stable registry) {loc : EntityLocation}
    (location : w.store.entityLocations.lookup e = some loc)
    {ops : List PendingComponentOp} (queued : w.pendingOps.lookup e = some ops)
    (t : ComponentTypeId) :
    t ∈ (w.commitDeferredMove registry e).state.getEntityComponentTypes e ↔
      t ∈ sortIds (finalSet (w.store.deref loc.archetype).componentIds ops) := by
  have consistent := stable.consistent
  have stable' := commitDeferredMove_stable stable e
  have contentsEq := commitDeferredMove_contents consistent stable.pendingSound e
  have alive := isAlive_of_location consistent location
  rw [(represents_contents stable'.consistent).mem_types, contentsEq,
    Contents.adjust_self, contents_of_alive alive, Option.map_some,
    Option.bind_some, queued, Option.getD_some,
    Components.executeAll_eq_net registry (bytesAt_isSome_iff location),
    mem_sortIds]
  split <;> rename_i member
  · refine iff_of_true ?_ member
    unfold Components.netBytes
    cases found : (lastAddData ops).lookup t with
    | some data => rfl
    | none =>
        exact (bytesAt_isSome_iff location t).mpr
          (mem_finalSet_of_lastAddData_none member found)
  · exact iff_of_false (by simp) member

/-- A commit reports what it did. -/
theorem commitDeferredMove_reports
    (stable : w.Stable registry) (e : Entity) :
    Reports w (w.commitDeferredMove registry e).effects
      (w.commitDeferredMove registry e).state := by
  have consistent := stable.consistent
  have stable' := commitDeferredMove_stable stable e
  have contentsEq := commitDeferredMove_contents consistent stable.pendingSound e
  cases location : w.store.entityLocations.lookup e with
  | none =>
      unfold commitDeferredMove
      rw [location]
      exact .refl w
  | some loc =>
  cases queued : w.pendingOps.lookup e with
  | none =>
      unfold commitDeferredMove
      rw [location, queued]
      exact .refl w
  | some ops =>
  have after := commitDeferredMove_types stable location queued
  have before := fun t => mem_types_iff (t := t) consistent location
  have others : ∀ x, x ≠ e → (w.commitDeferredMove registry
      e).state.getEntityComponentTypes x = w.getEntityComponentTypes x :=
    fun x other => types_adjust_of_ne consistent stable'.consistent contentsEq
      other
  unfold commitDeferredMove at after others ⊢
  rw [location, queued] at after others ⊢
  dsimp only at after others ⊢
  by_cases structural :
      sortIds (finalSet (w.store.deref loc.archetype).componentIds ops) ≠
        (w.store.deref loc.archetype).componentIds
  · rw [if_pos structural] at after others ⊢
    refine (commitEvents_reported others before after ?_ ?_).reports
    · exact (types_of_store_eq (agrees_invalidateCache _ :
        Agrees registry _ _).store_eq e).symm
    · intro effect member
      obtain rfl | member := List.mem_cons.mp member
      · trivial
      · exact commitWrites_silent e _ _ _ _ effect member
  · rw [if_neg structural] at after others ⊢
    exact (commitEvents_reported others before after rfl
      (commitWrites_silent e loc _ _ w)).reports

/-- A command inside a deferred window changes no component set. -/
theorem executeCommand_deferred_reports
    (stable : w.Stable registry) (deferred : w.deferMoves = true)
    (command : Command) :
    Reports w (w.executeCommand registry command).effects
      (w.executeCommand registry command).state := by
  have noEvents : ∀ effect ∈ ([] : List Effect), effect.IsSilent :=
    fun _ member => absurd member List.not_mem_nil
  have deferOp_reports : ∀ e op, Reports w [] (w.deferOp e op) := by
    intro e op
    refine .quiet (types_of_store_eq ?_) noEvents
    unfold deferOp queueDeferredMove
    split <;> rfl
  cases command with
  | addComponent e t data =>
      dsimp only [executeCommand]
      unfold addRaw
      rw [deferred]
      split
      · exact .refl w
      · split
        · exact deferOp_reports e _
        · exact .refl w
  | removeComponent e t =>
      dsimp only [executeCommand]
      unfold removeComponent
      rw [deferred]
      split
      · exact .refl w
      · exact deferOp_reports e _
  | addEntity e =>
      dsimp only [executeCommand]
      split
      · exact createEntityPreassigned_reports stable e.id
      · exact .refl w
  | removeEntity e =>
      dsimp only [executeCommand]
      unfold destroyEntityDeferred
      rw [deferred, if_pos rfl]
      split
      · refine .quiet (types_of_store_eq ?_) noEvents
        unfold queueDeferredMove
        split <;> rfl
      · exact .refl w
  | custom id data =>
      dsimp only [executeCommand]
      unfold runCustomCommand
      split
      · refine .quiet (fun _ => rfl) fun effect member => ?_
        rw [List.mem_singleton.mp member]
        trivial
      · exact .refl w

/-- A command hands out no live id. -/
theorem executeCommand_issuesDead (w : World) (command : Command) :
    Traced.Accepted Effect.IssuesDead (w.executeCommand registry command) := by
  have creates : CreatesNothing (w.executeCommand registry command) →
      Traced.Accepted Effect.IssuesDead (w.executeCommand registry command) :=
    fun accepted => accepted.imp fun _ notCreation => notCreation.issuesDead
  cases command with
  | addComponent e t data => exact creates (addRaw_createsNothing w e t _)
  | removeComponent e t => exact creates (removeComponent_createsNothing w e t)
  | addEntity e =>
      dsimp only [executeCommand]
      split
      · exact createEntityPreassigned_issuesDead w e.id
      · exact Traced.accepted_pure _ _
  | removeEntity e =>
      apply creates
      dsimp only [executeCommand]
      unfold destroyEntityDeferred
      split
      · split <;> exact Traced.accepted_pure _ _
      · exact destroyEntity_createsNothing w e
  | custom id data =>
      apply creates
      dsimp only [executeCommand]
      unfold runCustomCommand
      split
      · simp [Traced.Accepted, Effect.NotCreation]
      · exact Traced.accepted_pure _ _

/-- Commands in a window report nothing. -/
theorem executeCommands_reports
    (stable : w.Stable registry) (deferred : w.deferMoves = true)
    (ops : List Command) :
    Reports w (Traced.forEach (executeCommand registry) w ops).effects
        (Traced.forEach (executeCommand registry) w ops).state ∧
      (Traced.forEach (executeCommand registry) w ops).state.Stable registry ∧
      (Traced.forEach (executeCommand registry) w ops).state.deferMoves =
        true := by
  refine Reports.forEach
    (fun v => v.Stable registry ∧ v.deferMoves = true)
    (fun command _ v holds => ?_) ⟨stable, deferred⟩
  obtain ⟨stable, deferred⟩ := holds
  exact ⟨executeCommand_deferred_reports stable deferred command,
    (executeCommand_realizes (stable_inductiveOn registry) command).keeps
      (stable_inductiveOn registry) v stable
      (executeCommand_issuesDead v command),
    (executeCommand_depth registry deferred command).2⟩

/-- The destructions at the end of a window are reported. -/
theorem flushDestroys_reports
    (stable : w.Stable registry) (entities : List Entity) :
    Reports w (Traced.forEach flushDestroy w entities).effects
        (Traced.forEach flushDestroy w entities).state ∧
      (Traced.forEach flushDestroy w entities).state.Stable registry := by
  refine Reports.forEach (fun v => v.Stable registry)
    (fun e _ v stable => ⟨?_, flushDestroy_stable stable e⟩) stable
  unfold flushDestroy
  split
  · exact destroyEntity_reports stable.consistent e
  · exact .refl v

/-- So are the moves. -/
theorem flushMoves_reports
    (stable : w.Stable registry) (entities : List Entity) :
    Reports w (Traced.forEach (flushMove registry) w entities).effects
      (Traced.forEach (flushMove registry) w entities).state := by
  refine (Reports.forEach (fun v => v.Stable registry)
    (fun e _ v stable => ⟨?_, flushMove_stable stable e⟩) stable).1
  unfold flushMove
  split
  · exact .refl v
  · exact commitDeferredMove_reports stable e

/-- The same component sets and no event. -/
theorem Reports.ofStoreEq (same : w'.store = w.store) : Reports w [] w' :=
  .quiet (types_of_store_eq same) fun _ member => absurd member List.not_mem_nil

theorem Reports.ofContentsEq
    (consistent : w.store.Consistent registry)
    (consistent' : w'.store.Consistent registry)
    (same : w'.contents = w.contents) : Reports w [] w' :=
  .quiet (fun _ => types_eq_of_contents consistent consistent' fun _ => by
    rw [same]) fun _ member => absurd member List.not_mem_nil

/-- The end of a window reports what it did. -/
theorem endDeferredMoves_reports (stable : w.Stable registry) :
    Reports w (w.endDeferredMoves registry).effects
      (w.endDeferredMoves registry).state := by
  unfold endDeferredMoves
  split
  · exact .refl w
  · have closed : Reports w [] { w with deferMoves := false } := .ofStoreEq rfl
    have closedStable : Stable registry { w with deferMoves := false } :=
      ⟨stable.consistent, stable.pendingSound, stable.poolReal⟩
    obtain ⟨destroyed, stable'⟩ := flushDestroys_reports closedStable
      w.deferredEntities
    have moved := flushMoves_reports stable' w.deferredEntities
    have finished : ∀ v : World,
        Reports v [] v.clearPending.releaseInvalidation := fun v =>
      .ofStoreEq (((agrees_clearPending v).trans
        (agrees_releaseInvalidation _) : Agrees registry _ _).store_eq)
    have whole := ((closed.trans destroyed).trans moved).trans (finished _)
    rwa [List.nil_append, List.append_nil] at whole

/-- A buffer reports what its commands did. -/
theorem executeBuffer_reports
    (stable : w.Stable registry) (ops : List Command) :
    Reports w (w.executeBuffer registry ops).effects
      (w.executeBuffer registry ops).state := by
  unfold executeBuffer
  split
  · exact .refl w
  · split
    · exact .refl w
    · have opened : Reports w [] w.beginSuppress.beginDeferredMoves :=
        .ofStoreEq rfl
      have openedStable : w.beginSuppress.beginDeferredMoves.Stable registry :=
        ⟨stable.consistent, stable.pendingSound, stable.poolReal⟩
      obtain ⟨executed, stable', _⟩ := executeCommands_reports openedStable rfl
        ops
      have flushed := endDeferredMoves_reports stable'
      have closed : ∀ v : World, Reports v [] v.endSuppress := fun v =>
        .ofStoreEq (agrees_endSuppress v : Agrees registry _ _).store_eq
      have whole := ((opened.trans executed).trans flushed).trans (closed _)
      rwa [List.nil_append, List.append_nil] at whole

end World

namespace WorldOp

variable {registry : ComponentRegistry} {w : World}

/-- The operation is not `clear`, which names no entity. -/
def ClearsNothing : WorldOp → Prop
  | clear => False
  | _ => True

/-- Every operation but `clear` reports all its changes. -/
theorem apply_reports
    (stable : w.Stable registry) (idle : w.Idle) {op : WorldOp}
    (clearsNothing : op.ClearsNothing)
    (issuesDead : Traced.Accepted Effect.IssuesDead (op.apply registry w)) :
    World.Reports w (op.apply registry w).effects
      (op.apply registry w).state := by
  cases op with
  | createEntity => exact World.createEntity_reports stable issuesDead
  | createEntityPreassigned id =>
      exact World.createEntityPreassigned_reports stable id
  | createEntityPooled => exact World.createEntityPooled_reports stable issuesDead
  | destroyEntity e => exact World.destroyEntity_reports stable.consistent e
  | destroyEntityPooled e =>
      exact World.destroyEntityPooled_reports stable.consistent e
  | setEntityRange baseIndex => exact .ofStoreEq rfl
  | addRaw e t data =>
      exact World.addRaw_reports stable idle.immediate idle.outside e t data
  | removeComponent e t =>
      exact World.removeComponent_reports stable idle.immediate idle.outside e t
  | markChanged e t field => exact World.markChanged_reports stable e t field
  | setField e t name value => exact World.setField_reports stable e t name value
  | executeBuffer ops => exact World.executeBuffer_reports stable ops
  | compact =>
      exact World.Reports.ofContentsEq stable.consistent
        (ArchetypeStore.compact_consistent stable.consistent)
        (World.compact_contents w)
  | clear => exact clearsNothing.elim
  | rehash order =>
      exact World.Reports.ofContentsEq stable.consistent
        (ArchetypeStore.rehash_consistent stable.consistent order)
        (World.rehash_contents w order)

end WorldOp
end VortarisECS
