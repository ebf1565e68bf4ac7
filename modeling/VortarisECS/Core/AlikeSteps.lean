import VortarisECS.Core.Alike

/-!
# Operations on alike worlds

Each operation takes alike worlds to alike worlds with alike events, also when
the bytes it is given differ.
-/

namespace VortarisECS

variable {registry : ComponentRegistry}

namespace World

variable {w v : World} {e : Entity} {t : ComponentTypeId}

/-- An event, dispatched from alike worlds. -/
theorem Alike.dispatched
    (alike : w.Alike v) (type : ObserverEventType) (e : Entity)
    (t : ComponentTypeId) (name : String) :
    Effect.Alike (.dispatched type e t name w) (.dispatched type e t name v) :=
  ⟨⟨rfl, rfl, rfl, rfl⟩, alike⟩

/-! ## Entities -/

/-- An entity enters alike worlds alike. -/
theorem Alike.enterEmpty (alike : w.Alike v) (e : Entity) :
    (w.enterEmpty e).invalidateCache.Alike (v.enterEmpty e).invalidateCache := by
  have empties := (ArchetypeStore.shape_eq_iff.mp alike.store).2.2.2.1
  have entered : (w.enterEmpty e).Alike (v.enterEmpty e) := by
    refine alike.setStore ?_
    rw [ArchetypeStore.shape_addTo _ _ _ _ 0, ArchetypeStore.shape_addTo v.store
      _ _ _ 0, alike.store, empties]
  exact (alike_invalidateCache _).symm.trans
    (entered.trans (alike_invalidateCache _))

/-- Alike worlds hand out the same new id. -/
theorem createEntity_alike (alike : w.Alike v) :
    StepAlike w.createEntity.1 v.createEntity.1 := by
  unfold createEntity
  rw [alike.slots]
  dsimp only
  split
  · exact .pure (alike.setSlots rfl)
  · exact ⟨(alike.setSlots rfl).enterEmpty _, .cons rfl .nil⟩

/-- Alike worlds accept the same ids. -/
theorem createEntityPreassigned_alike (alike : w.Alike v) (id : UInt64) :
    StepAlike (w.createEntityPreassigned id) (v.createEntityPreassigned id) := by
  unfold createEntityPreassigned
  dsimp only
  split
  · exact .pure alike
  · split
    · exact .pure alike
    · have grown : (w.setSlots (w.slots.growTo ((⟨id⟩ : Entity).slot + 1))).Alike
          (v.setSlots (v.slots.growTo ((⟨id⟩ : Entity).slot + 1))) :=
        alike.setSlots (by rw [alike.slots])
      have aliveSame : (w.setSlots (w.slots.growTo
            ((⟨id⟩ : Entity).slot + 1))).store.isAlive ⟨id⟩ =
          (v.setSlots (v.slots.growTo
            ((⟨id⟩ : Entity).slot + 1))).store.isAlive ⟨id⟩ := by
        unfold ArchetypeStore.isAlive
        rw [grown.locations]
      rw [aliveSame]
      split
      · exact .pure grown
      · exact ⟨(alike.setSlots (by rw [alike.slots])).enterEmpty _,
          .cons rfl .nil⟩

/-- Alike worlds take the same id from their pools. -/
theorem createEntityPooled_alike (alike : w.Alike v) :
    StepAlike w.createEntityPooled.1 v.createEntityPooled.1 := by
  unfold createEntityPooled
  rw [alike.slots]
  cases v.slots.poolSlots with
  | nil => exact createEntity_alike alike
  | cons e rest =>
      exact ⟨(alike.setSlots rfl).enterEmpty _, .cons rfl .nil⟩

/-- Observers hear of the same removals. -/
theorem removedEvents_alike
    (alike : w.Alike v) (e : Entity) (types : List ComponentTypeId) :
    List.Forall₂ Effect.Alike (removedEvents e types w)
      (removedEvents e types v) := by
  unfold removedEvents
  induction types with
  | nil => exact .nil
  | cons t types inductionHypothesis =>
      exact .cons (alike.dispatched _ _ _ _) inductionHypothesis

/-- An entity leaves alike worlds alike. -/
theorem leave_alike
    (alike : w.Alike v) (e : Entity) (loc : EntityLocation)
    {slots slots' : EntitySlots} (same : slots = slots') :
    StepAlike (w.leave e loc slots) (v.leave e loc slots') := by
  have gone : ((w.setStore (w.store.detach e loc)).setSlots slots).Alike
      ((v.setStore (v.store.detach e loc)).setSlots slots') := by
    refine (alike.setStore ?_).setSlots same
    rw [ArchetypeStore.shape_detach, ArchetypeStore.shape_detach, alike.store]
  unfold leave
  dsimp only
  rw [alike.componentIds]
  exact ⟨(alike_invalidateCache _).symm.trans
    (gone.trans (alike_invalidateCache _)), removedEvents_alike gone e _⟩

/-- Alike worlds destroy alike. -/
theorem destroyEntity_alike (alike : w.Alike v) (e : Entity) :
    StepAlike (w.destroyEntity e) (v.destroyEntity e) := by
  unfold destroyEntity
  rw [alike.locations, alike.inIteration]
  split
  · exact .pure alike
  · split
    · exact .pure alike
    · exact leave_alike alike e _ (by rw [alike.slots])

theorem destroyEntityPooled_alike (alike : w.Alike v) (e : Entity) :
    StepAlike (w.destroyEntityPooled e) (v.destroyEntityPooled e) := by
  unfold destroyEntityPooled
  rw [alike.locations, alike.inIteration]
  split
  · exact .pure alike
  · split
    · exact .pure alike
    · exact leave_alike alike e _ (by rw [alike.slots])

theorem Alike.setEntityRange (alike : w.Alike v) (baseIndex : UInt32) :
    (w.setEntityRange baseIndex).Alike (v.setEntityRange baseIndex) :=
  alike.setSlots (by rw [alike.slots])

/-! ## Components -/

theorem Alike.queueDeferredMove (alike : w.Alike v) (e : Entity) :
    (w.queueDeferredMove e).Alike (v.queueDeferredMove e) := by
  unfold World.queueDeferredMove
  rw [alike.deferredSet, alike.deferredEntities]
  split
  · exact alike
  · exact { alike with deferredEntities := rfl, deferredSet := rfl }

/-- Alike worlds have queued the same additions and removals. -/
theorem Alike.pending
    (alike : w.Alike v) (e : Entity) :
    ((w.pendingOps.lookup e).getD []).map (fun op => (op.type, op.add)) =
      ((v.pendingOps.lookup e).getD []).map fun op => (op.type, op.add) := by
  have types := alike.pendingTypes e
  unfold World.pendingTypes at types
  cases found : w.pendingOps.lookup e with
  | none =>
      rw [found, Option.map_none] at types
      rw [Option.map_eq_none_iff.mp types.symm]
  | some ops =>
      rw [found, Option.map_some] at types
      obtain ⟨ops', found', same⟩ := Option.map_eq_some_iff.mp types.symm
      rw [found']
      exact same.symm

/-- Operations that differ at most in their data are queued. -/
theorem Alike.deferOp
    (alike : w.Alike v) (e : Entity) {op op' : PendingComponentOp}
    (same : (op.type, op.add) = (op'.type, op'.add)) :
    (w.deferOp e op).Alike (v.deferOp e op') := by
  refine Alike.queueDeferredMove ?_ e
  refine { alike with pendingTypes := fun x => ?_ }
  unfold World.pendingTypes
  dsimp only
  by_cases isSelf : x = e
  · rw [isSelf, AList.lookup_insert, AList.lookup_insert, Option.map_some,
      Option.map_some, List.map_append, List.map_append, alike.pending,
      List.map_singleton, List.map_singleton, same]
  · rw [AList.lookup_insert_ne isSelf, AList.lookup_insert_ne isSelf]
    exact alike.pendingTypes x

variable (registry) in
/-- Alike worlds move an entity to the same place. -/
theorem Alike.moveToSet
    (alike : w.Alike v) (e : Entity) (loc : EntityLocation)
    (ids : List ComponentTypeId) :
    (w.moveToSet registry e loc ids).1.Alike (v.moveToSet registry e loc ids).1 ∧
      (w.moveToSet registry e loc ids).2 = (v.moveToSet registry e loc ids).2 := by
  obtain ⟨ensured, targets⟩ := ArchetypeStore.shape_ensureArchetype
    registry alike.store ids
  have moved := ArchetypeStore.shape_relocate_congr registry ensured
    e loc (v.store.ensureArchetype registry ids).2 w.changeTick v.changeTick
  unfold World.moveToSet
  dsimp only
  rw [targets]
  exact ⟨alike.setStore moved.1, by rw [moved.2]⟩

/-- Changes that only touch bytes, clocks and caches, made on both sides. -/
theorem Alike.both
    {w' v' : World} (alike : w.Alike v) (left : w.Alike w') (right : v.Alike v') :
    w'.Alike v' :=
  left.symm.trans (alike.trans right)

theorem Alike.invalidateCache (alike : w.Alike v) :
    w.invalidateCache.Alike v.invalidateCache :=
  alike.both (alike_invalidateCache w) (alike_invalidateCache v)

/-- Different bytes leave the worlds alike. -/
theorem Alike.writeComponent
    (alike : w.Alike v) (e : Entity) (loc : EntityLocation) (t : ComponentTypeId)
    (bytes bytes' : List UInt8) :
    (w.writeComponent e loc t bytes).Alike (v.writeComponent e loc t bytes') :=
  alike.both (alike_writeComponent w e loc t bytes)
    (alike_writeComponent v e loc t bytes')

variable (registry) in
/-- Whatever bytes the two worlds are given. -/
theorem addRaw_alike
    (alike : w.Alike v) (e : Entity) (t : ComponentTypeId)
    (data data' : Option (List UInt8)) :
    StepAlike (w.addRaw registry e t data) (v.addRaw registry e t data') := by
  unfold addRaw
  rw [alike.isAlive, alike.locations, alike.deferMoves, alike.inIteration]
  split
  · exact .pure alike
  · cases registry.schemaOf t with
    | none => exact .pure alike
    | some schema =>
        cases v.store.entityLocations.lookup e with
        | none => exact .pure alike
        | some loc =>
            dsimp only
            rw [alike.componentIds, alike.hasComponent]
            split
            · exact .pure (alike.deferOp e rfl)
            · split
              · have written := alike.writeComponent e loc t
                  (componentBytes schema.size data)
                  (componentBytes schema.size data')
                exact ⟨written, .cons ⟨rfl, rfl⟩
                  (.cons (written.dispatched _ _ _ _) .nil)⟩
              · split
                · exact .pure alike
                · obtain ⟨moved, hosts⟩ := alike.moveToSet registry
                    e loc (sortIds ((v.store.deref loc.archetype).componentIds ++
                      [t]))
                  rw [hosts]
                  have written := moved.writeComponent e
                    (v.moveToSet registry e loc (sortIds
                      ((v.store.deref loc.archetype).componentIds ++ [t]))).2 t
                    (componentBytes schema.size data)
                    (componentBytes schema.size data')
                  exact ⟨written.invalidateCache,
                    .cons rfl (.cons ⟨rfl, rfl⟩
                      (.cons (written.dispatched _ _ _ _) .nil))⟩

/-- Removals need no bytes. -/
theorem removeComponent_alike
    (alike : w.Alike v) (e : Entity) (t : ComponentTypeId) :
    StepAlike (w.removeComponent registry e t)
      (v.removeComponent registry e t) := by
  unfold removeComponent
  rw [alike.isAlive, alike.locations, alike.deferMoves, alike.inIteration]
  split
  · exact .pure alike
  · split
    · exact .pure (alike.deferOp e rfl)
    · cases v.store.entityLocations.lookup e with
      | none => exact .pure alike
      | some loc =>
          dsimp only
          rw [alike.componentIds, alike.hasComponent]
          split
          · exact .pure alike
          · split
            · exact .pure alike
            · have moved := (alike.moveToSet registry e loc
                ((v.store.deref loc.archetype).componentIds.erase t)).1
              exact ⟨moved.invalidateCache,
                .cons rfl (.cons (moved.dispatched _ _ _ _) .nil)⟩

/-- Marking tells the same observers. -/
theorem markChanged_alike
    (alike : w.Alike v) (e : Entity) (t : ComponentTypeId) (field : String) :
    StepAlike (w.markChanged e t field) (v.markChanged e t field) := by
  unfold markChanged
  rw [alike.isAlive, alike.locations]
  split
  · exact .pure alike
  · cases v.store.entityLocations.lookup e with
    | none => exact .pure alike
    | some loc =>
        dsimp only
        rw [alike.hasComponent]
        split
        · exact .pure alike
        · have logged := alike.both (alike_markRow w e loc t)
            (alike_markRow v e loc t)
          exact ⟨logged, .cons ⟨rfl, rfl⟩
            (.cons (logged.dispatched _ _ _ _) .nil)⟩

/-- Both worlds have a component, or neither has. -/
theorem Alike.getRaw_isSome
    (alike : w.Alike v) (e : Entity) (t : ComponentTypeId) :
    (w.getRaw e t).isSome = (v.getRaw e t).isSome := by
  unfold getRaw
  rw [alike.locations]
  cases v.store.entityLocations.lookup e with
  | none => rfl
  | some loc =>
      dsimp only
      rw [alike.hasComponent]
      split
      · rfl
      · rfl

/-- Different values written to a field are announced alike. -/
theorem setField_alike
    (alike : w.Alike v) (e : Entity) (t : ComponentTypeId) (name : String)
    (value value' : List UInt8) :
    StepAlike (w.setField registry e t name value)
      (v.setField registry e t name value') := by
  have same := alike.getRaw_isSome e t
  unfold setField
  cases (registry.schemaOf t).bind (·.findField name) with
  | none => exact .pure alike
  | some fd =>
      cases found : w.getRaw e t with
      | none =>
          rw [found, Option.isSome_none] at same
          rw [Option.isNone_iff_eq_none.mp (Option.isSome_eq_false_iff.mp same.symm)]
          exact .pure alike
      | some raw =>
          rw [found, Option.isSome_some] at same
          obtain ⟨raw', found'⟩ := Option.isSome_iff_exists.mp same.symm
          rw [found']
          exact markChanged_alike
            (alike.both (alike_writeRaw _ _ _ _) (alike_writeRaw _ _ _ _)) e t name

/-! ## Flushes -/

theorem destroyEntityDeferred_alike (alike : w.Alike v) (e : Entity) :
    StepAlike (w.destroyEntityDeferred e) (v.destroyEntityDeferred e) := by
  unfold destroyEntityDeferred
  rw [alike.deferMoves, alike.isAlive]
  split
  · split
    · refine .pure (Alike.queueDeferredMove ?_ e)
      exact { alike with
        deferMoves := rfl
        pendingDestroy := congrArg (List.insert e) alike.pendingDestroy }
    · exact .pure alike
  · exact destroyEntity_alike alike e

/-- Two queues that differ at most in their data. -/
def SameOps (ops ops' : List PendingComponentOp) : Prop :=
  ops.map (fun op => (op.type, op.add)) = ops'.map fun op => (op.type, op.add)

/-- The set of components at the end of a window does not depend on bytes. -/
theorem finalSet_same
    {ops ops' : List PendingComponentOp} (same : SameOps ops ops')
    (original : List ComponentTypeId) :
    finalSet original ops = finalSet original ops' := by
  have folded : ∀ ops : List PendingComponentOp, finalSet original ops =
      (ops.map fun op => (op.type, op.add)).foldl
        (fun set op => if op.2 then set.insert op.1 else set.filter (· ≠ op.1))
        original := fun ops => by rw [List.foldl_map]; rfl
  rw [folded, folded, same]

variable {last last' : AList fun _ : ComponentTypeId => Option (List UInt8)}

variable (registry) in
/-- A queued write is carried out alike. -/
theorem commitWrite_alike
    (sameKeys : ∀ t, (last.lookup t).isSome = (last'.lookup t).isSome)
    (alike : w.Alike v) (e : Entity) (loc : EntityLocation)
    (t : ComponentTypeId) :
    StepAlike (commitWrite registry e loc last w t)
      (commitWrite registry e loc last' v t) := by
  have same := sameKeys t
  unfold commitWrite
  cases found : last.lookup t with
  | none =>
      rw [found, Option.isSome_none] at same
      rw [Option.isNone_iff_eq_none.mp (Option.isSome_eq_false_iff.mp same.symm)]
      exact .pure alike
  | some data =>
      rw [found, Option.isSome_some] at same
      obtain ⟨data', found'⟩ := Option.isSome_iff_exists.mp same.symm
      rw [found']
      exact ⟨alike.writeComponent e loc t _ _, .cons ⟨rfl, rfl⟩ .nil⟩

/-- Events that come type by type are alike if each is. -/
theorem filterMap_alike
    {event event' : ComponentTypeId → Option Effect}
    (same : ∀ t, Option.Rel Effect.Alike (event t) (event' t))
    (types : List ComponentTypeId) :
    List.Forall₂ Effect.Alike (types.filterMap event)
      (types.filterMap event') := by
  induction types with
  | nil => exact .nil
  | cons t types inductionHypothesis =>
      have here := same t
      rw [List.filterMap_cons, List.filterMap_cons]
      generalize event t = first at here ⊢
      generalize event' t = first' at here ⊢
      cases here with
      | none => exact inductionHypothesis
      | some related => exact .cons related inductionHypothesis

/-- A commit announces the same additions, changes and removals. -/
theorem commitEvents_alike
    (sameKeys : ∀ t, (last.lookup t).isSome = (last'.lookup t).isSome)
    (alike : w.Alike v) (e : Entity) (original finalIds : List ComponentTypeId) :
    List.Forall₂ Effect.Alike (commitEvents e original finalIds last w)
      (commitEvents e original finalIds last' v) := by
  unfold commitEvents
  apply List.rel_append
  · refine filterMap_alike (fun t => ?_) finalIds
    rw [sameKeys]
    split
    · exact .some (alike.dispatched _ _ _ _)
    · split
      · exact .some (alike.dispatched _ _ _ _)
      · exact .none
  · refine filterMap_alike (fun t => ?_) original
    split
    · exact .some (alike.dispatched _ _ _ _)
    · exact .none

/-- An entity is committed alike. -/
theorem commitDeferredMove_alike (alike : w.Alike v) (e : Entity) :
    StepAlike (w.commitDeferredMove registry e)
      (v.commitDeferredMove registry e) := by
  have types := alike.pendingTypes e
  unfold World.pendingTypes at types
  unfold commitDeferredMove
  rw [alike.locations]
  cases v.store.entityLocations.lookup e with
  | none => exact .pure alike
  | some loc =>
      cases found : w.pendingOps.lookup e with
      | none =>
          rw [found, Option.map_none] at types
          rw [Option.map_eq_none_iff.mp types.symm]
          exact .pure alike
      | some ops =>
          rw [found, Option.map_some] at types
          obtain ⟨ops', found', same'⟩ := Option.map_eq_some_iff.mp types.symm
          have same : SameOps ops ops' := same'.symm
          have sameKeys : ∀ t, ((lastAddData ops).lookup t).isSome =
              ((lastAddData ops').lookup t).isSome := fun t => by
            rw [lastAddData_isSome, lastAddData_isSome, same]
          rw [found']
          dsimp only
          rw [alike.componentIds, finalSet_same same]
          generalize sortIds (finalSet _ ops') = finalIds
          generalize (v.store.deref loc.archetype).componentIds = original
          split
          · obtain ⟨moved, hosts⟩ := alike.moveToSet registry e loc
              finalIds
            rw [hosts]
            have written := StepAlike.forEachSame (fun t alike =>
              commitWrite_alike registry sameKeys alike e
                (v.moveToSet registry e loc finalIds).2 t) finalIds moved
            exact ⟨written.state.invalidateCache, .cons rfl (List.rel_append
              written.effects (commitEvents_alike sameKeys written.state e
                original finalIds))⟩
          · have written := StepAlike.forEachSame (fun t alike =>
              commitWrite_alike registry sameKeys alike e loc t)
              finalIds alike
            exact ⟨written.state, List.rel_append written.effects
              (commitEvents_alike sameKeys written.state e original finalIds)⟩

theorem flushDestroy_alike (alike : w.Alike v) (e : Entity) :
    StepAlike (w.flushDestroy e) (v.flushDestroy e) := by
  unfold flushDestroy
  rw [alike.pendingDestroy]
  split
  · exact destroyEntity_alike alike e
  · exact .pure alike

theorem flushMove_alike (alike : w.Alike v) (e : Entity) :
    StepAlike (w.flushMove registry e) (v.flushMove registry e) := by
  unfold flushMove
  rw [alike.pendingDestroy]
  split
  · exact .pure alike
  · exact commitDeferredMove_alike alike e

variable (registry) in
/-- The two loops of `end_deferred_moves`. -/
theorem flushEntities_alike (alike : w.Alike v) (entities : List Entity) :
    StepAlike
      ((Traced.forEach flushDestroy w entities).andThen fun w =>
        Traced.forEach (flushMove registry) w entities)
      ((Traced.forEach flushDestroy v entities).andThen fun v =>
        Traced.forEach (flushMove registry) v entities) :=
  (StepAlike.forEachSame (fun e alike => flushDestroy_alike alike e) entities
    alike).andThen fun alike =>
      StepAlike.forEachSame (fun e alike => flushMove_alike alike e) entities
        alike

theorem Alike.clearPending (alike : w.Alike v) :
    w.clearPending.Alike v.clearPending :=
  { alike with
    deferredEntities := rfl
    deferredSet := rfl
    pendingTypes := fun _ => rfl
    pendingDestroy := rfl }

/-- The windows of alike worlds end alike. -/
theorem endDeferredMoves_alike (alike : w.Alike v) :
    StepAlike (w.endDeferredMoves registry) (v.endDeferredMoves registry) := by
  unfold endDeferredMoves
  rw [alike.deferMoves, alike.deferredEntities]
  split
  · exact .pure alike
  · dsimp only
    have opened : World.Alike
        { w with deferMoves := false, deferredEntities := v.deferredEntities }
        { v with deferMoves := false } :=
      { alike with deferMoves := rfl, deferredEntities := rfl }
    have moved := flushEntities_alike registry opened
      v.deferredEntities
    exact moved.mapState (moved.state.clearPending.both
      (alike_releaseInvalidation _) (alike_releaseInvalidation _))

end World

/-! ## The command buffer -/

/-- Two commands that differ at most in their data. -/
def Command.Same : Command → Command → Prop
  | .addComponent e t _, .addComponent e' t' _ => e = e' ∧ t = t'
  | .custom id _, .custom id' _ => id = id'
  | command, command' => command = command'

namespace World

variable {w v : World}

/-- A command finds its entity in both worlds, or creates it in both. -/
theorem createOrKeep_alike (alike : w.Alike v) (e : Entity) :
    StepAlike (if !w.isAlive e then w.createEntityPreassigned e.id else .pure w)
      (if !v.isAlive e then v.createEntityPreassigned e.id else .pure v) := by
  rw [alike.isAlive]
  split
  · exact createEntityPreassigned_alike alike e.id
  · exact .pure alike

/-- The same command with other bytes. -/
theorem executeCommand_alike
    (alike : w.Alike v) {command command' : Command}
    (same : command.Same command') :
    StepAlike (executeCommand registry w command)
      (executeCommand registry v command') := by
  cases command with
  | addComponent e t data =>
      cases command' with
      | addComponent e' t' data' =>
          obtain ⟨rfl, rfl⟩ := same
          exact addRaw_alike registry alike e t _ _
      | _ => exact Command.noConfusion same
  | custom id data =>
      cases command' with
      | custom id' data' =>
          obtain rfl : id = id' := same
          change StepAlike (w.runCustomCommand id data)
            (v.runCustomCommand id data')
          unfold runCustomCommand
          rw [alike.customCommands]
          split
          · exact ⟨alike, .cons rfl .nil⟩
          · exact .pure alike
      | _ => exact Command.noConfusion same
  | removeComponent e t =>
      obtain rfl : _ = command' := by cases command' <;> exact same
      exact removeComponent_alike alike e t
  | addEntity e =>
      obtain rfl : _ = command' := by cases command' <;> exact same
      exact createOrKeep_alike alike e
  | removeEntity e =>
      obtain rfl : _ = command' := by cases command' <;> exact same
      exact destroyEntityDeferred_alike alike e

variable (registry) in
/-- Queues of the same commands with other bytes. -/
theorem executeCommands_alike
    (alike : w.Alike v) {ops ops' : List Command}
    (same : List.Forall₂ Command.Same ops ops') :
    StepAlike (Traced.forEach (executeCommand registry) w ops)
      (Traced.forEach (executeCommand registry) v ops') :=
  StepAlike.forEach Command.Same
    (fun alike same => executeCommand_alike alike same) same alike

theorem alike_endSuppress (w : World) : w.Alike w.endSuppress := by
  unfold endSuppress
  split
  · have closed : w.Alike { w with suppressDepth := w.suppressDepth - 1 } :=
      { Alike.refl w with }
    exact closed.trans (alike_releaseInvalidation _)
  · exact .refl w

/-- A buffer is executed alike. -/
theorem executeBuffer_alike
    (alike : w.Alike v) {ops ops' : List Command}
    (same : List.Forall₂ Command.Same ops ops') :
    StepAlike (w.executeBuffer registry ops) (v.executeBuffer registry ops') := by
  have empties : ops.isEmpty = ops'.isEmpty := by cases same <;> rfl
  unfold executeBuffer
  rw [empties, alike.inIteration]
  split
  · exact .pure alike
  · split
    · exact .pure alike
    · have opened : w.beginSuppress.beginDeferredMoves.Alike
          v.beginSuppress.beginDeferredMoves :=
        { alike with deferMoves := rfl }
      have executed := executeCommands_alike registry opened same
      have ended := executed.andThen (@endDeferredMoves_alike registry _ _)
      exact ended.mapState
        (ended.state.both (alike_endSuppress _) (alike_endSuppress _))

/-! ## Lifecycle -/

theorem clearEntity_alike (alike : w.Alike v) (e : Entity) :
    (w.clearEntity e).Alike (v.clearEntity e) := by
  unfold clearEntity
  rw [alike.locations]
  cases v.store.entityLocations.lookup e with
  | none => exact alike
  | some loc =>
      refine (alike.setStore ?_).setSlots (by rw [alike.slots])
      rw [ArchetypeStore.shape_detach, ArchetypeStore.shape_detach, alike.store]

theorem Alike.dropLog (alike : w.Alike v) :
    World.Alike
      { w with
        changeLog := []
        changeLogGeneration := w.changeLogGeneration + 1 }
      { v with
        changeLog := []
        changeLogGeneration := v.changeLogGeneration + 1 } :=
  { alike with }

/-- Alike worlds are cleared alike. -/
theorem clear_alike (alike : w.Alike v) : StepAlike w.clear v.clear := by
  have emptied : ∀ (entities : List Entity) {w v : World}, w.Alike v →
      (entities.foldl clearEntity w).Alike (entities.foldl clearEntity v) := by
    intro entities
    induction entities with
    | nil => exact fun alike => alike
    | cons e entities inductionHypothesis =>
        exact fun alike => inductionHypothesis (clearEntity_alike alike e)
  unfold clear
  rw [alike.inIteration, alike.locations]
  split
  · exact .pure alike
  · have cleared :=
      (emptied v.store.entityLocations.keys alike).invalidateCache
    have dropped := cleared.dropLog
    exact ⟨dropped, .cons (dropped.dispatched _ _ _ _) .nil⟩

theorem Alike.rehash (alike : w.Alike v) (order : List Entity) :
    (w.setStore (w.store.rehash order)).Alike
      (v.setStore (v.store.rehash order)) := by
  obtain ⟨heaps, directories, lists, empties, caches, locations⟩ :=
    ArchetypeStore.shape_eq_iff.mp alike.store
  refine alike.setStore (ArchetypeStore.shape_eq_iff.mpr
    ⟨heaps, directories, lists, empties, caches, ?_⟩)
  exact congrArg (·.rearrange order) locations

end World

/-! ## Operations -/

namespace WorldOp

/-- Two operations that differ at most in the bytes they are given. -/
def Same : WorldOp → WorldOp → Prop
  | addRaw e t _, addRaw e' t' _ => e = e' ∧ t = t'
  | setField e t name _, setField e' t' name' _ =>
      e = e' ∧ t = t' ∧ name = name'
  | executeBuffer ops, executeBuffer ops' => List.Forall₂ Command.Same ops ops'
  | op, op' => op = op'

variable (registry) in
/-- Every operation, with other bytes, keeps worlds alike. -/
theorem apply_alike
    {w v : World} (alike : w.Alike v) {op op' : WorldOp} (same : op.Same op') :
    StepAlike (op.apply registry w) (op'.apply registry v) := by
  have equal : op = op' → StepAlike (op.apply registry w)
      (op'.apply registry v) := by
    rintro rfl
    cases op with
    | createEntity => exact World.createEntity_alike alike
    | createEntityPreassigned id =>
        exact World.createEntityPreassigned_alike alike id
    | createEntityPooled => exact World.createEntityPooled_alike alike
    | destroyEntity e => exact World.destroyEntity_alike alike e
    | destroyEntityPooled e => exact World.destroyEntityPooled_alike alike e
    | setEntityRange baseIndex => exact .pure (alike.setEntityRange baseIndex)
    | addRaw e t data => exact World.addRaw_alike registry alike e t data data
    | removeComponent e t => exact World.removeComponent_alike alike e t
    | markChanged e t field => exact World.markChanged_alike alike e t field
    | setField e t name value =>
        exact World.setField_alike alike e t name value value
    | executeBuffer ops =>
        refine World.executeBuffer_alike alike (List.forall₂_same.mpr ?_)
        intro command _
        cases command with
        | addComponent e t data => exact ⟨rfl, rfl⟩
        | _ => exact rfl
    | compact =>
        exact .pure (alike.setStore (ArchetypeStore.shape_compact alike.store))
    | clear => exact World.clear_alike alike
    | rehash order => exact .pure (alike.rehash order)
  cases op with
  | addRaw e t data =>
      cases op' with
      | addRaw e' t' data' =>
          obtain ⟨rfl, rfl⟩ := same
          exact World.addRaw_alike registry alike e t data data'
      | _ => exact WorldOp.noConfusion same
  | setField e t name value =>
      cases op' with
      | setField e' t' name' value' =>
          obtain ⟨rfl, rfl, rfl⟩ := same
          exact World.setField_alike alike e t name value value'
      | _ => exact WorldOp.noConfusion same
  | executeBuffer ops =>
      cases op' with
      | executeBuffer ops' => exact World.executeBuffer_alike alike same
      | _ => exact WorldOp.noConfusion same
  | _ => exact equal (by cases op' <;> exact same)

end WorldOp
end VortarisECS
