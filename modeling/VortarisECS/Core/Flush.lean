import VortarisECS.Core.Stable
import VortarisECS.Core.WorldRealizes

/-!
# Flushing deferred operations

A flush nets the queued operations of an entity out into one final component set
and the data of the last addition of each type, moves the entity at most once
and writes the surviving components.
-/

namespace VortarisECS
namespace World

variable {registry : ComponentRegistry}

/-! ## Netting out queued operations -/

/-- The set at the end, with one more operation. -/
theorem finalSet_append
    (original : List ComponentTypeId) (ops : List PendingComponentOp)
    (op : PendingComponentOp) :
    finalSet original (ops ++ [op]) =
      if op.add then (finalSet original ops).insert op.type
      else (finalSet original ops).filter (· ≠ op.type) := by
  simp [finalSet, List.foldl_append]

/-- The last data, with one more operation. -/
theorem lastAddData_append
    (ops : List PendingComponentOp) (op : PendingComponentOp) :
    lastAddData (ops ++ [op]) =
      if op.add then (lastAddData ops).insert op.type
        (if op.data.isEmpty then none else some op.data)
      else lastAddData ops := by
  simp [lastAddData, List.foldl_append]

/-- The set at the end has each component once. -/
theorem finalSet_nodup
    {original : List ComponentTypeId} (nodup : original.Nodup)
    (ops : List PendingComponentOp) : (finalSet original ops).Nodup := by
  induction ops using List.reverseRec with
  | nil => exact nodup
  | append_singleton ops op inductionHypothesis =>
      rw [finalSet_append]
      split
      · exact inductionHypothesis.insert
      · exact inductionHypothesis.filter _

/-- A type of the final set was there before or was added. -/
theorem mem_finalSet
    {original : List ComponentTypeId} {ops : List PendingComponentOp}
    {t : ComponentTypeId} (member : t ∈ finalSet original ops) :
    t ∈ original ∨ ∃ op ∈ ops, op.add = true ∧ op.type = t := by
  induction ops using List.reverseRec with
  | nil => exact Or.inl member
  | append_singleton ops op inductionHypothesis =>
      have widen : (t ∈ original ∨ ∃ op ∈ ops, op.add = true ∧ op.type = t) →
          t ∈ original ∨
            ∃ later ∈ ops ++ [op], later.add = true ∧ later.type = t := by
        rintro (before | ⟨earlier, inOps, isAdd⟩)
        · exact Or.inl before
        · exact Or.inr ⟨earlier, List.mem_append_left _ inOps, isAdd⟩
      rw [finalSet_append] at member
      by_cases isAdd : op.add = true
      · rw [if_pos isAdd, List.mem_insert_iff] at member
        obtain rfl | member := member
        · exact Or.inr ⟨op, List.mem_append_right _ (List.mem_singleton_self op),
            isAdd, rfl⟩
        · exact widen (inductionHypothesis member)
      · rw [if_neg isAdd, List.mem_filter] at member
        exact widen (inductionHypothesis member.1)

/-- The data kept for a type is that of an addition of it. -/
theorem lastAddData_lookup
    {ops : List PendingComponentOp} {t : ComponentTypeId}
    {data : Option (List UInt8)}
    (found : (lastAddData ops).lookup t = some data) :
    ∃ op ∈ ops, op.add = true ∧ op.type = t ∧
      data = if op.data.isEmpty then none else some op.data := by
  induction ops using List.reverseRec with
  | nil => exact absurd found (by simp [lastAddData])
  | append_singleton ops op inductionHypothesis =>
      rw [lastAddData_append] at found
      have widen : (∃ earlier ∈ ops, earlier.add = true ∧ earlier.type = t ∧
          data = if earlier.data.isEmpty then none else some earlier.data) →
          ∃ later ∈ ops ++ [op], later.add = true ∧ later.type = t ∧
            data = if later.data.isEmpty then none else some later.data := by
        rintro ⟨earlier, inOps, isAdd⟩
        exact ⟨earlier, List.mem_append_left _ inOps, isAdd⟩
      by_cases isAdd : op.add = true
      · rw [if_pos isAdd, AList.lookup_insert_if] at found
        by_cases same : t = op.type
        · rw [if_pos same, Option.some.injEq] at found
          exact ⟨op, List.mem_append_right _ (List.mem_singleton_self op),
            isAdd, same.symm, found.symm⟩
        · rw [if_neg same] at found
          exact widen (inductionHypothesis found)
      · rw [if_neg isAdd] at found
        exact widen (inductionHypothesis found)

/-- A type has an addition among the operations. -/
theorem lastAddData_isSome
    (ops : List PendingComponentOp) (t : ComponentTypeId) :
    ((lastAddData ops).lookup t).isSome =
      (ops.map fun op => (op.type, op.add)).contains (t, true) := by
  induction ops using List.reverseRecOn with
  | nil => rfl
  | append_singleton ops op inductionHypothesis =>
      rw [lastAddData_append, List.map_append, List.contains_append,
        ← inductionHypothesis]
      cases added : op.add with
      | false => simp [added]
      | true =>
          rw [if_pos rfl, AList.lookup_insert_if]
          by_cases isType : t = op.type
          · simp [isType, added]
          · simp [isType, added]

/-- A type of the final set that was never added was there before. -/
theorem mem_finalSet_of_lastAddData_none
    {original : List ComponentTypeId} {ops : List PendingComponentOp}
    {t : ComponentTypeId} (member : t ∈ finalSet original ops)
    (missing : (lastAddData ops).lookup t = none) : t ∈ original := by
  induction ops using List.reverseRec with
  | nil => exact member
  | append_singleton ops op inductionHypothesis =>
      rw [lastAddData_append] at missing
      rw [finalSet_append] at member
      by_cases isAdd : op.add = true
      · rw [if_pos isAdd, AList.lookup_insert_if] at missing
        rw [if_pos isAdd, List.mem_insert_iff] at member
        by_cases here : t = op.type
        · rw [if_pos here] at missing
          exact absurd missing (by simp)
        · rw [if_neg here] at missing
          exact inductionHypothesis (member.resolve_left here) missing
      · rw [if_neg isAdd] at missing member
        exact inductionHypothesis (List.mem_filter.mp member).1 missing

/-- Kept data has the size of the component. -/
def DataSized (registry : ComponentRegistry)
    (last : AList fun _ : ComponentTypeId => Option (List UInt8)) : Prop :=
  ∀ t data, last.lookup t = some (some data) →
    data.length = registry.sizeOf t

/-- The data of queued additions has the size of the component. -/
theorem lastAddData_sized
    {ops : List PendingComponentOp} (sound : ∀ op ∈ ops, op.Sound registry) :
    DataSized registry (lastAddData ops) := by
  intro t data found
  obtain ⟨op, member, isAdd, rfl, dataEq⟩ := lastAddData_lookup found
  by_cases noData : op.data.isEmpty = true
  · rw [if_pos noData] at dataEq
    exact absurd dataEq (by simp)
  · rw [if_neg noData, Option.some.injEq] at dataEq
    rw [dataEq]
    obtain isNil | sized := (sound op member isAdd).2
    · exact absurd (List.isEmpty_iff.mpr isNil) noData
    · exact sized

/-- The final component set as an archetype key. -/
theorem finalIds_spec
    {a : Archetype} (wellFormed : a.WellFormed registry)
    {ops : List PendingComponentOp} (sound : ∀ op ∈ ops, op.Sound registry) :
    (sortIds (finalSet a.componentIds ops)).Pairwise (· < ·) ∧
    ∀ t ∈ sortIds (finalSet a.componentIds ops),
      (registry.schemaOf t).isSome := by
  have nodup : a.componentIds.Nodup :=
    wellFormed.ascending.imp fun less => ne_of_lt less
  refine ⟨sortIds_ascending (finalSet_nodup nodup ops), ?_⟩
  intro t member
  rw [mem_sortIds] at member
  obtain before | ⟨op, inOps, isAdd, rfl⟩ := mem_finalSet member
  · exact wellFormed.registered t before
  · exact (sound op inOps isAdd).1

/-! ## Writing the surviving components -/

section CommitWrites

variable {e : Entity} {loc : EntityLocation}
variable {last : AList fun _ : ComponentTypeId => Option (List UInt8)}

/-- A surviving write stores an instance of the component. -/
theorem commitWrite_eq
    {w : World} (consistent : w.store.Consistent registry)
    (location : w.store.entityLocations.lookup e = some loc)
    (sized : DataSized registry last) {t : ComponentTypeId}
    (present : t ∈ (w.store.deref loc.archetype).componentIds)
    {data : Option (List UInt8)} (found : last.lookup t = some data) :
    commitWrite registry e loc last w t =
      ⟨w.writeComponent e loc t (componentBytes (registry.sizeOf t) data),
        [.wrote e t]⟩ := by
  unfold commitWrite
  rw [found]
  cases data with
  | none => rfl
  | some bytes =>
      have rowLength := (columnAt_hasRows consistent location present).length_row
        (Archetype.row_lt (consistent.inRow location))
      have bytesLength := sized t bytes found
      have nothingLeft :
          ((w.columnAt loc t).row loc.row).drop bytes.length = [] := by
        apply List.drop_eq_nil_of_le
        rw [rowLength, columnAt_elemSize consistent location present,
          bytesLength]
      dsimp only
      rw [nothingLeft, List.append_nil, componentBytes,
        copyBytes_of_length bytesLength]

/-- A component without queued data is not written. -/
theorem commitWrite_skips
    {w : World} {t : ComponentTypeId} (missing : last.lookup t = none) :
    commitWrite registry e loc last w t = .pure w := by
  unfold commitWrite
  rw [missing]

/-- The writing loop of a flush: elementary writes, after which the entity is
where it was, in an archetype with the same components. -/
theorem commitWrites_steps
    {w : World} (consistent : w.store.Consistent registry)
    (location : w.store.entityLocations.lookup e = some loc)
    (sized : DataSized registry last) {ts : List ComponentTypeId}
    (present : ∀ t ∈ ts, t ∈ (w.store.deref loc.archetype).componentIds) :
    let written := Traced.forEach (commitWrite registry e loc last) w ts
    Steps registry w written.effects written.state ∧
    written.state.store.Consistent registry ∧
    written.state.store.entityLocations = w.store.entityLocations ∧
    (∀ p, (written.state.store.deref p).componentIds =
      (w.store.deref p).componentIds) := by
  induction ts generalizing w with
  | nil => exact ⟨Steps.refl w, consistent, rfl, fun _ => rfl⟩
  | cons t ts inductionHypothesis =>
      have presentHead := present t List.mem_cons_self
      have presentTail : ∀ u ∈ ts,
          u ∈ (w.store.deref loc.archetype).componentIds :=
        fun u member => present u (List.mem_cons_of_mem t member)
      dsimp only
      rw [Traced.forEach_cons]
      cases found : last.lookup t with
      | none =>
          rw [commitWrite_skips found]
          exact inductionHypothesis consistent location presentTail
      | some data =>
          rw [commitWrite_eq consistent location sized presentHead found]
          have bytesSized := length_componentBytes (registry.sizeOf t) data
          have written := Steps.single (Step.write location presentHead
            bytesSized)
          obtain ⟨steps, laterConsistent, locations, idsEq⟩ :=
            inductionHypothesis
              (w := w.writeComponent e loc t
                (componentBytes (registry.sizeOf t) data))
              (writeComponent_consistent consistent location presentHead
                bytesSized)
              (by rw [writeComponent_entityLocations]; exact location)
              (by
                intro u member
                rw [writeComponent_componentIds]
                exact presentTail u member)
          refine ⟨written.trans steps, laterConsistent, ?_, ?_⟩
          · rw [Traced.andThen_state, locations, writeComponent_entityLocations]
          · intro p
            rw [Traced.andThen_state, idsEq, writeComponent_componentIds]

end CommitWrites

/-! ## The flush as elementary steps -/

section Realizes

variable {invariant : World → Prop} {accept : Effect → Prop}

/-- A commit only announces. -/
theorem commitEvents_announce
    {e : Entity} {original finalIds : List ComponentTypeId}
    {last : AList fun _ : ComponentTypeId => Option (List UInt8)}
    {seen : World} :
    ∀ effect ∈ commitEvents e original finalIds last seen,
      effect.IsAnnouncement := by
  intro effect member
  obtain member | member := List.mem_append.mp member
  · obtain ⟨t, _, event⟩ := List.mem_filterMap.mp member
    split at event
    · rw [← Option.some.inj event]
      trivial
    · split at event
      · rw [← Option.some.inj event]
        trivial
      · exact absurd event (by simp)
  · obtain ⟨t, _, event⟩ := List.mem_filterMap.mp member
    split at event
    · rw [← Option.some.inj event]
      trivial
    · exact absurd event (by simp)

/-- A commit takes steps of the world. -/
theorem commitDeferredMove_realizes
    (inductiveOn : InductiveOn registry invariant accept) (e : Entity) :
    Realizes registry invariant accept fun w =>
      w.commitDeferredMove registry e := by
  intro w holds _
  have consistent := inductiveOn.consistent w holds
  dsimp only
  unfold commitDeferredMove
  cases location : w.store.entityLocations.lookup e with
  | none => exact Steps.refl w
  | some loc =>
  cases queued : w.pendingOps.lookup e with
  | none => exact Steps.refl w
  | some ops =>
  have sound := inductiveOn.pendingSound w holds e ops queued
  have sized := lastAddData_sized sound
  obtain ⟨ascending, registered⟩ :=
    finalIds_spec (consistent.archetypeOf location) sound
  dsimp only
  by_cases structural :
      sortIds (finalSet (w.store.deref loc.archetype).componentIds ops) ≠
        (w.store.deref loc.archetype).componentIds
  · rw [if_pos structural]
    obtain ⟨movedConsistent, newLocation, newIds⟩ := moveToSet_location
      consistent location ascending registered structural.symm
    have moved := moveToSet_steps consistent location ascending registered
      structural.symm
    obtain ⟨written, _⟩ := commitWrites_steps movedConsistent newLocation sized
      (fun t (member : t ∈ sortIds
        (finalSet (w.store.deref loc.archetype).componentIds ops)) => by
          rw [newIds]; exact member)
    exact (moved.trans written).andQuiet (agrees_invalidateCache _)
      commitEvents_announce
  · rw [if_neg structural]
    rw [not_not] at structural
    obtain ⟨written, _⟩ := commitWrites_steps consistent location sized
      (fun t (member : t ∈ sortIds
        (finalSet (w.store.deref loc.archetype).componentIds ops)) => by
          rw [structural] at member; exact member)
    exact written.andQuiet (Agrees.refl _) commitEvents_announce

/-- So does a destruction at the end of a window. -/
theorem flushDestroy_realizes (e : Entity) :
    Realizes registry invariant accept fun w => w.flushDestroy e := by
  intro w holds accepted
  dsimp only at accepted ⊢
  unfold flushDestroy at accepted ⊢
  split
  · rename_i pending
    rw [if_pos pending] at accepted
    exact destroyEntity_realizes e w holds accepted
  · exact Steps.refl w

/-- So does a move at the end of a window. -/
theorem flushMove_realizes
    (inductiveOn : InductiveOn registry invariant accept) (e : Entity) :
    Realizes registry invariant accept fun w => w.flushMove registry e := by
  intro w holds accepted
  dsimp only at accepted ⊢
  unfold flushMove at accepted ⊢
  split
  · exact Steps.refl w
  · rename_i notPending
    rw [if_neg notPending] at accepted
    exact commitDeferredMove_realizes inductiveOn e w holds accepted

theorem destroyEntityDeferred_realizes (e : Entity) :
    Realizes registry invariant accept fun w => w.destroyEntityDeferred e := by
  intro w holds accepted
  dsimp only at accepted ⊢
  unfold destroyEntityDeferred at accepted ⊢
  by_cases deferred : w.deferMoves = true
  · rw [if_pos deferred]
    split
    · have queued : Agrees registry w
          { w with pendingDestroy := w.pendingDestroy.insert e } :=
        ⟨rfl, rfl, rfl, rfl, rfl, rfl, id⟩
      exact Steps.agrees (queued.trans (agrees_queueDeferredMove _ e))
    · exact Steps.refl w
  · rw [if_neg deferred] at accepted ⊢
    exact destroyEntity_realizes e w holds accepted

theorem runCustomCommand_realizes (id : UInt32) (data : List UInt8) :
    Realizes registry invariant accept fun w => w.runCustomCommand id data := by
  intro w _ _
  dsimp only
  unfold runCustomCommand
  split
  · exact Steps.single (.quiet (Agrees.refl w) (by simp [Effect.IsAnnouncement]))
  · exact Steps.refl w

/-- So does every command. -/
theorem executeCommand_realizes
    (inductiveOn : InductiveOn registry invariant accept) (command : Command) :
    Realizes registry invariant accept fun w =>
      w.executeCommand registry command := by
  cases command with
  | addComponent e t data => exact addRaw_realizes inductiveOn e t _
  | removeComponent e t => exact removeComponent_realizes inductiveOn e t
  | addEntity e =>
      intro w holds accepted
      dsimp only [executeCommand] at accepted ⊢
      split
      · rename_i dead
        rw [if_pos dead] at accepted
        exact createEntityPreassigned_realizes e.id w holds accepted
      · exact Steps.refl w
  | removeEntity e => exact destroyEntityDeferred_realizes e
  | custom id data => exact runCustomCommand_realizes id data

/-- So does the end of a window. -/
theorem endDeferredMoves_realizes
    (inductiveOn : InductiveOn registry invariant accept) :
    Realizes registry invariant accept fun w =>
      w.endDeferredMoves registry := by
  intro w holds accepted
  dsimp only at accepted ⊢
  unfold endDeferredMoves at accepted ⊢
  split
  · exact Steps.refl w
  · rename_i active
    rw [if_neg active] at accepted
    have closed : Agrees registry w { w with deferMoves := false } :=
      ⟨rfl, rfl, rfl, rfl, rfl, rfl, id⟩
    have closedSteps := Steps.agrees closed
    have closedHolds :=
      closedSteps.keeps inductiveOn holds (fun _ member => absurd member (by simp))
    have destroying : Realizes registry invariant accept fun v =>
        Traced.forEach flushDestroy v w.deferredEntities :=
      Realizes.forEach inductiveOn fun e _ => flushDestroy_realizes e
    have moving : Realizes registry invariant accept fun v =>
        Traced.forEach (flushMove registry) v w.deferredEntities :=
      Realizes.forEach inductiveOn fun e _ => flushMove_realizes inductiveOn e
    have both := (destroying.andThen inductiveOn moving).mapState
      (fun v => v.clearPending.releaseInvalidation)
      fun v => (agrees_clearPending v).trans (agrees_releaseInvalidation _)
    exact closedSteps.trans (both _ closedHolds accepted)

/-- So does the execution of a buffer. -/
theorem executeBuffer_realizes
    (inductiveOn : InductiveOn registry invariant accept)
    (ops : List Command) :
    Realizes registry invariant accept fun w =>
      w.executeBuffer registry ops := by
  intro w holds accepted
  dsimp only at accepted ⊢
  unfold executeBuffer at accepted ⊢
  split
  · exact Steps.refl w
  · rename_i nonempty
    rw [if_neg nonempty] at accepted
    split
    · exact Steps.refl w
    · rename_i outside
      rw [if_neg outside] at accepted
      have opened : Agrees registry w w.beginSuppress.beginDeferredMoves :=
        ⟨rfl, rfl, rfl, rfl, rfl, rfl, id⟩
      have openedSteps := Steps.agrees opened
      have openedHolds := openedSteps.keeps inductiveOn holds
        (fun _ member => absurd member (by simp))
      have executing : Realizes registry invariant accept fun v =>
          Traced.forEach (executeCommand registry) v ops :=
        Realizes.forEach inductiveOn fun command _ =>
          executeCommand_realizes inductiveOn command
      have whole := (executing.andThen inductiveOn
        (endDeferredMoves_realizes inductiveOn)).mapState
        endSuppress agrees_endSuppress
      exact openedSteps.trans (whole _ openedHolds accepted)

theorem flushCommandBuffers_realizes
    (inductiveOn : InductiveOn registry invariant accept) :
    Realizes registry invariant accept fun w =>
      w.flushCommandBuffers registry := by
  intro w holds accepted
  dsimp only at accepted ⊢
  unfold flushCommandBuffers at accepted ⊢
  split
  · exact Steps.refl w
  · rename_i outside
    rw [if_neg outside] at accepted
    have emptied : Agrees registry w { w with commandBuffer := [] } :=
      ⟨rfl, rfl, rfl, rfl, rfl, rfl, id⟩
    have emptiedSteps := Steps.agrees emptied
    have emptiedHolds := emptiedSteps.keeps inductiveOn holds
      (fun _ member => absurd member (by simp))
    exact emptiedSteps.trans
      (executeBuffer_realizes inductiveOn w.commandBuffer _ emptiedHolds
        accepted)

/-! ## Lifecycle -/

/-- Removing an entity in a clear takes steps without an effect. -/
theorem clearEntity_steps (w : World) (e : Entity) :
    Steps registry w [] (w.clearEntity e) := by
  unfold clearEntity
  cases location : w.store.entityLocations.lookup e with
  | none => exact Steps.refl w
  | some loc => exact Steps.single (Step.leave location (Or.inl rfl))

theorem clearEntities_steps (w : World) (es : List Entity) :
    Steps registry w [] (es.foldl clearEntity w) := by
  induction es generalizing w with
  | nil => exact Steps.refl w
  | cons e es inductionHypothesis =>
      exact (clearEntity_steps w e).trans (inductionHypothesis _)

/-- A clear takes steps of the world. -/
theorem clear_realizes :
    Realizes registry invariant accept fun w => w.clear := by
  intro w _ _
  dsimp only
  unfold clear
  split
  · exact Steps.refl w
  · have left : Steps registry _ _ _ :=
      clearEntities_steps w w.store.entityLocations.keys
    have cleared := left.andAgrees (agrees_invalidateCache _)
    have dropped := cleared.trans (Steps.single (Step.clearLog _))
    exact dropped.andQuiet (Agrees.refl _) (by simp [Effect.IsAnnouncement])

theorem compact_realizes :
    Realizes registry invariant accept fun w => Traced.pure w.compact :=
  fun w _ _ => Steps.single (Step.compact w)

theorem rehash_realizes (order : List Entity) :
    Realizes registry invariant accept fun w =>
      Traced.pure (w.setStore (w.store.rehash order)) :=
  fun w _ _ => Steps.single (Step.rehash w order)

end Realizes
end World
end VortarisECS
