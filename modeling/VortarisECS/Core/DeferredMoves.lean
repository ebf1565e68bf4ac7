import VortarisECS.Core.Contents

/-!
# Committing deferred operations

The operations queued for an entity net out to one component set and one write
per component.  Committing them leaves the entity with the components it would
have had if they had been executed one after the other.
-/

namespace VortarisECS

/-! ## One entity's queued operations -/

namespace Components

variable {registry : ComponentRegistry}

/-- Execute one queued operation on the components of its entity. -/
def execute (registry : ComponentRegistry) (components : Components)
    (op : PendingComponentOp) : Components :=
  components.put op.type
    (if op.add then
      some (World.componentBytes (registry.sizeOf op.type)
        (if op.data.isEmpty then none else some op.data))
    else none)

/-- Execute queued operations in order. -/
def executeAll (registry : ComponentRegistry) (components : Components)
    (ops : List PendingComponentOp) : Components :=
  ops.foldl (execute registry) components

/-- The last operation is executed last. -/
theorem executeAll_append
    (components : Components) (ops : List PendingComponentOp)
    (op : PendingComponentOp) :
    components.executeAll registry (ops ++ [op]) =
      (components.executeAll registry ops).execute registry op := by
  rw [executeAll, List.foldl_append]
  rfl

/-- The bytes a flush leaves in component `t`: of the last addition, or what
was there. -/
def netBytes (registry : ComponentRegistry) (components : Components)
    (last : AList fun _ : ComponentTypeId => Option (List UInt8))
    (t : ComponentTypeId) : Option (List UInt8) :=
  match last.lookup t with
  | some data => some (World.componentBytes (registry.sizeOf t) data)
  | none => components t

variable (registry) in
/-- Netting operations out is executing them: the final set has the components
that are left, and the last addition of each wins. -/
theorem executeAll_eq_net
    {components : Components} {original : List ComponentTypeId}
    (domain : ∀ t, (components t).isSome ↔ t ∈ original)
    (ops : List PendingComponentOp) (t : ComponentTypeId) :
    components.executeAll registry ops t =
      if t ∈ World.finalSet original ops then
        components.netBytes registry (World.lastAddData ops) t
      else none := by
  induction ops using List.reverseRec with
  | nil =>
      by_cases member : t ∈ original
      · exact (if_pos member).symm
      · refine Eq.trans ?_ (if_neg member).symm
        exact Option.not_isSome_iff_eq_none.mp ((domain t).not.mpr member)
  | append_singleton ops op inductionHypothesis =>
      rw [executeAll_append, World.finalSet_append, World.lastAddData_append]
      unfold execute put
      by_cases isAdd : op.add = true
      · rw [if_pos isAdd, if_pos isAdd, if_pos isAdd]
        unfold netBytes
        rw [AList.lookup_insert_if]
        simp only [List.mem_insert_iff]
        by_cases here : t = op.type
        · rw [if_pos here, if_pos (Or.inl here), if_pos here, here]
        · rw [if_neg here, if_neg here, inductionHypothesis]
          simp only [here, false_or]
          rfl
      · rw [if_neg isAdd, if_neg isAdd, if_neg isAdd]
        simp only [List.mem_filter]
        by_cases here : t = op.type
        · rw [if_pos here, if_neg (by simp [here])]
        · rw [if_neg here, inductionHypothesis]
          simp [here]

end Components

namespace World

variable {registry : ComponentRegistry}

/-! ## Committing one entity -/

section Commit

variable {e : Entity} {loc : EntityLocation}
variable {last : AList fun _ : ComponentTypeId => Option (List UInt8)}

/-- The contents after the writing loop of a flush. -/
theorem commitWrites_contents
    {w : World} (consistent : w.store.Consistent registry)
    (location : w.store.entityLocations.lookup e = some loc)
    (sized : DataSized registry last) {ts : List ComponentTypeId}
    (present : ∀ t ∈ ts, t ∈ (w.store.deref loc.archetype).componentIds) :
    (Traced.forEach (commitWrite registry e loc last) w ts).state.contents =
      w.contents.adjust e fun components t =>
        if t ∈ ts then components.netBytes registry last t
        else components t := by
  induction ts generalizing w with
  | nil =>
      refine Eq.trans ?_ (Contents.adjust_id w.contents e).symm
      rfl
  | cons t ts inductionHypothesis =>
      have presentHead := present t List.mem_cons_self
      have presentTail : ∀ u ∈ ts,
          u ∈ (w.store.deref loc.archetype).componentIds :=
        fun u member => present u (List.mem_cons_of_mem t member)
      rw [Traced.forEach_cons]
      cases found : last.lookup t with
      | none =>
          rw [commitWrite_skips found]
          refine (inductionHypothesis consistent location presentTail).trans ?_
          apply Contents.adjust_congr
          intro components _
          funext u
          by_cases here : u = t
          · subst here
            rw [if_pos List.mem_cons_self]
            unfold Components.netBytes
            rw [found]
            exact ite_self _
          · simp only [List.mem_cons, here, false_or]
      | some data =>
          rw [commitWrite_eq consistent location sized presentHead found]
          have bytesSized := length_componentBytes (registry.sizeOf t) data
          have written := writeComponent_contents consistent location
            presentHead bytesSized
          refine (inductionHypothesis
            (w := w.writeComponent e loc t
              (componentBytes (registry.sizeOf t) data))
            (writeComponent_consistent consistent location presentHead
              bytesSized)
            (by rw [writeComponent_entityLocations]; exact location)
            (by
              intro u member
              rw [writeComponent_componentIds]
              exact presentTail u member)).trans ?_
          rw [written, Contents.put, Contents.adjust_adjust]
          apply Contents.adjust_congr
          intro components _
          funext u
          dsimp only [Function.comp]
          by_cases here : u = t
          · subst here
            rw [if_pos List.mem_cons_self]
            unfold Components.netBytes Components.put
            rw [found, if_pos rfl]
            exact ite_self _
          · simp only [List.mem_cons, here, false_or]
            unfold Components.netBytes Components.put
            rw [if_neg here]

/-- Committing an entity executes its queued operations. -/
theorem commitDeferredMove_contents
    {w : World} (consistent : w.store.Consistent registry)
    (pendingSound : w.PendingSound registry) (e : Entity) :
    (w.commitDeferredMove registry e).state.contents =
      w.contents.adjust e
        (·.executeAll registry ((w.pendingOps.lookup e).getD [])) := by
  unfold commitDeferredMove
  cases location : w.store.entityLocations.lookup e with
  | none =>
      have dead : w.isAlive e = false := by
        rw [isAlive, ArchetypeStore.isAlive, location]
        exact Bool.and_false _
      exact (Contents.adjust_of_dead (contents_of_dead dead) _).symm
  | some loc =>
  cases queued : w.pendingOps.lookup e with
  | none => exact (Contents.adjust_id w.contents e).symm
  | some ops =>
  have alive := isAlive_of_location consistent location
  have sound := pendingSound e ops queued
  have sized := lastAddData_sized sound
  obtain ⟨ascending, registered⟩ :=
    finalIds_spec (consistent.archetypeOf location) sound
  have domain := bytesAt_isSome_iff location
  have net := Components.executeAll_eq_net registry domain ops
  rw [Option.getD_some]
  dsimp only
  by_cases structural :
      sortIds (finalSet (w.store.deref loc.archetype).componentIds ops) ≠
        (w.store.deref loc.archetype).componentIds
  · rw [if_pos structural]
    obtain ⟨movedConsistent, newLocation, newIds⟩ := moveToSet_location
      consistent location ascending registered structural.symm
    have moved := moveToSet_contents consistent location ascending registered
      structural.symm
    have written := commitWrites_contents movedConsistent newLocation sized
      (fun t (member : t ∈ sortIds
        (finalSet (w.store.deref loc.archetype).componentIds ops)) => by
          rw [newIds]; exact member)
    refine (contents_congr
      (agrees_invalidateCache _ : Agrees registry _ _).store_eq).trans ?_
    rw [written, moved, Contents.adjust_adjust]
    apply Contents.adjust_congr
    intro components found
    rw [contents_of_alive alive, Option.some.injEq] at found
    subst found
    funext t
    rw [net]
    dsimp only [Function.comp]
    unfold Components.hostedBy Components.netBytes
    simp only [mem_sortIds]
    by_cases member :
        t ∈ finalSet (w.store.deref loc.archetype).componentIds ops
    · rw [if_pos member, if_pos member, if_pos member]
      cases found : (lastAddData ops).lookup t with
      | some data => rfl
      | none =>
          -- Without an addition the component was there before.
          have before : t ∈ (w.store.deref loc.archetype).componentIds :=
            mem_finalSet_of_lastAddData_none member found
          obtain ⟨bytes, bytesEq⟩ :=
            Option.isSome_iff_exists.mp ((domain t).mpr before)
          dsimp only
          rw [bytesEq]
          rfl
    · rw [if_neg member, if_neg member, if_neg member]
  · rw [if_neg structural]
    rw [not_not] at structural
    have written := commitWrites_contents consistent location sized
      (fun t (member : t ∈ sortIds
        (finalSet (w.store.deref loc.archetype).componentIds ops)) => by
          rw [structural] at member; exact member)
    refine written.trans ?_
    apply Contents.adjust_congr
    intro components found
    rw [contents_of_alive alive, Option.some.injEq] at found
    subst found
    funext t
    rw [net]
    simp only [mem_sortIds]
    by_cases member :
        t ∈ finalSet (w.store.deref loc.archetype).componentIds ops
    · rw [if_pos member, if_pos member]
    · rw [if_neg member, if_neg member]
      have absent : t ∉ (w.store.deref loc.archetype).componentIds := by
        rw [← structural, mem_sortIds]
        exact member
      exact Option.not_isSome_iff_eq_none.mp ((domain t).not.mpr absent)

end Commit

end World
end VortarisECS
