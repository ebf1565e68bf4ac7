import VortarisECS.Core.Contents
import VortarisECS.Core.Runs

/-!
# The store as a finite map

To its readers a world is a map from live entities to their components, and each
immediate operation changes that map as its name says: at one entity, at one
component of it, nowhere or everywhere.
-/

namespace VortarisECS
namespace World

variable {registry : ComponentRegistry} {w : World}

/-- What the readers of a world say when its entities hold `contents`. -/
structure Represents (w : World) (contents : Contents) : Prop where
  isAlive : ∀ e, w.isAlive e = (contents e).isSome
  has_eq : ∀ e t, w.has e t = ((contents e).bind (· t)).isSome
  getRaw : ∀ e t, w.getRaw e t = (contents e).bind (· t)
  mem_types : ∀ e t, t ∈ w.getEntityComponentTypes e ↔
    ((contents e).bind (· t)).isSome
  typesAscending : ∀ e, (w.getEntityComponentTypes e).Pairwise (· < ·)

/-- A world with a consistent store represents its contents. -/
theorem represents_contents
    (consistent : w.store.Consistent registry) : w.Represents w.contents := by
  have readBytes : ∀ e t, w.getRaw e t = (w.contents e).bind (· t) := by
    intro e t
    rw [← bytesAt_eq_getRaw consistent]
    cases alive : w.isAlive e with
    | true =>
        rw [contents_of_alive alive]
        rfl
    | false =>
        rw [contents_of_dead alive, Option.bind_none]
        by_cases real : e = Entity.null
        · unfold bytesAt World.cell ArchetypeStore.cell
          rw [real, consistent.nullDead]
          rfl
        · unfold bytesAt World.cell ArchetypeStore.cell
          rw [lookup_eq_none_of_dead real alive]
          rfl
  refine ⟨fun e => (contents_isSome w e).symm, fun e t => ?_, readBytes,
    fun e t => ?_, fun e => ?_⟩
  · rw [← readBytes]
    unfold World.has World.getRaw
    cases w.store.entityLocations.lookup e with
    | none => rfl
    | some loc =>
        dsimp only
        by_cases both : e ≠ Entity.null ∧
            (w.store.deref loc.archetype).hasComponent t = true
        · rw [if_pos both, both.2, decide_eq_true both.1]
          rfl
        · rw [if_neg both, Option.isSome_none, ← Bool.not_eq_true,
            Bool.and_eq_true, decide_eq_true_iff]
          exact both
  · unfold getEntityComponentTypes
    cases alive : w.isAlive e with
    | true =>
        obtain ⟨loc, location⟩ := location_of_isAlive alive
        rw [if_pos rfl, ArchetypeStore.typesOf_of_location location,
          contents_of_alive alive]
        exact (bytesAt_isSome_iff location t).symm
    | false =>
        rw [contents_of_dead alive]
        simp
  · unfold getEntityComponentTypes
    cases alive : w.isAlive e with
    | true =>
        obtain ⟨loc, location⟩ := location_of_isAlive alive
        rw [if_pos rfl, ArchetypeStore.typesOf_of_location location]
        exact (consistent.archetypeOf location).ascending
    | false => exact List.Pairwise.nil

/-- An entity has the components that are listed for it. -/
theorem has_iff_mem_types
    (consistent : w.store.Consistent registry) {e : Entity}
    {t : ComponentTypeId} :
    w.has e t = true ↔ t ∈ w.getEntityComponentTypes e := by
  have represents := represents_contents consistent
  rw [represents.has_eq, represents.mem_types]

/-- Every component an entity has is registered and has bytes. -/
theorem getRaw_of_mem_types
    (consistent : w.store.Consistent registry) {e : Entity}
    {t : ComponentTypeId}
    (member : t ∈ w.getEntityComponentTypes e) :
    ∃ schema inst, registry.schemaOf t = some schema ∧
      w.getRaw e t = some inst := by
  have represents := represents_contents consistent
  obtain ⟨inst, found⟩ :=
    Option.isSome_iff_exists.mp ((represents.mem_types e t).mp member)
  unfold getEntityComponentTypes at member
  split at member
  · rename_i alive
    obtain ⟨loc, location⟩ := location_of_isAlive alive
    rw [ArchetypeStore.typesOf_of_location location] at member
    obtain ⟨schema, registered⟩ := Option.isSome_iff_exists.mp
      ((consistent.archetypeOf location).registered t member)
    exact ⟨schema, inst, registered, (represents.getRaw e t).trans found⟩
  · exact absurd member List.not_mem_nil

/-! ## Operations that leave the map alone, and one that empties it -/

/-- Marking is no change of the map. -/
theorem markChanged_contents
    (consistent : w.store.Consistent registry)
    (e : Entity) (t : ComponentTypeId) (field : String) :
    (w.markChanged e t field).state.contents = w.contents := by
  unfold markChanged
  split
  · rfl
  · cases location : w.store.entityLocations.lookup e with
    | none => rfl
    | some loc =>
        dsimp only
        split
        · rfl
        · rename_i present
          apply markRow_contents consistent location
          simpa using present

/-- Compaction is no change of the map. -/
theorem compact_contents (w : World) : w.compact.contents = w.contents := rfl

/-- Nor is another order of the hash table. -/
theorem rehash_contents (w : World) (order : List Entity) :
    (w.setStore (w.store.rehash order)).contents = w.contents := by
  apply contents_eq_of
  · intro x
    exact congrArg _ (ArchetypeStore.rehash_isAlive w.store order x)
  · intro x u
    exact congrArg _ (ArchetypeStore.rehash_cell w.store order x u)

/-- The loop of `clear` kills what it visits. -/
theorem clearEntities_contents
    (stable : w.Stable registry) (es : List Entity) :
    (es.foldl clearEntity w).contents =
      fun x => if x ∈ es then none else w.contents x := by
  induction es generalizing w with
  | nil => rfl
  | cons e es inductionHypothesis =>
      have cleared : Steps registry _ _ _ := clearEntity_steps w e
      have next : (w.clearEntity e).Stable registry :=
        cleared.keeps (stable_inductiveOn registry) stable
          (fun _ member => absurd member List.not_mem_nil)
      have killed : (w.clearEntity e).contents = w.contents.kill e := by
        unfold clearEntity
        cases location : w.store.entityLocations.lookup e with
        | none =>
            have dead : w.isAlive e = false := by
              rw [World.isAlive, ArchetypeStore.isAlive, location]
              exact Bool.and_false _
            exact (Contents.kill_of_dead (contents_of_dead dead)).symm
        | some loc => exact detach_contents stable.consistent location _
      rw [List.foldl_cons, inductionHypothesis next, killed]
      funext x
      by_cases isHead : x = e
      · simp [isHead, Contents.kill]
      · simp [isHead, Contents.kill]

/-- A clear empties the map. -/
theorem clear_contents
    (stable : w.Stable registry) (outside : w.inIteration = false) :
    w.clear.state.contents = fun _ => none := by
  unfold clear
  rw [outside, if_neg Bool.false_ne_true]
  refine (contents_congr (agrees_invalidateCache
    (w.store.entityLocations.keys.foldl clearEntity w) :
      Agrees registry _ _).store_eq).trans ?_
  rw [clearEntities_contents stable]
  funext x
  split
  · rfl
  · rename_i unlocated
    apply contents_of_dead
    rw [AList.mem_keys_iff_lookup_isSome] at unlocated
    rw [World.isAlive, ArchetypeStore.isAlive, Bool.and_eq_false_iff]
    exact Or.inr (Bool.eq_false_iff.mpr unlocated)

/-- In a sound world `create_entity` hands out a dead id. -/
theorem Sound.createEntity_dead
    (sound : w.Sound registry) (issued : w.createEntity.2 ≠ Entity.null) :
    w.isAlive w.createEntity.2 = false := by
  cases allocates : w.slots.allocEntityId with
  | mk slots e =>
      simp only [createEntity, allocates] at issued ⊢
      by_cases isNull : e = Entity.null
      · rw [if_pos isNull] at issued
        exact absurd isNull issued
      · rw [if_neg isNull]
        have step : Step registry _ _ _ := Step.issue (Or.inl allocates) isNull
        exact sound.issuesDead step _ (List.mem_singleton_self _)

end World

/-! ## Runs -/

/-- The operations the map view is about. -/
def WorldOp.OnMap : WorldOp → Prop
  | .createEntity | .destroyEntity _ | .addRaw .. | .removeComponent .. => True
  | .markChanged .. | .compact | .clear | .rehash _ => True
  | _ => False

/-- An operation on the map.  `handle` is the id a creation hands out. -/
def Contents.step (registry : ComponentRegistry) (handle : Entity)
    (contents : Contents) : WorldOp → Contents
  | .createEntity =>
      if handle = Entity.null then contents else contents.spawn handle
  | .destroyEntity e => contents.kill e
  | .addRaw e t data =>
      if (registry.schemaOf t).isSome then
        contents.put e t (some (World.componentBytes (registry.sizeOf t) data))
      else contents
  | .removeComponent e t => contents.put e t none
  | .clear => fun _ => none
  | _ => contents

namespace WorldOp

variable {registry : ComponentRegistry}

/-- Operations on the map give no ids. -/
theorem OnMap.preassignsNothing
    {op : WorldOp} (onMap : op.OnMap) : op.PreassignsNothing := by
  cases op <;> trivial

/-- One operation of an idle sound world is one operation on its map. -/
theorem apply_contents
    {w : World} (sound : w.Sound registry) (idle : w.Idle)
    {op : WorldOp} (onMap : op.OnMap) :
    (op.apply registry w).state.contents =
      w.contents.step registry w.createEntity.2 op := by
  have consistent := sound.stable.consistent
  cases op with
  | createEntity =>
      exact World.createEntity_contents consistent sound.createEntity_dead
  | destroyEntity e => exact World.destroyEntity_contents consistent idle.outside
  | addRaw e t data =>
      exact World.addRaw_contents consistent idle.immediate idle.outside data
  | removeComponent e t =>
      exact World.removeComponent_contents consistent idle.immediate idle.outside
  | markChanged e t field =>
      exact World.markChanged_contents consistent e t field
  | compact => exact World.compact_contents w
  | clear => exact World.clear_contents sound.stable idle.outside
  | rehash order => exact World.rehash_contents w order
  | _ => exact onMap.elim

/-- A world and a map that perform the same operation; the world supplies the
ids that creations hand out. -/
def mirror (registry : ComponentRegistry) (both : World × Contents)
    (op : WorldOp) : World × Contents :=
  ((op.apply registry both.1).state,
    both.2.step registry both.1.createEntity.2 op)

/-- The map that a run from an empty world is mirrored in. -/
def mirrored (registry : ComponentRegistry) (ops : List WorldOp) :
    World × Contents :=
  ops.foldl (mirror registry) (World.empty registry, fun _ => none)

/-- The mirrored map is the map of the contents after every run. -/
theorem mirrored_eq
    {ops : List WorldOp} (onMap : ∀ op ∈ ops, op.OnMap) :
    mirrored registry ops =
      ((run registry ops).state, (run registry ops).state.contents) := by
  induction ops using List.reverseRec with
  | nil =>
      refine congrArg (Prod.mk (World.empty registry)) ?_
      funext e
      exact (World.contents_of_dead (World.empty_isAlive registry e)).symm
  | append_singleton ops op inductionHypothesis =>
      have earlier : ∀ op ∈ ops, op.OnMap := fun other member =>
        onMap other (List.mem_append_left _ member)
      have sound : (run registry ops).state.Sound registry :=
        run_sound fun other member => (earlier other member).preassignsNothing
      have last := apply_contents sound (run_idle registry ops)
        (onMap op (List.mem_append_right _ (List.mem_singleton_self op)))
      unfold mirrored at inductionHypothesis ⊢
      rw [List.foldl_append, inductionHypothesis earlier]
      unfold run
      rw [Traced.forEach_append_state]
      exact congrArg (Prod.mk _) last.symm

/-- After every run its readers agree with the map that performed the same
operations, and the next creation hands out an id the map does not have. -/
theorem run_represents
    {ops : List WorldOp} (onMap : ∀ op ∈ ops, op.OnMap) :
    (mirrored registry ops).1 = (run registry ops).state ∧
    (run registry ops).state.Represents (mirrored registry ops).2 ∧
    ((run registry ops).state.createEntity.2 ≠ Entity.null →
      (mirrored registry ops).2 (run registry ops).state.createEntity.2 =
        none) := by
  have sound : (run registry ops).state.Sound registry :=
    run_sound fun op member => (onMap op member).preassignsNothing
  rw [mirrored_eq onMap]
  refine ⟨rfl, World.represents_contents sound.stable.consistent,
    fun issued => ?_⟩
  exact World.contents_of_dead (sound.createEntity_dead issued)

/-- Overwriting, swap-removing and compacting leave the other entities'
components where they were. -/
theorem run_represents_overwrites :
    let ops : List WorldOp :=
      [.createEntity, .createEntity, .addRaw ⟨1⟩ 1 (some [7]),
        .addRaw ⟨2⟩ 1 none, .addRaw ⟨2⟩ 1 (some [9]), .removeComponent ⟨1⟩ 1,
        .compact, .destroyEntity ⟨1⟩, .addRaw ⟨1⟩ 1 none]
    let registry := ComponentRegistry.healthRegistry
    (mirrored registry ops).1 = (run registry ops).state ∧
    (run registry ops).state.Represents (mirrored registry ops).2 ∧
    ((run registry ops).state.createEntity.2 ≠ Entity.null →
      (mirrored registry ops).2 (run registry ops).state.createEntity.2 =
        none) :=
  run_represents (by simp [OnMap])

end WorldOp
end VortarisECS
