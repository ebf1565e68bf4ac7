import VortarisECS.Core.Alike
import VortarisECS.Core.Directory
import Mathlib.Tactic.Ring

/-!
# Walks over the matched archetypes

`for_each` and `each` walk the cached answer of a query by reference: the rows
of each archetype are counted anew before every call, and the answer is read
where it lies, up to the end it had at the start.  The iteration guard refuses
most changes of structure while a callback runs, but not all of them.
-/

namespace VortarisECS

/-- The query of a component list. -/
def Query.ofComponents (ids : List ComponentTypeId) : Query where
  all := sortIds ids

namespace World

/-- `match` on the query cache: the answer, and the world with the cache it
leaves. -/
def matchQuery (w : World) (q : Query) : List Ptr × World :=
  let (arches, queryCache) :=
    w.store.queryCache.matchQuery q w.store.deref w.store.archetypeList
  (arches, w.setStore { w.store with queryCache := queryCache })

/-- The directory of the store answers the same way, and is left the same. -/
theorem matchQuery_directory (w : World) (q : Query) :
    w.store.directory.matchQuery q =
      ((w.matchQuery q).1, (w.matchQuery q).2.store.directory) :=
  rfl

/-- The vector behind the reference `match` returns. -/
def cachedArchetypes (w : World) (q : Query) : List Ptr :=
  (w.store.queryCache.cache.lookup q.membershipSignature).getD []

/-- Enter a walk, which refuses changes of structure until it is left. -/
def beginIteration (w : World) : World :=
  { w with iterationDepth := w.iterationDepth + 1 }

/-- Leave a walk. -/
def endIteration (w : World) : World :=
  { w with iterationDepth := w.iterationDepth - 1 }

end World

/-! ## The walk -/

/-- What a callback does with the world, given the entities it was called for so
far, the present one last. -/
abbrev Callback := List Entity → World → List WorldOp

/-- Where a walk is. -/
inductive WalkPosition
  /-- Before it reads a position of the matched list. -/
  | archetype (index : Nat)
  /-- Before it counts the rows of the archetype it read there. -/
  | row (index : Nat) (a : Ptr) (row : Nat)
  | finished
  /-- It read a position behind the last matched archetype. -/
  | pastEnd
  /-- It read an archetype that was freed. -/
  | freed
  deriving DecidableEq, Repr

/-- A walk on its way, with the calls it made. -/
structure Iteration where
  world : World
  calls : List Entity := []
  position : WalkPosition := .archetype 0

/-- The operations of one call. -/
def World.perform (registry : ComponentRegistry) (w : World)
    (ops : List WorldOp) : World :=
  (Traced.forEach (WorldOp.apply registry) w ops).state

namespace Iteration

/-- One turn of the two loops of `for_each`, over a list that had `count`
archetypes when they began. -/
def step (registry : ComponentRegistry) (callback : Callback) (q : Query)
    (count : Nat) (it : Iteration) : Iteration :=
  match it.position with
  | .archetype index =>
      if index = count then
        { it with world := it.world.endIteration, position := .finished }
      else
        match (it.world.cachedArchetypes q)[index]? with
        | none => { it with position := .pastEnd }
        | some a => { it with position := .row index a 0 }
  | .row index a row =>
      if a ∉ it.world.store.archetypeList then { it with position := .freed }
      else
        match (it.world.store.deref a).entities[row]? with
        | none => { it with position := .archetype (index + 1) }
        | some e =>
            { world := it.world.perform registry
                (callback (it.calls ++ [e]) it.world)
              calls := it.calls ++ [e]
              position := .row index a (row + 1) }
  | _ => it

end Iteration

namespace World

/-- A walk that begins. -/
def beginWalk (w : World) (q : Query) : Iteration where
  world := (w.matchQuery q).2.beginIteration

/-- The walk over the archetypes a query matches, after some turns of its
loops. -/
def walk (registry : ComponentRegistry) (callback : Callback) (w : World)
    (q : Query) (turns : Nat) : Iteration :=
  (Iteration.step registry callback q (w.matchQuery q).1.length)^[turns]
    (w.beginWalk q)

/-- The entities of the matching archetypes, in archetype and row order. -/
def matchedEntities (w : World) (q : Query) : List Entity :=
  (w.store.archetypeList.filter fun p =>
    q.matchesArchetype (w.store.deref p)).flatMap fun p =>
      (w.store.deref p).entities

/-- The walk terminates, has then called the callback for the entities that
matched when it began, and reads nothing it must not. -/
def WalksSafely (registry : ComponentRegistry) (callback : Callback) (w : World)
    (q : Query) : Prop :=
  (∃ turns, (w.walk registry callback q turns).position = .finished ∧
    (w.walk registry callback q turns).calls = w.matchedEntities q) ∧
  ∀ turns, (w.walk registry callback q turns).position ≠ .pastEnd ∧
    (w.walk registry callback q turns).position ≠ .freed

end World

/-! ## What disturbs a walk -/

/-- The entities an operation creates. -/
def WorldOp.created (w : World) : WorldOp → List Entity
  | createEntity =>
      if w.slots.allocEntityId.2 = Entity.null then []
      else [w.slots.allocEntityId.2]
  | createEntityPreassigned id =>
      if w.preassignedHandle id = Entity.null then []
      else [w.preassignedHandle id]
  | createEntityPooled =>
      match w.slots.poolSlots with
      | e :: _ => [e]
      | [] =>
          if w.slots.allocEntityId.2 = Entity.null then []
          else [w.slots.allocEntityId.2]
  | _ => []

/-- Under a call for an entity of the archetype `a`, at a position of the
matched list: a compaction frees no matched archetype unless the walk is at the
last one, and a creation finds the entities without components walked over. -/
def WorldOp.Harmless (q : Query) (count index : Nat) (a : Ptr) (w : World)
    (op : WorldOp) : Prop :=
  (op = compact → index + 1 < count →
    ∀ p ∈ w.cachedArchetypes q, ¬w.store.isVacant p = true) ∧
  (op.created w ≠ [] → w.store.emptyArchetype ≠ a ∧
    w.store.emptyArchetype ∉ (w.cachedArchetypes q).drop (index + 1))

/-- Every operation is harmless where it is performed. -/
def World.PerformsHarmless (registry : ComponentRegistry) (q : Query)
    (count index : Nat) (a : Ptr) : World → List WorldOp → Prop
  | _, [] => True
  | w, op :: ops =>
      op.Harmless q count index a w ∧
        PerformsHarmless registry q count index a (op.apply registry w).state ops

/-- If the next turn calls the callback, what this does is harmless. -/
def Iteration.CallHarmless (registry : ComponentRegistry) (callback : Callback)
    (q : Query) (count : Nat) (it : Iteration) : Prop :=
  match it.position with
  | .row index a row =>
      ∀ e, (it.world.store.deref a).entities[row]? = some e →
        it.world.PerformsHarmless registry q count index a
          (callback (it.calls ++ [e]) it.world)
  | _ => True

/-! ## What one operation does to the archetypes -/

variable {registry : ComponentRegistry}

namespace World

/-- The archetypes and the cache stay, and only the empty archetype gets new
rows. -/
structure Extends (w w' : World) (created : List Entity) : Prop where
  archetypeList : w'.store.archetypeList = w.store.archetypeList
  queryCache : w'.store.queryCache = w.store.queryCache
  emptyArchetype : w'.store.emptyArchetype = w.store.emptyArchetype
  heap : w'.store.heap.length = w.store.heap.length
  componentIds : ∀ p, (w'.store.deref p).componentIds =
    (w.store.deref p).componentIds
  entities : ∀ p, (w'.store.deref p).entities = (w.store.deref p).entities ++
    if p = w.store.emptyArchetype then created else []
  iterationDepth : w'.iterationDepth = w.iterationDepth
  deferMoves : w'.deferMoves = w.deferMoves

variable {w w' : World}

/-- An alike world extends the other by nobody. -/
theorem Alike.extends (alike : w.Alike w') : w.Extends w' [] := by
  obtain ⟨heaps, _, lists, empties, caches, _⟩ :=
    ArchetypeStore.shape_eq_iff.mp alike.store
  exact {
    archetypeList := lists.symm
    queryCache := caches.symm
    emptyArchetype := empties.symm
    heap := by
      simpa only [List.length_map] using (congrArg List.length heaps).symm
    componentIds := fun p => (alike.componentIds p).symm
    entities := fun p => by
      rw [ite_self, List.append_nil]
      exact (ArchetypeStore.entities_of_shape alike.store p).symm
    iterationDepth := alike.iterationDepth.symm
    deferMoves := alike.deferMoves.symm }

/-- An extension of an alike world is an extension. -/
theorem Extends.followedBy
    {created : List Entity} {v : World} (first : w.Extends v created)
    (alike : v.Alike w') : w.Extends w' created := by
  have second := alike.extends
  exact {
    archetypeList := second.archetypeList.trans first.archetypeList
    queryCache := second.queryCache.trans first.queryCache
    emptyArchetype := second.emptyArchetype.trans first.emptyArchetype
    heap := second.heap.trans first.heap
    componentIds := fun p =>
      (second.componentIds p).trans (first.componentIds p)
    entities := fun p => by
      rw [second.entities, ite_self, List.append_nil, first.entities]
    iterationDepth := second.iterationDepth.trans first.iterationDepth
    deferMoves := second.deferMoves.trans first.deferMoves }

/-- A change of slots alone. -/
theorem setSlots_extends (w : World) (slots : EntitySlots) :
    w.Extends (w.setSlots slots) [] := by
  refine { Alike.extends (Alike.refl w) with }

/-- An entity that enters extends the rows of the empty archetype. -/
theorem enterEmpty_extends
    (valid : w.store.emptyArchetype < w.store.heap.length)
    (slots : EntitySlots) (e : Entity) :
    w.Extends ((w.setSlots slots).enterEmpty e).invalidateCache [e] := by
  refine Extends.followedBy (v := (w.setSlots slots).enterEmpty e) {
    archetypeList := rfl
    queryCache := rfl
    emptyArchetype := rfl
    heap := ArchetypeStore.length_heap_modify _ _ _
    componentIds := ArchetypeStore.modify_keeps w.store w.store.emptyArchetype
      Archetype.componentIds
      (f := fun a => (a.addEntity e w.changeTick).1) fun _ => rfl
    entities := fun p => ?_
    iterationDepth := rfl
    deferMoves := rfl } (alike_invalidateCache _)
  change ((w.store.modify w.store.emptyArchetype fun a =>
    (a.addEntity e w.changeTick).1).deref p).entities = _
  rw [ArchetypeStore.deref_modify _ valid]
  split
  · rename_i here
    rw [here]
    rfl
  · rw [List.append_nil]

/-- A creation extends the rows by the new entity. -/
theorem createEntity_extends
    (valid : w.store.emptyArchetype < w.store.heap.length) :
    w.Extends w.createEntity.1.state (WorldOp.createEntity.created w) := by
  unfold createEntity WorldOp.created
  dsimp only
  split
  · exact setSlots_extends w _
  · exact enterEmpty_extends valid _ _

/-- So does a creation of a given id, if it is not refused. -/
theorem createEntityPreassigned_extends
    (valid : w.store.emptyArchetype < w.store.heap.length) (id : UInt64) :
    w.Extends (w.createEntityPreassigned id).state
      ((WorldOp.createEntityPreassigned id).created w) := by
  unfold createEntityPreassigned WorldOp.created preassignedHandle
  dsimp only
  by_cases last : (⟨id⟩ : Entity).slot = 2 ^ 32 - 1
  · rw [if_pos last, if_pos last, if_pos rfl]
    exact (Alike.refl w).extends
  · rw [if_neg last, if_neg last]
    by_cases large : (⟨id⟩ : Entity).slot ≥ maxPreassignedSlot
    · rw [if_pos large, if_pos large, if_pos rfl]
      exact (Alike.refl w).extends
    · rw [if_neg large, if_neg large]
      change w.Extends (if w.store.isAlive ⟨id⟩ then _ else _ :
        Traced Effect World).state _
      by_cases taken : w.store.isAlive ⟨id⟩ = true
      · rw [if_pos taken, if_pos taken, if_pos rfl]
        exact setSlots_extends w _
      · have real : (⟨id⟩ : Entity) ≠ Entity.null := by
          intro null
          rw [null] at last
          exact last (by decide)
        rw [if_neg taken, if_neg taken, if_neg real]
        exact enterEmpty_extends valid _ _

/-- So does a creation from the pool. -/
theorem createEntityPooled_extends
    (valid : w.store.emptyArchetype < w.store.heap.length) :
    w.Extends w.createEntityPooled.1.state
      (WorldOp.createEntityPooled.created w) := by
  have created : WorldOp.createEntityPooled.created w =
      match w.slots.poolSlots with
      | e :: _ => [e]
      | [] => WorldOp.createEntity.created w := rfl
  rw [created]
  unfold createEntityPooled
  cases w.slots.poolSlots with
  | nil => exact createEntity_extends valid
  | cons e rest => exact enterEmpty_extends valid _ e

/-! Under the iteration guard the other operations touch bytes at most. -/

section Guarded

variable (busy : w.inIteration = true)

include busy

/-- A destruction is refused in a walk. -/
theorem destroyEntity_guarded (e : Entity) : w.destroyEntity e = .pure w := by
  unfold destroyEntity
  rw [busy]
  split
  · rfl
  · rfl

theorem destroyEntityPooled_guarded (e : Entity) :
    w.destroyEntityPooled e = .pure w := by
  unfold destroyEntityPooled
  rw [busy]
  split
  · rfl
  · rfl

/-- An addition in a walk overwrites bytes at most. -/
theorem addRaw_guarded
    (immediate : w.deferMoves = false) (e : Entity) (t : ComponentTypeId)
    (data : Option (List UInt8)) :
    w.Alike (w.addRaw registry e t data).state := by
  unfold addRaw
  rw [busy, immediate]
  split
  · exact .refl w
  · split
    · dsimp only
      split
      · exact absurd ‹_› Bool.false_ne_true
      · split
        · exact alike_writeComponent w _ _ _ _
        · exact .refl w
    · exact .refl w

/-- A removal is refused in a walk. -/
theorem removeComponent_guarded
    (immediate : w.deferMoves = false) (e : Entity) (t : ComponentTypeId) :
    w.removeComponent registry e t = .pure w := by
  unfold removeComponent
  rw [busy, immediate]
  split
  · rfl
  · split
    · exact absurd ‹_› Bool.false_ne_true
    · split
      · rfl
      · dsimp only
        split
        · rfl
        · rfl

/-- So is the execution of a buffer. -/
theorem executeBuffer_guarded (ops : List Command) :
    w.executeBuffer registry ops = .pure w := by
  unfold executeBuffer
  rw [busy]
  split
  · rfl
  · rfl

/-- So is a clear. -/
theorem clear_guarded : w.clear = .pure w := by
  unfold clear
  rw [busy]
  rfl

end Guarded

/-- Marking keeps the rows. -/
theorem alike_markChanged
    (w : World) (e : Entity) (t : ComponentTypeId) (field : String) :
    w.Alike (w.markChanged e t field).state := by
  unfold markChanged
  split
  · exact .refl w
  · split
    · exact .refl w
    · split
      · exact .refl w
      · exact alike_markRow w e _ t

theorem alike_setField
    (w : World) (e : Entity) (t : ComponentTypeId) (name : String)
    (value : List UInt8) : w.Alike (w.setField registry e t name value).state := by
  unfold setField
  split
  · exact (alike_writeRaw w e t _).trans (alike_markChanged _ e t name)
  · exact .refl w

end World

/-- During an iteration every operation but a compaction only extends the
world by what it creates. -/
theorem WorldOp.apply_extends
    {w : World} (busy : w.inIteration = true) (immediate : w.deferMoves = false)
    (valid : w.store.emptyArchetype < w.store.heap.length) {op : WorldOp}
    (other : op ≠ compact) :
    w.Extends (op.apply registry w).state (op.created w) := by
  cases op with
  | createEntity => exact World.createEntity_extends valid
  | createEntityPreassigned id =>
      exact World.createEntityPreassigned_extends valid id
  | createEntityPooled => exact World.createEntityPooled_extends valid
  | destroyEntity e =>
      rw [apply, World.destroyEntity_guarded busy]
      exact (World.Alike.refl w).extends
  | destroyEntityPooled e =>
      rw [apply, World.destroyEntityPooled_guarded busy]
      exact (World.Alike.refl w).extends
  | setEntityRange baseIndex => exact World.setSlots_extends w _
  | addRaw e t data =>
      exact (World.addRaw_guarded busy immediate e t data).extends
  | removeComponent e t =>
      rw [apply, World.removeComponent_guarded busy immediate]
      exact (World.Alike.refl w).extends
  | markChanged e t field => exact (World.alike_markChanged w e t field).extends
  | setField e t name value =>
      exact (World.alike_setField w e t name value).extends
  | executeBuffer ops =>
      rw [apply, World.executeBuffer_guarded busy]
      exact (World.Alike.refl w).extends
  | compact => exact absurd rfl other
  | clear =>
      rw [apply, World.clear_guarded busy]
      exact (World.Alike.refl w).extends
  | rehash order => exact { World.Alike.extends (World.Alike.refl w) with }

/-! ## A world that is walked -/

/-- While a query is walked, its answer is cached and accurate, and the guard is
up. -/
structure World.Walked (q : Query) (w : World) : Prop where
  sound : w.store.directory.Sound
  query : w.store.queryCache.cachedQueries.lookup q.membershipSignature = some q
  emptyValid : w.store.emptyArchetype < w.store.heap.length
  busy : w.inIteration = true
  immediate : w.deferMoves = false

/-- Erasing archetypes keeps the cached queries. -/
theorem QueryCache.eraseArchetypes_cachedQueries
    (qc : QueryCache) (dead : List Ptr) :
    (dead.foldl (fun qc p => qc.eraseArchetype p) qc).cachedQueries =
      qc.cachedQueries := by
  induction dead generalizing qc with
  | nil => rfl
  | cons p dead inductionHypothesis => exact inductionHypothesis _

namespace World

variable {q : Query} {w : World}

/-- The answer that is walked is what a scan would give. -/
theorem Walked.cachedArchetypes_eq (walked : w.Walked q) :
    w.cachedArchetypes q = w.store.archetypeList.filter fun p =>
      q.matchesArchetype (w.store.deref p) := by
  have entry := walked.sound.cached q.membershipSignature
  unfold cachedArchetypes
  change (AList.lookup _ w.store.directory.queryCache.cache).getD [] = _
  rw [entry]
  change (Option.map _ (w.store.queryCache.cachedQueries.lookup _)).getD [] = _
  rw [walked.query]
  rfl

/-- An extension leaves the walk going on. -/
theorem Walked.extends
    (walked : w.Walked q) {w' : World} {created : List Entity}
    (extended : w.Extends w' created) : w'.Walked q where
  sound := by
    refine ⟨?_, ?_⟩
    · change w'.store.archetypeList.Nodup
      rw [extended.archetypeList]
      exact walked.sound.listedOnce
    · change w'.store.queryCache.Accurate w'.store.deref w'.store.archetypeList
      rw [extended.archetypeList, extended.queryCache]
      exact walked.sound.cached.congr fun p _ => extended.componentIds p
  query := by
    rw [extended.queryCache]
    exact walked.query
  emptyValid := by
    rw [extended.emptyArchetype, extended.heap]
    exact walked.emptyValid
  busy := by
    unfold inIteration
    rw [extended.iterationDepth]
    exact walked.busy
  immediate := extended.deferMoves.trans walked.immediate

/-- So does a compaction. -/
theorem Walked.compact (walked : w.Walked q) : w.compact.Walked q where
  sound := walked.sound.compact
  query := (congrArg (AList.lookup q.membershipSignature)
    (QueryCache.eraseArchetypes_cachedQueries _ _)).trans walked.query
  emptyValid := walked.emptyValid
  busy := walked.busy
  immediate := walked.immediate

/-- Every operation leaves a walk going on. -/
theorem Walked.apply (walked : w.Walked q) (op : WorldOp) :
    (op.apply registry w).state.Walked q := by
  by_cases isCompact : op = .compact
  · rw [isCompact]
    exact walked.compact
  · exact walked.extends (WorldOp.apply_extends walked.busy walked.immediate
      walked.emptyValid isCompact)

/-- An extension keeps the answer. -/
theorem Extends.cachedArchetypes
    {w' : World} {created : List Entity} (extended : w.Extends w' created)
    (q : Query) : w'.cachedArchetypes q = w.cachedArchetypes q := by
  unfold World.cachedArchetypes
  rw [extended.queryCache]

/-- A compaction drops the vacant archetypes from the answer. -/
theorem Walked.cachedArchetypes_compact (walked : w.Walked q) :
    w.compact.cachedArchetypes q =
      (w.cachedArchetypes q).filter fun p => !w.store.isVacant p := by
  rw [walked.compact.cachedArchetypes_eq, walked.cachedArchetypes_eq,
    List.filter_filter]
  change List.filter _ (w.store.archetypeList.filter fun p =>
    !w.store.isVacant p) = _
  rw [List.filter_filter]
  exact List.filter_congr fun p _ => Bool.and_comm _ _

/-! ## What is ahead of a walk -/

/-- The entities a walk still has to visit from a row on, if nothing changes. -/
def ahead (q : Query) (index : Nat) (a : Ptr) (row : Nat) (w : World) :
    List Entity :=
  (w.store.deref a).entities.drop row ++
    ((w.cachedArchetypes q).drop (index + 1)).flatMap fun p =>
      (w.store.deref p).entities

/-- The list lost an archetype before its last position was read. -/
def Torn (q : Query) (count index : Nat) (w : World) : Prop :=
  index + 1 < count ∧ (w.cachedArchetypes q).length < count

variable {count index row : Nat} {a : Ptr}

/-- New rows of the empty archetype lengthen what is ahead once for each time it
is still to be walked. -/
theorem length_ahead_extends
    {w' : World} {created : List Entity} (extended : w.Extends w' created)
    (rows : row ≤ (w.store.deref a).entities.length) :
    (w'.ahead q index a row).length = (w.ahead q index a row).length +
      ((if a = w.store.emptyArchetype then 1 else 0) +
        ((w.cachedArchetypes q).drop (index + 1)).count
          w.store.emptyArchetype) * created.length := by
  have listed : ∀ ps : List Ptr,
      (ps.flatMap fun p => (w'.store.deref p).entities).length =
        (ps.flatMap fun p => (w.store.deref p).entities).length +
          ps.count w.store.emptyArchetype * created.length := by
    intro ps
    induction ps with
    | nil => simp
    | cons p ps inductionHypothesis =>
        rw [List.flatMap_cons, List.flatMap_cons, List.length_append,
          List.length_append, inductionHypothesis, extended.entities,
          List.length_append, List.count_cons]
        by_cases isEmpty : p = w.store.emptyArchetype
        · simp [isEmpty]
          ring
        · simp [isEmpty]
          ring
  unfold ahead
  rw [extended.cachedArchetypes, List.length_append,
    List.length_append, listed, List.length_drop, List.length_drop,
    extended.entities, List.length_append]
  split
  · rw [Nat.add_mul, Nat.one_mul]
    omega
  · rw [Nat.add_mul, Nat.zero_mul, List.length_nil]
    omega

/-- Nothing is created where the walk still gets to. -/
theorem ahead_extends
    {w' : World} {created : List Entity} (extended : w.Extends w' created)
    (elsewhere : created ≠ [] → w.store.emptyArchetype ≠ a ∧
      w.store.emptyArchetype ∉ (w.cachedArchetypes q).drop (index + 1)) :
    w'.ahead q index a row = w.ahead q index a row := by
  have unchanged : ∀ p, (p = w.store.emptyArchetype → created = []) →
      (w'.store.deref p).entities = (w.store.deref p).entities := by
    intro p none
    rw [extended.entities]
    split
    · rw [none ‹_›, List.append_nil]
    · rw [List.append_nil]
  have own := unchanged a fun here =>
    by_contra fun some => (elsewhere some).1 here.symm
  have later := List.flatMap_congr fun p
      (member : p ∈ (w.cachedArchetypes q).drop (index + 1)) =>
    unchanged p fun here => by_contra fun some =>
      (elsewhere some).2 (here ▸ member)
  unfold ahead
  rw [extended.cachedArchetypes, own, later]

/-- A walk that is at a row: the archetype is listed, and no more archetypes
match than when it began. -/
structure AtRow (q : Query) (count : Nat) (a : Ptr) (row : Nat) (w : World) :
    Prop where
  walked : w.Walked q
  bounded : (w.cachedArchetypes q).length ≤ count
  listed : a ∈ w.store.archetypeList
  rows : row ≤ (w.store.deref a).entities.length
  someRow : (w.store.deref a).entities ≠ []

/-- What one operation of a callback does to the walk. -/
structure OpEffect (q : Query) (count index : Nat) (a : Ptr) (row : Nat)
    (w w' : World) (harmless : Prop) : Prop where
  atRow : w'.AtRow q count a row
  torn : w.Torn q count index → w'.Torn q count index
  kept : ¬w.Torn q count index → harmless →
    ¬w'.Torn q count index ∧ w'.ahead q index a row = w.ahead q index a row
  harmed : ¬w.Torn q count index → ¬harmless → w'.Torn q count index ∨
    (w.ahead q index a row).length < (w'.ahead q index a row).length

/-- Nothing that was ahead gets lost without the list being torn. -/
theorem OpEffect.grows
    {w' : World} {harmless : Prop}
    (effect : w.OpEffect q count index a row w' harmless)
    (whole : ¬w.Torn q count index) : w'.Torn q count index ∨
      (w.ahead q index a row).length ≤ (w'.ahead q index a row).length := by
  by_cases isHarmless : harmless
  · rw [(effect.kept whole isHarmless).2]
    exact Or.inr (le_refl _)
  · exact (effect.harmed whole isHarmless).imp_right Nat.le_of_lt

/-- A compaction does no harm unless it moves the answer under the walk. -/
theorem compact_opEffect (at' : w.AtRow q count a row) :
    w.OpEffect q count index a row w.compact
      (WorldOp.compact.Harmless q count index a w) := by
  have cached := at'.walked.cachedArchetypes_compact
  have shorter : (w.compact.cachedArchetypes q).length ≤
      (w.cachedArchetypes q).length := by
    rw [cached]
    exact List.length_filter_le _ _
  have occupied : w.store.isVacant a = false := by
    unfold ArchetypeStore.isVacant
    rw [decide_eq_false_iff_not]
    exact fun vacant => at'.someRow vacant.2
  have harmlessIff : WorldOp.compact.Harmless q count index a w ↔
      (index + 1 < count → ∀ p ∈ w.cachedArchetypes q,
        ¬w.store.isVacant p = true) :=
    ⟨fun harmless => harmless.1 rfl,
      fun spares => ⟨fun _ => spares, fun some => absurd rfl some⟩⟩
  have spared : (∀ p ∈ w.cachedArchetypes q, ¬w.store.isVacant p = true) →
      w.compact.cachedArchetypes q = w.cachedArchetypes q := by
    intro spares
    rw [cached, List.filter_eq_self]
    intro p member
    rw [Bool.not_eq_true', Bool.eq_false_iff]
    exact spares p member
  refine ⟨⟨at'.walked.compact, shorter.trans at'.bounded, ?_, at'.rows,
    at'.someRow⟩, fun torn => ⟨torn.1, Nat.lt_of_le_of_lt shorter torn.2⟩, ?_, ?_⟩
  · exact List.mem_filter.mpr ⟨at'.listed, by rw [occupied]; rfl⟩
  · intro whole harmless
    by_cases more : index + 1 < count
    · have same := spared (harmlessIff.mp harmless more)
      refine ⟨fun torn => whole ⟨torn.1, same ▸ torn.2⟩, ?_⟩
      unfold ahead
      rw [same]
      rfl
    · refine ⟨fun torn => more torn.1, ?_⟩
      have bounded := at'.bounded
      have ended : (w.cachedArchetypes q).drop (index + 1) = [] :=
        List.drop_eq_nil_of_le (by omega)
      have ended' : (w.compact.cachedArchetypes q).drop (index + 1) = [] :=
        List.drop_eq_nil_of_le (by omega)
      unfold ahead
      rw [ended, ended']
      rfl
  · intro whole harm
    rw [harmlessIff, Classical.not_imp] at harm
    obtain ⟨more, freed⟩ := harm
    obtain ⟨p, member, vacant⟩ : ∃ p ∈ w.cachedArchetypes q,
        w.store.isVacant p = true := by
      by_contra none
      exact freed fun p member vacant => none ⟨p, member, vacant⟩
    refine Or.inl ⟨more, Nat.lt_of_lt_of_le ?_ at'.bounded⟩
    rw [cached]
    exact List.length_filter_lt_length_iff_exists.mpr
      ⟨p, member, by rw [vacant]; exact Bool.false_ne_true⟩

/-- An extension does no harm to the walk. -/
theorem extends_opEffect
    {w' : World} (at' : w.AtRow q count a row) {op : WorldOp}
    (other : op ≠ .compact) (extended : w.Extends w' (op.created w)) :
    w.OpEffect q count index a row w' (op.Harmless q count index a w) := by
  have cached := extended.cachedArchetypes q
  have tornIff : w'.Torn q count index ↔ w.Torn q count index := by
    unfold Torn
    rw [cached]
  have longer : (w.store.deref a).entities.length ≤
      (w'.store.deref a).entities.length := by
    rw [extended.entities, List.length_append]
    exact Nat.le_add_right _ _
  refine ⟨⟨at'.walked.extends extended, cached ▸ at'.bounded,
    extended.archetypeList ▸ at'.listed, at'.rows.trans longer,
    fun none => at'.someRow ?_⟩, tornIff.mpr, fun whole harmless =>
      ⟨tornIff.not.mpr whole, ahead_extends extended harmless.2⟩,
    fun whole harm => Or.inr ?_⟩
  · rw [extended.entities] at none
    exact (List.append_eq_nil_iff.mp none).1
  · have some : op.created w ≠ [] ∧ (w.store.emptyArchetype = a ∨
        w.store.emptyArchetype ∈ (w.cachedArchetypes q).drop (index + 1)) := by
      by_contra neither
      apply harm
      refine ⟨fun isCompact => absurd isCompact other, fun some => ?_⟩
      exact not_or.mp fun still => neither ⟨some, still⟩
    rw [length_ahead_extends extended at'.rows]
    have created := List.length_pos_iff.mpr some.1
    have times : 0 < (if a = w.store.emptyArchetype then 1 else 0) +
        ((w.cachedArchetypes q).drop (index + 1)).count
          w.store.emptyArchetype := by
      obtain here | later := some.2
      · rw [if_pos here.symm]
        exact Nat.add_pos_left Nat.one_pos _
      · exact Nat.add_pos_right _ (List.count_pos_iff.mpr later)
    exact Nat.lt_add_of_pos_right (Nat.mul_pos times created)

/-- What an operation does to a walk. -/
theorem apply_opEffect
    (at' : w.AtRow q count a row) (op : WorldOp) :
    w.OpEffect q count index a row (op.apply registry w).state
      (op.Harmless q count index a w) := by
  by_cases isCompact : op = .compact
  · rw [isCompact]
    exact compact_opEffect at'
  · exact extends_opEffect at' isCompact (WorldOp.apply_extends
      at'.walked.busy at'.walked.immediate at'.walked.emptyValid isCompact)

/-- What a whole call does to the walk. -/
theorem perform_opEffect
    (at' : w.AtRow q count a row) (ops : List WorldOp) :
    w.OpEffect q count index a row (w.perform registry ops)
      (w.PerformsHarmless registry q count index a ops) := by
  induction ops generalizing w with
  | nil =>
      exact ⟨at', id, fun whole _ => ⟨whole, rfl⟩,
        fun _ harm => absurd trivial harm⟩
  | cons op ops inductionHypothesis =>
      have first : w.OpEffect q count index a row (op.apply registry w).state _ :=
        apply_opEffect at' op
      have later := inductionHypothesis first.atRow
      refine ⟨later.atRow, fun torn => later.torn (first.torn torn),
        fun whole harmless => ?_, fun whole harm => ?_⟩
      · obtain ⟨wholeThen, same⟩ := first.kept whole harmless.1
        obtain ⟨wholeLast, sameLast⟩ := later.kept wholeThen harmless.2
        exact ⟨wholeLast, sameLast.trans same⟩
      · by_cases firstHarmless : op.Harmless q count index a w
        · obtain ⟨wholeThen, same⟩ := first.kept whole firstHarmless
          rw [← same]
          exact later.harmed wholeThen fun rest => harm ⟨firstHarmless, rest⟩
        · obtain torn | longer := first.harmed whole firstHarmless
          · exact Or.inl (later.torn torn)
          · by_cases torn : (op.apply registry w).state.Torn q count index
            · exact Or.inl (later.torn torn)
            · exact (later.grows torn).imp_right (Nat.lt_of_lt_of_le longer)

end World
end VortarisECS
