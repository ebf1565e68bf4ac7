import VortarisECS.Core.WorldModes
import VortarisECS.Reflect.TypeTraits
import VortarisECS.Serialization.Install

/-!
# Creation together with components

A script creates an entity and adds its components in one call.  The creation
always takes effect, but an iteration refuses the additions and the rollback,
and a deferred window queues the additions behind what is already queued for the
same id.
-/

namespace VortarisECS

/-- A dictionary of component names to field dictionaries: its entries. -/
abbrev NamedComponents := List (String × List (Variant × Variant))

namespace World

variable (engine : Engine) (registry : ComponentRegistry)

/-- `VECSWorld::create_entity`: the handle is valid even without an id. -/
def createEntityRef (w : World) : Traced Effect World × Option Entity :=
  (w.createEntity.1, some w.createEntity.2)

/-- `VECSWorld::create_entity_preassigned`. -/
def createEntityPreassignedRef (w : World) (id : Int64) :
    Traced Effect World × Option Entity :=
  if id ≤ 0 then (.pure w, none)
  else
    let e := w.preassignedHandle id.toUInt64
    (w.createEntityPreassigned id.toUInt64,
      if e = Entity.null then none else some e)

/-- `VECSEntity::add_component`. -/
def addComponent (w : World) (e : Entity) (name : String)
    (fields : List (Variant × Variant)) : Traced Effect World :=
  let t := registry.idOf name
  if t = invalidComponentType then .pure w
  else if !w.isAlive e then .pure w
  else
    match registry.schemaOf t with
    | none => .pure w
    | some schema =>
        w.addRaw registry e t (some (componentDictToBytes engine schema fields))

/-- The creation at the head of `create_with_components`. -/
def createForDef (w : World) (defId : Int64) :
    Traced Effect World × Option Entity :=
  if 0 < defId then w.createEntityPreassignedRef defId
  else w.createEntityRef

/-- The loop that adds the components. -/
def addComponents (w : World) (e : Entity) (components : NamedComponents) :
    Traced Effect World :=
  Traced.forEach (fun w entry =>
    w.addComponent engine registry e entry.1 entry.2) w components

/-- `VECSWorld::create_with_components`. -/
def createWithComponents (w : World) (defId : Int64)
    (components : NamedComponents) : Traced Effect World × Option Entity :=
  match w.createForDef defId with
  | (created, none) => (created, none)
  | (created, some e) =>
      if ∃ entry ∈ components, registry.idOf entry.1 = invalidComponentType then
        (created.andThen (·.destroyEntity e), none)
      else
        (created.andThen (·.addComponents engine registry e components),
          some e)

/-! ## What the call promises -/

/-- The bytes of a component with the given fields. -/
def givenBytes (name : String) (fields : List (Variant × Variant)) :
    List UInt8 :=
  match registry.schemaOf (registry.idOf name) with
  | none => []
  | some schema =>
      componentBytes schema.size
        (some (componentDictToBytes engine schema fields))

/-- Put the given components over others. -/
def putGiven (components : NamedComponents) (base : Components) : Components :=
  components.foldl (fun had entry =>
    had.put (registry.idOf entry.1)
      (some (givenBytes engine registry entry.1 entry.2))) base

/-- The given components and no others. -/
def givenComponents (components : NamedComponents) : Components :=
  putGiven engine registry components fun _ => none

/-- The call returned a null handle and left the contents alone, or it returned
a new live entity that has the given components as soon as the window is
committed; all other entities are as they would be without the call. -/
def AllOrNothing (w : World) (defId : Int64) (components : NamedComponents) :
    Prop :=
  let called := w.createWithComponents engine registry defId components
  match called.2 with
  | none => called.1.state.contents = w.contents
  | some e =>
      w.isAlive e = false ∧ called.1.state.isAlive e = true ∧
      (∀ x, x ≠ e → called.1.state.contents x = w.contents x) ∧
      (called.1.state.endDeferredMoves registry).state.contents e =
        some (givenComponents engine registry components) ∧
      ∀ x, x ≠ e →
        (called.1.state.endDeferredMoves registry).state.contents x =
          (w.endDeferredMoves registry).state.contents x

/-! ## When it keeps the promise -/

/-- The handle the creation will return. -/
def nextHandle (w : World) (defId : Int64) : Option Entity :=
  if 0 < defId then
    let e := w.preassignedHandle defId.toUInt64
    if e = Entity.null then none else some e
  else some w.slots.allocEntityId.2

/-- The additions will take effect, and nothing else will: the window has
queued nothing for the id but additions of named components, and an iteration
is not asked for any. -/
def AddsWhole (w : World) (e : Entity) (components : NamedComponents) : Prop :=
  if w.deferMoves then
    if e ∈ w.pendingDestroy then w.inIteration = true ∧ components = []
    else ∀ t, (∀ entry ∈ components, registry.idOf entry.1 ≠ t) →
      Components.executeAll registry (fun _ => none)
        ((w.pendingOps.lookup e).getD []) t = none
  else w.inIteration = true → components = []

/-- The creation is refused, or it can be completed, or it can be undone. -/
def CreatesWhole (w : World) (defId : Int64) (components : NamedComponents) :
    Prop :=
  match w.nextHandle defId with
  | none => True
  | some e =>
      if ∃ entry ∈ components, registry.idOf entry.1 = invalidComponentType then
        w.inIteration = true → e = Entity.null
      else e ≠ Entity.null ∧ w.AddsWhole registry e components

variable {engine registry} {w : World} {e : Entity}
variable {defId : Int64} {components : NamedComponents}

/-! ## The creation -/

/-- A positive id is asked for. -/
theorem createForDef_positive (w : World) (positive : 0 < defId) :
    w.createForDef defId =
      (w.createEntityPreassigned defId.toUInt64, w.nextHandle defId) := by
  unfold createForDef createEntityPreassignedRef nextHandle
  rw [if_pos positive, if_neg (Int64.not_le.mpr positive), if_pos positive]

/-- Any other one is handed out. -/
theorem createForDef_automatic (w : World) (automatic : ¬0 < defId) :
    w.createForDef defId = (w.createEntity.1, w.nextHandle defId) := by
  unfold createForDef createEntityRef nextHandle createEntity
  rw [if_neg automatic, if_neg automatic]
  dsimp only
  split <;> rfl

/-- The handle is known beforehand. -/
theorem createForDef_handle (w : World) (defId : Int64) :
    (w.createForDef defId).2 = w.nextHandle defId := by
  by_cases positive : 0 < defId
  · rw [createForDef_positive w positive]
  · rw [createForDef_automatic w positive]

theorem createForDef_control (w : World) (defId : Int64) :
    (w.createForDef defId).1.state.control = w.control := by
  by_cases positive : 0 < defId
  · rw [createForDef_positive w positive]
    exact createEntityPreassigned_control w _
  · rw [createForDef_automatic w positive]
    exact createEntity_control w

/-- The creation takes steps of the world. -/
theorem createForDef_realizes (defId : Int64) :
    Realizes registry (World.Stable registry) Effect.IssuesDead
      fun w => (w.createForDef defId).1 := by
  intro w stable issuesDead
  dsimp only at issuesDead ⊢
  by_cases positive : 0 < defId
  · rw [createForDef_positive w positive] at issuesDead ⊢
    exact createEntityPreassigned_realizes _ w stable issuesDead
  · rw [createForDef_automatic w positive] at issuesDead ⊢
    exact createEntity_realizes w stable issuesDead

/-- The creation does nothing, or it brings its entity to life. -/
theorem createForDef_contents
    (stable : w.Stable registry)
    (issuesDead : Traced.Accepted Effect.IssuesDead (w.createForDef defId).1) :
    match w.nextHandle defId with
    | none => (w.createForDef defId).1.state.contents = w.contents
    | some e =>
        if e = Entity.null then
          (w.createForDef defId).1.state.contents = w.contents
        else w.isAlive e = false ∧
          (w.createForDef defId).1.state.contents = w.contents.spawn e := by
  by_cases positive : 0 < defId
  · rw [createForDef_positive w positive]
    unfold nextHandle
    rw [if_pos positive]
    dsimp only
    by_cases refused : w.preassignedHandle defId.toUInt64 = Entity.null
    · rw [if_pos refused]
      exact createEntityPreassigned_refused refused
    · obtain ⟨accepted, dead⟩ := preassignedHandle_given refused
      obtain ⟨handle, -, spawned⟩ :=
        createEntityPreassigned_spawns stable accepted dead
      rw [if_neg refused]
      dsimp only
      rw [if_neg refused, handle]
      exact ⟨dead, spawned⟩
  · rw [createForDef_automatic w positive] at issuesDead ⊢
    have handle : w.slots.allocEntityId.2 = w.createEntity.2 := by
      unfold createEntity
      dsimp only
      split <;> rfl
    have dead : w.createEntity.2 ≠ Entity.null →
        w.isAlive w.createEntity.2 = false := by
      intro real
      have accepted : Traced.Accepted Effect.IssuesDead w.createEntity.1 :=
        issuesDead
      unfold createEntity at real accepted ⊢
      dsimp only at real accepted ⊢
      split
      · rename_i isNull
        rw [if_pos isNull] at real
        exact absurd isNull real
      · rename_i isReal
        rw [if_neg isReal] at accepted
        exact accepted _ (List.mem_singleton_self _)
    have created := createEntity_contents stable.consistent dead
    unfold nextHandle
    rw [if_neg positive, handle]
    dsimp only
    by_cases isNull : w.createEntity.2 = Entity.null
    · rw [if_pos isNull]
      rw [if_pos isNull] at created
      exact created
    · rw [if_neg isNull]
      rw [if_neg isNull] at created
      exact ⟨dead isNull, created⟩

/-! ## The additions -/

/-- A named component is added with the fields that are given, and zeros. -/
theorem addComponent_eq
    {name : String} {schema : ComponentSchema} (alive : w.isAlive e = true)
    (hasId : registry.idOf name ≠ invalidComponentType)
    (registered : registry.schemaOf (registry.idOf name) = some schema)
    (fields : List (Variant × Variant)) :
    w.addComponent engine registry e name fields =
      w.addRaw registry e (registry.idOf name)
        (some (componentDictToBytes engine schema fields)) := by
  unfold addComponent
  dsimp only
  rw [if_neg hasId, alive, registered]
  rfl

/-- Additions to the entity take effect now or at the end of the window. -/
def TakesAdditions (w : World) (e : Entity) : Prop :=
  if w.deferMoves then e ∉ w.pendingDestroy else w.inIteration = false

/-- Since `start` the call has done nothing but add components to `e`: if it
could, what it will have done to them is `added`. -/
structure Adding (registry : ComponentRegistry) (start : World) (e : Entity)
    (added : Components → Components) (w : World) : Prop where
  stable : w.Stable registry
  listed : w.control.Listed
  alive : w.isAlive e = true
  deferMoves : w.deferMoves = start.deferMoves
  inIteration : w.inIteration = start.inIteration
  pendingDestroy : w.pendingDestroy = start.pendingDestroy
  queuedElsewhere : ∀ x, x ≠ e →
    (w.pendingOps.lookup x).getD [] = (start.pendingOps.lookup x).getD []
  elsewhere : ∀ x, x ≠ e → w.contents x = start.contents x
  settledElsewhere : ∀ x, x ≠ e →
    w.settled registry x = start.settled registry x
  taken : start.TakesAdditions e →
    w.settled registry e = (start.settled registry e).map added
  refused : ¬start.TakesAdditions e →
    w.settled registry e = start.settled registry e
  bare : start.deferMoves = true ∨ start.inIteration = true →
    w.contents e = some fun _ => none

/-- Queueing an operation opens no walk or window and destroys nobody. -/
theorem deferOp_mode (w : World) (e : Entity) (op : PendingComponentOp) :
    (w.deferOp e op).deferMoves = w.deferMoves ∧
    (w.deferOp e op).inIteration = w.inIteration ∧
    (w.deferOp e op).pendingDestroy = w.pendingDestroy := by
  obtain ⟨-, destroyEq, deferEq, depthEq⟩ := queueDeferredMove_queues
    { w with
      pendingOps := w.pendingOps.insert e
        ((w.pendingOps.lookup e).getD [] ++ [op]) } e
  refine ⟨deferEq, ?_, destroyEq⟩
  unfold inIteration deferOp
  rw [depthEq]

/-- A queued operation is executed at the end of the window, unless the entity
is destroyed there. -/
theorem deferOp_settled
    (deferred : w.deferMoves = true) {op : PendingComponentOp}
    (sound : op.Sound registry) (x : Entity) :
    (w.deferOp e op).settled registry x =
      if x = e ∧ e ∉ w.pendingDestroy then
        (w.settled registry e).map (·.execute registry op)
      else w.settled registry x := by
  obtain ⟨deferEq, iterationEq, destroyEq⟩ := deferOp_mode w e op
  have contentsEq : (w.deferOp e op).contents = w.contents :=
    contents_congr (agrees_deferOp w e sound).store_eq
  unfold settled
  rw [deferEq, iterationEq, destroyEq, contentsEq, deferOp_lookup, deferred,
    if_pos rfl, if_pos rfl, if_pos rfl]
  by_cases isSelf : x = e
  · subst isSelf
    by_cases doomed : x ∈ w.pendingDestroy
    · simp only [doomed, not_true_eq_false, and_false, if_true, if_false]
    · simp only [doomed, not_false_eq_true, and_self, if_true, if_false]
      rw [Option.map_map]
      congr 1
      funext base
      exact Components.executeAll_append base _ op
  · simp only [isSelf, false_and, if_false, List.append_nil]

section Adding

variable {start : World} {added : Components → Components}

/-- What the addition of registered components does. -/
theorem addRaw_settled
    (stable : w.Stable registry) (alive : w.isAlive e = true)
    {t : ComponentTypeId} {schema : ComponentSchema}
    (registered : registry.schemaOf t = some schema) (bytes : List UInt8)
    (takes : w.TakesAdditions e) :
    (w.addRaw registry e t (some bytes)).state.settled registry e =
      (w.settled registry e).map
        (·.put t (some (componentBytes schema.size (some bytes)))) := by
  unfold TakesAdditions at takes
  cases deferred : w.deferMoves with
  | true =>
      rw [deferred, if_pos rfl] at takes
      obtain ⟨op, sound, executes, queues⟩ := addRaw_queues (some bytes) alive
        registered deferred
      rw [queues, Traced.pure_state, deferOp_settled deferred sound,
        if_pos ⟨rfl, takes⟩]
      exact congrArg (fun change => (w.settled registry e).map change)
        (funext executes)
  | false =>
      rw [deferred, if_neg Bool.false_ne_true] at takes
      have control : (w.addRaw registry e t (some bytes)).state.control =
          w.control := addRaw_control deferred e t (some bytes)
      rw [settled_of_immediate deferred,
        settled_of_immediate ((congrArg Control.deferMoves control).trans
          deferred),
        addRaw_contents stable.consistent deferred takes, registered,
        if_pos (show (some schema).isSome = true from rfl),
        ComponentRegistry.sizeOf_of_schemaOf registered, Contents.put,
        Contents.adjust_self]

/-- Neither does an addition. -/
theorem addRaw_mode (w : World) (e : Entity) (t : ComponentTypeId)
    (data : Option (List UInt8)) :
    (w.addRaw registry e t data).state.deferMoves = w.deferMoves ∧
    (w.addRaw registry e t data).state.inIteration = w.inIteration ∧
    (w.addRaw registry e t data).state.pendingDestroy = w.pendingDestroy := by
  cases deferred : w.deferMoves with
  | false =>
      have control : (w.addRaw registry e t data).state.control = w.control :=
        addRaw_control deferred e t data
      exact ⟨(congrArg Control.deferMoves control).trans deferred,
        inIteration_congr control, congrArg Control.pendingDestroy control⟩
  | true =>
      unfold addRaw
      rw [deferred]
      split
      · exact ⟨deferred, rfl, rfl⟩
      · split
        · rw [if_pos rfl]
          obtain ⟨deferEq, rest⟩ := deferOp_mode w e _
          exact ⟨deferEq.trans deferred, rest⟩
        · exact ⟨deferred, rfl, rfl⟩

/-- An addition is queued under its entity. -/
theorem addRaw_pendingOps
    (w : World) (t : ComponentTypeId) (data : Option (List UInt8)) {x : Entity}
    (other : x ≠ e) :
    ((w.addRaw registry e t data).state.pendingOps.lookup x).getD [] =
      (w.pendingOps.lookup x).getD [] := by
  cases deferred : w.deferMoves with
  | false =>
      have control : (w.addRaw registry e t data).state.control = w.control :=
        addRaw_control deferred e t data
      exact congrArg (fun c => (c.pendingOps.lookup x).getD []) control
  | true =>
      unfold addRaw
      rw [deferred]
      split
      · rfl
      · split
        · rw [if_pos rfl, Traced.pure_state, deferOp_lookup, if_neg other,
            List.append_nil]
        · rfl

/-- A queued addition leaves the contents alone. -/
theorem addRaw_contents_deferred
    (deferred : w.deferMoves = true) (t : ComponentTypeId)
    (data : Option (List UInt8)) :
    (w.addRaw registry e t data).state.contents = w.contents := by
  cases registered : registry.schemaOf t with
  | none => rw [addRaw_unregistered data registered, Traced.pure_state]
  | some schema =>
  cases alive : w.isAlive e with
  | false => rw [addRaw_dead data alive, Traced.pure_state]
  | true =>
      obtain ⟨op, sound, -, queues⟩ := addRaw_queues data alive registered
        deferred
      rw [queues, Traced.pure_state]
      exact contents_congr (agrees_deferOp w e sound).store_eq

/-- An entity without components gets none during an iteration. -/
theorem addRaw_bare
    (immediate : w.deferMoves = false) (iterating : w.inIteration = true)
    (bare : w.contents e = some fun _ => none) (t : ComponentTypeId)
    (data : Option (List UInt8)) : w.addRaw registry e t data = .pure w := by
  have alive : w.isAlive e = true := by
    rw [← contents_isSome, bare]
    rfl
  obtain ⟨loc, location⟩ := location_of_isAlive alive
  rw [contents_of_alive alive, Option.some.injEq] at bare
  refine addRaw_iterating data location immediate ?_ iterating
  rw [← bytesAt_isSome_iff location t, bare]
  exact Bool.false_ne_true

/-- An addition concerns its entity. -/
theorem addRaw_elsewhere
    (stable : w.Stable registry)
    (bare : w.deferMoves = false → w.inIteration = true →
      w.contents e = some fun _ => none)
    (t : ComponentTypeId) (data : Option (List UInt8)) {x : Entity}
    (other : x ≠ e) :
    (w.addRaw registry e t data).state.contents x = w.contents x ∧
    (w.addRaw registry e t data).state.settled registry x =
      w.settled registry x := by
  cases deferred : w.deferMoves with
  | false =>
      rw [settled_of_immediate deferred,
        settled_of_immediate ((addRaw_mode w e t data).1.trans deferred)]
      refine (and_self_iff).mpr ?_
      cases iterating : w.inIteration with
      | true =>
          rw [addRaw_bare deferred iterating (bare deferred iterating),
            Traced.pure_state]
      | false =>
          rw [addRaw_contents stable.consistent deferred iterating]
          split
          · exact Contents.adjust_of_ne _ _ other
          · rfl
  | true =>
      refine ⟨congrFun (addRaw_contents_deferred deferred t data) x, ?_⟩
      cases registered : registry.schemaOf t with
      | none => rw [addRaw_unregistered data registered, Traced.pure_state]
      | some schema =>
      cases alive : w.isAlive e with
      | false => rw [addRaw_dead data alive, Traced.pure_state]
      | true =>
      obtain ⟨op, sound, -, queues⟩ := addRaw_queues data alive registered
        deferred
      rw [queues, Traced.pure_state, deferOp_settled deferred sound,
        if_neg fun both => other both.1]

/-- An addition that takes no effect. -/
theorem addRaw_untaken
    (bare : w.deferMoves = false → w.inIteration = true →
      w.contents e = some fun _ => none)
    (alive : w.isAlive e = true) {t : ComponentTypeId}
    {schema : ComponentSchema} (registered : registry.schemaOf t = some schema)
    (data : Option (List UInt8)) (untaken : ¬w.TakesAdditions e) :
    (w.addRaw registry e t data).state.settled registry e =
      w.settled registry e := by
  unfold TakesAdditions at untaken
  cases deferred : w.deferMoves with
  | true =>
      rw [deferred, if_pos rfl] at untaken
      obtain ⟨op, sound, -, queues⟩ := addRaw_queues data alive registered
        deferred
      rw [queues, Traced.pure_state, deferOp_settled deferred sound,
        if_neg fun both => untaken both.2]
  | false =>
      rw [deferred, if_neg Bool.false_ne_true, Bool.not_eq_false] at untaken
      rw [addRaw_bare deferred untaken (bare deferred untaken),
        Traced.pure_state]

/-- An addition leaves its entity alive. -/
theorem addRaw_alive
    (stable : w.Stable registry)
    (bare : w.deferMoves = false → w.inIteration = true →
      w.contents e = some fun _ => none)
    (alive : w.isAlive e = true) {t : ComponentTypeId}
    {schema : ComponentSchema} (registered : registry.schemaOf t = some schema)
    (data : Option (List UInt8)) :
    (w.addRaw registry e t data).state.isAlive e = true := by
  cases deferred : w.deferMoves with
  | true =>
      rw [← contents_isSome, addRaw_contents_deferred deferred, contents_isSome,
        alive]
  | false =>
      cases iterating : w.inIteration with
      | true =>
          rw [addRaw_bare deferred iterating (bare deferred iterating),
            Traced.pure_state, alive]
      | false =>
          rw [← contents_isSome,
            addRaw_contents stable.consistent deferred iterating, registered,
            if_pos (show (some schema).isSome = true from rfl), Contents.put,
            Contents.adjust_self, Option.isSome_map, contents_isSome, alive]

/-- One more addition. -/
theorem Adding.addRaw
    (adding : Adding registry start e added w) {t : ComponentTypeId}
    {schema : ComponentSchema} (registered : registry.schemaOf t = some schema)
    (bytes : List UInt8) :
    Adding registry start e
      (fun base => (added base).put t
        (some (componentBytes schema.size (some bytes))))
      (w.addRaw registry e t (some bytes)).state := by
  obtain ⟨deferEq, iterationEq, destroyEq⟩ :
      (w.addRaw registry e t (some bytes)).state.deferMoves = w.deferMoves ∧
      (w.addRaw registry e t (some bytes)).state.inIteration = w.inIteration ∧
      (w.addRaw registry e t (some bytes)).state.pendingDestroy =
        w.pendingDestroy := addRaw_mode w e t (some bytes)
  have bare : w.deferMoves = false → w.inIteration = true →
      w.contents e = some fun _ => none := fun _ iterating =>
    adding.bare (Or.inr (adding.inIteration.symm.trans iterating))
  have takes : start.TakesAdditions e ↔ w.TakesAdditions e := by
    unfold TakesAdditions
    rw [adding.deferMoves, adding.inIteration, adding.pendingDestroy]
  have elsewhere := fun x (other : x ≠ e) =>
    addRaw_elsewhere adding.stable bare t (some bytes) other
  exact {
    stable := adding.stable.keeps
      (addRaw_realizes (stable_inductiveOn registry) e t _)
      (addRaw_createsNothing w e t _)
    listed := listed_addRaw adding.listed e t _
    alive := addRaw_alive adding.stable bare adding.alive registered _
    deferMoves := deferEq.trans adding.deferMoves
    inIteration := iterationEq.trans adding.inIteration
    pendingDestroy := destroyEq.trans adding.pendingDestroy
    queuedElsewhere := fun x other =>
      (addRaw_pendingOps w t _ other).trans (adding.queuedElsewhere x other)
    elsewhere := fun x other =>
      (elsewhere x other).1.trans (adding.elsewhere x other)
    settledElsewhere := fun x other =>
      (elsewhere x other).2.trans (adding.settledElsewhere x other)
    taken := fun taken => by
      rw [addRaw_settled adding.stable adding.alive registered bytes
        (takes.mp taken), adding.taken taken, Option.map_map]
      rfl
    refused := fun refused => by
      rw [addRaw_untaken bare adding.alive registered _
        (takes.not.mp refused), adding.refused refused]
    bare := fun closed => by
      cases deferred : w.deferMoves with
      | true =>
          rw [addRaw_contents_deferred deferred]
          exact adding.bare closed
      | false =>
          have iterating : w.inIteration = true := by
            rw [adding.deferMoves] at deferred
            rw [adding.inIteration]
            exact closed.resolve_left (by rw [deferred]; exact Bool.false_ne_true)
          rw [addRaw_bare deferred iterating (adding.bare closed)]
          exact adding.bare closed }

/-- All additions, one after the other. -/
theorem Adding.addComponents
    (adding : Adding registry start e added w) {components : NamedComponents}
    (registered : ∀ entry ∈ components,
      registry.idOf entry.1 ≠ invalidComponentType ∧
      (registry.schemaOf (registry.idOf entry.1)).isSome) :
    Adding registry start e
      (fun base => putGiven engine registry components (added base))
      (w.addComponents engine registry e components).state := by
  induction components generalizing w added with
  | nil => exact adding
  | cons entry components inductionHypothesis =>
      obtain ⟨hasId, isSome⟩ := registered entry List.mem_cons_self
      obtain ⟨schema, found⟩ := Option.isSome_iff_exists.mp isSome
      have next := adding.addRaw found
        (componentDictToBytes engine schema entry.2)
      unfold World.addComponents
      rw [Traced.forEach_cons, Traced.andThen_state,
        addComponent_eq adding.alive hasId found]
      have last := inductionHypothesis next fun later member =>
        registered later (List.mem_cons_of_mem entry member)
      have first : ∀ base, putGiven engine registry (entry :: components) base =
          putGiven engine registry components
            (base.put (registry.idOf entry.1)
              (some (componentBytes schema.size
                (some (componentDictToBytes engine schema entry.2))))) := by
        intro base
        unfold putGiven givenBytes
        rw [List.foldl_cons, found]
      simp only [first]
      exact last

end Adding

/-! ## What is put -/

/-- A component that is put does not depend on what was there. -/
theorem putGiven_apply (components : NamedComponents) (base : Components)
    (t : ComponentTypeId) :
    putGiven engine registry components base t =
      (givenComponents engine registry components t).or (base t) := by
  unfold givenComponents putGiven
  induction components using List.reverseRecOn with
  | nil => rfl
  | append_singleton components entry inductionHypothesis =>
      rw [List.foldl_append, List.foldl_append]
      unfold Components.put
      dsimp only [List.foldl_cons, List.foldl_nil]
      by_cases here : t = registry.idOf entry.1
      · rw [if_pos here, if_pos here]
        rfl
      · rw [if_neg here, if_neg here]
        exact inductionHypothesis

/-- The given components are the named ones. -/
theorem givenComponents_eq_none_iff
    (components : NamedComponents) (t : ComponentTypeId) :
    givenComponents engine registry components t = none ↔
      ∀ entry ∈ components, registry.idOf entry.1 ≠ t := by
  unfold givenComponents putGiven
  induction components using List.reverseRecOn with
  | nil => simp
  | append_singleton components entry inductionHypothesis =>
      rw [List.foldl_append]
      unfold Components.put
      dsimp only [List.foldl_cons, List.foldl_nil]
      by_cases here : t = registry.idOf entry.1
      · rw [if_pos here]
        refine iff_of_false (Option.some_ne_none _) fun apart => ?_
        exact apart entry (by simp) here.symm
      · rw [if_neg here]
        refine inductionHypothesis.trans ?_
        simp only [List.forall_mem_append, List.forall_mem_singleton]
        exact (and_iff_left (Ne.symm here)).symm

/-- Nothing but the given components is left exactly if nothing else was
there. -/
theorem putGiven_eq_given_iff
    (components : NamedComponents) (base : Components) :
    putGiven engine registry components base =
        givenComponents engine registry components ↔
      ∀ t, (∀ entry ∈ components, registry.idOf entry.1 ≠ t) →
        base t = none := by
  rw [funext_iff]
  refine forall_congr' fun t => ?_
  rw [putGiven_apply, ← givenComponents_eq_none_iff ]
  cases givenComponents engine registry components t with
  | none => simp
  | some bytes => simp

/-- Nothing is given exactly if nothing is named. -/
theorem givenComponents_eq_bare_iff (components : NamedComponents) :
    (givenComponents engine registry components = fun _ => none) ↔
      components = [] := by
  constructor
  · intro bare
    cases components with
    | nil => rfl
    | cons entry components =>
        have apart := (givenComponents_eq_none_iff (entry :: components)
          (registry.idOf entry.1)).mp
          (congrFun bare (registry.idOf entry.1))
        exact absurd rfl (apart entry List.mem_cons_self)
  · rintro rfl
    rfl

/-! ## The outcome -/

theorem inIteration_of_control
    {w' : World} (same : w'.control = w.control) :
    w'.deferMoves = w.deferMoves ∧ w'.inIteration = w.inIteration ∧
    w'.pendingDestroy = w.pendingDestroy ∧ w'.pendingOps = w.pendingOps :=
  ⟨congrArg Control.deferMoves same, inIteration_congr same,
    congrArg Control.pendingDestroy same, congrArg Control.pendingOps same⟩

/-- Whether all is added depends on the control state. -/
theorem addsWhole_congr
    {w' : World} (same : w'.control = w.control) (e : Entity)
    (components : NamedComponents) :
    w'.AddsWhole registry e components ↔ w.AddsWhole registry e components := by
  obtain ⟨deferEq, iterationEq, destroyEq, opsEq⟩ := inIteration_of_control same
  unfold AddsWhole
  rw [deferEq, iterationEq, destroyEq, opsEq]

/-- What an entity settles to depends on what is queued for it and what it
holds. -/
theorem settled_of_same
    {w' : World} (deferEq : w'.deferMoves = w.deferMoves)
    (iterationEq : w'.inIteration = w.inIteration)
    (destroyEq : w'.pendingDestroy = w.pendingDestroy) {x : Entity}
    (queued : (w'.pendingOps.lookup x).getD [] =
      (w.pendingOps.lookup x).getD [])
    (contents : w'.contents x = w.contents x) :
    w'.settled registry x = w.settled registry x := by
  unfold settled
  rw [deferEq, iterationEq, destroyEq, queued, contents]

theorem settled_congr
    {w' : World} (same : w'.control = w.control) {x : Entity}
    (contents : w'.contents x = w.contents x) :
    w'.settled registry x = w.settled registry x := by
  obtain ⟨deferEq, iterationEq, destroyEq, opsEq⟩ := inIteration_of_control same
  exact settled_of_same deferEq iterationEq destroyEq (by rw [opsEq]) contents

/-- The additions to a bare entity leave the given components exactly if they
take effect and nothing else is queued for it. -/
theorem Adding.settles_iff
    {start : World} (bare : start.contents e = some fun _ => none)
    (adding : Adding registry start e
      (putGiven engine registry components) w) :
    w.settled registry e = some (givenComponents engine registry components) ↔
      start.AddsWhole registry e components := by
  have alone : (some fun _ => none) =
      some (givenComponents engine registry components) ↔ components = [] := by
    rw [Option.some.injEq, eq_comm]
    exact givenComponents_eq_bare_iff components
  by_cases takes : start.TakesAdditions e
  · rw [adding.taken takes]
    unfold AddsWhole settled
    unfold TakesAdditions at takes
    rw [bare]
    cases deferred : start.deferMoves with
    | true =>
        rw [deferred, if_pos rfl] at takes
        rw [if_pos rfl, if_neg takes, if_pos rfl, if_neg takes, Option.map_some,
          Option.map_some, Option.some.injEq, putGiven_eq_given_iff]
    | false =>
        rw [deferred, if_neg Bool.false_ne_true] at takes
        rw [if_neg Bool.false_ne_true, if_neg Bool.false_ne_true, takes]
        exact iff_of_true rfl fun iterating => absurd iterating (by simp)
  · rw [adding.refused takes]
    unfold AddsWhole settled
    unfold TakesAdditions at takes
    rw [bare]
    cases deferred : start.deferMoves with
    | true =>
        rw [deferred, if_pos rfl, not_not] at takes
        rw [if_pos rfl, if_pos takes, if_pos rfl, if_pos takes]
        cases start.inIteration with
        | true => exact alone.trans (and_iff_right rfl).symm
        | false => simp
    | false =>
        rw [deferred, if_neg Bool.false_ne_true, Bool.not_eq_false] at takes
        rw [if_neg Bool.false_ne_true, if_neg Bool.false_ne_true, takes]
        exact alone.trans ⟨fun empty _ => empty, fun empty => empty rfl⟩

/-- Nothing is added yet. -/
theorem Adding.refl
    (stable : w.Stable registry) (listed : w.control.Listed)
    (bare : w.contents e = some fun _ => none) :
    Adding registry w e id w where
  stable := stable
  listed := listed
  alive := by
    rw [← contents_isSome, bare]
    rfl
  deferMoves := rfl
  inIteration := rfl
  pendingDestroy := rfl
  queuedElsewhere _ _ := rfl
  elsewhere _ _ := rfl
  settledElsewhere _ _ := rfl
  taken _ := Option.map_id_apply.symm
  refused _ := rfl
  bare _ := bare

/-- The rollback of a creation undoes it except during an iteration. -/
theorem rollback_iff
    {created : World} (stable : created.Stable registry)
    (dead : w.isAlive e = false)
    (spawned : created.contents = w.contents.spawn e) :
    (created.destroyEntity e).state.contents = w.contents ↔
      ¬created.inIteration = true := by
  cases iterating : created.inIteration with
  | false =>
      refine iff_of_true ?_ Bool.false_ne_true
      rw [destroyEntity_contents stable.consistent iterating, spawned]
      funext x
      unfold Contents.kill Contents.spawn
      by_cases isSelf : x = e
      · rw [if_pos isSelf, isSelf, contents_of_dead dead]
      · rw [if_neg isSelf, if_neg isSelf]
  | true =>
      refine iff_of_false ?_ (not_not.mpr rfl)
      have kept : created.destroyEntity e = .pure created := by
        unfold destroyEntity
        rw [iterating]
        split <;> rfl
      rw [kept, Traced.pure_state, spawned]
      intro same
      have atSelf := congrFun same e
      rw [Contents.spawn, if_pos rfl, contents_of_dead dead] at atSelf
      exact absurd atSelf (Option.some_ne_none _)

/-- The rollback of a creation that handed out no id does nothing. -/
theorem rollback_null
    {created : World} (stable : created.Stable registry) :
    created.destroyEntity Entity.null = .pure created := by
  unfold destroyEntity
  rw [stable.consistent.nullDead]

/-- A completed creation keeps the promise exactly if the additions take effect
and nothing else is queued for the entity. -/
theorem completed_iff
    {created : World} (stable : w.Stable registry)
    (listed : w.control.Listed) (createdStable : created.Stable registry)
    (control : created.control = w.control)
    (dead : w.isAlive e = false)
    (spawned : created.contents = w.contents.spawn e)
    (registered : ∀ entry ∈ components,
      registry.idOf entry.1 ≠ invalidComponentType ∧
      (registry.schemaOf (registry.idOf entry.1)).isSome) :
    let called := (created.addComponents engine registry e components).state
    (w.isAlive e = false ∧ called.isAlive e = true ∧
      (∀ x, x ≠ e → called.contents x = w.contents x) ∧
      (called.endDeferredMoves registry).state.contents e =
        some (givenComponents engine registry components) ∧
      ∀ x, x ≠ e → (called.endDeferredMoves registry).state.contents x =
        (w.endDeferredMoves registry).state.contents x) ↔
      w.AddsWhole registry e components := by
  have bare : created.contents e = some fun _ => none := by
    rw [spawned, Contents.spawn, if_pos rfl]
  have others : ∀ x, x ≠ e → created.contents x = w.contents x := by
    intro x other
    rw [spawned, Contents.spawn, if_neg other]
  have adding : Adding registry created e
      (putGiven engine registry components)
      (created.addComponents engine registry e components).state :=
    (Adding.refl createdStable (listed_of_control listed control)
      bare).addComponents registered
  intro called
  rw [endDeferredMoves_settles adding.stable adding.listed,
    endDeferredMoves_settles stable listed, adding.settles_iff bare,
    addsWhole_congr control]
  refine ⟨fun whole => whole.2.2.2.1, fun adds => ⟨dead, adding.alive, ?_, adds, ?_⟩⟩
  · exact fun x other =>
      (adding.elsewhere x other).trans (others x other)
  · exact fun x other => (adding.settledElsewhere x other).trans
      (settled_congr control (others x other))

/-- In a world that no creation gave the id of a live entity, the call creates
all or nothing exactly if the creation is refused, can be completed or can be
undone. -/
theorem createWithComponents_allOrNothing_iff
    (engine : Engine) (schemas : List ComponentSchema) (ops : List ModeOp)
    (defId : Int64) (components : NamedComponents) :
    let registry := ComponentRegistry.ofSchemas schemas
    let w := (ModeOp.run registry ops).state
    Traced.Accepted Effect.IssuesDead (ModeOp.run registry ops) →
    Traced.Accepted Effect.IssuesDead (w.createForDef defId).1 →
    (w.AllOrNothing engine registry defId components ↔
      w.CreatesWhole registry defId components) := by
  intro registry w issuesDead callIssuesDead
  have stable : w.Stable registry := ModeOp.run_stable issuesDead
  have listed : w.control.Listed := ModeOp.run_listed registry ops
  have createdStable : (w.createForDef defId).1.state.Stable registry :=
    (createForDef_realizes defId).keeps (stable_inductiveOn registry) w stable
      callIssuesDead
  have control := createForDef_control w defId
  have contents := createForDef_contents stable callIssuesDead
  have handle := createForDef_handle w defId
  unfold AllOrNothing CreatesWhole createWithComponents
  generalize w.createForDef defId = creation at *
  obtain ⟨created, returned⟩ := creation
  dsimp only at *
  subst handle
  cases next : w.nextHandle defId with
  | none =>
      rw [next] at contents
      exact iff_of_true contents trivial
  | some e =>
  rw [next] at contents
  dsimp only at contents ⊢
  by_cases unregistered : ∃ entry ∈ components,
      registry.idOf entry.1 = invalidComponentType
  · rw [if_pos unregistered, if_pos unregistered]
    dsimp only [Traced.andThen_state]
    by_cases isNull : e = Entity.null
    · rw [if_pos isNull] at contents
      rw [isNull, rollback_null createdStable, Traced.pure_state]
      exact iff_of_true contents fun _ => rfl
    · rw [if_neg isNull] at contents
      rw [rollback_iff createdStable contents.1 contents.2,
        inIteration_congr control]
      exact (imp_iff_not isNull).symm
  · rw [if_neg unregistered, if_neg unregistered]
    dsimp only [Traced.andThen_state]
    have registered : ∀ entry ∈ components,
        registry.idOf entry.1 ≠ invalidComponentType ∧
        (registry.schemaOf (registry.idOf entry.1)).isSome := by
      intro entry member
      have hasId : registry.idOf entry.1 ≠ invalidComponentType :=
        fun invalid => unregistered ⟨entry, member, invalid⟩
      exact ⟨hasId, ComponentRegistry.schemaOf_idOf_isSome hasId⟩
    by_cases isNull : e = Entity.null
    · refine iff_of_false (fun whole => ?_) fun whole => whole.1 isNull
      have alive := whole.2.1
      rw [isNull] at alive
      exact absurd alive (by simp [isAlive])
    · rw [if_neg isNull] at contents
      rw [and_iff_right isNull]
      exact completed_iff stable listed createdStable control
        contents.1 contents.2 registered

/-- Outside of the modes the call creates the entity with its component. -/
theorem createWithComponents_allOrNothing_idle :
    let registry := ComponentRegistry.ofSchemas
      ComponentRegistry.manaRegistry.schemas
    let w := (ModeOp.run registry []).state
    w.AllOrNothing .singlePrecision registry 42
        [("Health", [(.string "hp", .int 30)])] ↔
      w.CreatesWhole registry 42 [("Health", [(.string "hp", .int 30)])] :=
  createWithComponents_allOrNothing_iff .singlePrecision
    ComponentRegistry.manaRegistry.schemas [] 42
    [("Health", [(.string "hp", .int 30)])] (by decide +kernel)
    (by decide +kernel)

/-- An iteration refuses the rollback: the entity of an unregistered component
stays. -/
theorem createWithComponents_ghost :
    let registry := ComponentRegistry.ofSchemas
      ComponentRegistry.manaRegistry.schemas
    let w := (ModeOp.run registry [.beginIteration]).state
    ¬w.AllOrNothing .singlePrecision registry 0 [("Armour", [])] := by
  intro registry w whole
  have handle : (w.createWithComponents .singlePrecision registry 0
      [("Armour", [])]).2 = none := by decide +kernel
  unfold AllOrNothing at whole
  dsimp only at whole
  rw [handle] at whole
  dsimp only at whole
  have before : w.isAlive ⟨1⟩ = false := by decide +kernel
  have after : (w.createWithComponents .singlePrecision registry 0
      [("Armour", [])]).1.state.isAlive ⟨1⟩ = true := by decide +kernel
  rw [← contents_isSome, whole, contents_isSome, before] at after
  exact absurd after Bool.false_ne_true

end World
end VortarisECS
