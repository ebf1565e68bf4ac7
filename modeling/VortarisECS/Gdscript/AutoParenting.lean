import Mathlib.Order.Bounds.Basic
import VortarisECS.Gdscript.SpawnFromData

/-!
# The parents of a batch

After a batch is spawned, children should refer to their parents by the ids the
parents got.  The loop takes the entry and the handle with one index for each
other's, although skipped entries have no handle, and it looks up the value of
the field rather than the key the entry names its parent by.
-/

namespace VortarisECS

/-- The field that refers to a parent. -/
def ComponentRegistry.parentField (registry : ComponentRegistry)
    (t : ComponentTypeId) : Option FieldDescriptor :=
  (registry.schemaOf t).bind (·.findField "parent")

/-- The field is one whole number. -/
def FieldDescriptor.IsInteger (fd : FieldDescriptor) : Prop :=
  fd.count ≤ 1 ∧
    fd.type ∈ [.i8, .i16, .i32, .i64, .u8, .u16, .u32, .u64]

instance : DecidablePred FieldDescriptor.IsInteger := fun fd =>
  inferInstanceAs (Decidable (fd.count ≤ 1 ∧ fd.type ∈ [.i8, .i16, .i32, .i64,
    .u8, .u16, .u32, .u64]))

/-- The value is a number. -/
def Variant.IsNumber : Variant → Prop
  | .int _ | .float _ => True
  | _ => False

namespace Components

variable (engine : Engine) (registry : ComponentRegistry)

/-- The components with a field that refers to a parent. -/
def parents (had : Components) : Set ComponentTypeId :=
  {t | (had t).isSome ∧ (registry.parentField t).isSome}

/-- The components with a whole number that refers to a parent. -/
def integerParents (had : Components) : Set ComponentTypeId :=
  {t | (had t).isSome ∧ ∃ fd, registry.parentField t = some fd ∧ fd.IsInteger}

/-- What a component refers to as its parent. -/
def parentValue (had : Components) (t : ComponentTypeId) : Option Variant :=
  match had t, registry.parentField t with
  | some raw, some fd => fieldToVariant engine fd (raw.drop fd.offset)
  | _, _ => none

/-- Store an id as the parent. -/
def storeParent (had : Components) (t : ComponentTypeId) (id : Variant) :
    Components :=
  had.put t ((had t).map fun raw =>
    match registry.parentField t with
    | some fd =>
        (fieldFromVariant engine fd raw (.int (engine.toInt id))).getD raw
    | none => raw)

/-- The loop stores this id in the component, when it takes the entry for that
of an entity with these components. -/
def Redirects (mapping : List (Variant × Variant)) (entry : Variant)
    (had : Components) (t : ComponentTypeId) (id : Variant) : Prop :=
  (engine.parentOf mapping entry).isSome ∧
  IsLeast (had.parents registry) t ∧
  ∃ value, had.parentValue engine registry t = some value ∧ value.IsNumber ∧
    engine.lookup mapping (.int (engine.toInt value)) = some id

end Components

/-! ## What the batch promises -/

/-- The first whole number of a spawned entity that refers to a parent is the id
under the key that its entry names; where there is none, all references are as
they were given. -/
structure SpawnedEntry.Refers (engine : Engine) (registry : ComponentRegistry)
    (mapping : List (Variant × Variant)) (s : SpawnedEntry)
    (had : Components) : Prop where
  followed : ∀ id, engine.parentOf mapping s.source.1 = some id →
    ∀ t, IsLeast (had.integerParents registry) t →
      had.parentValue engine registry t = some id
  others :
    let given := World.givenComponents engine registry (s.components engine)
    engine.parentOf mapping s.source.1 = none ∨
        had.integerParents registry = ∅ →
      ∀ t, (had t).isSome → (given t).isSome →
        had.parentValue engine registry t = given.parentValue engine registry t

namespace World

variable (engine : Engine) (registry : ComponentRegistry)

/-- After the window, the spawned entities refer to their parents, and the old
ones refer to what they would have without the call. -/
structure ParentsRewritten (w : World) (entries : List Variant) : Prop where
  spawned : ∀ s ∈ w.spawnedEntries engine registry entries.zipIdx,
    let called := (w.spawnFromDataImpl engine registry entries).state
    ∀ had, (called.world.endDeferredMoves registry).state.contents s.entity =
      some had → s.Refers engine registry called.mapping had
  old : ∀ x, w.isAlive x = true → ∀ t,
    let called := (w.spawnFromDataImpl engine registry entries).state
    ((called.world.endDeferredMoves registry).state.contents x).map
        (·.parentValue engine registry t) =
      ((w.endDeferredMoves registry).state.contents x).map
        (·.parentValue engine registry t)

/-! ## When it keeps the promise -/

/-- The loop stores this id for a spawned entity, when it takes the entry for
the entity's.  Outside of iterations and windows the entity has its components
by then. -/
def Stores (w : World) (mapping : List (Variant × Variant)) (entry : Variant)
    (had : Components) (t : ComponentTypeId) (id : Variant) : Prop :=
  w.deferMoves = false ∧ w.inIteration = false ∧
    had.Redirects engine registry mapping entry t id

/-- What the loop stores, or the value that was given where it stores nothing,
is the parent of an entity that names one and can refer to it; for all others,
what it stores is what was given. -/
def FindsParent (w : World) (mapping : List (Variant × Variant))
    (entry : Variant) (s : SpawnedEntry) : Prop :=
  ∀ had, w.spawnSettles engine registry s.entity (s.components engine) =
      some had →
    (∀ parent, engine.parentOf mapping s.source.1 = some parent →
      ∀ t, IsLeast (had.integerParents registry) t →
        (∀ id, w.Stores engine registry mapping entry had t id →
          (had.storeParent engine registry t id).parentValue engine registry t =
            some parent) ∧
        ((∀ id, ¬w.Stores engine registry mapping entry had t id) →
          had.parentValue engine registry t = some parent)) ∧
    (engine.parentOf mapping s.source.1 = none ∨
        had.integerParents registry = ∅ →
      ∀ t id, w.Stores engine registry mapping entry had t id →
        (had.storeParent engine registry t id).parentValue engine registry t =
          had.parentValue engine registry t)

/-- Every spawned entity finds its parent by the entry with its index. -/
def ParentsFound (w : World) (entries : List Variant) : Prop :=
  let made := w.ids.plan engine registry w.inIteration entries.zipIdx
  ∀ item ∈ entries.zip made, item.2.Real →
    w.FindsParent engine registry (engine.mapSources [] made) item.1 item.2

end World

/-! ## Storing a parent -/

namespace Components

variable {engine : Engine} {registry : ComponentRegistry} {had : Components}
variable {t u : ComponentTypeId}

/-- Storing a parent changes one component. -/
theorem storeParent_of_ne (id : Variant) (other : u ≠ t) :
    had.storeParent engine registry t id u = had u :=
  if_neg other

/-- Storing a parent adds and removes nothing. -/
theorem storeParent_isSome (id : Variant) :
    (had.storeParent engine registry t id u).isSome = (had u).isSome := by
  by_cases here : u = t
  · subst here
    unfold storeParent put
    rw [if_pos rfl, Option.isSome_map]
  · rw [storeParent_of_ne id here]

/-- Which references are integers depends on the components alone. -/
theorem integerParents_congr
    {had' : Components} (same : ∀ u, (had' u).isSome = (had u).isSome) :
    had'.integerParents registry = had.integerParents registry := by
  unfold integerParents
  simp only [same]

theorem parentValue_congr
    {had' : Components} (same : had' t = had t) :
    had'.parentValue engine registry t = had.parentValue engine registry t := by
  unfold parentValue
  rw [same]

/-- An entry is redirected in one component at most. -/
theorem Redirects.unique
    {mapping : List (Variant × Variant)} {entry id id' : Variant}
    (first : had.Redirects engine registry mapping entry t id)
    (second : had.Redirects engine registry mapping entry u id') : t = u :=
  first.2.1.unique second.2.1

/-- What the loop makes of the components of an entity. -/
def Rewrites (engine : Engine) (registry : ComponentRegistry)
    (mapping : List (Variant × Variant)) (entry : Variant)
    (had had' : Components) : Prop :=
  (∀ t id, had.Redirects engine registry mapping entry t id →
    had' = had.storeParent engine registry t id) ∧
  ((∀ t id, ¬had.Redirects engine registry mapping entry t id) → had' = had)

/-- The loop leaves a bare entity alone. -/
theorem Rewrites.bare
    {mapping : List (Variant × Variant)} {entry : Variant} {had' : Components}
    (rewrites : Rewrites engine registry mapping entry (fun _ => none) had') :
    had' = fun _ => none :=
  rewrites.2 fun t id redirects =>
    absurd redirects.2.1.1.1 (by simp)

end Components

namespace World

variable {engine : Engine} {registry : ComponentRegistry} {w : World}
variable {e : Entity} {had : Components} {mapping : List (Variant × Variant)}

/-! ## The loop -/

/-- The first component with a parent field, as the loop finds it. -/
theorem findSome_parents
    (stable : w.Stable registry) (found : w.contents e = some had) :
    match (w.getEntityComponentTypes e).findSome? fun t =>
        (registry.schemaOf t).filter fun schema =>
          (schema.findField "parent").isSome with
    | none => had.parents registry = ∅
    | some schema => ∃ t, IsLeast (had.parents registry) t ∧
        registry.schemaOf t = some schema := by
  have represents := represents_contents stable.consistent
  have members : ∀ t, t ∈ w.getEntityComponentTypes e ↔ (had t).isSome := by
    intro t
    rw [represents.mem_types, found]
    rfl
  have ascending := represents.typesAscending e
  have hasParent : ∀ t, ((registry.schemaOf t).filter fun schema =>
      (schema.findField "parent").isSome).isSome =
        (registry.parentField t).isSome := by
    intro t
    unfold ComponentRegistry.parentField
    cases registry.schemaOf t with
    | none => rfl
    | some schema =>
        rw [Option.bind_some]
        cases isParent : schema.findField "parent" with
        | none => simp [Option.filter, isParent]
        | some fd => simp [Option.filter, isParent]
  generalize w.getEntityComponentTypes e = types at members ascending
  split
  · rename_i none
    rw [List.findSome?_eq_none_iff] at none
    refine Set.eq_empty_of_forall_notMem fun t isParent => ?_
    have isSome := (hasParent t).trans isParent.2
    rw [none t ((members t).mpr isParent.1)] at isSome
    exact absurd isSome (by simp)
  · rename_i schema first
    obtain ⟨before, t, after, rfl, atFirst, noneBefore⟩ :=
      List.findSome?_eq_some_iff.mp first
    refine ⟨t, ⟨⟨(members t).mp (by simp), ?_⟩, ?_⟩, ?_⟩
    · rw [← hasParent, atFirst]
      rfl
    · rintro u ⟨held, isParent⟩
      obtain inBefore | same | inAfter : u ∈ before ∨ u = t ∨ u ∈ after := by
        simpa using (members u).mpr held
      · rw [← hasParent, noneBefore u inBefore] at isParent
        exact absurd isParent (by simp)
      · exact same.ge
      · rw [List.pairwise_append, List.pairwise_cons] at ascending
        exact (ascending.2.1.1 u inAfter).le
    · exact (Option.filter_eq_some_iff.mp atFirst).1

/-- A number is looked up in the mapping. -/
theorem remapReference_of_number
    {comp field : String} {current : Variant}
    (read : w.getf engine registry e comp field .nil = current)
    (isNumber : current.IsNumber) :
    w.remapReference engine registry e comp field mapping =
      match engine.lookup mapping (.int (engine.toInt current)) with
      | none => .pure w
      | some dst =>
          w.setf engine registry e comp field (.int (engine.toInt dst)) := by
  unfold remapReference
  rw [read]
  cases current with
  | int | float => rfl
  | nil | bool | string | value | byteArray | array | dictionary =>
      exact absurd isNumber id

/-- Anything else is no reference. -/
theorem remapReference_of_other
    {comp field : String} {current : Variant}
    (read : w.getf engine registry e comp field .nil = current)
    (isOther : ¬current.IsNumber) :
    w.remapReference engine registry e comp field mapping = .pure w := by
  unfold remapReference
  rw [read]
  cases current with
  | int | float => exact absurd trivial isOther
  | nil | bool | string | value | byteArray | array | dictionary => rfl

/-- What the loop does to the entity of a handle. -/
theorem autoParent_spec
    (titled : ∀ t schema, registry.schemaOf t = some schema →
      registry.idOf schema.typeName = t)
    (stable : w.Stable registry) (found : w.contents e = some had)
    (mapping : List (Variant × Variant)) (entry : Variant) :
    let next := (w.autoParent engine registry mapping (entry, e)).state
    next.Stable registry ∧ next.control = w.control ∧
      ∃ had', Components.Rewrites engine registry mapping entry had had' ∧
        next.contents = w.contents.adjust e fun _ => had' := by
  have unchanged : (∀ t id,
      ¬had.Redirects engine registry mapping entry t id) →
      w.Stable registry ∧ w.control = w.control ∧
      ∃ had', Components.Rewrites engine registry mapping entry had had' ∧
        w.contents = w.contents.adjust e fun _ => had' := by
    intro none
    refine ⟨stable, rfl, had, ⟨fun t id redirects =>
      absurd redirects (none t id), fun _ => rfl⟩, ?_⟩
    rw [Contents.adjust_eq_iff fun _ _ => rfl, found, Option.map_some]
  unfold autoParent
  cases named : engine.parentOf mapping entry with
  | none =>
      refine unchanged fun t id redirects => ?_
      have isSome := redirects.1
      rw [named] at isSome
      exact absurd isSome Bool.false_ne_true
  | some parent =>
  have first := findSome_parents stable found
  dsimp only
  generalize (w.getEntityComponentTypes e).findSome? _ = result at first
  cases result with
  | none =>
      refine unchanged fun t id redirects => ?_
      have isParent := redirects.2.1.1
      rw [first] at isParent
      exact absurd isParent (Set.notMem_empty t)
  | some schema =>
  obtain ⟨t, least, registered⟩ := first
  obtain ⟨raw, held⟩ := Option.isSome_iff_exists.mp least.1.1
  obtain ⟨fd, field⟩ := Option.isSome_iff_exists.mp least.1.2
  have heldAt : (w.contents e).bind (· t) = some raw := by
    rw [found]
    exact held
  have handle := componentOf_eq stable.consistent heldAt
    (titled t schema registered)
  have value : had.parentValue engine registry t =
      fieldToVariant engine fd (raw.drop fd.offset) := by
    unfold Components.parentValue
    rw [held, field]
  have read : w.getf engine registry e schema.typeName "parent" .nil =
      (had.parentValue engine registry t).getD .nil := by
    unfold getf
    rw [handle, value]
    exact getComponentField_eq stable.consistent heldAt field .nil
  dsimp only
  by_cases isNumber :
      ((had.parentValue engine registry t).getD .nil).IsNumber
  · rw [remapReference_of_number read isNumber]
    obtain ⟨current, isCurrent⟩ : ∃ current,
        had.parentValue engine registry t = some current := by
      cases isCurrent : had.parentValue engine registry t with
      | none =>
          rw [isCurrent] at isNumber
          exact absurd isNumber id
      | some current => exact ⟨current, rfl⟩
    rw [isCurrent, Option.getD_some] at isNumber ⊢
    cases mapped : engine.lookup mapping (.int (engine.toInt current)) with
    | none =>
        refine unchanged fun u id redirects => ?_
        obtain rfl := least.unique redirects.2.1
        obtain ⟨other, isOther, -, found⟩ := redirects.2.2
        rw [isCurrent] at isOther
        rw [← Option.some.inj isOther, mapped] at found
        exact absurd found (by simp)
    | some dst =>
        have redirects : had.Redirects engine registry mapping entry t dst :=
          ⟨by rw [named]; rfl, least, current, isCurrent, isNumber, mapped⟩
        obtain ⟨nextStable, control, contents⟩ := setComponentField_spec stable
          heldAt field (.int (engine.toInt dst))
        dsimp only
        unfold setf
        rw [handle]
        refine ⟨nextStable, control, had.storeParent engine registry t dst,
          ⟨fun u id other => ?_, fun none => absurd redirects (none t dst)⟩, ?_⟩
        · obtain rfl := redirects.unique other
          obtain ⟨seen, isSeen, -, found⟩ := other.2.2
          rw [isCurrent] at isSeen
          rw [← Option.some.inj isSeen, mapped] at found
          rw [Option.some.inj found]
        · rw [contents]
          apply Contents.adjust_congr
          intro components same
          rw [found] at same
          rw [← Option.some.inj same]
          unfold Components.storeParent
          rw [held, field]
          rfl
  · rw [remapReference_of_other read isNumber]
    refine unchanged fun u id redirects => ?_
    obtain rfl := least.unique redirects.2.1
    obtain ⟨current, isCurrent, currentIsNumber, -⟩ := redirects.2.2
    rw [isCurrent] at isNumber
    exact isNumber currentIsNumber

/-- The loop has nothing to do for a dead entity. -/
theorem autoParent_dead
    (dead : w.isAlive e = false) (entry : Variant) :
    w.autoParent engine registry mapping (entry, e) = .pure w := by
  have noTypes : w.getEntityComponentTypes e = [] := by
    unfold getEntityComponentTypes
    rw [dead]
    rfl
  unfold autoParent
  rw [noTypes]
  split <;> rfl

/-- The second loop, over different entities. -/
theorem autoParents_spec
    (titled : ∀ t schema, registry.schemaOf t = some schema →
      registry.idOf schema.typeName = t)
    (stable : w.Stable registry) {items : List (Variant × Entity)}
    (once : items.Pairwise fun item later =>
      item.2 ≠ Entity.null → item.2 ≠ later.2)
    (alive : ∀ item ∈ items, item.2 ≠ Entity.null →
      w.isAlive item.2 = true) :
    let last := (Traced.forEach (autoParent engine registry mapping) w
      items).state
    last.Stable registry ∧ last.control = w.control ∧
      (∀ x, (∀ item ∈ items, item.2 ≠ x) → last.contents x = w.contents x) ∧
      ∀ item ∈ items, item.2 ≠ Entity.null →
        ∀ had, w.contents item.2 = some had →
          ∃ had', Components.Rewrites engine registry mapping item.1 had had' ∧
            last.contents item.2 = some had' := by
  induction items generalizing w with
  | nil =>
      exact ⟨stable, rfl, fun _ _ => rfl,
        fun _ member => absurd member List.not_mem_nil⟩
  | cons item items inductionHypothesis =>
      rw [List.pairwise_cons] at once
      rw [List.forall_mem_cons] at alive
      rw [Traced.forEach_cons, Traced.andThen_state]
      by_cases isNull : item.2 = Entity.null
      · have dead : w.isAlive item.2 = false := by
          rw [isNull]
          rfl
        rw [show w.autoParent engine registry mapping item = .pure w from
          autoParent_dead dead item.1, Traced.pure_state]
        obtain ⟨lastStable, control, elsewhere, each⟩ :=
          inductionHypothesis stable once.2 alive.2
        refine ⟨lastStable, control, fun x other => elsewhere x fun later member =>
          other later (List.mem_cons_of_mem _ member), ?_⟩
        rw [List.forall_mem_cons]
        exact ⟨fun real => absurd isNull real, each⟩
      · obtain ⟨had, found⟩ : ∃ had, w.contents item.2 = some had := by
          rw [← Option.isSome_iff_exists, contents_isSome]
          exact alive.1 isNull
        obtain ⟨nextStable, nextControl, had', rewrites, contents⟩ :=
          autoParent_spec titled stable found mapping item.1
        have others : ∀ later ∈ items, item.2 ≠ later.2 :=
          fun later member => once.1 later member isNull
        generalize (w.autoParent engine registry mapping item).state = next
          at nextStable nextControl contents
        have kept : ∀ x, x ≠ item.2 → next.contents x = w.contents x := by
          intro x other
          rw [contents, Contents.adjust_of_ne _ _ other]
        have nextAlive : ∀ later ∈ items, later.2 ≠ Entity.null →
            next.isAlive later.2 = true := by
          intro later member real
          rw [← contents_isSome, kept _ (others later member).symm,
            contents_isSome, alive.2 later member real]
        obtain ⟨lastStable, control, elsewhere, each⟩ :=
          inductionHypothesis nextStable once.2 nextAlive
        refine ⟨lastStable, control.trans nextControl, fun x other => ?_, ?_⟩
        · rw [elsewhere x fun later member =>
            other later (List.mem_cons_of_mem _ member)]
          exact kept x (other item List.mem_cons_self).symm
        · rw [List.forall_mem_cons]
          constructor
          · intro _ had₂ same
            rw [found] at same
            rw [← Option.some.inj same, elsewhere item.2 fun later member =>
              (others later member).symm, contents, Contents.adjust_self, found]
            exact ⟨had', rewrites, rfl⟩
          · intro later member real hadLater same
            rw [← kept _ (others later member).symm] at same
            exact each later member real hadLater same

/-! ## The outcome -/

/-- What the window leaves of a given component is what was given. -/
theorem spawnSettles_given
    {components : NamedComponents} {t : ComponentTypeId}
    (settles : w.spawnSettles engine registry e components = some had)
    (held : (had t).isSome)
    (isGiven : (givenComponents engine registry components t).isSome) :
    had t = givenComponents engine registry components t := by
  unfold spawnSettles at settles
  split at settles
  · split at settles
    · split at settles
      · rw [← Option.some.inj settles] at held
        exact absurd held Bool.false_ne_true
      · exact absurd settles (by simp)
    · rw [← Option.some.inj settles, putGiven_apply]
      exact Option.or_of_isSome isGiven
  · split at settles
    · rw [← Option.some.inj settles] at held
      exact absurd held Bool.false_ne_true
    · rw [← Option.some.inj settles]

/-- What the loop leaves of the components an entity settles with. -/
def Leaves (engine : Engine) (registry : ComponentRegistry) (w : World)
    (mapping : List (Variant × Variant)) (entry : Variant)
    (had had' : Components) : Prop :=
  (∀ t id, w.Stores engine registry mapping entry had t id →
    had' = had.storeParent engine registry t id) ∧
  ((∀ t id, ¬w.Stores engine registry mapping entry had t id) → had' = had)

section Leaves

variable {entry : Variant} {had' : Components}

/-- Redirecting adds and removes nothing. -/
theorem Leaves.isSome
    (leaves : w.Leaves engine registry mapping entry had had')
    (u : ComponentTypeId) : (had' u).isSome = (had u).isSome := by
  by_cases stores : ∃ t id, w.Stores engine registry mapping entry had t id
  · obtain ⟨t, id, stores⟩ := stores
    rw [leaves.1 t id stores]
    exact Components.storeParent_isSome id
  · rw [leaves.2 fun t id stored => stores ⟨t, id, stored⟩]

/-- A component the loop stores nothing in is left alone. -/
theorem Leaves.kept
    (leaves : w.Leaves engine registry mapping entry had had')
    {u : ComponentTypeId}
    (none : ∀ id, ¬w.Stores engine registry mapping entry had u id) :
    had' u = had u := by
  by_cases stores : ∃ t id, w.Stores engine registry mapping entry had t id
  · obtain ⟨t, id, stores⟩ := stores
    rw [leaves.1 t id stores]
    refine Components.storeParent_of_ne id ?_
    rintro rfl
    exact none id stores
  · rw [leaves.2 fun t id stored => stores ⟨t, id, stored⟩]

end Leaves

/-- The loop leaves the entities of the batch with what it stored. -/
theorem Batched.leaves
    {start w' : World} {spawned : List SpawnedEntry}
    (batched : Batched engine registry start spawned w)
    (control : w'.control = w.control) {s : SpawnedEntry} (member : s ∈ spawned)
    (real : s.Real) {entry : Variant}
    (each : ∀ had, w.contents s.entity = some had →
      ∃ had', Components.Rewrites engine registry mapping entry had had' ∧
        w'.contents s.entity = some had') :
    (start.spawnSettles engine registry s.entity (s.components engine) = none →
      w'.settled registry s.entity = none) ∧
    ∀ had, start.spawnSettles engine registry s.entity (s.components engine) =
      some had →
      ∃ had', w'.settled registry s.entity = some had' ∧
        start.Leaves engine registry mapping entry had had' := by
  have own := batched.own s member real
  by_cases closed : start.deferMoves = true ∨ start.inIteration = true
  · have bare := batched.bare closed s member real
    obtain ⟨had', rewrites, contents⟩ := each _ bare
    rw [rewrites.bare, ← bare] at contents
    rw [settled_congr control contents, own]
    refine ⟨id, fun had settles => ⟨had, settles, fun t id stores => ?_,
      fun _ => rfl⟩⟩
    rw [stores.1, stores.2.1] at closed
    exact absurd closed (by simp)
  · obtain ⟨notDeferred, notIterating⟩ := not_or.mp closed
    have immediate := Bool.eq_false_iff.mpr notDeferred
    have idle := Bool.eq_false_iff.mpr notIterating
    have before : w.deferMoves = false := batched.deferMoves.trans immediate
    have after : w'.deferMoves = false :=
      (congrArg Control.deferMoves control).trans before
    rw [settled_of_immediate before] at own
    rw [settled_of_immediate after, ← own]
    refine ⟨fun isDead => ?_, fun had settles => ?_⟩
    · have alive := (batched.fresh s member real).2
      rw [← contents_isSome, isDead] at alive
      exact absurd alive Bool.false_ne_true
    · obtain ⟨had', rewrites, contents⟩ := each had settles
      refine ⟨had', contents, fun t id stores => rewrites.1 t id stores.2.2,
        fun none => rewrites.2 fun t id redirects =>
          none t id ⟨immediate, idle, redirects⟩⟩

/-- An entity refers to its parent exactly if it finds it. -/
theorem findsParent_iff
    {entry : Variant} {s : SpawnedEntry} {final : Option Components}
    (dies : w.spawnSettles engine registry s.entity (s.components engine) =
      none → final = none)
    (lives : ∀ had, w.spawnSettles engine registry s.entity
        (s.components engine) = some had →
      ∃ had', final = some had' ∧
        w.Leaves engine registry mapping entry had had') :
    w.FindsParent engine registry mapping entry s ↔
      ∀ had', final = some had' → s.Refers engine registry mapping had' := by
  unfold FindsParent
  cases settles : w.spawnSettles engine registry s.entity
      (s.components engine) with
  | none =>
      rw [dies settles]
      exact iff_of_true (fun _ isSome => absurd isSome (by simp))
        (fun _ isSome => absurd isSome (by simp))
  | some had =>
      obtain ⟨had', isFinal, leaves⟩ := lives had settles
      rw [isFinal]
      have parentsEq : had'.integerParents registry =
          had.integerParents registry :=
        Components.integerParents_congr leaves.isSome
      constructor
      · intro finds other same
        obtain rfl := Option.some.inj same
        obtain ⟨follows, others⟩ := finds had rfl
        refine ⟨fun id parent t least => ?_, fun rest t held isGiven => ?_⟩
        · rw [parentsEq] at least
          by_cases stores : ∃ target,
              w.Stores engine registry mapping entry had t target
          · obtain ⟨target, stores⟩ := stores
            rw [leaves.1 t target stores]
            exact (follows id parent t least).1 target stores
          · have none := not_exists.mp stores
            rw [Components.parentValue_congr (leaves.kept none)]
            exact (follows id parent t least).2 none
        · rw [parentsEq] at rest
          rw [leaves.isSome] at held
          have given := spawnSettles_given settles held isGiven
          rw [← Components.parentValue_congr given]
          by_cases stores : ∃ target,
              w.Stores engine registry mapping entry had t target
          · obtain ⟨target, stores⟩ := stores
            rw [leaves.1 t target stores]
            exact others rest t target stores
          · exact Components.parentValue_congr
              (leaves.kept (not_exists.mp stores))
      · intro refers other same
        obtain rfl := Option.some.inj same
        obtain ⟨follows, others⟩ := refers had' rfl
        dsimp only at others
        rw [parentsEq] at follows others
        refine ⟨fun parent named t least => ⟨fun id stores => ?_,
          fun none => ?_⟩, fun rest t id stores => ?_⟩
        · rw [← leaves.1 t id stores]
          exact follows parent named t least
        · rw [← Components.parentValue_congr (leaves.kept none)]
          exact follows parent named t least
        · have isGiven : givenComponents engine registry
              (s.components engine) = had := by
            unfold spawnSettles at settles
            rw [stores.1, stores.2.1] at settles
            exact Option.some.inj settles
          have held : (had t).isSome := stores.2.2.2.1.1.1
          rw [isGiven] at others
          rw [← leaves.1 t id stores]
          exact others rest t (by rw [leaves.isSome]; exact held) held

/-- A dead entity settles to nothing. -/
theorem settled_of_dead
    {x : Entity} (dead : w.isAlive x = false) :
    w.settled registry x = none := by
  unfold settled
  rw [contents_of_dead dead]
  split
  · split
    · split <;> rfl
    · rfl
  · rfl

/-- A batch creates at most as many entities as it has entries. -/
theorem length_plan
    (inIteration : Bool) (ids : Ids) (entries : List (Variant × Nat)) :
    (ids.plan engine registry inIteration entries).length ≤ entries.length := by
  induction entries generalizing ids with
  | nil => exact Nat.le_refl _
  | cons indexed entries inductionHypothesis =>
      unfold Ids.plan
      dsimp only
      rw [List.length_append, List.length_cons]
      have later := inductionHypothesis
        (ids.spawn engine registry inIteration indexed.1).1
      cases (ids.spawn engine registry inIteration indexed.1).2 with
      | none => exact (Nat.zero_add _).le.trans (Nat.le_succ_of_le later)
      | some e => exact (Nat.add_comm _ _).le.trans (Nat.succ_le_succ later)

/-- What the call leaves. -/
theorem spawnFromDataImpl_spec
    (named : ∀ name, registry.idOf name ≠ invalidComponentType →
      (registry.schemaOf (registry.idOf name)).isSome)
    (titled : ∀ t schema, registry.schemaOf t = some schema →
      registry.idOf schema.typeName = t)
    (stable : w.Stable registry) (listed : w.control.Listed)
    {entries : List Variant}
    (issuesDead : Traced.Accepted Effect.IssuesDead
      (w.spawnFromDataImpl engine registry entries)) :
    let called := (w.spawnFromDataImpl engine registry entries).state
    let made := w.ids.plan engine registry w.inIteration entries.zipIdx
    w.spawnedEntries engine registry entries.zipIdx = made ∧
    called.mapping = engine.mapSources [] made ∧
    called.world.Stable registry ∧
    ∃ spawned : World, Batched engine registry w made spawned ∧
      called.world.control = spawned.control ∧
      (∀ x, (∀ s ∈ made, s.entity ≠ x) →
        called.world.contents x = spawned.contents x) ∧
      ∀ item ∈ entries.zip made, item.2.Real →
        ∀ had, spawned.contents item.2.entity = some had →
          ∃ had', Components.Rewrites engine registry called.mapping item.1 had
              had' ∧
            called.world.contents item.2.entity = some had' := by
  have spawnIssuesDead := ((Traced.accepted_andThen _ _ _).mp issuesDead).1
  obtain ⟨same, batched, out, mapping⟩ :=
    (Batched.refl stable listed).spawnEntries named entries.zipIdx [] []
      spawnIssuesDead
  rw [List.nil_append] at batched out
  have enough : (w.ids.plan engine registry w.inIteration
      entries.zipIdx).length ≤ entries.length :=
    (length_plan _ _ _).trans_eq (by simp)
  generalize w.ids.plan engine registry w.inIteration entries.zipIdx = made
    at same batched out mapping enough
  unfold spawnFromDataImpl spawnEntries
  dsimp only [Traced.andThen_state]
  generalize (Traced.forEach (spawnStep engine registry) ⟨w, [], []⟩
    entries.zipIdx).state = batch at batched out mapping
  obtain ⟨spawned, handles, mapped⟩ := batch
  dsimp only at batched out mapping ⊢
  subst out mapping
  have seconds : (entries.zip (made.map SpawnedEntry.entity)).map Prod.snd =
      made.map SpawnedEntry.entity :=
    List.map_snd_zip (by rw [List.length_map]; exact enough)
  have fromMade : ∀ item ∈ entries.zip (made.map SpawnedEntry.entity),
      ∃ s ∈ made, s.entity = item.2 := by
    intro item member
    have inMade := List.mem_map_of_mem (f := Prod.snd) member
    rw [seconds] at inMade
    exact List.mem_map.mp inMade
  have once : (entries.zip (made.map SpawnedEntry.entity)).Pairwise
      fun item later => item.2 ≠ Entity.null → item.2 ≠ later.2 := by
    rw [← List.pairwise_map (f := Prod.snd) (R := fun e later =>
      e ≠ Entity.null → e ≠ later), seconds, List.pairwise_map]
    exact batched.once
  have alive : ∀ item ∈ entries.zip (made.map SpawnedEntry.entity),
      item.2 ≠ Entity.null → spawned.isAlive item.2 = true := by
    intro item member real
    obtain ⟨s, inMade, entity⟩ := fromMade item member
    rw [← entity] at real ⊢
    exact (batched.fresh s inMade real).2
  obtain ⟨lastStable, control, elsewhere, each⟩ :=
    autoParents_spec titled batched.stable once alive
  refine ⟨same, rfl, lastStable, spawned, batched, control, fun x apart => ?_,
    fun item member real => ?_⟩
  · apply elsewhere x
    intro item member
    obtain ⟨s, inMade, entity⟩ := fromMade item member
    rw [← entity]
    exact apart s inMade
  · refine each (item.1, item.2.entity) ?_ real
    rw [List.zip_map_right]
    exact List.mem_map_of_mem member

/-- In a world that no creation gave the id of a live entity, the references of
a batch end as promised exactly if every spawned entity finds its parent by the
entry that has its index. -/
theorem spawnFromData_parentsRewritten_iff
    (engine : Engine) (schemas : List ComponentSchema) (ops : List ModeOp)
    (entries : List Variant) :
    let registry := ComponentRegistry.ofSchemas schemas
    let w := (ModeOp.run registry ops).state
    Traced.Accepted Effect.IssuesDead (ModeOp.run registry ops) →
    Traced.Accepted Effect.IssuesDead
      (w.spawnFromDataImpl engine registry entries) →
    (w.ParentsRewritten engine registry entries ↔
      w.ParentsFound engine registry entries) := by
  intro registry w issuesDead callIssuesDead
  have stable : w.Stable registry := ModeOp.run_stable issuesDead
  have listed : w.control.Listed := ModeOp.run_listed registry ops
  obtain ⟨same, mapping, calledStable, spawned, batched, control, elsewhere,
    each⟩ := spawnFromDataImpl_spec
      (fun name hasId => ComponentRegistry.schemaOf_idOf_isSome hasId)
      (fun t schema registered => ComponentRegistry.idOf_typeName registered)
      stable listed callIssuesDead
  have after := endDeferredMoves_settles calledStable
    (listed_of_control batched.listed control)
  have enough : (w.ids.plan engine registry w.inIteration
      entries.zipIdx).length ≤ entries.length :=
    (length_plan _ _ _).trans_eq (by simp)
  have finds : ∀ item ∈ entries.zip
      (w.ids.plan engine registry w.inIteration entries.zipIdx),
      item.2.Real → (w.FindsParent engine registry
        (w.spawnFromDataImpl engine registry entries).state.mapping item.1
          item.2 ↔ ∀ had, (w.spawnFromDataImpl engine registry
            entries).state.world.settled registry item.2.entity = some had →
          item.2.Refers engine registry
            (w.spawnFromDataImpl engine registry entries).state.mapping
            had) := by
    intro item member real
    obtain ⟨dies, lives⟩ := batched.leaves control
      (List.of_mem_zip member).2 real (each item member real)
    exact findsParent_iff dies lives
  unfold ParentsFound
  dsimp only
  rw [← mapping]
  constructor
  · intro rewritten item member real
    rw [finds item member real]
    intro had settles
    refine rewritten.spawned item.2 ?_ had ?_
    · rw [same]
      exact (List.of_mem_zip member).2
    · rw [after, settles]
  · intro found
    refine ⟨fun s member had settles => ?_, fun x alive t => ?_⟩
    · rw [same] at member
      rw [after] at settles
      have seconds := List.map_snd_zip enough
      rw [← seconds] at member
      obtain ⟨item, inZip, rfl⟩ := List.mem_map.mp member
      by_cases real : item.2.Real
      · exact (finds item inZip real).mp (found item inZip real) had settles
      · rw [not_not.mp real, settled_of_dead (by rfl)] at settles
        exact absurd settles (by simp)
    · have apart : ∀ s ∈ w.ids.plan engine registry w.inIteration
          entries.zipIdx, s.entity ≠ x := by
        rintro s member rfl
        by_cases real : s.Real
        · rw [(batched.fresh s member real).1] at alive
          exact absurd alive Bool.false_ne_true
        · rw [not_not.mp real] at alive
          exact absurd alive Bool.false_ne_true
      dsimp only
      rw [after, endDeferredMoves_settles stable listed,
        settled_congr control (elsewhere x apart),
        settled_of_same batched.deferMoves batched.inIteration
          batched.pendingDestroy (batched.queued x apart)
          (batched.old x alive)]

/-- A registry with a script component that refers to a parent. -/
def nodeRegistry : ComponentRegistry :=
  (ComponentRegistry.registerSchemaComponent .singlePrecision {} "Node"
    [{ name := "parent", type := .i64 }]).2

/-- An entry with a node that refers to a parent, and the key of the parent. -/
def nodeEntry (reference : Int64) (parent : List (Variant × Variant)) :
    Variant :=
  .dictionary (parent ++ [(.string "components", .dictionary [(.string "Node",
    .dictionary [(.string "parent", .int reference)])])])

/-- A parent and its child. -/
theorem spawnFromData_parentsRewritten_child :
    let registry := ComponentRegistry.ofSchemas nodeRegistry.schemas
    let w := (ModeOp.run registry []).state
    let entries := [nodeEntry 0 [], nodeEntry 0 [(.string "parent", .int 0)]]
    w.ParentsRewritten .singlePrecision registry entries ↔
      w.ParentsFound .singlePrecision registry entries :=
  spawnFromData_parentsRewritten_iff .singlePrecision nodeRegistry.schemas []
    [nodeEntry 0 [], nodeEntry 0 [(.string "parent", .int 0)]]
    (by decide +kernel) (by decide +kernel)

/-- Behind a skipped entry, the child does not find its parent. -/
theorem spawnFromData_orphan :
    let registry := ComponentRegistry.ofSchemas nodeRegistry.schemas
    let w := (ModeOp.run registry []).state
    let skipped := Variant.dictionary [(.string "components",
      .dictionary [(.string "Armour", .dictionary [])])]
    ¬w.ParentsRewritten .singlePrecision registry [skipped, nodeEntry 0 [],
      nodeEntry 1 [(.string "parent", .int 1)]] := by
  intro registry w skipped rewritten
  let entries := [skipped, nodeEntry 0 [],
    nodeEntry 1 [(.string "parent", .int 1)]]
  let called := (w.spawnFromDataImpl .singlePrecision registry entries).state
  let after := (called.world.endDeferredMoves registry).state
  let spawned := w.spawnedEntries .singlePrecision registry entries.zipIdx
  let child := spawned.get ⟨1, by decide +kernel⟩
  have isChild : child.entity = ⟨2⟩ := by decide +kernel
  have alive : after.isAlive ⟨2⟩ = true := by decide +kernel
  have refers := rewritten.spawned child (List.get_mem _ _)
    (after.bytesAt ⟨2⟩) (by rw [isChild]; exact contents_of_alive alive)
  obtain ⟨id, named⟩ : ∃ id, Engine.singlePrecision.parentOf called.mapping
      child.source.1 = some id :=
    Option.isSome_iff_exists.mp (by decide +kernel)
  have least : IsLeast ((after.bytesAt ⟨2⟩).integerParents registry) 1 := by
    refine ⟨⟨by decide +kernel, (registry.parentField 1).get (by decide +kernel),
      (Option.some_get _).symm, by decide +kernel⟩, ?_⟩
    rintro t ⟨-, fd, isParent, -⟩
    rw [UInt32.le_iff_toNat_le, UInt32.toNat_one, Nat.one_le_iff_ne_zero]
    intro isZero
    rw [UInt32.toNat_inj.mp (isZero.trans UInt32.toNat_zero.symm)] at isParent
    exact absurd isParent (by simp [ComponentRegistry.parentField,
      ComponentRegistry.schemaOf, invalidComponentType])
  have value := refers.followed id named 1 least
  have differs : ((after.bytesAt ⟨2⟩).parentValue .singlePrecision registry
        1).map Engine.singlePrecision.toInt ≠
      (Engine.singlePrecision.parentOf called.mapping child.source.1).map
        Engine.singlePrecision.toInt := by
    decide +kernel
  rw [value, named] at differs
  exact differs rfl

end World
end VortarisECS
