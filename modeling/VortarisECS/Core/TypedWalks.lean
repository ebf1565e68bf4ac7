import VortarisECS.Core.IterationSafety

/-!
# Walks with typed references

A callback of `for_each<Comps...>` or `View<Comps...>::each` gets a reference
per component type.  The reference is the row's cell in the column of the type
id at the same position of an id array: the view keeps the ids as declared,
`for_each` keeps them sorted from its first call on.  The callbacks here leave
the structure of the world alone.
-/

namespace VortarisECS

/-- Sorting twice is sorting once. -/
theorem sortIds_sortIds (ids : List ComponentTypeId) :
    sortIds (sortIds ids) = sortIds ids :=
  List.Pairwise.insertionSort_eq (List.pairwise_insertionSort _ ids)

/-- Which rows a walk visits. -/
inductive ForEachKind
  | every
  | enabledOnly
  deriving DecidableEq, Repr

/-- What a program keeps for its component types and for each list of them it
walks. -/
structure TypeStatics (γ : Type u) [DecidableEq γ] where
  /-- `TypeIdHolder<T>::id`: zero while the type is not registered. -/
  typeIdOf : γ → ComponentTypeId
  /-- The `s_ids` of `for_each<Comps...>` and of `for_each_enabled<Comps...>`,
  once it has been called. -/
  forEachIds : AList fun _ : ForEachKind × List γ => List ComponentTypeId := ∅
  idsSorted : ∀ walk ids, forEachIds.lookup walk = some ids → sortIds ids = ids

/-- `column(id).row(row)` of an archetype. -/
structure CellRef where
  archetype : Ptr
  componentId : ComponentTypeId
  row : Nat
  deriving DecidableEq, Repr

/-- One call of a callback. -/
structure RowCall where
  entity : Entity
  arguments : List CellRef
  deriving DecidableEq, Repr

namespace World

/-- The rows of the archetypes a query matches, in archetype and row order. -/
def matchedRows (w : World) (q : Query) : List (Ptr × Nat) :=
  (w.matchQuery q).1.flatMap fun a =>
    (List.range (w.store.deref a).entities.length).map (a, ·)

/-- The row is enabled. -/
def rowEnabled (w : World) (at' : Ptr × Nat) : Bool :=
  (w.store.deref at'.1).getEnabled at'.2

/-- The matched rows a walk does not skip. -/
def walkedRows (kind : ForEachKind) (w : World) (q : Query) :
    List (Ptr × Nat) :=
  match kind with
  | .every => w.matchedRows q
  | .enabledOnly => (w.matchedRows q).filter w.rowEnabled

/-- `for_each_row`. -/
def forEachRow (w : World) (ids : List ComponentTypeId) (at' : Ptr × Nat) :
    RowCall where
  entity := ((w.store.deref at'.1).entities[at'.2]?).getD Entity.null
  arguments := ids.map (⟨at'.1, ·, at'.2⟩)

end World

/-! ## The walks -/

/-- `View<Comps...>`. -/
structure View where
  ids : List ComponentTypeId
  query : Query

/-- The calls of a walk over a view. -/
def View.each (view : View) (w : World) : List RowCall :=
  (w.matchedRows view.query).map (w.forEachRow view.ids)

variable {γ : Type u} [DecidableEq γ] {registry : ComponentRegistry}

namespace TypeStatics

/-- The registered ids of a component list, as declared. -/
def declaredIds (st : TypeStatics γ) (comps : List γ) : List ComponentTypeId :=
  comps.map st.typeIdOf

/-- The view of a list of component types, with the ids their statics hold. -/
def view (st : TypeStatics γ) (comps : List γ) : View where
  ids := st.declaredIds comps
  query := .ofComponents (st.declaredIds comps)

/-- The `s_ids` a call finds or makes. -/
def sIds (st : TypeStatics γ) (kind : ForEachKind) (comps : List γ) :
    List ComponentTypeId :=
  (st.forEachIds.lookup (kind, comps)).getD (sortIds (st.declaredIds comps))

/-- The static ids of a walk are sorted. -/
theorem sortIds_sIds (st : TypeStatics γ) (kind : ForEachKind)
    (comps : List γ) : sortIds (st.sIds kind comps) = st.sIds kind comps := by
  unfold sIds
  cases kept : st.forEachIds.lookup (kind, comps) with
  | none => exact sortIds_sortIds _
  | some ids => exact st.idsSorted _ ids kept

/-- The program after a call. -/
def keepIds (st : TypeStatics γ) (kind : ForEachKind) (comps : List γ) :
    TypeStatics γ where
  typeIdOf := st.typeIdOf
  forEachIds := st.forEachIds.insert (kind, comps) (st.sIds kind comps)
  idsSorted walk ids kept := by
    rw [AList.lookup_insert_if] at kept
    split at kept
    · rw [← Option.some.inj kept]
      exact st.sortIds_sIds kind comps
    · exact st.idsSorted walk ids kept

end TypeStatics

namespace World

/-- The calls of a walk, and what the program keeps. -/
def forEachOf (kind : ForEachKind) (st : TypeStatics γ) (w : World)
    (comps : List γ) : List RowCall × TypeStatics γ :=
  let ids := st.sIds kind comps
  ((w.walkedRows kind { all := ids }).map (w.forEachRow ids),
    st.keepIds kind comps)

/-- `for_each<Comps...>`. -/
def forEach (st : TypeStatics γ) (w : World) (comps : List γ) :
    List RowCall × TypeStatics γ :=
  w.forEachOf .every st comps

/-- `for_each_enabled<Comps...>`. -/
def forEachEnabled (st : TypeStatics γ) (w : World) (comps : List γ) :
    List RowCall × TypeStatics γ :=
  w.forEachOf .enabledOnly st comps

/-- `for_each` makes the calls of the view, each with the row's cells in the
columns of the declared types, and `for_each_enabled` makes those of the enabled
rows. -/
structure ForEachAgrees (st : TypeStatics γ) (w : World) (comps : List γ) :
    Prop where
  sameCalls : (w.forEach st comps).1 = (st.view comps).each w
  ownCells : ∀ call ∈ (w.forEach st comps).1, ∃ a row,
    call.entity = ((w.store.deref a).entities[row]?).getD Entity.null ∧
      call.arguments = comps.map fun comp => ⟨a, st.typeIdOf comp, row⟩
  enabledCalls : (w.forEachEnabled st comps).1 =
    ((w.matchedRows (st.view comps).query).filter w.rowEnabled).map
      (w.forEachRow (st.view comps).ids)

/-! ## When they agree -/

/-- The ids a call of the kind uses are the declared ones, in this order, or
neither list of ids matches a row. -/
def WalksDeclared (kind : ForEachKind) (st : TypeStatics γ) (w : World)
    (comps : List γ) : Prop :=
  st.sIds kind comps = st.declaredIds comps ∨
    (w.walkedRows kind { all := st.sIds kind comps } = [] ∧
      w.walkedRows kind (.ofComponents (st.declaredIds comps)) = [])

instance (kind : ForEachKind) (st : TypeStatics γ) (w : World)
    (comps : List γ) : Decidable (w.WalksDeclared kind st comps) :=
  inferInstanceAs (Decidable (_ ∨ _))

/-- A row is read with one list of ids. -/
theorem forEachRow_ids
    {w : World} {ids ids' : List ComponentTypeId} {at' at'' : Ptr × Nat}
    (same : w.forEachRow ids at' = w.forEachRow ids' at'') : ids = ids' := by
  have componentIds :=
    congrArg (fun call : RowCall => call.arguments.map CellRef.componentId) same
  unfold forEachRow at componentIds
  dsimp only at componentIds
  rw [List.map_map, List.map_map] at componentIds
  simpa [Function.comp_def] using componentIds

/-- A walk makes the calls with the declared ids exactly if it uses them, or
there is nothing to walk. -/
theorem forEachOf_eq_iff (kind : ForEachKind) (st : TypeStatics γ) (w : World)
    (comps : List γ) :
    (w.forEachOf kind st comps).1 =
        (w.walkedRows kind (.ofComponents (st.declaredIds comps))).map
          (w.forEachRow (st.declaredIds comps)) ↔
      w.WalksDeclared kind st comps := by
  have sorted := st.sortIds_sIds kind comps
  unfold forEachOf WalksDeclared
  dsimp only
  generalize st.sIds kind comps = ids at *
  constructor
  · intro same
    cases rows : w.walkedRows kind { all := ids } with
    | nil =>
        rw [rows, List.map_nil] at same
        exact .inr ⟨rfl, List.map_eq_nil_iff.mp same.symm⟩
    | cons first rest =>
        rw [rows, List.map_cons] at same
        cases declared : w.walkedRows kind
            (.ofComponents (st.declaredIds comps)) with
        | nil =>
            rw [declared] at same
            exact absurd same (List.cons_ne_nil _ _)
        | cons first' rest' =>
            rw [declared, List.map_cons] at same
            exact .inl (forEachRow_ids (List.cons_eq_cons.mp same).1)
  · rintro (same | ⟨none, noneDeclared⟩)
    · rw [← same]
      unfold Query.ofComponents
      rw [sorted]
    · rw [none, noneDeclared]
      rfl

/-- The two walks of a program agree exactly if each of them uses the ids in the
order the types are declared, or has nothing to walk. -/
theorem forEachAgrees_iff (st : TypeStatics γ) (w : World) (comps : List γ) :
    w.ForEachAgrees st comps ↔
      w.WalksDeclared .every st comps ∧
        w.WalksDeclared .enabledOnly st comps := by
  rw [← forEachOf_eq_iff, ← forEachOf_eq_iff]
  constructor
  · exact fun agrees => ⟨agrees.sameCalls, agrees.enabledCalls⟩
  · rintro ⟨same, sameEnabled⟩
    refine ⟨same, fun call member => ?_, sameEnabled⟩
    unfold forEach at member
    rw [same] at member
    obtain ⟨⟨a, row⟩, _, rfl⟩ := List.mem_map.mp member
    refine ⟨a, row, rfl, ?_⟩
    unfold forEachRow TypeStatics.declaredIds
    rw [List.map_map]
    rfl

/-- Two types declared against the order of their ids: the first argument is a
cell of the second type. -/
theorem not_forEachAgrees_descending :
    let w := (WorldUse.run ComponentRegistry.manaRegistry
      [.operate .createEntity, .operate (.addRaw ⟨1⟩ 1 (some [7])),
        .operate (.addRaw ⟨1⟩ 2 (some [9]))]).state
    let st : TypeStatics String :=
      { typeIdOf := fun comp =>
          if comp = "Health" then 1 else if comp = "Mana" then 2 else 0
        idsSorted := fun _ _ kept => by cases kept }
    ¬w.ForEachAgrees st ["Mana", "Health"] := by
  intro w st agrees
  exact absurd agrees.sameCalls (by decide +kernel)

/-- Before the first call, or with ids kept since the types are registered, the
walks agree exactly if the types are declared in ascending order of their ids,
or no entity has them all. -/
theorem walksDeclared_iff_ascending
    {st : TypeStatics γ} {comps : List γ} {kind : ForEachKind} (w : World)
    (current : st.sIds kind comps = sortIds (st.declaredIds comps)) :
    w.WalksDeclared kind st comps ↔
      (st.declaredIds comps).Pairwise (· ≤ ·) ∨
        w.walkedRows kind (.ofComponents (st.declaredIds comps)) = [] := by
  have ascending : sortIds (st.declaredIds comps) = st.declaredIds comps ↔
      (st.declaredIds comps).Pairwise (· ≤ ·) := by
    constructor
    · intro sorted
      rw [← sorted]
      exact List.pairwise_insertionSort _ _
    · exact List.Pairwise.insertionSort_eq
  unfold WalksDeclared
  rw [current, ascending]
  exact or_congr_right (and_self_iff)

/-! ## The calls of a view -/

/-- A walk visits the entities that match. -/
theorem map_entity_each (st : TypeStatics γ) (w : World) (comps : List γ)
    (consistent : w.store.Consistent registry) :
    ((st.view comps).each w).map RowCall.entity =
      w.matchedEntities (.ofComponents (st.declaredIds comps)) := by
  have rows : ∀ a : Archetype,
      (List.range a.entities.length).map
        (fun row => (a.entities[row]?).getD Entity.null) = a.entities := by
    intro a
    refine List.ext_getElem (by simp) fun i inRange inEntities => ?_
    simp [inEntities]
  have answer : (w.matchQuery (.ofComponents (st.declaredIds comps))).1 =
      w.store.archetypeList.filter fun p =>
        (Query.ofComponents (st.declaredIds comps)).matchesArchetype
          (w.store.deref p) :=
    QueryCache.matchQuery_archetypes consistent.cached _
  unfold View.each matchedRows matchedEntities TypeStatics.view
  dsimp only
  rw [answer, List.map_map, List.map_flatMap]
  refine List.flatMap_congr fun p _ => ?_
  rw [List.map_map]
  exact rows (w.store.deref p)

/-- In a consistent world the view gets every cell from the columns of the
archetype and the row the entity is in. -/
theorem each_located
    {st : TypeStatics γ} {w : World} {comps : List γ}
    (consistent : w.store.Consistent registry) {call : RowCall}
    (member : call ∈ (st.view comps).each w) :
    ∃ loc, w.store.entityLocations.lookup call.entity = some loc ∧
      call.arguments = comps.map (fun comp =>
        ⟨loc.archetype, st.typeIdOf comp, loc.row⟩) ∧
      ∀ comp ∈ comps,
        (w.store.deref loc.archetype).hasComponent (st.typeIdOf comp) := by
  unfold View.each matchedRows at member
  obtain ⟨⟨a, row⟩, inRows, rfl⟩ := List.mem_map.mp member
  obtain ⟨a', matched, inRange⟩ := List.mem_flatMap.mp inRows
  obtain ⟨row', within, same⟩ := List.mem_map.mp inRange
  cases same
  have answer : a ∈ w.store.archetypeList.filter fun p =>
      (st.view comps).query.matchesArchetype (w.store.deref p) :=
    QueryCache.matchQuery_archetypes consistent.cached _ ▸ matched
  obtain ⟨listed, matching⟩ := List.mem_filter.mp answer
  obtain ⟨e, inRow⟩ : ∃ e, (w.store.deref a).entities[row]? = some e :=
    ⟨_, List.getElem?_eq_getElem (List.mem_range.mp within)⟩
  refine ⟨⟨a, row⟩, ?_, ?_, fun comp declared => ?_⟩
  · unfold forEachRow
    dsimp only
    rw [inRow]
    exact (consistent.located _ a row).mpr ⟨listed, inRow⟩
  · unfold forEachRow TypeStatics.view TypeStatics.declaredIds
    dsimp only
    rw [List.map_map]
    rfl
  · rw [Archetype.hasComponent_iff]
    refine (Query.matchesArchetype_iff.mp matching).1 _ ?_
    unfold TypeStatics.view Query.ofComponents
    dsimp only
    rw [mem_sortIds]
    exact List.mem_map_of_mem declared

end World
end VortarisECS
