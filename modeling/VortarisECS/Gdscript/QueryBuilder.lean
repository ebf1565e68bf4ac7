import VortarisECS.Core.Iteration
import VortarisECS.Gdscript.EntityHandle

/-!
# The query builder of scripts

A builder collects the terms of a query and filters for the rows of the matched
archetypes.  `execute` collects the rows, `execute_one` stops at the first and
`count` counts them, but `count` knows nothing of the changed components.
-/

namespace VortarisECS

/-- The field of a component has a value. -/
structure FieldEquals where
  comp : ComponentTypeId := 0
  field : String
  value : Variant

/-- The terms of a query.  The predicate is a pure function: its answer for an
entity is the same whenever the state is. -/
structure VECSQueryBuilder where
  all : List ComponentTypeId := []
  any : List ComponentTypeId := []
  none : List ComponentTypeId := []
  changed : List ComponentTypeId := []
  fieldEquals : List FieldEquals := []
  enabledOnly : Bool := false
  where_ : Option (Entity → Bool) := Option.none
  orderComp : String := ""
  orderField : String := ""
  orderById : Bool := false

/-- `World::changed_baseline`. -/
def World.changedBaseline (w : World) (signature : UInt64) : Nat :=
  (w.changedBaselines.lookup signature).getD 0

namespace VECSQueryBuilder

/-! ## Terms -/

section Terms

variable (registry : ComponentRegistry) (b : VECSQueryBuilder)
  (names : List String)

/-- The ids of the registered names. -/
def resolve : List ComponentTypeId :=
  (names.map registry.idOf).filter (· ≠ invalidComponentType)

/-- Ask for all of the named components; unknown names are skipped. -/
def withAll : VECSQueryBuilder :=
  { b with all := b.all ++ resolve registry names }

/-- Ask for any of the named components. -/
def withAny : VECSQueryBuilder :=
  { b with any := b.any ++ resolve registry names }

/-- Ask for none of the named components. -/
def withNone : VECSQueryBuilder :=
  { b with none := b.none ++ resolve registry names }

/-- Ask for enabled rows only. -/
def enabled : VECSQueryBuilder := { b with enabledOnly := true }

/-- Ask for rows of which a named component was written since the last time. -/
def withChanged : VECSQueryBuilder :=
  { b with changed := b.changed ++ resolve registry names }

/-- Ask for a value of a field; an unknown component is skipped. -/
def withFieldEquals (comp field : String) (value : Variant) :
    VECSQueryBuilder :=
  if registry.idOf comp = invalidComponentType then b
  else
    { b with
      fieldEquals := b.fieldEquals ++
        [{ comp := registry.idOf comp, field := field, value := value }] }

end Terms

/-! ## Rows -/

variable (engine : Engine) (registry : ComponentRegistry)
  (b : VECSQueryBuilder)

/-- `_matches_field_equals`. -/
def matchesFieldEquals (w : World) (e : Entity) : Bool :=
  b.fieldEquals.all fun fe =>
    match w.has e fe.comp, (registry.schemaOf fe.comp).bind (·.findField fe.field),
        w.getRaw e fe.comp with
    | true, some fd, some raw =>
        match fieldToVariant engine fd (raw.drop fd.offset) with
        | Option.none => false
        | some value => variantsEqual engine value fe.value
    | _, _, _ => false

/-- One of the changed components of the row was written since the baseline. -/
def rowChanged (a : Archetype) (row baseline : Nat) : Bool :=
  b.changed.any fun t =>
    a.hasComponent t && (a.column t).rowChangedSince row baseline

/-- The filters that `count` applies to a row. -/
def acceptsRow (w : World) (a : Archetype) (row : Nat) (e : Entity) : Bool :=
  (!b.enabledOnly || a.getEnabled row) &&
    b.matchesFieldEquals engine registry w e &&
    (b.where_.map fun predicate => predicate e).getD true

/-- The filters that `execute` applies to a row. -/
def selectsRow (w : World) (baseline : Nat) (a : Archetype) (row : Nat)
    (e : Entity) : Bool :=
  (b.changed.isEmpty || b.rowChanged a row baseline) &&
    b.acceptsRow engine registry w a row e

/-! ## Queries -/

/-- The terms of the query, in the order the cache wants them. -/
def compileQuery : Query where
  all := sortIds b.all
  any := sortIds b.any
  none := sortIds b.none

/-- The key of the baseline, mixed from the terms and the changed components. -/
def baselineKey (q : Query) : UInt64 :=
  (sortIds b.changed).foldl fnvMixId
    ((q.membershipSignature ^^^ 0x9E3779B97F4A7C15) * fnvPrime)

/-- Track the changed components of the matched archetypes. -/
def trackChanged (arches : List Ptr) (w : World) : World :=
  arches.foldl (fun w p =>
    b.changed.foldl (fun w t =>
      if (w.store.deref p).hasComponent t then
        w.modifyColumn ⟨p, 0⟩ t (·.ensureVersions w.changeTick)
      else w) w) w

/-- The matched archetypes, the world to read them in and the baseline of the
changed components. -/
def prepare (w : World) : List Ptr × World × Nat :=
  let (arches, w) := w.matchQuery b.compileQuery
  if b.changed.isEmpty then (arches, w, 0)
  else
    (arches, b.trackChanged arches w,
      w.changedBaseline (b.baselineKey b.compileQuery))

/-- Move the baseline to the present tick. -/
def advance (w : World) : World :=
  if b.changed.isEmpty then w
  else w.setChangedBaseline (b.baselineKey b.compileQuery) w.changeTick

/-- The order the builder asks for; entities that compare equal stay as they
were. -/
def sortCollected (w : World) (collected : List Entity) : List Entity :=
  if b.orderById then collected.mergeSort fun x y => x.id ≤ y.id
  else if b.orderComp ≠ "" then
    collected.mergeSort fun x y =>
      !engine.less (w.getf engine registry y b.orderComp b.orderField .nil)
        (w.getf engine registry x b.orderComp b.orderField .nil)
  else collected

/-- All entities that are selected, and the world with the new baseline. -/
def execute (w : World) : List Entity × World :=
  let (arches, w, baseline) := b.prepare w
  let collected := arches.flatMap fun p =>
    let a := w.store.deref p
    a.entities.zipIdx.filterMap fun (e, row) =>
      if b.selectsRow engine registry w baseline a row e then some e
      else Option.none
  (b.sortCollected engine registry w collected, b.advance w)

/-- The first entity that is selected, in the order of the rows. -/
def executeOne (w : World) : Option Entity × World :=
  let (arches, w, baseline) := b.prepare w
  let result := arches.findSome? fun p =>
    let a := w.store.deref p
    a.entities.zipIdx.findSome? fun (e, row) =>
      if b.selectsRow engine registry w baseline a row e then some e
      else Option.none
  (result, b.advance w)

/-- The number of rows that are accepted, whether they were changed or not. -/
def count (w : World) : Nat × World :=
  let (arches, w) := w.matchQuery b.compileQuery
  ((arches.map fun p =>
    let a := w.store.deref p
    a.entities.zipIdx.countP fun (e, row) =>
      b.acceptsRow engine registry w a row e).sum, w)

end VECSQueryBuilder

/-! ## Tracking changes no row -/

/-- What an archetype holds apart from the versions of its columns. -/
def Archetype.unversioned (a : Archetype) :
    List ComponentTypeId × List Entity × List Bool × List (List (List UInt8)) :=
  (a.componentIds, a.entities, a.enabled, a.columns.map Column.rows)

/-- Tracking does not show without versions. -/
theorem Archetype.unversioned_ensureVersions
    (a : Archetype) (t : ComponentTypeId) (tick : Nat) :
    (a.setColumn t ((a.column t).ensureVersions tick)).unversioned =
      a.unversioned := by
  have columns : (a.columns.set (a.columnIndex t)
      ((a.column t).ensureVersions tick)).map Column.rows =
        a.columns.map Column.rows := by
    rw [List.map_set, Column.ensureVersions_rows]
    apply List.ext_getElem?
    intro i
    rw [List.getElem?_set, List.length_map]
    split
    next same =>
        subst same
        rw [List.getElem?_map, Archetype.column]
        split
        next inRange =>
            rw [List.getElem?_eq_getElem inRange]
            rfl
        next outside =>
            rw [List.getElem?_eq_none (Nat.le_of_not_lt outside)]
            rfl
    next => rfl
  unfold Archetype.unversioned Archetype.setColumn
  dsimp only
  rw [columns]

/-- Rows do not depend on versions. -/
theorem Archetype.row_of_unversioned
    {a b : Archetype} (same : a.unversioned = b.unversioned)
    (t : ComponentTypeId) (row : Nat) :
    (a.column t).row row = (b.column t).row row := by
  have rows : ∀ c : Archetype, (c.column t).rows =
      (((c.columns.map Column.rows)[c.columnIndex t]?).getD []) := by
    intro c
    rw [List.getElem?_map, Archetype.column]
    cases c.columns[c.columnIndex t]? <;> rfl
  unfold Archetype.unversioned at same
  rw [Prod.mk.injEq, Prod.mk.injEq, Prod.mk.injEq] at same
  unfold Column.row
  rw [rows, rows, same.2.2.2, Archetype.columnIndex, Archetype.columnIndex,
    same.1]

namespace World

/-- The worlds differ in versions alone. -/
structure SameRows (w other : World) : Prop where
  locations : other.store.entityLocations = w.store.entityLocations
  archetypes : ∀ p, (other.store.deref p).unversioned =
    (w.store.deref p).unversioned

theorem SameRows.refl (w : World) : w.SameRows w := ⟨rfl, fun _ => rfl⟩

/-- Worlds with the same rows as a third. -/
theorem SameRows.trans
    {w middle other : World} (first : w.SameRows middle)
    (second : middle.SameRows other) : w.SameRows other :=
  ⟨second.locations.trans first.locations,
    fun p => (second.archetypes p).trans (first.archetypes p)⟩

/-- Tracking keeps the rows. -/
theorem sameRows_ensureVersions
    (w : World) (loc : EntityLocation) (t : ComponentTypeId) (tick : Nat) :
    w.SameRows (w.modifyColumn loc t (·.ensureVersions tick)) :=
  ⟨rfl, ArchetypeStore.modify_keeps w.store loc.archetype
    Archetype.unversioned fun a => a.unversioned_ensureVersions t tick⟩

section SameRows

variable {w other : World} (same : w.SameRows other)

include same

theorem SameRows.componentIds (p : Ptr) :
    (other.store.deref p).componentIds = (w.store.deref p).componentIds :=
  congrArg Prod.fst (same.archetypes p)

theorem SameRows.entities (p : Ptr) :
    (other.store.deref p).entities = (w.store.deref p).entities :=
  congrArg (·.2.1) (same.archetypes p)

theorem SameRows.getEnabled (p : Ptr) (row : Nat) :
    (other.store.deref p).getEnabled row =
      (w.store.deref p).getEnabled row := by
  have enabled : (other.store.deref p).enabled = (w.store.deref p).enabled :=
    congrArg (·.2.2.1) (same.archetypes p)
  unfold Archetype.getEnabled
  rw [enabled]

theorem SameRows.has_eq (e : Entity) (t : ComponentTypeId) :
    other.has e t = w.has e t := by
  unfold World.has Archetype.hasComponent
  rw [same.locations]
  cases w.store.entityLocations.lookup e with
  | none => rfl
  | some loc =>
      dsimp only
      rw [same.componentIds]

/-- The same bytes are read. -/
theorem SameRows.getRaw_eq (e : Entity) (t : ComponentTypeId) :
    other.getRaw e t = w.getRaw e t := by
  unfold World.getRaw Archetype.hasComponent
  rw [same.locations]
  cases w.store.entityLocations.lookup e with
  | none => rfl
  | some loc =>
      dsimp only
      rw [same.componentIds,
        Archetype.row_of_unversioned (same.archetypes loc.archetype)]

end SameRows

end World

namespace VECSQueryBuilder

variable (engine : Engine) (registry : ComponentRegistry)
  (b : VECSQueryBuilder)

/-- Preparing a query keeps the rows. -/
theorem sameRows_trackChanged (arches : List Ptr) (w : World) :
    w.SameRows (b.trackChanged arches w) := by
  refine List.foldlRecOn (motive := w.SameRows) arches _ (.refl w)
    fun tracked same p _ => ?_
  refine List.foldlRecOn (motive := w.SameRows) b.changed _ same
    fun tracked same t _ => ?_
  split
  · exact same.trans (tracked.sameRows_ensureVersions _ t _)
  · exact same

/-- A row is accepted in worlds with the same rows. -/
theorem acceptsRow_of_sameRows
    {w other : World} (same : w.SameRows other) (p : Ptr) (row : Nat)
    (e : Entity) :
    b.acceptsRow engine registry other (other.store.deref p) row e =
      b.acceptsRow engine registry w (w.store.deref p) row e := by
  have fields : b.matchesFieldEquals engine registry other e =
      b.matchesFieldEquals engine registry w e := by
    unfold matchesFieldEquals
    congr 1
    funext fe
    rw [same.has_eq, same.getRaw_eq]
  unfold acceptsRow
  rw [same.getEnabled, fields]

/-- A match keeps the rows. -/
theorem sameRows_matchQuery (w : World) (q : Query) :
    w.SameRows (w.matchQuery q).2 := ⟨rfl, fun _ => rfl⟩

theorem prepare_arches (w : World) :
    (b.prepare w).1 = (w.matchQuery b.compileQuery).1 := by
  unfold prepare
  dsimp only
  split <;> rfl

theorem sameRows_prepare (w : World) : w.SameRows (b.prepare w).2.1 := by
  have answered := sameRows_matchQuery w b.compileQuery
  unfold prepare
  dsimp only
  split
  · exact answered
  · exact answered.trans (b.sameRows_trackChanged _ _)

/-! ## The terminal methods -/

/-- The rows of the matched archetypes, with their entities. -/
def rows (w : World) : List (Ptr × Entity × Nat) :=
  (b.prepare w).1.flatMap fun p =>
    (w.store.deref p).entities.zipIdx.map fun entry => (p, entry)

/-- `count` counts the row. -/
def counts (w : World) (at' : Ptr × Entity × Nat) : Bool :=
  b.acceptsRow engine registry w (w.store.deref at'.1) at'.2.2 at'.2.1

/-- A changed component of the row was written since the baseline; tracking
that starts now counts as a write. -/
def writtenSince (w : World) (at' : Ptr × Entity × Nat) : Bool :=
  b.rowChanged ((b.prepare w).2.1.store.deref at'.1) at'.2.2
    (b.prepare w).2.2

/-- A row that `execute` answers with. -/
def selects (w : World) (at' : Ptr × Entity × Nat) : Bool :=
  (b.changed.isEmpty || b.writtenSince w at') && b.counts engine registry w at'

/-- A row is selected as it was before the query was prepared. -/
theorem selectsRow_eq (w : World) (p : Ptr) (entry : Entity × Nat) :
    b.selectsRow engine registry (b.prepare w).2.1 (b.prepare w).2.2
        ((b.prepare w).2.1.store.deref p) entry.2 entry.1 =
      b.selects engine registry w (p, entry) := by
  unfold selectsRow selects counts writtenSince
  rw [b.acceptsRow_of_sameRows engine registry (b.sameRows_prepare w)]

/-- The answer as a filter over the rows. -/
theorem execute_sorted (w : World) :
    (b.execute engine registry w).1 =
      b.sortCollected engine registry (b.prepare w).2.1
        ((b.rows w).filterMap fun at' =>
          if b.selects engine registry w at' then some at'.2.1
          else Option.none) := by
  unfold execute rows
  dsimp only
  rw [List.filterMap_flatMap]
  congr 2
  funext p
  rw [(b.sameRows_prepare w).entities, List.filterMap_map]
  congr 1
  funext entry
  rw [b.selectsRow_eq]
  rfl

/-- Without an order the answer is in the order of the rows. -/
theorem execute_eq
    (unordered : b.orderById = false ∧ b.orderComp = "") (w : World) :
    (b.execute engine registry w).1 =
      (b.rows w).filterMap fun at' =>
        if b.selects engine registry w at' then some at'.2.1
        else Option.none := by
  rw [b.execute_sorted]
  unfold sortCollected
  rw [unordered.1, unordered.2, if_neg Bool.false_ne_true,
    if_neg (not_not_intro rfl)]

/-- The first row that is selected. -/
theorem executeOne_eq (w : World) :
    (b.executeOne engine registry w).1 =
      (b.rows w).findSome? fun at' =>
        if b.selects engine registry w at' then some at'.2.1
        else Option.none := by
  unfold executeOne rows
  dsimp only
  rw [← List.head?_filterMap (l := List.flatMap _ _), List.filterMap_flatMap,
    List.head?_flatMap]
  congr 1
  funext p
  rw [(b.sameRows_prepare w).entities, List.head?_filterMap, List.findSome?_map]
  congr 1
  funext entry
  rw [b.selectsRow_eq]
  rfl

/-- The rows that are counted. -/
theorem count_eq (w : World) :
    (b.count engine registry w).1 =
      (b.rows w).countP (b.counts engine registry w) := by
  unfold count rows
  dsimp only
  rw [b.prepare_arches, List.countP_flatMap]
  congr 2
  funext p
  rw [Function.comp_apply, List.countP_map]
  refine List.countP_congr fun entry _ => Eq.congr_left ?_
  exact b.acceptsRow_of_sameRows engine registry
    (sameRows_matchQuery w b.compileQuery) p entry.2 entry.1

/-- A test that implies another is passed as often only if it holds wherever
the other does. -/
theorem countP_eq_countP_iff
    {test other : α → Bool} (implies : ∀ a, test a = true → other a = true)
    (list : List α) :
    list.countP other = list.countP test ↔
      ∀ a ∈ list, other a = true → test a = true := by
  induction list with
  | nil => simp
  | cons a list inductionHypothesis =>
      have fewer : list.countP test ≤ list.countP other :=
        List.countP_mono_left fun a _ => implies a
      rw [List.forall_mem_cons, ← inductionHypothesis, List.countP_cons,
        List.countP_cons]
      cases passed : test a with
      | true =>
          rw [implies a passed]
          simp
      | false =>
          cases other a with
          | false => simp
          | true =>
              simp
              omega

/-- `execute`, `execute_one` and `count` give one answer, and the first two
leave one baseline. -/
structure TerminalsAgree (w : World) : Prop where
  count : (b.count engine registry w).1 =
    (b.execute engine registry w).1.length
  first : (b.executeOne engine registry w).1 =
    (b.execute engine registry w).1.head?
  baseline : ∀ signature,
    (b.executeOne engine registry w).2.changedBaseline signature =
      (b.execute engine registry w).2.changedBaseline signature

/-- With changed terms, every row that passes the other terms was written since
the baseline. -/
def AllWritten (w : World) : Prop :=
  b.changed = [] ∨ ∀ at' ∈ b.rows w,
    b.counts engine registry w at' = true → b.writtenSince w at' = true

/-- The terminal methods agree exactly if `count` misses no unchanged row. -/
theorem terminalsAgree_iff
    (unordered : b.orderById = false ∧ b.orderComp = "") (w : World) :
    b.TerminalsAgree engine registry w ↔ b.AllWritten engine registry w := by
  have implies : ∀ at', b.selects engine registry w at' = true →
      b.counts engine registry w at' = true := fun at' selected =>
    ((Bool.and_eq_true _ _).mp selected).2
  have length : (b.execute engine registry w).1.length =
      (b.rows w).countP (b.selects engine registry w) := by
    rw [b.execute_eq engine registry unordered,
      List.length_filterMap_eq_countP]
    congr 1
    funext at'
    split <;> simp_all
  have first : (b.executeOne engine registry w).1 =
      (b.execute engine registry w).1.head? := by
    rw [b.execute_eq engine registry unordered, b.executeOne_eq,
      List.head?_filterMap]
  have all : (∀ at' ∈ b.rows w, b.counts engine registry w at' = true →
      b.selects engine registry w at' = true) ↔
        b.AllWritten engine registry w := by
    unfold AllWritten selects
    cases b.changed with
    | nil => simp
    | cons t changed => simp +contextual
  rw [← all, ← countP_eq_countP_iff implies, ← b.count_eq, ← length]
  exact ⟨fun agree => agree.count, fun count =>
    { count := count, first := first, baseline := fun _ => rfl }⟩

/-- A world with one unit, after a query for changed units has seen it. -/
def seenOnce : World :=
  let created := (World.empty .healthRegistry).createEntity.1.state
  let unit := (created.addRaw .healthRegistry ⟨1⟩ 1 Option.none).state
  (execute .singlePrecision .healthRegistry { changed := [1] } unit).2

/-- The same world after the unit was written. -/
def writtenAgain : World :=
  (seenOnce.addRaw .healthRegistry ⟨1⟩ 1 (some [7])).state

/-- Every unit that the query counts was written since. -/
theorem terminalsAgree_writtenAgain :
    (count .singlePrecision .healthRegistry { changed := [1] }
        writtenAgain).1 = 1 ∧
      TerminalsAgree .singlePrecision .healthRegistry { changed := [1] }
        writtenAgain :=
  ⟨by decide +kernel,
    (terminalsAgree_iff .singlePrecision .healthRegistry { changed := [1] }
      ⟨rfl, rfl⟩ writtenAgain).mpr (.inr (by decide +kernel))⟩

/-- `count` still counts the unit, which nothing has changed since. -/
theorem not_terminalsAgree_seenOnce :
    ¬ TerminalsAgree .singlePrecision .healthRegistry { changed := [1] }
      seenOnce := by
  intro agree
  have counted : (count .singlePrecision .healthRegistry { changed := [1] }
      seenOnce).1 = 1 := by decide +kernel
  have selected : (execute .singlePrecision .healthRegistry { changed := [1] }
      seenOnce).1 = [] := by decide +kernel
  have both := agree.count
  rw [counted, selected] at both
  cases both

end VECSQueryBuilder
end VortarisECS
