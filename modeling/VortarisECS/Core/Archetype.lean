import VortarisECS.Core.Column
import VortarisECS.Core.Schema
import VortarisECS.Library.MergeJoin

/-!
# Archetypes

An archetype stores all entities with one exact component set, in parallel
vectors: the entities, their enabled flags and one column per component.
-/

namespace VortarisECS

/-! ## Signatures -/

/-- The offset basis of the FNV-1a hash of 64 bits. -/
def fnvOffset : UInt64 := 14695981039346656037

/-- The prime of the FNV-1a hash of 64 bits. -/
def fnvPrime : UInt64 := 1099511628211

/-- Mix the four bytes of a type id into an FNV-1a hash. -/
def fnvMixId (h : UInt64) (id : ComponentTypeId) : UInt64 :=
  let step := fun (h : UInt64) (v : UInt32) =>
    (h ^^^ (v &&& 0xFF).toUInt64) * fnvPrime
  step (step (step (step h id) (id >>> 8)) (id >>> 16)) (id >>> 24)

/-- The archetype signature of a component set. -/
def computeSignature (ids : List ComponentTypeId) : UInt64 :=
  ids.foldl fnvMixId fnvOffset

/-! ## Archetypes -/

/-- The entities with one set of components: a column for each component, and a
row for each entity. -/
structure Archetype where
  signature : UInt64 := 0
  /-- Sorted ascending. -/
  componentIds : List ComponentTypeId := []
  entities : List Entity := []
  /-- Parallel to `componentIds`. -/
  columns : List Column := []
  enabled : List Bool := []
  entityToRow : AList fun _ : Entity => Nat := ∅
  deriving DecidableEq

namespace Archetype

/-- The binary search of the sorted ids. -/
def hasComponent (a : Archetype) (t : ComponentTypeId) : Bool :=
  decide (t ∈ a.componentIds)

/-- The binary search finds what is there. -/
@[simp] theorem hasComponent_iff {a : Archetype} {t : ComponentTypeId} :
    a.hasComponent t = true ↔ t ∈ a.componentIds := by
  simp [hasComponent]

/-- Where a component stands among those of the archetype; behind the last one if
it is not there. -/
def columnIndex (a : Archetype) (t : ComponentTypeId) : Nat :=
  a.componentIds.idxOf t

/-- The column of a component. -/
def column (a : Archetype) (t : ComponentTypeId) : Column :=
  (a.columns[a.columnIndex t]?).getD {}

/-- Write a column back, as the writes through `Column &` do. -/
def setColumn (a : Archetype) (t : ComponentTypeId) (c : Column) : Archetype :=
  { a with columns := a.columns.set (a.columnIndex t) c }

/-- Append a row for an entity.  Returns the archetype and the row. -/
def addEntity (a : Archetype) (e : Entity) (changeTick : Nat) :
    Archetype × Nat :=
  let row := a.entities.length
  ({ a with
    entities := a.entities ++ [e]
    enabled := a.enabled ++ [true]
    columns := a.columns.map (·.addRow row changeTick)
    entityToRow := a.entityToRow.insert e row }, row)

/-- Remove an entity's row.  Returns the archetype and the entity moved into the
hole, or the null handle. -/
def removeEntity (a : Archetype) (e : Entity) : Archetype × Entity :=
  match a.entityToRow.lookup e with
  | none => (a, Entity.null)
  | some row =>
      let erased := a.entityToRow.erase e
      let last := a.entities.length - 1
      if row ≠ last then
        let moved := (a.entities[last]?).getD Entity.null
        ({ a with
          entities := (a.entities.set row moved).dropLast
          columns := a.columns.map (·.swapRemoveRow row)
          enabled :=
            (a.enabled.set row ((a.enabled[last]?).getD false)).dropLast
          entityToRow := erased.insert moved row }, moved)
      else
        ({ a with
          entities := a.entities.dropLast
          columns := a.columns.map (·.popBack)
          enabled := a.enabled.dropLast
          entityToRow := erased }, Entity.null)

/-- Enable or disable a row; one that does not exist is left alone. -/
def setEnabled (a : Archetype) (row : Nat) (on : Bool) : Archetype :=
  { a with enabled := if row < a.enabled.length then a.enabled.set row on
                      else a.enabled }

/-- A row that does not exist is disabled. -/
def getEnabled (a : Archetype) (row : Nat) : Bool :=
  decide (row < a.enabled.length) && (a.enabled[row]?).getD false

/-- Copy the components two archetypes share from one row to another: the merge
walk of `_move_entity_to`. -/
def copySharedRow (registry : ComponentRegistry) (source target : Archetype)
    (fromRow newRow : Nat) : Archetype :=
  { target with
    columns := mergeJoin
      (fun id sourceColumn targetColumn =>
        Column.copyCell (registry.sizeOf id) sourceColumn fromRow targetColumn
          newRow)
      (source.componentIds.zip source.columns)
      (target.componentIds.zip target.columns) }

/-! ## Well-formed archetypes -/

/-- The vectors of an archetype are parallel, its ids ascend, its row index is the
inverse of its entity vector and its signature that of its ids. -/
structure WellFormed (registry : ComponentRegistry) (a : Archetype) : Prop where
  ascending : a.componentIds.Pairwise (· < ·)
  registered : ∀ t ∈ a.componentIds, (registry.schemaOf t).isSome
  columnsLength : a.columns.length = a.componentIds.length
  columnSize : ∀ t ∈ a.componentIds,
    (a.column t).elemSize = registry.sizeOf t
  columnRows : ∀ t ∈ a.componentIds,
    (a.column t).HasRows a.entities.length
  enabledLength : a.enabled.length = a.entities.length
  inverse : ∀ e r, a.entityToRow.lookup e = some r ↔ a.entities[r]? = some e
  signed : a.signature = computeSignature a.componentIds

/-- The cell of a component in a row, if the archetype has the component. -/
def cell (a : Archetype) (t : ComponentTypeId) (r : Nat) : Option Column.Cell :=
  if a.hasComponent t then some ((a.column t).cellAt r) else none

/-- A cell of a component the archetype has. -/
theorem cell_of_mem
    {a : Archetype} {t : ComponentTypeId} (member : t ∈ a.componentIds)
    (r : Nat) : a.cell t r = some ((a.column t).cellAt r) :=
  if_pos (hasComponent_iff.mpr member)

/-- There is no cell of a component it does not have. -/
theorem cell_of_not_mem
    {a : Archetype} {t : ComponentTypeId} (absent : t ∉ a.componentIds)
    (r : Nat) : a.cell t r = none :=
  if_neg (hasComponent_iff.not.mpr absent)

/-- There is a cell exactly if the component is there. -/
theorem cell_isSome {a : Archetype} {t : ComponentTypeId} {r : Nat} :
    (a.cell t r).isSome = a.hasComponent t := by
  unfold cell
  cases a.hasComponent t <;> rfl

/-! ## Reading one column -/

/-- Every component has a column. -/
theorem columnIndex_lt
    {a : Archetype} (columnsLength : a.columns.length = a.componentIds.length)
    {t : ComponentTypeId} (member : t ∈ a.componentIds) :
    a.columnIndex t < a.columns.length := by
  rw [columnsLength]
  exact List.idxOf_lt_length_iff.mpr member

theorem column_getElem?
    {a : Archetype} (columnsLength : a.columns.length = a.componentIds.length)
    {t : ComponentTypeId} (member : t ∈ a.componentIds) :
    a.columns[a.columnIndex t]? = some (a.column t) := by
  have inRange := columnIndex_lt columnsLength member
  unfold column
  rw [List.getElem?_eq_getElem inRange]
  rfl

/-- Every column of a well-formed archetype is the column of a component. -/
theorem exists_column_of_mem
    {registry : ComponentRegistry} {a : Archetype}
    (wellFormed : a.WellFormed registry) {c : Column} (member : c ∈ a.columns) :
    ∃ t ∈ a.componentIds, a.column t = c := by
  obtain ⟨i, inRange, rfl⟩ := List.mem_iff_getElem.mp member
  have inIds : i < a.componentIds.length := by
    rw [← wellFormed.columnsLength]
    exact inRange
  refine ⟨a.componentIds[i], List.getElem_mem inIds, ?_⟩
  have nodup : a.componentIds.Nodup :=
    wellFormed.ascending.imp fun less => ne_of_lt less
  unfold column columnIndex
  rw [nodup.idxOf_getElem i inIds, List.getElem?_eq_getElem inRange]
  rfl

/-- The column of a component after all columns were changed. -/
theorem column_map
    {a b : Archetype} {f : Column → Column}
    (columnsLength : a.columns.length = a.componentIds.length)
    (sameIds : b.componentIds = a.componentIds)
    (mapped : b.columns = a.columns.map f)
    {t : ComponentTypeId} (member : t ∈ a.componentIds) :
    b.column t = f (a.column t) := by
  unfold column columnIndex
  rw [mapped, sameIds, List.getElem?_map]
  change (Option.map f a.columns[a.columnIndex t]?).getD {} = _
  rw [column_getElem? columnsLength member]
  rfl

/-- Replacing one column leaves the others. -/
theorem column_setColumn
    {a : Archetype} (columnsLength : a.columns.length = a.componentIds.length)
    {t other : ComponentTypeId} (c : Column)
    (member : other ∈ a.componentIds) :
    (a.setColumn t c).column other = if other = t then c else a.column other := by
  unfold column
  change ((a.columns.set (a.columnIndex t) c)[a.columnIndex other]?).getD {} = _
  rw [List.getElem?_set]
  by_cases same : other = t
  · subst same
    rw [if_pos rfl, if_pos (columnIndex_lt columnsLength member), if_pos rfl]
    rfl
  · have distinct : a.columnIndex t ≠ a.columnIndex other := by
      intro sameIndex
      exact same ((List.idxOf_inj member).mp sameIndex.symm)
    rw [if_neg distinct, if_neg same]

/-! ## Adding a row -/

section AddEntity

variable {registry : ComponentRegistry} {a : Archetype} {e : Entity}

@[simp] theorem addEntity_row (a : Archetype) (e : Entity) (tick : Nat) :
    (a.addEntity e tick).2 = a.entities.length := rfl

@[simp] theorem addEntity_componentIds
    (a : Archetype) (e : Entity) (tick : Nat) :
    (a.addEntity e tick).1.componentIds = a.componentIds := rfl

@[simp] theorem addEntity_entities (a : Archetype) (e : Entity) (tick : Nat) :
    (a.addEntity e tick).1.entities = a.entities ++ [e] := rfl

/-- Every column gets a row. -/
theorem addEntity_column
    (wellFormed : a.WellFormed registry) (tick : Nat)
    {t : ComponentTypeId} (member : t ∈ a.componentIds) :
    (a.addEntity e tick).1.column t =
      (a.column t).addRow a.entities.length tick :=
  column_map (b := (a.addEntity e tick).1)
    (f := (·.addRow a.entities.length tick))
    wellFormed.columnsLength rfl rfl member

/-- A new entity keeps an archetype well formed. -/
theorem addEntity_wellFormed
    (wellFormed : a.WellFormed registry) (absent : e ∉ a.entities) (tick : Nat) :
    (a.addEntity e tick).1.WellFormed registry where
  ascending := wellFormed.ascending
  registered := wellFormed.registered
  columnsLength := by
    change (a.columns.map _).length = _
    rw [List.length_map]
    exact wellFormed.columnsLength
  columnSize t member := by
    rw [addEntity_column wellFormed tick member, Column.addRow_elemSize]
    exact wellFormed.columnSize t member
  columnRows t member := by
    rw [addEntity_column wellFormed tick member, addEntity_entities,
      List.length_append]
    exact (wellFormed.columnRows t member).addRow _ _
  enabledLength := by
    change (a.enabled ++ [true]).length = (a.entities ++ [e]).length
    simp [wellFormed.enabledLength]
  inverse other r := by
    change (a.entityToRow.insert e a.entities.length).lookup other = some r ↔
      (a.entities ++ [e])[r]? = some other
    rw [AList.lookup_insert_if, List.getElem?_append]
    by_cases same : other = e
    · subst same
      rw [if_pos rfl]
      by_cases before : r < a.entities.length
      · rw [if_pos before]
        constructor
        · intro found
          rw [Option.some.injEq] at found
          omega
        · intro found
          exact absurd (List.mem_of_getElem? found) absent
      · rw [if_neg before, Option.some.injEq]
        constructor
        · intro found
          rw [← found, Nat.sub_self]
          rfl
        · intro found
          have inRange := (List.getElem?_eq_some_iff.mp found).1
          rw [List.length_singleton] at inRange
          omega
    · rw [if_neg same, wellFormed.inverse]
      by_cases before : r < a.entities.length
      · rw [if_pos before]
      · rw [if_neg before, List.getElem?_eq_none (by omega)]
        constructor
        · intro found
          exact absurd found (by simp)
        · intro found
          have member := List.mem_of_getElem? found
          exact absurd (List.mem_singleton.mp member) same
  signed := wellFormed.signed

/-- The new row holds zeros stamped with the clock; every other row keeps its
cells. -/
theorem addEntity_cell
    (wellFormed : a.WellFormed registry) (tick : Nat)
    (t : ComponentTypeId) (r : Nat) :
    (a.addEntity e tick).1.cell t r =
      if r = a.entities.length then
        if t ∈ a.componentIds then
          some {
            bytes := List.replicate (registry.sizeOf t) 0
            version := if (a.column t).tracking then some tick else none }
        else none
      else a.cell t r := by
  by_cases member : t ∈ a.componentIds
  · rw [cell_of_mem (a := (a.addEntity e tick).1) member, cell_of_mem member,
      addEntity_column wellFormed tick member,
      Column.addRow_cellAt (wellFormed.columnRows t member),
      wellFormed.columnSize t member, if_pos member]
    by_cases last : r = a.entities.length
    · rw [if_pos last, if_pos last]
    · rw [if_neg last, if_neg last]
  · rw [cell_of_not_mem (a := (a.addEntity e tick).1) member,
      cell_of_not_mem member, if_neg member, ite_self]

end AddEntity

/-! ## Removing a row -/

section RemoveEntity

variable {registry : ComponentRegistry} {a : Archetype} {e : Entity}

/-- An entity has one row. -/
theorem entities_inj
    (wellFormed : a.WellFormed registry) {i j : Nat}
    (first : a.entities[i]? = some e) (second : a.entities[j]? = some e) :
    i = j := by
  rw [← wellFormed.inverse] at first second
  rw [first] at second
  exact Option.some.inj second

/-- A row that holds an entity exists. -/
theorem row_lt
    {r : Nat} (found : a.entities[r]? = some e) : r < a.entities.length :=
  (List.getElem?_eq_some_iff.mp found).1

/-- The entity in the last row. -/
def lastEntity (a : Archetype) : Entity :=
  (a.entities[a.entities.length - 1]?).getD Entity.null

/-- The entity that moves into a hole is the one of the last row. -/
theorem lastEntity_eq
    {r : Nat} (found : a.entities[r]? = some e) :
    a.entities[a.entities.length - 1]? = some a.lastEntity := by
  have bounded := row_lt found
  unfold lastEntity
  rw [List.getElem?_eq_getElem (by omega)]
  rfl

/-- Removal is the swap removal of one row in every vector. -/
theorem removeEntity_eq
    (wellFormed : a.WellFormed registry) {r : Nat}
    (found : a.entities[r]? = some e) :
    a.removeEntity e =
      ({ a with
        entities := swapRemove a.entities r
        columns := a.columns.map (·.swapRemoveRow r)
        enabled := swapRemove a.enabled r
        entityToRow :=
          if r + 1 = a.entities.length then a.entityToRow.erase e
          else (a.entityToRow.erase e).insert a.lastEntity r },
        if r + 1 = a.entities.length then Entity.null else a.lastEntity) := by
  have bounded := row_lt found
  have enabledLength := wellFormed.enabledLength
  simp only [removeEntity, (wellFormed.inverse e r).mpr found]
  by_cases last : r + 1 = a.entities.length
  · have columnsEq :
        a.columns.map (·.popBack) = a.columns.map (·.swapRemoveRow r) := by
      apply List.map_congr_left
      intro c member
      obtain ⟨t, inIds, rfl⟩ := exists_column_of_mem wellFormed member
      exact Column.popBack_eq_swapRemoveRow
        (wellFormed.columnRows t inIds) r last
    rw [if_neg (by omega), if_pos last, if_pos last, columnsEq,
      swapRemove_last _ _ last, swapRemove_last _ _ (by omega)]
  · have entitiesEq :
        (a.entities.set r a.lastEntity).dropLast = swapRemove a.entities r := by
      simp only [swapRemove, List.getLast?_eq_getElem?, lastEntity_eq found]
    have enabledEq :
        (a.enabled.set r
          ((a.enabled[a.entities.length - 1]?).getD false)).dropLast =
            swapRemove a.enabled r := by
      have inRange : a.entities.length - 1 < a.enabled.length := by omega
      simp only [swapRemove, List.getLast?_eq_getElem?, enabledLength,
        List.getElem?_eq_getElem inRange, Option.getD_some]
    rw [if_pos (by omega), if_neg last, if_neg last, ← entitiesEq, ← enabledEq]
    rfl

@[simp] theorem removeEntity_componentIds (a : Archetype) (e : Entity) :
    (a.removeEntity e).1.componentIds = a.componentIds := by
  unfold removeEntity
  split
  · rfl
  · dsimp only
    split <;> rfl

/-- The last row moves into the hole. -/
theorem removeEntity_entities
    (wellFormed : a.WellFormed registry) {r : Nat}
    (found : a.entities[r]? = some e) :
    (a.removeEntity e).1.entities = swapRemove a.entities r := by
  rw [removeEntity_eq wellFormed found]

/-- So it does in every column. -/
theorem removeEntity_column
    (wellFormed : a.WellFormed registry) {r : Nat}
    (found : a.entities[r]? = some e)
    {t : ComponentTypeId} (member : t ∈ a.componentIds) :
    (a.removeEntity e).1.column t = (a.column t).swapRemoveRow r := by
  apply column_map (b := (a.removeEntity e).1) (f := (·.swapRemoveRow r))
    wellFormed.columnsLength (removeEntity_componentIds a e) ?_ member
  rw [removeEntity_eq wellFormed found]

/-- Who is where after a removal. -/
theorem removeEntity_found_iff
    (wellFormed : a.WellFormed registry) {r : Nat}
    (found : a.entities[r]? = some e) (j : Nat) (other : Entity) :
    (a.removeEntity e).1.entities[j]? = some other ↔
      other ≠ e ∧
        if other = a.lastEntity then j = r else a.entities[j]? = some other := by
  rw [removeEntity_entities wellFormed found]
  exact getElem?_swapRemove_eq_some_iff
    (fun _ _ _ first second => entities_inj wellFormed first second)
    found (lastEntity_eq found) j other

/-- Removing a row keeps an archetype well formed. -/
theorem removeEntity_wellFormed
    (wellFormed : a.WellFormed registry) {r : Nat}
    (found : a.entities[r]? = some e) :
    (a.removeEntity e).1.WellFormed registry := by
  have entitiesEq := removeEntity_entities wellFormed found
  refine ⟨?_, ?_, ?_, ?_, ?_, ?_, ?_, ?_⟩
  · rw [removeEntity_componentIds]
    exact wellFormed.ascending
  · rw [removeEntity_componentIds]
    exact wellFormed.registered
  · rw [removeEntity_componentIds, removeEntity_eq wellFormed found,
      List.length_map]
    exact wellFormed.columnsLength
  · rw [removeEntity_componentIds]
    intro t member
    rw [removeEntity_column wellFormed found member]
    exact wellFormed.columnSize t member
  · rw [removeEntity_componentIds, entitiesEq, length_swapRemove]
    intro t member
    rw [removeEntity_column wellFormed found member]
    exact (wellFormed.columnRows t member).swapRemoveRow r
  · rw [entitiesEq, length_swapRemove, removeEntity_eq wellFormed found,
      length_swapRemove, wellFormed.enabledLength]
  · intro other j
    rw [removeEntity_found_iff wellFormed found, removeEntity_eq wellFormed found]
    change AList.lookup other
      (if r + 1 = a.entities.length then a.entityToRow.erase e
        else (a.entityToRow.erase e).insert a.lastEntity r) = some j ↔ _
    by_cases last : r + 1 = a.entities.length
    · have lastIsRemoved : a.lastEntity = e := by
        have lastValue := lastEntity_eq found
        have sameIndex : a.entities.length - 1 = r := by omega
        rw [sameIndex, found] at lastValue
        exact (Option.some.inj lastValue).symm
      rw [if_pos last, AList.lookup_erase_if, lastIsRemoved]
      by_cases isRemoved : other = e
      · simp [isRemoved]
      · simp [isRemoved, wellFormed.inverse]
    · have lastSurvives : a.lastEntity ≠ e := by
        intro same
        have lastValue := lastEntity_eq found
        rw [same] at lastValue
        have sameIndex := entities_inj wellFormed found lastValue
        have bounded := row_lt found
        omega
      rw [if_neg last, AList.lookup_insert_if, AList.lookup_erase_if]
      by_cases isLast : other = a.lastEntity
      · simp [isLast, lastSurvives, eq_comm]
      · by_cases isRemoved : other = e
        · simp [isRemoved, lastSurvives.symm]
        · simp [isLast, isRemoved, wellFormed.inverse]
  · rw [removeEntity_componentIds, removeEntity_eq wellFormed found]
    exact wellFormed.signed

/-- Cells after a removal: the hole shows the last row, every other surviving
row itself. -/
theorem removeEntity_cell
    (wellFormed : a.WellFormed registry) {r : Nat}
    (found : a.entities[r]? = some e) (t : ComponentTypeId)
    {j : Nat} (survives : j + 1 < a.entities.length) :
    (a.removeEntity e).1.cell t j =
      a.cell t (if j = r then a.entities.length - 1 else j) := by
  have idsEq := removeEntity_componentIds a e
  by_cases member : t ∈ a.componentIds
  · rw [cell_of_mem (by rw [idsEq]; exact member), cell_of_mem member,
      removeEntity_column wellFormed found member,
      Column.swapRemoveRow_cellAt (wellFormed.columnRows t member) r j survives]
  · rw [cell_of_not_mem (by rw [idsEq]; exact member), cell_of_not_mem member]

end RemoveEntity

/-! ## Overwriting one column -/

section SetColumn

variable {registry : ComponentRegistry} {a : Archetype}

/-- A column of the right size keeps an archetype well formed. -/
theorem setColumn_wellFormed
    (wellFormed : a.WellFormed registry) {t : ComponentTypeId} {c : Column}
    (sized : c.elemSize = registry.sizeOf t)
    (hasRows : c.HasRows a.entities.length) :
    (a.setColumn t c).WellFormed registry where
  ascending := wellFormed.ascending
  registered := wellFormed.registered
  columnsLength := by
    change (a.columns.set _ c).length = _
    rw [List.length_set]
    exact wellFormed.columnsLength
  columnSize other member := by
    rw [column_setColumn wellFormed.columnsLength c member]
    by_cases same : other = t
    · rw [if_pos same, same]
      exact sized
    · rw [if_neg same]
      exact wellFormed.columnSize other member
  columnRows other member := by
    rw [column_setColumn wellFormed.columnsLength c member]
    by_cases same : other = t
    · rw [if_pos same]
      exact hasRows
    · rw [if_neg same]
      exact wellFormed.columnRows other member
  enabledLength := wellFormed.enabledLength
  inverse := wellFormed.inverse
  signed := wellFormed.signed

/-- Replacing one column changes no other cell. -/
theorem setColumn_cell
    (wellFormed : a.WellFormed registry) {t : ComponentTypeId}
    (present : t ∈ a.componentIds) (c : Column)
    (other : ComponentTypeId) (r : Nat) :
    (a.setColumn t c).cell other r =
      if other = t then some (c.cellAt r) else a.cell other r := by
  by_cases member : other ∈ a.componentIds
  · rw [cell_of_mem (a := a.setColumn t c) member, cell_of_mem member,
      column_setColumn wellFormed.columnsLength c member]
    by_cases same : other = t
    · rw [if_pos same, if_pos same]
    · rw [if_neg same, if_neg same]
  · have distinct : other ≠ t := by
      rintro rfl
      exact member present
    rw [cell_of_not_mem (a := a.setColumn t c) member, cell_of_not_mem member,
      if_neg distinct]

end SetColumn

/-! ## Copying shared components -/

section CopyShared

variable {registry : ComponentRegistry} {source target : Archetype}

/-- Every column that both archetypes have is copied, and no other one. -/
theorem copySharedRow_columns
    (sourceWellFormed : source.WellFormed registry)
    (targetWellFormed : target.WellFormed registry) (fromRow newRow : Nat) :
    (copySharedRow registry source target fromRow newRow).columns =
      (target.componentIds.zip target.columns).map fun entry =>
        if entry.1 ∈ source.componentIds then
          Column.copyCell (registry.sizeOf entry.1) (source.column entry.1)
            fromRow entry.2 newRow
        else entry.2 := by
  unfold copySharedRow
  dsimp only
  rw [mergeJoin_eq_map _ _ _ (pairwise_zip sourceWellFormed.ascending _)
    (pairwise_zip targetWellFormed.ascending _)]
  apply List.map_congr_left
  rintro ⟨id, column⟩ -
  by_cases shared : id ∈ source.componentIds
  · have idAt : source.componentIds[source.columnIndex id]? = some id :=
      List.getElem?_idxOf shared
    have found := column_getElem? sourceWellFormed.columnsLength shared
    dsimp only
    rw [lookupKey_zip sourceWellFormed.ascending _
      sourceWellFormed.columnsLength idAt, found, if_pos shared]
  · dsimp only
    rw [lookupKey_zip_none _ _ shared, if_neg shared]

/-- What a column of the target holds after shared cells were copied. -/
theorem copySharedRow_column
    (sourceWellFormed : source.WellFormed registry)
    (targetWellFormed : target.WellFormed registry) (fromRow newRow : Nat)
    {t : ComponentTypeId} (member : t ∈ target.componentIds) :
    (copySharedRow registry source target fromRow newRow).column t =
      if t ∈ source.componentIds then
        Column.copyCell (registry.sizeOf t) (source.column t) fromRow
          (target.column t) newRow
      else target.column t := by
  have inRange := columnIndex_lt targetWellFormed.columnsLength member
  have found := column_getElem? targetWellFormed.columnsLength member
  have idAt : target.componentIds[target.columnIndex t]? = some t :=
    List.getElem?_idxOf member
  have zipped : (target.componentIds.zip target.columns)[target.columnIndex t]? =
      some (t, target.column t) :=
    List.getElem?_zip_eq_some.mpr ⟨idAt, found⟩
  have mapped :=
    copySharedRow_columns sourceWellFormed targetWellFormed fromRow newRow
  have columnAt : (copySharedRow registry source target fromRow
      newRow).column t =
        ((copySharedRow registry source target fromRow
          newRow).columns[target.columnIndex t]?).getD {} := rfl
  rw [columnAt, mapped, List.getElem?_map, zipped]
  rfl

/-- Copying shared cells keeps the target well formed. -/
theorem copySharedRow_wellFormed
    (sourceWellFormed : source.WellFormed registry)
    (targetWellFormed : target.WellFormed registry) (fromRow newRow : Nat) :
    (copySharedRow registry source target fromRow newRow).WellFormed
      registry where
  ascending := targetWellFormed.ascending
  registered := targetWellFormed.registered
  columnsLength := by
    rw [copySharedRow_columns sourceWellFormed targetWellFormed,
      List.length_map, List.length_zip, targetWellFormed.columnsLength]
    exact Nat.min_self _
  columnSize t member := by
    rw [copySharedRow_column sourceWellFormed targetWellFormed _ _ member]
    split
    · rw [Column.copyCell_elemSize]
      exact targetWellFormed.columnSize t member
    · exact targetWellFormed.columnSize t member
  columnRows t member := by
    rw [copySharedRow_column sourceWellFormed targetWellFormed _ _ member]
    split
    · rw [← targetWellFormed.columnSize t member]
      exact (targetWellFormed.columnRows t member).copyCell
    · exact targetWellFormed.columnRows t member
  enabledLength := targetWellFormed.enabledLength
  inverse := targetWellFormed.inverse
  signed := targetWellFormed.signed

/-- The copied row shows the source's cells for the shared components. -/
theorem copySharedRow_cell
    (sourceWellFormed : source.WellFormed registry)
    (targetWellFormed : target.WellFormed registry)
    {fromRow newRow : Nat} (fromBound : fromRow < source.entities.length)
    (newBound : newRow < target.entities.length)
    (t : ComponentTypeId) (j : Nat) :
    (copySharedRow registry source target fromRow newRow).cell t j =
      if j = newRow ∧ t ∈ source.componentIds ∧ t ∈ target.componentIds then
        some {
          bytes := (source.column t).row fromRow
          version := if (target.column t).tracking then
              if (source.column t).tracking then
                some ((source.column t).versionAt fromRow)
              else some ((target.column t).versionAt newRow)
            else none }
      else target.cell t j := by
  by_cases member : t ∈ target.componentIds
  · rw [cell_of_mem
        (a := copySharedRow registry source target fromRow newRow) member,
      cell_of_mem member,
      copySharedRow_column sourceWellFormed targetWellFormed _ _ member]
    by_cases shared : t ∈ source.componentIds
    · have sourceSized :
          ((source.column t).row fromRow).length =
            (target.column t).elemSize := by
        rw [(sourceWellFormed.columnRows t shared).length_row fromBound,
          sourceWellFormed.columnSize t shared,
          targetWellFormed.columnSize t member]
      rw [if_pos shared, ← targetWellFormed.columnSize t member,
        Column.copyCell_cellAt (targetWellFormed.columnRows t member) newBound
          sourceSized]
      by_cases same : j = newRow
      · rw [if_pos same]
        exact (if_pos (c := j = newRow ∧ t ∈ source.componentIds ∧
          t ∈ target.componentIds) ⟨same, shared, member⟩).symm
      · rw [if_neg same, if_neg fun both => same both.1]
    · rw [if_neg shared, if_neg fun both => shared both.2.1]
  · rw [cell_of_not_mem
        (a := copySharedRow registry source target fromRow newRow) member,
      cell_of_not_mem member, if_neg fun both => member both.2.2]

end CopyShared

end Archetype
end VortarisECS
