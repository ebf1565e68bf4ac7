import VortarisECS.Core.WorldSteps

/-!
# Component writes, cell by cell

A component write touches the rows of one column.  These lemmas say which cells
change, and how.
-/

namespace VortarisECS

/-- The cell of an entity's component. -/
def World.cell (w : World) (e : Entity) (t : ComponentTypeId) :
    Option Column.Cell :=
  w.store.cell e t

namespace World

/-! ## Fields untouched by a write -/

@[simp] theorem logChange_store
    (w : World) (e : Entity) (t : ComponentTypeId) (tick : Nat) :
    (w.logChange e t tick).store = w.store := by
  dsimp only [logChange]
  split <;> rfl

@[simp] theorem logChange_slots
    (w : World) (e : Entity) (t : ComponentTypeId) (tick : Nat) :
    (w.logChange e t tick).slots = w.slots := by
  dsimp only [logChange]
  split <;> rfl

@[simp] theorem logChange_changeTick
    (w : World) (e : Entity) (t : ComponentTypeId) (tick : Nat) :
    (w.logChange e t tick).changeTick = w.changeTick := by
  dsimp only [logChange]
  split <;> rfl

@[simp] theorem logChange_pendingOps
    (w : World) (e : Entity) (t : ComponentTypeId) (tick : Nat) :
    (w.logChange e t tick).pendingOps = w.pendingOps := by
  dsimp only [logChange]
  split <;> rfl

@[simp] theorem logChange_changedBaselines
    (w : World) (e : Entity) (t : ComponentTypeId) (tick : Nat) :
    (w.logChange e t tick).changedBaselines = w.changedBaselines := by
  dsimp only [logChange]
  split <;> rfl

/-- A stamped write leaves a world that differs from the marked one in its log
at most. -/
theorem stampWrite_eq (w : World) (e : Entity) (loc : EntityLocation)
    (t : ComponentTypeId) :
    ∃ marked, marked = w.bumpTick.modifyColumn loc t
        (·.markChanged loc.row w.bumpTick.changeTick) ∧
      (w.stampWrite e loc t = marked ∨
        w.stampWrite e loc t = marked.logChange e t marked.changeTick) := by
  refine ⟨_, rfl, ?_⟩
  dsimp only [stampWrite]
  split
  · exact Or.inr rfl
  · exact Or.inl rfl

/-- A stamped write marks a cell, as far as the store is concerned. -/
theorem stampWrite_store (w : World) (e : Entity) (loc : EntityLocation)
    (t : ComponentTypeId) :
    (w.stampWrite e loc t).store =
      (w.bumpTick.modifyColumn loc t
        (·.markChanged loc.row w.bumpTick.changeTick)).store := by
  obtain ⟨marked, rfl, same | logged⟩ := stampWrite_eq w e loc t
  · rw [same]
  · rw [logged, logChange_store]

/-- A stamped write leaves everything else alone. -/
theorem stampWrite_frame (w : World) (e : Entity) (loc : EntityLocation)
    (t : ComponentTypeId) :
    (w.stampWrite e loc t).slots = w.slots ∧
    (w.stampWrite e loc t).changeTick = w.bumpTick.changeTick ∧
    (w.stampWrite e loc t).pendingOps = w.pendingOps ∧
    (w.stampWrite e loc t).changedBaselines = w.changedBaselines := by
  obtain ⟨marked, rfl, same | logged⟩ := stampWrite_eq w e loc t
  · rw [same]
    exact ⟨rfl, rfl, rfl, rfl⟩
  · rw [logged, logChange_slots, logChange_changeTick, logChange_pendingOps,
      logChange_changedBaselines]
    exact ⟨rfl, rfl, rfl, rfl⟩

/-- A write leaves everything else alone. -/
theorem writeComponent_frame (w : World) (e : Entity) (loc : EntityLocation)
    (t : ComponentTypeId) (bytes : List UInt8) :
    (w.writeComponent e loc t bytes).slots = w.slots ∧
    (w.writeComponent e loc t bytes).changeTick = w.bumpTick.changeTick ∧
    (w.writeComponent e loc t bytes).pendingOps = w.pendingOps ∧
    (w.writeComponent e loc t bytes).changedBaselines = w.changedBaselines :=
  stampWrite_frame _ e loc t

/-- A mark leaves everything else alone. -/
theorem markRow_frame (w : World) (e : Entity) (loc : EntityLocation)
    (t : ComponentTypeId) :
    (w.markRow e loc t).slots = w.slots ∧
    (w.markRow e loc t).changeTick = w.bumpTick.changeTick ∧
    (w.markRow e loc t).pendingOps = w.pendingOps ∧
    (w.markRow e loc t).changedBaselines = w.changedBaselines := by
  unfold markRow
  dsimp only
  rw [logChange_slots, logChange_changeTick, logChange_pendingOps,
    logChange_changedBaselines]
  exact ⟨rfl, rfl, rfl, rfl⟩

/-! ## Rewriting one column -/

section ModifyColumn

variable {registry : ComponentRegistry} {w : World} {e : Entity}
variable {loc : EntityLocation} {t : ComponentTypeId} {f : Column → Column}

/-- A rewriting that keeps the shape of a column. -/
structure KeepsShape (f : Column → Column) (c : Column) (count : Nat) : Prop where
  elemSize_eq : (f c).elemSize = c.elemSize
  hasRows : (f c).HasRows count

/-- Bytes of the right size keep the shape of a column. -/
theorem keepsShape_setRow
    {c : Column} {count : Nat} (hasRows : c.HasRows count) (i : Nat)
    {bytes : List UInt8} (sized : bytes.length = c.elemSize) :
    KeepsShape (·.setRow i bytes) c count :=
  ⟨rfl, hasRows.setRow i sized⟩

/-- Marking keeps the shape of a column. -/
theorem keepsShape_markChanged
    {c : Column} {count : Nat} (hasRows : c.HasRows count) (i tick : Nat) :
    KeepsShape (·.markChanged i tick) c count :=
  ⟨Column.setVersion_elemSize c i tick, hasRows.setVersion i tick⟩

/-- Tracking keeps the shape of a column. -/
theorem keepsShape_ensureVersions
    {c : Column} {count : Nat} (hasRows : c.HasRows count) (tick : Nat) :
    KeepsShape (·.ensureVersions tick) c count :=
  ⟨Column.ensureVersions_elemSize c tick, hasRows.ensureVersions tick⟩

/-- The column of an entity has as many rows as its archetype. -/
theorem columnAt_hasRows
    (consistent : w.store.Consistent registry)
    (location : w.store.entityLocations.lookup e = some loc)
    (present : t ∈ (w.store.deref loc.archetype).componentIds) :
    (w.columnAt loc t).HasRows
      (w.store.deref loc.archetype).entities.length :=
  (consistent.archetypeOf location).columnRows t present

/-- The column of an entity has elements of the component's size. -/
theorem columnAt_elemSize
    (consistent : w.store.Consistent registry)
    (location : w.store.entityLocations.lookup e = some loc)
    (present : t ∈ (w.store.deref loc.archetype).componentIds) :
    (w.columnAt loc t).elemSize = registry.sizeOf t :=
  (consistent.archetypeOf location).columnSize t present

/-- Columns may change as long as they keep their shape. -/
theorem modifyColumn_consistent
    (consistent : w.store.Consistent registry)
    (location : w.store.entityLocations.lookup e = some loc)
    (present : t ∈ (w.store.deref loc.archetype).componentIds)
    (keeps : KeepsShape f (w.columnAt loc t)
      (w.store.deref loc.archetype).entities.length) :
    (w.modifyColumn loc t f).store.Consistent registry := by
  apply ArchetypeStore.modify_consistent consistent (consistent.listed location)
  · apply Archetype.setColumn_wellFormed (consistent.archetypeOf location)
    · exact keeps.elemSize_eq.trans
        (columnAt_elemSize consistent location present)
    · exact keeps.hasRows
  · rfl
  · rfl

@[simp] theorem modifyColumn_entityLocations
    (w : World) (loc : EntityLocation) (t : ComponentTypeId)
    (f : Column → Column) :
    (w.modifyColumn loc t f).store.entityLocations =
      w.store.entityLocations := rfl

@[simp] theorem modifyColumn_componentIds
    (w : World) (loc : EntityLocation) (t : ComponentTypeId)
    (f : Column → Column) (p : Ptr) :
    ((w.modifyColumn loc t f).store.deref p).componentIds =
      (w.store.deref p).componentIds :=
  ArchetypeStore.modify_keeps (f := fun a => a.setColumn t (f (a.column t)))
    w.store loc.archetype Archetype.componentIds (fun _ => rfl) p

@[simp] theorem modifyColumn_entities
    (w : World) (loc : EntityLocation) (t : ComponentTypeId)
    (f : Column → Column) (p : Ptr) :
    ((w.modifyColumn loc t f).store.deref p).entities =
      (w.store.deref p).entities :=
  ArchetypeStore.modify_keeps (f := fun a => a.setColumn t (f (a.column t)))
    w.store loc.archetype Archetype.entities (fun _ => rfl) p

@[simp] theorem modifyColumn_typesOf
    (w : World) (loc : EntityLocation) (t : ComponentTypeId)
    (f : Column → Column) (x : Entity) :
    (w.modifyColumn loc t f).store.typesOf x = w.store.typesOf x := by
  unfold ArchetypeStore.typesOf
  congr 1
  funext l
  exact modifyColumn_componentIds w loc t f _

/-- The cells of the column, and no others, are rewritten. -/
theorem modifyColumn_cell
    (consistent : w.store.Consistent registry)
    (location : w.store.entityLocations.lookup e = some loc)
    (present : t ∈ (w.store.deref loc.archetype).componentIds)
    (x : Entity) (other : ComponentTypeId) :
    (w.modifyColumn loc t f).cell x other =
      (w.store.entityLocations.lookup x).bind fun l =>
        if l.archetype = loc.archetype ∧ other = t then
          some ((f (w.columnAt loc t)).cellAt l.row)
        else (w.store.deref l.archetype).cell other l.row := by
  unfold World.cell modifyColumn
  dsimp only
  rw [ArchetypeStore.modify_cell (consistent.valid location)]
  congr 1
  funext l
  by_cases here : l.archetype = loc.archetype
  · rw [if_pos here, Archetype.setColumn_cell (consistent.archetypeOf location)
      present]
    by_cases same : other = t
    · rw [if_pos same, if_pos ⟨here, same⟩]
      rfl
    · rw [if_neg same, if_neg fun both => same both.2, here]
  · rw [if_neg here, if_neg fun both => here both.1]

/-- Two entities in one archetype are in different rows. -/
theorem row_inj
    (consistent : w.store.Consistent registry)
    (location : w.store.entityLocations.lookup e = some loc)
    {x : Entity} {l : EntityLocation}
    (xLocation : w.store.entityLocations.lookup x = some l)
    (here : l.archetype = loc.archetype) : l.row = loc.row ↔ x = e := by
  constructor
  · intro sameRow
    have xRow := consistent.inRow xLocation
    rw [here, sameRow, consistent.inRow location] at xRow
    exact (Option.some.inj xRow).symm
  · rintro rfl
    rw [location] at xLocation
    exact congrArg EntityLocation.row (Option.some.inj xLocation).symm

/-- A rewriting of one row. -/
theorem modifyColumn_cell_row
    (consistent : w.store.Consistent registry)
    (location : w.store.entityLocations.lookup e = some loc)
    (present : t ∈ (w.store.deref loc.archetype).componentIds)
    {change : Column.Cell → Column.Cell}
    (rewrites : ∀ j, j < (w.store.deref loc.archetype).entities.length →
      (f (w.columnAt loc t)).cellAt j =
        if j = loc.row then change ((w.columnAt loc t).cellAt j)
        else (w.columnAt loc t).cellAt j)
    (x : Entity) (other : ComponentTypeId) :
    (w.modifyColumn loc t f).cell x other =
      if x = e ∧ other = t then (w.cell e t).map change
      else w.cell x other := by
  rw [modifyColumn_cell consistent location present]
  cases xLocation : w.store.entityLocations.lookup x with
  | none =>
      have different : ¬(x = e ∧ other = t) := by
        rintro ⟨rfl, -⟩
        rw [location] at xLocation
        exact absurd xLocation (by simp)
      rw [if_neg different, World.cell, ArchetypeStore.cell, xLocation]
      rfl
  | some l =>
      rw [Option.bind_some]
      have xCell : w.cell x other =
          (w.store.deref l.archetype).cell other l.row :=
        ArchetypeStore.cell_of_location xLocation other
      have eCell : w.cell e t =
          some ((w.columnAt loc t).cellAt loc.row) := by
        rw [World.cell, ArchetypeStore.cell_of_location location,
          Archetype.cell_of_mem present]
        rfl
      by_cases inColumn : l.archetype = loc.archetype ∧ other = t
      · obtain ⟨here, sameType⟩ := inColumn
        subst sameType
        have bounded := Archetype.row_lt (consistent.inRow xLocation)
        rw [here] at bounded
        have rowIff := row_inj consistent location xLocation here
        rw [if_pos ⟨here, rfl⟩, rewrites l.row bounded]
        by_cases same : x = e
        · rw [if_pos (rowIff.mpr same), if_pos ⟨same, rfl⟩, eCell,
            rowIff.mpr same]
          rfl
        · rw [if_neg (rowIff.not.mpr same), if_neg fun both => same both.1,
            xCell, here, Archetype.cell_of_mem present]
          rfl
      · rw [if_neg inColumn]
        have different : ¬(x = e ∧ other = t) := by
          rintro ⟨rfl, sameType⟩
          rw [location, Option.some.injEq] at xLocation
          exact inColumn ⟨by rw [xLocation], sameType⟩
        rw [if_neg different, xCell]

end ModifyColumn

/-! ## Writes and marks -/

section Writes

variable {registry : ComponentRegistry} {w : World} {e : Entity}
variable {loc : EntityLocation} {t : ComponentTypeId} {bytes : List UInt8}

/-- Setting bytes changes one cell. -/
theorem setRow_cell
    (consistent : w.store.Consistent registry)
    (location : w.store.entityLocations.lookup e = some loc)
    (present : t ∈ (w.store.deref loc.archetype).componentIds)
    (bytes : List UInt8) (x : Entity) (other : ComponentTypeId) :
    (w.modifyColumn loc t (·.setRow loc.row bytes)).cell x other =
      if x = e ∧ other = t then
        (w.cell e t).map fun c => { c with bytes := bytes }
      else w.cell x other := by
  apply modifyColumn_cell_row consistent location present
  intro j _
  have hasRows := columnAt_hasRows consistent location present
  rw [Column.setRow_cellAt hasRows loc.row bytes j
    (Archetype.row_lt (consistent.inRow location))]
  by_cases same : j = loc.row
  · rw [if_pos same, if_pos same]
  · rw [if_neg same, if_neg same]
    rfl

/-- Marking changes one version. -/
theorem markChanged_cell
    (consistent : w.store.Consistent registry)
    (location : w.store.entityLocations.lookup e = some loc)
    (present : t ∈ (w.store.deref loc.archetype).componentIds)
    (tick : Nat) (x : Entity) (other : ComponentTypeId) :
    (w.modifyColumn loc t (·.markChanged loc.row tick)).cell x other =
      if x = e ∧ other = t then
        (w.cell e t).map fun c =>
          { c with version := c.version.map fun _ => tick }
      else w.cell x other := by
  apply modifyColumn_cell_row consistent location present
  intro j _
  have hasRows := columnAt_hasRows consistent location present
  have marked := Column.setVersion_cellAt hasRows loc.row tick j
    (Archetype.row_lt (consistent.inRow location))
  change ((w.columnAt loc t).setVersion loc.row tick).cellAt j = _
  rw [marked]
  unfold Column.cellAt
  cases tracked : (w.columnAt loc t).tracking with
  | false => simp
  | true =>
      by_cases same : j = loc.row
      · simp [same]
      · simp [same]

/-- Overwriting an instance, before the write is stamped. -/
theorem overwrite_consistent
    (consistent : w.store.Consistent registry)
    (location : w.store.entityLocations.lookup e = some loc)
    (present : t ∈ (w.store.deref loc.archetype).componentIds)
    (sized : bytes.length = registry.sizeOf t) :
    (w.modifyColumn loc t (·.setRow loc.row bytes)).store.Consistent
      registry := by
  have elemSize := columnAt_elemSize consistent location present
  exact modifyColumn_consistent consistent location present
    (keepsShape_setRow (columnAt_hasRows consistent location present) loc.row
      (sized.trans elemSize.symm))

/-- A stamped write keeps the store consistent. -/
theorem stampWrite_consistent
    (consistent : w.store.Consistent registry)
    (location : w.store.entityLocations.lookup e = some loc)
    (present : t ∈ (w.store.deref loc.archetype).componentIds) :
    (w.stampWrite e loc t).store.Consistent registry := by
  rw [stampWrite_store]
  exact modifyColumn_consistent (w := w.bumpTick) consistent location present
    (keepsShape_markChanged (columnAt_hasRows consistent location present)
      loc.row _)

/-- A write keeps the store consistent. -/
theorem writeComponent_consistent
    (consistent : w.store.Consistent registry)
    (location : w.store.entityLocations.lookup e = some loc)
    (present : t ∈ (w.store.deref loc.archetype).componentIds)
    (sized : bytes.length = registry.sizeOf t) :
    (w.writeComponent e loc t bytes).store.Consistent registry := by
  apply stampWrite_consistent
    (overwrite_consistent consistent location present sized) location
  rw [modifyColumn_componentIds]
  exact present

@[simp] theorem writeComponent_entityLocations
    (w : World) (e : Entity) (loc : EntityLocation) (t : ComponentTypeId)
    (bytes : List UInt8) :
    (w.writeComponent e loc t bytes).store.entityLocations =
      w.store.entityLocations := by
  unfold writeComponent
  rw [stampWrite_store]
  rfl

@[simp] theorem writeComponent_componentIds
    (w : World) (e : Entity) (loc : EntityLocation) (t : ComponentTypeId)
    (bytes : List UInt8) (p : Ptr) :
    ((w.writeComponent e loc t bytes).store.deref p).componentIds =
      (w.store.deref p).componentIds := by
  unfold writeComponent
  rw [stampWrite_store, modifyColumn_componentIds]
  exact modifyColumn_componentIds w loc t (·.setRow loc.row bytes) p

@[simp] theorem writeComponent_typesOf
    (w : World) (e : Entity) (loc : EntityLocation) (t : ComponentTypeId)
    (bytes : List UInt8) (x : Entity) :
    (w.writeComponent e loc t bytes).store.typesOf x = w.store.typesOf x := by
  unfold ArchetypeStore.typesOf
  rw [writeComponent_entityLocations]
  congr 1
  funext l
  exact writeComponent_componentIds w e loc t bytes _

@[simp] theorem writeComponent_isAlive
    (w : World) (e : Entity) (loc : EntityLocation) (t : ComponentTypeId)
    (bytes : List UInt8) (x : Entity) :
    (w.writeComponent e loc t bytes).isAlive x = w.isAlive x := by
  unfold isAlive ArchetypeStore.isAlive
  rw [writeComponent_entityLocations]

/-- A stamped write gives a cell the present tick. -/
theorem stampWrite_cell
    (consistent : w.store.Consistent registry)
    (location : w.store.entityLocations.lookup e = some loc)
    (present : t ∈ (w.store.deref loc.archetype).componentIds)
    (x : Entity) (other : ComponentTypeId) :
    (w.stampWrite e loc t).cell x other =
      if x = e ∧ other = t then
        (w.cell e t).map fun c => { c with
          version := c.version.map fun _ => w.bumpTick.changeTick }
      else w.cell x other := by
  unfold World.cell
  rw [stampWrite_store]
  exact markChanged_cell (w := w.bumpTick) consistent location present
    w.bumpTick.changeTick x other

/-- A write stores its bytes and, in a tracked column, the new tick. -/
theorem writeComponent_cell
    (consistent : w.store.Consistent registry)
    (location : w.store.entityLocations.lookup e = some loc)
    (present : t ∈ (w.store.deref loc.archetype).componentIds)
    (sized : bytes.length = registry.sizeOf t)
    (x : Entity) (other : ComponentTypeId) :
    (w.writeComponent e loc t bytes).cell x other =
      if x = e ∧ other = t then
        (w.cell e t).map fun c => {
          bytes := bytes
          version := c.version.map fun _ => w.bumpTick.changeTick }
      else w.cell x other := by
  have overwritten := overwrite_consistent consistent location present sized
  have overwrittenCell := setRow_cell consistent location present bytes
  unfold writeComponent
  rw [stampWrite_cell overwritten location
      (by rw [modifyColumn_componentIds]; exact present),
    overwrittenCell, overwrittenCell]
  by_cases here : x = e ∧ other = t
  · rw [if_pos here, if_pos here, if_pos ⟨rfl, rfl⟩, Option.map_map]
    rfl
  · rw [if_neg here, if_neg here, if_neg here]

/-- A mark keeps the store consistent. -/
theorem markRow_consistent
    (consistent : w.store.Consistent registry)
    (location : w.store.entityLocations.lookup e = some loc)
    (present : t ∈ (w.store.deref loc.archetype).componentIds) :
    (w.markRow e loc t).store.Consistent registry := by
  have tracked := modifyColumn_consistent consistent location present
    (keepsShape_ensureVersions (columnAt_hasRows consistent location present)
      w.changeTick)
  have presentAfter : t ∈ ((w.modifyColumn loc t
      (·.ensureVersions w.changeTick)).store.deref
        loc.archetype).componentIds := by
    rw [modifyColumn_componentIds]
    exact present
  unfold markRow
  dsimp only
  rw [logChange_store]
  exact modifyColumn_consistent
    (w := (w.modifyColumn loc t (·.ensureVersions w.changeTick)).bumpTick)
    tracked location presentAfter
    (keepsShape_markChanged (columnAt_hasRows tracked location presentAfter)
      loc.row _)

@[simp] theorem markRow_entityLocations
    (w : World) (e : Entity) (loc : EntityLocation) (t : ComponentTypeId) :
    (w.markRow e loc t).store.entityLocations = w.store.entityLocations := by
  unfold markRow
  dsimp only
  rw [logChange_store]
  rfl

@[simp] theorem markRow_componentIds
    (w : World) (e : Entity) (loc : EntityLocation) (t : ComponentTypeId)
    (p : Ptr) :
    ((w.markRow e loc t).store.deref p).componentIds =
      (w.store.deref p).componentIds := by
  unfold markRow
  dsimp only
  rw [logChange_store, modifyColumn_componentIds]
  exact modifyColumn_componentIds w loc t (·.ensureVersions w.changeTick) p

@[simp] theorem markRow_typesOf
    (w : World) (e : Entity) (loc : EntityLocation) (t : ComponentTypeId)
    (x : Entity) :
    (w.markRow e loc t).store.typesOf x = w.store.typesOf x := by
  unfold ArchetypeStore.typesOf
  rw [markRow_entityLocations]
  congr 1
  funext l
  exact markRow_componentIds w e loc t _

/-- What `mark_changed` does to the cells: the marked one is stamped with the
new tick, and its column is tracked from now on. -/
theorem markRow_cell
    (consistent : w.store.Consistent registry)
    (location : w.store.entityLocations.lookup e = some loc)
    (present : t ∈ (w.store.deref loc.archetype).componentIds)
    (x : Entity) (other : ComponentTypeId) :
    (w.markRow e loc t).cell x other =
      if x = e ∧ other = t then
        (w.cell e t).map fun c =>
          { c with version := some w.bumpTick.changeTick }
      else
        (w.modifyColumn loc t (·.ensureVersions w.changeTick)).cell x other := by
  have tracked := modifyColumn_consistent consistent location present
    (keepsShape_ensureVersions (columnAt_hasRows consistent location present)
      w.changeTick)
  have presentAfter : t ∈ ((w.modifyColumn loc t
      (·.ensureVersions w.changeTick)).store.deref
        loc.archetype).componentIds := by
    rw [modifyColumn_componentIds]
    exact present
  have marked := markChanged_cell
    (w := (w.modifyColumn loc t (·.ensureVersions w.changeTick)).bumpTick)
    tracked location presentAfter w.bumpTick.changeTick x other
  unfold World.cell markRow
  dsimp only
  rw [logChange_store]
  refine marked.trans ?_
  by_cases here : x = e ∧ other = t
  · rw [if_pos here, if_pos here]
    change ((w.modifyColumn loc t (·.ensureVersions w.changeTick)).cell e t).map
      _ = _
    have bounded := Archetype.row_lt (consistent.inRow location)
    rw [modifyColumn_cell consistent location present, location,
      Option.bind_some, if_pos ⟨rfl, rfl⟩,
      Column.ensureVersions_cellAt
        (columnAt_hasRows consistent location present) _ _ bounded,
      ArchetypeStore.cell_of_location location, Archetype.cell_of_mem present]
    rfl
  · rw [if_neg here, if_neg here]
    rfl

/-- Tracking a column leaves the bytes alone and stamps the rows that had no
version. -/
theorem ensureVersions_cell
    (consistent : w.store.Consistent registry)
    (location : w.store.entityLocations.lookup e = some loc)
    (present : t ∈ (w.store.deref loc.archetype).componentIds)
    (tick : Nat) (x : Entity) (other : ComponentTypeId) :
    (w.modifyColumn loc t (·.ensureVersions tick)).cell x other =
        w.cell x other ∨
      other = t ∧ (w.modifyColumn loc t (·.ensureVersions tick)).cell x other =
        (w.cell x other).map fun c =>
          { c with version := some (c.version.getD tick) } := by
  rw [modifyColumn_cell consistent location present]
  cases xLocation : w.store.entityLocations.lookup x with
  | none =>
      rw [World.cell, ArchetypeStore.cell, xLocation]
      exact Or.inl rfl
  | some l =>
      rw [Option.bind_some, World.cell,
        ArchetypeStore.cell_of_location xLocation]
      by_cases inColumn : l.archetype = loc.archetype ∧ other = t
      · obtain ⟨here, rfl⟩ := inColumn
        have bounded := Archetype.row_lt (consistent.inRow xLocation)
        rw [here] at bounded
        right
        rw [if_pos ⟨here, rfl⟩, Column.ensureVersions_cellAt
          (columnAt_hasRows consistent location present) _ _ bounded, here,
          Archetype.cell_of_mem present]
        exact ⟨rfl, rfl⟩
      · rw [if_neg inColumn]
        exact Or.inl rfl

end Writes
end World
end VortarisECS
