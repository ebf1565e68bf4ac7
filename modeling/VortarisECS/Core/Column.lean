import VortarisECS.Library.SwapRemove

/-!
# Columns

A column stores the rows of one component type and, once a change query has
asked for them, one version per row: the change tick of the row's last write.
A fresh row holds indeterminate memory in the source; here it is zero.
-/

namespace VortarisECS

/-- `memcpy` of exactly `size` bytes out of a buffer; bytes past the end of the
buffer, which no caller reads, are zero. -/
def copyBytes (size : Nat) (source : List UInt8) : List UInt8 :=
  source.take size ++ List.replicate (size - source.length) 0

@[simp] theorem length_copyBytes (size : Nat) (source : List UInt8) :
    (copyBytes size source).length = size := by
  simp [copyBytes]
  omega

/-- All bytes of a source are copied. -/
@[simp] theorem copyBytes_length (source : List UInt8) :
    copyBytes source.length source = source := by
  simp [copyBytes]

theorem copyBytes_of_length
    {size : Nat} {source : List UInt8} (sized : source.length = size) :
    copyBytes size source = source := by
  rw [← sized, copyBytes_length]

/-- One component column. -/
structure Column where
  elemSize : Nat := 0
  elemAlign : Nat := 1
  rows : List (List UInt8) := []
  versions : List Nat := []
  storedMax : Nat := 0
  tracking : Bool := false
  deriving DecidableEq, Repr

namespace Column

/-- A column without rows. -/
def init (elemSize elemAlign : Nat) : Column where
  elemSize := elemSize
  elemAlign := if elemAlign > 0 then elemAlign else 1

/-- The number of rows. -/
def size (c : Column) : Nat := c.rows.length

/-- The bytes of a row; none behind the last one. -/
def row (c : Column) (i : Nat) : List UInt8 := (c.rows[i]?).getD []

/-- Overwrite the bytes of a row, as the `memcpy` and `memset` calls on a row
pointer do. -/
def setRow (c : Column) (i : Nat) (bytes : List UInt8) : Column :=
  { c with rows := c.rows.set i bytes }

/-- Append a row of zeros, which no query takes for changed. -/
def grow (c : Column) : Column :=
  { c with
    rows := c.rows ++ [List.replicate c.elemSize 0]
    versions := if c.tracking then c.versions ++ [0] else c.versions }

/-- `swap_remove`: the last row moves into the hole.  The stored maximum is
reset to zero. -/
def swapRemoveRow (c : Column) (i : Nat) : Column :=
  { c with
    rows := swapRemove c.rows i
    versions := if c.tracking then swapRemove c.versions i else c.versions
    storedMax := if c.tracking then 0 else c.storedMax }

/-- Drop the last row; the stored maximum is computed anew when it is asked
for. -/
def popBack (c : Column) : Column :=
  if c.size = 0 then c
  else
    { c with
      rows := c.rows.dropLast
      versions := if c.tracking then c.versions.dropLast else c.versions
      storedMax := if c.tracking then 0 else c.storedMax }

/-- Turn tracking on, stamping every existing row with `tick`. -/
def ensureVersions (c : Column) (tick : Nat) : Column :=
  if c.tracking then c
  else
    { c with
      tracking := true
      versions := List.replicate c.size tick
      storedMax := tick }

/-- Store a version for a row of a tracked column and raise the maximum. -/
def setVersion (c : Column) (i version : Nat) : Column :=
  if c.tracking ∧ i < c.versions.length then
    { c with
      versions := c.versions.set i version
      storedMax := if version > c.storedMax then version else c.storedMax }
  else c

/-- `mark_changed` has the body of `set_version`. -/
def markChanged (c : Column) (i tick : Nat) : Column := c.setVersion i tick

/-- The version of a row, zero as long as none is tracked. -/
def versionAt (c : Column) (i : Nat) : Nat :=
  if c.tracking then (c.versions[i]?).getD 0 else 0

/-- A tracked row was changed after the baseline. -/
def rowChangedSince (c : Column) (i baseline : Nat) : Bool :=
  c.tracking && decide (i < c.versions.length) &&
    decide (c.versionAt i > baseline)

/-- Versions are tracked. -/
def hasVersions (c : Column) : Bool := c.tracking

/-- Highest version the column claims to hold. -/
def maxVersion (c : Column) : Nat := if c.tracking then c.storedMax else 0

/-! ## Rows and versions in step -/

/-- The column has `count` rows of its element size and, when tracked, a version
for each. -/
structure HasRows (c : Column) (count : Nat) : Prop where
  rows_length : c.rows.length = count
  versions_length : c.tracking = true → c.versions.length = count
  rows_sized : ∀ bytes ∈ c.rows, bytes.length = c.elemSize

/-- What one row of a column holds: its bytes, and its version when the column
is tracked. -/
structure Cell where
  bytes : List UInt8
  version : Option Nat
  deriving DecidableEq, Repr

/-- The cell at a row. -/
def cellAt (c : Column) (i : Nat) : Cell where
  bytes := c.row i
  version := if c.tracking then some (c.versionAt i) else none

theorem cellAt_bytes (c : Column) (i : Nat) : (c.cellAt i).bytes = c.row i := rfl

/-- A new column has no rows. -/
theorem init_hasRows (elemSize elemAlign : Nat) :
    (init elemSize elemAlign).HasRows 0 :=
  ⟨rfl, fun _ => rfl, fun _ member => absurd member (by simp [init])⟩

/-- Every row has the size of an element. -/
theorem HasRows.length_row
    {c : Column} (hasRows : c.HasRows count) {i : Nat} (bounded : i < count) :
    (c.row i).length = c.elemSize := by
  have inRange : i < c.rows.length := by
    rw [hasRows.rows_length]
    exact bounded
  unfold row
  rw [List.getElem?_eq_getElem inRange]
  exact hasRows.rows_sized _ (List.getElem_mem inRange)

@[simp] theorem setVersion_tracking (c : Column) (i version : Nat) :
    (c.setVersion i version).tracking = c.tracking := by
  unfold setVersion
  split <;> rfl

@[simp] theorem setVersion_rows (c : Column) (i version : Nat) :
    (c.setVersion i version).rows = c.rows := by
  unfold setVersion
  split <;> rfl

@[simp] theorem setVersion_elemSize (c : Column) (i version : Nat) :
    (c.setVersion i version).elemSize = c.elemSize := by
  unfold setVersion
  split <;> rfl

/-- Setting a version keeps the rows. -/
theorem HasRows.setVersion
    {c : Column} (hasRows : c.HasRows count) (i version : Nat) :
    (c.setVersion i version).HasRows count := by
  refine ⟨by rw [setVersion_rows]; exact hasRows.rows_length, ?_, ?_⟩
  · intro tracked
    rw [setVersion_tracking] at tracked
    unfold Column.setVersion
    split
    · rw [List.length_set]
      exact hasRows.versions_length tracked
    · exact hasRows.versions_length tracked
  · rw [setVersion_rows, setVersion_elemSize]
    exact hasRows.rows_sized

/-- Setting a version changes one cell, if versions are tracked. -/
theorem setVersion_cellAt
    {c : Column} (hasRows : c.HasRows count) (i version j : Nat)
    (bounded : i < count) :
    (c.setVersion i version).cellAt j =
      { bytes := c.row j
        version := if c.tracking then
            some (if j = i then version else c.versionAt j) else none } := by
  unfold cellAt row
  rw [setVersion_rows, setVersion_tracking]
  congr 1
  cases tracked : c.tracking with
  | false => rfl
  | true =>
      have lengths := hasRows.versions_length tracked
      have inRange : i < c.versions.length := by omega
      simp only [if_true, Option.some.injEq]
      unfold versionAt
      rw [setVersion_tracking, tracked, if_pos rfl, if_pos rfl,
        Column.setVersion, if_pos ⟨tracked, inRange⟩, List.getElem?_set]
      by_cases same : i = j
      · subst same
        rw [if_pos rfl, if_pos inRange, if_pos rfl]
        rfl
      · rw [if_neg same, if_neg (Ne.symm same)]

/-- Bytes of the right size keep the rows. -/
theorem HasRows.setRow
    {c : Column} (hasRows : c.HasRows count) (i : Nat) {bytes : List UInt8}
    (sized : bytes.length = c.elemSize) :
    (c.setRow i bytes).HasRows count := by
  refine ⟨by simpa [Column.setRow] using hasRows.rows_length,
    hasRows.versions_length, ?_⟩
  intro row member
  obtain member | rfl := List.mem_or_eq_of_mem_set member
  · exact hasRows.rows_sized row member
  · exact sized

/-- Setting bytes changes one cell. -/
theorem setRow_cellAt
    {c : Column} (hasRows : c.HasRows count) (i : Nat) (bytes : List UInt8)
    (j : Nat) (bounded : i < count) :
    (c.setRow i bytes).cellAt j =
      { c.cellAt j with bytes := if j = i then bytes else c.row j } := by
  have inRange : i < c.rows.length := by rw [hasRows.rows_length]; exact bounded
  unfold cellAt row
  congr 1
  change ((c.rows.set i bytes)[j]?).getD [] = _
  rw [List.getElem?_set]
  by_cases same : i = j
  · subst same
    simp [inRange]
  · rw [if_neg same, if_neg (Ne.symm same)]

/-- Growing adds a row. -/
theorem HasRows.grow
    {c : Column} (hasRows : c.HasRows count) : c.grow.HasRows (count + 1) := by
  refine ⟨by simp [Column.grow, hasRows.rows_length], ?_, ?_⟩
  · intro tracked
    have tracked' : c.tracking = true := tracked
    simp [Column.grow, tracked', hasRows.versions_length tracked']
  · intro row member
    obtain member | member := List.mem_append.mp member
    · exact hasRows.rows_sized row member
    · rw [List.mem_singleton.mp member]
      exact List.length_replicate

/-- The new row is zero and unchanged. -/
theorem grow_cellAt
    {c : Column} (hasRows : c.HasRows count) (j : Nat) :
    c.grow.cellAt j =
      if j = count then
        { bytes := List.replicate c.elemSize 0
          version := if c.tracking then some 0 else none }
      else c.cellAt j := by
  have rowsLength := hasRows.rows_length
  have rowValue : c.grow.row j =
      if j = count then List.replicate c.elemSize 0 else c.row j := by
    unfold row
    change ((c.rows ++ [List.replicate c.elemSize 0])[j]?).getD [] = _
    rw [List.getElem?_append]
    by_cases before : j < c.rows.length
    · rw [if_pos before, if_neg (by omega)]
    · by_cases last : j = count
      · have zero : j - c.rows.length = 0 := by omega
        rw [if_neg before, zero, if_pos last]
        rfl
      · rw [if_neg before, if_neg last, List.getElem?_eq_none (by simp; omega),
          List.getElem?_eq_none (by omega)]
  have versionValue : c.grow.versionAt j =
      if j = count then 0 else c.versionAt j := by
    unfold versionAt
    change (if c.tracking then _ else 0) = _
    cases tracked : c.tracking with
    | false => simp
    | true =>
        have lengths := hasRows.versions_length tracked
        simp only [if_true, Column.grow, tracked]
        rw [List.getElem?_append]
        by_cases before : j < c.versions.length
        · rw [if_pos before, if_neg (by omega)]
        · by_cases last : j = count
          · have zero : j - c.versions.length = 0 := by omega
            rw [if_neg before, zero, if_pos last]
            rfl
          · rw [if_neg before, if_neg last,
              List.getElem?_eq_none (by simp; omega),
              List.getElem?_eq_none (by omega)]
  unfold cellAt
  rw [rowValue, versionValue]
  change ({ bytes := _, version := if c.tracking then _ else _ } : Cell) = _
  by_cases last : j = count
  · simp [last]
  · simp [last]

/-- Removing a row takes one away. -/
theorem HasRows.swapRemoveRow
    {c : Column} (hasRows : c.HasRows count) (i : Nat) :
    (c.swapRemoveRow i).HasRows (count - 1) := by
  refine ⟨by simp [Column.swapRemoveRow, hasRows.rows_length], ?_, ?_⟩
  · intro tracked
    have tracked' : c.tracking = true := tracked
    simp [Column.swapRemoveRow, tracked', hasRows.versions_length tracked']
  · intro row member
    exact hasRows.rows_sized row (mem_of_mem_swapRemove member)

/-- The last row is found in the hole. -/
theorem swapRemoveRow_cellAt
    {c : Column} (hasRows : c.HasRows count) (i j : Nat)
    (survives : j + 1 < count) :
    (c.swapRemoveRow i).cellAt j =
      c.cellAt (if j = i then count - 1 else j) := by
  have rowsLength := hasRows.rows_length
  have rowValue : (c.swapRemoveRow i).row j =
      c.row (if j = i then count - 1 else j) := by
    unfold row
    change ((swapRemove c.rows i)[j]?).getD [] = _
    rw [getElem?_swapRemove, if_pos (by omega)]
    by_cases hole : j = i
    · rw [if_pos hole, if_pos hole, List.getLast?_eq_getElem?, rowsLength]
    · rw [if_neg hole, if_neg hole]
  have versionValue : (c.swapRemoveRow i).versionAt j =
      c.versionAt (if j = i then count - 1 else j) := by
    unfold versionAt
    change (if c.tracking then _ else 0) = _
    cases tracked : c.tracking with
    | false => rfl
    | true =>
        have lengths := hasRows.versions_length tracked
        simp only [if_true, Column.swapRemoveRow, tracked]
        rw [getElem?_swapRemove, if_pos (by omega)]
        by_cases hole : j = i
        · rw [if_pos hole, if_pos hole, List.getLast?_eq_getElem?, lengths]
        · rw [if_neg hole, if_neg hole]
  unfold cellAt
  rw [rowValue, versionValue]
  rfl

/-- Popping the last row is the swap removal of the last position. -/
theorem popBack_eq_swapRemoveRow
    {c : Column} (hasRows : c.HasRows count) (i : Nat)
    (isLast : i + 1 = count) :
    c.popBack = c.swapRemoveRow i := by
  have rowsLength := hasRows.rows_length
  have nonempty : ¬c.size = 0 := by
    unfold size
    omega
  unfold popBack Column.swapRemoveRow
  rw [if_neg nonempty, swapRemove_last c.rows i (by omega)]
  cases tracked : c.tracking with
  | false => simp
  | true =>
      have lengths := hasRows.versions_length tracked
      rw [swapRemove_last c.versions i (by omega)]

/-- Tracking keeps the rows. -/
theorem HasRows.ensureVersions
    {c : Column} (hasRows : c.HasRows count) (tick : Nat) :
    (c.ensureVersions tick).HasRows count := by
  unfold Column.ensureVersions
  split
  · exact hasRows
  · exact ⟨hasRows.rows_length, fun _ => by
      simpa [size] using hasRows.rows_length, hasRows.rows_sized⟩

@[simp] theorem ensureVersions_tracking (c : Column) (tick : Nat) :
    (c.ensureVersions tick).tracking = true := by
  unfold ensureVersions
  split
  · assumption
  · rfl

@[simp] theorem ensureVersions_rows (c : Column) (tick : Nat) :
    (c.ensureVersions tick).rows = c.rows := by
  unfold ensureVersions
  split <;> rfl

@[simp] theorem ensureVersions_elemSize (c : Column) (tick : Nat) :
    (c.ensureVersions tick).elemSize = c.elemSize := by
  unfold ensureVersions
  split <;> rfl

/-- Rows that were not tracked get the present tick for a version. -/
theorem ensureVersions_cellAt
    {c : Column} (hasRows : c.HasRows count) (tick j : Nat)
    (bounded : j < count) :
    (c.ensureVersions tick).cellAt j =
      { bytes := c.row j
        version := some ((c.cellAt j).version.getD tick) } := by
  unfold cellAt row
  rw [ensureVersions_rows, ensureVersions_tracking]
  congr 1
  cases tracked : c.tracking with
  | true =>
      have unchanged : c.ensureVersions tick = c := by
        unfold ensureVersions
        rw [if_pos tracked]
      rw [unchanged]
      simp
  | false =>
      have inRange : j < c.rows.length := by
        rw [hasRows.rows_length]
        exact bounded
      simp [versionAt, ensureVersions, tracked, size, inRange]

/-- What `add_entity` does to each column: a fresh row, stamped with the clock
when the column is tracked. -/
def addRow (c : Column) (row tick : Nat) : Column :=
  let grown := c.grow
  if grown.hasVersions then grown.setVersion row tick else grown

/-- A row is added. -/
theorem HasRows.addRow
    {c : Column} (hasRows : c.HasRows count) (row tick : Nat) :
    (c.addRow row tick).HasRows (count + 1) := by
  unfold Column.addRow
  by_cases tracked : c.grow.hasVersions = true
  · rw [if_pos tracked]
    exact hasRows.grow.setVersion row tick
  · rw [if_neg tracked]
    exact hasRows.grow

@[simp] theorem addRow_elemSize (c : Column) (row tick : Nat) :
    (c.addRow row tick).elemSize = c.elemSize := by
  dsimp only [addRow]
  split
  · exact setVersion_elemSize _ _ _
  · rfl

@[simp] theorem addRow_tracking (c : Column) (row tick : Nat) :
    (c.addRow row tick).tracking = c.tracking := by
  dsimp only [addRow]
  split
  · exact setVersion_tracking _ _ _
  · rfl

/-- A new row has the present tick for a version. -/
theorem addRow_cellAt
    {c : Column} (hasRows : c.HasRows count) (tick j : Nat) :
    (c.addRow count tick).cellAt j =
      if j = count then
        { bytes := List.replicate c.elemSize 0
          version := if c.tracking then some tick else none }
      else c.cellAt j := by
  have grownCell := grow_cellAt hasRows j
  unfold addRow
  cases tracked : c.tracking with
  | false =>
      rw [if_neg (by simp [hasVersions, grow, tracked]), grownCell, tracked]
      rfl
  | true =>
      have grownTracked : c.grow.tracking = true := tracked
      rw [if_pos (show c.grow.hasVersions = true from tracked),
        setVersion_cellAt hasRows.grow count tick j (by omega), grownTracked]
      have bytesEq : c.grow.row j = (c.grow.cellAt j).bytes := rfl
      have versionEq : some (c.grow.versionAt j) = (c.grow.cellAt j).version := by
        simp [cellAt, grownTracked]
      rw [bytesEq]
      by_cases last : j = count
      · rw [if_pos last, grownCell, if_pos last]
        simp [last]
      · rw [if_neg last, if_pos rfl, if_neg last, versionEq, grownCell,
          if_neg last]

/-- `memcpy` of one row, carrying the version when both columns are tracked: the
body of the merge walk of an archetype move. -/
def copyCell (size : Nat) (source : Column) (fromRow : Nat)
    (target : Column) (newRow : Nat) : Column :=
  let copied := target.setRow newRow (copyBytes size (source.row fromRow))
  if copied.hasVersions && source.hasVersions then
    copied.setVersion newRow (source.versionAt fromRow)
  else copied

section CopyCell

variable {source target : Column} {fromRow newRow count : Nat}

@[simp] theorem copyCell_elemSize (size : Nat) :
    (copyCell size source fromRow target newRow).elemSize = target.elemSize := by
  dsimp only [copyCell]
  split
  · exact setVersion_elemSize _ _ _
  · rfl

@[simp] theorem copyCell_tracking (size : Nat) :
    (copyCell size source fromRow target newRow).tracking = target.tracking := by
  dsimp only [copyCell]
  split
  · exact setVersion_tracking _ _ _
  · rfl

/-- Copying a cell keeps the rows. -/
theorem HasRows.copyCell
    (hasRows : target.HasRows count) :
    (copyCell target.elemSize source fromRow target newRow).HasRows count := by
  have copied : (target.setRow newRow
      (copyBytes target.elemSize (source.row fromRow))).HasRows count :=
    hasRows.setRow newRow (length_copyBytes _ _)
  dsimp only [Column.copyCell]
  split
  · exact copied.setVersion newRow _
  · exact copied

/-- The copied row takes the source's bytes, and its version when both columns
are tracked; every other row keeps its cell. -/
theorem copyCell_cellAt
    (hasRows : target.HasRows count) (bounded : newRow < count)
    (sourceSized : (source.row fromRow).length = target.elemSize) (j : Nat) :
    (copyCell target.elemSize source fromRow target newRow).cellAt j =
      if j = newRow then
        { bytes := source.row fromRow
          version := if target.tracking then
              if source.tracking then some (source.versionAt fromRow)
              else some (target.versionAt newRow)
            else none }
      else target.cellAt j := by
  have copied : (target.setRow newRow
      (copyBytes target.elemSize (source.row fromRow))).HasRows count :=
    hasRows.setRow newRow (length_copyBytes _ _)
  have copiedCell := setRow_cellAt hasRows newRow (source.row fromRow)
  rw [copyBytes_of_length sourceSized] at copied
  simp only [copyCell, copyBytes_of_length sourceSized]
  by_cases both : target.tracking = true ∧ source.tracking = true
  · obtain ⟨targetTracked, sourceTracked⟩ := both
    rw [if_pos (by simp [hasVersions, setRow, targetTracked, sourceTracked]),
      setVersion_cellAt copied newRow _ j bounded]
    have tracked : (target.setRow newRow (source.row fromRow)).tracking = true :=
      targetTracked
    have rowEq := congrArg Cell.bytes (copiedCell j bounded)
    have versionEq :
        (target.setRow newRow (source.row fromRow)).versionAt j =
          target.versionAt j := rfl
    rw [cellAt_bytes] at rowEq
    rw [rowEq, tracked, versionEq]
    by_cases same : j = newRow
    · simp [same, targetTracked, sourceTracked]
    · simp [same, cellAt, targetTracked]
  · rw [if_neg (by simpa [hasVersions, setRow] using both), copiedCell j bounded]
    by_cases same : j = newRow
    · subst same
      cases targetTracked : target.tracking with
      | false => simp [cellAt, targetTracked]
      | true =>
          have sourceUntracked : source.tracking = false := by
            simpa [targetTracked] using both
          simp [cellAt, targetTracked, sourceUntracked]
    · simp [same, cellAt]

end CopyCell

end Column
end VortarisECS
