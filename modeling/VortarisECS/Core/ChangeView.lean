import VortarisECS.Core.ChangeLog
import VortarisECS.Core.Iteration

/-!
# Change views

A view remembers up to where it has seen the changes of its components.  It
takes what is new from the log, and scans the matched archetypes whenever its
position in the log may be stale.
-/

namespace VortarisECS

/-- `ChangeView<Comps...>`. -/
structure ChangeView where
  ids : List ComponentTypeId
  query : Query
  baseline : Nat
  logPos : Nat := 0
  logGen : UInt64 := 0
  warmedUp : Bool := false
  lastArches : List Ptr := []

/-- `changes<Comps...>()`: a view of what changes from now on. -/
def World.changes (w : World) (ids : List ComponentTypeId) : ChangeView where
  ids := ids
  query := .ofComponents ids
  baseline := w.changeTick

namespace ChangeView

variable (v : ChangeView)

/-- The log was compacted or dropped since the last `take`. -/
def logInvalidated (w : World) : Bool := w.changeLogGeneration != v.logGen

/-- A view falls back on versions at its first read, after entries of the log are
gone, and when the matched archetypes are others. -/
def needLayerA (w : World) (arches : List Ptr) : Bool :=
  !v.warmedUp || v.logInvalidated w || arches != v.lastArches

/-- Track the watched columns of an archetype. -/
def trackArchetype (w : World) (p : Ptr) : World :=
  v.ids.foldl (fun w t =>
    if (w.store.deref p).hasComponent t then
      w.modifyColumn ⟨p, 0⟩ t (·.ensureVersions w.changeTick)
    else w) w

/-- Collect an entity once. -/
def collect (out : List Entity) (e : Entity) : List Entity :=
  if e ∈ out then out else out ++ [e]

/-- Layer (a) for one archetype: its changed rows, unless no watched column has
changed at all. -/
def scanArchetype (found : World × List Entity) (p : Ptr) :
    World × List Entity :=
  let w := v.trackArchetype found.1 p
  let a := w.store.deref p
  let watched := v.ids.filter a.hasComponent
  if watched.all fun t => decide ((a.column t).maxVersion ≤ v.baseline) then
    (w, found.2)
  else
    (w, a.entities.zipIdx.foldl (fun out (e, row) =>
      if watched.any fun t => (a.column t).rowChangedSince row v.baseline then
        collect out e
      else out) found.2)

/-- Layer (b) for one entry of the log. -/
def readEntry (w : World) (out : List Entity) (entry : ChangeLogEntry) :
    List Entity :=
  if entry.tick ≤ v.baseline then out
  else if entry.comp ∈ v.ids ∧ w.isAlive entry.entity ∧
      v.ids.all (fun t => w.has entry.entity t) then
    collect out entry.entity
  else out

/-- `take`: what changed since the last one, the view from now on, and the world
with the columns it tracks. -/
def take (w : World) : List Entity × ChangeView × World :=
  let (arches, w) := w.matchQuery v.query
  let (w, scanned) :=
    if v.needLayerA w arches then arches.foldl v.scanArchetype (w, [])
    else (w, [])
  let start :=
    if !v.warmedUp || v.logInvalidated w then w.changeLogLowerBound v.baseline
    else v.logPos
  let out := (w.changeLog.drop start).foldl (v.readEntry w) scanned
  (out.mergeSort fun x y => x.id ≤ y.id,
    { v with
      logPos := w.changeLog.length
      logGen := w.changeLogGeneration
      warmedUp := true
      lastArches := arches
      baseline := w.changeTick },
    w)

/-! ## The log stays as it is -/

theorem trackArchetype_tickLog (w : World) (p : Ptr) :
    (v.trackArchetype w p).tickLog = w.tickLog := by
  unfold trackArchetype
  refine List.foldlRecOn
    (motive := fun tracked : World => tracked.tickLog = w.tickLog)
    v.ids _ rfl fun tracked same t _ => ?_
  split
  · exact same
  · exact same

theorem scanArchetype_tickLog (found : World × List Entity) (p : Ptr) :
    (v.scanArchetype found p).1.tickLog = found.1.tickLog := by
  have tracked := v.trackArchetype_tickLog found.1 p
  unfold scanArchetype
  dsimp only
  split <;> exact tracked

/-- Taking changes logs nothing. -/
theorem take_tickLog (w : World) : (v.take w).2.2.tickLog = w.tickLog := by
  have scanned (arches : List Ptr) (found : World × List Entity) :
      (arches.foldl v.scanArchetype found).1.tickLog = found.1.tickLog :=
    List.foldlRecOn
      (motive := fun scan : World × List Entity =>
        scan.1.tickLog = found.1.tickLog)
      arches _ rfl fun scan same p _ =>
        (v.scanArchetype_tickLog scan p).trans same
  unfold take
  dsimp only
  split
  · exact scanned _ _
  · rfl

end ChangeView
end VortarisECS
