import Mathlib.Algebra.Order.Field.Rat
import VortarisECS.Serialization.ComponentSerializer

/-!
# Field-level replication plans

Each networked component has a plan: the fields a spawn carries and, for every
distinct send interval of its fields, the fields a delta carries at that
interval.  Intervals are exact rationals here.
-/

namespace VortarisECS

/-- Seconds between delta sends of a priority tier, negative for the tiers that
are never part of a delta. -/
def priorityInterval (priority : UInt8) : ℚ :=
  if priority = syncRealtime then 0
  else if priority = syncHigh then 1 / 20
  else if priority = syncMedium then 1 / 10
  else if priority = syncLow then 1 / 2
  else -1

/-- The plan of one component. -/
structure FieldSyncPlan where
  spawnMask : List Bool := []
  bucketIntervals : List ℚ := []
  bucketMasks : List (List Bool) := []
  anyDelta : Bool := false
  deriving DecidableEq

namespace FieldDescriptor

/-- The field crosses the wire. -/
def isSent (fd : FieldDescriptor) : Bool :=
  fd.isNetworked && decide (fd.syncPriority ≠ syncLocal)

/-- The send interval of a field, negative if it is in no delta. -/
def deltaInterval (fd : FieldDescriptor) : ℚ :=
  if fd.isSent then priorityInterval fd.syncPriority else -1

end FieldDescriptor

/-- The distinct delta intervals of the fields, in the order they are met. -/
def collectIntervals (fields : List FieldDescriptor) : List ℚ :=
  fields.foldl
    (fun intervals fd =>
      if fd.deltaInterval ≥ 0 ∧ fd.deltaInterval ∉ intervals then
        intervals ++ [fd.deltaInterval]
      else intervals)
    []

/-- `sync_plan_for`. -/
def syncPlanFor (registry : ComponentRegistry) (t : ComponentTypeId) :
    FieldSyncPlan :=
  match registry.schemaOf t with
  | none => {}
  | some schema =>
      let intervals := (collectIntervals schema.fields).insertionSort (· ≤ ·)
      {
        spawnMask := schema.fields.map (·.isSent)
        bucketIntervals := intervals
        bucketMasks := intervals.map fun interval =>
          schema.fields.map fun fd =>
            fd.isSent && decide (priorityInterval fd.syncPriority = interval)
        anyDelta := !intervals.isEmpty }

/-- `is_networked`: the component replicates at all. -/
def isNetworked (registry : ComponentRegistry) (t : ComponentTypeId) : Bool :=
  match registry.schemaOf t with
  | none => false
  | some schema =>
      schema.isNetworked &&
        schema.fields.any fun fd => decide (fd.syncPriority ≠ syncLocal)

end VortarisECS
