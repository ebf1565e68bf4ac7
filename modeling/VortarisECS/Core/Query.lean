import VortarisECS.Core.Archetype
import Mathlib.Data.List.Induction

/-!
# Queries and the query cache

A query asks for entities with all of one set of components, at least one of a
second and none of a third.  Which archetypes match is cached per query, under
a hash of its terms.
-/

namespace VortarisECS

/-- The address of an archetype on the heap. -/
abbrev Ptr := Nat

/-- The components that entities must all have, of which they must have one, and
of which they must have none. -/
structure Query where
  all : List ComponentTypeId := []
  any : List ComponentTypeId := []
  none : List ComponentTypeId := []
  deriving DecidableEq, Repr

/-! ## Sorted sets of ids -/

/-- `std::sort` of a list of ids. -/
def sortIds (ids : List ComponentTypeId) : List ComponentTypeId :=
  ids.insertionSort (· ≤ ·)

/-- Sorting keeps the ids. -/
@[simp] theorem mem_sortIds {ids : List ComponentTypeId} {t : ComponentTypeId} :
    t ∈ sortIds ids ↔ t ∈ ids :=
  List.mem_insertionSort _

/-- Sorting a set of ids gives its one ascending list. -/
theorem sortIds_ascending
    {ids : List ComponentTypeId} (nodup : ids.Nodup) :
    (sortIds ids).Pairwise (· < ·) := by
  have sortedNodup : (sortIds ids).Nodup :=
    (List.perm_insertionSort _ ids).nodup_iff.mpr nodup
  have sorted : (sortIds ids).Pairwise (· ≤ ·) :=
    List.pairwise_insertionSort _ ids
  exact (sorted.and sortedNodup).imp fun both => lt_of_le_of_ne both.1 both.2

namespace Query

/-- Hash of the sorted term sets. -/
def membershipSignature (q : Query) : UInt64 :=
  let mix := fun (h : UInt64) (ids : List ComponentTypeId) (tag : UInt64) =>
    ids.foldl fnvMixId ((h ^^^ tag) * fnvPrime)
  mix (mix (mix fnvOffset q.all 1) q.any 2) q.none 3

/-- The components of an archetype meet the three terms. -/
def matchesArchetype (q : Query) (a : Archetype) : Bool :=
  q.all.all a.hasComponent &&
    (q.any.isEmpty || q.any.any a.hasComponent) &&
    !q.none.any a.hasComponent

/-- The three terms. -/
theorem matchesArchetype_iff {q : Query} {a : Archetype} :
    q.matchesArchetype a = true ↔
      (∀ t ∈ q.all, t ∈ a.componentIds) ∧
      (q.any = [] ∨ ∃ t ∈ q.any, t ∈ a.componentIds) ∧
      ∀ t ∈ q.none, t ∉ a.componentIds := by
  simp [matchesArchetype, Archetype.hasComponent, and_assoc]

/-- Whether a query matches depends on the component set alone. -/
theorem matchesArchetype_congr
    (q : Query) {a b : Archetype} (sameIds : a.componentIds = b.componentIds) :
    q.matchesArchetype a = q.matchesArchetype b := by
  have sameTest : a.hasComponent = b.hasComponent := by
    funext t
    rw [Archetype.hasComponent, Archetype.hasComponent, sameIds]
  rw [matchesArchetype, matchesArchetype, sameTest]

end Query

/-- The cache: for every hash the matching archetypes and the query they were
computed for. -/
structure QueryCache where
  cache : AList fun _ : UInt64 => List Ptr := ∅
  cachedQueries : AList fun _ : UInt64 => Query := ∅

namespace QueryCache

/-- The archetypes matching a query, computed on a miss.  A cached entry is used
only when it was computed for exactly this query. -/
def matchQuery (qc : QueryCache) (q : Query) (deref : Ptr → Archetype)
    (archetypes : List Ptr) : List Ptr × QueryCache :=
  let key := q.membershipSignature
  let result := archetypes.filter fun p => q.matchesArchetype (deref p)
  let computed := (result, {
    cache := qc.cache.insert key result
    cachedQueries := qc.cachedQueries.insert key q : QueryCache })
  match qc.cache.lookup key, qc.cachedQueries.lookup key with
  | some entry, some cached => if cached = q then (entry, qc) else computed
  | _, _ => computed

/-- Append a new archetype to the entry of every cached query it matches. -/
def registerNewArchetype (qc : QueryCache) (p : Ptr) (a : Archetype) :
    QueryCache :=
  { qc with
    cache := qc.cachedQueries.entries.foldl
      (fun cache kv =>
        if kv.2.matchesArchetype a then
          cache.insert kv.1 ((cache.lookup kv.1).getD [] ++ [p])
        else cache)
      qc.cache }

/-- Drop an archetype from every entry. -/
def eraseArchetype (qc : QueryCache) (p : Ptr) : QueryCache :=
  { qc with
    cache := qc.cache.keys.foldl
      (fun cache key =>
        cache.insert key (((cache.lookup key).getD []).filter (· ≠ p)))
      qc.cache }

/-! ## Accuracy -/

/-- Every entry lists the archetypes its query matches, in list order. -/
def Accurate (qc : QueryCache) (deref : Ptr → Archetype)
    (archetypes : List Ptr) : Prop :=
  ∀ key, qc.cache.lookup key =
    (qc.cachedQueries.lookup key).map fun q =>
      archetypes.filter fun p => q.matchesArchetype (deref p)

variable {qc : QueryCache} {deref : Ptr → Archetype} {archetypes : List Ptr}

/-- An empty cache is accurate. -/
theorem accurate_empty (deref : Ptr → Archetype) (archetypes : List Ptr) :
    ({} : QueryCache).Accurate deref archetypes :=
  fun _ => rfl

/-- An accurate cache answers every query exactly. -/
theorem matchQuery_archetypes
    (accurate : qc.Accurate deref archetypes) (q : Query) :
    (qc.matchQuery q deref archetypes).1 =
      archetypes.filter fun p => q.matchesArchetype (deref p) := by
  have entryEq := accurate q.membershipSignature
  unfold matchQuery
  dsimp only
  split
  · rename_i entry cached entryFound cachedFound
    rw [entryFound, cachedFound, Option.map_some, Option.some.injEq] at entryEq
    by_cases same : cached = q
    · rw [if_pos same, entryEq, same]
    · rw [if_neg same]
  · rfl

/-- A match leaves the cache accurate. -/
theorem matchQuery_accurate
    (accurate : qc.Accurate deref archetypes) (q : Query) :
    (qc.matchQuery q deref archetypes).2.Accurate deref archetypes := by
  have computed :
      QueryCache.Accurate
        { cache := qc.cache.insert q.membershipSignature
            (archetypes.filter fun p => q.matchesArchetype (deref p))
          cachedQueries := qc.cachedQueries.insert q.membershipSignature q }
        deref archetypes := by
    intro key
    dsimp only
    rw [AList.lookup_insert_if, AList.lookup_insert_if]
    by_cases same : key = q.membershipSignature
    · rw [if_pos same, if_pos same]
      rfl
    · rw [if_neg same, if_neg same]
      exact accurate key
  unfold matchQuery
  dsimp only
  split
  · split
    · exact accurate
    · exact computed
  · exact computed

/-- Accuracy depends on the component sets of the listed archetypes alone. -/
theorem Accurate.congr
    (accurate : qc.Accurate deref archetypes) {deref' : Ptr → Archetype}
    (sameIds : ∀ p ∈ archetypes,
      (deref' p).componentIds = (deref p).componentIds) :
    qc.Accurate deref' archetypes := by
  intro key
  rw [accurate key]
  congr 1
  funext q
  apply List.filter_congr
  intro p member
  rw [q.matchesArchetype_congr (sameIds p member)]

/-- So does a new archetype. -/
theorem registerNewArchetype_accurate
    (accurate : qc.Accurate deref archetypes) (p : Ptr) :
    (qc.registerNewArchetype p (deref p)).Accurate deref
      (archetypes ++ [p]) := by
  intro key
  have folded := AList.lookup_foldl_insert
    (fun q : Query => q.matchesArchetype (deref p)) (fun entry => entry.getD [] ++ [p])
    qc.cachedQueries qc.cache key
  unfold registerNewArchetype
  dsimp only
  rw [folded, accurate key]
  cases found : qc.cachedQueries.lookup key with
  | none => rfl
  | some q =>
      dsimp only
      rw [Option.map_some, Option.map_some, List.filter_append]
      by_cases matching : q.matchesArchetype (deref p) = true
      · rw [if_pos matching, List.filter_singleton, matching]
        rfl
      · rw [if_neg matching, List.filter_singleton,
          Bool.eq_false_iff.mpr matching]
        simp

/-- So does an archetype that is freed. -/
theorem eraseArchetype_accurate
    (accurate : qc.Accurate deref archetypes) (p : Ptr) :
    (qc.eraseArchetype p).Accurate deref (archetypes.filter (· ≠ p)) := by
  intro key
  have folded := AList.lookup_foldl_keys
    (fun entry : Option (List Ptr) => (entry.getD []).filter (· ≠ p))
    qc.cache key
  unfold eraseArchetype
  dsimp only
  rw [folded, accurate key]
  cases found : qc.cachedQueries.lookup key with
  | none => rfl
  | some q =>
      rw [Option.map_some, Option.map_some, Option.map_some, Option.getD_some,
        List.filter_filter, List.filter_filter]
      congr 1
      apply List.filter_congr
      intro other _
      exact Bool.and_comm _ _

/-- So do all that are freed together. -/
theorem eraseArchetypes_accurate
    (accurate : qc.Accurate deref archetypes) (dead : List Ptr) :
    (dead.foldl (fun qc p => qc.eraseArchetype p) qc).Accurate deref
      (archetypes.filter fun p => decide (p ∉ dead)) := by
  induction dead using List.reverseRec with
  | nil => simpa using accurate
  | append_singleton dead p inductionHypothesis =>
      have step := eraseArchetype_accurate inductionHypothesis p
      have sameFilter :
          (archetypes.filter fun q => decide (q ∉ dead ++ [p])) =
            archetypes.filter fun q =>
              decide (q ≠ p) && decide (q ∉ dead) := by
        apply List.filter_congr
        intro q _
        simp [and_comm]
      rw [List.filter_filter] at step
      rw [List.foldl_append, sameFilter]
      exact step

end QueryCache
end VortarisECS
