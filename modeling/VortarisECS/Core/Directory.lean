import VortarisECS.Core.StoreSteps

/-!
# The query cache over whole runs

Archetypes are created at addresses the allocator chooses, the addresses of
freed ones included, their rows come and go, compactions free the vacant ones,
and in between queries are matched.  A cached answer is never recomputed, only
patched, and stays the answer a scan would give.
-/

namespace VortarisECS

/-- The archetypes of a world at their addresses, with the cache kept for
them. -/
structure Directory where
  memory : Ptr → Archetype
  archetypeList : List Ptr := []
  emptyArchetype : Ptr := 0
  queryCache : QueryCache := {}

namespace Directory

/-- `_create_archetype`, for an archetype allocated at `p`. -/
def createArchetype (d : Directory) (p : Ptr) (a : Archetype) : Directory :=
  { d with
    memory := Function.update d.memory p a
    archetypeList := d.archetypeList ++ [p]
    queryCache := d.queryCache.registerNewArchetype p a }

/-- Rewrite the rows of the archetype at an address. -/
def changeRows (d : Directory) (p : Ptr) (change : Archetype → Archetype) :
    Directory :=
  { d with memory := Function.update d.memory p (change (d.memory p)) }

/-- The archetype a compaction frees: empty, but not the one that hosts the
entities without components. -/
def isVacant (d : Directory) (p : Ptr) : Bool :=
  decide (p ≠ d.emptyArchetype ∧ (d.memory p).entities = [])

/-- Free the vacant archetypes and drop them from the cached answers. -/
def compact (d : Directory) : Directory :=
  { d with
    archetypeList := d.archetypeList.filter fun p => !d.isVacant p
    queryCache := (d.archetypeList.filter d.isVacant).foldl
      (fun qc p => qc.eraseArchetype p) d.queryCache }

/-- `match` over `archetype_list_`: the answer and the directory with the cache
it leaves. -/
def matchQuery (d : Directory) (q : Query) : List Ptr × Directory :=
  let (answer, queryCache) :=
    d.queryCache.matchQuery q d.memory d.archetypeList
  (answer, { d with queryCache := queryCache })

/-- The plain scan. -/
def scan (d : Directory) (q : Query) : List Ptr :=
  d.archetypeList.filter fun p => q.matchesArchetype (d.memory p)

/-- The directory of a new world: the empty archetype at some address. -/
def initial (memory : Ptr → Archetype) (p : Ptr) : Directory :=
  { (createArchetype { memory := memory } p {}) with emptyArchetype := p }

end Directory

/-- What happens to the archetypes of a world.  Rows change without the
component set changing. -/
inductive DirectoryOp
  | createArchetype (p : Ptr) (a : Archetype)
  | changeRows (p : Ptr) (change : Archetype → Archetype)
      (keepsIds : ∀ a, (change a).componentIds = a.componentIds)
  | compact
  | matchQuery (q : Query)

namespace Directory

/-- Perform one operation.  The allocator never returns an address in use. -/
def apply (d : Directory) : DirectoryOp → Directory
  | .createArchetype p a =>
      if p ∈ d.archetypeList then d else d.createArchetype p a
  | .changeRows p change _ => d.changeRows p change
  | .compact => d.compact
  | .matchQuery q => (d.matchQuery q).2

/-- Perform operations one after the other. -/
def run (d : Directory) (ops : List DirectoryOp) : Directory :=
  ops.foldl apply d

/-! ## The cache stays accurate -/

/-- Every archetype is listed once and every cached answer is exact. -/
structure Sound (d : Directory) : Prop where
  listedOnce : d.archetypeList.Nodup
  cached : d.queryCache.Accurate d.memory d.archetypeList

variable {d : Directory}

/-- A new archetype is appended to the answers it matches. -/
theorem Sound.createArchetype
    (sound : d.Sound) {p : Ptr} (unlisted : p ∉ d.archetypeList)
    (a : Archetype) : (d.createArchetype p a).Sound := by
  have newMemory : Function.update d.memory p a p = a :=
    Function.update_self p a d.memory
  have oldMemory : ∀ q ∈ d.archetypeList,
      Function.update d.memory p a q = d.memory q := fun q member =>
    Function.update_of_ne
      (fun same => unlisted (by rw [← same]; exact member)) a d.memory
  constructor
  · change (d.archetypeList ++ [p]).Nodup
    rw [List.nodup_append_comm]
    exact List.nodup_cons.mpr ⟨unlisted, sound.listedOnce⟩
  · have before := sound.cached.congr fun q member =>
      congrArg Archetype.componentIds (oldMemory q member)
    have registered := QueryCache.registerNewArchetype_accurate before p
    rwa [newMemory] at registered

/-- Rows do not matter for an answer. -/
theorem Sound.changeRows
    (sound : d.Sound) (p : Ptr) {change : Archetype → Archetype}
    (keepsIds : ∀ a, (change a).componentIds = a.componentIds) :
    (d.changeRows p change).Sound := by
  refine ⟨sound.listedOnce, sound.cached.congr fun q _ => ?_⟩
  change (Function.update d.memory p (change (d.memory p)) q).componentIds = _
  rw [Function.update_apply]
  split
  · rename_i here
    rw [keepsIds, here]
  · rfl

/-- Freed archetypes leave every cached answer. -/
theorem Sound.compact (sound : d.Sound) : d.compact.Sound := by
  refine ⟨sound.listedOnce.filter _, ?_⟩
  have erased := QueryCache.eraseArchetypes_accurate sound.cached
    (d.archetypeList.filter d.isVacant)
  have sameList :
      (d.archetypeList.filter fun p => !d.isVacant p) =
        d.archetypeList.filter fun p =>
          decide (p ∉ d.archetypeList.filter d.isVacant) := by
    apply List.filter_congr
    intro p listed
    cases vacant : d.isVacant p <;> simp [listed, vacant]
  unfold Directory.compact
  rw [sameList]
  exact erased

/-- A match caches an exact answer. -/
theorem Sound.matchQuery (sound : d.Sound) (q : Query) :
    (d.matchQuery q).2.Sound :=
  ⟨sound.listedOnce, QueryCache.matchQuery_accurate sound.cached q⟩

/-- Every operation keeps the cache exact. -/
theorem Sound.apply (sound : d.Sound) (op : DirectoryOp) :
    (d.apply op).Sound := by
  cases op with
  | createArchetype p a =>
      by_cases listed : p ∈ d.archetypeList
      · rw [show d.apply (.createArchetype p a) = d from if_pos listed]
        exact sound
      · rw [show d.apply (.createArchetype p a) = d.createArchetype p a from
          if_neg listed]
        exact sound.createArchetype listed a
  | changeRows p change keepsIds => exact sound.changeRows p keepsIds
  | compact => exact sound.compact
  | matchQuery q => exact sound.matchQuery q

/-- So does every run. -/
theorem Sound.run (sound : d.Sound) (ops : List DirectoryOp) :
    (d.run ops).Sound := by
  induction ops generalizing d with
  | nil => exact sound
  | cons op ops inductionHypothesis => exact inductionHypothesis (sound.apply op)

/-- The directory of a new world is sound. -/
theorem initial_sound (memory : Ptr → Archetype) (p : Ptr) :
    (initial memory p).Sound := by
  have empty : Sound { memory := memory } :=
    ⟨List.nodup_nil, QueryCache.accurate_empty _ _⟩
  have unlisted : p ∉ ({ memory := memory } : Directory).archetypeList :=
    List.not_mem_nil
  have created := empty.createArchetype unlisted {}
  exact ⟨created.listedOnce, created.cached⟩

/-- A match gives what a scan gives, at every point of every run. -/
theorem run_matchQuery_eq_scan
    (memory : Ptr → Archetype) (p : Ptr) (ops : List DirectoryOp) (q : Query) :
    (((initial memory p).run ops).matchQuery q).1 =
        ((initial memory p).run ops).scan q ∧
      (((initial memory p).run ops).matchQuery q).1.Nodup := by
  have sound := (initial_sound memory p).run ops
  have exact' : (((initial memory p).run ops).matchQuery q).1 =
      ((initial memory p).run ops).scan q :=
    QueryCache.matchQuery_archetypes sound.cached q
  refine ⟨exact', ?_⟩
  rw [exact']
  exact sound.listedOnce.filter _

end Directory

/-! ## The directory of a store -/

namespace ArchetypeStore

/-- The directory of a store, whose addresses are positions in its heap. -/
def directory (s : ArchetypeStore) : Directory where
  memory := s.deref
  archetypeList := s.archetypeList
  emptyArchetype := s.emptyArchetype
  queryCache := s.queryCache

/-- A store allocates at the end of its heap. -/
theorem createArchetype_directory
    (registry : ComponentRegistry) (s : ArchetypeStore)
    (ids : List ComponentTypeId) :
    (s.createArchetype registry ids).1.directory =
      s.directory.createArchetype s.heap.length
        ((s.createArchetype registry ids).1.deref s.heap.length) := by
  have memory : (s.createArchetype registry ids).1.deref =
      Function.update s.deref s.heap.length
        ((s.createArchetype registry ids).1.deref s.heap.length) := by
    funext q
    rw [Function.update_apply]
    split
    · rename_i here
      rw [here]
    · rename_i elsewhere
      unfold deref createArchetype
      dsimp only
      rw [List.getElem?_append]
      split
      · rfl
      · rename_i beyond
        have outside : s.heap.length < q :=
          Nat.lt_of_le_of_ne (Nat.le_of_not_lt beyond) (Ne.symm elsewhere)
        rw [List.getElem?_eq_none (Nat.le_of_lt outside),
          List.getElem?_eq_none (Nat.sub_pos_of_lt outside)]
  unfold directory Directory.createArchetype
  rw [memory, Function.update_self]
  congr 1
  unfold deref createArchetype
  simp

/-- Changing an archetype of a store changes its rows in the directory. -/
theorem modify_directory
    {s : ArchetypeStore} {p : Ptr} (valid : p < s.heap.length)
    (f : Archetype → Archetype) :
    (s.modify p f).directory = s.directory.changeRows p f := by
  have memory : (s.modify p f).deref =
      Function.update s.deref p (f (s.deref p)) := by
    funext q
    rw [deref_modify f valid, Function.update_apply]
  unfold directory Directory.changeRows
  rw [memory]
  rfl

/-- A store is compacted as its directory is. -/
theorem compact_directory (s : ArchetypeStore) :
    s.compact.directory = s.directory.compact :=
  rfl

end ArchetypeStore
end VortarisECS
