import Mathlib.Data.List.AList
import Mathlib.Data.List.Sort

/-!
# Association lists as unordered maps

Case forms of the lookup laws, and the size of a map after an insertion or an
erasure.
-/

namespace AList

variable {α : Type u} {β : Type v} [DecidableEq α]

/-- Inserting changes one key. -/
theorem lookup_insert_if (key other : α) (value : β)
    (map : AList fun _ : α => β) :
    (map.insert key value).lookup other =
      if other = key then some value else map.lookup other := by
  by_cases same : other = key
  · subst other
    rw [if_pos rfl, lookup_insert]
  · rw [if_neg same, lookup_insert_ne same]

/-- Erasing takes one key out. -/
theorem lookup_erase_if (key other : α) (map : AList fun _ : α => β) :
    (map.erase key).lookup other =
      if other = key then none else map.lookup other := by
  by_cases same : other = key
  · subst other
    rw [if_pos rfl, lookup_erase]
  · rw [if_neg same, lookup_erase_ne same]

@[simp] theorem lookup_empty_none (key : α) :
    (∅ : AList fun _ : α => β).lookup key = none := rfl

/-- The keys are those with a value. -/
theorem mem_keys_iff_lookup_isSome
    {key : α} {map : AList fun _ : α => β} :
    key ∈ map.keys ↔ (map.lookup key).isSome := by
  rw [lookup_isSome, mem_keys]

/-- The number of bindings of a map. -/
def size (map : AList fun _ : α => β) : Nat := map.keys.length

/-- A fresh key makes the map one larger. -/
theorem size_insert_new
    {key : α} (value : β) {map : AList fun _ : α => β}
    (fresh : map.lookup key = none) :
    (map.insert key value).size = map.size + 1 := by
  have absent : key ∉ map.keys := by
    rw [mem_keys_iff_lookup_isSome, fresh]
    simp
  unfold size
  rw [keys_insert, List.length_cons, List.erase_of_not_mem absent]

/-! ## Iteration order -/

/-- The same map iterated in another order: keys that `order` lists come as it
lists them, the others behind. -/
def rearrange (map : AList fun _ : α => β) (order : List α) :
    AList fun _ : α => β where
  entries := map.entries.insertionSort fun x y =>
    order.idxOf x.1 ≤ order.idxOf y.1
  nodupKeys := (List.perm_nodupKeys (List.perm_insertionSort _ _)).mpr
    map.nodupKeys

/-- The order of the keys does not change what they lead to. -/
@[simp] theorem lookup_rearrange
    (map : AList fun _ : α => β) (order : List α) (key : α) :
    (map.rearrange order).lookup key = map.lookup key :=
  perm_lookup (List.perm_insertionSort _ _)

/-- Change every value of a map. -/
def mapValues {γ : Type w} (change : α → β → γ) (map : AList fun _ : α => β) :
    AList fun _ : α => γ where
  entries := map.entries.map fun kv => ⟨kv.1, change kv.1 kv.2⟩
  nodupKeys := by
    unfold List.NodupKeys List.keys
    rw [List.map_map]
    exact map.nodupKeys

theorem lookup_mapValues {γ : Type w} (change : α → β → γ)
    (map : AList fun _ : α => β) (key : α) :
    (map.mapValues change).lookup key = (map.lookup key).map (change key) := by
  obtain ⟨entries, nodupKeys⟩ := map
  show List.dlookup key
      (entries.map fun kv => (⟨kv.1, change kv.1 kv.2⟩ : Σ _ : α, γ)) =
    (List.dlookup key entries : Option β).map (change key)
  clear nodupKeys
  induction entries with
  | nil => rfl
  | cons entry entries inductionHypothesis =>
      obtain ⟨entryKey, entryValue⟩ := entry
      rw [List.map_cons]
      by_cases same : key = entryKey
      · subst same
        rw [List.dlookup_cons_eq, List.dlookup_cons_eq]
        rfl
      · rw [List.dlookup_cons_ne _ _ same, List.dlookup_cons_ne _ _ same,
          inductionHypothesis]

/-! ## Loops over the entries of a map -/

/-- A loop over one map that rewrites another at the keys whose value passes a
test. -/
theorem lookup_foldl_insert
    {γ : Type w} (test : γ → Bool) (rewrite : Option β → β)
    (guide : AList fun _ : α => γ) (map : AList fun _ : α => β) (key : α) :
    (guide.entries.foldl
      (fun map kv =>
        if test kv.2 then map.insert kv.1 (rewrite (map.lookup kv.1)) else map)
      map).lookup key =
      match guide.lookup key with
      | none => map.lookup key
      | some value =>
          if test value then some (rewrite (map.lookup key))
          else map.lookup key := by
  obtain ⟨entries, nodupKeys⟩ := guide
  change _ = match List.dlookup key entries with
    | none => map.lookup key
    | some value =>
        if test value then some (rewrite (map.lookup key)) else map.lookup key
  dsimp only
  induction entries generalizing map with
  | nil => rfl
  | cons entry entries inductionHypothesis =>
      obtain ⟨entryKey, entryValue⟩ := entry
      rw [List.nodupKeys_cons] at nodupKeys
      rw [List.foldl_cons, inductionHypothesis _ nodupKeys.2]
      by_cases same : key = entryKey
      · subst same
        have absent : List.dlookup key entries = none :=
          List.dlookup_eq_none.mpr nodupKeys.1
        rw [absent, List.dlookup_cons_eq]
        dsimp only
        by_cases passes : test entryValue = true
        · rw [if_pos passes, if_pos passes, lookup_insert]
        · rw [if_neg passes, if_neg passes]
      · rw [List.dlookup_cons_ne _ _ same]
        have unchanged :
            (if test entryValue = true then
              map.insert entryKey (rewrite (map.lookup entryKey))
            else map).lookup key = map.lookup key := by
          split
          · exact lookup_insert_ne same
          · rfl
        rw [unchanged]

/-- A loop over a map's own keys that rewrites every value. -/
theorem lookup_foldl_keys
    (rewrite : Option β → β) (map : AList fun _ : α => β) (key : α) :
    (map.keys.foldl
      (fun map key => map.insert key (rewrite (map.lookup key))) map).lookup
        key =
      (map.lookup key).map fun value => rewrite (some value) := by
  have general : ∀ (keys : List α) (state : AList fun _ : α => β),
      keys.Nodup →
      (keys.foldl
        (fun map key => map.insert key (rewrite (map.lookup key)))
          state).lookup key =
        if key ∈ keys then some (rewrite (state.lookup key))
        else state.lookup key := by
    intro keys
    induction keys with
    | nil => simp
    | cons head keys inductionHypothesis =>
        intro state nodup
        rw [List.nodup_cons] at nodup
        rw [List.foldl_cons, inductionHypothesis _ nodup.2,
          lookup_insert_if]
        by_cases same : key = head
        · subst same
          simp [nodup.1]
        · simp [same]
  rw [general map.keys map map.keys_nodup]
  by_cases member : key ∈ map.keys
  · rw [if_pos member]
    obtain ⟨value, found⟩ :=
      Option.isSome_iff_exists.mp (mem_keys_iff_lookup_isSome.mp member)
    rw [found]
    rfl
  · rw [if_neg member]
    have missing : map.lookup key = none := by
      rw [← Option.not_isSome_iff_eq_none]
      exact fun present => member (mem_keys_iff_lookup_isSome.mpr present)
    rw [missing]
    rfl

/-- A loop that erases keys one by one. -/
theorem lookup_foldl_erase
    {γ : Type w} (keyOf : γ → α) (items : List γ)
    (map : AList fun _ : α => β) (key : α) :
    (items.foldl (fun map item => map.erase (keyOf item)) map).lookup key =
      if ∃ item ∈ items, keyOf item = key then none else map.lookup key := by
  induction items generalizing map with
  | nil => simp
  | cons item items inductionHypothesis =>
      rw [List.foldl_cons, inductionHypothesis, lookup_erase_if]
      by_cases later : ∃ item ∈ items, keyOf item = key
      · obtain ⟨found, member, same⟩ := later
        rw [if_pos ⟨found, member, same⟩,
          if_pos ⟨found, List.mem_cons_of_mem item member, same⟩]
      · rw [if_neg later]
        by_cases same : key = keyOf item
        · rw [if_pos same, if_pos ⟨item, List.mem_cons_self, same.symm⟩]
        · rw [if_neg same, if_neg]
          rintro ⟨found, member, isKey⟩
          obtain rfl | member := List.mem_cons.mp member
          · exact same isKey.symm
          · exact later ⟨found, member, isKey⟩

end AList
