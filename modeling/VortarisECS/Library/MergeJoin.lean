import Mathlib.Data.List.Basic
import Mathlib.Order.Lattice

/-!
# Merge join of ascending lists

Two lists with ascending keys are walked together once; wherever a key occurs in
both, the target's value is combined with the source's.  The walk agrees with
looking every target key up in the source.
-/

variable {κ : Type u} {α : Type v} {β : Type w} [LinearOrder κ]

/-- Combine every target entry with the source entry of the same key, in one
pass over both lists. -/
def mergeJoin (combine : κ → α → β → β) :
    List (κ × α) → List (κ × β) → List β
  | _, [] => []
  | source, (key, value) :: rest =>
      match source.dropWhile fun entry => decide (entry.1 < key) with
      | [] => value :: mergeJoin combine [] rest
      | (sourceKey, sourceValue) :: later =>
          if sourceKey = key then
            combine key sourceValue value :: mergeJoin combine later rest
          else value :: mergeJoin combine ((sourceKey, sourceValue) :: later) rest

/-- The value of a key in an association list. -/
def lookupKey (entries : List (κ × α)) (key : κ) : Option α :=
  (entries.find? fun entry => decide (entry.1 = key)).map (·.2)

@[simp] theorem lookupKey_nil (key : κ) :
    lookupKey ([] : List (κ × α)) key = none := rfl

theorem lookupKey_cons (entry : κ × α) (entries : List (κ × α)) (key : κ) :
    lookupKey (entry :: entries) key =
      if entry.1 = key then some entry.2 else lookupKey entries key := by
  unfold lookupKey
  by_cases same : entry.1 = key
  · simp [same]
  · simp [same]

/-- A key in no entry leads to nothing. -/
theorem lookupKey_eq_none
    {entries : List (κ × α)} {key : κ}
    (absent : ∀ entry ∈ entries, entry.1 ≠ key) :
    lookupKey entries key = none := by
  induction entries with
  | nil => rfl
  | cons entry entries inductionHypothesis =>
      rw [lookupKey_cons, if_neg (absent entry List.mem_cons_self)]
      exact inductionHypothesis fun later member =>
        absent later (List.mem_cons_of_mem entry member)

/-- Entries below a key do not matter for it or anything above it. -/
theorem lookupKey_dropWhile
    (entries : List (κ × α)) {bound key : κ} (above : bound ≤ key) :
    lookupKey (entries.dropWhile fun entry => decide (entry.1 < bound)) key =
      lookupKey entries key := by
  induction entries with
  | nil => rfl
  | cons entry entries inductionHypothesis =>
      rw [List.dropWhile_cons]
      by_cases below : entry.1 < bound
      · rw [if_pos (decide_eq_true below), inductionHypothesis, lookupKey_cons,
          if_neg (ne_of_lt (lt_of_lt_of_le below above))]
      · rw [if_neg (by simpa using below)]

/-- Over ascending lists the walk meets every shared key. -/
theorem mergeJoin_eq_map
    (combine : κ → α → β → β)
    (source : List (κ × α)) (target : List (κ × β))
    (sourceAscending : source.Pairwise fun x y => x.1 < y.1)
    (targetAscending : target.Pairwise fun x y => x.1 < y.1) :
    mergeJoin combine source target =
      target.map fun entry =>
        match lookupKey source entry.1 with
        | some found => combine entry.1 found entry.2
        | none => entry.2 := by
  induction target generalizing source with
  | nil => rfl
  | cons head rest inductionHypothesis =>
      obtain ⟨key, value⟩ := head
      rw [List.pairwise_cons] at targetAscending
      obtain ⟨headLeast, restAscending⟩ := targetAscending
      -- Whatever keeps the lookups above `key` may stand for the source.
      have restEq : ∀ later : List (κ × α),
          later.Pairwise (fun x y => x.1 < y.1) →
          (∀ wanted, key < wanted →
            lookupKey later wanted = lookupKey source wanted) →
          mergeJoin combine later rest =
            rest.map fun entry =>
              match lookupKey source entry.1 with
              | some found => combine entry.1 found entry.2
              | none => entry.2 := by
        intro later laterAscending agrees
        rw [inductionHypothesis later laterAscending restAscending]
        apply List.map_congr_left
        intro entry member
        rw [agrees entry.1 (headLeast entry member)]
      have keptAscending :
          (source.dropWhile fun entry => decide (entry.1 < key)).Pairwise
            fun x y => x.1 < y.1 :=
        sourceAscending.sublist (List.dropWhile_sublist _)
      have keptLookup : ∀ wanted, key ≤ wanted →
          lookupKey (source.dropWhile fun entry => decide (entry.1 < key))
            wanted = lookupKey source wanted :=
        fun wanted above => lookupKey_dropWhile source above
      rw [List.map_cons]
      unfold mergeJoin
      cases keptEq : source.dropWhile (fun entry => decide (entry.1 < key)) with
      | nil =>
          rw [keptEq] at keptLookup
          have missing : lookupKey source key = none :=
            (keptLookup key le_rfl).symm
          dsimp only
          rw [missing, restEq [] List.Pairwise.nil fun wanted above =>
            keptLookup wanted (le_of_lt above)]
      | cons first later =>
          obtain ⟨sourceKey, sourceValue⟩ := first
          rw [keptEq] at keptLookup keptAscending
          dsimp only
          by_cases same : sourceKey = key
          · subst same
            have found : lookupKey source sourceKey = some sourceValue := by
              rw [← keptLookup sourceKey le_rfl, lookupKey_cons, if_pos rfl]
            rw [if_pos rfl, found]
            dsimp only
            rw [restEq later (List.pairwise_cons.mp keptAscending).2]
            intro wanted above
            rw [← keptLookup wanted (le_of_lt above), lookupKey_cons,
              if_neg (ne_of_lt above)]
          · have notBelow : ¬sourceKey < key := by
              have headKept := List.head?_dropWhile_not
                (fun entry : κ × α => decide (entry.1 < key)) source
              rw [keptEq] at headKept
              simpa using headKept
            have above : key < sourceKey :=
              lt_of_le_of_ne (not_lt.mp notBelow) (Ne.symm same)
            have missing : lookupKey source key = none := by
              rw [← keptLookup key le_rfl]
              apply lookupKey_eq_none
              intro entry member
              obtain rfl | member := List.mem_cons.mp member
              · exact same
              · have less :=
                  (List.pairwise_cons.mp keptAscending).1 entry member
                exact ne_of_gt (lt_trans above less)
            rw [if_neg same, missing]
            dsimp only
            rw [restEq _ keptAscending fun wanted aboveWanted =>
              keptLookup wanted (le_of_lt aboveWanted)]

/-- Looking a key up in two zipped lists. -/
theorem lookupKey_zip
    {keys : List κ} (ascending : keys.Pairwise (· < ·))
    (values : List α) (sameLength : values.length = keys.length)
    {key : κ} {position : Nat} (keyAt : keys[position]? = some key) :
    lookupKey (keys.zip values) key = values[position]? := by
  induction keys generalizing values position with
  | nil => exact absurd keyAt (by simp)
  | cons head keys inductionHypothesis =>
      rw [List.pairwise_cons] at ascending
      cases values with
      | nil => exact absurd sameLength (by simp)
      | cons value values =>
          rw [List.zip_cons_cons, lookupKey_cons]
          cases position with
          | zero =>
              rw [if_pos (by simpa using keyAt)]
              rfl
          | succ position =>
              rw [List.getElem?_cons_succ] at keyAt
              have less := ascending.1 key (List.mem_of_getElem? keyAt)
              rw [if_neg (ne_of_lt less), List.getElem?_cons_succ]
              exact inductionHypothesis ascending.2 values
                (by simpa using sameLength) keyAt

theorem lookupKey_zip_none
    (keys : List κ) (values : List α) {key : κ} (absent : key ∉ keys) :
    lookupKey (keys.zip values) key = none := by
  apply lookupKey_eq_none
  rintro ⟨entryKey, entryValue⟩ member rfl
  exact absent (List.of_mem_zip member).1

/-- Ascending keys stay ascending when values are put beside them. -/
theorem pairwise_zip
    {keys : List κ} (ascending : keys.Pairwise (· < ·)) (values : List α) :
    (keys.zip values).Pairwise fun x y => x.1 < y.1 := by
  induction keys generalizing values with
  | nil => simp
  | cons head keys inductionHypothesis =>
      rw [List.pairwise_cons] at ascending
      cases values with
      | nil => simp
      | cons value values =>
          rw [List.zip_cons_cons, List.pairwise_cons]
          refine ⟨?_, inductionHypothesis ascending.2 values⟩
          rintro ⟨entryKey, entryValue⟩ member
          exact ascending.1 entryKey (List.of_mem_zip member).1
