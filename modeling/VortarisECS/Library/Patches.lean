import VortarisECS.Library.Bytes

/-!
# Writing patches

Byte strings written at offsets, one after the other.  A later patch overwrites
an earlier one where they overlap; all of them are still there at the end
exactly when they agree on every byte they share.
-/

namespace VortarisECS

/-- Bytes to be written at an offset. -/
structure Patch where
  offset : Nat
  bytes : List UInt8
  deriving DecidableEq, Repr

namespace Patch

/-- The byte a patch wants at a place, if it covers it. -/
def at? (patch : Patch) (i : Nat) : Option UInt8 :=
  if patch.offset ≤ i then patch.bytes[i - patch.offset]? else none

/-- The patch covers the place. -/
def Covers (patch : Patch) (i : Nat) : Prop :=
  patch.offset ≤ i ∧ i < patch.offset + patch.bytes.length

instance (patch : Patch) (i : Nat) : Decidable (patch.Covers i) :=
  inferInstanceAs (Decidable (_ ∧ _))

/-- The two patches want the same bytes where both write. -/
def Agrees (patch other : Patch) : Prop :=
  ∀ i, patch.Covers i → other.Covers i → patch.at? i = other.at? i

theorem Agrees.symm {patch other : Patch} (agrees : patch.Agrees other) :
    other.Agrees patch :=
  fun i covers covers' => (agrees i covers' covers).symm

/-- The patch is there. -/
def WrittenIn (patch : Patch) (base : List UInt8) : Prop :=
  window base patch.offset patch.bytes.length = patch.bytes

/-- A patch is written in when each place it covers holds its byte. -/
theorem writtenIn_iff {patch : Patch} {base : List UInt8} :
    patch.WrittenIn base ↔ ∀ i, patch.Covers i → base[i]? = patch.at? i := by
  unfold WrittenIn
  constructor
  · intro written i covers
    have split : patch.offset + (i - patch.offset) = i :=
      Nat.add_sub_cancel' covers.1
    have atPlace : (window base patch.offset
        patch.bytes.length)[i - patch.offset]? = _ :=
      congrArg (·[i - patch.offset]?) written
    rw [getElem?_window, if_pos (by have := covers.2; omega), split] at atPlace
    rw [atPlace, at?, if_pos covers.1]
  · intro each
    apply List.ext_getElem?
    intro i
    rw [getElem?_window]
    split
    · rename_i inside
      rw [each _ ⟨Nat.le_add_right _ _, by omega⟩, at?,
        if_pos (Nat.le_add_right _ _), Nat.add_sub_cancel_left]
    · rename_i outside
      rw [List.getElem?_eq_none (Nat.le_of_not_lt outside)]

end Patch

/-- Write patches in order. -/
def writePatches (base : List UInt8) (patches : List Patch) : List UInt8 :=
  patches.foldl (fun base patch => overlay base patch.offset patch.bytes) base

/-- Every patch fits into `size` bytes, and any two agree. -/
structure Compatible (size : Nat) (patches : List Patch) : Prop where
  inside : ∀ patch ∈ patches, ∀ i, patch.Covers i → i < size
  agree : patches.Pairwise Patch.Agrees

variable {base : List UInt8} {patches : List Patch}

/-- Patching keeps the length. -/
@[simp] theorem length_writePatches
    (base : List UInt8) (patches : List Patch) :
    (writePatches base patches).length = base.length := by
  induction patches generalizing base with
  | nil => rfl
  | cons patch patches inductionHypothesis =>
      rw [writePatches, List.foldl_cons, ← writePatches, inductionHypothesis,
        length_overlay]

/-- Inside a patch its bytes are read, outside the old ones. -/
theorem getElem?_overlay_patch (base : List UInt8) (patch : Patch) (i : Nat) :
    (overlay base patch.offset patch.bytes)[i]? =
      if patch.Covers i ∧ i < base.length then patch.at? i else base[i]? := by
  rw [getElem?_overlay]
  by_cases covered : patch.Covers i ∧ i < base.length
  · rw [if_pos covered, if_pos ⟨covered.1.1, covered.1.2, covered.2⟩,
      Patch.at?, if_pos covered.1.1]
  · rw [if_neg covered, if_neg fun both => covered ⟨⟨both.1, both.2.1⟩, both.2.2⟩]

/-- What all patches on a place agree on is there in the end. -/
theorem getElem?_writePatches
    {i : Nat} {value : Option UInt8} (inside : i < base.length)
    (wanted : ∀ patch ∈ patches, patch.Covers i → patch.at? i = value)
    (written : base[i]? = value ∨ ∃ patch ∈ patches, patch.Covers i) :
    (writePatches base patches)[i]? = value := by
  induction patches generalizing base with
  | nil =>
      obtain before | ⟨patch, member, _⟩ := written
      · exact before
      · exact absurd member List.not_mem_nil
  | cons patch patches inductionHypothesis =>
      rw [writePatches, List.foldl_cons, ← writePatches]
      apply inductionHypothesis
      · rw [length_overlay]
        exact inside
      · exact fun later member =>
          wanted later (List.mem_cons_of_mem patch member)
      · rw [getElem?_overlay_patch]
        by_cases covers : patch.Covers i
        · rw [if_pos ⟨covers, inside⟩]
          exact Or.inl (wanted patch List.mem_cons_self covers)
        · rw [if_neg fun both => covers both.1]
          obtain before | ⟨later, member, coversLater⟩ := written
          · exact Or.inl before
          · obtain rfl | member := List.mem_cons.mp member
            · exact absurd coversLater covers
            · exact Or.inr ⟨later, member, coversLater⟩

/-- A place no patch covers keeps its byte. -/
theorem getElem?_writePatches_outside
    {i : Nat} (outside : ∀ patch ∈ patches, ¬patch.Covers i) :
    (writePatches base patches)[i]? = base[i]? := by
  by_cases inside : i < base.length
  · exact getElem?_writePatches inside
      (fun patch member covers => absurd covers (outside patch member))
      (Or.inl rfl)
  · rw [List.getElem?_eq_none (by rw [length_writePatches]; omega),
      List.getElem?_eq_none (by omega)]

/-- All patches are there in the end exactly when they are compatible. -/
theorem writePatches_writes_iff :
    (∀ patch ∈ patches, patch.WrittenIn (writePatches base patches)) ↔
      Compatible base.length patches := by
  simp only [Patch.writtenIn_iff]
  constructor
  · intro written
    constructor
    · intro patch member i covers
      have found := written patch member i covers
      have inPatch : i - patch.offset < patch.bytes.length := by
        have below := covers.2
        have above := covers.1
        omega
      rw [Patch.at?, if_pos covers.1, List.getElem?_eq_getElem inPatch]
        at found
      have inRange := (List.getElem?_eq_some_iff.mp found).1
      rwa [length_writePatches] at inRange
    · rw [List.pairwise_iff_forall_sublist]
      intro patch later sub i covers covers'
      have memberPatch := sub.subset List.mem_cons_self
      have memberLater :=
        sub.subset (List.mem_cons_of_mem _ List.mem_cons_self)
      rw [← written patch memberPatch i covers,
        ← written later memberLater i covers']
  · intro compatible patch member i covers
    apply getElem?_writePatches (compatible.inside patch member i covers)
    · intro other otherMember covers'
      have related := compatible.agree.forall_of_forall_of_flip
        (fun _ _ _ _ _ => rfl) (compatible.agree.imp Patch.Agrees.symm)
      exact related otherMember member i covers' covers
    · exact Or.inr ⟨patch, member, covers⟩

end VortarisECS
