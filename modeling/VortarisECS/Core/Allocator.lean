import VortarisECS.Core.Stable

/-!
# The entity allocator

Every live or pooled id owns its slot: the slot is not free and carries the
generation of the id.  Elementary steps keep this as long as ids from outside
only ever claim slots nobody owns, and then no creation hands out a live id.
-/

namespace VortarisECS

namespace EntitySlots

/-- The slots in use, as the allocator sees them: `owned` are the live and
pooled ids. -/
structure Sound (slots : EntitySlots) (live : Entity → Prop) : Prop where
  lengthBound : slots.slotGenerations.length < 2 ^ 32
  generationBound : ∀ slot, slots.generationOf slot < 2 ^ 32
  freeNodup : slots.freeSlots.Nodup
  freeBound : ∀ slot ∈ slots.freeSlots, slot < slots.slotGenerations.length
  ownedBound : ∀ e, live e ∨ e ∈ slots.poolSlots →
    e.slot < slots.slotGenerations.length
  ownedNotFree : ∀ e, live e ∨ e ∈ slots.poolSlots →
    e.slot ∉ slots.freeSlots
  ownedGeneration : ∀ e, live e ∨ e ∈ slots.poolSlots →
    slots.generationOf e.slot = e.generation
  poolNodup : slots.poolSlots.Nodup
  poolDead : ∀ e ∈ slots.poolSlots, ¬live e

variable {slots slots' : EntitySlots} {live : Entity → Prop} {e : Entity}

/-- New slots have generation zero, as slots that do not exist. -/
theorem generationOf_growTo (slots : EntitySlots) (count slot : Nat) :
    (slots.growTo count).generationOf slot = slots.generationOf slot := by
  unfold generationOf growTo
  dsimp only
  rw [List.getElem?_append]
  by_cases inRange : slot < slots.slotGenerations.length
  · rw [if_pos inRange]
  · rw [if_neg inRange, List.getElem?_replicate,
      List.getElem?_eq_none (Nat.le_of_not_lt inRange)]
    split <;> rfl

/-- There are at least as many slots as asked for. -/
theorem length_growTo (slots : EntitySlots) (count : Nat) :
    (slots.growTo count).slotGenerations.length =
      max slots.slotGenerations.length count := by
  unfold growTo
  rw [List.length_append, List.length_replicate]
  omega

/-- Setting a generation changes no other. -/
theorem generationOf_set
    {slot : Nat} (bounded : slot < slots.slotGenerations.length)
    (generation other : Nat) :
    generationOf
        { slots with
          slotGenerations := slots.slotGenerations.set slot generation } other =
      if other = slot then generation else slots.generationOf other := by
  unfold generationOf
  dsimp only
  rw [List.getElem?_set]
  by_cases same : other = slot
  · rw [if_pos same.symm, if_pos bounded, if_pos same]
    rfl
  · rw [if_neg (Ne.symm same), if_neg same]

/-- More slots keep the allocator sound. -/
theorem Sound.growTo (sound : slots.Sound live) {count : Nat}
    (bounded : count < 2 ^ 32) : (slots.growTo count).Sound live where
  lengthBound := by
    rw [length_growTo]
    exact Nat.max_lt.mpr ⟨sound.lengthBound, bounded⟩
  generationBound slot := by
    rw [generationOf_growTo]
    exact sound.generationBound slot
  freeNodup := sound.freeNodup
  freeBound slot member := by
    rw [length_growTo]
    exact lt_of_lt_of_le (sound.freeBound slot member) (Nat.le_max_left _ _)
  ownedBound e owned := by
    rw [length_growTo]
    exact lt_of_lt_of_le (sound.ownedBound e owned) (Nat.le_max_left _ _)
  ownedNotFree := sound.ownedNotFree
  ownedGeneration e owned := by
    rw [generationOf_growTo]
    exact sound.ownedGeneration e owned
  poolNodup := sound.poolNodup
  poolDead := sound.poolDead

/-- Soundness depends only on who is alive. -/
theorem Sound.congr (sound : slots.Sound live) {live' : Entity → Prop}
    (same : ∀ e, live' e ↔ live e) : slots.Sound live' := by
  have liveEq : live' = live := funext fun e => propext (same e)
  rw [liveEq]
  exact sound

/-- A sound allocator hands out the id of a slot nobody owns. -/
theorem Sound.allocates_cases
    (sound : slots.Sound live)
    (allocates : slots.allocEntityId = (slots', e)) :
    (e = Entity.null ∧ slots' = slots) ∨
    (∃ idx, idx + 1 < 2 ^ 32 ∧ e = Entity.ofSlot idx 0 ∧
      idx = slots.slotGenerations.length ∧
      slots' = { slots with slotGenerations := slots.slotGenerations ++ [0] }) ∨
    ∃ idx rest, idx + 1 < 2 ^ 32 ∧
      e = Entity.ofSlot idx (slots.generationOf idx) ∧
      slots.freeSlots = idx :: rest ∧
      slots' = { slots with freeSlots := rest } := by
  unfold allocEntityId at allocates
  split at allocates
  · split at allocates
    · rw [Prod.mk.injEq] at allocates
      exact Or.inl ⟨allocates.2.symm, allocates.1.symm⟩
    · rename_i notFull
      rw [Prod.mk.injEq] at allocates
      refine Or.inr (Or.inl ⟨_, ?_, ?_, rfl, allocates.1.symm⟩)
      · unfold maxSlots at notFull
        omega
      · rw [← allocates.2]
        unfold generationOf
        simp
  · rename_i idx rest freeEq
    rw [Prod.mk.injEq] at allocates
    have inFree : idx ∈ slots.freeSlots := by
      rw [freeEq]
      exact List.mem_cons_self
    have idxBound := sound.freeBound idx inFree
    have lengthBound := sound.lengthBound
    exact Or.inr (Or.inr ⟨idx, rest, by omega, allocates.2.symm, freeEq,
      allocates.1.symm⟩)

/-- An issued id is not alive. -/
theorem Sound.issued_dead
    (sound : slots.Sound live) (issues : slots.Issues e slots')
    (real : e ≠ Entity.null) : ¬live e := by
  intro alive
  obtain allocates | ⟨pooled, _⟩ := issues
  · obtain ⟨isNull, _⟩ | ⟨idx, bounded, eEq, isLength, _⟩ |
      ⟨idx, rest, bounded, eEq, freeEq, _⟩ := sound.allocates_cases allocates
    · exact real isNull
    · have slotEq : e.slot = idx := by
        rw [eEq, Entity.slot_ofSlot bounded (by decide)]
      have inRange := sound.ownedBound e (Or.inl alive)
      omega
    · have slotEq : e.slot = idx := by
        rw [eEq, Entity.slot_ofSlot bounded (sound.generationBound idx)]
      apply sound.ownedNotFree e (Or.inl alive)
      rw [slotEq, freeEq]
      exact List.mem_cons_self
  · apply sound.poolDead e _ alive
    rw [pooled]
    exact List.mem_cons_self

/-- The allocator after an id has been issued. -/
theorem Sound.issue
    (sound : slots.Sound live) (issues : slots.Issues e slots')
    (real : e ≠ Entity.null) :
    slots'.Sound fun x => x = e ∨ live x := by
  obtain allocates | ⟨pooled, slotsEq⟩ := issues
  · obtain ⟨isNull, _⟩ | ⟨idx, bounded, eEq, isLength, slotsEq⟩ |
      ⟨idx, rest, bounded, eEq, freeEq, slotsEq⟩ :=
        sound.allocates_cases allocates
    · exact absurd isNull real
    · -- a new slot at the end
      subst slotsEq
      have slotEq : e.slot = idx := by
        rw [eEq, Entity.slot_ofSlot bounded (by decide)]
      have generationEq : e.generation = 0 := by
        rw [eEq, Entity.generation_ofSlot bounded (by decide)]
      have lengthEq : (slots.slotGenerations ++ [0]).length =
          slots.slotGenerations.length + 1 := List.length_append
      have appended : ∀ slot,
          generationOf { slots with
            slotGenerations := slots.slotGenerations ++ [0] } slot =
            slots.generationOf slot := by
        intro slot
        have grown := generationOf_growTo slots
          (slots.slotGenerations.length + 1) slot
        have sameSlots : slots.growTo (slots.slotGenerations.length + 1) =
            { slots with slotGenerations := slots.slotGenerations ++ [0] } := by
          simp [EntitySlots.growTo]
        rwa [sameSlots] at grown
      have newGeneration : slots.generationOf idx = 0 := by
        unfold generationOf
        rw [List.getElem?_eq_none (by omega)]
        rfl
      refine ⟨?_, ?_, sound.freeNodup, ?_, ?_, ?_, ?_, sound.poolNodup, ?_⟩
      · rw [lengthEq]
        omega
      · intro slot
        rw [appended]
        exact sound.generationBound slot
      · intro slot member
        rw [lengthEq]
        exact Nat.lt_succ_of_lt (sound.freeBound slot member)
      · rintro x ((rfl | alive) | inPool)
        · rw [lengthEq]
          omega
        · rw [lengthEq]
          exact Nat.lt_succ_of_lt (sound.ownedBound x (Or.inl alive))
        · rw [lengthEq]
          exact Nat.lt_succ_of_lt (sound.ownedBound x (Or.inr inPool))
      · rintro x ((rfl | alive) | inPool)
        · intro member
          have inRange := sound.freeBound _ member
          omega
        · exact sound.ownedNotFree x (Or.inl alive)
        · exact sound.ownedNotFree x (Or.inr inPool)
      · rintro x ((rfl | alive) | inPool)
        · rw [appended, slotEq, newGeneration, generationEq]
        · rw [appended]
          exact sound.ownedGeneration x (Or.inl alive)
        · rw [appended]
          exact sound.ownedGeneration x (Or.inr inPool)
      · rintro x inPool (rfl | alive)
        · have inRange := sound.ownedBound x (Or.inr inPool)
          omega
        · exact sound.poolDead x inPool alive
    · -- a recycled slot
      subst slotsEq
      have generationBound := sound.generationBound idx
      have slotEq : e.slot = idx := by
        rw [eEq, Entity.slot_ofSlot bounded generationBound]
      have generationEq : e.generation = slots.generationOf idx := by
        rw [eEq, Entity.generation_ofSlot bounded generationBound]
      have freeNodup := sound.freeNodup
      rw [freeEq, List.nodup_cons] at freeNodup
      have inFree : idx ∈ slots.freeSlots := by
        rw [freeEq]
        exact List.mem_cons_self
      have restFree : ∀ slot ∈ rest, slot ∈ slots.freeSlots := by
        intro slot member
        rw [freeEq]
        exact List.mem_cons_of_mem idx member
      refine ⟨sound.lengthBound, sound.generationBound, freeNodup.2, ?_, ?_, ?_,
        ?_, sound.poolNodup, ?_⟩
      · exact fun slot member => sound.freeBound slot (restFree slot member)
      · rintro x ((rfl | alive) | inPool)
        · rw [slotEq]
          exact sound.freeBound idx inFree
        · exact sound.ownedBound x (Or.inl alive)
        · exact sound.ownedBound x (Or.inr inPool)
      · rintro x ((rfl | alive) | inPool)
        · rw [slotEq]
          exact freeNodup.1
        · exact fun member =>
            sound.ownedNotFree x (Or.inl alive) (restFree _ member)
        · exact fun member =>
            sound.ownedNotFree x (Or.inr inPool) (restFree _ member)
      · rintro x ((rfl | alive) | inPool)
        · rw [generationEq, slotEq]
          rfl
        · exact sound.ownedGeneration x (Or.inl alive)
        · exact sound.ownedGeneration x (Or.inr inPool)
      · rintro x inPool (rfl | alive)
        · have notFree := sound.ownedNotFree x (Or.inr inPool)
          rw [slotEq] at notFree
          exact notFree inFree
        · exact sound.poolDead x inPool alive
  · -- the back of the pool
    rw [slotsEq]
    have inPool : e ∈ slots.poolSlots := by
      rw [pooled]
      exact List.mem_cons_self
    have poolNodup := sound.poolNodup
    rw [pooled, List.nodup_cons] at poolNodup
    have restInPool : ∀ x ∈ slots'.poolSlots, x ∈ slots.poolSlots := by
      intro x member
      rw [pooled]
      exact List.mem_cons_of_mem e member
    have ownedBefore : ∀ x, (x = e ∨ live x) ∨ x ∈ slots'.poolSlots →
        live x ∨ x ∈ slots.poolSlots := by
      rintro x ((rfl | alive) | member)
      · exact Or.inr inPool
      · exact Or.inl alive
      · exact Or.inr (restInPool x member)
    refine ⟨sound.lengthBound, sound.generationBound, sound.freeNodup,
      sound.freeBound, fun x owned => sound.ownedBound x (ownedBefore x owned),
      fun x owned => sound.ownedNotFree x (ownedBefore x owned),
      fun x owned => sound.ownedGeneration x (ownedBefore x owned),
      poolNodup.2, ?_⟩
    rintro x member (rfl | alive)
    · exact poolNodup.1 member
    · exact sound.poolDead x (restInPool x member) alive

/-- The allocator after an id from outside has claimed a slot nobody owns. -/
theorem Sound.adopt
    (sound : slots.Sound live) (bounded : e.slot < maxPreassignedSlot)
    (notFree : e.slot ∉ slots.freeSlots)
    (notLive : ∀ x, live x → x.slot ≠ e.slot)
    (notPooled : ∀ x ∈ slots.poolSlots, x.slot ≠ e.slot) :
    (slots.adopt e).Sound fun x => x = e ∨ live x := by
  have slotLimit : e.slot + 1 < 2 ^ 32 := by
    unfold maxPreassignedSlot at bounded
    omega
  have grown := sound.growTo slotLimit
  have inRange : e.slot < (slots.growTo (e.slot + 1)).slotGenerations.length := by
    rw [length_growTo]
    omega
  have generationEq : ∀ slot, (slots.adopt e).generationOf slot =
      if slot = e.slot then e.generation else slots.generationOf slot := by
    intro slot
    unfold EntitySlots.adopt
    dsimp only
    rw [generationOf_set inRange, generationOf_growTo]
  have lengthEq : (slots.adopt e).slotGenerations.length =
      (slots.growTo (e.slot + 1)).slotGenerations.length := List.length_set
  refine ⟨?_, ?_, sound.freeNodup, ?_, ?_, ?_, ?_, sound.poolNodup, ?_⟩
  · rw [lengthEq]
    exact grown.lengthBound
  · intro slot
    rw [generationEq]
    split
    · exact e.generation_lt
    · exact sound.generationBound slot
  · rw [lengthEq]
    exact grown.freeBound
  · rw [lengthEq]
    rintro x ((rfl | alive) | inPool)
    · exact inRange
    · exact grown.ownedBound x (Or.inl alive)
    · exact grown.ownedBound x (Or.inr inPool)
  · rintro x ((rfl | alive) | inPool)
    · exact notFree
    · exact sound.ownedNotFree x (Or.inl alive)
    · exact sound.ownedNotFree x (Or.inr inPool)
  · rintro x ((rfl | alive) | inPool)
    · rw [generationEq, if_pos rfl]
    · rw [generationEq, if_neg (notLive x alive)]
      exact sound.ownedGeneration x (Or.inl alive)
    · rw [generationEq, if_neg (notPooled x inPool)]
      exact sound.ownedGeneration x (Or.inr inPool)
  · rintro x inPool (rfl | alive)
    · exact notPooled x inPool rfl
    · exact sound.poolDead x inPool alive

/-- Another owner of the same slot is the same id. -/
theorem Sound.owner_unique
    (sound : slots.Sound live) {x : Entity}
    (ownedE : live e ∨ e ∈ slots.poolSlots)
    (ownedX : live x ∨ x ∈ slots.poolSlots) (sameSlot : x.slot = e.slot) :
    x = e := by
  apply Entity.eq_of_slot_generation sameSlot
  rw [← sound.ownedGeneration x ownedX, ← sound.ownedGeneration e ownedE,
    sameSlot]

/-- The allocator after a live id has been taken back. -/
theorem Sound.release
    (sound : slots.Sound live) (alive : live e)
    (releases : slots.Releases e slots') :
    slots'.Sound fun x => x ≠ e ∧ live x := by
  have inRange := sound.ownedBound e (Or.inl alive)
  have notFree := sound.ownedNotFree e (Or.inl alive)
  have generationEq := sound.ownedGeneration e (Or.inl alive)
  have otherSlot : ∀ x, (x ≠ e ∧ live x) ∨ x ∈ slots.poolSlots →
      x.slot ≠ e.slot := by
    intro x owned sameSlot
    have ownedX : live x ∨ x ∈ slots.poolSlots := owned.imp And.right id
    have same := sound.owner_unique (Or.inl alive) ownedX sameSlot
    subst same
    obtain ⟨different, _⟩ | inPool := owned
    · exact different rfl
    · exact sound.poolDead x inPool alive
  have ownedBefore : ∀ x, (x ≠ e ∧ live x) ∨ x ∈ slots.poolSlots →
      live x ∨ x ∈ slots.poolSlots := fun x owned => owned.imp And.right id
  obtain rfl | rfl := releases
  · unfold freeEntityId
    rw [if_neg (by omega), if_neg (by rw [generationEq]; simp)]
    by_cases retired : e.generation = 2 ^ 32 - 1
    · rw [if_pos retired]
      have setEq := fun slot => generationOf_set inRange (2 ^ 32 - 1) slot
      refine ⟨?_, ?_, sound.freeNodup, ?_, ?_, ?_, ?_, sound.poolNodup, ?_⟩
      · rw [List.length_set]
        exact sound.lengthBound
      · intro slot
        rw [setEq]
        split
        · omega
        · exact sound.generationBound slot
      · intro slot member
        rw [List.length_set]
        exact sound.freeBound slot member
      · intro x owned
        rw [List.length_set]
        exact sound.ownedBound x (ownedBefore x owned)
      · exact fun x owned => sound.ownedNotFree x (ownedBefore x owned)
      · intro x owned
        rw [setEq, if_neg (otherSlot x owned)]
        exact sound.ownedGeneration x (ownedBefore x owned)
      · exact fun x inPool both => sound.poolDead x inPool both.2
    · rw [if_neg retired]
      have generationLimit := e.generation_lt
      have setEq := fun slot => generationOf_set inRange (e.generation + 1) slot
      refine ⟨?_, ?_, ?_, ?_, ?_, ?_, ?_, sound.poolNodup, ?_⟩
      · rw [List.length_set]
        exact sound.lengthBound
      · intro slot
        change generationOf { slots with
          slotGenerations := slots.slotGenerations.set e.slot
            (e.generation + 1) } slot < _
        rw [setEq]
        split
        · omega
        · exact sound.generationBound slot
      · exact List.nodup_cons.mpr ⟨notFree, sound.freeNodup⟩
      · intro slot member
        rw [List.length_set]
        rw [List.mem_cons] at member
        obtain isSlot | member := member
        · rw [isSlot]
          exact inRange
        · exact sound.freeBound slot member
      · intro x owned
        rw [List.length_set]
        exact sound.ownedBound x (ownedBefore x owned)
      · intro x owned member
        obtain same | member := List.mem_cons.mp member
        · exact otherSlot x owned same
        · exact sound.ownedNotFree x (ownedBefore x owned) member
      · intro x owned
        change generationOf { slots with
          slotGenerations := slots.slotGenerations.set e.slot
            (e.generation + 1) } x.slot = _
        rw [setEq, if_neg (otherSlot x owned)]
        exact sound.ownedGeneration x (ownedBefore x owned)
      · exact fun x inPool both => sound.poolDead x inPool both.2
  · have ownedPool : ∀ x, (x ≠ e ∧ live x) ∨ x ∈ e :: slots.poolSlots →
        live x ∨ x ∈ slots.poolSlots := by
      rintro x (both | member)
      · exact Or.inl both.2
      · obtain rfl | member := List.mem_cons.mp member
        · exact Or.inl alive
        · exact Or.inr member
    refine ⟨sound.lengthBound, sound.generationBound, sound.freeNodup,
      sound.freeBound, fun x owned => sound.ownedBound x (ownedPool x owned),
      fun x owned => sound.ownedNotFree x (ownedPool x owned),
      fun x owned => sound.ownedGeneration x (ownedPool x owned), ?_, ?_⟩
    · exact List.nodup_cons.mpr
        ⟨fun inPool => sound.poolDead e inPool alive, sound.poolNodup⟩
    · intro x member both
      obtain rfl | member := List.mem_cons.mp member
      · exact both.1 rfl
      · exact sound.poolDead x member both.2

end EntitySlots
end VortarisECS
