import VortarisECS.Serialization.Snapshot

/-!
# What walks do to a world

Whatever bytes a walk meets and wherever it stops, it only ever creates entities
under given ids, destroys entities, adds components and writes into components.
-/

namespace VortarisECS

/-- One world is built from another by operations that no walk goes beyond. -/
inductive Builds (registry : ComponentRegistry) :
    World → List Effect → World → Prop
  | refl (w : World) : Builds registry w [] w
  | create (w : World) (id : UInt64) :
      Builds registry w (w.createEntityPreassigned id).effects
        (w.createEntityPreassigned id).state
  | destroy (w : World) (e : Entity) :
      Builds registry w (w.destroyEntity e).effects (w.destroyEntity e).state
  | add (w : World) (e : Entity) (t : ComponentTypeId) :
      Builds registry w (w.addRaw registry e t none).effects
        (w.addRaw registry e t none).state
  | write {w : World} {e : Entity} {t : ComponentTypeId}
      {old bytes : List UInt8} (found : w.getRaw e t = some old)
      (sized : bytes.length = old.length) :
      Builds registry w [] (w.writeRaw e t bytes)
  | clear (w : World) : Builds registry w w.clear.effects w.clear.state
  | trans {w w' w'' : World} {first second : List Effect}
      (before : Builds registry w first w')
      (after : Builds registry w' second w'') :
      Builds registry w (first ++ second) w''

variable {registry : ComponentRegistry} {w w' : World} {effects : List Effect}

namespace Builds

/-- Building is a sequence of elementary steps. -/
theorem steps
    {invariant : World → Prop} {accept : Effect → Prop}
    (inductiveOn : InductiveOn registry invariant accept)
    (builds : Builds registry w effects w') (holds : invariant w)
    (accepted : ∀ effect ∈ effects, accept effect) :
    Steps registry w effects w' := by
  induction builds with
  | refl w => exact Steps.refl w
  | create w id =>
      exact World.createEntityPreassigned_realizes id w holds accepted
  | destroy w e => exact World.destroyEntity_realizes e w holds accepted
  | add w e t => exact World.addRaw_realizes inductiveOn e t none w holds accepted
  | @write w e t old bytes found sized =>
      have exact' : bytes.length = registry.sizeOf t := by
        rw [sized]
        exact World.getRaw_length (inductiveOn.consistent w holds) found
      exact World.writeRaw_realizes e t exact' w holds accepted
  | clear w => exact World.clear_realizes w holds accepted
  | trans before after firstIH secondIH =>
      have first := firstIH holds fun effect member =>
        accepted effect (List.mem_append_left _ member)
      exact first.trans (secondIH (first.keeps inductiveOn holds
        fun effect member => accepted effect (List.mem_append_left _ member))
        fun effect member => accepted effect (List.mem_append_right _ member))

/-- Building leaves an idle world idle. -/
theorem idle (builds : Builds registry w effects w') (before : w.Idle) :
    w'.Idle := by
  induction builds with
  | refl w => exact before
  | create w id =>
      exact (World.createEntityPreassigned_control w id).trans before
  | destroy w e => exact (World.destroyEntity_control w e).trans before
  | add w e t =>
      exact (World.addRaw_control before.immediate e t none).trans before
  | write _ _ => exact (World.writeRaw_control _ _ _ _).trans before
  | clear w => exact (World.clear_control w).trans before
  | trans _ _ firstIH secondIH => exact secondIH (firstIH before)

/-- Building hands out no ids. -/
theorem issuesDead (builds : Builds registry w effects w') :
    ∀ effect ∈ effects, effect.IssuesDead := by
  have creates : ∀ {w : World} {step : Traced Effect World},
      World.CreatesNothing step → ∀ effect ∈ step.effects, effect.IssuesDead :=
    fun nothing effect member => (nothing effect member).issuesDead
  induction builds with
  | refl w => exact fun _ member => absurd member List.not_mem_nil
  | create w id =>
      unfold World.createEntityPreassigned
      dsimp only
      split
      · exact fun _ member => absurd member List.not_mem_nil
      · split
        · exact fun _ member => absurd member List.not_mem_nil
        · split
          · exact fun _ member => absurd member List.not_mem_nil
          · intro effect member
            rw [List.mem_singleton.mp member]
            trivial
  | destroy w e => exact creates (w := w) (World.destroyEntity_createsNothing w e)
  | add w e t => exact creates (w := w) (World.addRaw_createsNothing w e t none)
  | write _ _ => exact fun _ member => absurd member List.not_mem_nil
  | clear w => exact creates (w := w) (World.clear_createsNothing w)
  | trans _ _ firstIH secondIH =>
      intro effect member
      obtain member | member := List.mem_append.mp member
      · exact firstIH effect member
      · exact secondIH effect member

end Builds

/-! ## Walks -/

/-- Whatever the act does, it builds. -/
def Act.Builds (registry : ComponentRegistry) (view : σ → World)
    (act : Act Effect σ) : Prop :=
  ∀ state buf, VortarisECS.Builds registry (view state)
    (act state buf).1.effects (view (act state buf).1.state)

theorem Act.Builds.times
    {view : σ → World} {act : Act Effect σ}
    (builds : act.Builds registry view) (count : Nat) :
    (act.times count).Builds registry view := by
  induction count with
  | zero => exact fun state buf => .refl (view state)
  | succ count inductionHypothesis =>
      intro state buf
      have first := builds state buf
      unfold Act.times
      generalize act state buf = result at first ⊢
      obtain ⟨step, cursor⟩ := result
      cases cursor with
      | none => exact first
      | some rest => exact first.trans (inductionHypothesis step.state rest)

namespace World

/-- Receiving one block builds the world. -/
theorem receiveBlock_builds (format : PayloadFormat) (e : Entity) :
    (receiveBlock registry format e).Builds registry id := by
  intro w buf
  unfold receiveBlock
  cases buf.readU32 with
  | none => exact .refl w
  | some read =>
      obtain ⟨t, rest⟩ := read
      dsimp only [id]
      cases registry.schemaOf (UInt32.ofNat t) with
      | none => exact .refl w
      | some schema =>
          dsimp only
          have added : Builds registry _ _ _ := .add w e (UInt32.ofNat t)
          cases found : (w.addRaw registry e (UInt32.ofNat t) none).state.getRaw
              e (UInt32.ofNat t) with
          | none => exact added
          | some dst =>
              have written := added.trans
                (.write found (format.read_length schema dst rest))
              rwa [List.append_nil] at written

/-- Receiving all blocks of an entity builds the world. -/
theorem receiveBlocks_builds (format : PayloadFormat) (e : Entity) :
    (receiveBlocks registry format e).Builds registry id := by
  intro w buf
  unfold receiveBlocks
  cases buf.readU16 with
  | none => exact .refl w
  | some read => exact (receiveBlock_builds format e).times read.1 w read.2

/-- Receiving a record builds the world. -/
theorem receiveRecord_builds (format : PayloadFormat) :
    (receiveRecord registry format).Builds registry id := by
  intro w buf
  unfold receiveRecord
  cases buf.readU64 with
  | none => exact .refl w
  | some read =>
      dsimp only [id]
      split
      · exact .create w _
      · exact (Builds.create w _).trans (receiveBlocks_builds format _ _ read.2)

/-- Loading builds the world. -/
theorem rebuildWorld_builds : (rebuildWorld registry).Builds registry id := by
  intro w buf
  unfold rebuildWorld
  cases buf.readU16 with
  | none => exact .refl w
  | some read =>
      dsimp only [id]
      split
      · exact .refl w
      · cases read.2.readU32 with
        | none => exact .refl w
        | some counted =>
            exact (receiveRecord_builds .whole).times counted.1 w counted.2

/-- Loading a snapshot, whatever its bytes. -/
theorem deserializeWorldSnapshot_builds (w : World) (data : List UInt8) :
    Builds registry w (deserializeWorldSnapshot registry w ⟨data, 0⟩).1.effects
      (deserializeWorldSnapshot registry w ⟨data, 0⟩).1.state := by
  unfold deserializeWorldSnapshot
  split
  · exact (Builds.clear w).trans (rebuildWorld_builds _ ⟨data, 0⟩)
  · exact .refl w

end World
end VortarisECS
