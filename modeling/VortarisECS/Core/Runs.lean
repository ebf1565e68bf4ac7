import VortarisECS.Core.Control
import VortarisECS.Core.Flush
import VortarisECS.Core.SoundWorld

/-!
# Runs of world operations

A run starts from an empty world and applies operations one after the other.
Hash tables may be rearranged at any point, so a run covers every iteration
order.
-/

namespace VortarisECS

/-- An operation of a world, with its arguments. -/
inductive WorldOp
  | createEntity
  | createEntityPreassigned (id : UInt64)
  | createEntityPooled
  | destroyEntity (e : Entity)
  | destroyEntityPooled (e : Entity)
  | setEntityRange (baseIndex : UInt32)
  | addRaw (e : Entity) (t : ComponentTypeId) (data : Option (List UInt8))
  | removeComponent (e : Entity) (t : ComponentTypeId)
  | markChanged (e : Entity) (t : ComponentTypeId) (field : String)
  | setField (e : Entity) (t : ComponentTypeId) (name : String)
      (value : List UInt8)
  | executeBuffer (ops : List Command)
  | compact
  | clear
  | rehash (order : List Entity)

namespace WorldOp

/-- Perform one operation. -/
def apply (registry : ComponentRegistry) (w : World) :
    WorldOp → Traced Effect World
  | createEntity => World.discardHandle w.createEntity
  | createEntityPreassigned id => w.createEntityPreassigned id
  | createEntityPooled => World.discardHandle w.createEntityPooled
  | destroyEntity e => w.destroyEntity e
  | destroyEntityPooled e => w.destroyEntityPooled e
  | setEntityRange baseIndex => .pure (w.setEntityRange baseIndex)
  | addRaw e t data => w.addRaw registry e t data
  | removeComponent e t => w.removeComponent registry e t
  | markChanged e t field => w.markChanged e t field
  | setField e t name value => w.setField registry e t name value
  | executeBuffer ops => w.executeBuffer registry ops
  | compact => .pure w.compact
  | clear => w.clear
  | rehash order => .pure (w.setStore (w.store.rehash order))

variable {registry : ComponentRegistry}

/-- Every operation takes steps of the world. -/
theorem apply_realizes
    {invariant : World → Prop} {accept : Effect → Prop}
    (inductiveOn : InductiveOn registry invariant accept) (op : WorldOp) :
    Realizes registry invariant accept fun w => op.apply registry w := by
  cases op with
  | createEntity => exact World.createEntity_realizes
  | createEntityPreassigned id =>
      exact World.createEntityPreassigned_realizes id
  | createEntityPooled => exact World.createEntityPooled_realizes inductiveOn
  | destroyEntity e => exact World.destroyEntity_realizes e
  | destroyEntityPooled e => exact World.destroyEntityPooled_realizes e
  | setEntityRange baseIndex => exact World.setEntityRange_realizes baseIndex
  | addRaw e t data => exact World.addRaw_realizes inductiveOn e t data
  | removeComponent e t => exact World.removeComponent_realizes inductiveOn e t
  | markChanged e t field => exact World.markChanged_realizes e t field
  | setField e t name value =>
      exact World.setField_realizes inductiveOn e t name value
  | executeBuffer ops => exact World.executeBuffer_realizes inductiveOn ops
  | compact => exact World.compact_realizes
  | clear => exact World.clear_realizes
  | rehash order => exact World.rehash_realizes order

/-- A run of operations from a fresh world. -/
def run (registry : ComponentRegistry) (ops : List WorldOp) :
    Traced Effect World :=
  Traced.forEach (apply registry) (World.empty registry) ops

/-- What holds of a fresh world and is kept by every elementary step holds after
every run. -/
theorem run_keeps
    {invariant : World → Prop} {accept : Effect → Prop}
    (inductiveOn : InductiveOn registry invariant accept)
    (start : invariant (World.empty registry)) {ops : List WorldOp}
    (accepted : Traced.Accepted accept (run registry ops)) :
    invariant (run registry ops).state :=
  (Realizes.forEach inductiveOn fun op _ =>
    apply_realizes inductiveOn op).keeps inductiveOn _ start accepted

/-! ## Idle and stable runs -/

/-- Every operation leaves an idle world idle. -/
theorem apply_idle {w : World} (idle : w.Idle) (op : WorldOp) :
    (op.apply registry w).state.Idle := by
  cases op with
  | createEntity => exact (World.createEntity_control w).trans idle
  | createEntityPreassigned id =>
      exact (World.createEntityPreassigned_control w id).trans idle
  | createEntityPooled => exact (World.createEntityPooled_control w).trans idle
  | destroyEntity e => exact (World.destroyEntity_control w e).trans idle
  | destroyEntityPooled e =>
      exact (World.destroyEntityPooled_control w e).trans idle
  | addRaw e t data =>
      exact (World.addRaw_control idle.immediate e t data).trans idle
  | removeComponent e t =>
      exact (World.removeComponent_control idle.immediate e t).trans idle
  | markChanged e t field =>
      exact (World.markChanged_control w e t field).trans idle
  | setField e t name value =>
      exact (World.setField_control w e t name value).trans idle
  | executeBuffer ops => exact World.executeBuffer_idle idle ops
  | clear => exact (World.clear_control w).trans idle
  | setEntityRange _ => exact idle
  | compact => exact idle
  | rehash _ => exact idle

/-- A run ends idle. -/
theorem run_idle (registry : ComponentRegistry) (ops : List WorldOp) :
    (run registry ops).state.Idle := by
  induction ops using List.reverseRec with
  | nil => exact show (World.empty registry).Idle from rfl
  | append_singleton ops op inductionHypothesis =>
      unfold run
      rw [Traced.forEach_append_state]
      exact apply_idle inductionHypothesis op

/-- A run in which no creation hands out a live id ends in a stable world. -/
theorem run_stable
    {ops : List WorldOp}
    (issuesDead : Traced.Accepted Effect.IssuesDead (run registry ops)) :
    (run registry ops).state.Stable registry :=
  run_keeps (World.stable_inductiveOn registry) (World.empty_stable registry)
    issuesDead

/-! ## Operations without ids from outside -/

/-- The operation brings no id from outside. -/
def PreassignsNothing : WorldOp → Prop
  | createEntityPreassigned _ => False
  | executeBuffer ops => ∀ e, Command.addEntity e ∉ ops
  | _ => True

end WorldOp

/-- An effect other than the creation of an entity. -/
def Effect.NotCreation : Effect → Prop
  | .issued .. => False
  | .adopted .. => False
  | _ => True

namespace Effect

/-- What creates nothing adopts nothing. -/
theorem NotCreation.adoptsFresh
    {effect : Effect} (notCreation : effect.NotCreation) :
    effect.AdoptsFresh := by
  cases effect <;> trivial

/-- What creates nothing hands out no live id. -/
theorem NotCreation.issuesDead
    {effect : Effect} (notCreation : effect.NotCreation) :
    effect.IssuesDead := by
  cases effect <;> trivial

theorem IsAnnouncement.notCreation
    {effect : Effect} (announcement : effect.IsAnnouncement) :
    effect.NotCreation := by
  cases effect <;> trivial

end Effect

namespace World

variable {registry : ComponentRegistry}

/-- A creation adopts no id. -/
theorem createEntity_adoptsFresh (w : World) :
    Traced.Accepted Effect.AdoptsFresh (discardHandle w.createEntity) := by
  unfold discardHandle createEntity
  dsimp only
  split
  · exact Traced.accepted_pure _ _
  · simp [Traced.Accepted, Effect.AdoptsFresh]

theorem createEntityPooled_adoptsFresh (w : World) :
    Traced.Accepted Effect.AdoptsFresh (discardHandle w.createEntityPooled) := by
  unfold discardHandle createEntityPooled
  split
  · simp [Traced.Accepted, Effect.AdoptsFresh]
  · exact createEntity_adoptsFresh w

/-- A step that creates no entity. -/
abbrev CreatesNothing (step : Traced Effect World) : Prop :=
  Traced.Accepted Effect.NotCreation step

/-- An entity that leaves creates nothing. -/
theorem leave_createsNothing
    (w : World) (e : Entity) (loc : EntityLocation) (slots : EntitySlots) :
    CreatesNothing (w.leave e loc slots) :=
  fun effect member => (removedEvents_announce effect member).notCreation

/-- A destruction creates nothing. -/
theorem destroyEntity_createsNothing (w : World) (e : Entity) :
    CreatesNothing (w.destroyEntity e) := by
  unfold destroyEntity
  split
  · exact Traced.accepted_pure _ _
  · split
    · exact Traced.accepted_pure _ _
    · exact leave_createsNothing _ _ _ _

theorem destroyEntityPooled_createsNothing (w : World) (e : Entity) :
    CreatesNothing (w.destroyEntityPooled e) := by
  unfold destroyEntityPooled
  split
  · exact Traced.accepted_pure _ _
  · split
    · exact Traced.accepted_pure _ _
    · exact leave_createsNothing _ _ _ _

/-- An addition creates nothing. -/
theorem addRaw_createsNothing (w : World) (e : Entity) (t : ComponentTypeId)
    (data : Option (List UInt8)) :
    CreatesNothing (w.addRaw registry e t data) := by
  unfold addRaw
  split
  · exact Traced.accepted_pure _ _
  · split
    · dsimp only
      split
      · exact Traced.accepted_pure _ _
      · split
        · simp [Traced.Accepted, Effect.NotCreation]
        · split
          · exact Traced.accepted_pure _ _
          · simp [Traced.Accepted, Effect.NotCreation]
    · exact Traced.accepted_pure _ _

theorem removeComponent_createsNothing
    (w : World) (e : Entity) (t : ComponentTypeId) :
    CreatesNothing (w.removeComponent registry e t) := by
  unfold removeComponent
  split
  · exact Traced.accepted_pure _ _
  · split
    · exact Traced.accepted_pure _ _
    · split
      · exact Traced.accepted_pure _ _
      · dsimp only
        split
        · exact Traced.accepted_pure _ _
        · split
          · exact Traced.accepted_pure _ _
          · simp [Traced.Accepted, Effect.NotCreation]

theorem markChanged_createsNothing
    (w : World) (e : Entity) (t : ComponentTypeId) (field : String) :
    CreatesNothing (w.markChanged e t field) := by
  unfold markChanged
  split
  · exact Traced.accepted_pure _ _
  · split
    · exact Traced.accepted_pure _ _
    · split
      · exact Traced.accepted_pure _ _
      · simp [Traced.Accepted, Effect.NotCreation]

theorem setField_createsNothing
    (w : World) (e : Entity) (t : ComponentTypeId) (name : String)
    (value : List UInt8) :
    CreatesNothing (w.setField registry e t name value) := by
  unfold setField
  split
  · exact markChanged_createsNothing _ e t name
  · exact Traced.accepted_pure _ _

/-- Items whose effects are all acceptable. -/
theorem forEach_accepted
    {accept : Effect → Prop} {step : World → α → Traced Effect World}
    {items : List α}
    (each : ∀ item ∈ items, ∀ w, Traced.Accepted accept (step w item))
    (w : World) : Traced.Accepted accept (Traced.forEach step w items) := by
  induction items generalizing w with
  | nil => exact Traced.accepted_pure _ _
  | cons item items inductionHypothesis =>
      rw [Traced.forEach_cons, Traced.accepted_andThen]
      exact ⟨each item List.mem_cons_self w,
        inductionHypothesis
          (fun later member => each later (List.mem_cons_of_mem item member)) _⟩

/-- A commit creates nothing. -/
theorem commitDeferredMove_createsNothing (w : World) (e : Entity) :
    CreatesNothing (w.commitDeferredMove registry e) := by
  have writes : ∀ loc last ts (v : World), CreatesNothing
      (Traced.forEach (commitWrite registry e loc last) v ts) := by
    intro loc last ts v
    apply forEach_accepted
    intro t _ u
    unfold commitWrite
    split
    · exact Traced.accepted_pure _ _
    · simp [Traced.Accepted, Effect.NotCreation]
  have events : ∀ original finalIds last (seen : World),
      ∀ effect ∈ commitEvents e original finalIds last seen,
        effect.NotCreation :=
    fun _ _ _ _ effect member =>
      (commitEvents_announce effect member).notCreation
  unfold commitDeferredMove
  split
  · dsimp only
    split
    · intro effect member
      obtain member | member := List.mem_append.mp member
      · obtain rfl | member := List.mem_cons.mp member
        · trivial
        · exact writes _ _ _ _ effect member
      · exact events _ _ _ _ effect member
    · intro effect member
      obtain member | member := List.mem_append.mp member
      · exact writes _ _ _ _ effect member
      · exact events _ _ _ _ effect member
  · exact Traced.accepted_pure _ _

theorem flushDestroy_createsNothing (w : World) (e : Entity) :
    CreatesNothing (w.flushDestroy e) := by
  unfold flushDestroy
  split
  · exact destroyEntity_createsNothing w e
  · exact Traced.accepted_pure _ _

theorem flushMove_createsNothing (w : World) (e : Entity) :
    CreatesNothing (w.flushMove registry e) := by
  unfold flushMove
  split
  · exact Traced.accepted_pure _ _
  · exact commitDeferredMove_createsNothing w e

/-- The end of a window creates nothing. -/
theorem endDeferredMoves_createsNothing (w : World) :
    CreatesNothing (w.endDeferredMoves registry) := by
  unfold endDeferredMoves
  split
  · exact Traced.accepted_pure _ _
  · rw [CreatesNothing, Traced.accepted_mapState, Traced.accepted_andThen]
    exact ⟨forEach_accepted (fun e _ v => flushDestroy_createsNothing v e) _,
      forEach_accepted (fun e _ v => flushMove_createsNothing v e) _⟩

/-- A clear creates nothing. -/
theorem clear_createsNothing (w : World) : CreatesNothing w.clear := by
  unfold clear
  split
  · exact Traced.accepted_pure _ _
  · simp [Traced.Accepted, Effect.NotCreation]

/-- A buffer without entity additions creates nothing. -/
theorem executeBuffer_createsNothing
    (w : World) {ops : List Command} (local' : ∀ e, Command.addEntity e ∉ ops) :
    CreatesNothing (w.executeBuffer registry ops) := by
  unfold executeBuffer
  split
  · exact Traced.accepted_pure _ _
  · split
    · exact Traced.accepted_pure _ _
    · rw [CreatesNothing, Traced.accepted_mapState, Traced.accepted_andThen]
      refine ⟨forEach_accepted ?_ _, endDeferredMoves_createsNothing _⟩
      intro command member v
      cases command with
      | addComponent e t data => exact addRaw_createsNothing v e t _
      | removeComponent e t => exact removeComponent_createsNothing v e t
      | addEntity e => exact absurd member (local' e)
      | removeEntity e =>
          dsimp only [executeCommand]
          unfold destroyEntityDeferred
          split
          · split <;> exact Traced.accepted_pure _ _
          · exact destroyEntity_createsNothing v e
      | custom id data =>
          dsimp only [executeCommand]
          unfold runCustomCommand
          split
          · simp [Traced.Accepted, Effect.NotCreation]
          · exact Traced.accepted_pure _ _

end World

namespace WorldOp

variable {registry : ComponentRegistry}

/-- An operation that brings no id from outside accepts none. -/
theorem apply_adoptsFresh
    {op : WorldOp} (preassignsNothing : op.PreassignsNothing) (w : World) :
    Traced.Accepted Effect.AdoptsFresh (op.apply registry w) := by
  have creates : World.CreatesNothing (op.apply registry w) →
      Traced.Accepted Effect.AdoptsFresh (op.apply registry w) :=
    fun accepted => accepted.imp fun _ notCreation => notCreation.adoptsFresh
  cases op with
  | createEntity => exact World.createEntity_adoptsFresh w
  | createEntityPreassigned id => exact preassignsNothing.elim
  | createEntityPooled => exact World.createEntityPooled_adoptsFresh w
  | destroyEntity e => exact creates (World.destroyEntity_createsNothing w e)
  | destroyEntityPooled e =>
      exact creates (World.destroyEntityPooled_createsNothing w e)
  | addRaw e t data => exact creates (World.addRaw_createsNothing w e t data)
  | removeComponent e t =>
      exact creates (World.removeComponent_createsNothing w e t)
  | markChanged e t field =>
      exact creates (World.markChanged_createsNothing w e t field)
  | setField e t name value =>
      exact creates (World.setField_createsNothing w e t name value)
  | executeBuffer ops =>
      exact creates (World.executeBuffer_createsNothing w preassignsNothing)
  | clear => exact creates (World.clear_createsNothing w)
  | _ => exact Traced.accepted_pure _ _

/-- Runs that bring no id from outside accept none. -/
theorem run_adoptsFresh
    {ops : List WorldOp}
    (preassignsNothing : ∀ op ∈ ops, op.PreassignsNothing) :
    Traced.Accepted Effect.AdoptsFresh (run registry ops) :=
  World.forEach_accepted
    (fun op member w => apply_adoptsFresh (preassignsNothing op member) w) _

/-- As long as ids from outside claim fresh slots, no creation of a run hands out
a live id. -/
theorem run_issuesDead
    {ops : List WorldOp}
    (adoptsFresh : Traced.Accepted Effect.AdoptsFresh (run registry ops)) :
    Traced.Accepted Effect.IssuesDead (run registry ops) := by
  have inductiveOn := World.sound_inductiveOn registry
  have steps := Realizes.forEach inductiveOn
    (fun op (_ : op ∈ ops) => apply_realizes inductiveOn op)
    (World.empty registry) (World.empty_sound registry) adoptsFresh
  exact World.Sound.steps_issueDead steps (World.empty_sound registry)
    adoptsFresh

/-- Every run without ids from outside ends in a sound world. -/
theorem run_sound
    {ops : List WorldOp}
    (preassignsNothing : ∀ op ∈ ops, op.PreassignsNothing) :
    (run registry ops).state.Sound registry :=
  run_keeps (World.sound_inductiveOn registry) (World.empty_sound registry)
    (run_adoptsFresh preassignsNothing)

end WorldOp
end VortarisECS
