import VortarisECS.Core.ChangeView
import VortarisECS.Gdscript.QueryBuilder

/-!
# The change log over whole runs

A run uses a world in every way there is.  Observers may use it as well: they
are called in the middle of an operation, which goes on when they are done, so a
run consists of whole operations and of parts of operations.
-/

namespace VortarisECS

namespace VECSQueryBuilder

variable (engine : Engine) (registry : ComponentRegistry)
  (b : VECSQueryBuilder) (w : World)

theorem trackChanged_tickLog (arches : List Ptr) :
    (b.trackChanged arches w).tickLog = w.tickLog := by
  refine List.foldlRecOn
    (motive := fun tracked : World => tracked.tickLog = w.tickLog) arches _ rfl
    fun tracked same p _ => ?_
  refine List.foldlRecOn
    (motive := fun tracked : World => tracked.tickLog = w.tickLog) b.changed _
    same fun tracked same t _ => ?_
  split
  · exact same
  · exact same

/-- A query logs nothing when it is prepared. -/
theorem prepare_tickLog : (b.prepare w).2.1.tickLog = w.tickLog := by
  unfold prepare
  dsimp only
  split
  · rfl
  · exact b.trackChanged_tickLog _ _

theorem advance_tickLog : (b.advance w).tickLog = w.tickLog := by
  unfold advance
  split <;> rfl

/-- A query logs nothing. -/
theorem execute_tickLog :
    (b.execute engine registry w).2.tickLog = w.tickLog :=
  (b.advance_tickLog _).trans (b.prepare_tickLog w)

theorem executeOne_tickLog :
    (b.executeOne engine registry w).2.tickLog = w.tickLog :=
  (b.advance_tickLog _).trans (b.prepare_tickLog w)

end VECSQueryBuilder

/-! ## Uses of a world -/

/-- A use of a world, or a part of one between two calls of observers. -/
inductive LogUse
  | operate (op : ModeOp)
  | moveEntity (e : Entity) (target : Ptr)
  | queueCommand (command : Command)
  | flushCommandBuffers
  | advanceChangeTick
  | reset
  | writeRaw (e : Entity) (t : ComponentTypeId) (bytes : List UInt8)
  | setEnabled (p : Ptr) (row : Nat) (on : Bool)
  | registerCustomCommand (id : UInt32)
  /-- The buffer is emptied before its commands are executed. -/
  | takeCommands
  | executeCommand (command : Command)
  /-- The window closes before its destructions and moves. -/
  | closeWindow
  | flushDestroy (e : Entity)
  | flushMove (e : Entity)
  | finishFlush
  | invalidateCache

namespace LogUse

/-- What a use does to the world. -/
def apply (registry : ComponentRegistry) (w : World) :
    LogUse → Traced Effect World
  | operate op => op.apply registry w
  | moveEntity e target => w.moveEntity registry e target
  | queueCommand command => .pure (w.queueCommand command)
  | flushCommandBuffers => w.flushCommandBuffers registry
  | advanceChangeTick => .pure w.advanceChangeTick
  | reset => .pure w.reset
  | writeRaw e t bytes => .pure (w.writeRaw e t bytes)
  | setEnabled p row on =>
      .pure (w.setStore (w.store.modify p (·.setEnabled row on)))
  | registerCustomCommand id =>
      .pure { w with customCommands := id :: w.customCommands }
  | takeCommands => .pure { w with commandBuffer := [] }
  | executeCommand command => w.executeCommand registry command
  | closeWindow => .pure { w with deferMoves := false }
  | flushDestroy e => w.flushDestroy e
  | flushMove e => World.flushMove registry w e
  | finishFlush => .pure w.clearPending.releaseInvalidation
  | invalidateCache => .pure w.invalidateCache

/-- How often a use ticks the clock: once for each of its writes. -/
def ticks (registry : ComponentRegistry) (w : World) : LogUse → Nat
  | advanceChangeTick => 1
  | use => writesOf (use.apply registry w)

/-- How often a use drops the whole log. -/
def drops (w : World) : LogUse → Nat
  | operate op => op.drops w
  | reset => 1
  | _ => 0

/-- The log gets by steps to each dispatch of a use and to its end. -/
theorem apply_logs (registry : ComponentRegistry) (w : World) (use : LogUse) :
    w.LogSteps (use.ticks registry w) (use.drops w)
        (use.apply registry w).state ∧
      ∀ effect ∈ (use.apply registry w).effects, ∀ seen,
        effect.seen? = some seen →
          w.LogSteps (use.ticks registry w) (use.drops w) seen := by
  have ofLogs : ∀ {done : Traced Effect World} {drops : Nat},
      Logs w done drops → w.LogSteps (writesOf done) drops done.state ∧
        ∀ effect ∈ done.effects, ∀ seen, effect.seen? = some seen →
          w.LogSteps (writesOf done) drops seen :=
    fun logs => ⟨logs.state, logs.seen⟩
  cases use with
  | operate op => exact ofLogs (op.apply_logs registry w)
  | moveEntity e target => exact ofLogs (w.moveEntity_logs registry e target)
  | queueCommand command => exact ofLogs (.pure rfl)
  | flushCommandBuffers => exact ofLogs (w.flushCommandBuffers_logs registry)
  | advanceChangeTick =>
      exact ⟨w.logSteps_bumpTick, fun _ member => absurd member
        List.not_mem_nil⟩
  | reset =>
      exact ⟨w.logSteps_reset, fun _ member => absurd member List.not_mem_nil⟩
  | writeRaw e t bytes => exact ofLogs (.pure (w.tickLog_writeRaw e t bytes))
  | setEnabled p row on => exact ofLogs (.pure rfl)
  | registerCustomCommand id => exact ofLogs (.pure rfl)
  | takeCommands => exact ofLogs (.pure rfl)
  | executeCommand command => exact ofLogs (w.executeCommand_logs registry command)
  | closeWindow => exact ofLogs (.pure rfl)
  | flushDestroy e => exact ofLogs (w.flushDestroy_logs e)
  | flushMove e => exact ofLogs (w.flushMove_logs registry e)
  | finishFlush => exact ofLogs (.pure (World.tickLog_releaseInvalidation _))
  | invalidateCache => exact ofLogs (.pure w.tickLog_invalidateCache)

end LogUse

/-- A world and the views of its changes, with the history of the run: how often
the clock was ticked at most, and how often the whole log was dropped. -/
structure ChangeRun where
  world : World
  views : List ChangeView := []
  ticks : Nat := 0
  drops : Nat := 0

namespace ChangeRun

/-- The run goes on in a world that a use leads to. -/
def follow (registry : ComponentRegistry) (run : ChangeRun) (use : LogUse)
    (w : World) : ChangeRun :=
  { run with
    world := w
    ticks := run.ticks + use.ticks registry run.world
    drops := run.drops + use.drops run.world }

/-- One step of a run. -/
inductive Next (engine : Engine) (registry : ComponentRegistry) :
    ChangeRun → ChangeRun → Prop
  | use (run : ChangeRun) (use : LogUse) :
      Next engine registry run
        (run.follow registry use (use.apply registry run.world).state)
  /-- The use is interrupted by an observer. -/
  | interrupted {use : LogUse} {effect : Effect} {seen : World}
      (run : ChangeRun)
      (happens : effect ∈ (use.apply registry run.world).effects)
      (sees : effect.seen? = some seen) :
      Next engine registry run (run.follow registry use seen)
  | query (run : ChangeRun) (b : VECSQueryBuilder) :
      Next engine registry run
        { run with world := (b.execute engine registry run.world).2 }
  | queryOne (run : ChangeRun) (b : VECSQueryBuilder) :
      Next engine registry run
        { run with world := (b.executeOne engine registry run.world).2 }
  | count (run : ChangeRun) (b : VECSQueryBuilder) :
      Next engine registry run
        { run with world := (b.count engine registry run.world).2 }
  | changes (run : ChangeRun) (ids : List ComponentTypeId) :
      Next engine registry run
        { run with views := run.views ++ [run.world.changes ids] }
  | take {i : Nat} {v : ChangeView} (run : ChangeRun)
      (isView : run.views[i]? = some v) :
      Next engine registry run { run with
        world := (v.take run.world).2.2
        views := run.views.set i (v.take run.world).2.1 }

/-- What a run leads to. -/
def Leads (engine : Engine) (registry : ComponentRegistry) :
    ChangeRun → ChangeRun → Prop :=
  Relation.ReflTransGen (Next engine registry)

variable {engine : Engine} {registry : ComponentRegistry}
  {run run' : ChangeRun}

/-- The log gets by steps from one run to a later one, as many as the history has
grown by. -/
def LogEvolves (run run' : ChangeRun) : Prop :=
  ∃ ticks drops, run'.ticks = run.ticks + ticks ∧
    run'.drops = run.drops + drops ∧
    run.world.LogSteps ticks drops run'.world

/-- Nothing is logged. -/
theorem LogEvolves.of_eq
    (ticks : run'.ticks = run.ticks) (drops : run'.drops = run.drops)
    (same : run'.world.tickLog = run.world.tickLog) : run.LogEvolves run' :=
  ⟨0, 0, ticks, drops, .of_eq same⟩

/-- The step lemma of the log. -/
theorem Next.logEvolves (next : Next engine registry run run') :
    run.LogEvolves run' := by
  cases next with
  | use _ use =>
      exact ⟨_, _, rfl, rfl, (use.apply_logs registry run.world).1⟩
  | @interrupted use _ _ _ happens sees =>
      exact ⟨_, _, rfl, rfl,
        (use.apply_logs registry run.world).2 _ happens _ sees⟩
  | query _ b =>
      exact .of_eq rfl rfl (b.execute_tickLog engine registry run.world)
  | queryOne _ b =>
      exact .of_eq rfl rfl (b.executeOne_tickLog engine registry run.world)
  | count _ b => exact .of_eq rfl rfl rfl
  | changes _ ids => exact .of_eq rfl rfl rfl
  | take _ isView =>
      exact .of_eq rfl rfl (ChangeView.take_tickLog _ run.world)

/-- The run lemma of the log. -/
theorem Leads.logEvolves (leads : Leads engine registry run run') :
    run.LogEvolves run' := by
  induction leads with
  | refl => exact .of_eq rfl rfl rfl
  | tail _ next inductionHypothesis =>
      obtain ⟨ticks, drops, ticksEq, dropsEq, steps⟩ := inductionHypothesis
      obtain ⟨ticks', drops', ticksEq', dropsEq', steps'⟩ := next.logEvolves
      exact ⟨ticks + ticks', drops + drops', by omega, by omega,
        steps.trans steps'⟩

end ChangeRun

/-! ## What the log is at any time -/

namespace World

/-- The log is in the order of its ticks, reaches up to the present at most, is
not too long, and is searched for a tick correctly. -/
structure LogSound (w : World) : Prop where
  ascending : w.changeLog.Pairwise fun entry later => entry.tick ≤ later.tick
  strict : w.changeTick < tickLimit →
    w.changeLog.Pairwise fun entry later => entry.tick < later.tick
  past : ∀ entry ∈ w.changeLog, entry.tick ≤ w.changeTick
  bounded : w.changeLog.length ≤ changeLogSoftCap
  lowerBound : ∀ tick, w.changeLogLowerBound tick =
    w.changeLog.countP fun entry => decide (entry.tick ≤ tick)

/-- The log got there step by step.  Entries were removed from its front at most,
and others were added with later ticks.  The generation has advanced by the number
of removing steps: each drop of the log, and no others but ticks. -/
def LogKept (ticks drops : Nat) (w w' : World) : Prop :=
  ∃ ticked removals removed added, ticked ≤ ticks ∧
    TickLog.Steps tickLimit changeLogSoftCap ChangeLogEntry.tick w.tickLog
      ticked drops removals w'.tickLog ∧
    w'.changeLog = w.changeLog.drop removed ++ added ∧
    (∀ entry ∈ added, w.changeTick ≤ entry.tick ∧
      (w.changeTick < tickLimit → w.changeTick < entry.tick)) ∧
    w'.changeLogGeneration = w.changeLogGeneration + UInt64.ofNat removals ∧
    (0 < removed → 0 < removals) ∧
    drops ≤ removals ∧ removals ≤ ticks + drops

variable {w w' : World} {ticks drops : Nat}

/-- Counted steps keep the log as they should. -/
theorem LogSteps.kept (steps : LogSteps ticks drops w w') :
    LogKept ticks drops w w' := by
  obtain ⟨ticked, within, removals, steps⟩ := steps
  obtain ⟨_, removed, added, entries, newer, counted⟩ :=
    TickLog.Evolves.steps steps
  obtain ⟨atLeast, atMost⟩ := steps.removals_bounds
  exact ⟨ticked, removals, removed, added, within, steps, entries, newer,
    steps.generation_eq, counted, atLeast, by omega⟩

/-- Entries that are gone have changed the generation, unless it has had the time
to wrap around. -/
theorem LogKept.generation_ne
    (kept : LogKept ticks drops w w') (few : ticks + drops < 2 ^ 64)
    (lost : ¬w.changeLog <+: w'.changeLog) :
    w'.changeLogGeneration ≠ w.changeLogGeneration := by
  obtain ⟨_, removals, removed, added, -, -, entries, -, generation, counted, -,
    atMost⟩ := kept
  intro same
  rw [generation, UInt64.add_eq_left] at same
  have none : removals = 0 := by
    have value := congrArg UInt64.toNat same
    have small : removals < UInt64.size := lt_of_le_of_lt atMost few
    rw [UInt64.toNat_ofNat_of_lt' small] at value
    exact value
  have kept : removed = 0 := by omega
  rw [entries, kept] at lost
  exact lost (List.prefix_append _ _)

/-- An ordered log is sound, and searched by halving. -/
theorem logSound_of_ordered
    (ordered : w.tickLog.Ordered tickLimit changeLogSoftCap
      ChangeLogEntry.tick) : w.LogSound where
  ascending := ordered.ascending
  strict := ordered.strict
  past := ordered.past
  bounded := ordered.short
  lowerBound := ordered.bisect_eq

/-- The log of a new world is ordered. -/
theorem empty_ordered (registry : ComponentRegistry) :
    (World.empty registry).tickLog.Ordered tickLimit changeLogSoftCap
      ChangeLogEntry.tick where
  ascending := List.Pairwise.nil
  strict _ := List.Pairwise.nil
  past _ member := absurd member List.not_mem_nil
  short := Nat.zero_le _

end World

namespace ChangeRun

/-- The log is sorted and bounded in every state that a run reaches.  From there on
it loses entries at its front only, and each time it does so its generation
advances; after fewer than 2^64 ticks and drops it is another one. -/
theorem changeLog_kept
    (engine : Engine) (registry : ComponentRegistry) (run : ChangeRun)
    (leads : Leads engine registry ⟨World.empty registry, [], 0, 0⟩ run) :
    run.world.LogSound ∧
      ∀ run', Leads engine registry run run' →
        ∃ ticks drops, run'.ticks = run.ticks + ticks ∧
          run'.drops = run.drops + drops ∧
          World.LogKept ticks drops run.world run'.world ∧
          (ticks + drops < 2 ^ 64 →
            ¬run.world.changeLog <+: run'.world.changeLog →
            run'.world.changeLogGeneration ≠ run.world.changeLogGeneration) := by
  obtain ⟨_, _, _, _, _, _, _, steps⟩ := leads.logEvolves
  have ordered := (World.empty_ordered registry).steps (by decide) steps
  refine ⟨World.logSound_of_ordered ordered, fun run' later => ?_⟩
  obtain ⟨ticks, drops, ticksEq, dropsEq, steps'⟩ := later.logEvolves
  exact ⟨ticks, drops, ticksEq, dropsEq, steps'.kept,
    steps'.kept.generation_ne⟩

/-! ## A full log -/

/-- The uses follow one after the other. -/
def steps (registry : ComponentRegistry) (run : ChangeRun) (uses : List LogUse) :
    ChangeRun :=
  uses.foldl (fun run use =>
    run.follow registry use (use.apply registry run.world).state) run

/-- Uses lead from run to run. -/
theorem leads_steps
    (engine : Engine) (registry : ComponentRegistry) (run : ChangeRun)
    (uses : List LogUse) :
    Leads engine registry run (run.steps registry uses) := by
  induction uses generalizing run with
  | nil => exact Relation.ReflTransGen.refl
  | cons use uses inductionHypothesis =>
      exact Relation.ReflTransGen.head (.use run use) (inductionHypothesis _)

/-- Mark a component changed. -/
def mark (e : Entity) (t : ComponentTypeId) : LogUse :=
  .operate (.operate (.markChanged e t ""))

/-- A component that can be marked still can when it is marked, which is
logged. -/
theorem mark_logs
    (registry : ComponentRegistry) {e : Entity} {t : ComponentTypeId} {w : World}
    (alive : w.isAlive e = true)
    (present : w.has e t = true) :
    let marked := ((mark e t).apply registry w).state
    marked.isAlive e = true ∧ marked.has e t = true ∧
      marked.tickLog = (w.tickLog.advance tickLimit).append changeLogSoftCap
        ⟨e, t, (w.tickLog.advance tickLimit).clock⟩ := by
  obtain ⟨loc, location⟩ := World.location_of_isAlive alive
  have holds : (w.store.deref loc.archetype).hasComponent t = true := by
    unfold World.has at present
    rw [location, Bool.and_eq_true] at present
    exact present.2
  have marked : ((mark e t).apply registry w).state = w.markRow e loc t := by
    change (w.markChanged e t "").state = _
    unfold World.markChanged
    rw [alive, Bool.not_true, if_neg Bool.false_ne_true, location]
    dsimp only
    rw [holds, Bool.not_true, if_neg Bool.false_ne_true]
  dsimp only
  rw [marked]
  refine ⟨?_, ?_, World.tickLog_markRow w e loc t⟩
  · rw [World.isAlive_congr (World.markRow_entityLocations w e loc t), alive]
  · unfold World.has at present ⊢
    rw [World.markRow_entityLocations]
    rw [location] at present ⊢
    unfold Archetype.hasComponent at present ⊢
    dsimp only at present ⊢
    rw [World.markRow_componentIds, present]

/-- With room the log grows with a mark. -/
theorem mark_grows
    (registry : ComponentRegistry) {e : Entity} {t : ComponentTypeId} {w : World}
    (alive : w.isAlive e = true)
    (present : w.has e t = true) (room : w.changeLog.length < changeLogSoftCap) :
    let marked := ((mark e t).apply registry w).state
    marked.changeLog.length = w.changeLog.length + 1 ∧
      marked.changeLogGeneration = w.changeLogGeneration := by
  have logged := (mark_logs registry alive present).2.2
  rw [TickLog.append_of_fits (r := w.tickLog) room] at logged
  refine ⟨?_, congrArg TickLog.generation logged⟩
  exact (congrArg (fun log => log.entries.length) logged).trans
    List.length_append

/-- A full log is halved by a mark. -/
theorem mark_compacts
    (registry : ComponentRegistry) {e : Entity} {t : ComponentTypeId} {w : World}
    (alive : w.isAlive e = true)
    (present : w.has e t = true) (full : changeLogSoftCap ≤ w.changeLog.length) :
    let marked := ((mark e t).apply registry w).state
    marked.changeLog.length =
        w.changeLog.length + 1 - (w.changeLog.length + 1) / 2 ∧
      marked.changeLogGeneration = w.changeLogGeneration + 1 := by
  have logged := (mark_logs registry alive present).2.2
  rw [TickLog.append_of_full (r := w.tickLog) full] at logged
  refine ⟨?_, congrArg TickLog.generation logged⟩
  refine (congrArg (fun log => log.entries.length) logged).trans ?_
  exact List.length_drop.trans (by rw [List.length_append]; rfl)

/-- As long as it has room the log grows with every mark. -/
theorem marks_grow
    (registry : ComponentRegistry) {e : Entity} {t : ComponentTypeId}
    (run : ChangeRun) (alive : run.world.isAlive e = true)
    (present : run.world.has e t = true) (n : Nat)
    (room : run.world.changeLog.length + n ≤ changeLogSoftCap) :
    let marked := (run.steps registry (List.replicate n (mark e t))).world
    marked.isAlive e = true ∧ marked.has e t = true ∧
      marked.changeLog.length = run.world.changeLog.length + n ∧
      marked.changeLogGeneration = run.world.changeLogGeneration := by
  induction n generalizing run with
  | zero => exact ⟨alive, present, rfl, rfl⟩
  | succ n inductionHypothesis =>
      obtain ⟨alive', present', _⟩ :=
        mark_logs registry alive present
      obtain ⟨length, generation⟩ := mark_grows registry alive
        present (by omega)
      let next := run.follow registry (mark e t)
        ((mark e t).apply registry run.world).state
      have nextLength : next.world.changeLog.length =
          run.world.changeLog.length + 1 := length
      obtain ⟨lastAlive, lastPresent, lastLength, same⟩ := inductionHypothesis
        next alive' present' (by omega)
      exact ⟨lastAlive, lastPresent, lastLength.trans (by omega),
        same.trans generation⟩

/-- One mark more than the log has room for compacts it. -/
theorem marks_compact
    (registry : ComponentRegistry) {e : Entity} {t : ComponentTypeId}
    (run : ChangeRun) {full : ChangeRun}
    (alive : run.world.isAlive e = true) (present : run.world.has e t = true)
    (empty : run.world.changeLog.length = 0)
    (isFull : run.steps registry (List.replicate changeLogSoftCap (mark e t)) =
      full) :
    let busy := full.follow registry (mark e t)
      ((mark e t).apply registry full.world).state
    busy.world.changeLog.length = 32769 ∧
      busy.world.changeLogGeneration = run.world.changeLogGeneration + 1 := by
  have grown := marks_grow registry run alive present changeLogSoftCap
    (by rw [empty, Nat.zero_add])
  dsimp only at grown
  rw [isFull, empty, Nat.zero_add] at grown
  obtain ⟨fullAlive, fullPresent, length, generation⟩ := grown
  obtain ⟨compacted, counted⟩ := mark_compacts registry
    fullAlive fullPresent length.ge
  rw [length] at compacted
  rw [generation] at counted
  exact ⟨compacted, counted⟩

/-- An entity with a component. -/
def quietRun : ChangeRun :=
  (ChangeRun.mk (World.empty .healthRegistry) [] 0 0).steps .healthRegistry
    [.operate (.operate .createEntity), .operate (.operate (.addRaw ⟨1⟩ 1 none))]

/-- The component was marked as often as the log has room. -/
def fullRun : ChangeRun :=
  quietRun.steps .healthRegistry (List.replicate changeLogSoftCap (mark ⟨1⟩ 1))

/-- The component was marked once more, which compacted the log. -/
def busyRun : ChangeRun :=
  fullRun.follow .healthRegistry (mark ⟨1⟩ 1)
    ((mark ⟨1⟩ 1).apply .healthRegistry fullRun.world).state

/-- The log of the busy run was compacted once, and is kept from there on. -/
theorem changeLog_kept_busyRun :
    (busyRun.world.changeLog.length = 32769 ∧
      busyRun.world.changeLogGeneration = 1) ∧
    busyRun.world.LogSound ∧
      ∀ run', Leads .singlePrecision .healthRegistry busyRun run' →
        ∃ ticks drops, run'.ticks = busyRun.ticks + ticks ∧
          run'.drops = busyRun.drops + drops ∧
          World.LogKept ticks drops busyRun.world run'.world ∧
          (ticks + drops < 2 ^ 64 →
            ¬busyRun.world.changeLog <+: run'.world.changeLog →
            run'.world.changeLogGeneration ≠
              busyRun.world.changeLogGeneration) := by
  refine ⟨?_, changeLog_kept .singlePrecision .healthRegistry busyRun
    (((leads_steps ..).trans (leads_steps ..)).tail (.use _ _))⟩
  exact marks_compact _ quietRun (by decide) (by decide) (by decide)
    (by rw [fullRun])

/-! ## The generation wraps around -/

/-- An empty world that was cleared often. -/
def cleared (registry : ComponentRegistry) (n : Nat) : World :=
  { World.empty registry with
    cacheVersion := UInt32.ofNat n
    changeLogGeneration := UInt64.ofNat n }

/-- A world that was cleared so often can be reached. -/
theorem leads_cleared (engine : Engine) (registry : ComponentRegistry)
    (n : Nat) :
    Leads engine registry ⟨World.empty registry, [], 0, 0⟩
      ⟨cleared registry n, [], 0, n⟩ := by
  induction n with
  | zero => exact Relation.ReflTransGen.refl
  | succ n inductionHypothesis =>
      have once : (cleared registry n).clear.state = cleared registry (n + 1) := by
        unfold cleared
        rw [UInt32.ofNat_add, UInt64.ofNat_add]
        rfl
      rw [← once]
      exact inductionHypothesis.tail (.use _ (.operate (.operate .clear)))

/-- Create an entity, and mark a component of it changed. -/
def logOnce : List LogUse :=
  [.operate (.operate .createEntity),
    .operate (.operate (.addRaw (Entity.ofSlot 0 0) 1 none)),
    mark (Entity.ofSlot 0 0) 1]

/-- The last generation, with an entry in the log. -/
def lastGeneration : ChangeRun :=
  (ChangeRun.mk (cleared .healthRegistry (2 ^ 64 - 1)) [] 0 (2 ^ 64 - 1)).steps
    .healthRegistry logOnce

/-- A run clears the world so often that the generation restarts from zero with
the entry that it drops. -/
theorem changeLog_generation_wraps :
    Leads .singlePrecision .healthRegistry
      ⟨World.empty .healthRegistry, [], 0, 0⟩ lastGeneration ∧
    lastGeneration.world.changeLog.length = 1 ∧
    (lastGeneration.world.clear.state).changeLog = [] ∧
    (lastGeneration.world.clear.state).changeLogGeneration <
      lastGeneration.world.changeLogGeneration :=
  ⟨(leads_cleared .singlePrecision .healthRegistry (2 ^ 64 - 1)).trans
      (leads_steps ..),
    by decide +kernel, by decide +kernel, by decide +kernel⟩

end ChangeRun
end VortarisECS
