import VortarisECS.Core.Stable

/-!
# Versions and writes

The version of a component in a tracked column is never older than its last
write, however the entity moved since between tracked and untracked columns: a
row that comes without a version is stamped with the present tick.
-/

namespace VortarisECS

namespace World

/-- The version of an entity's component, if its column is tracked. -/
def version (w : World) (e : Entity) (t : ComponentTypeId) : Option Nat :=
  (w.cell e t).bind Column.Cell.version

/-- No version is later than the clock. -/
def VersionsPast (w : World) : Prop :=
  ∀ e t v, w.version e t = some v → v ≤ w.changeTick

/-- An entity has a component then if it has it now, and of the same version,
unless its column comes to be tracked. -/
structure Keeps (w w' : World) (e : Entity) (t : ComponentTypeId) : Prop where
  present : (w'.cell e t).isSome = (w.cell e t).isSome
  version : w'.version e t = w.version e t ∨
    w.version e t = none ∧ w'.version e t = some w.changeTick

/-- What becomes of the versions while some effects happen.  As long as the clock
is not saturated, a written component has a version after the time when this
began, and no other gets an older version than it had.  An entity that is not
moved keeps its components until it dies, and they keep their versions until they
are written. -/
structure Ages (w : World) (effects : List Effect) (w' : World) : Prop where
  clock : w.changeTick ≤ w'.changeTick
  past : w.VersionsPast → w'.VersionsPast
  older : ∀ e t v, w'.version e t = some v →
    w.changeTick ≤ v ∨ ∃ u ≤ v, w.version e t = some u
  ticks : ∀ e t, .wrote e t ∈ effects → w'.changeTick < tickLimit →
    w.changeTick < w'.changeTick
  wrote : ∀ e t v, .wrote e t ∈ effects → w'.changeTick < tickLimit →
    w'.version e t = some v → w.changeTick < v
  held : ∀ e, .moved e ∉ effects → (∀ t, w'.cell e t = none) ∨
    ∀ t, (w'.cell e t).isSome = (w.cell e t).isSome ∧
      (.wrote e t ∉ effects →
        w'.version e t = w.version e t ∨ w.version e t = none)

variable {registry : ComponentRegistry} {w w' w'' : World}
variable {effects later : List Effect}

section Keeps

variable {e : Entity} {t : ComponentTypeId}

/-- A cell that stays is kept. -/
theorem Keeps.of_eq (same : w'.cell e t = w.cell e t) : w.Keeps w' e t := by
  refine ⟨congrArg _ same, Or.inl ?_⟩
  unfold World.version
  rw [same]

/-- The bytes are overwritten. -/
theorem Keeps.of_bytes {bytes : List UInt8}
    (rewritten : w'.cell e t =
      (w.cell e t).map fun c => { c with bytes := bytes }) :
    w.Keeps w' e t := by
  refine ⟨by rw [rewritten, Option.isSome_map], Or.inl ?_⟩
  unfold World.version
  rw [rewritten, Option.bind_map]
  rfl

/-- The column is tracked from now on. -/
theorem Keeps.of_tracked
    (tracked : w'.cell e t = (w.cell e t).map fun c =>
      { c with version := some (c.version.getD w.changeTick) }) :
    w.Keeps w' e t := by
  refine ⟨by rw [tracked, Option.isSome_map], ?_⟩
  unfold World.version
  rw [tracked]
  cases w.cell e t with
  | none => exact Or.inl rfl
  | some c =>
      change some (c.version.getD _) = c.version ∨
        c.version = none ∧ some (c.version.getD _) = _
      cases c.version with
      | none => exact Or.inr ⟨rfl, rfl⟩
      | some v => exact Or.inl rfl

/-- The version of a kept cell is old, or that of the move. -/
theorem Keeps.origin (keeps : w.Keeps w' e t) {v : Nat}
    (found : w'.version e t = some v) :
    v = w.changeTick ∨ w.version e t = some v := by
  obtain same | ⟨-, present⟩ := keeps.version
  · exact Or.inr (same ▸ found)
  · exact Or.inl (Option.some.inj (found.symm.trans present))

end Keeps

namespace Ages

/-- Nothing is written, and components get the present tick at most. -/
theorem quiet (unwritten : ∀ e t, Effect.wrote e t ∉ effects)
    (clock : w.changeTick ≤ w'.changeTick)
    (versions : ∀ e t v, w'.version e t = some v →
      v = w.changeTick ∨ w.version e t = some v)
    (keeps : ∀ e, .moved e ∉ effects →
      (∀ t, w'.cell e t = none) ∨ ∀ t, w.Keeps w' e t) :
    Ages w effects w' where
  clock := clock
  past past e t v found := by
    obtain rfl | same := versions e t v found
    · exact clock
    · exact (past e t v same).trans clock
  older e t v found := by
    obtain rfl | same := versions e t v found
    · exact Or.inl le_rfl
    · exact Or.inr ⟨v, le_rfl, same⟩
  ticks e t wrote := absurd wrote (unwritten e t)
  wrote e t _ wrote := absurd wrote (unwritten e t)
  held e unmoved := (keeps e unmoved).imp_right fun kept t =>
    ⟨(kept t).present, fun _ => (kept t).version.imp_right And.left⟩

/-- Nothing is written or moved. -/
theorem still (unwritten : ∀ e t, Effect.wrote e t ∉ effects)
    (clock : w.changeTick ≤ w'.changeTick)
    (keeps : ∀ e t, w.Keeps w' e t) : Ages w effects w' :=
  quiet unwritten clock (fun e t _ => (keeps e t).origin)
    fun e _ => Or.inr (keeps e)

/-- Where no cell changes nothing ages. -/
theorem unchanged (unwritten : ∀ e t, Effect.wrote e t ∉ effects)
    (clock : w.changeTick ≤ w'.changeTick)
    (cells : ∀ e t, w'.cell e t = w.cell e t) : Ages w effects w' :=
  still unwritten clock fun e t => .of_eq (cells e t)

/-- No time passes. -/
theorem refl (w : World) : Ages w [] w :=
  unchanged (fun _ _ => List.not_mem_nil) le_rfl fun _ _ => rfl

/-- Time passes twice. -/
theorem trans (first : Ages w effects w') (second : Ages w' later w'') :
    Ages w (effects ++ later) w'' where
  clock := first.clock.trans second.clock
  past := second.past ∘ first.past
  older e t v found := by
    obtain recent | ⟨u, bound, kept⟩ := second.older e t v found
    · exact Or.inl (first.clock.trans recent)
    · obtain recent | ⟨u', bound', kept'⟩ := first.older e t u kept
      · exact Or.inl (recent.trans bound)
      · exact Or.inr ⟨u', bound'.trans bound, kept'⟩
  ticks e t wrote unsaturated := by
    obtain before | after := List.mem_append.mp wrote
    · exact (first.ticks e t before
        (second.clock.trans_lt unsaturated)).trans_le second.clock
    · exact first.clock.trans_lt (second.ticks e t after unsaturated)
  wrote e t v wrote unsaturated found := by
    obtain before | after := List.mem_append.mp wrote
    · have unsaturated' := second.clock.trans_lt unsaturated
      obtain recent | ⟨u, bound, kept⟩ := second.older e t v found
      · exact (first.ticks e t before unsaturated').trans_le recent
      · exact (first.wrote e t u before unsaturated' kept).trans_le bound
    · exact first.clock.trans_lt (second.wrote e t v after unsaturated found)
  held e unmoved := by
    rw [List.mem_append, not_or] at unmoved
    obtain gone | kept' := second.held e unmoved.2
    · exact Or.inl gone
    obtain gone | kept := first.held e unmoved.1
    · refine Or.inl fun t => Option.not_isSome_iff_eq_none.mp ?_
      rw [(kept' t).1, gone]
      exact Bool.false_ne_true
    · refine Or.inr fun t => ⟨(kept' t).1.trans (kept t).1, fun unwritten => ?_⟩
      rw [List.mem_append, not_or] at unwritten
      obtain same | untracked := (kept t).2 unwritten.1
      · rw [← same]
        exact (kept' t).2 unwritten.2
      · exact Or.inr untracked

/-- One component is written at the next tick, and the others are kept. -/
theorem write {e : Entity} {t : ComponentTypeId}
    (clock : w'.changeTick = w.bumpTick.changeTick)
    (written : ∀ v, w'.version e t = some v → v = w.bumpTick.changeTick)
    (present : (w'.cell e t).isSome = (w.cell e t).isSome)
    (keeps : ∀ x u, ¬(x = e ∧ u = t) → w.Keeps w' x u) :
    Ages w [.wrote e t] w' := by
  have bumped : w.changeTick ≤ w.bumpTick.changeTick := by
    unfold bumpTick
    dsimp only
    split
    · exact Nat.le_succ _
    · exact le_rfl
  have ticked : w.bumpTick.changeTick < tickLimit →
      w.changeTick < w.bumpTick.changeTick := by
    unfold bumpTick
    dsimp only
    split
    · exact fun _ => Nat.lt_succ_self _
    · exact fun unsaturated => absurd unsaturated ‹_›
  have isWritten : ∀ x u, Effect.wrote x u ∈ [Effect.wrote e t] →
      x = e ∧ u = t := by
    intro x u wrote
    cases List.mem_singleton.mp wrote
    exact ⟨rfl, rfl⟩
  refine ⟨clock ▸ bumped, fun past x u v found => ?_, fun x u v found => ?_,
    fun _ _ _ unsaturated => clock ▸ ticked (clock ▸ unsaturated),
    fun x u v wrote unsaturated found => ?_,
    fun x _ => Or.inr fun u => ?_⟩
  · rw [clock]
    by_cases here : x = e ∧ u = t
    · obtain ⟨rfl, rfl⟩ := here
      exact (written v found).le
    · obtain rfl | same := (keeps x u here).origin found
      · exact bumped
      · exact (past x u v same).trans bumped
  · by_cases here : x = e ∧ u = t
    · obtain ⟨rfl, rfl⟩ := here
      exact Or.inl (bumped.trans_eq (written v found).symm)
    · obtain rfl | same := (keeps x u here).origin found
      · exact Or.inl le_rfl
      · exact Or.inr ⟨v, le_rfl, same⟩
  · obtain ⟨rfl, rfl⟩ := isWritten x u wrote
    rw [written v found]
    exact ticked (clock ▸ unsaturated)
  · by_cases here : x = e ∧ u = t
    · obtain ⟨rfl, rfl⟩ := here
      exact ⟨present, fun unwritten =>
        absurd (List.mem_singleton_self _) unwritten⟩
    · exact ⟨(keeps x u here).present, fun _ =>
        (keeps x u here).version.imp_right And.left⟩

end Ages

/-! ## Elementary steps -/

/-- An entity that enters has no cells. -/
theorem enterEmpty_cell
    (consistent : w.store.Consistent registry) {e : Entity}
    (dead : w.store.entityLocations.lookup e = none) (x : Entity)
    (t : ComponentTypeId) :
    (w.enterEmpty e).cell x t = if x = e then none else w.cell x t := by
  have attached := ArchetypeStore.addTo_attached consistent
    consistent.emptyListed dead w.changeTick
  split
  · rename_i isSelf
    subst isSelf
    refine (attached.cell_self t).trans ?_
    rw [Archetype.cell_of_not_mem]
    rw [attached.ids_eq, consistent.emptyIds]
    exact List.not_mem_nil
  · exact attached.cell_of_ne consistent ‹_› t

/-- An entity that leaves has no cells any more. -/
theorem detach_cell
    (consistent : w.store.Consistent registry) {e : Entity}
    {loc : EntityLocation}
    (location : w.store.entityLocations.lookup e = some loc) (x : Entity)
    (t : ComponentTypeId) :
    (w.store.detach e loc).cell x t = if x = e then none else w.cell x t := by
  split
  · rename_i isSelf
    unfold ArchetypeStore.cell
    rw [ArchetypeStore.detach_lookup consistent location, if_pos isSelf]
    rfl
  · exact ArchetypeStore.detach_cell consistent location ‹_› t

/-- An entity that has no cells afterwards has no versions. -/
theorem Ages.lose {e : Entity}
    (unwritten : ∀ e t, Effect.wrote e t ∉ effects)
    (clock : w.changeTick ≤ w'.changeTick)
    (cells : ∀ x t, w'.cell x t = if x = e then none else w.cell x t) :
    Ages w effects w' := by
  have kept : ∀ x t, x ≠ e → w.Keeps w' x t := fun x t other =>
    .of_eq ((cells x t).trans (if_neg other))
  have gone : ∀ t, w'.cell e t = none := fun t => (cells e t).trans (if_pos rfl)
  refine .quiet unwritten clock (fun x t v found => ?_) fun x _ => ?_
  · by_cases isSelf : x = e
    · rw [isSelf, version, gone] at found
      cases found
    · exact (kept x t isSelf).origin found
  · by_cases isSelf : x = e
    · exact Or.inl (isSelf ▸ gone)
    · exact Or.inr fun t => kept x t isSelf

/-- A moved component keeps its version or gets the present tick. -/
theorem relocate_version
    (consistent : w.store.Consistent registry) {e : Entity}
    {loc : EntityLocation} {target : Ptr}
    (location : w.store.entityLocations.lookup e = some loc)
    (listed : target ∈ w.store.archetypeList)
    (moves : loc.archetype ≠ target) (x : Entity) (t : ComponentTypeId)
    (v : Nat)
    (found : (w.setStore (w.store.relocate registry e loc target
      w.changeTick).1).version x t = some v) :
    v = w.changeTick ∨ w.version x t = some v := by
  change ((w.store.relocate registry e loc target w.changeTick).1.cell x t).bind
    Column.Cell.version = some v at found
  by_cases isSelf : x = e
  · subst isSelf
    rw [ArchetypeStore.relocate_cell_self consistent location listed moves]
      at found
    split at found
    · rw [Option.bind_some] at found
      dsimp only at found
      split at found
      · change some ((w.version x t).getD w.changeTick) = some v at found
        cases kept : w.version x t with
        | none =>
            rw [kept] at found
            exact Or.inl (Option.some.inj found).symm
        | some u =>
            rw [kept] at found
            exact Or.inr found
      · exact absurd found (by simp)
    · exact absurd found (by simp)
  · rw [ArchetypeStore.relocate_cell_of_ne consistent location listed moves
      w.changeTick isSelf] at found
    exact Or.inr found

/-- A write ages the world by its tick. -/
theorem writeComponent_ages
    (consistent : w.store.Consistent registry) {e : Entity}
    {loc : EntityLocation} {t : ComponentTypeId}
    (location : w.store.entityLocations.lookup e = some loc)
    (present : t ∈ (w.store.deref loc.archetype).componentIds)
    {bytes : List UInt8} (sized : bytes.length = registry.sizeOf t) :
    Ages w [.wrote e t] (w.writeComponent e loc t bytes) := by
  have cells := writeComponent_cell consistent location present sized
  refine .write (writeComponent_frame w e loc t bytes).2.1
    (fun v found => ?_) ?_ fun x u other => .of_eq ((cells x u).trans (if_neg other))
  · unfold version at found
    rw [cells, if_pos ⟨rfl, rfl⟩, Option.bind_map] at found
    obtain ⟨c, -, stamped⟩ := Option.bind_eq_some_iff.mp found
    obtain ⟨_, -, same⟩ := Option.map_eq_some_iff.mp stamped
    exact same.symm
  · rw [cells, if_pos ⟨rfl, rfl⟩, Option.isSome_map]

/-- So does a mark. -/
theorem markRow_ages
    (consistent : w.store.Consistent registry) {e : Entity}
    {loc : EntityLocation} {t : ComponentTypeId}
    (location : w.store.entityLocations.lookup e = some loc)
    (present : t ∈ (w.store.deref loc.archetype).componentIds) :
    Ages w [.wrote e t] (w.markRow e loc t) := by
  have cells := markRow_cell consistent location present
  refine .write (markRow_frame w e loc t).2.1
    (fun v found => ?_) ?_ fun x u other => ?_
  · unfold version at found
    rw [cells, if_pos ⟨rfl, rfl⟩, Option.bind_map] at found
    obtain ⟨c, -, stamped⟩ := Option.bind_eq_some_iff.mp found
    exact (Option.some.inj stamped).symm
  · rw [cells, if_pos ⟨rfl, rfl⟩, Option.isSome_map]
  · have here := (cells x u).trans (if_neg other)
    obtain same | ⟨-, tracked⟩ := ensureVersions_cell consistent location
      present w.changeTick x u
    · exact .of_eq (here.trans same)
    · exact .of_tracked (here.trans tracked)

/-- The step lemma. -/
theorem Step.ages (stable : w.Stable registry)
    (step : Step registry w effects w')
    (accepted : ∀ effect ∈ effects, effect.IssuesDead) :
    Ages w effects w' := by
  have consistent := stable.consistent
  cases step with
  | quiet agrees announces =>
      refine .unchanged (fun e t wrote => announces _ wrote)
        agrees.changeTick_eq.ge fun e t => ?_
      unfold World.cell
      rw [agrees.store_eq]
  | grow count => exact .unchanged (by simp) le_rfl fun _ _ => rfl
  | exhaust allocates => exact .unchanged (by simp) le_rfl fun _ _ => rfl
  | issue issues real =>
      have dead := accepted _ (List.mem_singleton_self _)
      exact .lose (by simp) le_rfl (enterEmpty_cell (w := w.setSlots _)
        consistent (lookup_eq_none_of_dead real dead))
  | adopt bounded dead =>
      exact .lose (by simp) le_rfl (enterEmpty_cell (w := w.setSlots _)
        consistent (Option.not_isSome_iff_eq_none.mp
          (Bool.eq_false_iff.mp dead)))
  | leave location releases =>
      exact .lose (by simp) le_rfl (detach_cell consistent location)
  | ensure ascending registered =>
      have ensured := (ArchetypeStore.ensureArchetype_spec consistent ascending
        registered).2.1
      exact .unchanged (by simp) le_rfl (ensured.cell consistent)
  | @relocate e loc target location listed moves =>
      refine .quiet (by simp) le_rfl
        (relocate_version consistent location listed moves)
        fun x unmoved => Or.inr fun t => .of_eq ?_
      have other : x ≠ e := by
        rintro rfl
        exact unmoved (List.mem_singleton_self _)
      exact ArchetypeStore.relocate_cell_of_ne consistent location listed moves
        w.changeTick other t
  | write location present sized =>
      exact writeComponent_ages consistent location present sized
  | mark location present => exact markRow_ages consistent location present
  | @rawWrite e loc t bytes location present sized =>
      refine .still (by simp) le_rfl fun x u => ?_
      have here := setRow_cell consistent location present bytes x u
      split at here
      · rename_i isSelf
        obtain ⟨rfl, rfl⟩ := isSelf
        exact .of_bytes here
      · exact .of_eq here
  | compact => exact .unchanged (by simp) le_rfl fun _ _ => rfl
  | rehash order =>
      exact .unchanged (by simp) le_rfl
        (ArchetypeStore.rehash_cell w.store order)
  | clearLog => exact .unchanged (by simp) le_rfl fun _ _ => rfl

/-- The run lemma. -/
theorem Steps.ages (stable : w.Stable registry)
    (steps : Steps registry w effects w')
    (accepted : ∀ effect ∈ effects, effect.IssuesDead) :
    Ages w effects w' := by
  induction steps with
  | refl => exact .refl w
  | tail before step inductionHypothesis =>
      rw [List.forall_mem_append] at accepted
      have stable' := before.keeps (stable_inductiveOn registry) stable
        accepted.1
      exact (inductionHypothesis accepted.1).trans
        (Step.ages stable' step accepted.2)

/-- No operation of a world touches the baselines of queries. -/
theorem Steps.changedBaselines_eq (steps : Steps registry w effects w') :
    w'.changedBaselines = w.changedBaselines := by
  induction steps with
  | refl => rfl
  | tail _ step inductionHypothesis =>
      refine Eq.trans ?_ inductionHypothesis
      cases step with
      | quiet agrees _ => exact agrees.changedBaselines_eq
      | write => exact (writeComponent_frame ..).2.2.2
      | mark => exact (markRow_frame ..).2.2.2
      | _ => rfl

/-! ## Tracking columns -/

/-- Track a column of an archetype from the present on. -/
def trackColumn (w : World) (p : Ptr) (t : ComponentTypeId) : World :=
  if (w.store.deref p).hasComponent t then
    w.modifyColumn ⟨p, 0⟩ t (·.ensureVersions w.changeTick)
  else w

/-- Track the versions of several columns. -/
def trackColumns (w : World) (columns : List (Ptr × ComponentTypeId)) : World :=
  columns.foldl (fun w column => w.trackColumn column.1 column.2) w

/-- Columns of the second world may have come to be tracked; else it is the
first. -/
structure Tracks (registry : ComponentRegistry) (w w' : World) : Prop where
  stable : w'.Stable registry
  archetypeList_eq : w'.store.archetypeList = w.store.archetypeList
  entityLocations_eq : w'.store.entityLocations = w.store.entityLocations
  componentIds_eq : ∀ p, (w'.store.deref p).componentIds =
    (w.store.deref p).componentIds
  changeTick_eq : w'.changeTick = w.changeTick
  changedBaselines_eq : w'.changedBaselines = w.changedBaselines
  cells : ∀ e t, w'.cell e t = w.cell e t ∨
    w'.cell e t = (w.cell e t).map fun c =>
      { c with version := some (c.version.getD w.changeTick) }

namespace Tracks

/-- A world tracks itself. -/
theorem refl (stable : w.Stable registry) : Tracks registry w w :=
  ⟨stable, rfl, rfl, fun _ => rfl, rfl, rfl, fun _ _ => Or.inl rfl⟩

/-- Tracking more and more columns. -/
theorem trans (first : Tracks registry w w') (second : Tracks registry w' w'') :
    Tracks registry w w'' where
  stable := second.stable
  archetypeList_eq := second.archetypeList_eq.trans first.archetypeList_eq
  entityLocations_eq := second.entityLocations_eq.trans first.entityLocations_eq
  componentIds_eq p := (second.componentIds_eq p).trans (first.componentIds_eq p)
  changeTick_eq := second.changeTick_eq.trans first.changeTick_eq
  changedBaselines_eq :=
    second.changedBaselines_eq.trans first.changedBaselines_eq
  cells e t := by
    obtain same | tracked := second.cells e t
    · rw [same]
      exact first.cells e t
    · right
      rw [tracked, first.changeTick_eq]
      obtain same | tracked' := first.cells e t
      · rw [same]
      · rw [tracked', Option.map_map]
        rfl

/-- Tracking writes nothing. -/
theorem ages (tracks : Tracks registry w w') : Ages w [] w' := by
  refine .still (fun _ _ => List.not_mem_nil) tracks.changeTick_eq.ge
    fun e t => ?_
  obtain same | tracked := tracks.cells e t
  · exact .of_eq same
  · exact .of_tracked tracked

/-- Tracking removes nothing. -/
theorem cell_isSome
    (tracks : Tracks registry w w') (e : Entity) (t : ComponentTypeId) :
    (w'.cell e t).isSome = (w.cell e t).isSome := by
  obtain same | marked := tracks.cells e t
  · rw [same]
  · rw [marked, Option.isSome_map]

/-- A component with a version keeps it. -/
theorem version_eq
    (tracks : Tracks registry w w') {e : Entity} {t : ComponentTypeId}
    (tracked : (w.version e t).isSome) : w'.version e t = w.version e t := by
  obtain ⟨v, found⟩ := Option.isSome_iff_exists.mp tracked
  obtain ⟨c, there, present⟩ := Option.bind_eq_some_iff.mp found
  rw [found]
  unfold version
  obtain same | marked := tracks.cells e t
  · rw [same, there]
    exact present
  · rw [marked, there, Option.map_some, Option.bind_some, present]
    rfl

end Tracks

section TrackColumn

variable {p : Ptr} {t : ComponentTypeId}

/-- The cells of the column get versions. -/
theorem trackColumn_cell
    (consistent : w.store.Consistent registry)
    (listed : p ∈ w.store.archetypeList) (x : Entity) (other : ComponentTypeId) :
    (w.trackColumn p t).cell x other = w.cell x other ∨
      (w.trackColumn p t).cell x other = (w.cell x other).map fun c =>
        { c with version := some (c.version.getD w.changeTick) } := by
  unfold trackColumn
  split
  · rename_i present
    cases location : w.store.entityLocations.lookup x with
    | none =>
        left
        unfold World.cell modifyColumn
        rw [ArchetypeStore.modify_cell (consistent.listedValid p listed)]
        unfold ArchetypeStore.cell
        rw [location]
        rfl
    | some loc =>
        by_cases here : loc.archetype = p
        · subst here
          have cells := ensureVersions_cell consistent location
            (Archetype.hasComponent_iff.mp present) w.changeTick x other
          exact cells.imp_right And.right
        · left
          unfold World.cell modifyColumn
          rw [ArchetypeStore.modify_cell (consistent.listedValid p listed),
            ArchetypeStore.cell_of_location location, location]
          exact if_neg here
  · exact Or.inl rfl

/-- A tracked column has a version for the entity. -/
theorem trackColumn_version
    (consistent : w.store.Consistent registry) {e : Entity} {r : Nat}
    (location : w.store.entityLocations.lookup e = some ⟨p, r⟩)
    (present : (w.store.deref p).hasComponent t = true) :
    ((w.trackColumn p t).version e t).isSome := by
  have held := Archetype.hasComponent_iff.mp present
  have inRow := Archetype.row_lt (consistent.inRow location)
  have hasRows : (w.columnAt ⟨p, r⟩ t).HasRows (w.store.deref p).entities.length :=
    columnAt_hasRows consistent location held
  unfold version trackColumn
  rw [if_pos present, show w.modifyColumn ⟨p, 0⟩ t _ =
      w.modifyColumn ⟨p, r⟩ t (·.ensureVersions w.changeTick) from rfl,
    modifyColumn_cell consistent location held, location, Option.bind_some,
    if_pos ⟨rfl, rfl⟩, Column.ensureVersions_cellAt hasRows _ _ inRow]
  rfl

/-- A column can be tracked. -/
theorem trackColumn_tracks
    (stable : w.Stable registry) (listed : p ∈ w.store.archetypeList) :
    Tracks registry w (w.trackColumn p t) := by
  refine ⟨?_, ?_, ?_, fun q => ?_, ?_, ?_,
    trackColumn_cell stable.consistent listed⟩
  all_goals
    unfold trackColumn
    split
  · rename_i present
    have wellFormed := stable.consistent.wellFormed p listed
    have held := Archetype.hasComponent_iff.mp present
    have shaped := keepsShape_ensureVersions
      (wellFormed.columnRows t held) w.changeTick
    refine ⟨ArchetypeStore.modify_consistent stable.consistent listed ?_ rfl rfl,
      stable.pendingSound, stable.poolReal⟩
    exact Archetype.setColumn_wellFormed wellFormed
      (shaped.elemSize_eq.trans (wellFormed.columnSize t held)) shaped.hasRows
  · exact stable
  · rfl
  · rfl
  · rfl
  · rfl
  · exact modifyColumn_componentIds ..
  · rfl
  · rfl
  · rfl
  · rfl
  · rfl

end TrackColumn

/-- Many columns can be tracked. -/
theorem trackColumns_tracks
    (stable : w.Stable registry) (columns : List (Ptr × ComponentTypeId))
    (listed : ∀ column ∈ columns, column.1 ∈ w.store.archetypeList) :
    Tracks registry w (w.trackColumns columns) := by
  induction columns generalizing w with
  | nil => exact .refl stable
  | cons column columns inductionHypothesis =>
      rw [List.forall_mem_cons] at listed
      have tracks := trackColumn_tracks (t := column.2) stable listed.1
      exact tracks.trans (inductionHypothesis tracks.stable
        (tracks.archetypeList_eq ▸ listed.2))

/-- Every one of the columns is tracked in the end. -/
theorem trackColumns_version
    (stable : w.Stable registry) {columns : List (Ptr × ComponentTypeId)}
    (listed : ∀ column ∈ columns, column.1 ∈ w.store.archetypeList)
    {p : Ptr} {t : ComponentTypeId} (member : (p, t) ∈ columns) {e : Entity}
    {r : Nat} (location : w.store.entityLocations.lookup e = some ⟨p, r⟩)
    (present : (w.store.deref p).hasComponent t = true) :
    ((w.trackColumns columns).version e t).isSome := by
  induction columns generalizing w with
  | nil => exact absurd member List.not_mem_nil
  | cons column columns inductionHypothesis =>
      rw [List.forall_mem_cons] at listed
      have tracks := trackColumn_tracks (t := column.2) stable listed.1
      have listed' := tracks.archetypeList_eq ▸ listed.2
      obtain rfl | later := List.mem_cons.mp member
      · have tracked := trackColumn_version stable.consistent location present
        have kept := (trackColumns_tracks tracks.stable columns
          listed').version_eq tracked
        exact kept ▸ tracked
      · refine inductionHypothesis tracks.stable listed' later
          (tracks.entityLocations_eq ▸ location) ?_
        rw [Archetype.hasComponent_iff, tracks.componentIds_eq]
        exact Archetype.hasComponent_iff.mp present

end World
end VortarisECS
