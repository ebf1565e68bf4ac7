import VortarisECS.Network.DeltaInstall
import VortarisECS.Network.Validation

/-!
# What an observer sees of a delta

A delta clears the components it adds and those of the first wire version, which
announces them, and then writes their bytes through a raw pointer, which does
not.  An event therefore shows zeros.
-/

namespace VortarisECS

/-- An `Added` or `Changed` event of a pair, at a point where the component
holds the bytes. -/
def Announces (effects : List Effect) (e : Entity) (t : ComponentTypeId)
    (bytes : Option (List UInt8)) : Prop :=
  ∃ type name seen, .dispatched type e t name seen ∈ effects ∧
    (type = .added ∨ type = .changed) ∧ seen.bytesAt e t = bytes

namespace World

variable {registry : ComponentRegistry} {w : World} {e x : Entity}
variable {t u : ComponentTypeId}

/-- The row of a component is newer than a tick, if its column has versions. -/
def Fresh (tick : Nat) (e : Entity) (t : ComponentTypeId) (w : World) : Prop :=
  ∀ cell version, w.cell e t = some cell → cell.version = some version →
    tick < version

/-! ## Adding a component -/

/-- Where a version comes from when an entity is moved. -/
theorem moveToSet_version
    (consistent : w.store.Consistent registry)
    {loc : EntityLocation}
    (location : w.store.entityLocations.lookup x = some loc)
    {ids : List ComponentTypeId} (ascending : ids.Pairwise (· < ·))
    (registered : ∀ t ∈ ids, (registry.schemaOf t).isSome)
    (differs : (w.store.deref loc.archetype).componentIds ≠ ids)
    {cell : Column.Cell} {version : Nat}
    (found : (w.moveToSet registry x loc ids).1.cell e t = some cell)
    (versioned : cell.version = some version) :
    version = w.changeTick ∨
      ∃ before, w.cell e t = some before ∧ before.version = some version := by
  obtain ⟨ensuredConsistent, extends', listed, idsEq⟩ :=
    ArchetypeStore.ensureArchetype_spec consistent ascending registered
  have locationAfter :
      (w.store.ensureArchetype registry ids).1.entityLocations.lookup x =
        some loc := by
    rw [extends'.locations_eq]
    exact location
  have moves :
      loc.archetype ≠ (w.store.ensureArchetype registry ids).2 := by
    intro same
    rw [← same, extends'.deref_eq _ (consistent.valid location)] at idsEq
    exact differs idsEq
  have sameCell := extends'.cell consistent e t
  by_cases isSelf : e = x
  · subst isSelf
    have moved := ArchetypeStore.relocate_cell_self ensuredConsistent
      locationAfter listed moves w.changeTick t
    rw [sameCell] at moved
    have cellEq := moved.symm.trans found
    split at cellEq
    · rw [Option.some.injEq] at cellEq
      rw [← cellEq] at versioned
      dsimp only at versioned
      split at versioned
      · rw [Option.some.injEq] at versioned
        rw [← versioned]
        cases before : w.store.cell e t with
        | none => exact Or.inl rfl
        | some old =>
            cases oldVersion : old.version with
            | none =>
                left
                rw [Option.bind_some, oldVersion]
                rfl
            | some stamp =>
                refine Or.inr ⟨old, before, ?_⟩
                rw [Option.bind_some, oldVersion]
                rfl
      · exact absurd versioned nofun
    · exact absurd cellEq nofun
  · have kept := ArchetypeStore.relocate_cell_of_ne ensuredConsistent
      locationAfter listed moves w.changeTick isSelf t
    exact Or.inr ⟨cell, (sameCell.symm.trans kept.symm).trans found, versioned⟩

/-- Where versions come from when a component is added: the new tick for the
component itself, at most the old one for a column the entity moves into. -/
theorem addRaw_version
    (hosts : w.Hosts registry x) {schema : ComponentSchema}
    (registered : registry.schemaOf u = some schema)
    {cell : Column.Cell} {version : Nat}
    (found : (w.addRaw registry x u none).state.cell e t = some cell)
    (versioned : cell.version = some version) :
    if e = x ∧ t = u then version = w.bumpTick.changeTick
    else version = w.changeTick ∨
      ∃ before, w.cell e t = some before ∧ before.version = some version := by
  have consistent := hosts.stable.consistent
  obtain ⟨loc, location⟩ := location_of_isAlive hosts.alive
  have sized : (componentBytes schema.size none).length =
      registry.sizeOf u := by
    rw [length_componentBytes, ComponentRegistry.sizeOf_of_schemaOf registered]
  by_cases present : u ∈ (w.store.deref loc.archetype).componentIds
  · rw [addRaw_overwrites none hosts.alive registered location
      hosts.idle.immediate present] at found
    dsimp only at found
    rw [writeComponent_cell consistent location present sized] at found
    split at found <;> rename_i here
    · rw [if_pos here]
      obtain ⟨old, _, rfl⟩ := Option.map_eq_some_iff.mp found
      obtain ⟨_, _, rfl⟩ := Option.map_eq_some_iff.mp versioned
      rfl
    · rw [if_neg here]
      exact Or.inr ⟨cell, found, versioned⟩
  · obtain ⟨ascending, idsRegistered, differs⟩ := insertedIds_spec
      (consistent.archetypeOf location) present (by rw [registered]; rfl)
    obtain ⟨movedConsistent, newLocation, newIds⟩ := moveToSet_location
      consistent location ascending idsRegistered differs
    have newPresent : u ∈ sortIds
        ((w.store.deref loc.archetype).componentIds ++ [u]) := by
      rw [mem_sortIds]
      exact List.mem_append_right _ (List.mem_singleton_self u)
    rw [← newIds] at newPresent
    rw [addRaw_moves none hosts.alive registered location hosts.idle.immediate
      present hosts.idle.outside] at found
    have storeEq := (agrees_invalidateCache _ :
      Agrees registry ((w.moveToSet registry x loc (sortIds
        ((w.store.deref loc.archetype).componentIds ++ [u]))).1.writeComponent x
        (w.moveToSet registry x loc (sortIds
          ((w.store.deref loc.archetype).componentIds ++ [u]))).2 u
        (componentBytes schema.size none)) _).store_eq
    dsimp only at found
    unfold World.cell at found
    rw [storeEq] at found
    change World.cell _ e t = some cell at found
    rw [writeComponent_cell movedConsistent newLocation newPresent sized]
      at found
    split at found <;> rename_i here
    · rw [if_pos here]
      obtain ⟨old, _, rfl⟩ := Option.map_eq_some_iff.mp found
      obtain ⟨_, _, rfl⟩ := Option.map_eq_some_iff.mp versioned
      rfl
    · rw [if_neg here]
      exact moveToSet_version consistent location ascending idsRegistered
        differs found versioned

/-- An old tick is older than the next one. -/
theorem lt_bumpTick {tick : Nat} (old : tick ≤ w.changeTick)
    (below : tick < tickLimit) : tick < w.bumpTick.changeTick := by
  unfold bumpTick
  dsimp only
  split <;> omega

/-- The clock does not run backwards. -/
theorem bumpTick_le (w : World) : w.changeTick ≤ w.bumpTick.changeTick := by
  unfold bumpTick
  dsimp only
  split <;> omega

@[simp] theorem invalidateCache_changeTick (w : World) :
    w.invalidateCache.changeTick = w.changeTick := by
  unfold invalidateCache
  split <;> rfl

/-- An addition is one tick. -/
theorem addRaw_changeTick
    (hosts : w.Hosts registry x) {schema : ComponentSchema}
    (registered : registry.schemaOf u = some schema) :
    (w.addRaw registry x u none).state.changeTick = w.bumpTick.changeTick := by
  obtain ⟨loc, location⟩ := location_of_isAlive hosts.alive
  by_cases present : u ∈ (w.store.deref loc.archetype).componentIds
  · rw [addRaw_overwrites none hosts.alive registered location
      hosts.idle.immediate present]
    exact (writeComponent_frame w x loc u _).2.1
  · rw [addRaw_moves none hosts.alive registered location hosts.idle.immediate
      present hosts.idle.outside]
    dsimp only
    rw [invalidateCache_changeTick, (writeComponent_frame _ x _ u _).2.1]
    rfl

/-- The event of an addition without data shows zeros. -/
theorem addRaw_event
    (hosts : w.Hosts registry x) {schema : ComponentSchema}
    (registered : registry.schemaOf u = some schema) :
    ∃ type seen quiet,
      (w.addRaw registry x u none).effects =
        quiet ++ [.dispatched type x u "" seen] ∧
      (∀ effect ∈ quiet, ∀ type e t name seen,
        effect ≠ .dispatched type e t name seen) ∧
      (type = .added ∨ type = .changed) ∧
      seen.bytesAt x u = some (List.replicate schema.size 0) := by
  obtain ⟨addedHosts, _, raw⟩ := addRaw_zeros hosts registered
  rw [← bytesAt_eq_getRaw addedHosts.stable.consistent] at raw
  obtain ⟨loc, location⟩ := location_of_isAlive hosts.alive
  by_cases present : u ∈ (w.store.deref loc.archetype).componentIds
  · rw [addRaw_overwrites none hosts.alive registered location
      hosts.idle.immediate present] at raw ⊢
    refine ⟨.changed, _, [.wrote x u], rfl, ?_, Or.inr rfl, raw⟩
    intro effect member
    rw [List.mem_singleton.mp member]
    exact nofun
  · rw [addRaw_moves none hosts.alive registered location hosts.idle.immediate
      present hosts.idle.outside] at raw ⊢
    refine ⟨.added, _, [.moved x, .wrote x u], rfl, ?_, Or.inl rfl, ?_⟩
    · intro effect member
      rw [List.mem_pair] at member
      obtain rfl | rfl := member <;> exact nofun
    · have storeEq := (agrees_invalidateCache _ : Agrees registry
        ((w.moveToSet registry x loc (sortIds ((w.store.deref
          loc.archetype).componentIds ++ [u]))).1.writeComponent x
          (w.moveToSet registry x loc (sortIds ((w.store.deref
            loc.archetype).componentIds ++ [u]))).2 u
          (componentBytes schema.size none)) _).store_eq
      unfold bytesAt World.cell at raw ⊢
      dsimp only at raw
      rw [storeEq] at raw
      exact raw

/-! ## One component of a delta -/

/-- Writing through a raw pointer changes no version. -/
theorem writeRaw_fresh
    (consistent : w.store.Consistent registry) {tick : Nat}
    (fresh : w.Fresh tick e t) (x : Entity) (u : ComponentTypeId)
    (bytes : List UInt8) : (w.writeRaw x u bytes).Fresh tick e t := by
  intro cell version found versioned
  unfold writeRaw at found
  split at found
  · exact fresh cell version found versioned
  · rename_i loc location
    split at found
    · rename_i present
      rw [setRow_cell consistent location
        (Archetype.hasComponent_iff.mp present)] at found
      split at found
      · rename_i here
        obtain ⟨old, before, rfl⟩ := Option.map_eq_some_iff.mp found
        rw [← here.1, ← here.2] at before
        exact fresh old version before versioned
      · exact fresh cell version found versioned
    · exact fresh cell version found versioned

/-- Bytes written behind the world's back take no tick. -/
theorem writeRaw_changeTick (w : World) (x : Entity) (u : ComponentTypeId)
    (bytes : List UInt8) : (w.writeRaw x u bytes).changeTick = w.changeTick := by
  unfold writeRaw
  split
  · rfl
  · split <;> rfl

/-- Adding a component makes it newer than any tick before. -/
theorem addRaw_fresh
    (hosts : w.Hosts registry x) {schema : ComponentSchema}
    (registered : registry.schemaOf u = some schema) {tick : Nat}
    (old : tick ≤ w.changeTick) (below : tick < tickLimit) :
    (w.addRaw registry x u none).state.Fresh tick x u := by
  intro cell version found versioned
  have source := addRaw_version hosts registered found versioned
  rw [if_pos ⟨rfl, rfl⟩] at source
  rw [source]
  exact lt_bumpTick old below

/-- An addition keeps other writes fresh. -/
theorem addRaw_keepsFresh
    (hosts : w.Hosts registry x) {schema : ComponentSchema}
    (registered : registry.schemaOf u = some schema) {tick : Nat}
    (fresh : w.Fresh tick e t) (later : tick < w.changeTick) :
    (w.addRaw registry x u none).state.Fresh tick e t := by
  intro cell version found versioned
  have source := addRaw_version hosts registered found versioned
  split at source
  · rw [source]
    exact lt_of_lt_of_le later (bumpTick_le w)
  · obtain rfl | ⟨before, foundBefore, versionedBefore⟩ := source
    · exact later
    · exact fresh before version foundBefore versionedBefore

end World

/-- The component a record of a delta is about. -/
def DeltaComponent.type : DeltaComponent → ComponentTypeId
  | .whole block => block.type
  | .buckets t _ => t

/-- The record makes the client clear the component first: a whole component,
or buckets of one the entity does not have. -/
def DeltaComponent.Clears (component : DeltaComponent) (t : ComponentTypeId)
    (held : Option (List UInt8)) : Prop :=
  component.type = t ∧ ((∃ block, component = .whole block) ∨ held = none)

namespace World

/-- Bytes that depend on the world are those of the step's end. -/
theorem mapState_writeRaw (step : Traced Effect World) (e : Entity)
    (t : ComponentTypeId) (bytesOf : World → List UInt8) :
    (step.mapState fun v => v.writeRaw e t (bytesOf v)) =
      step.mapState (·.writeRaw e t (bytesOf step.state)) := by
  unfold Traced.mapState
  rfl

/-- What one record of a delta does: it adds a component without data and
writes bytes over it, or it writes bytes over a component that is there. -/
theorem installDelta_cases
    (rest : w.AtRest registry) (x : Entity) (component : DeltaComponent) :
    (installDelta registry x w component = .pure w ∧
      (w.isAlive x = false ∨ registry.schemaOf component.type = none)) ∨
    (∃ bytes, ¬component.Clears component.type (w.bytesAt x component.type) ∧
      installDelta registry x w component =
        .pure (w.writeRaw x component.type bytes)) ∨
    ∃ schema bytes, w.isAlive x = true ∧
      registry.schemaOf component.type = some schema ∧
      component.Clears component.type (w.bytesAt x component.type) ∧
      installDelta registry x w component =
        (w.addRaw registry x component.type none).mapState
          (·.writeRaw x component.type bytes) := by
  unfold installDelta
  cases alive : w.isAlive x with
  | false => exact Or.inl ⟨rfl, Or.inl rfl⟩
  | true =>
      rw [if_pos rfl]
      cases component with
      | whole block =>
          dsimp only [DeltaComponent.type]
          unfold installBlock
          cases registered : registry.schemaOf block.type with
          | none => exact Or.inl ⟨rfl, Or.inr rfl⟩
          | some schema =>
              exact Or.inr (Or.inr ⟨schema, _, rfl, rfl,
                ⟨rfl, Or.inl ⟨block, rfl⟩⟩, mapState_writeRaw _ _ _ _⟩)
      | buckets u records =>
          dsimp only [DeltaComponent.type]
          cases registered : registry.schemaOf u with
          | none => exact Or.inl ⟨rfl, Or.inr rfl⟩
          | some schema =>
              have hasEq : w.has x u = (w.bytesAt x u).isSome := by
                rw [(represents_contents rest.stable.consistent).has_eq,
                  contents_of_alive alive]
                rfl
              dsimp only
              unfold installBuckets
              dsimp only
              cases held : w.bytesAt x u with
              | none =>
                  rw [hasEq, held, if_neg (by simp)]
                  exact Or.inr (Or.inr ⟨schema, _, rfl, rfl,
                    ⟨rfl, Or.inr rfl⟩, mapState_writeRaw _ _ _ _⟩)
              | some old =>
                  rw [hasEq, held, if_pos Option.isSome_some]
                  refine Or.inr (Or.inl ⟨_, ?_, rfl⟩)
                  rintro ⟨_, ⟨block, isWhole⟩ | isNone⟩
                  · exact absurd isWhole nofun
                  · exact absurd isNone nofun

/-- A record that clears a component announces it with zeros, and leaves it
newer than any tick before. -/
theorem installDelta_clears
    (rest : w.AtRest registry) (alive : w.isAlive e = true)
    {schema : ComponentSchema} {component : DeltaComponent}
    (registered : registry.schemaOf t = some schema)
    (clears : component.Clears t (w.bytesAt e t)) {tick : Nat}
    (old : tick ≤ w.changeTick) (below : tick < tickLimit) :
    Announces (installDelta registry e w component).effects e t
        (some (List.replicate schema.size 0)) ∧
      (installDelta registry e w component).state.Fresh tick e t ∧
      tick < (installDelta registry e w component).state.changeTick := by
  obtain rfl := clears.1
  have hosts : w.Hosts registry e := ⟨rest.stable, rest.idle, alive⟩
  obtain ⟨isPure, dead | unregistered⟩ | ⟨_, notClears, _⟩ |
      ⟨_, bytes, _, _, _, installs⟩ := installDelta_cases rest e component
  · exact absurd (alive.symm.trans dead) nofun
  · exact absurd (registered.symm.trans unregistered) nofun
  · exact absurd clears notClears
  · obtain ⟨type, seen, quiet, effectsEq, _, isChange, zeros⟩ :=
      addRaw_event hosts registered
    obtain ⟨addedHosts, _, _⟩ := addRaw_zeros hosts registered
    rw [installs]
    refine ⟨⟨type, "", seen, ?_, isChange, zeros⟩, ?_, ?_⟩
    · rw [Traced.mapState_effects, effectsEq]
      exact List.mem_append_right _ (List.mem_singleton_self _)
    · exact writeRaw_fresh addedHosts.stable.consistent
        (addRaw_fresh hosts registered old below) _ _ _
    · rw [Traced.mapState_state, writeRaw_changeTick,
        addRaw_changeTick hosts registered]
      exact lt_bumpTick old below

/-- The events of a record show zeros, and come with clearing alone. -/
theorem installDelta_events
    (rest : w.AtRest registry) {x : Entity} {component : DeltaComponent}
    {bytes : Option (List UInt8)}
    (announces : Announces (installDelta registry x w component).effects e t
      bytes) :
    e = x ∧ component.Clears t (w.bytesAt e t) ∧
      bytes = some (List.replicate (registry.sizeOf t) 0) := by
  obtain ⟨type, name, seen, member, _, shown⟩ := announces
  obtain ⟨isPure, _⟩ | ⟨_, _, writes⟩ | ⟨schema, _, alive, registered, clears,
      installs⟩ := installDelta_cases rest x component
  · rw [isPure] at member
    exact absurd member List.not_mem_nil
  · rw [writes] at member
    exact absurd member List.not_mem_nil
  · have hosts : w.Hosts registry x := ⟨rest.stable, rest.idle, alive⟩
    obtain ⟨_, there, quiet, effectsEq, isQuiet, _, zeros⟩ :=
      addRaw_event hosts registered
    rw [installs, Traced.mapState_effects, effectsEq, List.mem_append,
      List.mem_singleton] at member
    obtain inQuiet | same := member
    · exact absurd rfl (isQuiet _ inQuiet _ _ _ _ _)
    · cases same
      refine ⟨rfl, clears, ?_⟩
      rw [← shown, zeros, ComponentRegistry.sizeOf_of_schemaOf registered]

/-- A record leaves what is newer than a tick newer than it. -/
theorem installDelta_keepsFresh
    (rest : w.AtRest registry) {tick : Nat} (fresh : w.Fresh tick e t)
    (later : tick < w.changeTick) (x : Entity) (component : DeltaComponent) :
    (installDelta registry x w component).state.Fresh tick e t := by
  obtain ⟨isPure, _⟩ | ⟨_, _, writes⟩ | ⟨schema, _, alive, registered, _,
      installs⟩ := installDelta_cases rest x component
  · rw [isPure]
    exact fresh
  · rw [writes]
    exact writeRaw_fresh rest.stable.consistent fresh _ _ _
  · have hosts : w.Hosts registry x := ⟨rest.stable, rest.idle, alive⟩
    obtain ⟨addedHosts, _, _⟩ := addRaw_zeros hosts registered
    rw [installs]
    exact writeRaw_fresh addedHosts.stable.consistent
      (addRaw_keepsFresh hosts registered fresh later) _ _ _

/-- Components of a delta do not turn back the clock. -/
theorem installDelta_changeTick
    (rest : w.AtRest registry) (x : Entity) (component : DeltaComponent) :
    w.changeTick ≤ (installDelta registry x w component).state.changeTick := by
  obtain ⟨isPure, _⟩ | ⟨_, _, writes⟩ | ⟨schema, _, alive, registered, _,
      installs⟩ := installDelta_cases rest x component
  · rw [isPure]
    exact Nat.le_refl _
  · rw [writes, Traced.pure_state, writeRaw_changeTick]
  · have hosts : w.Hosts registry x := ⟨rest.stable, rest.idle, alive⟩
    rw [installs, Traced.mapState_state, writeRaw_changeTick,
      addRaw_changeTick hosts registered]
    exact bumpTick_le w

/-! ## All records of a delta -/

/-- Install a record of one entity. -/
def installRecordOf (registry : ComponentRegistry) (w : World)
    (record : Entity × DeltaComponent) : Traced Effect World :=
  installDelta registry record.1 w record.2

/-- A component of a delta is ignored, or puts bytes in place. -/
theorem receiveDelta_eq
    (registry : ComponentRegistry) (components : Components)
    (component : DeltaComponent) :
    (registry.schemaOf component.type = none ∧
      components.receiveDelta registry component = components) ∨
    (registry.schemaOf component.type).isSome ∧
      ∃ bytes, components.receiveDelta registry component =
        components.put component.type (some bytes) := by
  cases component with
  | whole block =>
      dsimp only [Components.receiveDelta, DeltaComponent.type]
      unfold Components.receive
      cases registry.schemaOf block.type with
      | none => exact Or.inl ⟨rfl, rfl⟩
      | some schema => exact Or.inr ⟨rfl, _, rfl⟩
  | buckets u records =>
      dsimp only [Components.receiveDelta, DeltaComponent.type]
      cases registry.schemaOf u with
      | none => exact Or.inl ⟨rfl, rfl⟩
      | some schema => exact Or.inr ⟨rfl, _, rfl⟩

/-- Nothing is removed by a delta. -/
theorem receiveDelta_none
    {components : Components} {component : DeltaComponent}
    (missing : components.receiveDelta registry component t = none) :
    components t = none := by
  obtain ⟨_, same⟩ | ⟨_, bytes, put⟩ :=
    receiveDelta_eq registry components component
  · rw [← same]
    exact missing
  · rw [put, Components.put] at missing
    split at missing
    · exact absurd missing (Option.some_ne_none _)
    · exact missing

/-- A component leaves the others. -/
theorem receiveDelta_other
    (components : Components) {component : DeltaComponent}
    (other : component.type ≠ t) :
    components.receiveDelta registry component t = components t := by
  obtain ⟨_, same⟩ | ⟨_, bytes, put⟩ :=
    receiveDelta_eq registry components component
  · rw [same]
  · rw [put, Components.put]
    exact if_neg (Ne.symm other)

/-- The components of a live entity after a record. -/
theorem installDelta_bytesAt
    (rest : w.AtRest registry) (alive : w.isAlive e = true) (x : Entity)
    (component : DeltaComponent) :
    (installDelta registry x w component).state.bytesAt e =
      if e = x then (w.bytesAt e).receiveDelta registry component
      else w.bytesAt e := by
  obtain ⟨_, contentsEq⟩ := installDelta_spec (e := x) rest component
  have atSelf := congrFun contentsEq e
  rw [contents_of_alive ((isAlive_of_contents _ contentsEq e).trans alive)]
    at atSelf
  by_cases isSelf : e = x
  · subst isSelf
    rw [Contents.adjust_self, contents_of_alive alive, Option.map_some,
      Option.some.injEq] at atSelf
    rw [if_pos rfl, atSelf]
  · rw [Contents.adjust_of_ne _ _ isSelf, contents_of_alive alive,
      Option.some.injEq] at atSelf
    rw [if_neg isSelf, atSelf]

/-- What makes a list of records announce a component: a whole component among
them, or the component is not there yet. -/
def Clearing (records : List (Entity × DeltaComponent)) (e : Entity)
    (t : ComponentTypeId) (held : Option (List UInt8)) : Prop :=
  (∃ block : ComponentBlock, block.type = t ∧ (e, .whole block) ∈ records) ∨
    held = none

/-- The events of a delta show zeros, and come with clearing alone. -/
theorem installRecords_events
    (rest : w.AtRest registry) (alive : w.isAlive e = true)
    {records : List (Entity × DeltaComponent)} {bytes : Option (List UInt8)}
    (announces : Announces
      (Traced.forEach (installRecordOf registry) w records).effects e t bytes) :
    Clearing records e t (w.bytesAt e t) ∧
      bytes = some (List.replicate (registry.sizeOf t) 0) := by
  induction records generalizing w with
  | nil =>
      obtain ⟨_, _, _, member, _⟩ := announces
      exact absurd member List.not_mem_nil
  | cons record records inductionHypothesis =>
      obtain ⟨type, name, seen, member, isChange, shown⟩ := announces
      rw [Traced.forEach_cons, Traced.andThen_effects, List.mem_append]
        at member
      obtain member | member := member
      · obtain ⟨isSelf, clears, zeros⟩ := installDelta_events rest
          ⟨type, name, seen, member, isChange, shown⟩
        refine ⟨?_, zeros⟩
        obtain ⟨typeEq, ⟨block, isWhole⟩ | missing⟩ := clears
        · refine Or.inl ⟨block, ?_, ?_⟩
          · rw [isWhole] at typeEq
            exact typeEq
          · rw [isSelf, ← isWhole]
            exact List.mem_cons_self
        · exact Or.inr missing
      · obtain ⟨after, contentsEq⟩ := installDelta_spec (e := record.1) rest
          record.2
        obtain ⟨clearing, zeros⟩ := inductionHypothesis after
          ((isAlive_of_contents _ contentsEq e).trans alive)
          ⟨type, name, seen, member, isChange, shown⟩
        refine ⟨?_, zeros⟩
        obtain ⟨block, typeEq, inRecords⟩ | missing := clearing
        · exact Or.inl ⟨block, typeEq, List.mem_cons_of_mem _ inRecords⟩
        · change (installDelta registry record.1 w record.2).state.bytesAt e
            t = none at missing
          rw [installDelta_bytesAt rest alive] at missing
          split at missing
          · exact Or.inr (receiveDelta_none missing)
          · exact Or.inr missing

/-- A list of records leaves what is newer than a tick newer than it. -/
theorem installRecords_keepsFresh
    (rest : w.AtRest registry) {tick : Nat} (fresh : w.Fresh tick e t)
    (later : tick < w.changeTick) (records : List (Entity × DeltaComponent)) :
    (Traced.forEach (installRecordOf registry) w records).state.Fresh tick e
      t := by
  induction records generalizing w with
  | nil => exact fresh
  | cons record records inductionHypothesis =>
      exact inductionHypothesis (installDelta_spec rest record.2).1
        (installDelta_keepsFresh rest fresh later record.1 record.2)
        (lt_of_lt_of_le later (installDelta_changeTick rest _ _))

/-- What the first part announces is announced. -/
theorem announces_append_left
    {first second : List Effect} {bytes : Option (List UInt8)}
    (announces : Announces first e t bytes) :
    Announces (first ++ second) e t bytes := by
  obtain ⟨type, name, seen, member, shown⟩ := announces
  exact ⟨type, name, seen, List.mem_append_left _ member, shown⟩

/-- So is what the second part announces. -/
theorem announces_append_right
    {first second : List Effect} {bytes : Option (List UInt8)}
    (announces : Announces second e t bytes) :
    Announces (first ++ second) e t bytes := by
  obtain ⟨type, name, seen, member, shown⟩ := announces
  exact ⟨type, name, seen, List.mem_append_right _ member, shown⟩

/-- Clearing announces. -/
theorem installRecords_announces
    (rest : w.AtRest registry) (alive : w.isAlive e = true)
    {schema : ComponentSchema} (registered : registry.schemaOf t = some schema)
    {tick : Nat} (old : tick ≤ w.changeTick) (below : tick < tickLimit)
    {records : List (Entity × DeltaComponent)}
    (named : ∃ component : DeltaComponent, component.type = t ∧
      (e, component) ∈ records)
    (clearing : Clearing records e t (w.bytesAt e t)) :
    Announces (Traced.forEach (installRecordOf registry) w records).effects e t
        (some (List.replicate schema.size 0)) ∧
      (Traced.forEach (installRecordOf registry) w records).state.Fresh tick e
        t := by
  induction records generalizing w with
  | nil =>
      obtain ⟨_, _, member⟩ := named
      exact absurd member List.not_mem_nil
  | cons record records inductionHypothesis =>
      obtain ⟨after, contentsEq⟩ := installDelta_spec (e := record.1) rest
        record.2
      have stillAlive := (isAlive_of_contents _ contentsEq e).trans alive
      have stillOld := old.trans (installDelta_changeTick rest record.1
        record.2)
      rw [Traced.forEach_cons, Traced.andThen_effects, Traced.andThen_state]
      by_cases clears : record.1 = e ∧ record.2.Clears t (w.bytesAt e t)
      · obtain ⟨isSelf, clears⟩ := clears
        have cleared := installDelta_clears rest alive registered clears old
          below
        unfold installRecordOf
        rw [isSelf] at after ⊢
        exact ⟨announces_append_left cleared.1,
          installRecords_keepsFresh after cleared.2.1 cleared.2.2 records⟩
      · have later : (∃ component : DeltaComponent, component.type = t ∧
              (e, component) ∈ records) ∧
            Clearing records e t
              ((installDelta registry record.1 w record.2).state.bytesAt e
                t) := by
          by_cases about : record.1 = e ∧ record.2.type = t
          · have notWhole : ∀ block, record.2 ≠ .whole block :=
              fun block isWhole =>
                clears ⟨about.1, about.2, Or.inl ⟨block, isWhole⟩⟩
            obtain ⟨block, typeEq, member⟩ | missing := clearing
            · obtain rfl | member := List.mem_cons.mp member
              · exact absurd rfl (notWhole block)
              · exact ⟨⟨.whole block, typeEq, member⟩,
                  Or.inl ⟨block, typeEq, member⟩⟩
            · exact absurd ⟨about.1, about.2, Or.inr missing⟩ clears
          · have notHead : ∀ component : DeltaComponent, component.type = t →
                (e, component) ∈ record :: records →
                (e, component) ∈ records := by
              intro component typeEq member
              obtain rfl | member := List.mem_cons.mp member
              · exact absurd ⟨rfl, typeEq⟩ about
              · exact member
            have kept : (installDelta registry record.1 w
                record.2).state.bytesAt e t = w.bytesAt e t := by
              rw [installDelta_bytesAt rest alive]
              split
              · rename_i isSelf
                exact receiveDelta_other _ fun typeEq =>
                  about ⟨isSelf.symm, typeEq⟩
              · rfl
            obtain ⟨component, typeEq, member⟩ := named
            refine ⟨⟨component, typeEq, notHead component typeEq member⟩, ?_⟩
            rw [kept]
            obtain ⟨block, typeEq, member⟩ | missing := clearing
            · exact Or.inl ⟨block, typeEq, notHead (.whole block) typeEq member⟩
            · exact Or.inr missing
        obtain ⟨announced, fresh⟩ := inductionHypothesis after stillAlive
          stillOld later.1 later.2
        exact ⟨announces_append_right announced, fresh⟩

end World
namespace Client

variable {registry : ComponentRegistry} {c : Client}

/-- The records of a delta, entity by entity. -/
def recordsOf (entities : List DeltaEntity) : List (Entity × DeltaComponent) :=
  entities.flatMap fun entity =>
    entity.components.map fun component => (⟨entity.id⟩, component)

/-- The records of a packet are those said of its entities. -/
theorem mem_recordsOf
    {entities : List DeltaEntity} {e : Entity} {component : DeltaComponent} :
    (e, component) ∈ recordsOf entities ↔ component ∈ saidOf entities e := by
  unfold recordsOf saidOf
  simp only [List.mem_flatMap, List.mem_map, List.mem_filter, Prod.mk.injEq]
  constructor
  · rintro ⟨entity, inDelta, found, member, isSelf, rfl⟩
    exact ⟨entity, ⟨inDelta, by rw [← isSelf]; exact decide_eq_true rfl⟩,
      member⟩
  · rintro ⟨entity, ⟨inDelta, isSelf⟩, member⟩
    exact ⟨entity, inDelta, component, member,
      congrArg Entity.mk (of_decide_eq_true isSelf), rfl⟩

/-- Installing the records of one entity. -/
theorem installComponents_eq
    (w : World) (e : Entity) (components : List DeltaComponent) :
    Traced.forEach (World.installRecordOf registry) w
        (components.map fun component => (e, component)) =
      Traced.forEach (World.installDelta registry e) w components := by
  induction components generalizing w with
  | nil => rfl
  | cons component components inductionHypothesis =>
      rw [List.map_cons, Traced.forEach_cons, Traced.forEach_cons]
      exact congrArg (Traced.andThen _)
        (funext fun next => inductionHypothesis next)

variable (registry) in
/-- The entities of a delta are installed record by record. -/
theorem installDeltaEntities_eq (c : Client) (entities : List DeltaEntity) :
    let applied := Traced.forEach (installDeltaEntity registry) c entities
    let installed := Traced.forEach (World.installRecordOf registry) c.world
      (recordsOf entities)
    applied.state.world = installed.state ∧
      applied.effects = installed.effects := by
  induction entities generalizing c with
  | nil => exact ⟨rfl, rfl⟩
  | cons entity entities inductionHypothesis =>
      have first : (installDeltaEntity registry c entity).state.world =
            (Traced.forEach (World.installDelta registry ⟨entity.id⟩) c.world
              entity.components).state ∧
          (installDeltaEntity registry c entity).effects =
            (Traced.forEach (World.installDelta registry ⟨entity.id⟩) c.world
              entity.components).effects := by
        unfold installDeltaEntity
        dsimp only
        split <;> exact ⟨rfl, rfl⟩
      obtain ⟨worldEq, effectsEq⟩ :=
        inductionHypothesis (installDeltaEntity registry c entity).state
      have records : recordsOf (entity :: entities) =
          (entity.components.map fun component => (⟨entity.id⟩, component)) ++
            recordsOf entities := List.flatMap_cons
      dsimp only at worldEq effectsEq ⊢
      rw [records, Traced.forEach_append_state, Traced.forEach_append_effects,
        installComponents_eq, Traced.forEach_cons, Traced.andThen_state,
        Traced.andThen_effects, worldEq, effectsEq, first.1, first.2]
      exact ⟨rfl, rfl⟩

/-- Whenever a delta changes the bytes of a live component, an event is
dispatched that shows them, and the row is newer than the client was. -/
def ObservesUpdates (registry : ComponentRegistry) (c : Client)
    (data : List UInt8) : Prop :=
  ∀ e t, c.world.isAlive e = true →
    (c.applyDelta registry data).state.world.bytesAt e t ≠
      c.world.bytesAt e t →
    Announces (c.applyDelta registry data).effects e t
        ((c.applyDelta registry data).state.world.bytesAt e t) ∧
      (c.applyDelta registry data).state.world.Fresh c.world.changeTick e t

/-- A delta gives live components no new bytes but zeros, and these in whole
components or in ones that are not there yet. -/
def CarriesZeros (registry : ComponentRegistry) (c : Client)
    (entities : List DeltaEntity) : Prop :=
  ∀ e t, c.world.isAlive e = true →
    let carried := (saidOf entities e).foldl (Components.receiveDelta registry)
      (c.world.bytesAt e) t
    carried ≠ c.world.bytesAt e t →
    carried = some (List.replicate (registry.sizeOf t) 0) ∧
      ((∃ block : ComponentBlock, block.type = t ∧
          .whole block ∈ saidOf entities e) ∨
        c.world.bytesAt e t = none)

/-- Bytes that change are named by a record of a registered component. -/
theorem named_of_changed
    {held : Components} {t : ComponentTypeId} {said : List DeltaComponent}
    (changed : said.foldl (Components.receiveDelta registry) held t ≠ held t) :
    (registry.schemaOf t).isSome ∧
      ∃ component ∈ said, component.type = t := by
  induction said generalizing held with
  | nil => exact absurd rfl changed
  | cons component said inductionHypothesis =>
      by_cases here : held.receiveDelta registry component t = held t
      · rw [List.foldl_cons, ← here] at changed
        obtain ⟨registered, later, member, typeEq⟩ :=
          inductionHypothesis changed
        exact ⟨registered, later, List.mem_cons_of_mem _ member, typeEq⟩
      · have typeEq : component.type = t := by
          by_contra other
          exact here (World.receiveDelta_other held other)
        refine ⟨?_, component, List.mem_cons_self, typeEq⟩
        obtain ⟨_, same⟩ | ⟨registered, _⟩ :=
          World.receiveDelta_eq registry held component
        · rw [same] at here
          exact absurd rfl here
        · rw [← typeEq]
          exact registered

/-- What a delta does to the components of a live entity. -/
theorem applyDelta_bytesAt
    (rest : c.world.AtRest registry) {data : List UInt8}
    (inMemory : data.length < sizeLimit) {entities : List DeltaEntity}
    (parsed : parsePacket registry .delta data = some (.delta entities))
    {e : Entity} (alive : c.world.isAlive e = true) :
    (c.applyDelta registry data).state.world.bytesAt e =
      (saidOf entities e).foldl (Components.receiveDelta registry)
        (c.world.bytesAt e) := by
  obtain ⟨_, contentsEq, _⟩ := installDeltaEntities_spec rest entities
  rw [← applyDelta_of_parsed rest inMemory parsed] at contentsEq
  have atSelf := contentsEq e
  rw [World.contents_of_alive alive, Option.map_some] at atSelf
  have stillAlive :
      (c.applyDelta registry data).state.world.isAlive e = true := by
    rw [← World.contents_isSome, atSelf]
    rfl
  rw [World.contents_of_alive stillAlive, Option.some.injEq] at atSelf
  exact atSelf

/-- **A delta is observable** exactly if it carries no new bytes but zeros: the
events it causes are dispatched before its bytes are written. -/
theorem observesUpdates_iff
    (fit : registry.WireSizesFit) (rest : c.world.AtRest registry)
    (running : c.world.changeTick < tickLimit) {data : List UInt8}
    (inMemory : data.length < vectorLimit)
    (accepted : validatePacket registry .delta data = true) :
    ∃ entities, parsePacket registry .delta data = some (.delta entities) ∧
      (c.ObservesUpdates registry data ↔
        c.CarriesZeros registry entities) := by
  obtain ⟨packet, parsed⟩ := parsed_of_validatePacket fit inMemory accepted
  obtain ⟨_, _, _, _, entities, _, _, _, rfl⟩ := parsePacket_delta_eq_some.mp parsed
  have short : data.length < sizeLimit := inMemory.trans (by decide)
  refine ⟨entities, parsed, ?_⟩
  obtain ⟨worldEq, effectsEq⟩ := installDeltaEntities_eq registry c entities
  rw [← applyDelta_of_parsed rest short parsed] at worldEq effectsEq
  constructor
  · intro observes e t alive carried changed
    have bytesEq := congrFun (applyDelta_bytesAt rest short parsed alive) t
    obtain ⟨announces, _⟩ := observes e t alive (by rw [bytesEq]; exact changed)
    rw [effectsEq] at announces
    obtain ⟨clearing, zeros⟩ := World.installRecords_events rest alive announces
    rw [bytesEq] at zeros
    refine ⟨zeros, ?_⟩
    obtain ⟨block, typeEq, member⟩ | missing := clearing
    · exact Or.inl ⟨block, typeEq, mem_recordsOf.mp member⟩
    · exact Or.inr missing
  · intro carries e t alive changed
    have bytesEq := congrFun (applyDelta_bytesAt rest short parsed alive) t
    rw [bytesEq] at changed
    obtain ⟨zeros, clearing⟩ := carries e t alive changed
    obtain ⟨registered, component, member, typeEq⟩ := named_of_changed changed
    obtain ⟨schema, registered⟩ := Option.isSome_iff_exists.mp registered
    rw [bytesEq, zeros, worldEq, effectsEq,
      ComponentRegistry.sizeOf_of_schemaOf registered]
    refine World.installRecords_announces rest alive registered (Nat.le_refl _)
      running ⟨component, typeEq, mem_recordsOf.mpr member⟩ ?_
    obtain ⟨block, typeEq, member⟩ | missing := clearing
    · exact Or.inl ⟨block, typeEq, mem_recordsOf.mpr member⟩
    · exact Or.inr missing

/-- A delta for one component of one entity. -/
theorem observesUpdates_iff_health :
    let registry := ComponentRegistry.healthRegistry
    let c : Client := ⟨(WorldOp.run registry [.createEntity]).state, [⟨1⟩]⟩
    let data : List UInt8 := [2, 0, 1, 0, 0, 0, 1, 0, 0, 0, 0, 0, 0, 0, 1,
      1, 0, 0, 0, 1, 0, 1, 0]
    ∃ entities, parsePacket registry .delta data = some (.delta entities) ∧
      (c.ObservesUpdates registry data ↔
        c.CarriesZeros registry entities) := by
  intro registry c data
  have sound : World.Sound registry c.world :=
    WorldOp.run_sound (by simp [WorldOp.PreassignsNothing])
  exact observesUpdates_iff healthRegistry_fits
    ⟨sound.stable, WorldOp.run_idle _ _⟩ (by decide +kernel) (by decide +kernel)
    (by decide +kernel)

/-- The client holds one byte of a component, and a delta brings another: the
byte changes, and no event is dispatched. -/
theorem not_observesUpdates_health :
    let registry := ComponentRegistry.healthRegistry
    let c : Client := ⟨(WorldOp.run registry
      [.createEntity, .addRaw ⟨1⟩ 1 (some [7])]).state, [⟨1⟩]⟩
    let data : List UInt8 := [2, 0, 1, 0, 0, 0, 1, 0, 0, 0, 0, 0, 0, 0, 1,
      1, 0, 0, 0, 1, 0, 1, 9]
    validatePacket registry .delta data = true ∧
      (c.applyDelta registry data).state.world.bytesAt ⟨1⟩ 1 = some [9] ∧
      ¬c.ObservesUpdates registry data := by
  intro registry c data
  have silent : (c.applyDelta registry data).effects.length = 0 := by
    decide +kernel
  refine ⟨by decide +kernel, by decide +kernel, fun observes => ?_⟩
  obtain ⟨⟨_, _, _, member, _⟩, _⟩ :=
    observes ⟨1⟩ 1 (by decide +kernel) (by decide +kernel)
  rw [List.length_eq_zero_iff.mp silent] at member
  exact absurd member List.not_mem_nil

end Client
end VortarisECS
