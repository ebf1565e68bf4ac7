import VortarisECS.Core.FiniteMap
import VortarisECS.Serialization.Install

/-!
# World snapshots

A snapshot lists every entity with its components.  Loading walks the bytes
twice: a first pass checks them with the world untouched, a second one clears
the world and rebuilds it.  The first pass computes sizes in `size_t`; as long
as what it accepts is a snapshot when sizes are exact, loading is all or
nothing.
-/

namespace VortarisECS

/-- The version of snapshots. -/
def snapshotVersion : Nat := 1

/-! ## Saving -/

/-- A result of `std::sort` by signature: archetypes with one signature come in
any order. -/
structure SortedBySignature (s : ArchetypeStore) (order : List Ptr) : Prop where
  perm : order.Perm s.archetypeList
  sorted : order.Pairwise fun p q =>
    (s.deref p).signature ≤ (s.deref q).signature

/-- One component of a row. -/
def saveComponent (registry : ComponentRegistry) (a : Archetype) (row : Nat)
    (buf : BinaryBuffer) (t : ComponentTypeId) : BinaryBuffer :=
  let typed := buf.writeU32 t.toNat
  match registry.schemaOf t with
  | none => typed
  | some schema => serializeComponent schema ((a.column t).row row) typed

/-- One row of an archetype. -/
def saveRow (registry : ComponentRegistry) (a : Archetype)
    (buf : BinaryBuffer) (entry : Entity × Nat) : BinaryBuffer :=
  a.componentIds.foldl (saveComponent registry a entry.2)
    ((buf.writeU64 entry.1.id.toNat).writeU16 a.componentIds.length)

/-- Append the rows of an archetype. -/
def saveArchetype (registry : ComponentRegistry) (s : ArchetypeStore)
    (buf : BinaryBuffer) (p : Ptr) : BinaryBuffer :=
  (s.deref p).entities.zipIdx.foldl (saveRow registry (s.deref p)) buf

/-- `serialize_world_snapshot`, with the archetypes in the order the sort left
them in. -/
def serializeWorldSnapshot (registry : ComponentRegistry) (w : World)
    (order : List Ptr) : BinaryBuffer :=
  order.foldl (saveArchetype registry w.store)
    ((({} : BinaryBuffer).writeU16 snapshotVersion).writeU32
      w.entityCount.toNat)

/-! ## Loading -/

/-- Pass 1: check every read and every id. -/
def validateSnapshot (registry : ComponentRegistry) (buf : BinaryBuffer) :
    Bool :=
  match buf.readU16 with
  | none => false
  | some (version, buf) =>
      if version ≠ snapshotVersion then false
      else
        match buf.readU32 with
        | none => false
        | some (count, buf) =>
            (scanRecords registry .whole count [] buf).isSome

/-- Rebuild one entity. -/
def loadRecord (registry : ComponentRegistry) : Act Effect World :=
  receiveRecord registry .whole

/-- Pass 2, after the world was cleared. -/
def rebuildWorld (registry : ComponentRegistry) : Act Effect World :=
  fun w buf =>
    match buf.readU16 with
    | none => (.pure w, none)
    | some (version, buf) =>
        if version ≠ snapshotVersion then (.pure w, none)
        else
          match buf.readU32 with
          | none => (.pure w, none)
          | some (count, buf) => (loadRecord registry).times count w buf

/-- `deserialize_world_snapshot`: what it does to the world, and whether it
succeeds. -/
def deserializeWorldSnapshot (registry : ComponentRegistry) (w : World)
    (buf : BinaryBuffer) : Traced Effect World × Bool :=
  if validateSnapshot registry buf then
    let cleared := w.clear
    let rebuilt := rebuildWorld registry cleared.state buf
    (cleared.andThen fun _ => rebuilt.1, rebuilt.2.isSome)
  else (.pure w, false)

/-! ## The grammar -/

/-- A snapshot of this version. -/
def snapshotParser (registry : ComponentRegistry) :
    Parser (List EntityRecord) :=
  (Parser.number 2).andThen fun version =>
    if version ≠ snapshotVersion then Parser.fail
    else
      (Parser.number 4).andThen fun count =>
        Parser.many count (recordParser registry .whole)

/-- The entities a byte string lists, if it is a snapshot.  Bytes behind the
last entity are ignored. -/
def parseSnapshot (registry : ComponentRegistry) (data : List UInt8) :
    Option (List EntityRecord) :=
  match snapshotParser registry data with
  | none => none
  | some (records, _) => if Admissible records [] then some records else none

/-- The contents of a world that holds exactly the listed entities. -/
def Contents.ofRecords (registry : ComponentRegistry)
    (records : List EntityRecord) : Contents := fun e =>
  (records.find? fun record => record.id = e.id).map (·.components registry)

theorem Contents.ofRecords_isSome_iff
    {registry : ComponentRegistry} {records : List EntityRecord}
    {e : Entity} :
    (Contents.ofRecords registry records e).isSome = true ↔
      e.id ∈ records.map EntityRecord.id := by
  unfold Contents.ofRecords
  rw [Option.isSome_map, List.find?_isSome, List.mem_map]
  simp only [decide_eq_true_eq]

/-- A snapshot parses when its header, its count and its records do. -/
theorem snapshotParser_eq_some
    {registry : ComponentRegistry} {input rest : List UInt8}
    {records : List EntityRecord} :
    snapshotParser registry input = some (records, rest) ↔
      ∃ first count second,
        Parser.number 2 input = some (snapshotVersion, first) ∧
        Parser.number 4 first = some (count, second) ∧
        Parser.many count (recordParser registry .whole) second =
          some (records, rest) := by
  unfold snapshotParser
  rw [Parser.andThen_eq_some]
  constructor
  · rintro ⟨version, first, parsedVersion, parsedRest⟩
    split at parsedRest
    · exact absurd parsedRest (by simp [Parser.fail])
    · rename_i current
      rw [not_not] at current
      obtain ⟨count, second, parsedCount, parsedRecords⟩ :=
        Parser.andThen_eq_some.mp parsedRest
      exact ⟨first, count, second, by rw [← current]; exact parsedVersion,
        parsedCount, parsedRecords⟩
  · rintro ⟨first, count, second, parsedVersion, parsedCount, parsedRecords⟩
    refine ⟨snapshotVersion, first, parsedVersion, ?_⟩
    rw [if_neg (by simp)]
    exact Parser.andThen_eq_some.mpr
      ⟨count, second, parsedCount, parsedRecords⟩

namespace World

variable {registry : ComponentRegistry} {w : World}

/-! ## Pass 1 decides -/

/-- On a byte string in the grammar, pass 1 looks at the ids alone. -/
theorem validateSnapshot_eq
    {data rest : List UInt8} (inMemory : data.length < sizeLimit)
    {records : List EntityRecord}
    (parsed : snapshotParser registry data = some (records, rest)) :
    validateSnapshot registry ⟨data, 0⟩ = decide (Admissible records []) := by
  obtain ⟨first, count, second, parsedVersion, parsedCount, parsedRecords⟩ :=
    snapshotParser_eq_some.mp parsed
  obtain ⟨readVersion, afterVersion⟩ := BinaryBuffer.readNumber_follows 2
    ⟨data, 0⟩ data _ first (BinaryBuffer.remaining_start inMemory) parsedVersion
  obtain ⟨readCount, afterCount⟩ := BinaryBuffer.readNumber_follows 4 _ first
    count second afterVersion parsedCount
  have readVersion' : BinaryBuffer.readU16 ⟨data, 0⟩ = some _ := readVersion
  have readCount' : BinaryBuffer.readU32 _ = some _ := readCount
  have scanned := (scanRecords_eq [] afterCount parsedRecords).1
  unfold validateSnapshot
  rw [readVersion']
  dsimp only
  rw [if_neg (by simp), readCount']
  dsimp only
  rw [scanned]
  by_cases admissible : Admissible records []
  · rw [if_pos admissible, decide_eq_true admissible]
    rfl
  · rw [if_neg admissible, decide_eq_false admissible]
    rfl

/-! ## Pass 2 rebuilds -/

/-- Rebuilding from a byte string in the grammar installs its records. -/
theorem rebuildWorld_eq
    {data rest : List UInt8} (inMemory : data.length < sizeLimit)
    {records : List EntityRecord}
    (parsed : snapshotParser registry data = some (records, rest))
    (awaits : w.Awaits registry records) :
    rebuildWorld registry w ⟨data, 0⟩ =
      (Traced.forEach (installRecord registry) w records,
        some (BinaryBuffer.upTo ⟨data, 0⟩ rest)) := by
  obtain ⟨first, count, second, parsedVersion, parsedCount, parsedRecords⟩ :=
    snapshotParser_eq_some.mp parsed
  obtain ⟨readVersion, afterVersion⟩ := BinaryBuffer.readNumber_follows 2
    ⟨data, 0⟩ data _ first (BinaryBuffer.remaining_start inMemory) parsedVersion
  obtain ⟨readCount, afterCount⟩ := BinaryBuffer.readNumber_follows 4 _ first
    count second afterVersion parsedCount
  have readVersion' : BinaryBuffer.readU16 ⟨data, 0⟩ = some _ := readVersion
  have readCount' : BinaryBuffer.readU32 _ = some _ := readCount
  have repeated : ((loadRecord registry).times count).Performs
      (fun w records => w.Awaits registry records)
      (Parser.many count (recordParser registry .whole))
      (fun w records => Traced.forEach (installRecord registry) w records) :=
    receiveRecord_performs.times (fun _ _ _ pends => pends.head)
      (fun w record records (pends : w.Awaits registry (record :: records)) =>
        (installRecord_spec pends).1) count
  unfold rebuildWorld
  rw [readVersion']
  dsimp only
  rw [if_neg (by simp), readCount']
  exact (repeated w _ second records rest awaits afterCount parsedRecords).1

/-! ## All or nothing -/

/-- The load leaves the world as it was, the clearing event included, and says
so; or the world holds exactly the entities the bytes list. -/
def LoadsAllOrNothing (registry : ComponentRegistry) (w : World)
    (data : List UInt8) : Prop :=
  let loaded := deserializeWorldSnapshot registry w ⟨data, 0⟩
  (loaded.2 = false ∧ loaded.1.state = w ∧ loaded.1.effects = []) ∨
  (loaded.2 = true ∧ ∃ records, parseSnapshot registry data = some records ∧
    loaded.1.state.Represents (Contents.ofRecords registry records))

/-- The bytes are a snapshot when they parse and their ids are admissible. -/
theorem parseSnapshot_eq_some
    {data : List UInt8} {records : List EntityRecord} :
    parseSnapshot registry data = some records ↔
      (∃ rest, snapshotParser registry data = some (records, rest)) ∧
        Admissible records [] := by
  unfold parseSnapshot
  cases snapshotParser registry data with
  | none => simp
  | some parsed =>
      obtain ⟨found, rest⟩ := parsed
      dsimp only
      by_cases admissible : Admissible found []
      · rw [if_pos admissible, Option.some.injEq]
        constructor
        · rintro rfl
          exact ⟨⟨rest, rfl⟩, admissible⟩
        · rintro ⟨⟨rest', same⟩, _⟩
          exact congrArg Prod.fst (Option.some.inj same)
      · rw [if_neg admissible]
        constructor
        · intro impossible
          exact absurd impossible (by simp)
        · rintro ⟨⟨rest', same⟩, admissible'⟩
          have sameRecords : found = records :=
            congrArg Prod.fst (Option.some.inj same)
          rw [← sameRecords] at admissible'
          exact absurd admissible' admissible

/-- A cleared world can take in any admissible records. -/
theorem clear_awaits
    (stable : w.Stable registry) (idle : w.Idle) {records : List EntityRecord}
    (admissible : Admissible records []) :
    w.clear.state.Awaits registry records := by
  have emptied := clear_contents stable idle.outside
  refine ⟨stable.keeps clear_realizes (clear_createsNothing w),
    (clear_control w).trans idle, fun record _ => ?_,
    fun record member => (admissible.1 record member).1, admissible.2⟩
  rw [← contents_isSome, emptied]
  rfl

/-- A snapshot replaces the world by the entities it lists. -/
theorem deserializeWorldSnapshot_of_parsed
    (stable : w.Stable registry) (idle : w.Idle) {data : List UInt8}
    (inMemory : data.length < sizeLimit) {records : List EntityRecord}
    (parsed : parseSnapshot registry data = some records) :
    let loaded := deserializeWorldSnapshot registry w ⟨data, 0⟩
    loaded.2 = true ∧
    loaded.1.state =
      (Traced.forEach (installRecord registry) w.clear.state records).state ∧
    loaded.1.state.Awaits registry [] ∧
    loaded.1.state.contents = Contents.ofRecords registry records := by
  obtain ⟨⟨rest, grammatical⟩, admissible⟩ := parseSnapshot_eq_some.mp parsed
  have awaits := clear_awaits stable idle admissible
  have valid := validateSnapshot_eq inMemory grammatical
  rw [decide_eq_true admissible] at valid
  have rebuilt := rebuildWorld_eq inMemory grammatical awaits
  obtain ⟨last, installed⟩ := installRecords_spec awaits
  unfold deserializeWorldSnapshot
  rw [valid, if_pos rfl]
  dsimp only
  rw [rebuilt]
  refine ⟨rfl, rfl, last, ?_⟩
  funext e
  rw [Traced.andThen_state, installed,
    clear_contents stable idle.outside]
  unfold Contents.ofRecords
  cases records.find? fun record => record.id = e.id <;> rfl

/-- Loading is all or nothing exactly when pass 1 accepts nothing but
snapshots. -/
theorem loadsAllOrNothing_iff
    (stable : w.Stable registry) (idle : w.Idle) {data : List UInt8}
    (inMemory : data.length < sizeLimit) :
    LoadsAllOrNothing registry w data ↔
      (validateSnapshot registry ⟨data, 0⟩ = true →
        (parseSnapshot registry data).isSome) := by
  constructor
  · rintro (⟨_, _, nothing⟩ | ⟨_, records, parsed, _⟩) valid
    · unfold deserializeWorldSnapshot clear at nothing
      rw [valid, if_pos rfl, idle.outside] at nothing
      exact absurd nothing (by simp [Traced.andThen])
    · rw [parsed]
      rfl
  · intro condition
    cases valid : validateSnapshot registry ⟨data, 0⟩ with
    | false =>
        have refused : deserializeWorldSnapshot registry w ⟨data, 0⟩ =
            (.pure w, false) := by
          unfold deserializeWorldSnapshot
          rw [valid]
          rfl
        unfold LoadsAllOrNothing
        rw [refused]
        exact Or.inl ⟨rfl, rfl, rfl⟩
    | true =>
        obtain ⟨records, parsed⟩ :=
          Option.isSome_iff_exists.mp (condition valid)
        obtain ⟨succeeds, _, awaits, contentsEq⟩ :=
          deserializeWorldSnapshot_of_parsed stable idle inMemory parsed
        refine Or.inr ⟨succeeds, records, parsed, ?_⟩
        rw [← contentsEq]
        exact represents_contents awaits.stable.consistent

/-- One entity with one component of one byte. -/
theorem loadsAllOrNothing_iff_health :
    let registry := ComponentRegistry.healthRegistry
    let data : List UInt8 :=
      [1, 0, 1, 0, 0, 0, 2, 0, 0, 0, 0, 0, 0, 0, 1, 0, 1, 0, 0, 0, 7]
    LoadsAllOrNothing registry (World.empty registry) data ↔
      (validateSnapshot registry ⟨data, 0⟩ = true →
        (parseSnapshot registry data).isSome) :=
  loadsAllOrNothing_iff (empty_stable _) rfl (by decide)

end World

/-- A script component whose exact wire size is 2 ^ 64 + 1, which `size_t`
computes as one byte. -/
def ComponentRegistry.crateRegistry : ComponentRegistry :=
  (registerSchemaComponent .singlePrecision {} "Crate"
    [{ name := "first", type := .blob, count := 2 ^ 63 - 1 },
      { name := "second", type := .blob, count := 2 ^ 63 - 1 },
      { name := "seal", type := .u16 },
      { name := "open", type := .bool }]).2

/-- Pass 1 skips one byte for a component that pass 2 cannot read: the world was
cleared before the load fails. -/
theorem World.not_loadsAllOrNothing_crate :
    let registry := ComponentRegistry.crateRegistry
    ¬LoadsAllOrNothing registry
      (WorldOp.run registry [.createEntity]).state
      [1, 0, 1, 0, 0, 0, 2, 0, 0, 0, 0, 0, 0, 0, 1, 0, 1, 0, 0, 0, 1] := by
  dsimp only
  rintro (⟨_, _, nothing⟩ | ⟨accepted, _⟩)
  · have noEffects := congrArg List.length nothing
    revert noEffects
    decide
  · revert accepted
    decide

end VortarisECS
