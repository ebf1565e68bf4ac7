import VortarisECS.Network.Client

/-!
# Applying a full state

A full state whose ids are admissible replaces every entity it lists and removes
the formerly replicated ones it does not list; any other one is ignored.
-/

namespace VortarisECS

/-- A stable world with nothing going on. -/
structure World.AtRest (registry : ComponentRegistry) (w : World) : Prop where
  stable : w.Stable registry
  idle : w.Idle

namespace Client

variable {registry : ComponentRegistry} {format : PayloadFormat}
variable {c : Client} {w : World}

/-- The entity is gone if it was there. -/
theorem destroyIfAlive_spec (rest : w.AtRest registry) (e : Entity) :
    (destroyIfAlive w e).state.AtRest registry ∧
    (destroyIfAlive w e).state.contents = w.contents.kill e := by
  unfold destroyIfAlive
  split
  · exact ⟨⟨rest.stable.keeps (World.destroyEntity_realizes e)
        (World.destroyEntity_createsNothing w e),
      (World.destroyEntity_control w e).trans rest.idle⟩,
      World.destroyEntity_contents rest.stable.consistent rest.idle.outside⟩
  · rename_i dead
    rw [Bool.not_eq_true] at dead
    exact ⟨rest, (Contents.kill_of_dead (World.contents_of_dead dead)).symm⟩

/-! ## Rebuilding -/

/-- What rebuilding a record does to a world. -/
def reinstallRecord (registry : ComponentRegistry) (w : World)
    (record : EntityRecord) : Traced Effect World :=
  (destroyIfAlive w ⟨record.id⟩).andThen fun v =>
    World.installRecord registry v record

/-- What rebuilding a record does to a client. -/
def rebuild (registry : ComponentRegistry) (c : Client)
    (record : EntityRecord) : Traced Effect Client :=
  (c.onWorld (reinstallRecord registry c.world record)).mapState
    (·.track ⟨record.id⟩)

/-- A destroyed entity can be created again under its accepted id. -/
theorem destroyIfAlive_awaits
    (rest : w.AtRest registry) {record : EntityRecord}
    (accepted : idRefused record.id = false) :
    (destroyIfAlive w ⟨record.id⟩).state.Awaits registry [record] := by
  obtain ⟨after, killed⟩ := destroyIfAlive_spec rest ⟨record.id⟩
  refine ⟨after.stable, after.idle, fun other member => ?_,
    fun other member => ?_, List.nodup_singleton _⟩
  · rw [List.mem_singleton.mp member, ← World.contents_isSome, killed,
      Contents.kill_self]
    rfl
  · rw [List.mem_singleton.mp member]
    exact accepted

/-- The record replaces the entity. -/
theorem reinstallRecord_spec
    (rest : w.AtRest registry) {record : EntityRecord}
    (accepted : idRefused record.id = false) :
    (reinstallRecord registry w record).state.AtRest registry ∧
    ∀ e, (reinstallRecord registry w record).state.contents e =
      if e = ⟨record.id⟩ then some (record.components registry)
      else w.contents e := by
  obtain ⟨installed, contentsEq⟩ := World.installRecord_spec
    (destroyIfAlive_awaits rest accepted)
  refine ⟨⟨installed.stable, installed.idle⟩, fun e => ?_⟩
  unfold reinstallRecord
  rw [Traced.andThen_state, contentsEq, (destroyIfAlive_spec rest _).2]
  by_cases isSelf : e = ⟨record.id⟩
  · rw [if_pos isSelf, if_pos isSelf]
  · rw [if_neg isSelf, if_neg isSelf, Contents.kill_of_ne _ isSelf]

/-- The client can take in the records: their ids are accepted. -/
structure Accepts (registry : ComponentRegistry) (c : Client)
    (records : List EntityRecord) : Prop where
  rest : c.world.AtRest registry
  accepted : ∀ record ∈ records, idRefused record.id = false

/-- A record of a full state is rebuilt as it is parsed. -/
theorem rebuildRecord_performs :
    (rebuildRecord registry format).Performs
      (fun c record => c.Accepts registry [record])
      (recordParser registry format) (rebuild registry) := by
  intro c buf input record rest accepts remaining parsed
  obtain ⟨id, between, parsedId, parsedContent⟩ :=
    Parser.andThen_eq_some.mp parsed
  obtain ⟨blocks, parsedBlocks, rfl⟩ := Parser.map_eq_some.mp parsedContent
  obtain ⟨readId, after⟩ := BinaryBuffer.readNumber_follows 8 buf input id
    between remaining parsedId
  have readId' : buf.readU64 = some (id, buf.upTo between) := readId
  have accepted : idRefused (UInt64.ofNat id) = false :=
    accepts.accepted _ (List.mem_singleton_self _)
  have awaits := destroyIfAlive_awaits accepts.rest
    (accepts.accepted _ (List.mem_singleton_self _))
  obtain ⟨handle, hosts, _⟩ := World.createEntityPreassigned_spec awaits.stable
    awaits.idle accepted (awaits.dead _ (List.mem_singleton_self _))
  obtain ⟨received, last⟩ := World.receiveBlocks_performs _ (buf.upTo between)
    between blocks rest hosts after parsedBlocks
  refine ⟨?_, last⟩
  unfold rebuildRecord rebuild reinstallRecord World.installRecord
  rw [readId']
  dsimp only [Traced.andThen_state]
  rw [handle, if_neg (World.real_of_accepted accepted), received,
    BinaryBuffer.upTo_upTo]
  dsimp only [Traced.andThen]
  rw [List.append_assoc]

/-- A client that takes the records takes the rest after the first. -/
theorem Accepts.tail
    {record : EntityRecord} {records : List EntityRecord}
    (accepts : c.Accepts registry (record :: records)) :
    (rebuild registry c record).state.Accepts registry records where
  rest := (reinstallRecord_spec accepts.rest
    (accepts.accepted record List.mem_cons_self)).1
  accepted later member :=
    accepts.accepted later (List.mem_cons_of_mem record member)

/-- All records are rebuilt as they are parsed. -/
theorem rebuildRecords_performs (count : Nat) :
    ((rebuildRecord registry format).times count).Performs
      (fun c records => c.Accepts registry records)
      (Parser.many count (recordParser registry format))
      (fun c records => Traced.forEach (rebuild registry) c records) :=
  rebuildRecord_performs.times
    (fun _ _ _ pends => ⟨pends.rest, fun other member =>
      pends.accepted other (List.mem_cons.mpr
        (Or.inl (List.mem_singleton.mp member)))⟩)
    (fun _ _ _ pends => pends.tail) count

/-- Rebuilding records with different ids. -/
theorem rebuild_all
    {records : List EntityRecord} (accepts : c.Accepts registry records)
    (once : (records.map EntityRecord.id).Nodup) :
    let rebuilt := (Traced.forEach (rebuild registry) c records).state
    rebuilt.world.AtRest registry ∧
    (∀ e, rebuilt.world.contents e =
      match records.find? fun record => record.id = e.id with
      | some record => some (record.components registry)
      | none => c.world.contents e) ∧
    ∀ e, e ∈ rebuilt.replicated ↔
      e ∈ c.replicated ∨ e.id ∈ records.map EntityRecord.id := by
  induction records generalizing c with
  | nil =>
      exact ⟨accepts.rest, fun _ => rfl, fun e => by simp⟩
  | cons record records inductionHypothesis =>
      obtain ⟨_, installed⟩ := reinstallRecord_spec accepts.rest
        (accepts.accepted record List.mem_cons_self)
      rw [List.map_cons, List.nodup_cons] at once
      obtain ⟨rest, contentsEq, tracked⟩ :=
        inductionHypothesis accepts.tail once.2
      dsimp only
      rw [Traced.forEach_cons, Traced.andThen_state]
      refine ⟨rest, fun e => ?_, fun e => ?_⟩
      · rw [contentsEq, List.find?_cons]
        by_cases isSelf : record.id = e.id
        · rw [← isSelf, find?_record_eq_none once.1, decide_eq_true rfl]
          exact (installed e).trans (if_pos (by rw [isSelf]))
        · rw [decide_eq_false isSelf]
          cases records.find? fun later => later.id = e.id with
          | some later => rfl
          | none =>
              exact (installed e).trans
                (if_neg fun same => isSelf (congrArg Entity.id same).symm)
      · rw [tracked]
        change e ∈ c.replicated.insert ⟨record.id⟩ ∨ _ ↔ _
        rw [List.mem_insert_iff, List.map_cons, List.mem_cons,
          or_comm (a := e = _), or_assoc]
        exact or_congr_right (or_congr_left
          ⟨congrArg Entity.id, fun same => congrArg Entity.mk same⟩)

/-! ## Removing ghosts -/

/-- The sweep removes every formerly replicated entity that did not come in. -/
theorem sweep_all
    (rest : w.AtRest registry) (incoming former : List Entity) :
    let swept := (Traced.forEach (sweepGhost incoming) w former).state
    swept.AtRest registry ∧
    ∀ e, swept.contents e =
      if e ∈ former ∧ e ∉ incoming then none else w.contents e := by
  induction former generalizing w with
  | nil => exact ⟨rest, fun e => by simp⟩
  | cons ghost former inductionHypothesis =>
      have first : (sweepGhost incoming w ghost).state.AtRest registry ∧
          ∀ e, (sweepGhost incoming w ghost).state.contents e =
            if e = ghost ∧ e ∉ incoming then none else w.contents e := by
        unfold sweepGhost
        by_cases known : ghost ∈ incoming
        · rw [if_pos known]
          refine ⟨rest, fun e => ?_⟩
          rw [if_neg fun both => both.2 (by rw [both.1]; exact known)]
          rfl
        · rw [if_neg known]
          obtain ⟨after, killed⟩ := destroyIfAlive_spec rest ghost
          refine ⟨after, fun e => ?_⟩
          rw [killed]
          by_cases isGhost : e = ghost
          · rw [if_pos ⟨isGhost, by rw [isGhost]; exact known⟩, isGhost,
              Contents.kill_self]
          · rw [if_neg fun both => isGhost both.1,
              Contents.kill_of_ne _ isGhost]
      obtain ⟨after, removed⟩ := first
      obtain ⟨last, removedLater⟩ := inductionHypothesis after
      refine ⟨last, fun e => ?_⟩
      rw [Traced.forEach_cons, Traced.andThen_state, removedLater, removed]
      by_cases isGhost : e = ghost
      · subst isGhost
        by_cases came : e ∈ incoming <;> by_cases later : e ∈ former <;>
          simp [came, later]
      · by_cases came : e ∈ incoming <;> by_cases later : e ∈ former <;>
          simp [came, later, isGhost]

/-! ## The whole packet -/

/-- A full state in the grammar passes the check. -/
theorem applyPacket_fullState
    {data : List UInt8} (inMemory : data.length < sizeLimit)
    {packet : SyncPacket}
    (parsed : parsePacket registry .fullState data = some packet) :
    c.applyPacket registry .fullState data = c.applyFullState registry data :=
  applyPacket_of_accepted (validatePacket_of_parsed inMemory parsed)

/-- What a full state in the grammar does. -/
theorem applyFullState_of_parsed
    (rest : c.world.AtRest registry) {data : List UInt8}
    (inMemory : data.length < sizeLimit) {records : List EntityRecord}
    (parsed : parsePacket registry .fullState data =
      some (.fullState records)) :
    c.applyFullState registry data =
      if Admissible records [] then
        (Traced.forEach (rebuild registry) ⟨c.world, []⟩ records).andThen
          fun incoming => incoming.onWorld (Traced.forEach
            (sweepGhost incoming.replicated) incoming.world c.replicated)
      else .pure c := by
  obtain ⟨version, headed, count, buf, input, readVersion, readCount, remaining,
    parsedRecords⟩ := fullState_reads inMemory parsed
  have scanned := (scanRecords_eq [] remaining parsedRecords).1
  unfold applyFullState walkFullState
  rw [readVersion]
  dsimp only
  rw [readCount]
  dsimp only
  rw [scanned]
  by_cases admissible : Admissible records []
  · have accepts : Accepts registry ⟨c.world, []⟩ records :=
      ⟨rest, fun record member => (admissible.1 record member).1⟩
    have performed := (rebuildRecords_performs count _ buf input records []
      accepts remaining parsedRecords).1
    rw [if_pos admissible, if_pos admissible]
    dsimp only
    rw [performed]
  · rw [if_neg admissible, if_neg admissible]

/-- A full state with admissible ids installs its records and removes the
formerly replicated entities it does not list. -/
theorem applyFullState_installs
    (rest : c.world.AtRest registry) {data : List UInt8}
    (inMemory : data.length < sizeLimit) {records : List EntityRecord}
    (parsed : parsePacket registry .fullState data = some (.fullState records))
    (admissible : Admissible records []) :
    let applied := (c.applyFullState registry data).state
    applied.world.AtRest registry ∧
    (∀ e, applied.world.contents e =
      match records.find? fun record => record.id = e.id with
      | some record => some (record.components registry)
      | none => if e ∈ c.replicated then none else c.world.contents e) ∧
    ∀ e, e ∈ applied.replicated ↔ e.id ∈ records.map EntityRecord.id := by
  have accepts : Accepts registry ⟨c.world, []⟩ records :=
    ⟨rest, fun record member => (admissible.1 record member).1⟩
  obtain ⟨rebuilt, contentsEq, tracked⟩ := rebuild_all accepts admissible.2
  obtain ⟨swept, removed⟩ := sweep_all rebuilt
    (Traced.forEach (rebuild registry) ⟨c.world, []⟩ records).state.replicated
    c.replicated
  have came : ∀ e, e ∈ (Traced.forEach (rebuild registry) ⟨c.world, []⟩
      records).state.replicated ↔ e.id ∈ records.map EntityRecord.id :=
    fun e => (tracked e).trans (by simp)
  dsimp only
  rw [applyFullState_of_parsed rest inMemory parsed, if_pos admissible]
  refine ⟨swept, fun e => ?_, came⟩
  rw [Traced.andThen_state, onWorld_world, removed, contentsEq]
  cases listed : records.find? fun record => record.id = e.id with
  | some record =>
      have member : e.id ∈ records.map EntityRecord.id := by
        have same := List.find?_some listed
        rw [← of_decide_eq_true same]
        exact List.mem_map_of_mem (List.mem_of_find?_eq_some listed)
      rw [if_neg fun both => both.2 ((came e).mpr member)]
  | none =>
      have absent : e.id ∉ records.map EntityRecord.id := by
        intro member
        obtain ⟨record, recordMember, same⟩ := List.mem_map.mp member
        exact absurd (decide_eq_true same)
          (List.find?_eq_none.mp listed record recordMember)
      have notCame := mt (came e).mp absent
      by_cases former : e ∈ c.replicated
      · rw [if_pos ⟨former, notCame⟩, if_pos former]
      · rw [if_neg fun both => former both.1, if_neg former]

end Client
end VortarisECS
