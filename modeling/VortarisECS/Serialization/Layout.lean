import VortarisECS.Serialization.ComponentSerializer

/-!
# Component layouts

The layout of a script component is computed in `size_t`.  As long as the exact
layout fits, the fields lie inside the component one after the other.
-/

namespace VortarisECS

/-! ## The exact layout -/

/-- The storage a raw field asks for. -/
def FieldDescriptor.exactStorage (godot : GodotTypes) (fd : FieldDescriptor) :
    Nat :=
  match fd.type with
  | .stringFixed | .blob => fd.count
  | type => fieldTypeSize godot type * (if fd.count > 0 then fd.count else 1)

/-- The first multiple of an alignment from `value` on. -/
def exactAlignUp (value align : Nat) : Nat := (value + align - 1) / align * align

/-- The first offset behind the fields, without overflow. -/
def layoutEnd (godot : GodotTypes) : List FieldDescriptor → Nat → Nat
  | [], offset => offset
  | fd :: rest, offset =>
      layoutEnd godot rest
        (exactAlignUp offset (fieldTypeAlign godot fd.type) +
          fd.exactStorage godot)

/-- The strictest alignment of the fields. -/
def widestAlign (godot : GodotTypes) (fields : List FieldDescriptor) : Nat :=
  fields.foldr (fun fd widest => max (fieldTypeAlign godot fd.type) widest) 1

/-- The layout of the raw fields does not overflow `size_t`. -/
def FitsMemory (godot : GodotTypes) (fields : List FieldDescriptor) : Prop :=
  layoutEnd godot fields 0 + widestAlign godot fields ≤ sizeLimit

instance (godot : GodotTypes) (fields : List FieldDescriptor) :
    Decidable (FitsMemory godot fields) :=
  inferInstanceAs (Decidable (_ ≤ _))

theorem le_exactAlignUp
    {align : Nat} (positive : 0 < align) (value : Nat) :
    value ≤ exactAlignUp value align := by
  have split := Nat.div_add_mod (value + align - 1) align
  have small := Nat.mod_lt (value + align - 1) positive
  unfold exactAlignUp
  rw [Nat.mul_comm]
  omega

/-- The wrapped alignment is the exact one while nothing wraps. -/
theorem alignUp_eq_exact
    {value align : Nat} (fits : value + align ≤ sizeLimit)
    (positive : 0 < align) : alignUp value align = exactAlignUp value align := by
  unfold alignUp exactAlignUp
  rw [sizeT_of_lt (by omega)]

theorem exactAlignUp_le
    (value align : Nat) : exactAlignUp value align ≤ value + align - 1 :=
  Nat.div_mul_le_self _ _

/-- Laying out only moves forward. -/
theorem le_layoutEnd
    (godot : GodotTypes) (fields : List FieldDescriptor) (offset : Nat)
    (positive : ∀ fd ∈ fields, 0 < fieldTypeAlign godot fd.type) :
    offset ≤ layoutEnd godot fields offset := by
  induction fields generalizing offset with
  | nil => exact le_rfl
  | cons fd fields inductionHypothesis =>
      have aligned := le_exactAlignUp (positive fd List.mem_cons_self) offset
      have rest := inductionHypothesis
        (exactAlignUp offset (fieldTypeAlign godot fd.type) +
          fd.exactStorage godot)
        fun later member => positive later (List.mem_cons_of_mem fd member)
      rw [layoutEnd]
      omega

/-- No field is aligned to nought. -/
theorem fieldTypeAlign_pos (godot : GodotTypes) (type : FieldType) :
    0 < fieldTypeAlign godot type := by
  unfold fieldTypeAlign
  split <;> first | decide | exact godot.alignOf_pos _

theorem widestAlign_pos (godot : GodotTypes) (fields : List FieldDescriptor) :
    0 < widestAlign godot fields := by
  cases fields with
  | nil => exact Nat.one_pos
  | cons fd fields =>
      exact lt_of_lt_of_le (fieldTypeAlign_pos godot fd.type)
        (Nat.le_max_left _ _)

theorem fieldTypeSize_scalar
    (godot : GodotTypes) {type : FieldType} {width : Nat}
    (scalar : type.scalarWidth = some width) :
    fieldTypeSize godot type = width := by
  cases type <;> simp_all [FieldType.scalarWidth, fieldTypeSize]

/-- What `sizeField` makes of a raw field that fits. -/
theorem sizeField_spec
    {godot : GodotTypes} {fd sized : FieldDescriptor} {elemAlign : Nat}
    (sizes : sizeField godot fd = some (sized, elemAlign))
    (fits : fd.exactStorage godot < sizeLimit) :
    elemAlign = fieldTypeAlign godot fd.type ∧
    sized.byteSize = fd.exactStorage godot ∧
    sized.type = fd.type ∧ sized.count = fd.count := by
  unfold sizeField at sizes
  unfold FieldDescriptor.exactStorage at fits ⊢
  split at sizes
  · rename_i isString
    rw [Option.some.injEq, Prod.mk.injEq] at sizes
    rw [← sizes.1, ← sizes.2, isString]
    exact ⟨rfl, rfl, rfl, rfl⟩
  · rename_i isBlob
    rw [Option.some.injEq, Prod.mk.injEq] at sizes
    rw [← sizes.1, ← sizes.2, isBlob]
    exact ⟨rfl, rfl, rfl, rfl⟩
  · rename_i notString notBlob
    dsimp only at sizes
    split at sizes
    · exact absurd sizes (by simp)
    · rw [Option.some.injEq, Prod.mk.injEq] at sizes
      rw [← sizes.1, ← sizes.2]
      split at fits
      · rename_i isString
        exact absurd isString notString
      · rename_i isBlob
        exact absurd isBlob notBlob
      · exact ⟨rfl, sizeT_of_lt fits, rfl, rfl⟩

/-! ## Laid-out fields -/

/-- A raw field is no larger than the layout it is part of. -/
theorem exactStorage_le_layoutEnd
    (godot : GodotTypes) {fields : List FieldDescriptor} {fd : FieldDescriptor}
    (member : fd ∈ fields) (offset : Nat) :
    fd.exactStorage godot ≤ layoutEnd godot fields offset := by
  induction fields generalizing offset with
  | nil => exact absurd member List.not_mem_nil
  | cons head fields inductionHypothesis =>
      rw [layoutEnd]
      obtain rfl | member := List.mem_cons.mp member
      · have later := le_layoutEnd godot fields
          (exactAlignUp offset (fieldTypeAlign godot fd.type) +
            fd.exactStorage godot)
          fun later _ => fieldTypeAlign_pos godot later.type
        omega
      · exact inductionHypothesis member _

/-- A laid-out list begins with a laid-out field. -/
theorem layoutFields_cons
    {godot : GodotTypes} {fd : FieldDescriptor}
    {raw fields : List FieldDescriptor} {offset maxAlign finish align : Nat}
    (lays : layoutFields godot (fd :: raw) offset maxAlign =
      some (fields, finish, align)) :
    ∃ sized elemAlign placed, sizeField godot fd = some (sized, elemAlign) ∧
      fields = { sized with offset := alignUp offset elemAlign } :: placed ∧
      layoutFields godot raw (sizeT (alignUp offset elemAlign +
        sized.byteSize)) (max maxAlign elemAlign) =
          some (placed, finish, align) := by
  rw [layoutFields] at lays
  cases sizes : sizeField godot fd with
  | none =>
      rw [sizes] at lays
      exact absurd lays (by simp)
  | some sizedAlign =>
      rw [sizes] at lays
      dsimp only at lays
      split at lays
      · exact absurd lays (by simp)
      · rename_i placed laterFinish laterAlign later
        rw [Option.some.injEq, Prod.mk.injEq, Prod.mk.injEq] at lays
        obtain ⟨rfl, rfl, rfl⟩ := lays
        exact ⟨_, _, placed, rfl, rfl, later⟩

/-- Every field of a layout is a raw field, sized and rounded up. -/
theorem layoutFields_mem
    {godot : GodotTypes} {raw placed : List FieldDescriptor}
    {offset maxAlign finish align : Nat}
    (lays : layoutFields godot raw offset maxAlign =
      some (placed, finish, align)) {field : FieldDescriptor}
    (member : field ∈ placed) :
    ∃ fd ∈ raw, ∃ sized elemAlign start,
      sizeField godot fd = some (sized, elemAlign) ∧
      field = { sized with offset := alignUp start elemAlign } := by
  induction raw generalizing offset maxAlign placed with
  | nil =>
      rw [layoutFields, Option.some.injEq, Prod.mk.injEq] at lays
      rw [← lays.1] at member
      exact absurd member List.not_mem_nil
  | cons fd raw inductionHypothesis =>
      obtain ⟨sized, elemAlign, later, sizes, rfl, rest⟩ :=
        layoutFields_cons lays
      obtain rfl | inLater := List.mem_cons.mp member
      · exact ⟨fd, List.mem_cons_self, sized, elemAlign, offset, sizes, rfl⟩
      · obtain ⟨given, inRaw, fromGiven⟩ := inductionHypothesis rest inLater
        exact ⟨given, List.mem_cons_of_mem fd inRaw, fromGiven⟩

/-- The fields lie in `[start, finish)` one after the other, each with the
storage of all its elements. -/
structure LaidOut (fields : List FieldDescriptor) (start finish : Nat) :
    Prop where
  from_start : ∀ fd ∈ fields, start ≤ fd.offset
  inside : ∀ fd ∈ fields, fd.offset + fd.storageSize ≤ finish
  inOrder : fields.Pairwise fun fd later =>
    fd.offset + fd.storageSize ≤ later.offset
  scalarStorage : ∀ fd ∈ fields, ∀ width, fd.type.scalarWidth = some width →
    fd.storageSize = width * (if fd.count > 0 then fd.count else 1)

/-- A layout that fits puts every field into its place. -/
theorem layoutFields_laidOut
    {godot : GodotTypes} {raw placed : List FieldDescriptor}
    {offset maxAlign finish align : Nat}
    (lays : layoutFields godot raw offset maxAlign =
      some (placed, finish, align))
    (fits : layoutEnd godot raw offset + max maxAlign (widestAlign godot raw) ≤
      sizeLimit)
    (alignPositive : 0 < maxAlign) :
    LaidOut placed offset finish ∧ finish = layoutEnd godot raw offset ∧
    align = max maxAlign (widestAlign godot raw) := by
  induction raw generalizing offset maxAlign placed with
  | nil =>
      rw [layoutFields, Option.some.injEq, Prod.mk.injEq, Prod.mk.injEq] at lays
      obtain ⟨rfl, rfl, rfl⟩ := lays
      refine ⟨⟨?_, ?_, List.Pairwise.nil, ?_⟩, rfl, ?_⟩
      · exact fun fd member => absurd member List.not_mem_nil
      · exact fun fd member => absurd member List.not_mem_nil
      · exact fun fd member => absurd member List.not_mem_nil
      · exact (Nat.max_eq_left alignPositive).symm
  | cons fd raw inductionHypothesis =>
      have positive := fieldTypeAlign_pos godot fd.type
      have alignedFrom := le_exactAlignUp positive offset
      have laterEnd := le_layoutEnd godot raw
        (exactAlignUp offset (fieldTypeAlign godot fd.type) +
          fd.exactStorage godot)
        fun later _ => fieldTypeAlign_pos godot later.type
      have widest : widestAlign godot (fd :: raw) =
          max (fieldTypeAlign godot fd.type) (widestAlign godot raw) := rfl
      rw [layoutEnd, widest] at fits
      obtain ⟨sized, elemAlign, later, sizes, rfl, tail⟩ :=
        layoutFields_cons lays
      obtain ⟨rfl, storage, typeEq, countEq⟩ := sizeField_spec sizes (by omega)
      rw [alignUp_eq_exact (by omega) positive, storage,
        sizeT_of_lt (by omega)] at tail
      rw [alignUp_eq_exact (by omega) positive]
      obtain ⟨laid, finishEq, alignEq⟩ := inductionHypothesis tail
        (by rw [Nat.max_assoc]; exact fits) (by omega)
      refine ⟨⟨?_, ?_, ?_, ?_⟩, finishEq, ?_⟩
      · intro field member
        obtain rfl | member := List.mem_cons.mp member
        · exact alignedFrom
        · have := laid.from_start field member
          omega
      · intro field member
        obtain rfl | member := List.mem_cons.mp member
        · dsimp only [FieldDescriptor.storageSize]
          omega
        · exact laid.inside field member
      · refine List.Pairwise.cons (fun field member => ?_) laid.inOrder
        have behind := laid.from_start field member
        dsimp only [FieldDescriptor.storageSize]
        omega
      · intro field member width scalar
        obtain rfl | member := List.mem_cons.mp member
        · change sized.type.scalarWidth = some width at scalar
          change sized.byteSize =
            width * (if sized.count > 0 then sized.count else 1)
          rw [typeEq] at scalar
          rw [storage, countEq, ← fieldTypeSize_scalar godot scalar]
          unfold FieldDescriptor.exactStorage
          cases typeIs : fd.type <;>
            first
              | rfl
              | (rw [typeIs] at scalar
                 exact absurd scalar (by simp [FieldType.scalarWidth]))
        · exact laid.scalarStorage field member width scalar
      · rw [alignEq, widest, Nat.max_assoc]

/-- The schema computed for raw fields that fit. -/
theorem layoutSchema_laidOut
    {godot : GodotTypes} {name : String} {raw : List FieldDescriptor}
    {schema : ComponentSchema}
    (lays : layoutSchema godot name raw = some schema)
    (fits : FitsMemory godot raw) :
    LaidOut schema.fields 0 schema.size ∧ schema.size < sizeLimit := by
  have widestPositive := widestAlign_pos godot raw
  have oneMax : max 1 (widestAlign godot raw) = widestAlign godot raw :=
    Nat.max_eq_right widestPositive
  unfold FitsMemory at fits
  unfold layoutSchema at lays
  cases layout : layoutFields godot raw 0 1 with
  | none =>
      rw [layout] at lays
      exact absurd lays (by simp)
  | some placed =>
      obtain ⟨fields, finish, align⟩ := placed
      obtain ⟨laid, finishEq, alignEq⟩ := layoutFields_laidOut layout
        (by rw [oneMax]; exact fits) Nat.one_pos
      rw [layout] at lays
      dsimp only at lays
      rw [Option.some.injEq] at lays
      rw [← lays]
      dsimp only
      rw [oneMax] at alignEq
      subst finishEq alignEq
      rw [alignUp_eq_exact fits widestPositive]
      have upper := exactAlignUp_le (layoutEnd godot raw 0)
        (widestAlign godot raw)
      have lower := le_exactAlignUp widestPositive (layoutEnd godot raw 0)
      refine ⟨⟨laid.from_start, ?_, laid.inOrder, laid.scalarStorage⟩, ?_⟩
      · intro fd member
        exact (laid.inside fd member).trans lower
      · omega

/-- Fields taken from a layout still lie apart. -/
theorem LaidOut.sublist
    {fields fields' : List FieldDescriptor} {start finish : Nat}
    (laid : LaidOut fields start finish) (sub : fields'.Sublist fields) :
    LaidOut fields' start finish where
  from_start fd member := laid.from_start fd (sub.subset member)
  inside fd member := laid.inside fd (sub.subset member)
  inOrder := laid.inOrder.sublist sub
  scalarStorage fd member := laid.scalarStorage fd (sub.subset member)

/-- What a field sends is no longer than what it stores. -/
theorem LaidOut.fieldSize_le
    {fields : List FieldDescriptor} {start finish : Nat}
    (laid : LaidOut fields start finish) {fd : FieldDescriptor}
    (member : fd ∈ fields) : fieldSize fd ≤ fd.storageSize := by
  unfold fieldSize
  split
  · rename_i width scalar
    rw [laid.scalarStorage fd member width scalar]
    split
    · rename_i positive
      exact Nat.le_mul_of_pos_right width positive
    · exact (Nat.mul_one width).symm.le
  · exact le_rfl

/-- The fields of a layout that fits never get in each other's way. -/
theorem LaidOut.compatible
    {fields : List FieldDescriptor} {start finish : Nat}
    (laid : LaidOut fields start finish) (bytes : List UInt8) :
    Compatible finish (fieldPatches fields bytes) := by
  constructor
  · intro patch member i covers
    obtain ⟨fd, fdMember, offsetEq, shorter⟩ := mem_fieldPatches member
    have inside := laid.inside fd fdMember
    have stored := laid.fieldSize_le fdMember
    have below := covers.2
    omega
  · induction fields generalizing start bytes with
    | nil => exact List.Pairwise.nil
    | cons fd fields inductionHypothesis =>
        have tail := laid.sublist (List.sublist_cons_self fd fields)
        refine List.pairwise_cons.mpr ⟨?_, inductionHypothesis tail _⟩
        intro later member i covers coversLater
        obtain ⟨fd', fdMember, offsetEq, _⟩ := mem_fieldPatches member
        have apart := List.rel_of_pairwise_cons laid.inOrder fdMember
        have stored := laid.fieldSize_le List.mem_cons_self
        have taken : (bytes.take (fieldSize fd)).length ≤ fieldSize fd :=
          List.length_take_le _ _
        have below : i < fd.offset + (bytes.take (fieldSize fd)).length :=
          covers.2
        have above := coversLater.1
        omega

/-- The fields of a layout that fits can be sent. -/
theorem LaidOut.wireSize_le
    {fields : List FieldDescriptor} {start finish : Nat}
    (laid : LaidOut fields start finish) (ordered : start ≤ finish) :
    start + wireSize fields ≤ finish := by
  induction fields generalizing start with
  | nil => exact ordered
  | cons fd fields inductionHypothesis =>
      have split : wireSize (fd :: fields) =
          fieldSize fd + wireSize fields := rfl
      have sent := laid.fieldSize_le List.mem_cons_self
      have from_start := laid.from_start fd List.mem_cons_self
      have inside := laid.inside fd List.mem_cons_self
      have later : LaidOut fields (fd.offset + fd.storageSize) finish :=
        ⟨fun field member =>
            (List.pairwise_cons.mp laid.inOrder).1 field member,
          fun field member => laid.inside field (List.mem_cons_of_mem fd member),
          (List.pairwise_cons.mp laid.inOrder).2,
          fun field member =>
            laid.scalarStorage field (List.mem_cons_of_mem fd member)⟩
      have rest := inductionHypothesis later inside
      rw [split]
      omega

end VortarisECS
