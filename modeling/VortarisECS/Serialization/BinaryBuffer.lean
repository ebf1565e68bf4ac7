import VortarisECS.Core.Schema
import VortarisECS.Library.Parser

/-!
# Binary buffers

A buffer is a byte string with a cursor.  Writes append; reads take bytes from
the cursor on and fail when the buffer runs out.  `read_bytes` and the callers
that skip a block add a `size_t` to the cursor, which may wrap.
-/

namespace VortarisECS

/-- Bytes, and the position of the cursor. -/
structure BinaryBuffer where
  data : List UInt8 := []
  pos : Nat := 0
  deriving DecidableEq, Repr

namespace BinaryBuffer

/-- The number of bytes. -/
def size (b : BinaryBuffer) : Nat := b.data.length

/-- The cursor is at the end. -/
def atEnd (b : BinaryBuffer) : Bool := decide (b.pos ≥ b.size)

/-- Move the cursor, at most to the end. -/
def seek (b : BinaryBuffer) (pos : Nat) : BinaryBuffer :=
  { b with pos := if pos < b.size then pos else b.size }

/-! ## Writing -/

/-- Append bytes. -/
def writeBytes (b : BinaryBuffer) (bytes : List UInt8) : BinaryBuffer where
  data := b.data ++ bytes
  pos := b.pos + bytes.length

/-- The fixed-width writes `write_u8` to `write_u64`. -/
def writeNumber (b : BinaryBuffer) (width value : Nat) : BinaryBuffer :=
  b.writeBytes (littleEndian width value)

/-- Append a byte. -/
def writeU8 (b : BinaryBuffer) (value : Nat) : BinaryBuffer :=
  b.writeNumber 1 value

/-- Append a number of two bytes. -/
def writeU16 (b : BinaryBuffer) (value : Nat) : BinaryBuffer :=
  b.writeNumber 2 value

/-- Append a number of four bytes. -/
def writeU32 (b : BinaryBuffer) (value : Nat) : BinaryBuffer :=
  b.writeNumber 4 value

/-- Append a number of eight bytes. -/
def writeU64 (b : BinaryBuffer) (value : Nat) : BinaryBuffer :=
  b.writeNumber 8 value

/-- Replace four bytes; without room for them nothing happens. -/
def overwriteU32 (b : BinaryBuffer) (pos value : Nat) : BinaryBuffer :=
  if pos + 4 > b.size then b
  else { b with data := overlay b.data pos (littleEndian 4 value) }

@[simp] theorem writeBytes_nil (b : BinaryBuffer) : b.writeBytes [] = b := by
  unfold writeBytes
  rw [List.append_nil]
  rfl

/-- Two writes are one. -/
theorem writeBytes_writeBytes
    (b : BinaryBuffer) (first second : List UInt8) :
    (b.writeBytes first).writeBytes second = b.writeBytes (first ++ second) := by
  unfold writeBytes
  rw [List.append_assoc, List.length_append, Nat.add_assoc]

/-- Writing items one after the other. -/
theorem foldl_writeBytes
    {step : BinaryBuffer → α → BinaryBuffer} {encode : α → List UInt8}
    {items : List α}
    (writes : ∀ item ∈ items, ∀ b : BinaryBuffer,
      step b item = b.writeBytes (encode item)) (b : BinaryBuffer) :
    items.foldl step b = b.writeBytes (items.flatMap encode) := by
  induction items generalizing b with
  | nil => exact (writeBytes_nil b).symm
  | cons item items inductionHypothesis =>
      rw [List.foldl_cons, writes item List.mem_cons_self,
        inductionHypothesis fun later member =>
          writes later (List.mem_cons_of_mem item member),
        writeBytes_writeBytes, List.flatMap_cons]

/-! ## Reading -/

/-- The fixed-width reads `read_u8` to `read_u64`. -/
def readNumber (b : BinaryBuffer) (width : Nat) :
    Option (Nat × BinaryBuffer) :=
  if b.pos + width > b.size then none
  else some (ofLittleEndian (window b.data b.pos width),
    { b with pos := b.pos + width })

/-- Read a byte. -/
def readU8 (b : BinaryBuffer) : Option (Nat × BinaryBuffer) := b.readNumber 1

/-- Read a number of two bytes. -/
def readU16 (b : BinaryBuffer) : Option (Nat × BinaryBuffer) := b.readNumber 2

/-- Read a number of four bytes. -/
def readU32 (b : BinaryBuffer) : Option (Nat × BinaryBuffer) := b.readNumber 4

/-- Read a number of eight bytes. -/
def readU64 (b : BinaryBuffer) : Option (Nat × BinaryBuffer) := b.readNumber 8

/-- Read bytes; the position wraps around at 2^64. -/
def readBytes (b : BinaryBuffer) (count : Nat) :
    Option (List UInt8 × BinaryBuffer) :=
  if sizeT (b.pos + count) > b.size then none
  else some (window b.data b.pos count,
    { b with pos := sizeT (b.pos + count) })

/-- Skip a block: the check and the seek of every walk that does not copy. -/
def skip (b : BinaryBuffer) (count : Nat) : Option BinaryBuffer :=
  if sizeT (b.pos + count) > b.size then none
  else some (b.seek (sizeT (b.pos + count)))

/-! ## What is left to read -/

/-- `rest` is what the cursor has not passed yet. -/
structure Remaining (b : BinaryBuffer) (rest : List UInt8) : Prop where
  inside : b.pos ≤ b.data.length
  drop_eq : b.data.drop b.pos = rest
  inMemory : b.data.length < sizeLimit

/-- The buffer with the cursor moved to where `rest` is left. -/
def upTo (b : BinaryBuffer) (rest : List UInt8) : BinaryBuffer :=
  { b with pos := b.data.length - rest.length }

@[simp] theorem upTo_data (b : BinaryBuffer) (rest : List UInt8) :
    (b.upTo rest).data = b.data := rfl

@[simp] theorem upTo_upTo (b : BinaryBuffer) (first second : List UInt8) :
    (b.upTo first).upTo second = b.upTo second := rfl

/-- What is left ends where the data does. -/
theorem Remaining.length_eq
    {b : BinaryBuffer} {rest : List UInt8} (remaining : b.Remaining rest) :
    b.pos + rest.length = b.data.length := by
  have inside := remaining.inside
  rw [← remaining.drop_eq, List.length_drop]
  omega

theorem Remaining.upTo_self
    {b : BinaryBuffer} {rest : List UInt8} (remaining : b.Remaining rest) :
    b.upTo rest = b := by
  have lengthEq := remaining.length_eq
  unfold upTo
  rw [show b.data.length - rest.length = b.pos by omega]

/-- Moving the cursor over `count` bytes. -/
theorem Remaining.advance
    {b : BinaryBuffer} {rest : List UInt8} (remaining : b.Remaining rest)
    {count : Nat} (fits : count ≤ rest.length) :
    (b.upTo (rest.drop count)).Remaining (rest.drop count) ∧
    (b.upTo (rest.drop count)).pos = b.pos + count := by
  have lengthEq := remaining.length_eq
  have posEq : (b.upTo (rest.drop count)).pos = b.pos + count := by
    change b.data.length - (rest.drop count).length = _
    rw [List.length_drop]
    omega
  refine ⟨⟨?_, ?_, remaining.inMemory⟩, posEq⟩
  · rw [posEq, upTo_data]
    omega
  · rw [posEq, upTo_data, ← List.drop_drop, remaining.drop_eq]

/-- At the start everything is left. -/
theorem remaining_start
    {data : List UInt8} (inMemory : data.length < sizeLimit) :
    Remaining ⟨data, 0⟩ data :=
  ⟨Nat.zero_le _, rfl, inMemory⟩

/-- A window at the cursor is the front of what is left. -/
theorem Remaining.window_eq
    {b : BinaryBuffer} {rest : List UInt8} (remaining : b.Remaining rest)
    (count : Nat) : window b.data b.pos count = rest.take count := by
  rw [window, remaining.drop_eq]

/-- The buffer is at its end when nothing is left. -/
theorem Remaining.atEnd_iff
    {b : BinaryBuffer} {rest : List UInt8} (remaining : b.Remaining rest) :
    b.atEnd = true ↔ rest = [] := by
  have lengthEq := remaining.length_eq
  rw [atEnd, decide_eq_true_iff, size, ← List.length_eq_zero_iff]
  omega

/-- A read of the buffer follows a parser of its remaining bytes. -/
def Follows (read : BinaryBuffer → Option (α × BinaryBuffer))
    (parser : Parser α) : Prop :=
  ∀ b input value rest, b.Remaining input →
    parser input = some (value, rest) →
    read b = some (value, b.upTo rest) ∧ (b.upTo rest).Remaining rest

/-- Reading a number is what the parser does. -/
theorem readNumber_follows (width : Nat) :
    Follows (·.readNumber width) (Parser.number width) := by
  intro b input value rest remaining parsed
  obtain ⟨fits, rfl, rfl⟩ := Parser.number_eq_some.mp parsed
  obtain ⟨after, posEq⟩ := remaining.advance fits
  have lengthEq := remaining.length_eq
  refine ⟨?_, after⟩
  dsimp only
  unfold readNumber
  rw [if_neg (by rw [size]; omega), remaining.window_eq]
  congr 2
  rw [← posEq]
  rfl

/-- Reading bytes is what the parser does. -/
theorem readBytes_follows (count : Nat) :
    Follows (·.readBytes count) (Parser.bytes count) := by
  intro b input value rest remaining parsed
  obtain ⟨fits, rfl, rfl⟩ := Parser.bytes_eq_some.mp parsed
  obtain ⟨after, posEq⟩ := remaining.advance fits
  have lengthEq := remaining.length_eq
  have inMemory := remaining.inMemory
  refine ⟨?_, after⟩
  dsimp only
  unfold readBytes
  rw [sizeT_of_lt (by omega), if_neg (by rw [size]; omega), remaining.window_eq]
  congr 2
  rw [← posEq]
  rfl

/-- Skipping inside the data moves the cursor. -/
theorem skip_follows
    {b : BinaryBuffer} {input : List UInt8} (remaining : b.Remaining input)
    {count : Nat} (fits : count ≤ input.length) :
    b.skip count = some (b.upTo (input.drop count)) := by
  obtain ⟨_, posEq⟩ := remaining.advance fits
  have lengthEq := remaining.length_eq
  have inMemory := remaining.inMemory
  unfold skip
  rw [sizeT_of_lt (by omega), if_neg (by rw [size]; omega)]
  congr 1
  unfold seek upTo size
  rw [List.length_drop]
  split
  · congr 1
    omega
  · congr 1
    omega

/-! ## What has been written -/

/-- The bytes written into a fresh buffer, in order. -/
@[simp] theorem writeBytes_data (b : BinaryBuffer) (bytes : List UInt8) :
    (b.writeBytes bytes).data = b.data ++ bytes := rfl

@[simp] theorem writeNumber_data (b : BinaryBuffer) (width value : Nat) :
    (b.writeNumber width value).data = b.data ++ littleEndian width value := rfl

/-- A buffer that has only been written to has its cursor at the end. -/
def Written (b : BinaryBuffer) : Prop := b.pos = b.data.length

/-- Writing keeps a buffer written from its start. -/
theorem Written.writeBytes
    {b : BinaryBuffer} (written : b.Written) (bytes : List UInt8) :
    (b.writeBytes bytes).Written := by
  unfold Written at written ⊢
  rw [writeBytes_data, List.length_append, ← written]
  rfl

end BinaryBuffer
end VortarisECS
