import Mathlib.Data.Nat.Bits
import VortarisECS.Serialization.ComponentSerializer

/-!
# Field masks

A mask has one bit for each field of a component.  On the wire it is packed into
bytes, lowest bit first.
-/

namespace VortarisECS

/-- Eight mask bits as a byte, lowest first. -/
def maskByte (mask : List Bool) : Nat := (mask.take 8).foldr Nat.bit 0

/-- The bytes of a mask. -/
def packMask (mask : List Bool) : List Nat :=
  (List.range (fieldMaskBytes mask.length)).map fun b =>
    maskByte (mask.drop (8 * b))

/-- The mask of `fieldCount` bits the bytes denote. -/
def unpackMask (fieldCount : Nat) (bytes : List Nat) : List Bool :=
  (List.range fieldCount).map fun i =>
    ((bytes[i / 8]?).getD 0).testBit (i % 8)

/-- Append a mask. -/
def writeFieldMask (buf : BinaryBuffer) (mask : List Bool) : BinaryBuffer :=
  (packMask mask).foldl (fun buf byte => buf.writeU8 byte) buf

/-- Read bytes one at a time. -/
def readMaskBytes : Nat → BinaryBuffer → Option (List Nat × BinaryBuffer)
  | 0, buf => some ([], buf)
  | count + 1, buf =>
      match buf.readU8 with
      | none => none
      | some (byte, buf) =>
          (readMaskBytes count buf).map fun (bytes, buf) => (byte :: bytes, buf)

/-- Read a mask of so many fields. -/
def readFieldMask (buf : BinaryBuffer) (fieldCount : Nat) :
    Option (List Bool × BinaryBuffer) :=
  (readMaskBytes (fieldMaskBytes fieldCount) buf).map fun (bytes, buf) =>
    (unpackMask fieldCount bytes, buf)

/-- The grammar of a mask. -/
def maskParser (fieldCount : Nat) : Parser (List Bool) :=
  (Parser.many (fieldMaskBytes fieldCount) (Parser.number 1)).map
    (unpackMask fieldCount)

/-- The encoding of a mask. -/
def encodeMask (mask : List Bool) : List UInt8 :=
  (packMask mask).flatMap (littleEndian 1)

theorem foldr_bit_testBit (mask : List Bool) (i : Nat) :
    (mask.foldr Nat.bit 0).testBit i = (mask[i]?).getD false := by
  induction mask generalizing i with
  | nil => simp
  | cons bit mask inductionHypothesis =>
      cases i with
      | zero => rw [List.foldr_cons, Nat.testBit_bit_zero]; rfl
      | succ i => rw [List.foldr_cons, Nat.testBit_bit_succ,
          inductionHypothesis]; rfl

/-- The bits of a mask byte are the mask. -/
theorem maskByte_testBit (mask : List Bool) {i : Nat} (inByte : i < 8) :
    (maskByte mask).testBit i = (mask[i]?).getD false := by
  rw [maskByte, foldr_bit_testBit, List.getElem?_take, if_pos inByte]

theorem maskByte_lt (mask : List Bool) : maskByte mask < 256 := by
  apply Nat.lt_pow_two_of_testBit (n := 8)
  intro i outside
  rw [maskByte, foldr_bit_testBit, List.getElem?_take, if_neg (by omega)]
  rfl

/-- A packed mask has the size the reader expects. -/
@[simp] theorem length_packMask (mask : List Bool) :
    (packMask mask).length = fieldMaskBytes mask.length := by
  rw [packMask, List.length_map, List.length_range]

/-- Unpacking a packed mask yields the mask. -/
theorem unpackMask_packMask (mask : List Bool) :
    unpackMask mask.length (packMask mask) = mask := by
  apply List.ext_getElem?
  intro i
  unfold unpackMask packMask
  rw [List.getElem?_map]
  by_cases inMask : i < mask.length
  · have byteExists : i / 8 < fieldMaskBytes mask.length := by
      unfold fieldMaskBytes
      omega
    rw [List.getElem?_range inMask, Option.map_some, List.getElem?_map,
      List.getElem?_range byteExists, Option.map_some, Option.getD_some,
      maskByte_testBit _ (Nat.mod_lt i (by decide)), List.getElem?_drop,
      Nat.div_add_mod, List.getElem?_eq_getElem inMask]
    rfl
  · rw [List.getElem?_eq_none (by simpa using inMask),
      List.getElem?_eq_none (by omega)]
    rfl

/-- The parser reads a mask back. -/
theorem maskParser_reads
    {mask : List Bool} {fieldCount : Nat} (sized : mask.length = fieldCount) :
    (maskParser fieldCount).Reads (encodeMask mask) mask := by
  subst sized
  have each : ∀ byte ∈ packMask mask,
      (Parser.number 1).Reads (littleEndian 1 byte) byte := by
    intro byte member
    obtain ⟨b, _, rfl⟩ := List.mem_map.mp member
    exact Parser.reads_number (maskByte_lt _)
  have many := Parser.reads_many each
  rw [length_packMask] at many
  have whole := many.map (unpackMask mask.length)
  rwa [unpackMask_packMask] at whole

/-- Writing a mask is writing its encoding. -/
theorem writeFieldMask_eq (buf : BinaryBuffer) (mask : List Bool) :
    writeFieldMask buf mask = buf.writeBytes (encodeMask mask) :=
  BinaryBuffer.foldl_writeBytes (fun _ _ _ => rfl) buf

theorem readMaskBytes_follows (count : Nat) :
    BinaryBuffer.Follows (readMaskBytes count)
      (Parser.many count (Parser.number 1)) := by
  induction count with
  | zero =>
      intro buf input value rest remaining parsed
      rw [Parser.many, Parser.pure, Option.some.injEq, Prod.mk.injEq] at parsed
      rw [← parsed.1, ← parsed.2, remaining.upTo_self]
      exact ⟨rfl, remaining⟩
  | succ count inductionHypothesis =>
      intro buf input value rest remaining parsed
      obtain ⟨byte, between, later, parsedByte, parsedLater, rfl⟩ :=
        Parser.many_succ_eq_some.mp parsed
      obtain ⟨read, after⟩ := BinaryBuffer.readNumber_follows 1 buf input byte
        between remaining parsedByte
      obtain ⟨readLater, last⟩ := inductionHypothesis (buf.upTo between)
        between later rest after parsedLater
      have readByte : buf.readU8 = some (byte, buf.upTo between) := read
      rw [readMaskBytes, readByte]
      dsimp only
      rw [readLater]
      exact ⟨rfl, last⟩

/-- Reading a mask is what the parser does. -/
theorem readFieldMask_follows (fieldCount : Nat) :
    BinaryBuffer.Follows (readFieldMask · fieldCount)
      (maskParser fieldCount) := by
  intro buf input mask rest remaining parsed
  obtain ⟨bytes, parsedBytes, rfl⟩ := Parser.map_eq_some.mp parsed
  obtain ⟨read, after⟩ := readMaskBytes_follows (fieldMaskBytes fieldCount) buf
    input bytes rest remaining parsedBytes
  refine ⟨?_, after⟩
  dsimp only
  rw [readFieldMask, read]
  rfl

end VortarisECS
