import VortarisECS.Core.Column
import VortarisECS.Core.Schema
import VortarisECS.Library.Bytes

/-!
# Values of the engine

Scripts and saves hold the value of a field as a Variant, which can hold a value
of any type.  Turning one into a value of a given type is the engine's business;
of a Variant that holds a value of that type it yields this value.
-/

namespace VortarisECS

/-- A value of the engine.  A number with a point is its double, and a vector,
color, rectangle or transform its memory. -/
inductive Variant
  | nil
  | bool (value : Bool)
  | int (value : Int64)
  | float (bits : UInt64)
  | string (text : String)
  | value (type : FieldType) (raw : List UInt8)
  | byteArray (bytes : List UInt8)
  | array (items : List Variant)
  | dictionary (entries : List (Variant × Variant))

/-- The entries of a dictionary. -/
def Variant.dictionary? : Variant → Option (List (Variant × Variant))
  | .dictionary entries => some entries
  | _ => none

/-- The UTF-8 of a text. -/
def utf8 (text : String) : List UInt8 := text.toUTF8.data.toList

/-- The bytes `String::utf8` takes for a byte order mark when they come first. -/
def byteOrderMark : List UInt8 := [0xEF, 0xBB, 0xBF]

/-- What the engine does with its values. -/
structure Engine where
  types : GodotTypes
  toBool : Variant → Bool
  toInt : Variant → Int64
  toFloat : Variant → UInt64
  toText : Variant → String
  toValue : FieldType → Variant → List UInt8
  toByteArray : Variant → List UInt8
  toArray : Variant → List Variant
  toDictionary : Variant → List (Variant × Variant)
  /-- From `float` to `double` and back. -/
  widen : UInt32 → UInt64
  narrow : UInt64 → UInt32
  /-- `String::utf8`. -/
  decode : List UInt8 → String
  /-- `Variant::operator==`, which also finds the key of a dictionary. -/
  same : Variant → Variant → Bool
  /-- `Variant::operator<`. -/
  less : Variant → Variant → Bool
  stringify : Variant → String
  parseString : String → Variant
  toBool_bool : ∀ value, toBool (.bool value) = value
  toInt_int : ∀ value, toInt (.int value) = value
  toFloat_float : ∀ bits, toFloat (.float bits) = bits
  toText_string : ∀ text, toText (.string text) = text
  toValue_value : ∀ type raw, raw.length = types.sizeOf type →
    toValue type (.value type raw) = raw
  length_toValue : ∀ type variant,
    (toValue type variant).length = types.sizeOf type
  toByteArray_byteArray : ∀ bytes, toByteArray (.byteArray bytes) = bytes
  toArray_array : ∀ items, toArray (.array items) = items
  toDictionary_dictionary : ∀ entries,
    toDictionary (.dictionary entries) = entries
  narrow_widen : ∀ bits, narrow (widen bits) = bits
  decode_utf8 : ∀ text, (utf8 text).take 3 ≠ byteOrderMark →
    decode (utf8 text) = text
  same_string : ∀ text other,
    same (.string text) (.string other) = decide (text = other)

/-- The length of an array after `resize(int32_t(count))`; a negative one is
refused. -/
def resizedTo (count : Nat) : Nat := (Int32.ofNat count).toInt.toNat

theorem resizedTo_of_lt {count : Nat} (small : count < 2 ^ 31) :
    resizedTo count = count := by
  unfold resizedTo
  rw [Int32.toInt_ofNat_of_lt small]
  rfl

/-! ## Dictionaries -/

/-- The entries of a dictionary with texts for keys. -/
def textEntries (entries : List (String × Variant)) : List (Variant × Variant) :=
  entries.map fun entry => (.string entry.1, entry.2)

namespace Engine

variable (engine : Engine)

/-- The value under a key, if the key is there. -/
def lookup (entries : List (Variant × Variant)) (key : Variant) :
    Option Variant :=
  (entries.find? fun entry => engine.same entry.1 key).map Prod.snd

/-- The value under a key, nil if there is none. -/
def get (entries : List (Variant × Variant)) (key : Variant) : Variant :=
  (engine.lookup entries key).getD .nil

/-- Set the value under a key; a new key comes last. -/
def set (entries : List (Variant × Variant)) (key value : Variant) :
    List (Variant × Variant) :=
  if (engine.lookup entries key).isSome then
    entries.map fun entry =>
      if engine.same entry.1 key then (entry.1, value) else entry
  else entries ++ [(key, value)]

/-- A text key finds its entry. -/
theorem lookup_textEntries (entries : List (String × Variant)) (key : String) :
    engine.lookup (textEntries entries) (.string key) =
      (entries.find? fun entry => entry.1 = key).map Prod.snd := by
  unfold lookup textEntries
  induction entries with
  | nil => rfl
  | cons entry entries inductionHypothesis =>
      rw [List.map_cons, List.find?_cons, List.find?_cons, engine.same_string]
      by_cases isKey : entry.1 = key
      · rw [decide_eq_true isKey]
        rfl
      · rw [decide_eq_false isKey]
        exact inductionHypothesis

theorem lookup_textEntries_of_mem
    {entries : List (String × Variant)} (once : (entries.map Prod.fst).Nodup)
    {entry : String × Variant} (member : entry ∈ entries) :
    engine.lookup (textEntries entries) (.string entry.1) = some entry.2 := by
  rw [lookup_textEntries]
  induction entries with
  | nil => exact absurd member List.not_mem_nil
  | cons head entries inductionHypothesis =>
      rw [List.map_cons, List.nodup_cons] at once
      rw [List.find?_cons]
      obtain rfl | member := List.mem_cons.mp member
      · rw [decide_eq_true rfl]
        rfl
      · have other : head.1 ≠ entry.1 := fun same =>
          once.1 (same ▸ List.mem_map_of_mem member)
        rw [decide_eq_false other]
        exact inductionHypothesis once.2 member

/-- Different keys that are set one after the other come in this order. -/
theorem foldl_set
    (before entries : List (String × Variant))
    (once : ((before ++ entries).map Prod.fst).Nodup) :
    entries.foldl (fun dict entry => engine.set dict (.string entry.1) entry.2)
      (textEntries before) = textEntries (before ++ entries) := by
  induction entries generalizing before with
  | nil => rw [List.append_nil]; rfl
  | cons entry entries inductionHypothesis =>
      have fresh : (before.find? fun earlier => earlier.1 = entry.1) = none := by
        rw [List.find?_eq_none]
        intro earlier member same
        rw [List.map_append, List.nodup_append] at once
        exact once.2.2 _ (List.mem_map_of_mem member) _
          (List.mem_map_of_mem List.mem_cons_self) (of_decide_eq_true same)
      have appended : before ++ entry :: entries =
          (before ++ [entry]) ++ entries := by simp
      have step : engine.set (textEntries before) (.string entry.1) entry.2 =
          textEntries (before ++ [entry]) := by
        unfold set
        rw [lookup_textEntries, fresh]
        unfold textEntries
        rw [List.map_append]
        rfl
      rw [List.foldl_cons, step, appended]
      rw [appended] at once
      exact inductionHypothesis _ once

/-! ## An engine -/

/-- Parse the UTF-8 of a text, without a byte order mark at its start. -/
def decodeText (bytes : List UInt8) : String :=
  let content :=
    if bytes.take 3 = byteOrderMark then bytes.drop 3 else bytes
  (String.fromUTF8? ⟨content.toArray⟩).getD ""

/-- A text that does not start with the mark comes back from its own bytes. -/
theorem decodeText_utf8
    (text : String) (unmarked : (utf8 text).take 3 ≠ byteOrderMark) :
    decodeText (utf8 text) = text := by
  have bytes : (⟨(utf8 text).toArray⟩ : ByteArray) = text.toByteArray := by
    unfold utf8
    rw [Array.toArray_toList, String.toUTF8_eq_toByteArray]
  have valid : text.toByteArray.IsValidUTF8 := text.isValidUTF8
  unfold decodeText
  rw [if_neg unmarked]
  dsimp only
  rw [bytes, String.fromUTF8?, dif_pos valid]
  rfl

/-- A build with single precision, as far as values keep their type: it
converts nothing, and a `float` is the upper half of its `double`. -/
def singlePrecision : Engine where
  types := .singlePrecision
  toBool
    | .bool value => value
    | _ => false
  toInt
    | .int value => value
    | _ => 0
  toFloat
    | .float bits => bits
    | _ => 0
  toText
    | .string text => text
    | _ => ""
  toValue type
    | .value _ raw => copyBytes (GodotTypes.singlePrecision.sizeOf type) raw
    | _ => copyBytes (GodotTypes.singlePrecision.sizeOf type) []
  toByteArray
    | .byteArray bytes => bytes
    | _ => []
  toArray
    | .array items => items
    | _ => []
  toDictionary
    | .dictionary entries => entries
    | _ => []
  widen bits := bits.toUInt64 <<< 32
  narrow bits := (bits >>> 32).toUInt32
  decode := decodeText
  same
    | .bool value, .bool other => value == other
    | .int value, .int other => value == other
    | .float bits, .float other => bits == other
    | .string text, .string other => decide (text = other)
    | _, _ => false
  less
    | .int value, .int other => decide (value < other)
    | _, _ => false
  stringify _ := ""
  parseString _ := .nil
  toBool_bool _ := rfl
  toInt_int _ := rfl
  toFloat_float _ := rfl
  toText_string _ := rfl
  toValue_value type raw length := by
    change copyBytes (GodotTypes.singlePrecision.sizeOf type) raw = raw
    unfold copyBytes
    rw [length, Nat.sub_self, List.replicate_zero, List.append_nil, ← length,
      List.take_length]
  length_toValue type variant := by
    cases variant <;> exact length_copyBytes _ _
  toByteArray_byteArray _ := rfl
  toArray_array _ := rfl
  toDictionary_dictionary _ := rfl
  narrow_widen bits := by
    have small := bits.toNat_lt
    apply UInt32.toNat_inj.mp
    rw [UInt64.toNat_toUInt32, UInt64.toNat_shiftRight, UInt64.toNat_shiftLeft,
      UInt32.toNat_toUInt64, show UInt64.toNat 32 % 64 = 32 from rfl,
      Nat.shiftLeft_eq, Nat.shiftRight_eq_div_pow]
    omega
  decode_utf8 := decodeText_utf8
  same_string _ _ := rfl

end Engine
end VortarisECS
