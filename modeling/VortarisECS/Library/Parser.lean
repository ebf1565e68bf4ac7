import VortarisECS.Library.Bytes

/-!
# Parsers of byte strings

A parser takes a value off the front of its input, or fails.  A parser reads an
encoding as a value when it takes exactly that encoding off any input.
-/

namespace VortarisECS

/-- A parser takes a value from the front of the input and leaves the rest. -/
abbrev Parser (α : Type) := List UInt8 → Option (α × List UInt8)

namespace Parser

/-- Take nothing. -/
def pure (value : α) : Parser α := fun input => some (value, input)

/-- Parse one value, then another that may depend on it. -/
def andThen (first : Parser α) (next : α → Parser β) : Parser β :=
  fun input =>
    match first input with
    | none => none
    | some (value, rest) => next value rest

/-- Change the value that is parsed. -/
def map (f : α → β) (parser : Parser α) : Parser β :=
  parser.andThen fun value => pure (f value)

/-- Accept nothing. -/
def fail : Parser α := fun _ => none

/-- A little-endian number of `width` bytes. -/
def number (width : Nat) : Parser Nat := fun input =>
  if width ≤ input.length then
    some (ofLittleEndian (input.take width), input.drop width)
  else none

/-- A byte string of a given length. -/
def bytes (length : Nat) : Parser (List UInt8) := fun input =>
  if length ≤ input.length then some (input.take length, input.drop length)
  else none

/-- A value repeated `count` times. -/
def many : Nat → Parser α → Parser (List α)
  | 0, _ => pure []
  | count + 1, item =>
      item.andThen fun value => (many count item).map (value :: ·)

/-- A value that is all of the input. -/
def complete (parser : Parser α) (input : List UInt8) : Option α :=
  match parser input with
  | some (value, []) => some value
  | _ => none

/-! ## Success, step by step -/

/-- Two parsers in a row succeed when both do. -/
theorem andThen_eq_some
    {first : Parser α} {next : α → Parser β} {input rest : List UInt8}
    {value : β} :
    first.andThen next input = some (value, rest) ↔
      ∃ middle between, first input = some (middle, between) ∧
        next middle between = some (value, rest) := by
  unfold andThen
  cases first input with
  | none => simp
  | some parsed =>
      constructor
      · exact fun later => ⟨parsed.1, parsed.2, rfl, later⟩
      · rintro ⟨middle, between, same, later⟩
        rw [Option.some.inj same]
        exact later

theorem map_eq_some
    {f : α → β} {parser : Parser α} {input rest : List UInt8} {value : β} :
    parser.map f input = some (value, rest) ↔
      ∃ before, parser input = some (before, rest) ∧ f before = value := by
  rw [map, andThen_eq_some]
  constructor
  · rintro ⟨before, between, parsed, isPure⟩
    rw [pure, Option.some.injEq, Prod.mk.injEq] at isPure
    exact ⟨before, by rw [parsed, isPure.2], isPure.1⟩
  · rintro ⟨before, parsed, rfl⟩
    exact ⟨before, rest, parsed, rfl⟩

/-- A number parses when its width is there. -/
theorem number_eq_some
    {width value : Nat} {input rest : List UInt8} :
    number width input = some (value, rest) ↔
      width ≤ input.length ∧ value = ofLittleEndian (input.take width) ∧
        rest = input.drop width := by
  unfold number
  by_cases fits : width ≤ input.length
  · rw [if_pos fits, Option.some.injEq, Prod.mk.injEq]
    exact ⟨fun same => ⟨fits, same.1.symm, same.2.symm⟩,
      fun same => ⟨same.2.1.symm, same.2.2.symm⟩⟩
  · rw [if_neg fits]
    exact ⟨fun none => absurd none (by simp), fun same => absurd same.1 fits⟩

theorem bytes_eq_some
    {length : Nat} {input taken rest : List UInt8} :
    bytes length input = some (taken, rest) ↔
      length ≤ input.length ∧ taken = input.take length ∧
        rest = input.drop length := by
  unfold bytes
  by_cases fits : length ≤ input.length
  · rw [if_pos fits, Option.some.injEq, Prod.mk.injEq]
    exact ⟨fun same => ⟨fits, same.1.symm, same.2.symm⟩,
      fun same => ⟨same.2.1.symm, same.2.2.symm⟩⟩
  · rw [if_neg fits]
    exact ⟨fun none => absurd none (by simp), fun same => absurd same.1 fits⟩

/-- Repeating once more parses one value first. -/
theorem many_succ_eq_some
    {count : Nat} {item : Parser α} {input rest : List UInt8}
    {values : List α} :
    many (count + 1) item input = some (values, rest) ↔
      ∃ value between later, item input = some (value, between) ∧
        many count item between = some (later, rest) ∧
        values = value :: later := by
  rw [many, andThen_eq_some]
  constructor
  · rintro ⟨value, between, first, tail⟩
    obtain ⟨later, parsed, rfl⟩ := map_eq_some.mp tail
    exact ⟨value, between, later, first, parsed, rfl⟩
  · rintro ⟨value, between, later, first, parsed, rfl⟩
    exact ⟨value, between, first, map_eq_some.mpr ⟨later, parsed, rfl⟩⟩

/-- Repeating gives as many values as asked for. -/
theorem many_length
    {count : Nat} {item : Parser α} {input rest : List UInt8}
    {values : List α} (parsed : many count item input = some (values, rest)) :
    values.length = count := by
  induction count generalizing input values with
  | zero =>
      rw [many, pure, Option.some.injEq, Prod.mk.injEq] at parsed
      rw [← parsed.1]
      rfl
  | succ count inductionHypothesis =>
      obtain ⟨value, between, later, _, tail, rfl⟩ :=
        many_succ_eq_some.mp parsed
      rw [List.length_cons, inductionHypothesis tail]

/-- Completing leaves nothing over. -/
theorem complete_eq_some
    {parser : Parser α} {input : List UInt8} {value : α} :
    parser.complete input = some value ↔ parser input = some (value, []) := by
  unfold complete
  split
  · rename_i found parsed
    rw [parsed]
    simp
  · rename_i notWhole
    constructor
    · intro impossible
      exact absurd impossible (by simp)
    · intro parsed
      exact absurd parsed (notWhole value)

/-! ## Encodings -/

/-- The parser reads the encoding as the value, whatever follows it. -/
def Reads (parser : Parser α) (encoding : List UInt8) (value : α) : Prop :=
  ∀ rest, parser (encoding ++ rest) = some (value, rest)

theorem reads_pure (value : α) : Reads (pure value) [] value :=
  fun _ => rfl

/-- Encodings are read one after the other. -/
theorem Reads.andThen
    {first : Parser α} {next : α → Parser β} {encoding later : List UInt8}
    {value : α} {final : β}
    (readsFirst : first.Reads encoding value)
    (readsNext : (next value).Reads later final) :
    (first.andThen next).Reads (encoding ++ later) final := by
  intro rest
  rw [List.append_assoc, andThen_eq_some]
  exact ⟨value, later ++ rest, readsFirst _, readsNext rest⟩

theorem Reads.map
    {parser : Parser α} {encoding : List UInt8} {value : α} (f : α → β)
    (reads : parser.Reads encoding value) :
    (parser.map f).Reads encoding (f value) :=
  fun rest => map_eq_some.mpr ⟨value, reads rest, rfl⟩

/-- A number that fits its width is read back. -/
theorem reads_number
    {width value : Nat} (bounded : value < 256 ^ width) :
    (number width).Reads (littleEndian width value) value := by
  intro rest
  rw [number_eq_some]
  have sized := length_littleEndian width value
  refine ⟨by rw [List.length_append, sized]; exact Nat.le_add_right _ _, ?_, ?_⟩
  · rw [List.take_left' sized, ofLittleEndian_littleEndian_of_lt bounded]
  · rw [List.drop_left' sized]

/-- Bytes are read back. -/
theorem reads_bytes (content : List UInt8) :
    (bytes content.length).Reads content content := by
  intro rest
  rw [bytes_eq_some]
  exact ⟨by rw [List.length_append]; exact Nat.le_add_right _ _,
    List.take_left.symm, List.drop_left.symm⟩

/-- Values that are read back one by one are read back together. -/
theorem reads_many
    {item : Parser α} {encode : α → List UInt8} {values : List α}
    (each : ∀ value ∈ values, item.Reads (encode value) value) :
    (many values.length item).Reads (values.flatMap encode) values := by
  induction values with
  | nil => exact reads_pure []
  | cons value values inductionHypothesis =>
      rw [List.length_cons, many, List.flatMap_cons]
      apply (each value List.mem_cons_self).andThen
      exact (inductionHypothesis fun later member =>
        each later (List.mem_cons_of_mem value member)).map (value :: ·)

/-- A whole encoding is read back as its value. -/
theorem Reads.complete
    {parser : Parser α} {encoding : List UInt8} {value : α}
    (reads : parser.Reads encoding value) :
    parser.complete encoding = some value := by
  rw [complete_eq_some]
  have whole := reads []
  rwa [List.append_nil] at whole

end Parser
end VortarisECS
