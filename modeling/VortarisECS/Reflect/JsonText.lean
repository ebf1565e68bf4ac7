import VortarisECS.Library.Pairing
import VortarisECS.Reflect.TypeTraits

/-!
# Values as text

The engine writes a value as JSON and reads the text back.  Numbers come back as
doubles, values without a JSON form as texts, and the entries of a dictionary in
an order of the engine's own.
-/

namespace VortarisECS

/-- What the engine's JSON makes of the values it writes. -/
structure JsonText where
  /-- The double a number comes back as. -/
  number : Variant → UInt64
  /-- The text of a value without a JSON form, and of a key that is no text. -/
  text : Variant → String
  /-- The order in which the entries of a dictionary are written. -/
  arrange : List (Variant × Variant) → List (Variant × Variant)
  arrange_perm : ∀ entries, (arrange entries).Perm entries

namespace JsonText

/-- A key that is no text becomes one. -/
def key (json : JsonText) : Variant → Variant
  | .string text => .string text
  | other => .string (json.text other)

mutual

/-- The value that is read back. -/
def read (json : JsonText) : Variant → Variant
  | .nil => .nil
  | .bool value => .bool value
  | .int value => .float (json.number (.int value))
  | .float bits => .float (json.number (.float bits))
  | .string text => .string text
  | .value type raw => .string (json.text (.value type raw))
  | .byteArray bytes => .string (json.text (.byteArray bytes))
  | .array items => .array (json.readItems items)
  | .dictionary entries => .dictionary (json.arrange (json.readEntries entries))

/-- The items of an array, each as it comes back. -/
def readItems (json : JsonText) : List Variant → List Variant
  | [] => []
  | item :: items => json.read item :: json.readItems items

/-- The entries of a dictionary, each as it comes back. -/
def readEntries (json : JsonText) :
    List (Variant × Variant) → List (Variant × Variant)
  | [] => []
  | (name, value) :: entries =>
      (json.key name, json.read value) :: json.readEntries entries

end

variable {json : JsonText}

theorem readItems_eq (items : List Variant) :
    json.readItems items = items.map json.read := by
  induction items with
  | nil => rfl
  | cons item items inductionHypothesis =>
      rw [readItems, inductionHypothesis, List.map_cons]

theorem readEntries_textEntries (entries : List (String × Variant)) :
    json.readEntries (textEntries entries) =
      textEntries (entries.map fun entry => (entry.1, json.read entry.2)) := by
  induction entries with
  | nil => rfl
  | cons entry entries inductionHypothesis =>
      have later : json.readEntries (textEntries entries) = _ :=
        inductionHypothesis
      exact congrArg ((Variant.string entry.1, json.read entry.2) :: ·) later

end JsonText

/-- The text that is written of the value is read as the engine's JSON reads
it. -/
def Engine.ReadsBack (engine : Engine) (json : JsonText) (value : Variant) :
    Prop :=
  engine.parseString (engine.stringify value) = json.read value

/-- The number one survives, and an integer that has been a double once is not
changed by being one again. -/
structure JsonText.Rounds (json : JsonText) (engine : Engine) : Prop where
  one : engine.toInt (json.read (.int 1)) = 1
  again : ∀ n, engine.toInt (json.read (.int (engine.toInt
    (json.read (.int n))))) = engine.toInt (json.read (.int n))

/-! ## Looking values up -/

namespace Engine

variable (engine : Engine)

/-- In a dictionary with texts for keys, each of them once, the order does not
matter. -/
theorem lookup_of_perm
    {entries : List (String × Variant)} (once : (entries.map Prod.fst).Nodup)
    {written : List (Variant × Variant)}
    (perm : written.Perm (textEntries entries)) (key : String) :
    engine.lookup written (.string key) =
      engine.lookup (textEntries entries) (.string key) := by
  unfold lookup
  rw [List.find?_of_perm perm]
  intro a inEntries b inEntries' isKey isKey'
  obtain ⟨x, member, rfl⟩ := List.mem_map.mp inEntries
  obtain ⟨y, member', rfl⟩ := List.mem_map.mp inEntries'
  rw [engine.same_string, decide_eq_true_eq] at isKey isKey'
  rw [List.inj_on_of_nodup_map once member member'
    (isKey.trans isKey'.symm)]

/-- What comes back of a dictionary with texts for keys has what comes back of
the values. -/
theorem lookup_read
    (json : JsonText) {entries : List (String × Variant)}
    (once : (entries.map Prod.fst).Nodup) (key : String) :
    engine.lookup (json.arrange (json.readEntries (textEntries entries)))
        (.string key) =
      (engine.lookup (textEntries entries) (.string key)).map json.read := by
  have sameKeys : ((entries.map fun entry =>
      (entry.1, json.read entry.2)).map Prod.fst).Nodup := by
    rw [List.map_map]
    exact once
  have perm := json.arrange_perm (json.readEntries (textEntries entries))
  rw [JsonText.readEntries_textEntries] at perm ⊢
  rw [engine.lookup_of_perm sameKeys perm, lookup_textEntries,
    lookup_textEntries, List.find?_map, Option.map_map, Option.map_map]
  rfl

end Engine

end VortarisECS
