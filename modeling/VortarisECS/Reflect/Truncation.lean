import Mathlib.Data.List.Infix
import VortarisECS.Reflect.FieldRoundTrip

/-!
# Fixed strings keep whole characters

A text too long for its buffer is cut between two code points.  The byte at the
boundary tells whether a code point goes on there, and the cut moves back to
where this code point starts.
-/

namespace VortarisECS

/-! ## The bytes of a text -/

theorem utf8_eq (text : String) :
    utf8 text = text.toList.flatMap String.utf8EncodeChar := by
  have encoded : text.toByteArray = text.toList.utf8Encode := by
    conv_lhs => rw [← String.ofList_toList (s := text)]
    exact String.toByteArray_ofList
  unfold utf8
  rw [String.toUTF8_eq_toByteArray, encoded]
  simp [List.utf8Encode]

/-- A code point starts with a byte of its own kind, which is zero only in a
NUL. -/
theorem utf8EncodeChar_cases (c : Char) :
    ∃ lead tail, String.utf8EncodeChar c = lead :: tail ∧
      (continuesCodePoint lead = false ∧ (lead = 0 → c = '\x00')) ∧
      ∀ byte ∈ tail, continuesCodePoint byte = true := by
  have tailByte : ∀ m < 0x40,
      continuesCodePoint (UInt8.ofNat (m + 0x80)) = true := by
    decide +kernel
  have oneByte : ∀ m < 0x80, continuesCodePoint (UInt8.ofNat m) = false ∧
      (UInt8.ofNat m = 0 → m = 0) := by
    decide +kernel
  have ofTwo : ∀ m < 0x20, continuesCodePoint (UInt8.ofNat (m + 0xc0)) = false ∧
      UInt8.ofNat (m + 0xc0) ≠ 0 := by
    decide +kernel
  have ofThree : ∀ m < 0x10,
      continuesCodePoint (UInt8.ofNat (m + 0xe0)) = false ∧
        UInt8.ofNat (m + 0xe0) ≠ 0 := by
    decide +kernel
  have ofFour : ∀ m < 0x08,
      continuesCodePoint (UInt8.ofNat (m + 0xf0)) = false ∧
        UInt8.ofNat (m + 0xf0) ≠ 0 := by
    decide +kernel
  have continues : ∀ n : Nat,
      continuesCodePoint (UInt8.ofNat (n % 0x40 + 0x80)) = true :=
    fun n => tailByte _ (Nat.mod_lt n (by decide))
  unfold String.utf8EncodeChar
  dsimp only
  split
  · have lead := oneByte c.val.toNat (by omega)
    exact ⟨_, [], rfl, ⟨lead.1, fun zero =>
      Char.ext (UInt32.toNat_inj.mp (lead.2 zero))⟩, nofun⟩
  · split
    · have lead := ofTwo (c.val.toNat / 64 % 0x20) (Nat.mod_lt _ (by decide))
      refine ⟨_, _, rfl, ⟨lead.1, fun zero => absurd zero lead.2⟩, ?_⟩
      simp only [List.mem_singleton, forall_eq]
      exact continues _
    · split
      · have lead := ofThree (c.val.toNat / 4096 % 0x10)
          (Nat.mod_lt _ (by decide))
        refine ⟨_, _, rfl, ⟨lead.1, fun zero => absurd zero lead.2⟩, ?_⟩
        simp only [List.mem_cons, List.not_mem_nil, or_false, forall_eq_or_imp,
          forall_eq]
        exact ⟨continues _, continues _⟩
      · have lead := ofFour (c.val.toNat / 262144 % 0x08)
          (Nat.mod_lt _ (by decide))
        refine ⟨_, _, rfl, ⟨lead.1, fun zero => absurd zero lead.2⟩, ?_⟩
        simp only [List.mem_cons, List.not_mem_nil, or_false, forall_eq_or_imp,
          forall_eq]
        exact ⟨continues _, continues _, continues _⟩

/-- Only a NUL has a byte zero. -/
theorem zero_notMem_utf8 {text : String} (visible : '\x00' ∉ text.toList) :
    (0 : UInt8) ∉ utf8 text := by
  rw [utf8_eq, List.mem_flatMap]
  rintro ⟨c, member, zero⟩
  obtain ⟨lead, tail, encoded, isLead, isTail⟩ := utf8EncodeChar_cases c
  rw [encoded] at zero
  obtain zero | zero := List.mem_cons.mp zero
  · exact visible (isLead.2 zero.symm ▸ member)
  · exact absurd (isTail 0 zero) (by decide)

/-! ## The longest prefix that fits -/

/-- The first characters, as long as their bytes fit into `room`. -/
def fitting (room : Nat) : List Char → List Char
  | [] => []
  | c :: chars =>
      if (String.utf8EncodeChar c).length ≤ room then
        c :: fitting (room - (String.utf8EncodeChar c).length) chars
      else []

/-- No longer prefix of the text has room. -/
structure LongestFitting (text kept : String) (room : Nat) : Prop where
  start : kept.toList <+: text.toList
  fits : (utf8 kept).length ≤ room
  longest : ∀ other : String, other.toList <+: text.toList →
    (utf8 other).length ≤ room → other.toList <+: kept.toList

/-- The part that fits is the front of the text. -/
theorem isPrefix_fitting (room : Nat) (chars : List Char) :
    fitting room chars <+: chars := by
  induction chars generalizing room with
  | nil => exact List.prefix_rfl
  | cons c chars inductionHypothesis =>
      rw [fitting]
      split
      · exact (List.prefix_cons_inj c).mpr (inductionHypothesis _)
      · exact List.nil_prefix

/-- The part that fits does fit. -/
theorem fitting_fits (room : Nat) (chars : List Char) :
    ((fitting room chars).flatMap String.utf8EncodeChar).length ≤ room := by
  induction chars generalizing room with
  | nil => exact Nat.zero_le _
  | cons c chars inductionHypothesis =>
      rw [fitting]
      split
      · have later := inductionHypothesis
          (room - (String.utf8EncodeChar c).length)
        rw [List.flatMap_cons, List.length_append]
        omega
      · exact Nat.zero_le _

/-- No front of the text that fits is longer. -/
theorem prefix_fitting
    {room : Nat} {chars other : List Char} (start : other <+: chars)
    (fits : (other.flatMap String.utf8EncodeChar).length ≤ room) :
    other <+: fitting room chars := by
  induction chars generalizing room other with
  | nil => exact start
  | cons c chars inductionHypothesis =>
      cases other with
      | nil => exact List.nil_prefix
      | cons first other =>
          obtain ⟨rfl, later⟩ := List.cons_prefix_cons.mp start
          rw [List.flatMap_cons, List.length_append] at fits
          rw [fitting, if_pos (by omega)]
          exact (List.prefix_cons_inj first).mpr
            (inductionHypothesis later (by omega))

/-- What is cut off begins with a code point that does not fit. -/
theorem fitting_split
    (room : Nat) (chars : List Char)
    (long : room < (chars.flatMap String.utf8EncodeChar).length) :
    ∃ c rest, chars = fitting room chars ++ c :: rest ∧
      room < ((fitting room chars).flatMap String.utf8EncodeChar).length +
        (String.utf8EncodeChar c).length := by
  induction chars generalizing room with
  | nil => exact absurd long (Nat.not_lt_zero _)
  | cons c chars inductionHypothesis =>
      rw [List.flatMap_cons, List.length_append] at long
      rw [fitting]
      by_cases fits : (String.utf8EncodeChar c).length ≤ room
      · obtain ⟨next, rest, split, beyond⟩ := inductionHypothesis
          (room - (String.utf8EncodeChar c).length) (by omega)
        rw [if_pos fits, List.flatMap_cons, List.length_append]
        refine ⟨next, rest, ?_, by omega⟩
        rw [List.cons_append, ← split]
      · rw [if_neg fits]
        exact ⟨c, chars, rfl, by rw [List.flatMap_nil, List.length_nil]; omega⟩

/-! ## The cut -/

/-- The cut moves back over the bytes that continue a code point. -/
theorem leadByte_eq
    {src : List UInt8} {start place : Nat} (after : start ≤ place)
    (inside : ∀ k, start < k → k ≤ place →
      continuesCodePoint ((src[k]?).getD 0) = true)
    (lead : continuesCodePoint ((src[start]?).getD 0) = false) :
    leadByte src place = start := by
  induction place with
  | zero => exact (Nat.le_zero.mp after).symm
  | succ place inductionHypothesis =>
      rw [leadByte]
      by_cases here : start = place + 1
      · rw [← here, lead]
        rfl
      · rw [inside (place + 1) (by omega) (Nat.le_refl _), if_pos rfl]
        exact inductionHypothesis (by omega)
          fun k above below => inside k above (by omega)

/-- The text is cut where its longest fitting prefix ends. -/
theorem cutText_eq (chars : List Char) (room : Nat) :
    cutText (chars.flatMap String.utf8EncodeChar) room =
      (fitting room chars).flatMap String.utf8EncodeChar := by
  by_cases long : room < (chars.flatMap String.utf8EncodeChar).length
  swap
  · rw [cutText_of_le (Nat.le_of_not_lt long)]
    have whole := prefix_fitting List.prefix_rfl (Nat.le_of_not_lt long)
    rw [(isPrefix_fitting room chars).eq_of_length_le whole.length_le]
  obtain ⟨c, rest, split, beyond⟩ := fitting_split room chars long
  obtain ⟨lead, tail, encoded, isLead, isTail⟩ := utf8EncodeChar_cases c
  have fits := fitting_fits room chars
  generalize kept : (fitting room chars).flatMap String.utf8EncodeChar = front
    at fits beyond ⊢
  have srcEq : chars.flatMap String.utf8EncodeChar =
      front ++ (lead :: (tail ++ rest.flatMap String.utf8EncodeChar)) := by
    conv_lhs => rw [split]
    rw [List.flatMap_append, List.flatMap_cons, kept, encoded, List.cons_append]
  rw [srcEq] at long ⊢
  rw [encoded, List.length_cons] at beyond
  have atLead : (front ++ (lead :: (tail ++
      rest.flatMap String.utf8EncodeChar)))[front.length]? = some lead := by
    rw [List.getElem?_append_right (Nat.le_refl _), Nat.sub_self]
    rfl
  have atTail : ∀ k, front.length < k → k ≤ room → continuesCodePoint
      (((front ++ (lead :: (tail ++
        rest.flatMap String.utf8EncodeChar)))[k]?).getD 0) = true := by
    intro k above below
    obtain ⟨i, rfl⟩ : ∃ i, k = front.length + (i + 1) :=
      ⟨k - front.length - 1, by omega⟩
    have inTail : i < tail.length := by omega
    rw [List.getElem?_append_right (by omega), Nat.add_sub_cancel_left,
      List.getElem?_cons_succ, List.getElem?_append_left inTail,
      List.getElem?_eq_getElem inTail, Option.getD_some]
    exact isTail _ (List.getElem_mem inTail)
  have front_take : (front ++ (lead :: (tail ++
      rest.flatMap String.utf8EncodeChar))).take front.length = front :=
    List.take_left
  unfold cutText
  dsimp only
  rw [Nat.min_eq_right long.le]
  by_cases boundary : room = front.length
  · rw [boundary, if_neg, front_take]
    rintro ⟨_, _, continues⟩
    rw [atLead, Option.getD_some, isLead.1] at continues
    exact absurd continues (by simp)
  · rw [if_pos ⟨long, by omega, atTail room (by omega) (Nat.le_refl _)⟩,
      leadByte_eq fits atTail (by rw [atLead, Option.getD_some, isLead.1]),
      front_take]

/-! ## The field -/

theorem takeWhile_eq_of_take
    {bytes front : List UInt8} (zeroFree : (0 : UInt8) ∉ front)
    (start : bytes.take (front.length + 1) = front ++ [0]) :
    bytes.takeWhile (· ≠ 0) = front := by
  rw [← List.take_append_drop (front.length + 1) bytes, start,
    List.append_assoc, List.takeWhile_append_of_pos, List.singleton_append,
    List.takeWhile_cons_of_neg (by simp), List.append_nil]
  intro byte member
  exact decide_eq_true fun zero => zeroFree (zero ▸ member)

/-- The greedy cut is the longest one that fits. -/
theorem longestFitting_fitting (text : String) (room : Nat) :
    LongestFitting text (String.ofList (fitting room text.toList)) room := by
  refine ⟨?_, ?_, fun other start fits => ?_⟩
  · rw [String.toList_ofList]
    exact isPrefix_fitting room _
  · rw [utf8_eq, String.toList_ofList]
    exact fitting_fits room _
  · rw [utf8_eq] at fits
    rw [String.toList_ofList]
    exact prefix_fitting start fits

/-- The text starts with U+FEFF, whose UTF-8 is a byte order mark. -/
def StartsWithMark (text : String) : Prop := (utf8 text).take 3 = byteOrderMark

/-- A prefix of a text that starts with the mark has room for it, and the text
starts with the mark too. -/
theorem startsWithMark_of_prefix
    {text kept : String} (start : kept.toList <+: text.toList)
    (marked : StartsWithMark kept) :
    StartsWithMark text ∧ 3 ≤ (utf8 kept).length := by
  obtain ⟨rest, split⟩ := start
  have room : 3 ≤ (utf8 kept).length := by
    have length := congrArg List.length marked
    rw [List.length_take, byteOrderMark] at length
    simp only [List.length_cons, List.length_nil] at length
    omega
  refine ⟨?_, room⟩
  unfold StartsWithMark at marked ⊢
  rw [utf8_eq text, ← split, List.flatMap_append, ← utf8_eq,
    List.take_append_of_le_length room, marked]

section Field

variable (engine : Engine) {fd : FieldDescriptor}

/-- A text in a fixed string is its longest prefix of whole characters that
leaves room for the NUL.  Only the bytes of the buffer are written, and the
field reads as what `String::utf8` makes of this prefix: as the prefix itself,
unless it starts with a byte order mark. -/
theorem stringFixed_truncates
    (isText : fd.type = .stringFixed) (capacity : 1 ≤ fd.count)
    {base : List UInt8} (inside : fd.offset + fd.count ≤ base.length)
    {text : String} (visible : '\x00' ∉ text.toList) :
    ∃ kept stored, LongestFitting text kept (fd.count - 1) ∧
      fieldFromVariant engine fd base (.string text) = some stored ∧
      window stored fd.offset ((utf8 kept).length + 1) = utf8 kept ++ [0] ∧
      stored.length = base.length ∧
      (∀ i, i < fd.offset ∨ fd.offset + fd.count ≤ i →
        stored[i]? = base[i]?) ∧
      fieldToVariant engine fd (stored.drop fd.offset) =
        some (.string (engine.decode (utf8 kept))) ∧
      (¬StartsWithMark text ∨ fd.count ≤ 3 →
        engine.decode (utf8 kept) = kept) ∧
      ((utf8 text).length ≤ fd.count - 1 → kept = text) := by
  have longest := longestFitting_fitting text (fd.count - 1)
  generalize keptEq : String.ofList (fitting (fd.count - 1) text.toList) = kept
    at longest
  have fits := longest.fits
  have cut : cutText (utf8 text) (fd.count - 1) = utf8 kept := by
    rw [utf8_eq, utf8_eq, cutText_eq, ← keptEq, String.toList_ofList]
  have written : fieldFromVariant engine fd base (.string text) =
      some (overlay base fd.offset (utf8 kept ++ [0])) := by
    unfold fieldFromVariant
    rw [isText]
    dsimp only
    rw [if_neg (by omega), engine.toText_string, cut]
  have length : (utf8 kept ++ [0]).length = (utf8 kept).length + 1 :=
    List.length_append
  have stored : window (overlay base fd.offset (utf8 kept ++ [0])) fd.offset
      ((utf8 kept).length + 1) = utf8 kept ++ [0] := by
    rw [← length]
    exact window_overlay_self (by omega)
  refine ⟨kept, _, longest, written, stored, length_overlay _ _ _,
    fun i outside => getElem?_overlay_outside base (by omega), ?_, ?_, ?_⟩
  · unfold fieldToVariant
    rw [isText]
    dsimp only
    have zeroFree : (0 : UInt8) ∉ utf8 kept := zero_notMem_utf8 fun member =>
      visible (longest.start.subset member)
    rw [copyBytes_eq_take (by rw [List.length_drop, length_overlay]; omega),
      takeWhile_eq_of_take zeroFree]
    rw [List.take_take, Nat.min_eq_left (by omega)]
    exact stored
  · intro readable
    apply engine.decode_utf8
    intro marked
    obtain ⟨textMarked, room⟩ := startsWithMark_of_prefix longest.start marked
    obtain unmarked | small := readable
    · exact unmarked textMarked
    · omega
  · intro short
    exact String.ext (longest.start.eq_of_length_le
      (longest.longest text List.prefix_rfl short).length_le)

end Field

/-- A fixed string of three bytes and its NUL, behind another field. -/
def shortName : FieldDescriptor :=
  { name := "name", type := .stringFixed, offset := 1, count := 4,
    byteSize := 4 }

/-- The second accent of "aéé" finds no room. -/
theorem stringFixed_truncates_shortName :
    ∃ kept stored, LongestFitting "aéé" kept 3 ∧
      fieldFromVariant .singlePrecision shortName (List.replicate 6 7)
        (.string "aéé") = some stored ∧
      window stored 1 ((utf8 kept).length + 1) = utf8 kept ++ [0] ∧
      stored.length = 6 ∧
      (∀ i, i < 1 ∨ 1 + 4 ≤ i →
        stored[i]? = (List.replicate 6 (7 : UInt8))[i]?) ∧
      fieldToVariant .singlePrecision shortName (stored.drop 1) =
        some (.string (Engine.decodeText (utf8 kept))) ∧
      (¬StartsWithMark "aéé" ∨ 4 ≤ 3 →
        Engine.decodeText (utf8 kept) = kept) ∧
      ((utf8 "aéé").length ≤ 3 → kept = "aéé") :=
  have wide : shortName.offset + shortName.count ≤
      (List.replicate 6 (7 : UInt8)).length := by decide
  stringFixed_truncates .singlePrecision rfl (by decide) wide
    (by decide +kernel)

/-- U+FEFF and "abc" fit into a fixed string of seven bytes and its NUL, but
reading drops the mark. -/
theorem not_stringFixed_truncates_mark :
    let fd : FieldDescriptor :=
      { name := "name", type := .stringFixed, count := 8, byteSize := 8 }
    ¬∃ kept stored, LongestFitting "\uFEFFabc" kept 7 ∧
      fieldFromVariant .singlePrecision fd (List.replicate 8 0)
        (.string "\uFEFFabc") = some stored ∧
      fieldToVariant .singlePrecision fd stored = some (.string kept) ∧
      ((utf8 "\uFEFFabc").length ≤ 7 → kept = "\uFEFFabc") := by
  rintro fd ⟨kept, stored, _, written, read, whole⟩
  rw [whole (by decide +kernel)] at read
  have storedEq : fieldFromVariant .singlePrecision fd (List.replicate 8 0)
      (.string "\uFEFFabc") =
        some [0xEF, 0xBB, 0xBF, 0x61, 0x62, 0x63, 0, 0] := by
    decide +kernel
  rw [storedEq, Option.some.injEq] at written
  rw [← written] at read
  have decoded : Engine.decodeText [0xEF, 0xBB, 0xBF, 0x61, 0x62, 0x63] =
      "abc" := by
    decide +kernel
  have terminated : (copyBytes fd.count
      [0xEF, 0xBB, 0xBF, 0x61, 0x62, 0x63, 0, 0]).takeWhile (· ≠ 0) =
        [0xEF, 0xBB, 0xBF, 0x61, 0x62, 0x63] := by
    decide
  unfold fieldToVariant at read
  dsimp only [fd] at read terminated
  rw [terminated, Option.some.injEq, Variant.string.injEq] at read
  exact absurd (decoded.symm.trans read) (by decide +kernel)

end VortarisECS
