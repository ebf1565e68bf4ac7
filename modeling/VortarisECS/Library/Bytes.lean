import Mathlib.Data.List.Basic
import Mathlib.Tactic.Ring

/-!
# Byte strings

Little-endian numbers and writes into a window of a byte string.  A write never
changes the length of the string it goes into; what would fall behind its end
is lost.
-/

namespace VortarisECS

/-- The `width` low bytes of a number, lowest first. -/
def littleEndian : Nat → Nat → List UInt8
  | 0, _ => []
  | width + 1, value => UInt8.ofNat value :: littleEndian width (value / 256)

/-- The number a byte string denotes, lowest byte first. -/
def ofLittleEndian : List UInt8 → Nat
  | [] => 0
  | byte :: bytes => byte.toNat + 256 * ofLittleEndian bytes

/-- A number takes its width. -/
@[simp] theorem length_littleEndian (width value : Nat) :
    (littleEndian width value).length = width := by
  induction width generalizing value with
  | zero => rfl
  | succ width inductionHypothesis =>
      rw [littleEndian, List.length_cons, inductionHypothesis]

/-- Reading back a written number yields its low bytes. -/
theorem ofLittleEndian_littleEndian (width value : Nat) :
    ofLittleEndian (littleEndian width value) = value % 256 ^ width := by
  induction width generalizing value with
  | zero => rw [littleEndian, ofLittleEndian, pow_zero, Nat.mod_one]
  | succ width inductionHypothesis =>
      rw [littleEndian, ofLittleEndian, inductionHypothesis, pow_succ',
        Nat.mod_mul, UInt8.toNat_ofNat']

/-- A number that fits its width comes back from its bytes. -/
theorem ofLittleEndian_littleEndian_of_lt
    {width value : Nat} (bounded : value < 256 ^ width) :
    ofLittleEndian (littleEndian width value) = value := by
  rw [ofLittleEndian_littleEndian, Nat.mod_eq_of_lt bounded]

/-- Bytes only hold numbers of their width. -/
theorem ofLittleEndian_lt (bytes : List UInt8) :
    ofLittleEndian bytes < 256 ^ bytes.length := by
  induction bytes with
  | nil => exact Nat.one_pos
  | cons byte bytes inductionHypothesis =>
      have bounded := byte.toNat_lt
      rw [ofLittleEndian, List.length_cons, pow_succ']
      omega

/-- Writing a number read from a byte string yields the byte string. -/
theorem littleEndian_ofLittleEndian (bytes : List UInt8) :
    littleEndian bytes.length (ofLittleEndian bytes) = bytes := by
  induction bytes with
  | nil => rfl
  | cons byte bytes inductionHypothesis =>
      have bounded := byte.toNat_lt
      have rest : (byte.toNat + 256 * ofLittleEndian bytes) / 256 =
          ofLittleEndian bytes := by omega
      rw [List.length_cons, ofLittleEndian, littleEndian, rest,
        inductionHypothesis]
      congr 1
      apply UInt8.toNat_inj.mp
      rw [UInt8.toNat_ofNat']
      omega

/-- A number is written up to multiples of what its bytes can hold. -/
theorem littleEndian_mod (width value : Nat) :
    littleEndian width (value % 256 ^ width) = littleEndian width value := by
  have back := littleEndian_ofLittleEndian (littleEndian width value)
  rwa [length_littleEndian, ofLittleEndian_littleEndian] at back

/-! ## Windows -/

/-- The `length` bytes at an offset. -/
def window (bytes : List UInt8) (offset length : Nat) : List UInt8 :=
  (bytes.drop offset).take length

/-- Write bytes at an offset. -/
def overlay (base : List UInt8) (offset : Nat) (bytes : List UInt8) :
    List UInt8 :=
  base.take offset ++
    (bytes.take (base.length - offset) ++ base.drop (offset + bytes.length))

@[simp] theorem length_overlay
    (base : List UInt8) (offset : Nat) (bytes : List UInt8) :
    (overlay base offset bytes).length = base.length := by
  simp only [overlay, List.length_append, List.length_take, List.length_drop]
  omega

/-- Bytes that take the place of as many. -/
theorem overlay_append
    (front back : List UInt8) {middle bytes : List UInt8}
    (same : bytes.length = middle.length) :
    overlay (front ++ (middle ++ back)) front.length bytes =
      front ++ (bytes ++ back) := by
  unfold overlay
  rw [List.take_left, List.take_of_length_le, ← List.drop_drop, List.drop_left,
    same, List.drop_left]
  rw [List.length_append, List.length_append]
  omega

/-- An overlay is read at the place it was written to. -/
theorem getElem?_overlay
    (base : List UInt8) (offset : Nat) (bytes : List UInt8) (i : Nat) :
    (overlay base offset bytes)[i]? =
      if offset ≤ i ∧ i < offset + bytes.length ∧ i < base.length then
        bytes[i - offset]?
      else base[i]? := by
  unfold overlay
  rw [List.getElem?_append, List.getElem?_append]
  simp only [List.length_take, List.getElem?_take, List.getElem?_drop]
  by_cases beyond : base.length ≤ i
  · rw [if_neg (by omega), if_neg (by omega), if_neg (by omega),
      List.getElem?_eq_none beyond, List.getElem?_eq_none (by omega)]
  · by_cases before : i < offset
    · rw [if_pos (by omega), if_pos before, if_neg (by omega)]
    · rw [if_neg (by omega)]
      by_cases inside : i < offset + bytes.length
      · rw [if_pos (by omega), if_pos (by omega), if_pos (by omega),
          show i - min offset base.length = i - offset by omega]
      · rw [if_neg (by omega), if_neg (by omega)]
        congr 1
        omega

@[simp] theorem overlay_nil (base : List UInt8) (offset : Nat) :
    overlay base offset [] = base := by
  simp [overlay]

/-- Bytes written behind each other. -/
theorem overlay_overlay (base : List UInt8) (offset : Nat)
    (first second : List UInt8) :
    overlay (overlay base offset first) (offset + first.length) second =
      overlay base offset (first ++ second) := by
  apply List.ext_getElem?
  intro i
  simp only [getElem?_overlay, length_overlay, List.length_append,
    List.getElem?_append]
  by_cases before : i < offset + first.length
  · rw [if_neg (by omega)]
    by_cases inside : offset ≤ i ∧ i < base.length
    · rw [if_pos (by omega), if_pos (by omega), if_pos (by omega)]
    · rw [if_neg (by omega), if_neg (by omega)]
  · rw [if_neg (c := offset ≤ i ∧ i < offset + first.length ∧
      i < base.length) (by omega)]
    by_cases inside : i < offset + first.length + second.length ∧
        i < base.length
    · rw [if_pos (by omega), if_pos (by omega), if_neg (by omega)]
      congr 1
      omega
    · rw [if_neg (by omega), if_neg (by omega)]

/-- Outside of an overlay nothing changes. -/
theorem getElem?_overlay_outside
    (base : List UInt8) {offset : Nat} {bytes : List UInt8} {i : Nat}
    (outside : i < offset ∨ offset + bytes.length ≤ i) :
    (overlay base offset bytes)[i]? = base[i]? := by
  rw [getElem?_overlay, if_neg (by omega)]

theorem getElem?_window
    (bytes : List UInt8) (offset length i : Nat) :
    (window bytes offset length)[i]? =
      if i < length then bytes[offset + i]? else none := by
  unfold window
  rw [List.getElem?_take, List.getElem?_drop]

theorem length_window
    {bytes : List UInt8} {offset length : Nat}
    (inside : offset + length ≤ bytes.length) :
    (window bytes offset length).length = length := by
  simp only [window, List.length_take, List.length_drop]
  omega

/-- What was written is read back. -/
theorem window_overlay_self
    {base : List UInt8} {offset : Nat} {bytes : List UInt8}
    (inside : offset + bytes.length ≤ base.length) :
    window (overlay base offset bytes) offset bytes.length = bytes := by
  apply List.ext_getElem?
  intro i
  rw [getElem?_window, getElem?_overlay]
  by_cases bounded : i < bytes.length
  · rw [if_pos bounded, if_pos (by omega), Nat.add_sub_cancel_left]
  · rw [if_neg bounded, List.getElem?_eq_none (by omega)]

/-- A write elsewhere is not seen. -/
theorem window_overlay_of_disjoint
    (base : List UInt8) {offset : Nat} {bytes : List UInt8}
    {other length : Nat}
    (disjoint : other + length ≤ offset ∨ offset + bytes.length ≤ other) :
    window (overlay base offset bytes) other length =
      window base other length := by
  apply List.ext_getElem?
  intro i
  rw [getElem?_window, getElem?_window]
  by_cases bounded : i < length
  · rw [if_pos bounded, if_pos bounded,
      getElem?_overlay_outside base (by omega)]
  · rw [if_neg bounded, if_neg bounded]

end VortarisECS
