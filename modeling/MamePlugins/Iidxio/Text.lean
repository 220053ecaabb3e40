import MamePlugins.Iidxio.Twinkle
import Mathlib.Tactic.FieldSimp
import Mathlib.Tactic.Ring

/-!
# The display text

The text buffer always holds one character for each of the nine display cells and
a null byte. This file proves that the rebuilding of the string in
`twinkle_io_write` never fails and replaces exactly one character.
-/

namespace MamePlugins.Iidxio

/-- The character that a data byte shows. -/
def displayChar (data : BitVec 8) : BitVec 8 := (data ^^^ 0xff) &&& 0x7f

/-- The index of a display cell, the cells counted from zero. -/
def charIndex (k : ℕ) : BitVec 8 := BitVec.ofNat 8 (0x3f + 8 * k)

/-- The text that the last data bytes of the registers show; a cell never written
is a null byte. -/
def textOf (cell : BitVec 8 → Option (BitVec 8)) : LuaString :=
  (List.range 9).map (fun k => (cell (charIndex k)).elim 0 displayChar) ++ [0]

theorem textOf_none : textOf (fun _ => none) = text16segBlank := by
  decide

theorem textOf_length (cell : BitVec 8 → Option (BitVec 8)) : (textOf cell).length = 10 := by
  simp [textOf]

/-- The nine characters. -/
theorem textOf_getElem? (cell : BitVec 8 → Option (BitVec 8)) {k : ℕ} (hk : k < 9) :
    (textOf cell)[k]? = some ((cell (charIndex k)).elim 0 displayChar) := by
  rw [textOf, List.getElem?_append_left (by simpa using hk), List.getElem?_map,
    List.getElem?_range hk]
  rfl

/-- The null byte. -/
theorem textOf_getElem?_nine (cell : BitVec 8 → Option (BitVec 8)) :
    (textOf cell)[9]? = some 0 := by
  rw [textOf, List.getElem?_append_right (by simp)]
  simp

theorem charIndex_injective {j k : ℕ} (hj : j < 9) (hk : k < 9)
    (h : charIndex j = charIndex k) : j = k := by
  have hnat := congrArg BitVec.toNat h
  simp only [charIndex, BitVec.toNat_ofNat] at hnat
  omega

/-- The text after one more byte for a display cell. -/
theorem textOf_update_charIndex (cell : BitVec 8 → Option (BitVec 8)) {k : ℕ} (hk : k < 9)
    (data : BitVec 8) :
    textOf (Function.update cell (charIndex k) (some data)) =
      ((textOf cell).take 9).set k (displayChar data) ++ [0] := by
  have hcells : (textOf cell).take 9 =
      (List.range 9).map fun k => (cell (charIndex k)).elim 0 displayChar :=
    List.take_left' (by simp)
  rw [hcells, textOf]
  congr 1
  apply List.ext_getElem (by simp)
  intro j hj _
  have hj9 : j < 9 := by simpa using hj
  rw [List.getElem_map, List.getElem_set, List.getElem_range]
  by_cases hjk : j = k
  · rw [if_pos hjk.symm, hjk, Function.update_self]
    rfl
  · have hne : charIndex j ≠ charIndex k := fun h => hjk (charIndex_injective hj9 hk h)
    rw [if_neg (Ne.symm hjk), Function.update_of_ne hne, List.getElem_map, List.getElem_range]

/-- A byte for any other register does not change the text. -/
theorem textOf_update_of_ne (cell : BitVec 8 → Option (BitVec 8)) {i : BitVec 8}
    (hi : ∀ k < 9, i ≠ charIndex k) (data : Option (BitVec 8)) :
    textOf (Function.update cell i data) = textOf cell := by
  rw [textOf, textOf]
  congr 1
  refine List.map_congr_left fun k hk => ?_
  rw [Function.update_of_ne (hi k (List.mem_range.mp hk)).symm]

/-! ### Unpacking and packing -/

/-- A byte of a string as `string.byte` gives it. -/
def byteCode (b : BitVec 8) : Option LuaInt := some (b.setWidth 64)

/-- `string.char` takes the codes of bytes back to the bytes. -/
theorem stringChar_byteCode (bytes : LuaString) : stringChar (bytes.map byteCode) = .ok bytes := by
  have hargument (b : BitVec 8) : charArgument (byteCode b) = .ok b := by
    have hle : (b.setWidth 64).toNat ≤ 255 := by
      rw [BitVec.toNat_setWidth, Nat.mod_eq_of_lt (by omega)]
      omega
    rw [byteCode, charArgument.eq_def]
    dsimp only
    rw [if_pos hle, BitVec.setWidth_setWidth_of_le _ (by decide), BitVec.setWidth_eq]
  induction bytes with
  | nil => rfl
  | cons b bytes ih =>
    rw [stringChar] at ih ⊢
    rw [List.map_cons, List.mapM_cons, hargument, ih]
    rfl

/-- The nine bytes that `twinkle_io_write` unpacks. -/
theorem stringByte_nine {text : LuaString} (htext : text.length = 10) :
    [1, 2, 3, 4, 5, 6, 7, 8, 9].map (stringByte text) = (text.take 9).map byteCode := by
  have hpositions : [1, 2, 3, 4, 5, 6, 7, 8, 9] = (List.range 9).map (· + 1) := rfl
  rw [hpositions]
  apply List.ext_getElem (by simp [htext])
  intro k hk _
  have hk9 : k < 9 := by simpa using hk
  rw [List.getElem_map, List.getElem_map, List.getElem_range, List.getElem_map,
    List.getElem_take, stringByte, luaIndex, if_neg (Nat.succ_ne_zero k), Nat.add_sub_cancel,
    List.getElem?_eq_getElem (by omega)]
  rfl

/-- The float key of a display cell is its number, counted from one. -/
theorem floatKey_charIndex {k : ℕ} (hk : k < 9) :
    floatKey ((((charIndex k).setWidth 64 - 0x3f : LuaInt).toInt : ℚ) / 8 + 1) =
      some ((k : ℤ) + 1) := by
  have hindex : ((charIndex k).setWidth 64 - 0x3f : LuaInt).toInt = 8 * (k : ℤ) := by
    revert k
    decide
  have hkey : ((8 * (k : ℤ) : ℤ) : ℚ) / 8 + 1 = (((k : ℤ) + 1 : ℤ) : ℚ) := by
    push_cast
    ring
  rw [hindex, hkey, floatKey, if_pos (Rat.den_intCast _), Rat.num_intCast]

/-- The code of the character that a data byte shows. -/
theorem byteCode_displayChar (data : BitVec 8) :
    some (((data.setWidth 64 ^^^ 0xff) &&& 0x7f : LuaInt)) = byteCode (displayChar data) := by
  rw [byteCode, displayChar, BitVec.setWidth_and, BitVec.setWidth_xor]
  rfl

/-- Rebuilding the string replaces one character, and never fails. -/
theorem writeChar_eq (cell : BitVec 8 → Option (BitVec 8)) {k : ℕ} (hk : k < 9)
    (data : BitVec 8) :
    writeChar ((charIndex k).setWidth 64) ((data.setWidth 64 ^^^ 0xff) &&& 0x7f) (textOf cell) =
      .ok (textOf (Function.update cell (charIndex k) (some data))) := by
  have hkey : (1 : ℤ) ≤ (k : ℤ) + 1 ∧ (k : ℤ) + 1 ≤ 9 := by omega
  have hentry : ((k : ℤ) + 1 - 1).toNat = k := by omega
  have hnull : [some (0 : LuaInt)] = [(0 : BitVec 8)].map byteCode := rfl
  rw [writeChar, floatKey_charIndex hk, stringByte_nine (textOf_length cell), assignByte,
    if_pos hkey, hentry, byteCode_displayChar, ← List.map_set, hnull, ← List.map_append,
    stringChar_byteCode, textOf_update_charIndex cell hk]

end MamePlugins.Iidxio
