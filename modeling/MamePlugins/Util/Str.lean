import MamePlugins.Library.CString

/-!
# Formatting into a buffer

`str_vformat` formats into a buffer of a given size and aborts the process if the text
does not fit. A format with its arguments is represented by the text it stands for.
-/

namespace MamePlugins.Util

open Library

/-- `_vsnprintf`: what it returns, and what it leaves in the buffer. A text that does not
fit is reported by a negative result or one of at least the size. -/
structure Vsnprintf where
  result : ℕ → List (BitVec 8) → ℤ
  buffer : ℕ → List (BitVec 8) → List (BitVec 8)
  result_of_lt : ∀ {nchars text}, text.length < nchars → result nchars text = text.length
  buffer_of_lt : ∀ {nchars text}, text.length < nchars →
    ∃ rest, buffer nchars text = text ++ 0 :: rest
  result_of_le : ∀ {nchars text}, nchars ≤ text.length →
    result nchars text < 0 ∨ nchars ≤ result nchars text

/-- `str_vformat`: the buffer and the length, or `none` for `abort`. -/
def strVformat (v : Vsnprintf) (nchars : ℕ) (text : List (BitVec 8)) :
    Option (List (BitVec 8) × ℕ) :=
  let result := v.result nchars text
  if result ≥ nchars ∨ result < 0 then none else some (v.buffer nchars text, result.toNat)

/-- `str_format` passes its arguments on. -/
def strFormat (v : Vsnprintf) (nchars : ℕ) (text : List (BitVec 8)) :
    Option (List (BitVec 8) × ℕ) :=
  strVformat v nchars text

variable (v : Vsnprintf) {nchars : ℕ} {text : List (BitVec 8)}

/-- A text that fits is terminated and counted. -/
theorem strVformat_of_lt (h : text.length < nchars) :
    ∃ rest, strVformat v nchars text = some (text ++ 0 :: rest, text.length) := by
  obtain ⟨rest, hrest⟩ := v.buffer_of_lt h
  have hfits : ¬((text.length : ℤ) ≥ nchars ∨ (text.length : ℤ) < 0) := by omega
  refine ⟨rest, ?_⟩
  rw [strVformat, v.result_of_lt h]
  rw [if_neg hfits, hrest, Int.toNat_natCast]

/-- Any other text aborts. -/
theorem strVformat_of_le (h : nchars ≤ text.length) : strVformat v nchars text = none := by
  rw [strVformat]
  rw [if_pos]
  rcases v.result_of_le h with hneg | hlarge
  · exact Or.inr hneg
  · exact Or.inl hlarge

end MamePlugins.Util
