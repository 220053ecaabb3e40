import Mathlib.Data.List.Basic
import Mathlib.Data.List.TakeWhile

/-!
# Texts in buffers

A buffer holds a text up to the first null. This file has the length of that text, and
a copy into a buffer that must stay inside both of its sides.
-/

namespace MamePlugins.Library

variable {α : Type*} [Zero α]

/-- The buffer holds the text, with a null behind it. -/
def Reads (buffer text : List α) : Prop := 0 ∉ text ∧ ∃ rest, buffer = text ++ 0 :: rest

/-- Copies `n` cells to a position of a buffer, if they and their place are inside. -/
def copyInto (dest : List α) (pos : ℕ) (src : List α) (n : ℕ) : Option (List α) :=
  if pos + n ≤ dest.length ∧ n ≤ src.length then
    some (dest.take pos ++ src.take n ++ dest.drop (pos + n))
  else none

variable {buffer dest src text : List α} {pos : ℕ}

theorem Reads.length_lt (h : Reads buffer text) : text.length < buffer.length := by
  obtain ⟨-, rest, rfl⟩ := h
  simp

/-- A text that is copied with its null, and has room, is what the buffer holds from there
on. -/
theorem Reads.copyInto_eq (h : Reads src text) (hroom : pos + text.length < dest.length) :
    copyInto dest pos src (text.length + 1) =
      some (dest.take pos ++ (text ++ 0 :: dest.drop (pos + (text.length + 1)))) := by
  have hlength := h.length_lt
  obtain ⟨-, rest, rfl⟩ := h
  have htake : (text ++ 0 :: rest).take (text.length + 1) = text ++ [0] := by
    rw [List.take_length_add_append, List.take_succ_cons, List.take_zero]
  rw [copyInto, if_pos ⟨by omega, by omega⟩, htake, List.append_assoc, List.append_assoc]
  rfl

variable [DecidableEq α]

/-- The length of the text in a buffer. Without a null the search runs over its end. -/
def textLength (buffer : List α) : Option ℕ :=
  if 0 ∈ buffer then some (buffer.idxOf 0) else none

/-- The text in a buffer. -/
def bufferText (buffer : List α) : List α := buffer.takeWhile (· ≠ 0)

theorem bufferText_noNull : 0 ∉ bufferText buffer :=
  fun h => by simpa using List.mem_takeWhile_imp h

theorem reads_bufferText (h : 0 ∈ buffer) : Reads buffer (bufferText buffer) := by
  obtain ⟨text, rest, rfl, hnull⟩ := List.eq_append_cons_of_mem h
  have htext : bufferText (text ++ 0 :: rest) = text := by
    rw [bufferText, List.takeWhile_append_of_pos, List.takeWhile_cons_of_neg (by simp),
      List.append_nil]
    intro c hc
    have hne : c ≠ 0 := fun hzero => hnull (hzero ▸ hc)
    simpa using hne
  rw [htext]
  exact ⟨hnull, rest, rfl⟩

theorem Reads.textLength_eq (h : Reads buffer text) : textLength buffer = some text.length := by
  obtain ⟨hnull, rest, rfl⟩ := h
  rw [textLength, if_pos (by simp), List.idxOf_append_of_notMem hnull, List.idxOf_cons_self,
    Nat.add_zero]

end MamePlugins.Library
