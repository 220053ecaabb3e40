import Mathlib.Data.List.GetD
import Mathlib.Data.List.TakeWhile
import Mathlib.Data.Nat.Find
import Mathlib.Logic.Function.Basic

/-!
# C strings

A C string is the bytes from a pointer up to the first null byte. This file has
C strings as values, the string that a buffer reads as, and the string at an
address of a memory.
-/

namespace MamePlugins.Library

/-- A C string: bytes, none of them null. -/
structure CString where
  bytes : List (BitVec 8)
  noNull : 0 ∉ bytes
  deriving DecidableEq

@[ext] theorem CString.ext {s t : CString} (h : s.bytes = t.bytes) : s = t := by
  cases s
  cases t
  simpa using h

def CString.length (s : CString) : ℕ := s.bytes.length

/-! ### Buffers -/

/-- What a buffer reads as, up to its first null byte. -/
def CString.ofBuffer (buffer : List (BitVec 8)) : CString where
  bytes := buffer.takeWhile (· ≠ 0)
  noNull h := by simpa using List.mem_takeWhile_imp h

variable {s t : CString} {buffer rest : List (BitVec 8)}

/-- Nothing behind a terminator is read. -/
theorem CString.ofBuffer_append_null :
    CString.ofBuffer (buffer ++ 0 :: rest) = CString.ofBuffer buffer := by
  ext1
  change List.takeWhile _ (buffer ++ 0 :: rest) = List.takeWhile _ buffer
  rw [List.takeWhile_append]
  split_ifs with h
  · simpa using ((List.takeWhile_prefix _).eq_of_length h).symm
  · rfl

/-- A buffer without a null byte reads in full. -/
theorem CString.ofBuffer_of_not_mem (h : 0 ∉ buffer) :
    (CString.ofBuffer buffer).bytes = buffer := by
  rw [CString.ofBuffer, List.takeWhile_eq_self_iff]
  intro b hb
  have hne : b ≠ 0 := fun hzero => h (hzero ▸ hb)
  simpa using hne

/-- A buffer reads in full exactly if it has no null byte. -/
theorem CString.length_ofBuffer_eq_iff :
    (CString.ofBuffer buffer).length = buffer.length ↔ 0 ∉ buffer := by
  constructor
  · intro h hzero
    have hfull : (CString.ofBuffer buffer).bytes = buffer :=
      (List.takeWhile_prefix _).eq_of_length h
    refine (CString.ofBuffer buffer).noNull ?_
    rwa [hfull]
  · intro h
    rw [CString.length, CString.ofBuffer_of_not_mem h]

/-! ### Memory -/

variable {mem : ℕ → BitVec 8} {p : ℕ}

/-- The bytes stand at an address of a memory, with a terminator. -/
def TerminatedAt (bytes : List (BitVec 8)) (mem : ℕ → BitVec 8) (p : ℕ) : Prop :=
  ∀ i ≤ bytes.length, mem (p + i) = bytes.getD i 0

/-- The string stands at an address of a memory. -/
def CString.At (s : CString) (mem : ℕ → BitVec 8) (p : ℕ) : Prop :=
  TerminatedAt s.bytes mem p

theorem TerminatedAt.last {l : List (BitVec 8)} {b : BitVec 8}
    (h : TerminatedAt (l ++ [b]) mem p) : mem (p + l.length) = b := by
  rw [h l.length (by simp)]
  simp

/-- Overwriting the last byte leaves the l before it. -/
theorem TerminatedAt.overwrite {l : List (BitVec 8)} {b : BitVec 8}
    (h : TerminatedAt (l ++ [b]) mem p) :
    TerminatedAt l (Function.update mem (p + l.length) 0) p := by
  intro i hi
  by_cases hlast : i = l.length
  · rw [hlast, Function.update_self, List.getD_eq_default _ _ le_rfl]
  · have hi' : i < l.length := by omega
    rw [Function.update_of_ne (by omega), h i (by simp; omega),
      List.getD_append _ _ _ _ hi']

/-- `strlen`, of a pointer to memory with a null byte somewhere after it. -/
def strlen (mem : ℕ → BitVec 8) (p : ℕ) (h : ∃ n, mem (p + n) = 0) : ℕ := Nat.find h

theorem CString.At.terminator (h : s.At mem p) : mem (p + s.length) = 0 := by
  rw [h s.length le_rfl, CString.length, List.getD_eq_default _ _ le_rfl]

theorem CString.At.exists_null (h : s.At mem p) : ∃ n, mem (p + n) = 0 :=
  ⟨s.length, h.terminator⟩

theorem CString.At.byte (h : s.At mem p) {i : ℕ} (hi : i < s.length) :
    mem (p + i) = s.bytes.getD i 0 ∧ mem (p + i) ≠ 0 := by
  have hbyte := h i hi.le
  refine ⟨hbyte, fun hzero => s.noNull ?_⟩
  rw [hzero, List.getD_eq_getElem _ _ hi] at hbyte
  rw [hbyte]
  exact List.getElem_mem hi

/-- `strlen` is the length of the string. -/
theorem CString.At.strlen_eq (h : s.At mem p) (hnull : ∃ n, mem (p + n) = 0) :
    strlen mem p hnull = s.length :=
  (Nat.find_eq_iff hnull).mpr ⟨h.terminator, fun _ hi => (h.byte hi).2⟩

/-- An address holds at most one string. -/
theorem CString.At.unique (hs : s.At mem p) (ht : t.At mem p) : s = t := by
  have hlength : s.length = t.length :=
    (hs.strlen_eq hs.exists_null).symm.trans (ht.strlen_eq hs.exists_null)
  ext1
  refine List.ext_getElem hlength fun i hi hi' => ?_
  have hbyte := (hs.byte hi).1.symm.trans (ht.byte hi').1
  rwa [List.getD_eq_getElem _ _ hi, List.getD_eq_getElem _ _ hi'] at hbyte

end MamePlugins.Library
