import MamePlugins.Library.CString
import MamePlugins.Library.Trim

/-!
# Trimming a string in place

`str_trim` overwrites trailing white space with null bytes, from the end of the string
down to, but not including, its first character. This file determines the string it
leaves.
-/

namespace MamePlugins.Util

open Library

/-- The loop of `str_trim`, `pos` being `str + i`. It ends at the first character. -/
def strTrimLoop (isspace : BitVec 8 → Bool) (str : ℕ) :
    ℕ → (ℕ → BitVec 8) → ℕ → BitVec 8
  | 0, mem => mem
  | i + 1, mem =>
    if ¬isspace (mem (str + (i + 1))) then mem
    else strTrimLoop isspace str i (Function.update mem (str + (i + 1)) 0)

/-- `str_trim`, as the memory it leaves. For the empty string `pos` starts before `str`,
and the loop is not entered. -/
def strTrim (isspace : BitVec 8 → Bool) (mem : ℕ → BitVec 8) (str : ℕ)
    (h : ∃ n, mem (str + n) = 0) : ℕ → BitVec 8 :=
  strTrimLoop isspace str (strlen mem str h - 1) mem

variable {isspace : BitVec 8 → Bool} {mem : ℕ → BitVec 8} {str : ℕ} {b : BitVec 8}
  {tail : List (BitVec 8)}

/-- The loop writes between the first character and where it starts. -/
theorem strTrimLoop_frame {i a : ℕ} (ha : a ≤ str ∨ str + i < a) :
    strTrimLoop isspace str i mem a = mem a := by
  induction i generalizing mem with
  | zero => rfl
  | succ i ih =>
    rw [strTrimLoop]
    split_ifs
    · rw [ih (by omega), Function.update_of_ne (by omega)]
    · rfl

/-- The loop leaves the first character, and the others without their trailing white
space. -/
theorem strTrimLoop_terminatedAt (h : TerminatedAt (b :: tail) mem str) :
    TerminatedAt (b :: tail.rdropWhile isspace)
      (strTrimLoop isspace str tail.length mem) str := by
  induction tail using List.reverseRecOn generalizing mem with
  | nil => exact h
  | append_singleton tail c ih =>
    have hend : mem (str + (tail.length + 1)) = c := TerminatedAt.last (l := b :: tail) h
    rw [List.length_append, List.length_singleton, strTrimLoop, hend]
    by_cases hc : isspace c = true
    · rw [if_neg (not_not.mpr hc), List.rdropWhile_concat_pos isspace tail c hc]
      exact ih (TerminatedAt.overwrite (l := b :: tail) h)
    · rw [if_pos hc, List.rdropWhile_concat_neg isspace tail c hc]
      exact h

/-- The loop leaves a string without trailing white space as it is. -/
theorem strTrimLoop_eq_self (h : TerminatedAt (b :: tail) mem str)
    (htrimmed : Trimmed isspace tail) : strTrimLoop isspace str tail.length mem = mem := by
  cases tail using List.reverseRecOn with
  | nil => rfl
  | append_singleton tail c =>
    have hc : ¬isspace c = true := by simpa using htrimmed (by simp)
    have hend : mem (str + (tail.length + 1)) = c := TerminatedAt.last (l := b :: tail) h
    rw [List.length_append, List.length_singleton, strTrimLoop, hend, if_pos hc]

/-! ### The string -/

/-- The string is trimmed: the longest start of it that is empty or ends in a character
that is no white space stands in its place, no cell before it or behind its terminator
is written, and trimming again changes nothing. -/
structure TrimsAt (isspace : BitVec 8 → Bool) (s : CString) (mem : ℕ → BitVec 8) (str : ℕ)
    (mem' : ℕ → BitVec 8) : Prop where
  string : ∃ t : CString, t.At mem' str ∧ IsTrimOf isspace s.bytes t.bytes
  frame : ∀ a, a < str ∨ str + s.length < a → mem' a = mem a
  again : ∀ hnull, strTrim isspace mem' str hnull = mem'

/-- The string that `str_trim` leaves. -/
def trimTail (isspace : BitVec 8 → Bool) (s : CString) : CString where
  bytes := s.bytes.take 1 ++ (s.bytes.drop 1).rdropWhile isspace
  noNull h := by
    rcases List.mem_append.mp h with hfirst | hrest
    · exact s.noNull (List.mem_of_mem_take hfirst)
    · exact s.noNull (List.mem_of_mem_drop ((List.rdropWhile_prefix _ _).mem hrest))

variable {s : CString}

theorem trimTail_bytes (isspace : BitVec 8 → Bool) (s : CString) : (trimTail isspace s).bytes =
    s.bytes.take 1 ++ (s.bytes.drop 1).rdropWhile isspace :=
  rfl

theorem strTrim_eq (h : s.At mem str) (hnull : ∃ n, mem (str + n) = 0) :
    strTrim isspace mem str hnull = strTrimLoop isspace str (s.length - 1) mem := by
  rw [strTrim, h.strlen_eq]

/-- `str_trim` leaves the first character, if any, and trims the others. -/
theorem strTrim_at (isspace : BitVec 8 → Bool) (h : s.At mem str)
    (hnull : ∃ n, mem (str + n) = 0) :
    (trimTail isspace s).At (strTrim isspace mem str hnull) str := by
  rw [strTrim_eq h, CString.At, trimTail_bytes, CString.length]
  rw [CString.At] at h
  cases hs : s.bytes with
  | nil =>
    rw [hs] at h
    exact h
  | cons b tail =>
    rw [hs] at h
    exact strTrimLoop_terminatedAt h

/-- `str_trim` leaves a string as it is if nothing behind its first character is trailing
white space. -/
theorem strTrim_eq_self (h : s.At mem str) (htrimmed : Trimmed isspace (s.bytes.drop 1))
    (hnull : ∃ n, mem (str + n) = 0) : strTrim isspace mem str hnull = mem := by
  rw [strTrim_eq h, CString.length]
  rw [CString.At] at h
  cases hs : s.bytes with
  | nil => rfl
  | cons b tail =>
    rw [hs] at h htrimmed
    exact strTrimLoop_eq_self h htrimmed

theorem trimmed_trimTail (isspace : BitVec 8 → Bool) (s : CString) :
    Trimmed isspace ((trimTail isspace s).bytes.drop 1) := by
  rw [trimTail_bytes]
  cases s.bytes with
  | nil => exact fun hne => absurd rfl hne
  | cons b tail => exact List.rdropWhile_last_not isspace tail

/-- Trimming all characters but the first is trimming, unless the first must go. -/
theorem isTrimOf_trimTail_iff (isspace : BitVec 8 → Bool) (s : CString) :
    IsTrimOf isspace s.bytes (trimTail isspace s).bytes ↔
      s.bytes = [] ∨ ∃ b ∈ s.bytes, isspace b = false := by
  rw [isTrimOf_iff, trimTail_bytes]
  cases s.bytes with
  | nil => simp
  | cons b tail =>
    rw [or_iff_right (List.cons_ne_nil b tail)]
    exact cons_rdropWhile_eq_iff

/-- **When `str_trim` trims a string.** For every memory with a string in it, and every
notion of white space: exactly if the string is empty or has a character that is no
white space. -/
theorem str_trim_iff (isspace : BitVec 8 → Bool) (mem : ℕ → BitVec 8) (str : ℕ) (s : CString)
    (h : s.At mem str) :
    TrimsAt isspace s mem str (strTrim isspace mem str h.exists_null) ↔
      s.bytes = [] ∨ ∃ b ∈ s.bytes, isspace b = false := by
  have hat := strTrim_at isspace h h.exists_null
  rw [← isTrimOf_trimTail_iff]
  constructor
  · intro htrims
    obtain ⟨t, ht, htrim⟩ := htrims.string
    rwa [ht.unique hat] at htrim
  · refine fun htrim => ⟨⟨_, hat, htrim⟩, fun a ha => ?_, fun hnull => ?_⟩
    · rw [strTrim_eq h]
      exact strTrimLoop_frame (by omega)
    · exact strTrim_eq_self hat (trimmed_trimTail isspace s) hnull

/-- The white space of the C locale. -/
def isspaceC (b : BitVec 8) : Bool := b = 0x20 ∨ 0x09 ≤ b ∧ b ≤ 0x0d

/-- A memory with a short string at its start. -/
def memOf (bytes : List (BitVec 8)) (a : ℕ) : BitVec 8 := bytes.getD a 0

theorem memOf_at (s : CString) : s.At (memOf s.bytes) 0 := by
  intro i hi
  rw [memOf, Nat.zero_add]

/-- The letter `a` and a line feed. -/
theorem str_trim_letter :
    TrimsAt isspaceC ⟨[0x61, 0x0a], by decide⟩ (memOf [0x61, 0x0a]) 0
      (strTrim isspaceC (memOf [0x61, 0x0a]) 0 (memOf_at ⟨[0x61, 0x0a], by decide⟩).exists_null) :=
  (str_trim_iff isspaceC _ 0 ⟨[0x61, 0x0a], by decide⟩ (memOf_at _)).mpr
    (Or.inr ⟨0x61, by decide, by decide⟩)

/-- A single blank stays. -/
theorem str_trim_blank :
    ¬TrimsAt isspaceC ⟨[0x20], by decide⟩ (memOf [0x20]) 0
      (strTrim isspaceC (memOf [0x20]) 0 (memOf_at ⟨[0x20], by decide⟩).exists_null) := by
  intro htrims
  obtain ⟨t, ht, htrim⟩ := htrims.string
  have hblank : isspaceC 0x20 = true := by decide
  rw [isTrimOf_iff] at htrim
  have hat := strTrim_at isspaceC (memOf_at ⟨[0x20], by decide⟩)
    (memOf_at ⟨[0x20], by decide⟩).exists_null
  have heq := congrArg CString.bytes (ht.unique hat)
  rw [htrim] at heq
  revert heq
  decide

end MamePlugins.Util
