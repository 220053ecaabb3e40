import MamePlugins.Util.Mem
import MamePlugins.Util.StrBuild
import Mathlib.Data.List.GetD

/-!
# Comparing texts

`str_ends_with` compares the bytes at the end of a text, and `str_eq` compares texts that
may be missing. This file says what they decide, for both widths of characters.
-/

namespace MamePlugins.Util

open Library

/-- The bytes of an array of characters of `k` bytes, the lowest first. -/
def byteAt {k : ℕ} (chars : List (BitVec (8 * k))) (i : ℕ) : BitVec 8 :=
  (chars.getD (i / k) 0).extractLsb' (8 * (i % k)) 8

/-- `memcmp` of `n` characters, if both arrays have that many. -/
def memcmpChars {k : ℕ} (s₁ s₂ : List (BitVec (8 * k))) (n : ℕ) : Option ℤ :=
  if n ≤ s₁.length ∧ n ≤ s₂.length then some (memcmp (byteAt s₁) (byteAt s₂) (n * k)) else none

/-- `str_ends_with` for characters of any number of bytes. -/
def endsWith {k : ℕ} (haystack needle : List (BitVec (8 * k))) : Except Fault Bool := do
  let haystackLen ← inBounds (textLength haystack)
  let needleLen ← inBounds (textLength needle)
  if needleLen > haystackLen then .ok false
  else
    let result ← inBounds
      (memcmpChars (haystack.drop (haystackLen - needleLen)) needle needleLen)
    .ok (decide (result = 0))

def strEndsWith (haystack needle : List (BitVec 8)) : Except Fault Bool :=
  endsWith (k := 1) haystack needle

def wstrEndsWith (haystack needle : List (BitVec 16)) : Except Fault Bool :=
  endsWith (k := 2) haystack needle

/-- `strcmp` and its relatives: the difference of the first two characters that differ
after a conversion, or zero. -/
def compareText {w : ℕ} (convert : BitVec w → BitVec w) :
    List (BitVec w) → List (BitVec w) → Option ℤ
  | a :: s, b :: t =>
    if convert a = convert b then if a = 0 then some 0 else compareText convert s t
    else some ((convert a).toNat - (convert b).toNat)
  | _, _ => none

/-- `str_eq` for characters of any width, compared after a conversion. The null pointer
is `none`. -/
def textEq {w : ℕ} (convert : BitVec w → BitVec w) (lhs rhs : Option (List (BitVec w))) :
    Except Fault Bool :=
  match lhs, rhs with
  | some lhs, some rhs => do
    let result ← inBounds (compareText convert lhs rhs)
    .ok (decide (result = 0))
  | none, none => .ok true
  | _, _ => .ok false

def strEq (lhs rhs : Option (List (BitVec 8))) : Except Fault Bool := textEq id lhs rhs

def wstrEq (lhs rhs : Option (List (BitVec 16))) : Except Fault Bool := textEq id lhs rhs

/-- `_wcsicmp` compares the lower case of the locale. -/
def wstrInsensitiveEq (towlower : BitVec 16 → BitVec 16) (lhs rhs : Option (List (BitVec 16))) :
    Except Fault Bool :=
  textEq towlower lhs rhs

/-! ### Suffixes -/

variable {k : ℕ} {s₁ s₂ : List (BitVec (8 * k))} {n : ℕ}

/-- Characters are the same if their bytes are. -/
theorem eq_of_bytes {a b : BitVec (8 * k)}
    (h : ∀ j < k, a.extractLsb' (8 * j) 8 = b.extractLsb' (8 * j) 8) : a = b := by
  refine BitVec.eq_of_getLsbD_eq fun i hi => ?_
  have hbyte := congrArg (BitVec.getLsbD · (i % 8)) (h (i / 8) (by omega))
  have hmod : i % 8 < 8 := Nat.mod_lt _ (by decide)
  have hsum : 8 * (i / 8) + i % 8 = i := Nat.div_add_mod ..
  simpa [BitVec.getLsbD_extractLsb', hmod, hsum] using hbyte

/-- `memcmp` tells whether all characters are the same. -/
theorem memcmpChars_cases (h₁ : n ≤ s₁.length) (h₂ : n ≤ s₂.length) :
    ∃ result, memcmpChars s₁ s₂ n = some result ∧ (result = 0 ↔ s₁.take n = s₂.take n) := by
  refine ⟨_, if_pos ⟨h₁, h₂⟩, ?_⟩
  rw [memcmp_eq_zero_iff]
  constructor
  · intro h
    refine List.ext_getElem? fun i => ?_
    by_cases hi : i < n
    · rw [List.getElem?_take_of_lt hi, List.getElem?_take_of_lt hi,
        List.getElem?_eq_getElem (by omega), List.getElem?_eq_getElem (by omega)]
      refine congrArg some (eq_of_bytes fun j hj => ?_)
      have hlt : i * k + j < n * k := calc
        i * k + j < i * k + k := Nat.add_lt_add_left hj _
        _ = (i + 1) * k := (Nat.succ_mul i k).symm
        _ ≤ n * k := Nat.mul_le_mul_right k hi
      have hdiv : (i * k + j) / k = i := by
        rw [Nat.mul_comm, Nat.mul_add_div (by omega), Nat.div_eq_of_lt hj, Nat.add_zero]
      have hmod : (i * k + j) % k = j := Nat.mul_add_mod_of_lt hj
      have hbyte := h _ hlt
      rwa [byteAt, byteAt, hdiv, hmod, List.getD_eq_getElem _ _ (by omega),
        List.getD_eq_getElem _ _ (by omega)] at hbyte
    · rw [List.getElem?_take_eq_none (by omega), List.getElem?_take_eq_none (by omega)]
  · intro h i hi
    have hchar : i / k < n := Nat.div_lt_of_lt_mul (by rwa [Nat.mul_comm])
    have hsame : (s₁.take n)[i / k]? = (s₂.take n)[i / k]? := by rw [h]
    rw [List.getElem?_take_of_lt hchar, List.getElem?_take_of_lt hchar] at hsame
    rw [byteAt, byteAt, List.getD_eq_getElem?_getD, List.getD_eq_getElem?_getD, hsame]

theorem endsWith_of_reads {haystack needle text text' : List (BitVec (8 * k))}
    (h : Reads haystack text) (h' : Reads needle text') :
    endsWith haystack needle = .ok (decide (text' <:+ text)) := by
  simp only [endsWith, h.textLength_eq, h'.textLength_eq, inBounds, bind, Except.bind]
  by_cases hlonger : text'.length > text.length
  · have hnot : ¬text' <:+ text := fun hsuffix => absurd hsuffix.length_le (not_le.mpr hlonger)
    rw [if_pos hlonger, decide_eq_false hnot]
  · rw [if_neg hlonger]
    obtain ⟨-, rest, rfl⟩ := h
    obtain ⟨-, rest', rfl⟩ := h'
    -- What is compared is the end of the text, as long as the other text is.
    have hdrop : (text ++ 0 :: rest).drop (text.length - text'.length) =
        text.drop (text.length - text'.length) ++ 0 :: rest :=
      List.drop_append_of_le_length (Nat.sub_le ..)
    have hend : (text.drop (text.length - text'.length)).length = text'.length := by
      rw [List.length_drop]
      omega
    have htail : (text.drop (text.length - text'.length) ++ 0 :: rest).take text'.length =
        text.drop (text.length - text'.length) := List.take_left' hend
    obtain ⟨result, hresult, hiff⟩ := memcmpChars_cases (n := text'.length)
      (show text'.length ≤ (text.drop (text.length - text'.length) ++ 0 :: rest).length by
        rw [List.length_append]
        omega)
      (show text'.length ≤ (text' ++ 0 :: rest').length by simp)
    rw [htail, List.take_left] at hiff
    rw [hdrop, hresult]
    simp only [hiff, List.suffix_iff_eq_drop, eq_comm]

/-- **What `str_ends_with` decides.** For all texts: whether the one is a suffix of the
other, without an access behind either of them. -/
theorem ends_with_iff (haystack needle : List (BitVec (8 * k))) (hhaystack : 0 ∈ haystack)
    (hneedle : 0 ∈ needle) :
    endsWith haystack needle = .ok (decide (bufferText needle <:+ bufferText haystack)) :=
  endsWith_of_reads (reads_bufferText hhaystack) (reads_bufferText hneedle)

/-- A wide text that ends in its last character and not in the one before it. -/
theorem ends_with_iff_wide :
    wstrEndsWith [0x3061, 0x3062, 0, 7] [0x3062, 0] = .ok true ∧
      wstrEndsWith [0x3061, 0x3062, 0, 7] [0x3061, 0] = .ok false :=
  ⟨(ends_with_iff (k := 2) [0x3061, 0x3062, 0, 7] [0x3062, 0] (by decide) (by decide)).trans
      (by decide),
    (ends_with_iff (k := 2) [0x3061, 0x3062, 0, 7] [0x3061, 0] (by decide) (by decide)).trans
      (by decide)⟩

/-! ### Equality -/

/-- A comparison tells whether the texts are the same after the conversion. -/
theorem compareText_cases {w : ℕ} {convert : BitVec w → BitVec w}
    (hconvert : ∀ c, convert c = 0 ↔ c = 0) {lhs rhs text text' : List (BitVec w)}
    (h : Reads lhs text) (h' : Reads rhs text') :
    ∃ result, compareText convert lhs rhs = some result ∧
      (result = 0 ↔ text.map convert = text'.map convert) := by
  obtain ⟨hnull, rest, rfl⟩ := h
  obtain ⟨hnull', rest', rfl⟩ := h'
  have hdiffer {a b : BitVec w} (hab : convert a ≠ convert b) :
      ((convert a).toNat : ℤ) - (convert b).toNat ≠ 0 := by
    have hne : (convert a).toNat ≠ (convert b).toNat := fun h => hab (BitVec.eq_of_toNat_eq h)
    omega
  induction text generalizing text' with
  | nil =>
    cases text' with
    | nil => exact ⟨0, by simp [compareText], by simp⟩
    | cons b text' =>
      rw [List.mem_cons, not_or] at hnull'
      have hne : convert 0 ≠ convert b := by
        rw [(hconvert 0).mpr rfl]
        exact fun h => hnull'.1 ((hconvert b).mp h.symm).symm
      exact ⟨_, if_neg hne, iff_of_false (hdiffer hne) (by simp)⟩
  | cons a text ih =>
    rw [List.mem_cons, not_or] at hnull
    cases text' with
    | nil =>
      have hne : convert a ≠ convert 0 := by
        rw [(hconvert 0).mpr rfl]
        exact fun h => hnull.1 ((hconvert a).mp h).symm
      exact ⟨_, if_neg hne, iff_of_false (hdiffer hne) (by simp)⟩
    | cons b text' =>
      rw [List.mem_cons, not_or] at hnull'
      by_cases hsame : convert a = convert b
      · obtain ⟨result, hresult, hiff⟩ := ih hnull.2 hnull'.2
        refine ⟨result, ?_, by simp [hiff, hsame]⟩
        rw [List.cons_append, List.cons_append, compareText, if_pos hsame, if_neg (Ne.symm hnull.1)]
        exact hresult
      · refine ⟨_, if_neg hsame, iff_of_false (hdiffer hsame) fun h => hsame ?_⟩
        exact (List.cons.inj h).1

/-- **What `str_eq` decides.** For all pointers to texts, null pointers among them: whether
both are null, or both texts are the same after the conversion, without an access behind
either of them. -/
theorem text_eq_iff {w : ℕ} (convert : BitVec w → BitVec w)
    (hconvert : ∀ c, convert c = 0 ↔ c = 0) (lhs rhs : Option (List (BitVec w)))
    (hlhs : ∀ l ∈ lhs, 0 ∈ l) (hrhs : ∀ r ∈ rhs, 0 ∈ r) :
    textEq convert lhs rhs =
      .ok (decide (lhs.map (fun l => (bufferText l).map convert) =
        rhs.map fun r => (bufferText r).map convert)) := by
  cases lhs with
  | none => cases rhs <;> rfl
  | some l =>
    cases rhs with
    | none => rfl
    | some r =>
      obtain ⟨result, hresult, hiff⟩ := compareText_cases hconvert
        (reads_bufferText (hlhs l rfl)) (reads_bufferText (hrhs r rfl))
      simp [textEq, hresult, inBounds, bind, Except.bind, hiff]

/-- Texts with different characters behind them, and a missing one. -/
theorem text_eq_iff_behind :
    strEq (some [0x61, 0, 1]) (some [0x61, 0, 2]) = .ok true ∧
      strEq none (some [0]) = .ok false :=
  ⟨(text_eq_iff id (fun _ => Iff.rfl) (some [0x61, 0, 1]) (some [0x61, 0, 2]) (by decide)
      (by decide)).trans (by decide),
    (text_eq_iff id (fun _ => Iff.rfl) none (some [0]) (by decide) (by decide)).trans
      (by decide)⟩

end MamePlugins.Util
