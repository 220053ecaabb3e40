import Mathlib.Data.BitVec
import Mathlib.Logic.Function.Basic

/-!
# Patching code

`mem_nop` has a region made writable, fills it, and has it given back the protection of
its first page. This file says what it leaves of the memory and of its protection, for
any system that keeps to the documentation of `VirtualProtect`.
-/

namespace MamePlugins.Util

/-- Memory by address, the protection of its pages by number, and what else the system
goes by. -/
structure AddressSpace (σ : Type) where
  bytes : ℕ → BitVec 8
  protection : ℕ → BitVec 32
  system : σ

def pageSize : ℕ := 4096

/-- `PAGE_EXECUTE_READWRITE` -/
def pageExecuteReadwrite : BitVec 32 := 0x40

/-- The page has a byte of the region. -/
def IsTouched (address size page : ℕ) : Prop :=
  0 < size ∧ address / pageSize ≤ page ∧ page ≤ (address + size - 1) / pageSize

instance (address size page : ℕ) : Decidable (IsTouched address size page) :=
  inferInstanceAs (Decidable (_ ∧ _))

/-- `VirtualProtect`: whether it succeeds, the protection it stores, and what it leaves.
It writes no byte of the memory. If it succeeds, it stores the protection of the first
page of the region, and has changed that of all pages of the region and of no others.
Nothing is known of a protection after it has failed. -/
structure VirtualProtect (σ : Type) where
  call : ℕ → ℕ → BitVec 32 → AddressSpace σ → Bool × BitVec 32 × AddressSpace σ
  bytes_eq : ∀ address size newProtect s, (call address size newProtect s).2.2.bytes = s.bytes
  old_of_success : ∀ address size newProtect s, (call address size newProtect s).1 = true →
    0 < size → (call address size newProtect s).2.1 = s.protection (address / pageSize)
  protection_of_success : ∀ address size newProtect s,
    (call address size newProtect s).1 = true → ∀ page,
      (call address size newProtect s).2.2.protection page =
        if IsTouched address size page then newProtect else s.protection page

variable {σ : Type}

/-- The loop of `mem_nop`, for the first `n` bytes. -/
def nopLoop (memOffset : BitVec 64) (n : ℕ) (bytes : ℕ → BitVec 8) : ℕ → BitVec 8 :=
  (List.range n).foldl
    (fun bytes i => Function.update bytes (memOffset + BitVec.ofNat 64 i).toNat 0x90) bytes

/-- `mem_nop`, of a region without its own stack. -/
def memNop (vp : VirtualProtect σ) (memOffset length : BitVec 64) (s : AddressSpace σ) :
    Bool × AddressSpace σ :=
  let (result, oldProt, s) := vp.call memOffset.toNat length.toNat pageExecuteReadwrite s
  if result = false then (false, s)
  else
    let s := { s with bytes := nopLoop memOffset length.toNat s.bytes }
    let (result, _, s) := vp.call memOffset.toNat length.toNat oldProt s
    if result = false then (false, s) else (true, s)

/-! ### The region -/

variable {vp : VirtualProtect σ} {memOffset length : BitVec 64} {s : AddressSpace σ}

/-- The loop fills the bytes that it has reached, and no others. -/
theorem nopLoop_apply {n : ℕ} (hwrap : memOffset.toNat + n ≤ 2 ^ 64) (bytes : ℕ → BitVec 8)
    (a : ℕ) :
    nopLoop memOffset n bytes a =
      if memOffset.toNat ≤ a ∧ a < memOffset.toNat + n then 0x90 else bytes a := by
  induction n with
  | zero => exact (if_neg (by omega)).symm
  | succ n ih =>
    have hpos : (memOffset + BitVec.ofNat 64 n).toNat = memOffset.toNat + n := by
      rw [BitVec.toNat_add, BitVec.toNat_ofNat]
      omega
    have hloop : nopLoop memOffset (n + 1) bytes =
        Function.update (nopLoop memOffset n bytes) (memOffset.toNat + n) 0x90 := by
      rw [nopLoop, List.range_succ, List.foldl_concat, hpos, nopLoop]
    rw [hloop]
    by_cases ha : a = memOffset.toNat + n
    · rw [ha, Function.update_self, if_pos (by omega)]
    · rw [Function.update_of_ne ha, ih (by omega)]
      exact if_congr (by omega) rfl rfl

/-- The bytes depend on the first request alone. -/
theorem memNop_bytes : (memNop vp memOffset length s).2.bytes =
    if (vp.call memOffset.toNat length.toNat pageExecuteReadwrite s).1 = true then
      nopLoop memOffset length.toNat s.bytes
    else s.bytes := by
  have hfirst := vp.bytes_eq memOffset.toNat length.toNat pageExecuteReadwrite s
  rw [memNop]
  dsimp only
  rw [← hfirst]
  cases (vp.call memOffset.toNat length.toNat pageExecuteReadwrite s).1 with
  | false => rfl
  | true =>
    rw [if_neg (by decide), if_pos rfl]
    split_ifs <;> exact vp.bytes_eq ..

/-- `mem_nop` succeeds if both requests do. The second one is for the protection that the
first one has stored. -/
theorem memNop_protection (h : (memNop vp memOffset length s).1 = true) :
    (vp.call memOffset.toNat length.toNat pageExecuteReadwrite s).1 = true ∧
      ∀ page, (memNop vp memOffset length s).2.protection page =
        if IsTouched memOffset.toNat length.toNat page then
          s.protection (memOffset.toNat / pageSize)
        else s.protection page := by
  unfold memNop at h ⊢
  dsimp only at h ⊢
  split_ifs at h ⊢ with hfirst hsecond
  rw [Bool.not_eq_false] at hfirst hsecond
  refine ⟨hfirst, fun page => (vp.protection_of_success _ _ _ _ hsecond page).trans ?_⟩
  split_ifs with hpage
  · exact vp.old_of_success _ _ _ _ hfirst hpage.1
  · exact (vp.protection_of_success _ _ _ _ hfirst page).trans (if_neg hpage)

/-- A `VirtualProtect` that always succeeds. -/
def virtualProtect : VirtualProtect Unit where
  call address size newProtect s := (true, s.protection (address / pageSize),
    { s with
      protection := fun page =>
        if IsTouched address size page then newProtect else s.protection page })
  bytes_eq _ _ _ _ := rfl
  old_of_success _ _ _ _ _ _ := rfl
  protection_of_success _ _ _ _ _ _ := rfl

end MamePlugins.Util
