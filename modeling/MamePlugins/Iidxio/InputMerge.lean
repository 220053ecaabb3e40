import MamePlugins.Library.WordBits
import MamePlugins.Iidxio.Header
import MamePlugins.Iidxio.Session

/-!
# What the input reads report

Inputs are active low on the emulator's side and active high on the backend's. This
file determines every bit of an answer to a read of the keys and of the panel, and
the reads that are left to the emulator.
-/

namespace MamePlugins.Iidxio

open Library

/-! ### The pressed bits of a port -/

/-- The keys, and the coin input above them. -/
def keysPressed (inputs : Inputs) : LuaInt :=
  let keys := inputs.keys &&& 0x3fff
  let coin1 := (inputs.sys >>> 2) &&& 0x01
  keys ||| (coin1 <<< 14)

/-- The panel buttons, and the test and service inputs above them. -/
def panelPressed (inputs : Inputs) : LuaInt :=
  let panel := inputs.panel &&& 0x0f
  let sys := inputs.sys &&& 0x03
  panel ||| (sys <<< 4)

theorem getLsbD_keysPressed (inputs : Inputs) {i : ℕ} (hi : i < 64) :
    (keysPressed inputs).getLsbD i =
      (decide (i < 14) && inputs.keys.getLsbD i ||
        decide (i = 14) && inputs.sys.getLsbD IidxIoSysBit.sysCoin.bit) := by
  have hkeys : (0x3fff : LuaInt).getLsbD i = decide (i < 14) :=
    getLsbD_lowMask (n := 14) (by omega)
  have hcoin : (0x01 : LuaInt).getLsbD (i - 14) = decide (i - 14 < 1) :=
    getLsbD_lowMask (n := 1) (by omega)
  rw [keysPressed, BitVec.getLsbD_or, BitVec.getLsbD_and, hkeys, BitVec.getLsbD_shiftLeft,
    BitVec.getLsbD_and, hcoin, BitVec.getLsbD_ushiftRight]
  rcases lt_trichotomy i 14 with hlt | rfl | hgt
  · have hne : i ≠ 14 := by omega
    simp [hlt, hne]
  · simp [IidxIoSysBit.bit]
  · have hne : i ≠ 14 := by omega
    have hlow : ¬i < 14 := by omega
    have hhigh : ¬i - 14 < 1 := by omega
    simp [hne, hlow, hhigh]

theorem getLsbD_panelPressed (inputs : Inputs) {i : ℕ} (hi : i < 64) :
    (panelPressed inputs).getLsbD i =
      (decide (i < 4) && inputs.panel.getLsbD i ||
        decide (4 ≤ i ∧ i < 6) && inputs.sys.getLsbD (i - 4)) := by
  have hpanel : (0x0f : LuaInt).getLsbD i = decide (i < 4) :=
    getLsbD_lowMask (n := 4) (by omega)
  have hsys : (0x03 : LuaInt).getLsbD (i - 4) = decide (i - 4 < 2) :=
    getLsbD_lowMask (n := 2) (by omega)
  rw [panelPressed, BitVec.getLsbD_or, BitVec.getLsbD_and, hpanel, BitVec.getLsbD_shiftLeft,
    BitVec.getLsbD_and, hsys]
  by_cases hlow : i < 4
  · have hnot : ¬4 ≤ i := by omega
    simp [hlow, hnot]
  · have hrange : i - 4 < 2 ↔ 4 ≤ i ∧ i < 6 := by omega
    simp [hlow, hi, hrange, Bool.and_comm]

/-! ### Answers -/

/-- The bus access a read tap handles. -/
def ReadTap.Handles : ReadTap → LuaInt → LuaInt → Prop
  | .twinkleIoRead, offset, mask => offset = 0x1f220004 ∧ mask = 0xff
  | .twinkleKeysRead, offset, mask => offset = 0x1f240000 ∧ mask = 0xffff

/-- The indices of the port that are inputs. -/
def servedIndices : List (BitVec 8) := [0x07, 0x0f, 0x17, 0x1f, 0x27, 0x2f]

/-- What a read of the emulator gives: the tap's answer, or the data that was there. -/
def busValue (data : LuaInt) (answer : Option LuaInt) : LuaInt := answer.getD data

variable {s : State} {inputs : Inputs} {data : LuaInt}

theorem twinkleKeysRead_eq :
    twinkleKeysRead 0x1f240000 data 0xffff inputs s =
      (some (mergeActiveLow 0xffff data (keysPressed inputs)),
        (s.call .iidxioEp2GetKeys).call .iidxioEp2GetSys) := by
  rw [twinkleKeysRead, if_pos ⟨rfl, rfl⟩, mergeActiveLow, keysPressed, ← BitVec.or_assoc]

theorem twinkleIoRead_eq (hindex : s.curIoOffset = 0x07) :
    twinkleIoRead 0x1f220004 data 0xff inputs s =
      (some (mergeActiveLow 0xff data (panelPressed inputs)),
        (s.call .iidxioEp2GetPanel).call .iidxioEp2GetSys) := by
  rw [twinkleIoRead, if_pos ⟨rfl, rfl⟩, if_pos hindex, mergeActiveLow, panelPressed,
    ← BitVec.or_assoc]
  rfl

/-- Any other read is left to the emulator, and does not reach the backend. -/
theorem readTap_eq_none {index : BitVec 8} (hindex : s.curIoOffset = index.setWidth 64)
    {tap : ReadTap} {offset mask : LuaInt}
    (h : tap.Handles offset mask → tap = .twinkleIoRead ∧ index ∉ servedIndices) :
    readTap tap offset data mask inputs s = (none, s) := by
  cases tap with
  | twinkleKeysRead =>
    have hnot : ¬(offset = 0x1f240000 ∧ mask = 0xffff) := fun hhandled => by
      cases (h hhandled).1
    rw [readTap, twinkleKeysRead, if_neg hnot]
  | twinkleIoRead =>
    rw [readTap, twinkleIoRead]
    by_cases hhandled : offset = 0x1f220004 ∧ mask = 0xff
    · have hindices := (h hhandled).2
      have hne (code : LuaInt) (hcode : ∃ i ∈ servedIndices, i.setWidth 64 = code) :
          s.curIoOffset ≠ code := by
        obtain ⟨i, hi, rfl⟩ := hcode
        rw [hindex, Ne, setWidth_eq_iff]
        rintro rfl
        exact hindices hi
      rw [if_pos hhandled]
      dsimp only
      rw [if_neg (hne 0x07 (by decide)), if_neg (hne 0x0f (by decide)),
        if_neg (hne 0x17 (by decide)), if_neg (hne 0x1f (by decide)),
        if_neg (hne 0x27 (by decide)), if_neg (hne 0x2f (by decide))]
    · rw [if_neg hhandled]

/-- A read at an installed tap hands the tap's answer to the emulator. -/
theorem step_read {tap : ReadTap} (htap : s.readCallback tap = true) {offset mask : LuaInt}
    {answer : Option LuaInt} {s₁ : State}
    (h : readTap tap offset data mask inputs s = (answer, s₁)) :
    step s (.read tap offset data mask inputs) =
      .ok { s₁ with answers := s₁.answers ++ [answer] } := by
  rw [step, if_pos htap, h]

/-! ### The taps of a started plugin -/

/-- The taps are installed together. -/
structure State.TapsAgree (s : State) : Prop where
  read : ∀ tap, s.readCallback tap = s.writeCallback .twinkleIoWrite
  write : ∀ tap, s.writeCallback tap = s.writeCallback .twinkleIoWrite

theorem State.TapsAgree.next {es : List Event} (h : s.TapsAgree) (hafter : s.After es)
    (e : Event) {s' : State} (hstep : step s e = .ok s') : s'.TapsAgree := by
  obtain ⟨cell, hshows⟩ := hafter.shows
  rcases hshows.step_cases hafter.initialized e with ⟨w, -, -, hok⟩ | ⟨-, calls, hok, -⟩ |
    ⟨-, -, -, hok⟩ | ⟨-, -, calls, hok, -⟩ | ⟨-, -, -, calls, answers, hok, -, -⟩
  · obtain rfl := Except.ok.inj (hok.symm.trans hstep)
    cases w <;> exact ⟨h.read, h.write⟩
  · obtain rfl := Except.ok.inj (hok.symm.trans hstep)
    exact ⟨fun _ => rfl, fun _ => rfl⟩
  · obtain rfl := Except.ok.inj (hok.symm.trans hstep)
    exact ⟨fun _ => rfl, fun _ => rfl⟩
  · obtain rfl := Except.ok.inj (hok.symm.trans hstep)
    exact ⟨h.read, h.write⟩
  · obtain rfl := Except.ok.inj (hok.symm.trans hstep)
    exact ⟨h.read, h.write⟩

/-- After any run the taps are all there or all missing. -/
theorem State.tapsAgree_of_run {es : List Event} {s : State} (hrun : run .load es = .ok s) :
    s.TapsAgree :=
  State.of_run ⟨fun _ => rfl, fun _ => rfl⟩ (fun e _ hafter h hstep => h.next hafter e hstep) hrun

/-! ### The bits of an answer -/

/-- A word for the keys: emulator and backend merged, with coin above the keys. -/
structure MergedKeys (data : LuaInt) (inputs : Inputs) (word : LuaInt) : Prop where
  high : ∀ i, 16 ≤ i → word.getLsbD i = false
  key : ∀ i < 14, word.getLsbD i = false ↔
    data.getLsbD i = false ∨ inputs.keys.getLsbD i = true
  coin : word.getLsbD 14 = false ↔
    data.getLsbD 14 = false ∨ inputs.sys.getLsbD IidxIoSysBit.sysCoin.bit = true
  last : word.getLsbD 15 = data.getLsbD 15

/-- A word for the panel: emulator and backend merged, with test and service above the
panel buttons. -/
structure MergedPanel (data : LuaInt) (inputs : Inputs) (word : LuaInt) : Prop where
  high : ∀ i, 8 ≤ i → word.getLsbD i = false
  panel : ∀ i < 4, word.getLsbD i = false ↔
    data.getLsbD i = false ∨ inputs.panel.getLsbD i = true
  test : word.getLsbD 4 = false ↔
    data.getLsbD 4 = false ∨ inputs.sys.getLsbD IidxIoSysBit.sysTest.bit = true
  service : word.getLsbD 5 = false ↔
    data.getLsbD 5 = false ∨ inputs.sys.getLsbD IidxIoSysBit.sysService.bit = true
  last : word.getLsbD 6 = data.getLsbD 6 ∧ word.getLsbD 7 = data.getLsbD 7

theorem getLsbD_mergedKeys (data : LuaInt) (inputs : Inputs) (i : ℕ) :
    (mergeActiveLow 0xffff data (keysPressed inputs)).getLsbD i =
      (decide (i < 16) && (data.getLsbD i && !(keysPressed inputs).getLsbD i)) := by
  refine getLsbD_mergeActiveLow_low (n := 16) (by omega) (fun j hpressed => ?_) i
  rw [getLsbD_keysPressed inputs (BitVec.lt_of_getLsbD hpressed)] at hpressed
  simp only [Bool.or_eq_true, Bool.and_eq_true, decide_eq_true_eq] at hpressed
  omega

theorem getLsbD_mergedPanel (data : LuaInt) (inputs : Inputs) (i : ℕ) :
    (mergeActiveLow 0xff data (panelPressed inputs)).getLsbD i =
      (decide (i < 8) && (data.getLsbD i && !(panelPressed inputs).getLsbD i)) := by
  refine getLsbD_mergeActiveLow_low (n := 8) (by omega) (fun j hpressed => ?_) i
  rw [getLsbD_panelPressed inputs (BitVec.lt_of_getLsbD hpressed)] at hpressed
  simp only [Bool.or_eq_true, Bool.and_eq_true, decide_eq_true_eq] at hpressed
  omega

theorem mergedKeys (data : LuaInt) (inputs : Inputs) :
    MergedKeys data inputs (mergeActiveLow 0xffff data (keysPressed inputs)) := by
  constructor
  · intro i hi
    have hnot : ¬i < 16 := by omega
    rw [getLsbD_mergedKeys]
    simp [hnot]
  · intro i hi
    have hi16 : i < 16 := by omega
    have hne : i ≠ 14 := by omega
    rw [getLsbD_mergedKeys, getLsbD_keysPressed inputs (by omega)]
    simp [hi, hi16, hne, or_iff_not_imp_left]
  · rw [getLsbD_mergedKeys, getLsbD_keysPressed inputs (by omega)]
    simp [or_iff_not_imp_left]
  · rw [getLsbD_mergedKeys, getLsbD_keysPressed inputs (by omega)]
    simp

theorem mergedPanel (data : LuaInt) (inputs : Inputs) :
    MergedPanel data inputs (mergeActiveLow 0xff data (panelPressed inputs)) := by
  constructor
  · intro i hi
    have hnot : ¬i < 8 := by omega
    rw [getLsbD_mergedPanel]
    simp [hnot]
  · intro i hi
    have hi8 : i < 8 := by omega
    have hnot : ¬4 ≤ i := by omega
    rw [getLsbD_mergedPanel, getLsbD_panelPressed inputs (by omega)]
    simp [hi, hi8, hnot, or_iff_not_imp_left]
  · rw [getLsbD_mergedPanel, getLsbD_panelPressed inputs (by omega)]
    simp [IidxIoSysBit.bit, or_iff_not_imp_left]
  · rw [getLsbD_mergedPanel, getLsbD_panelPressed inputs (by omega)]
    simp [IidxIoSysBit.bit, or_iff_not_imp_left]
  · rw [getLsbD_mergedPanel, getLsbD_mergedPanel, getLsbD_panelPressed inputs (by omega),
      getLsbD_panelPressed inputs (by omega)]
    simp

/-- **Inputs are merged.** In every state of a started plugin, a handled read of the
keys gives their merged word, a handled read of the port under the panel's index gives
the merged word of the panel, and every other read but those of the turntables and
sliders leaves the emulator's data in place. -/
theorem inputs_are_merged (es : List Event) {s : State} (hrun : run .load es = .ok s)
    (hstarted : s.isInitialized = true) (data : LuaInt) (inputs : Inputs) :
    (∃ s' answer, step s (.read .twinkleKeysRead 0x1f240000 data 0xffff inputs) = .ok s' ∧
      s'.answers = s.answers ++ [answer] ∧ MergedKeys data inputs (busValue data answer)) ∧
    (selected 0 (seenWrites es) = 0x07 → ∃ s' answer,
      step s (.read .twinkleIoRead 0x1f220004 data 0xff inputs) = .ok s' ∧
      s'.answers = s.answers ++ [answer] ∧ MergedPanel data inputs (busValue data answer)) ∧
    ∀ (tap : ReadTap) (offset mask : LuaInt), (tap.Handles offset mask →
        tap = .twinkleIoRead ∧ selected 0 (seenWrites es) ∉ servedIndices) →
      ∃ s' answer, step s (.read tap offset data mask inputs) = .ok s' ∧
        s'.answers = s.answers ++ [answer] ∧ busValue data answer = data := by
  have hafter := State.after_of_run hrun
  obtain ⟨cell, hshows⟩ := hafter.shows
  have hread (tap : ReadTap) : s.readCallback tap = true :=
    ((State.tapsAgree_of_run hrun).read tap).trans (hafter.initialized hstarted)
  refine ⟨?_, fun hindex => ?_, fun tap offset mask hother => ?_⟩
  · exact ⟨_, _, step_read (hread _) twinkleKeysRead_eq, rfl, mergedKeys data inputs⟩
  · have hcode : s.curIoOffset = 0x07 := by rw [hshows.index, hindex]; rfl
    exact ⟨_, _, step_read (hread _) (twinkleIoRead_eq hcode), rfl, mergedPanel data inputs⟩
  · exact ⟨_, _, step_read (hread _) (readTap_eq_none hshows.index hother), rfl, rfl⟩

/-- A coin of the backend, with the panel's index selected. -/
theorem inputs_are_merged_coin :
    ∃ s s' answer, run .load [.start "bmiidxa".toList true ⟨true, true, true⟩,
        .write .twinkleIoWrite 0x1f220000 0x070000 0xff0000] = .ok s ∧
      step s (.read .twinkleKeysRead 0x1f240000 0xffff 0xffff
        ⟨0, 0x04, 0, fun _ => 0, fun _ => 0⟩) = .ok s' ∧
      s'.answers = s.answers ++ [answer] ∧ (busValue 0xffff answer).getLsbD 14 = false := by
  obtain ⟨⟨s', answer, hstep, hanswers, hmerged⟩, -⟩ := inputs_are_merged
    [.start "bmiidxa".toList true ⟨true, true, true⟩,
      .write .twinkleIoWrite 0x1f220000 0x070000 0xff0000] rfl rfl 0xffff
    ⟨0, 0x04, 0, fun _ => 0, fun _ => 0⟩
  exact ⟨_, s', answer, rfl, hstep, hanswers, hmerged.coin.mpr (Or.inr (by decide))⟩

end MamePlugins.Iidxio
