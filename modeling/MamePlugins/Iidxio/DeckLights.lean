import MamePlugins.Library.WordBits
import MamePlugins.Iidxio.Header
import MamePlugins.Iidxio.InputMerge
import MamePlugins.Iidxio.LuaBind
import Mathlib.Tactic.IntervalCases

/-!
# The words of the deck lights

A write of the key lights passes one word on to the backend. The plugin masks it by
the layout of the keys, whose bits are contiguous, while the backend reads it by the
layout of the deck lights. This file says which words come through.
-/

namespace MamePlugins.Iidxio

open Library

/-! ### Layouts -/

theorem IidxIoKeyBit.exists_bit_iff {i : ℕ} : (∃ key : IidxIoKeyBit, key.bit = i) ↔ i < 14 := by
  constructor
  · rintro ⟨key, rfl⟩
    cases key <;> decide
  · intro hi
    interval_cases i
    · exact ⟨.keyP1_1, rfl⟩
    · exact ⟨.keyP1_2, rfl⟩
    · exact ⟨.keyP1_3, rfl⟩
    · exact ⟨.keyP1_4, rfl⟩
    · exact ⟨.keyP1_5, rfl⟩
    · exact ⟨.keyP1_6, rfl⟩
    · exact ⟨.keyP1_7, rfl⟩
    · exact ⟨.keyP2_1, rfl⟩
    · exact ⟨.keyP2_2, rfl⟩
    · exact ⟨.keyP2_3, rfl⟩
    · exact ⟨.keyP2_4, rfl⟩
    · exact ⟨.keyP2_5, rfl⟩
    · exact ⟨.keyP2_6, rfl⟩
    · exact ⟨.keyP2_7, rfl⟩

theorem IidxIoDeckLight.bit_lt (light : IidxIoDeckLight) : light.bit < 15 := by
  cases light <;> decide

/-- Of the low fourteen bits only bit 7 is no deck light. -/
theorem IidxIoDeckLight.exists_bit_iff {i : ℕ} (hi : i < 14) :
    (∃ light : IidxIoDeckLight, light.bit = i) ↔ i ≠ 7 := by
  constructor
  · rintro ⟨light, rfl⟩
    cases light <;> decide
  · intro hne
    interval_cases i
    · exact ⟨.deckLightP1_1, rfl⟩
    · exact ⟨.deckLightP1_2, rfl⟩
    · exact ⟨.deckLightP1_3, rfl⟩
    · exact ⟨.deckLightP1_4, rfl⟩
    · exact ⟨.deckLightP1_5, rfl⟩
    · exact ⟨.deckLightP1_6, rfl⟩
    · exact ⟨.deckLightP1_7, rfl⟩
    · exact absurd rfl hne
    · exact ⟨.deckLightP2_1, rfl⟩
    · exact ⟨.deckLightP2_2, rfl⟩
    · exact ⟨.deckLightP2_3, rfl⟩
    · exact ⟨.deckLightP2_4, rfl⟩
    · exact ⟨.deckLightP2_5, rfl⟩
    · exact ⟨.deckLightP2_6, rfl⟩

/-- Only the last deck light is above the low fourteen bits. -/
theorem IidxIoDeckLight.bit_lt_fourteen_iff {light : IidxIoDeckLight} :
    light.bit < 14 ↔ light ≠ .deckLightP2_7 := by
  cases light <;> decide

/-- The word has bits of deck lights only. -/
def IsDeckWord (word : BitVec 16) : Prop :=
  ∀ i, word.getLsbD i = true → ∃ light : IidxIoDeckLight, light.bit = i

/-- The word has the bits of the wanted deck lights, and no other. -/
def LightsExactly (word : BitVec 16) (wanted : Set IidxIoDeckLight) : Prop :=
  ∀ i, word.getLsbD i = true ↔ ∃ light ∈ wanted, light.bit = i

/-! ### The path of a word -/

/-- A write of the key lights passes the word on to the binding, and the binding passes
it on to the backend. -/
def State.PassesDeckLights (s : State) (data : LuaInt) (word : BitVec 16) : Prop :=
  ∃ s', step s (.write .twinkleKeysWrite 0x1f250000 data 0xff) = .ok s' ∧
    s'.calls = s.calls ++ [.iidxioEp1SetDeckLights (word.setWidth 64)] ∧
    (Call.iidxioEp1SetDeckLights (word.setWidth 64)).native = some [.ep1SetDeckLights word]

theorem setWidth_deckLights (data : LuaInt) :
    ((data &&& 0x3fff).setWidth 16).setWidth 64 = data &&& 0xffff &&& 0x3fff := by
  have hlt : (data &&& 0x3fff).toNat < 2 ^ 16 := by
    rw [BitVec.toNat_and]
    exact Nat.and_lt_two_pow _ (by decide)
  have hmask : data &&& 0xffff &&& 0x3fff = data &&& 0x3fff := BitVec.and_assoc ..
  apply BitVec.eq_of_toNat_eq
  rw [hmask, BitVec.toNat_setWidth, BitVec.toNat_setWidth, Nat.mod_eq_of_lt hlt,
    Nat.mod_eq_of_lt (by omega)]

/-- The word that comes through is the low fourteen bits of the data. -/
theorem State.passesDeckLights_iff {s : State} (htap : s.writeCallback .twinkleKeysWrite = true)
    (data : LuaInt) {word : BitVec 16} :
    s.PassesDeckLights data word ↔ (data &&& 0x3fff).setWidth 16 = word := by
  have hstep : step s (.write .twinkleKeysWrite 0x1f250000 data 0xff) =
      .ok (s.call (.iidxioEp1SetDeckLights (data &&& 0xffff &&& 0x3fff))) := by
    rw [step, if_pos htap, writeTap, twinkleKeysWrite, if_pos ⟨rfl, rfl⟩]
  constructor
  · rintro ⟨s', hs', hcalls, -⟩
    rw [hstep, Except.ok.injEq] at hs'
    subst hs'
    rw [State.call, List.append_cancel_left_eq, List.cons.injEq,
      Call.iidxioEp1SetDeckLights.injEq, ← setWidth_deckLights] at hcalls
    have hword := congrArg (BitVec.setWidth 16) hcalls.1
    rwa [BitVec.setWidth_setWidth_of_le _ (by decide), BitVec.setWidth_eq,
      BitVec.setWidth_setWidth_of_le _ (by decide), BitVec.setWidth_eq] at hword
  · rintro rfl
    rw [State.PassesDeckLights, setWidth_deckLights]
    exact ⟨_, hstep, rfl, native_setDeckLights data⟩

theorem getLsbD_deckLights (data : LuaInt) (i : ℕ) :
    ((data &&& 0x3fff).setWidth 16).getLsbD i = (decide (i < 14) && data.getLsbD i) := by
  have hmask : (0x3fff : LuaInt).getLsbD i = decide (i < 14) :=
    getLsbD_lowMask (n := 14) (by omega)
  rw [BitVec.getLsbD_setWidth, BitVec.getLsbD_and, hmask]
  by_cases hi : i < 14
  · have hi16 : i < 16 := by omega
    simp [hi, hi16]
  · simp [hi]

/-! ### The words of all writes -/

variable {s : State}

/-- The words that come through are those in the layout of the keys. -/
theorem State.exists_passesDeckLights_iff (htap : s.writeCallback .twinkleKeysWrite = true)
    {word : BitVec 16} :
    (∃ data, s.PassesDeckLights data word) ↔
      ∀ i, word.getLsbD i = true → ∃ key : IidxIoKeyBit, key.bit = i := by
  simp only [State.passesDeckLights_iff htap, IidxIoKeyBit.exists_bit_iff]
  constructor
  · rintro ⟨data, rfl⟩ i hi
    rw [getLsbD_deckLights, Bool.and_eq_true, decide_eq_true_eq] at hi
    exact hi.1
  · intro hkeys
    refine ⟨word.setWidth 64, ?_⟩
    apply BitVec.eq_of_getLsbD_eq
    intro i hi
    have hi64 : i < 64 := by omega
    rw [getLsbD_deckLights, BitVec.getLsbD_setWidth]
    cases hword : word.getLsbD i with
    | false => simp
    | true => simp [hkeys i hword, hi64]

/-- A word has bits of deck lights only if the data has no bit 7. -/
theorem State.PassesDeckLights.isDeckWord_iff {data : LuaInt} {word : BitVec 16}
    (htap : s.writeCallback .twinkleKeysWrite = true) (h : s.PassesDeckLights data word) :
    IsDeckWord word ↔ data.getLsbD 7 = false := by
  rw [State.passesDeckLights_iff htap] at h
  subst h
  constructor
  · intro hdeck
    by_contra hdata
    rw [Bool.not_eq_false] at hdata
    have hbit : ((data &&& 0x3fff).setWidth 16).getLsbD 7 = true := by
      rw [getLsbD_deckLights, hdata]
      rfl
    exact (IidxIoDeckLight.exists_bit_iff (by omega)).mp (hdeck 7 hbit) rfl
  · intro hdata i hi
    rw [getLsbD_deckLights, Bool.and_eq_true, decide_eq_true_eq] at hi
    refine (IidxIoDeckLight.exists_bit_iff hi.1).mpr ?_
    rintro rfl
    rw [hdata] at hi
    exact Bool.false_ne_true hi.2

/-- Any deck lights but the last can be lit together. -/
theorem State.exists_lightsExactly_iff (htap : s.writeCallback .twinkleKeysWrite = true)
    (wanted : Set IidxIoDeckLight) :
    (∃ data word, s.PassesDeckLights data word ∧ LightsExactly word wanted) ↔
      .deckLightP2_7 ∉ wanted := by
  constructor
  · rintro ⟨data, word, hpasses, hlights⟩ hlast
    have hkeys := (State.exists_passesDeckLights_iff htap).mp ⟨data, hpasses⟩
    have hlit := (hlights 14).mpr ⟨_, hlast, rfl⟩
    have hkey := IidxIoKeyBit.exists_bit_iff.mp (hkeys 14 hlit)
    omega
  · intro hlast
    obtain ⟨word, hword⟩ := exists_getLsbD_iff (w := 16)
      (fun i => ∃ light ∈ wanted, light.bit = i) (by
        rintro i ⟨light, -, rfl⟩
        have hlt := light.bit_lt
        omega)
    obtain ⟨data, hpasses⟩ := (State.exists_passesDeckLights_iff htap).mpr fun i hi => by
      obtain ⟨light, hlight, rfl⟩ := (hword i).mp hi
      rw [IidxIoKeyBit.exists_bit_iff, IidxIoDeckLight.bit_lt_fourteen_iff]
      exact fun heq => hlast (heq ▸ hlight)
    exact ⟨data, word, hpasses, hword⟩

/-- After any run that finds a supported system, the key lights are tapped. -/
theorem run_load_keysWrite (es : List Event) (hinstalls : es.any Event.installs = true) :
    ∃ s, run .load es = .ok s ∧ s.writeCallback .twinkleKeysWrite = true := by
  obtain ⟨s, hrun, hafter⟩ := run_load es
  have htap := (State.tapsAgree_of_run hrun).write .twinkleKeysWrite
  exact ⟨s, hrun, htap.trans (hafter.installed.trans hinstalls)⟩

/-- **Which deck lights can be controlled.** After any run that has the taps installed:
a write of the key lights passes on a word of deck lights exactly if bit 7 of its data
is clear, and some write lights exactly the wanted deck lights if the seventh of the
second player is not among them. -/
theorem deck_lights_controllable_iff (es : List Event)
    (hinstalls : es.any Event.installs = true) :
    ∃ s, run .load es = .ok s ∧
      (∀ data, ∃ word, s.PassesDeckLights data word ∧
        (IsDeckWord word ↔ data.getLsbD 7 = false)) ∧
      ∀ wanted, (∃ data word, s.PassesDeckLights data word ∧ LightsExactly word wanted) ↔
        .deckLightP2_7 ∉ wanted := by
  obtain ⟨s, hrun, htap⟩ := run_load_keysWrite es hinstalls
  refine ⟨s, hrun, fun data => ?_, State.exists_lightsExactly_iff htap⟩
  have hpasses := (State.passesDeckLights_iff htap data).mpr rfl
  exact ⟨_, hpasses, hpasses.isDeckWord_iff htap⟩

/-- A bit of the first player's last key, and all deck lights but one. -/
theorem deck_lights_controllable_started :
    ∃ s, run .load [.start "bmiidxa".toList true ⟨true, true, true⟩] = .ok s ∧
      (∃ word, s.PassesDeckLights 0x40 word ∧ IsDeckWord word) ∧
      ∃ data word, s.PassesDeckLights data word ∧ LightsExactly word {.deckLightP2_7}ᶜ := by
  obtain ⟨s, hrun, hword, hwanted⟩ := deck_lights_controllable_iff
    [.start "bmiidxa".toList true ⟨true, true, true⟩] rfl
  obtain ⟨word, hpasses, hdeck⟩ := hword 0x40
  exact ⟨s, hrun, ⟨word, hpasses, hdeck.mpr rfl⟩, (hwanted _).mpr (by simp)⟩

/-- The first key of the second player sets a bit that is no deck light, and no write
lights the second player's last deck light alone. -/
theorem deck_lights_not_controllable :
    ∃ s, run .load [.start "bmiidxa".toList true ⟨true, true, true⟩] = .ok s ∧
      (∃ word, s.PassesDeckLights 0x80 word ∧ ¬IsDeckWord word) ∧
      ¬∃ data word, s.PassesDeckLights data word ∧ LightsExactly word {.deckLightP2_7} := by
  obtain ⟨s, hrun, htap⟩ :=
    run_load_keysWrite [.start "bmiidxa".toList true ⟨true, true, true⟩] rfl
  have hpasses := (State.passesDeckLights_iff htap 0x80).mpr rfl
  refine ⟨s, hrun, ⟨_, hpasses, ?_⟩, ?_⟩
  · rw [hpasses.isDeckWord_iff htap]
    decide
  · rw [State.exists_lightsExactly_iff htap]
    simp

end MamePlugins.Iidxio
