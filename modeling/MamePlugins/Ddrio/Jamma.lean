import MamePlugins.Ddrio.Header
import MamePlugins.Ddrio.InputMask

/-!
# What the JAMMA reads report

A port's button bits, by the pad bit of `ddrio.h` that stands for the same button.
This file determines every bit of an answer from the pad word, the stage mask and
the emulated data, and the pad word from the polls of the session.
-/

namespace MamePlugins.Ddrio

open Library

/-! ### Ports bit by bit -/

/-- The button bits of a port that the pad word provides. -/
def ReadTap.inputs : ReadTap → List (DdrPadBit × ℕ)
  | .ksys573Jamma1Read => [(.ddrService, 28), (.ddrCoin, 24)]
  | .ksys573Jamma2Read =>
    [(.ddrP1Up, 10), (.ddrP1Down, 11), (.ddrP1Left, 8), (.ddrP1Right, 9),
     (.ddrP2Up, 2), (.ddrP2Down, 3), (.ddrP2Left, 0), (.ddrP2Right, 1),
     (.ddrP1Start, 15), (.ddrP1MenuLeft, 13), (.ddrP1MenuRight, 14),
     (.ddrP2Start, 7), (.ddrP2MenuLeft, 5), (.ddrP2MenuRight, 6)]
  | .ksys573Jamma3Read => [(.ddrTest, 10)]

/-- Every bit of a port that the plugin decides: the buttons, and coin 2. -/
def ReadTap.inputBits : ReadTap → List ℕ
  | .ksys573Jamma1Read => [28, 24, 25]
  | tap => tap.inputs.map Prod.snd

/-- The bits of a port the plugin decides, as the mask of the code. -/
def ReadTap.inputMask : ReadTap → LuaInt
  | .ksys573Jamma1Read => jamma1InputMask
  | .ksys573Jamma2Read => jamma2InputMask
  | .ksys573Jamma3Read => jamma3InputMask

/-- The tests of a read tap. -/
def ReadTap.buttons : ReadTap → List (LuaInt × LuaInt)
  | .ksys573Jamma1Read => jamma1Buttons
  | .ksys573Jamma2Read => jamma2Buttons
  | .ksys573Jamma3Read => jamma3Buttons

/-- The bus access a read tap handles. -/
def ReadTap.Handles : ReadTap → LuaInt → LuaInt → Prop
  | .ksys573Jamma1Read, offset, mask => offset = 0x1f400004 ∧ mask = 0xffff0000
  | .ksys573Jamma2Read, offset, mask => offset = 0x1f400008 ∧ mask = 0xffff
  | .ksys573Jamma3Read, offset, mask => offset = 0x1f40000c ∧ mask = 0xffff

/-- The stage mask applies to the dance stages' port only. -/
def ReadTap.stageMask (stageioInputMask : LuaInt) : ReadTap → LuaInt
  | .ksys573Jamma2Read => stageioInputMask
  | _ => BitVec.allOnes 64

/-- The pad word presses the button at bit `k` of the port. -/
def ReadTap.pressed (tap : ReadTap) (pad : LuaInt) (k : ℕ) : Bool :=
  tap.inputs.any fun input => input.2 = k && pad.getLsbD input.1.bit

/-- The answer of a read tap to an access it handles. -/
def ReadTap.answer (tap : ReadTap) (pad stageMask data mask : LuaInt) : LuaInt :=
  let dataBuf := (tap.buttons.foldl (mergeButton pad) 0 ^^^ tap.inputMask) &&& stageMask
  (dataBuf ||| (data &&& ~~~tap.inputMask)) &&& mask

/-- The tests of a tap are those of its button bits. -/
theorem ReadTap.buttons_eq (tap : ReadTap) :
    tap.buttons = tap.inputs.map fun input => (1#64 <<< input.1.bit, 1#64 <<< input.2) := by
  cases tap <;> rfl

theorem DdrPadBit.bit_lt (b : DdrPadBit) : b.bit < 32 := by
  cases b <;> decide

/-- The mask of a port has exactly its input bits. -/
theorem ReadTap.getLsbD_inputMask (tap : ReadTap) (k : ℕ) :
    tap.inputMask.getLsbD k = decide (k ∈ tap.inputBits) := by
  by_cases hk : k < 64
  · revert k
    cases tap <;> decide
  · rw [BitVec.getLsbD_of_ge _ _ (by omega), eq_comm, decide_eq_false_iff_not]
    have hbits : ∀ k' ∈ tap.inputBits, k' < 64 := by cases tap <;> decide
    exact fun hmem => hk (hbits k hmem)

/-- The tests of any list of buttons, bit by bit. -/
theorem foldl_mergeButton_getLsbD (pad : LuaInt) (inputs : List (DdrPadBit × ℕ)) (x : LuaInt)
    {k : ℕ} (hk : k < 64) :
    ((inputs.map fun input => (1#64 <<< input.1.bit, 1#64 <<< input.2)).foldl
        (mergeButton pad) x).getLsbD k =
      (x.getLsbD k || inputs.any fun input => input.2 = k && pad.getLsbD input.1.bit) := by
  induction inputs generalizing x with
  | nil => simp
  | cons input inputs ih =>
    have hbit : input.1.bit < 63 := Nat.lt_of_lt_of_le input.1.bit_lt (by decide)
    rw [List.map_cons, List.foldl_cons, ih, List.any_cons, ← Bool.or_assoc]
    congr 1
    have hshift : (1#64 <<< input.2).getLsbD k = decide (input.2 = k) := by
      rw [← BitVec.twoPow_eq, BitVec.getLsbD_twoPow]
      by_cases hinput : input.2 = k
      · simp [hinput, hk]
      · simp [hinput]
    rw [mergeButton, LuaInt.isPositive_and_shift _ hbit]
    cases pad.getLsbD input.1.bit with
    | false => simp
    | true => rw [if_pos rfl, BitVec.getLsbD_or, hshift, Bool.and_true]

/-- Every bit of an answer: the plugin's own bits are active low and subject to the
stage mask, and the others are the emulator's. -/
theorem ReadTap.getLsbD_answer (tap : ReadTap) (pad stageMask data mask : LuaInt) (k : ℕ) :
    (tap.answer pad stageMask data mask).getLsbD k =
      (mask.getLsbD k && if k ∈ tap.inputBits then stageMask.getLsbD k && !tap.pressed pad k
        else data.getLsbD k) := by
  by_cases hk : k < 64
  · have hinputs : ∀ input ∈ tap.inputs, input.2 ∈ tap.inputBits := by cases tap <;> decide
    have hbuttons := foldl_mergeButton_getLsbD pad tap.inputs 0 hk
    have hzero : (0 : LuaInt).getLsbD k = false := BitVec.getLsbD_zero
    rw [← tap.buttons_eq, hzero, Bool.false_or] at hbuttons
    change _ = tap.pressed pad k at hbuttons
    simp only [ReadTap.answer, BitVec.getLsbD_and, BitVec.getLsbD_or, BitVec.getLsbD_xor,
      BitVec.getLsbD_not, hk, hbuttons, tap.getLsbD_inputMask, decide_true, Bool.true_and]
    by_cases hmem : k ∈ tap.inputBits
    · simp [hmem, Bool.and_comm]
    · have hup : tap.pressed pad k = false := by
        rw [ReadTap.pressed, List.any_eq_false]
        intro input hinput hpressed
        rw [Bool.and_eq_true, decide_eq_true_eq] at hpressed
        exact hmem (hpressed.1 ▸ hinputs input hinput)
      simp [hmem, hup, Bool.and_comm]
  · rw [BitVec.getLsbD_of_ge _ _ (by omega), BitVec.getLsbD_of_ge mask _ (by omega),
      Bool.false_and]

/-! ### The pad word of a session -/

/-- The pad word polled last over a run, zero if there was no poll. -/
def lastPad (es : List Event) : BitVec 32 := (es.filterMap Event.polledPad).getLastD 0

theorem lastPad_concat (es : List Event) (e : Event) :
    lastPad (es ++ [e]) = e.polledPad.getD (lastPad es) := by
  rw [lastPad, List.filterMap_append]
  cases hpolled : e.polledPad with
  | none => simp [hpolled, lastPad]
  | some pad => simp [hpolled]

/-- A poll replaces the plugin's pad word, and nothing else does. -/
theorem State.Running.next_pad {s : State} (h : s.Running) {e : Event} (he : e ≠ .stop) :
    (s.next e).ddrioStatePad =
      (e.polledPad.map (BitVec.setWidth 64)).getD s.ddrioStatePad := by
  cases e with
  | start systemName initResult =>
    rw [State.next, init, if_pos h.isInitialized]
    rfl
  | stop => exact absurd rfl he
  | read tap offset data mask pad =>
    rw [State.next, if_pos (h.readCallback tap)]
    cases tap with
    | ksys573Jamma2Read =>
      rw [Event.polledPad]
      by_cases hhandled : offset = 0x1f400008 ∧ mask = 0xffff
      · rw [if_pos hhandled, readTap, ksys573Jamma2Read, if_pos hhandled]
        rfl
      · rw [if_neg hhandled, readTap, ksys573Jamma2Read, if_neg hhandled]
        rfl
    | ksys573Jamma1Read => rfl
    | ksys573Jamma3Read => rfl
  | write tap offset data mask =>
    rw [State.next, if_pos (h.writeCallback tap)]
    cases reached tap offset data mask with
    | some w => exact s.writeRegister_pad w.1 w.2
    | none => rfl

/-- In a session the plugin's pad word is the one polled last. -/
theorem AfterStart.foldl_pad {s₀ : State} (h₀ : AfterStart s₀) {es : List Event}
    (hes : ∀ e ∈ es, e ≠ .stop) :
    (es.foldl State.next s₀).ddrioStatePad = (lastPad es).setWidth 64 := by
  induction es using List.reverseRecOn with
  | nil =>
    obtain ⟨s, systemName, -, hs, hname, rfl⟩ := h₀
    rw [List.foldl_nil, init_eq hs hname]
    rfl
  | append_singleton es e ih =>
    have hbefore : ∀ e' ∈ es, e' ≠ .stop := fun e' he' => hes e' (by simp [he'])
    rw [List.foldl_concat, (h₀.running.foldl_next hbefore).next_pad (hes e (by simp)),
      ih hbefore, lastPad_concat]
    cases e.polledPad <;> rfl

/-- A handled read answers from the pad word after it and the stage mask. -/
theorem State.Running.next_read {s : State} (h : s.Running) {tap : ReadTap}
    {offset mask : LuaInt} (hhandled : tap.Handles offset mask) (data : LuaInt)
    (pad : BitVec 32) :
    (s.next (.read tap offset data mask pad)).answers =
        s.answers ++ [some (tap.answer (s.next (.read tap offset data mask pad)).ddrioStatePad
          (tap.stageMask s.stageioInputMask) data mask)] := by
  have hones (x : LuaInt) : x &&& BitVec.allOnes 64 = x := BitVec.and_allOnes
  rw [State.next, if_pos (h.readCallback tap)]
  cases tap with
  | ksys573Jamma1Read =>
    simp only [readTap, ksys573Jamma1Read, if_pos (show _ ∧ _ from hhandled), ReadTap.answer,
      ReadTap.stageMask, hones, ReadTap.buttons, ReadTap.inputMask]
  | ksys573Jamma2Read =>
    simp only [readTap, ksys573Jamma2Read, if_pos (show _ ∧ _ from hhandled), ReadTap.answer,
      ReadTap.stageMask, ReadTap.buttons, ReadTap.inputMask, State.call]
  | ksys573Jamma3Read =>
    simp only [readTap, ksys573Jamma3Read, if_pos (show _ ∧ _ from hhandled), ReadTap.answer,
      ReadTap.stageMask, hones, ReadTap.buttons, ReadTap.inputMask]

/-! ### Reads -/

/-- Each button bit of a port has one button. -/
theorem ReadTap.pressed_input (tap : ReadTap) (pad : LuaInt) :
    ∀ input ∈ tap.inputs, tap.pressed pad input.2 = pad.getLsbD input.1.bit := by
  cases tap <;> simp [ReadTap.pressed, ReadTap.inputs]

theorem Reachable.stageInv {s : State} (h : Reachable s) : s.StageInv :=
  h.induction State.load_stageInv fun _ e _ hs => hs.next e

theorem ReadTap.getLsbD_stageMask (tap : ReadTap) (stageioInputMask : LuaInt) {k : ℕ}
    (hk : ¬64 ≤ k) :
    (tap.stageMask stageioInputMask).getLsbD k =
      (decide (tap ≠ .ksys573Jamma2Read) || stageioInputMask.getLsbD k) := by
  have hones : (BitVec.allOnes 64).getLsbD k = true := by
    rw [BitVec.getLsbD_allOnes, decide_eq_true (Nat.lt_of_not_le hk)]
  cases tap with
  | ksys573Jamma1Read => exact hones
  | ksys573Jamma2Read => rfl
  | ksys573Jamma3Read => exact hones

/-- **JAMMA reads report one pad snapshot exactly.** In a session a handled read
answers within the access mask. A button bit is zero exactly if the pad word
polled last has that button, or, for the dance stages' port, the stage mask clears
the bit; coin 2 is one; and every other bit is the emulator's. In any reachable
state the stage mask clears at most the UP and RIGHT arrows among the buttons. -/
theorem jammaRead_reports_pad :
    (∀ s₀, AfterStart s₀ → ∀ (es : List Event) (tap : ReadTap) (offset data mask : LuaInt)
        (pad : BitVec 32), (∀ e ∈ es, e ≠ .stop) → tap.Handles offset mask →
      ∃ s s' w, run s₀ es = .ok s ∧ step s (.read tap offset data mask pad) = .ok s' ∧
        s'.answers = s.answers ++ [some w] ∧
        (∀ k, w.getLsbD k = true → mask.getLsbD k = true) ∧
        (∀ input ∈ tap.inputs, w.getLsbD input.2 = false ↔
          (lastPad (es ++ [.read tap offset data mask pad])).getLsbD input.1.bit = true ∨
            tap = .ksys573Jamma2Read ∧ s.stageioInputMask.getLsbD input.2 = false) ∧
        (tap = .ksys573Jamma1Read → w.getLsbD 25 = true) ∧
        ∀ k ∉ tap.inputBits, mask.getLsbD k = true → w.getLsbD k = data.getLsbD k) ∧
    ∀ s, Reachable s → ∀ input ∈ ReadTap.inputs .ksys573Jamma2Read,
      s.stageioInputMask.getLsbD input.2 = false →
        input.1 ∈ [DdrPadBit.ddrP1Up, .ddrP1Right, .ddrP2Up, .ddrP2Right] := by
  constructor
  · intro s₀ h₀ es tap offset data mask pad hes hhandled
    have hrunning := h₀.running.foldl_next hes
    have hread := hrunning.next_read hhandled data pad
    have hsession : ∀ e ∈ es ++ [.read tap offset data mask pad], e ≠ .stop := by
      intro e he
      rcases List.mem_append.mp he with he | he
      · exact hes e he
      · rw [List.mem_singleton.mp he]
        exact Event.noConfusion
    have hpad := h₀.foldl_pad hsession
    rw [List.foldl_concat] at hpad
    rw [hpad] at hread
    refine ⟨_, _, _, run_eq h₀.running.valid es, step_eq hrunning.valid _, hread, ?_⟩
    generalize (es.foldl State.next s₀).stageioInputMask = stageMask
    generalize lastPad (es ++ [.read tap offset data mask pad]) = pad'
    simp only [ReadTap.getLsbD_answer]
    refine ⟨fun k hk => ?_, fun input hinput => ?_, ?_, fun k hk hmask => ?_⟩
    · rw [Bool.and_eq_true] at hk
      exact hk.1
    · have hbits : ∀ input ∈ tap.inputs, input.2 ∈ tap.inputBits := by cases tap <;> decide
      have hmask : mask.getLsbD input.2 = true := by
        have hinside : ∀ k ∈ tap.inputBits, mask.getLsbD k = true := by
          cases tap <;> rw [hhandled.2] <;> decide
        exact hinside _ (hbits input hinput)
      have hbutton : input.1.bit < 64 := Nat.lt_of_lt_of_le input.1.bit_lt (by decide)
      rw [hmask, if_pos (hbits input hinput), Bool.true_and, tap.pressed_input _ input hinput,
        BitVec.getLsbD_setWidth, decide_eq_true hbutton, Bool.true_and]
      have hinside : ¬64 ≤ input.2 := fun hge => by simp [BitVec.getLsbD_of_ge mask _ hge] at hmask
      rw [tap.getLsbD_stageMask _ hinside]
      cases pad'.getLsbD input.1.bit <;> simp
    · rintro rfl
      have hcoin2 : ReadTap.ksys573Jamma1Read.pressed (pad'.setWidth 64) 25 = false := by
        simp [ReadTap.pressed, ReadTap.inputs]
      rw [hhandled.2, if_pos (by decide), hcoin2, ReadTap.getLsbD_stageMask _ _ (by decide)]
      rfl
    · rw [hmask, if_neg hk, Bool.true_and]
  · intro s hreach input hinput hclear
    have hmaskable : ∀ input ∈ ReadTap.inputs .ksys573Jamma2Read,
        input.1 ∉ [DdrPadBit.ddrP1Up, .ddrP1Right, .ddrP2Up, .ddrP2Right] →
          input.2 < 32 ∧ (0x0606#64).getLsbD input.2 = false := by decide
    by_contra hother
    obtain ⟨hlt, hset⟩ := hmaskable input hinput hother
    rw [hreach.stageInv.mask.set _ hlt hset] at hclear
    exact absurd hclear (by decide)

/-- Player one's UP arrow, pressed on the pad, is pressed in the answer. -/
theorem jammaRead_reports_pad_up :
    ∃ s s' w, run (init "ddr4mp".toList true .load) [] = .ok s ∧
      step s (.read .ksys573Jamma2Read 0x1f400008 0 0xffff 0x20000) = .ok s' ∧
      s'.answers = s.answers ++ [some w] ∧ w.getLsbD 10 = false := by
  obtain ⟨s, s', w, hrun, hstep, hanswer, -, hbuttons, -⟩ := jammaRead_reports_pad.1
    (init "ddr4mp".toList true .load) ⟨.load, "ddr4mp".toList, ⟨[], rfl⟩, rfl, by decide, rfl⟩ []
    .ksys573Jamma2Read 0x1f400008 0 0xffff 0x20000 (by simp) ⟨rfl, rfl⟩
  exact ⟨s, s', w, hrun, hstep, hanswer,
    (hbuttons (.ddrP1Up, 10) (by decide)).mpr (Or.inl (by decide))⟩

end MamePlugins.Ddrio
