import MamePlugins.Ddrio.OutputModel
import MamePlugins.Ddrio.Plugin

/-!
# What one register write changes

A register write decides the lamps wired to its own outputs, runs the machine of
the stage wired to it, and leaves everything else alone.
-/

namespace MamePlugins.Ddrio

open Library

/-! ### Frame rule -/

/-- An observation of the state that no wire influences. -/
structure OutputFree {α : Type*} (f : State → α) : Prop where
  setLight : ∀ s w light, f (s.setLight w light) = f s
  call : ∀ s c, f (s.call c) = f s
  setStage : ∀ s p st, f (s.setStage p st) = f s
  setInputMask : ∀ s mask, f (s.setInputMask mask) = f s

theorem OutputFree.drive {α : Type*} {f : State → α} (h : OutputFree f) (s : State) (wire : Wire)
    (level : Bool) : f (s.drive wire level) = f s := by
  cases wire with
  | lamp l =>
    rw [State.drive, State.putLamp]
    split_ifs
    · rfl
    · rw [h.call, h.setLight]
  | stageDo p => exact h.setStage ..
  | stageClk p => exact (h.setInputMask ..).trans (h.setStage ..)
  | unconnected => rfl

theorem OutputFree.driveOutput {α : Type*} {f : State → α} (h : OutputFree f) (s : State)
    (offset : Fin 8) (data : ℕ) (i : Fin 4) : f (s.driveOutput offset data i) = f s := by
  unfold State.driveOutput
  split_ifs
  · rfl
  · exact h.drive ..

theorem OutputFree.foldl {α : Type*} {f : State → α} (h : OutputFree f) (s : State)
    (offset : Fin 8) (data : ℕ) (outputs : List (Fin 4)) :
    f (outputs.foldl (State.driveOutput offset data) s) = f s := by
  induction outputs generalizing s with
  | nil => rfl
  | cons i outputs ih => exact (ih _).trans (h.driveOutput ..)

/-- The register copies are written after the outputs, not by them. -/
theorem outputFree_data : OutputFree State.ksys573DioWriteOutputData :=
  ⟨fun _ w _ => by cases w <;> rfl, fun _ _ => rfl, fun _ _ _ => rfl, fun _ _ => rfl⟩

/-- The variables that neither an output nor a register copy is kept in. -/
theorem outputFree_shell : OutputFree fun s =>
    (s.isInitialized, s.readCallback, s.writeCallback, s.ddrioStatePad, s.answers) :=
  ⟨fun _ w _ => by cases w <;> rfl, fun _ _ => rfl, fun _ _ _ => rfl, fun _ _ => rfl⟩

section Shell

variable (s : State) (offset : Fin 8) (data : ℕ)

@[simp] theorem State.writeRegister_isInitialized :
    (s.writeRegister offset data).isInitialized = s.isInitialized :=
  congrArg Prod.fst (outputFree_shell.foldl s offset data _)

@[simp] theorem State.writeRegister_readCallback :
    (s.writeRegister offset data).readCallback = s.readCallback :=
  congrArg (·.2.1) (outputFree_shell.foldl s offset data _)

@[simp] theorem State.writeRegister_writeCallback :
    (s.writeRegister offset data).writeCallback = s.writeCallback :=
  congrArg (·.2.2.1) (outputFree_shell.foldl s offset data _)

@[simp] theorem State.writeRegister_pad :
    (s.writeRegister offset data).ddrioStatePad = s.ddrioStatePad :=
  congrArg (·.2.2.2.1) (outputFree_shell.foldl s offset data _)

@[simp] theorem State.writeRegister_answers :
    (s.writeRegister offset data).answers = s.answers :=
  congrArg (·.2.2.2.2) (outputFree_shell.foldl s offset data _)

/-- A register write keeps exactly its own nibble. -/
@[simp] theorem State.writeRegister_data :
    (s.writeRegister offset data).ksys573DioWriteOutputData =
      Function.update s.ksys573DioWriteOutputData offset data := by
  rw [State.writeRegister]
  exact congrArg (Function.update · offset data) (outputFree_data.foldl s offset data _)

end Shell

/-! ### Lamps -/

/-- The register and the output a lamp is wired to. -/
def Lamp.output : Lamp → Fin 8 × Fin 4
  | .extio .lightP1Up => (0, 0)
  | .extio .lightP1Left => (0, 1)
  | .extio .lightP1Right => (0, 2)
  | .extio .lightP1Down => (0, 3)
  | .extio .lightP2Up => (2, 0)
  | .extio .lightP2Left => (2, 1)
  | .extio .lightP2Right => (2, 2)
  | .extio .lightP2Down => (2, 3)
  | .p3io .lightP1Menu => (4, 1)
  | .p3io .lightP2Menu => (4, 2)
  | .p3io .lightP1LowerLamp => (5, 0)
  | .p3io .lightP2LowerLamp => (5, 1)
  | .p3io .lightP2UpperLamp => (5, 2)
  | .p3io .lightP1UpperLamp => (5, 3)
  | .extio .lightNeons => (7, 0)

/-- Every lamp is wired, to one output only. -/
theorem wireAt_eq_lamp_iff {offset : Fin 8} {i : Fin 4} {l : Lamp} :
    wireAt (4 * offset + i) = .lamp l ↔ l.output = (offset, i) := by
  cases l with
  | extio b => cases b <;> revert offset i <;> decide
  | p3io b => cases b <;> revert offset i <;> decide

/-- A lamp's bit in the plugin's copy of its light word. -/
def State.lit (s : State) (l : Lamp) : Bool := (s.light l.word).getLsbD l.bit

theorem State.putLamp_light (s : State) (l : Lamp) (on : Bool) (w : LightWord) :
    (s.putLamp l on).light w =
      if w = l.word then assignBit (s.light w) l.bit on else s.light w := by
  rw [State.putLamp]
  by_cases hsame : assignBit (s.light l.word) l.bit on = s.light l.word
  · rw [if_pos hsame]
    by_cases hw : w = l.word
    · rw [if_pos hw, hw, hsame]
    · rw [if_neg hw]
  · rw [if_neg hsame]
    by_cases hw : w = l.word
    · rw [if_pos hw, hw]
      cases l.word <;> rfl
    · rw [if_neg hw]
      cases hl : l.word <;> cases w <;> first | rfl | exact absurd hl.symm hw

/-- Switching a lamp decides its bit and keeps every other lamp's. -/
theorem State.putLamp_lit (s : State) (l l' : Lamp) (on : Bool) :
    (s.putLamp l on).lit l' = if l' = l then on else s.lit l' := by
  have hbit : l.bit < 64 := Nat.lt_of_lt_of_le l.bit_lt (by decide)
  rw [State.lit, State.putLamp_light]
  by_cases hword : l'.word = l.word
  · rw [if_pos hword, getLsbD_assignBit hbit]
    by_cases hl : l' = l
    · rw [if_pos hl, if_pos (congrArg Lamp.bit hl)]
    · rw [if_neg hl, if_neg fun hb => hl (Lamp.eq_of_word_of_bit hword hb)]
      rfl
  · rw [if_neg hword, if_neg fun hl => hword (congrArg Lamp.word hl)]
    rfl

/-- Neither line of a stage is a lamp. -/
theorem State.drive_light_of_not_lamp (s : State) {wire : Wire} (hwire : ∀ l, wire ≠ .lamp l)
    (level : Bool) (w : LightWord) : (s.drive wire level).light w = s.light w := by
  cases wire with
  | lamp l => exact absurd rfl (hwire l)
  | stageDo p => cases w <;> rfl
  | stageClk p => cases w <;> rfl
  | unconnected => rfl

/-- One output decides the lamp wired to it, if the output changes. -/
theorem State.driveOutput_lit (s : State) (offset : Fin 8) (data : ℕ) (i : Fin 4) (l : Lamp) :
    (s.driveOutput offset data i).lit l =
      if l.output = (offset, i) ∧
          outputLevel (s.ksys573DioWriteOutputData offset) i ≠ outputLevel data i then
        !outputLevel data i
      else s.lit l := by
  unfold State.driveOutput
  by_cases hsame : outputLevel (s.ksys573DioWriteOutputData offset) i = outputLevel data i
  · rw [if_pos hsame, if_neg fun h => h.2 hsame]
  · rw [if_neg hsame]
    by_cases hl : l.output = (offset, i)
    · rw [if_pos ⟨hl, hsame⟩, wireAt_eq_lamp_iff.mpr hl, State.drive, State.putLamp_lit, if_pos rfl]
    · rw [if_neg fun h => hl h.1]
      by_cases hlamp : ∃ l', wireAt (4 * offset + i) = .lamp l'
      · obtain ⟨l', hl'⟩ := hlamp
        have hne : l ≠ l' := by
          rintro rfl
          exact hl (wireAt_eq_lamp_iff.mp hl')
        rw [hl', State.drive, State.putLamp_lit, if_neg hne]
      · rw [State.lit, State.drive_light_of_not_lamp s fun l' hl' => hlamp ⟨l', hl'⟩]
        rfl

/-- The outputs driven so far have decided their lamps. -/
theorem State.foldl_driveOutput_lit (s : State) (offset : Fin 8) (data : ℕ)
    (outputs : List (Fin 4)) (l : Lamp) :
    (outputs.foldl (State.driveOutput offset data) s).lit l =
      if l.output.1 = offset ∧ l.output.2 ∈ outputs ∧
          outputLevel (s.ksys573DioWriteOutputData offset) l.output.2 ≠
            outputLevel data l.output.2 then
        !outputLevel data l.output.2
      else s.lit l := by
  induction outputs using List.reverseRecOn with
  | nil => simp
  | append_singleton outputs i ih =>
    rw [List.foldl_concat, State.driveOutput_lit, ih, outputFree_data.foldl]
    by_cases hl : l.output = (offset, i)
    · rw [hl]
      by_cases hsame : outputLevel (s.ksys573DioWriteOutputData offset) i = outputLevel data i
      · simp [hsame]
      · simp [hsame]
    · rw [if_neg fun h => hl h.1]
      have hmem : l.output.1 = offset →
          (l.output.2 ∈ outputs ++ [i] ↔ l.output.2 ∈ outputs) := by
        intro hoffset
        have hi : l.output.2 ≠ i := fun hi => hl (Prod.ext hoffset hi)
        simp [hi]
      by_cases hoffset : l.output.1 = offset
      · simp only [hoffset, hmem hoffset]
      · simp only [hoffset, false_and]

/-- A register write makes the changed outputs' lamps follow it, active low, and
keeps every other lamp. -/
theorem State.writeRegister_lit (s : State) (offset : Fin 8) (data : ℕ) (l : Lamp) :
    (s.writeRegister offset data).lit l =
      if l.output.1 = offset ∧
          outputLevel (s.ksys573DioWriteOutputData offset) l.output.2 ≠
            outputLevel data l.output.2 then
        !outputLevel data l.output.2
      else s.lit l := by
  have hmem : ∀ i : Fin 4, i ∈ ([0, 1, 2, 3] : List (Fin 4)) := by decide
  have h := State.foldl_driveOutput_lit s offset data [0, 1, 2, 3] l
  simp only [hmem, true_and] at h
  exact h

/-! ### Stages -/

/-- The register a stage is wired to. -/
def Player.register : Player → Fin 8
  | .p1 => 1
  | .p2 => 3

/-- The stage a register is wired to. -/
def stageOf (offset : Fin 8) : Option Player :=
  if offset = 1 then some .p1 else if offset = 3 then some .p2 else none

theorem stageOf_eq_some_iff {offset : Fin 8} {p : Player} :
    stageOf offset = some p ↔ offset = p.register := by
  cases p <;> revert offset <;> decide

/-- A stage when its register goes from `old` to `data`: the data line first,
then the clock line, each only if it changes. -/
def Stage.write (st : Stage) (old data : ℕ) : Stage :=
  let st := if old.testBit 0 = data.testBit 0 then st else st.data (data.testBit 0)
  if old.testBit 1 = data.testBit 1 then st else st.clock (data.testBit 1)

/-- The rising edge, if any, that a register write brings to a stage. -/
def Stage.writeEdge (st : Stage) (old data : ℕ) : Option ClockEdge :=
  let st := if old.testBit 0 = data.testBit 0 then st else st.data (data.testBit 0)
  if old.testBit 1 = data.testBit 1 then none else st.clockEdge (data.testBit 1)

theorem Stage.Valid.write {st : Stage} (h : st.Valid) (old data : ℕ) :
    (st.write old data).Valid := by
  unfold Stage.write
  dsimp only
  split_ifs
  · exact h
  · exact h.data _
  · exact h.clock _
  · exact (h.data _).clock _

theorem State.driveOutput_of_unconnected (s : State) {offset : Fin 8} (data : ℕ) {i : Fin 4}
    (hwire : wireAt (4 * offset + i) = .unconnected) : s.driveOutput offset data i = s := by
  rw [State.driveOutput, hwire]
  exact ite_self s

/-- The outputs of a stage's register: the data line, two unconnected outputs,
the clock line. -/
theorem State.foldl_driveOutput_stage (s : State) (p : Player) (data : ℕ) :
    [0, 1, 2, 3].foldl (State.driveOutput p.register data) s =
      (let old := s.ksys573DioWriteOutputData p.register
      let s' := if old.testBit 0 = data.testBit 0 then s
        else s.setStage p ((s.stageio p).data (data.testBit 0))
      if old.testBit 1 = data.testBit 1 then s' else s'.clock p (data.testBit 1)) := by
  have hdata : s.driveOutput p.register data 0 =
      if (s.ksys573DioWriteOutputData p.register).testBit 0 = data.testBit 0 then s
      else s.setStage p ((s.stageio p).data (data.testBit 0)) := by
    cases p <;> rfl
  have hclock (s' : State) : s'.driveOutput p.register data 3 =
      if (s'.ksys573DioWriteOutputData p.register).testBit 1 = data.testBit 1 then s'
      else s'.clock p (data.testBit 1) := by
    cases p <;> rfl
  have hskip : ∀ i : Fin 4, i = 1 ∨ i = 2 → wireAt (4 * p.register + i) = .unconnected := by
    cases p <;> decide
  simp only [List.foldl_cons, List.foldl_nil]
  rw [State.driveOutput_of_unconnected _ data (hskip 1 (Or.inl rfl)),
    State.driveOutput_of_unconnected _ data (hskip 2 (Or.inr rfl)), hclock,
    outputFree_data.driveOutput, hdata]

/-- A write to a stage's register runs that stage's machine. -/
theorem State.writeRegister_stageio_self (s : State) (p : Player) (data : ℕ) :
    (s.writeRegister p.register data).stageio p =
      (s.stageio p).write (s.ksys573DioWriteOutputData p.register) data := by
  rw [State.writeRegister, State.foldl_driveOutput_stage, Stage.write]
  dsimp only
  split_ifs <;> simp [State.clock]

/-- It leaves the other stage's cells alone. -/
theorem State.writeRegister_stageio_of_ne (s : State) {p q : Player} (hq : q ≠ p) (data : ℕ) :
    (s.writeRegister p.register data).stageio q = s.stageio q := by
  rw [State.writeRegister, State.foldl_driveOutput_stage]
  dsimp only
  split_ifs <;> simp [State.clock, hq]

/-- The shared input mask follows the kind of edge the write brings to the stage. -/
theorem State.writeRegister_stageioInputMask (s : State) (p : Player) (data : ℕ) :
    (s.writeRegister p.register data).stageioInputMask =
      maskAfter ((s.stageio p).writeEdge (s.ksys573DioWriteOutputData p.register) data)
        (fun q => ((s.writeRegister p.register data).stageio q).dataBit) s.stageioInputMask := by
  rw [State.writeRegister, State.foldl_driveOutput_stage, Stage.writeEdge]
  dsimp only
  split_ifs <;> simp [State.clock, maskAfter, State.setInputMask, State.setStage]

/-- A register without a stage has lamps and unconnected outputs only. -/
theorem wireAt_of_stageOf_eq_none {offset : Fin 8} (h : stageOf offset = none) (i : Fin 4) :
    (∃ l, wireAt (4 * offset + i) = .lamp l) ∨ wireAt (4 * offset + i) = .unconnected := by
  have hplayer : ∀ offset : Fin 8, stageOf offset = none → ∀ i : Fin 4,
      (wireAt (4 * offset + i)).player = none := by decide
  have hwire := hplayer offset h i
  cases hw : wireAt (4 * offset + i) with
  | lamp l => exact Or.inl ⟨l, rfl⟩
  | stageDo p => simp [hw, Wire.player] at hwire
  | stageClk p => simp [hw, Wire.player] at hwire
  | unconnected => exact Or.inr rfl

/-- A write to any other register touches neither a stage nor the mask. -/
theorem State.writeRegister_stages_of_none (s : State) {offset : Fin 8}
    (h : stageOf offset = none) (data : ℕ) :
    (s.writeRegister offset data).stageio = s.stageio ∧
      (s.writeRegister offset data).stageioInputMask = s.stageioInputMask := by
  have hlamp (s : State) (l : Lamp) (on : Bool) :
      (s.putLamp l on).stageio = s.stageio ∧
        (s.putLamp l on).stageioInputMask = s.stageioInputMask := by
    unfold State.putLamp State.setLight State.call
    dsimp only
    split_ifs
    · exact ⟨rfl, rfl⟩
    · cases l.word <;> exact ⟨rfl, rfl⟩
  have hfold (outputs : List (Fin 4)) :
      (outputs.foldl (State.driveOutput offset data) s).stageio = s.stageio ∧
        (outputs.foldl (State.driveOutput offset data) s).stageioInputMask =
          s.stageioInputMask := by
    induction outputs using List.reverseRecOn with
    | nil => exact ⟨rfl, rfl⟩
    | append_singleton outputs i ih =>
      rw [List.foldl_concat, State.driveOutput]
      split_ifs
      · exact ih
      · rcases wireAt_of_stageOf_eq_none h i with ⟨l, hl⟩ | hwire
        · rw [hl]
          exact ⟨(hlamp _ l _).1.trans ih.1, (hlamp _ l _).2.trans ih.2⟩
        · rw [hwire]
          exact ih
  exact hfold [0, 1, 2, 3]

end MamePlugins.Ddrio
