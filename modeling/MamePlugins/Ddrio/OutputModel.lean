import MamePlugins.Library.WordBits
import MamePlugins.Ddrio.Header
import MamePlugins.Ddrio.StageModel
import MamePlugins.Ddrio.DioWrite
import Mathlib.Tactic.IntervalCases

/-!
# The outputs as wires

Each of the 32 outputs of the digital board is wired to a lamp, to a line of a
stage, or to nothing. A register write drives the wires whose bit changed. This
file states that model and proves that `ksys573_dio_write_output` computes it,
without error, on every state whose stage cells are valid.
-/

namespace MamePlugins.Ddrio

open Library

/-! ### Light words -/

/-- The plugin's copy of a light word. -/
def State.light (s : State) : LightWord → LuaInt
  | .extio => s.ddrioStateExtioLight
  | .p3io => s.ddrioStateP3ioLight

def State.setLight (s : State) (w : LightWord) (light : LuaInt) : State :=
  match w with
  | .extio => { s with ddrioStateExtioLight := light }
  | .p3io => { s with ddrioStateP3ioLight := light }

/-- The backend call that passes a light word on. -/
def LightWord.call : LightWord → LuaInt → Call
  | .extio => .ddrIoSetLightsExtio
  | .p3io => .ddrIoSetLightsP3io

/-- Switch a lamp; the backend hears of it only if the word changes. -/
def State.putLamp (s : State) (l : Lamp) (lit : Bool) : State :=
  let light := assignBit (s.light l.word) l.bit lit
  if light = s.light l.word then s
  else (s.setLight l.word light).call (l.word.call light)

/-! ### Wires -/

/-- What an output is wired to. -/
inductive Wire
  | lamp (l : Lamp)
  | stageDo (p : Player)
  | stageClk (p : Player)
  | unconnected
  deriving DecidableEq, Repr

/-- The stage a wire leads to. -/
def Wire.player : Wire → Option Player
  | .stageDo p | .stageClk p => some p
  | .lamp _ | .unconnected => none

/-- The outputs in use, by offset. -/
def wiring : List (ℕ × Wire) :=
  [(0, .lamp (.extio .lightP1Up)),
   (1, .lamp (.extio .lightP1Left)),
   (2, .lamp (.extio .lightP1Right)),
   (3, .lamp (.extio .lightP1Down)),
   (4, .stageDo .p1),
   (7, .stageClk .p1),
   (8, .lamp (.extio .lightP2Up)),
   (9, .lamp (.extio .lightP2Left)),
   (10, .lamp (.extio .lightP2Right)),
   (11, .lamp (.extio .lightP2Down)),
   (12, .stageDo .p2),
   (15, .stageClk .p2),
   (17, .lamp (.p3io .lightP1Menu)),
   (18, .lamp (.p3io .lightP2Menu)),
   (20, .lamp (.p3io .lightP1LowerLamp)),
   (21, .lamp (.p3io .lightP2LowerLamp)),
   (22, .lamp (.p3io .lightP2UpperLamp)),
   (23, .lamp (.p3io .lightP1UpperLamp)),
   (28, .lamp (.extio .lightNeons))]

/-- The wire of an output. -/
def wireAt (offset : ℕ) : Wire := (wiring.lookup offset).getD .unconnected

/-- Drive a wire to a level. Lamps are active low. -/
def State.drive (s : State) (wire : Wire) (level : Bool) : State :=
  match wire with
  | .lamp l => s.putLamp l !level
  | .stageDo p => s.setStage p ((s.stageio p).data level)
  | .stageClk p => s.clock p level
  | .unconnected => s

/-- The cells of both stages satisfy their invariant. -/
def State.StagesValid (s : State) : Prop := ∀ p, (s.stageio p).Valid

theorem State.putLamp_stageio (s : State) (l : Lamp) (lit : Bool) :
    (s.putLamp l lit).stageio = s.stageio := by
  unfold State.putLamp State.setLight State.call
  dsimp only
  split_ifs
  · rfl
  · cases l.word <;> rfl

theorem State.StagesValid.setStage {s : State} (h : s.StagesValid) {p : Player} {st : Stage}
    (hst : st.Valid) : (s.setStage p st).StagesValid := by
  intro q
  by_cases hq : q = p
  · rw [hq, State.setStage_stageio_self]
    exact hst
  · rw [State.setStage_stageio_of_ne hq]
    exact h q

theorem State.StagesValid.drive {s : State} (h : s.StagesValid) (wire : Wire) (level : Bool) :
    (s.drive wire level).StagesValid := by
  cases wire with
  | lamp l =>
    intro p
    rw [State.drive, State.putLamp_stageio]
    exact h p
  | stageDo p => exact h.setStage ((h p).data level)
  | stageClk p => exact h.setStage ((h p).clock level)
  | unconnected => exact h

/-! ### The code drives the wires -/

/-- Both arms of a lamp branch assign one bit. -/
theorem updateLight_eq (light : LuaInt) (k : ℕ) (level : Bool) :
    updateLight light (1#64 <<< k) (!level).toNat = assignBit light k !level := by
  cases level <;> rfl

/-- The two change tests that follow the branches of the dispatch: both words are
compared with their values before, and passed on if they differ. -/
theorem dispatch_eq_of_branch {offset : ℕ} {level : Bool} {s s' : State}
    (hbranch : dispatchBranch offset (!level).toNat s = .ok s') :
    ksys573DioWriteOutputDispatch offset level.toNat s = .ok
      (let s'' := if s.light .extio = s'.light .extio then s'
        else s'.call (.ddrIoSetLightsExtio (s'.light .extio))
      if s.light .p3io = s''.light .p3io then s''
      else s''.call (.ddrIoSetLightsP3io (s''.light .p3io))) := by
  have hinverted : (if level.toNat > 0 then 0 else 1) = (!level).toNat := by cases level <;> rfl
  rw [ksys573DioWriteOutputDispatch, hinverted, hbranch]
  rfl

/-- A lamp branch of the dispatch switches its lamp. -/
theorem dispatch_lamp {offset : ℕ} {l : Lamp} {level : Bool} {s : State}
    (hbranch : dispatchBranch offset (!level).toNat s = .ok (s.setLight l.word
      (updateLight (s.light l.word) (1#64 <<< l.bit) (!level).toNat))) :
    ksys573DioWriteOutputDispatch offset level.toNat s = .ok (s.putLamp l !level) := by
  rw [updateLight_eq] at hbranch
  rw [dispatch_eq_of_branch hbranch, State.putLamp]
  generalize assignBit (s.light l.word) l.bit (!level) = light
  cases l.word with
  | extio =>
    by_cases hsame : light = s.ddrioStateExtioLight
    · simp [State.setLight, State.light, hsame]
    · simp [State.setLight, State.light, State.call, LightWord.call, hsame, Ne.symm hsame]
  | p3io =>
    by_cases hsame : light = s.ddrioStateP3ioLight
    · simp [State.setLight, State.light, hsame]
    · simp [State.setLight, State.light, State.call, LightWord.call, hsame, Ne.symm hsame]

/-- A branch that leaves both light words alone makes no call. -/
theorem dispatch_of_light_eq {offset : ℕ} {level : Bool} {s s' : State}
    (hbranch : dispatchBranch offset (!level).toNat s = .ok s')
    (hlight : ∀ w, s'.light w = s.light w) :
    ksys573DioWriteOutputDispatch offset level.toNat s = .ok s' := by
  rw [dispatch_eq_of_branch hbranch]
  simp [hlight]

/-- The dispatch drives the wire of its offset. -/
theorem dispatch_eq {offset : ℕ} (hoffset : offset < 32) {s : State} (hvalid : s.StagesValid)
    (level : Bool) :
    ksys573DioWriteOutputDispatch offset level.toNat s =
      .ok (s.drive (wireAt offset) level) := by
  interval_cases offset
  case «4» =>
    exact dispatch_of_light_eq (congrArg Except.ok (gn845pwbbDoW_eq .p1 level s))
      fun w => by cases w <;> rfl
  case «7» =>
    exact dispatch_of_light_eq (gn845pwbbClkW_eq hvalid .p1 level) fun w => by cases w <;> rfl
  case «12» =>
    exact dispatch_of_light_eq (congrArg Except.ok (gn845pwbbDoW_eq .p2 level s))
      fun w => by cases w <;> rfl
  case «15» =>
    exact dispatch_of_light_eq (gn845pwbbClkW_eq hvalid .p2 level) fun w => by cases w <;> rfl
  -- The remaining offsets are lamps and unconnected outputs, one branch each.
  all_goals first
    | exact dispatch_lamp rfl
    | exact dispatch_of_light_eq rfl fun _ => rfl

/-! ### Register writes -/

/-- The level output `i` of a register has in a nibble. -/
def outputLevel (data : ℕ) (i : Fin 4) : Bool := data.testBit (outputShift i)

/-- Drive output `i` of a register if its level changes. -/
def State.driveOutput (offset : Fin 8) (data : ℕ) (s : State) (i : Fin 4) : State :=
  if outputLevel (s.ksys573DioWriteOutputData offset) i = outputLevel data i then s
  else s.drive (wireAt (4 * offset + i)) (outputLevel data i)

/-- Write a register: drive the outputs in order, then keep the nibble. -/
def State.writeRegister (s : State) (offset : Fin 8) (data : ℕ) : State :=
  let s' := [0, 1, 2, 3].foldl (State.driveOutput offset data) s
  { s' with
    ksys573DioWriteOutputData := Function.update s'.ksys573DioWriteOutputData offset data }

theorem State.StagesValid.driveOutput {s : State} (h : s.StagesValid) (offset : Fin 8) (data : ℕ)
    (i : Fin 4) : (s.driveOutput offset data i).StagesValid := by
  unfold State.driveOutput
  split_ifs
  · exact h
  · exact h.drive _ _

theorem State.StagesValid.foldl_driveOutput {s : State} (h : s.StagesValid) (offset : Fin 8)
    (data : ℕ) (outputs : List (Fin 4)) :
    (outputs.foldl (State.driveOutput offset data) s).StagesValid := by
  induction outputs generalizing s with
  | nil => exact h
  | cons i outputs ih => exact ih (h.driveOutput offset data i)

theorem State.StagesValid.writeRegister {s : State} (h : s.StagesValid) (offset : Fin 8)
    (data : ℕ) : (s.writeRegister offset data).StagesValid :=
  h.foldl_driveOutput offset data _

/-- One turn of the loop over a register's outputs. -/
theorem outputBit_eq {s : State} (hvalid : s.StagesValid) (offset : Fin 8) (data : ℕ)
    (i : Fin 4) : outputBit offset data s i = .ok (s.driveOutput offset data i) := by
  have hbit (x : ℕ) : (x >>> outputShift i) &&& 1 = (outputLevel x i).toNat := by
    rw [outputLevel, Nat.toNat_testBit, Nat.and_one_is_mod, Nat.shiftRight_eq_div_pow]
  have hlevel (b : Bool) : b.toNat &&& 0xff = b.toNat := by cases b <;> rfl
  have hinj (a b : Bool) : a.toNat = b.toNat ↔ a = b := by cases a <;> cases b <;> decide
  have hoffset : 4 * (offset : ℕ) + (i : ℕ) < 32 := by omega
  rw [outputBit, State.driveOutput, hbit, hbit, hlevel, dispatch_eq hoffset hvalid]
  simp only [hinj]
  split_ifs <;> rfl

/-- The loop over a register's outputs drives them one after the other. -/
theorem foldlM_outputBit_eq {s : State} (hvalid : s.StagesValid) (offset : Fin 8) (data : ℕ)
    (outputs : List (Fin 4)) :
    outputs.foldlM (outputBit offset data) s =
      .ok (outputs.foldl (State.driveOutput offset data) s) := by
  induction outputs generalizing s with
  | nil => rfl
  | cons i outputs ih =>
    rw [List.foldlM_cons, outputBit_eq hvalid]
    exact ih (hvalid.driveOutput offset data i)

/-- `ksys573_dio_write_output` is the register write of the model. -/
theorem writeNibble_eq {s : State} (hvalid : s.StagesValid) (offset : Fin 8) (data : ℕ) :
    writeNibble offset data s = .ok (s.writeRegister offset data) := by
  rw [writeNibble, foldlM_outputBit_eq hvalid]
  rfl

end MamePlugins.Ddrio
