import MamePlugins.Lua
import Mathlib.Algebra.GroupWithZero.Nat
import Mathlib.Logic.Function.Basic

/-!
# The state of the ddrio plugin

The local variables of `startplugin`, followed by a record of what the plugin's
environment has seen: the calls made to the ddrio backend and the values handed
back by the read taps.
-/

namespace MamePlugins.Ddrio

/-- For the numerals of the eight registers. -/
instance neZero_eight : NeZero 8 := ⟨by decide⟩

/-- For the numerals of a register's four outputs. -/
instance neZero_four : NeZero 4 := ⟨by decide⟩

/-- The two dance stages. Lua indexes their cells by `1` and `2`. -/
inductive Player
  | p1
  | p2
  deriving DecidableEq, Repr

/-- The stage the given one shares the input mask with. -/
def Player.other : Player → Player
  | .p1 => .p2
  | .p2 => .p1

/-- Memory read taps, named after the callback variables. -/
inductive ReadTap
  | ksys573Jamma1Read
  | ksys573Jamma2Read
  | ksys573Jamma3Read
  deriving DecidableEq, Repr

/-- Memory write taps, named after the callback variables. -/
inductive WriteTap
  | ksys573DioWrite_1_0
  | ksys573DioWrite_3_7
  | ksys573DioWrite_4
  | ksys573DioWrite_5_2
  deriving DecidableEq, Repr

/-- A call into `ddrio_lua_bind`, with its arguments and, where the plugin looks
at it, the backend's result. -/
inductive Call
  | ddrIoInit (logLevel : ℕ) (result : Bool)
  | ddrIoFini
  | ddrIoReadPad (pad : BitVec 32)
  | ddrIoSetLightsExtio (light : LuaInt)
  | ddrIoSetLightsP3io (light : LuaInt)
  | ddrIoSetLightsHdxsPanel (light : LuaInt)
  | ddrIoSetLightsHdxsRgb (idx r g b : ℕ)
  deriving DecidableEq, Repr

def stageIoStateIdle : ℕ := 0
def stageIoStateInit : ℕ := 1

/-- The cells `stageio_data_*[player_id]` of one player. -/
structure Stage where
  dataDo : ℕ
  dataClk : ℕ
  dataShift : ℕ
  dataState : ℕ
  dataBit : ℕ
  deriving DecidableEq, Repr

/-- The cells as the script's tables initialise them. -/
def Stage.fresh : Stage := ⟨0, 0, 0, stageIoStateIdle, 0⟩

/-- The plugin's variables, and what the environment has observed of it. -/
structure State where
  isInitialized : Bool
  /-- `callback_*` is no longer `nil`: the tap has been installed. -/
  readCallback : ReadTap → Bool
  writeCallback : WriteTap → Bool
  ddrioStatePad : LuaInt
  ddrioStateP3ioLight : LuaInt
  ddrioStateExtioLight : LuaInt
  ksys573DioWriteOutputData : Fin 8 → ℕ
  stageio : Player → Stage
  stageioInputMask : LuaInt
  /-- Backend calls so far, oldest first. -/
  calls : List Call
  /-- Results of the read taps so far, oldest first; `none` is an empty `return`. -/
  answers : List (Option LuaInt)

/-- The plugin freshly loaded, before any callback. -/
def State.load : State where
  isInitialized := false
  readCallback := fun _ => false
  writeCallback := fun _ => false
  ddrioStatePad := 0
  ddrioStateP3ioLight := 0
  ddrioStateExtioLight := 0
  ksys573DioWriteOutputData := fun _ => 0
  stageio := fun _ => .fresh
  stageioInputMask := 0xffffffff
  calls := []
  answers := []

/-- Call the backend. -/
def State.call (s : State) (c : Call) : State := { s with calls := s.calls ++ [c] }

/-- Assign the cells of one player. -/
def State.setStage (s : State) (p : Player) (st : Stage) : State :=
  { s with stageio := Function.update s.stageio p st }

/-- Assign `stageio_input_mask`. -/
def State.setInputMask (s : State) (mask : LuaInt) : State := { s with stageioInputMask := mask }

@[simp] theorem State.setStage_stageio_self (s : State) (p : Player) (st : Stage) :
    (s.setStage p st).stageio p = st :=
  Function.update_self ..

@[simp] theorem State.setStage_stageio_of_ne {s : State} {p q : Player} {st : Stage}
    (h : q ≠ p) : (s.setStage p st).stageio q = s.stageio q :=
  Function.update_of_ne h ..

@[simp] theorem State.setStage_setStage (s : State) (p : Player) (st st' : Stage) :
    (s.setStage p st).setStage p st' = s.setStage p st' := by
  simp [State.setStage]

@[simp] theorem State.setStage_self (s : State) (p : Player) : s.setStage p (s.stageio p) = s := by
  simp [State.setStage]

@[simp] theorem State.setInputMask_stageio (s : State) (mask : LuaInt) :
    (s.setInputMask mask).stageio = s.stageio :=
  rfl

@[simp] theorem State.setInputMask_self (s : State) : s.setInputMask s.stageioInputMask = s := rfl

end MamePlugins.Ddrio
