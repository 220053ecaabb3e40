import MamePlugins.Lua

/-!
# The state of the iidxio plugin

The local variables of `startplugin`, followed by a record of what the plugin's
environment has seen: the calls made to the iidxio backend and the values handed
back by the read taps.
-/

namespace MamePlugins.Iidxio

/-- Memory read taps, named after the callback variables. -/
inductive ReadTap
  | twinkleIoRead
  | twinkleKeysRead
  deriving DecidableEq, Repr

/-- Memory write taps, named after the callback variables. -/
inductive WriteTap
  | twinkleIoWrite
  | twinkleKeysWrite
  deriving DecidableEq, Repr

/-- A call into `iidxio_lua_bind`, with its arguments and, where the plugin looks
at it, the backend's result. -/
inductive Call
  | iidxioInit (result : Bool)
  | iidxioFini
  | iidxioEp1SetDeckLights (lights : LuaInt)
  | iidxioEp1SetPanelLights (lights : LuaInt)
  | iidxioEp1SetTopLamps (lamps : LuaInt)
  | iidxioEp1SetTopNeons (neons : LuaInt)
  | iidxioEp1Send (result : Bool)
  | iidxioEp2Recv (result : Bool)
  | iidxioEp2GetPanel
  | iidxioEp2GetSys
  | iidxioEp2GetKeys
  | iidxioEp2GetTurntable (player : ℕ)
  | iidxioEp2GetSlider (slider : ℕ)
  | iidxioEp3Write16seg (text : LuaString) (result : Bool)
  deriving DecidableEq, Repr

/-- What the backend's input functions return during a callback. -/
structure Inputs where
  panel : LuaInt
  sys : LuaInt
  keys : LuaInt
  turntable : ℕ → LuaInt
  slider : ℕ → LuaInt

/-- The results of the three backend calls of a frame update. -/
structure FrameResults where
  ep3Write16seg : Bool
  ep1Send : Bool
  ep2Recv : Bool
  deriving DecidableEq, Repr

/-- Nine characters, and a tenth byte as a safety trailing null terminator. -/
def text16segBlank : LuaString := List.replicate 10 0

/-- The plugin's variables, and what the environment has observed of it. -/
structure State where
  isInitialized : Bool
  /-- `callback_*` is no longer `nil`: the tap has been installed. -/
  readCallback : ReadTap → Bool
  writeCallback : WriteTap → Bool
  curIoOffset : LuaInt
  text16seg : LuaString
  /-- The exit hook has asked the machine to exit. -/
  exited : Bool
  /-- Backend calls so far, oldest first. -/
  calls : List Call
  /-- Results of the read taps so far, oldest first; `none` is an empty `return`. -/
  answers : List (Option LuaInt)

/-- The plugin freshly loaded, before any callback. -/
def State.load : State where
  isInitialized := false
  readCallback := fun _ => false
  writeCallback := fun _ => false
  curIoOffset := 0
  text16seg := text16segBlank
  exited := false
  calls := []
  answers := []

/-- Call the backend. -/
def State.call (s : State) (c : Call) : State := { s with calls := s.calls ++ [c] }

end MamePlugins.Iidxio
