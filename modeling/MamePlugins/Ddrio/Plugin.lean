import MamePlugins.Library.Runs
import MamePlugins.Ddrio.DioWrite
import MamePlugins.Ddrio.JammaRead

/-!
# The ddrio plugin as a machine

MAME calls the plugin back on a machine start (a reset included), on a machine
stop, and on every access to a tapped address. The outcomes of the backend calls
a callback makes are part of its event.
-/

namespace MamePlugins.Ddrio

open Library

def ddrioLogLevelInfo : ℕ := 2

/-- "Switch everything off", as `init` and `deinit` do it. -/
def switchEverythingOff : List Call :=
  [.ddrIoSetLightsExtio 0, .ddrIoSetLightsP3io 0, .ddrIoSetLightsHdxsPanel 0] ++
    (List.range (0x0b + 1)).map fun i => .ddrIoSetLightsHdxsRgb i 0 0 0

/-- The heuristic on the machine's name: ddr or ds (dancing stage) games. -/
def isSupported (systemName : List Char) : Bool :=
  stringFind systemName "ddr".toList || stringFind systemName "ds".toList

/-- `initResult` is what `ddr_io_init` returns, if it is called. -/
def init (systemName : List Char) (initResult : Bool) (s : State) : State :=
  if s.isInitialized then s
  else if ¬isSupported systemName then s
  else
    -- Whether a tap is installed or reinstalled, it is in place afterwards.
    let s := { s with readCallback := fun _ => true, writeCallback := fun _ => true }
    let s := s.call (.ddrIoInit ddrioLogLevelInfo initResult)
    if initResult = false then s
    else
      { s with
        calls := s.calls ++ switchEverythingOff
        ddrioStatePad := 0
        ddrioStateP3ioLight := 0
        ddrioStateExtioLight := 0
        ksys573DioWriteOutputData := fun _ => 0
        stageioInputMask := 0xffffffff
        isInitialized := true }

def deinit (s : State) : State :=
  if ¬s.isInitialized then s
  else { s with calls := s.calls ++ switchEverythingOff ++ [.ddrIoFini], isInitialized := false }

/-- What MAME can call the plugin back for. -/
inductive Event
  | start (systemName : List Char) (initResult : Bool)
  | stop
  | read (tap : ReadTap) (offset data mask : LuaInt) (pad : BitVec 32)
  | write (tap : WriteTap) (offset data mask : LuaInt)

/-- The callback of a read tap. -/
def readTap (tap : ReadTap) (offset data mask : LuaInt) (pad : BitVec 32) (s : State) :
    Option LuaInt × State :=
  match tap with
  | .ksys573Jamma1Read => (ksys573Jamma1Read offset data mask s, s)
  | .ksys573Jamma2Read => ksys573Jamma2Read offset data mask pad s
  | .ksys573Jamma3Read => (ksys573Jamma3Read offset data mask s, s)

/-- The callback of a write tap. -/
def writeTap (tap : WriteTap) : (offset data mask : LuaInt) → State → Except LuaError State :=
  match tap with
  | .ksys573DioWrite_1_0 => ksys573DioWrite_1_0
  | .ksys573DioWrite_3_7 => ksys573DioWrite_3_7
  | .ksys573DioWrite_4 => ksys573DioWrite_4
  | .ksys573DioWrite_5_2 => ksys573DioWrite_5_2

/-- One callback. A tap that was never installed is not called. -/
def step (s : State) : Event → Except LuaError State
  | .start systemName initResult => .ok (init systemName initResult s)
  | .stop => .ok (deinit s)
  | .read tap offset data mask pad =>
    if s.readCallback tap then
      let (answer, s) := readTap tap offset data mask pad s
      .ok { s with answers := s.answers ++ [answer] }
    else .ok s
  | .write tap offset data mask =>
    if s.writeCallback tap then writeTap tap offset data mask s else .ok s

/-- The plugin's run over a sequence of callbacks. -/
abbrev run (s : State) (es : List Event) : Except LuaError State := runEvents step s es

end MamePlugins.Ddrio
