import MamePlugins.Library.Runs
import MamePlugins.Iidxio.Twinkle

/-!
# The iidxio plugin

Machine start, machine stop, frame end and the memory taps, and the plugin's runs
over sequences of them.
-/

namespace MamePlugins.Iidxio

open Library

/-- The plugin only runs with games whose system name says so. -/
def isSupported (systemName : List Char) : Bool := stringFind systemName "bmiidx".toList

/-- Drive the IO synchronously to the frame update rate of the game. -/
def frameUpdate (results : FrameResults) (s : State) : State :=
  if ¬s.isInitialized then s
  else
    -- Previous frame outputs.
    let s := s.call (.iidxioEp3Write16seg s.text16seg results.ep3Write16seg)
    if results.ep3Write16seg = false then s
    else
      let s := s.call (.iidxioEp1Send results.ep1Send)
      if results.ep1Send = false then s
      else
        -- Next frame inputs.
        s.call (.iidxioEp2Recv results.ep2Recv)

/-- Switch everything off. -/
def switchEverythingOff (s : State) : State :=
  { s with
    calls := s.calls ++ [.iidxioEp1SetDeckLights 0, .iidxioEp1SetPanelLights 0,
      .iidxioEp1SetTopLamps 0, .iidxioEp1SetTopNeons 0]
    text16seg := text16segBlank }

/-- `initResult` is what `iidxio_init` returns, if it is called. -/
def init (systemName : List Char) (initResult : Bool) (results : FrameResults) (s : State) :
    State :=
  if s.isInitialized then s
  else if ¬isSupported systemName then s
  else
    -- Whether a tap is installed or reinstalled, it is in place afterwards.
    let s := { s with readCallback := fun _ => true, writeCallback := fun _ => true }
    let s := s.call (.iidxioInit initResult)
    if initResult = false then s
    else
      let s := switchEverythingOff s
      let s := { s with isInitialized := true }
      frameUpdate results s

def deinit (results : FrameResults) (s : State) : State :=
  if ¬s.isInitialized then s
  else
    let s := switchEverythingOff s
    let s := frameUpdate results s
    { s.call .iidxioFini with isInitialized := false }

/-- What MAME can call the plugin back for. -/
inductive Event
  | start (systemName : List Char) (initResult : Bool) (results : FrameResults)
  | stop (results : FrameResults)
  | frame (results : FrameResults)
  | read (tap : ReadTap) (offset data mask : LuaInt) (inputs : Inputs)
  | write (tap : WriteTap) (offset data mask : LuaInt)

/-- The callback of a read tap. -/
def readTap (tap : ReadTap) : (offset data mask : LuaInt) → Inputs → State →
    Option LuaInt × State :=
  match tap with
  | .twinkleIoRead => twinkleIoRead
  | .twinkleKeysRead => twinkleKeysRead

/-- The callback of a write tap. -/
def writeTap (tap : WriteTap) (offset data mask : LuaInt) (s : State) : Except LuaError State :=
  match tap with
  | .twinkleIoWrite => twinkleIoWrite offset data mask s
  | .twinkleKeysWrite => .ok (twinkleKeysWrite offset data mask s)

/-- One callback. A tap that was never installed is not called. -/
def step (s : State) : Event → Except LuaError State
  | .start systemName initResult results => .ok (init systemName initResult results s)
  | .stop results => .ok (deinit results s)
  | .frame results => .ok (frameUpdate results s)
  | .read tap offset data mask inputs =>
    if s.readCallback tap then
      let (answer, s) := readTap tap offset data mask inputs s
      .ok { s with answers := s.answers ++ [answer] }
    else .ok s
  | .write tap offset data mask =>
    if s.writeCallback tap then writeTap tap offset data mask s else .ok s

/-- The plugin's run over a sequence of callbacks. -/
abbrev run (s : State) (es : List Event) : Except LuaError State := runEvents step s es

end MamePlugins.Iidxio
