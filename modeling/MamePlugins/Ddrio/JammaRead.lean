import MamePlugins.Ddrio.State

/-!
# JAMMA input reads

The read taps replace the emulator's button bits, which are active low, by those
of the pad word the backend reports, and pass every other bit of the emulated
data on. Only the `jamma2` tap polls the backend; the other two use its last word.
-/

namespace MamePlugins.Ddrio

def cabinetTestMask : LuaInt := 1#64 <<< 10
def cabinetServiceMask : LuaInt := 1#64 <<< 28
def cabinetCoin1Mask : LuaInt := 1#64 <<< 24
def cabinetCoin2Mask : LuaInt := 1#64 <<< 25

def stageP1UpMask : LuaInt := 1#64 <<< 10
def stageP1DownMask : LuaInt := 1#64 <<< 11
def stageP1LeftMask : LuaInt := 1#64 <<< 8
def stageP1RightMask : LuaInt := 1#64 <<< 9

def stageP2UpMask : LuaInt := 1#64 <<< 2
def stageP2DownMask : LuaInt := 1#64 <<< 3
def stageP2LeftMask : LuaInt := 1#64 <<< 0
def stageP2RightMask : LuaInt := 1#64 <<< 1

def cabinetP1LeftMask : LuaInt := 1#64 <<< 13
def cabinetP1RightMask : LuaInt := 1#64 <<< 14
def cabinetP1StartMask : LuaInt := 1#64 <<< 15

def cabinetP2LeftMask : LuaInt := 1#64 <<< 5
def cabinetP2RightMask : LuaInt := 1#64 <<< 6
def cabinetP2StartMask : LuaInt := 1#64 <<< 7

def jamma1InputMask : LuaInt := cabinetServiceMask ||| cabinetCoin1Mask ||| cabinetCoin2Mask

def jamma2InputMask : LuaInt :=
  stageP1UpMask ||| stageP1DownMask ||| stageP1LeftMask ||| stageP1RightMask |||
  stageP2UpMask ||| stageP2DownMask ||| stageP2LeftMask ||| stageP2RightMask |||
  cabinetP1LeftMask ||| cabinetP1RightMask ||| cabinetP1StartMask |||
  cabinetP2LeftMask ||| cabinetP2RightMask ||| cabinetP2StartMask

def jamma3InputMask : LuaInt := cabinetTestMask

def ddrioTestMask : LuaInt := 1#64 <<< 4
def ddrioCoinMask : LuaInt := 1#64 <<< 5
def ddrioServiceMask : LuaInt := 1#64 <<< 6

def ddrioP1UpMask : LuaInt := 1#64 <<< 17
def ddrioP1DownMask : LuaInt := 1#64 <<< 18
def ddrioP1LeftMask : LuaInt := 1#64 <<< 19
def ddrioP1RightMask : LuaInt := 1#64 <<< 20

def ddrioP2UpMask : LuaInt := 1#64 <<< 9
def ddrioP2DownMask : LuaInt := 1#64 <<< 10
def ddrioP2LeftMask : LuaInt := 1#64 <<< 11
def ddrioP2RightMask : LuaInt := 1#64 <<< 12

def ddrioP1StartMask : LuaInt := 1#64 <<< 16
def ddrioP1MenuLeftMask : LuaInt := 1#64 <<< 22
def ddrioP1MenuRightMask : LuaInt := 1#64 <<< 23

def ddrioP2StartMask : LuaInt := 1#64 <<< 8
def ddrioP2MenuLeftMask : LuaInt := 1#64 <<< 14
def ddrioP2MenuRightMask : LuaInt := 1#64 <<< 15

/-- One button test of the read taps: `if pad & button > 0 then data_buf = data_buf | input`. -/
def mergeButton (pad : LuaInt) (dataBuf : LuaInt) (button : LuaInt × LuaInt) : LuaInt :=
  if (pad &&& button.1).isPositive then dataBuf ||| button.2 else dataBuf

/-- The tests of `ksys573_jamma1_read`, in order: a pad bit and its input bit. -/
def jamma1Buttons : List (LuaInt × LuaInt) :=
  [(ddrioServiceMask, cabinetServiceMask),
   (ddrioCoinMask, cabinetCoin1Mask)]

/-- The tests of `ksys573_jamma2_read`. -/
def jamma2Buttons : List (LuaInt × LuaInt) :=
  [(ddrioP1UpMask, stageP1UpMask),
   (ddrioP1DownMask, stageP1DownMask),
   (ddrioP1LeftMask, stageP1LeftMask),
   (ddrioP1RightMask, stageP1RightMask),
   (ddrioP2UpMask, stageP2UpMask),
   (ddrioP2DownMask, stageP2DownMask),
   (ddrioP2LeftMask, stageP2LeftMask),
   (ddrioP2RightMask, stageP2RightMask),
   (ddrioP1StartMask, cabinetP1StartMask),
   (ddrioP1MenuLeftMask, cabinetP1LeftMask),
   (ddrioP1MenuRightMask, cabinetP1RightMask),
   (ddrioP2StartMask, cabinetP2StartMask),
   (ddrioP2MenuLeftMask, cabinetP2LeftMask),
   (ddrioP2MenuRightMask, cabinetP2RightMask)]

/-- The test of `ksys573_jamma3_read`. -/
def jamma3Buttons : List (LuaInt × LuaInt) := [(ddrioTestMask, cabinetTestMask)]

def ksys573Jamma1Read (offset data mask : LuaInt) (s : State) : Option LuaInt :=
  if offset = 0x1f400004 ∧ mask = 0xffff0000 then
    let dataBuf := jamma1Buttons.foldl (mergeButton s.ddrioStatePad) 0
    -- Inputs are active low.
    let dataBuf := dataBuf ^^^ jamma1InputMask
    let mergedData := dataBuf ||| (data &&& ~~~jamma1InputMask)
    some (mergedData &&& mask)
  else none

/-- `pad` is what `ddr_io_read_pad` returns, if it is called. -/
def ksys573Jamma2Read (offset data mask : LuaInt) (pad : BitVec 32) (s : State) :
    Option LuaInt × State :=
  if offset = 0x1f400008 ∧ mask = 0xffff then
    let s := { s.call (.ddrIoReadPad pad) with ddrioStatePad := pad.setWidth 64 }
    let dataBuf := jamma2Buttons.foldl (mergeButton s.ddrioStatePad) 0
    let dataBuf := (dataBuf ^^^ jamma2InputMask) &&& s.stageioInputMask
    let mergedData := dataBuf ||| (data &&& ~~~jamma2InputMask)
    (some (mergedData &&& mask), s)
  else (none, s)

def ksys573Jamma3Read (offset data mask : LuaInt) (s : State) : Option LuaInt :=
  if offset = 0x1f40000c ∧ mask = 0xffff then
    let dataBuf := jamma3Buttons.foldl (mergeButton s.ddrioStatePad) 0
    let dataBuf := dataBuf ^^^ jamma3InputMask
    let mergedData := dataBuf ||| (data &&& ~~~jamma3InputMask)
    some (mergedData &&& mask)
  else none

end MamePlugins.Ddrio
