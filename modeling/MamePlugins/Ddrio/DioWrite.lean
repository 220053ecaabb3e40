import MamePlugins.Ddrio.StageIo
import Mathlib.Data.Fin.VecNotation

/-!
# Digital output writes

The write taps split a bus access into half-words and pass the upper nibble of
each to `ksys573_dio_write_output`, which compares it bit by bit with its copy
of the register and dispatches the bits that changed.
-/

namespace MamePlugins.Ddrio

def ddrioExtioLightNeons : LuaInt := 1#64 <<< 14
def ddrioExtioLightP2Right : LuaInt := 1#64 <<< 19
def ddrioExtioLightP2Left : LuaInt := 1#64 <<< 20
def ddrioExtioLightP2Down : LuaInt := 1#64 <<< 21
def ddrioExtioLightP2Up : LuaInt := 1#64 <<< 22
def ddrioExtioLightP1Right : LuaInt := 1#64 <<< 27
def ddrioExtioLightP1Left : LuaInt := 1#64 <<< 28
def ddrioExtioLightP1Down : LuaInt := 1#64 <<< 29
def ddrioExtioLightP1Up : LuaInt := 1#64 <<< 30

def ddrioP3ioLightP1Menu : LuaInt := 1#64 <<< 0
def ddrioP3ioLightP2Menu : LuaInt := 1#64 <<< 1
def ddrioP3ioLightP2LowerLamp : LuaInt := 1#64 <<< 4
def ddrioP3ioLightP2UpperLamp : LuaInt := 1#64 <<< 5
def ddrioP3ioLightP1LowerLamp : LuaInt := 1#64 <<< 6
def ddrioP3ioLightP1UpperLamp : LuaInt := 1#64 <<< 7

/-- The two arms every lamp branch of the dispatch has: set the lamp's bit of a
light word, or clear it. -/
def updateLight (light mask : LuaInt) (bitInverted : ℕ) : LuaInt :=
  if bitInverted > 0 then light ||| mask else light &&& ~~~mask

/-- The `if`/`elseif` chain of `ksys573_dio_write_output_dispatch`. -/
def dispatchBranch (offset bitInverted : ℕ) (s : State) : Except LuaError State :=
  let extio (mask : LuaInt) : Except LuaError State :=
    .ok { s with ddrioStateExtioLight := updateLight s.ddrioStateExtioLight mask bitInverted }
  let p3io (mask : LuaInt) : Except LuaError State :=
    .ok { s with ddrioStateP3ioLight := updateLight s.ddrioStateP3ioLight mask bitInverted }
  if offset = 0 then extio ddrioExtioLightP1Up
  else if offset = 1 then extio ddrioExtioLightP1Left
  else if offset = 2 then extio ddrioExtioLightP1Right
  else if offset = 3 then extio ddrioExtioLightP1Down
  else if offset = 4 then .ok (gn845pwbbDoW .p1 bitInverted s)
  else if offset = 7 then gn845pwbbClkW .p1 bitInverted s
  else if offset = 8 then extio ddrioExtioLightP2Up
  else if offset = 9 then extio ddrioExtioLightP2Left
  else if offset = 10 then extio ddrioExtioLightP2Right
  else if offset = 11 then extio ddrioExtioLightP2Down
  else if offset = 12 then .ok (gn845pwbbDoW .p2 bitInverted s)
  else if offset = 15 then gn845pwbbClkW .p2 bitInverted s
  else if offset = 17 then p3io ddrioP3ioLightP1Menu
  else if offset = 18 then p3io ddrioP3ioLightP2Menu
  else if offset = 20 then p3io ddrioP3ioLightP1LowerLamp
  else if offset = 21 then p3io ddrioP3ioLightP2LowerLamp
  else if offset = 22 then p3io ddrioP3ioLightP2UpperLamp
  else if offset = 23 then p3io ddrioP3ioLightP1UpperLamp
  else if offset = 28 then extio ddrioExtioLightNeons
  else .ok s

def ksys573DioWriteOutputDispatch (offset data : ℕ) (s : State) : Except LuaError State := do
  let bitInverted := if data > 0 then 0 else 1
  let prevExtioLight := s.ddrioStateExtioLight
  let prevP3ioLight := s.ddrioStateP3ioLight
  let s ← dispatchBranch offset bitInverted s
  let s := if prevExtioLight = s.ddrioStateExtioLight then s
    else s.call (.ddrIoSetLightsExtio s.ddrioStateExtioLight)
  let s := if prevP3ioLight = s.ddrioStateP3ioLight then s
    else s.call (.ddrIoSetLightsP3io s.ddrioStateP3ioLight)
  .ok s

/-- `(data >> 12) & 0x0f`, the part of a half-word that reaches the outputs. -/
def outputNibble (data : LuaInt) : ℕ := ((data >>> 12) &&& 0x0f).toNat

/-- The table `{ 0, 2, 3, 1 }`: which bit of the nibble is output `i`. -/
def outputShift : Fin 4 → ℕ := ![0, 2, 3, 1]

/-- One turn of the loop over the four outputs of a register. -/
def outputBit (offset : Fin 8) (data : ℕ) (s : State) (i : Fin 4) : Except LuaError State :=
  let oldbit := (s.ksys573DioWriteOutputData offset >>> outputShift i) &&& 1
  let newbit := (data >>> outputShift i) &&& 1
  if oldbit = newbit then .ok s
  else ksys573DioWriteOutputDispatch (4 * offset + i) (newbit &&& 0xff) s

/-- `ksys573_dio_write_output` after its first line. -/
def writeNibble (offset : Fin 8) (data : ℕ) (s : State) : Except LuaError State := do
  let s ← [0, 1, 2, 3].foldlM (outputBit offset data) s
  .ok { s with
    ksys573DioWriteOutputData := Function.update s.ksys573DioWriteOutputData offset data }

def ksys573DioWriteOutput (offset : Fin 8) (data : LuaInt) (s : State) :
    Except LuaError State :=
  writeNibble offset (outputNibble data) s

def ksys573DioWrite_1_0 (offset data mask : LuaInt) (s : State) : Except LuaError State :=
  if offset = 0x1f6400e0 then
    if mask = 0xffff then ksys573DioWriteOutput 1 (data &&& 0xffff) s
    else if mask = 0xffff0000 then ksys573DioWriteOutput 0 ((data >>> 16) &&& 0xffff) s
    else .ok s
  else .ok s

def ksys573DioWrite_3_7 (offset data mask : LuaInt) (s : State) : Except LuaError State :=
  if offset = 0x1f6400e4 then
    if mask = 0xffff then ksys573DioWriteOutput 3 (data &&& 0xffff) s
    else if mask = 0xffff0000 then ksys573DioWriteOutput 7 ((data >>> 16) &&& 0xffff) s
    else .ok s
  else .ok s

def ksys573DioWrite_4 (offset data mask : LuaInt) (s : State) : Except LuaError State :=
  if offset = 0x1f6400f8 then
    if mask = 0xffff0000 then ksys573DioWriteOutput 4 ((data >>> 16) &&& 0xffff) s
    else .ok s
  else .ok s

def ksys573DioWrite_5_2 (offset data mask : LuaInt) (s : State) : Except LuaError State :=
  if offset = 0x1f6400fc then
    if mask = 0xffff then ksys573DioWriteOutput 5 (data &&& 0xffff) s
    else if mask = 0xffff0000 then ksys573DioWriteOutput 2 ((data >>> 16) &&& 0xffff) s
    else .ok s
  else .ok s

end MamePlugins.Ddrio
