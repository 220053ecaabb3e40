import MamePlugins.Iidxio.State

/-!
# The twinkle ports

The board reaches its panel, lamps and display through one indexed port: a byte
written to the upper lane selects an index, and a byte written to the lower lane is
data for it. Keys and key lights have words of their own.
-/

namespace MamePlugins.Iidxio

def panelP1StartMask : LuaInt := 1#64 <<< 0
def panelP2StartMask : LuaInt := 1#64 <<< 1
def panelVefxMask : LuaInt := 1#64 <<< 2
def panelEffectMask : LuaInt := 1#64 <<< 3

/-- Feature switch of the exit hook. -/
def enableGameExitButtonCombination : Bool := false

def isBitSet (data mask : LuaInt) : Bool := (data &&& mask).isPositive

def isExitButtonCombinationActive (data : LuaInt) : Bool :=
  isBitSet data panelP1StartMask && isBitSet data panelP2StartMask &&
    isBitSet data panelVefxMask && isBitSet data panelEffectMask

/-- The indices of the nine display cells. -/
def charOffsets : List LuaInt := [0x3f, 0x47, 0x4f, 0x57, 0x5f, 0x67, 0x6f, 0x77, 0x7f]

/-- `bytes[key] = char` on the table of the nine characters, of which only the
entries `1..9` are read again. -/
def assignByte (bytes : List (Option LuaInt)) (key : Option ℤ) (char : LuaInt) :
    List (Option LuaInt) :=
  match key with
  | some k => if 1 ≤ k ∧ k ≤ 9 then bytes.set (k - 1).toNat (some char) else bytes
  | none => bytes

/-- The text with the character of a display cell replaced, unpacked into bytes and
packed again. The cell's number is a float. -/
def writeChar (curIoOffset : LuaInt) (char : LuaInt) (text : LuaString) :
    Except LuaError LuaString :=
  let charOffset : ℚ := (curIoOffset - 0x3f).toInt / 8
  -- Make index start at 1 for lua.
  let charOffset := charOffset + 1
  let bytes := [1, 2, 3, 4, 5, 6, 7, 8, 9].map (stringByte text)
  let bytes := assignByte bytes (floatKey charOffset) char
  stringChar (bytes ++ [some 0])

def twinkleIoWrite (offset data mask : LuaInt) (s : State) : Except LuaError State :=
  if offset = 0x1f220000 ∧ mask = 0xff then
    let dataMasked := data &&& mask
    if s.curIoOffset = 0x37 then
      -- Data active low.
      .ok (s.call (.iidxioEp1SetPanelLights (~~~dataMasked &&& 0x0f)))
    else if s.curIoOffset ∈ charOffsets then do
      let char := (dataMasked ^^^ 0xff) &&& 0x7f
      let text ← writeChar s.curIoOffset char s.text16seg
      .ok { s with text16seg := text }
    else if s.curIoOffset = 0x87 then
      .ok (s.call (.iidxioEp1SetTopLamps (~~~dataMasked &&& 0xff)))
    else if s.curIoOffset = 0x8f then
      .ok (s.call (.iidxioEp1SetTopNeons (~~~dataMasked &&& 0x01)))
    else .ok s
  else if offset = 0x1f220000 ∧ mask = 0xff0000 then
    .ok { s with curIoOffset := (data &&& mask) >>> 16 }
  else .ok s

/-- Two slider positions, packed into one byte. -/
def readSliders (slider slider' : ℕ) (inputs : Inputs) (s : State) : Option LuaInt × State :=
  (some ((inputs.slider slider &&& 0x0f) ||| ((inputs.slider slider' &&& 0x0f) <<< 4)),
    (s.call (.iidxioEp2GetSlider slider)).call (.iidxioEp2GetSlider slider'))

def twinkleIoRead (offset data mask : LuaInt) (inputs : Inputs) (s : State) :
    Option LuaInt × State :=
  if offset = 0x1f220004 ∧ mask = 0xff then
    let dataMasked := data &&& mask
    if s.curIoOffset = 0x07 then
      -- Active low inputs.
      let dataMasked := dataMasked ^^^ 0xff
      let panel := inputs.panel &&& 0x0f
      -- Mask test and service, remove coin input.
      let sys := inputs.sys &&& 0x03
      let s := (s.call .iidxioEp2GetPanel).call .iidxioEp2GetSys
      let dataMasked := dataMasked ||| panel ||| (sys <<< 4)
      let s := if enableGameExitButtonCombination ∧ isExitButtonCombinationActive dataMasked
        then { s with exited := true } else s
      (some (dataMasked ^^^ 0xff), s)
    else if s.curIoOffset = 0x0f then
      (some (inputs.turntable 1 &&& 0xff), s.call (.iidxioEp2GetTurntable 1))
    else if s.curIoOffset = 0x17 then
      (some (inputs.turntable 0 &&& 0xff), s.call (.iidxioEp2GetTurntable 0))
    else if s.curIoOffset = 0x1f then readSliders 0 1 inputs s
    else if s.curIoOffset = 0x27 then readSliders 2 3 inputs s
    else if s.curIoOffset = 0x2f then
      (some (inputs.slider 4 &&& 0x0f), s.call (.iidxioEp2GetSlider 4))
    else (none, s)
  else (none, s)

def twinkleKeysRead (offset data mask : LuaInt) (inputs : Inputs) (s : State) :
    Option LuaInt × State :=
  if offset = 0x1f240000 ∧ mask = 0xffff then
    let dataMasked := data &&& mask
    -- Active low inputs.
    let dataMasked := dataMasked ^^^ 0xffff
    let keys := inputs.keys &&& 0x3fff
    let coin1 := (inputs.sys >>> 2) &&& 0x01
    let s := (s.call .iidxioEp2GetKeys).call .iidxioEp2GetSys
    let dataMasked := dataMasked ||| keys ||| (coin1 <<< 14)
    (some (dataMasked ^^^ 0xffff), s)
  else (none, s)

/-- Words are written using a byte write: the mask is `0xff`, the data has 16 bits. -/
def twinkleKeysWrite (offset data mask : LuaInt) (s : State) : State :=
  if offset = 0x1f250000 ∧ mask = 0xff then
    let dataMasked := data &&& 0xffff
    s.call (.iidxioEp1SetDeckLights (dataMasked &&& 0x3fff))
  else s

end MamePlugins.Iidxio
