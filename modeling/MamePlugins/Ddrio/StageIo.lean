import MamePlugins.Ddrio.State

/-!
# The serial stage interface

`gn845pwbb_do_w` and `gn845pwbb_clk_w` receive the two lines of a stage. Each
rising clock edge shifts one bit in; the word `0xc90` starts a handshake of 22
edges, during which both players' arrows are masked from one table.
-/

namespace MamePlugins.Ddrio

/-- `stageio_bit_mask`, the masked arrows at each edge of a handshake. -/
def stageioBitMask : List LuaInt :=
  [0, 6, 2, 4,
   0, 4, 0, 4,
   0, 4, 0, 4,
   0, 4, 0, 4,
   0, 4, 0, 4,
   0, 4, 0, 6]

def gn845pwbbDoW (playerId : Player) (data : ℕ) (s : State) : State :=
  if data > 0 then s.setStage playerId { s.stageio playerId with dataDo := 0 }
  else s.setStage playerId { s.stageio playerId with dataDo := 1 }

/-- One byte of the input mask: `((~0x06) | stageio_bit_mask[bit + 1]) & 0xff`. -/
def stageMaskByte (bit : ℕ) : Except LuaError LuaInt := do
  let entry ← bitwiseOperand (luaIndex stageioBitMask (bit + 1))
  .ok ((~~~0x06 ||| entry) &&& 0xff)

def gn845pwbbClkW (playerId : Player) (data : ℕ) (s : State) : Except LuaError State :=
  let clk := if data > 0 then 0 else 1
  if clk = (s.stageio playerId).dataClk then .ok s
  else
    let s := s.setStage playerId { s.stageio playerId with dataClk := clk }
    if clk > 0 then
      let stage := s.stageio playerId
      let s := s.setStage playerId
        { stage with dataShift := (stage.dataShift >>> 1) ||| (stage.dataDo <<< 12) }
      if (s.stageio playerId).dataState = stageIoStateIdle then
        if (s.stageio playerId).dataShift = 0xc90 then
          let s := s.setStage playerId
            { s.stageio playerId with dataState := stageIoStateInit, dataBit := 0 }
          .ok (s.setInputMask 0xfffff9f9)
        else .ok s
      else if (s.stageio playerId).dataState = stageIoStateInit then
        let s := s.setStage playerId
          { s.stageio playerId with dataBit := (s.stageio playerId).dataBit + 1 }
        if (s.stageio playerId).dataBit < 22 then do
          -- Both bytes are recomputed, whichever player's clock rose.
          let a ← stageMaskByte (s.stageio .p1).dataBit
          let b ← stageMaskByte (s.stageio .p2).dataBit
          .ok (s.setInputMask ((0xffff0000 : LuaInt) ||| (a <<< 8) ||| (b <<< 0)))
        else
          let s := s.setStage playerId
            { s.stageio playerId with dataBit := 0, dataState := stageIoStateIdle }
          .ok (s.setInputMask 0xffffffff)
      else .ok s
    else .ok s

end MamePlugins.Ddrio
