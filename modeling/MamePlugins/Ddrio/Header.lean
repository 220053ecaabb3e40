/-!
# The bit numbers of `ddrio.h`

The backend's side of the plugin's words: lamps of the two light words and
buttons of the pad word, each with the bit the header gives it.
-/

namespace MamePlugins.Ddrio

/-- `enum extio_light_bit` -/
inductive ExtioLightBit
  | lightNeons
  | lightP2Right
  | lightP2Left
  | lightP2Down
  | lightP2Up
  | lightP1Right
  | lightP1Left
  | lightP1Down
  | lightP1Up
  deriving DecidableEq, Repr

def ExtioLightBit.bit : ExtioLightBit → Nat
  | .lightNeons => 0x0E
  | .lightP2Right => 0x13
  | .lightP2Left => 0x14
  | .lightP2Down => 0x15
  | .lightP2Up => 0x16
  | .lightP1Right => 0x1B
  | .lightP1Left => 0x1C
  | .lightP1Down => 0x1D
  | .lightP1Up => 0x1E

/-- `enum p3io_light_bit` -/
inductive P3ioLightBit
  | lightP1Menu
  | lightP2Menu
  | lightP2LowerLamp
  | lightP2UpperLamp
  | lightP1LowerLamp
  | lightP1UpperLamp
  deriving DecidableEq, Repr

def P3ioLightBit.bit : P3ioLightBit → Nat
  | .lightP1Menu => 0x00
  | .lightP2Menu => 0x01
  | .lightP2LowerLamp => 0x04
  | .lightP2UpperLamp => 0x05
  | .lightP1LowerLamp => 0x06
  | .lightP1UpperLamp => 0x07

/-- `enum ddr_pad_bit` -/
inductive DdrPadBit
  | ddrTest
  | ddrCoin
  | ddrService
  | ddrP2Start
  | ddrP2Up
  | ddrP2Down
  | ddrP2Left
  | ddrP2Right
  | ddrP2MenuLeft
  | ddrP2MenuRight
  | ddrP2MenuUp
  | ddrP2MenuDown
  | ddrP1Start
  | ddrP1Up
  | ddrP1Down
  | ddrP1Left
  | ddrP1Right
  | ddrP1MenuLeft
  | ddrP1MenuRight
  | ddrP1MenuUp
  | ddrP1MenuDown
  deriving DecidableEq, Repr

def DdrPadBit.bit : DdrPadBit → Nat
  | .ddrTest => 0x04
  | .ddrCoin => 0x05
  | .ddrService => 0x06
  | .ddrP2Start => 0x08
  | .ddrP2Up => 0x09
  | .ddrP2Down => 0x0A
  | .ddrP2Left => 0x0B
  | .ddrP2Right => 0x0C
  | .ddrP2MenuLeft => 0x0E
  | .ddrP2MenuRight => 0x0F
  | .ddrP2MenuUp => 0x02
  | .ddrP2MenuDown => 0x03
  | .ddrP1Start => 0x10
  | .ddrP1Up => 0x11
  | .ddrP1Down => 0x12
  | .ddrP1Left => 0x13
  | .ddrP1Right => 0x14
  | .ddrP1MenuLeft => 0x16
  | .ddrP1MenuRight => 0x17
  | .ddrP1MenuUp => 0x00
  | .ddrP1MenuDown => 0x01

/-- One lamp of the cabinet: a bit of one of the two light words. -/
inductive Lamp
  | extio (b : ExtioLightBit)
  | p3io (b : P3ioLightBit)
  deriving DecidableEq, Repr

/-- The two light words. -/
inductive LightWord
  | extio
  | p3io
  deriving DecidableEq, Repr

def Lamp.word : Lamp → LightWord
  | .extio _ => .extio
  | .p3io _ => .p3io

def Lamp.bit : Lamp → Nat
  | .extio b => b.bit
  | .p3io b => b.bit

theorem Lamp.bit_lt (l : Lamp) : l.bit < 32 := by
  cases l with
  | extio b => cases b <;> decide
  | p3io b => cases b <;> decide

/-- A lamp is its word and its bit. -/
theorem Lamp.eq_of_word_of_bit {l l' : Lamp} (hword : l.word = l'.word) (hbit : l.bit = l'.bit) :
    l = l' := by
  cases l with
  | extio b =>
    cases l' with
    | extio b' => cases b <;> cases b' <;> first | rfl | exact absurd hbit (by decide)
    | p3io b' => exact absurd hword LightWord.noConfusion
  | p3io b =>
    cases l' with
    | extio b' => exact absurd hword LightWord.noConfusion
    | p3io b' => cases b <;> cases b' <;> first | rfl | exact absurd hbit (by decide)

end MamePlugins.Ddrio
