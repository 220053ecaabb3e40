/-!
# The bit numbers of `iidxio.h`

The backend's side of the plugin's words: system and panel buttons, keys and deck
lights, each with the bit the header gives it. Keys are contiguous; deck lights leave a
gap between the players.
-/

namespace MamePlugins.Iidxio

/-- `enum iidx_io_sys_bit` -/
inductive IidxIoSysBit
  | sysTest
  | sysService
  | sysCoin
  deriving DecidableEq, Repr

def IidxIoSysBit.bit : IidxIoSysBit → Nat
  | .sysTest => 0x00
  | .sysService => 0x01
  | .sysCoin => 0x02

/-- `enum iidx_io_panel_bit` -/
inductive IidxIoPanelBit
  | panelP1Start
  | panelP2Start
  | panelVefx
  | panelEffect
  deriving DecidableEq, Repr

def IidxIoPanelBit.bit : IidxIoPanelBit → Nat
  | .panelP1Start => 0x00
  | .panelP2Start => 0x01
  | .panelVefx => 0x02
  | .panelEffect => 0x03

/-- `enum iidx_io_key_bit` -/
inductive IidxIoKeyBit
  | keyP1_1
  | keyP1_2
  | keyP1_3
  | keyP1_4
  | keyP1_5
  | keyP1_6
  | keyP1_7
  | keyP2_1
  | keyP2_2
  | keyP2_3
  | keyP2_4
  | keyP2_5
  | keyP2_6
  | keyP2_7
  deriving DecidableEq, Repr

def IidxIoKeyBit.bit : IidxIoKeyBit → Nat
  | .keyP1_1 => 0x00
  | .keyP1_2 => 0x01
  | .keyP1_3 => 0x02
  | .keyP1_4 => 0x03
  | .keyP1_5 => 0x04
  | .keyP1_6 => 0x05
  | .keyP1_7 => 0x06
  | .keyP2_1 => 0x07
  | .keyP2_2 => 0x08
  | .keyP2_3 => 0x09
  | .keyP2_4 => 0x0A
  | .keyP2_5 => 0x0B
  | .keyP2_6 => 0x0C
  | .keyP2_7 => 0x0D

/-- `enum iidx_io_deck_light` -/
inductive IidxIoDeckLight
  | deckLightP1_1
  | deckLightP1_2
  | deckLightP1_3
  | deckLightP1_4
  | deckLightP1_5
  | deckLightP1_6
  | deckLightP1_7
  | deckLightP2_1
  | deckLightP2_2
  | deckLightP2_3
  | deckLightP2_4
  | deckLightP2_5
  | deckLightP2_6
  | deckLightP2_7
  deriving DecidableEq, Repr

def IidxIoDeckLight.bit : IidxIoDeckLight → Nat
  | .deckLightP1_1 => 0
  | .deckLightP1_2 => 1
  | .deckLightP1_3 => 2
  | .deckLightP1_4 => 3
  | .deckLightP1_5 => 4
  | .deckLightP1_6 => 5
  | .deckLightP1_7 => 6
  | .deckLightP2_1 => 8
  | .deckLightP2_2 => 9
  | .deckLightP2_3 => 10
  | .deckLightP2_4 => 11
  | .deckLightP2_5 => 12
  | .deckLightP2_6 => 13
  | .deckLightP2_7 => 14

end MamePlugins.Iidxio
