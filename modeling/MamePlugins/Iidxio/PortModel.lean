import MamePlugins.Library.IndexedPort
import MamePlugins.Library.LastSent
import MamePlugins.Iidxio.Plugin
import MamePlugins.Iidxio.Text

/-!
# The indexed port as a register file

A bus write to the twinkle port selects an index or stores a byte. This file states
what a stored byte does, and proves that `twinkle_io_write` does it without error.
-/

namespace MamePlugins.Iidxio

open Library

/-! ### Lights behind the port -/

/-- The lights with a register of their own. -/
inductive PortLight
  | panel
  | topLamps
  | topNeons
  deriving DecidableEq, Repr

/-- The register of a light. -/
def PortLight.index : PortLight → BitVec 8
  | .panel => 0x37
  | .topLamps => 0x87
  | .topNeons => 0x8f

/-- The bits of a light's word. -/
def PortLight.mask : PortLight → LuaInt
  | .panel => 0x0f
  | .topLamps => 0xff
  | .topNeons => 0x01

/-- The word that a data byte stands for. Data is active low. -/
def PortLight.word (l : PortLight) (data : BitVec 8) : LuaInt := ~~~(data.setWidth 64) &&& l.mask

def PortLight.call : PortLight → LuaInt → Call
  | .panel => .iidxioEp1SetPanelLights
  | .topLamps => .iidxioEp1SetTopLamps
  | .topNeons => .iidxioEp1SetTopNeons

/-- The light that a call sets. -/
def Call.portLight : Call → Option (PortLight × LuaInt)
  | .iidxioEp1SetPanelLights lights => some (.panel, lights)
  | .iidxioEp1SetTopLamps lamps => some (.topLamps, lamps)
  | .iidxioEp1SetTopNeons neons => some (.topNeons, neons)
  | _ => none

/-- The word of a light that the backend received last. -/
abbrev lastLight (l : PortLight) (calls : List Call) : Option LuaInt :=
  lastSent Call.portLight l calls

theorem PortLight.portLight_call (l : PortLight) (word : LuaInt) :
    (l.call word).portLight = some (l, word) := by
  cases l <;> rfl

/-- The light of a register, if it has one. -/
def lightAt (index : BitVec 8) : Option PortLight :=
  if index = 0x37 then some .panel
  else if index = 0x87 then some .topLamps
  else if index = 0x8f then some .topNeons
  else none

theorem lightAt_eq_some_iff {index : BitVec 8} {l : PortLight} :
    lightAt index = some l ↔ index = l.index := by
  unfold lightAt
  split_ifs with hpanel hlamps hneons
  · subst hpanel
    cases l <;> decide
  · subst hlamps
    cases l <;> decide
  · subst hneons
    cases l <;> decide
  · cases l <;> simp_all [PortLight.index]

/-! ### Writes -/

/-- The write to the port that a bus write amounts to. -/
def portWrite (offset data mask : LuaInt) : Option (PortWrite (BitVec 8) (BitVec 8)) :=
  if offset = 0x1f220000 ∧ mask = 0xff then some (.store (data.setWidth 8))
  else if offset = 0x1f220000 ∧ mask = 0xff0000 then some (.select ((data >>> 16).setWidth 8))
  else none

/-- The backend calls of a byte stored under an index. -/
def storeCalls (index data : BitVec 8) : List Call :=
  ((lightAt index).map fun l => l.call (l.word data)).toList

/-- A write to the port, in a state where `index` is selected and the text shows
`cell`. -/
def State.portNext (s : State) (index : BitVec 8) (cell : BitVec 8 → Option (BitVec 8)) :
    PortWrite (BitVec 8) (BitVec 8) → State
  | .select i => { s with curIoOffset := i.setWidth 64 }
  | .store data => { s with
      text16seg := textOf (Function.update cell index (some data))
      calls := s.calls ++ storeCalls index data }

/-- A stored byte sets the light of its register, and no other. -/
theorem lastLight_append_storeCalls (l : PortLight) (index data : BitVec 8) (calls : List Call) :
    lastLight l (calls ++ storeCalls index data) =
      if index = l.index then some (l.word data) else lastLight l calls := by
  cases hlight : lightAt index with
  | none =>
    have hne : index ≠ l.index := fun h => by simp [lightAt_eq_some_iff.mpr h] at hlight
    rw [if_neg hne, storeCalls, hlight]
    simp
  | some l' =>
    have hindex := lightAt_eq_some_iff.mp hlight
    rw [storeCalls, hlight, Option.map_some, Option.toList_some, lastLight,
      lastSent_concat (l'.portLight_call _)]
    by_cases hl : l = l'
    · rw [if_pos hl, if_pos (hl ▸ hindex), hl]
    · have hne : index ≠ l.index := by
        rintro rfl
        rw [lightAt_eq_some_iff.mpr rfl, Option.some.injEq] at hlight
        exact hl hlight
      rw [if_neg hl, if_neg hne]

theorem data_and_mask (data : LuaInt) : data &&& 0xff = (data.setWidth 8).setWidth 64 := by
  apply BitVec.eq_of_getLsbD_eq
  intro i hi
  have hmask : (0xff : LuaInt).getLsbD i = decide (i < 8) := by
    revert i
    decide
  rw [BitVec.getLsbD_and, hmask, BitVec.getLsbD_setWidth, BitVec.getLsbD_setWidth]
  simp [hi, Bool.and_comm]

theorem index_and_mask (data : LuaInt) :
    (data &&& 0xff0000) >>> 16 = ((data >>> 16).setWidth 8).setWidth 64 := by
  rw [← data_and_mask, BitVec.ushiftRight_and_distrib]
  rfl

/-- Whether a register is selected, as the code compares it. -/
theorem setWidth_eq_iff {i j : BitVec 8} : i.setWidth 64 = j.setWidth 64 ↔ i = j := by
  constructor
  · intro h
    have hnat := congrArg BitVec.toNat h
    rw [BitVec.toNat_setWidth, BitVec.toNat_setWidth, Nat.mod_eq_of_lt (by omega),
      Nat.mod_eq_of_lt (by omega)] at hnat
    exact BitVec.eq_of_toNat_eq hnat
  · rintro rfl
    rfl

theorem mem_charOffsets_iff {i : BitVec 8} :
    i.setWidth 64 ∈ charOffsets ↔ ∃ k < 9, i = charIndex k := by
  have hoffsets : charOffsets = (List.range 9).map fun k => (charIndex k).setWidth 64 := rfl
  rw [hoffsets]
  simp only [List.mem_map, List.mem_range, setWidth_eq_iff, eq_comm]

/-- The registers of lights are no display cells. -/
theorem PortLight.index_ne_charIndex (l : PortLight) : ∀ k < 9, l.index ≠ charIndex k := by
  cases l <;> decide

/-- `twinkle_io_write` is the write to the port, and it never fails. -/
theorem twinkleIoWrite_eq {s : State} {index : BitVec 8} {cell : BitVec 8 → Option (BitVec 8)}
    (hindex : s.curIoOffset = index.setWidth 64) (htext : s.text16seg = textOf cell)
    (offset data mask : LuaInt) :
    twinkleIoWrite offset data mask s =
      .ok ((portWrite offset data mask).elim s (s.portNext index cell)) := by
  rw [twinkleIoWrite, portWrite]
  by_cases hstore : offset = 0x1f220000 ∧ mask = 0xff
  · have hlight (l : PortLight) (hl : index = l.index) :
        (Except.ok (s.call (l.call (~~~(data &&& 0xff) &&& l.mask))) : Except LuaError State) =
          .ok (s.portNext index cell (.store (data.setWidth 8))) := by
      rw [State.portNext, storeCalls, lightAt_eq_some_iff.mpr hl,
        textOf_update_of_ne cell (hl ▸ l.index_ne_charIndex), ← htext, data_and_mask]
      rfl
    rw [if_pos hstore, if_pos hstore, hstore.2, Option.elim_some, hindex]
    have hcode (i : BitVec 8) (code : LuaInt) (hi : i.setWidth 64 = code) :
        index.setWidth 64 = code ↔ index = i := by
      rw [← hi, setWidth_eq_iff]
    simp only [hcode 0x37 0x37 rfl, hcode 0x87 0x87 rfl, hcode 0x8f 0x8f rfl, mem_charOffsets_iff]
    split_ifs with hpanel hchar hlamps hneons
    · exact hlight .panel hpanel
    · obtain ⟨k, hk, rfl⟩ := hchar
      have hdark : lightAt (charIndex k) = none := by
        rw [Option.eq_none_iff_forall_ne_some]
        exact fun l hl => l.index_ne_charIndex k hk (lightAt_eq_some_iff.mp hl).symm
      rw [data_and_mask, htext, writeChar_eq cell hk, State.portNext, storeCalls, hdark]
      simp only [Bind.bind, Except.bind, Option.map_none, Option.toList_none, List.append_nil,
        hindex]
    · exact hlight .topLamps hlamps
    · exact hlight .topNeons hneons
    · have hdark : lightAt index = none := by
        rw [lightAt, if_neg hpanel, if_neg hlamps, if_neg hneons]
      have hother : ∀ k < 9, index ≠ charIndex k := fun k hk h => hchar ⟨k, hk, h⟩
      rw [State.portNext, storeCalls, hdark, textOf_update_of_ne cell hother, ← htext]
      simp only [Option.map_none, Option.toList_none, List.append_nil]
  · rw [if_neg hstore, if_neg hstore]
    split_ifs with hselect
    · rw [hselect.2, index_and_mask]
      rfl
    · rfl

end MamePlugins.Iidxio
