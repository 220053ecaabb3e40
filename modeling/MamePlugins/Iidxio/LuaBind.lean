import MamePlugins.Library.CString
import MamePlugins.Iidxio.Session

/-!
# The iidxio Lua binding

Each function of `iidxio_lua_bind` takes its argument from Lua, converts it to the C
type that `iidxio.h` asks for, and calls the backend. This file has the conversions
and proves that every run of the plugin stays in their range.
-/

namespace MamePlugins.Iidxio

open Library

/-- A call of a function of `iidxio.h`, with its arguments and its result. -/
inductive IidxIoCall
  | setLoggers
  | init (result : Bool)
  | fini
  | ep1SetDeckLights (deckLights : BitVec 16)
  | ep1SetPanelLights (panelLights : BitVec 8)
  | ep1SetTopLamps (topLamps : BitVec 8)
  | ep1SetTopNeons (topNeons : Bool)
  | ep1Send (result : Bool)
  | ep2Recv (result : Bool)
  | ep2GetTurntable (playerNo : BitVec 8)
  | ep2GetSlider (sliderNo : BitVec 8)
  | ep2GetSys
  | ep2GetPanel
  | ep2GetKeys
  | ep3Write16seg (text : CString) (result : Bool)
  deriving DecidableEq

/-- The conversion of a `lua_Number` to an unsigned C type, which is undefined outside
the range of the type. A negative Lua integer is a large number here. -/
def toUnsigned (w x : ℕ) : Option (BitVec w) :=
  if x < 2 ^ w then some (BitVec.ofNat w x) else none

/-- What C reads at the pointer of `luaL_checkstring`. Lua ends every string with a null
byte. -/
def checkString (text : LuaString) : CString := CString.ofBuffer (text ++ [0])

/-- The backend calls behind a call of the plugin, where its conversion is defined. -/
def Call.native : Call → Option (List IidxIoCall)
  | .iidxioInit result => some [.setLoggers, .init result]
  | .iidxioFini => some [.fini]
  | .iidxioEp1SetDeckLights lights =>
    (toUnsigned 16 lights.toNat).map fun deckLights => [.ep1SetDeckLights deckLights]
  | .iidxioEp1SetPanelLights lights =>
    (toUnsigned 8 lights.toNat).map fun panelLights => [.ep1SetPanelLights panelLights]
  | .iidxioEp1SetTopLamps lamps =>
    (toUnsigned 8 lamps.toNat).map fun topLamps => [.ep1SetTopLamps topLamps]
  | .iidxioEp1SetTopNeons neons => some [.ep1SetTopNeons (neons ≠ 0)]
  | .iidxioEp1Send result => some [.ep1Send result]
  | .iidxioEp2Recv result => some [.ep2Recv result]
  | .iidxioEp2GetTurntable player =>
    (toUnsigned 8 player).map fun playerNo => [.ep2GetTurntable playerNo]
  | .iidxioEp2GetSlider slider =>
    (toUnsigned 8 slider).map fun sliderNo => [.ep2GetSlider sliderNo]
  | .iidxioEp2GetSys => some [.ep2GetSys]
  | .iidxioEp2GetPanel => some [.ep2GetPanel]
  | .iidxioEp2GetKeys => some [.ep2GetKeys]
  | .iidxioEp3Write16seg text result => some [.ep3Write16seg (checkString text) result]

/-- The call hands a string to `iidx_io_ep3_write_16seg`. -/
def Call.HandsOver (c : Call) (text : CString) : Prop :=
  ∃ native result, c.native = some native ∧ .ep3Write16seg text result ∈ native

theorem Call.handsOver_iff {c : Call} {text : CString} :
    c.HandsOver text ↔
      ∃ luaText result, c = .iidxioEp3Write16seg luaText result ∧ checkString luaText = text := by
  constructor
  · rintro ⟨native, result, hnative, hmem⟩
    cases c with
    | iidxioEp3Write16seg luaText luaResult =>
      rw [Call.native, Option.some.injEq] at hnative
      rw [← hnative, List.mem_singleton, IidxIoCall.ep3Write16seg.injEq] at hmem
      exact ⟨luaText, luaResult, rfl, hmem.1.symm⟩
    | _ =>
      simp only [Call.native, Option.some.injEq, Option.map_eq_some_iff] at hnative
      first
        | (subst hnative; simp at hmem)
        | (obtain ⟨_, -, rfl⟩ := hnative; simp at hmem)
  · rintro ⟨luaText, result, rfl, rfl⟩
    exact ⟨_, result, rfl, List.mem_singleton.mpr rfl⟩

/-! ### Range -/

theorem toUnsigned_and {w : ℕ} (x : LuaInt) {mask : LuaInt} (hmask : mask.toNat < 2 ^ w) :
    toUnsigned w (x &&& mask).toNat = some ((x &&& mask).setWidth w) := by
  have hlt : (x &&& mask).toNat < 2 ^ w := by
    rw [BitVec.toNat_and]
    exact Nat.and_lt_two_pow _ hmask
  rw [toUnsigned, if_pos hlt, BitVec.ofNat_toNat]

/-- The call is in the range of its conversion. -/
def Call.Converts (c : Call) : Prop := c.native.isSome = true

/-- So are all calls so far. -/
def State.Converts (s : State) : Prop := ∀ c ∈ s.calls, c.Converts

theorem frameCalls_converts (text : LuaString) (results : FrameResults) :
    ∀ c ∈ frameCalls text results, c.Converts := by
  rw [frameCalls]
  split_ifs <;> simp [Call.Converts, Call.native]

theorem offCalls_converts : ∀ c ∈ offCalls, c.Converts := by
  unfold Call.Converts
  decide

theorem stopCalls_converts (results : FrameResults) :
    ∀ c ∈ stopCalls results, c.Converts := by
  rw [stopCalls, List.forall_mem_append, List.forall_mem_append]
  exact ⟨⟨offCalls_converts, frameCalls_converts _ results⟩, by simp [Call.Converts, Call.native]⟩

theorem readCalls_converts (tap : ReadTap) (offset mask curIoOffset : LuaInt) :
    ∀ c ∈ readCalls tap offset mask curIoOffset, c.Converts := by
  rw [readCalls.eq_def]
  cases tap with
  | twinkleIoRead =>
    dsimp only
    split_ifs <;> simp [Call.Converts, Call.native, toUnsigned]
  | twinkleKeysRead =>
    dsimp only
    split_ifs <;> simp [Call.Converts, Call.native]

/-- The word of a light behind the port is in range. -/
theorem PortLight.converts_call (l : PortLight) (data : BitVec 8) :
    (l.call (l.word data)).Converts := by
  have hword {w : ℕ} (hmask : l.mask.toNat < 2 ^ w) :
      toUnsigned w (l.word data).toNat = some ((l.word data).setWidth w) :=
    toUnsigned_and _ hmask
  cases l with
  | panel =>
    rw [PortLight.call, Call.Converts, Call.native, hword (w := 8) (by decide)]
    rfl
  | topLamps =>
    rw [PortLight.call, Call.Converts, Call.native, hword (w := 8) (by decide)]
    rfl
  | topNeons => rfl

theorem storeCalls_converts (index data : BitVec 8) :
    ∀ c ∈ storeCalls index data, c.Converts := by
  intro c hc
  rw [storeCalls, Option.mem_toList, Option.map_eq_some_iff] at hc
  obtain ⟨l, -, rfl⟩ := hc
  exact l.converts_call data

/-- The native call behind a write of the key lights. -/
theorem native_setDeckLights (data : LuaInt) :
    (Call.iidxioEp1SetDeckLights (data &&& 0xffff &&& 0x3fff)).native =
      some [.ep1SetDeckLights ((data &&& 0x3fff).setWidth 16)] := by
  rw [Call.native, toUnsigned_and _ (by decide), BitVec.and_assoc]
  rfl

/-- The calls of a callback are in range. -/
theorem State.callsOf_converts (s : State) (e : Event) : ∀ c ∈ s.callsOf e, c.Converts := by
  have hnone : ∀ c ∈ ([] : List Call), c.Converts := fun _ hc => absurd hc List.not_mem_nil
  cases e with
  | start systemName initResult results =>
    rw [State.callsOf]
    split_ifs
    · rw [List.forall_mem_cons, List.forall_mem_append]
      exact ⟨rfl, offCalls_converts, frameCalls_converts _ results⟩
    · rw [List.forall_mem_cons]
      exact ⟨rfl, hnone⟩
    · exact hnone
  | stop results =>
    rw [State.callsOf]
    split_ifs
    · exact stopCalls_converts results
    · exact hnone
  | frame results =>
    rw [State.callsOf]
    split_ifs
    · exact frameCalls_converts _ results
    · exact hnone
  | read tap offset data mask inputs =>
    rw [State.callsOf]
    split_ifs
    · exact readCalls_converts tap offset mask s.curIoOffset
    · exact hnone
  | write tap offset data mask =>
    cases tap with
    | twinkleIoWrite =>
      rw [State.callsOf]
      split_ifs
      · exact storeCalls_converts _ _
      · exact hnone
    | twinkleKeysWrite =>
      rw [State.callsOf]
      split_ifs
      · rw [List.forall_mem_singleton, Call.Converts, native_setDeckLights]
        rfl
      · exact hnone

/-- Every call of every run is in the range of its conversion. -/
theorem State.converts_of_run {es : List Event} {s : State} (hrun : run .load es = .ok s) :
    s.Converts := by
  refine State.of_run (fun _ hc => absurd hc List.not_mem_nil)
    (fun {_ s} e s' hafter h hstep => ?_) hrun
  rw [State.Converts, step_calls hafter hstep, List.forall_mem_append]
  exact ⟨h, s.callsOf_converts e⟩

end MamePlugins.Iidxio
