import MamePlugins.Ddrio.Calls
import MamePlugins.Iidxio.LuaBind

/-!
# The ddrio Lua binding

Each function of `ddrio_lua_bind` takes its arguments from Lua, converts them to the C
types that `ddrio.h` asks for, and calls the backend. This file has the conversions and
proves that nothing is lost in them.
-/

namespace MamePlugins.Ddrio

open Library
open Iidxio (toUnsigned)

/-- A call that a function of the binding makes, with its arguments and, where it hands
it to Lua, its result. -/
inductive DdrIoCall
  | logSetLevel (newLevel : BitVec 32)
  | logToWriterStdout
  | setLoggers
  | init (result : Bool)
  | fini
  | readPad (pad : BitVec 32)
  | setLightsExtio (extioLights : BitVec 32)
  | setLightsP3io (p3ioLights : BitVec 32)
  | setLightsHdxsPanel (hdxsLights : BitVec 32)
  | setLightsHdxsRgb (idx r g b : BitVec 8)
  deriving DecidableEq

/-- `ddr_io_lua_init`, which has levels end at four. -/
def ddrIoLuaInit (logLevel : BitVec 32) (result : Bool) : List DdrIoCall :=
  let logLevel := if logLevel > 4 then 4 else logLevel
  [.logSetLevel logLevel, .logToWriterStdout, .setLoggers, .init result]

/-- The calls behind a call of the plugin, where its conversions are defined. -/
def Call.native : Call → Option (List DdrIoCall)
  | .ddrIoInit logLevel result =>
    (toUnsigned 32 logLevel).map fun logLevel => ddrIoLuaInit logLevel result
  | .ddrIoFini => some [.fini]
  | .ddrIoReadPad pad => some [.readPad pad]
  | .ddrIoSetLightsExtio light =>
    (toUnsigned 32 light.toNat).map fun extioLights => [.setLightsExtio extioLights]
  | .ddrIoSetLightsP3io light =>
    (toUnsigned 32 light.toNat).map fun p3ioLights => [.setLightsP3io p3ioLights]
  | .ddrIoSetLightsHdxsPanel light =>
    (toUnsigned 32 light.toNat).map fun hdxsLights => [.setLightsHdxsPanel hdxsLights]
  | .ddrIoSetLightsHdxsRgb idx r g b => do
    let idx ← toUnsigned 8 idx
    let r ← toUnsigned 8 r
    let g ← toUnsigned 8 g
    let b ← toUnsigned 8 b
    some [.setLightsHdxsRgb idx r g b]

/-- The call of `ddrio.h` that takes a light word. -/
def LightWord.native : LightWord → BitVec 32 → DdrIoCall
  | .extio => .setLightsExtio
  | .p3io => .setLightsP3io

/-! ### What the plugin passes on -/

/-- The word has lamps of `ddrio.h` only. -/
def OnlyLamps (w : LightWord) (light : LuaInt) : Prop :=
  ∀ k, light.getLsbD k = true → ∃ l : Lamp, l.word = w ∧ l.bit = k

/-- The arguments that the plugin uses. -/
def Call.Regular : Call → Prop
  | .ddrIoInit logLevel _ => logLevel = ddrioLogLevelInfo
  | .ddrIoSetLightsExtio light => OnlyLamps .extio light
  | .ddrIoSetLightsP3io light => OnlyLamps .p3io light
  | .ddrIoSetLightsHdxsPanel light => light = 0
  | .ddrIoSetLightsHdxsRgb idx r g b => idx ≤ 0x0b ∧ r = 0 ∧ g = 0 ∧ b = 0
  | _ => True

structure State.Regular (s : State) : Prop where
  lamps : ∀ w, OnlyLamps w (s.light w)
  calls : ∀ c ∈ s.calls, c.Regular

theorem onlyLamps_zero (w : LightWord) : OnlyLamps w 0 := by
  intro k hk
  have hzero : (0 : LuaInt).getLsbD k = false := BitVec.getLsbD_zero
  rw [hzero] at hk
  cases hk

theorem switchEverythingOff_regular : ∀ c ∈ switchEverythingOff, c.Regular := by
  rw [switchEverythingOff, List.forall_mem_append]
  constructor
  · simp only [List.forall_mem_cons, List.not_mem_nil, false_imp_iff, implies_true, and_true]
    exact ⟨onlyLamps_zero .extio, onlyLamps_zero .p3io, rfl⟩
  · intro c hc
    obtain ⟨i, hi, rfl⟩ := List.mem_map.mp hc
    rw [List.mem_range] at hi
    exact ⟨by omega, rfl, rfl, rfl⟩

/-- More calls, and the lights as they were or dark. -/
theorem State.Regular.of_calls {s s' : State} (h : s.Regular) {calls : List Call}
    (hcalls : s'.calls = s.calls ++ calls) (hregular : ∀ c ∈ calls, c.Regular)
    (hlight : ∀ w, s'.light w = s.light w ∨ s'.light w = 0) : s'.Regular := by
  refine ⟨fun w => ?_, ?_⟩
  · rcases hlight w with hsame | hdark
    · rw [hsame]
      exact h.lamps w
    · rw [hdark]
      exact onlyLamps_zero w
  · rw [hcalls, List.forall_mem_append]
    exact ⟨h.calls, hregular⟩

theorem State.Regular.driveOutput {s : State} (h : s.Regular) (offset : Fin 8) (data : ℕ)
    (i : Fin 4) : (s.driveOutput offset data i).Regular := by
  rcases s.driveOutput_cases offset data i with ⟨-, hcalls, hlight⟩ |
    ⟨l, -, -, -, hcalls, hlight⟩
  · exact h.of_calls (hcalls.trans (List.append_nil _).symm) (by simp) fun w => Or.inl (hlight w)
  · have hbit : l.bit < 64 := Nat.lt_of_lt_of_le l.bit_lt (by decide)
    have hlamps : OnlyLamps l.word (assignBit (s.light l.word) l.bit !outputLevel data i) := by
      intro k hk
      rw [getLsbD_assignBit hbit] at hk
      split_ifs at hk with hkl
      · exact ⟨l, rfl, hkl.symm⟩
      · exact h.lamps l.word k hk
    refine ⟨fun w => ?_, ?_⟩
    · rw [hlight]
      split_ifs with hw
      · exact hw ▸ hlamps
      · exact h.lamps w
    · rw [hcalls, List.forall_mem_append, List.forall_mem_singleton]
      refine ⟨h.calls, ?_⟩
      revert hlamps
      cases l.word <;> exact id

theorem State.Regular.writeRegister {s : State} (h : s.Regular) (offset : Fin 8) (data : ℕ) :
    (s.writeRegister offset data).Regular := by
  have hfold : ([0, 1, 2, 3].foldl (State.driveOutput offset data) s).Regular :=
    List.foldlRecOn _ _ h fun _ hs i _ => hs.driveOutput offset data i
  exact ⟨fun w => by cases w <;> exact hfold.lamps _, hfold.calls⟩

theorem State.Regular.next {s : State} (h : s.Regular) (e : Event) : (s.next e).Regular := by
  rcases s.next_makes e with ⟨r, n, hnext⟩ | ⟨calls, hmakes, hcalls, hlight⟩
  · rw [hnext]
    exact h.writeRegister r n
  · refine h.of_calls hcalls ?_ hlight
    cases hmakes with
    | nothing => simp
    | started => exact List.forall_mem_cons.mpr ⟨rfl, switchEverythingOff_regular⟩
    | refused => exact List.forall_mem_singleton.mpr rfl
    | stopped =>
      exact List.forall_mem_append.mpr
        ⟨switchEverythingOff_regular, List.forall_mem_singleton.mpr trivial⟩
    | polled hpad => exact List.forall_mem_singleton.mpr trivial

theorem Reachable.regular {s : State} (h : Reachable s) : s.Regular :=
  h.induction ⟨fun w => by cases w <;> exact onlyLamps_zero _, by simp [State.load]⟩
    fun _ e _ hs => hs.next e

/-! ### What the backend gets -/

/-- A word of lamps fits into the C type. -/
theorem OnlyLamps.setWidth_setWidth {w : LightWord} {light : LuaInt} (h : OnlyLamps w light) :
    (light.setWidth 32).setWidth 64 = light := by
  refine BitVec.eq_of_getLsbD_eq fun k hk => ?_
  rw [BitVec.getLsbD_setWidth, BitVec.getLsbD_setWidth]
  cases hbit : light.getLsbD k with
  | false => simp
  | true =>
    obtain ⟨l, -, rfl⟩ := h k hbit
    simp [hk, l.bit_lt]

theorem OnlyLamps.toUnsigned_eq {w : LightWord} {light : LuaInt} (h : OnlyLamps w light) :
    toUnsigned 32 light.toNat = some (light.setWidth 32) := by
  have hlt : light.toNat < 2 ^ 32 := by
    rw [← h.setWidth_setWidth, BitVec.toNat_setWidth_of_le (by decide)]
    exact (light.setWidth 32).isLt
  rw [toUnsigned, if_pos hlt, BitVec.ofNat_toNat]

/-- What arrives of a call with the arguments that the plugin uses. -/
structure Call.ArrivesAs (c : Call) (calls : List DdrIoCall) : Prop where
  native : c.native = some calls
  light : ∀ w light, c.light = some (w, light) → ∃ lights : BitVec 32,
    calls = [w.native lights] ∧ lights.setWidth 64 = light ∧
      ∀ k, lights.getLsbD k = true → ∃ l : Lamp, l.word = w ∧ l.bit = k
  level : ∀ logLevel result, c = .ddrIoInit logLevel result →
    calls = [.logSetLevel 2, .logToWriterStdout, .setLoggers, .init result]
  panel : ∀ light, c = .ddrIoSetLightsHdxsPanel light → calls = [.setLightsHdxsPanel 0]
  rgb : ∀ idx r g b, c = .ddrIoSetLightsHdxsRgb idx r g b →
    idx ≤ 0x0b ∧ calls = [.setLightsHdxsRgb (BitVec.ofNat 8 idx) 0 0 0]

/-- A word of lamps arrives unchanged. -/
theorem OnlyLamps.arrives {w : LightWord} {light : LuaInt} (h : OnlyLamps w light) :
    (w.call light).ArrivesAs [w.native (light.setWidth 32)] where
  native := by
    cases w with
    | extio =>
      rw [LightWord.call, Call.native, h.toUnsigned_eq]
      rfl
    | p3io =>
      rw [LightWord.call, Call.native, h.toUnsigned_eq]
      rfl
  light := by
    intro w' light' hlight
    rw [LightWord.light_call, Option.some.injEq, Prod.mk.injEq] at hlight
    obtain ⟨rfl, rfl⟩ := hlight
    refine ⟨_, rfl, h.setWidth_setWidth, fun k hk => ?_⟩
    rw [BitVec.getLsbD_setWidth, Bool.and_eq_true] at hk
    exact h k hk.2
  level := by cases w <;> simp [LightWord.call]
  panel := by cases w <;> simp [LightWord.call]
  rgb := by cases w <;> simp [LightWord.call]

theorem Call.Regular.arrives {c : Call} (h : c.Regular) : ∃ calls, c.ArrivesAs calls := by
  cases c with
  | ddrIoInit logLevel result =>
    obtain rfl : logLevel = ddrioLogLevelInfo := h
    refine ⟨_, rfl, by simp [Call.light], ?_, by simp, by simp⟩
    simp [ddrIoLuaInit, ddrioLogLevelInfo]
  | ddrIoFini => exact ⟨_, rfl, by simp [Call.light], by simp, by simp, by simp⟩
  | ddrIoReadPad pad => exact ⟨_, rfl, by simp [Call.light], by simp, by simp, by simp⟩
  | ddrIoSetLightsExtio light =>
    have hlamps : OnlyLamps .extio light := h
    exact ⟨_, hlamps.arrives⟩
  | ddrIoSetLightsP3io light =>
    have hlamps : OnlyLamps .p3io light := h
    exact ⟨_, hlamps.arrives⟩
  | ddrIoSetLightsHdxsPanel light =>
    obtain rfl : light = 0 := h
    exact ⟨_, rfl, by simp [Call.light], by simp, by simp, by simp⟩
  | ddrIoSetLightsHdxsRgb idx r g b =>
    obtain ⟨hidx, rfl, rfl, rfl⟩ := h
    have hbyte : toUnsigned 8 idx = some (BitVec.ofNat 8 idx) :=
      if_pos (Nat.lt_of_le_of_lt hidx (by decide))
    refine ⟨[.setLightsHdxsRgb (BitVec.ofNat 8 idx) 0 0 0], ?_, by simp [Call.light], by simp,
      by simp, ?_⟩
    · rw [Call.native, hbyte]
      rfl
    · rintro idx' r g b hcall
      obtain ⟨rfl, -⟩ := Call.ddrIoSetLightsHdxsRgb.inj hcall
      exact ⟨hidx, rfl⟩

/-- **Nothing is lost on the way to the backend.** For every run of the plugin: all
conversions of the binding are defined; a light word arrives unchanged, with lamps of
`ddrio.h` only; the lights of the HD cabinet are switched off and never on, within the
header's indices; and the level is that of the plugin, below the binding's bound. -/
theorem ddrio_words_arrive (es : List Event) {s : State} (hrun : run .load es = .ok s) :
    ∀ c ∈ s.calls, ∃ calls, c.ArrivesAs calls :=
  fun c hc => ((Reachable.regular ⟨es, hrun⟩).calls c hc).arrives

/-- A lamp's word, as it arrives. -/
theorem ddrio_words_arrive_up :
    ∃ s, run .load [.start "ddr4mp".toList true,
        .write .ksys573DioWrite_1_0 0x1f6400e0 0x10000000 0xffff0000,
        .write .ksys573DioWrite_1_0 0x1f6400e0 0 0xffff0000] = .ok s ∧
      (Call.ddrIoSetLightsExtio 0x40000000).ArrivesAs [.setLightsExtio 0x40000000] := by
  refine ⟨_, rfl, ?_⟩
  obtain ⟨calls, harrives⟩ := ddrio_words_arrive [.start "ddr4mp".toList true,
      .write .ksys573DioWrite_1_0 0x1f6400e0 0x10000000 0xffff0000,
      .write .ksys573DioWrite_1_0 0x1f6400e0 0 0xffff0000] rfl
    (.ddrIoSetLightsExtio 0x40000000) (by decide)
  obtain rfl : calls = [.setLightsExtio 0x40000000] :=
    Option.some.inj (harrives.native.symm.trans rfl)
  exact harrives

end MamePlugins.Ddrio
