import MamePlugins.Ddrio.Independence

/-!
# Runs that mirror each other

A start does not reset the stage cells. Two started plugins whose stages differ
only in old bits of the shift register nevertheless behave alike: nine edges push
the old bits out, and before that no window with them in it is a start word.
-/

namespace MamePlugins.Ddrio

open Library

/-! ### Shift registers with old bits -/

/-- Two shift registers that are equal, or became so in the top `j` bits: below
them, and four bits down, one has old bits and the other is clear. -/
def ShiftLike (a b : ℕ) : Prop :=
  a = b ∨ ∃ j < 9, a % 2 ^ (13 - j) < 2 ^ (9 - j) ∧ b % 2 ^ (13 - j) = 0 ∧
    a / 2 ^ (13 - j) = b / 2 ^ (13 - j)

/-- Neither register can hold the start word while they differ: the word has no
four clear bits above its lowest set one. -/
theorem ShiftLike.eq_word_iff {a b : ℕ} (h : ShiftLike a b) : a = 0xc90 ↔ b = 0xc90 := by
  rcases h with rfl | ⟨j, hj, hold, hclear, htop⟩
  · exact Iff.rfl
  · interval_cases j <;> norm_num at hold hclear htop <;> omega

/-- A new bit on top of both. -/
theorem ShiftLike.shift {a b : ℕ} (h : ShiftLike a b) (d : ℕ) :
    ShiftLike (a / 2 + d * 2 ^ 12) (b / 2 + d * 2 ^ 12) := by
  rcases h with rfl | ⟨j, hj, hold, hclear, htop⟩
  · exact Or.inl rfl
  · by_cases hlast : j = 8
    · subst hlast
      norm_num at hold hclear htop
      exact Or.inl (by omega)
    · refine Or.inr ⟨j + 1, by omega, ?_⟩
      interval_cases j <;> norm_num at hold hclear htop ⊢ <;> omega

/-- Stages that differ in old bits of the shift register only. -/
structure Stage.Like (st st' : Stage) : Prop where
  lines : (st.dataDo, st.dataClk) = (st'.dataDo, st'.dataClk)
  handshake : (st.dataState, st.dataBit) = (st'.dataState, st'.dataBit)
  shift : ShiftLike st.dataShift st'.dataShift

theorem Stage.Like.data {st st' : Stage} (h : st.Like st') (level : Bool) :
    (st.data level).Like (st'.data level) :=
  ⟨congrArg (fun lines : ℕ × ℕ => (level.toNat, lines.2)) h.lines, h.handshake, h.shift⟩

section Rise

variable {st st' : Stage} (h : st.Like st') (hst : st.Valid) (hst' : st'.Valid)
include h hst hst'

theorem Stage.Like.shifted : ShiftLike st.shifted st'.shifted := by
  have hdo : st.dataDo = st'.dataDo := congrArg Prod.fst h.lines
  rw [Stage.shifted_eq hst.shift_lt, Stage.shifted_eq hst'.shift_lt, hdo]
  exact h.shift.shift st'.dataDo

/-- A rising edge is the same to both. -/
theorem Stage.Like.edge : st.edge = st'.edge := by
  obtain ⟨hstate, hbit⟩ := Prod.mk.inj h.handshake
  simp only [Stage.edge, hstate, hbit, (h.shifted hst hst').eq_word_iff]

theorem Stage.Like.rise : st.rise.Like st'.rise := by
  have hshifted := h.shifted hst hst'
  obtain ⟨hdo, -⟩ := Prod.mk.inj h.lines
  obtain ⟨hstate, hbit⟩ := Prod.mk.inj h.handshake
  unfold Stage.rise
  rw [h.edge hst hst']
  cases st'.edge
  · exact ⟨Prod.ext hdo rfl, h.handshake, hshifted⟩
  · exact ⟨Prod.ext hdo rfl, rfl, hshifted⟩
  · exact ⟨Prod.ext hdo rfl, Prod.ext hstate (congrArg (· + 1) hbit), hshifted⟩
  · exact ⟨Prod.ext hdo rfl, rfl, hshifted⟩

/-- The clock line does the same to both, with the same kind of edge. -/
theorem Stage.Like.clock (level : Bool) :
    (st.clock level).Like (st'.clock level) ∧ st.clockEdge level = st'.clockEdge level := by
  obtain ⟨hdo, hclk⟩ := Prod.mk.inj h.lines
  constructor
  · unfold Stage.clock
    rw [hclk]
    split_ifs
    · exact h
    · exact h.rise hst hst'
    · exact ⟨Prod.ext hdo rfl, h.handshake, h.shift⟩
  · unfold Stage.clockEdge
    rw [hclk, h.edge hst hst']

end Rise

/-! ### States -/

/-- Two states that have made the same calls and given the same answers since
`s₀` and `t₀`, and differ in nothing else but old bits of the stages. -/
structure Mirrors (s₀ t₀ s t : State) : Prop where
  shell : (s.isInitialized, s.readCallback, s.writeCallback, s.ddrioStatePad) =
    (t.isInitialized, t.readCallback, t.writeCallback, t.ddrioStatePad)
  lights : (s.ddrioStateExtioLight, s.ddrioStateP3ioLight) =
    (t.ddrioStateExtioLight, t.ddrioStateP3ioLight)
  data : s.ksys573DioWriteOutputData = t.ksys573DioWriteOutputData
  mask : s.stageioInputMask = t.stageioInputMask
  stages : ∀ p, (s.stageio p).Like (t.stageio p)
  calls : ∃ calls, s.calls = s₀.calls ++ calls ∧ t.calls = t₀.calls ++ calls
  answers : ∃ answers, s.answers = s₀.answers ++ answers ∧ t.answers = t₀.answers ++ answers

variable {s₀ t₀ s t : State}

theorem Mirrors.light (h : Mirrors s₀ t₀ s t) : ∀ w, s.light w = t.light w
  | .extio => congrArg Prod.fst h.lights
  | .p3io => congrArg Prod.snd h.lights

theorem Mirrors.call (h : Mirrors s₀ t₀ s t) (c : Call) :
    Mirrors s₀ t₀ (s.call c) (t.call c) := by
  obtain ⟨calls, hs, ht⟩ := h.calls
  exact { h with calls := ⟨calls ++ [c], by simp [State.call, hs], by simp [State.call, ht]⟩ }

theorem Mirrors.setLight (h : Mirrors s₀ t₀ s t) (w : LightWord) (light : LuaInt) :
    Mirrors s₀ t₀ (s.setLight w light) (t.setLight w light) := by
  cases w with
  | extio =>
    exact { h with lights := congrArg (fun lights : LuaInt × LuaInt => (light, lights.2)) h.lights }
  | p3io =>
    exact { h with lights := congrArg (fun lights : LuaInt × LuaInt => (lights.1, light)) h.lights }

theorem Mirrors.setStage (h : Mirrors s₀ t₀ s t) {p : Player} {st st' : Stage}
    (hst : st.Like st') : Mirrors s₀ t₀ (s.setStage p st) (t.setStage p st') := by
  have hstages (q : Player) :
      ((s.setStage p st).stageio q).Like ((t.setStage p st').stageio q) := by
    by_cases hq : q = p
    · subst hq
      simpa using hst
    · simpa [hq] using h.stages q
  exact { h with stages := hstages }

theorem Mirrors.setInputMask (h : Mirrors s₀ t₀ s t) (mask : LuaInt) :
    Mirrors s₀ t₀ (s.setInputMask mask) (t.setInputMask mask) :=
  { h with mask := rfl }

/-- Driving a wire does the same to both. -/
theorem Mirrors.drive (h : Mirrors s₀ t₀ s t) (hs : s.StagesValid) (ht : t.StagesValid)
    (wire : Wire) (level : Bool) : Mirrors s₀ t₀ (s.drive wire level) (t.drive wire level) := by
  cases wire with
  | lamp l =>
    rw [State.drive, State.drive, State.putLamp, State.putLamp, h.light]
    split_ifs
    · exact h
    · exact (h.setLight _ _).call _
  | stageDo p => exact h.setStage ((h.stages p).data level)
  | stageClk p =>
    obtain ⟨hclock, hedge⟩ := (h.stages p).clock (hs p) (ht p) level
    have hset := h.setStage hclock (p := p)
    have hbits (q : Player) :
        ((s.setStage p ((s.stageio p).clock level)).stageio q).dataBit =
          ((t.setStage p ((t.stageio p).clock level)).stageio q).dataBit :=
      congrArg Prod.snd (hset.stages q).handshake
    rw [State.drive, State.drive, State.clock, State.clock, hedge, h.mask]
    simp only [hbits]
    exact hset.setInputMask _
  | unconnected => exact h

theorem Mirrors.driveOutput (h : Mirrors s₀ t₀ s t) (hs : s.StagesValid) (ht : t.StagesValid)
    (offset : Fin 8) (n : ℕ) (i : Fin 4) :
    Mirrors s₀ t₀ (s.driveOutput offset n i) (t.driveOutput offset n i) := by
  unfold State.driveOutput
  rw [h.data]
  split_ifs
  · exact h
  · exact h.drive hs ht _ _

theorem Mirrors.writeRegister (h : Mirrors s₀ t₀ s t) (hs : s.StagesValid) (ht : t.StagesValid)
    (offset : Fin 8) (n : ℕ) :
    Mirrors s₀ t₀ (s.writeRegister offset n) (t.writeRegister offset n) := by
  have hfold (outputs : List (Fin 4)) :
      Mirrors s₀ t₀ (outputs.foldl (State.driveOutput offset n) s)
        (outputs.foldl (State.driveOutput offset n) t) := by
    induction outputs using List.reverseRecOn with
    | nil => exact h
    | append_singleton outputs i ih =>
      rw [List.foldl_concat, List.foldl_concat]
      exact ih.driveOutput (hs.foldl_driveOutput offset n outputs)
        (ht.foldl_driveOutput offset n outputs) offset n i
  have hall := hfold [0, 1, 2, 3]
  have hdata : (s.writeRegister offset n).ksys573DioWriteOutputData =
      (t.writeRegister offset n).ksys573DioWriteOutputData := by
    rw [State.writeRegister_data, State.writeRegister_data, h.data]
  exact { hall with data := hdata }

/-- A read polls and answers the same in both. -/
theorem Mirrors.readTap (h : Mirrors s₀ t₀ s t) (tap : ReadTap) (offset data mask : LuaInt)
    (pad : BitVec 32) :
    (Ddrio.readTap tap offset data mask pad s).1 = (Ddrio.readTap tap offset data mask pad t).1 ∧
      Mirrors s₀ t₀ (Ddrio.readTap tap offset data mask pad s).2
        (Ddrio.readTap tap offset data mask pad t).2 := by
  have hpad : s.ddrioStatePad = t.ddrioStatePad := congrArg (·.2.2.2) h.shell
  cases tap with
  | ksys573Jamma1Read =>
    exact ⟨by simp only [Ddrio.readTap, ksys573Jamma1Read, hpad], h⟩
  | ksys573Jamma2Read =>
    rw [Ddrio.readTap, Ddrio.readTap, ksys573Jamma2Read, ksys573Jamma2Read]
    split_ifs
    · have hcall := h.call (.ddrIoReadPad pad)
      have hshell : ((s.call (.ddrIoReadPad pad)).isInitialized,
          (s.call (.ddrIoReadPad pad)).readCallback, (s.call (.ddrIoReadPad pad)).writeCallback,
          pad.setWidth 64) = ((t.call (.ddrIoReadPad pad)).isInitialized,
          (t.call (.ddrIoReadPad pad)).readCallback, (t.call (.ddrIoReadPad pad)).writeCallback,
          pad.setWidth 64) :=
        congrArg (fun shell => (shell.1, shell.2.1, shell.2.2.1, pad.setWidth 64)) hcall.shell
      exact ⟨by simp only [State.call, h.mask], { hcall with shell := hshell }⟩
    · exact ⟨rfl, h⟩
  | ksys573Jamma3Read =>
    exact ⟨by simp only [Ddrio.readTap, ksys573Jamma3Read, hpad], h⟩

/-- A callback does the same to both. -/
theorem Mirrors.next (h : Mirrors s₀ t₀ s t) (hs : s.Running) (ht : t.Running) {e : Event}
    (he : e ≠ .stop) : Mirrors s₀ t₀ (s.next e) (t.next e) := by
  cases e with
  | start systemName initResult =>
    rw [State.next, State.next, init, init, if_pos hs.isInitialized, if_pos ht.isInitialized]
    exact h
  | stop => exact absurd rfl he
  | read tap offset data mask pad =>
    obtain ⟨hanswer, hread⟩ := h.readTap tap offset data mask pad
    obtain ⟨answers, hs', ht'⟩ := hread.answers
    rw [State.next, State.next, if_pos (hs.readCallback tap), if_pos (ht.readCallback tap)]
    exact { hread with
      answers := ⟨answers ++ [(Ddrio.readTap tap offset data mask pad s).1],
        by simp [hs'], by simp [ht', hanswer]⟩ }
  | write tap offset data mask =>
    rw [State.next, State.next, if_pos (hs.writeCallback tap), if_pos (ht.writeCallback tap)]
    cases reached tap offset data mask with
    | none => exact h
    | some w => exact h.writeRegister hs.valid ht.valid w.1 w.2

/-- So does every continuation of both sessions. -/
theorem Mirrors.foldl_next (h : Mirrors s₀ t₀ s t) (hs : s.Running) (ht : t.Running)
    {es : List Event} (hes : ∀ e ∈ es, e ≠ .stop) :
    Mirrors s₀ t₀ (es.foldl State.next s) (es.foldl State.next t) := by
  induction es generalizing s t with
  | nil => exact h
  | cons e es ih =>
    have he := hes e (by simp)
    exact ih (h.next hs ht he) (hs.next he) (ht.next he) fun e' he' => hes e' (by simp [he'])

end MamePlugins.Ddrio
