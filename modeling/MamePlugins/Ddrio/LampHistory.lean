import MamePlugins.Ddrio.Cells
import MamePlugins.Ddrio.Lights

/-!
# Lamps over a session

A start switches every lamp off and clears every register. Outputs are active
low, so the cleared registers stand for lit lamps. This file says what a lamp
shows after any writes, and when that is what its register says.
-/

namespace MamePlugins.Ddrio

open Library

/-- A lamp that starts dark behind a cleared register follows the last nibble, if
its bit was ever set, and otherwise stays dark. -/
theorem track_reactLamp (i : Fin 4) (ns : List ℕ) :
    track (reactLamp i) false 0 ns =
      (ns.any (outputLevel · i) && !outputLevel (ns.getLastD 0) i) := by
  have hzero : outputLevel 0 i = false := Nat.zero_testBit _
  induction ns using List.reverseRecOn with
  | nil => rfl
  | append_singleton ns n ih =>
    rw [track_concat, ih, reactLamp, List.getLastD_concat, List.any_append, List.any_cons,
      List.any_nil, Bool.or_false]
    -- A set bit right before the last nibble is one of the nibbles.
    have hlast : outputLevel (ns.getLastD 0) i = true → ns.any (outputLevel · i) = true := by
      intro hlevel
      refine List.any_eq_true.mpr ⟨ns.getLastD 0, ?_, hlevel⟩
      cases ns using List.reverseRecOn with
      | nil => simp [hzero] at hlevel
      | append_singleton ns m _ => simp
    cases hn : outputLevel n i with
    | true => cases outputLevel (ns.getLastD 0) i <;> simp
    | false =>
      cases hl : outputLevel (ns.getLastD 0) i with
      | true => simp [hlast hl]
      | false => simp

/-- After a start every lamp is dark and every register cleared. -/
theorem AfterStart.lit {s : State} (h : AfterStart s) (l : Lamp) : s.lit l = false := by
  obtain ⟨s₀, systemName, -, hs₀, hname, rfl⟩ := h
  rw [init_eq hs₀ hname, State.lit]
  cases l.word <;> exact BitVec.getLsbD_zero

theorem AfterStart.data {s : State} (h : AfterStart s) (r : Fin 8) :
    s.ksys573DioWriteOutputData r = 0 := by
  obtain ⟨s₀, systemName, -, hs₀, hname, rfl⟩ := h
  rw [init_eq hs₀ hname]
  rfl

/-- **Lamps follow the registers, once their bit was set.** After a start and any
callbacks before the next stop, the lamp's bit in the word the backend received
last is the negation of the bit last written, if and only if some write since the
start has set that bit. -/
theorem lamp_follows_register_iff {s₀ : State} (h₀ : AfterStart s₀) (es : List Event)
    (hes : ∀ e ∈ es, e ≠ .stop) (l : Lamp) (n : ℕ)
    (hn : (nibbles l.output.1 es).getLast? = some n) :
    ∃ s light, run s₀ es = .ok s ∧ lastLight l.word s.calls = some light ∧
      ((light.getLsbD l.bit = true ↔ outputLevel n l.output.2 = false) ↔
        ∃ n' ∈ nibbles l.output.1 es, outputLevel n' l.output.2 = true) := by
  have hstep := h₀.inStep.foldl_next h₀.running hes
  refine ⟨es.foldl State.next s₀, _, run_eq h₀.running.valid es, hstep.sent l.word, ?_⟩
  have hcell := (registerCell_lit l).foldl_next h₀.running hes
  have hlast : (nibbles l.output.1 es).getLastD 0 = n := by
    rw [List.getLastD_eq_getLast?, hn, Option.getD_some]
  have hmem : n ∈ nibbles l.output.1 es := List.mem_of_getLast? hn
  rw [h₀.lit, h₀.data, track_reactLamp, hlast] at hcell
  rw [← List.any_eq_true]
  change ((es.foldl State.next s₀).lit l = true ↔ _) ↔ _
  rw [hcell]
  cases hlevel : outputLevel n l.output.2 with
  | true =>
    have hany : (nibbles l.output.1 es).any (outputLevel · l.output.2) = true :=
      List.any_eq_true.mpr ⟨n, hmem, hlevel⟩
    simp [hany]
  | false => simp

/-- Player one's UP lamp after its bit was set and cleared again. -/
theorem lamp_follows_register_of_set :
    ∃ s light, run (init "ddr4mp".toList true .load)
        [.write .ksys573DioWrite_1_0 0x1f6400e0 0x10000000 0xffff0000,
          .write .ksys573DioWrite_1_0 0x1f6400e0 0 0xffff0000] = .ok s ∧
      lastLight .extio s.calls = some light ∧ light.getLsbD 0x1e = true := by
  obtain ⟨s, light, hrun, hlight, hiff⟩ := lamp_follows_register_iff
    ⟨.load, "ddr4mp".toList, ⟨[], rfl⟩, rfl, by decide, rfl⟩
    [.write .ksys573DioWrite_1_0 0x1f6400e0 0x10000000 0xffff0000,
      .write .ksys573DioWrite_1_0 0x1f6400e0 0 0xffff0000] (by simp)
    (.extio .lightP1Up) 0 (by decide)
  exact ⟨s, light, hrun, hlight, (hiff.mpr ⟨1, by decide, by decide⟩).mpr (by decide)⟩

/-- A first write of zero leaves the lamp dark, though its output is driven low. -/
theorem lamp_dark_of_zero :
    ¬∀ s₀, AfterStart s₀ → ∀ es : List Event,
      (∀ e ∈ es, ∃ tap offset data mask, e = .write tap offset data mask) →
      ∀ (l : Lamp) (n : ℕ), (nibbles l.output.1 es).getLast? = some n →
      ∀ s light, run s₀ es = .ok s → lastLight l.word s.calls = some light →
        (light.getLsbD l.bit = true ↔ outputLevel n l.output.2 = false) := by
  intro h
  have hstart : AfterStart (init "ddr4mp".toList true .load) :=
    ⟨.load, "ddr4mp".toList, ⟨[], rfl⟩, rfl, by decide, rfl⟩
  have hiff := h _ hstart [.write .ksys573DioWrite_1_0 0x1f6400e0 0 0xffff0000] (by simp)
    (.extio .lightP1Up) 0 (by decide) _ 0 (run_eq hstart.running.valid _) (by decide)
  exact absurd (hiff.mpr (by decide)) (by decide)

end MamePlugins.Ddrio
