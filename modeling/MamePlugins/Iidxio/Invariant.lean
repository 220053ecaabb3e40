import MamePlugins.Iidxio.DisplayText
import MamePlugins.Iidxio.Restart

/-!
# What always holds of the iidxio plugin

The display text is unpacked and packed again by every write of a character, with
operations that fail on a byte that is absent or too large. This file has the invariant
that no callback ever meets one.
-/

namespace MamePlugins.Iidxio

open Library

/-- Ten bytes of seven bits each, the last one null. -/
structure IsDisplayText (text : LuaString) : Prop where
  length : text.length = 10
  last : text.getLast? = some 0
  ascii : ∀ c ∈ text, c.toNat < 0x80

structure State.Safe (s : State) : Prop where
  text : IsDisplayText s.text16seg
  handedOver : ∀ text ∈ handedTexts s.calls, IsDisplayText text
  index : s.curIoOffset.toNat < 0x100
  exited : s.exited = false

theorem displayChar_lt (data : BitVec 8) : (displayChar data).toNat < 0x80 := by
  rw [displayChar, BitVec.toNat_and]
  exact Nat.and_lt_two_pow (n := 7) _ (by decide)

theorem isDisplayText_textOf (cell : BitVec 8 → Option (BitVec 8)) :
    IsDisplayText (textOf cell) := by
  refine ⟨textOf_length cell, List.getLast?_concat, fun c hc => ?_⟩
  rcases List.mem_append.mp hc with hchar | hend
  · obtain ⟨k, -, rfl⟩ := List.mem_map.mp hchar
    cases cell (charIndex k) with
    | none => exact Nat.zero_lt_succ _
    | some data => exact displayChar_lt data
  · rw [List.mem_singleton.mp hend]
    exact Nat.zero_lt_succ _

theorem isDisplayText_blank : IsDisplayText text16segBlank :=
  textOf_none ▸ isDisplayText_textOf fun _ => none

/-- A callback hands over the text of the plugin, or the blank one. -/
theorem State.textsOf_isDisplayText {s : State} (h : IsDisplayText s.text16seg) (e : Event) :
    ∀ text ∈ s.textsOf e, IsDisplayText text := by
  have hone {c : Prop} [Decidable c] {text : LuaString} (htext : IsDisplayText text) :
      ∀ text' ∈ (if c then [text] else []), IsDisplayText text' := by
    split_ifs <;> simp [htext]
  cases e with
  | start systemName initResult results => exact hone isDisplayText_blank
  | stop results => exact hone isDisplayText_blank
  | frame results => exact hone h
  | _ => exact fun text htext => absurd htext List.not_mem_nil

/-- **No callback fails.** After every sequence of callbacks, with any data and any results
of the backend: no Lua error was raised and the emulator was not exited, and the text,
and every text that was handed to the backend, consists of ten bytes of seven bits each,
the last one null. A start has the native library loaded by `require`, which is taken to
succeed. -/
theorem no_callback_fails (es : List Event) : ∃ s, run .load es = .ok s ∧ s.Safe := by
  obtain ⟨s, hrun, hafter⟩ := run_load es
  have htext {es : List Event} {s : State} (hafter : s.After es) : IsDisplayText s.text16seg := by
    obtain ⟨cell, hshows⟩ := hafter.shows
    rw [hshows.text]
    exact isDisplayText_textOf cell
  refine ⟨s, hrun, htext hafter, ?_, ?_, exited_of_run hrun⟩
  · refine State.of_run (P := fun s => ∀ text ∈ handedTexts s.calls, IsDisplayText text)
      (fun text hmem => absurd hmem List.not_mem_nil) (fun e s' hafter h hstep => ?_) hrun
    rw [step_calls hafter hstep, handedTexts_append, handedTexts_callsOf, List.forall_mem_append]
    exact ⟨h, State.textsOf_isDisplayText (htext hafter) e⟩
  · obtain ⟨cell, hshows⟩ := hafter.shows
    rw [hshows.index, BitVec.toNat_setWidth_of_le (by decide)]
    exact (selected 0 (seenWrites es)).isLt

end MamePlugins.Iidxio
