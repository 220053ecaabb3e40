import MamePlugins.Library.Runs
import MamePlugins.Library.TextBuffer
import Mathlib.Data.BitVec

/-!
# Building a text in a buffer

`str_cpy` and `str_cat` abort the process rather than write over the end of their
buffer. This file determines what any sequence of them leaves in the buffer, for both
widths of characters.
-/

namespace MamePlugins.Util

open Library

/-- What keeps a function from its end: `abort`, or an access outside of a buffer. -/
inductive Fault
  | abort
  | outOfBounds
  deriving DecidableEq

/-- Accesses that must be inside their buffers. -/
def inBounds {α : Type} : Option α → Except Fault α
  | some a => .ok a
  | none => .error .outOfBounds

variable {w : ℕ}

/-- `str_cat` for characters of any width. A pointer stands for the characters from there
to the end of its object, and the two objects are not the same. -/
def catText (dest : List (BitVec w)) (dnchars : ℕ) (src : List (BitVec w)) :
    Except Fault (List (BitVec w)) := do
  let dlen ← inBounds (textLength dest)
  let slen ← inBounds (textLength src)
  if dlen + slen ≥ dnchars then .error .abort
  else inBounds (copyInto dest dlen src (slen + 1))

/-- `str_cpy` for characters of any width. -/
def cpyText (dest : List (BitVec w)) (dnchars : ℕ) (src : List (BitVec w)) :
    Except Fault (List (BitVec w)) := do
  let slen ← inBounds (textLength src)
  if slen ≥ dnchars then .error .abort
  else inBounds (copyInto dest 0 src (slen + 1))

def strCat (dest : List (BitVec 8)) (dnchars : ℕ) (src : List (BitVec 8)) :
    Except Fault (List (BitVec 8)) :=
  catText dest dnchars src

def strCpy (dest : List (BitVec 8)) (dnchars : ℕ) (src : List (BitVec 8)) :
    Except Fault (List (BitVec 8)) :=
  cpyText dest dnchars src

def wstrCat (dest : List (BitVec 16)) (dnchars : ℕ) (src : List (BitVec 16)) :
    Except Fault (List (BitVec 16)) :=
  catText dest dnchars src

def wstrCpy (dest : List (BitVec 16)) (dnchars : ℕ) (src : List (BitVec 16)) :
    Except Fault (List (BitVec 16)) :=
  cpyText dest dnchars src

/-- A use of a buffer. -/
inductive TextOp (w : ℕ)
  | cat (src : List (BitVec w))
  | cpy (src : List (BitVec w))

def TextOp.src : TextOp w → List (BitVec w)
  | .cat src => src
  | .cpy src => src

def TextOp.step (dnchars : ℕ) (dest : List (BitVec w)) : TextOp w → Except Fault (List (BitVec w))
  | .cat src => catText dest dnchars src
  | .cpy src => cpyText dest dnchars src

/-- The uses of a buffer, one after the other. -/
abbrev buildText (dnchars : ℕ) (dest : List (BitVec w)) (ops : List (TextOp w)) :
    Except Fault (List (BitVec w)) :=
  runEvents (TextOp.step dnchars) dest ops

/-! ### Texts -/

/-- What a use of a buffer makes of the text in it. -/
def TextOp.text (text : List (BitVec w)) : TextOp w → List (BitVec w)
  | .cat src => text ++ bufferText src
  | .cpy src => bufferText src

def built (text : List (BitVec w)) (ops : List (TextOp w)) : List (BitVec w) :=
  ops.foldl TextOp.text text

/-- After every use of the buffer the text has room, with the null behind it. -/
def HasRoom (dnchars : ℕ) (text : List (BitVec w)) (ops : List (TextOp w)) : Prop :=
  ∀ ops₁, ops₁ <+: ops → ops₁ ≠ [] → (built text ops₁).length < dnchars

variable {dest src text : List (BitVec w)} {dnchars : ℕ} {op : TextOp w} {ops : List (TextOp w)}

theorem hasRoom_nil : HasRoom dnchars text [] :=
  fun _ hops₁ hne => absurd (List.prefix_nil.mp hops₁) hne

theorem hasRoom_cons :
    HasRoom dnchars text (op :: ops) ↔
      (op.text text).length < dnchars ∧ HasRoom dnchars (op.text text) ops := by
  constructor
  · refine fun h => ⟨h [op] ⟨ops, rfl⟩ (List.cons_ne_nil _ _), fun ops₁ hops₁ _ => ?_⟩
    exact h (op :: ops₁) (List.cons_prefix_cons.mpr ⟨rfl, hops₁⟩) (List.cons_ne_nil _ _)
  · rintro ⟨hop, h⟩ ops₁ hops₁ hne
    cases ops₁ with
    | nil => exact absurd rfl hne
    | cons op₁ ops₁ =>
      obtain ⟨rfl, htail⟩ := List.cons_prefix_cons.mp hops₁
      cases ops₁ with
      | nil => exact hop
      | cons op₂ ops₁ => exact h _ htail (List.cons_ne_nil _ _)

theorem TextOp.text_noNull (h : 0 ∉ text) (op : TextOp w) : 0 ∉ op.text text := by
  cases op with
  | cat src => exact List.not_mem_append h bufferText_noNull
  | cpy src => exact bufferText_noNull

/-! ### Buffers -/

/-- `str_cpy` puts its text at the front of any buffer. -/
theorem cpyText_eq (hsize : dnchars ≤ dest.length) (hsrc : 0 ∈ src) :
    cpyText dest dnchars src =
      if (bufferText src).length < dnchars then
        .ok (bufferText src ++ 0 :: dest.drop ((bufferText src).length + 1))
      else .error .abort := by
  have hreads := reads_bufferText hsrc
  simp only [cpyText, hreads.textLength_eq, inBounds, bind, Except.bind]
  by_cases hroom : (bufferText src).length < dnchars
  · rw [if_neg (not_le.mpr hroom), if_pos hroom, hreads.copyInto_eq (by omega), List.take_zero,
      Nat.zero_add]
    rfl
  · rw [if_pos (not_lt.mp hroom), if_neg hroom]

/-- `str_cat` puts its text behind the text of the buffer. -/
theorem catText_eq (hdest : Reads dest text) (hsize : dnchars ≤ dest.length) (hsrc : 0 ∈ src) :
    catText dest dnchars src =
      if (text ++ bufferText src).length < dnchars then
        .ok (text ++ bufferText src ++ 0 :: dest.drop ((text ++ bufferText src).length + 1))
      else .error .abort := by
  have hreads := reads_bufferText hsrc
  have htake : dest.take text.length = text := by
    obtain ⟨-, rest, rfl⟩ := hdest
    exact List.take_left
  simp only [catText, hdest.textLength_eq, hreads.textLength_eq, inBounds, bind, Except.bind,
    List.length_append]
  by_cases hroom : text.length + (bufferText src).length < dnchars
  · rw [if_neg (not_le.mpr hroom), if_pos hroom, hreads.copyInto_eq (by omega), htake,
      ← List.append_assoc, Nat.add_assoc]
  · rw [if_pos (not_lt.mp hroom), if_neg hroom]

/-- What a use of a buffer leaves: the text, and the cells behind the part that it may use. -/
structure Leaves (dnchars : ℕ) (dest text dest' : List (BitVec w)) : Prop where
  reads : Reads dest' text
  length : dest'.length = dest.length
  frame : dest'.drop dnchars = dest.drop dnchars

/-- A text that has room leaves the cells behind it alone. -/
theorem leaves_of_room (hsize : dnchars ≤ dest.length) (hnull : 0 ∉ text)
    (hroom : text.length < dnchars) :
    Leaves dnchars dest text (text ++ 0 :: dest.drop (text.length + 1)) where
  reads := ⟨hnull, _, rfl⟩
  length := by
    rw [List.length_append, List.length_cons, List.length_drop]
    omega
  frame := by
    have hbehind : dnchars = (text ++ [0]).length + (dnchars - (text.length + 1)) := by
      rw [List.length_append, List.length_singleton]
      omega
    rw [List.append_cons, hbehind, List.drop_length_add_append, List.drop_drop]
    simp

theorem Leaves.trans {text' dest' dest'' : List (BitVec w)} (h : Leaves dnchars dest text dest')
    (h' : Leaves dnchars dest' text' dest'') : Leaves dnchars dest text' dest'' :=
  ⟨h'.reads, h'.length.trans h.length, h'.frame.trans h.frame⟩

/-- A use of a buffer with a text in it. -/
theorem TextOp.step_cases (hdest : Reads dest text) (hsize : dnchars ≤ dest.length)
    (hsrc : 0 ∈ op.src) :
    ((op.text text).length < dnchars ∧ ∃ dest', op.step dnchars dest = .ok dest' ∧
      Leaves dnchars dest (op.text text) dest') ∨
      ¬(op.text text).length < dnchars ∧ op.step dnchars dest = .error .abort := by
  have hnull := op.text_noNull hdest.1
  by_cases hroom : (op.text text).length < dnchars
  · refine Or.inl ⟨hroom, _, ?_, leaves_of_room hsize hnull hroom⟩
    cases op with
    | cat src => exact (catText_eq hdest hsize hsrc).trans (if_pos hroom)
    | cpy src => exact (cpyText_eq hsize hsrc).trans (if_pos hroom)
  · refine Or.inr ⟨hroom, ?_⟩
    cases op with
    | cat src => exact (catText_eq hdest hsize hsrc).trans (if_neg hroom)
    | cpy src => exact (cpyText_eq hsize hsrc).trans (if_neg hroom)

/-- The uses of a buffer with a text in it. -/
theorem buildText_of_reads (hdest : Reads dest text) (hsize : dnchars ≤ dest.length)
    (hops : ∀ op ∈ ops, 0 ∈ op.src) :
    (HasRoom dnchars text ops → ∃ dest', buildText dnchars dest ops = .ok dest' ∧
      Leaves dnchars dest (built text ops) dest') ∧
      (¬HasRoom dnchars text ops → buildText dnchars dest ops = .error .abort) := by
  induction ops generalizing dest text with
  | nil =>
    exact ⟨fun _ => ⟨dest, rfl, hdest, rfl, rfl⟩, fun hnot => absurd hasRoom_nil hnot⟩
  | cons op ops ih =>
    rw [List.forall_mem_cons] at hops
    rw [hasRoom_cons, buildText, runEvents]
    rcases TextOp.step_cases hdest hsize hops.1 with
      ⟨hroom, dest', hstep, hleaves⟩ | ⟨hroom, hstep⟩
    · rw [hstep]
      obtain ⟨hok, habort⟩ := ih hleaves.reads (hleaves.length ▸ hsize) hops.2
      refine ⟨fun h => ?_, fun h => habort fun hrest => h ⟨hroom, hrest⟩⟩
      obtain ⟨dest'', hrun, hleaves'⟩ := hok h.2
      exact ⟨dest'', hrun, hleaves.trans hleaves'⟩
    · rw [hstep]
      exact ⟨fun h => absurd h.1 hroom, fun _ => rfl⟩

/-- **What is built in a buffer.** For every buffer of at least `dnchars` characters, with
anything in it, that is used by `str_cpy` first and then by `str_cpy` and `str_cat` in any
order: if the text has room after every use, it is in the buffer in the end, and nothing
behind the first `dnchars` characters is written; otherwise the process aborts. No
access is ever outside of a buffer. -/
theorem text_is_built (buffer : List (BitVec w)) (dnchars : ℕ) (hsize : dnchars ≤ buffer.length)
    (first : List (BitVec w)) (hfirst : 0 ∈ first) (ops : List (TextOp w))
    (hops : ∀ op ∈ ops, 0 ∈ op.src) :
    (HasRoom dnchars [] (.cpy first :: ops) →
      ∃ buffer', buildText dnchars buffer (.cpy first :: ops) = .ok buffer' ∧
        Leaves dnchars buffer (built [] (.cpy first :: ops)) buffer') ∧
      (¬HasRoom dnchars [] (.cpy first :: ops) →
        buildText dnchars buffer (.cpy first :: ops) = .error .abort) := by
  have hcpy := cpyText_eq hsize hfirst
  rw [hasRoom_cons, buildText, runEvents, TextOp.step, hcpy, TextOp.text]
  by_cases hroom : (bufferText first).length < dnchars
  · rw [if_pos hroom]
    have hleaves := leaves_of_room hsize bufferText_noNull hroom
    obtain ⟨hok, habort⟩ :=
      buildText_of_reads hleaves.reads (hleaves.length ▸ hsize) hops
    refine ⟨fun h => ?_, fun h => habort fun hrest => h ⟨hroom, hrest⟩⟩
    obtain ⟨buffer', hrun, hleaves'⟩ := hok h.2
    exact ⟨buffer', hrun, hleaves.trans hleaves'⟩
  · rw [if_neg hroom]
    exact ⟨fun h => absurd h.1 hroom, fun _ => rfl⟩

/-- Three letters fill a buffer of four characters, of which a fifth is left alone. -/
theorem text_is_built_letters :
    ∃ buffer', buildText 4 [1, 1, 1, 1, 9] [.cpy [0x61, 0x62, 0], .cat [0x63, 0, 7]] =
        .ok buffer' ∧
      Leaves 4 [1, 1, 1, 1, 9] (built [] [.cpy [0x61, 0x62, 0], .cat [0x63, 0, 7]])
        (buffer' : List (BitVec 8)) :=
  (text_is_built [1, 1, 1, 1, 9] 4 (by decide) [0x61, 0x62, 0] (by decide) [.cat [0x63, 0, 7]]
    (by decide)).1
    (hasRoom_cons.mpr ⟨by decide, hasRoom_cons.mpr ⟨by decide, hasRoom_nil⟩⟩)

end MamePlugins.Util
