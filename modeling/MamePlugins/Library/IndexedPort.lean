import Mathlib.Logic.Function.Basic

/-!
# Indexed ports

A port with one address for many registers: a write either selects a register or
stores a value in the selected one. Behind it is a flat register file.
-/

namespace MamePlugins.Library

variable {ι α : Type*}

/-- A write to an indexed port. -/
inductive PortWrite (ι α : Type*)
  | select (i : ι)
  | store (a : α)

/-- The index in force after some writes, `i` being the one before them. -/
def selected (i : ι) : List (PortWrite ι α) → ι
  | [] => i
  | .select j :: ws => selected j ws
  | .store _ :: ws => selected i ws

theorem selected_append (i : ι) (ws ws' : List (PortWrite ι α)) :
    selected i (ws ++ ws') = selected (selected i ws) ws' := by
  induction ws generalizing i with
  | nil => rfl
  | cons w ws ih =>
    cases w with
    | select j => exact ih j
    | store a => exact ih i

variable [DecidableEq ι]

/-- The values stored under index `j`, in order. -/
def storedUnder (j i : ι) : List (PortWrite ι α) → List α
  | [] => []
  | .select i' :: ws => storedUnder j i' ws
  | .store a :: ws => if i = j then a :: storedUnder j i ws else storedUnder j i ws

/-- A flat register file, and the index its port has selected. A register that was
never written is `none`. -/
structure PortFile (ι α : Type*) where
  index : ι
  cell : ι → Option α

/-- A write to the port, as the register file sees it. -/
def PortFile.write (f : PortFile ι α) : PortWrite ι α → PortFile ι α
  | .select i => { f with index := i }
  | .store a => { f with cell := Function.update f.cell f.index (some a) }

/-- The register file has the index selected last. -/
theorem PortFile.foldl_write_index (f : PortFile ι α) (ws : List (PortWrite ι α)) :
    (ws.foldl PortFile.write f).index = selected f.index ws := by
  induction ws generalizing f with
  | nil => rfl
  | cons w ws ih =>
    cases w with
    | select i => exact ih { f with index := i }
    | store a => exact ih { f with cell := Function.update f.cell f.index (some a) }

/-- Each register holds the value stored last under its index. -/
theorem PortFile.foldl_write_cell (f : PortFile ι α) (ws : List (PortWrite ι α)) (j : ι) :
    (ws.foldl PortFile.write f).cell j =
      ((storedUnder j f.index ws).getLast?).or (f.cell j) := by
  induction ws generalizing f with
  | nil => rfl
  | cons w ws ih =>
    cases w with
    | select i => exact ih { f with index := i }
    | store a =>
      rw [List.foldl_cons, ih, storedUnder, PortFile.write]
      by_cases hj : f.index = j
      · simp only [hj, if_true, Function.update_self, List.getLast?_cons]
        cases (storedUnder j j ws).getLast? <;> rfl
      · simp only [if_neg hj, Function.update_of_ne (Ne.symm hj)]

end MamePlugins.Library
