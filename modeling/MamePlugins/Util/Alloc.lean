import MamePlugins.Library.Accounts
import MamePlugins.Library.Runs
import MamePlugins.Library.TextBuffer
import Mathlib.Data.BitVec

/-!
# Allocation

`xmalloc` and its relatives end the process rather than return null, and the functions
that copy or convert a text return it in a block that the caller is to free. This file has
them over the blocks that are in use, for any answers of the system.
-/

namespace MamePlugins.Util

open Library

/-- A `void *`. Zero is `NULL`. -/
abbrev Pointer := BitVec 64

/-- The blocks in use. -/
abbrev Memory := Blocks Pointer (BitVec 8)

/-- How the process ends. `log_fatal` ends it whatever the formatters are. -/
inductive Ending
  | logFatal (format : String) (args : List ℕ)
  | abort
  deriving DecidableEq

/-- What keeps a function from returning: the process ends, the function accesses or frees
what is not in use, or the system does not answer so. -/
inductive Halt
  | ended (ending : Ending)
  | undefined
  | impossible
  deriving DecidableEq

def defined {α : Type} : Option α → Except Halt α
  | some a => .ok a
  | none => .error .undefined

/-! ### The system -/

/-- What the system answers to a request: null, or an address and what the block there
holds. -/
structure Grant where
  address : Pointer
  content : List (BitVec 8)
  deriving DecidableEq

/-- A block that is granted has the size, and was not in use. -/
def Grant.Meets (answer : Grant) (size : ℕ) (m : Memory) : Prop :=
  m answer.address = none ∧ answer.content.length = size

instance (answer : Grant) (size : ℕ) (m : Memory) : Decidable (answer.Meets size m) :=
  inferInstanceAs (Decidable (_ ∧ _))

def malloc (answer : Grant) (size : ℕ) (m : Memory) : Except Halt (Pointer × Memory) :=
  if answer.address = 0 then .ok (0, m)
  else if answer.Meets size m then
    .ok (answer.address, Function.update m answer.address (some answer.content))
  else .error .impossible

def calloc (answer : Pointer) (count size : ℕ) (m : Memory) : Except Halt (Pointer × Memory) :=
  malloc ⟨answer, List.replicate (count * size) 0⟩ (count * size) m

/-- `realloc` may use the old address again, and keeps the contents as far as the block
goes. Whether a request for no bytes frees the block does not matter here, as null ends the
process. -/
def realloc (answer : Grant) (mem : Pointer) (size : ℕ) (m : Memory) :
    Except Halt (Pointer × Memory) :=
  if mem = 0 then malloc answer size m
  else do
    let old ← defined (m mem)
    if answer.address = 0 then .ok (0, m)
    else if old.take size <+: answer.content then
      malloc answer size (Function.update m mem none)
    else .error .impossible

def free (mem : Pointer) (m : Memory) : Except Halt Memory :=
  if mem = 0 then .ok m
  else do
    let _ ← defined (m mem)
    .ok (Function.update m mem none)

/-- `memcpy` to the front of a block. -/
def memcpy (dest : Pointer) (src : List (BitVec 8)) (n : ℕ) (m : Memory) :
    Except Halt Memory := do
  let block ← defined (m dest)
  let block ← defined (copyInto block 0 src n)
  .ok (Function.update m dest (some block))

/-- The bytes of characters of `k` bytes, the lowest first. -/
def charBytes {k : ℕ} (chars : List (BitVec (8 * k))) : List (BitVec 8) :=
  chars.flatMap fun c => (List.range k).map fun j => c.extractLsb' (8 * j) 8

/-- What a conversion between the character sets answers: its result, and what it writes
to the front of the buffer. -/
structure Conversion (k : ℕ) where
  result : BitVec 32
  written : List (BitVec (8 * k))

/-- `MultiByteToWideChar` or `WideCharToMultiByte` into a buffer of `size` characters, of
which it never writes more. -/
def Conversion.into {k : ℕ} (answer : Conversion k) (dest : Pointer) (size : BitVec 32)
    (m : Memory) : Except Halt (BitVec 32 × Memory) :=
  if answer.written.length ≤ size.toInt then do
    let m ← memcpy dest (charBytes answer.written) (charBytes answer.written).length m
    .ok (answer.result, m)
  else .error .impossible

/-! ### `mem.c` -/

/-- The allocation functions of `mem.c`: a request that was not met is fatal. -/
def orFatal (format : String) (args : List ℕ) (answered : Pointer × Memory) :
    Except Halt (Pointer × Memory) :=
  if answered.1 = 0 then .error (.ended (.logFatal format args)) else .ok answered

def xcalloc (answer : Pointer) (nbytes : ℕ) (m : Memory) : Except Halt (Pointer × Memory) := do
  orFatal "xcalloc(%u) failed" [nbytes % 2 ^ 32] (← calloc answer nbytes 1 m)

def xmalloc (answer : Grant) (nbytes : ℕ) (m : Memory) : Except Halt (Pointer × Memory) := do
  orFatal "xmalloc(%u) failed" [nbytes % 2 ^ 32] (← malloc answer nbytes m)

def xrealloc (answer : Grant) (mem : Pointer) (nbytes : ℕ) (m : Memory) :
    Except Halt (Pointer × Memory) := do
  orFatal "xrealloc(%p, %u) failed" [mem.toNat, nbytes % 2 ^ 32] (← realloc answer mem nbytes m)

/-! ### `str.c` -/

/-- `str_dup` for characters of `k` bytes. A pointer stands for the characters from there
to the end of its object. -/
def dupText {k : ℕ} (answer : Grant) (str : List (BitVec (8 * k))) (m : Memory) :
    Except Halt (Pointer × Memory) := do
  let nchars := (← defined (textLength str)) + 1
  let (dest, m) ← xmalloc answer (nchars * k) m
  let m ← memcpy dest (charBytes str) (nchars * k) m
  .ok (dest, m)

def strDup (answer : Grant) (str : List (BitVec 8)) (m : Memory) :
    Except Halt (Pointer × Memory) :=
  dupText (k := 1) answer str m

def wstrDup (answer : Grant) (wstr : List (BitVec 16)) (m : Memory) :
    Except Halt (Pointer × Memory) :=
  dupText (k := 2) answer wstr m

/-- `str_widen`, where the first call of `MultiByteToWideChar` returns `nchars`. -/
def strWiden (nchars : BitVec 32) (answer : Grant) (conversion : Conversion 2) (m : Memory) :
    Except Halt (Pointer × Memory) := do
  if nchars = 0 then .error (.ended .abort)
  else
    let (result, m) ← xmalloc answer (nchars.signExtend 64 * 2).toNat m
    let (written, m) ← conversion.into result nchars m
    if written = 0 then .error (.ended .abort)
    else .ok (result, m)

/-- `wstr_narrow`, where the first call of `WideCharToMultiByte` returns `nbytes`: what it
returns, and what is in `*dest` then. -/
def wstrNarrow (nbytes : BitVec 32) (answer : Grant) (conversion : Conversion 1)
    (dest : Pointer) (m : Memory) : Except Halt ((Bool × Pointer) × Memory) := do
  if nbytes.sle 0 then .ok ((false, dest), m)
  else
    let (dest, m) ← xmalloc answer (nbytes.signExtend 64).toNat m
    let (written, m) ← conversion.into dest nbytes m
    if written ≠ nbytes then
      let m ← free dest m
      .ok ((false, 0), m)
    else .ok ((true, dest), m)

/-! ### Runs -/

/-- A call of one of the functions, or of `free`, with what the system answers. -/
inductive MemOp
  | xcalloc (answer : Pointer) (nbytes : ℕ)
  | xmalloc (answer : Grant) (nbytes : ℕ)
  | xrealloc (answer : Grant) (mem : Pointer) (nbytes : ℕ)
  | strDup (answer : Grant) (str : List (BitVec 8))
  | wstrDup (answer : Grant) (wstr : List (BitVec 16))
  | strWiden (nchars : BitVec 32) (answer : Grant) (conversion : Conversion 2)
  | wstrNarrow (nbytes : BitVec 32) (answer : Grant) (conversion : Conversion 1) (dest : Pointer)
  | free (mem : Pointer)

/-- What a call returns; for `wstr_narrow` also what is in `*dest` then. -/
inductive MemResult
  | pointer (p : Pointer)
  | narrowed (success : Bool) (dest : Pointer)
  | none
  deriving DecidableEq

/-- The blocks in use, and what the calls have returned so far. -/
structure AllocState where
  memory : Memory
  results : List MemResult

def AllocState.load : AllocState := ⟨fun _ => none, []⟩

/-- A call that has returned a pointer. -/
def AllocState.returnPointer (s : AllocState) (returned : Pointer × Memory) : AllocState :=
  ⟨returned.2, s.results ++ [.pointer returned.1]⟩

/-- A call of `wstr_narrow` that has returned. -/
def AllocState.returnNarrowed (s : AllocState) (returned : (Bool × Pointer) × Memory) :
    AllocState :=
  ⟨returned.2, s.results ++ [.narrowed returned.1.1 returned.1.2]⟩

/-- A call that has returned nothing. -/
def AllocState.returnVoid (s : AllocState) (m : Memory) : AllocState :=
  ⟨m, s.results ++ [.none]⟩

def AllocState.step (s : AllocState) : MemOp → Except Halt AllocState
  | .xcalloc answer nbytes => (xcalloc answer nbytes s.memory).map s.returnPointer
  | .xmalloc answer nbytes => (xmalloc answer nbytes s.memory).map s.returnPointer
  | .xrealloc answer mem nbytes => (xrealloc answer mem nbytes s.memory).map s.returnPointer
  | .strDup answer str => (strDup answer str s.memory).map s.returnPointer
  | .wstrDup answer wstr => (wstrDup answer wstr s.memory).map s.returnPointer
  | .strWiden nchars answer conversion =>
    (strWiden nchars answer conversion s.memory).map s.returnPointer
  | .wstrNarrow nbytes answer conversion dest =>
    (wstrNarrow nbytes answer conversion dest s.memory).map s.returnNarrowed
  | .free mem => (free mem s.memory).map s.returnVoid

/-- The calls, one after the other. -/
abbrev AllocState.run (s : AllocState) (ops : List MemOp) : Except Halt AllocState :=
  runEvents AllocState.step s ops

end MamePlugins.Util
