import MamePlugins.Util.Alloc

/-!
# No block is lost

What each call hands out to its caller, and what the caller gives back, accounts for the
blocks in use after any calls, on the error paths too.
-/

namespace MamePlugins.Util

open Library

/-- What a call hands out and takes back, if it returns. -/
def MemOp.transfers : MemOp → List (Transfer Pointer (BitVec 8))
  | .xcalloc answer nbytes => [.handedOut answer (List.replicate nbytes 0)]
  | .xmalloc answer _ => [.handedOut answer.address answer.content]
  | .xrealloc answer mem _ =>
    (if mem = 0 then [] else [.givenBack mem]) ++ [.handedOut answer.address answer.content]
  | .strDup answer str => [.handedOut answer.address (bufferText str ++ [0])]
  | .wstrDup answer wstr =>
    [.handedOut answer.address (charBytes (k := 2) (bufferText wstr ++ [0]))]
  | .strWiden _ answer conversion =>
    [.handedOut answer.address (charBytes conversion.written ++
      answer.content.drop (charBytes conversion.written).length)]
  | .wstrNarrow nbytes answer conversion _ =>
    if nbytes.sle 0 ∨ conversion.result ≠ nbytes then []
    else [.handedOut answer.address (charBytes conversion.written ++
      answer.content.drop (charBytes conversion.written).length)]
  | .free mem => if mem = 0 then [] else [.givenBack mem]

/-- What `wstr_narrow` returns, and what is in `*dest` then, which was `dest` before. -/
def narrowed (nbytes : BitVec 32) (answer : Grant) (conversion : Conversion 1)
    (dest : Pointer) : Bool × Pointer :=
  if nbytes.sle 0 then (false, dest)
  else if conversion.result ≠ nbytes then (false, 0)
  else (true, answer.address)

/-- What a call returns, if it does. -/
def MemOp.result : MemOp → MemResult
  | .xcalloc answer _ => .pointer answer
  | .xmalloc answer _ | .xrealloc answer _ _ | .strDup answer _ | .wstrDup answer _
  | .strWiden _ answer _ => .pointer answer.address
  | .wstrNarrow nbytes answer conversion dest =>
    .narrowed (narrowed nbytes answer conversion dest).1
      (narrowed nbytes answer conversion dest).2
  | .free _ => .none

/-- A call that does not return: a request for memory is not met, or `str_widen` cannot
convert. -/
def MemOp.fails : MemOp → Bool
  | .xcalloc answer _ => answer = 0
  | .xmalloc answer _ | .xrealloc answer _ _ | .strDup answer _ | .wstrDup answer _ =>
    answer.address = 0
  | .strWiden nchars answer conversion =>
    nchars = 0 ∨ answer.address = 0 ∨ conversion.result = 0
  | .wstrNarrow nbytes answer _ _ => ¬nbytes.sle 0 ∧ answer.address = 0
  | .free _ => false

/-- The caller gives back only blocks in use, or null, its texts are terminated, and a
conversion never says that it needs a negative size. -/
def MemOp.Proper (m : Memory) : MemOp → Prop
  | .xrealloc _ mem _ | .free mem => mem = 0 ∨ (m mem).isSome
  | .strDup _ str => 0 ∈ str
  | .wstrDup _ wstr => 0 ∈ wstr
  | .strWiden nchars _ _ => 0 ≤ nchars.toInt
  | _ => True

/-! ### Outcomes -/

/-- What comes of a computation: the process ends only if it fails, and otherwise the
value is returned, with a fact about the system's answers. -/
inductive Outcome {α : Type} (fails post : Prop) (a : α) : Except Halt α → Prop
  | impossible : Outcome fails post a (.error .impossible)
  | ended (h : fails) (ending : Ending) : Outcome fails post a (.error (.ended ending))
  | returned (h : ¬fails) (hpost : post) : Outcome fails post a (.ok a)

section Outcome

variable {α β : Type} {fails post post' : Prop} {a : α} {b : β} {r : Except Halt α}

theorem Outcome.bind {f : α → Except Halt β} (h : Outcome fails post a r) (fails' : Prop)
    (hf : ¬fails → post → Outcome fails' post' b (f a)) :
    Outcome (fails ∨ fails') post' b (r.bind f) := by
  cases h with
  | impossible => exact .impossible
  | ended h ending => exact .ended (Or.inl h) ending
  | returned h hpost =>
    have hrest := hf h hpost
    show Outcome (fails ∨ fails') post' b (f a)
    generalize f a = r at hrest ⊢
    cases hrest with
    | impossible => exact .impossible
    | ended h' ending => exact .ended (Or.inr h') ending
    | returned h' hpost' => exact .returned (not_or.mpr ⟨h, h'⟩) hpost'

theorem Outcome.map (h : Outcome fails post a r) (f : α → β) :
    Outcome fails post (f a) (r.map f) := by
  cases h with
  | impossible => exact .impossible
  | ended h ending => exact .ended h ending
  | returned h hpost => exact .returned h hpost

theorem Outcome.congr {fails' : Prop} (h : Outcome fails post a r) (hfails : fails ↔ fails') :
    Outcome fails' post a r := by
  rwa [propext hfails] at h

theorem Outcome.weaken (h : Outcome fails post a r) (hpost : post → post') :
    Outcome fails post' a r := by
  cases h with
  | impossible => exact .impossible
  | ended h ending => exact .ended h ending
  | returned h hold => exact .returned h (hpost hold)

end Outcome

/-! ### Characters and their bytes -/

variable {k : ℕ} {chars chars' : List (BitVec (8 * k))}

theorem charBytes_append : charBytes (chars ++ chars') = charBytes chars ++ charBytes chars' :=
  List.flatMap_append

theorem length_charBytes (chars : List (BitVec (8 * k))) :
    (charBytes chars).length = chars.length * k := by
  simp [charBytes, List.length_flatMap]

/-- Characters of one byte. -/
theorem charBytes_one (chars : List (BitVec 8)) : charBytes (k := 1) chars = chars := by
  induction chars with
  | nil => rfl
  | cons c chars ih =>
    have hbyte : c.extractLsb' 0 8 = c := BitVec.extractLsb'_eq_self
    rw [charBytes, List.flatMap_cons, ← charBytes, ih]
    exact congrArg (· :: chars) hbyte

/-! ### Blocks -/

variable {m : Memory} {answer : Grant} {p mem : Pointer} {size nbytes : ℕ}
  {src content : List (BitVec 8)}

theorem memcpy_eq (hblock : size ≤ content.length) (hsrc : size ≤ src.length) :
    memcpy p src size (Transfer.apply m (.handedOut p content)) =
      .ok (Transfer.apply m (.handedOut p (src.take size ++ content.drop size))) := by
  have hcopy : copyInto content 0 src size = some (src.take size ++ content.drop size) := by
    rw [copyInto, if_pos ⟨by omega, hsrc⟩, List.take_zero, List.nil_append, Nat.zero_add]
  have hself : Transfer.apply m (.handedOut p content) p = some content :=
    Function.update_self ..
  rw [memcpy, hself]
  show ((defined (copyInto content 0 src size)).bind fun block => _) = _
  rw [hcopy]
  exact congrArg Except.ok (Function.update_idem ..)

/-- A request that is fatal if it is not met. -/
theorem malloc_outcome (answer : Grant) (size : ℕ) (m : Memory) (format : String)
    (args : List ℕ) :
    Outcome (answer.address = 0) (answer.Meets size m)
      (answer.address, Transfer.apply m (.handedOut answer.address answer.content))
      ((malloc answer size m).bind (orFatal format args)) := by
  by_cases hnull : answer.address = 0
  · rw [malloc, if_pos hnull]
    exact .ended hnull _
  · rw [malloc, if_neg hnull]
    by_cases hmeets : answer.Meets size m
    · have hreturned (m' : Memory) :
          orFatal format args (answer.address, m') = .ok (answer.address, m') := if_neg hnull
      rw [if_pos hmeets, Except.bind, hreturned]
      exact .returned hnull hmeets
    · rw [if_neg hmeets]
      exact .impossible

theorem xmalloc_outcome (answer : Grant) (nbytes : ℕ) (m : Memory) :
    Outcome (answer.address = 0) (answer.Meets nbytes m)
      (answer.address, Transfer.apply m (.handedOut answer.address answer.content))
      (xmalloc answer nbytes m) :=
  malloc_outcome answer nbytes m _ _

theorem xcalloc_outcome (answer : Pointer) (nbytes : ℕ) (m : Memory) :
    Outcome (answer = 0) True
      (answer, Transfer.apply m (.handedOut answer (List.replicate nbytes 0)))
      (xcalloc answer nbytes m) := by
  have h := malloc_outcome ⟨answer, List.replicate (nbytes * 1) 0⟩ (nbytes * 1) m
    "xcalloc(%u) failed" [nbytes % 2 ^ 32]
  rw [Nat.mul_one] at h
  have hcalloc : xcalloc answer nbytes m =
      (malloc ⟨answer, List.replicate nbytes 0⟩ nbytes m).bind
        (orFatal "xcalloc(%u) failed" [nbytes % 2 ^ 32]) := by
    rw [xcalloc, calloc, Nat.mul_one]
    rfl
  rw [hcalloc]
  exact h.weaken fun _ => trivial

/-- `xrealloc` takes the old block back and hands out the new one. -/
theorem xrealloc_outcome (hmem : mem = 0 ∨ (m mem).isSome) :
    Outcome (answer.address = 0) True
      (answer.address, settle m (MemOp.xrealloc answer mem nbytes).transfers)
      (xrealloc answer mem nbytes m) := by
  rw [xrealloc, realloc, MemOp.transfers]
  by_cases hnull : mem = 0
  · rw [if_pos hnull, if_pos hnull]
    exact (malloc_outcome answer nbytes m _ _).weaken fun _ => trivial
  · obtain ⟨old, hold⟩ := Option.isSome_iff_exists.mp (hmem.resolve_left hnull)
    rw [if_neg hnull, if_neg hnull, hold]
    show Outcome _ _ _ (Except.bind (if answer.address = 0 then .ok (0, m) else _) _)
    by_cases hfails : answer.address = 0
    · rw [if_pos hfails]
      exact .ended hfails _
    · rw [if_neg hfails]
      split_ifs with hkept
      · exact (malloc_outcome answer nbytes _ _ _).weaken fun _ => trivial
      · exact .impossible

/-! ### Texts -/

/-- A copy of a text has its characters and the null, and nothing else. -/
theorem dupText_outcome {str : List (BitVec (8 * k))} (hstr : 0 ∈ str) (answer : Grant)
    (m : Memory) :
    Outcome (answer.address = 0) True
      (answer.address, Transfer.apply m
        (.handedOut answer.address (charBytes (bufferText str ++ [0]))))
      (dupText answer str m) := by
  obtain ⟨-, rest, hrest⟩ := reads_bufferText hstr
  have hsize : (charBytes (bufferText str ++ [0])).length =
      ((bufferText str).length + 1) * k := by
    rw [length_charBytes, List.length_append, List.length_singleton]
  have hbytes : charBytes str = charBytes (bufferText str ++ [0]) ++ charBytes rest := by
    rw [← charBytes_append, List.append_assoc, List.singleton_append, ← hrest]
  rw [dupText, (reads_bufferText hstr).textLength_eq]
  refine ((xmalloc_outcome answer _ m).bind False fun _ hmeets => ?_).congr
    (Iff.of_eq (or_false _))
  have hsrc : ((bufferText str).length + 1) * k ≤ (charBytes str).length := by
    rw [hbytes, List.length_append, hsize]
    exact Nat.le_add_right ..
  show Outcome _ _ _ (Except.bind (memcpy _ _ _ _) _)
  rw [memcpy_eq hmeets.2.ge hsrc, hbytes, List.take_left' hsize,
    List.drop_of_length_le hmeets.2.le, List.append_nil]
  exact .returned not_false trivial

/-- A conversion stays inside a block that has the size it is told, and leaves what is
behind its own characters. -/
theorem Conversion.into_outcome (answer : Conversion k) {size : BitVec 32}
    (hblock : size.toInt.toNat * k ≤ content.length) :
    Outcome False True
      (answer.result, Transfer.apply m (.handedOut p (charBytes answer.written ++
        content.drop (charBytes answer.written).length)))
      (answer.into p size (Transfer.apply m (.handedOut p content))) := by
  rw [Conversion.into]
  split_ifs with hfits
  · have hroom : (charBytes answer.written).length ≤ content.length := by
      rw [length_charBytes]
      exact le_trans (Nat.mul_le_mul_right k (by omega)) hblock
    rw [memcpy_eq hroom le_rfl, List.take_length]
    exact .returned not_false trivial
  · exact .impossible

/-- A size that is not negative, as a `size_t`. -/
theorem toNat_signExtend {n : BitVec 32} (h : 0 ≤ n.toInt) :
    (n.signExtend 64).toNat = n.toInt.toNat := by
  have hmsb : n.msb = false := by
    rw [BitVec.msb_eq_toInt]
    simpa using h
  rw [BitVec.signExtend_eq_setWidth_of_msb_false hmsb, BitVec.toInt_eq_toNat_of_msb hmsb,
    BitVec.toNat_setWidth_of_le (by decide), Int.toNat_natCast]

theorem strWiden_outcome {nchars : BitVec 32} (hnchars : 0 ≤ nchars.toInt)
    (answer : Grant) (conversion : Conversion 2) (m : Memory) :
    Outcome (nchars = 0 ∨ answer.address = 0 ∨ conversion.result = 0) True
      (answer.address, settle m (MemOp.strWiden nchars answer conversion).transfers)
      (strWiden nchars answer conversion m) := by
  rw [strWiden]
  by_cases hzero : nchars = 0
  · rw [if_pos hzero]
    exact .ended (Or.inl hzero) _
  · rw [if_neg hzero]
    have hsize : (nchars.signExtend 64 * 2).toNat = nchars.toInt.toNat * 2 := by
      have hlt := nchars.toInt_lt
      rw [BitVec.toNat_mul, toNat_signExtend hnchars]
      exact Nat.mod_eq_of_lt (by simp; omega)
    refine ((xmalloc_outcome answer _ m).bind (conversion.result = 0)
      fun _ hmeets => ?_).congr (by rw [or_iff_right hzero])
    refine ((conversion.into_outcome (by rw [hmeets.2, hsize])).bind _ fun _ _ => ?_).congr
      (Iff.of_eq (false_or _))
    show Outcome _ _ _ (if conversion.result = 0 then _ else _)
    split_ifs with hresult
    · exact .ended hresult _
    · exact .returned hresult trivial

/-- A block that is freed at once leaves nothing behind. -/
theorem free_handedOut (hp : p ≠ 0) (hunused : m p = none) :
    free p (Transfer.apply m (.handedOut p content)) = .ok m := by
  have hself : Transfer.apply m (.handedOut p content) p = some content :=
    Function.update_self ..
  have hback : Function.update (Transfer.apply m (.handedOut p content)) p none = m := by
    rw [Transfer.apply, Transfer.address, Function.update_idem, ← hunused,
      Function.update_eq_self]
  rw [free, if_neg hp, hself]
  exact congrArg Except.ok hback

/-- `wstr_narrow` frees its block again if the conversion is not as long as it was said to
be. -/
theorem wstrNarrow_outcome (nbytes : BitVec 32) (answer : Grant) (conversion : Conversion 1)
    (dest : Pointer) (m : Memory) :
    Outcome (¬nbytes.sle 0 ∧ answer.address = 0) True
      (narrowed nbytes answer conversion dest,
        settle m (MemOp.wstrNarrow nbytes answer conversion dest).transfers)
      (wstrNarrow nbytes answer conversion dest m) := by
  rw [wstrNarrow, MemOp.transfers, narrowed]
  by_cases hsize : nbytes.sle 0 = true
  · simp only [hsize, if_true, true_or]
    exact .returned (fun h => h.1 trivial) trivial
  · have hnbytes : 0 ≤ nbytes.toInt := by
      rw [BitVec.sle_iff_toInt_le] at hsize
      exact le_of_lt (not_le.mp hsize)
    simp only [hsize, Bool.false_eq_true, if_false, false_or]
    refine ((xmalloc_outcome answer _ m).bind False fun hfails hmeets => ?_).congr
      (by simp)
    have hblock : nbytes.toInt.toNat * 1 ≤ answer.content.length := by
      rw [hmeets.2, toNat_signExtend hnbytes, Nat.mul_one]
    refine ((conversion.into_outcome hblock).bind _ fun _ _ => ?_).congr (Iff.of_eq (false_or _))
    show Outcome _ _ _ (if conversion.result ≠ nbytes then _ else _)
    split_ifs with hresult
    · rw [free_handedOut hfails hmeets.1]
      exact .returned not_false trivial
    · exact .returned not_false trivial

/-! ### Runs -/

theorem free_outcome (hmem : mem = 0 ∨ (m mem).isSome) :
    Outcome False True (settle m (MemOp.free mem).transfers) (free mem m) := by
  rw [free, MemOp.transfers]
  by_cases hnull : mem = 0
  · rw [if_pos hnull, if_pos hnull]
    exact .returned not_false trivial
  · obtain ⟨block, hblock⟩ := Option.isSome_iff_exists.mp (hmem.resolve_left hnull)
    rw [if_neg hnull, if_neg hnull, hblock]
    exact .returned not_false trivial

/-- A call does what its transfers say, or ends the process. -/
theorem AllocState.step_outcome {s : AllocState} {op : MemOp} (h : op.Proper s.memory) :
    Outcome (op.fails = true) True ⟨settle s.memory op.transfers, s.results ++ [op.result]⟩
      (s.step op) := by
  cases op with
  | xcalloc answer nbytes =>
    exact ((xcalloc_outcome answer nbytes s.memory).map s.returnPointer).congr
      decide_eq_true_iff.symm
  | xmalloc answer nbytes =>
    exact (((xmalloc_outcome answer nbytes s.memory).map s.returnPointer).weaken
      fun _ => trivial).congr decide_eq_true_iff.symm
  | xrealloc answer mem nbytes =>
    exact ((xrealloc_outcome h).map s.returnPointer).congr decide_eq_true_iff.symm
  | strDup answer str =>
    have houtcome := dupText_outcome (k := 1) h answer s.memory
    rw [charBytes_one] at houtcome
    exact (houtcome.map s.returnPointer).congr decide_eq_true_iff.symm
  | wstrDup answer wstr =>
    exact ((dupText_outcome (k := 2) h answer s.memory).map s.returnPointer).congr
      decide_eq_true_iff.symm
  | strWiden nchars answer conversion =>
    exact ((strWiden_outcome h answer conversion s.memory).map s.returnPointer).congr
      decide_eq_true_iff.symm
  | wstrNarrow nbytes answer conversion dest =>
    exact ((wstrNarrow_outcome nbytes answer conversion dest s.memory).map
      s.returnNarrowed).congr decide_eq_true_iff.symm
  | free mem =>
    exact ((free_outcome h).map s.returnVoid).congr (iff_of_false not_false Bool.false_ne_true)

/-- Calls do what their transfers say, up to the first that ends the process. -/
theorem AllocState.run_outcome {s : AllocState} {ops : List MemOp}
    (h : EveryStep AllocState.step (fun s op => op.Proper s.memory) s ops) :
    Outcome (∃ op ∈ ops, op.fails = true) True
      ⟨settle s.memory (ops.flatMap MemOp.transfers), s.results ++ ops.map MemOp.result⟩
      (s.run ops) := by
  induction ops generalizing s with
  | nil =>
    have hnil : (⟨settle s.memory [], s.results ++ []⟩ : AllocState) = s := by
      rw [List.append_nil]
      rfl
    rw [List.flatMap_nil, List.map_nil, hnil]
    exact .returned (by simp) trivial
  | cons op ops ih =>
    obtain ⟨hop, hrest⟩ := h
    have hstep := AllocState.step_outcome hop
    rw [List.flatMap_cons, List.map_cons, settle_append, List.append_cons, AllocState.run,
      runEvents]
    generalize hs : s.step op = r at hstep
    cases hstep with
    | impossible => exact .impossible
    | ended hfails ending => exact .ended ⟨op, List.mem_cons_self, hfails⟩ ending
    | returned hfails hpost =>
      refine (ih (hrest _ hs)).congr ?_
      rw [List.exists_mem_cons_iff, or_iff_right hfails]

/-- **No block is lost.** For every sequence of calls of the allocating functions, with any
answers that the system may give, by a caller that gives back only what is in use: if no
request for memory is refused and no text cannot be widened, then all calls return, never
null for a block, and what is in use in the end is exactly what was handed out and has not
been given back, with the contents that it was handed out with. Otherwise the process
ends. Nothing is ever accessed outside of its block. -/
theorem memory_is_accounted (ops : List MemOp)
    (hproper : EveryStep AllocState.step (fun s op => op.Proper s.memory) .load ops)
    (hpossible : AllocState.load.run ops ≠ .error .impossible) :
    ((∀ op ∈ ops, op.fails = false) → ∃ s, AllocState.load.run ops = .ok s ∧
      s.results = ops.map MemOp.result ∧
      ∀ p content, s.memory p = some content ↔
        ∃ before after, ops.flatMap MemOp.transfers = before ++ .handedOut p content :: after ∧
          ∀ t ∈ after, t.address ≠ p) ∧
      ((∃ op ∈ ops, op.fails = true) →
        ∃ ending, AllocState.load.run ops = .error (.ended ending)) := by
  have houtcome := AllocState.run_outcome hproper
  generalize hr : AllocState.load.run ops = r at houtcome hpossible
  cases houtcome with
  | impossible => exact absurd rfl hpossible
  | ended hfails ending =>
    refine ⟨fun h => ?_, fun _ => ⟨ending, rfl⟩⟩
    obtain ⟨op, hop, hop'⟩ := hfails
    rw [h op hop] at hop'
    cases hop'
  | returned hfails hpost =>
    exact ⟨fun _ => ⟨_, rfl, List.nil_append _, fun p content => settle_eq_some_iff⟩,
      fun h => absurd h hfails⟩

/-- A copy of a text, a conversion that fails half-way, and the copy freed. -/
theorem memory_is_accounted_narrow :
    ∃ s, AllocState.load.run [.strDup ⟨8, [1, 1, 1]⟩ [0x68, 0x69, 0, 7],
        .wstrNarrow 2 ⟨16, [1, 1]⟩ ⟨0, [0x61]⟩ 5, .free 8] = .ok s ∧
      s.results = [.pointer 8, .narrowed false 0, .none] := by
  have hproper : EveryStep AllocState.step (fun s op => op.Proper s.memory) .load
      [.strDup ⟨8, [1, 1, 1]⟩ [0x68, 0x69, 0, 7],
        .wstrNarrow 2 ⟨16, [1, 1]⟩ ⟨0, [0x61]⟩ 5, .free 8] := by
    refine ⟨(by decide : (0 : BitVec 8) ∈ [0x68, 0x69, 0, 7]), fun s hs => ⟨trivial, fun s' hs' =>
      ⟨Or.inr ?_, fun _ _ => trivial⟩⟩⟩
    cases hs
    cases hs'
    rfl
  obtain ⟨s, hrun, hresults, -⟩ :=
    (memory_is_accounted _ hproper (fun h => by cases h)).1 (by decide)
  exact ⟨s, hrun, hresults⟩

end MamePlugins.Util
