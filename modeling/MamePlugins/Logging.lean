import MamePlugins.Ddrio.LuaBind
import MamePlugins.Util.LogHistory

/-!
# What the backends log

A binding sets the logger up when it initialises its backend, and hands the backend the
formatters. From then on the messages of the backend are mixed with the calls of the
plugin. This file determines which of them are printed.
-/

namespace MamePlugins

open Library Util

/-- A use of the logger in a process that has the writers and formatters of `log.c` only. -/
abbrev BindLogOp := LogOp Empty Empty

/-- What a call of the binding does to the logger. -/
def Ddrio.DdrIoCall.logOps : Ddrio.DdrIoCall → List BindLogOp
  | .logSetLevel newLevel => [.setLevel newLevel]
  | .logToWriterStdout => [.toWriter (some .stdout) 0]
  | _ => []

def Ddrio.Call.logOps (c : Ddrio.Call) : List BindLogOp :=
  (c.native.getD []).flatMap Ddrio.DdrIoCall.logOps

/-- `iidx_io_lua_init` sets no level. -/
def Iidxio.Call.logOps : Iidxio.Call → List BindLogOp
  | .iidxioInit _ => [.toWriter (some .stdout) 0]
  | _ => []

/-- A message of a backend, for the formatter of a severity that it was handed. -/
structure BackendMessage where
  severity : Severity
  moduleName : CString
  text : List (BitVec 8)

def BackendMessage.logOp (m : BackendMessage) : BindLogOp :=
  .handedOut (.builtin m.severity) m.moduleName m.text

variable {κ : Type} {logOps : κ → List BindLogOp} {hs : List (κ ⊕ BackendMessage)}

/-- The uses of the logger by the calls of a plugin and the messages of its backend. -/
def mixed (logOps : κ → List BindLogOp) (hs : List (κ ⊕ BackendMessage)) : List BindLogOp :=
  hs.flatMap (Sum.elim logOps fun m => [m.logOp])

theorem mixed_cons (h : κ ⊕ BackendMessage) :
    mixed logOps (h :: hs) = mixed logOps [h] ++ mixed logOps hs := by
  rw [mixed, ← List.singleton_append, List.flatMap_append]
  rfl

/-- The process does not survive the message. -/
def BackendMessage.Ends (m : BackendMessage) : Prop :=
  m.severity = .fatal ∨ ¬LineFits m.moduleName m.text

instance (m : BackendMessage) : Decidable m.Ends := inferInstanceAs (Decidable (_ ∨ _))

/-- The messages up to a level, as far as the process gets. -/
def logged (level : BitVec 32) : List BackendMessage → List LogRecord
  | [] => []
  | m :: ms =>
    (if LineFits m.moduleName m.text ∧ m.severity.level ≤ level then
      [⟨m.severity, m.moduleName, CString.ofBuffer m.text⟩] else []) ++
      if m.Ends then [] else logged level ms

/-- Messages up to a level are printed and no others, and the process survives all but
those that are fatal or do not fit. -/
structure PrintsUpTo (v : Vsnprintf) (level : BitVec 32) (ops : List BindLogOp)
    (ms : List BackendMessage) : Prop where
  sent : ∀ d, sent LogOutput.delivery d (LogProcess.load.run v ops).output =
    if d = .stdout then (logged level ms).map LogRecord.line else []
  running : (LogProcess.load.run v ops).running = true ↔ ∀ m ∈ ms, ¬m.Ends

/-! ### The logger before a message -/

/-- The logger is set up. -/
structure SetUp (level : BitVec 32) (before : List BindLogOp) : Prop where
  destination : destinationAfter before = some .stdout
  level : levelAfter before = level

/-- A setting that is always made the same way. -/
theorem lastOr_eq {α : Type} {setting : BindLogOp → Option α} {default a : α}
    {before : List BindLogOp} (h : ∀ op ∈ before, ∀ b, setting op = some b → b = a)
    (hmade : default = a ∨ ∃ op ∈ before, setting op = some a) :
    lastOr setting default before = a := by
  rw [lastOr]
  cases hlast : (before.filterMap setting).getLast? with
  | none =>
    rw [List.getLast?_eq_none_iff, List.filterMap_eq_nil_iff] at hlast
    refine hmade.resolve_right ?_
    rintro ⟨op, hop, hset⟩
    rw [hlast op hop] at hset
    cases hset
  | some b =>
    obtain ⟨op, hop, hset⟩ := List.mem_filterMap.mp (List.mem_of_getLast? hlast)
    exact h op hop b hset

/-! ### Messages -/

/-- The calls log nothing themselves. -/
def Quiet (ops : List BindLogOp) : Prop := ∀ op ∈ ops, ∀ before, op.request before = none

theorem ends_of_quiet {op : BindLogOp} {before : List BindLogOp} (h : op.request before = none) :
    op.ends before = false := by
  rw [LogOp.ends, h]
  cases op with
  | message severity moduleName text => cases h
  | _ => rfl

theorem recordsTo_quiet {d : Destination Empty} {before ops ops' : List BindLogOp}
    (h : Quiet ops) : recordsTo d before (ops ++ ops') = recordsTo d (before ++ ops) ops' := by
  induction ops generalizing before with
  | nil => rw [List.nil_append, List.append_nil]
  | cons op ops ih =>
    have hop := h op List.mem_cons_self before
    have hrecord : op.recordTo d before = [] := by
      rw [LogOp.recordTo, LogOp.record, hop]
      exact ite_self _
    rw [List.cons_append, recordsTo, hrecord, ends_of_quiet hop, List.nil_append,
      if_neg Bool.false_ne_true, ih fun op' hop' => h op' (List.mem_cons_of_mem _ hop'),
      ← List.append_cons]

theorem BackendMessage.logOp_ends (m : BackendMessage) (before : List BindLogOp) :
    m.logOp.ends before = decide m.Ends := by
  rw [LogOp.ends]
  exact Bool.false_or _

/-- The record of a message, if the logger is set up. -/
theorem BackendMessage.logOp_recordTo {level : BitVec 32} {before : List BindLogOp}
    (h : SetUp level before) (m : BackendMessage) (d : Destination Empty) :
    m.logOp.recordTo d before =
      if d = .stdout then
        if LineFits m.moduleName m.text ∧ m.severity.level ≤ level then
          [⟨m.severity, m.moduleName, CString.ofBuffer m.text⟩] else []
      else [] := by
  have hrecord : m.logOp.record before =
      if LineFits m.moduleName m.text ∧ m.severity.level ≤ level then
        some ⟨m.severity, m.moduleName, CString.ofBuffer m.text⟩ else none := by
    rw [← h.level]
    rfl
  rw [LogOp.recordTo, h.destination, hrecord]
  simp only [Option.some.injEq, eq_comm (a := Destination.stdout)]
  split_ifs <;> rfl

/-- The records of the messages, if the logger is set up before each of them. -/
theorem recordsTo_mixed {level : BitVec 32} {before : List BindLogOp} (d : Destination Empty)
    (hquiet : ∀ c, .inl c ∈ hs → Quiet (logOps c))
    (hsetUp : ∀ hs₁ m hs₂, hs = hs₁ ++ .inr m :: hs₂ → SetUp level (before ++ mixed logOps hs₁)) :
    recordsTo d before (mixed logOps hs) =
      if d = .stdout then logged level (hs.filterMap Sum.getRight?) else [] := by
  induction hs generalizing before with
  | nil => exact (ite_self _).symm
  | cons h hs ih =>
    have hquiet' (c : κ) (hc : .inl c ∈ hs) : Quiet (logOps c) :=
      hquiet c (List.mem_cons_of_mem _ hc)
    have hsetUp' (hs₁ : List (κ ⊕ BackendMessage)) (m : BackendMessage)
        (hs₂ : List (κ ⊕ BackendMessage)) (heq : hs = hs₁ ++ .inr m :: hs₂) :
        SetUp level (before ++ mixed logOps [h] ++ mixed logOps hs₁) := by
      have hcons := hsetUp (h :: hs₁) m hs₂ (by rw [heq, List.cons_append])
      rwa [mixed_cons, ← List.append_assoc] at hcons
    have hrest := ih hquiet' hsetUp'
    rw [mixed_cons]
    cases h with
    | inl c =>
      have hcalls : Quiet (mixed logOps [.inl c]) := by
        rw [mixed, List.flatMap_singleton]
        exact hquiet c List.mem_cons_self
      rw [recordsTo_quiet hcalls, hrest]
      rfl
    | inr m =>
      have hready : SetUp level before := by
        have hm := hsetUp [] m hs rfl
        rwa [mixed, List.flatMap_nil, List.append_nil] at hm
      have hmessage : mixed logOps [.inr m] = [m.logOp] := List.flatMap_singleton ..
      rw [hmessage] at hrest ⊢
      rw [List.singleton_append, recordsTo, m.logOp_recordTo hready, m.logOp_ends, hrest]
      show _ = if d = .stdout then logged level (m :: hs.filterMap Sum.getRight?) else []
      rw [logged]
      by_cases hd : d = .stdout
      · simp only [hd, if_true, decide_eq_true_eq]
      · simp only [hd, if_false, ite_self, List.append_nil]

/-- Messages are printed if the logger is set up before each of them. -/
theorem printsUpTo_mixed (v : Vsnprintf) {level : BitVec 32}
    (hquiet : ∀ c, .inl c ∈ hs → Quiet (logOps c))
    (hsetUp : ∀ hs₁ m hs₂, hs = hs₁ ++ .inr m :: hs₂ → SetUp level (mixed logOps hs₁)) :
    PrintsUpTo v level (mixed logOps hs) (hs.filterMap Sum.getRight?) := by
  obtain ⟨hsent, hrunning⟩ :=
    LogProcess.load.run_follows v rfl Logger.load_follows (mixed logOps hs)
  refine ⟨fun d => ?_, hrunning.trans ⟨fun h m hm => ?_, fun h ops₁ op ops₂ heq => ?_⟩⟩
  · rw [hsent, recordsTo_mixed d hquiet hsetUp]
    split_ifs <;> rfl
  · obtain ⟨hm', hmem, hright⟩ := List.mem_filterMap.mp hm
    obtain rfl := Sum.getRight?_eq_some_iff.mp hright
    obtain ⟨hs₁, hs₂, rfl⟩ := List.append_of_mem hmem
    have hends := h (mixed logOps hs₁) m.logOp (mixed logOps hs₂) (by simp [mixed])
    rw [m.logOp_ends] at hends
    simpa using hends
  · have hop : op ∈ mixed logOps hs := by simp [heq]
    obtain ⟨hm, hmem, hop⟩ := List.mem_flatMap.mp hop
    cases hm with
    | inl c => exact ends_of_quiet (hquiet c hmem op hop _)
    | inr m =>
      rw [List.mem_singleton.mp hop, m.logOp_ends]
      simpa using h m (List.mem_filterMap.mpr ⟨_, hmem, rfl⟩)

/-! ### The plugins -/

/-- The uses of the logger only set it up, always the same way. -/
def OnlySetsUp (level : BitVec 32) (ops : List BindLogOp) : Prop :=
  ∀ op ∈ ops, op = .setLevel level ∨ op = .toWriter (some .stdout) 0

theorem OnlySetsUp.quiet {level : BitVec 32} {ops : List BindLogOp} (h : OnlySetsUp level ops) :
    Quiet ops := by
  intro op hop before
  rcases h op hop with rfl | rfl <;> rfl

/-- What sets the logger up leaves it so. -/
theorem setUp_mixed {level : BitVec 32} (hsets : ∀ c, .inl c ∈ hs → OnlySetsUp level (logOps c))
    (hwriter : ∃ c, .inl c ∈ hs ∧ .toWriter (some .stdout) 0 ∈ logOps c)
    (hlevel : level = 4 ∨ ∃ c, .inl c ∈ hs ∧ .setLevel level ∈ logOps c) :
    SetUp level (mixed logOps hs) := by
  have hop : ∀ op ∈ mixed logOps hs, op = .setLevel level ∨ op = .toWriter (some .stdout) 0 ∨
      ∃ m : BackendMessage, op = m.logOp := by
    intro op hop
    obtain ⟨hm, hmem, hop⟩ := List.mem_flatMap.mp hop
    cases hm with
    | inl c => exact (hsets c hmem op hop).imp_right Or.inl
    | inr m => exact Or.inr (Or.inr ⟨m, List.mem_singleton.mp hop⟩)
  have hcall {op : BindLogOp} : (∃ c, .inl c ∈ hs ∧ op ∈ logOps c) → op ∈ mixed logOps hs :=
    fun ⟨c, hmem, hop⟩ => List.mem_flatMap.mpr ⟨.inl c, hmem, hop⟩
  constructor
  · have hstdout : lastOr LogOp.writer .null (mixed logOps hs) = .stdout := by
      refine lastOr_eq (fun op hmem writer hset => ?_) (Or.inr ⟨_, hcall hwriter, rfl⟩)
      rcases hop op hmem with rfl | rfl | ⟨m, rfl⟩ <;> cases hset
      rfl
    rw [destinationAfter, hstdout]
    rfl
  · refine lastOr_eq (fun op hmem newLevel hset => ?_)
      (hlevel.imp Eq.symm fun h => ⟨_, hcall h, rfl⟩)
    rcases hop op hmem with rfl | rfl | ⟨m, rfl⟩ <;> cases hset
    rfl

theorem Ddrio.Call.init_logOps (result : Bool) :
    (Ddrio.Call.ddrIoInit Ddrio.ddrioLogLevelInfo result).logOps =
      [.setLevel 2, .toWriter (some .stdout) 0] :=
  rfl

/-- The calls of the dance plugin set the logger up the same way. -/
theorem Ddrio.Call.Regular.onlySetsUp {c : Ddrio.Call} (h : c.Regular) :
    OnlySetsUp 2 c.logOps := by
  have hnone {c : Ddrio.Call} (hlogOps : c.logOps = []) : OnlySetsUp 2 c.logOps := by
    rw [hlogOps]
    exact fun op hop => absurd hop List.not_mem_nil
  obtain ⟨calls, harrives⟩ := h.arrives
  cases c with
  | ddrIoInit logLevel result =>
    obtain rfl : logLevel = Ddrio.ddrioLogLevelInfo := h
    rw [Ddrio.Call.init_logOps]
    simp [OnlySetsUp]
  | ddrIoFini => exact hnone rfl
  | ddrIoReadPad pad => exact hnone rfl
  | ddrIoSetLightsExtio light =>
    obtain ⟨lights, hcalls, -⟩ := harrives.light .extio light rfl
    exact hnone (by rw [Ddrio.Call.logOps, harrives.native, hcalls]; rfl)
  | ddrIoSetLightsP3io light =>
    obtain ⟨lights, hcalls, -⟩ := harrives.light .p3io light rfl
    exact hnone (by rw [Ddrio.Call.logOps, harrives.native, hcalls]; rfl)
  | ddrIoSetLightsHdxsPanel light =>
    exact hnone (by rw [Ddrio.Call.logOps, harrives.native, harrives.panel light rfl]; rfl)
  | ddrIoSetLightsHdxsRgb idx r g b =>
    exact hnone (by rw [Ddrio.Call.logOps, harrives.native, (harrives.rgb idx r g b rfl).2]; rfl)

theorem Iidxio.Call.onlySetsUp (c : Iidxio.Call) : OnlySetsUp 4 c.logOps := by
  cases c <;> simp [OnlySetsUp, Iidxio.Call.logOps]

/-- **What the backends log is printed.** Mix the calls of any run of the dance plugin with
messages of its backend, which it can log once `ddrio_init` has given it the formatters:
the messages up to level two are printed, in their order, nothing arrives anywhere else,
and the process survives all messages but those that are fatal or do not fit. For any
calls and messages of the other plugin the same holds with level four. -/
theorem backend_messages_are_printed (v : Vsnprintf) (es : List Ddrio.Event) {s : Ddrio.State}
    (hrun : Ddrio.run .load es = .ok s) (hs : List (Ddrio.Call ⊕ BackendMessage))
    (hcalls : hs.filterMap Sum.getLeft? = s.calls)
    (hinit : ∀ hs₁ m hs₂, hs = hs₁ ++ .inr m :: hs₂ →
      ∃ logLevel result, .inl (.ddrIoInit logLevel result) ∈ hs₁)
    (hs' : List (Iidxio.Call ⊕ BackendMessage))
    (hinit' : ∀ hs₁ m hs₂, hs' = hs₁ ++ .inr m :: hs₂ →
      ∃ result, .inl (.iidxioInit result) ∈ hs₁) :
    PrintsUpTo v 2 (mixed Ddrio.Call.logOps hs) (hs.filterMap Sum.getRight?) ∧
      PrintsUpTo v 4 (mixed Iidxio.Call.logOps hs') (hs'.filterMap Sum.getRight?) := by
  have hregular (c : Ddrio.Call) (hc : .inl c ∈ hs) : c.Regular := by
    refine (Ddrio.Reachable.regular ⟨es, hrun⟩).calls c ?_
    rw [← hcalls]
    exact List.mem_filterMap.mpr ⟨_, hc, rfl⟩
  constructor
  · refine printsUpTo_mixed v (fun c hc => (hregular c hc).onlySetsUp.quiet)
      fun hs₁ m hs₂ heq => ?_
    obtain ⟨logLevel, result, hmem⟩ := hinit hs₁ m hs₂ heq
    have hbefore (c : Ddrio.Call) (hc : .inl c ∈ hs₁) : c.Regular :=
      hregular c (heq ▸ List.mem_append_left _ hc)
    obtain rfl : logLevel = Ddrio.ddrioLogLevelInfo := hbefore _ hmem
    exact setUp_mixed (fun c hc => (hbefore c hc).onlySetsUp)
      ⟨_, hmem, by simp [Ddrio.Call.init_logOps]⟩
      (Or.inr ⟨_, hmem, by simp [Ddrio.Call.init_logOps]⟩)
  · refine printsUpTo_mixed v (fun c hc => c.onlySetsUp.quiet) fun hs₁ m hs₂ heq => ?_
    obtain ⟨result, hmem⟩ := hinit' hs₁ m hs₂ heq
    exact setUp_mixed (fun c hc => c.onlySetsUp) ⟨_, hmem, List.mem_singleton.mpr rfl⟩ (Or.inl rfl)

/-- The same message of the lowest severity is printed by one plugin only. -/
theorem backend_messages_are_printed_misc :
    PrintsUpTo vsnprintf 2 (mixed Ddrio.Call.logOps
        (.inl (.ddrIoInit 2 false) :: [.inr ⟨.misc, ⟨[0x6d], by decide⟩, [0x68, 0x69]⟩]))
        [⟨.misc, ⟨[0x6d], by decide⟩, [0x68, 0x69]⟩] ∧
      PrintsUpTo vsnprintf 4 (mixed Iidxio.Call.logOps
        (.inl (.iidxioInit false) :: [.inr ⟨.misc, ⟨[0x6d], by decide⟩, [0x68, 0x69]⟩]))
        [⟨.misc, ⟨[0x6d], by decide⟩, [0x68, 0x69]⟩] := by
  have hfirst {κ : Type} {c : κ} {hs hs₁ hs₂ : List (κ ⊕ BackendMessage)} {m : BackendMessage}
      (heq : .inl c :: hs = hs₁ ++ .inr m :: hs₂) : .inl c ∈ hs₁ := by
    cases hs₁ with
    | nil => cases heq
    | cons h hs₁ =>
      obtain ⟨rfl, -⟩ := List.cons.inj heq
      exact List.mem_cons_self
  exact backend_messages_are_printed vsnprintf [.start "ddr4mp".toList false] rfl _ rfl
    (fun _ _ _ heq => ⟨_, _, hfirst heq⟩) _ (fun _ _ _ heq => ⟨_, hfirst heq⟩)

end MamePlugins
