import MamePlugins.Util.Logger

/-!
# What arrives at a destination

The lines that arrive at a destination are determined by the uses of the logger: the
last formatters, writer, context and level before a message decide on it. The process
ends with the first message that is fatal or does not fit, or from which a formatter
of the caller does not return.
-/

namespace MamePlugins.Util

open Library

variable {ω φ : Type}

/-- What the formatters put into a line. -/
structure LogRecord where
  severity : Severity
  moduleName : CString
  msg : CString
  deriving DecidableEq

def LogRecord.line (r : LogRecord) : List (BitVec 8) :=
  formatLine r.severity.letter r.moduleName.bytes r.msg.bytes

/-- Where lines arrive. -/
inductive Destination (ω : Type)
  | debug
  | stdout
  | stderr
  | file (file : BitVec 64)
  | other (writer : ω) (ctx : BitVec 64)
  deriving DecidableEq

/-- The destination of a writer with its context. -/
def LogWriter.destination (ctx : BitVec 64) : LogWriter ω → Option (Destination ω)
  | .debug => some .debug
  | .stdout => some .stdout
  | .stderr => some .stderr
  | .file => some (.file ctx)
  | .null => none
  | .other writer => some (.other writer ctx)

/-- The bytes that arrive at a destination. At the standard streams that means that they
are handed to `printf` and `fprintf`: whether they get any further before the process
is aborted is up to the C library. -/
def LogOutput.delivery : LogOutput ω φ → Option (Destination ω × List (BitVec 8))
  | .outputDebugString chars => some (.debug, chars.bytes)
  | .printf chars => some (.stdout, chars.bytes)
  | .fprintfStderr chars => some (.stderr, chars.bytes)
  | .fwrite file chars => some (.file file, chars)
  | .writer other ctx chars _ => some (.other other ctx, chars.bytes)
  | _ => none

/-! ### History -/

/-- The formatter that a use of the logger installs for a severity. -/
def LogOp.impl (severity : Severity) : LogOp ω φ → Option (LogFormatter φ)
  | .toWriter _ _ => some (.builtin severity)
  | .toExternal misc info warning fatal =>
    some (match severity with
      | .misc => misc
      | .info => info
      | .warning => warning
      | .fatal => fatal)
  | _ => none

/-- The writer that a use of the logger installs. -/
def LogOp.writer : LogOp ω φ → Option (LogWriter ω)
  | .toWriter writer _ => some (writer.getD .null)
  | _ => none

/-- The context that a use of the logger installs. -/
def LogOp.ctx : LogOp ω φ → Option (BitVec 64)
  | .toWriter (some _) ctx => some ctx
  | _ => none

/-- The level that a use of the logger sets. -/
def LogOp.level : LogOp ω φ → Option (BitVec 32)
  | .setLevel newLevel => some newLevel
  | _ => none

/-- The last of some settings, or a default. -/
def lastOr {α : Type} (setting : LogOp ω φ → Option α) (default : α)
    (before : List (LogOp ω φ)) : α :=
  (before.filterMap setting).getLast?.getD default

def implAfter (before : List (LogOp ω φ)) (severity : Severity) : LogFormatter φ :=
  lastOr (LogOp.impl severity) (.builtin severity) before

def levelAfter (before : List (LogOp ω φ)) : BitVec 32 := lastOr LogOp.level 4 before

/-- Where lines go, if anywhere. -/
def destinationAfter (before : List (LogOp ω φ)) : Option (Destination ω) :=
  (lastOr LogOp.writer .null before).destination (lastOr LogOp.ctx 0 before)

/-- The formatter, module and text of a message. -/
def LogOp.request (before : List (LogOp ω φ)) :
    LogOp ω φ → Option (LogFormatter φ × CString × List (BitVec 8))
  | .message severity moduleName text => some (implAfter before severity, moduleName, text)
  | .assertBody file line function =>
    some (implAfter before .fatal, assertModule, assertText file line function)
  | .handedOut formatter moduleName text => some (formatter, moduleName, text)
  | _ => none

/-- The message and its line fit into their buffers. -/
def LineFits (moduleName : CString) (text : List (BitVec 8)) : Prop :=
  text.length ≤ 65535 ∧ moduleName.length + (CString.ofBuffer text).length ≤ 65530

instance (moduleName : CString) (text : List (BitVec 8)) : Decidable (LineFits moduleName text) :=
  inferInstanceAs (Decidable (_ ∧ _))

/-- The line that a use of the logger makes, where the level lets it through. -/
def LogOp.record (before : List (LogOp ω φ)) (op : LogOp ω φ) : Option LogRecord :=
  match op.request before with
  | some (.builtin severity, moduleName, text) =>
    if LineFits moduleName text ∧ severity.level ≤ levelAfter before then
      some ⟨severity, moduleName, CString.ofBuffer text⟩
    else none
  | _ => none

/-- The use of the logger is `log_fatal`. -/
def LogOp.isFatal : LogOp ω φ → Bool
  | .message .fatal _ _ => true
  | _ => false

/-- The process does not survive the use of the logger: a fatal message is logged, or one
that does not fit, or from which a formatter of the caller does not return. -/
def LogOp.ends (before : List (LogOp ω φ)) (op : LogOp ω φ) : Bool :=
  op.isFatal || match op.request before with
    | some (.builtin severity, moduleName, text) =>
      decide (severity = .fatal ∨ ¬LineFits moduleName text)
    | some (.other _ returns, moduleName, text) => !returns moduleName text
    | none => false

/-- What a use of the logger has arrive at a destination. -/
def LogOp.recordTo [DecidableEq ω] (d : Destination ω) (before : List (LogOp ω φ))
    (op : LogOp ω φ) : List LogRecord :=
  if destinationAfter before = some d then (op.record before).toList else []

/-- The lines that arrive at a destination, up to the end of the process. -/
def recordsTo [DecidableEq ω] (d : Destination ω) :
    List (LogOp ω φ) → List (LogOp ω φ) → List LogRecord
  | _, [] => []
  | before, op :: ops =>
    op.recordTo d before ++ if op.ends before then [] else recordsTo d (before ++ [op]) ops

/-! ### One message -/

theorem lastOr_concat {α : Type} (setting : LogOp ω φ → Option α) (default : α)
    (before : List (LogOp ω φ)) (op : LogOp ω φ) :
    lastOr setting default (before ++ [op]) =
      (setting op).getD (lastOr setting default before) := by
  rw [lastOr, lastOr, List.filterMap_append]
  cases h : setting op <;> simp [h]

theorem LogRecord.noNull (r : LogRecord) : 0 ∉ r.line := by
  have hletter : 0 ≠ r.severity.letter := by cases r.severity <;> decide
  rw [LogRecord.line, formatLine]
  simp only [List.cons_append, List.mem_append, List.mem_cons, List.not_mem_nil, or_false, not_or]
  exact ⟨hletter, by decide, ⟨r.moduleName.noNull, by decide, by decide, r.msg.noNull⟩, by decide⟩

variable {v : Vsnprintf} {s : Logger ω φ}

/-- A message that does not fit aborts the process. -/
theorem logBuiltin_of_not_fits {moduleName : CString} {text : List (BitVec 8)}
    (h : ¬LineFits moduleName text) (severity : Severity) :
    logBuiltin v severity moduleName text s.toLogState = none := by
  have hformat : logBuiltinFormat v severity.level moduleName text s.toLogState = none := by
    by_cases htext : text.length ≤ 65535
    · exact logBuiltinFormat_of_not_fits htext (not_le.mp fun hline => h ⟨htext, hline⟩)
    · have hlong : strVformat v 65536 text = none := strVformat_of_le v (by omega)
      rw [logBuiltinFormat, hlong]
      rfl
  rw [logBuiltin_eq, hformat, Option.map_none]

/-- A formatter returns from a message: the built-in ones do so unless they are fatal or
the message does not fit. -/
def LogFormatter.Returns (moduleName : CString) (text : List (BitVec 8)) :
    LogFormatter φ → Prop
  | .builtin severity => severity ≠ .fatal ∧ LineFits moduleName text
  | .other _ returns => returns moduleName text = true

theorem call_returns_iff (v : Vsnprintf) (s : Logger ω φ) (f : LogFormatter φ)
    (moduleName : CString) (text : List (BitVec 8)) :
    (f.call v moduleName text s).2 = true ↔ f.Returns moduleName text := by
  cases f with
  | other formatter returns => exact Iff.rfl
  | builtin severity =>
    rw [LogFormatter.Returns]
    rw [LogFormatter.call]
    by_cases hfits : LineFits moduleName text
    · obtain ⟨rest, hlog⟩ := logBuiltin_of_fits v severity s.toLogState hfits.1 hfits.2
      simp [hlog, hfits]
    · simp [logBuiltin_of_not_fits hfits, hfits]

/-! ### Runs -/

/-- The formatter in use for a severity. -/
def Logger.impl (s : Logger ω φ) : Severity → LogFormatter φ
  | .misc => s.logImplMisc
  | .info => s.logImplInfo
  | .warning => s.logImplWarning
  | .fatal => s.logImplFatal

/-- The variables are those of the history. -/
structure Logger.Follows (s : Logger ω φ) (before : List (LogOp ω φ)) : Prop where
  impl : ∀ severity, s.impl severity = implAfter before severity
  writer : s.logWriter = lastOr LogOp.writer .null before
  ctx : s.logWriterCtx = lastOr LogOp.ctx 0 before
  level : s.logLevel = levelAfter before

theorem Logger.load_follows : (Logger.load : Logger ω φ).Follows [] :=
  ⟨fun severity => by cases severity <;> rfl, rfl, rfl, rfl⟩

variable {before : List (LogOp ω φ)} {op : LogOp ω φ} {f : LogFormatter φ}
  {moduleName : CString} {text : List (BitVec 8)}

/-- A variable is kept or replaced by a use of the logger. -/
theorem Logger.Follows.next (h : s.Follows before) {s' : Logger ω φ}
    (himpl : ∀ severity, s'.impl severity = (op.impl severity).getD (s.impl severity))
    (hwriter : s'.logWriter = op.writer.getD s.logWriter)
    (hctx : s'.logWriterCtx = op.ctx.getD s.logWriterCtx)
    (hlevel : s'.logLevel = op.level.getD s.logLevel) : s'.Follows (before ++ [op]) := by
  constructor
  · intro severity
    rw [himpl, h.impl, implAfter, implAfter, lastOr_concat]
  · rw [hwriter, h.writer, lastOr_concat]
  · rw [hctx, h.ctx, lastOr_concat]
  · rw [hlevel, h.level, levelAfter, levelAfter, lastOr_concat]

/-- The process survives a use of the logger if it is not `log_fatal`, and the formatter
returns from its message, if there is one. -/
theorem LogOp.ends_eq_false_iff : op.ends before = false ↔
    op.isFatal = false ∧ ∀ formatter moduleName text,
      op.request before = some (formatter, moduleName, text) →
        formatter.Returns moduleName text := by
  rw [LogOp.ends, Bool.or_eq_false_iff]
  refine and_congr_right fun _ => ?_
  cases hop : op.request before with
  | none => simp
  | some request =>
    obtain ⟨f, moduleName, text⟩ := request
    cases f with
    | other formatter returns => simp [LogFormatter.Returns]
    | builtin severity => simp [LogFormatter.Returns]

theorem LogOp.ends_eq (v : Vsnprintf) (s : Logger ω φ)
    (hop : op.request before = some (f, moduleName, text)) :
    op.ends before = (op.isFatal || !(f.call v moduleName text s).2) := by
  rw [← Bool.not_inj_iff, Bool.eq_iff_iff, Bool.not_eq_true', LogOp.ends_eq_false_iff, hop]
  simp [call_returns_iff]

theorem logMessage_returns (v : Vsnprintf) (s : Logger ω φ) (moduleName : CString)
    (text : List (BitVec 8)) (severity : Severity) :
    (logMessage v moduleName text s severity).2 =
      (decide (severity ≠ .fatal) && ((s.impl severity).call v moduleName text s).2) := by
  cases severity with
  | fatal =>
    rw [logMessage]
    dsimp only
    split_ifs <;> rfl
  | _ => exact (Bool.true_and _).symm

/-- Nothing leaves a process that has ended. -/
theorem LogProcess.run_of_ended (v : Vsnprintf) {p : LogProcess ω φ} (hp : p.running = false)
    (ops : List (LogOp ω φ)) : p.run v ops = p := by
  induction ops with
  | nil => rfl
  | cons op ops ih =>
    have hstep : p.step v op = p := by
      rw [LogProcess.step.eq_def, if_neg (by simp [hp])]
    rw [LogProcess.run, List.foldl_cons, hstep]
    exact ih

variable [DecidableEq ω]

/-- A writer delivers a line as it is. -/
theorem LogWriter.sent_call {line : List (BitVec 8)} (hline : 0 ∉ line)
    (rest : List (BitVec 8)) (writer : LogWriter ω) (ctx : BitVec 64) (d : Destination ω) :
    sent LogOutput.delivery d
        (writer.call ctx (line ++ 0 :: rest) line.length : List (LogOutput ω φ)) =
      if writer.destination ctx = some d then [line] else [] := by
  have hread : (CString.ofBuffer (line ++ 0 :: rest)).bytes = line := by
    rw [CString.ofBuffer_append_null, CString.ofBuffer_of_not_mem hline]
  have hone {output : LogOutput ω φ} {d' : Destination ω} {bytes : List (BitVec 8)}
      (hbytes : bytes = line) (h : output.delivery = some (d', bytes)) :
      sent LogOutput.delivery d [output] = if some d' = some d then [line] else [] := by
    rw [sent_singleton h, hbytes]
    simp only [Option.some.injEq]
  cases writer with
  | debug => exact hone hread rfl
  | stdout => exact hone hread rfl
  | stderr => exact hone hread rfl
  | file =>
    have hflush : sent LogOutput.delivery d [(.fflush ctx : LogOutput ω φ)] = [] :=
      sent_cons_of_none rfl
    rw [LogWriter.call, logWriterFile, List.take_left, ← List.singleton_append, sent_append,
      hflush, List.append_nil]
    exact hone rfl rfl
  | null => rfl
  | other writer => exact hone hread rfl

/-- What the built-in formatter of a severity delivers. -/
theorem sent_call_builtin (v : Vsnprintf) (s : Logger ω φ) (severity : Severity)
    (moduleName : CString) (text : List (BitVec 8)) (d : Destination ω) :
    sent LogOutput.delivery d ((LogFormatter.builtin severity).call v moduleName text s).1 =
      if LineFits moduleName text ∧ severity.level ≤ s.logLevel ∧
          s.logWriter.destination s.logWriterCtx = some d then
        [LogRecord.line ⟨severity, moduleName, CString.ofBuffer text⟩]
      else [] := by
  by_cases hfits : LineFits moduleName text
  · obtain ⟨rest, hlog⟩ := logBuiltin_of_fits v severity s.toLogState hfits.1 hfits.2
    have hending : sent LogOutput.delivery d
        ((severity.ending : List (Effect (LogWriter ω) (BitVec 64))).flatMap Effect.output :
          List (LogOutput ω φ)) = [] := by
      cases severity <;> rfl
    have hline := LogRecord.noNull ⟨severity, moduleName, CString.ofBuffer text⟩
    rw [LogFormatter.call, hlog]
    dsimp only
    rw [List.flatMap_append, sent_append, hending, List.append_nil]
    by_cases hlevel : severity.level ≤ s.logLevel
    · rw [if_pos hlevel, List.flatMap_singleton]
      have hcall := LogWriter.sent_call (φ := φ) hline rest s.logWriter s.logWriterCtx d
      simp only [hfits, hlevel, true_and]
      exact hcall
    · rw [if_neg hlevel, if_neg fun h => hlevel h.2.1]
      rfl
  · rw [LogFormatter.call, logBuiltin_of_not_fits hfits, if_neg fun h => hfits h.1]
    rfl

theorem sent_logMessage (v : Vsnprintf) (s : Logger ω φ) (moduleName : CString)
    (text : List (BitVec 8)) (severity : Severity) (d : Destination ω) :
    sent LogOutput.delivery d (logMessage v moduleName text s severity).1 =
      sent LogOutput.delivery d ((s.impl severity).call v moduleName text s).1 := by
  cases severity with
  | fatal =>
    rw [logMessage]
    dsimp only
    split_ifs
    · have habort : sent LogOutput.delivery d [(.abort : LogOutput ω φ)] = [] :=
        sent_cons_of_none rfl
      rw [sent_append, habort, List.append_nil]
      rfl
    · rfl
  | _ => rfl

/-- The record of a message arrives where the history says. -/
theorem Logger.Follows.sent_call (h : s.Follows before)
    (hop : op.request before = some (f, moduleName, text)) (d : Destination ω) :
    sent LogOutput.delivery d (f.call v moduleName text s).1 =
      (op.recordTo d before).map LogRecord.line := by
  rw [LogOp.recordTo, LogOp.record, hop, destinationAfter, ← h.writer, ← h.ctx, ← h.level]
  cases f with
  | other formatter returns =>
    dsimp only
    split_ifs <;> rfl
  | builtin severity =>
    rw [sent_call_builtin]
    dsimp only
    split_ifs <;> simp_all

/-- One use of the logger: the variables follow the history, its line arrives, and the
process goes on unless it ends here. -/
theorem LogProcess.step_follows (v : Vsnprintf) {p : LogProcess ω φ} (hp : p.running = true)
    (h : p.logger.Follows before) (op : LogOp ω φ) :
    (p.step v op).logger.Follows (before ++ [op]) ∧
      (∀ d, sent LogOutput.delivery d (p.step v op).output =
        sent LogOutput.delivery d p.output ++ (op.recordTo d before).map LogRecord.line) ∧
      (p.step v op).running = !op.ends before := by
  have hquiet (hop : op.request before = none) (d : Destination ω) :
      (op.recordTo d before).map LogRecord.line = [] := by
    rw [LogOp.recordTo, LogOp.record, hop]
    split_ifs <;> rfl
  rw [LogProcess.step.eq_def, if_pos hp]
  cases op with
  | toWriter writer ctx =>
    refine ⟨?_, fun d => by rw [hquiet rfl, List.append_nil], hp⟩
    cases writer with
    | some writer => exact h.next (fun severity => by cases severity <;> rfl) rfl rfl rfl
    | none => exact h.next (fun severity => by cases severity <;> rfl) rfl rfl rfl
  | toExternal misc info warning fatal =>
    refine ⟨?_, fun d => by rw [hquiet rfl, List.append_nil], hp⟩
    exact h.next (fun severity => by cases severity <;> rfl) rfl rfl rfl
  | setLevel newLevel =>
    refine ⟨?_, fun d => by rw [hquiet rfl, List.append_nil], hp⟩
    exact h.next (fun severity => rfl) rfl rfl rfl
  | message severity moduleName text =>
    have hop : (LogOp.message severity moduleName text).request before =
        some (p.logger.impl severity, moduleName, text) := by
      rw [LogOp.request, h.impl]
    refine ⟨h.next (fun severity => rfl) rfl rfl rfl, fun d => ?_, ?_⟩
    · dsimp only
      rw [sent_append, sent_logMessage, h.sent_call hop]
    · dsimp only
      rw [logMessage_returns, LogOp.ends_eq v p.logger hop]
      cases severity <;> simp [LogOp.isFatal]
  | assertBody file line function =>
    have hop : (LogOp.assertBody file line function).request before =
        some (p.logger.logImplFatal, assertModule, assertText file line function) := by
      rw [LogOp.request, ← h.impl]
      rfl
    refine ⟨h.next (fun severity => rfl) rfl rfl rfl, fun d => ?_, ?_⟩
    · dsimp only
      rw [sent_append, logAssertBody, h.sent_call hop]
    · rw [LogOp.ends_eq v p.logger hop]
      simp [LogOp.isFatal, logAssertBody]
  | handedOut formatter moduleName text =>
    have hop : (LogOp.handedOut formatter moduleName text : LogOp ω φ).request before =
        some (formatter, moduleName, text) := rfl
    refine ⟨h.next (fun severity => rfl) rfl rfl rfl, fun d => ?_, ?_⟩
    · dsimp only
      rw [sent_append, h.sent_call hop]
    · rw [LogOp.ends_eq v p.logger hop]
      simp [LogOp.isFatal]

/-- A run from a state that follows its history. -/
theorem LogProcess.run_follows (v : Vsnprintf) {p : LogProcess ω φ} (hp : p.running = true)
    (h : p.logger.Follows before) (ops : List (LogOp ω φ)) :
    (∀ d, sent LogOutput.delivery d (p.run v ops).output =
      sent LogOutput.delivery d p.output ++ (recordsTo d before ops).map LogRecord.line) ∧
      ((p.run v ops).running = true ↔
        ∀ ops₁ op ops₂, ops = ops₁ ++ op :: ops₂ → op.ends (before ++ ops₁) = false) := by
  induction ops generalizing p before with
  | nil =>
    refine ⟨fun d => (List.append_nil _).symm, iff_of_true hp fun ops₁ op ops₂ hops => ?_⟩
    simp at hops
  | cons op ops ih =>
    obtain ⟨hnext, houtput, hrunning⟩ := p.step_follows v hp h op
    have hrun : p.run v (op :: ops) = (p.step v op).run v ops := rfl
    cases hends : op.ends before with
    | true =>
      rw [hends, Bool.not_true] at hrunning
      rw [hrun, LogProcess.run_of_ended v hrunning]
      refine ⟨fun d => ?_, iff_of_false (by simp [hrunning]) fun hall => ?_⟩
      · rw [houtput, recordsTo, if_pos hends, List.append_nil]
      · have hnot := hall [] op ops rfl
        rw [List.append_nil, hends] at hnot
        cases hnot
    | false =>
      rw [hends, Bool.not_false] at hrunning
      obtain ⟨hlines, hiff⟩ := ih hrunning hnext
      rw [hrun]
      refine ⟨fun d => ?_, hiff.trans ⟨fun hall ops₁ op' ops₂ hops => ?_, fun hall => ?_⟩⟩
      · rw [hlines, houtput, recordsTo, if_neg (by simp [hends]), List.map_append,
          List.append_assoc]
      · cases ops₁ with
        | nil =>
          obtain ⟨rfl, -⟩ := List.cons.inj hops
          rwa [List.append_nil]
        | cons op₁ ops₁ =>
          obtain ⟨rfl, htail⟩ := List.cons.inj hops
          rw [List.append_cons]
          exact hall ops₁ op' ops₂ htail
      · intro ops₁ op' ops₂ hops
        have hop := hall (op :: ops₁) op' ops₂ (congrArg (op :: ·) hops)
        rwa [List.append_cons] at hop

/-- Fatal loggers do not return, as `glue.h` says of those that are handed over. -/
def FatalLoggersDoNotReturn (ops : List (LogOp ω φ)) : Prop :=
  ∀ misc info warning fatal, .toExternal misc info warning fatal ∈ ops →
    ∀ moduleName text, ¬fatal.Returns moduleName text

omit [DecidableEq ω] in
/-- Then the formatter of fatal messages never returns. -/
theorem FatalLoggersDoNotReturn.implAfter {ops after : List (LogOp ω φ)}
    (h : FatalLoggersDoNotReturn ops) (hops : ops = before ++ after) (moduleName : CString)
    (text : List (BitVec 8)) : ¬(implAfter before .fatal).Returns moduleName text := by
  have hbuiltin : ¬(LogFormatter.builtin .fatal : LogFormatter φ).Returns moduleName text :=
    fun hreturns => hreturns.1 rfl
  rw [Util.implAfter, lastOr]
  cases hlast : (before.filterMap (LogOp.impl .fatal)).getLast? with
  | none => exact hbuiltin
  | some formatter =>
    obtain ⟨op, hmem, himpl⟩ := List.mem_filterMap.mp (List.mem_of_getLast? hlast)
    rw [Option.getD_some]
    cases op with
    | toWriter writer ctx =>
      obtain rfl := Option.some.inj himpl
      exact hbuiltin
    | toExternal misc info warning fatal =>
      obtain rfl := Option.some.inj himpl
      exact h misc info warning _ (hops ▸ List.mem_append_left _ hmem) moduleName text
    | _ => cases himpl

/-- **What arrives at a destination.** For every use of the logger by a process: the
lines that arrive at a destination are those of the messages, in their order and each
once, that were logged by a built-in formatter while the destination was installed, that
fit, and that the level let through. If fatal loggers do not return, the process runs on
exactly if no message was fatal, no assertion failed, and every formatter returned: a
built-in one does if it is not fatal and the message fits. -/
theorem log_delivers (v : Vsnprintf) (ops : List (LogOp ω φ)) :
    (∀ d, sent LogOutput.delivery d (LogProcess.load.run v ops).output =
      (recordsTo d [] ops).map LogRecord.line) ∧
      (FatalLoggersDoNotReturn ops → ((LogProcess.load.run v ops).running = true ↔
        ∀ before op after, ops = before ++ op :: after →
          (∀ moduleName text, op ≠ .message .fatal moduleName text) ∧
          (∀ file line function, op ≠ .assertBody file line function) ∧
          ∀ formatter moduleName text, op.request before = some (formatter, moduleName, text) →
            formatter.Returns moduleName text)) := by
  obtain ⟨hlines, hrunning⟩ := LogProcess.load.run_follows v rfl Logger.load_follows ops
  refine ⟨hlines, fun hfatal => hrunning.trans ?_⟩
  refine forall_congr' fun before => forall_congr' fun op => forall_congr' fun after =>
    imp_congr_right fun hops => ?_
  rw [List.nil_append, LogOp.ends_eq_false_iff]
  constructor
  · rintro ⟨hnot, hreturns⟩
    refine ⟨fun moduleName text heq => ?_, fun file line function heq => ?_, hreturns⟩
    · rw [heq] at hnot
      cases hnot
    · -- The formatter of an assertion is that of fatal messages.
      rw [heq] at hreturns
      exact hfatal.implAfter hops _ _ (hreturns _ _ _ rfl)
  · rintro ⟨hmessage, -, hreturns⟩
    refine ⟨?_, hreturns⟩
    unfold LogOp.isFatal
    split
    · exact absurd rfl (hmessage _ _)
    · rfl

/-- A message is printed, another one goes to a formatter of the caller and returns, and
then an assertion fails. -/
theorem log_delivers_assert :
    let returning : LogFormatter Unit := .other () fun _ _ => true
    let ops : List (LogOp Empty Unit) := [.toWriter (some .stdout) 0,
      .message .info ⟨[0x6d], by decide⟩ [0x68, 0x69],
      .toExternal returning returning returning (.other () fun _ _ => false),
      .message .info ⟨[0x6d], by decide⟩ [0x78]]
    let failed := ops ++ [.assertBody ⟨[0x61], by decide⟩ 1 ⟨[0x62], by decide⟩]
    sent LogOutput.delivery .stdout (LogProcess.load.run vsnprintf failed).output =
        [[0x49, 0x3a, 0x6d, 0x3a, 0x20, 0x68, 0x69, 0x0a]] ∧
      (LogProcess.load.run vsnprintf ops).running = true ∧
      (LogProcess.load.run vsnprintf failed).running = false := by
  intro returning ops failed
  have hfatal : FatalLoggersDoNotReturn failed := by
    intro misc info warning fatal hmem moduleName text
    simp only [failed, ops, List.cons_append, List.nil_append, List.mem_cons,
      List.not_mem_nil, LogOp.toExternal.injEq, reduceCtorEq, or_false, false_or] at hmem
    obtain ⟨-, -, -, rfl⟩ := hmem
    exact Bool.false_ne_true
  obtain ⟨hlines, hend⟩ := log_delivers vsnprintf failed
  refine ⟨(hlines .stdout).trans (by decide), rfl, ?_⟩
  rw [← Bool.not_eq_true, hend hfatal]
  exact fun h => (h ops _ [] rfl).2.1 _ _ _ rfl

/-! ### Reading a log -/

/-- A module has no colon, and a message has no line feed. -/
def LogRecord.Plain (r : LogRecord) : Prop := 0x3a ∉ r.moduleName.bytes ∧ 0x0a ∉ r.msg.bytes

theorem Severity.letter_injective : Function.Injective Severity.letter := by
  intro severity severity' h
  cases severity <;> cases severity' <;> first | rfl | (revert h; decide)

/-- A line of a plain record can be told from what follows it. -/
theorem LogRecord.selfDelimiting : SelfDelimiting LogRecord.line LogRecord.Plain := by
  constructor
  · intro r h
    rw [LogRecord.line, formatLine] at h
    cases h
  · intro r r' rest rest' hplain hplain' h
    simp only [LogRecord.line, formatLine, List.cons_append, List.append_assoc,
      List.nil_append, List.cons.injEq, true_and] at h
    obtain ⟨hletter, h⟩ := h
    obtain ⟨hmodule, h⟩ := append_delimiter_inj hplain.1 hplain'.1 h
    obtain ⟨hmsg, hrest⟩ := append_delimiter_inj hplain.2 hplain'.2 (List.cons.inj h).2
    refine ⟨?_, hrest⟩
    cases r
    cases r'
    simp only [LogRecord.mk.injEq]
    exact ⟨Severity.letter_injective hletter, CString.ext hmodule, CString.ext hmsg⟩

/-- The text of a use of the logger has no line feed, and its module no colon. -/
def LogOp.Plain : LogOp ω φ → Prop
  | .message _ moduleName text => 0x3a ∉ moduleName.bytes ∧ 0x0a ∉ text
  | .handedOut _ moduleName text => 0x3a ∉ moduleName.bytes ∧ 0x0a ∉ text
  | .assertBody file _ function => 0x0a ∉ file.bytes ∧ 0x0a ∉ function.bytes
  | _ => True

theorem decimal_no_lineFeed (n : ℕ) : 0x0a ∉ decimal n := by
  rw [decimal, List.mem_map]
  rintro ⟨c, hc, hfeed⟩
  have hdigit : c.isDigit = true := Nat.isDigit_of_mem_toDigits (b := 10) (by decide) le_rfl hc
  obtain ⟨hlow, hhigh⟩ := Char.isDigit_iff_toNat.mp hdigit
  have hmod := congrArg BitVec.toNat hfeed
  rw [BitVec.toNat_ofNat] at hmod
  have hten : (0x0a : BitVec 8).toNat = 10 := rfl
  have hzero : '0'.toNat = 48 := rfl
  have hnine : '9'.toNat = 57 := rfl
  omega

omit [DecidableEq ω] in
/-- A plain use of the logger makes a plain record. -/
theorem LogOp.Plain.request (h : op.Plain)
    (hop : op.request before = some (f, moduleName, text)) :
    0x3a ∉ moduleName.bytes ∧ 0x0a ∉ text := by
  cases op with
  | message severity moduleName' text' =>
    rw [LogOp.request, Option.some.injEq, Prod.mk.injEq, Prod.mk.injEq] at hop
    obtain ⟨-, rfl, rfl⟩ := hop
    exact h
  | assertBody file line function =>
    rw [LogOp.request, Option.some.injEq, Prod.mk.injEq, Prod.mk.injEq] at hop
    obtain ⟨-, rfl, rfl⟩ := hop
    have hline : 0x0a ∉ 0x3a :: decimal line :=
      List.not_mem_cons_of_ne_of_not_mem (by decide) (decimal_no_lineFeed line)
    refine ⟨by decide, ?_⟩
    exact List.not_mem_append (List.not_mem_append (List.not_mem_append
      (List.not_mem_append h.1 hline) (by decide)) h.2) (by decide)
  | handedOut formatter moduleName' text' =>
    rw [LogOp.request, Option.some.injEq, Prod.mk.injEq, Prod.mk.injEq] at hop
    obtain ⟨-, rfl, rfl⟩ := hop
    exact h
  | _ => cases hop

theorem LogOp.Plain.recordTo (h : op.Plain) (d : Destination ω) :
    ∀ r ∈ op.recordTo d before, r.Plain := by
  intro r hr
  rw [LogOp.recordTo] at hr
  split_ifs at hr
  · rw [Option.mem_toList, LogOp.record] at hr
    cases hop : op.request before with
    | none =>
      rw [hop] at hr
      cases hr
    | some request =>
      obtain ⟨f, moduleName, text⟩ := request
      obtain ⟨hmodule, htext⟩ := h.request hop
      rw [hop] at hr
      cases f with
      | other formatter returns => cases hr
      | builtin severity =>
        dsimp only at hr
        split_ifs at hr
        obtain rfl := Option.some.inj hr
        exact ⟨hmodule, fun hfeed => htext ((List.takeWhile_prefix _).mem hfeed)⟩
  · cases hr

theorem recordsTo_plain {ops : List (LogOp ω φ)} (h : ∀ op ∈ ops, op.Plain)
    (d : Destination ω) : ∀ r ∈ recordsTo d before ops, r.Plain := by
  induction ops generalizing before with
  | nil => exact fun r hr => absurd hr List.not_mem_nil
  | cons op ops ih =>
    rw [List.forall_mem_cons] at h
    rw [recordsTo, List.forall_mem_append]
    refine ⟨h.1.recordTo d, ?_⟩
    split_ifs
    · exact fun r hr => absurd hr List.not_mem_nil
    · exact ih h.2

/-- **A log can be read back.** For any two processes that log messages without line
feeds, from modules without colons: if the same bytes arrived at a destination, then the
same records did, in the same order. -/
theorem log_reads_back (v v' : Vsnprintf) (d : Destination ω) (ops ops' : List (LogOp ω φ))
    (hops : ∀ op ∈ ops, op.Plain) (hops' : ∀ op ∈ ops', op.Plain)
    (hbytes : (sent LogOutput.delivery d (LogProcess.load.run v ops).output).flatten =
      (sent LogOutput.delivery d (LogProcess.load.run v' ops').output).flatten) :
    recordsTo d [] ops = recordsTo d [] ops' := by
  obtain ⟨hlines, -⟩ := LogProcess.load.run_follows v rfl Logger.load_follows ops
  obtain ⟨hlines', -⟩ := LogProcess.load.run_follows v' rfl Logger.load_follows ops'
  rw [hlines, hlines'] at hbytes
  exact LogRecord.selfDelimiting.flatMap_inj (recordsTo_plain hops d) (recordsTo_plain hops' d)
    hbytes

/-- A message that is dropped, and a level that is set, leave no trace in a file. -/
theorem log_reads_back_file :
    recordsTo (.file 1 : Destination Unit) [] ([.toWriter (some .file) 1,
        .message .info ⟨[0x6d], by decide⟩ [0x68, 0x69]] : List (LogOp Unit Unit)) =
      recordsTo (.file 1) [] ([.setLevel 2, .toWriter (some .file) 1,
        .message .misc ⟨[0x6d], by decide⟩ [0x78],
        .message .info ⟨[0x6d], by decide⟩ [0x68, 0x69]] : List (LogOp Unit Unit)) :=
  log_reads_back vsnprintf vsnprintf (.file 1) _ _
    (by simp [LogOp.Plain]) (by simp [LogOp.Plain]) (by decide)

end MamePlugins.Util
