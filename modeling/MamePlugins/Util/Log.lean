import MamePlugins.Util.Str

/-!
# The built-in loggers

Each severity formats its message, formats the line around it, and calls the installed
writer if the level lets the severity through. This file says for which messages that
works.
-/

namespace MamePlugins.Util

open Library

/-- The variables of the logger: the installed writer, its context, and the level. -/
structure LogState (ω γ : Type) where
  logWriter : ω
  logWriterCtx : γ
  logLevel : BitVec 32

/-- What a logger does to the process. -/
inductive Effect (ω γ : Type)
  | logWriter (writer : ω) (ctx : γ) (chars : List (BitVec 8)) (nchars : ℕ)
  | debugBreak
  | exitProcess (exitCode : ℕ)

/-- The letters of the severities, `FWIM`. -/
def chars : List (BitVec 8) := [0x46, 0x57, 0x49, 0x4d]

/-- The text of `%c:%s: %s\n`. -/
def formatLine (c : BitVec 8) (moduleName msg : List (BitVec 8)) : List (BitVec 8) :=
  c :: 0x3a :: moduleName ++ 0x3a :: 0x20 :: msg ++ [0x0a]

variable {ω γ : Type}

/-- `log_builtin_format`: what it does, or `none` for `abort`. -/
def logBuiltinFormat (v : Vsnprintf) (msgLevel : BitVec 32) (moduleName : CString)
    (text : List (BitVec 8)) (s : LogState ω γ) : Option (List (Effect ω γ)) := do
  -- 64k so we can log data dumps of rs232 without crashing.
  let (msg, _) ← strVformat v 65536 text
  let (line, result) ← strFormat v 65536
    (formatLine (chars.getD msgLevel.toNat 0) moduleName.bytes (CString.ofBuffer msg).bytes)
  if msgLevel ≤ s.logLevel then some [.logWriter s.logWriter s.logWriterCtx line result]
  else some []

/-- `IMPLEMENT_SINK` -/
def implementSink (msgLevel : BitVec 32) (v : Vsnprintf) (moduleName : CString)
    (text : List (BitVec 8)) (s : LogState ω γ) : Option (List (Effect ω γ)) :=
  logBuiltinFormat v msgLevel moduleName text s

def logBuiltinInfo (v : Vsnprintf) (moduleName : CString) (text : List (BitVec 8))
    (s : LogState ω γ) : Option (List (Effect ω γ)) :=
  implementSink 2 v moduleName text s

def logBuiltinMisc (v : Vsnprintf) (moduleName : CString) (text : List (BitVec 8))
    (s : LogState ω γ) : Option (List (Effect ω γ)) :=
  implementSink 3 v moduleName text s

def logBuiltinWarning (v : Vsnprintf) (moduleName : CString) (text : List (BitVec 8))
    (s : LogState ω γ) : Option (List (Effect ω γ)) :=
  implementSink 1 v moduleName text s

/-- The process breaks into the debugger and exits after the message. -/
def logBuiltinFatal (v : Vsnprintf) (moduleName : CString) (text : List (BitVec 8))
    (s : LogState ω γ) : Option (List (Effect ω γ)) := do
  let effects ← logBuiltinFormat v 0 moduleName text s
  some (effects ++ [.debugBreak, .exitProcess 1])

/-! ### Severities -/

inductive Severity
  | fatal
  | warning
  | info
  | misc
  deriving DecidableEq, Repr

def Severity.level : Severity → BitVec 32
  | .fatal => 0
  | .warning => 1
  | .info => 2
  | .misc => 3

/-- `F`, `W`, `I` or `M`. -/
def Severity.letter : Severity → BitVec 8
  | .fatal => 0x46
  | .warning => 0x57
  | .info => 0x49
  | .misc => 0x4d

/-- The logger of a severity. -/
def logBuiltin (v : Vsnprintf) : Severity → CString → List (BitVec 8) → LogState ω γ →
    Option (List (Effect ω γ))
  | .fatal => logBuiltinFatal v
  | .warning => logBuiltinWarning v
  | .info => logBuiltinInfo v
  | .misc => logBuiltinMisc v

/-- What follows the message of a severity. -/
def Severity.ending : Severity → List (Effect ω γ)
  | .fatal => [.debugBreak, .exitProcess 1]
  | _ => []

/-- The calls of a writer among some effects. -/
def Effect.write : Effect ω γ → Option (ω × γ × List (BitVec 8) × ℕ)
  | .logWriter writer ctx chars nchars => some (writer, ctx, chars, nchars)
  | _ => none

/-- Logging the message is safe: the process does not abort while formatting; the
installed writer is called once, with the line and its length, if the level lets the
severity through; a message above the level has no effect; and a fatal message is
written before the process exits. -/
def LogsSafely (v : Vsnprintf) (severity : Severity) (moduleName : CString)
    (text : List (BitVec 8)) (s : LogState ω γ) : Prop :=
  ∃ effects, logBuiltin v severity moduleName text s = some effects ∧
    (severity.level ≤ s.logLevel → ∃ rest, effects.filterMap Effect.write =
      [(s.logWriter, s.logWriterCtx,
        formatLine severity.letter moduleName.bytes text ++ 0 :: rest,
        (formatLine severity.letter moduleName.bytes text).length)]) ∧
    (severity ≠ .fatal → ¬severity.level ≤ s.logLevel → effects = []) ∧
    (severity = .fatal → ∃ chars nchars, effects =
      [.logWriter s.logWriter s.logWriterCtx chars nchars, .debugBreak, .exitProcess 1])

/-! ### Lengths -/

variable {v : Vsnprintf} {severity : Severity} {moduleName : CString} {text : List (BitVec 8)}
  {s : LogState ω γ}

theorem formatLine_length (c : BitVec 8) (moduleName msg : List (BitVec 8)) :
    (formatLine c moduleName msg).length = moduleName.length + msg.length + 5 := by
  simp only [formatLine, List.length_cons, List.length_append, List.length_nil]
  omega

/-- All sinks are `log_builtin_format`, but for the end of the process. -/
theorem logBuiltin_eq : logBuiltin v severity moduleName text s =
    (logBuiltinFormat v severity.level moduleName text s).map (· ++ severity.ending) := by
  cases severity with
  | fatal =>
    rw [logBuiltin, logBuiltinFatal, Option.map_eq_bind]
    rfl
  | _ =>
    have hmap (effects : Option (List (Effect ω γ))) : effects.map (· ++ []) = effects := by
      simp
    exact (hmap _).symm

/-- A line that does not fit aborts the process, whatever the level is. -/
theorem logBuiltinFormat_of_not_fits (htext : text.length ≤ 65535)
    (hline : 65530 < moduleName.length + (CString.ofBuffer text).length) :
    logBuiltinFormat v severity.level moduleName text s = none := by
  obtain ⟨rest, hmsg⟩ := strVformat_of_lt v (show text.length < 65536 by omega)
  have hlong : 65536 ≤ (formatLine (chars.getD severity.level.toNat 0) moduleName.bytes
      (CString.ofBuffer text).bytes).length := by
    rw [CString.length, CString.length] at hline
    rw [formatLine_length]
    omega
  simp only [logBuiltinFormat, hmsg, CString.ofBuffer_append_null, strFormat,
    strVformat_of_le v hlong, Option.bind_eq_bind, Option.bind_some, Option.bind_none]

/-- A line that fits is written if the level lets it through. -/
theorem logBuiltinFormat_of_fits (v : Vsnprintf) (severity : Severity) (s : LogState ω γ)
    (htext : text.length ≤ 65535)
    (hline : moduleName.length + (CString.ofBuffer text).length ≤ 65530) :
    ∃ rest, logBuiltinFormat v severity.level moduleName text s =
      some (if severity.level ≤ s.logLevel then
        [.logWriter s.logWriter s.logWriterCtx
          (formatLine severity.letter moduleName.bytes (CString.ofBuffer text).bytes ++ 0 :: rest)
          (formatLine severity.letter moduleName.bytes (CString.ofBuffer text).bytes).length]
        else []) := by
  have hletter : chars.getD severity.level.toNat 0 = severity.letter := by
    cases severity <;> rfl
  have hshort : (formatLine severity.letter moduleName.bytes
      (CString.ofBuffer text).bytes).length < 65536 := by
    rw [CString.length, CString.length] at hline
    rw [formatLine_length]
    omega
  obtain ⟨rest, hmsg⟩ := strVformat_of_lt v (show text.length < 65536 by omega)
  obtain ⟨rest', hrest'⟩ := strVformat_of_lt v hshort
  refine ⟨rest', ?_⟩
  simp only [logBuiltinFormat, hmsg, CString.ofBuffer_append_null, strFormat, hletter, hrest',
    Option.bind_eq_bind, Option.bind_some]
  split_ifs <;> rfl

theorem Severity.ending_write (severity : Severity) :
    (severity.ending : List (Effect ω γ)).filterMap Effect.write = [] := by
  cases severity <;> rfl

/-- What a logger does with a line that fits. -/
theorem logBuiltin_of_fits (v : Vsnprintf) (severity : Severity) (s : LogState ω γ)
    (htext : text.length ≤ 65535)
    (hline : moduleName.length + (CString.ofBuffer text).length ≤ 65530) :
    ∃ rest, logBuiltin v severity moduleName text s =
      some ((if severity.level ≤ s.logLevel then
        [.logWriter s.logWriter s.logWriterCtx
          (formatLine severity.letter moduleName.bytes (CString.ofBuffer text).bytes ++ 0 :: rest)
          (formatLine severity.letter moduleName.bytes (CString.ofBuffer text).bytes).length]
        else []) ++ severity.ending) := by
  obtain ⟨rest, hformat⟩ := logBuiltinFormat_of_fits v severity s htext hline
  exact ⟨rest, by rw [logBuiltin_eq, hformat, Option.map_some]⟩

/-- A line that does not fit is not logged safely. -/
theorem not_logsSafely_of_not_fits (htext : text.length ≤ 65535)
    (hline : 65530 < moduleName.length + (CString.ofBuffer text).length) :
    ¬LogsSafely v severity moduleName text s := by
  rintro ⟨effects, hlog, -⟩
  rw [logBuiltin_eq, logBuiltinFormat_of_not_fits htext hline] at hlog
  cases hlog

/-- **When logging is safe.** For every level, severity, module and message of at most
65535 characters: the line, which has five characters more than the module and the
message, must fit as well, and where the message is written it must have no null
byte. -/
theorem logging_safe_iff (v : Vsnprintf) (s : LogState ω γ) (severity : Severity)
    (moduleName : CString) (text : List (BitVec 8)) (htext : text.length ≤ 65535) :
    LogsSafely v severity moduleName text s ↔
      moduleName.length + (CString.ofBuffer text).length ≤ 65530 ∧
        (severity.level ≤ s.logLevel → 0 ∉ text) := by
  by_cases hline : moduleName.length + (CString.ofBuffer text).length ≤ 65530
  · obtain ⟨rest, hlog⟩ := logBuiltin_of_fits v severity s htext hline
    rw [LogsSafely, hlog]
    by_cases hlevel : severity.level ≤ s.logLevel
    · rw [if_pos hlevel]
      constructor
      · rintro ⟨effects, heffects, hwrite, -, -⟩
        refine ⟨hline, fun _ => ?_⟩
        obtain ⟨rest', hwrite⟩ := hwrite hlevel
        rw [Option.some.injEq] at heffects
        rw [← heffects, List.filterMap_append, severity.ending_write] at hwrite
        have hlength : (formatLine severity.letter moduleName.bytes
            (CString.ofBuffer text).bytes).length =
            (formatLine severity.letter moduleName.bytes text).length := by
          simpa [Effect.write] using congrArg (List.map fun call => call.2.2.2) hwrite
        rw [formatLine_length, formatLine_length] at hlength
        apply CString.length_ofBuffer_eq_iff.mp
        rw [CString.length]
        omega
      · rintro ⟨-, hnull⟩
        have hread := CString.ofBuffer_of_not_mem (hnull hlevel)
        rw [hread]
        refine ⟨_, rfl, fun _ => ⟨rest, ?_⟩, fun _ habove => absurd hlevel habove, ?_⟩
        · rw [List.filterMap_append, severity.ending_write]
          rfl
        · rintro rfl
          exact ⟨_, _, rfl⟩
    · rw [if_neg hlevel, List.nil_append]
      refine iff_of_true ⟨_, rfl, fun h => absurd h hlevel, fun hfatal _ => ?_, ?_⟩
        ⟨hline, fun h => absurd h hlevel⟩
      · cases severity with
        | fatal => exact absurd rfl hfatal
        | _ => rfl
      · rintro rfl
        exact absurd (Nat.zero_le s.logLevel.toNat) hlevel
  · exact iff_of_false (not_logsSafely_of_not_fits htext (not_le.mp hline)) fun h => hline h.1

/-- A `_vsnprintf` that returns the length up to the size, and `-1` beyond it. -/
def vsnprintf : Vsnprintf where
  result nchars text := if text.length ≤ nchars then text.length else -1
  buffer nchars text := (text ++ [0]).take nchars
  result_of_lt h := if_pos h.le
  buffer_of_lt {nchars text} h := by
    have hlength : (text ++ [(0 : BitVec 8)]).length ≤ nchars := by
      rw [List.length_append, List.length_singleton]
      omega
    exact ⟨[], List.take_of_length_le hlength⟩
  result_of_le h := by
    split_ifs with hle
    · right
      omega
    · left
      omega

/-- A short message of a severity that is written. -/
theorem logging_safe_short : LogsSafely vsnprintf .info ⟨[0x6d], by decide⟩ [0x68, 0x69]
    (⟨(), (), 4⟩ : LogState Unit Unit) :=
  (logging_safe_iff vsnprintf _ .info ⟨[0x6d], by decide⟩ [0x68, 0x69] (by decide)).mpr
    ⟨by decide, fun _ => by decide⟩

/-- A message of 65535 characters fits its buffer and aborts the process, although its
severity is above the level. -/
theorem logging_long_message_aborts :
    (List.replicate 65535 (0x78 : BitVec 8)).length ≤ 65535 ∧
      ¬LogsSafely vsnprintf .misc ⟨[0x6d], by decide⟩ (List.replicate 65535 0x78)
        (⟨(), (), 0⟩ : LogState Unit Unit) := by
  have hlength : (List.replicate 65535 (0x78 : BitVec 8)).length = 65535 := List.length_replicate
  have hnull : 0 ∉ List.replicate 65535 (0x78 : BitVec 8) := by
    rw [List.mem_replicate]
    exact fun h => absurd h.2 (by decide)
  refine ⟨hlength.le, not_logsSafely_of_not_fits hlength.le ?_⟩
  rw [CString.length_ofBuffer_eq_iff.mpr hnull, hlength]
  omega

end MamePlugins.Util
