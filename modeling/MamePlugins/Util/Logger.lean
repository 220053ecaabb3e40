import MamePlugins.Library.LastSent
import MamePlugins.Library.SelfDelimiting
import MamePlugins.Util.Log

/-!
# The logger over a run

The four formatters, the writer, its context and the level may be replaced between any
two messages, and a message may end the process. This file determines the lines that
arrive at a destination over a run, and when the process ends.
-/

namespace MamePlugins.Util

open Library

/-- A writer: one of `log.c`, or another one. -/
inductive LogWriter (ω : Type)
  | debug
  | stdout
  | stderr
  | file
  | null
  | other (writer : ω)
  deriving DecidableEq

/-- A formatter: the built-in one of a severity, or another one, with the messages from
which it returns. -/
inductive LogFormatter (φ : Type)
  | builtin (severity : Severity)
  | other (formatter : φ) (returns : CString → List (BitVec 8) → Bool)

/-- What leaves the logger. The caller's writers return, and neither they nor the
caller's formatters use the logger. -/
inductive LogOutput (ω φ : Type)
  | outputDebugString (chars : CString)
  | printf (chars : CString)
  | fprintfStderr (chars : CString)
  | fwrite (file : BitVec 64) (chars : List (BitVec 8))
  | fflush (file : BitVec 64)
  | writer (writer : ω) (ctx : BitVec 64) (chars : CString) (nchars : ℕ)
  | formatter (formatter : φ) (moduleName : CString) (text : List (BitVec 8))
  | debugBreak
  | exitProcess (exitCode : ℕ)
  | abort
  deriving DecidableEq

variable {ω φ : Type}

/-! ### Writers -/

def logWriterDebug (chars : List (BitVec 8)) : List (LogOutput ω φ) :=
  [.outputDebugString (CString.ofBuffer chars)]

def logWriterStdout (chars : List (BitVec 8)) : List (LogOutput ω φ) :=
  [.printf (CString.ofBuffer chars)]

def logWriterStderr (chars : List (BitVec 8)) : List (LogOutput ω φ) :=
  [.fprintfStderr (CString.ofBuffer chars)]

def logWriterFile (ctx : BitVec 64) (chars : List (BitVec 8)) (nchars : ℕ) :
    List (LogOutput ω φ) :=
  [.fwrite ctx (chars.take nchars), .fflush ctx]

def logWriterNull : List (LogOutput ω φ) := []

def LogWriter.call (ctx : BitVec 64) (chars : List (BitVec 8)) (nchars : ℕ) :
    LogWriter ω → List (LogOutput ω φ)
  | .debug => logWriterDebug chars
  | .stdout => logWriterStdout chars
  | .stderr => logWriterStderr chars
  | .file => logWriterFile ctx chars nchars
  | .null => logWriterNull
  | .other writer => [.writer writer ctx (CString.ofBuffer chars) nchars]

/-! ### The logger -/

/-- The variables of `log.c`. -/
structure Logger (ω φ : Type) extends LogState (LogWriter ω) (BitVec 64) where
  logImplMisc : LogFormatter φ
  logImplInfo : LogFormatter φ
  logImplWarning : LogFormatter φ
  logImplFatal : LogFormatter φ

def Logger.load : Logger ω φ where
  logWriter := .null
  logWriterCtx := 0
  logLevel := 4
  logImplMisc := .builtin .misc
  logImplInfo := .builtin .info
  logImplWarning := .builtin .warning
  logImplFatal := .builtin .fatal

def logToExternal (misc info warning fatal : LogFormatter φ) (s : Logger ω φ) : Logger ω φ :=
  { s with
    logImplMisc := misc
    logImplInfo := info
    logImplWarning := warning
    logImplFatal := fatal }

/-- The null pointer is `none`. It leaves the context alone. -/
def logToWriter (writer : Option (LogWriter ω)) (ctx : BitVec 64) (s : Logger ω φ) :
    Logger ω φ :=
  let s := { s with
    logImplMisc := .builtin .misc
    logImplInfo := .builtin .info
    logImplWarning := .builtin .warning
    logImplFatal := .builtin .fatal }
  match writer with
  | some writer => { s with logWriter := writer, logWriterCtx := ctx }
  | none => { s with logWriter := .null }

def logSetLevel (newLevel : BitVec 32) (s : Logger ω φ) : Logger ω φ :=
  { s with logLevel := newLevel }

/-- What an effect of the built-in formatters lets out. -/
def Effect.output : Effect (LogWriter ω) (BitVec 64) → List (LogOutput ω φ)
  | .logWriter writer ctx chars nchars => writer.call ctx chars nchars
  | .debugBreak => [.debugBreak]
  | .exitProcess exitCode => [.exitProcess exitCode]

/-- What a formatter lets out, and whether it returns. -/
def LogFormatter.call (v : Vsnprintf) (moduleName : CString) (text : List (BitVec 8))
    (s : Logger ω φ) : LogFormatter φ → List (LogOutput ω φ) × Bool
  | .builtin severity =>
    match logBuiltin v severity moduleName text s.toLogState with
    | some effects => (effects.flatMap Effect.output, decide (severity ≠ .fatal))
    | none => ([.abort], false)
  | .other formatter returns =>
    ([.formatter formatter moduleName text], returns moduleName text)

/-- `log_misc`, `log_info`, `log_warning` and `log_fatal`, of which the last one aborts
the process if the formatter returns. -/
def logMessage (v : Vsnprintf) (moduleName : CString) (text : List (BitVec 8))
    (s : Logger ω φ) : Severity → List (LogOutput ω φ) × Bool
  | .misc => s.logImplMisc.call v moduleName text s
  | .info => s.logImplInfo.call v moduleName text s
  | .warning => s.logImplWarning.call v moduleName text s
  | .fatal =>
    let (output, returned) := s.logImplFatal.call v moduleName text s
    if returned then (output ++ [.abort], false) else (output, false)

/-- The module name `assert`. -/
def assertModule : CString := ⟨[0x61, 0x73, 0x73, 0x65, 0x72, 0x74], by decide⟩

/-- The text of `%d`. -/
def decimal (n : ℕ) : List (BitVec 8) :=
  (Nat.toDigits 10 n).map fun c => BitVec.ofNat 8 c.toNat

/-- The text of ``%s:%d: function `%s'``. -/
def assertText (file : CString) (line : ℕ) (function : CString) : List (BitVec 8) :=
  file.bytes ++ 0x3a :: decimal line ++
    [0x3a, 0x20, 0x66, 0x75, 0x6e, 0x63, 0x74, 0x69, 0x6f, 0x6e, 0x20, 0x60] ++
    function.bytes ++ [0x27]

def logAssertBody (v : Vsnprintf) (file : CString) (line : ℕ) (function : CString)
    (s : Logger ω φ) : List (LogOutput ω φ) × Bool :=
  s.logImplFatal.call v assertModule (assertText file line function) s

/-! ### Runs -/

/-- A use of the logger. A formatter that was handed out may be called by its holder. -/
inductive LogOp (ω φ : Type)
  | toWriter (writer : Option (LogWriter ω)) (ctx : BitVec 64)
  | toExternal (misc info warning fatal : LogFormatter φ)
  | setLevel (newLevel : BitVec 32)
  | message (severity : Severity) (moduleName : CString) (text : List (BitVec 8))
  | assertBody (file : CString) (line : ℕ) (function : CString)
  | handedOut (formatter : LogFormatter φ) (moduleName : CString) (text : List (BitVec 8))

/-- A process that uses the logger, with all that left it so far. -/
structure LogProcess (ω φ : Type) where
  logger : Logger ω φ
  output : List (LogOutput ω φ)
  running : Bool

def LogProcess.load : LogProcess ω φ := ⟨.load, [], true⟩

def LogProcess.step (v : Vsnprintf) (p : LogProcess ω φ) (op : LogOp ω φ) : LogProcess ω φ :=
  if p.running then
    match op with
    | .toWriter writer ctx => { p with logger := logToWriter writer ctx p.logger }
    | .toExternal misc info warning fatal =>
      { p with logger := logToExternal misc info warning fatal p.logger }
    | .setLevel newLevel => { p with logger := logSetLevel newLevel p.logger }
    | .message severity moduleName text =>
      let (output, running) := logMessage v moduleName text p.logger severity
      { p with output := p.output ++ output, running := running }
    | .assertBody file line function =>
      let (output, running) := logAssertBody v file line function p.logger
      { p with output := p.output ++ output, running := running }
    | .handedOut formatter moduleName text =>
      let (output, running) := formatter.call v moduleName text p.logger
      { p with output := p.output ++ output, running := running }
  else p

def LogProcess.run (v : Vsnprintf) (p : LogProcess ω φ) (ops : List (LogOp ω φ)) :
    LogProcess ω φ :=
  ops.foldl (LogProcess.step v) p

end MamePlugins.Util
