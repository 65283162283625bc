import RdbLibs.FileIO.FileUtils

/-!
# `CLogger`

The class of `Src/Logging/Logging.h`, with what it uses of `spdlog`: a logger has a level and a
vector of pointers to sinks, and is created with the global level and without sinks. A sink is
created with the level `trace`; `sinkLevels` has the levels of all sinks that were created, and a
pointer to a sink is its place there. What is printed for debugging, and the message that
`setLogFile` logs, are left out.

Whether the logger and its sinks can be created is an argument of the calls: where the library
throws, the class goes on with a null pointer.
-/

set_option autoImplicit false
set_option relaxedAutoImplicit false

namespace RdbLibs.Logging

/-- `eLogLevel`. -/
inductive eLogLevel
  | useDefault
  | none
  | fatal
  | error
  | warning
  | info
  | debug
  | trace
deriving DecidableEq

/-- The number of a log level. -/
def eLogLevel.value : eLogLevel → ℤ
  | .useDefault => -1
  | .none => 0
  | .fatal => 1
  | .error => 2
  | .warning => 3
  | .info => 4
  | .debug => 5
  | .trace => 6

/-- `spdlog::level::level_enum`. -/
inductive level_enum
  | trace
  | debug
  | info
  | warn
  | err
  | critical
  | off
deriving DecidableEq

/-- The number of a level of `spdlog`. -/
def level_enum.value : level_enum → ℤ
  | .trace => 0
  | .debug => 1
  | .info => 2
  | .warn => 3
  | .err => 4
  | .critical => 5
  | .off => 6

/-- The level with a number. -/
def level_enum.ofValue : ℤ → level_enum
  | 0 => .trace
  | 1 => .debug
  | 2 => .info
  | 3 => .warn
  | 4 => .err
  | 5 => .critical
  | _ => .off

/-- `CLogger::getSpdlogLevel`. -/
def getSpdlogLevel (level : ℤ) : level_enum :=
  if level ≤ eLogLevel.value .useDefault then .info
  else if eLogLevel.value .trace < level then .trace
  else .ofValue (level_enum.value .off - level)

/-- The class of a sink. The file is the one that a `rotating_file_sink_mt` writes. -/
inductive SinkClass
  | stdout_color_sink_mt
  | rotating_file_sink_mt (sLogFilePath : List Char)
deriving DecidableEq

/-- A pointer to a sink. -/
structure Sink where
  sinkClass : SinkClass
  place : ℕ
deriving DecidableEq

/-- Whether a sink writes a file. -/
def Sink.isFile (sink : Sink) : Bool :=
  match sink.sinkClass with
  | .stdout_color_sink_mt => false
  | .rotating_file_sink_mt _ => true

/-- `spdlog::logger`. -/
structure Logger where
  name : List Char
  level : level_enum
  sinks : List (Option Sink)
deriving DecidableEq

/-- `CLogger`. `globalLevel` is the level that `spdlog` gives to a new logger. -/
structure CLogger where
  m_sLogName : List Char
  m_sLogFile : List Char
  m_sLogDir : List Char
  m_nConsoleLogLevel : eLogLevel
  m_nFileLogLevel : eLogLevel
  m_mainLogger : Option Logger
  m_consoleSink : Option Sink
  m_fileSink : Option Sink
  sinkLevels : List level_enum
  globalLevel : level_enum
deriving DecidableEq

namespace CLogger

/-- The constructor. -/
def new (logLevel : eLogLevel) (sLogFile sLogDir : List Char) : CLogger where
  m_sLogName := []
  m_sLogFile := sLogFile
  m_sLogDir := sLogDir
  m_nConsoleLogLevel := logLevel
  m_nFileLogLevel := .info
  m_mainLogger := none
  m_consoleSink := none
  m_fileSink := none
  sinkLevels := []
  globalLevel := if logLevel ≠ .warning then getSpdlogLevel logLevel.value else .info

/-- Sets the level of a sink, if there is one. -/
def setSinkLevel (s : CLogger) (sink : Option Sink) (level : level_enum) : CLogger :=
  match sink with
  | none => s
  | some sink => { s with sinkLevels := s.sinkLevels.set sink.place level }

/-- Sets the level of the main logger, or of all loggers where there is none. -/
def setLoggerLevel (s : CLogger) (level : level_enum) : CLogger :=
  match s.m_mainLogger with
  | none => { s with globalLevel := level }
  | some logger => { s with m_mainLogger := some { logger with level := level } }

/-- The pointer to the sink that is created next. -/
def nextSink (s : CLogger) (sinkClass : SinkClass) : Sink := ⟨sinkClass, s.sinkLevels.length⟩

/-- What is left of the sinks of a logger behind the loop that erases the first one. -/
def eraseFirst (sinks : List (Option Sink)) : List (Option Sink) := sinks.eraseP Option.isSome

/-- `CLogger::initializeMainLogger`. -/
def initializeMainLogger (s : CLogger) (created : Bool) : Bool × CLogger :=
  if created then
    (true, { s with m_mainLogger := some ⟨s.m_sLogName, s.globalLevel, []⟩ })
  else (false, { s with m_mainLogger := none })

/-- `CLogger::initializeConsoleSink`. -/
def initializeConsoleSink (s : CLogger) (created : Bool) : Bool × CLogger :=
  match s.m_mainLogger with
  | none => (false, s)
  | some logger =>
    if created then
      let sink := s.nextSink .stdout_color_sink_mt
      (true, { s with
        m_consoleSink := some sink
        m_mainLogger := some { logger with sinks := logger.sinks ++ [some sink] }
        sinkLevels := s.sinkLevels ++ [.trace] })
    else (false, { s with m_consoleSink := none })

/-- `CLogger::getLogFilePath`. -/
def getLogFilePath (s : CLogger) (sDir : List Char) : List Char :=
  let sLogFilePath := if sDir.length < 1 then ['.'] else sDir
  let sLogFilePath :=
    if sLogFilePath.getLast? ≠ some '/' then sLogFilePath ++ ['/'] else sLogFilePath
  let sLogFilePath := sLogFilePath ++ s.m_sLogFile
  if FileIO.extension s.m_sLogFile = [] then
    sLogFilePath ++ ['_', 'l', 'o', 'g', '.', 't', 'x', 't']
  else sLogFilePath

/-- The path of the file that `initializeFileSink` opens. -/
def chosenPath (s : CLogger) : List Char :=
  if s.m_sLogDir = [] then s.m_sLogFile else s.getLogFilePath s.m_sLogDir

/-- `CLogger::initializeFileSink`. -/
def initializeFileSink (s : CLogger) (created : Bool) : Bool × CLogger :=
  match s.m_mainLogger with
  | none => (false, s)
  | some logger =>
    let logger := if s.m_fileSink ≠ none then { logger with sinks := eraseFirst logger.sinks }
      else logger
    if created then
      let sink := s.nextSink (.rotating_file_sink_mt s.chosenPath)
      (true, { s with
        m_fileSink := some sink
        m_mainLogger := some { logger with sinks := logger.sinks ++ [some sink] }
        sinkLevels := s.sinkLevels ++ [.trace] })
    else (false, { s with m_fileSink := none, m_mainLogger := some logger })

/-- `CLogger::setConsoleLogLevel`. -/
def setConsoleLogLevel (s : CLogger) (logLevel : eLogLevel) : CLogger :=
  let s := if logLevel ≠ .useDefault then { s with m_nConsoleLogLevel := logLevel } else s
  let spdLogLvl := getSpdlogLevel logLevel.value
  (s.setSinkLevel s.m_consoleSink spdLogLvl).setLoggerLevel spdLogLvl

/-- `CLogger::setLogLevel`. -/
def setLogLevel (s : CLogger) (fileLogLevel consoleLogLevel : eLogLevel) : CLogger :=
  let s := if consoleLogLevel ≠ .useDefault then { s with m_nConsoleLogLevel := consoleLogLevel }
    else s
  let s := if fileLogLevel ≠ .useDefault then { s with m_nFileLogLevel := fileLogLevel } else s
  let s := s.setSinkLevel s.m_fileSink (getSpdlogLevel s.m_nFileLogLevel.value)
  let s := s.setSinkLevel s.m_consoleSink (getSpdlogLevel s.m_nConsoleLogLevel.value)
  let logLevel := if s.m_nConsoleLogLevel.value > s.m_nFileLogLevel.value
    then s.m_nConsoleLogLevel else s.m_nFileLogLevel
  s.setLoggerLevel (getSpdlogLevel logLevel.value)

/-- What the library creates for `Init`. -/
structure Created where
  mainLogger : Bool
  fileSink : Bool
  consoleSink : Bool
deriving DecidableEq

/-- The settings that `Init` takes from its arguments. -/
def configure (s : CLogger) (sLogName : List Char) (consoleLogLevel : eLogLevel)
    (sLogFile sLogDir : List Char) : CLogger :=
  let s := { s with m_sLogName := sLogName }
  let s := if sLogFile ≠ [] then { s with m_sLogFile := sLogFile } else s
  let s := if sLogDir ≠ [] then { s with m_sLogDir := sLogDir } else s
  if 0 ≤ consoleLogLevel.value then { s with m_nConsoleLogLevel := consoleLogLevel } else s

/-- The end of `Init`, behind the file sink. -/
def completeInit (s : CLogger) (created : Bool) : Bool × CLogger :=
  let (status, s) := s.initializeConsoleSink created
  if status = false then (false, s) else (true, s.setConsoleLogLevel s.m_nConsoleLogLevel)

/-- The rest of `Init`, behind the creation of the main logger. -/
def initializeSinks (s : CLogger) (created : Created) : Bool × CLogger :=
  let (status, s) :=
    if s.m_sLogFile ≠ [] then s.initializeFileSink created.fileSink else (true, s)
  if status = false then (false, s) else s.completeInit created.consoleSink

/-- `CLogger::Init`. -/
def Init (s : CLogger) (sLogName : List Char) (consoleLogLevel : eLogLevel)
    (sLogFile sLogDir : List Char) (created : Created) : Bool × CLogger :=
  let s := s.configure sLogName consoleLogLevel sLogFile sLogDir
  let (status, s) := s.initializeMainLogger created.mainLogger
  if status = false then (false, s) else s.initializeSinks created

/-- The settings that `setLogFile` takes from its arguments, if it finds a name for the file. -/
def chooseLogFile (s : CLogger) (sFile sDir : List Char) : Bool × CLogger :=
  let s := if sFile ≠ [] then { s with m_sLogFile := sFile } else s
  if s.m_sLogFile = [] ∧ s.m_sLogName = [] then (false, s)
  else
    let s := if s.m_sLogFile = [] then
      { s with m_sLogFile := s.m_sLogName ++ ['_', 'l', 'o', 'g', '.', 't', 'x', 't'] } else s
    (true, if sDir ≠ [] then { s with m_sLogDir := sDir } else s)

/-- `CLogger::setLogFile`. -/
def setLogFile (s : CLogger) (sFile sDir : List Char) (fileLogLevel : eLogLevel)
    (created : Bool) : Bool × CLogger :=
  let (status, s) := s.chooseLogFile sFile sDir
  if status = false then (false, s)
  else
    let (status, s) := s.initializeFileSink created
    if status = false then (false, s)
    else if fileLogLevel ≠ .useDefault then
      (true, s.setSinkLevel s.m_fileSink (getSpdlogLevel fileLogLevel.value))
    else (true, s)

end CLogger

end RdbLibs.Logging
