import Mathlib.Tactic.IntervalCases
import RdbLibs.Logging.Sinks

/-!
# The levels of the main logger

A message reaches a sink where it passes the level of the main logger and the level of the sink.
The calls of a `CLogger` write these levels, and two settings beside them, which say what is meant
to pass. `delivered_iff` gives the last log level that passes for a sink, its `threshold`, and
`effective_iff` compares it with the settings.

`effective_next_iff` says for each call exactly when the settings are in effect behind it, and
`settings_effective_iff` says it of all calls from the construction on. `setConsoleLogLevel` gives
the main logger the level of the console alone, and `Init` ends with it; `setLogFile` leaves the
setting for the file as it is.
-/

set_option autoImplicit false
set_option relaxedAutoImplicit false

namespace RdbLibs.Logging

open Runs

/-- `should_log`. -/
def level_enum.shouldLog (level message : level_enum) : Bool := decide (level.value ≤ message.value)

/-- The number of the last log level that passes a level of `spdlog`. -/
def level_enum.verbosity (level : level_enum) : ℤ := level_enum.value .off - level.value

/-- The level of the messages that a macro of `Logging.h` logs. -/
def messageLevel : eLogLevel → level_enum
  | .useDefault | .none => .off
  | .fatal => .critical
  | .error => .err
  | .warning => .warn
  | .info => .info
  | .debug => .debug
  | .trace => .trace

namespace eLogLevel

/-- The number of the last log level that a setting lets pass, or `0` where none passes. -/
def reach (level : eLogLevel) : ℤ := max level.value 0

/-- The number of the last log level that passes a logger or a sink with this setting. -/
def verbosity (level : eLogLevel) : ℤ := (getSpdlogLevel level.value).verbosity

end eLogLevel

/-- The main logger has a file sink and a console sink. -/
def SinkState.HasSinks (v : SinkState) : Prop :=
  (∃ sink, v.fileSink = some sink ∧ some sink ∈ v.sinks) ∧
    ∃ sink, v.consoleSink = some sink ∧ some sink ∈ v.sinks

namespace CLogger

/-- The level of a sink. -/
def sinkLevel (s : CLogger) (sink : Option Sink) : Option level_enum :=
  sink.bind fun sink ↦ s.sinkLevels[sink.place]?

/-- Whether a message is delivered to a sink: the main logger has it, and the message passes the
level of the logger and the level of the sink. -/
def delivered (s : CLogger) (sink : Option Sink) (level : eLogLevel) : Bool :=
  match s.m_mainLogger with
  | none => false
  | some logger =>
    decide (sink ≠ none ∧ sink ∈ logger.sinks) && logger.level.shouldLog (messageLevel level) &&
      (s.sinkLevel sink).any fun sinkLevel ↦ sinkLevel.shouldLog (messageLevel level)

/-- The settings are in effect: a message is delivered to a sink exactly where its level is not
above the setting for the sink. -/
def Effective (s : CLogger) : Prop :=
  ∀ level : eLogLevel, eLogLevel.value .fatal ≤ level.value →
    (s.delivered s.m_fileSink level = true ↔ level.value ≤ s.m_nFileLogLevel.value) ∧
      (s.delivered s.m_consoleSink level = true ↔ level.value ≤ s.m_nConsoleLogLevel.value)

/-- The number of the last log level that passes the main logger. -/
def loggerVerbosity (s : CLogger) : ℤ :=
  (s.m_mainLogger.map fun logger ↦ logger.level.verbosity).getD 0

/-- The number of the last log level that passes a sink. -/
def sinkVerbosity (s : CLogger) (sink : Option Sink) : ℤ :=
  ((s.sinkLevel sink).map level_enum.verbosity).getD 0

/-- The number of the last log level that passes the main logger and a sink. -/
def threshold (s : CLogger) (sink : Option Sink) : ℤ := min s.loggerVerbosity (s.sinkVerbosity sink)

/-- A setting, where a call may ask for the one there is. -/
def chosenLevel (current asked : eLogLevel) : eLogLevel :=
  if asked = .useDefault then current else asked

/-- The calls behind which the settings are in effect, if the main logger then has both sinks. -/
def TakesEffect (s : CLogger) : LoggerCall → Prop
  | .Init _ consoleLogLevel sLogFile _ created =>
    created = ⟨true, true, true⟩ → sLogFile ≠ [] ∨ s.m_sLogFile ≠ [] →
      (if 0 ≤ consoleLogLevel.value then consoleLogLevel else s.m_nConsoleLogLevel) =
        s.m_nFileLogLevel
  | .setLogFile sFile _ fileLogLevel created =>
    sFile ≠ [] ∨ s.m_sLogFile ≠ [] ∨ s.m_sLogName ≠ [] → created = true →
      (∃ sink, s.m_consoleSink = some sink ∧ some sink ∈ (s.sinkState.replaceFile none).sinks) →
      min s.loggerVerbosity (if fileLogLevel = .useDefault then 6 else fileLogLevel.value) =
          s.m_nFileLogLevel.reach ∧
        s.threshold s.m_consoleSink = s.m_nConsoleLogLevel.reach
  | .setLogLevel fileLogLevel consoleLogLevel =>
    s.sinkState.HasSinks → consoleLogLevel = .useDefault → s.m_nConsoleLogLevel = .useDefault →
      chosenLevel s.m_nFileLogLevel fileLogLevel = .none
  | .setConsoleLogLevel logLevel =>
    s.sinkState.HasSinks →
      min logLevel.verbosity (s.sinkVerbosity s.m_fileSink) = s.m_nFileLogLevel.reach ∧
        (logLevel = .useDefault → s.m_nConsoleLogLevel = .info)

end CLogger

/-! ### Log levels and levels of the library -/

theorem level_enum.shouldLog_messageLevel (sinkLevel : level_enum) {level : eLogLevel}
    (hlevel : eLogLevel.value .fatal ≤ level.value) :
    sinkLevel.shouldLog (messageLevel level) = true ↔ level.value ≤ sinkLevel.verbosity := by
  have hmessage : (messageLevel level).value = level_enum.value .off - level.value := by
    cases level <;> first | rfl | exact absurd hlevel (by decide)
  rw [shouldLog, decide_eq_true_iff, hmessage, verbosity]
  omega

theorem level_enum.verbosity_mem (level : level_enum) :
    0 ≤ level.verbosity ∧ level.verbosity ≤ 6 := by
  cases level <;> decide

namespace eLogLevel

theorem exists_value_eq {number : ℤ} (hpositive : 1 ≤ number) (hle : number ≤ 6) :
    ∃ level : eLogLevel, level.value = number := by
  interval_cases number
  exacts [⟨.fatal, rfl⟩, ⟨.error, rfl⟩, ⟨.warning, rfl⟩, ⟨.info, rfl⟩, ⟨.debug, rfl⟩, ⟨.trace, rfl⟩]

theorem reach_of_ne {level : eLogLevel} (hlevel : level ≠ .useDefault) :
    level.reach = level.value := by
  cases level <;> first | rfl | exact absurd rfl hlevel

theorem verbosity_of_ne {level : eLogLevel} (hlevel : level ≠ .useDefault) :
    level.verbosity = level.reach := by
  cases level <;> first | rfl | exact absurd rfl hlevel

/-- Two thresholds let the same messages pass exactly where they agree. -/
theorem forall_value_le_iff {passed : ℤ} (setting : eLogLevel) (hnonneg : 0 ≤ passed)
    (hle : passed ≤ 6) :
    (∀ level : eLogLevel, value .fatal ≤ level.value →
      (level.value ≤ passed ↔ level.value ≤ setting.value)) ↔ passed = setting.reach := by
  have hfatal : value .fatal = 1 := rfl
  rw [reach, hfatal]
  constructor
  · intro hsame
    by_contra hne
    by_cases hbelow : passed < setting.value
    · have := (hsame setting (by omega)).mpr le_rfl
      omega
    · obtain ⟨level, hlevel⟩ := exists_value_eq (show 1 ≤ passed by omega) hle
      have := (hsame level (by omega)).mp hlevel.le
      omega
  · intro hpassed level hlevel
    omega

/-- The level of the console for all messages is what both settings ask for exactly where they are
the same. -/
theorem verbosity_eq_reach_iff {console file : eLogLevel} (hfile : file ≠ .useDefault) :
    min console.verbosity 6 = file.reach ∧ (console = .useDefault → console = .info) ↔
      console = file := by
  revert hfile
  cases console <;> cases file <;> decide

end eLogLevel

namespace CLogger

open SinkState

/-- The pointers to the two sinks are places of different sinks, and the setting for the file is a
level. -/
structure Placed (s : CLogger) : Prop where
  file : ∀ sink, s.m_fileSink = some sink → sink.place < s.sinkLevels.length
  console : ∀ sink, s.m_consoleSink = some sink → sink.place < s.sinkLevels.length
  apart : ∀ fileSink consoleSink, s.m_fileSink = some fileSink →
    s.m_consoleSink = some consoleSink → fileSink.place ≠ consoleSink.place
  fileLogLevel : s.m_nFileLogLevel ≠ .useDefault

/-! ### What the levels let pass -/

section Thresholds

variable (s : CLogger)

theorem loggerVerbosity_mem : 0 ≤ s.loggerVerbosity ∧ s.loggerVerbosity ≤ 6 := by
  cases hlogger : s.m_mainLogger with
  | none => simp [loggerVerbosity, hlogger]
  | some logger => simpa [loggerVerbosity, hlogger] using logger.level.verbosity_mem

theorem sinkVerbosity_mem (sink : Option Sink) :
    0 ≤ s.sinkVerbosity sink ∧ s.sinkVerbosity sink ≤ 6 := by
  cases hlevel : s.sinkLevel sink with
  | none => simp [sinkVerbosity, hlevel]
  | some level => simpa [sinkVerbosity, hlevel] using level.verbosity_mem

variable {s}

/-- Assumes: the main logger has the sink. A message is delivered to the sink exactly where its
level is not above the threshold. -/
theorem delivered_iff {sink : Sink} (hlisted : some sink ∈ s.sinkState.sinks) {level : eLogLevel}
    (hlevel : eLogLevel.value .fatal ≤ level.value) :
    s.delivered (some sink) level = true ↔ level.value ≤ s.threshold (some sink) := by
  have hpositive : 1 ≤ level.value := hlevel
  cases hlogger : s.m_mainLogger with
  | none => simp [sinkState, hlogger] at hlisted
  | some logger =>
    replace hlisted : some sink ∈ logger.sinks := by simpa [sinkState, hlogger] using hlisted
    cases hsink : s.sinkLevel (some sink) with
    | none =>
      simp [delivered, threshold, loggerVerbosity, sinkVerbosity, hlogger, hsink]
      omega
    | some sinkLevel =>
      simp [delivered, threshold, loggerVerbosity, sinkVerbosity, hlogger, hsink, hlisted,
        level_enum.shouldLog_messageLevel _ hlevel]

/-- Assumes: the main logger has both sinks. The settings are in effect exactly where the thresholds
of the sinks are what the settings say. -/
theorem effective_iff (hsinks : s.sinkState.HasSinks) :
    s.Effective ↔ s.threshold s.m_fileSink = s.m_nFileLogLevel.reach ∧
      s.threshold s.m_consoleSink = s.m_nConsoleLogLevel.reach := by
  obtain ⟨⟨fileSink, hfile, hfileListed⟩, consoleSink, hconsole, hconsoleListed⟩ := hsinks
  have hmem (sink : Option Sink) : 0 ≤ s.threshold sink ∧ s.threshold sink ≤ 6 := by
    have hlogger := s.loggerVerbosity_mem
    have hsink := s.sinkVerbosity_mem sink
    rw [threshold]
    omega
  replace hfile : s.m_fileSink = some fileSink := hfile
  replace hconsole : s.m_consoleSink = some consoleSink := hconsole
  rw [← eLogLevel.forall_value_le_iff _ (hmem _).1 (hmem _).2,
    ← eLogLevel.forall_value_le_iff _ (hmem _).1 (hmem _).2, ← forall₂_and, Effective, hfile,
    hconsole]
  refine forall₂_congr fun level hlevel ↦ ?_
  rw [delivered_iff hfileListed hlevel, delivered_iff hconsoleListed hlevel]

end Thresholds

/-! ### What the calls write -/

section Writes

variable (s : CLogger) (sink : Option Sink) (level : level_enum)

@[simp] theorem m_fileSink_setSinkLevel :
    (s.setSinkLevel sink level).m_fileSink = s.m_fileSink := by
  cases sink <;> rfl

@[simp] theorem m_consoleSink_setSinkLevel :
    (s.setSinkLevel sink level).m_consoleSink = s.m_consoleSink := by
  cases sink <;> rfl

@[simp] theorem m_nFileLogLevel_setSinkLevel :
    (s.setSinkLevel sink level).m_nFileLogLevel = s.m_nFileLogLevel := by
  cases sink <;> rfl

@[simp] theorem m_nConsoleLogLevel_setSinkLevel :
    (s.setSinkLevel sink level).m_nConsoleLogLevel = s.m_nConsoleLogLevel := by
  cases sink <;> rfl

@[simp] theorem m_mainLogger_setSinkLevel :
    (s.setSinkLevel sink level).m_mainLogger = s.m_mainLogger := by
  cases sink <;> rfl

@[simp] theorem length_sinkLevels_setSinkLevel :
    (s.setSinkLevel sink level).sinkLevels.length = s.sinkLevels.length := by
  cases sink with
  | none => rfl
  | some sink => exact List.length_set

@[simp] theorem m_fileSink_setLoggerLevel : (s.setLoggerLevel level).m_fileSink = s.m_fileSink := by
  rw [setLoggerLevel]
  split <;> rfl

@[simp] theorem m_consoleSink_setLoggerLevel :
    (s.setLoggerLevel level).m_consoleSink = s.m_consoleSink := by
  rw [setLoggerLevel]
  split <;> rfl

@[simp] theorem m_nFileLogLevel_setLoggerLevel :
    (s.setLoggerLevel level).m_nFileLogLevel = s.m_nFileLogLevel := by
  rw [setLoggerLevel]
  split <;> rfl

@[simp] theorem m_nConsoleLogLevel_setLoggerLevel :
    (s.setLoggerLevel level).m_nConsoleLogLevel = s.m_nConsoleLogLevel := by
  rw [setLoggerLevel]
  split <;> rfl

@[simp] theorem sinkLevels_setLoggerLevel :
    (s.setLoggerLevel level).sinkLevels = s.sinkLevels := by
  rw [setLoggerLevel]
  split <;> rfl

@[simp] theorem loggerVerbosity_setSinkLevel :
    (s.setSinkLevel sink level).loggerVerbosity = s.loggerVerbosity := by
  rw [loggerVerbosity, loggerVerbosity, m_mainLogger_setSinkLevel]

@[simp] theorem sinkVerbosity_setLoggerLevel :
    (s.setLoggerLevel level).sinkVerbosity sink = s.sinkVerbosity sink := by
  rw [sinkVerbosity, sinkVerbosity, sinkLevel, sinkLevel, sinkLevels_setLoggerLevel]

variable {s}

theorem loggerVerbosity_setLoggerLevel (hlogger : s.m_mainLogger ≠ none) :
    (s.setLoggerLevel level).loggerVerbosity = level.verbosity := by
  obtain ⟨logger, hlogger⟩ := Option.ne_none_iff_exists'.mp hlogger
  simp [setLoggerLevel, loggerVerbosity, hlogger]

theorem sinkVerbosity_setSinkLevel {sink : Sink} (hplace : sink.place < s.sinkLevels.length) :
    (s.setSinkLevel (some sink) level).sinkVerbosity (some sink) = level.verbosity := by
  simp [setSinkLevel, sinkVerbosity, sinkLevel, hplace]

theorem sinkVerbosity_setSinkLevel_of_ne {sink other : Sink} (hplace : sink.place ≠ other.place) :
    (s.setSinkLevel (some sink) level).sinkVerbosity (some other) =
      s.sinkVerbosity (some other) := by
  simp [setSinkLevel, sinkVerbosity, sinkLevel, hplace]

/-- What `Placed` is about. -/
theorem Placed.of_eq {t : CLogger} (h : s.Placed) (hfile : t.m_fileSink = s.m_fileSink)
    (hconsole : t.m_consoleSink = s.m_consoleSink)
    (hlength : t.sinkLevels.length = s.sinkLevels.length)
    (hlevel : t.m_nFileLogLevel ≠ .useDefault) : t.Placed := by
  refine ⟨?_, ?_, ?_, hlevel⟩
  · rw [hfile, hlength]
    exact h.file
  · rw [hconsole, hlength]
    exact h.console
  · rw [hfile, hconsole]
    exact h.apart

theorem Placed.setSinkLevel (h : s.Placed) : (s.setSinkLevel sink level).Placed :=
  h.of_eq (by simp) (by simp) (by simp) (by simpa using h.fileLogLevel)

theorem Placed.setLoggerLevel (h : s.Placed) : (s.setLoggerLevel level).Placed :=
  h.of_eq (by simp) (by simp) (by simp) (by simpa using h.fileLogLevel)

end Writes

/-! ### The calls that set levels -/

section SetLevels

variable (s : CLogger)

/-- The settings that a call chooses. -/
def choose (fileLogLevel consoleLogLevel : eLogLevel) : CLogger :=
  { s with
    m_nFileLogLevel := chosenLevel s.m_nFileLogLevel fileLogLevel
    m_nConsoleLogLevel := chosenLevel s.m_nConsoleLogLevel consoleLogLevel }

section Choose

variable (fileLogLevel consoleLogLevel : eLogLevel)

@[simp] theorem m_fileSink_choose :
    (s.choose fileLogLevel consoleLogLevel).m_fileSink = s.m_fileSink := rfl

@[simp] theorem m_consoleSink_choose :
    (s.choose fileLogLevel consoleLogLevel).m_consoleSink = s.m_consoleSink := rfl

@[simp] theorem m_mainLogger_choose :
    (s.choose fileLogLevel consoleLogLevel).m_mainLogger = s.m_mainLogger := rfl

@[simp] theorem sinkLevels_choose :
    (s.choose fileLogLevel consoleLogLevel).sinkLevels = s.sinkLevels := rfl

@[simp] theorem m_nFileLogLevel_choose :
    (s.choose fileLogLevel consoleLogLevel).m_nFileLogLevel =
      chosenLevel s.m_nFileLogLevel fileLogLevel := rfl

@[simp] theorem m_nConsoleLogLevel_choose :
    (s.choose fileLogLevel consoleLogLevel).m_nConsoleLogLevel =
      chosenLevel s.m_nConsoleLogLevel consoleLogLevel := rfl

@[simp] theorem sinkVerbosity_choose (sink : Option Sink) :
    (s.choose fileLogLevel consoleLogLevel).sinkVerbosity sink = s.sinkVerbosity sink := rfl

end Choose

@[simp] theorem chosenLevel_useDefault (current : eLogLevel) :
    chosenLevel current .useDefault = current := rfl

theorem setConsoleLogLevel_eq (logLevel : eLogLevel) :
    s.setConsoleLogLevel logLevel =
      ((s.choose .useDefault logLevel).setSinkLevel s.m_consoleSink
        (getSpdlogLevel logLevel.value)).setLoggerLevel (getSpdlogLevel logLevel.value) := by
  by_cases hdefault : logLevel = .useDefault
  all_goals simp [setConsoleLogLevel, choose, chosenLevel, hdefault]

theorem setLogLevel_eq (fileLogLevel consoleLogLevel : eLogLevel) :
    s.setLogLevel fileLogLevel consoleLogLevel =
      (((s.choose fileLogLevel consoleLogLevel).setSinkLevel s.m_fileSink
          (getSpdlogLevel (chosenLevel s.m_nFileLogLevel fileLogLevel).value)).setSinkLevel
        s.m_consoleSink
          (getSpdlogLevel (chosenLevel s.m_nConsoleLogLevel consoleLogLevel).value)).setLoggerLevel
        (getSpdlogLevel (max (chosenLevel s.m_nConsoleLogLevel consoleLogLevel).value
          (chosenLevel s.m_nFileLogLevel fileLogLevel).value)) := by
  have hmax (console file : eLogLevel) :
      (if console.value > file.value then console else file).value =
        max console.value file.value := by
    split_ifs with hgreater
    · exact (max_eq_left hgreater.le).symm
    · exact (max_eq_right (not_lt.mp hgreater)).symm
  by_cases hconsole : consoleLogLevel = .useDefault <;> by_cases hfile : fileLogLevel = .useDefault
  all_goals simp [setLogLevel, choose, chosenLevel, hconsole, hfile, hmax]

variable {s} (h : s.Placed)
include h

theorem Placed.choose (fileLogLevel consoleLogLevel : eLogLevel) :
    (s.choose fileLogLevel consoleLogLevel).Placed := by
  refine h.of_eq rfl rfl rfl ?_
  rw [m_nFileLogLevel_choose, chosenLevel]
  split_ifs with hdefault
  · exact h.fileLogLevel
  · exact hdefault

theorem Placed.setConsoleLogLevel (logLevel : eLogLevel) :
    (s.setConsoleLogLevel logLevel).Placed := by
  rw [setConsoleLogLevel_eq]
  exact Placed.setLoggerLevel _ (Placed.setSinkLevel _ _ (h.choose _ _))

theorem Placed.setLogLevel (fileLogLevel consoleLogLevel : eLogLevel) :
    (s.setLogLevel fileLogLevel consoleLogLevel).Placed := by
  rw [setLogLevel_eq]
  exact Placed.setLoggerLevel _ (Placed.setSinkLevel _ _ (Placed.setSinkLevel _ _ (h.choose _ _)))

/-- The two sinks of a main logger that has both. -/
theorem exists_sinks (hsinks : s.sinkState.HasSinks) :
    s.m_mainLogger ≠ none ∧ ∃ fileSink consoleSink, s.m_fileSink = some fileSink ∧
      s.m_consoleSink = some consoleSink ∧ fileSink.place < s.sinkLevels.length ∧
      consoleSink.place < s.sinkLevels.length ∧ fileSink.place ≠ consoleSink.place := by
  obtain ⟨⟨fileSink, hfile, hlisted⟩, consoleSink, hconsole, -⟩ := hsinks
  refine ⟨fun hnone ↦ ?_, fileSink, consoleSink, hfile, hconsole, h.file fileSink hfile,
    h.console consoleSink hconsole, h.apart fileSink consoleSink hfile hconsole⟩
  simp [sinkState, hnone] at hlisted

/-- Assumes: the main logger has both sinks. `setConsoleLogLevel` puts the settings in effect
exactly where it leaves the file its level, and does not fall back to a default that is not the
setting. -/
theorem effective_setConsoleLogLevel_iff (hsinks : s.sinkState.HasSinks) (logLevel : eLogLevel) :
    (s.setConsoleLogLevel logLevel).Effective ↔
      min logLevel.verbosity (s.sinkVerbosity s.m_fileSink) = s.m_nFileLogLevel.reach ∧
        (logLevel = .useDefault → s.m_nConsoleLogLevel = .info) := by
  obtain ⟨hlogger, fileSink, consoleSink, hfile, hconsole, -, hplace, hapart⟩ :=
    exists_sinks h hsinks
  rw [effective_iff (by simpa using hsinks), setConsoleLogLevel_eq, threshold, threshold,
    loggerVerbosity_setLoggerLevel _ (by simpa using hlogger)]
  simp only [sinkVerbosity_setLoggerLevel, m_fileSink_setLoggerLevel, m_fileSink_setSinkLevel,
    m_consoleSink_setLoggerLevel, m_consoleSink_setSinkLevel, m_nFileLogLevel_setLoggerLevel,
    m_nFileLogLevel_setSinkLevel, m_nConsoleLogLevel_setLoggerLevel,
    m_nConsoleLogLevel_setSinkLevel, m_fileSink_choose, m_consoleSink_choose,
    m_nFileLogLevel_choose, m_nConsoleLogLevel_choose, chosenLevel_useDefault, hfile, hconsole]
  rw [sinkVerbosity_setSinkLevel_of_ne _ hapart.symm,
    sinkVerbosity_setSinkLevel _ (by simpa using hplace), min_self, sinkVerbosity_choose]
  refine and_congr Iff.rfl ?_
  by_cases hdefault : logLevel = .useDefault
  · subst hdefault
    rw [chosenLevel_useDefault, forall_prop_of_true rfl]
    cases s.m_nConsoleLogLevel <;> decide
  · rw [chosenLevel, if_neg hdefault]
    exact iff_of_true (eLogLevel.verbosity_of_ne hdefault) fun hsame ↦ absurd hsame hdefault

/-- Assumes: the main logger has both sinks. `setLogLevel` puts the settings in effect, unless the
console is left without a level of its own while there are messages for the file. -/
theorem effective_setLogLevel_iff (hsinks : s.sinkState.HasSinks)
    (fileLogLevel consoleLogLevel : eLogLevel) :
    (s.setLogLevel fileLogLevel consoleLogLevel).Effective ↔
      (consoleLogLevel = .useDefault → s.m_nConsoleLogLevel = .useDefault →
        chosenLevel s.m_nFileLogLevel fileLogLevel = .none) := by
  obtain ⟨hlogger, fileSink, consoleSink, hfile, hconsole, hfilePlace, hplace, hapart⟩ :=
    exists_sinks h hsinks
  have hchosen := (h.choose fileLogLevel consoleLogLevel).fileLogLevel
  rw [effective_iff (by simpa using hsinks), setLogLevel_eq, threshold, threshold,
    loggerVerbosity_setLoggerLevel _ (by simpa using hlogger)]
  simp only [sinkVerbosity_setLoggerLevel, m_fileSink_setLoggerLevel, m_fileSink_setSinkLevel,
    m_consoleSink_setLoggerLevel, m_consoleSink_setSinkLevel, m_nFileLogLevel_setLoggerLevel,
    m_nFileLogLevel_setSinkLevel, m_nConsoleLogLevel_setLoggerLevel,
    m_nConsoleLogLevel_setSinkLevel, m_fileSink_choose, m_consoleSink_choose,
    m_nFileLogLevel_choose, m_nConsoleLogLevel_choose, hfile, hconsole] at hchosen ⊢
  rw [sinkVerbosity_setSinkLevel_of_ne _ hapart.symm,
    sinkVerbosity_setSinkLevel _ (by simpa using hfilePlace),
    sinkVerbosity_setSinkLevel _ (by simpa using hplace)]
  have hconsoleLevel : (consoleLogLevel = .useDefault → s.m_nConsoleLogLevel = .useDefault →
      chosenLevel s.m_nFileLogLevel fileLogLevel = .none) ↔
      (chosenLevel s.m_nConsoleLogLevel consoleLogLevel = .useDefault →
        chosenLevel s.m_nFileLogLevel fileLogLevel = .none) := by
    by_cases hdefault : consoleLogLevel = .useDefault <;> simp [chosenLevel, hdefault]
  rw [hconsoleLevel]
  revert hchosen
  generalize chosenLevel s.m_nFileLogLevel fileLogLevel = file
  generalize chosenLevel s.m_nConsoleLogLevel consoleLogLevel = console
  cases file <;> cases console <;> decide

end SetLevels

/-! ### The calls that create sinks -/

section CreateSinks

variable {s : CLogger} {logger : Logger}

/-- A file sink is created, in the place of the first sink where there was one. -/
def addFileSink (s : CLogger) (logger : Logger) : CLogger :=
  { s with
    m_fileSink := some (s.nextSink (.rotating_file_sink_mt s.chosenPath))
    m_mainLogger := some { logger with
      sinks := (s.sinkState.replaceFile none).sinks ++
        [some (s.nextSink (.rotating_file_sink_mt s.chosenPath))] }
    sinkLevels := s.sinkLevels ++ [.trace] }

/-- A console sink is created. -/
def addConsoleSink (s : CLogger) (logger : Logger) : CLogger :=
  { s with
    m_consoleSink := some (s.nextSink .stdout_color_sink_mt)
    m_mainLogger := some { logger with
      sinks := logger.sinks ++ [some (s.nextSink .stdout_color_sink_mt)] }
    sinkLevels := s.sinkLevels ++ [.trace] }

theorem initializeFileSink_true (hlogger : s.m_mainLogger = some logger) :
    s.initializeFileSink true = (true, s.addFileSink logger) := by
  by_cases hold : s.m_fileSink = none
  all_goals simp [initializeFileSink, addFileSink, sinkState, replaceFile, pushed, hlogger, hold]

theorem initializeConsoleSink_true (hlogger : s.m_mainLogger = some logger) :
    s.initializeConsoleSink true = (true, s.addConsoleSink logger) := by
  simp [initializeConsoleSink, addConsoleSink, hlogger]

/-- A sink that is created lets everything pass. -/
theorem sinkVerbosity_created (t : CLogger) (hlevels : t.sinkLevels = s.sinkLevels ++ [.trace])
    (sinkClass : SinkClass) : t.sinkVerbosity (some (s.nextSink sinkClass)) = 6 := by
  simp [sinkVerbosity, sinkLevel, nextSink, hlevels, level_enum.verbosity, level_enum.value]

/-- The sinks that there are keep their levels. -/
theorem sinkVerbosity_kept (t : CLogger) (hlevels : t.sinkLevels = s.sinkLevels ++ [.trace])
    {sink : Sink} (hplace : sink.place < s.sinkLevels.length) :
    t.sinkVerbosity (some sink) = s.sinkVerbosity (some sink) := by
  simp [sinkVerbosity, sinkLevel, hlevels, List.getElem?_append_left hplace]

variable (h : s.Placed)
include h

theorem Placed.addFileSink (logger : Logger) : (s.addFileSink logger).Placed := by
  refine ⟨?_, fun sink hsink ↦ ?_, ?_, h.fileLogLevel⟩
  · rintro sink ⟨⟩
    simp [CLogger.addFileSink, nextSink]
  · simpa [CLogger.addFileSink] using Nat.lt_succ_of_lt (h.console sink hsink)
  · rintro fileSink consoleSink ⟨⟩ hconsole
    exact (h.console consoleSink hconsole).ne'

theorem Placed.addConsoleSink (logger : Logger) : (s.addConsoleSink logger).Placed := by
  refine ⟨fun sink hsink ↦ ?_, ?_, ?_, h.fileLogLevel⟩
  · simpa [CLogger.addConsoleSink] using Nat.lt_succ_of_lt (h.file sink hsink)
  · rintro sink ⟨⟩
    simp [CLogger.addConsoleSink, nextSink]
  · rintro fileSink consoleSink hfile ⟨⟩
    exact (h.file fileSink hfile).ne

theorem Placed.initializeFileSink (created : Bool) : (s.initializeFileSink created).2.Placed := by
  cases hlogger : s.m_mainLogger with
  | none =>
    rw [CLogger.initializeFileSink, hlogger]
    exact h
  | some logger =>
    cases created with
    | true =>
      rw [initializeFileSink_true hlogger]
      exact h.addFileSink logger
    | false =>
      rw [CLogger.initializeFileSink, hlogger]
      exact ⟨by simp, h.console, by simp, h.fileLogLevel⟩

theorem Placed.initializeConsoleSink (created : Bool) :
    (s.initializeConsoleSink created).2.Placed := by
  cases hlogger : s.m_mainLogger with
  | none =>
    rw [CLogger.initializeConsoleSink, hlogger]
    exact h
  | some logger =>
    cases created with
    | true =>
      rw [initializeConsoleSink_true hlogger]
      exact h.addConsoleSink logger
    | false =>
      rw [CLogger.initializeConsoleSink, hlogger]
      exact ⟨h.file, by simp, by simp, h.fileLogLevel⟩

/-- A main logger with a new file sink has both sinks if the console sink stays in the list. -/
theorem hasSinks_addFileSink_iff (logger : Logger) :
    (s.addFileSink logger).sinkState.HasSinks ↔
      ∃ sink, s.m_consoleSink = some sink ∧ some sink ∈ (s.sinkState.replaceFile none).sinks := by
  rw [HasSinks, and_iff_right ⟨_, rfl, by simp [sinkState, CLogger.addFileSink]⟩]
  refine exists_congr fun sink ↦ and_congr_right fun hsink ↦ ?_
  have hplace := (h.console sink hsink).ne
  have hnew : sink ≠ s.nextSink (.rotating_file_sink_mt s.chosenPath) := by
    rintro rfl
    exact hplace rfl
  simp [sinkState, CLogger.addFileSink, hnew]

/-- What passes the sinks behind the creation of a file sink, which gets a level if there is one. -/
theorem effective_addFileSink_iff (hlogger : s.m_mainLogger = some logger)
    (fileLogLevel : eLogLevel) {t : CLogger}
    (ht : t = if fileLogLevel ≠ .useDefault then (s.addFileSink logger).setSinkLevel
      (s.addFileSink logger).m_fileSink (getSpdlogLevel fileLogLevel.value)
      else s.addFileSink logger) :
    (t.sinkState.HasSinks → t.Effective) ↔
      ((∃ sink, s.m_consoleSink = some sink ∧
          some sink ∈ (s.sinkState.replaceFile none).sinks) →
        min s.loggerVerbosity (if fileLogLevel = .useDefault then 6 else fileLogLevel.value) =
            s.m_nFileLogLevel.reach ∧
          s.threshold s.m_consoleSink = s.m_nConsoleLogLevel.reach) := by
  have hstate : t.sinkState = (s.addFileSink logger).sinkState := by
    rw [ht]
    split_ifs <;> simp
  rw [hstate, hasSinks_addFileSink_iff h logger]
  refine forall_congr' fun hkept ↦ ?_
  have hsinks := (hasSinks_addFileSink_iff h logger).mpr hkept
  obtain ⟨consoleSink, hconsole, -⟩ := hkept
  have hplace := h.console consoleSink hconsole
  have hverbosity : (s.addFileSink logger).loggerVerbosity = s.loggerVerbosity := by
    simp [loggerVerbosity, addFileSink, hlogger]
  have hfile : (s.addFileSink logger).m_fileSink =
      some (s.nextSink (.rotating_file_sink_mt s.chosenPath)) := rfl
  have hkeptLevel := sinkVerbosity_kept (s.addFileSink logger) rfl hplace
  rw [effective_iff (hstate ▸ hsinks), threshold, threshold, threshold, hconsole, ht]
  by_cases hdefault : fileLogLevel = .useDefault
  · rw [if_neg (not_not.mpr hdefault), if_pos hdefault, hfile, hverbosity,
      show (s.addFileSink logger).m_consoleSink = some consoleSink from hconsole, hkeptLevel,
      sinkVerbosity_created _ rfl]
    rfl
  · have hnew : (s.nextSink (.rotating_file_sink_mt s.chosenPath)).place <
        (s.addFileSink logger).sinkLevels.length := by
      simp [addFileSink, nextSink]
    have hlevel : (getSpdlogLevel fileLogLevel.value).verbosity = fileLogLevel.value :=
      (eLogLevel.verbosity_of_ne hdefault).trans (eLogLevel.reach_of_ne hdefault)
    rw [if_pos hdefault, if_neg hdefault, m_fileSink_setSinkLevel, m_consoleSink_setSinkLevel,
      loggerVerbosity_setSinkLevel, m_nFileLogLevel_setSinkLevel, m_nConsoleLogLevel_setSinkLevel,
      hfile, hverbosity, show (s.addFileSink logger).m_consoleSink = some consoleSink from hconsole,
      sinkVerbosity_setSinkLevel _ hnew, sinkVerbosity_setSinkLevel_of_ne _ hplace.ne', hkeptLevel,
      hlevel]
    rfl

end CreateSinks

/-! ### The calls -/

section Calls

variable {s : CLogger} {logger : Logger} (h : s.Placed)

/-- `setLogFile` finds a name for the file, or refuses the call. -/
theorem chooseLogFile_eq (s : CLogger) (sFile sDir : List Char) :
    (sFile ≠ [] ∨ s.m_sLogFile ≠ [] ∨ s.m_sLogName ≠ []) ∧ (∃ sLogFile sLogDir,
        s.chooseLogFile sFile sDir =
          (true, { s with m_sLogFile := sLogFile, m_sLogDir := sLogDir })) ∨
      (sFile = [] ∧ s.m_sLogFile = [] ∧ s.m_sLogName = []) ∧
        s.chooseLogFile sFile sDir = (false, s) := by
  by_cases hrefused : sFile = [] ∧ s.m_sLogFile = [] ∧ s.m_sLogName = []
  · exact .inr ⟨hrefused, by simp [chooseLogFile, hrefused]⟩
  · have hfound : sFile ≠ [] ∨ s.m_sLogFile ≠ [] ∨ s.m_sLogName ≠ [] := by tauto
    refine .inl ⟨hfound, (s.chooseLogFile sFile sDir).2.m_sLogFile,
      (s.chooseLogFile sFile sDir).2.m_sLogDir, ?_⟩
    by_cases hfile : sFile = [] <;> by_cases hlogFile : s.m_sLogFile = [] <;>
      by_cases hdir : sDir = [] <;> simp_all [chooseLogFile]

section Chosen

variable {t : CLogger} {sFile sDir : List Char}
  (hchosen : s.chooseLogFile sFile sDir = (true, t)) (fileLogLevel : eLogLevel)
include hchosen

theorem setLogFile_of_none (hlogger : t.m_mainLogger = none) (created : Bool) :
    s.setLogFile sFile sDir fileLogLevel created = (false, t) := by
  simp [setLogFile, hchosen, initializeFileSink, hlogger]

theorem setLogFile_false (hlogger : t.m_mainLogger = some logger) :
    s.setLogFile sFile sDir fileLogLevel false = (false, (t.initializeFileSink false).2) := by
  simp [setLogFile, hchosen, initializeFileSink, hlogger]

theorem setLogFile_true (hlogger : t.m_mainLogger = some logger) :
    s.setLogFile sFile sDir fileLogLevel true =
      (true, if fileLogLevel ≠ .useDefault then (t.addFileSink logger).setSinkLevel
        (t.addFileSink logger).m_fileSink (getSpdlogLevel fileLogLevel.value)
        else t.addFileSink logger) := by
  rw [setLogFile, hchosen]
  dsimp only
  rw [if_neg Bool.true_eq_false.mp, initializeFileSink_true hlogger]
  dsimp only
  rw [if_neg Bool.true_eq_false.mp, apply_ite (Prod.mk true)]

end Chosen

include h

theorem Placed.setLogFile (sFile sDir : List Char) (fileLogLevel : eLogLevel) (created : Bool) :
    (s.setLogFile sFile sDir fileLogLevel created).2.Placed := by
  obtain ⟨-, sLogFile, sLogDir, hchosen⟩ | ⟨-, hrefused⟩ := chooseLogFile_eq s sFile sDir
  · have ht : Placed { s with m_sLogFile := sLogFile, m_sLogDir := sLogDir } :=
      h.of_eq rfl rfl rfl h.fileLogLevel
    cases hlogger : s.m_mainLogger with
    | none =>
      rw [setLogFile_of_none hchosen fileLogLevel hlogger]
      exact ht
    | some logger =>
      cases created with
      | false =>
        rw [setLogFile_false hchosen fileLogLevel hlogger]
        exact ht.initializeFileSink false
      | true =>
        rw [setLogFile_true hchosen fileLogLevel hlogger]
        dsimp only
        split_ifs
        · exact (ht.addFileSink logger).setSinkLevel _ _
        · exact ht.addFileSink logger
  · rw [CLogger.setLogFile, hrefused]
    exact h

/-- `setLogFile` puts the settings in effect exactly where the level that it gives the new file
sink, below the one of the main logger, is the setting for the file. -/
theorem effective_setLogFile_iff (hgood : s.sinkState.HasSinks → s.Effective)
    (sFile sDir : List Char) (fileLogLevel : eLogLevel) (created : Bool) :
    ((s.setLogFile sFile sDir fileLogLevel created).2.sinkState.HasSinks →
      (s.setLogFile sFile sDir fileLogLevel created).2.Effective) ↔
      s.TakesEffect (.setLogFile sFile sDir fileLogLevel created) := by
  obtain ⟨hfound, sLogFile, sLogDir, hchosen⟩ | ⟨hrefused, hresult⟩ := chooseLogFile_eq s sFile sDir
  · have ht : Placed { s with m_sLogFile := sLogFile, m_sLogDir := sLogDir } :=
      h.of_eq rfl rfl rfl h.fileLogLevel
    rw [TakesEffect, forall_prop_of_true hfound]
    cases hlogger : s.m_mainLogger with
    | none =>
      rw [setLogFile_of_none hchosen fileLogLevel hlogger]
      refine iff_of_true (fun hsinks ↦ ?_) fun _ hkept ↦ ?_
      · simp [HasSinks, sinkState, hlogger] at hsinks
      · simp [sinkState, replaceFile, pushed, eraseFirst, hlogger] at hkept
    | some logger =>
      cases created with
      | false =>
        rw [setLogFile_false hchosen fileLogLevel hlogger]
        refine iff_of_true (fun hsinks ↦ ?_) fun hyes ↦ absurd hyes Bool.false_ne_true
        simp [HasSinks, sinkState, initializeFileSink, hlogger] at hsinks
      | true =>
        rw [setLogFile_true hchosen fileLogLevel hlogger, forall_prop_of_true rfl]
        exact effective_addFileSink_iff ht hlogger fileLogLevel rfl
  · rw [setLogFile, hresult]
    refine iff_of_true hgood fun hfound ↦ ?_
    simp [hrefused] at hfound

/-- Assumes: the main logger has the file sink, if there is one, and the sink lets everything pass.
The end of `Init` gives the main logger the level of the console. -/
theorem effective_completeInit_iff (hlogger : s.m_mainLogger = some logger)
    (hlisted : ∀ sink, s.m_fileSink = some sink →
      some sink ∈ logger.sinks ∧ s.sinkVerbosity (some sink) = 6) (created : Bool) :
    ((s.completeInit created).2.sinkState.HasSinks → (s.completeInit created).2.Effective) ↔
      (s.m_fileSink ≠ none → created = true → s.m_nConsoleLogLevel = s.m_nFileLogLevel) := by
  cases created with
  | false =>
    refine iff_of_true (fun hsinks ↦ ?_) nofun
    simp [HasSinks, sinkState, completeInit, initializeConsoleSink, hlogger] at hsinks
  | true =>
    rw [completeInit, initializeConsoleSink_true hlogger]
    dsimp only
    rw [if_neg Bool.true_eq_false.mp]
    dsimp only
    rw [sinkState_setConsoleLogLevel]
    cases hfile : s.m_fileSink with
    | none =>
      refine iff_of_true (fun hsinks ↦ ?_) (absurd rfl)
      simp [HasSinks, sinkState, addConsoleSink, hfile] at hsinks
    | some sink =>
      obtain ⟨hmem, hverbosity⟩ := hlisted sink hfile
      have hsinks : (s.addConsoleSink logger).sinkState.HasSinks :=
        ⟨⟨sink, hfile, List.mem_append_left _ hmem⟩,
          _, rfl, List.mem_append_right _ List.mem_cons_self⟩
      rw [forall_prop_of_true hsinks, forall_prop_of_true (Option.some_ne_none sink),
        forall_prop_of_true rfl, effective_setConsoleLogLevel_iff (h.addConsoleSink logger) hsinks,
        show (s.addConsoleSink logger).m_fileSink = some sink from hfile,
        sinkVerbosity_kept _ rfl (h.file sink hfile), hverbosity]
      exact eLogLevel.verbosity_eq_reach_iff h.fileLogLevel

/-- Assumes: a main logger was created, and there is no file sink unless there is a name for a log
file. The rest of `Init` puts the settings in effect exactly where they are the same. -/
theorem effective_initializeSinks_iff (hlogger : s.m_mainLogger = some logger)
    (hnamed : s.m_fileSink ≠ none → s.m_sLogFile ≠ [])
    (created : Created) :
    ((s.initializeSinks created).2.sinkState.HasSinks →
      (s.initializeSinks created).2.Effective) ↔
      (created.fileSink = true → created.consoleSink = true → s.m_sLogFile ≠ [] →
        s.m_nConsoleLogLevel = s.m_nFileLogLevel) := by
  rw [initializeSinks]
  by_cases hfile : s.m_sLogFile = []
  · have hnone : s.m_fileSink = none := not_not.mp fun hsome ↦ hnamed hsome hfile
    rw [if_neg (not_not.mpr hfile)]
    dsimp only
    rw [if_neg Bool.true_eq_false.mp, effective_completeInit_iff h hlogger (by simp [hnone])]
    exact iff_of_true (fun hsome ↦ absurd hnone hsome) fun _ _ hfound ↦ absurd hfile hfound
  · rw [if_pos hfile]
    cases hcreated : created.fileSink with
    | false =>
      refine iff_of_true (fun hsinks ↦ ?_) fun hyes ↦ absurd hyes Bool.false_ne_true
      simp [HasSinks, sinkState, initializeFileSink, hlogger] at hsinks
    | true =>
      rw [initializeFileSink_true hlogger]
      have hfound : (s.addFileSink logger).m_fileSink ≠ none := Option.some_ne_none _
      dsimp only
      rw [if_neg Bool.true_eq_false.mp, forall_prop_of_true rfl,
        effective_completeInit_iff (h.addFileSink logger) rfl ?_, forall_prop_of_true hfound]
      · exact ⟨fun hsame hcreated _ ↦ hsame hcreated, fun hsame hcreated ↦ hsame hcreated hfile⟩
      · rintro sink ⟨⟩
        exact ⟨List.mem_append_right _ List.mem_cons_self, sinkVerbosity_created _ rfl _⟩

omit h in
/-- The settings that `Init` takes from its arguments. -/
theorem configure_eq (s : CLogger) (sLogName : List Char) (consoleLogLevel : eLogLevel)
    (sLogFile sLogDir : List Char) :
    s.configure sLogName consoleLogLevel sLogFile sLogDir =
      { s with
        m_sLogName := sLogName
        m_sLogFile := if sLogFile ≠ [] then sLogFile else s.m_sLogFile
        m_sLogDir := if sLogDir ≠ [] then sLogDir else s.m_sLogDir
        m_nConsoleLogLevel :=
          if 0 ≤ consoleLogLevel.value then consoleLogLevel else s.m_nConsoleLogLevel } := by
  rw [configure]
  by_cases hfile : sLogFile = [] <;> by_cases hdir : sLogDir = [] <;>
    by_cases hlevel : 0 ≤ consoleLogLevel.value <;> simp [hfile, hdir, hlevel]

theorem Placed.completeInit (created : Bool) : (s.completeInit created).2.Placed := by
  have hconsole := h.initializeConsoleSink created
  rw [CLogger.completeInit]
  generalize s.initializeConsoleSink created = result at hconsole
  obtain ⟨_ | _, after⟩ := result
  · exact hconsole
  · exact hconsole.setConsoleLogLevel after.m_nConsoleLogLevel

theorem Placed.initializeSinks (created : Created) : (s.initializeSinks created).2.Placed := by
  have hfile := h.initializeFileSink created.fileSink
  rw [CLogger.initializeSinks]
  by_cases hnamed : s.m_sLogFile = []
  · rw [if_neg (not_not.mpr hnamed)]
    exact h.completeInit created.consoleSink
  · rw [if_pos hnamed]
    generalize s.initializeFileSink created.fileSink = result at hfile
    obtain ⟨_ | _, after⟩ := result
    · exact hfile
    · exact hfile.completeInit created.consoleSink

section Init

variable (sLogName : List Char) (consoleLogLevel : eLogLevel) (sLogFile sLogDir : List Char)
  {created : Created}

omit h in
theorem Init_of_created (hcreated : created.mainLogger = true) :
    s.Init sLogName consoleLogLevel sLogFile sLogDir created =
      initializeSinks { s.configure sLogName consoleLogLevel sLogFile sLogDir with
        m_mainLogger :=
          some ⟨(s.configure sLogName consoleLogLevel sLogFile sLogDir).m_sLogName,
            (s.configure sLogName consoleLogLevel sLogFile sLogDir).globalLevel, []⟩ } created := by
  simp [Init, initializeMainLogger, hcreated]

omit h in
theorem Init_of_not_created (hcreated : created.mainLogger = false) :
    s.Init sLogName consoleLogLevel sLogFile sLogDir created =
      (false, { s.configure sLogName consoleLogLevel sLogFile sLogDir with
        m_mainLogger := none }) := by
  simp [Init, initializeMainLogger, hcreated]

/-- The main logger is not part of what `Placed` is about. -/
theorem Placed.configure (mainLogger : Option Logger) :
    Placed { s.configure sLogName consoleLogLevel sLogFile sLogDir with
      m_mainLogger := mainLogger } := by
  rw [configure_eq]
  exact h.of_eq rfl rfl rfl h.fileLogLevel

variable (created)

theorem Placed.Init : (s.Init sLogName consoleLogLevel sLogFile sLogDir created).2.Placed := by
  cases hcreated : created.mainLogger with
  | false =>
    rw [Init_of_not_created _ _ _ _ hcreated]
    exact h.configure _ _ _ _ none
  | true =>
    rw [Init_of_created _ _ _ _ hcreated]
    exact (h.configure _ _ _ _ _).initializeSinks created

/-- `Init` puts the settings in effect exactly where they are the same. -/
theorem effective_Init_iff (hv : s.sinkState.WellFormed) :
    ((s.Init sLogName consoleLogLevel sLogFile sLogDir created).2.sinkState.HasSinks →
      (s.Init sLogName consoleLogLevel sLogFile sLogDir created).2.Effective) ↔
      s.TakesEffect (.Init sLogName consoleLogLevel sLogFile sLogDir created) := by
  rw [TakesEffect]
  cases hcreated : created.mainLogger with
  | false =>
    rw [Init_of_not_created _ _ _ _ hcreated]
    refine iff_of_true (fun hsinks ↦ ?_) ?_
    · simp [HasSinks, sinkState] at hsinks
    · rintro rfl
      exact absurd hcreated Bool.true_eq_false.mp
  | true =>
    have hnamed : s.m_fileSink ≠ none →
        (s.configure sLogName consoleLogLevel sLogFile sLogDir).m_sLogFile ≠ [] := by
      intro hsome
      have hlogFile : s.m_sLogFile ≠ [] := by simpa [sinkState] using hv.named hsome
      by_cases hfile : sLogFile = [] <;> simp [configure_eq, hfile, hlogFile]
    rw [Init_of_created _ _ _ _ hcreated,
      effective_initializeSinks_iff (h.configure _ _ _ _ _) rfl
        (by simpa [configure_eq] using hnamed)]
    obtain ⟨mainLogger, fileSink, consoleSink⟩ := created
    by_cases hfile : sLogFile = [] <;>
      simp_all [configure_eq]

end Init

end Calls

/-! ### All calls -/

section Sessions

variable {session : Session} (h : session.logger.Placed)
include h

theorem Session.placed_next (call : LoggerCall) : (session.next call).logger.Placed := by
  cases call with
  | Init sLogName consoleLogLevel sLogFile sLogDir created => exact Placed.Init h ..
  | setLogFile sFile sDir fileLogLevel created => exact Placed.setLogFile h ..
  | setLogLevel fileLogLevel consoleLogLevel => exact Placed.setLogLevel h ..
  | setConsoleLogLevel logLevel => exact Placed.setConsoleLogLevel h logLevel

/-- A call leaves the settings in effect exactly where it meets its condition. -/
theorem Session.effective_next_iff (hv : session.logger.sinkState.WellFormed)
    (hgood : session.logger.sinkState.HasSinks → session.logger.Effective) (call : LoggerCall) :
    ((session.next call).logger.sinkState.HasSinks → (session.next call).logger.Effective) ↔
      session.logger.TakesEffect call := by
  cases call with
  | Init sLogName consoleLogLevel sLogFile sLogDir created =>
    exact effective_Init_iff h _ _ _ _ _ hv
  | setLogFile sFile sDir fileLogLevel created => exact effective_setLogFile_iff h hgood _ _ _ _
  | setLogLevel fileLogLevel consoleLogLevel =>
    rw [next, sinkState_setLogLevel]
    exact forall_congr' fun hsinks ↦ effective_setLogLevel_iff h hsinks _ _
  | setConsoleLogLevel logLevel =>
    rw [next, sinkState_setConsoleLogLevel]
    exact forall_congr' fun hsinks ↦ effective_setConsoleLogLevel_iff h hsinks _

end Sessions

variable (logLevel : eLogLevel) (sLogFile sLogDir : List Char)

theorem session_placed (calls : List LoggerCall) :
    (session (new logLevel sLogFile sLogDir) calls).logger.Placed := by
  induction calls using List.reverseRecOn with
  | nil => exact ⟨nofun, nofun, nofun, nofun⟩
  | append_singleton calls call ih =>
    rw [session_concat]
    exact Session.placed_next ih call

/-- The settings are in effect after each call that leaves the main logger with both sinks, exactly
where each call meets its condition. -/
theorem settings_effective_iff (calls : List LoggerCall) :
    (∀ before, before <+: calls →
      (session (new logLevel sLogFile sLogDir) before).logger.sinkState.HasSinks →
        (session (new logLevel sLogFile sLogDir) before).logger.Effective) ↔
      ∀ before call, before ++ [call] <+: calls →
        (session (new logLevel sLogFile sLogDir) before).logger.TakesEffect call := by
  refine forall_isPrefix_iff (fun hsinks ↦ ?_) (fun before call hgood ↦ ?_) calls
  · obtain ⟨⟨sink, hsink, -⟩, -⟩ := hsinks
    cases hsink
  · rw [session_concat]
    exact Session.effective_next_iff (session_placed logLevel sLogFile sLogDir before)
      (session_wellFormed logLevel sLogFile sLogDir before) hgood call

/-- Behind an `Init` for warnings on the console, the information that is meant for the file is not
delivered to it. -/
theorem not_effective_Init_warning :
    ¬((session (new .warning [] [])
      [.Init ['a'] .warning ['b'] [] ⟨true, true, true⟩]).logger.sinkState.HasSinks →
      (session (new .warning [] [])
        [.Init ['a'] .warning ['b'] [] ⟨true, true, true⟩]).logger.Effective) := by
  intro h
  have heffective := h ⟨⟨_, rfl, by decide⟩, _, rfl, by decide⟩
  exact absurd ((heffective .info (by decide)).1.mpr (by decide)) (by decide)

end CLogger

end RdbLibs.Logging
