import Mathlib.Data.List.Count
import RdbLibs.Foundations.Runs
import RdbLibs.Logging.CLogger

/-!
# The sinks of the main logger

A `CLogger` keeps pointers to its two sinks beside the list of the main logger. When a file sink is
replaced, `initializeFileSink` does not look for the old one in the list: it erases the first sink
that is there. `SinkState` is what the calls read and change of an object for that: each call is a
few operations on it. `init_consistent` says that `Init` leaves the list and the pointers consistent
from any state, and `replaceFile_consistent_iff` that `setLogFile` does so exactly where it finds no
file sink, or finds it in front.
-/

set_option autoImplicit false
set_option relaxedAutoImplicit false

namespace RdbLibs.Logging

open Runs

/-- What the main logger and the object know of the sinks. `named` is whether there is a name for a
log file. -/
structure SinkState where
  created : Bool
  sinks : List (Option Sink)
  consoleSink : Option Sink
  fileSink : Option Sink
  named : Bool

namespace SinkState

/-- What a vector of sinks gets when the creation of a sink has left a pointer. -/
def pushed : Option Sink → List (Option Sink)
  | none => []
  | some sink => [some sink]

/-- A new main logger. -/
def renew (v : SinkState) : SinkState := { v with created := true, sinks := [] }

/-- The file sink is replaced. -/
def replaceFile (v : SinkState) (fileSink : Option Sink) : SinkState :=
  { v with
    sinks := (if v.fileSink ≠ none then CLogger.eraseFirst v.sinks else v.sinks) ++ pushed fileSink
    fileSink := fileSink }

/-- A console sink is added. -/
def addConsole (v : SinkState) (consoleSink : Option Sink) : SinkState :=
  { v with sinks := v.sinks ++ pushed consoleSink, consoleSink := consoleSink }

/-- Whether an entry of the list is a file sink. -/
def isFileEntry (entry : Option Sink) : Bool := entry.any Sink.isFile

/-- Whether an entry of the list is a console sink. -/
def isConsoleEntry (entry : Option Sink) : Bool := entry.any fun sink ↦ !sink.isFile

/-- The list has at most one sink of each class. It has the console sink where `Init` has succeeded,
and no file sink but the one of the object. -/
structure Consistent (v : SinkState) (initialized : Bool) : Prop where
  oneFile : v.sinks.countP isFileEntry ≤ 1
  oneConsole : v.sinks.countP isConsoleEntry ≤ 1
  console : initialized = true → ∃ sink, v.consoleSink = some sink ∧ some sink ∈ v.sinks
  file : ∀ sink, some sink ∈ v.sinks → sink.isFile = true → v.fileSink = some sink

/-- What holds between any two calls. -/
structure WellFormed (v : SinkState) : Prop where
  present : none ∉ v.sinks
  consoleClass : ∀ sink, v.consoleSink = some sink → sink.isFile = false
  fileClass : ∀ sink, v.fileSink = some sink → sink.isFile = true
  named : v.fileSink ≠ none → v.named = true
  listed : v.created = true → ∀ sink, v.fileSink = some sink → some sink ∈ v.sinks

end SinkState

namespace CLogger

/-- The sinks of a `CLogger`. -/
def sinkState (s : CLogger) : SinkState where
  created := s.m_mainLogger.isSome
  sinks := (s.m_mainLogger.map Logger.sinks).getD []
  consoleSink := s.m_consoleSink
  fileSink := s.m_fileSink
  named := decide (s.m_sLogFile ≠ [])

end CLogger

/-! ### Operations -/

namespace SinkState

@[simp] theorem eraseFirst_cons (sink : Sink) (sinks : List (Option Sink)) :
    CLogger.eraseFirst (some sink :: sinks) = sinks := rfl

theorem mem_pushed {sink : Sink} {pointer : Option Sink} :
    some sink ∈ pushed pointer ↔ pointer = some sink := by
  cases pointer <;> simp [pushed, eq_comm]

theorem none_notMem_pushed (pointer : Option Sink) : none ∉ pushed pointer := by
  cases pointer <;> simp [pushed]

theorem countP_pushed_le (isEntry : Option Sink → Bool) (pointer : Option Sink) :
    (pushed pointer).countP isEntry ≤ 1 := by
  refine List.countP_le_length.trans ?_
  cases pointer <;> simp [pushed]

theorem countP_console_pushed {fileSink : Option Sink}
    (hclass : ∀ sink, fileSink = some sink → sink.isFile = true) :
    (pushed fileSink).countP isConsoleEntry = 0 := by
  cases fileSink with
  | none => rfl
  | some sink => simp [pushed, isConsoleEntry, hclass sink rfl]

theorem countP_file_pushed {consoleSink : Option Sink}
    (hclass : ∀ sink, consoleSink = some sink → sink.isFile = false) :
    (pushed consoleSink).countP isFileEntry = 0 := by
  cases consoleSink with
  | none => rfl
  | some sink => simp [pushed, isFileEntry, hclass sink rfl]

section Replace

variable {v : SinkState} {fileSink : Option Sink} {initialized : Bool}
  (hclass : ∀ sink, fileSink = some sink → sink.isFile = true)
include hclass

/-- A file sink is added to a list that has none. -/
theorem consistent_append {kept : List (Option Sink)}
    (hfile : ∀ sink, some sink ∈ kept → sink.isFile = false)
    (hone : kept.countP isConsoleEntry ≤ 1)
    (hconsole : initialized = true → ∃ sink, v.consoleSink = some sink ∧ some sink ∈ kept) :
    Consistent { v with sinks := kept ++ pushed fileSink, fileSink := fileSink } initialized := by
  have hnone : kept.countP isFileEntry = 0 := by
    rw [List.countP_eq_zero]
    rintro (_ | sink) hsink
    · simp [isFileEntry]
    · simpa [isFileEntry] using hfile sink hsink
  refine ⟨?_, ?_, ?_, ?_⟩
  · rw [List.countP_append, hnone, Nat.zero_add]
    exact countP_pushed_le isFileEntry fileSink
  · rwa [List.countP_append, countP_console_pushed hclass]
  · intro hinitialized
    obtain ⟨sink, hpointer, hlisted⟩ := hconsole hinitialized
    exact ⟨sink, hpointer, List.mem_append_left _ hlisted⟩
  · intro sink hsink hisFile
    obtain hkept | hpushed := List.mem_append.mp hsink
    · rw [hfile sink hkept] at hisFile
      exact Bool.noConfusion hisFile
    · exact mem_pushed.mp hpushed

/-- The first file sink is put into a list. -/
theorem Consistent.replaceFile_none (h : v.Consistent initialized) (hnone : v.fileSink = none) :
    (v.replaceFile fileSink).Consistent initialized := by
  rw [replaceFile, if_neg (by simpa using hnone)]
  refine consistent_append hclass (fun sink hsink ↦ ?_) h.oneConsole h.console
  by_contra hisFile
  rw [Bool.not_eq_false] at hisFile
  simpa [hnone] using h.file sink hsink hisFile

/-- The file sink in front of a list gives way to another one. -/
theorem Consistent.behindFirst {old : Sink} {tail : List (Option Sink)}
    (h : v.Consistent initialized) (hv : v.WellFormed) (hsinks : v.sinks = some old :: tail)
    (hisFile : old.isFile = true) :
    Consistent { v with sinks := tail ++ pushed fileSink, fileSink := fileSink } initialized := by
  have hcount := h.oneFile
  rw [hsinks, List.countP_cons] at hcount
  have hnone : tail.countP isFileEntry = 0 := by
    simpa [isFileEntry, hisFile] using hcount
  rw [List.countP_eq_zero] at hnone
  refine consistent_append hclass (fun sink hsink ↦ ?_) ?_ fun hinitialized ↦ ?_
  · exact Bool.eq_false_iff.mpr (hnone (some sink) hsink)
  · refine le_trans ?_ h.oneConsole
    rw [hsinks]
    exact (List.sublist_cons_self _ _).countP_le
  · obtain ⟨sink, hpointer, hmem⟩ := h.console hinitialized
    refine ⟨sink, hpointer, ?_⟩
    rw [hsinks, List.mem_cons, Option.some_inj] at hmem
    refine hmem.resolve_left fun hsame ↦ ?_
    rw [← hsame, hv.consoleClass sink hpointer] at hisFile
    exact Bool.noConfusion hisFile

omit hclass in
/-- A file sink that stays in the list is one too many, or is not the one of the object. -/
theorem not_consistent_of_kept {old : Sink} {kept : List (Option Sink)} (hkept : some old ∈ kept)
    (hisFile : old.isFile = true) :
    ¬Consistent { v with sinks := kept ++ pushed fileSink, fileSink := fileSink } initialized := by
  intro hafter
  have hnew := hafter.file old (List.mem_append_left _ hkept) hisFile
  have hone : (kept ++ pushed fileSink).countP isFileEntry ≤ 1 := hafter.oneFile
  have hbefore : 0 < kept.countP isFileEntry :=
    List.countP_pos_iff.mpr ⟨some old, hkept, hisFile⟩
  have hbehind : 0 < (pushed fileSink).countP isFileEntry :=
    List.countP_pos_iff.mpr ⟨some old, mem_pushed.mpr hnew, hisFile⟩
  rw [List.countP_append] at hone
  omega

omit hclass in
/-- A list that has a sink starts with one. -/
theorem WellFormed.exists_cons {old : Sink} (hv : v.WellFormed) (hlisted : some old ∈ v.sinks) :
    ∃ first tail, v.sinks = some first :: tail := by
  cases hsinks : v.sinks with
  | nil => simp [hsinks] at hlisted
  | cons entry tail =>
    cases entry with
    | none => exact absurd (hsinks ▸ List.mem_cons_self) hv.present
    | some first => exact ⟨first, tail, rfl⟩

/-- Assumes: the list is consistent, and there is a main logger. Replacing the file sink keeps it so
exactly where there is no file sink yet, or where it is the first of the list. -/
theorem replaceFile_consistent_iff (hv : v.WellFormed) (hcreated : v.created = true)
    (h : v.Consistent initialized) :
    (v.replaceFile fileSink).Consistent initialized ↔
      v.fileSink = none ∨ v.sinks.head? = some v.fileSink := by
  cases hold : v.fileSink with
  | none => exact iff_of_true (h.replaceFile_none hclass hold) (.inl rfl)
  | some old =>
    have hlisted := hv.listed hcreated old hold
    have hisFile := hv.fileClass old hold
    obtain ⟨first, tail, hsinks⟩ := hv.exists_cons hlisted
    rw [hsinks] at hlisted
    rw [hsinks, replaceFile, if_pos (by simp [hold]), hsinks, eraseFirst_cons, List.head?_cons,
      Option.some_inj, Option.some_inj, or_iff_right (Option.some_ne_none old)]
    constructor
    · intro hafter
      by_contra hfirst
      have hkept : some old ∈ tail := by simpa [Ne.symm hfirst] using hlisted
      exact not_consistent_of_kept hkept hisFile hafter
    · rintro rfl
      exact h.behindFirst hclass hv hsinks hisFile

/-- Replacing the file sink keeps what holds between calls, where there is a name for the file. -/
theorem WellFormed.replaceFile (hv : v.WellFormed) (hnamed : v.named = true) :
    (v.replaceFile fileSink).WellFormed := by
  refine ⟨?_, hv.consoleClass, hclass, fun _ ↦ hnamed, fun _ sink hsink ↦ ?_⟩
  · intro hmem
    obtain hkept | hpushed := List.mem_append.mp hmem
    · split_ifs at hkept
      · exact hv.present (List.mem_of_mem_eraseP hkept)
      · exact hv.present hkept
    · exact none_notMem_pushed fileSink hpushed
  · exact List.mem_append_right _ (mem_pushed.mpr hsink)

end Replace

/-- A list that has the file sink of the object and nothing else. -/
structure FileOnly (v : SinkState) : Prop where
  sinks : v.sinks = pushed v.fileSink
  consoleClass : ∀ sink, v.consoleSink = some sink → sink.isFile = false
  fileClass : ∀ sink, v.fileSink = some sink → sink.isFile = true
  named : v.fileSink ≠ none → v.named = true

section Renew

variable {v : SinkState} (hv : v.WellFormed)
include hv

theorem WellFormed.fileOnly_renew (hnamed : v.named = false) : v.renew.FileOnly := by
  have hnone : v.fileSink = none := by
    by_contra hsome
    exact Bool.noConfusion (hnamed.symm.trans (hv.named hsome))
  exact ⟨by simp [renew, hnone, pushed], hv.consoleClass, hv.fileClass, hv.named⟩

theorem WellFormed.fileOnly_replaceFile (hnamed : v.named = true) {fileSink : Option Sink}
    (hclass : ∀ sink, fileSink = some sink → sink.isFile = true) :
    (v.renew.replaceFile fileSink).FileOnly := by
  refine ⟨?_, hv.consoleClass, hclass, fun _ ↦ hnamed⟩
  show (if v.fileSink ≠ none then CLogger.eraseFirst [] else []) ++ pushed fileSink = _
  split_ifs <;> rfl

/-- Without a main logger there is no list. -/
theorem WellFormed.discard :
    WellFormed { v with created := false, sinks := [] } ∧
      Consistent { v with created := false, sinks := [] } false :=
  ⟨⟨by simp, hv.consoleClass, hv.fileClass, hv.named, by simp⟩, by simp, by simp, by simp, by simp⟩

end Renew

section FileOnly

variable {v : SinkState} (hv : v.FileOnly)
include hv

theorem FileOnly.consistent : v.WellFormed ∧ v.Consistent false := by
  refine ⟨⟨?_, hv.consoleClass, hv.fileClass, hv.named, fun _ sink hsink ↦ ?_⟩,
    ?_, ?_, by simp, fun sink hsink _ ↦ ?_⟩
  · rw [hv.sinks]
    exact none_notMem_pushed v.fileSink
  · rwa [hv.sinks, mem_pushed]
  · rw [hv.sinks]
    exact countP_pushed_le isFileEntry v.fileSink
  · rw [hv.sinks]
    exact countP_pushed_le isConsoleEntry v.fileSink
  · rwa [hv.sinks, mem_pushed] at hsink

/-- The console sink is added behind the file sink. -/
theorem FileOnly.addConsole {consoleSink : Option Sink}
    (hclass : ∀ sink, consoleSink = some sink → sink.isFile = false) :
    (v.addConsole consoleSink).WellFormed ∧
      (v.addConsole consoleSink).Consistent consoleSink.isSome := by
  have hsinks : (v.addConsole consoleSink).sinks = pushed v.fileSink ++ pushed consoleSink := by
    rw [SinkState.addConsole, hv.sinks]
  refine ⟨⟨?_, hclass, hv.fileClass, hv.named, fun _ sink hsink ↦ ?_⟩, ?_, ?_, fun hsome ↦ ?_,
    fun sink hsink hisFile ↦ ?_⟩
  · rw [hsinks, List.mem_append, not_or]
    exact ⟨none_notMem_pushed v.fileSink, none_notMem_pushed consoleSink⟩
  · rw [hsinks, List.mem_append, mem_pushed]
    exact .inl hsink
  · rw [hsinks, List.countP_append, countP_file_pushed hclass]
    exact countP_pushed_le isFileEntry v.fileSink
  · rw [hsinks, List.countP_append, countP_console_pushed hv.fileClass, Nat.zero_add]
    exact countP_pushed_le isConsoleEntry consoleSink
  · obtain ⟨sink, hsink⟩ := Option.isSome_iff_exists.mp hsome
    exact ⟨sink, hsink, by rw [hsinks, List.mem_append, mem_pushed, mem_pushed]; exact .inr hsink⟩
  · rw [hsinks, List.mem_append, mem_pushed, mem_pushed] at hsink
    refine hsink.resolve_right fun hconsole ↦ ?_
    rw [hclass sink hconsole] at hisFile
    exact Bool.noConfusion hisFile

end FileOnly

end SinkState

namespace CLogger

open SinkState

/-- A call of the class, with what the library creates for it. -/
inductive LoggerCall
  | Init (sLogName : List Char) (consoleLogLevel : eLogLevel) (sLogFile sLogDir : List Char)
      (created : Created)
  | setLogFile (sFile sDir : List Char) (fileLogLevel : eLogLevel) (created : Bool)
  | setLogLevel (fileLogLevel consoleLogLevel : eLogLevel)
  | setConsoleLogLevel (logLevel : eLogLevel)

/-- A `CLogger`, and whether its last `Init` has succeeded. -/
structure Session where
  logger : CLogger
  initialized : Bool

/-- What a call leaves. -/
def Session.next (session : Session) : LoggerCall → Session
  | .Init sLogName consoleLogLevel sLogFile sLogDir created =>
    let (status, logger) :=
      session.logger.Init sLogName consoleLogLevel sLogFile sLogDir created
    ⟨logger, status⟩
  | .setLogFile sFile sDir fileLogLevel created =>
    { session with logger := (session.logger.setLogFile sFile sDir fileLogLevel created).2 }
  | .setLogLevel fileLogLevel consoleLogLevel =>
    { session with logger := session.logger.setLogLevel fileLogLevel consoleLogLevel }
  | .setConsoleLogLevel logLevel =>
    { session with logger := session.logger.setConsoleLogLevel logLevel }

/-- The session of some calls, from the construction of the object on. -/
def session (logger : CLogger) (calls : List LoggerCall) : Session :=
  calls.foldl Session.next ⟨logger, false⟩

section Views

variable (s : CLogger)

@[simp] theorem sinkState_setSinkLevel (sink : Option Sink) (level : level_enum) :
    (s.setSinkLevel sink level).sinkState = s.sinkState := by
  cases sink <;> rfl

@[simp] theorem sinkState_setLoggerLevel (level : level_enum) :
    (s.setLoggerLevel level).sinkState = s.sinkState := by
  rw [setLoggerLevel]
  cases hlogger : s.m_mainLogger <;> simp [sinkState, hlogger]

@[simp] theorem sinkState_setConsoleLogLevel (logLevel : eLogLevel) :
    (s.setConsoleLogLevel logLevel).sinkState = s.sinkState := by
  rw [setConsoleLogLevel, sinkState_setLoggerLevel, sinkState_setSinkLevel]
  split_ifs <;> rfl

@[simp] theorem sinkState_setLogLevel (fileLogLevel consoleLogLevel : eLogLevel) :
    (s.setLogLevel fileLogLevel consoleLogLevel).sinkState = s.sinkState := by
  rw [setLogLevel, sinkState_setLoggerLevel, sinkState_setSinkLevel, sinkState_setSinkLevel]
  split_ifs <;> rfl

variable {s}

theorem sinkState_initializeFileSink (hlogger : s.m_mainLogger.isSome = true) (created : Bool) :
    ∃ fileSink : Option Sink, (∀ sink, fileSink = some sink → sink.isFile = true) ∧
      (s.initializeFileSink created).1 = fileSink.isSome ∧
      (s.initializeFileSink created).2.sinkState = s.sinkState.replaceFile fileSink := by
  obtain ⟨logger, hlogger⟩ := Option.isSome_iff_exists.mp hlogger
  rw [initializeFileSink, hlogger]
  cases created with
  | false =>
    refine ⟨none, by simp, rfl, ?_⟩
    by_cases hold : s.m_fileSink = none
    all_goals simp [sinkState, replaceFile, pushed, hlogger, hold]
  | true =>
    refine ⟨some (s.nextSink (.rotating_file_sink_mt s.chosenPath)), ?_, rfl, ?_⟩
    · rintro sink ⟨⟩
      rfl
    · by_cases hold : s.m_fileSink = none
      all_goals simp [sinkState, replaceFile, pushed, hlogger, hold]

theorem sinkState_initializeConsoleSink (hlogger : s.m_mainLogger.isSome = true) (created : Bool) :
    ∃ consoleSink : Option Sink, (∀ sink, consoleSink = some sink → sink.isFile = false) ∧
      (s.initializeConsoleSink created).1 = consoleSink.isSome ∧
      (s.initializeConsoleSink created).2.sinkState = s.sinkState.addConsole consoleSink := by
  obtain ⟨logger, hlogger⟩ := Option.isSome_iff_exists.mp hlogger
  rw [initializeConsoleSink, hlogger]
  cases created with
  | false =>
    refine ⟨none, by simp, rfl, ?_⟩
    simp [sinkState, addConsole, pushed, hlogger]
  | true =>
    refine ⟨some (s.nextSink .stdout_color_sink_mt), ?_, rfl, ?_⟩
    · rintro sink ⟨⟩
      rfl
    · simp [sinkState, addConsole, pushed, hlogger]

/-- The settings of `Init` give a log file a name, or leave the one that it has. -/
theorem wellFormed_configure (sLogName : List Char) (consoleLogLevel : eLogLevel)
    (sLogFile sLogDir : List Char) (hv : s.sinkState.WellFormed) :
    (s.configure sLogName consoleLogLevel sLogFile sLogDir).sinkState.WellFormed := by
  have hsame : (s.configure sLogName consoleLogLevel sLogFile sLogDir).sinkState =
      { s.sinkState with named := decide (sLogFile ≠ []) || s.sinkState.named } := by
    by_cases hfile : sLogFile = []
    all_goals
      rw [configure]
      simp only [hfile]
      split_ifs <;> simp_all [sinkState]
  rw [hsame]
  exact ⟨hv.present, hv.consoleClass, hv.fileClass, fun h ↦ by simp [hv.named h], hv.listed⟩

/-- Assumes: the main logger has the file sink and nothing else. The end of `Init` leaves the sinks
consistent. -/
theorem completeInit_consistent (hlogger : s.m_mainLogger.isSome = true)
    (hv : s.sinkState.FileOnly) (created : Bool) :
    (s.completeInit created).2.sinkState.WellFormed ∧
      (s.completeInit created).2.sinkState.Consistent (s.completeInit created).1 := by
  obtain ⟨consoleSink, hclass, hstatus, hstate⟩ := sinkState_initializeConsoleSink hlogger created
  have hconsistent := hv.addConsole hclass
  rw [← hstate, ← hstatus] at hconsistent
  rw [completeInit]
  generalize s.initializeConsoleSink created = result at hconsistent
  obtain ⟨status, after⟩ := result
  cases status with
  | false => exact hconsistent
  | true => simpa using hconsistent

/-- Assumes: a main logger was created. The rest of `Init` leaves the sinks consistent. -/
theorem initializeSinks_consistent {v : SinkState} (hv : v.WellFormed)
    (hrenewed : s.sinkState = v.renew) (created : Created) :
    (s.initializeSinks created).2.sinkState.WellFormed ∧
      (s.initializeSinks created).2.sinkState.Consistent (s.initializeSinks created).1 := by
  have hlogger : s.m_mainLogger.isSome = true := congrArg SinkState.created hrenewed
  have hnamed : decide (s.m_sLogFile ≠ []) = v.named := congrArg SinkState.named hrenewed
  rw [initializeSinks]
  by_cases hfile : s.m_sLogFile = []
  · have hunnamed : v.named = false := by simp [← hnamed, hfile]
    have honly : s.sinkState.FileOnly := hrenewed ▸ hv.fileOnly_renew hunnamed
    rw [if_neg (not_not.mpr hfile)]
    exact completeInit_consistent hlogger honly created.consoleSink
  · have hnamed : v.named = true := by simp [← hnamed, hfile]
    obtain ⟨fileSink, hclass, hstatus, hstate⟩ :=
      sinkState_initializeFileSink hlogger created.fileSink
    have honly : (s.initializeFileSink created.fileSink).2.sinkState.FileOnly := by
      rw [hstate, hrenewed]
      exact hv.fileOnly_replaceFile hnamed hclass
    have hcreated : (s.initializeFileSink created.fileSink).2.m_mainLogger.isSome = true := by
      have := congrArg SinkState.created hstate
      exact this.trans hlogger
    rw [if_pos hfile]
    generalize s.initializeFileSink created.fileSink = result at honly hcreated
    obtain ⟨status, after⟩ := result
    cases status with
    | false => exact honly.consistent
    | true => exact completeInit_consistent hcreated honly created.consoleSink

/-- `Init` leaves the sinks consistent. -/
theorem init_consistent (hv : s.sinkState.WellFormed) (sLogName : List Char)
    (consoleLogLevel : eLogLevel) (sLogFile sLogDir : List Char) (created : Created) :
    (s.Init sLogName consoleLogLevel sLogFile sLogDir created).2.sinkState.WellFormed ∧
      (s.Init sLogName consoleLogLevel sLogFile sLogDir created).2.sinkState.Consistent
        (s.Init sLogName consoleLogLevel sLogFile sLogDir created).1 := by
  have hconfigured := wellFormed_configure sLogName consoleLogLevel sLogFile sLogDir hv
  rw [Init]
  generalize s.configure sLogName consoleLogLevel sLogFile sLogDir = s at hconfigured
  cases hmain : created.mainLogger with
  | false => exact hconfigured.discard
  | true => exact initializeSinks_consistent hconfigured rfl created

/-- The settings of `setLogFile` give the log file a name, or refuse the call. -/
theorem chooseLogFile_cases (sFile sDir : List Char) :
    s.chooseLogFile sFile sDir = (false, s) ∧ s.m_sLogFile = [] ∨
      (s.chooseLogFile sFile sDir).1 = true ∧
        (s.chooseLogFile sFile sDir).2.sinkState = { s.sinkState with named := true } := by
  rw [chooseLogFile]
  by_cases hfile : sFile = []
  · by_cases hlogFile : s.m_sLogFile = []
    · by_cases hname : s.m_sLogName = []
      · simp [hfile, hlogFile, hname]
      · by_cases hdir : sDir = [] <;> simp [sinkState, hfile, hlogFile, hname, hdir]
    · by_cases hdir : sDir = [] <;> simp [sinkState, hfile, hlogFile, hdir]
  · by_cases hdir : sDir = [] <;> simp [sinkState, hfile, hdir]

/-- The level of the file sink is not part of the state of the sinks. -/
theorem sinkState_setLogFile {sFile sDir : List Char} {chosen : CLogger}
    (hchosen : s.chooseLogFile sFile sDir = (true, chosen)) (fileLogLevel : eLogLevel)
    (created : Bool) :
    (s.setLogFile sFile sDir fileLogLevel created).2.sinkState =
      (chosen.initializeFileSink created).2.sinkState := by
  rw [setLogFile, hchosen]
  dsimp only
  rw [if_neg Bool.true_eq_false.mp]
  generalize chosen.initializeFileSink created = result
  obtain ⟨status, after⟩ := result
  cases status with
  | false => rfl
  | true => by_cases hlevel : fileLogLevel = .useDefault <;> simp [hlevel]

/-- `setLogFile` replaces the file sink, unless it finds no name for the file or no main logger. -/
theorem setLogFile_cases (hv : s.sinkState.WellFormed) (sFile sDir : List Char)
    (fileLogLevel : eLogLevel) (created : Bool) :
    s.m_fileSink = none ∧
        (s.setLogFile sFile sDir fileLogLevel created).2.sinkState = s.sinkState ∨
      s.m_mainLogger = none ∧ (s.setLogFile sFile sDir fileLogLevel created).2.sinkState =
        { s.sinkState with named := true } ∨
      s.m_mainLogger ≠ none ∧ ∃ fileSink : Option Sink,
        (∀ sink, fileSink = some sink → sink.isFile = true) ∧
        (s.setLogFile sFile sDir fileLogLevel created).2.sinkState =
          SinkState.replaceFile { s.sinkState with named := true } fileSink := by
  obtain ⟨hrefused, hfile⟩ | ⟨hchosen, hstate⟩ := chooseLogFile_cases (s := s) sFile sDir
  · refine .inl ⟨?_, by rw [setLogFile, hrefused]; rfl⟩
    by_contra hsome
    have hnamed := hv.named hsome
    simp [sinkState, hfile] at hnamed
  · have hresult : s.chooseLogFile sFile sDir = (true, (s.chooseLogFile sFile sDir).2) :=
      Prod.ext hchosen rfl
    rw [sinkState_setLogFile hresult]
    generalize (s.chooseLogFile sFile sDir).2 = chosen at hstate
    have hcreated : chosen.m_mainLogger.isSome = s.m_mainLogger.isSome :=
      congrArg SinkState.created hstate
    by_cases hlogger : s.m_mainLogger = none
    · refine .inr (.inl ⟨hlogger, ?_⟩)
      rw [hlogger, Option.isSome_none, Option.isSome_eq_false_iff, Option.isNone_iff_eq_none]
        at hcreated
      rw [initializeFileSink, hcreated]
      exact hstate
    · have hsome : chosen.m_mainLogger.isSome = true := by
        rwa [hcreated, Option.isSome_iff_ne_none]
      obtain ⟨fileSink, hclass, -, hreplaced⟩ := sinkState_initializeFileSink hsome created
      exact .inr (.inr ⟨hlogger, fileSink, hclass, hstate ▸ hreplaced⟩)

/-- The calls that leave the sinks consistent. `setLogFile` does so without a main logger, where it
finds no file sink, and where it finds the file sink in front of the list. -/
def Harmless (s : CLogger) : LoggerCall → Prop
  | .setLogFile .. => s.m_mainLogger ≠ none →
      s.m_fileSink = none ∨ s.sinkState.sinks.head? = some s.m_fileSink
  | _ => True

theorem setLogFile_wellFormed (hv : s.sinkState.WellFormed) (sFile sDir : List Char)
    (fileLogLevel : eLogLevel) (created : Bool) :
    (s.setLogFile sFile sDir fileLogLevel created).2.sinkState.WellFormed := by
  have hnamed : SinkState.WellFormed { s.sinkState with named := true } :=
    ⟨hv.present, hv.consoleClass, hv.fileClass, fun _ ↦ rfl, hv.listed⟩
  obtain ⟨-, hstate⟩ | ⟨-, hstate⟩ | ⟨-, fileSink, hclass, hstate⟩ :=
    setLogFile_cases hv sFile sDir fileLogLevel created
  · rwa [hstate]
  · rwa [hstate]
  · rw [hstate]
    exact hnamed.replaceFile hclass rfl

theorem setLogFile_consistent_iff (hv : s.sinkState.WellFormed) {initialized : Bool}
    (h : s.sinkState.Consistent initialized) (sFile sDir : List Char) (fileLogLevel : eLogLevel)
    (created : Bool) :
    (s.setLogFile sFile sDir fileLogLevel created).2.sinkState.Consistent initialized ↔
      s.Harmless (.setLogFile sFile sDir fileLogLevel created) := by
  have hnamed : SinkState.WellFormed { s.sinkState with named := true } :=
    ⟨hv.present, hv.consoleClass, hv.fileClass, fun _ ↦ rfl, hv.listed⟩
  have hconsistent : SinkState.Consistent { s.sinkState with named := true } initialized :=
    ⟨h.oneFile, h.oneConsole, h.console, h.file⟩
  obtain ⟨hnone, hstate⟩ | ⟨hlogger, hstate⟩ | ⟨hlogger, fileSink, hclass, hstate⟩ :=
    setLogFile_cases hv sFile sDir fileLogLevel created
  · rw [hstate]
    exact iff_of_true h fun _ ↦ .inl hnone
  · rw [hstate]
    exact iff_of_true hconsistent fun hsome ↦ absurd hlogger hsome
  · have hcreated : s.sinkState.created = true := Option.isSome_iff_ne_none.mpr hlogger
    rw [hstate, replaceFile_consistent_iff hclass hnamed hcreated hconsistent, Harmless,
      forall_prop_of_true hlogger]
    rfl

end Views

section Calls

variable {session : Session} (hv : session.logger.sinkState.WellFormed)
include hv

theorem Session.wellFormed_next (call : LoggerCall) :
    (session.next call).logger.sinkState.WellFormed := by
  cases call with
  | Init sLogName consoleLogLevel sLogFile sLogDir created =>
    exact (init_consistent hv sLogName consoleLogLevel sLogFile sLogDir created).1
  | setLogFile sFile sDir fileLogLevel created =>
    exact setLogFile_wellFormed hv sFile sDir fileLogLevel created
  | setLogLevel fileLogLevel consoleLogLevel => simpa [next] using hv
  | setConsoleLogLevel logLevel => simpa [next] using hv

/-- From consistent sinks, a call leaves consistent sinks exactly where it is harmless. -/
theorem Session.consistent_next_iff
    (h : session.logger.sinkState.Consistent session.initialized) (call : LoggerCall) :
    (session.next call).logger.sinkState.Consistent (session.next call).initialized ↔
      session.logger.Harmless call := by
  cases call with
  | Init sLogName consoleLogLevel sLogFile sLogDir created =>
    refine iff_of_true ?_ trivial
    exact (init_consistent hv sLogName consoleLogLevel sLogFile sLogDir created).2
  | setLogFile sFile sDir fileLogLevel created =>
    exact setLogFile_consistent_iff hv h sFile sDir fileLogLevel created
  | setLogLevel fileLogLevel consoleLogLevel => simpa [next, Harmless] using h
  | setConsoleLogLevel logLevel => simpa [next, Harmless] using h

end Calls

variable (logLevel : eLogLevel) (sLogFile sLogDir : List Char)

theorem session_concat (calls : List LoggerCall) (call : LoggerCall) :
    session (new logLevel sLogFile sLogDir) (calls ++ [call]) =
      (session (new logLevel sLogFile sLogDir) calls).next call := List.foldl_append

theorem fileOnly_new : (new logLevel sLogFile sLogDir).sinkState.FileOnly := by
  constructor <;> simp [new, sinkState, pushed]

theorem session_wellFormed (calls : List LoggerCall) :
    (session (new logLevel sLogFile sLogDir) calls).logger.sinkState.WellFormed := by
  induction calls using List.reverseRecOn with
  | nil => exact (fileOnly_new logLevel sLogFile sLogDir).consistent.1
  | append_singleton calls call ih =>
    rw [session_concat]
    exact Session.wellFormed_next ih call

/-- The sinks are consistent after each call exactly where each call is harmless. -/
theorem sinks_consistent_iff (calls : List LoggerCall) :
    (∀ before, before <+: calls →
      (session (new logLevel sLogFile sLogDir) before).logger.sinkState.Consistent
        (session (new logLevel sLogFile sLogDir) before).initialized) ↔
      ∀ before call, before ++ [call] <+: calls →
        (session (new logLevel sLogFile sLogDir) before).logger.Harmless call := by
  refine forall_isPrefix_iff (fileOnly_new logLevel sLogFile sLogDir).consistent.2
    (fun before call h ↦ ?_) calls
  rw [session_concat]
  exact Session.consistent_next_iff (session_wellFormed logLevel sLogFile sLogDir before) h call

/-- A second `setLogFile` erases the console sink, and leaves the file sink of the first one. -/
theorem not_consistent_setLogFile_twice :
    ¬(session (new .warning [] []) [.Init ['a'] .info [] [] ⟨true, true, true⟩,
      .setLogFile ['b'] [] .useDefault true,
      .setLogFile ['c'] [] .useDefault true]).logger.sinkState.Consistent true := by
  intro h
  exact absurd h.oneFile (by decide)

end CLogger

end RdbLibs.Logging
