import Mathlib.Data.List.Induction
import RdbLibs.Other.PrivateProfile.Model

/-!
# The cache of the INI functions

The cache is a function of its file name: it has what the file of that name has, also where there is
no such file. Every call keeps that, so the answer of a call depends on its arguments alone.
-/

set_option autoImplicit false
set_option relaxedAutoImplicit false

namespace RdbLibs.Other

/-- A call of one of the two functions. -/
inductive IniCall
  | string (lpAppName lpKeyName lpDefault : CString) (nSize : ℤ) (lpFileName : CString)
  | int (lpAppName lpKeyName : CString) (nDefault : ℤ) (lpFileName : CString)

/-- The answer of a call. -/
inductive IniAnswer
  | string (answer : StringAnswer)
  | int (answer : ℕ)
deriving DecidableEq

/-- What a call answers, and the cache that it leaves. -/
def IniCache.answer (files : Files) (cache : IniCache) : IniCall → IniAnswer × IniCache
  | .string lpAppName lpKeyName lpDefault nSize lpFileName =>
    let (answer, cache) :=
      GetPrivateProfileString files cache lpAppName lpKeyName lpDefault nSize lpFileName
    (.string answer, cache)
  | .int lpAppName lpKeyName nDefault lpFileName =>
    let (answer, cache) := GetPrivateProfileInt files cache lpAppName lpKeyName nDefault lpFileName
    (.int answer, cache)

/-- The cache after a sequence of calls from the start of the program. -/
def IniCache.after (files : Files) (calls : List IniCall) : IniCache :=
  calls.foldl (fun cache call ↦ (cache.answer files call).2) .initial

/-- The file of a call. -/
def IniCall.lpFileName : IniCall → CString
  | .string _ _ _ _ lpFileName => lpFileName
  | .int _ _ _ lpFileName => lpFileName

namespace IniCache

/-- The cache has what the file of its name has. -/
def Current (files : Files) (cache : IniCache) : Prop :=
  cache.gCurrentINIFile = loadLines (files.content cache.gCurrentINIFileName)

variable {files : Files} {cache : IniCache}

theorem current_initial (files : Files) : initial.Current files := by
  rw [Current, initial, files.content_nil]
  rfl

/-- A current cache, and any file name: both functions go on with what the file has. -/
theorem Current.select_eq (h : cache.Current files) (lpFileName : List Char) :
    cache.select files lpFileName = loadNewINIFile files lpFileName := by
  rw [select]
  split_ifs with hname
  · rfl
  · rw [not_not] at hname
    rw [loadNewINIFile, hname, ← h]

/-- A current cache answers as any other, and stays current. -/
theorem Current.answer_eq (h : cache.Current files) {other : IniCache}
    (hother : other.Current files) (call : IniCall) :
    (cache.answer files call).1 = (other.answer files call).1 := by
  cases call with
  | string lpAppName lpKeyName lpDefault nSize lpFileName =>
    simp only [answer, GetPrivateProfileString, h.select_eq, hother.select_eq]
  | int lpAppName lpKeyName nDefault lpFileName =>
    simp only [answer, GetPrivateProfileInt, h.select_eq, hother.select_eq]

/-- A call leaves the cache of its file. -/
theorem Current.load (h : cache.Current files) (call : IniCall) :
    (cache.answer files call).2 = loadNewINIFile files call.lpFileName.chars := by
  cases call with
  | string lpAppName lpKeyName lpDefault nSize lpFileName =>
    simp only [IniCache.answer, GetPrivateProfileString, h.select_eq, IniCall.lpFileName]
    split <;> rfl
  | int lpAppName lpKeyName nDefault lpFileName =>
    simp only [IniCache.answer, GetPrivateProfileInt, h.select_eq, IniCall.lpFileName]
    split <;> rfl

theorem current_after (files : Files) (calls : List IniCall) :
    (after files calls).Current files := by
  induction calls using List.reverseRecOn with
  | nil => exact current_initial files
  | append_singleton calls call ih =>
    have hload : after files (calls ++ [call]) =
        loadNewINIFile files call.lpFileName.chars := by
      rw [after, List.foldl_concat]
      exact ih.load call
    rw [hload]
    rfl

/-- After any calls, on any files, a call answers what it would have answered as the first. -/
theorem answer_independent (files : Files) (calls : List IniCall) (call : IniCall) :
    ((after files calls).answer files call).1 = (initial.answer files call).1 :=
  (current_after files calls).answer_eq (current_initial files) call

end IniCache

end RdbLibs.Other
