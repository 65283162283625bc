import Mathlib.Data.List.AList
import Mathlib.Data.List.TakeWhile
import RdbLibs.Foundations.MachineWord

/-!
# The INI functions of `Src/Other/win32_unix.cpp`

`GetPrivateProfileString` and `GetPrivateProfileInt` share a cache of the file that was read last:
its name and a map of maps. `Files` is what the disk has, and no file has an empty name. A C string
is the list of its characters before the terminating one, and what is written to the buffer of a
caller is the list of the characters from its start. `stripWhitespace` removes all spaces, and no
other white space.
-/

set_option autoImplicit false
set_option relaxedAutoImplicit false

namespace RdbLibs.Other

open MachineWord

/-- The character that ends a C string. -/
def nul : Char := Char.ofNat 0

/-- The characters of a C string. -/
structure CString where
  chars : List Char
  nul_notMem : nul ∉ chars

/-- The C string at the start of the characters of a `std::string`. -/
def c_str (s : List Char) : CString where
  chars := s.takeWhile (· ≠ nul)
  nul_notMem hmem := by simpa using List.mem_takeWhile_imp hmem

/-- The contents of the files, by their names. -/
structure Files where
  content : List Char → Option (List Char)
  content_nil : content [] = none

/-- `StrUtils::stripWhitespace`. -/
def stripWhitespace (s : List Char) : List Char := s.filter (· ≠ ' ')

/-- `keyMap_t`. -/
abbrev keyMap_t := AList fun _ : List Char ↦ List Char

/-- `iniFile_t`. -/
abbrev iniFile_t := AList fun _ : List Char ↦ keyMap_t

/-- What the loop of `loadNewINIFile` has. -/
structure Loading where
  currentSection : List Char
  gCurrentINIFile : iniFile_t

/-- The value of a section and a key, where both maps have an entry. -/
def findValue (ini : iniFile_t) (lpAppName lpKeyName : List Char) : Option (List Char) :=
  match ini.lookup lpAppName with
  | none => none
  | some keyMap => keyMap.lookup lpKeyName

/-- `gCurrentINIFile[currentSection][key] = val`. -/
def Loading.assign (state : Loading) (key val : List Char) : Loading :=
  let keyMap := (state.gCurrentINIFile.lookup state.currentSection).getD ∅
  { state with
    gCurrentINIFile := state.gCurrentINIFile.insert state.currentSection (keyMap.insert key val) }

/-- The body of the loop of `loadNewINIFile`, for a line that was read. -/
def loadLine (state : Loading) (line : List Char) : Loading :=
  match stripWhitespace line with
  | [] => state
  | first :: rest =>
    let s := first :: rest
    if first = '[' ∧ 3 ≤ s.length then
      { state with currentSection := (s.drop 1).take (s.length - 2) }
    else if first = ';' ∨ first = '#' then state
    else
      let pos := s.idxOf '='
      if pos < s.length then
        state.assign (stripWhitespace (s.take pos)) (stripWhitespace (s.drop (pos + 1)))
      else state

/-- The loop of `loadNewINIFile`. A file that cannot be opened has no lines. -/
def loadLines (file : Option (List Char)) : iniFile_t :=
  match file with
  | none => ∅
  | some text => ((text.splitOn '\n').foldl loadLine ⟨[], ∅⟩).gCurrentINIFile

/-- The static variables. -/
structure IniCache where
  gCurrentINIFileName : List Char
  gCurrentINIFile : iniFile_t

/-- The static variables when the program starts. -/
def IniCache.initial : IniCache := ⟨[], ∅⟩

/-- `loadNewINIFile`. -/
def loadNewINIFile (files : Files) (fname : List Char) : IniCache :=
  ⟨fname, loadLines (files.content fname)⟩

/-- The start of both functions. -/
def IniCache.select (cache : IniCache) (files : Files) (lpFileName : List Char) : IniCache :=
  if lpFileName ≠ cache.gCurrentINIFileName then loadNewINIFile files lpFileName else cache

/-- The characters that `strncpy` writes. -/
def strncpy (val : List Char) (siz : ℕ) : List Char :=
  val.take siz ++ List.replicate (siz - val.length) nul

/-- What `GetPrivateProfileString` answers, and the characters that it writes. -/
structure StringAnswer where
  result : ℤ
  lpReturnedString : List Char
deriving DecidableEq

/-- `privateProfileStringCopy`. `DWORD` is `int`. -/
def privateProfileStringCopy (siz : ℤ) (val : CString) : StringAnswer :=
  ⟨min siz (toInt val.chars.length), strncpy val.chars (intToSize siz)⟩

/-- `GetPrivateProfileString`. -/
def GetPrivateProfileString (files : Files) (cache : IniCache)
    (lpAppName lpKeyName lpDefault : CString) (nSize : ℤ) (lpFileName : CString) :
    StringAnswer × IniCache :=
  let cache := cache.select files lpFileName.chars
  match findValue cache.gCurrentINIFile lpAppName.chars lpKeyName.chars with
  | none => (privateProfileStringCopy nSize lpDefault, cache)
  | some val => (privateProfileStringCopy nSize (c_str val), cache)

/-- The characters that `isspace` accepts. -/
def isspace (c : Char) : Bool := c = ' ' ∨ 9 ≤ c.toNat ∧ c.toNat ≤ 13

/-- `atoi`, which reads a `long` and converts it. -/
def atoi (s : CString) : ℤ :=
  let text := s.chars.dropWhile isspace
  let digits := if text.head? = some '-' ∨ text.head? = some '+' then text.drop 1 else text
  let magnitude : ℕ :=
    (digits.takeWhile Char.isDigit).foldl (fun n c ↦ 10 * n + (c.toNat - '0'.toNat)) 0
  let value : ℤ := if text.head? = some '-' then max (-magnitude) (-2 ^ 63)
    else min magnitude (2 ^ 63 - 1)
  toInt (intToUnsigned value)

/-- `GetPrivateProfileInt`. `UINT` is `unsigned int`. -/
def GetPrivateProfileInt (files : Files) (cache : IniCache) (lpAppName lpKeyName : CString)
    (nDefault : ℤ) (lpFileName : CString) : ℕ × IniCache :=
  let cache := cache.select files lpFileName.chars
  match findValue cache.gCurrentINIFile lpAppName.chars lpKeyName.chars with
  | none => (intToUnsigned nDefault, cache)
  | some val => (intToUnsigned (atoi (c_str val)), cache)

end RdbLibs.Other
