import RdbLibs.Foundations.BlockAccess
import RdbLibs.Other.PrivateProfile.Lookup

/-!
# The buffer of `GetPrivateProfileString`

A caller gives a buffer of `nSize` characters, and expects in it the text that is looked up, cut to
the room before a terminating character, and the length of what is there as the result.
`privateProfileStringCopy` leaves this to `strncpy`, which writes all characters of the buffer and
no other, and terminates a text only if it is shorter than the buffer.
-/

set_option autoImplicit false
set_option relaxedAutoImplicit false

namespace RdbLibs.Other

open BlockAccess MachineWord

namespace StringAnswer

/-- The memory of a caller behind a call, from the start of the buffer on. -/
def memory (answer : StringAnswer) (before : List Char) : List Char :=
  overwrite before 0 answer.lpReturnedString

/-- What a call leaves in a memory with a buffer of `nSize` characters. Behind the buffer, nothing
is written. In the buffer there is a text, as much of it as there is room for before a terminating
character, and the result is the length of what is there. -/
structure Delivers (answer : StringAnswer) (text : CString) (nSize : ℕ) (before : List Char) :
    Prop where
  behind : (answer.memory before).drop nSize = before.drop nSize
  terminated : ∃ rest,
    (answer.memory before).take nSize = text.chars.take (nSize - 1) ++ nul :: rest
  result : answer.result = (text.chars.take (nSize - 1)).length

/-- The contract of the buffer, for a text that was looked up. -/
def HonoursBuffer (answer : StringAnswer) (text : CString) (nSize : ℤ) : Prop :=
  ∀ before : List Char, nSize.toNat ≤ before.length → answer.Delivers text nSize.toNat before

end StringAnswer

theorem length_strncpy (val : List Char) (siz : ℕ) : (strncpy val siz).length = siz := by
  rw [strncpy, List.length_append, List.length_take, List.length_replicate]
  omega

section Copy

variable {siz : ℤ} {val : CString} {before : List Char}

/-- `strncpy` writes the characters of the buffer, and no other. -/
theorem memory_privateProfileStringCopy (hpos : 1 ≤ siz) (hint : siz < 2 ^ 31) (val : CString)
    (hroom : siz.toNat ≤ before.length) :
    (privateProfileStringCopy siz val).memory before =
      strncpy val.chars siz.toNat ++ before.drop siz.toNat := by
  have hsize : intToSize siz = siz.toNat := by
    unfold intToSize
    omega
  have hlength := length_strncpy val.chars siz.toNat
  have hinside : 0 + (strncpy val.chars siz.toNat).length ≤ before.length := by omega
  rw [StringAnswer.memory, privateProfileStringCopy, hsize, overwrite_eq hinside, hlength,
    List.take_zero, List.nil_append, Nat.zero_add]

/-- A text that is shorter than the buffer is delivered. -/
theorem privateProfileStringCopy_delivers (hpos : 1 ≤ siz) (hint : siz < 2 ^ 31)
    (hsiz : val.chars.length < siz) (hroom : siz.toNat ≤ before.length) :
    (privateProfileStringCopy siz val).Delivers val siz.toNat before := by
  have hlength := length_strncpy val.chars siz.toNat
  have hall : val.chars.take (siz.toNat - 1) = val.chars := List.take_of_length_le (by omega)
  have hzeros : siz.toNat - val.chars.length = siz.toNat - val.chars.length - 1 + 1 := by omega
  refine ⟨?_, ⟨List.replicate (siz.toNat - val.chars.length - 1) nul, ?_⟩, ?_⟩
  · rw [memory_privateProfileStringCopy hpos hint val hroom, List.drop_left' hlength]
  · rw [memory_privateProfileStringCopy hpos hint val hroom, List.take_left' hlength, hall, strncpy,
      List.take_of_length_le (by omega), ← List.replicate_succ, ← hzeros]
  · rw [hall, privateProfileStringCopy_eq hint hsiz]

/-- A text that fills the buffer, or is longer, is not terminated there. -/
theorem not_terminated (hpos : 1 ≤ siz) (hint : siz < 2 ^ 31) (hsiz : siz ≤ val.chars.length)
    (hroom : siz.toNat ≤ before.length) :
    ¬(privateProfileStringCopy siz val).Delivers val siz.toNat before := by
  intro hdelivers
  obtain ⟨rest, hbuffer⟩ := hdelivers.terminated
  have hfull : strncpy val.chars siz.toNat = val.chars.take siz.toNat := by
    rw [strncpy, Nat.sub_eq_zero_of_le (by omega), List.replicate_zero, List.append_nil]
  rw [memory_privateProfileStringCopy hpos hint val hroom, List.take_left' (length_strncpy _ _),
    hfull] at hbuffer
  have hnul : nul ∈ val.chars.take siz.toNat := by
    rw [hbuffer]
    exact List.mem_append_right _ List.mem_cons_self
  exact val.nul_notMem (List.mem_of_mem_take hnul)

theorem honoursBuffer_iff (hpos : 1 ≤ siz) (hint : siz < 2 ^ 31) (val : CString) :
    (privateProfileStringCopy siz val).HonoursBuffer val siz ↔ val.chars.length < siz := by
  constructor
  · intro hhonours
    by_contra hlong
    have hroom : siz.toNat ≤ (List.replicate siz.toNat nul).length := List.length_replicate.ge
    exact not_terminated hpos hint (not_lt.mp hlong) hroom (hhonours _ hroom)
  · exact fun hsiz before hroom ↦ privateProfileStringCopy_delivers hpos hint hsiz hroom

end Copy

/-- After any calls on any files, `GetPrivateProfileString` honours the contract of its buffer
exactly when the text that it looks up is shorter than the buffer. -/
theorem GetPrivateProfileString_honours_iff (files : Files) (calls : List IniCall)
    (lpAppName lpKeyName lpDefault lpFileName : CString) {nSize : ℤ} (hpos : 1 ≤ nSize)
    (hint : nSize < 2 ^ 31) :
    (GetPrivateProfileString files (IniCache.after files calls) lpAppName lpKeyName lpDefault nSize
      lpFileName).1.HonoursBuffer (textFor files lpAppName lpKeyName lpDefault lpFileName) nSize ↔
      (textFor files lpAppName lpKeyName lpDefault lpFileName).chars.length < nSize := by
  rw [GetPrivateProfileString_eq, honoursBuffer_iff hpos hint]

theorem GetPrivateProfileString_honours_iff_pair :
    (GetPrivateProfileString exampleFiles (IniCache.after exampleFiles []) (c_str ['a'])
      (c_str ['k']) (c_str []) 2 (c_str ['f'])).1.HonoursBuffer
        (textFor exampleFiles (c_str ['a']) (c_str ['k']) (c_str []) (c_str ['f'])) 2 :=
  (GetPrivateProfileString_honours_iff exampleFiles [] (c_str ['a']) (c_str ['k']) (c_str [])
    (c_str ['f']) (by decide) (by decide)).mpr (by decide)

/-- A value of one character fills a buffer of one, and is not terminated. -/
theorem full_buffer_is_not_terminated :
    ¬∀ (files : Files) (calls : List IniCall)
        (lpAppName lpKeyName lpDefault lpFileName : CString) (nSize : ℤ), 1 ≤ nSize →
      nSize < 2 ^ 31 →
      (GetPrivateProfileString files (IniCache.after files calls) lpAppName lpKeyName lpDefault
        nSize lpFileName).1.HonoursBuffer
          (textFor files lpAppName lpKeyName lpDefault lpFileName) nSize := by
  intro h
  have hone := h exampleFiles [] (c_str ['a']) (c_str ['k']) (c_str []) (c_str ['f']) 1 le_rfl
    (by decide) ['x'] le_rfl
  obtain ⟨rest, hbuffer⟩ := hone.terminated
  have hvalue : ['v'] = nul :: rest := hbuffer
  exact absurd (List.cons.inj hvalue).1 (by decide)

end RdbLibs.Other
