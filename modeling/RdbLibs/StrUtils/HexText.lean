import Mathlib.Data.List.TakeWhile
import RdbLibs.Foundations.CheckedMemory
import RdbLibs.Foundations.MachineWord

/-!
# Bytes as hexadecimal text

`toHexStr` and `toByteArray` of `Src/String/StrUtils.h`. The first writes two upper-case digits for
each byte. The second reads two digits of any case for each byte, and takes every letter for its
distance from `A` or from `a`, without the ten that a hexadecimal letter counts more. It works on
the length of the text as an `int`, so that it reads nothing of a text of `2 ^ 31` characters.
-/

set_option autoImplicit false
set_option relaxedAutoImplicit false

namespace RdbLibs.StrUtils

open CheckedMemory MachineWord

/-- `g_HexChars`. -/
def g_HexChars : List Char :=
  ['0', '1', '2', '3', '4', '5', '6', '7', '8', '9', 'A', 'B', 'C', 'D', 'E', 'F']

/-- A digit of `g_HexChars`. The index is below 16 wherever the sources use it. -/
def hexChar (index : UInt8) : Char := g_HexChars.getD index.toNat '0'

/-- The loop of `toHexStr`, from the index `x` on. -/
def toHexStrFrom (pBuf : List UInt8) (bInsertSpaces : Bool) :
    ℕ → ℕ → List Char → Except Fault (List Char)
  | 0, _, sOut => return sOut
  | remaining + 1, x, sOut => do
    let sOut := if bInsertSpaces = true ∧ 0 < x then sOut ++ [' '] else sOut
    let ucVal ← load pBuf x
    toHexStrFrom pBuf bInsertSpaces remaining (x + 1)
      (sOut ++ [hexChar ((ucVal &&& 0xF0) >>> 4), hexChar (ucVal &&& 0x0F)])

/-- `StrUtils::toHexStr`. The pointer is null or points to the bytes given. -/
def toHexStr (pBuf : Option (List UInt8)) (nLen : ℤ) (bInsertSpaces : Bool) :
    Except Fault (List Char) :=
  match pBuf with
  | none => return []
  | some bytes => if nLen < 1 then return [] else toHexStrFrom bytes bInsertSpaces nLen.toNat 0 []

/-- The three cases of `toByteArray` for one character. -/
def digitValue (cSrc : Char) : Option UInt8 :=
  if '0' ≤ cSrc ∧ cSrc ≤ '9' then some (UInt8.ofNat (cSrc.toNat - '0'.toNat))
  else if 'A' ≤ cSrc ∧ cSrc ≤ 'F' then some (UInt8.ofNat (cSrc.toNat - 'A'.toNat))
  else if 'a' ≤ cSrc ∧ cSrc ≤ 'f' then some (UInt8.ofNat (cSrc.toNat - 'a'.toNat))
  else none

/-- The loop of `toByteArray`. A pass reads the characters at `x` and at `x + 1`. -/
def toByteArrayFrom (sSrc : List Char) :
    ℕ → ℕ → List UInt8 → Except Fault (Bool × List UInt8)
  | 0, _, pTarget => return (true, pTarget)
  | passes + 1, x, pTarget => do
    let some cFirst := digitValue (← load sSrc x) | return (false, pTarget)
    let cTmp := cFirst <<< 4
    let some cSecond := digitValue (← load sSrc (x + 1)) | return (false, pTarget)
    let cOut := cSecond ||| cTmp
    let pTarget ← store pTarget ((x + 1) / 2) cOut
    toByteArrayFrom sSrc passes (x + 2) pTarget

/-- `StrUtils::toByteArray`. The pointer is null or points to the bytes given. A negative length is
below every index. -/
def toByteArray (pTarget : Option (List UInt8)) (nLen : ℤ) (sSrc : List Char) :
    Except Fault (Bool × Option (List UInt8)) :=
  match pTarget with
  | none => return (false, none)
  | some target => do
    if nLen < 1 then return (false, some target)
    let nSrcLen := toInt sSrc.length
    if 0 < nSrcLen.tmod 2 ∨ nLen < nSrcLen.tdiv 2 then return (false, some target)
    let (bOut, target) ← toByteArrayFrom sSrc (nSrcLen.toNat / 2) 0 target
    return (bOut, some target)

/-! ### Digits -/

/-- The digits that `toByteArray` reads. -/
def hexDigits : List Char := g_HexChars ++ ['a', 'b', 'c', 'd', 'e', 'f']

/-- The two digits of a byte. -/
def byteDigits (byte : UInt8) : Char × Char :=
  (hexChar ((byte &&& 0xF0) >>> 4), hexChar (byte &&& 0x0F))

/-- The byte that `toByteArray` reads from two digits. -/
def readByte (digits : Char × Char) : UInt8 :=
  (digitValue digits.2).getD 0 ||| (digitValue digits.1).getD 0 <<< 4

/-- The text of some digits, in pairs. -/
def textOf (digits : List (Char × Char)) : List Char := digits.flatMap fun pair ↦ [pair.1, pair.2]

/-- Both digits of a byte are decimal. -/
def DecimalByte (byte : UInt8) : Prop := byte.toNat / 16 ≤ 9 ∧ byte.toNat % 16 ≤ 9

instance (byte : UInt8) : Decidable (DecimalByte byte) := inferInstanceAs (Decidable (_ ∧ _))

theorem digitValue_isSome {c : Char} (h : c ∈ hexDigits) : (digitValue c).isSome := by
  have hall : hexDigits.all fun c ↦ (digitValue c).isSome := by decide
  exact List.all_eq_true.mp hall c h

/-- No other character has a value. -/
theorem digitValue_eq_none {c : Char} (h : c ∉ hexDigits) : digitValue c = none := by
  have hall : ∀ n : Fin 128, Char.ofNat n ∉ hexDigits → digitValue (Char.ofNat n) = none := by
    decide +kernel
  rcases Nat.lt_or_ge c.toNat 128 with hlow | hhigh
  · have hc := hall ⟨c.toNat, hlow⟩
    rw [Char.ofNat_toNat] at hc
    exact hc h
  · have habove {d : Char} (hd : d.toNat < 128) : ¬c ≤ d := by
      intro hle
      have hnat : c.toNat ≤ d.toNat := hle
      omega
    rw [digitValue, if_neg fun hc ↦ habove (by decide) hc.2,
      if_neg fun hc ↦ habove (by decide) hc.2, if_neg fun hc ↦ habove (by decide) hc.2]

/-- Both characters are digits. -/
def isHexPair (pair : Char × Char) : Bool := hexDigits.contains pair.1 && hexDigits.contains pair.2

theorem isHexPair_iff {pair : Char × Char} :
    isHexPair pair = true ↔ pair.1 ∈ hexDigits ∧ pair.2 ∈ hexDigits := by
  rw [isHexPair, Bool.and_eq_true, List.contains_iff_mem, List.contains_iff_mem]

theorem hexChar_mem (index : UInt8) : hexChar index ∈ hexDigits := by
  unfold hexChar hexDigits
  rw [List.getD_eq_getElem?_getD, List.mem_append]
  cases hchar : g_HexChars[index.toNat]? with
  | none => exact .inl (by decide)
  | some c => exact .inl (List.mem_of_getElem? hchar)

/-- The digits of a byte are read as that byte exactly when they are decimal. -/
theorem readByte_byteDigits_iff (byte : UInt8) :
    readByte (byteDigits byte) = byte ↔ DecimalByte byte := by
  have hall : ∀ n : Fin 256, readByte (byteDigits (UInt8.ofFin n)) = UInt8.ofFin n ↔
      DecimalByte (UInt8.ofFin n) := by decide +kernel
  obtain ⟨n, rfl⟩ : ∃ n : Fin 256, byte = UInt8.ofFin n := ⟨byte.toFin, rfl⟩
  exact hall n

/-- The digits of the byte that two digits are read as are those digits in upper case exactly when
they are decimal. -/
theorem byteDigits_readByte_iff {first second : Char} (hfirst : first ∈ hexDigits)
    (hsecond : second ∈ hexDigits) :
    byteDigits (readByte (first, second)) = (first.toUpper, second.toUpper) ↔
      first.isDigit ∧ second.isDigit := by
  have hall : hexDigits.all fun first ↦ hexDigits.all fun second ↦
      decide (byteDigits (readByte (first, second)) = (first.toUpper, second.toUpper) ↔
        first.isDigit ∧ second.isDigit) := by decide +kernel
  have hfirst := List.all_eq_true.mp hall first hfirst
  exact of_decide_eq_true (List.all_eq_true.mp hfirst second hsecond)

theorem length_textOf (digits : List (Char × Char)) :
    (textOf digits).length = 2 * digits.length := by
  induction digits with
  | nil => rfl
  | cons pair digits ih =>
    simp only [textOf, List.flatMap_cons, List.length_append, List.length_cons,
      List.length_nil] at ih ⊢
    omega

theorem textOf_cons (pair : Char × Char) (digits : List (Char × Char)) :
    textOf (pair :: digits) = [pair.1, pair.2] ++ textOf digits := List.flatMap_cons

/-- A text of an even length is the text of some pairs of digits. -/
theorem exists_textOf (n : ℕ) : ∀ text : List Char, text.length = 2 * n →
    ∃ digits, text = textOf digits ∧ digits.length = n := by
  induction n with
  | zero =>
    intro text htext
    exact ⟨[], List.eq_nil_of_length_eq_zero htext, rfl⟩
  | succ n ih =>
    intro text htext
    match text with
    | [] => exact absurd htext (by simp)
    | [_] => exact absurd htext (by simp; omega)
    | first :: second :: rest =>
      obtain ⟨digits, rfl, hlength⟩ := ih rest (by simp at htext; omega)
      exact ⟨(first, second) :: digits, rfl, congrArg Nat.succ hlength⟩

theorem mem_textOf {c : Char} {digits : List (Char × Char)} :
    c ∈ textOf digits ↔ ∃ pair ∈ digits, c = pair.1 ∨ c = pair.2 := by
  simp [textOf]

theorem forall_mem_textOf {P : Char → Prop} {digits : List (Char × Char)} :
    (∀ c ∈ textOf digits, P c) ↔ ∀ pair ∈ digits, P pair.1 ∧ P pair.2 := by
  simp only [mem_textOf]
  constructor
  · exact fun h pair hpair ↦ ⟨h _ ⟨pair, hpair, .inl rfl⟩, h _ ⟨pair, hpair, .inr rfl⟩⟩
  · rintro h c ⟨pair, hpair, rfl | rfl⟩
    · exact (h pair hpair).1
    · exact (h pair hpair).2

theorem textOf_injective {digits : List (Char × Char)} :
    ∀ {digits' : List (Char × Char)}, textOf digits = textOf digits' → digits = digits' := by
  induction digits with
  | nil =>
    intro digits' h
    cases digits' with
    | nil => rfl
    | cons pair rest => cases h
  | cons pair digits ih =>
    intro digits' h
    cases digits' with
    | nil => cases h
    | cons pair' rest =>
      rw [textOf_cons, textOf_cons] at h
      simp only [List.cons_append, List.nil_append, List.cons.injEq] at h
      rw [ih h.2.2, Prod.ext h.1 h.2.1]

/-! ### The loops -/

/-- What `toHexStr` writes behind the digits that are already there. -/
theorem toHexStrFrom_eq (rest : List UInt8) : ∀ (front : List UInt8) (sOut : List Char),
    toHexStrFrom (front ++ rest) false rest.length front.length sOut =
      .ok (sOut ++ textOf (rest.map byteDigits)) := by
  induction rest with
  | nil =>
    intro front sOut
    simp only [List.length_nil, toHexStrFrom, List.map_nil, textOf, List.flatMap_nil,
      List.append_nil]
    rfl
  | cons byte rest ih =>
    intro front sOut
    have hload : load (front ++ byte :: rest) front.length = .ok byte := by
      simp [load]
    have hnext := ih (front ++ [byte]) (sOut ++ [(byteDigits byte).1, (byteDigits byte).2])
    rw [List.length_append, List.length_singleton, List.append_assoc, List.singleton_append]
      at hnext
    rw [List.length_cons, toHexStrFrom, if_neg fun h ↦ Bool.noConfusion h.1, hload, ok_bind]
    refine hnext.trans (congrArg Except.ok ?_)
    rw [List.map_cons, textOf_cons, List.append_assoc]

theorem toHexStr_eq {bytes : List UInt8} (hpos : 1 ≤ bytes.length) :
    toHexStr (some bytes) bytes.length false = .ok (textOf (bytes.map byteDigits)) := by
  rw [toHexStr, if_neg (by omega), Int.toNat_natCast]
  exact toHexStrFrom_eq bytes [] []

section Passes

variable {sSrc : List Char} {x : ℕ} {pair : Char × Char} (hfirst : load sSrc x = .ok pair.1)
  (hsecond : load sSrc (x + 1) = .ok pair.2)
include hfirst hsecond

/-- A pass of the loop of `toByteArray` over two digits. -/
theorem toByteArrayFrom_of_hexPair (hpair : isHexPair pair = true) (passes : ℕ)
    (pTarget : List UInt8) :
    toByteArrayFrom sSrc (passes + 1) x pTarget =
      store pTarget ((x + 1) / 2) (readByte pair) >>= toByteArrayFrom sSrc passes (x + 2) := by
  obtain ⟨hfirstMem, hsecondMem⟩ := isHexPair_iff.mp hpair
  obtain ⟨first, hfirstValue⟩ := Option.isSome_iff_exists.mp (digitValue_isSome hfirstMem)
  obtain ⟨second, hsecondValue⟩ := Option.isSome_iff_exists.mp (digitValue_isSome hsecondMem)
  rw [toByteArrayFrom, hfirst, ok_bind]
  simp only [hfirstValue]
  rw [hsecond, ok_bind]
  simp only [hsecondValue]
  rw [readByte, hfirstValue, hsecondValue]
  rfl

/-- A pass over two characters that are not both digits ends the loop and writes nothing. -/
theorem toByteArrayFrom_of_not_hexPair (hpair : isHexPair pair = false) (passes : ℕ)
    (pTarget : List UInt8) :
    toByteArrayFrom sSrc (passes + 1) x pTarget = .ok (false, pTarget) := by
  rw [toByteArrayFrom, hfirst, ok_bind]
  cases hfirstValue : digitValue pair.1 with
  | none => rfl
  | some first =>
    have hfirstMem : pair.1 ∈ hexDigits := by
      by_contra hnot
      rw [digitValue_eq_none hnot] at hfirstValue
      cases hfirstValue
    have hsecondValue : digitValue pair.2 = none := by
      refine digitValue_eq_none fun hsecondMem ↦ ?_
      rw [isHexPair_iff.mpr ⟨hfirstMem, hsecondMem⟩] at hpair
      cases hpair
    dsimp only
    rw [hsecond, ok_bind, hsecondValue]
    rfl

end Passes

/-- What the loop of `toByteArray` makes of a text, behind the bytes that are already there: it
writes the bytes of the pairs of digits that come before the first other character, as far as there
is memory. -/
theorem toByteArrayFrom_eq (behind : List Char) (pairs : List (Char × Char)) :
    ∀ (front : List Char) (done back : List UInt8), front.length = 2 * done.length →
      toByteArrayFrom (front ++ textOf pairs ++ behind) pairs.length front.length (done ++ back) =
        if (pairs.takeWhile isHexPair).length ≤ back.length then
          .ok (pairs.all isHexPair, done ++ (pairs.takeWhile isHexPair).map readByte ++
            back.drop (pairs.takeWhile isHexPair).length)
        else .error .outOfBounds := by
  induction pairs with
  | nil =>
    intro front done back _
    rw [List.takeWhile_nil, List.length_nil, if_pos (Nat.zero_le _), List.map_nil, List.append_nil]
    rfl
  | cons pair pairs ih =>
    intro front done back hfront
    have hfirst : load (front ++ textOf (pair :: pairs) ++ behind) front.length = .ok pair.1 := by
      simp [load, textOf_cons]
    have hsecond :
        load (front ++ textOf (pair :: pairs) ++ behind) (front.length + 1) = .ok pair.2 := by
      simp [load, textOf_cons]
    rw [List.length_cons]
    cases hpair : isHexPair pair with
    | false =>
      have hwhile : (pair :: pairs).takeWhile isHexPair = [] :=
        List.takeWhile_cons_of_neg (Bool.not_eq_true _ ▸ hpair)
      rw [toByteArrayFrom_of_not_hexPair hfirst hsecond hpair, hwhile, List.all_cons, hpair,
        Bool.false_and, List.length_nil, if_pos (Nat.zero_le _), List.map_nil, List.append_nil,
        List.drop_zero]
    | true =>
      have hwhile : (pair :: pairs).takeWhile isHexPair = pair :: pairs.takeWhile isHexPair :=
        List.takeWhile_cons_of_pos hpair
      have hindex : (front.length + 1) / 2 = done.length := by omega
      rw [toByteArrayFrom_of_hexPair hfirst hsecond hpair, hindex, hwhile, List.all_cons, hpair,
        Bool.true_and, List.length_cons]
      cases back with
      | nil =>
        rw [List.append_nil, store, if_neg (Nat.lt_irrefl _), List.length_nil,
          if_neg (Nat.not_succ_le_zero _)]
        rfl
      | cons old back =>
        have hstore : store (done ++ old :: back) done.length (readByte pair) =
            .ok (done ++ [readByte pair] ++ back) := by
          rw [store_of_lt (by simp)]
          simp
        have hnext := ih (front ++ [pair.1, pair.2]) (done ++ [readByte pair]) back
          (by simp [hfront]; omega)
        rw [List.append_assoc front, ← textOf_cons, List.length_append] at hnext
        rw [hstore, ok_bind, List.length_cons, List.map_cons, List.drop_succ_cons]
        refine hnext.trans ?_
        simp only [Nat.add_le_add_iff_right, List.append_assoc, List.singleton_append]

/-- A text of an even length that fits the target passes the check of `toByteArray`. -/
theorem passes_check {nSrcLen nLen half : ℤ} (heven : nSrcLen = 2 * half) (hroom : half ≤ nLen) :
    ¬(0 < nSrcLen.tmod 2 ∨ nLen < nSrcLen.tdiv 2) := by
  rw [heven, Int.mul_tmod_right, Int.mul_tdiv_cancel_left _ two_ne_zero]
  omega

/-- Assumes: as many bytes of room as pairs of digits, and fewer than `2 ^ 31` digits. -/
theorem toByteArray_eq {digits : List (Char × Char)} {target : List UInt8}
    (hroom : digits.length = target.length) (hpos : 1 ≤ target.length)
    (hshort : 2 * target.length < 2 ^ 31)
    (hdigits : ∀ pair ∈ digits, pair.1 ∈ hexDigits ∧ pair.2 ∈ hexDigits) :
    toByteArray (some target) target.length (textOf digits) =
      .ok (true, some (digits.map readByte)) := by
  have hlength : toInt (textOf digits).length = 2 * (target.length : ℤ) := by
    rw [length_textOf, hroom, toInt_of_lt hshort]
    rfl
  have hwhile : digits.takeWhile isHexPair = digits :=
    List.takeWhile_eq_self_iff.mpr fun pair hpair ↦ isHexPair_iff.mpr (hdigits pair hpair)
  have hall : digits.all isHexPair = true :=
    List.all_eq_true.mpr fun pair hpair ↦ isHexPair_iff.mpr (hdigits pair hpair)
  have hloop := toByteArrayFrom_eq [] digits [] [] target rfl
  rw [hwhile, hall, if_pos hroom.le, hroom, List.drop_length, List.append_nil, List.append_nil,
    List.nil_append, List.nil_append, List.nil_append, List.length_nil] at hloop
  have hpasses : (2 * (target.length : ℤ)).toNat / 2 = target.length := by omega
  rw [toByteArray, if_neg (by omega), if_neg (passes_check hlength le_rfl), hlength, hpasses]
  show (toByteArrayFrom (textOf digits) target.length 0 target >>= _) = _
  rw [hloop]
  rfl

/-- Of `2 ^ 31` digits or more `toByteArray` reads none. -/
theorem toByteArray_of_long {text : List Char} {target : List UInt8}
    (hlength : text.length = 2 * target.length) (hlong : 2 ^ 31 ≤ text.length)
    (hlegal : target.length < 2 ^ 31) :
    toByteArray (some target) target.length text = .ok (true, some target) := by
  have hneg := toInt_neg hlong (by omega)
  have heven : toInt text.length = 2 * ((target.length : ℤ) - 2 ^ 31) := by
    rw [toInt, Nat.mod_eq_of_lt (by omega), if_neg (by omega)]
    omega
  have hpasses : (toInt text.length).toNat / 2 = 0 := by omega
  rw [toByteArray, if_neg (by omega), if_neg (passes_check heven (by omega)), hpasses]
  rfl

/-! ### The round trips -/

/-- The bytes are written as text and read back, into any memory. -/
def BytesReturn (bytes : List UInt8) : Prop :=
  ∀ target : List UInt8, target.length = bytes.length → ∃ text,
    toHexStr (some bytes) bytes.length false = .ok text ∧
      toByteArray (some target) bytes.length text = .ok (true, some bytes)

/-- The text is read as `n` bytes, into any memory, and written again in upper case. -/
def TextReturns (text : List Char) (n : ℕ) : Prop :=
  ∀ target : List UInt8, target.length = n → ∃ bytes,
    toByteArray (some target) n text = .ok (true, some bytes) ∧
      toHexStr (some bytes) n false = .ok (text.map Char.toUpper)

/-- Memory is not determined by its length. -/
theorem exists_other_of_length (bytes : List UInt8) (hpos : 1 ≤ bytes.length) :
    ∃ target : List UInt8, target.length = bytes.length ∧ target ≠ bytes := by
  by_cases hzero : List.replicate bytes.length 0 = bytes
  · refine ⟨List.replicate bytes.length 1, List.length_replicate, fun hone ↦ ?_⟩
    have hboth := hzero.trans hone.symm
    have hsame := (List.replicate_inj.mp hboth).2.resolve_left (by omega)
    exact absurd hsame (by decide)
  · exact ⟨_, List.length_replicate, hzero⟩

/-- The text of 1 GiB of bytes is too long to be read. -/
theorem not_bytesReturn_of_long {bytes : List UInt8} (hlong : 2 ^ 30 ≤ bytes.length)
    (hlegal : bytes.length < 2 ^ 31) : ¬BytesReturn bytes := by
  intro hreturn
  obtain ⟨target, htarget, hother⟩ := exists_other_of_length bytes (by omega)
  obtain ⟨text, htext, hbytes⟩ := hreturn target htarget
  obtain rfl := Except.ok.inj ((toHexStr_eq (by omega)).symm.trans htext)
  rw [← htarget, toByteArray_of_long (by rw [length_textOf, List.length_map, htarget])
    (by rw [length_textOf, List.length_map]; omega) (by omega)] at hbytes
  exact hother (by simpa using hbytes)

theorem bytesReturn_iff {bytes : List UInt8} (hpos : 1 ≤ bytes.length)
    (hlegal : bytes.length < 2 ^ 31) :
    BytesReturn bytes ↔ bytes.length < 2 ^ 30 ∧ ∀ byte ∈ bytes, DecimalByte byte := by
  rcases lt_or_ge bytes.length (2 ^ 30) with hshort | hlong
  · have hdigits : ∀ pair ∈ bytes.map byteDigits, pair.1 ∈ hexDigits ∧ pair.2 ∈ hexDigits := by
      simp only [List.mem_map, forall_exists_index, and_imp]
      rintro pair byte - rfl
      exact ⟨hexChar_mem _, hexChar_mem _⟩
    have hwritten := toHexStr_eq hpos
    have hread (target : List UInt8) (htarget : target.length = bytes.length) :
        toByteArray (some target) bytes.length (textOf (bytes.map byteDigits)) =
          .ok (true, some (bytes.map fun byte ↦ readByte (byteDigits byte))) := by
      have heq := toByteArray_eq ((List.length_map ..).trans htarget.symm) (by omega) (by omega)
        hdigits
      rwa [htarget, List.map_map] at heq
    have hsame : (bytes.map fun byte ↦ readByte (byteDigits byte)) = bytes ↔
        ∀ byte ∈ bytes, DecimalByte byte := by
      simp only [← readByte_byteDigits_iff]
      have hid := List.map_inj_left (l := bytes) (g := id) (f := fun byte ↦
        readByte (byteDigits byte))
      rwa [List.map_id] at hid
    rw [← hsame]
    constructor
    · intro hreturn
      obtain ⟨text, htext, hbytes⟩ := hreturn bytes rfl
      obtain rfl := Except.ok.inj (hwritten.symm.trans htext)
      rw [hread bytes rfl] at hbytes
      exact ⟨hshort, by simpa using hbytes⟩
    · rintro ⟨-, hbytes⟩ target htarget
      refine ⟨_, hwritten, ?_⟩
      rw [hread target htarget, hbytes]
  · exact iff_of_false (not_bytesReturn_of_long hlong hlegal) fun h ↦ not_lt.mpr hlong h.1

/-- A text of 2 GiB of digits is too long to be read. -/
theorem not_textReturns_of_long {digits : List (Char × Char)} (hpos : 1 ≤ digits.length)
    (hlong : 2 ^ 31 ≤ (textOf digits).length) (hlegal : digits.length < 2 ^ 31) :
    ¬TextReturns (textOf digits) digits.length := by
  intro hreturn
  have hkept (byte : UInt8) : textOf (List.replicate digits.length (byteDigits byte)) =
      (textOf digits).map Char.toUpper := by
    have htarget : (List.replicate digits.length byte).length = digits.length :=
      List.length_replicate
    obtain ⟨bytes, hbytes, htext⟩ := hreturn _ htarget
    have hunread := toByteArray_of_long ((length_textOf digits).trans (by rw [htarget]))
      hlong (htarget.trans_lt hlegal)
    rw [htarget, hbytes] at hunread
    obtain rfl : bytes = List.replicate digits.length byte := by simpa using hunread
    have hwritten := toHexStr_eq (hpos.trans htarget.ge)
    rw [htarget, htext, List.map_replicate] at hwritten
    exact (Except.ok.inj hwritten).symm
  have hboth := textOf_injective ((hkept 0).trans (hkept 1).symm)
  have hsame := (List.replicate_inj.mp hboth).2.resolve_left (by omega)
  exact absurd hsame (by decide)

theorem textReturns_iff {text : List Char} {n : ℕ} (hlength : text.length = 2 * n) (hpos : 1 ≤ n)
    (hlegal : n < 2 ^ 31) (hdigits : ∀ c ∈ text, c ∈ hexDigits) :
    TextReturns text n ↔ text.length < 2 ^ 31 ∧ ∀ c ∈ text, c.isDigit := by
  obtain ⟨digits, rfl, rfl⟩ := exists_textOf n text hlength
  rcases lt_or_ge (textOf digits).length (2 ^ 31) with hshort | hlong
  · rw [forall_mem_textOf] at hdigits ⊢
    have hupper : (textOf digits).map Char.toUpper =
        textOf (digits.map fun pair ↦ (pair.1.toUpper, pair.2.toUpper)) := by
      simp [textOf, List.map_flatMap, List.flatMap_map]
    have hread (target : List UInt8) (htarget : target.length = digits.length) :
        toByteArray (some target) digits.length (textOf digits) =
          .ok (true, some (digits.map readByte)) := by
      rw [← htarget]
      exact toByteArray_eq htarget.symm (by omega) (by omega) hdigits
    have hwritten : toHexStr (some (digits.map readByte)) digits.length false =
        .ok (textOf (digits.map fun pair ↦ byteDigits (readByte pair))) := by
      have hsome : 1 ≤ (digits.map readByte).length := by rwa [List.length_map]
      have heq := toHexStr_eq hsome
      rwa [List.length_map, List.map_map] at heq
    have hsame : (digits.map fun pair ↦ byteDigits (readByte pair)) =
        (digits.map fun pair ↦ (pair.1.toUpper, pair.2.toUpper)) ↔
          ∀ pair ∈ digits, pair.1.isDigit ∧ pair.2.isDigit := by
      rw [List.map_inj_left]
      refine forall₂_congr fun pair hpair ↦ ?_
      exact byteDigits_readByte_iff (hdigits pair hpair).1 (hdigits pair hpair).2
    unfold TextReturns
    rw [hupper, ← hsame]
    constructor
    · intro hreturn
      obtain ⟨bytes, hbytes, htext⟩ := hreturn (List.replicate digits.length 0) (by simp)
      rw [hread _ (by simp)] at hbytes
      obtain rfl : digits.map readByte = bytes := by simpa using hbytes
      rw [hwritten] at htext
      exact ⟨hshort, textOf_injective (Except.ok.inj htext)⟩
    · rintro ⟨-, htext⟩ target htarget
      exact ⟨_, hread target htarget, by rw [hwritten, htext]⟩
  · exact iff_of_false (not_textReturns_of_long hpos hlong hlegal) fun h ↦ not_lt.mpr hlong h.1

/-- Assumes: some bytes, and a text of twice as many hexadecimal digits as `n`, both lengths as
`int`. The bytes return from their text exactly when all their digits are decimal and there are
fewer than `2 ^ 30` of them. The text returns in upper case from its bytes exactly when all its
digits are decimal and there are fewer than `2 ^ 31` of them. -/
theorem hex_round_trip_iff {bytes : List UInt8} (hbytes : 1 ≤ bytes.length)
    (hbytesInt : bytes.length < 2 ^ 31) {text : List Char} {n : ℕ} (htext : text.length = 2 * n)
    (hn : 1 ≤ n) (hnInt : n < 2 ^ 31) (hdigits : ∀ c ∈ text, c ∈ hexDigits) :
    (BytesReturn bytes ↔ bytes.length < 2 ^ 30 ∧ ∀ byte ∈ bytes, DecimalByte byte) ∧
      (TextReturns text n ↔ text.length < 2 ^ 31 ∧ ∀ c ∈ text, c.isDigit) :=
  ⟨bytesReturn_iff hbytes hbytesInt, textReturns_iff htext hn hnInt hdigits⟩

theorem hex_round_trip_iff_decimal :
    BytesReturn [0x09, 0x42] ∧ TextReturns ['4', '2', '0', '7'] 2 := by
  have hboth := @hex_round_trip_iff [0x09, 0x42] (by decide) (by decide) ['4', '2', '0', '7'] 2
    rfl (by decide) (by decide) (by simp [hexDigits, g_HexChars])
  exact ⟨hboth.1.mpr ⟨by decide, by simp [DecimalByte]⟩, hboth.2.mpr ⟨by decide, by simp⟩⟩

/-- The byte `0x0A` comes back from the text `0A` as zero, and the text `fF` as `55`. -/
theorem hex_letters_lose_ten :
    toHexStr (some [0x0A]) 1 false = .ok ['0', 'A'] ∧
      toByteArray (some [0]) 1 ['0', 'A'] = .ok (true, some [0x00]) ∧
      toByteArray (some [0]) 1 ['f', 'F'] = .ok (true, some [0x55]) ∧
      toHexStr (some [0x55]) 1 false = .ok ['5', '5'] ∧
      ¬BytesReturn [0x0A] ∧ ¬TextReturns ['f', 'F'] 1 := by
  refine ⟨by decide, by decide, by decide, by decide, ?_, ?_⟩
  · rw [bytesReturn_iff (by decide) (by decide)]
    decide
  · rw [textReturns_iff rfl (by decide) (by decide) (by simp [hexDigits, g_HexChars])]
    simp

end RdbLibs.StrUtils
