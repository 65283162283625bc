import RdbLibs.StrUtils.HexText

/-!
# Texts that `toByteArray` rejects

`toByteArray` checks its parameters before it writes anything, and each character when it comes to
it. It takes a text exactly when the text fits the target and has an even number of characters that
are all digits (`toByteArray_accepts`). Of a text that it rejects it has written no more bytes than
there are pairs before the first other character (`toByteArray_rejects`).
-/

set_option autoImplicit false
set_option relaxedAutoImplicit false

namespace RdbLibs.StrUtils

open CheckedMemory MachineWord

/-- The characters of a text, two and two. -/
def pairsOf : List Char → List (Char × Char)
  | first :: second :: rest => (first, second) :: pairsOf rest
  | _ => []

/-- The pairs of digits before the first other character of a text. -/
def leadingPairs (text : List Char) : List (Char × Char) := (pairsOf text).takeWhile isHexPair

/-- The characters that `toByteArray` reads: as many as the length of the text is as an `int`. -/
def readText (sSrc : List Char) : List Char := sSrc.take (toInt sSrc.length).toNat

/-- `toByteArray` refuses the length of a target and of a text. -/
def RefusesLengths (nLen nSrcLen : ℤ) : Prop :=
  nLen < 1 ∨ 0 < nSrcLen.tmod 2 ∨ nLen < nSrcLen.tdiv 2

instance (nLen nSrcLen : ℤ) : Decidable (RefusesLengths nLen nSrcLen) :=
  inferInstanceAs (Decidable (_ ∨ _))

theorem pairsOf_textOf (pairs : List (Char × Char)) : pairsOf (textOf pairs) = pairs := by
  induction pairs with
  | nil => rfl
  | cons pair pairs ih => exact congrArg (pair :: ·) ih

/-- A text of an even length is made of its pairs. -/
theorem textOf_pairsOf {text : List Char} (h : text.length % 2 = 0) :
    textOf (pairsOf text) = text := by
  obtain ⟨pairs, rfl, -⟩ := exists_textOf (text.length / 2) text (by omega)
  rw [pairsOf_textOf]

theorem length_pairsOf {text : List Char} (h : text.length % 2 = 0) :
    (pairsOf text).length = text.length / 2 := by
  have hlength := congrArg List.length (textOf_pairsOf h)
  rw [length_textOf] at hlength
  omega

theorem all_isHexPair_iff {text : List Char} (h : text.length % 2 = 0) :
    (pairsOf text).all isHexPair = true ↔ ∀ c ∈ text, c ∈ hexDigits := by
  rw [List.all_eq_true]
  simp only [isHexPair_iff]
  rw [← forall_mem_textOf, textOf_pairsOf h]

theorem length_readText (sSrc : List Char) :
    (readText sSrc).length = (toInt sSrc.length).toNat := by
  have hle := toInt_le sSrc.length
  rw [readText, List.length_take]
  omega

/-- An `int` that is not odd and positive counts pairs. -/
theorem even_of_not_refuses {nLen nSrcLen : ℤ} (h : ¬RefusesLengths nLen nSrcLen) :
    nSrcLen.toNat % 2 = 0 := by
  obtain ⟨hodd, -⟩ := not_or.mp (not_or.mp h).2
  rcases lt_or_ge nSrcLen 0 with hneg | hnonneg
  · rw [Int.toNat_of_nonpos (by omega)]
  · rw [Int.tmod_eq_emod_of_nonneg hnonneg] at hodd
    omega

/-- The checks of the lengths, where the length of the text is an `int`. -/
theorem refusesLengths_iff (nLen : ℤ) {length : ℕ} (hshort : length < 2 ^ 31) :
    RefusesLengths nLen (toInt length) ↔
      nLen < 1 ∨ 0 < length % 2 ∨ nLen < ((length / 2 : ℕ) : ℤ) := by
  rw [toInt_of_lt hshort, RefusesLengths, Int.tmod_eq_emod_of_nonneg (Int.natCast_nonneg _),
    Int.tdiv_eq_ediv_of_nonneg (Int.natCast_nonneg _)]
  omega

/-- Everything that `toByteArray` does with a target that is not null. -/
theorem toByteArray_some (target : List UInt8) (nLen : ℤ) (sSrc : List Char) :
    toByteArray (some target) nLen sSrc =
      if RefusesLengths nLen (toInt sSrc.length) then .ok (false, some target)
      else if (leadingPairs (readText sSrc)).length ≤ target.length then
        .ok ((pairsOf (readText sSrc)).all isHexPair,
          some ((leadingPairs (readText sSrc)).map readByte ++
            target.drop (leadingPairs (readText sSrc)).length))
      else .error .outOfBounds := by
  by_cases hlength : nLen < 1
  · rw [toByteArray, if_pos hlength, if_pos (.inl hlength)]
    rfl
  by_cases hfits : 0 < (toInt sSrc.length).tmod 2 ∨ nLen < (toInt sSrc.length).tdiv 2
  · rw [toByteArray, if_neg hlength, if_pos hfits, if_pos (.inr hfits)]
    rfl
  have hnot : ¬RefusesLengths nLen (toInt sSrc.length) := not_or.mpr ⟨hlength, hfits⟩
  have heven : (readText sSrc).length % 2 = 0 := by
    rw [length_readText]
    exact even_of_not_refuses hnot
  have hpasses : (toInt sSrc.length).toNat / 2 = (pairsOf (readText sSrc)).length := by
    rw [length_pairsOf heven, length_readText]
  have hloop := toByteArrayFrom_eq (sSrc.drop (toInt sSrc.length).toNat) (pairsOf (readText sSrc))
    [] [] target rfl
  rw [List.nil_append, List.nil_append, List.nil_append, textOf_pairsOf heven, ← hpasses, readText,
    List.take_append_drop] at hloop
  rw [toByteArray, if_neg hlength, if_neg hfits, if_neg hnot]
  show (toByteArrayFrom sSrc _ 0 target >>= _) = _
  refine (congrArg (· >>= _) hloop).trans ?_
  rw [leadingPairs, readText]
  split_ifs
  · rfl
  · rfl

/-- Assumes: there is memory for the bytes of the text if the target is said to have it. The text is
taken exactly when its length is even, fits the target and is that of a text of digits, and nothing
is written behind the bytes of the text. -/
theorem toByteArray_accepts {target : List UInt8} {nLen : ℤ} {sSrc : List Char}
    (hshort : sSrc.length < 2 ^ 31)
    (hroom : ((sSrc.length / 2 : ℕ) : ℤ) ≤ nLen → sSrc.length / 2 ≤ target.length) :
    ∃ out target', toByteArray (some target) nLen sSrc = .ok (out, some target') ∧
      (out = true ↔ 1 ≤ nLen ∧ sSrc.length % 2 = 0 ∧ ((sSrc.length / 2 : ℕ) : ℤ) ≤ nLen ∧
        ∀ c ∈ sSrc, c ∈ hexDigits) ∧
      target'.length = target.length ∧
      target'.drop (sSrc.length / 2) = target.drop (sSrc.length / 2) := by
  have hread : readText sSrc = sSrc := by
    rw [readText, toInt_of_lt hshort]
    exact List.take_length
  have hrefuses := refusesLengths_iff nLen hshort
  rw [toByteArray_some, hread]
  by_cases hcheck : RefusesLengths nLen (toInt sSrc.length)
  · refine ⟨false, target, if_pos hcheck, iff_of_false Bool.false_ne_true ?_, rfl, rfl⟩
    rintro ⟨hlength, heven, hfits, -⟩
    have := hrefuses.mp hcheck
    omega
  have heven := even_of_not_refuses hcheck
  rw [toInt_of_lt hshort, Int.toNat_natCast] at heven
  have hfits := mt hrefuses.mpr hcheck
  have hleading : (leadingPairs sSrc).length ≤ sSrc.length / 2 := by
    rw [← length_pairsOf heven]
    exact (List.takeWhile_prefix _).length_le
  have htarget : sSrc.length / 2 ≤ target.length := hroom (by omega)
  rw [if_neg hcheck, if_pos (hleading.trans htarget)]
  refine ⟨_, _, rfl, ?_, ?_, ?_⟩
  · rw [all_isHexPair_iff heven]
    constructor
    · exact fun hdigits ↦ ⟨by omega, heven, by omega, hdigits⟩
    · exact fun h ↦ h.2.2.2
  · rw [List.length_append, List.length_map, List.length_drop]
    omega
  · rw [List.drop_append, List.length_map, List.drop_drop,
      List.drop_of_length_le (by rwa [List.length_map]), List.nil_append]
    congr 1
    omega

/-- The text `4G` into two bytes, and the text `41` into one. -/
theorem toByteArray_accepts_digits :
    (∃ out target', toByteArray (some [7, 7]) 2 ['4', 'G'] = .ok (out, some target') ∧
      (out = true ↔ (1 : ℤ) ≤ 2 ∧ ['4', 'G'].length % 2 = 0 ∧
        ((['4', 'G'].length / 2 : ℕ) : ℤ) ≤ 2 ∧ ∀ c ∈ ['4', 'G'], c ∈ hexDigits) ∧
      target'.length = 2 ∧ target'.drop 1 = [7]) ∧
    ∃ out target', toByteArray (some [7]) 1 ['4', '1'] = .ok (out, some target') ∧
      (out = true ↔ (1 : ℤ) ≤ 1 ∧ ['4', '1'].length % 2 = 0 ∧
        ((['4', '1'].length / 2 : ℕ) : ℤ) ≤ 1 ∧ ∀ c ∈ ['4', '1'], c ∈ hexDigits) ∧
      target'.length = 1 ∧ target'.drop 1 = [] :=
  ⟨toByteArray_accepts (by decide) fun _ ↦ by decide,
    toByteArray_accepts (by decide) fun _ ↦ by decide⟩

/-- A call that is refused for its parameters leaves the target as it is, and any other one that is
rejected leaves the bytes behind those for the pairs of digits before the first other character. -/
theorem toByteArray_rejects {pTarget after : Option (List UInt8)} {nLen : ℤ} {sSrc : List Char}
    (h : toByteArray pTarget nLen sSrc = .ok (false, after)) :
    (pTarget = none ∨ RefusesLengths nLen (toInt sSrc.length) → after = pTarget) ∧
      ∀ target ∈ pTarget, ∃ target', after = some target' ∧ target'.length = target.length ∧
        target'.drop (leadingPairs (readText sSrc)).length =
          target.drop (leadingPairs (readText sSrc)).length := by
  cases pTarget with
  | none => exact ⟨fun _ ↦ (Prod.mk.inj (Except.ok.inj h)).2.symm, nofun⟩
  | some target =>
    rw [toByteArray_some] at h
    split_ifs at h with hrefused hroom
    · obtain rfl := (Prod.mk.inj (Except.ok.inj h)).2
      refine ⟨fun _ ↦ rfl, ?_⟩
      rintro _ ⟨⟩
      exact ⟨target, rfl, rfl, rfl⟩
    · obtain rfl := (Prod.mk.inj (Except.ok.inj h)).2
      refine ⟨fun hnone ↦ absurd (hnone.resolve_left nofun) hrefused, ?_⟩
      rintro _ ⟨⟩
      refine ⟨_, rfl, ?_, List.drop_left' (List.length_map _)⟩
      rw [List.length_append, List.length_map, List.length_drop, Nat.add_sub_of_le hroom]

/-- The text `41G0`, whose second pair is the first one with another character, and the text `041`,
which has an odd length. -/
theorem toByteArray_rejects_late :
    (∃ after, toByteArray (some [7, 7]) 2 ['4', '1', 'G', '0'] = .ok (false, some after) ∧
      after.length = 2 ∧ after.drop 1 = [7]) ∧
    ∃ after, toByteArray (some [7, 7]) 2 ['0', '4', '1'] = .ok (false, after) ∧
      after = some [7, 7] := by
  constructor
  · have hcall : toByteArray (some [7, 7]) 2 ['4', '1', 'G', '0'] =
        .ok (false, some [0x41, 7]) := by
      decide
    obtain ⟨after, hafter, hlength, hrest⟩ := (toByteArray_rejects hcall).2 _ rfl
    obtain rfl := Option.some.inj hafter
    exact ⟨_, hcall, hlength, hrest⟩
  · have hcall : toByteArray (some [7, 7]) 2 ['0', '4', '1'] = .ok (false, some [7, 7]) := by decide
    exact ⟨_, hcall, (toByteArray_rejects hcall).1 (.inr (by decide))⟩

/-- The text `41G0` is rejected, and a byte of the target has changed. -/
theorem rejected_text_is_written :
    ∃ target after : List UInt8, toByteArray (some target) 2 ['4', '1', 'G', '0'] =
      .ok (false, some after) ∧ after ≠ target :=
  ⟨[7, 7], [0x41, 7], by decide, by decide⟩

end RdbLibs.StrUtils
