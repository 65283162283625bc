import RdbLibs.NetIO.UriParams.Passes

/-!
# Termination and failure of `parseUriParams`

`parseUriParams` returns for every text shorter than 2^31, and no piece of the text that it cuts
begins behind the end of the text (`parseUriParams_returns`).

It appends the parameters one by one, so that one that fails later has appended the complete ones
before. They are the same whatever was in the list, and there are none exactly if the first one is
not complete (`parseUriParams_failed`).
-/

set_option autoImplicit false
set_option relaxedAutoImplicit false

namespace RdbLibs.NetIO

open CheckedMemory MachineWord TextPositions WhileLoop

/-- The text has a first parameter with an end that a second one could follow. -/
def FirstEntryEnds (sPrmsStr : List Char) : Prop :=
  (∃ nQuestion, findFrom sPrmsStr '?' 0 = some nQuestion ∧
      nQuestion + 1 < toUnsigned sPrmsStr.length ∧ QueryEntryEnds sPrmsStr (nQuestion + 1)) ∨
    (findFrom sPrmsStr '?' 0 = none ∧ ∃ nOpenBrace nCloseBrace,
      findFrom sPrmsStr '{' 0 = some nOpenBrace ∧ findLast sPrmsStr '}' = some nCloseBrace ∧
        nOpenBrace + 1 < nCloseBrace ∧ BraceEntryEnds sPrmsStr (nOpenBrace + 1))

/-- A scan with other parameters before its own. -/
def ParamScan.behind (before : List UriParamData) (scan : ParamScan) : ParamScan :=
  ⟨scan.nParamStart, before ++ scan.prmList⟩

/-- An answer with other parameters before its own. -/
def answerBehind (before : List UriParamData) (answer : ParamAnswer) : ParamAnswer :=
  (answer.1, before ++ answer.2)

/-- The passes of a loop do the same whatever is in the list before. -/
def IgnoresList (body : ParamScan → Except RangeFault (Pass ParamScan ParamAnswer)) : Prop :=
  ∀ (before : List UriParamData) (scan : ParamScan), body (scan.behind before) =
    (body scan).map (Pass.map (ParamScan.behind before) (answerBehind before))

section Lists

variable (before : List UriParamData) (scan : ParamScan)

theorem behind_push (newParam : UriParamData) (nParamStart : ℕ) :
    (scan.behind before).push newParam nParamStart =
      (scan.push newParam nParamStart).behind before := by
  rw [ParamScan.push, ParamScan.behind, List.append_assoc]
  rfl

theorem answerBehind_append (success : Bool) (newParam : UriParamData) :
    (success, (scan.behind before).prmList ++ [newParam]) =
      answerBehind before (success, scan.prmList ++ [newParam]) := by
  rw [ParamScan.behind, List.append_assoc]
  rfl

theorem saveParam_behind (sPrmsStr : List Char) (newParam : UriParamData) (nParamStart : ℕ) :
    (scan.behind before).saveParam sPrmsStr newParam nParamStart =
      (scan.saveParam sPrmsStr newParam nParamStart).map (ParamScan.behind before)
        (answerBehind before) := by
  unfold ParamScan.saveParam
  cases findFrom sPrmsStr ',' nParamStart with
  | none => exact congrArg Pass.leave (answerBehind_append before scan true newParam)
  | some nComma => exact congrArg Pass.again (behind_push before scan newParam _)

end Lists

theorem queryPass_ignoresList (sPrmsStr : List Char) : IgnoresList (queryPass sPrmsStr) := by
  intro before scan
  have hpos : (scan.behind before).nParamStart = scan.nParamStart := rfl
  unfold queryPass
  rw [hpos]
  split_ifs
  · rfl
  cases findFrom sPrmsStr '=' scan.nParamStart with
  | none =>
    dsimp only
    cases substrFrom sPrmsStr scan.nParamStart with
    | error fault => rfl
    | ok sParamName =>
      rw [ok_bind, ok_bind, answerBehind_append]
      split_ifs <;> rfl
  | some nEqualSign =>
    dsimp only
    cases substr sPrmsStr scan.nParamStart nEqualSign with
    | error fault => rfl
    | ok sParamName =>
      rw [ok_bind, ok_bind]
      cases findFrom sPrmsStr '&' (nEqualSign + 1) with
      | none =>
        dsimp only
        cases substrFrom sPrmsStr (nEqualSign + 1) with
        | error fault => rfl
        | ok sParamValue =>
          rw [ok_bind, ok_bind, answerBehind_append]
          split_ifs <;> rfl
      | some nAndlSign =>
        dsimp only
        cases substr sPrmsStr (nEqualSign + 1) nAndlSign with
        | error fault => rfl
        | ok sParamValue =>
          rw [ok_bind, ok_bind, behind_push]
          rfl

theorem bracePass_ignoresList (sPrmsStr : List Char) (nCloseBrace : ℕ) :
    IgnoresList (bracePass sPrmsStr nCloseBrace) := by
  intro before scan
  have hpos : (scan.behind before).nParamStart = scan.nParamStart := rfl
  unfold bracePass
  rw [hpos]
  split_ifs
  · rfl
  rw [quotedText_eq, ok_bind, ok_bind]
  cases nextQuotes sPrmsStr scan.nParamStart with
  | none => rfl
  | some quotes =>
    dsimp only [Option.map_some]
    cases findFrom sPrmsStr ':' (quotes.2 + 1) with
    | none => exact congrArg Except.ok (saveParam_behind before scan sPrmsStr _ _)
    | some nColon =>
      dsimp only
      cases findValue sPrmsStr (nColon + 1) with
      | error fault => rfl
      | ok value =>
        rw [ok_bind, ok_bind]
        cases value with
        | missing => rfl
        | endless => rfl
        | found sParamValue nParamStart =>
          exact congrArg Except.ok (saveParam_behind before scan sPrmsStr _ _)

section Calls

variable {sPrmsStr : List Char}

theorem firstEntryEnds_iff_of_question {nQuestion : ℕ}
    (hquestion : findFrom sPrmsStr '?' 0 = some nQuestion) :
    FirstEntryEnds sPrmsStr ↔
      nQuestion + 1 < toUnsigned sPrmsStr.length ∧ QueryEntryEnds sPrmsStr (nQuestion + 1) := by
  constructor
  · rintro (⟨nQuestion', h, hentry⟩ | ⟨h, -⟩)
    · obtain rfl := Option.some.inj (hquestion.symm.trans h)
      exact hentry
    · exact absurd (hquestion.symm.trans h) nofun
  · intro hentry
    exact .inl ⟨nQuestion, hquestion, hentry⟩

theorem firstEntryEnds_iff_of_braces {nOpenBrace nCloseBrace : ℕ}
    (hquestion : findFrom sPrmsStr '?' 0 = none)
    (hopen : findFrom sPrmsStr '{' 0 = some nOpenBrace)
    (hclose : findLast sPrmsStr '}' = some nCloseBrace) :
    FirstEntryEnds sPrmsStr ↔
      nOpenBrace + 1 < nCloseBrace ∧ BraceEntryEnds sPrmsStr (nOpenBrace + 1) := by
  constructor
  · rintro (⟨nQuestion, h, -⟩ | ⟨-, nOpenBrace', nCloseBrace', hopen', hclose', hentry⟩)
    · exact absurd (hquestion.symm.trans h) nofun
    · obtain rfl := Option.some.inj (hopen.symm.trans hopen')
      obtain rfl := Option.some.inj (hclose.symm.trans hclose')
      exact hentry
  · intro hentry
    exact .inr ⟨hquestion, nOpenBrace, nCloseBrace, hopen, hclose, hentry⟩

/-- Without a question mark and without a pair of braces there is no parameter. -/
theorem fails_of_no_braces (hquestion : findFrom sPrmsStr '?' 0 = none)
    (hbraces : findFrom sPrmsStr '{' 0 = none ∨ findLast sPrmsStr '}' = none) :
    ¬FirstEntryEnds sPrmsStr ∧
      ∀ fuel prmList, parseUriParams fuel sPrmsStr prmList = some (.ok (false, prmList)) := by
  constructor
  · rintro (⟨nQuestion, h, -⟩ | ⟨-, nOpenBrace, nCloseBrace, hopen, hclose, -⟩)
    · exact absurd (hquestion.symm.trans h) nofun
    · rcases hbraces with hnone | hnone
      · exact absurd (hopen.symm.trans hnone) nofun
      · exact absurd (hclose.symm.trans hnone) nofun
  · intro fuel prmList
    unfold parseUriParams
    split_ifs
    · rfl
    rw [hquestion]
    rcases hbraces with hnone | hnone
    · rw [hnone]
    · rw [hnone]
      cases findFrom sPrmsStr '{' 0 <;> rfl

/-- `parseUriParams` either fails at once or runs one of the two loops. -/
theorem parseUriParams_cases (sPrmsStr : List Char) :
    (¬FirstEntryEnds sPrmsStr ∧
      ∀ fuel prmList, parseUriParams fuel sPrmsStr prmList = some (.ok (false, prmList))) ∨
    ∃ body Named Ends nParamStart, ParamPasses sPrmsStr.length body Named Ends ∧
      IgnoresList body ∧ nParamStart ≤ sPrmsStr.length ∧
      (FirstEntryEnds sPrmsStr ↔ Ends nParamStart) ∧
      ∀ fuel prmList, parseUriParams fuel sPrmsStr prmList =
        loop (fun scan ↦ Pass.checked (body scan)) fuel ⟨nParamStart, prmList⟩ := by
  cases hquestion : findFrom sPrmsStr '?' 0 with
  | some nQuestion =>
    have hends := firstEntryEnds_iff_of_question hquestion
    by_cases hend : toUnsigned sPrmsStr.length ≤ nQuestion + 1
    · refine .inl ⟨fun h ↦ absurd (hends.mp h).1 (by omega), fun fuel prmList ↦ ?_⟩
      rw [parseUriParams_of_question fuel prmList hquestion, if_pos hend]
    · refine .inr ⟨_, _, _, nQuestion + 1, queryPasses sPrmsStr, queryPass_ignoresList sPrmsStr,
        (findFrom_bounds hquestion).2, hends, fun fuel prmList ↦ ?_⟩
      rw [parseUriParams_of_question fuel prmList hquestion, if_neg hend]
  | none =>
    cases hopen : findFrom sPrmsStr '{' 0 with
    | none => exact .inl (fails_of_no_braces hquestion (.inl hopen))
    | some nOpenBrace =>
      cases hclose : findLast sPrmsStr '}' with
      | none => exact .inl (fails_of_no_braces hquestion (.inr hclose))
      | some nCloseBrace =>
        have hends := firstEntryEnds_iff_of_braces hquestion hopen hclose
        by_cases hend : nCloseBrace ≤ nOpenBrace + 1
        · refine .inl ⟨fun h ↦ absurd (hends.mp h).1 (by omega), fun fuel prmList ↦ ?_⟩
          rw [parseUriParams_of_braces fuel prmList hquestion hopen hclose, if_pos hend]
        · refine .inr ⟨_, _, _, nOpenBrace + 1, bracePasses sPrmsStr nCloseBrace,
            bracePass_ignoresList sPrmsStr nCloseBrace, (findFrom_bounds hopen).2, hends,
            fun fuel prmList ↦ ?_⟩
          rw [parseUriParams_of_braces fuel prmList hquestion hopen hclose, if_neg hend]

/-- What is in the list before is not read, and stays before what is appended. -/
theorem parseUriParams_behind (fuel : ℕ) (sPrmsStr : List Char) (prmList : List UriParamData) :
    parseUriParams fuel sPrmsStr prmList =
      (parseUriParams fuel sPrmsStr []).map (Except.map (answerBehind prmList)) := by
  rcases parseUriParams_cases sPrmsStr with
    ⟨-, hfails⟩ | ⟨body, Named, Ends, nParamStart, -, hignores, -, -, hruns⟩
  · rw [hfails, hfails]
    exact congrArg (fun list ↦ some (Except.ok (false, list))) (List.append_nil prmList).symm
  · have hstart : (⟨nParamStart, prmList⟩ : ParamScan) =
        (⟨nParamStart, []⟩ : ParamScan).behind prmList := by
      rw [ParamScan.behind, List.append_nil]
    rw [hruns, hruns, hstart]
    refine loop_map (fun _ ↦ True) (ParamScan.behind prmList) (Except.map (answerBehind prmList))
      (fun scan _ ↦ ?_) (fun _ _ _ _ ↦ trivial) fuel _ trivial
    rw [hignores, Pass.checked_map]

end Calls

/-- Every text shorter than 2^31 is read to an end, and no piece of it that is cut begins behind its
end. -/
theorem parseUriParams_returns {sPrmsStr : List Char} (hshort : sPrmsStr.length < 2 ^ 31)
    {fuel : ℕ} (hfuel : sPrmsStr.length < fuel) (prmList : List UriParamData) :
    ∃ answer, parseUriParams fuel sPrmsStr prmList = some (.ok answer) := by
  rcases parseUriParams_cases sPrmsStr with
    ⟨-, hfails⟩ | ⟨body, Named, Ends, nParamStart, hpasses, -, hpos, -, hruns⟩
  · exact ⟨_, hfails fuel prmList⟩
  · have hahead : sPrmsStr.length - nParamStart < fuel := by omega
    rw [hruns]
    exact hpasses.returns (by omega) hpos hahead

theorem parseUriParams_returns_unnamed :
    ∃ answer, parseUriParams 8 ['{', '"', 'a', '"', ',', ':', '}'] [] = some (.ok answer) :=
  parseUriParams_returns (by decide) (by decide) []

/-- A text that is not read to its end leaves what it had appended: the parameters that it appends
to an empty list, of which there is none exactly if the first parameter has no end. -/
theorem parseUriParams_failed {fuel : ℕ} {sPrmsStr : List Char}
    {prmList prmList' : List UriParamData}
    (h : parseUriParams fuel sPrmsStr prmList = some (.ok (false, prmList'))) :
    ∃ added, parseUriParams fuel sPrmsStr [] = some (.ok (false, added)) ∧
      prmList' = prmList ++ added ∧ (prmList' = prmList ↔ ¬FirstEntryEnds sPrmsStr) := by
  have hempty : ∃ added, parseUriParams fuel sPrmsStr [] = some (.ok (false, added)) ∧
      prmList' = prmList ++ added := by
    rw [parseUriParams_behind] at h
    obtain ⟨result, hresult, hanswer⟩ := Option.map_eq_some_iff.mp h
    cases result with
    | error fault => exact absurd hanswer nofun
    | ok answer =>
      obtain ⟨hfalse, hlist⟩ := Prod.mk.inj (Except.ok.inj hanswer)
      exact ⟨answer.2, hfalse ▸ hresult, hlist.symm⟩
  obtain ⟨added, hadded, hlist⟩ := hempty
  refine ⟨added, hadded, hlist, ?_⟩
  have hnone : prmList' = prmList ↔ added = [] := by
    rw [hlist, List.append_right_eq_self]
  rw [hnone]
  rcases parseUriParams_cases sPrmsStr with
    ⟨hends, hfails⟩ | ⟨body, Named, Ends, nParamStart, hpasses, -, -, hends, hruns⟩
  · have hsame := Except.ok.inj (Option.some.inj ((hfails fuel []).symm.trans hadded))
    exact iff_of_true (Prod.mk.inj hsame).2.symm hends
  · obtain ⟨answer, hanswer, hshows⟩ := hpasses.first ((hruns fuel []).symm.trans hadded)
    obtain rfl := Except.ok.inj hanswer
    rw [hends]
    rcases hshows with ⟨hfirst, newParam, -, hmore⟩ | ⟨hfirst, hkept | ⟨hsuccess, -⟩⟩
    · refine iff_of_false (fun hnil ↦ ?_) (not_not_intro hfirst)
      exact absurd (List.prefix_nil.mp (hnil ▸ hmore)) (List.cons_ne_nil _ _)
    · exact iff_of_true hkept hfirst
    · exact absurd hsuccess Bool.false_ne_true

theorem parseUriParams_failed_first :
    ∃ added, parseUriParams 9 ['?', 'a', '='] [] = some (.ok (false, added)) ∧
      ([⟨['x'], ['y']⟩] : List UriParamData) = [⟨['x'], ['y']⟩] ++ added ∧
      (([⟨['x'], ['y']⟩] : List UriParamData) = [⟨['x'], ['y']⟩] ↔
        ¬FirstEntryEnds ['?', 'a', '=']) :=
  parseUriParams_failed (by decide)

/-- A parameter before one without a value stays in the list. -/
theorem failed_parse_appends :
    parseUriParams 9 ['?', 'a', '=', '1', '&', 'b', '='] [] =
        some (.ok (false, [⟨['a', '='], ['1', '&', 'b', '=']⟩])) ∧
      ¬∀ (fuel : ℕ) (sPrmsStr : List Char) (prmList prmList' : List UriParamData),
        parseUriParams fuel sPrmsStr prmList = some (.ok (false, prmList')) →
          prmList' = prmList := by
  have hfailed : parseUriParams 9 ['?', 'a', '=', '1', '&', 'b', '='] [] =
      some (.ok (false, [⟨['a', '='], ['1', '&', 'b', '=']⟩])) := by decide
  refine ⟨hfailed, fun h ↦ ?_⟩
  exact absurd (h _ _ _ _ hfailed) (List.cons_ne_nil _ _)

end RdbLibs.NetIO
