import RdbLibs.Foundations.CheckedMemory
import RdbLibs.NetIO.UriParams.Model

/-!
# What a pass of `parseUriParams` does

A pass of either loop leaves it with at most one parameter more, appends one parameter and goes on
behind it, or never ends, which takes a text of 2^32 characters (`queryPass_outcome`,
`bracePass_outcome`). Every position it cuts at is in the text.

So each loop only appends, begins with the parameter of its first pass, and fails with nothing
appended exactly if that pass does not go on (`ParamPasses.first`). It returns as soon as its fuel
is above the number of the characters ahead (`ParamPasses.returns`).
-/

set_option autoImplicit false
set_option relaxedAutoImplicit false

namespace RdbLibs.NetIO

open CheckedMemory MachineWord TextPositions WhileLoop

/-- The positions of the next two quotes. -/
def nextQuotes (sPrmsStr : List Char) (nParamStart : ℕ) : Option (ℕ × ℕ) :=
  (findFrom sPrmsStr '"' nParamStart).bind fun nOpenQuote ↦
    (findFrom sPrmsStr '"' (nOpenQuote + 1)).map fun nCloseQuote ↦ (nOpenQuote, nCloseQuote)

/-- A parameter behind a question mark has an equal sign, and an ampersand behind it. -/
def QueryEntryEnds (sPrmsStr : List Char) (nParamStart : ℕ) : Prop :=
  ∃ nEqualSign nAndlSign, findFrom sPrmsStr '=' nParamStart = some nEqualSign ∧
    findFrom sPrmsStr '&' (nEqualSign + 1) = some nAndlSign

/-- A parameter between braces has a name in quotes, and either there is no colon and a comma behind
the name, or a colon behind the name, a value in quotes behind the colon, and a comma behind the
value. -/
def BraceEntryEnds (sPrmsStr : List Char) (nParamStart : ℕ) : Prop :=
  ∃ nOpenQuote nCloseQuote, nextQuotes sPrmsStr nParamStart = some (nOpenQuote, nCloseQuote) ∧
    ((findFrom sPrmsStr ':' (nCloseQuote + 1) = none ∧
        ∃ nComma, findFrom sPrmsStr ',' (nCloseQuote + 1) = some nComma) ∨
      ∃ nColon nValueOpen nValueClose nComma,
        findFrom sPrmsStr ':' (nCloseQuote + 1) = some nColon ∧
          nextQuotes sPrmsStr (nColon + 1) = some (nValueOpen, nValueClose) ∧
          findFrom sPrmsStr ',' (nValueClose + 1) = some nComma)

/-- The name that a pass reads behind a question mark. -/
def QueryName (sPrmsStr : List Char) (nParamStart : ℕ) (sParamName : List Char) : Prop :=
  ∀ nEqualSign, findFrom sPrmsStr '=' nParamStart = some nEqualSign →
    sParamName = (sPrmsStr.drop nParamStart).take nEqualSign

/-- The name that a pass reads between braces. -/
def BraceName (sPrmsStr : List Char) (nParamStart : ℕ) (sParamName : List Char) : Prop :=
  ∀ nOpenQuote nCloseQuote, nextQuotes sPrmsStr nParamStart = some (nOpenQuote, nCloseQuote) →
    sParamName = (sPrmsStr.drop (nOpenQuote + 1)).take nCloseQuote

/-- What a pass does: it leaves the loop with the list as it is or with a last parameter, appends a
parameter and goes on behind it, or never ends. -/
inductive PassOutcome (nLength : ℕ) (scan : ParamScan) (Named : List Char → Prop) (ends : Prop) :
    Pass ParamScan ParamAnswer → Prop
  | kept (success : Bool) : ¬ends → PassOutcome nLength scan Named ends
      (.leave (success, scan.prmList))
  | last {sParamName : List Char} (sParamValue : List Char) : ¬ends → Named sParamName →
      PassOutcome nLength scan Named ends
        (.leave (true, scan.prmList ++ [⟨sParamName, sParamValue⟩]))
  | next {sParamName : List Char} (sParamValue : List Char) {nParamStart : ℕ} : ends →
      Named sParamName → scan.nParamStart < nParamStart → nParamStart ≤ nLength →
      PassOutcome nLength scan Named ends (.again (scan.push ⟨sParamName, sParamValue⟩ nParamStart))
  | endless : ¬ends → 2 ^ 32 ≤ nLength → PassOutcome nLength scan Named ends (.again scan)

section Passes

variable {sPrmsStr : List Char} {nParamStart : ℕ}

/-- The quotes are in the text, one behind the other. -/
theorem nextQuotes_bounds {nOpenQuote nCloseQuote : ℕ}
    (h : nextQuotes sPrmsStr nParamStart = some (nOpenQuote, nCloseQuote)) :
    nParamStart ≤ nOpenQuote ∧ nOpenQuote < nCloseQuote ∧ nCloseQuote < sPrmsStr.length := by
  obtain ⟨first, hfirst, hrest⟩ := Option.bind_eq_some_iff.mp h
  obtain ⟨second, hsecond, hpair⟩ := Option.map_eq_some_iff.mp hrest
  obtain ⟨rfl, rfl⟩ := Prod.mk.inj hpair
  have hopen := findFrom_bounds hfirst
  have hclose := findFrom_bounds hsecond
  omega

/-- The text between two quotes is always cut. -/
theorem quotedText_eq (sPrmsStr : List Char) (nParamStart : ℕ) :
    quotedText sPrmsStr nParamStart = .ok ((nextQuotes sPrmsStr nParamStart).map fun quotes ↦
      ((sPrmsStr.drop (quotes.1 + 1)).take quotes.2, quotes.2 + 1)) := by
  unfold quotedText nextQuotes
  cases hopen : findFrom sPrmsStr '"' nParamStart with
  | none => rfl
  | some nOpenQuote =>
    cases hclose : findFrom sPrmsStr '"' (nOpenQuote + 1) with
    | none =>
      dsimp only [Option.bind_some]
      rw [hclose]
      rfl
    | some nCloseQuote =>
      have hbound := findFrom_bounds hopen
      dsimp only [Option.bind_some]
      rw [hclose]
      dsimp only
      rw [substr_eq (by omega), ok_bind]
      rfl

/-- What is found of a value without quotes. -/
theorem bareValue_cases (h : nParamStart ≤ sPrmsStr.length) :
    bareValue sPrmsStr nParamStart = .ok .missing ∨
      (bareValue sPrmsStr nParamStart = .ok .endless ∧ 2 ^ 32 ≤ sPrmsStr.length) ∨
        ∃ sParamValue,
          bareValue sPrmsStr nParamStart = .ok (.found sParamValue sPrmsStr.length) := by
  have hrest : (sPrmsStr.drop nParamStart).length = sPrmsStr.length - nParamStart :=
    List.length_drop
  have hfirst : (sPrmsStr.drop nParamStart).findIdx isAboveSpace ≤
      (sPrmsStr.drop nParamStart).length := List.findIdx_le_length
  unfold bareValue
  rw [substrFrom_eq h, ok_bind]
  dsimp only
  split_ifs with hwrap hnone
  · exact .inr (.inl ⟨rfl, by omega⟩)
  · exact .inl rfl
  · rw [substrFrom_eq hfirst, ok_bind]
    have hend : nParamStart + (sPrmsStr.drop nParamStart).length = sPrmsStr.length := by omega
    rw [hend]
    exact .inr (.inr ⟨_, rfl⟩)

/-- What is found of a value: with quotes the text between them and the position behind them,
without them at most the rest of the text. -/
theorem findValue_cases (h : nParamStart ≤ sPrmsStr.length) :
    (nextQuotes sPrmsStr nParamStart = none ∧
      (findValue sPrmsStr nParamStart = .ok .missing ∨
        (findValue sPrmsStr nParamStart = .ok .endless ∧ 2 ^ 32 ≤ sPrmsStr.length) ∨
          ∃ sParamValue,
            findValue sPrmsStr nParamStart = .ok (.found sParamValue sPrmsStr.length))) ∨
      ∃ nOpenQuote nCloseQuote sParamValue,
        nextQuotes sPrmsStr nParamStart = some (nOpenQuote, nCloseQuote) ∧
          findValue sPrmsStr nParamStart = .ok (.found sParamValue (nCloseQuote + 1)) := by
  unfold findValue
  cases hopen : findFrom sPrmsStr '"' nParamStart with
  | none =>
    refine .inl ⟨?_, bareValue_cases h⟩
    rw [nextQuotes, hopen, Option.bind_none]
  | some nOpenQuote =>
    dsimp only
    rw [quotedText_eq, ok_bind]
    cases hquotes : nextQuotes sPrmsStr nParamStart with
    | none => exact .inl ⟨rfl, .inl rfl⟩
    | some quotes => exact .inr ⟨quotes.1, quotes.2, _, rfl, rfl⟩

/-- What a pass of the loop over parameters behind a question mark does. -/
theorem queryPass_outcome (sPrmsStr : List Char) (scan : ParamScan) :
    ∃ pass, queryPass sPrmsStr scan = .ok pass ∧
      PassOutcome sPrmsStr.length scan (QueryName sPrmsStr scan.nParamStart)
        (scan.nParamStart < toUnsigned sPrmsStr.length ∧
          QueryEntryEnds sPrmsStr scan.nParamStart) pass := by
  have hword : toUnsigned sPrmsStr.length ≤ sPrmsStr.length := Nat.mod_le _ _
  unfold queryPass
  split_ifs with hend
  · exact ⟨_, rfl, .kept true fun h ↦ absurd h.1 (by omega)⟩
  have hstart : scan.nParamStart ≤ sPrmsStr.length := by omega
  cases hequal : findFrom sPrmsStr '=' scan.nParamStart with
  | none =>
    have hname : QueryName sPrmsStr scan.nParamStart (sPrmsStr.drop scan.nParamStart) :=
      fun _ h ↦ absurd (hequal.symm.trans h) nofun
    have hopen : ¬(scan.nParamStart < toUnsigned sPrmsStr.length ∧
        QueryEntryEnds sPrmsStr scan.nParamStart) := by
      rintro ⟨-, nEqualSign, nAndlSign, h, -⟩
      exact absurd (hequal.symm.trans h) nofun
    dsimp only
    rw [substrFrom_eq hstart, ok_bind]
    split_ifs
    · exact ⟨_, rfl, .kept false hopen⟩
    · exact ⟨_, rfl, .last [] hopen hname⟩
  | some nEqualSign =>
    have hbound := findFrom_bounds hequal
    have hname : QueryName sPrmsStr scan.nParamStart
        ((sPrmsStr.drop scan.nParamStart).take nEqualSign) := by
      intro nEqualSign' h
      rw [Option.some.inj (hequal.symm.trans h)]
    dsimp only
    rw [substr_eq hstart, ok_bind]
    cases handl : findFrom sPrmsStr '&' (nEqualSign + 1) with
    | none =>
      have hopen : ¬(scan.nParamStart < toUnsigned sPrmsStr.length ∧
          QueryEntryEnds sPrmsStr scan.nParamStart) := by
        rintro ⟨-, nEqualSign', nAndlSign, h, h'⟩
        obtain rfl := Option.some.inj (hequal.symm.trans h)
        exact absurd (handl.symm.trans h') nofun
      dsimp only
      rw [substrFrom_eq (by omega), ok_bind]
      split_ifs
      · exact ⟨_, rfl, .kept false hopen⟩
      · exact ⟨_, rfl, .last _ hopen hname⟩
    | some nAndlSign =>
      have hbound' := findFrom_bounds handl
      dsimp only
      rw [substr_eq (by omega), ok_bind]
      exact ⟨_, rfl, .next _ ⟨by omega, nEqualSign, nAndlSign, hequal, handl⟩ hname (by omega)
        (by omega)⟩

/-- What a parameter that is complete does. -/
theorem saveParam_outcome {scan : ParamScan} {Named : List Char → Prop} {ends : Prop}
    {sParamName : List Char} (sParamValue : List Char) (hname : Named sParamName)
    (hpos : scan.nParamStart ≤ nParamStart)
    (hends : ends ↔ ∃ nComma, findFrom sPrmsStr ',' nParamStart = some nComma) :
    PassOutcome sPrmsStr.length scan Named ends
      (scan.saveParam sPrmsStr ⟨sParamName, sParamValue⟩ nParamStart) := by
  unfold ParamScan.saveParam
  cases hcomma : findFrom sPrmsStr ',' nParamStart with
  | none =>
    refine .last _ (fun h ↦ ?_) hname
    obtain ⟨nComma, hsome⟩ := hends.mp h
    exact absurd (hcomma.symm.trans hsome) nofun
  | some nComma =>
    have hbound := findFrom_bounds hcomma
    exact .next _ (hends.mpr ⟨nComma, hcomma⟩) hname (by omega) (by omega)

/-- Where the name and the colon of a parameter are known, it is complete exactly with its value. -/
theorem braceEntryEnds_iff_of_colon {nOpenQuote nCloseQuote nColon : ℕ}
    (hquotes : nextQuotes sPrmsStr nParamStart = some (nOpenQuote, nCloseQuote))
    (hcolon : findFrom sPrmsStr ':' (nCloseQuote + 1) = some nColon) :
    BraceEntryEnds sPrmsStr nParamStart ↔ ∃ nValueOpen nValueClose nComma,
      nextQuotes sPrmsStr (nColon + 1) = some (nValueOpen, nValueClose) ∧
        findFrom sPrmsStr ',' (nValueClose + 1) = some nComma := by
  constructor
  · rintro ⟨nOpenQuote', nCloseQuote', hquotes', hrest⟩
    obtain ⟨rfl, rfl⟩ := Prod.mk.inj (Option.some.inj (hquotes.symm.trans hquotes'))
    rcases hrest with ⟨hnone, -⟩ | ⟨nColon', nValueOpen, nValueClose, nComma, hcolon', hvalue⟩
    · exact absurd (hcolon.symm.trans hnone) nofun
    · obtain rfl := Option.some.inj (hcolon.symm.trans hcolon')
      exact ⟨nValueOpen, nValueClose, nComma, hvalue⟩
  · rintro ⟨nValueOpen, nValueClose, nComma, hvalue⟩
    exact ⟨nOpenQuote, nCloseQuote, hquotes,
      .inr ⟨nColon, nValueOpen, nValueClose, nComma, hcolon, hvalue⟩⟩

/-- Where a parameter has a name and no colon behind it, it is complete exactly with a comma. -/
theorem braceEntryEnds_iff_of_no_colon {nOpenQuote nCloseQuote : ℕ}
    (hquotes : nextQuotes sPrmsStr nParamStart = some (nOpenQuote, nCloseQuote))
    (hcolon : findFrom sPrmsStr ':' (nCloseQuote + 1) = none) :
    BraceEntryEnds sPrmsStr nParamStart ↔
      ∃ nComma, findFrom sPrmsStr ',' (nCloseQuote + 1) = some nComma := by
  constructor
  · rintro ⟨nOpenQuote', nCloseQuote', hquotes', hrest⟩
    obtain ⟨rfl, rfl⟩ := Prod.mk.inj (Option.some.inj (hquotes.symm.trans hquotes'))
    rcases hrest with ⟨-, hcomma⟩ | ⟨nColon, nValueOpen, nValueClose, nComma, hsome, -⟩
    · exact hcomma
    · exact absurd (hcolon.symm.trans hsome) nofun
  · intro hcomma
    exact ⟨nOpenQuote, nCloseQuote, hquotes, .inl ⟨hcolon, hcomma⟩⟩

/-- What a parameter with a colon does. -/
theorem value_outcome {scan : ParamScan} {Named : List Char → Prop} {ends : Prop}
    {sParamName : List Char} {nColon : ℕ} (hname : Named sParamName)
    (hcolon : scan.nParamStart ≤ nColon) (hpos : nColon + 1 ≤ sPrmsStr.length)
    (hends : ends ↔ ∃ nValueOpen nValueClose nComma,
      nextQuotes sPrmsStr (nColon + 1) = some (nValueOpen, nValueClose) ∧
        findFrom sPrmsStr ',' (nValueClose + 1) = some nComma) :
    ∃ value, findValue sPrmsStr (nColon + 1) = .ok value ∧
      PassOutcome sPrmsStr.length scan Named ends (match value with
        | .missing => .leave (false, scan.prmList)
        | .endless => .again scan
        | .found sParamValue nParamStart =>
          scan.saveParam sPrmsStr ⟨sParamName, sParamValue⟩ nParamStart) := by
  rcases findValue_cases hpos with
    ⟨hnone, hvalue⟩ | ⟨nValueOpen, nValueClose, sParamValue, hsome, hvalue⟩
  · have hopen : ¬ends := by
      rw [hends]
      rintro ⟨nValueOpen, nValueClose, nComma, h, -⟩
      exact absurd (hnone.symm.trans h) nofun
    rcases hvalue with hvalue | ⟨hvalue, hlong⟩ | ⟨sParamValue, hvalue⟩
    · exact ⟨_, hvalue, .kept false hopen⟩
    · exact ⟨_, hvalue, .endless hopen hlong⟩
    · have hnoComma : findFrom sPrmsStr ',' sPrmsStr.length = none := by
        rw [findFrom_eq_none_iff, List.drop_length]
        exact List.not_mem_nil
      refine ⟨_, hvalue, saveParam_outcome sParamValue hname (by omega) ?_⟩
      refine iff_of_false hopen ?_
      rintro ⟨nComma, h⟩
      exact absurd (hnoComma.symm.trans h) nofun
  · have hbound := nextQuotes_bounds hsome
    refine ⟨_, hvalue, saveParam_outcome sParamValue hname (by omega) ?_⟩
    rw [hends]
    constructor
    · rintro ⟨nValueOpen', nValueClose', nComma, h, hcomma⟩
      obtain ⟨rfl, rfl⟩ := Prod.mk.inj (Option.some.inj (hsome.symm.trans h))
      exact ⟨nComma, hcomma⟩
    · rintro ⟨nComma, hcomma⟩
      exact ⟨nValueOpen, nValueClose, nComma, hsome, hcomma⟩

/-- What a pass of the loop over parameters between braces does. -/
theorem bracePass_outcome (sPrmsStr : List Char) (nCloseBrace : ℕ) (scan : ParamScan) :
    ∃ pass, bracePass sPrmsStr nCloseBrace scan = .ok pass ∧
      PassOutcome sPrmsStr.length scan (BraceName sPrmsStr scan.nParamStart)
        (scan.nParamStart < nCloseBrace ∧ BraceEntryEnds sPrmsStr scan.nParamStart) pass := by
  unfold bracePass
  split_ifs with hend
  · exact ⟨_, rfl, .kept true fun h ↦ absurd h.1 (by omega)⟩
  have hahead : scan.nParamStart < nCloseBrace ↔ True := iff_true_intro (by omega)
  rw [hahead, true_and, quotedText_eq, ok_bind]
  cases hquotes : nextQuotes sPrmsStr scan.nParamStart with
  | none =>
    refine ⟨_, rfl, .kept false ?_⟩
    rintro ⟨nOpenQuote, nCloseQuote, h, -⟩
    exact absurd (hquotes.symm.trans h) nofun
  | some quotes =>
    obtain ⟨nOpenQuote, nCloseQuote⟩ := quotes
    have hbound := nextQuotes_bounds hquotes
    have hname : BraceName sPrmsStr scan.nParamStart
        ((sPrmsStr.drop (nOpenQuote + 1)).take nCloseQuote) := by
      intro nOpenQuote' nCloseQuote' h
      obtain ⟨rfl, rfl⟩ := Prod.mk.inj (Option.some.inj (hquotes.symm.trans h))
      rfl
    dsimp only [Option.map_some]
    cases hcolon : findFrom sPrmsStr ':' (nCloseQuote + 1) with
    | none =>
      exact ⟨_, rfl, saveParam_outcome [] hname (by omega)
        (braceEntryEnds_iff_of_no_colon hquotes hcolon)⟩
    | some nColon =>
      have hbound' := findFrom_bounds hcolon
      have hbefore : scan.nParamStart ≤ nColon := by omega
      obtain ⟨value, hvalue, houtcome⟩ := value_outcome hname hbefore (by omega)
        (braceEntryEnds_iff_of_colon hquotes hcolon)
      dsimp only
      rw [hvalue, ok_bind]
      cases value with
      | missing => exact ⟨_, rfl, houtcome⟩
      | endless => exact ⟨_, rfl, houtcome⟩
      | found sParamValue nParamStart => exact ⟨_, rfl, houtcome⟩

end Passes

/-- Every pass of a loop has one of the outcomes, where its name and its going on depend on the
position alone. -/
def ParamPasses (nLength : ℕ) (body : ParamScan → Except RangeFault (Pass ParamScan ParamAnswer))
    (Named : ℕ → List Char → Prop) (Ends : ℕ → Prop) : Prop :=
  ∀ scan, ∃ pass, body scan = .ok pass ∧
    PassOutcome nLength scan (Named scan.nParamStart) (Ends scan.nParamStart) pass

theorem queryPasses (sPrmsStr : List Char) :
    ParamPasses sPrmsStr.length (queryPass sPrmsStr) (QueryName sPrmsStr) fun nParamStart ↦
      nParamStart < toUnsigned sPrmsStr.length ∧ QueryEntryEnds sPrmsStr nParamStart :=
  queryPass_outcome sPrmsStr

theorem bracePasses (sPrmsStr : List Char) (nCloseBrace : ℕ) :
    ParamPasses sPrmsStr.length (bracePass sPrmsStr nCloseBrace) (BraceName sPrmsStr)
      fun nParamStart ↦ nParamStart < nCloseBrace ∧ BraceEntryEnds sPrmsStr nParamStart :=
  bracePass_outcome sPrmsStr nCloseBrace

/-- What a loop has done when it returns: it has appended a parameter in its first pass and gone on,
or it has returned in its first pass, with one parameter more at most, and with none if it fails. -/
def FirstPassShows (scan : ParamScan) (Named : List Char → Prop) (ends : Prop)
    (answer : ParamAnswer) : Prop :=
  (ends ∧ ∃ newParam : UriParamData, Named newParam.m_sName ∧
      scan.prmList ++ [newParam] <+: answer.2) ∨
    (¬ends ∧ (answer.2 = scan.prmList ∨ (answer.1 = true ∧ ∃ newParam : UriParamData,
      Named newParam.m_sName ∧ answer.2 = scan.prmList ++ [newParam])))

section Calls

variable {sPrmsStr : List Char} (fuel : ℕ) (prmList : List UriParamData)

/-- A text with a question mark is read behind it. -/
theorem parseUriParams_of_question {nQuestion : ℕ}
    (h : findFrom sPrmsStr '?' 0 = some nQuestion) :
    parseUriParams fuel sPrmsStr prmList =
      if toUnsigned sPrmsStr.length ≤ nQuestion + 1 then some (.ok (false, prmList))
      else loop (fun scan ↦ Pass.checked (queryPass sPrmsStr scan)) fuel
        ⟨nQuestion + 1, prmList⟩ := by
  have hsome : sPrmsStr.isEmpty = false := by
    rw [List.isEmpty_eq_false_iff, ← List.length_pos_iff]
    exact Nat.zero_lt_of_lt (findFrom_bounds h).2
  unfold parseUriParams
  rw [hsome, if_neg Bool.false_ne_true, h]

/-- A text without a question mark is read between its braces. -/
theorem parseUriParams_of_braces {nOpenBrace nCloseBrace : ℕ}
    (hquestion : findFrom sPrmsStr '?' 0 = none)
    (hopen : findFrom sPrmsStr '{' 0 = some nOpenBrace)
    (hclose : findLast sPrmsStr '}' = some nCloseBrace) :
    parseUriParams fuel sPrmsStr prmList =
      if nCloseBrace ≤ nOpenBrace + 1 then some (.ok (false, prmList))
      else loop (fun scan ↦ Pass.checked (bracePass sPrmsStr nCloseBrace scan)) fuel
        ⟨nOpenBrace + 1, prmList⟩ := by
  have hsome : sPrmsStr.isEmpty = false := by
    rw [List.isEmpty_eq_false_iff, ← List.length_pos_iff]
    exact Nat.zero_lt_of_lt (findFrom_bounds hopen).2
  unfold parseUriParams
  rw [hsome, if_neg Bool.false_ne_true, hquestion, hopen, hclose]

end Calls

section Loop

variable {nLength : ℕ} {body : ParamScan → Except RangeFault (Pass ParamScan ParamAnswer)}
  {Named : ℕ → List Char → Prop} {Ends : ℕ → Prop}

/-- A loop never stops with an error, and what it returns shows what its first pass did. -/
theorem ParamPasses.first (h : ParamPasses nLength body Named Ends) {fuel : ℕ} {scan : ParamScan}
    {result : Except RangeFault ParamAnswer}
    (hloop : loop (fun scan ↦ Pass.checked (body scan)) fuel scan = some result) :
    ∃ answer, result = .ok answer ∧
      FirstPassShows scan (Named scan.nParamStart) (Ends scan.nParamStart) answer := by
  -- a pass that never ends comes back to the same state, and every other one appends
  refine loop_invariant
    (fun state ↦ state = scan ∨ (Ends scan.nParamStart ∧ ∃ newParam : UriParamData,
      Named scan.nParamStart newParam.m_sName ∧ scan.prmList ++ [newParam] <+: state.prmList))
    (fun result ↦ ∃ answer, result = .ok answer ∧
      FirstPassShows scan (Named scan.nParamStart) (Ends scan.nParamStart) answer)
    ?_ ?_ (.inl rfl) hloop
  · intro state next hinv hagain
    obtain ⟨pass, hpass, houtcome⟩ := h state
    rw [Pass.checked_eq_again_iff, hpass] at hagain
    obtain rfl := Except.ok.inj hagain
    cases houtcome with
    | next sParamValue hends hnamed =>
      rcases hinv with rfl | ⟨hfirst, newParam, hname, hbehind⟩
      · exact .inr ⟨hends, ⟨_, sParamValue⟩, hnamed, List.prefix_rfl⟩
      · exact .inr ⟨hfirst, newParam, hname, hbehind.trans (List.prefix_append _ _)⟩
    | endless => exact hinv
  · intro state result hinv hleave
    obtain ⟨pass, hpass, houtcome⟩ := h state
    rw [hpass] at hleave
    cases houtcome with
    | kept success hends =>
      refine ⟨_, (Pass.leave.inj hleave).symm, ?_⟩
      rcases hinv with rfl | ⟨hfirst, newParam, hname, hbehind⟩
      · exact .inr ⟨hends, .inl rfl⟩
      · exact .inl ⟨hfirst, newParam, hname, hbehind⟩
    | last sParamValue hends hnamed =>
      refine ⟨_, (Pass.leave.inj hleave).symm, ?_⟩
      rcases hinv with rfl | ⟨hfirst, newParam, hname, hbehind⟩
      · exact .inr ⟨hends, .inr ⟨rfl, ⟨_, sParamValue⟩, hnamed, rfl⟩⟩
      · exact .inl ⟨hfirst, newParam, hname, hbehind.trans (List.prefix_append _ _)⟩
    | next => exact absurd hleave nofun
    | endless => exact absurd hleave nofun

/-- A loop over a text that an `unsigned int` counts returns with any fuel above the number of
characters ahead. -/
theorem ParamPasses.returns (h : ParamPasses nLength body Named Ends) (hshort : nLength < 2 ^ 32)
    {fuel : ℕ} {scan : ParamScan} (hpos : scan.nParamStart ≤ nLength)
    (hfuel : nLength - scan.nParamStart < fuel) :
    ∃ answer, loop (fun scan ↦ Pass.checked (body scan)) fuel scan = some (.ok answer) := by
  have hends : ∃ result, loop (fun scan ↦ Pass.checked (body scan)) fuel scan = some result := by
    refine exists_loop_eq_some (fun scan ↦ scan.nParamStart ≤ nLength)
      (fun scan ↦ nLength - scan.nParamStart) ?_ hpos hfuel
    intro state next hinv hagain
    obtain ⟨pass, hpass, houtcome⟩ := h state
    rw [Pass.checked_eq_again_iff, hpass] at hagain
    obtain rfl := Except.ok.inj hagain
    cases houtcome with
    | next sParamValue hends hnamed hahead hbound =>
      exact ⟨hbound, Nat.sub_lt_sub_left (by omega) hahead⟩
    | endless hends hlong => omega
  obtain ⟨result, hresult⟩ := hends
  obtain ⟨answer, rfl, -⟩ := h.first hresult
  exact ⟨answer, hresult⟩

end Loop

end RdbLibs.NetIO
