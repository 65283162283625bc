import RdbLibs.Foundations.MachineWord
import RdbLibs.Foundations.TextPositions
import RdbLibs.Foundations.WhileLoop

/-!
# `parseUriParams`

`parseUriParams` of `Src/NetIO/CNetworkIO.cpp`. It reads parameters behind a question mark, or
between braces where there is none, and appends each to the list when it is complete. The names and
most values are cut with the position of their end in the place of their length.

A character from 128 on is negative, and so not above the space. The positions are of type `size_t`.
-/

set_option autoImplicit false
set_option relaxedAutoImplicit false

namespace RdbLibs.NetIO

open MachineWord TextPositions WhileLoop

/-- `UriParamData_def`. -/
structure UriParamData where
  m_sName : List Char
  m_sValue : List Char
deriving DecidableEq

/-- `nParamStart` and `prmList`, at the beginning of a pass of one of the loops. -/
structure ParamScan where
  nParamStart : ℕ
  prmList : List UriParamData

/-- Appends a parameter and goes on behind it. -/
def ParamScan.push (scan : ParamScan) (newParam : UriParamData) (nParamStart : ℕ) : ParamScan :=
  ⟨nParamStart, scan.prmList ++ [newParam]⟩

/-- What `parseUriParams` returns, and what is then in the list. -/
abbrev ParamAnswer := Bool × List UriParamData

/-- One pass of the loop over parameters behind a question mark. -/
def queryPass (sPrmsStr : List Char) (scan : ParamScan) :
    Except RangeFault (Pass ParamScan ParamAnswer) :=
  if toUnsigned sPrmsStr.length ≤ scan.nParamStart then return .leave (true, scan.prmList)
  else
    match findFrom sPrmsStr '=' scan.nParamStart with
    | none => do
      let sParamName ← substrFrom sPrmsStr scan.nParamStart
      if sParamName.isEmpty then return .leave (false, scan.prmList)
      return .leave (true, scan.prmList ++ [⟨sParamName, []⟩])
    | some nEqualSign => do
      let sParamName ← substr sPrmsStr scan.nParamStart nEqualSign
      match findFrom sPrmsStr '&' (nEqualSign + 1) with
      | none =>
        let sParamValue ← substrFrom sPrmsStr (nEqualSign + 1)
        if sParamValue.isEmpty then return .leave (false, scan.prmList)
        return .leave (true, scan.prmList ++ [⟨sParamName, sParamValue⟩])
      | some nAndlSign =>
        let sParamValue ← substr sPrmsStr (nEqualSign + 1) nAndlSign
        return .again (scan.push ⟨sParamName, sParamValue⟩ (nAndlSign + 1))

/-- What is between the next two quotes, cut with the position of the second one, and the position
behind it. -/
def quotedText (sPrmsStr : List Char) (nParamStart : ℕ) :
    Except RangeFault (Option (List Char × ℕ)) :=
  match findFrom sPrmsStr '"' nParamStart with
  | none => return none
  | some nOpenQuote =>
    match findFrom sPrmsStr '"' (nOpenQuote + 1) with
    | none => return none
    | some nCloseQuote => do
      let text ← substr sPrmsStr (nOpenQuote + 1) nCloseQuote
      return some (text, nCloseQuote + 1)

/-- What is found of a value: nothing, or the value and a position behind it. The search for the
first character of a value without quotes does not end where its counter, an `unsigned int`, wraps
around before. -/
inductive ScannedValue
  | missing
  | endless
  | found (sParamValue : List Char) (nParamStart : ℕ)

/-- `sTmp[i] > ' '`. -/
def isAboveSpace (ch : Char) : Bool := decide (' ' < ch ∧ ch.toNat < 128)

/-- A value without quotes. The text is cut up to its end, also where there is a comma. -/
def bareValue (sPrmsStr : List Char) (nParamStart : ℕ) : Except RangeFault ScannedValue := do
  let sTmp ← substrFrom sPrmsStr nParamStart
  let i := sTmp.findIdx isAboveSpace
  if 2 ^ 32 ≤ i then return .endless
  else if sTmp.length ≤ i then return .missing
  else
    let sParamValue ← substrFrom sTmp i
    return .found sParamValue (nParamStart + sTmp.length)

/-- The part of a pass that finds the value. -/
def findValue (sPrmsStr : List Char) (nParamStart : ℕ) : Except RangeFault ScannedValue :=
  match findFrom sPrmsStr '"' nParamStart with
  | none => bareValue sPrmsStr nParamStart
  | some _ => do
    match ← quotedText sPrmsStr nParamStart with
    | none => return .missing
    | some (sParamValue, nParamStart) => return .found sParamValue nParamStart

/-- Appends a parameter, and goes on behind the next comma if there is one. -/
def ParamScan.saveParam (sPrmsStr : List Char) (scan : ParamScan) (newParam : UriParamData)
    (nParamStart : ℕ) : Pass ParamScan ParamAnswer :=
  match findFrom sPrmsStr ',' nParamStart with
  | none => .leave (true, scan.prmList ++ [newParam])
  | some nComma => .again (scan.push newParam (nComma + 1))

/-- One pass of the loop over parameters between braces. -/
def bracePass (sPrmsStr : List Char) (nCloseBrace : ℕ) (scan : ParamScan) :
    Except RangeFault (Pass ParamScan ParamAnswer) :=
  if nCloseBrace ≤ scan.nParamStart then return .leave (true, scan.prmList)
  else do
    match ← quotedText sPrmsStr scan.nParamStart with
    | none => return .leave (false, scan.prmList)
    | some (sParamName, nParamStart) =>
      match findFrom sPrmsStr ':' nParamStart with
      | none => return scan.saveParam sPrmsStr ⟨sParamName, []⟩ nParamStart
      | some nColon =>
        match ← findValue sPrmsStr (nColon + 1) with
        | .missing => return .leave (false, scan.prmList)
        | .endless => return .again scan
        | .found sParamValue nParamStart =>
          return scan.saveParam sPrmsStr ⟨sParamName, sParamValue⟩ nParamStart

/-- `parseUriParams`. -/
def parseUriParams (fuel : ℕ) (sPrmsStr : List Char) (prmList : List UriParamData) :
    Option (Except RangeFault ParamAnswer) :=
  if sPrmsStr.isEmpty then some (.ok (false, prmList))
  else
    match findFrom sPrmsStr '?' 0 with
    | some nQuestion =>
      if toUnsigned sPrmsStr.length ≤ nQuestion + 1 then some (.ok (false, prmList))
      else loop (fun scan ↦ Pass.checked (queryPass sPrmsStr scan)) fuel ⟨nQuestion + 1, prmList⟩
    | none =>
      match findFrom sPrmsStr '{' 0, findLast sPrmsStr '}' with
      | some nOpenBrace, some nCloseBrace =>
        if nCloseBrace ≤ nOpenBrace + 1 then some (.ok (false, prmList))
        else loop (fun scan ↦ Pass.checked (bracePass sPrmsStr nCloseBrace scan)) fuel
          ⟨nOpenBrace + 1, prmList⟩
      | _, _ => some (.ok (false, prmList))

end RdbLibs.NetIO
