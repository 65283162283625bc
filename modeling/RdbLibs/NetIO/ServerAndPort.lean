import RdbLibs.Foundations.CheckedMemory
import RdbLibs.Foundations.MachineWord
import RdbLibs.Foundations.TextPositions
import RdbLibs.Foundations.TextSearch

/-!
# `parseServerAndPort`

`parseServerAndPort` of `Src/NetIO/CNetworkIO.cpp`. It looks for the protocol from the left and for
the port from the right, so that the colon of the protocol is taken for the one of a port where
there is no port: the length of the server, which is negative then, wraps around to one behind the
end of the text. Where a text has no colon at all, the protocol is left as it was; and the port of
a server of one character is not read (`parseServerAndPort_inverts_iff`).
-/

set_option autoImplicit false
set_option relaxedAutoImplicit false

namespace RdbLibs.NetIO

open CheckedMemory MachineWord TextPositions TextSearch

/-- What the references `sServer`, `sPort` and `sProtocol` refer to. -/
structure ServerAndPort where
  sServer : List Char
  sPort : List Char
  sProtocol : List Char
deriving DecidableEq

/-- `"://"`. -/
def protocolText : List Char := [':', '/', '/']

/-- What `parseServerAndPort` assigns to `sProtocol`, where `other` is what it assigns if there is
no protocol. -/
def readProtocol (sUri : List Char) (nSkip : ℕ) (other : List Char) :
    Except RangeFault (List Char) :=
  if 3 < nSkip then substr sUri 0 (nSkip - 3) else .ok other

/-- What `parseServerAndPort` assigns to `sPort`, where there is a colon. -/
def readPort (sUri : List Char) (nSkip nColonPos : ℕ) : Except RangeFault (List Char) :=
  if nSkip + 1 < nColonPos then substrFrom sUri (nColonPos + 1) else .ok []

/-- `parseServerAndPort`. The positions are of type `size_t`. -/
def parseServerAndPort (sUri : List Char) (out : ServerAndPort) :
    Except RangeFault (Bool × ServerAndPort) := do
  if sUri.isEmpty then return (false, out)
  let nSkip := match find sUri protocolText with
    | some nPtotocolPos => nPtotocolPos + 3
    | none => 0
  match findLast sUri ':' with
  | none =>
    let sServer ← substrFrom sUri nSkip
    let sProtocol ← readProtocol sUri nSkip out.sProtocol
    return (true, ⟨sServer, [], sProtocol⟩)
  | some nColonPos =>
    let sServer ← substr sUri nSkip (toSize (nColonPos + 2 ^ 64 - nSkip))
    let sPort ← readPort sUri nSkip nColonPos
    let sProtocol ← readProtocol sUri nSkip []
    return (true, ⟨sServer, sPort, sProtocol⟩)

/-- The protocol of a text that is assembled, if there is one. -/
def protocolPart (sProtocol : List Char) : List Char :=
  if sProtocol = [] then [] else sProtocol ++ protocolText

/-- The port of a text that is assembled, if there is one. -/
def portPart (sPort : List Char) : List Char := if sPort = [] then [] else ':' :: sPort

/-- The text that is assembled of a protocol, a server and a port. -/
def uriText (parts : ServerAndPort) : List Char :=
  protocolPart parts.sProtocol ++ parts.sServer ++ portPart parts.sPort

/-- The parts of a text have no separators, and the text is not longer than a string can be. -/
structure ServerAndPort.Separable (parts : ServerAndPort) : Prop where
  protocol : ':' ∉ parts.sProtocol ∧ '/' ∉ parts.sProtocol
  server : parts.sServer ≠ [] ∧ ':' ∉ parts.sServer
  port : ':' ∉ parts.sPort ∧ '/' ∉ parts.sPort
  length_lt : (uriText parts).length < 2 ^ 63

variable {parts : ServerAndPort}

theorem protocolPart_of_ne {sProtocol : List Char} (h : sProtocol ≠ []) :
    protocolPart sProtocol = sProtocol ++ protocolText := if_neg h

theorem portPart_of_ne {sPort : List Char} (h : sPort ≠ []) : portPart sPort = ':' :: sPort :=
  if_neg h

theorem length_protocolPart {sProtocol : List Char} (h : sProtocol ≠ []) :
    (protocolPart sProtocol).length = sProtocol.length + 3 := by
  rw [protocolPart_of_ne h, List.length_append]
  rfl

/-- Without a protocol there is nothing that would be taken for the end of one. -/
theorem ServerAndPort.Separable.not_protocolText (h : parts.Separable) :
    ¬protocolText <:+: parts.sServer ++ portPart parts.sPort := by
  rintro ⟨before, behind, htext⟩
  rw [List.append_assoc] at htext
  by_cases hport : parts.sPort = []
  · rw [portPart, if_pos hport, List.append_nil] at htext
    refine h.server.2 (htext ▸ List.mem_append_right _ ?_)
    exact List.mem_cons_self
  · rw [portPart_of_ne hport] at htext
    have htext' : parts.sServer ++ ':' :: parts.sPort = before ++ ':' :: ('/' :: '/' :: behind) :=
      htext.symm
    obtain ⟨-, -, hport'⟩ := (List.append_cons_inj_of_notMem h.server.2 h.port.1).mp htext'
    exact h.port.2 (hport' ▸ List.mem_cons_self)

theorem ServerAndPort.Separable.not_isEmpty (h : parts.Separable) :
    (uriText parts).isEmpty = false := by
  rw [List.isEmpty_eq_false_iff, uriText]
  simp [h.server.1]

/-- The server begins behind the protocol. -/
theorem ServerAndPort.Separable.skip_eq (h : parts.Separable) :
    (match find (uriText parts) protocolText with
      | some nPtotocolPos => nPtotocolPos + 3
      | none => 0) = (protocolPart parts.sProtocol).length := by
  by_cases hprotocol : parts.sProtocol = []
  · have hnone : find (uriText parts) protocolText = none := by
      rw [uriText, protocolPart, if_pos hprotocol, List.nil_append]
      exact find_eq_none h.not_protocolText
    rw [hnone, protocolPart, if_pos hprotocol, List.length_nil]
  · have hsome : find (uriText parts) protocolText = some parts.sProtocol.length := by
      rw [uriText, protocolPart_of_ne hprotocol, List.append_assoc]
      exact find_append_append h.protocol.1 ['/', '/'] _
    rw [hsome, length_protocolPart hprotocol]

theorem readProtocol_eq (parts : ServerAndPort) (other : List Char) :
    readProtocol (uriText parts) (protocolPart parts.sProtocol).length other =
      .ok (if parts.sProtocol = [] then other else parts.sProtocol) := by
  unfold readProtocol
  by_cases hprotocol : parts.sProtocol = []
  · have hzero : ¬3 < (protocolPart parts.sProtocol).length := by
      rw [protocolPart, if_pos hprotocol]
      exact Nat.not_lt_zero 3
    rw [if_neg hzero, if_pos hprotocol]
  · have hpos := List.length_pos_of_ne_nil hprotocol
    rw [length_protocolPart hprotocol, if_pos (by omega), if_neg hprotocol,
      substr_eq (Nat.zero_le _), List.drop_zero, Nat.add_sub_cancel, uriText,
      protocolPart_of_ne hprotocol, List.append_assoc, List.append_assoc, List.take_left]

/-- What is read of a text, once its last colon is found. -/
theorem ServerAndPort.Separable.parse_eq_of_colon (h : parts.Separable) {nColonPos : ℕ}
    (hcolon : findLast (uriText parts) ':' = some nColonPos) {sServer sPort : List Char}
    (hserver : substr (uriText parts) (protocolPart parts.sProtocol).length
      (toSize (nColonPos + 2 ^ 64 - (protocolPart parts.sProtocol).length)) = .ok sServer)
    (hport : readPort (uriText parts) (protocolPart parts.sProtocol).length nColonPos = .ok sPort)
    (out : ServerAndPort) :
    parseServerAndPort (uriText parts) out = .ok (true, ⟨sServer, sPort, parts.sProtocol⟩) := by
  have hprotocol : (if parts.sProtocol = [] then [] else parts.sProtocol) = parts.sProtocol := by
    split_ifs with hempty
    · exact hempty.symm
    · rfl
  unfold parseServerAndPort
  dsimp only
  rw [h.not_isEmpty, if_neg Bool.false_ne_true, h.skip_eq, hcolon]
  dsimp only
  rw [hserver, ok_bind, hport, ok_bind, readProtocol_eq, ok_bind, hprotocol]
  rfl

/-- What is read of a text with a port. -/
theorem ServerAndPort.Separable.parse_eq_of_port (h : parts.Separable) (hport : parts.sPort ≠ [])
    (out : ServerAndPort) :
    parseServerAndPort (uriText parts) out = .ok (true,
      ⟨parts.sServer, if 1 < parts.sServer.length then parts.sPort else [],
        parts.sProtocol⟩) := by
  have htext : uriText parts =
      protocolPart parts.sProtocol ++ parts.sServer ++ ':' :: parts.sPort := by
    rw [uriText, portPart_of_ne hport]
  have hlength := h.length_lt
  rw [htext, List.length_append, List.length_append] at hlength
  have hcount : toSize ((protocolPart parts.sProtocol ++ parts.sServer).length + 2 ^ 64 -
      (protocolPart parts.sProtocol).length) = parts.sServer.length := by
    rw [List.length_append, toSize]
    omega
  refine h.parse_eq_of_colon (htext ▸ findLast_append_cons h.port.1 _) ?_ ?_ out
  · rw [hcount, htext, List.append_assoc, substr_eq (by simp), List.drop_left, List.take_left]
  · have hbehind : (protocolPart parts.sProtocol ++ parts.sServer).length + 1 =
        (protocolPart parts.sProtocol ++ parts.sServer ++ [':']).length := by
      simp only [List.length_append, List.length_singleton]
    have hsplit : protocolPart parts.sProtocol ++ parts.sServer ++ ':' :: parts.sPort =
        protocolPart parts.sProtocol ++ parts.sServer ++ [':'] ++ parts.sPort := by
      rw [List.append_assoc _ [':'], List.singleton_append]
    have hrest : substrFrom (uriText parts)
        ((protocolPart parts.sProtocol ++ parts.sServer).length + 1) = .ok parts.sPort := by
      rw [htext, hbehind, hsplit, substrFrom_eq (by simp), List.drop_left]
    rw [readPort, hrest, List.length_append, apply_ite Except.ok]
    exact if_congr (by omega) rfl rfl

/-- What is read of a text with a protocol and without a port. -/
theorem ServerAndPort.Separable.parse_eq_of_protocol (h : parts.Separable)
    (hprotocol : parts.sProtocol ≠ []) (hport : parts.sPort = []) (out : ServerAndPort) :
    parseServerAndPort (uriText parts) out = .ok (true, parts) := by
  have htext : uriText parts = protocolPart parts.sProtocol ++ parts.sServer := by
    rw [uriText, portPart, if_pos hport, List.append_nil]
  have hsplit : uriText parts = parts.sProtocol ++ ':' :: ('/' :: '/' :: parts.sServer) := by
    rw [htext, protocolPart_of_ne hprotocol, List.append_assoc]
    rfl
  have hbehind : ':' ∉ '/' :: '/' :: parts.sServer := by
    simp [h.server.2]
  have hlength := h.length_lt
  rw [htext, List.length_append, length_protocolPart hprotocol] at hlength
  -- the colon is before the server, so that the count wraps around
  have hcount : parts.sServer.length ≤
      toSize (parts.sProtocol.length + 2 ^ 64 - (protocolPart parts.sProtocol).length) := by
    rw [length_protocolPart hprotocol, toSize]
    omega
  have hcolon : findLast (uriText parts) ':' = some parts.sProtocol.length := by
    rw [hsplit]
    exact findLast_append_cons hbehind _
  have hserver : substr (uriText parts) (protocolPart parts.sProtocol).length
      (toSize (parts.sProtocol.length + 2 ^ 64 - (protocolPart parts.sProtocol).length)) =
        .ok parts.sServer := by
    rw [htext, substr_eq (by simp), List.drop_left, List.take_of_length_le hcount]
  have hnoPort : readPort (uriText parts) (protocolPart parts.sProtocol).length
      parts.sProtocol.length = .ok [] := by
    refine if_neg ?_
    rw [length_protocolPart hprotocol]
    omega
  rw [h.parse_eq_of_colon hcolon hserver hnoPort out, ← hport]

/-- What is read of a server alone. -/
theorem ServerAndPort.Separable.parse_eq_of_server (h : parts.Separable)
    (hprotocol : parts.sProtocol = []) (hport : parts.sPort = []) (out : ServerAndPort) :
    parseServerAndPort (uriText parts) out = .ok (true, ⟨parts.sServer, [], out.sProtocol⟩) := by
  have htext : uriText parts = parts.sServer := by
    rw [uriText, protocolPart, if_pos hprotocol, portPart, if_pos hport, List.nil_append,
      List.append_nil]
  have hcolon : findLast (uriText parts) ':' = none := by
    rw [htext]
    exact findLast_eq_none h.server.2
  unfold parseServerAndPort
  dsimp only
  rw [h.not_isEmpty, if_neg Bool.false_ne_true, h.skip_eq, hcolon]
  dsimp only
  rw [readProtocol_eq, if_pos hprotocol, protocolPart, if_pos hprotocol, List.length_nil,
    substrFrom_eq (Nat.zero_le _), htext, List.drop_zero]
  rfl

/-- A text is taken apart again exactly when it has a protocol or a port, or no protocol was stored
before, and its server has more than one character if it has a port. -/
theorem parseServerAndPort_inverts_iff (h : parts.Separable) (out : ServerAndPort) :
    parseServerAndPort (uriText parts) out = .ok (true, parts) ↔
      (parts.sProtocol = [] → parts.sPort = [] → out.sProtocol = []) ∧
        (parts.sPort ≠ [] → parts.sServer.length ≠ 1) := by
  by_cases hport : parts.sPort = []
  · have hportOk : (parts.sPort ≠ [] → parts.sServer.length ≠ 1) ↔ True :=
      iff_true_intro fun hne ↦ absurd hport hne
    rw [hportOk, and_true]
    by_cases hprotocol : parts.sProtocol = []
    · rw [h.parse_eq_of_server hprotocol hport]
      constructor
      · intro hparse _ _
        have hparts := (Prod.mk.inj (Except.ok.inj hparse)).2
        exact (congrArg ServerAndPort.sProtocol hparts).trans hprotocol
      · intro hout
        have hsame : out.sProtocol = parts.sProtocol :=
          (hout hprotocol hport).trans hprotocol.symm
        rw [hsame, ← hport]
    · rw [h.parse_eq_of_protocol hprotocol hport]
      exact iff_of_true rfl fun hempty ↦ absurd hempty hprotocol
  · have hprotocolOk : (parts.sProtocol = [] → parts.sPort = [] → out.sProtocol = []) ↔ True :=
      iff_true_intro fun _ hempty ↦ absurd hempty hport
    have hpos := List.length_pos_of_ne_nil h.server.1
    rw [hprotocolOk, true_and, h.parse_eq_of_port hport]
    constructor
    · intro hparse _ hone
      have hparts := congrArg ServerAndPort.sPort (Prod.mk.inj (Except.ok.inj hparse)).2
      dsimp only at hparts
      rw [if_neg (by omega)] at hparts
      exact hport hparts.symm
    · intro hlong
      have hmore := hlong hport
      rw [if_pos (by omega)]

theorem parseServerAndPort_inverts_iff_local :
    parseServerAndPort (uriText ⟨['a', 'b'], ['8', '0'], []⟩) ⟨[], [], ['x']⟩ =
      .ok (true, ⟨['a', 'b'], ['8', '0'], []⟩) :=
  (parseServerAndPort_inverts_iff (by constructor <;> decide) _).mpr (by decide)

/-- The port of a server of one character is not read, and where there is neither a protocol nor a
port, the protocol of an earlier call is left. -/
theorem port_and_protocol_are_wrong :
    parseServerAndPort ['h', ':', '8', '0'] ⟨[], [], []⟩ = .ok (true, ⟨['h'], [], []⟩) ∧
      parseServerAndPort ['h', 'o', 's', 't'] ⟨[], [], ['f', 't', 'p']⟩ =
        .ok (true, ⟨['h', 'o', 's', 't'], [], ['f', 't', 'p']⟩) ∧
      ¬∀ (parts out : ServerAndPort), parts.Separable →
        parseServerAndPort (uriText parts) out = .ok (true, parts) := by
  refine ⟨by decide, by decide, fun h ↦ ?_⟩
  have hone := h ⟨['h'], ['8', '0'], []⟩ ⟨[], [], []⟩ (by constructor <;> decide)
  exact absurd hone (by decide)

end RdbLibs.NetIO
