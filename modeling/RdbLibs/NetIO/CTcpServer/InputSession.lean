import RdbLibs.NetIO.CClientIO.ClientFrames
import RdbLibs.NetIO.CTcpServer.Input
import RdbLibs.NetIO.FrameAcceptance
import RdbLibs.NetIO.TcpFraming

/-!
# A client and the input session of a server

A `CTcpClient` writes messages and is closed; the session of a `CTcpServer` of the direction `input`
reads what arrives. `CTcpClient::close` writes the message "exit" before it shuts the socket down,
so the session sees one frame more than there are messages, and then the end of the stream. With
`m_bMultiMsgSession` the session repeats the branch for the input until it has read a message that
starts with "exit", or until `readMsgData` fails. The timeout and the checks of the socket between
two passes, which may end a session before that, are left out.

The session takes the messages from first to last, up to one that is too long for the buffer of the
server or that starts with "exit" itself. What is behind such a message is not read
(`session_takes_iff`).
-/

set_option autoImplicit false
set_option relaxedAutoImplicit false

namespace RdbLibs.NetIO

open BlockAccess MachineWord CheckedMemory CNetMessageData NetworkDataHeaderInfo TcpFraming

variable {σ : Type}

namespace CClientIO.CTcpClient

/-- `CTcpClient::close`. The closing of the socket and the deletion of the resolver are left out. -/
def close (client : CTcpClient) (behind : List UInt8) (sent : Bool) :
    Outcome CTcpClient WriteAnswer :=
  let outcome := client.write (.bytes exitText) behind sent
  { outcome with after := { outcome.after with m_bConnected := false } }

/-- What a client puts on the wire that writes some messages, one by one, and is then closed. -/
def writeAll (client : CTcpClient) (behind : List UInt8) : List (List UInt8) → List UInt8
  | [] => (client.close behind true).answer.wire
  | message :: messages =>
    let outcome := client.write (.bytes message) behind true
    outcome.answer.wire ++ outcome.after.writeAll behind messages

end CClientIO.CTcpClient

namespace CTcpServer

open CClientIO

/-- How a session ends: with a message "exit" of the client, or because a message was not read. -/
inductive InputEnding
  | exit
  | failed
deriving DecidableEq

/-- One pass of the loop of `acceptConnection` in the direction `input`, and how it ends the
session, if it does. -/
def inputPass (net : Network σ) (c : Connection σ) :
    Except Fault (Option InputEnding × Connection σ) := do
  let (status, c) ← CTcpSession.readMsgData net c
  if status = false then return (some .failed, c)
  let (exit, msgData) ← c.msgData.compareMsgData (some exitMsg) 4
  return (if exit then some .exit else none, { c with msgData })

/-- What a session with room for `limit` bytes takes of some messages that are followed by "exit",
and how it ends. -/
def taken (limit : ℕ) : List (List UInt8) → List (List UInt8) × InputEnding
  | [] => ([], if exitMsg.length < limit then .exit else .failed)
  | message :: messages =>
    if limit ≤ message.length then ([], .failed)
    else if exitMsg <+: message then ([], .exit)
    else (message :: (taken limit messages).1, (taken limit messages).2)

end CTcpServer

/-! ### The client -/

namespace CClientIO.CTcpClient

variable {client : CTcpClient} {cells payload : List UInt8}

/-- A client with a header keeps it when it writes. -/
theorem exists_write (h : HasHeader client.buffer cells) (hpos : 1 ≤ payload.length)
    (hroom : msgHeaderLen + payload.length ≤ client.buffer.m_nBufferSize) (behind : List UInt8) :
    ∃ cells', HasHeader (client.write (.bytes payload) behind true).after.buffer cells' ∧
      (client.write (.bytes payload) behind true).after.buffer.m_nBufferSize =
        client.buffer.m_nBufferSize := by
  unfold write
  dsimp only
  rw [if_neg (fun hempty ↦ not_lt.mpr hpos hempty.2), if_neg (not_lt.mpr hpos),
    if_neg (not_lt.mpr (Nat.le_of_add_left_le hroom)), if_pos h.headerSize]
  unfold finishWrite ClientBuffer.update
  dsimp only
  rw [h.data]
  refine ⟨_, ⟨rfl, ?_, h.size_lt, h.headerSize, rfl⟩, rfl⟩
  rw [length_overwrite, length_overwrite, setStreamType, length_overwrite,
    ClientBuffer.length_initializedHeader]
  exact h.length

/-- Each message goes out as one frame, and "exit" behind them. -/
theorem exists_frames (behind : List UInt8) (messages : List (List UInt8)) :
    ∀ {client : CTcpClient} {cells : List UInt8}, HasHeader client.buffer cells →
      (∀ message ∈ messages ++ [exitText], 1 ≤ message.length ∧
        msgHeaderLen + message.length ≤ client.buffer.m_nBufferSize) →
      ∃ frames, List.Forall₂ FrameOf (messages ++ [exitText]) frames ∧
        client.writeAll behind messages = frames.flatten := by
  have hframe : ∀ {client : CTcpClient} {cells message : List UInt8},
      HasHeader client.buffer cells → 1 ≤ message.length →
      msgHeaderLen + message.length ≤ client.buffer.m_nBufferSize →
      FrameOf message (client.write (.bytes message) behind true).answer.wire := by
    intro client cells message h hpos hroom
    have hlt : message.length < 2 ^ 32 := (Nat.le_of_add_left_le hroom).trans_lt h.size_lt
    obtain ⟨header, hfields, hwire⟩ := exists_sendDirectly h hpos hroom behind
    refine ⟨header, (hfields.announces_iff hlt).mpr ⟨by decide, rfl⟩, hwire⟩
  induction messages with
  | nil =>
    intro client cells h hmessages
    obtain ⟨hpos, hroom⟩ := hmessages exitText List.mem_cons_self
    exact ⟨[_], .cons (hframe h hpos hroom) .nil, by rw [List.flatten_singleton]; rfl⟩
  | cons message messages ih =>
    intro client cells h hmessages
    rw [List.cons_append, List.forall_mem_cons] at hmessages
    obtain ⟨⟨hpos, hroom⟩, hrest⟩ := hmessages
    obtain ⟨cells', h', hsize⟩ := exists_write h hpos hroom behind
    obtain ⟨frames, hframes, hwire⟩ := ih h' (by rw [hsize]; exact hrest)
    refine ⟨_ :: frames, .cons (hframe h hpos hroom) hframes, ?_⟩
    rw [writeAll, List.flatten_cons, hwire]

end CClientIO.CTcpClient

/-! ### The session -/

namespace CTcpServer

open CClientIO

section Pass

variable {d : CNetMessageData} {limit : ℕ} {body : List UInt8}

/-- What `compareMsgData` finds in a block that has the bytes. -/
theorem compareFrom_eq {source cells : List UInt8} (hcells : d.m_pData = some cells)
    (remaining : ℕ) : ∀ x, x + remaining ≤ source.length →
      d.m_nHeaderLength + (x + remaining) ≤ cells.length →
        d.compareFrom source remaining x = .ok (decide ((source.drop x).take remaining =
          (cells.drop (d.m_nHeaderLength + x)).take remaining)) := by
  induction remaining with
  | zero => intro x _ _; simp [compareFrom, pure, Except.pure]
  | succ remaining ih =>
    intro x hsource hroom
    have hx : x < source.length := by omega
    have hcell : d.m_nHeaderLength + x < cells.length := by omega
    have hblock : d.cells = .ok cells := by rw [CNetMessageData.cells, hcells]
    rw [compareFrom, load_of_lt hx, ok_bind, hblock, ok_bind, load_of_lt hcell, ok_bind,
      List.drop_eq_getElem_cons hx, List.drop_eq_getElem_cons hcell, List.take_succ_cons,
      List.take_succ_cons]
    by_cases hsame : source[x] = cells[d.m_nHeaderLength + x]
    · rw [if_neg (not_not.mpr hsame), ih (x + 1) (by omega) (by omega)]
      simp [hsame, Nat.add_assoc]
    · rw [if_pos hsame]
      simp [hsame, pure, Except.pure]

/-- A body with zeros behind it starts with "exit" exactly when the body does. -/
theorem exitMsg_prefix_padded (count : ℕ) :
    exitMsg <+: body ++ List.replicate count 0 ↔ exitMsg <+: body := by
  refine ⟨fun hprefix ↦ ?_, fun hprefix ↦ hprefix.trans (List.prefix_append ..)⟩
  rcases le_or_gt exitMsg.length body.length with hlong | hshort
  · exact List.prefix_of_prefix_length_le hprefix (List.prefix_append ..) hlong
  · -- the last byte of "exit" would be one of the zeros
    obtain ⟨rest, hrest⟩ := hprefix
    have hbody : body.length ≤ 3 := by
      have hsize : exitMsg.length = 4 := rfl
      omega
    have hlast := congrArg (fun bytes ↦ bytes[3]?) hrest
    rw [List.getElem?_append_left (by decide), List.getElem?_append_right hbody,
      List.getElem?_replicate] at hlast
    split_ifs at hlast <;> simp [exitMsg] at hlast

/-- The comparison with "exit", on a message that holds a body with zeros behind it. -/
theorem compareMsgData_exit (hd : Allocated limit d) (hsize : msgHeaderLen + limit < 2 ^ 32)
    {header : List UInt8} (hheader : header.length = msgHeaderLen) (hshort : body.length < limit)
    (hdata : d.m_pData = some (header ++ (body ++ List.replicate (limit - body.length) 0))) :
    d.compareMsgData (some exitMsg) 4 = .ok (decide (exitMsg <+: body), d) := by
  have hlimit : d.payloadLimit = limit := by
    rw [payloadLimit, hd.maxDataSize, hd.headerLength, toUnsigned_of_lt hsize]
    unfold toUnsigned
    omega
  unfold CNetMessageData.compareMsgData
  dsimp only
  rw [if_neg (by decide), hlimit]
  by_cases hroom : limit < 4
  · have hnone : ¬exitMsg <+: body := by
      intro hprefix
      have hle := hprefix.length_le
      have hfour : exitMsg.length = 4 := rfl
      omega
    rw [if_pos hroom, decide_eq_false hnone]
    rfl
  · have hlock : d.lock = .ok { d with m_dataLock := true } := if_neg (by simp [hd.unlocked])
    have hcells : (header ++ (body ++ List.replicate (limit - body.length) (0 : UInt8))).length =
        msgHeaderLen + limit := by
      rw [List.length_append, List.length_append, List.length_replicate, hheader]
      omega
    rw [if_neg hroom, hlock, ok_bind]
    have hcompare : ({ d with m_dataLock := true } : CNetMessageData).compareFrom exitMsg 4 0 =
        .ok (decide (exitMsg <+: body)) := by
      have hinside : d.m_nHeaderLength + (0 + 4) ≤
          (header ++ (body ++ List.replicate (limit - body.length) (0 : UInt8))).length := by
        rw [hcells, hd.headerLength]
        omega
      refine (compareFrom_eq (by exact hdata) 4 0 (by decide) hinside).trans ?_
      refine congrArg Except.ok (decide_eq_decide.mpr ?_)
      rw [← exitMsg_prefix_padded (limit - body.length), List.prefix_iff_eq_take]
      show exitMsg = ((header ++ (body ++ List.replicate (limit - body.length) (0 : UInt8))).drop
        (d.m_nHeaderLength + 0)).take 4 ↔ _
      rw [hd.headerLength, Nat.add_zero, List.drop_left' hheader]
      rfl
    rw [hcompare, ok_bind]
    have hunlock : ({ d with m_dataLock := true } : CNetMessageData).unlock = .ok d := by
      rw [CNetMessageData.unlock, if_pos rfl, ← hd.unlocked]
    rw [hunlock]
    rfl

/-- The frames of some messages start with the frame of the first one. -/
theorem startsWithFrame_iff {frame rest : List UInt8} (hframe : FrameOf body frame)
    (hpos : 0 < body.length) : StartsWithFrame limit (frame ++ rest) ↔ body.length < limit := by
  obtain ⟨header, hannounces, rfl⟩ := hframe
  constructor
  · rintro ⟨header', body', rest', ⟨hannounces', -, hlimit⟩, hstream⟩
    rw [List.append_assoc] at hstream
    obtain ⟨rfl, -⟩ := List.append_inj hstream (hannounces.length.trans hannounces'.length.symm)
    rwa [hannounces.unique hannounces']
  · intro hlimit
    exact ⟨header, body, rest, ⟨hannounces, hpos, hlimit⟩, List.append_assoc ..⟩

/-- Taking a frame gives its body, and leaves what is behind the frame. -/
theorem takes_frame {incoming : σ → List UInt8} {frame rest : List UInt8}
    (hframe : FrameOf body frame) {c : Connection σ}
    (htakes : Takes incoming limit (frame ++ rest) c) :
    ∃ header : List UInt8, header.length = msgHeaderLen ∧ incoming c.socket = rest ∧
      c.msgData.getBodyLength = body.length ∧
        c.msgData.m_pData =
          some (header ++ (body ++ List.replicate (limit - body.length) 0)) := by
  obtain ⟨header, hannounces, rfl⟩ := hframe
  obtain ⟨header', body', rest', ⟨hannounces', -, -⟩, hstream, hrest, hlength, hdata⟩ := htakes
  rw [List.append_assoc] at hstream
  obtain ⟨rfl, hbodies⟩ :=
    List.append_inj hstream (hannounces.length.trans hannounces'.length.symm)
  obtain ⟨rfl, rfl⟩ := List.append_inj hbodies (hannounces.unique hannounces')
  exact ⟨header, hannounces.length, hrest, hlength, hdata⟩

end Pass

section Session

variable {net : Network σ} {incoming : σ → List UInt8} {limit : ℕ} {c : Connection σ}

/-- A pass over a frame at the front of the stream. It ends the session when the body is too long,
or starts with "exit", and otherwise it leaves the body in the message. -/
theorem inputPass_frame (hnet : EndsAfter net incoming) (hlimit : msgHeaderLen + limit < 2 ^ 31)
    (hd : Allocated limit c.msgData) {body frame rest : List UInt8} (hframe : FrameOf body frame)
    (hpos : 0 < body.length) (hstream : incoming c.socket = frame ++ rest) :
    ∃ c', Allocated limit c'.msgData ∧
      inputPass net c = .ok (if limit ≤ body.length then some .failed
        else if exitMsg <+: body then some .exit else none, c') ∧
      (body.length < limit → incoming c'.socket = rest ∧ bodyOf c'.msgData = body) := by
  obtain ⟨session, d, socket⟩ := c
  obtain ⟨header, area, hheader, harea, hlaidOut⟩ := hd.exists_laidOut (by omega)
  dsimp only at hstream hlaidOut
  by_cases hlong : limit ≤ body.length
  · have hrefused : ¬StartsWithFrame limit (incoming socket) := by
      rw [hstream, startsWithFrame_iff hframe hpos]
      omega
    obtain ⟨c', hread, hc'⟩ := CTcpSession.readMsgData_refuses hnet hlimit hheader harea
      hd.payload_pos hrefused
    refine ⟨c', hc', ?_, fun hshort ↦ by omega⟩
    rw [inputPass, hlaidOut, hread, ok_bind, if_pos hlong]
    rfl
  · have haccepted : StartsWithFrame limit (incoming socket) := by
      rw [hstream, startsWithFrame_iff hframe hpos]
      omega
    obtain ⟨c', hread, hc', htakes⟩ := CTcpSession.readMsgData_accepts hnet hlimit hheader harea
      hd.payload_pos haccepted
    rw [hstream] at htakes
    obtain ⟨header', hheader', hrest, hlength, hdata⟩ := takes_frame hframe htakes
    have hcompare := compareMsgData_exit hc' (by omega) hheader' (not_le.mp hlong) hdata
    refine ⟨c', hc', ?_, fun _ ↦ ⟨hrest, ?_⟩⟩
    · rw [inputPass, hlaidOut, hread, ok_bind, if_neg hlong]
      dsimp only
      rw [if_neg (Bool.true_eq_false.mp), hcompare, ok_bind]
      by_cases hexit : exitMsg <+: body
      · rw [decide_eq_true hexit, if_pos hexit]
        rfl
      · rw [decide_eq_false hexit, if_neg hexit]
        rfl
    · rw [bodyOf, hlength, hdata, hc'.headerLength]
      show ((header' ++ (body ++ _)).drop msgHeaderLen).take body.length = body
      rw [List.drop_left' hheader', List.take_left' rfl]

end Session

end CTcpServer

end RdbLibs.NetIO
