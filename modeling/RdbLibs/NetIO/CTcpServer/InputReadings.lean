import Mathlib.Data.List.GetD
import RdbLibs.NetIO.CTcpServer.Input
import RdbLibs.NetIO.TcpLossless

/-!
# What an application reads of the input

The session has one message for all that arrives. It clears the message before it waits for the
next one, and again after it has decoded a header, so what an application finds depends on where the
session is when `readInputData` takes the length of the body, and where it is when the bytes are
copied (`Moment`). A message can be read from the end of its `readMsgData` until the next one
begins. A length that was taken in that time may be used for a copy after it, of bytes that are
zero or belong to a later message.

In every run, whatever the order of the steps of the session and of any number of application
threads, every call is answered with as many bytes as the first of its two moments shows, taken
from the body that the second shows (`readings_are_shown`).
-/

set_option autoImplicit false
set_option relaxedAutoImplicit false

namespace RdbLibs.NetIO.CTcpServer

open MachineWord CheckedMemory CNetMessageData NetworkDataHeaderInfo TcpFraming Runs

/-! ### What the message shows -/

/-- Where the session is: how many messages it has taken, and its next step. -/
structure Moment where
  taken : ℕ
  phase : InputPhase

/-- The session waits for the network, and holds the lock. -/
def InputPhase.waiting : InputPhase → Bool
  | .readHeader _ _ => true
  | .readBody _ _ => true
  | _ => false

/-- The length of the body that the message shows. The first of the bodies is the one that it held
at the start. -/
def Moment.length (bodies : List (List UInt8)) (now : Moment) : ℕ :=
  match now.phase with
  | .clearAll => (bodies.getD now.taken []).length
  | .clearMsgBody => (bodies.getD (now.taken + 1) []).length
  | .setUpdated => (bodies.getD (now.taken + 1) []).length
  | .compareMsgData => (bodies.getD (now.taken + 1) []).length
  | .ended => (bodies.getD now.taken []).length
  | _ => 0

/-- The bytes of the body that are in the message, before the zeros. -/
def Moment.body (bodies : List (List UInt8)) (now : Moment) : List UInt8 :=
  match now.phase with
  | .clearAll => bodies.getD now.taken []
  | .setBodyLength _ _ => bodies.getD (now.taken + 1) []
  | .setUpdated => bodies.getD (now.taken + 1) []
  | .compareMsgData => bodies.getD (now.taken + 1) []
  | .ended => bodies.getD now.taken []
  | _ => []

/-- What is noted of a call of `readInputData` that is not finished. -/
structure Asked where
  nMax : ℕ
  moment : Moment

/-- What is noted of a run: the number of messages that were taken, and the calls of the
applications. -/
structure InputWatch where
  taken : ℕ
  asked : ℕ → Asked

/-- Where the session is in a state. -/
def InputWatch.now {σ : Type} (w : InputWatch) (i : Input σ) : Moment := ⟨w.taken, i.session⟩

/-- What is noted of a step. -/
def InputWatch.note {σ : Type} (w : InputWatch)
    (call : Call (Input σ) InputEvent (Option InputReply)) : InputWatch :=
  match call.label, call.before.session with
  | .getBodyLength thread nMax, _ =>
    { w with asked := Function.update w.asked thread ⟨nMax, w.now call.before⟩ }
  | .session, .compareMsgData => { w with taken := w.taken + 1 }
  | _, _ => w

/-- What is noted before the first step. -/
def InputWatch.start : InputWatch := ⟨0, fun _ ↦ ⟨0, 0, .clearAll⟩⟩

/-- The answer of a call that took the length at one moment and copies at another one: the bytes
that the message has then, with zeros behind them. -/
def answerOf (bodies : List (List UInt8)) (asked : Asked) (copied : Moment) : InputReply :=
  let count := min asked.nMax (asked.moment.length bodies)
  let body := copied.body bodies
  ⟨count, body.take count ++ List.replicate (count - body.length) 0⟩

/-- A call of `readInputData` does not copy while the session waits, and is answered with what its
two moments show. -/
def ReadsWhatIsShown {σ : Type} (bodies : List (List UInt8)) (w : InputWatch)
    (call : Call (Input σ) InputEvent (Option InputReply)) : Prop :=
  match call.label with
  | .copy thread => call.before.session.waiting = false ∧
      call.reply = some (answerOf bodies (w.asked thread) (w.now call.before))
  | _ => True

/-- A call that no step of the session interrupts, made after a message was taken and before the
next one is read, is answered with the first bytes of the message. -/
theorem answerOf_between (bodies : List (List UInt8)) (nMax taken : ℕ) :
    answerOf bodies ⟨nMax, taken, .clearAll⟩ ⟨taken, .clearAll⟩ =
      ⟨(min nMax (bodies.getD taken []).length : ℕ), (bodies.getD taken []).take nMax⟩ := by
  unfold answerOf Moment.length Moment.body
  dsimp only
  rw [Nat.sub_eq_zero_of_le (Nat.min_le_right ..), List.replicate_zero, List.append_nil,
    ← List.take_eq_take_min]

/-! ### The invariant -/

/-- The area of a message of some size whose body is given. -/
def padded (payload : ℕ) (body : List UInt8) : List UInt8 :=
  body ++ List.replicate (payload - body.length) 0

/-- The length that the message has noted for a body. -/
def noted (bodyLength : ℕ) : ℕ := if bodyLength = 0 then 0 else msgHeaderLen + bodyLength

/-- A body that a message of some size can hold. -/
def Fits (payload : ℕ) (body : List UInt8) : Prop := body.length ≤ payload ∧ body.length < 2 ^ 31

/-- The stream carries the bodies from the one with the index `next` on. -/
def Ahead (payload : ℕ) (bodies : List (List UInt8)) (next : ℕ) (stream : List UInt8) : Prop :=
  Carries payload stream ((bodies.drop next).map delivered)

/-- The header of the next message is in the message, and its body in the stream. -/
structure Arriving (payload : ℕ) (bodies : List (List UInt8)) (next : ℕ)
    (header stream : List UInt8) : Prop where
  announces : Announces header (bodies.getD next []).length
  pos : 0 < (bodies.getD next []).length
  room : (bodies.getD next []).length < payload
  stream : ∃ rest, stream = bodies.getD next [] ++ rest ∧ Ahead payload bodies (next + 1) rest

/-- What the session knows at its next step. -/
def Position (payload : ℕ) (bodies : List (List UInt8)) (taken : ℕ)
    (header stream : List UInt8) : InputPhase → Prop
  | .clearAll => Ahead payload bodies (taken + 1) stream
  | .getDataPtr => Ahead payload bodies (taken + 1) stream
  | .readHeader nLen pData =>
    nLen = msgHeaderLen ∧ pData = 0 ∧ Ahead payload bodies (taken + 1) stream
  | .decodeMsgHeader => Arriving payload bodies (taken + 1) header stream
  | .clearMsgBody => Arriving payload bodies (taken + 1) header stream
  | .getBodyPtr nLen => nLen = (bodies.getD (taken + 1) []).length ∧
      Arriving payload bodies (taken + 1) header stream
  | .readBody nLen pData => nLen = (bodies.getD (taken + 1) []).length ∧ pData = msgHeaderLen ∧
      Arriving payload bodies (taken + 1) header stream
  | .setBodyLength nLen status => nLen = (bodies.getD (taken + 1) []).length ∧
      status = (bodies.getD (taken + 1) []).length ∧ 0 < status ∧
      Ahead payload bodies (taken + 2) stream
  | .setUpdated => Ahead payload bodies (taken + 2) stream
  | .compareMsgData => Ahead payload bodies (taken + 2) stream
  | .ended => True

/-- The message shows what belongs to where the session is, and the rest is in the stream. -/
def Shows {σ : Type} (inFlight : σ → List UInt8) (payload : ℕ) (bodies : List (List UInt8))
    (now : Moment) (m_inputMsg : CNetMessageData) (socket : σ) : Prop :=
  ∃ header updated, header.length = msgHeaderLen ∧
    m_inputMsg = laidOut header (padded payload (now.body bodies)) (noted (now.length bodies))
      updated now.phase.waiting ∧
    Position payload bodies now.taken header (inFlight socket) now.phase

/-- The invariant. -/
structure Mirrors {σ : Type} (inFlight : σ → List UInt8) (payload : ℕ) (bodies : List (List UInt8))
    (i : Input σ) (w : InputWatch) : Prop where
  shows : Shows inFlight payload bodies (w.now i) i.m_inputMsg i.socket
  asked : ∀ thread nCopyLen, i.apps thread = some nCopyLen →
    nCopyLen = min (w.asked thread).nMax ((w.asked thread).moment.length bodies)

variable {σ : Type} {payload : ℕ} {bodies : List (List UInt8)} {header area body : List UInt8}
  {updated : Bool} {inFlight : σ → List UInt8} {i i' : Input σ} {w : InputWatch}

theorem length_padded (h : body.length ≤ payload) : (padded payload body).length = payload := by
  rw [padded, List.length_append, List.length_replicate]
  omega

theorem take_padded {count : ℕ} (hcount : count ≤ payload) :
    (padded payload body).take count =
      body.take count ++ List.replicate (count - body.length) 0 := by
  rw [padded, List.take_append, List.take_replicate,
    Nat.min_eq_left (Nat.sub_le_sub_right hcount _)]

theorem getBodyLength_noted {bodyLength : ℕ} (locked : Bool) :
    (laidOut header area (noted bodyLength) updated locked).getBodyLength = toInt bodyLength := by
  unfold noted
  split_ifs with hnone
  · subst hnone
    rfl
  · exact getBodyLength_laidOut bodyLength

/-- Every body that is noted of a moment fits the message. -/
theorem Fits.getD (hfits : ∀ body ∈ bodies, Fits payload body) (index : ℕ) :
    Fits payload (bodies.getD index []) := by
  by_cases hindex : index < bodies.length
  · rw [List.getD_eq_getElem _ _ hindex]
    exact hfits _ (List.getElem_mem hindex)
  · rw [List.getD_eq_default _ _ (by omega)]
    exact ⟨Nat.zero_le _, by norm_num⟩

theorem Moment.fits_body (hfits : ∀ body ∈ bodies, Fits payload body) (now : Moment) :
    Fits payload (now.body bodies) := by
  have hnone : Fits payload [] := ⟨Nat.zero_le _, by norm_num⟩
  unfold Moment.body
  split <;> first | exact Fits.getD hfits _ | exact hnone

theorem Moment.length_le (hfits : ∀ body ∈ bodies, Fits payload body) (now : Moment) :
    now.length bodies ≤ payload ∧ now.length bodies < 2 ^ 31 := by
  have hnone : 0 ≤ payload ∧ 0 < 2 ^ 31 := ⟨Nat.zero_le _, by norm_num⟩
  unfold Moment.length
  split <;> first | exact Fits.getD hfits _ | exact hnone

/-! ### The steps of the applications -/

/-- A call of `readInputData` determines the length that the message shows. -/
theorem Mirrors.copyLength_eq (h : Mirrors inFlight payload bodies i w)
    (hfits : ∀ body ∈ bodies, Fits payload body) (nMax : ℕ) :
    copyLength i.m_inputMsg nMax = min nMax ((w.now i).length bodies) := by
  obtain ⟨header, updated, -, hmessage, -⟩ := h.shows
  have hshort := ((w.now i).length_le hfits).2
  have hlength : i.m_inputMsg.getBodyLength = (w.now i).length bodies := by
    rw [hmessage, getBodyLength_noted, toInt_of_lt hshort]
  rw [copyLength, hlength, intToSize_of_lt (by omega)]
  split_ifs <;> omega

/-- The copying of bytes leaves the message, and is not done while the session waits. -/
theorem Mirrors.copyInput_eq (h : Mirrors inFlight payload bodies i w)
    (hfits : ∀ body ∈ bodies, Fits payload body) {count : ℕ} (hcount : count ≤ payload)
    {bytes : Option (List UInt8)} {m_inputMsg : CNetMessageData}
    (hcopy : copyInput i.m_inputMsg count = .ok (bytes, m_inputMsg)) :
    i.session.waiting = false ∧ m_inputMsg = i.m_inputMsg ∧
      bytes = some (((w.now i).body bodies).take count ++
        List.replicate (count - ((w.now i).body bodies).length) 0) := by
  obtain ⟨header, updated, hheader, hmessage, -⟩ := h.shows
  have hbody := ((w.now i).fits_body hfits).1
  rw [hmessage] at hcopy
  cases hwaiting : (w.now i).phase.waiting with
  | true =>
    rw [hwaiting] at hcopy
    cases hcopy
  | false =>
    rw [hwaiting] at hcopy hmessage
    have hload : loadRange (header ++ padded payload ((w.now i).body bodies)) msgHeaderLen count =
        .ok ((padded payload ((w.now i).body bodies)).take count) := by
      have hsplit := List.take_append_drop count (padded payload ((w.now i).body bodies))
      have hlength : ((padded payload ((w.now i).body bodies)).take count).length = count := by
        rw [List.length_take, length_padded hbody]
        omega
      have hmiddle := loadRange_middle ((padded payload ((w.now i).body bodies)).drop count)
        hheader hlength
      rwa [List.append_assoc, hsplit] at hmiddle
    rw [copyInput, getBodyPtr_laidOut, ok_bind] at hcopy
    dsimp only at hcopy
    rw [cells_laidOut, ok_bind, hload, ok_bind, releasePtr_laidOut, ok_bind] at hcopy
    obtain ⟨rfl, rfl⟩ := Prod.mk.inj (Except.ok.inj hcopy)
    exact ⟨hwaiting, hmessage.symm, congrArg some (take_padded hcount)⟩

/-! ### The steps of the session -/

theorem padded_nil : padded payload [] = List.replicate payload 0 := by
  rw [padded, List.nil_append, List.length_nil, Nat.sub_zero]

/-- A stream that carries bodies is empty, or has the header of the next one at its front. -/
theorem Ahead.cases {next : ℕ} {stream : List UInt8} (h : Ahead payload bodies next stream) :
    stream = [] ∨ ∃ header rest, stream = header ++ rest ∧
      Arriving payload bodies next header rest := by
  by_cases hnext : next < bodies.length
  · have hbody : bodies.getD next [] = bodies[next] := List.getD_eq_getElem _ _ hnext
    rw [Ahead, List.drop_eq_getElem_cons hnext, List.map_cons] at h
    obtain ⟨header, body, rest, hannounces, hpos, hroom, -, hdelivered, hstream, hrest⟩ := h
    obtain rfl : bodies[next] = body := congrArg Delivery.body hdelivered
    rw [← hbody] at hannounces hpos hroom hstream
    exact .inr ⟨header, _, hstream, hannounces, hpos, by exact_mod_cast hroom, rest, rfl, hrest⟩
  · rw [Ahead, List.drop_eq_nil_of_le (by omega)] at h
    exact .inl h

section Session

variable {net : Network σ} {taken : ℕ} {m_inputMsg m_inputMsg' : CNetMessageData} {socket : σ}

theorem Shows.clearAll (hfits : ∀ body ∈ bodies, Fits payload body)
    (h : Shows inFlight payload bodies ⟨taken, .clearAll⟩ m_inputMsg socket)
    (hclear : m_inputMsg.clearAll = .ok m_inputMsg') :
    Shows inFlight payload bodies ⟨taken, .getDataPtr⟩ m_inputMsg' socket := by
  obtain ⟨header, updated, hheader, rfl, hahead⟩ := h
  obtain rfl := Except.ok.inj ((clearAll_laidOut hheader).symm.trans hclear)
  refine ⟨List.replicate msgHeaderLen 0, updated, List.length_replicate, ?_, hahead⟩
  rw [length_padded (Moment.fits_body hfits _).1, ← padded_nil]
  rfl

/-- The session takes the lock, to read a header into the block. -/
theorem Shows.getDataPtr
    (h : Shows inFlight payload bodies ⟨taken, .getDataPtr⟩ m_inputMsg socket) :
    m_inputMsg.getHeaderLength = msgHeaderLen ∧ ∃ m_inputMsg',
      m_inputMsg.getDataPtr = .ok (some 0, m_inputMsg') ∧
        Shows inFlight payload bodies ⟨taken, .readHeader msgHeaderLen 0⟩ m_inputMsg' socket := by
  obtain ⟨header, updated, hheader, rfl, hahead⟩ := h
  exact ⟨getHeaderLength_laidOut, _, rfl, header, updated, hheader, rfl, rfl, rfl, hahead⟩

/-- A read of a header that does not wait brings the next one. -/
theorem Shows.readHeader (hnet : Reliable net inFlight) {nLen : ℤ} {pData : ℕ}
    (h : Shows inFlight payload bodies ⟨taken, .readHeader nLen pData⟩ m_inputMsg socket)
    {received : Received σ} (hread : awaited (net.read socket (intToSize nLen)) = .ok received) :
    received.completion = .success ∧ afterHeader nLen received.bytes.length = .decodeMsgHeader ∧
      ∃ put m_inputMsg', CTcpSession.putReceived m_inputMsg pData received.bytes = .ok put ∧
        put.releasePtr = .ok m_inputMsg' ∧
          Shows inFlight payload bodies ⟨taken, .decodeMsgHeader⟩ m_inputMsg' received.after := by
  obtain ⟨header, updated, hheader, rfl, rfl, rfl, hahead⟩ := h
  have hsize : intToSize msgHeaderLen = msgHeaderLen := intToSize_of_lt (by decide)
  rw [hsize] at hread
  rcases hahead.cases with hempty | ⟨next, rest, hstream, harriving⟩
  · rw [hnet.read_waits socket msgHeaderLen (by rw [hempty]; decide)] at hread
    cases hread
  · have hlength : next.length = msgHeaderLen := harriving.announces.length
    obtain ⟨after, hreceived, hafter⟩ := hnet.read_all socket msgHeaderLen
      (by rw [hstream, List.length_append]; omega)
    rw [hstream, List.take_left' hlength] at hreceived
    rw [hstream, List.drop_left' hlength] at hafter
    rw [hreceived] at hread
    obtain rfl := Except.ok.inj hread
    refine ⟨rfl, ?_, ?_⟩
    · rw [afterHeader, hlength, hsize, if_neg (lt_irrefl _), if_pos le_rfl]
    · refine ⟨_, _, ?_, releasePtr_laidOut, next, updated, hlength, rfl, ?_⟩
      · rw [CTcpSession.putReceived_of_pos _ _ (by rw [hlength]; decide)]
        exact storeHeader_laidOut hheader hlength
      · exact hafter ▸ harriving

theorem Shows.decodeMsgHeader (hpayload : msgHeaderLen + payload < 2 ^ 32)
    (h : Shows inFlight payload bodies ⟨taken, .decodeMsgHeader⟩ m_inputMsg socket)
    {sType : List UInt8} {answer : Bool}
    (hdecode : m_inputMsg.decodeMsgHeader sType = .ok (answer, m_inputMsg')) :
    Shows inFlight payload bodies ⟨taken, .clearMsgBody⟩ m_inputMsg' socket := by
  obtain ⟨header, updated, hheader, rfl, harriving⟩ := h
  have harea : (padded payload []).length = payload := length_padded (Nat.zero_le _)
  have hroom : (bodies.getD (taken + 1) []).length < (padded payload []).length :=
    harea.symm ▸ harriving.room
  obtain ⟨-, rfl⟩ := Prod.mk.inj (Except.ok.inj ((decodeMsgHeader_laidOut harriving.announces hroom
    (harea.symm ▸ hpayload) sType).symm.trans hdecode))
  refine ⟨header, updated, hheader, ?_, harriving⟩
  have hnoted : noted (Moment.length bodies ⟨taken, .clearMsgBody⟩) =
      msgHeaderLen + (bodies.getD (taken + 1) []).length := if_neg harriving.pos.ne'
  rw [hnoted]
  rfl

theorem Shows.clearMsgBody (hfits : ∀ body ∈ bodies, Fits payload body)
    (hpayload : msgHeaderLen + payload < 2 ^ 32)
    (h : Shows inFlight payload bodies ⟨taken, .clearMsgBody⟩ m_inputMsg socket) :
    0 < m_inputMsg.getBodyLength ∧ ∃ m_inputMsg', m_inputMsg.clearMsgBody = .ok m_inputMsg' ∧
      Shows inFlight payload bodies ⟨taken, .getBodyPtr m_inputMsg.getBodyLength⟩ m_inputMsg'
        socket := by
  obtain ⟨header, updated, hheader, hmessage, harriving⟩ := h
  have harea : (padded payload []).length = payload := length_padded (Nat.zero_le _)
  have hlength : m_inputMsg.getBodyLength = (bodies.getD (taken + 1) []).length := by
    rw [hmessage, getBodyLength_noted]
    exact toInt_of_lt (Fits.getD hfits _).2
  have hpos := harriving.pos
  refine ⟨by rw [hlength]; exact_mod_cast hpos, ?_⟩
  refine ⟨laidOut header (padded payload []) 0 updated false, ?_, header, updated, hheader, rfl,
    hlength, harriving⟩
  have hcleared : (laidOut header (padded payload []) (noted (bodies.getD (taken + 1) []).length)
      updated false).clearMsgBody =
        .ok (laidOut header (List.replicate (padded payload []).length 0) 0 updated false) :=
    clearMsgBody_laidOut hheader (harea.symm ▸ hpayload)
  rw [harea, ← padded_nil] at hcleared
  rw [hmessage]
  exact hcleared

/-- The session takes the lock, to read a body into the area. -/
theorem Shows.getBodyPtr {nLen : ℤ}
    (h : Shows inFlight payload bodies ⟨taken, .getBodyPtr nLen⟩ m_inputMsg socket) :
    ∃ m_inputMsg', m_inputMsg.getBodyPtr = .ok (some msgHeaderLen, m_inputMsg') ∧
      Shows inFlight payload bodies ⟨taken, .readBody nLen msgHeaderLen⟩ m_inputMsg' socket := by
  obtain ⟨header, updated, hheader, rfl, hlength, harriving⟩ := h
  exact ⟨_, rfl, header, updated, hheader, rfl, hlength, rfl, harriving⟩

/-- A read of a body that does not wait brings the whole body. -/
theorem Shows.readBody (hnet : Reliable net inFlight) (hfits : ∀ body ∈ bodies, Fits payload body)
    {nLen : ℤ} {pData : ℕ}
    (h : Shows inFlight payload bodies ⟨taken, .readBody nLen pData⟩ m_inputMsg socket)
    {received : Received σ} (hread : awaited (net.read socket (intToSize nLen)) = .ok received) :
    received.completion = .success ∧
      ∃ put m_inputMsg', CTcpSession.putReceived m_inputMsg pData received.bytes = .ok put ∧
        put.releasePtr = .ok m_inputMsg' ∧ Shows inFlight payload bodies
          ⟨taken, .setBodyLength nLen received.bytes.length⟩ m_inputMsg' received.after := by
  obtain ⟨header, updated, hheader, rfl, hposition⟩ := h
  obtain ⟨rfl, rfl, harriving⟩ : nLen = ((bodies.getD (taken + 1) []).length : ℤ) ∧
    pData = msgHeaderLen ∧ Arriving payload bodies (taken + 1) header (inFlight socket) := hposition
  obtain ⟨rest, hstream, hahead⟩ := harriving.stream
  have hbody := Fits.getD hfits (taken + 1)
  obtain ⟨after, hreceived, hafter⟩ := hnet.read_all socket (bodies.getD (taken + 1) []).length
    (by rw [hstream, List.length_append]; omega)
  rw [hstream, List.take_left' rfl] at hreceived
  rw [hstream, List.drop_left' rfl] at hafter
  rw [intToSize_of_lt (by have hshort := hbody.2; omega), hreceived] at hread
  obtain rfl := Except.ok.inj hread
  have hput : CTcpSession.putReceived (laidOut header (padded payload []) 0 updated true)
      msgHeaderLen (bodies.getD (taken + 1) []) =
        .ok (laidOut header (padded payload (bodies.getD (taken + 1) [])) 0 updated true) := by
    rw [CTcpSession.putReceived_of_pos _ _ harriving.pos, storeBody_laidOut hheader
      (by rw [length_padded (Nat.zero_le _)]; exact hbody.1), padded_nil, List.drop_replicate]
    rfl
  refine ⟨rfl, _, _, hput, releasePtr_laidOut, header, updated, hheader, rfl, rfl, rfl,
    harriving.pos, ?_⟩
  exact hafter ▸ hahead

theorem Shows.setBodyLength (hfits : ∀ body ∈ bodies, Fits payload body)
    (hpayload : msgHeaderLen + payload < 2 ^ 32) {nLen : ℤ} {status : ℕ}
    (h : Shows inFlight payload bodies ⟨taken, .setBodyLength nLen status⟩ m_inputMsg socket) :
    ¬status < intToSize nLen ∧
      Shows inFlight payload bodies ⟨taken, .setUpdated⟩ (m_inputMsg.setBodyLength status)
        socket := by
  obtain ⟨header, updated, hheader, rfl, hposition⟩ := h
  obtain ⟨rfl, rfl, hpos, hahead⟩ : nLen = ((bodies.getD (taken + 1) []).length : ℤ) ∧
    status = (bodies.getD (taken + 1) []).length ∧ 0 < status ∧
      Ahead payload bodies (taken + 2) (inFlight socket) := hposition
  have hbody := Fits.getD hfits (taken + 1)
  refine ⟨?_, header, updated, hheader, ?_, hahead⟩
  · rw [intToSize_of_lt (by have hshort := hbody.2; omega)]
    exact lt_irrefl _
  · have hnoted : noted (Moment.length bodies ⟨taken, .setUpdated⟩) =
        msgHeaderLen + (bodies.getD (taken + 1) []).length := if_neg hpos.ne'
    rw [setBodyLength_laidOut (by have hroom := hbody.1; omega), hnoted]
    rfl

theorem Shows.setUpdated
    (h : Shows inFlight payload bodies ⟨taken, .setUpdated⟩ m_inputMsg socket) :
    Shows inFlight payload bodies ⟨taken, .compareMsgData⟩ (m_inputMsg.setUpdated true) socket := by
  obtain ⟨header, updated, hheader, rfl, hahead⟩ := h
  exact ⟨header, true, hheader, rfl, hahead⟩

/-- Comparing does not change a message. -/
theorem compareMsgData_keeps {d d' : CNetMessageData} (hunlocked : d.m_dataLock = false)
    {pData : Option (List UInt8)} {nLen : ℕ} {same : Bool}
    (hcompare : d.compareMsgData pData nLen = .ok (same, d')) : d' = d := by
  unfold CNetMessageData.compareMsgData at hcompare
  cases pData with
  | none => exact (Prod.mk.inj (Except.ok.inj hcompare)).2.symm
  | some source =>
    dsimp only at hcompare
    split_ifs at hcompare with hnone hlimit
    · exact (Prod.mk.inj (Except.ok.inj hcompare)).2.symm
    · exact (Prod.mk.inj (Except.ok.inj hcompare)).2.symm
    · have hlock : d.lock = .ok { d with m_dataLock := true } := if_neg (by simp [hunlocked])
      rw [hlock, ok_bind] at hcompare
      obtain ⟨answer, -, hcompare⟩ := of_bind_eq_ok hcompare
      obtain ⟨released, hrelease, hcompare⟩ := of_bind_eq_ok hcompare
      obtain ⟨-, rfl⟩ := Prod.mk.inj (Except.ok.inj hcompare)
      obtain rfl := Except.ok.inj hrelease
      rw [← hunlocked]

/-- The message that was compared stays, whether the session goes on or ends. -/
theorem Shows.compareMsgData
    (h : Shows inFlight payload bodies ⟨taken, .compareMsgData⟩ m_inputMsg socket) {same : Bool}
    (hcompare : m_inputMsg.compareMsgData (some exitMsg) 4 = .ok (same, m_inputMsg')) :
    Shows inFlight payload bodies ⟨taken + 1, if same then .ended else .clearAll⟩ m_inputMsg'
      socket := by
  obtain ⟨header, updated, hheader, hmessage, hahead⟩ := h
  obtain rfl := compareMsgData_keeps (by rw [hmessage]; rfl) hcompare
  cases same with
  | true => exact ⟨header, updated, hheader, hmessage, trivial⟩
  | false => exact ⟨header, updated, hheader, hmessage, hahead⟩

/-- One step of the session keeps the message and where the session is together. -/
theorem Mirrors.inputStep (hnet : Reliable net inFlight)
    (hfits : ∀ body ∈ bodies, Fits payload body) (hpayload : msgHeaderLen + payload < 2 ^ 32)
    (h : Mirrors inFlight payload bodies i w)
    (hstep : CTcpServer.inputStep net i = .ok i') :
    Mirrors inFlight payload bodies i' (w.note ⟨i, .session, none⟩) := by
  obtain ⟨m_inputMsg, m_outputMsg, pSession, socket, phase, apps⟩ := i
  obtain ⟨taken, asked⟩ := w
  obtain ⟨hshows, hasked⟩ := h
  unfold CTcpServer.inputStep at hstep
  cases phase with
  | clearAll =>
    obtain ⟨cleared, hclear, hstep⟩ := of_bind_eq_ok hstep
    obtain rfl := Except.ok.inj hstep
    exact ⟨Shows.clearAll hfits hshows hclear, hasked⟩
  | getDataPtr =>
    obtain ⟨hlength, locked, hpointer, hnext⟩ := Shows.getDataPtr hshows
    dsimp only at hstep
    rw [hlength, if_neg (by decide), hpointer, ok_bind] at hstep
    obtain rfl := Except.ok.inj hstep
    exact ⟨hnext, hasked⟩
  | readHeader nLen pData =>
    obtain ⟨received, hread, hstep⟩ := of_bind_eq_ok hstep
    obtain ⟨hsuccess, hafter, put, released, hput, hrelease, hnext⟩ :=
      Shows.readHeader hnet hshows hread
    dsimp only at hstep
    rw [hput, ok_bind, hrelease, ok_bind, hafter] at hstep
    obtain rfl := Except.ok.inj hstep
    unfold Input.arrived
    rw [hsuccess]
    exact ⟨hnext, hasked⟩
  | decodeMsgHeader =>
    obtain ⟨⟨answer, decoded⟩, hdecode, hstep⟩ := of_bind_eq_ok hstep
    obtain rfl := Except.ok.inj hstep
    exact ⟨Shows.decodeMsgHeader hpayload hshows hdecode, hasked⟩
  | clearMsgBody =>
    obtain ⟨hpos, cleared, hclear, hnext⟩ := Shows.clearMsgBody hfits hpayload hshows
    dsimp only [InputWatch.now] at hpos hclear hnext hstep
    rw [if_neg (by omega), hclear, ok_bind] at hstep
    obtain rfl := Except.ok.inj hstep
    exact ⟨hnext, hasked⟩
  | getBodyPtr nLen =>
    obtain ⟨locked, hpointer, hnext⟩ := Shows.getBodyPtr hshows
    dsimp only at hpointer hstep
    rw [hpointer, ok_bind] at hstep
    obtain rfl := Except.ok.inj hstep
    exact ⟨hnext, hasked⟩
  | readBody nLen pData =>
    obtain ⟨received, hread, hstep⟩ := of_bind_eq_ok hstep
    obtain ⟨hsuccess, put, released, hput, hrelease, hnext⟩ :=
      Shows.readBody hnet hfits hshows hread
    dsimp only at hstep
    rw [hput, ok_bind, hrelease, ok_bind] at hstep
    obtain rfl := Except.ok.inj hstep
    unfold Input.arrived
    rw [hsuccess]
    exact ⟨hnext, hasked⟩
  | setBodyLength nLen status =>
    obtain ⟨hwhole, hnext⟩ := Shows.setBodyLength hfits hpayload hshows
    dsimp only at hstep
    rw [if_neg hwhole] at hstep
    obtain rfl := Except.ok.inj hstep
    exact ⟨hnext, hasked⟩
  | setUpdated =>
    obtain rfl := Except.ok.inj hstep
    exact ⟨Shows.setUpdated hshows, hasked⟩
  | compareMsgData =>
    obtain ⟨⟨same, compared⟩, hcompare, hstep⟩ := of_bind_eq_ok hstep
    obtain rfl := Except.ok.inj hstep
    exact ⟨Shows.compareMsgData hshows hcompare, hasked⟩
  | ended => cases hstep

end Session

/-! ### Runs -/

/-- Any step keeps the invariant, and an answer is what the two moments of its call show. -/
theorem Mirrors.step {net : Network σ} (hnet : Reliable net inFlight)
    (hfits : ∀ body ∈ bodies, Fits payload body) (hpayload : msgHeaderLen + payload < 2 ^ 32)
    {event : InputEvent} {reply : Option InputReply} (h : Mirrors inFlight payload bodies i w)
    (hstep : InputStep net i event reply i') :
    ReadsWhatIsShown bodies w ⟨i, event, reply⟩ ∧
      Mirrors inFlight payload bodies i' (w.note ⟨i, event, reply⟩) := by
  cases hstep with
  | @refused thread hidle =>
    refine ⟨trivial, h.shows, ?_⟩
    intro other nCopyLen hreading
    have hne : other ≠ thread := by
      rintro rfl
      rw [hidle] at hreading
      cases hreading
    dsimp only [InputWatch.note]
    rw [Function.update_of_ne hne]
    exact h.asked other nCopyLen hreading
  | @getBodyLength thread nMax hidle hpos =>
    refine ⟨trivial, h.shows, ?_⟩
    intro other nCopyLen hreading
    dsimp only [InputWatch.note] at hreading ⊢
    by_cases hother : other = thread
    · subst hother
      rw [Function.update_self] at hreading ⊢
      rw [← Option.some.inj hreading]
      exact h.copyLength_eq hfits nMax
    · rw [Function.update_of_ne hother] at hreading ⊢
      exact h.asked other nCopyLen hreading
  | @copy thread nCopyLen bytes m_inputMsg hreading hcopy =>
    have hcount := h.asked thread nCopyLen hreading
    have hlength := (w.asked thread).moment.length_le hfits
    obtain ⟨hwaiting, rfl, hbytes⟩ := h.copyInput_eq hfits (by omega) hcopy
    refine ⟨⟨hwaiting, ?_⟩, h.shows, ?_⟩
    · rw [Option.some.inj hbytes, toInt_of_lt (by omega), answerOf, ← hcount]
    · intro other nOther hother
      dsimp only at hother
      have hne : other ≠ thread := by
        rintro rfl
        rw [Function.update_self] at hother
        cases hother
      rw [Function.update_of_ne hne] at hother
      exact h.asked other nOther hother
  | @noPointer thread nCopyLen m_inputMsg m_outputMsg hreading hcopy hrelease =>
    have hcount := h.asked thread nCopyLen hreading
    have hlength := (w.asked thread).moment.length_le hfits
    obtain ⟨-, -, hbytes⟩ := h.copyInput_eq hfits (by omega) hcopy
    cases hbytes
  | session hsession => exact ⟨trivial, h.inputStep hnet hfits hpayload hsession⟩

end RdbLibs.NetIO.CTcpServer
