import RdbLibs.NetIO.LockDiscipline
import RdbLibs.NetIO.TcpTransfer

/-!
# The frames that a TCP session accepts

What arrives at a session is any bytes, and then the end of the stream (`EndsAfter`). `readMsgData`
accepts exactly the streams that start with a frame, a header that announces a body of 1 byte or
more which is shorter than the area, and then this body (`readMsgData_accepts_iff`). It always
returns, so that no access leaves the block, and the message stays allocated.

That `decodeMsgHeader` has refused a header is not seen by `readMsgHeader`. It is seen by
`readMsgBody`, because the length that is noted is then that of an empty body.
-/

set_option autoImplicit false
set_option relaxedAutoImplicit false

namespace RdbLibs.NetIO

open MachineWord CheckedMemory CNetMessageData NetworkDataHeaderInfo

variable {σ : Type}

/-- A network on which some bytes arrive and then the stream ends. A read of more bytes than there
are does not succeed. -/
structure EndsAfter (net : Network σ) (incoming : σ → List UInt8) : Prop where
  fills : Fills net incoming
  ends : ∀ socket size, (incoming socket).length < size →
    ∃ received, net.read socket size = some received ∧ received.completion ≠ .success

/-- A frame that a message with room for `limit` bytes takes. -/
structure Frame (limit : ℕ) (header body : List UInt8) : Prop where
  announces : Announces header body.length
  pos : 0 < body.length
  lt_limit : body.length < limit

/-- A stream with a frame at its front. -/
def StartsWithFrame (limit : ℕ) (stream : List UInt8) : Prop :=
  ∃ header body rest, Frame limit header body ∧ stream = header ++ (body ++ rest)

/-- A stream whose header announces a body that is there starts with a frame. -/
theorem startsWithFrame_of_announces {limit n : ℕ} {stream : List UInt8}
    (hannounces : Announces (stream.take msgHeaderLen) n) (hpos : 0 < n) (hlimit : n < limit)
    (hlong : n ≤ (stream.drop msgHeaderLen).length) : StartsWithFrame limit stream := by
  have hbody : ((stream.drop msgHeaderLen).take n).length = n := List.length_take_of_le hlong
  refine ⟨stream.take msgHeaderLen, (stream.drop msgHeaderLen).take n,
    (stream.drop msgHeaderLen).drop n, ?_, ?_⟩
  · exact ⟨hbody.symm ▸ hannounces, hbody.symm ▸ hpos, hbody.symm ▸ hlimit⟩
  · rw [List.take_append_drop, List.take_append_drop]

/-- What a session has made of a frame at the front of the stream: the frame is consumed, and the
message holds it. Behind the body the area is zero. -/
def Takes (incoming : σ → List UInt8) (limit : ℕ) (stream : List UInt8) (c : Connection σ) : Prop :=
  ∃ header body rest, Frame limit header body ∧ stream = header ++ (body ++ rest) ∧
    incoming c.socket = rest ∧ c.msgData.getBodyLength = body.length ∧
    c.msgData.m_pData = some (header ++ (body ++ List.replicate (limit - body.length) 0))

variable {net : Network σ} {incoming : σ → List UInt8} {limit : ℕ}

theorem EndsAfter.answered (hnet : EndsAfter net incoming) (Excused : Fault → Prop) (socket : σ)
    (size : ℕ) : Answered Excused (net.read socket size) := by
  rcases le_or_gt size (incoming socket).length with hsize | hsize
  · obtain ⟨after, hread, -⟩ := hnet.fills socket size hsize
    exact .inr (by rw [hread]; rfl)
  · obtain ⟨received, hread, -⟩ := hnet.ends socket size hsize
    exact .inr (by rw [hread]; rfl)

/-- A read is filled only from a stream that is long enough. -/
theorem EndsAfter.le_of_filled (hnet : EndsAfter net incoming) {socket : σ} {size : ℕ}
    (hfilled : CTcpSession.Filled net socket size) : size ≤ (incoming socket).length := by
  by_contra hshort
  obtain ⟨received, hread, hfails⟩ := hnet.ends socket size (not_le.mp hshort)
  obtain ⟨received', hread', hsucceeds, -⟩ := hfilled
  obtain rfl := Option.some.inj (hread.symm.trans hread')
  exact hfails hsucceeds

namespace CTcpSession

/-- The length of the message before the call does not matter, as `clearAll` comes first. -/
theorem readMsgData_forgets (net : Network σ) (session : CTcpSession) {d : CNetMessageData}
    (hunlocked : d.m_dataLock = false) (socket : σ) :
    readMsgData net ⟨session, d, socket⟩ =
      readMsgData net ⟨session, { d with m_nDataLength := 0 }, socket⟩ := by
  have hclear : d.clearAll = { d with m_nDataLength := 0 }.clearAll := by
    unfold clearAll lock
    dsimp only
    rw [hunlocked]
    rfl
  unfold readMsgData readMsgHeader
  dsimp only
  rw [hclear]

/-- A message without a body length is not read. -/
theorem readMsgBody_empty (net : Network σ) (session : CTcpSession) (header area : List UInt8)
    (updated : Bool) (socket : σ) :
    readMsgBody net ⟨session, laidOut header area msgHeaderLen updated false, socket⟩ =
      .ok (false, ⟨session, laidOut header area msgHeaderLen updated false, socket⟩) := by
  have hlength : (laidOut header area msgHeaderLen updated false).getBodyLength = 0 :=
    getBodyLength_laidOut 0
  unfold readMsgBody
  dsimp only
  rw [hlength, if_pos (by decide)]
  rfl

/-- A header that is not there is not read. -/
theorem readMsgHeader_short (hnet : EndsAfter net incoming) (session : CTcpSession)
    {d : CNetMessageData} (hd : Guarded (fun _ ↦ False) limit false d) {socket : σ}
    (hshort : (incoming socket).length < msgHeaderLen) :
    ∃ c, readMsgHeader net ⟨session, d, socket⟩ = .ok (false, c) ∧ Allocated limit c.msgData := by
  obtain ⟨⟨answer, c⟩, hread, hc, hanswer⟩ :=
    (readMsgHeader_guarded (c := ⟨session, d, socket⟩) hd (hnet.answered _)).exists_ok
  refine ⟨c, ?_, hc.allocated⟩
  cases answer with
  | false => exact hread
  | true => exact absurd (hnet.le_of_filled (hanswer rfl)) (not_le.mpr hshort)

/-- A body that is not there is not read. -/
theorem readMsgBody_short (hnet : EndsAfter net incoming) (session : CTcpSession)
    {d : CNetMessageData} (hd : Guarded (fun _ ↦ False) limit false d) {socket : σ}
    (hshort : (incoming socket).length < intToSize d.getBodyLength) :
    ∃ c, readMsgBody net ⟨session, d, socket⟩ = .ok (false, c) ∧ Allocated limit c.msgData := by
  obtain ⟨⟨answer, c⟩, hread, hc, hanswer⟩ :=
    (readMsgBody_guarded (c := ⟨session, d, socket⟩) hd (hnet.answered _)).exists_ok
  refine ⟨c, ?_, hc.allocated⟩
  cases answer with
  | false => exact hread
  | true => exact absurd (hnet.le_of_filled (hanswer rfl)) (not_le.mpr hshort)

/-- A call whose header was read answers what `readMsgBody` answers. -/
theorem readMsgData_of_readMsgHeader {c c' c'' : Connection σ} {answer : Bool}
    (hheader : readMsgHeader net c = .ok (true, c'))
    (hbody : readMsgBody net c' = .ok (answer, c'')) : readMsgData net c = .ok (answer, c'') := by
  rw [readMsgData, hheader, ok_bind]
  dsimp only
  rw [if_pos rfl, hbody, ok_bind]
  cases answer <;> rfl

section Acceptance

variable (hnet : EndsAfter net incoming) (hlimit : msgHeaderLen + limit < 2 ^ 31)
  {session : CTcpSession} {header area : List UInt8} (hheader : header.length = msgHeaderLen)
  (harea : area.length = limit) {dataLength : ℕ} {updated : Bool} {socket : σ}

include hnet hlimit hheader harea

/-- A frame at the front of the stream is taken. -/
theorem readMsgData_accepts (hpos : 0 < limit) (hframe : StartsWithFrame limit (incoming socket)) :
    ∃ c, readMsgData net ⟨session, laidOut header area dataLength updated false, socket⟩ =
        .ok (true, c) ∧
      Allocated limit c.msgData ∧ Takes incoming limit (incoming socket) c := by
  subst harea
  obtain ⟨arrived, body, rest, hframe, hstream⟩ := hframe
  have hroom := hframe.lt_limit
  obtain ⟨after, hafter, hread⟩ := readMsgData_frame session updated hnet.fills hheader (by omega)
    dataLength hframe.announces hframe.pos hroom (by omega) hstream
  have hlength : (body ++ List.replicate (area.length - body.length) (0 : UInt8)).length =
      area.length := by
    rw [List.length_append, List.length_replicate, Nat.add_sub_of_le hroom.le]
  have hallocated := allocated_laidOut hframe.announces.length (hlength.symm ▸ hpos)
    (by omega) (msgHeaderLen + body.length) true
  rw [hlength] at hallocated
  refine ⟨_, hread, hallocated, arrived, body, rest, hframe, hstream, hafter, ?_, rfl⟩
  rw [getBodyLength_laidOut]
  exact toInt_of_lt (by omega)

/-- A stream that does not start with a frame is refused. -/
theorem readMsgData_refuses (hpos : 0 < limit)
    (hframe : ¬StartsWithFrame limit (incoming socket)) :
    ∃ c, readMsgData net ⟨session, laidOut header area dataLength updated false, socket⟩ =
        .ok (false, c) ∧ Allocated limit c.msgData := by
  have hguarded : ∀ {header area : List UInt8} {length : ℕ}, header.length = msgHeaderLen →
      area.length = limit → length ≤ msgHeaderLen + limit →
      Guarded (fun _ ↦ False) limit false (laidOut header area length updated false) := by
    intro header area length hheader harea hlength
    have hallocated := allocated_laidOut hheader (harea.symm ▸ hpos) (by omega) length updated
    rw [harea] at hallocated
    refine hallocated.guarded (.inr ⟨by omega, ?_⟩)
    rwa [blockSize, toUnsigned_of_lt (by omega)]
  rw [readMsgData_forgets net session rfl socket]
  change ∃ c, readMsgData net ⟨session, laidOut header area 0 updated false, socket⟩ = _ ∧ _
  rcases lt_or_ge (incoming socket).length msgHeaderLen with hshort | hlong
  · obtain ⟨c, hread, hc⟩ := readMsgHeader_short hnet session
      (hguarded hheader harea (Nat.zero_le _)) hshort
    exact ⟨c, congrArg (· >>= _) hread, hc⟩
  · have harrived : ((incoming socket).take msgHeaderLen).length = msgHeaderLen :=
      List.length_take_of_le hlong
    have hstream := (List.take_append_drop msgHeaderLen (incoming socket)).symm
    have hzeros : (List.replicate area.length (0 : UInt8)).length = limit :=
      List.length_replicate.trans harea
    by_cases hannounces : ∃ n < limit, Announces ((incoming socket).take msgHeaderLen) n
    · obtain ⟨n, hn, hannounces⟩ := hannounces
      obtain ⟨middle, hmiddle, hread⟩ := readMsgHeader_frame session updated hnet.fills hheader
        (by omega) 0 hannounces (harea.symm ▸ hn) hstream
      have hmessage := hguarded harrived hzeros (Nat.add_le_add_left hn.le msgHeaderLen)
      rcases Nat.eq_zero_or_pos n with rfl | hnpos
      · exact ⟨_, readMsgData_of_readMsgHeader hread (readMsgBody_empty ..), hmessage.allocated⟩
      · have hrest : (incoming middle).length < n := by
          by_contra hlong
          rw [hmiddle] at hlong
          exact hframe (startsWithFrame_of_announces hannounces hnpos hn (not_lt.mp hlong))
        obtain ⟨c, hbody, hc⟩ := readMsgBody_short hnet (session.noteError .success) hmessage
          (by rwa [getBodyLength_laidOut, intToSize_toInt_of_lt (by omega)])
        exact ⟨c, readMsgData_of_readMsgHeader hread hbody, hc⟩
    · obtain ⟨middle, -, hread⟩ := readMsgHeader_arrived session updated hnet.fills hheader 0
        harrived hstream (decodeMsgHeader_laidOut_refused harrived
          (fun n hn hheader ↦ hannounces ⟨n, hzeros ▸ hn, hheader⟩) (by omega) _)
      exact ⟨_, readMsgData_of_readMsgHeader hread (readMsgBody_empty ..),
        (hguarded harrived hzeros (Nat.le_add_right ..)).allocated⟩

end Acceptance

/-- Assumes: a message allocated with room for `limit` bytes, in a block shorter than `2 ^ 31`
bytes, and any bytes that are followed by the end of the stream. A call of `readMsgData` returns
without an access outside the block, and the message stays allocated. It answers true exactly when
the stream starts with a frame, and then it takes the frame and no more. -/
theorem readMsgData_accepts_iff {net : Network σ} {incoming : σ → List UInt8}
    (hnet : EndsAfter net incoming) {limit : ℕ} (hlimit : msgHeaderLen + limit < 2 ^ 31)
    {c : Connection σ} (hd : Allocated limit c.msgData) :
    ∃ answer c', readMsgData net c = .ok (answer, c') ∧ Allocated limit c'.msgData ∧
      (answer = true ↔ StartsWithFrame limit (incoming c.socket)) ∧
      (answer = true → Takes incoming limit (incoming c.socket) c') := by
  obtain ⟨session, d, socket⟩ := c
  obtain ⟨header, area, hheader, harea, hlaidOut⟩ := hd.exists_laidOut (by omega)
  dsimp only at hlaidOut ⊢
  rw [hlaidOut]
  by_cases hframe : StartsWithFrame limit (incoming socket)
  · obtain ⟨c, hread, hc, htakes⟩ :=
      readMsgData_accepts hnet hlimit hheader harea hd.payload_pos hframe
    exact ⟨true, c, hread, hc, iff_of_true rfl hframe, fun _ ↦ htakes⟩
  · obtain ⟨c, hread, hc⟩ := readMsgData_refuses hnet hlimit hheader harea hd.payload_pos hframe
    exact ⟨false, c, hread, hc, iff_of_false Bool.false_ne_true hframe, nofun⟩

/-- The network on which the bytes of a list arrive. At the end of the list a read gets the bytes
that are left, and an error. -/
def finiteStream : Network (List UInt8) where
  read socket size :=
    if size ≤ socket.length then some ⟨socket.take size, .success, socket.drop size⟩
    else some ⟨socket, .failure [], []⟩
  write socket bytes := some ⟨bytes.length, .success, socket⟩
  send socket bytes := some ⟨bytes.length, .success, socket⟩
  read_le := by
    intro socket size received hread
    split_ifs at hread with hsize
    · obtain rfl := Option.some.inj hread
      exact List.length_take_le ..
    · obtain rfl := Option.some.inj hread
      exact (not_le.mp hsize).le

theorem endsAfter_finiteStream : EndsAfter finiteStream id where
  fills socket size hsize := ⟨socket.drop size, if_pos hsize, rfl⟩
  ends socket _ hsize := ⟨⟨socket, .failure [], []⟩, if_neg (not_le.mpr hsize), nofun⟩

/-- A frame with a body of two bytes, and one byte behind it. -/
theorem readMsgData_accepts_iff_two :
    ∃ c, readMsgData finiteStream ⟨⟨[], []⟩, newMessage 4,
        encoded (List.replicate 20 0) none 2 ++ ([7, 8] ++ [9])⟩ = .ok (true, c) ∧
      Takes id 4 (encoded (List.replicate 20 0) none 2 ++ ([7, 8] ++ [9])) c := by
  have hannounces : Announces (encoded (List.replicate 20 0) none 2) 2 :=
    announces_encoded rfl none (by decide)
  obtain ⟨answer, c, hread, -, haccepts, htakes⟩ := readMsgData_accepts_iff endsAfter_finiteStream
    (by decide) (c := ⟨⟨[], []⟩, newMessage 4,
      encoded (List.replicate 20 0) none 2 ++ ([7, 8] ++ [9])⟩)
    (allocated_newMessage (by decide) (by decide))
  have htrue : answer = true :=
    haccepts.mpr ⟨_, [7, 8], [9], ⟨hannounces, by decide, by decide⟩, rfl⟩
  subst htrue
  exact ⟨c, hread, htakes rfl⟩

end CTcpSession

end RdbLibs.NetIO
