import RdbLibs.NetIO.AllocatedMessage

/-!
# The round trip of a header

A body is set in a message, the header is encoded, and the block is copied to a second message of
the same size, which decodes the header. `setMsgData` takes a body that fills the area, and
`decodeMsgHeader` refuses a length that is not below the size of the area. So the body length comes
back exactly when the body leaves a byte of the area free, and is an `int`
(`header_round_trip_iff`).
-/

set_option autoImplicit false
set_option relaxedAutoImplicit false

namespace RdbLibs.NetIO.HeaderRoundTrip

open MachineWord CheckedMemory CNetMessageData NetworkDataHeaderInfo

/-- The second message, after the bytes of the block of the first were copied to its own. -/
def copyBlock (source target : CNetMessageData) : CNetMessageData :=
  { target with m_pData := source.m_pData }

/-- The length of the body of `message` is encoded in the header, is in the copy of the block, and
is decoded there. -/
def RoundTrips (message second : CNetMessageData) (sType : List UInt8) (bodyLength : ℕ) : Prop :=
  ∃ encoded decoded, message.encodeMsgHeader sType = .ok (true, encoded) ∧
    (copyBlock encoded second).decodeMsgHeader sType = .ok (true, decoded) ∧
    decoded.getBodyLength = bodyLength

theorem copyBlock_laidOut {header area header' area' : List UInt8}
    (harea : area'.length = area.length)
    (length length' : ℕ) (updated updated' locked locked' : Bool) :
    copyBlock (laidOut header area length updated locked)
        (laidOut header' area' length' updated' locked') =
      laidOut header area length' updated' locked' := by
  unfold copyBlock laidOut
  rw [harea]

/-- Assumes: a message that is laid out, whose length is that of a body in its area. -/
theorem roundTrips_laidOut_iff {header area : List UInt8} (hheader : header.length = msgHeaderLen)
    (hfits : msgHeaderLen + area.length < 2 ^ 32) (updated : Bool) {second : CNetMessageData}
    (hsecond : Allocated area.length second) (sType : List UInt8) {n : ℕ} (hn : n ≤ area.length) :
    RoundTrips (laidOut header area (msgHeaderLen + n) updated false) second sType n ↔
      n < area.length ∧ n < 2 ^ 31 := by
  obtain ⟨header', area', hheader', harea', hlaidOut⟩ := hsecond.exists_laidOut hfits
  have hannounces : Announces (encoded header (some sType) n) n :=
    announces_encoded hheader _ (by omega)
  have hencode : (laidOut header area (msgHeaderLen + n) updated false).encodeMsgHeader sType =
      .ok (true, laidOut (encoded header (some sType) n) area (msgHeaderLen + n) updated false) :=
    encodeMsgHeader_laidOut hheader (by omega) sType
  have hcopy : copyBlock (laidOut (encoded header (some sType) n) area (msgHeaderLen + n) updated
      false) second =
        laidOut (encoded header (some sType) n) area second.m_nDataLength second.m_bUpdated
          false := by
    rw [hlaidOut]
    exact copyBlock_laidOut harea' ..
  constructor
  · rintro ⟨message, decoded, hmessage, hdecoded, hlength⟩
    obtain rfl := (Prod.mk.inj (Except.ok.inj (hencode.symm.trans hmessage))).2
    rw [hcopy] at hdecoded
    have hroom : n < area.length := by
      by_contra hfull
      have hother : ∀ m < area.length, ¬Announces (encoded header (some sType) n) m :=
        fun m hm hother ↦ hfull (hannounces.unique hother ▸ hm)
      rw [decodeMsgHeader_laidOut_refused hannounces.length hother hfits] at hdecoded
      cases hdecoded
    rw [decodeMsgHeader_laidOut hannounces hroom hfits] at hdecoded
    obtain rfl := (Prod.mk.inj (Except.ok.inj hdecoded)).2
    rw [getBodyLength_laidOut] at hlength
    exact ⟨hroom, (toInt_eq_self_iff (by omega)).mp hlength⟩
  · rintro ⟨hroom, hint⟩
    have hdecode := hcopy ▸ decodeMsgHeader_laidOut hannounces hroom hfits sType
    refine ⟨_, _, hencode, hdecode, ?_⟩
    rw [getBodyLength_laidOut]
    exact toInt_of_lt hint

/-- Assumes: two messages that were allocated with room for `payload` bytes, and a body that the
first has taken. Its length comes back from the second exactly when the body is shorter than
`payload` and its length is an `int`. -/
theorem header_round_trip_iff {payload : ℕ} {first second message : CNetMessageData}
    (hfirst : Allocated payload first) (hsecond : Allocated payload second) {body : List UInt8}
    (hset : first.setMsgData (some body) body.length = .ok (true, message)) (sType : List UInt8) :
    RoundTrips message second sType body.length ↔ body.length < payload ∧ body.length < 2 ^ 31 := by
  obtain ⟨-, hfits, header, rest, hheader, hsize, rfl⟩ := hfirst.exists_laidOut_of_setMsgData hset
  have hlength : (body ++ rest).length = payload := List.length_append.trans hsize
  subst hlength
  exact roundTrips_laidOut_iff hheader hfits true hsecond sType (by omega)

/-- A body of two bytes in an area of three. -/
theorem header_round_trip_iff_two :
    ∃ message, (newMessage 3).setMsgData (some [7, 8]) 2 = .ok (true, message) ∧
      RoundTrips message (newMessage 3) [68] 2 := by
  have hnew : Allocated 3 (newMessage 3) := allocated_newMessage (by decide) (by decide)
  refine ⟨_, setMsgData_laidOut List.length_replicate (by decide) (by decide) (by decide), ?_⟩
  exact (header_round_trip_iff hnew hnew (setMsgData_laidOut List.length_replicate (by decide)
    (by decide) (by decide)) [68]).mpr ⟨by decide, by decide⟩

/-- A body of two bytes in an area of two. It is not longer than `getMaxDataLen` says and is taken
by `setMsgData`, but its length does not come back. -/
theorem full_body_is_refused :
    ∃ message, (newMessage 2).setMsgData (some [7, 8]) 2 = .ok (true, message) ∧
      (2 : ℤ) ≤ (newMessage 2).getMaxDataLen ∧
      ¬RoundTrips message (newMessage 2) [68] 2 := by
  have hnew : Allocated 2 (newMessage 2) := allocated_newMessage (by decide) (by decide)
  refine ⟨_, setMsgData_laidOut List.length_replicate (by decide) (by decide) (by decide), ?_, ?_⟩
  · rw [newMessage, getMaxDataLen_laidOut]
    decide
  · intro hround
    change Allocated ([7, 8] ++ (List.replicate 2 (0 : UInt8)).drop 2).length _ at hnew
    have hroom := (roundTrips_laidOut_iff List.length_replicate (by decide) true hnew [68]
      (by decide)).mp hround
    exact absurd hroom.1 (by decide)

end RdbLibs.NetIO.HeaderRoundTrip
