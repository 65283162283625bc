import RdbLibs.NetIO.CTcpServer.OutputMessage

/-!
# The delivery of output

One application thread gives messages to the server, each with `writeOutputData` and then
`sendOutput`. After it has sent a message, the session clears the flag twice. A message whose length
is set after the session has read the length of the one before, and whose flag is set before the
session clears the flag for the last time, is lost: the session has sent the one before, and then
finds no flag (`second_message_is_lost`).

In a run without such a message (`Timely`), the last message that was given to the server is the
last on the wire, whenever the flag is clear and both threads are between operations
(`output_delivered`).
-/

set_option autoImplicit false
set_option relaxedAutoImplicit false

namespace RdbLibs.NetIO.CTcpServer

open MachineWord CheckedMemory CNetMessageData NetworkDataHeaderInfo Runs

/-! ### What is watched -/

/-- What is noted of the calls of a run: the last message that was given to the server, and whether
the length of the message in progress was set after the session has read a length. -/
structure Watch where
  last : Option (List UInt8)
  late : Bool

/-- The session has read a length, and has not yet cleared the flag for the last time. -/
def SessionPhase.sending : SessionPhase → Bool
  | .isBufferAllocated _ => true
  | .encodeHeader _ => true
  | .transfer _ => true
  | .setUpdated => true
  | .setUpdatedAgain => true
  | _ => false

/-- What is noted of a call. The thread that is watched is thread 0. -/
def Watch.note (w : Watch) (call : Call Output Event Unit) : Watch :=
  match call.label, call.before.apps 0, call.before.session with
  | .write _ _, .writing _ .setBodyLength, phase => { w with late := phase.sending }
  | .sendOutput _, .written message, _ => { w with last := some message }
  | .session, _, .getCurDataLen => { w with late := false }
  | _, _, _ => w

/-- The calls of one application thread, which gives each message with `writeOutputData` and then
`sendOutput`. -/
def OneApplication (call : Call Output Event Unit) : Prop :=
  match call.label with
  | .call thread message => thread = 0 ∧ (call.before.apps 0 = .idle ∨ message = [])
  | .write thread _ => thread = 0
  | .sendOutput thread => thread = 0
  | .session => True

/-- The flag is not set, between the reading of the length and the last clearing of the flag by the
session, for a message whose length was set in between. -/
def Timely (w : Watch) (call : Call Output Event Unit) : Prop :=
  match call.label with
  | .sendOutput _ => w.late = false ∨ call.before.session.sending = false
  | _ => True

/-- The message is the last on the wire. -/
def Delivered (o : Output) (message : List UInt8) : Prop :=
  ∃ frame, FrameOf message frame ∧ o.wire.getLast? = some frame

/-- With the flag clear and both threads between operations, the last message that was given to the
server was put on the wire. -/
def NothingLost (o : Output) (w : Watch) : Prop :=
  o.m_outputMsg.isUpdated = false → o.session = .isUpdated → o.apps 0 = .idle →
    ∀ message, w.last = some message → Delivered o message

/-! ### The invariant -/

/-- The message that the server has from the application, with or without the flag. -/
def Current (o : Output) (w : Watch) (message : List UInt8) : Prop :=
  o.apps 0 = .written message ∨ o.apps 0 = .idle ∧ w.last = some message

/-- What the session has prepared is the frame of the message, as far as it has come. -/
def Prepared (o : Output) (message : List UInt8) : Prop :=
  match o.session with
  | .isBufferAllocated nLen => nLen = toInt (msgHeaderLen + message.length) ∧ 0 < nLen
  | .encodeHeader nLen => nLen = toInt (msgHeaderLen + message.length) ∧ 0 < nLen
  | .transfer nLen => (nLen = toInt (msgHeaderLen + message.length) ∧ 0 < nLen) ∧
      ∃ header, Announces header message.length ∧ InBlock header message o.m_outputMsg
  | .setUpdated => Delivered o message
  | .setUpdatedAgain => Delivered o message
  | _ => True

/-- The invariant. What the session prepares is the frame of the current message, unless its length
was set too late. -/
structure Delivering (o : Output) (w : Watch) : Prop where
  usable : Usable o.m_outputMsg
  copied : ∀ message, o.apps 0 = .writing message .setBodyLength → Copied message o.m_outputMsg
  complete : ∀ message, Current o w message → Complete message o.m_outputMsg
  prepared : ∀ message, Current o w message → w.late = false → Prepared o message
  pending : ∀ message, o.apps 0 = .idle → w.last = some message → o.session.sending = false →
    o.session = .ended ∨ o.m_outputMsg.isUpdated = true ∨ Delivered o message
  timely : o.apps 0 = .idle → o.session.sending = true → w.late = false

variable {sType : List UInt8} {o o' : Output} {w : Watch}

/-- While the application is in `writeOutputData`, there is no current message. -/
theorem Delivering.of_writing {d : CNetMessageData} (hd : Usable d) {message : List UInt8}
    {phase : WritePhase} (hcopied : phase = .setBodyLength → Copied message d) :
    Delivering (o.move 0 d (.writing message phase)) w where
  usable := hd
  copied := by
    intro message' hphase
    rw [o.apps_move] at hphase
    obtain ⟨rfl, rfl⟩ := AppPhase.writing.inj hphase
    exact hcopied rfl
  complete := by
    intro message' hcurrent
    rw [Current, o.apps_move] at hcurrent
    rcases hcurrent with hwritten | ⟨hidle, -⟩
    · cases hwritten
    · cases hidle
  prepared := by
    intro message' hcurrent
    rw [Current, o.apps_move] at hcurrent
    rcases hcurrent with hwritten | ⟨hidle, -⟩
    · cases hwritten
    · cases hidle
  pending := by
    intro message' hidle
    rw [o.apps_move] at hidle
    cases hidle
  timely := by
    intro hidle
    rw [o.apps_move] at hidle
    cases hidle

/-- Outside the sending of the session, nothing is prepared. -/
theorem prepared_of_not_sending {message : List UInt8} (h : o.session.sending = false) :
    Prepared o message := by
  unfold Prepared
  cases hsession : o.session <;> rw [hsession] at h <;> trivial

/-- A complete message has a buffer, so its header is encoded next. -/
theorem Prepared.isBufferAllocated {message : List UInt8} {nLen : ℤ} (h : Prepared o message)
    (hsession : o.session = .isBufferAllocated nLen) (hcomplete : Complete message o.m_outputMsg)
    (hstep : sessionStep sType o = .ok o') :
    o' = { o with session := .encodeHeader nLen } ∧ Prepared o' message := by
  rw [Prepared, hsession] at h
  unfold sessionStep at hstep
  rw [hsession] at hstep
  dsimp only at hstep
  rw [if_neg (by rw [hcomplete.copied.isBufferAllocated]; exact Bool.noConfusion)] at hstep
  obtain rfl := Except.ok.inj hstep
  exact ⟨rfl, h⟩

/-- The header that is encoded announces the message. -/
theorem Prepared.encodeHeader {message : List UInt8} {nLen : ℤ} (h : Prepared o message)
    (hsession : o.session = .encodeHeader nLen) (husable : Usable o.m_outputMsg)
    (hcomplete : Complete message o.m_outputMsg) {d : CNetMessageData}
    (hencode : CTcpServer.encodeHeader o.m_outputMsg sType = .ok d) :
    Complete message d ∧
      Prepared { o with m_outputMsg := d, session := .transfer nLen } message := by
  rw [Prepared, hsession] at h
  exact ⟨(hcomplete.encodeHeader husable hencode).1, h, (hcomplete.encodeHeader husable hencode).2⟩

/-- The frame of the message is put on the wire. -/
theorem Prepared.transfer {message : List UInt8} {nLen : ℤ} (h : Prepared o message)
    (hsession : o.session = .transfer nLen) (husable : Usable o.m_outputMsg)
    (hstep : sessionStep sType o = .ok o') :
    ∃ frame, FrameOf message frame ∧
      o' = { o with session := .setUpdated, wire := o.wire ++ [frame] } := by
  rw [Prepared, hsession] at h
  obtain ⟨⟨hlength, hpos⟩, header, hannounces, hblock⟩ := h
  exact ⟨_, ⟨header, hannounces, rfl⟩, transfer_frame hsession husable hblock hlength hpos hstep⟩

/-- The last step of `writeOutputData` makes the message current. -/
theorem Delivering.setBodyLength (h : Delivering o w) {message : List UInt8}
    (hphase : o.apps 0 = .writing message .setBodyLength) :
    Delivering (o.move 0 (o.m_outputMsg.setBodyLength message.length) (.written message))
      { w with late := o.session.sending } where
  usable := h.usable.setBodyLength _
  copied := by
    intro message' hwriting
    rw [o.apps_move] at hwriting
    cases hwriting
  complete := by
    intro message' hcurrent
    rw [Current, o.apps_move] at hcurrent
    rcases hcurrent with hwritten | ⟨hidle, -⟩
    · obtain rfl := AppPhase.written.inj hwritten
      exact (h.copied message hphase).complete h.usable
    · cases hidle
  prepared := fun message' _ hlate ↦ prepared_of_not_sending hlate
  pending := by
    intro message' hidle
    rw [o.apps_move] at hidle
    cases hidle
  timely := by
    intro hidle
    rw [o.apps_move] at hidle
    cases hidle

/-- A step of `writeOutputData`. -/
theorem Delivering.write (h : Delivering o w) {message : List UInt8} {phase : WritePhase}
    (hphase : o.apps 0 = .writing message phase) {granted : Bool} {d : CNetMessageData}
    {next : AppPhase} (hstep : phase.step o.m_outputMsg message granted = .ok (d, next)) :
    Delivering (o.move 0 d next) (w.note ⟨o, .write 0 granted, ()⟩) := by
  unfold Watch.note
  dsimp only
  rw [hphase]
  cases WritePhase.effect h.usable hstep with
  | test hphase hnext =>
    rcases hphase with rfl | rfl
    · exact .of_writing h.usable fun hset ↦ absurd hset hnext
    · exact .of_writing h.usable fun hset ↦ absurd hset hnext
  | allocate hphase hd hnext =>
    rcases hphase with rfl | rfl
    · exact .of_writing hd fun hset ↦ absurd hset hnext
    · exact .of_writing hd fun hset ↦ absurd hset hnext
  | copy hd hcopied => exact .of_writing hd fun _ ↦ hcopied
  | setLength => exact h.setBodyLength hphase

/-- The flag is set in time for a message that the session sends, or has not begun to send. -/
theorem Delivering.sendOutput (h : Delivering o w) (hbetween : (o.apps 0).BetweenCalls)
    (htimely : Timely w ⟨o, .sendOutput 0, ()⟩) :
    Delivering (o.move 0 (CTcpServer.sendOutput o.m_outputMsg).2 .idle)
      (w.note ⟨o, .sendOutput 0, ()⟩) := by
  have hlate : (w.note ⟨o, .sendOutput 0, ()⟩).late = w.late := by
    unfold Watch.note
    dsimp only
    cases o.apps 0 <;> rfl
  have hcurrent : ∀ message, (w.note ⟨o, .sendOutput 0, ()⟩).last = some message →
      Current o w message := by
    intro message hlast
    unfold Watch.note at hlast
    dsimp only at hlast
    cases hphase : o.apps 0 with
    | idle =>
      rw [hphase] at hlast
      exact .inr ⟨hphase, hlast⟩
    | writing message' phase =>
      rw [hphase] at hbetween
      exact hbetween.elim
    | written message' =>
      rw [hphase] at hlast
      obtain rfl := Option.some.inj hlast
      exact .inl hphase
  have hidle := o.apps_move 0 (CTcpServer.sendOutput o.m_outputMsg).2 .idle
  have hlast : ∀ message, Current (o.move 0 (CTcpServer.sendOutput o.m_outputMsg).2 .idle)
      (w.note ⟨o, .sendOutput 0, ()⟩) message → Current o w message := by
    rintro message (hwritten | ⟨-, hlast⟩)
    · cases hidle.symm.trans hwritten
    · exact hcurrent message hlast
  constructor
  · exact h.usable.setUpdated true
  · intro message hwriting
    cases hidle.symm.trans hwriting
  · intro message hmessage
    exact (h.complete message (hlast message hmessage)).setUpdated true
  · intro message hmessage htime
    exact h.prepared message (hlast message hmessage) (hlate.symm.trans htime)
  · intro message _ _ _
    exact .inr (.inl rfl)
  · intro _ hsending
    rcases htimely with htime | hquiet
    · exact hlate.trans htime
    · cases hquiet.symm.trans hsending

/-- A step of the session that leaves the message, the wire and what is noted. -/
theorem Delivering.move_session (h : Delivering o w) {next : SessionPhase}
    (hprepared : ∀ message, Current o w message → w.late = false →
      Prepared { o with session := next } message)
    (hpending : ∀ message, o.apps 0 = .idle → w.last = some message → next.sending = false →
      next = .ended ∨ o.m_outputMsg.isUpdated = true ∨ Delivered o message)
    (htimely : o.apps 0 = .idle → next.sending = true → w.late = false) :
    Delivering { o with session := next } w :=
  ⟨h.usable, h.copied, h.complete, hprepared, hpending, htimely⟩

/-- When the session reads the length, nothing is late. -/
theorem Delivering.read_length (h : Delivering o w) (hsession : o.session = .getCurDataLen) :
    Delivering o { w with late := false } :=
  ⟨h.usable, h.copied, h.complete, fun _ _ _ ↦ prepared_of_not_sending (by rw [hsession]; rfl),
    h.pending, fun _ _ ↦ rfl⟩

/-- The header of a message is encoded. -/
theorem Delivering.encodeHeader (h : Delivering o w) {nLen : ℤ}
    (hsession : o.session = .encodeHeader nLen) {d : CNetMessageData}
    (hencode : CTcpServer.encodeHeader o.m_outputMsg sType = .ok d) :
    Delivering { o with m_outputMsg := d, session := .transfer nLen } w where
  usable := (h.usable.encodeHeader hencode).1
  copied := by
    intro message hwriting
    obtain ⟨header, -, hblock⟩ := (h.copied message hwriting).encodeHeader h.usable hencode
    exact ⟨header, hblock⟩
  complete := fun message hcurrent ↦
    ((h.complete message hcurrent).encodeHeader h.usable hencode).1
  prepared := fun message hcurrent hlate ↦
    ((h.prepared message hcurrent hlate).encodeHeader hsession h.usable
      (h.complete message hcurrent) hencode).2
  pending := fun _ _ _ hquiet ↦ nomatch hquiet
  timely := by
    have htimely := h.timely
    rw [hsession] at htimely
    exact htimely

/-- The bytes of a message are put on the wire, or the session ends. -/
theorem Delivering.transfer (h : Delivering o w) {nLen : ℤ}
    (hsession : o.session = .transfer nLen) (hstep : sessionStep sType o = .ok o') :
    Delivering o' w := by
  have htimely := h.timely
  rw [hsession] at htimely
  rcases transfer_cases hsession h.usable hstep with ⟨-, rfl⟩ | ⟨cells, bytes, -, -, rfl⟩
  · exact h.move_session (fun _ _ _ ↦ trivial) (fun _ _ _ _ ↦ .inl rfl)
      fun _ hsending ↦ nomatch hsending
  · refine ⟨h.usable, h.copied, h.complete, fun message hcurrent hlate ↦ ?_,
      fun _ _ _ hquiet ↦ (nomatch hquiet), htimely⟩
    obtain ⟨frame, hframe, ho'⟩ :=
      (h.prepared message hcurrent hlate).transfer hsession h.usable hstep
    have hwire := congrArg Output.wire ho'
    exact ⟨frame, hframe, hwire ▸ List.getLast?_concat ..⟩

/-- A step of the session. -/
theorem Delivering.session (h : Delivering o w) (hstep : sessionStep sType o = .ok o') :
    Delivering o' (w.note ⟨o, .session, ()⟩) := by
  unfold Watch.note
  dsimp only
  have htimely := h.timely
  cases sessionMove hstep with
  | waits hsession =>
    rw [hsession]
    exact h
  | starts hsession hflag =>
    rw [hsession]
    exact h.move_session (fun _ _ _ ↦ trivial) (fun _ _ _ _ ↦ .inr (.inl hflag))
      fun _ hsending ↦ nomatch hsending
  | givesUp hsession =>
    rw [hsession]
    exact (h.read_length hsession).move_session (fun _ _ _ ↦ trivial) (fun _ _ _ _ ↦ .inl rfl)
      fun _ _ ↦ rfl
  | readsLength hsession hpos =>
    rw [hsession]
    refine (h.read_length hsession).move_session (fun message hcurrent _ ↦ ?_)
      (fun _ _ _ hquiet ↦ nomatch hquiet) fun _ _ ↦ rfl
    exact ⟨(h.complete message hcurrent).getCurDataLen_eq, hpos⟩
  | testsBuffer hsession hnext =>
    rw [hsession] at htimely ⊢
    have hprepared : ∀ message, Current o w message → w.late = false → Prepared _ message :=
      fun message hcurrent hlate ↦ ((h.prepared message hcurrent hlate).isBufferAllocated hsession
        (h.complete message hcurrent) hstep).2
    rcases hnext with rfl | rfl
    · exact h.move_session hprepared (fun _ _ _ hquiet ↦ nomatch hquiet) htimely
    · exact h.move_session hprepared (fun _ _ _ hquiet ↦ nomatch hquiet) htimely
  | encodes hsession hencode =>
    rw [hsession]
    exact h.encodeHeader hsession hencode
  | transfers hsession =>
    rw [hsession]
    exact h.transfer hsession hstep
  | clears hsession =>
    rw [hsession] at htimely ⊢
    refine ⟨h.usable.setUpdated false, h.copied,
      fun message hcurrent ↦ (h.complete message hcurrent).setUpdated false,
      fun message hcurrent hlate ↦ ?_, fun _ _ _ hquiet ↦ (nomatch hquiet), htimely⟩
    have hprepared := h.prepared message hcurrent hlate
    rwa [Prepared, hsession] at hprepared
  | clearsAgain hsession =>
    rw [hsession] at htimely ⊢
    refine ⟨h.usable.setUpdated false, h.copied,
      fun message hcurrent ↦ (h.complete message hcurrent).setUpdated false,
      fun _ _ _ ↦ trivial, fun message hidle hlast _ ↦ .inr (.inr ?_),
      fun _ hsending ↦ nomatch hsending⟩
    have hprepared := h.prepared message (.inr ⟨hidle, hlast⟩) (htimely hidle rfl)
    rwa [Prepared, hsession] at hprepared
  | rests hsession =>
    rw [hsession]
    exact h

/-- What one step preserves. -/
theorem Delivering.step {event : Event} (h : Delivering o w)
    (hone : OneApplication ⟨o, event, ()⟩) (htimely : Timely w ⟨o, event, ()⟩)
    (hstep : Step sType o event () o') : Delivering o' (w.note ⟨o, event, ()⟩) := by
  cases hstep with
  | call hbetween hpos hlength =>
    obtain ⟨rfl, hidle⟩ := hone
    exact .of_writing h.usable nofun
  | refusedCall hbetween => exact h
  | write hphase hstep =>
    obtain rfl : _ = 0 := hone
    exact h.write hphase hstep
  | sendOutput hbetween =>
    obtain rfl : _ = 0 := hone
    exact h.sendOutput hbetween htimely
  | session hstep => exact h.session hstep

/-! ### Runs -/

/-- What is noted before the first call. -/
def Watch.start : Watch := ⟨none, false⟩

theorem Ready.delivering (h : Ready o) : Delivering o Watch.start := by
  obtain ⟨payload, hallocated⟩ := h.allocated
  refine ⟨usable_of_allocated hallocated, fun message hwriting ↦ ?_, ?_, fun _ _ _ ↦ ?_,
    fun _ _ hlast ↦ (nomatch hlast), fun _ _ ↦ rfl⟩
  · cases (h.apps 0).symm.trans hwriting
  · rintro message (hwritten | ⟨-, hlast⟩)
    · cases (h.apps 0).symm.trans hwritten
    · cases hlast
  · exact prepared_of_not_sending (by rw [h.session]; rfl)

/-- Assumes: a run of the session and of one application, from a server whose threads have not
started, in which no flag is set too early. Whenever the flag is clear and both threads are between
operations, the last message that was given to the server is the last on the wire. -/
theorem output_delivered {start final : Output} {trace : List (Call Output Event Unit)}
    (hrun : Run (Step sType) start trace final) (hready : Ready start)
    (hone : ∀ call ∈ trace, OneApplication call)
    (htimely : Obeys Watch.note Timely Watch.start trace) :
    NothingLost final (trace.foldl Watch.note Watch.start) := by
  have hfinal : Delivering final (trace.foldl Watch.note Watch.start) :=
    hrun.invariant_noted Delivering
      (fun _ _ _ _ _ hrule h hstep ↦ h.step hrule.1 hrule.2 hstep) Watch.start
      (htimely.and _ hone) hready.delivering
  intro hflag hsession hidle message hlast
  rcases hfinal.pending message hidle hlast (by rw [hsession]; rfl) with hended | hset | hdelivered
  · cases hended.symm.trans hsession
  · cases hset.symm.trans hflag
  · exact hdelivered

/-- The steps of the thread that gives a message to a server with room for it. -/
def giving (message : List UInt8) : List Event :=
  [.call 0 message, .write 0 true, .write 0 true, .write 0 true, .write 0 true, .sendOutput 0]

/-- A step of `writeOutputData`, of a run that is given one step at a time. -/
theorem Run.exists_write {P : List (Call Output Event Unit) → Output → Prop} {message : List UInt8}
    {phase : WritePhase} {d : CNetMessageData} {next : AppPhase}
    (hphase : o.apps 0 = .writing message phase)
    (hstep : phase.step o.m_outputMsg message true = .ok (d, next))
    (hrest : ∃ trace final, Run (Step sType) (o.move 0 d next) trace final ∧
      P (⟨o, .write 0 true, ()⟩ :: trace) final) :
    ∃ trace final, Run (Step sType) o trace final ∧ P trace final :=
  Run.exists_cons _ (.write hphase hstep) hrest

/-- A step of the session thread, of a run that is given one step at a time. -/
theorem Run.exists_session {P : List (Call Output Event Unit) → Output → Prop}
    (hstep : sessionStep sType o = .ok o')
    (hrest : ∃ trace final, Run (Step sType) o' trace final ∧
      P (⟨o, .session, ()⟩ :: trace) final) :
    ∃ trace final, Run (Step sType) o trace final ∧ P trace final :=
  Run.exists_cons _ (.session hstep) hrest

/-- The steps of a session that sends a message and waits for the next. -/
def sending : List Event := List.replicate 7 .session

/-- Two messages, of which the second is given when the session has sent the first. -/
theorem output_delivered_two :
    ∃ trace final, Run (Step []) (newServer 2) trace final ∧
      trace.map Call.label = giving [7] ++ sending ++ giving [8, 9] ++ sending ∧
      Delivered final [8, 9] := by
  have hrun : ∃ trace final, Run (Step []) (newServer 2) trace final ∧
      trace.map Call.label = giving [7] ++ sending ++ giving [8, 9] ++ sending ∧
      (∀ call ∈ trace, OneApplication call) ∧ Obeys Watch.note Timely Watch.start trace ∧
      final.m_outputMsg.isUpdated = false ∧ final.session = .isUpdated ∧ final.apps 0 = .idle ∧
      (trace.foldl Watch.note Watch.start).last = some [8, 9] := by
    refine Run.exists_cons (.call 0 [7]) (.call trivial (by decide) (by decide)) ?_
    refine Run.exists_write rfl rfl <| Run.exists_write rfl rfl <| Run.exists_write rfl rfl <|
      Run.exists_write rfl rfl ?_
    refine Run.exists_cons (.sendOutput 0) (.sendOutput trivial) ?_
    refine Run.exists_session rfl <| Run.exists_session rfl <| Run.exists_session rfl <|
      Run.exists_session rfl <| Run.exists_session rfl <| Run.exists_session rfl <|
      Run.exists_session rfl ?_
    refine Run.exists_cons (.call 0 [8, 9]) (.call trivial (by decide) (by decide)) ?_
    refine Run.exists_write rfl rfl <| Run.exists_write rfl rfl <| Run.exists_write rfl rfl <|
      Run.exists_write rfl rfl ?_
    refine Run.exists_cons (.sendOutput 0) (.sendOutput trivial) ?_
    refine Run.exists_session rfl <| Run.exists_session rfl <| Run.exists_session rfl <|
      Run.exists_session rfl <| Run.exists_session rfl <| Run.exists_session rfl <|
      Run.exists_session rfl ?_
    refine ⟨_, _, .nil _, rfl, ?_, ⟨trivial, trivial, trivial, trivial, trivial, .inl rfl, trivial,
      trivial, trivial, trivial, trivial, trivial, trivial, trivial, trivial, trivial, trivial,
      trivial, .inl rfl, trivial, trivial, trivial, trivial, trivial, trivial, trivial, trivial⟩,
      rfl, rfl, rfl, rfl⟩
    simp only [List.forall_mem_cons]
    exact ⟨⟨rfl, .inl rfl⟩, rfl, rfl, rfl, rfl, rfl, trivial, trivial, trivial, trivial, trivial,
      trivial, trivial, ⟨rfl, .inl rfl⟩, rfl, rfl, rfl, rfl, rfl, trivial, trivial, trivial,
      trivial, trivial, trivial, trivial, nofun⟩
  obtain ⟨trace, final, hrun, hlabels, hone, htimely, hflag, hsession, hidle, hlast⟩ := hrun
  have hready : Ready (newServer 2) := ready_newServer (by decide) (by decide)
  exact ⟨trace, final, hrun, hlabels,
    output_delivered hrun hready hone htimely hflag hsession hidle [8, 9] hlast⟩

/-- The flag of the second message is set while the session clears the one of the first. -/
theorem second_message_is_lost :
    ∃ trace final, Run (Step []) (newServer 2) trace final ∧
      trace.map Call.label = giving [7] ++ [.session, .session, .session, .session, .session] ++
        giving [8] ++ [.session, .session] ∧
      (∀ call ∈ trace, OneApplication call) ∧
      final.m_outputMsg.isUpdated = false ∧ final.session = .isUpdated ∧ final.apps 0 = .idle ∧
      (trace.foldl Watch.note Watch.start).last = some [8] ∧
      ∀ frame ∈ final.wire, ¬FrameOf [8] frame := by
  refine Run.exists_cons (.call 0 [7]) (.call trivial (by decide) (by decide)) ?_
  refine Run.exists_write rfl rfl <| Run.exists_write rfl rfl <| Run.exists_write rfl rfl <|
    Run.exists_write rfl rfl ?_
  refine Run.exists_cons (.sendOutput 0) (.sendOutput trivial) ?_
  refine Run.exists_session rfl <| Run.exists_session rfl <| Run.exists_session rfl <|
    Run.exists_session rfl <| Run.exists_session rfl ?_
  refine Run.exists_cons (.call 0 [8]) (.call trivial (by decide) (by decide)) ?_
  refine Run.exists_write rfl rfl <| Run.exists_write rfl rfl <| Run.exists_write rfl rfl <|
    Run.exists_write rfl rfl ?_
  refine Run.exists_cons (.sendOutput 0) (.sendOutput trivial) ?_
  refine Run.exists_session rfl <| Run.exists_session rfl ?_
  refine ⟨_, _, .nil _, rfl, ?_, rfl, rfl, rfl, rfl, fun frame hframe ⟨header, _, hmessage⟩ ↦ ?_⟩
  · simp only [List.forall_mem_cons]
    exact ⟨⟨rfl, .inl rfl⟩, rfl, rfl, rfl, rfl, rfl, trivial, trivial, trivial, trivial, trivial,
      ⟨rfl, .inl rfl⟩, rfl, rfl, rfl, rfl, rfl, trivial, trivial, nofun⟩
  · have hsent : frame.getLast? = some 7 := congrArg List.getLast? (List.mem_singleton.mp hframe)
    rw [hmessage, List.getLast?_concat] at hsent
    exact absurd hsent (by decide)

end RdbLibs.NetIO.CTcpServer
