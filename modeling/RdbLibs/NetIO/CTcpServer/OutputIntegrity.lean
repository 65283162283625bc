import RdbLibs.NetIO.CTcpServer.OutputDelivery

/-!
# The integrity of output

Any number of application threads write to one message while the session sends it. A frame is torn
when the session reads the length of one message and the header or the body of another, or the
length between the copying of a body and the setting of its length (`frame_is_torn`).

In a run in which the session reads only a message whose writer has finished, and in which nobody
writes between its reading of the length and the transfer (`Exclusive`), every frame on the wire is
the frame of one message that was given to `writeOutputData` (`frames_are_messages`).
-/

set_option autoImplicit false
set_option relaxedAutoImplicit false

namespace RdbLibs.NetIO.CTcpServer

open MachineWord CheckedMemory CNetMessageData NetworkDataHeaderInfo Runs

/-! ### What is watched -/

/-- Where the shared message comes from: the thread that has copied to it, unless a buffer was
allocated since then, the message that this thread has settled with its length, unless anybody has
written since then, and all messages that were given so far. -/
structure Origin where
  copier : Option ℕ
  settled : Option (List UInt8)
  given : List (List UInt8)

/-- What is noted of a call. -/
def Origin.note (origin : Origin) (call : Call Output Event Unit) : Origin :=
  match call.label with
  | .call _ message => { origin with given := message :: origin.given }
  | .write thread _ =>
    match call.before.apps thread with
    | .writing _ .allocBuffer => { origin with copier := none, settled := none }
    | .writing _ .growBuffer => { origin with copier := none, settled := none }
    | .writing _ .copyBody => { origin with copier := some thread, settled := none }
    | .writing message .setBodyLength =>
      { origin with settled := if origin.copier = some thread then some message else none }
    | _ => origin
  | _ => origin

/-- What is noted before the first call. -/
def Origin.start : Origin := ⟨none, none, []⟩

/-- The session has read a length, and has not yet transferred the message. -/
def SessionPhase.reading : SessionPhase → Bool
  | .isBufferAllocated _ => true
  | .encodeHeader _ => true
  | .transfer _ => true
  | _ => false

/-- The next step of the thread changes the message. -/
def AppPhase.changing : AppPhase → Bool
  | .writing _ .allocBuffer => true
  | .writing _ .growBuffer => true
  | .writing _ .copyBody => true
  | .writing _ .setBodyLength => true
  | _ => false

/-- The session reads the length of a settled message only, and no thread changes the message
before the session has transferred it. -/
def Exclusive (origin : Origin) (call : Call Output Event Unit) : Prop :=
  match call.label with
  | .write thread _ =>
    (call.before.apps thread).changing = false ∨ call.before.session.reading = false
  | .session =>
    match call.before.session with
    | .getCurDataLen => origin.settled.isSome ∨ call.before.m_outputMsg.getCurDataLen < 1
    | _ => True
  | _ => True

/-! ### The invariant -/

/-- The invariant. What the session prepares is the frame of a settled message. -/
structure Intact (o : Output) (origin : Origin) : Prop where
  usable : Usable o.m_outputMsg
  given : ∀ thread message phase, o.apps thread = .writing message phase → message ∈ origin.given
  copied : ∀ thread message, origin.copier = some thread →
    o.apps thread = .writing message .setBodyLength → Copied message o.m_outputMsg
  settled : ∀ message, origin.settled = some message →
    message ∈ origin.given ∧ Complete message o.m_outputMsg
  prepared : o.session.reading = true → ∃ message, origin.settled = some message ∧
    Prepared o message
  frames : ∀ frame ∈ o.wire, ∃ message ∈ origin.given, FrameOf message frame

variable {sType : List UInt8} {o o' : Output} {origin : Origin}

theorem Output.apps_move_cases {thread other : ℕ} {d : CNetMessageData} {next phase : AppPhase}
    (h : (o.move thread d next).apps other = phase) :
    other = thread ∧ next = phase ∨ other ≠ thread ∧ o.apps other = phase := by
  by_cases hother : other = thread
  · rw [hother, o.apps_move] at h
    exact .inl ⟨hother, h⟩
  · exact .inr ⟨hother, (Function.update_of_ne hother ..).symm.trans h⟩

/-- A step of an application thread that changes the message, while the session does not read. -/
theorem Intact.change (h : Intact o origin) {thread : ℕ} {message : List UInt8} {phase : WritePhase}
    (hphase : o.apps thread = .writing message phase) (hreading : o.session.reading = false)
    {d : CNetMessageData} (hd : Usable d) {next : AppPhase}
    (hnext : next = .written message ∨ ∃ after, next = .writing message after)
    {copier : Option ℕ} {settled : Option (List UInt8)}
    (hcopied : ∀ other message', copier = some other →
      (o.move thread d next).apps other = .writing message' .setBodyLength → Copied message' d)
    (hsettled : ∀ message', settled = some message' → message' = message ∧ Complete message d) :
    Intact (o.move thread d next) { origin with copier := copier, settled := settled } where
  usable := hd
  given := by
    intro other message' phase' hother
    rcases o.apps_move_cases hother with ⟨-, hwriting⟩ | ⟨-, hwriting⟩
    · rcases hnext with rfl | ⟨after, rfl⟩
      · cases hwriting
      · obtain ⟨rfl, -⟩ := AppPhase.writing.inj hwriting
        exact h.given thread message phase hphase
    · exact h.given other message' phase' hwriting
  copied := hcopied
  settled := by
    intro message' hmessage
    obtain ⟨rfl, hcomplete⟩ := hsettled message' hmessage
    exact ⟨h.given thread message' phase hphase, hcomplete⟩
  prepared := fun hread ↦ absurd (hreading.symm.trans hread) Bool.noConfusion
  frames := h.frames

/-- A step of an application thread that leaves the block and the length of the message. -/
theorem Intact.keep (h : Intact o origin) {thread : ℕ} {d : CNetMessageData} (hd : Usable d)
    {next : AppPhase}
    (hnext : ∀ message phase, next = .writing message phase → phase ≠ .setBodyLength ∧
      message ∈ origin.given)
    (hcopied : ∀ message, Copied message o.m_outputMsg → Copied message d)
    (hcomplete : ∀ message, Complete message o.m_outputMsg → Complete message d)
    (hprepared : ∀ message, Prepared o message → Prepared (o.move thread d next) message) :
    Intact (o.move thread d next) origin where
  usable := hd
  given := by
    intro other message phase hother
    rcases o.apps_move_cases hother with ⟨-, hwriting⟩ | ⟨-, hwriting⟩
    · exact (hnext message phase hwriting).2
    · exact h.given other message phase hwriting
  copied := by
    intro other message hcopier hother
    rcases o.apps_move_cases hother with ⟨-, hwriting⟩ | ⟨-, hwriting⟩
    · exact absurd rfl (hnext message _ hwriting).1
    · exact hcopied message (h.copied other message hcopier hwriting)
  settled := by
    intro message hmessage
    exact ⟨(h.settled message hmessage).1, hcomplete message (h.settled message hmessage).2⟩
  prepared := by
    intro hreading
    obtain ⟨message, hmessage, hp⟩ := h.prepared hreading
    exact ⟨message, hmessage, hprepared message hp⟩
  frames := h.frames

/-- A message more was given. -/
theorem Intact.give (h : Intact o origin) (message : List UInt8) :
    Intact o { origin with given := message :: origin.given } where
  usable := h.usable
  given := by
    intro thread message' phase hwriting
    exact List.mem_cons_of_mem _ (h.given thread message' phase hwriting)
  copied := h.copied
  settled := by
    intro message' hmessage
    exact ⟨List.mem_cons_of_mem _ (h.settled message' hmessage).1, (h.settled message' hmessage).2⟩
  prepared := h.prepared
  frames := by
    intro frame hframe
    obtain ⟨message', hgiven, hframeOf⟩ := h.frames frame hframe
    exact ⟨message', List.mem_cons_of_mem _ hgiven, hframeOf⟩

/-- A step of `writeOutputData`. -/
theorem Intact.write (h : Intact o origin) {thread : ℕ} {message : List UInt8} {phase : WritePhase}
    (hphase : o.apps thread = .writing message phase) {granted : Bool}
    (hrule : Exclusive origin ⟨o, .write thread granted, ()⟩) {d : CNetMessageData}
    {next : AppPhase} (hstep : phase.step o.m_outputMsg message granted = .ok (d, next)) :
    Intact (o.move thread d next) (origin.note ⟨o, .write thread granted, ()⟩) := by
  unfold Exclusive at hrule
  unfold Origin.note
  dsimp only at hrule ⊢
  rw [hphase] at hrule ⊢
  cases WritePhase.effect h.usable hstep with
  | @test _ after htest hafter =>
    have hkeep : Intact (o.move thread o.m_outputMsg (.writing message after)) origin := by
      refine h.keep h.usable (fun message' phase' hnext ↦ ?_) (fun _ hcopied ↦ hcopied)
        (fun _ hcomplete ↦ hcomplete) fun _ hprepared ↦ hprepared
      obtain ⟨rfl, rfl⟩ := AppPhase.writing.inj hnext
      exact ⟨hafter, h.given thread message phase hphase⟩
    rcases htest with rfl | rfl
    · exact hkeep
    · exact hkeep
  | @allocate _ after _ hallocate hd hafter =>
    have hchange (hreading : o.session.reading = false) :
        Intact (o.move thread d (.writing message after))
          { origin with copier := none, settled := none } :=
      h.change hphase hreading hd (.inr ⟨after, rfl⟩) nofun nofun
    rcases hallocate with rfl | rfl
    · exact hchange (hrule.resolve_left Bool.noConfusion)
    · exact hchange (hrule.resolve_left Bool.noConfusion)
  | copy hd hcopied =>
    refine h.change hphase (hrule.resolve_left Bool.noConfusion) hd (.inr ⟨_, rfl⟩)
      (fun other message' hcopier hother ↦ ?_) nofun
    obtain rfl := Option.some.inj hcopier
    rw [o.apps_move] at hother
    obtain ⟨rfl, -⟩ := AppPhase.writing.inj hother
    exact hcopied
  | setLength =>
    refine h.change hphase (hrule.resolve_left Bool.noConfusion) (h.usable.setBodyLength _)
      (.inl rfl) (fun other message' hcopier hother ↦ ?_) fun message' hsettled ↦ ?_
    · rcases o.apps_move_cases hother with ⟨-, hwriting⟩ | ⟨-, hwriting⟩
      · cases hwriting
      · exact h.copied other message' hcopier hwriting
    · split_ifs at hsettled with hcopier
      obtain rfl := Option.some.inj hsettled
      exact ⟨rfl, (h.copied thread message hcopier hphase).complete h.usable⟩

/-- A step of the session that leaves the message and the wire. -/
theorem Intact.move_session (h : Intact o origin) {next : SessionPhase}
    (hprepared : next.reading = true → ∃ message, origin.settled = some message ∧
      Prepared { o with session := next } message) :
    Intact { o with session := next } origin :=
  ⟨h.usable, h.given, h.copied, h.settled, hprepared, h.frames⟩

/-- Clearing the flag. -/
theorem Intact.setUpdated (h : Intact o origin) (val : Bool) {next : SessionPhase}
    (hnext : next.reading = false) :
    Intact { o with m_outputMsg := o.m_outputMsg.setUpdated val, session := next } origin where
  usable := h.usable.setUpdated val
  given := h.given
  copied := h.copied
  settled := by
    intro message hmessage
    exact ⟨(h.settled message hmessage).1, (h.settled message hmessage).2.setUpdated val⟩
  prepared := fun hread ↦ absurd (hnext.symm.trans hread) Bool.noConfusion
  frames := h.frames

/-- A step of the session. -/
theorem Intact.session (h : Intact o origin) (hrule : Exclusive origin ⟨o, .session, ()⟩)
    (hstep : sessionStep sType o = .ok o') : Intact o' origin := by
  cases sessionMove hstep with
  | waits hsession => exact h
  | starts hsession hflag => exact h.move_session nofun
  | givesUp hsession => exact h.move_session nofun
  | readsLength hsession hpos =>
    unfold Exclusive at hrule
    dsimp only at hrule
    rw [hsession] at hrule
    obtain ⟨message, hmessage⟩ :=
      Option.isSome_iff_exists.mp (hrule.resolve_right (not_lt.mpr hpos))
    have hcomplete := (h.settled message hmessage).2
    exact h.move_session fun _ ↦ ⟨message, hmessage, hcomplete.getCurDataLen_eq, hpos⟩
  | testsBuffer hsession hnext =>
    obtain ⟨message, hmessage, hprepared⟩ := h.prepared (by rw [hsession]; rfl)
    have hafter :=
      (hprepared.isBufferAllocated hsession (h.settled message hmessage).2 hstep).2
    exact h.move_session fun _ ↦ ⟨message, hmessage, hafter⟩
  | encodes hsession hencode =>
    obtain ⟨message, hmessage, hprepared⟩ := h.prepared (by rw [hsession]; rfl)
    obtain ⟨hgiven, hcomplete⟩ := h.settled message hmessage
    obtain ⟨hencoded, hnext⟩ := hprepared.encodeHeader hsession h.usable hcomplete hencode
    constructor
    · exact (h.usable.encodeHeader hencode).1
    · exact h.given
    · intro thread message' hcopier hwriting
      obtain ⟨header, -, hblock⟩ :=
        (h.copied thread message' hcopier hwriting).encodeHeader h.usable hencode
      exact ⟨header, hblock⟩
    · intro message' hmessage'
      obtain rfl := Option.some.inj (hmessage.symm.trans hmessage')
      exact ⟨hgiven, hencoded⟩
    · exact fun _ ↦ ⟨message, hmessage, hnext⟩
    · exact h.frames
  | transfers hsession =>
    obtain ⟨message, hmessage, hprepared⟩ := h.prepared (by rw [hsession]; rfl)
    obtain ⟨frame, hframe, rfl⟩ := hprepared.transfer hsession h.usable hstep
    refine ⟨h.usable, h.given, h.copied, h.settled, nofun, fun sent hsent ↦ ?_⟩
    rcases List.mem_append.mp hsent with hbefore | hlast
    · exact h.frames sent hbefore
    · obtain rfl := List.mem_singleton.mp hlast
      exact ⟨message, (h.settled message hmessage).1, hframe⟩
  | clears hsession => exact h.setUpdated false rfl
  | clearsAgain hsession => exact h.setUpdated false rfl
  | rests hsession => exact h

/-- What one step preserves. -/
theorem Intact.step {event : Event} (h : Intact o origin)
    (hrule : Exclusive origin ⟨o, event, ()⟩) (hstep : Step sType o event () o') :
    Intact o' (origin.note ⟨o, event, ()⟩) := by
  cases hstep with
  | @call thread message hbetween hpos hlength =>
    refine (h.give message).keep h.usable (fun message' phase' hnext ↦ ?_)
      (fun _ hcopied ↦ hcopied) (fun _ hcomplete ↦ hcomplete) fun _ hprepared ↦ hprepared
    obtain ⟨rfl, rfl⟩ := AppPhase.writing.inj hnext
    exact ⟨nofun, List.mem_cons_self⟩
  | refusedCall hbetween => exact h.give []
  | write hphase hstep => exact h.write hphase hrule hstep
  | sendOutput hbetween =>
    exact h.keep (h.usable.setUpdated true) nofun
      (fun _ hcopied ↦ hcopied) (fun _ hcomplete ↦ hcomplete.setUpdated true)
      fun _ hprepared ↦ hprepared
  | session hstep => exact h.session hrule hstep

/-! ### Runs -/

/-- The messages that were given are those of the calls of the run. -/
theorem exists_call_of_given {trace : List (Call Output Event Unit)} {message : List UInt8} :
    ∀ origin : Origin, message ∈ (trace.foldl Origin.note origin).given →
      message ∈ origin.given ∨ ∃ thread, .call thread message ∈ trace.map Call.label := by
  induction trace with
  | nil => intro origin hgiven; exact .inl hgiven
  | cons call rest ih =>
    intro origin hgiven
    rcases ih _ hgiven with hnoted | ⟨thread, hcall⟩
    · have hfirst : message ∈ origin.given ∨ ∃ thread, call.label = .call thread message := by
        unfold Origin.note at hnoted
        split at hnoted
        · rename_i thread given hlabel
          rcases List.mem_cons.mp hnoted with rfl | hbefore
          · exact .inr ⟨thread, hlabel⟩
          · exact .inl hbefore
        · split at hnoted <;> exact .inl hnoted
        · exact .inl hnoted
      refine hfirst.imp_right fun ⟨thread, hlabel⟩ ↦ ⟨thread, ?_⟩
      rw [List.map_cons, hlabel]
      exact List.mem_cons_self
    · exact .inr ⟨thread, List.mem_cons_of_mem _ hcall⟩

theorem Ready.intact (h : Ready o) : Intact o Origin.start := by
  obtain ⟨payload, hallocated⟩ := h.allocated
  constructor
  · exact usable_of_allocated hallocated
  · intro thread message phase hwriting
    cases (h.apps thread).symm.trans hwriting
  · nofun
  · nofun
  · intro hreading
    rw [h.session] at hreading
    cases hreading
  · intro frame hframe
    rw [h.wire] at hframe
    cases hframe

/-- Assumes: a run of the session and of any applications, from a server whose threads have not
started, in which the session reads the length of a settled message only, and nobody changes the
message before its transfer. Every frame on the wire has the length and the body of one message that
was given to `writeOutputData`. -/
theorem frames_are_messages {start final : Output} {trace : List (Call Output Event Unit)}
    (hrun : Run (Step sType) start trace final) (hready : Ready start)
    (hexclusive : Obeys Origin.note Exclusive Origin.start trace) :
    ∀ frame ∈ final.wire, ∃ message,
      (∃ thread, .call thread message ∈ trace.map Call.label) ∧ FrameOf message frame := by
  have hfinal : Intact final (trace.foldl Origin.note Origin.start) :=
    hrun.invariant_noted Intact (fun _ _ _ _ _ hrule h hstep ↦ h.step hrule hstep) Origin.start
      hexclusive hready.intact
  intro frame hframe
  obtain ⟨message, hgiven, hframeOf⟩ := hfinal.frames frame hframe
  exact ⟨message, (exists_call_of_given _ hgiven).resolve_left List.not_mem_nil, hframeOf⟩

/-- Two messages, of which the second is given when the session has sent the first. -/
theorem frames_are_messages_two :
    ∃ trace final, Run (Step []) (newServer 2) trace final ∧
      trace.map Call.label = giving [7] ++ sending ++ giving [8, 9] ++ sending ∧
      final.wire.length = 2 ∧
      ∀ frame ∈ final.wire, ∃ message,
        (∃ thread, .call thread message ∈ trace.map Call.label) ∧ FrameOf message frame := by
  have hrun : ∃ trace final, Run (Step []) (newServer 2) trace final ∧
      trace.map Call.label = giving [7] ++ sending ++ giving [8, 9] ++ sending ∧
      final.wire.length = 2 ∧ Obeys Origin.note Exclusive Origin.start trace := by
    refine Run.exists_cons (.call 0 [7]) (.call trivial (by decide) (by decide)) ?_
    refine Run.exists_write rfl rfl <| Run.exists_write rfl rfl <| Run.exists_write rfl rfl <|
      Run.exists_write rfl rfl ?_
    refine Run.exists_cons (.sendOutput 0) (.sendOutput trivial) ?_
    refine Run.exists_session rfl <| Run.exists_session rfl <| Run.exists_session rfl <|
      Run.exists_session rfl <| Run.exists_session rfl <| Run.exists_session rfl <|
      Run.exists_session rfl ?_
    refine Run.exists_cons (.call 0 [8, 9]) (.call trivial (by decide) (by decide)) ?_
    refine Run.exists_write rfl rfl <| Run.exists_write rfl rfl <| Run.exists_write rfl rfl <|
      Run.exists_write rfl rfl ?_
    refine Run.exists_cons (.sendOutput 0) (.sendOutput trivial) ?_
    refine Run.exists_session rfl <| Run.exists_session rfl <| Run.exists_session rfl <|
      Run.exists_session rfl <| Run.exists_session rfl <| Run.exists_session rfl <|
      Run.exists_session rfl ?_
    exact ⟨_, _, .nil _, rfl, rfl, trivial, .inl rfl, .inl rfl, .inr rfl, .inr rfl, trivial,
      trivial, .inl rfl, trivial, trivial, trivial, trivial, trivial, trivial, .inl rfl, .inl rfl,
      .inr rfl, .inr rfl, trivial, trivial, .inl rfl, trivial, trivial, trivial, trivial, trivial,
      trivial⟩
  obtain ⟨trace, final, hrun, hlabels, hwire, hexclusive⟩ := hrun
  have hready : Ready (newServer 2) := ready_newServer (by decide) (by decide)
  exact ⟨trace, final, hrun, hlabels, hwire, frames_are_messages hrun hready hexclusive⟩

/-- The session has read the length of the first message when the second is written. It sends the
second message with the length of the first. -/
theorem frame_is_torn :
    ∃ trace final, Run (Step []) (newServer 2) trace final ∧
      trace.map Call.label = giving [7] ++ [.session, .session] ++ giving [8, 9] ++
        [.session, .session, .session] ∧
      ∃ frame ∈ final.wire, ∀ message,
        (∃ thread, .call thread message ∈ trace.map Call.label) → ¬FrameOf message frame := by
  refine Run.exists_cons (.call 0 [7]) (.call trivial (by decide) (by decide)) ?_
  refine Run.exists_write rfl rfl <| Run.exists_write rfl rfl <| Run.exists_write rfl rfl <|
    Run.exists_write rfl rfl ?_
  refine Run.exists_cons (.sendOutput 0) (.sendOutput trivial) ?_
  refine Run.exists_session rfl <| Run.exists_session rfl ?_
  refine Run.exists_cons (.call 0 [8, 9]) (.call trivial (by decide) (by decide)) ?_
  refine Run.exists_write rfl rfl <| Run.exists_write rfl rfl <| Run.exists_write rfl rfl <|
    Run.exists_write rfl rfl ?_
  refine Run.exists_cons (.sendOutput 0) (.sendOutput trivial) ?_
  refine Run.exists_session rfl <| Run.exists_session rfl <| Run.exists_session rfl ?_
  refine ⟨_, _, .nil _, rfl, _, List.mem_singleton_self _, ?_⟩
  intro message hcall hframe
  obtain ⟨thread, hcall⟩ := hcall
  obtain ⟨header, -, hmessage⟩ := hframe
  have hgiven : message = [7] ∨ message = [8, 9] := by
    have hlabels : .call thread message ∈ giving [7] ++ [.session, .session] ++ giving [8, 9] ++
        [.session, .session, .session] := hcall
    simp only [giving, List.cons_append, List.nil_append, List.mem_cons, Event.call.injEq,
      reduceCtorEq, List.not_mem_nil, false_or, or_false] at hlabels
    exact hlabels.imp And.right And.right
  have hlast : (header ++ message).getLast? = some 8 := congrArg List.getLast? hmessage.symm
  rcases hgiven with rfl | rfl
  · rw [List.getLast?_concat] at hlast
    exact absurd hlast (by decide)
  · rw [List.append_cons, List.getLast?_concat] at hlast
    exact absurd hlast (by decide)

end RdbLibs.NetIO.CTcpServer
