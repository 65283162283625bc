import RdbLibs.Foundations.Runs
import RdbLibs.NetIO.TcpFraming

/-!
# Lossless framing

A schedule is any order of sends and reads in which no read comes before the message it is to read
was sent. In every run from an empty stream, in any order, the reads deliver the messages that were
sent and fit the framing, from first to last (`run_moves`). So the bodies of all messages arrive,
whatever the schedule, exactly when no frame is as long as `2 ^ 31` bytes (`framing_lossless_iff`).
-/

set_option autoImplicit false
set_option relaxedAutoImplicit false

namespace RdbLibs.NetIO.TcpFraming

open MachineWord CheckedMemory CNetMessageData Runs

variable {σ : Type}

/-! ### Schedules -/

/-- The messages that a schedule sends, in order. -/
def sentMessages : List Action → List Message
  | [] => []
  | .send message :: schedule => message :: sentMessages schedule
  | .receive :: schedule => sentMessages schedule

/-- With `pending` messages sent and not yet read, the schedule reads every message, and none before
it was sent. -/
def Served : ℕ → List Action → Prop
  | pending, [] => pending = 0
  | pending, .send _ :: schedule => Served (pending + 1) schedule
  | 0, .receive :: _ => False
  | pending + 1, .receive :: schedule => Served pending schedule

/-- What a call has delivered. -/
def received (call : Call (Link σ) Action Reply) : List Delivery :=
  match call.reply with
  | .sent _ => []
  | .received delivery => [delivery]

/-- Framing is lossless for a list of messages: every schedule that sends them and reads as many
runs to its end, and then its reads have delivered the bodies of the messages in order, and the
stream is empty. -/
def Lossless (net : Network σ) (inFlight : σ → List UInt8) (start : Link σ)
    (messages : List Message) : Prop :=
  ∀ schedule, sentMessages schedule = messages → Served 0 schedule →
    (∃ trace final, Run (Step net) start trace final ∧ trace.map Call.label = schedule) ∧
      ∀ trace final, Run (Step net) start trace final → trace.map Call.label = schedule →
        trace.flatMap received = messages.map (fun message ↦ delivered message.body) ∧
          inFlight final.socket = []

/-! ### Runs -/

/-- The messages that may be sent: they can be set, and their bodies are shorter than the limit. -/
def Sendable (limit : ℤ) (message : Message) : Prop :=
  message.Settable ∧ (message.body.length : ℤ) < limit

/-- An action that sends no other message than a sendable one. -/
def Allowed (limit : ℤ) : Action → Prop
  | .send message => Sendable limit message
  | .receive => True

/-- What an action adds to the deliveries that are to be made. -/
def added : Action → List Delivery
  | .send message => announced message
  | .receive => []

/-- The number of reads in a schedule. -/
def readCount : List Action → ℕ
  | [] => 0
  | .send _ :: schedule => readCount schedule
  | .receive :: schedule => readCount schedule + 1

theorem Served.readCount_eq (schedule : List Action) :
    ∀ pending, Served pending schedule →
      readCount schedule = pending + (sentMessages schedule).length := by
  induction schedule with
  | nil => intro pending hserved; exact hserved.symm
  | cons action schedule ih =>
    intro pending hserved
    cases action with
    | send message =>
      have hrest := ih (pending + 1) hserved
      simp only [readCount, sentMessages, List.length_cons]
      omega
    | receive =>
      cases pending with
      | zero => cases hserved
      | succ pending =>
        have hrest := ih pending hserved
        simp only [readCount, sentMessages]
        omega

theorem flatMap_added (schedule : List Action) :
    schedule.flatMap added = (sentMessages schedule).flatMap announced := by
  induction schedule with
  | nil => rfl
  | cons action schedule ih =>
    cases action with
    | send message => rw [List.flatMap_cons, sentMessages, List.flatMap_cons, ih]; rfl
    | receive => exact ih

theorem allowed_of_sentMessages {limit : ℤ} (schedule : List Action)
    (h : ∀ message ∈ sentMessages schedule, Sendable limit message) :
    ∀ action ∈ schedule, Allowed limit action := by
  induction schedule with
  | nil => intro action haction; cases haction
  | cons first schedule ih =>
    cases first with
    | send message =>
      rw [sentMessages, List.forall_mem_cons] at h
      rw [List.forall_mem_cons]
      exact ⟨h.1, ih h.2⟩
    | receive =>
      rw [List.forall_mem_cons]
      exact ⟨trivial, ih h⟩

/-- The schedule that sends all messages and then reads as many. -/
def batch (messages : List Message) : List Action :=
  messages.map .send ++ List.replicate messages.length .receive

theorem sentMessages_batch (messages : List Message) :
    sentMessages (batch messages) = messages := by
  have hreads : ∀ count, sentMessages (List.replicate count .receive) = [] := by
    intro count
    induction count with
    | zero => rfl
    | succ count ih => exact ih
  have hsends : ∀ reads : List Action, sentMessages reads = [] →
      sentMessages (messages.map .send ++ reads) = messages := by
    intro reads hnone
    induction messages with
    | nil => exact hnone
    | cons message messages ih => exact congrArg (message :: ·) ih
  exact hsends _ (hreads _)

theorem served_replicate (count : ℕ) : Served count (List.replicate count .receive) := by
  induction count with
  | zero => rfl
  | succ count ih => exact ih

theorem served_batch (messages : List Message) : Served 0 (batch messages) := by
  have hserved : ∀ pending, Served pending
      (messages.map .send ++ List.replicate (pending + messages.length) .receive) := by
    induction messages with
    | nil => intro pending; exact served_replicate pending
    | cons message messages ih =>
      intro pending
      have hrest := ih (pending + 1)
      rwa [Nat.add_right_comm, Nat.add_assoc] at hrest
  have hbatch := hserved 0
  rwa [Nat.zero_add] at hbatch

theorem flatMap_announced_of_short {messages : List Message}
    (hshort : ∀ message ∈ messages, message.Short) :
    messages.flatMap announced = messages.map fun message ↦ delivered message.body := by
  induction messages with
  | nil => rfl
  | cons message messages ih =>
    rw [List.forall_mem_cons] at hshort
    rw [List.flatMap_cons, announced, if_pos hshort.1, ih hshort.2]
    rfl

theorem length_flatMap_announced (messages : List Message) :
    (messages.flatMap announced).length = messages.countP fun message ↦ message.Short := by
  induction messages with
  | nil => rfl
  | cons message messages ih =>
    rw [List.flatMap_cons, List.length_append, ih, announced]
    by_cases hshort : message.Short
    · rw [if_pos hshort, List.countP_cons_of_pos (by simpa using hshort)]
      exact Nat.add_comm ..
    · rw [if_neg hshort, List.countP_cons_of_neg (by simpa using hshort)]
      exact Nat.zero_add _

section Losslessness

variable {net : Network σ} {inFlight : σ → List UInt8} (hnet : Reliable net inFlight)
  {payload : ℕ} {limit : ℤ}

/-- A send is answered without a delivery, and a read with one. -/
theorem Step.length_received {before after : Link σ} {action : Action} {reply : Reply}
    (hstep : Step net before action reply after) :
    (received ⟨before, action, reply⟩).length = readCount [action] := by
  cases action with
  | send message =>
    obtain ⟨⟨_, msgData⟩, _, hsend⟩ := of_bind_eq_ok hstep
    obtain ⟨⟨answer, c⟩, _, hreply⟩ := of_bind_eq_ok hsend
    obtain ⟨rfl, -⟩ := Prod.mk.inj (Except.ok.inj hreply)
    rfl
  | receive =>
    obtain ⟨⟨answer, c⟩, _, hreply⟩ := of_bind_eq_ok hstep
    obtain ⟨rfl, -⟩ := Prod.mk.inj (Except.ok.inj hreply)
    rfl

/-- Every read that is completed delivers once. -/
theorem length_received {start final : Link σ} {trace : List (Call (Link σ) Action Reply)}
    (hrun : Run (Step net) start trace final) :
    (trace.flatMap received).length = readCount (trace.map Call.label) := by
  induction hrun with
  | nil start => rfl
  | @cons start middle final action reply rest hfirst hrest ih =>
    rw [List.flatMap_cons, List.length_append, ih, Step.length_received hfirst, List.map_cons]
    cases action with
    | send message => exact Nat.zero_add _
    | receive => exact Nat.add_comm ..

include hnet

/-- One step moves the deliveries from first to last: what it delivers is the oldest, and what it
adds comes behind the others. -/
theorem Step.moves {before after : Link σ} {action : Action} {reply : Reply}
    {held : List Delivery} (hallowed : Allowed limit action)
    (hheld : Holds inFlight payload limit before held)
    (hstep : Step net before action reply after) :
    ∃ held', Holds inFlight payload limit after held' ∧
      received ⟨before, action, reply⟩ ++ held' = held ++ added action := by
  cases action with
  | send message =>
    obtain ⟨answer, after', hperform, hafter⟩ := perform_send hnet hheld hallowed.1 hallowed.2
    obtain ⟨rfl, rfl⟩ := Prod.mk.inj (Except.ok.inj (hperform.symm.trans hstep))
    exact ⟨_, hafter, rfl⟩
  | receive =>
    cases held with
    | nil =>
      have hwaits := (perform_receive_empty hnet hheld).symm.trans hstep
      cases hwaits
    | cons delivery later =>
      obtain ⟨after', hperform, hafter⟩ := perform_receive hnet hheld
      obtain ⟨rfl, rfl⟩ := Prod.mk.inj (Except.ok.inj (hperform.symm.trans hstep))
      exact ⟨later, hafter, (List.append_nil _).symm⟩

/-- Over any run from an empty stream, in any order of sends and reads, what was delivered and what
is still to be delivered are the messages that were sent, from first to last. -/
theorem run_moves {start final : Link σ} {trace : List (Call (Link σ) Action Reply)}
    (hrun : Run (Step net) start trace final)
    (hsendable : ∀ message ∈ sentMessages (trace.map Call.label), Sendable limit message)
    (hstart : Holds inFlight payload limit start []) :
    ∃ held, Holds inFlight payload limit final held ∧
      trace.flatMap received ++ held =
        (sentMessages (trace.map Call.label)).flatMap announced := by
  have hallowed : ∀ call ∈ trace, Allowed limit call.label := fun call hcall ↦
    allowed_of_sentMessages _ hsendable _ (List.mem_map_of_mem hcall)
  obtain ⟨held, hheld, hmove⟩ := hrun.conserves (Holds inFlight payload limit) (Allowed limit)
    received (fun call ↦ added call.label)
    (fun _ _ _ _ _ hallowed hheld hstep ↦ Step.moves hnet hallowed hheld hstep) hallowed [] hstart
  refine ⟨held, hheld, ?_⟩
  rw [hmove, List.nil_append, ← flatMap_added, List.flatMap_map]

/-- Assumes: the messages of a schedule are sendable, and the lengths of their frames are `int`s.
With as many deliveries to be made as there are reads too many, the schedule runs to its end. -/
theorem exists_run (schedule : List Action)
    (hsendable : ∀ message ∈ sentMessages schedule, Sendable limit message ∧ message.Short) :
    ∀ (start : Link σ) (held : List Delivery), Holds inFlight payload limit start held →
      Served held.length schedule →
      ∃ trace final, Run (Step net) start trace final ∧ trace.map Call.label = schedule := by
  induction schedule with
  | nil => intro start held _ _; exact ⟨[], start, .nil start, rfl⟩
  | cons action schedule ih =>
    intro start held hheld hserved
    cases action with
    | send message =>
      rw [sentMessages, List.forall_mem_cons] at hsendable
      obtain ⟨answer, middle, hperform, hmiddle⟩ :=
        perform_send hnet hheld hsendable.1.1.1 hsendable.1.1.2
      rw [announced, if_pos hsendable.1.2] at hmiddle
      obtain ⟨trace, final, hrun, hlabels⟩ := ih hsendable.2 middle _ hmiddle (by
        rw [List.length_append]
        exact hserved)
      exact ⟨_, final, .cons hperform hrun, by rw [List.map_cons, hlabels]⟩
    | receive =>
      cases held with
      | nil => cases hserved
      | cons delivery later =>
        obtain ⟨middle, hperform, hmiddle⟩ := perform_receive hnet hheld
        obtain ⟨trace, final, hrun, hlabels⟩ := ih hsendable middle later hmiddle hserved
        exact ⟨_, final, .cons hperform hrun, by rw [List.map_cons, hlabels]⟩

variable {start : Link σ} (hinbox : Allocated payload start.inbox)
  (hempty : inFlight start.socket = []) {messages : List Message}
  (hsendable : ∀ message ∈ messages, Sendable start.inbox.getMaxDataLen message)

include hinbox hempty hsendable

/-- In a run along a schedule that serves every message, as many deliveries were made as there are
messages. -/
theorem run_served {final : Link σ} {trace : List (Call (Link σ) Action Reply)}
    (hrun : Run (Step net) start trace final)
    (hsent : sentMessages (trace.map Call.label) = messages)
    (hserved : Served 0 (trace.map Call.label)) :
    (trace.flatMap received).length = messages.length ∧
      ∃ held, Carries start.inbox.getMaxDataLen (inFlight final.socket) held ∧
        trace.flatMap received ++ held = messages.flatMap announced := by
  have hstart : Holds inFlight payload start.inbox.getMaxDataLen start [] := ⟨hinbox, rfl, hempty⟩
  obtain ⟨held, hheld, hmove⟩ := run_moves hnet hrun (hsent ▸ hsendable) hstart
  refine ⟨?_, held, hheld.stream, hsent ▸ hmove⟩
  rw [length_received hrun, hserved.readCount_eq, Nat.zero_add, hsent]

/-- When the length of every frame is an `int`, framing is lossless. -/
theorem lossless_of_short (hshort : ∀ message ∈ messages, message.Short) :
    Lossless net inFlight start messages := by
  intro schedule hsent hserved
  have hannounced := flatMap_announced_of_short hshort
  constructor
  · exact exists_run hnet schedule (by
      rw [hsent]
      exact fun message hmem ↦ ⟨hsendable message hmem, hshort message hmem⟩) start []
      ⟨hinbox, rfl, hempty⟩ hserved
  · intro trace final hrun hlabels
    subst hlabels
    obtain ⟨hcount, held, hcarries, hmove⟩ :=
      run_served hnet hinbox hempty hsendable hrun hsent hserved
    have hheld : held = [] := by
      have hlength := congrArg List.length hmove
      rw [hannounced, List.length_append, List.length_map, hcount] at hlength
      exact List.eq_nil_of_length_eq_zero (by omega)
    subst hheld
    rw [List.append_nil, hannounced] at hmove
    exact ⟨hmove, hcarries⟩

/-- When framing is lossless, the length of every frame is an `int`. -/
theorem short_of_lossless (hlossless : Lossless net inFlight start messages) :
    ∀ message ∈ messages, message.Short := by
  obtain ⟨⟨trace, final, hrun, hlabels⟩, hdelivers⟩ :=
    hlossless (batch messages) (sentMessages_batch messages) (served_batch messages)
  obtain ⟨hcount, held, -, hmove⟩ := run_served hnet hinbox hempty hsendable hrun
    (hlabels ▸ sentMessages_batch messages) (hlabels ▸ served_batch messages)
  have hlength := congrArg List.length hmove
  rw [List.length_append, hcount, length_flatMap_announced] at hlength
  have hall : messages.countP (fun message ↦ message.Short) = messages.length :=
    le_antisymm List.countP_le_length (by omega)
  simpa using List.countP_eq_length.mp hall

end Losslessness

/-- Assumes: a reliable network, an allocated inbox and an empty stream, and messages that can be
set and whose bodies are shorter than what `getMaxDataLen` of the inbox says. Framing is lossless
for the messages exactly when every frame is shorter than `2 ^ 31` bytes. -/
theorem framing_lossless_iff {net : Network σ} {inFlight : σ → List UInt8}
    (hnet : Reliable net inFlight) {start : Link σ} {payload : ℕ}
    (hinbox : Allocated payload start.inbox) (hempty : inFlight start.socket = [])
    {messages : List Message} (hset : ∀ message ∈ messages, message.Settable)
    (hroom : ∀ message ∈ messages, (message.body.length : ℤ) < start.inbox.getMaxDataLen) :
    Lossless net inFlight start messages ↔
      ∀ message ∈ messages, msgHeaderLen + message.body.length < 2 ^ 31 := by
  have hsendable : ∀ message ∈ messages, Sendable start.inbox.getMaxDataLen message :=
    fun message hmem ↦ ⟨hset message hmem, hroom message hmem⟩
  exact ⟨short_of_lossless hnet hinbox hempty hsendable,
    lossless_of_short hnet hinbox hempty hsendable⟩

/-! ### A stream of bytes -/

/-- The network that is a list of bytes. -/
def byteStream : Network (List UInt8) where
  read socket size :=
    if size ≤ socket.length then some ⟨socket.take size, .success, socket.drop size⟩ else none
  write socket bytes := some ⟨bytes.length, .success, socket ++ bytes⟩
  send socket bytes := some ⟨bytes.length, .success, socket ++ bytes⟩
  read_le := by
    intro socket size received hread
    split_ifs at hread with hsize
    obtain rfl := Option.some.inj hread
    exact List.length_take_le ..

theorem reliable_byteStream : Reliable byteStream id where
  write_all socket bytes := ⟨socket ++ bytes, rfl, rfl⟩
  send_all socket bytes := ⟨socket ++ bytes, rfl, rfl⟩
  read_all socket size hsize := ⟨socket.drop size, if_pos hsize, rfl⟩
  read_waits _ _ hsize := if_neg (not_le.mpr hsize)

/-- A link over a stream of bytes, with a new inbox. -/
def newLink (payload : ℕ) : Link (List UInt8) where
  sender := ⟨[], []⟩
  receiver := ⟨[], []⟩
  inbox := newMessage payload
  socket := []

/-- A body that fits a new message can be set in it. -/
theorem settable_newMessage {payload : ℕ} {body : List UInt8} (way : Way)
    (hfits : msgHeaderLen + payload < 2 ^ 32) (hpos : 0 < body.length)
    (hroom : body.length ≤ payload) : (⟨newMessage payload, body, way⟩ : Message).Settable := by
  have hpayload : (List.replicate payload (0 : UInt8)).length = payload := List.length_replicate
  exact ⟨payload, _, allocated_newMessage (by omega) hfits,
    setMsgData_laidOut List.length_replicate (by rwa [hpayload]) hpos (by rwa [hpayload])⟩

/-- A message of two bytes by `writeMsgData` and one of three bytes by `sendMsgData`, both set in
messages with room for 4 bytes. -/
theorem framing_lossless_two :
    Lossless byteStream id (newLink 8)
      [⟨newMessage 4, [1, 2], .writeMsgData⟩, ⟨newMessage 4, [3, 4, 5], .sendMsgData⟩] := by
  have hinbox : Allocated 8 (newLink 8).inbox := allocated_newMessage (by decide) (by decide)
  have hset : ∀ message ∈ ([⟨newMessage 4, [1, 2], .writeMsgData⟩,
      ⟨newMessage 4, [3, 4, 5], .sendMsgData⟩] : List Message), message.Settable := by
    simp only [List.forall_mem_cons, List.not_mem_nil, false_imp_iff, implies_true, and_true]
    exact ⟨settable_newMessage _ (by decide) (by decide) (by decide),
      settable_newMessage _ (by decide) (by decide) (by decide)⟩
  exact (framing_lossless_iff reliable_byteStream hinbox rfl hset (by decide)).mpr (by decide)

/-- A body of `2 ^ 31 - 20` bytes fits a message and an inbox with room for `2 ^ 31 - 1` bytes, but
the length of its frame is negative as an `int`, and it is not sent. -/
theorem long_message_is_lost :
    ∃ body : List UInt8, body.length = 2 ^ 31 - 20 ∧
      (⟨newMessage (2 ^ 31 - 1), body, .writeMsgData⟩ : Message).Settable ∧
      (body.length : ℤ) < (newLink (2 ^ 31 - 1)).inbox.getMaxDataLen ∧
      ¬ Lossless byteStream id (newLink (2 ^ 31 - 1))
        [⟨newMessage (2 ^ 31 - 1), body, .writeMsgData⟩] := by
  obtain ⟨body, hbody⟩ : ∃ body : List UInt8, body.length = 2 ^ 31 - 20 :=
    ⟨List.replicate (2 ^ 31 - 20) 7, List.length_replicate⟩
  have hset : (⟨newMessage (2 ^ 31 - 1), body, .writeMsgData⟩ : Message).Settable :=
    settable_newMessage _ (by decide) (by omega) (by omega)
  have hroom : (body.length : ℤ) < (newLink (2 ^ 31 - 1)).inbox.getMaxDataLen := by
    rw [newLink, newMessage, getMaxDataLen_laidOut, List.length_replicate, toInt_of_lt (by decide)]
    omega
  refine ⟨body, hbody, hset, hroom, fun hlossless ↦ ?_⟩
  have hinbox : Allocated (2 ^ 31 - 1) (newLink (2 ^ 31 - 1)).inbox :=
    allocated_newMessage (by decide) (by decide)
  have hshort := short_of_lossless reliable_byteStream hinbox rfl
    (List.forall_mem_singleton.mpr ⟨hset, hroom⟩) hlossless _ List.mem_cons_self
  change 20 + body.length < 2 ^ 31 at hshort
  omega

end RdbLibs.NetIO.TcpFraming
