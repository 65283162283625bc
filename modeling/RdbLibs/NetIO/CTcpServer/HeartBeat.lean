import Mathlib.Data.List.Chain
import RdbLibs.NetIO.CTcpServer.Sessions

/-!
# The beats of an output session

When the messages `beat` of a session of the direction `output` are far enough apart. The branch of
that direction leaves `m_heartBeatTimestamp` as it is when the client was accepted, while the other
branches set it again: once the interval has passed, every pass sends a beat.
-/

set_option autoImplicit false
set_option relaxedAutoImplicit false

namespace RdbLibs.NetIO.CTcpServer

open MachineWord Runs

/-- Clock readings that are more than some milliseconds apart. -/
def Apart (milliseconds : ℕ) (first second : ℤ) : Prop := milliseconds * 1000000 < second - first

instance (milliseconds : ℕ) (first second : ℤ) : Decidable (Apart milliseconds first second) :=
  inferInstanceAs (Decidable (_ < _))

/-- The pass sends a beat. -/
def SendsBeat (config : SessionConfig) (timestamp : ℤ) (p : Pass) : Prop :=
  p.available ≠ none ∧ Elapsed config timestamp p.now ∧ p.beatSent = true

instance (config : SessionConfig) (timestamp : ℤ) (p : Pass) :
    Decidable (SendsBeat config timestamp p) :=
  inferInstanceAs (Decidable (_ ∧ _ ∧ _))

/-- The clock readings at which some passes send a beat. -/
def beatsOf (config : SessionConfig) (timestamp : ℤ) (passes : List Pass) : List ℤ :=
  (passes.filter fun p ↦ SendsBeat config timestamp p).map Pass.now

/-- The condition on two passes that follow each other: when the interval has passed in the first
one, the second one sends no beat or reads the clock late enough. -/
def PacedAfter (config : SessionConfig) (timestamp : ℤ) (p q : Pass) : Prop :=
  Elapsed config timestamp p.now → SendsBeat config timestamp q →
    Apart config.m_heartBeatInterval p.now q.now

variable {config : SessionConfig} {s : Session} {p : Pass}

theorem beatsOf_cons_of_sends {timestamp : ℤ} (h : SendsBeat config timestamp p)
    (passes : List Pass) :
    beatsOf config timestamp (p :: passes) = p.now :: beatsOf config timestamp passes := by
  unfold beatsOf
  rw [List.filter_cons_of_pos (by exact decide_eq_true h), List.map_cons]

theorem beatsOf_cons_of_not {timestamp : ℤ} (h : ¬SendsBeat config timestamp p)
    (passes : List Pass) :
    beatsOf config timestamp (p :: passes) = beatsOf config timestamp passes := by
  unfold beatsOf
  rw [List.filter_cons_of_neg (by exact fun hsends ↦ h (of_decide_eq_true hsends))]

/-! ### One pass -/

theorem serveOutput_keeps (s : Session) (p : Pass) (bytesAvail : ℕ) :
    (serveOutput s p bytesAvail).m_heartBeatTimestamp = s.m_heartBeatTimestamp ∧
      (serveOutput s p bytesAvail).beats = s.beats := by
  unfold serveOutput
  split_ifs <;> exact ⟨rfl, rfl⟩

theorem checkSession_keeps (config : SessionConfig) (s : Session) (p : Pass) :
    (checkSession config s p).m_heartBeatTimestamp = s.m_heartBeatTimestamp ∧
      (checkSession config s p).beats = s.beats := by
  have hsocket : (checkSocket config s p).m_heartBeatTimestamp = s.m_heartBeatTimestamp ∧
      (checkSocket config s p).beats = s.beats := by
    unfold checkSocket
    dsimp only
    split_ifs <;> exact ⟨rfl, rfl⟩
  unfold checkSession
  dsimp only
  by_cases hflag : (checkSocket config s p).m_bExitSession = true
  · rw [if_pos hflag]
    exact hsocket
  · rw [if_neg hflag]
    cases p.remoteAddress with
    | none => exact hsocket
    | some address =>
      cases address with
      | nil => exact hsocket
      | cons c address =>
        dsimp only
        split_ifs <;> exact hsocket

/-- What the branch of the direction `output` does with the beats. -/
theorem outputBranch_beats (config : SessionConfig) (s : Session) (p : Pass) (bytesAvail : ℕ) :
    (outputBranch config s p bytesAvail).m_heartBeatTimestamp = s.m_heartBeatTimestamp ∧
      (outputBranch config s p bytesAvail).beats = s.beats ++
        if Elapsed config s.m_heartBeatTimestamp p.now ∧ p.beatSent = true then [p.now]
        else [] := by
  unfold outputBranch
  dsimp only
  split_ifs <;> simp_all [Session.exit, serveOutput_keeps]

/-- What a pass of an output session does with the beats. -/
theorem pass_beats (houtput : config.m_eIoDirection = .output) (s : Session) (p : Pass) :
    (pass config s p).m_heartBeatTimestamp = s.m_heartBeatTimestamp ∧
      (pass config s p).beats = s.beats ++ beatsOf config s.m_heartBeatTimestamp [p] := by
  unfold pass
  cases havail : p.available with
  | none =>
    have hsends : ¬SendsBeat config s.m_heartBeatTimestamp p := fun h ↦ h.1 havail
    rw [beatsOf_cons_of_not hsends]
    exact ⟨rfl, (List.append_nil _).symm⟩
  | some bytesAvail =>
    obtain ⟨htimestamp, hbeats⟩ := outputBranch_beats config s p bytesAvail
    dsimp only
    rw [(checkSession_keeps ..).1, (checkSession_keeps ..).2, switchDirection, houtput]
    refine ⟨htimestamp, hbeats.trans (congrArg _ ?_)⟩
    have hsends : SendsBeat config s.m_heartBeatTimestamp p ↔
        Elapsed config s.m_heartBeatTimestamp p.now ∧ p.beatSent = true := by
      simp [SendsBeat, havail]
    by_cases hdue : SendsBeat config s.m_heartBeatTimestamp p
    · rw [beatsOf_cons_of_sends hdue, if_pos (hsends.mp hdue)]
      rfl
    · rw [beatsOf_cons_of_not hdue, if_neg (hdue ∘ hsends.mpr)]
      rfl

/-- A pass after which the session goes on has sent the beat that was due. -/
theorem sendsBeat_of_running (houtput : config.m_eIoDirection = .output)
    (hrunning : (pass config s p).status = .running)
    (helapsed : Elapsed config s.m_heartBeatTimestamp p.now) :
    SendsBeat config s.m_heartBeatTimestamp p := by
  have hgoes : ¬EndsSession config s p := by
    intro hends
    rw [pass_of_endsSession hends] at hrunning
    cases hrunning
  refine ⟨fun hnone ↦ hgoes (.inl hnone), helapsed, ?_⟩
  by_contra hunsent
  refine hgoes (.inr (.inr (.inr (.inr ?_))))
  rw [houtput]
  exact .inl ⟨helapsed, .inl (Bool.eq_false_of_not_eq_true hunsent)⟩

/-! ### A session -/

/-- Once the interval has passed, it has passed at every later clock reading. -/
theorem elapsed_mono {timestamp first second : ℤ} (h : Elapsed config timestamp first)
    (hstart : timestamp ≤ first) (hle : first ≤ second) (hrange : second - timestamp < 2 ^ 63) :
    Elapsed config timestamp second := by
  refine ⟨h.1, h.2.trans_le ?_⟩
  unfold intToSize
  rw [Int.tdiv_eq_ediv_of_nonneg (by omega), Int.tdiv_eq_ediv_of_nonneg (by omega)]
  omega

/-- The beats of a session are those of its passes. -/
theorem beats_of_run (houtput : config.m_eIoDirection = .output) {first s : Session}
    {trace : List (Call Session Pass Unit)} (hrun : Run (SessionStep config) first trace s) :
    s.beats = first.beats ++
      beatsOf config first.m_heartBeatTimestamp (trace.map Call.label) := by
  induction hrun with
  | nil first => exact (List.append_nil _).symm
  | @cons first middle final p reply rest hfirst hrest ih =>
    obtain ⟨-, rfl⟩ := hfirst
    obtain ⟨htimestamp, hbeats⟩ := pass_beats houtput first p
    rw [ih, htimestamp, hbeats, List.append_assoc, List.map_cons]
    unfold beatsOf
    rw [← List.map_append, ← List.filter_append, List.singleton_append]

/-- A pass in which a beat is due that is not sent is the last one. -/
theorem eq_nil_of_not_sent (houtput : config.m_eIoDirection = .output) {first final : Session}
    {q : Pass} (hdue : Elapsed config first.m_heartBeatTimestamp q.now)
    (hnot : ¬SendsBeat config first.m_heartBeatTimestamp q) {rest : List (Call Session Pass Unit)}
    (hrest : Run (SessionStep config) (pass config first q) rest final) : rest = [] := by
  cases hrest with
  | nil => rfl
  | cons hnext _ => exact absurd (sendsBeat_of_running houtput hnext.1 hdue) hnot

/-- The beats of a session are apart exactly when the passes that send them are paced. -/
theorem apart_iff_of_run (houtput : config.m_eIoDirection = .output) {first s : Session}
    {trace : List (Call Session Pass Unit)} (hrun : Run (SessionStep config) first trace s)
    (hclock : (first.m_heartBeatTimestamp :: trace.map fun call ↦ call.label.now).IsChain (· ≤ ·))
    (hrange : ∀ call ∈ trace, call.label.now - first.m_heartBeatTimestamp < 2 ^ 63) :
    (beatsOf config first.m_heartBeatTimestamp (trace.map Call.label)).IsChain
        (Apart config.m_heartBeatInterval) ↔
      (trace.map Call.label).IsChain (PacedAfter config first.m_heartBeatTimestamp) := by
  induction hrun with
  | nil first => exact iff_of_true .nil .nil
  | @cons first middle final p reply rest hfirst hrest ih =>
    obtain ⟨-, rfl⟩ := hfirst
    have htimestamp := (pass_beats houtput first p).1
    cases hrest with
    | nil =>
      refine iff_of_true ?_ (.singleton p)
      by_cases hsends : SendsBeat config first.m_heartBeatTimestamp p
      · rw [List.map_singleton, beatsOf_cons_of_sends hsends]
        exact .singleton p.now
      · rw [List.map_singleton, beatsOf_cons_of_not hsends]
        exact .nil
    | @cons _ next _ q reply' rest hsecond hrest =>
      obtain ⟨hrunning, rfl⟩ := hsecond
      simp only [List.map_cons, List.isChain_cons_cons] at hclock
      rw [List.forall_mem_cons] at hrange
      rw [htimestamp] at ih
      have hrest' := ih (List.isChain_cons_cons.mpr ⟨hclock.1.trans hclock.2.1, hclock.2.2⟩)
        hrange.2
      have hdue : Elapsed config first.m_heartBeatTimestamp p.now →
          SendsBeat config first.m_heartBeatTimestamp p := sendsBeat_of_running houtput hrunning
      rw [List.map_cons, List.map_cons, List.isChain_cons_cons, ← List.map_cons, ← hrest',
        List.map_cons]
      by_cases hp : SendsBeat config first.m_heartBeatTimestamp p
      · rw [beatsOf_cons_of_sends hp]
        by_cases hq : SendsBeat config first.m_heartBeatTimestamp q
        · rw [beatsOf_cons_of_sends hq, List.isChain_cons_cons]
          exact and_congr_left fun _ ↦ ⟨fun hapart _ _ ↦ hapart, fun hpaced ↦ hpaced hp.2.1 hq⟩
        · -- The beat is due in `q`, which ends the session because it does not send it.
          have helapsed := elapsed_mono hp.2.1 hclock.1 hclock.2.1
            (hrange.2 _ List.mem_cons_self)
          rw [← htimestamp] at helapsed hq
          have hlast := eq_nil_of_not_sent houtput helapsed hq hrest
          rw [htimestamp] at hq
          rw [beatsOf_cons_of_not hq, hlast]
          exact iff_of_true (.singleton p.now) ⟨fun _ hsends ↦ absurd hsends hq, .nil⟩
      · rw [beatsOf_cons_of_not hp]
        exact (and_iff_right fun helapsed ↦ absurd (hdue helapsed) hp).symm

/-- Assumes: a session of the direction `output` with the passes of a trace, after a client was
accepted at a clock reading `timestamp`; the clock readings do not decrease, and lie within `2 ^ 63`
nanoseconds. Any two beats that follow each other are more than the interval apart exactly when,
once the interval has passed, every pass that sends a beat reads the clock that much after the pass
before it. -/
theorem beats_apart_iff (houtput : config.m_eIoDirection = .output) {m_bExitSession : Bool}
    {timestamp : ℤ} {s : Session} {trace : List (Call Session Pass Unit)}
    (hrun : Run (SessionStep config) (.start config m_bExitSession timestamp) trace s)
    (hclock : (timestamp :: trace.map fun call ↦ call.label.now).IsChain (· ≤ ·))
    (hrange : ∀ call ∈ trace, call.label.now - timestamp < 2 ^ 63) :
    s.beats.IsChain (Apart config.m_heartBeatInterval) ↔
      (trace.map Call.label).IsChain (PacedAfter config timestamp) := by
  rw [beats_of_run houtput hrun]
  exact apart_iff_of_run houtput hrun hclock hrange

/-- A pass of an output session in which a beat is acknowledged if one is sent, and nothing else
happens. -/
def acknowledgedPass (now : ℤ) : Pass where
  available := some 0
  now := now
  beatSent := true
  beatAnswered := true
  isAck := true
  read := false
  later := now
  isExit := false
  processed := false
  updated := false
  written := false
  stillOpen := true
  stopped := false
  remoteAddress := some ['1']

/-- A session with an interval of a millisecond, of two passes, the first of them after 2
milliseconds. The second one follows at the given clock reading. -/
theorem exists_two_passes (second : ℤ) :
    ∃ trace s, Run (SessionStep ⟨.output, true, 1⟩) (.start ⟨.output, true, 1⟩ false 0) trace s ∧
      trace.map Call.label = [acknowledgedPass 2000000, acknowledgedPass second] := by
  have hgoes : (pass ⟨.output, true, 1⟩ (.start ⟨.output, true, 1⟩ false 0)
      (acknowledgedPass 2000000)).status = .running := by decide
  exact ⟨[⟨_, _, ()⟩, ⟨_, _, ()⟩], _, .cons ⟨rfl, rfl⟩ (.cons ⟨hgoes, rfl⟩ (.nil _)), rfl⟩

/-- What the passes of such a session read of the clock. -/
theorem clock_of_two_passes {second : ℤ} (hle : 2000000 ≤ second) (hsecond : second < 2 ^ 63)
    {trace : List (Call Session Pass Unit)}
    (hlabels : trace.map Call.label = [acknowledgedPass 2000000, acknowledgedPass second]) :
    ((0 : ℤ) :: trace.map fun call ↦ call.label.now).IsChain (· ≤ ·) ∧
      ∀ call ∈ trace, call.label.now - 0 < 2 ^ 63 := by
  have hnow : (trace.map fun call ↦ call.label.now) = [2000000, second] := by
    have hmap := congrArg (List.map Pass.now) hlabels
    rwa [List.map_map] at hmap
  constructor
  · rw [hnow, List.isChain_cons_cons, List.isChain_cons_cons]
    exact ⟨by decide, hle, .singleton second⟩
  · intro call hcall
    have hmem : call.label.now ∈ [2000000, second] := hnow ▸ List.mem_map_of_mem hcall
    simp only [List.mem_cons, List.not_mem_nil, or_false] at hmem
    omega

theorem beats_apart_iff_two :
    ∃ trace s, Run (SessionStep ⟨.output, true, 1⟩) (.start ⟨.output, true, 1⟩ false 0) trace s ∧
      trace.map Call.label = [acknowledgedPass 2000000, acknowledgedPass 3000001] ∧
      s.beats.IsChain (Apart 1) := by
  obtain ⟨trace, s, hrun, hlabels⟩ := exists_two_passes 3000001
  obtain ⟨hclock, hrange⟩ := clock_of_two_passes (by decide) (by decide) hlabels
  refine ⟨trace, s, hrun, hlabels, (beats_apart_iff rfl hrun hclock hrange).mpr ?_⟩
  rw [hlabels, List.isChain_cons_cons]
  exact ⟨fun _ _ ↦ by decide, .singleton _⟩

/-- With an interval of a millisecond, acknowledged beats are sent at 2 milliseconds and one
nanosecond later. -/
theorem beats_follow_at_once :
    ∃ trace s, Run (SessionStep ⟨.output, true, 1⟩) (.start ⟨.output, true, 1⟩ false 0) trace s ∧
      trace.map Call.label = [acknowledgedPass 2000000, acknowledgedPass 2000001] ∧
      s.beats = [2000000, 2000001] ∧ ¬s.beats.IsChain (Apart 1) := by
  obtain ⟨trace, s, hrun, hlabels⟩ := exists_two_passes 2000001
  have hbeats : s.beats = [2000000, 2000001] := by
    rw [beats_of_run rfl hrun, hlabels]
    decide
  refine ⟨trace, s, hrun, hlabels, hbeats, ?_⟩
  rw [hbeats, List.isChain_cons_cons]
  exact fun hapart ↦ absurd hapart.1 (by decide)

end RdbLibs.NetIO.CTcpServer
