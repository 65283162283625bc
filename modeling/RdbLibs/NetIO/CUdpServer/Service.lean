import RdbLibs.NetIO.CUdpServer.Lifecycle
import RdbLibs.Thread.OneOwner

/-!
# What `CUdpServer::isRunning` says

A server should have one thread that serves while `m_bRunning` is set, and none while it is not. Its
owner can do three things to it that end this. `setRunning` clears the flag of a server that runs,
whatever its argument is. `stop` looks at `isActive`, which the thread makes true when it starts to
run, and leaves a thread that has not come so far. A thread that is started when `m_bExit` is set,
as it is from the first thread that was stopped on, ends at once.

So the first `start` that succeeds has to be the last one (`orderly_iff`). While nothing goes wrong
the thread is guarded, as in `LiveWorker.lean`: the owner calls `createThread` when there is no
thread, and `stopThread` when there is one.
-/

set_option autoImplicit false
set_option relaxedAutoImplicit false

namespace RdbLibs.NetIO.CUdpServer

open Runs Thread

/-- Between calls, a server that runs has exactly one thread, which nothing tells to end, and one
that does not run has none. -/
def Orderly (s : CUdpServer) : Prop :=
  s.owner = .idle →
    (s.m_bRunning = true → s.m_bExit = false ∧ ∃! thread, s.m_srvrThread.Live thread) ∧
      (s.m_bRunning = false → ∀ thread, ¬s.m_srvrThread.Live thread)

/-- A call of `setRunning` finds the server not running, and one of `stop` that returns has not
passed over a thread. -/
structure Careful (call : Call CUdpServer Turn (Option Reply)) : Prop where
  setRunning : ∀ bVal, call.label = .setRunning bVal → call.before.m_bRunning = false
  stopped : call.reply = some (.stopped true) → call.before.owner ≠ .clearRunning false

theorem careful_iff (before : CUdpServer) (label : Turn) (reply : Option Reply) :
    Careful ⟨before, label, reply⟩ ↔
      (∀ bVal, label = .setRunning bVal → before.m_bRunning = false) ∧
        (reply = some (.stopped true) → before.owner ≠ .clearRunning false) :=
  ⟨fun h ↦ ⟨h.setRunning, h.stopped⟩, fun h ↦ ⟨h.1, h.2⟩⟩

/-- A careful call, that is not a `start` that succeeds with a thread that ends at once. -/
structure KeepsOrder (call : Call CUdpServer Turn (Option Reply)) : Prop extends Careful call where
  started : call.reply = some (.started true) → call.before.m_bExit = false

/-! ### What the calls keep -/

/-- No call of the thread object is in progress. -/
structure Between (s : CUdpServer) : Prop where
  creating : s.m_srvrThread.creating = none
  stopping : s.m_srvrThread.stopping = none

/-- A server that does not run, after `started` calls of `start` that succeeded. -/
structure Down (started : ℕ) (s : CUdpServer) : Prop where
  running : s.m_bRunning = false
  started : started = s.m_bExit.toNat

/-- A server that runs and has its thread. -/
structure Up (started : ℕ) (s : CUdpServer) : Prop where
  running : s.m_bRunning = true
  exit : s.m_bExit = false
  started : started = 1
  live : ∃ thread, s.m_srvrThread.Live thread

/-- A server whose thread was told to end. -/
structure Ending (started : ℕ) (s : CUdpServer) : Prop where
  running : s.m_bRunning = true
  exit : s.m_bExit = true
  started : started = 1

/-- No thread that was not joined. -/
def NoThread (s : CUdpServer) : Prop := ∀ thread, ¬s.m_srvrThread.Unjoined thread

/-- A server between calls, or at the first step of one. -/
def Rests (started : ℕ) (s : CUdpServer) : Prop :=
  s.Between ∧ (s.Down started ∧ s.NoThread ∨ s.Up started)

/-- What is true while the owner is at a step, after `started` calls of `start` that succeeded. -/
def Stage (started : ℕ) (s : CUdpServer) : Prop :=
  match s.owner with
  | .idle | .testRunning | .testStop => s.Rests started
  | .open => s.Between ∧ s.Down started ∧ s.NoThread
  | .createThread => s.m_srvrThread.stopping = none ∧ s.Down started ∧
      s.m_srvrThread.Creating s.m_bExit
  | .setRunning => s.Between ∧ s.Down started ∧
      (s.m_bExit = false → ∃ thread, s.m_srvrThread.Live thread)
  | .isActive => s.Between ∧ s.Up started
  | .stopContext => s.Between ∧ s.Up started ∧ s.m_srvrThread.m_running = true
  | .stopThread => s.m_srvrThread.creating = none ∧ s.Ending started ∧
      (¬CThreadBase.IsStopping s.m_srvrThread.stopping → s.m_srvrThread.m_running = true)
  | .clearRunning true => s.Between ∧ s.Ending started ∧ s.NoThread
  | .clearRunning false => s.Between ∧ s.Up started

variable {started : ℕ} {s after : CUdpServer} {reply : Option Reply}

theorem NoThread.not_live (h : s.NoThread) (thread : ℕ) : ¬s.m_srvrThread.Live thread :=
  fun hlive ↦ h thread hlive.unjoined

/-- Other members do not matter to a server between calls. -/
theorem Rests.congr (h : s.Rests started) (hrunning : after.m_bRunning = s.m_bRunning)
    (hexit : after.m_bExit = s.m_bExit) (hthread : after.m_srvrThread = s.m_srvrThread) :
    after.Rests started := by
  obtain ⟨⟨hcreating, hstopping⟩, hsettled⟩ := h
  unfold Rests NoThread
  rw [hthread]
  refine ⟨⟨hthread ▸ hcreating, hthread ▸ hstopping⟩, hsettled.imp (fun hdown ↦ ?_) fun hup ↦ ?_⟩
  · exact ⟨⟨hrunning.trans hdown.1.1, hexit ▸ hdown.1.2⟩, hdown.2⟩
  · exact ⟨hrunning.trans hup.1, hexit.trans hup.2, hup.3, hthread ▸ hup.4⟩

theorem Stage.rests (h : Stage started s) (hidle : s.owner = .idle) : s.Rests started := by
  unfold Stage at h
  rwa [hidle] at h

/-- Steps of the threads change no stage, if no thread ends that was not told to. -/
theorem Stage.advance (h : Stage started s) (howner : after.owner = s.owner)
    (hrunning : after.m_bRunning = s.m_bRunning) (hexit : after.m_bExit = s.m_bExit)
    (hadvances : s.m_srvrThread.Advances after.m_srvrThread)
    (hlive : s.m_bExit = false → ∀ thread, s.m_srvrThread.Live thread →
      after.m_srvrThread.Live thread) : Stage started after := by
  obtain ⟨hcreating, hstopping, hhandle, hactive, hunjoined⟩ := hadvances
  have hbetween (hb : s.Between) : after.Between :=
    ⟨hcreating.trans hb.creating, hstopping.trans hb.stopping⟩
  have hdown (hd : s.Down started) : after.Down started :=
    ⟨hrunning.trans hd.running, hexit ▸ hd.started⟩
  have hlives (hquits : s.m_bExit = false)
      (hone : ∃ other, s.m_srvrThread.Live other) : ∃ other, after.m_srvrThread.Live other :=
    hone.imp (hlive hquits)
  have hup (hu : s.Up started) : after.Up started :=
    ⟨hrunning.trans hu.running, hexit.trans hu.exit, hu.started, hlives hu.exit hu.live⟩
  have hending (he : s.Ending started) : after.Ending started :=
    ⟨hrunning.trans he.running, hexit.trans he.exit, he.started⟩
  have hnone (hn : s.NoThread) : after.NoThread :=
    fun other hother ↦ hn other (hunjoined other hother)
  unfold Stage at h ⊢
  rw [howner]
  cases hphase : s.owner with
  | idle | testRunning | testStop =>
    rw [hphase] at h
    exact ⟨hbetween h.1, h.2.imp (fun hd ↦ ⟨hdown hd.1, hnone hd.2⟩) hup⟩
  | «open» =>
    rw [hphase] at h
    exact ⟨hbetween h.1, hdown h.2.1, hnone h.2.2⟩
  | createThread =>
    rw [hphase] at h
    obtain ⟨hstop, hd, hc⟩ := h
    refine ⟨hstopping.trans hstop, hdown hd, ?_⟩
    unfold CThreadBase.Creating at hc ⊢
    rw [hcreating, hexit]
    cases hcreate : s.m_srvrThread.creating with
    | none =>
      rw [hcreate] at hc
      exact fun other hother ↦ hc other (hunjoined other hother)
    | some phase =>
      rw [hcreate] at hc
      cases phase with
      | test | start => exact fun other hother ↦ hc other (hunjoined other hother)
      | assign => exact fun hquits ↦ hlives hquits (hc hquits)
      | check => exact ⟨hhandle ▸ hc.1, fun hquits ↦ hlives hquits (hc.2 hquits)⟩
  | setRunning =>
    rw [hphase] at h
    exact ⟨hbetween h.1, hdown h.2.1,
      fun hquits ↦ hlives (hexit ▸ hquits) (h.2.2 (hexit ▸ hquits))⟩
  | isActive =>
    rw [hphase] at h
    exact ⟨hbetween h.1, hup h.2⟩
  | stopContext =>
    rw [hphase] at h
    exact ⟨hbetween h.1, hup h.2.1, hactive h.2.2⟩
  | stopThread =>
    rw [hphase] at h
    exact ⟨hcreating.trans h.1, hending h.2.1, fun hnot ↦ hactive (h.2.2 (hstopping ▸ hnot))⟩
  | clearRunning active =>
    rw [hphase] at h
    cases active with
    | true => exact ⟨hbetween h.1, hending h.2.1, hnone h.2.2⟩
    | false => exact ⟨hbetween h.1, hup h.2⟩

/-- The steps of a thread. -/
theorem Stage.threadStep (h : Stage started s) (hguarded : s.m_srvrThread.Guarded) {thread : ℕ}
    (hstep : s.threadStep thread = some (reply, after)) :
    Stage started after ∧ after.m_srvrThread.Guarded ∧ reply ≠ some (.started true) := by
  unfold CUdpServer.threadStep at hstep
  split_ifs at hstep with hhandler hpass
  · obtain ⟨rfl, rfl⟩ := Prod.mk.inj (Option.some.inj hstep)
    exact ⟨h.advance rfl rfl rfl (.refl _) fun _ _ ↦ id, hguarded, by simp⟩
  · obtain ⟨rfl, rfl⟩ := Prod.mk.inj (Option.some.inj hstep)
    exact ⟨h.advance rfl rfl rfl (.refl _) fun _ _ ↦ id, hguarded, by simp⟩
  · obtain ⟨m_srvrThread, hthread, hafter⟩ := Option.map_eq_some_iff.mp hstep
    obtain ⟨rfl, rfl⟩ := Prod.mk.inj hafter
    refine ⟨h.advance rfl rfl rfl (CThreadBase.advances_newThread hthread) fun hquits other hother ↦
      hother.newThread hthread fun hrunning ↦ hpass ⟨hrunning, hquits⟩, hguarded.newThread hthread,
      by simp⟩

/-- How many calls of `start` a step lets succeed. -/
def successes (reply : Option Reply) : ℕ := (decide (reply = some (.started true))).toNat

/-- The steps of `start`. -/
theorem Stage.start (h : Stage started s) (hguarded : s.m_srvrThread.Guarded) {granted : Bool}
    {thread : Option ℕ} (hstep : s.ownerStep granted thread = some (reply, after))
    (hmeets : KeepsOrder ⟨s, .owner granted thread, reply⟩)
    (hphase : s.owner = .testRunning ∨ s.owner = .open ∨ s.owner = .createThread ∨
      s.owner = .setRunning) :
    Stage (started + successes reply) after ∧ after.m_srvrThread.Guarded := by
  unfold Stage at h
  rcases hphase with howner | howner | howner | howner <;> rw [howner] at h
  · simp only [CUdpServer.ownerStep, howner, returns, goesOn] at hstep
    split_ifs at hstep with hrunning <;> obtain ⟨rfl, rfl⟩ := Prod.mk.inj (Option.some.inj hstep)
    · exact ⟨h.congr rfl rfl rfl, hguarded⟩
    · obtain hdown | hup := h.2
      · exact ⟨⟨⟨h.1.creating, h.1.stopping⟩, ⟨hdown.1.1, hdown.1.2⟩, hdown.2⟩, hguarded⟩
      · exact absurd hup.running hrunning
  · obtain ⟨hbetween, hdown, hnone⟩ := h
    simp only [CUdpServer.ownerStep, howner, returns, goesOn] at hstep
    split_ifs at hstep with hgranted <;> obtain ⟨rfl, rfl⟩ := Prod.mk.inj (Option.some.inj hstep)
    · refine ⟨⟨hbetween.stopping, ⟨hdown.1, hdown.2⟩, ?_⟩, hguarded⟩
      unfold CThreadBase.Creating
      dsimp only
      rw [hbetween.creating]
      exact hnone
    · exact ⟨⟨⟨hbetween.1, hbetween.2⟩, .inl ⟨⟨hdown.1, hdown.2⟩, hnone⟩⟩, hguarded⟩
  · obtain ⟨hstopping, hdown, hcreating⟩ := h
    simp only [CUdpServer.ownerStep, howner, returns, goesOn, Option.bind_eq_bind,
      Option.bind_eq_some_iff] at hstep
    obtain ⟨⟨created, m_srvrThread⟩, hcreate, hstep⟩ := hstep
    obtain ⟨hstill, hgoes, hsuccess, hnone⟩ := hcreating.createThread hcreate
    have hcareful : CThreadBase.IsCareful ⟨s.m_srvrThread, .createThread thread, created⟩ := by
      intro htest _ other hstarting
      have hother : s.m_srvrThread.Live other := .inl hstarting
      unfold CThreadBase.Creating at hcreating
      rw [show s.m_srvrThread.creating = _ from htest] at hcreating
      exact hcreating other hother.unjoined
    have hguarded' := hguarded.createThread hcareful hcreate
    split_ifs at hstep with hagain hcreated <;>
      obtain ⟨rfl, rfl⟩ := Prod.mk.inj (Option.some.inj hstep)
    · exact ⟨⟨hstill.trans hstopping, ⟨hdown.1, hdown.2⟩, hgoes hagain⟩, hguarded'⟩
    · exact ⟨⟨⟨not_not.mp hagain, hstill.trans hstopping⟩, ⟨hdown.1, hdown.2⟩,
        hsuccess (not_not.mp hagain) hcreated⟩, hguarded'⟩
    · exact ⟨⟨⟨not_not.mp hagain, hstill.trans hstopping⟩, .inl ⟨⟨hdown.1, hdown.2⟩,
        hnone (not_not.mp hagain) hcreated⟩⟩, hguarded'⟩
  · obtain ⟨hbetween, hdown, hlive⟩ := h
    simp only [CUdpServer.ownerStep, howner, returns] at hstep
    obtain ⟨rfl, rfl⟩ := Prod.mk.inj (Option.some.inj hstep)
    have hexit : s.m_bExit = false := hmeets.started rfl
    have hfirst : started = 0 := by
      rw [hdown.started, hexit]
      rfl
    exact ⟨⟨⟨hbetween.1, hbetween.2⟩, .inr ⟨rfl, hexit, by rw [hfirst]; rfl, hlive hexit⟩⟩,
      hguarded⟩

/-- The steps of `stop`. -/
theorem Stage.stop (h : Stage started s) (hguarded : s.m_srvrThread.Guarded) {granted : Bool}
    {thread : Option ℕ} (hstep : s.ownerStep granted thread = some (reply, after))
    (hmeets : KeepsOrder ⟨s, .owner granted thread, reply⟩)
    (hphase : s.owner = .testStop ∨ s.owner = .isActive ∨ s.owner = .stopContext ∨
      s.owner = .stopThread ∨ ∃ active, s.owner = .clearRunning active) :
    Stage (started + successes reply) after ∧ after.m_srvrThread.Guarded := by
  unfold Stage at h
  rcases hphase with howner | howner | howner | howner | ⟨active, howner⟩ <;> rw [howner] at h
  · simp only [CUdpServer.ownerStep, howner, returns, goesOn] at hstep
    split_ifs at hstep with hrunning <;> obtain ⟨rfl, rfl⟩ := Prod.mk.inj (Option.some.inj hstep)
    · exact ⟨h.congr rfl rfl rfl, hguarded⟩
    · obtain hdown | hup := h.2
      · exact absurd hdown.1.running hrunning
      · exact ⟨⟨⟨h.1.creating, h.1.stopping⟩, ⟨hup.1, hup.2, hup.3, hup.4⟩⟩, hguarded⟩
  · obtain ⟨hbetween, hup⟩ := h
    simp only [CUdpServer.ownerStep, howner, goesOn] at hstep
    split_ifs at hstep with hactive <;> obtain ⟨rfl, rfl⟩ := Prod.mk.inj (Option.some.inj hstep)
    · exact ⟨⟨⟨hbetween.1, hbetween.2⟩, ⟨hup.1, hup.2, hup.3, hup.4⟩, hactive⟩, hguarded⟩
    · exact ⟨⟨⟨hbetween.1, hbetween.2⟩, ⟨hup.1, hup.2, hup.3, hup.4⟩⟩, hguarded⟩
  · obtain ⟨hbetween, hup, hactive⟩ := h
    simp only [CUdpServer.ownerStep, howner, goesOn] at hstep
    obtain ⟨rfl, rfl⟩ := Prod.mk.inj (Option.some.inj hstep)
    exact ⟨⟨hbetween.creating, ⟨hup.running, rfl, hup.started⟩, fun _ ↦ hactive⟩, hguarded⟩
  · obtain ⟨hcreating, hending, hactive⟩ := h
    simp only [CUdpServer.ownerStep, howner, goesOn, Option.bind_eq_bind,
      Option.bind_eq_some_iff] at hstep
    obtain ⟨m_srvrThread, hstop, hstep⟩ := hstep
    obtain ⟨hstill, hgoes, hnone⟩ := hguarded.stopThread_active hactive hstop
    have hcareful (reply : Option Bool) :
        CThreadBase.IsCareful ⟨s.m_srvrThread, .stopThread true, reply⟩ := by
      intro _ _ other hassign
      rw [hcreating] at hassign
      cases hassign
    have hguarded' := hguarded.stopThread (hcareful none) hstop
    obtain ⟨rfl, rfl⟩ := Prod.mk.inj (Option.some.inj hstep)
    refine ⟨?_, hguarded'⟩
    unfold Stage
    dsimp only
    by_cases hdone : m_srvrThread.stopping = none
    · rw [if_pos hdone]
      exact ⟨⟨hstill.trans hcreating, hdone⟩, ⟨hending.1, hending.2, hending.3⟩, hnone hdone⟩
    · rw [if_neg hdone]
      exact ⟨hstill.trans hcreating, ⟨hending.1, hending.2, hending.3⟩, hgoes hdone⟩
  · simp only [CUdpServer.ownerStep, howner, returns] at hstep
    obtain ⟨rfl, rfl⟩ := Prod.mk.inj (Option.some.inj hstep)
    cases active with
    | true =>
      obtain ⟨hbetween, hending, hnone⟩ := h
      refine ⟨⟨⟨hbetween.1, hbetween.2⟩, .inl ⟨⟨rfl, ?_⟩, hnone⟩⟩, hguarded⟩
      show started + 0 = s.m_bExit.toNat
      rw [hending.started, hending.exit]
      rfl
    | false => exact absurd howner (hmeets.stopped rfl)

/-- Every step that keeps the order. -/
theorem Stage.step (h : Stage started s) (hguarded : s.m_srvrThread.Guarded) {whose : Turn}
    (hstep : Step s whose reply after) (hmeets : KeepsOrder ⟨s, whose, reply⟩) :
    Stage (started + successes reply) after ∧ after.m_srvrThread.Guarded := by
  cases whose with
  | setPort nPort =>
    simp only [Step, turn, returns] at hstep
    split_ifs at hstep with hidle hrunning <;>
      obtain ⟨rfl, rfl⟩ := Prod.mk.inj (Option.some.inj hstep)
    · exact ⟨(h.rests (not_not.mp hidle)).congr rfl rfl rfl, hguarded⟩
    · exact ⟨(h.rests (not_not.mp hidle)).congr rfl rfl rfl, hguarded⟩
  | setRunning bVal =>
    simp only [Step, turn] at hstep
    split_ifs at hstep with hidle
    obtain ⟨rfl, rfl⟩ := Prod.mk.inj (Option.some.inj hstep)
    have hrunning : s.m_bRunning = false := hmeets.setRunning bVal rfl
    have hsame : { s with m_bRunning := false } = s := by rw [← hrunning]
    rw [hsame]
    exact ⟨h, hguarded⟩
  | start =>
    simp only [Step, turn, goesOn] at hstep
    split_ifs at hstep with hidle
    obtain ⟨rfl, rfl⟩ := Prod.mk.inj (Option.some.inj hstep)
    exact ⟨(h.rests (not_not.mp hidle)).congr rfl rfl rfl, hguarded⟩
  | stop =>
    simp only [Step, turn, goesOn] at hstep
    split_ifs at hstep with hidle
    obtain ⟨rfl, rfl⟩ := Prod.mk.inj (Option.some.inj hstep)
    exact ⟨(h.rests (not_not.mp hidle)).congr rfl rfl rfl, hguarded⟩
  | owner granted thread =>
    cases howner : s.owner with
    | idle => simp [Step, turn, CUdpServer.ownerStep, howner] at hstep
    | testRunning | «open» | createThread | setRunning =>
      exact h.start hguarded hstep hmeets (by simp [howner])
    | testStop | isActive | stopContext | stopThread | clearRunning =>
      exact h.stop hguarded hstep hmeets (by simp [howner])
  | thread thread =>
    obtain ⟨hafter, hguarded', hreply⟩ := h.threadStep hguarded hstep
    rw [successes, decide_eq_false hreply]
    exact ⟨hafter, hguarded'⟩

theorem Stage.started_le (h : Stage started s) : started ≤ 1 := by
  have hdown (hd : s.Down started) : started ≤ 1 := hd.started ▸ Bool.toNat_le _
  have hrests (hr : s.Rests started) : started ≤ 1 :=
    hr.2.elim (fun hd ↦ hdown hd.1) fun hup ↦ Nat.le_of_eq hup.started
  unfold Stage at h
  cases howner : s.owner with
  | idle | testRunning | testStop =>
    rw [howner] at h
    exact hrests h
  | «open» | createThread | setRunning =>
    rw [howner] at h
    exact hdown h.2.1
  | isActive =>
    rw [howner] at h
    exact Nat.le_of_eq h.2.started
  | stopContext | stopThread =>
    rw [howner] at h
    exact Nat.le_of_eq h.2.1.started
  | clearRunning active =>
    rw [howner] at h
    cases active with
    | true => exact Nat.le_of_eq h.2.1.started
    | false => exact Nat.le_of_eq h.2.started

/-- Between calls, the stage of a server is orderly. -/
theorem Stage.orderly (h : Stage started s) (hguarded : s.m_srvrThread.Guarded) : s.Orderly := by
  intro hidle
  obtain ⟨-, ⟨hdown, hnone⟩ | hup⟩ := h.rests hidle
  · exact ⟨fun hrunning ↦ absurd (hdown.running.symm.trans hrunning) Bool.false_ne_true,
      fun _ ↦ hnone.not_live⟩
  · obtain ⟨thread, hlive⟩ := hup.live
    refine ⟨fun _ ↦ ⟨hup.exit, thread, hlive, fun other hother ↦ ?_⟩, fun hstopped ↦ ?_⟩
    · exact hguarded.safe.1 other thread hother hlive
    · exact absurd (hstopped.symm.trans hup.running) Bool.false_ne_true

/-! ### What ends the order -/

/-- Only the last step of `start` answers true. -/
theorem eq_of_started {whose : Turn} (hstep : Step s whose (some (.started true)) after) :
    s.owner = .setRunning ∧ after = { s with m_bRunning := true, owner := .idle } := by
  cases whose with
  | setPort nPort =>
    simp only [Step, turn, returns] at hstep
    split_ifs at hstep <;> simp at hstep
  | setRunning bVal =>
    simp only [Step, turn] at hstep
    split_ifs at hstep
    simp at hstep
  | start | stop =>
    simp only [Step, turn, goesOn] at hstep
    split_ifs at hstep
    simp at hstep
  | thread thread =>
    simp only [Step, turn, CUdpServer.threadStep] at hstep
    split_ifs at hstep <;> simp at hstep
  | owner granted thread =>
    simp only [Step, turn, CUdpServer.ownerStep, returns, goesOn] at hstep
    cases howner : s.owner with
    | idle => simp [howner] at hstep
    | setRunning =>
      simp only [howner, Option.some.injEq, Prod.mk.injEq, true_and] at hstep
      exact ⟨rfl, hstep.symm⟩
    | stopContext | clearRunning => simp [howner] at hstep
    | createThread =>
      simp only [howner, Option.bind_eq_bind, Option.bind_eq_some_iff] at hstep
      obtain ⟨created, -, hstep⟩ := hstep
      split_ifs at hstep <;> simp at hstep
    | stopThread =>
      simp only [howner, Option.bind_eq_bind, Option.bind_eq_some_iff] at hstep
      obtain ⟨m_srvrThread, -, hstep⟩ := hstep
      simp at hstep
    | testRunning | «open» | testStop | isActive =>
      simp only [howner] at hstep
      split_ifs at hstep <;> simp at hstep

/-- The last step of `stop`. -/
theorem eq_of_stopped {whose : Turn} {active : Bool} (howner : s.owner = .clearRunning active)
    (hstep : Step s whose (some (.stopped true)) after) :
    after = { s with m_bRunning := false, owner := .idle } := by
  have hbusy : s.owner ≠ .idle := by simp [howner]
  cases whose with
  | setPort | setRunning | start | stop => simp [Step, turn, hbusy] at hstep
  | thread thread =>
    simp only [Step, turn, CUdpServer.threadStep] at hstep
    split_ifs at hstep <;> simp at hstep
  | owner granted thread =>
    simp only [Step, turn, CUdpServer.ownerStep, returns, howner, Option.some.injEq,
      Prod.mk.injEq, true_and] at hstep
    exact hstep.symm

/-- A step that does one of the things that end the order ends it. -/
theorem Stage.keepsOrder (h : Stage started s) {whose : Turn} (hstep : Step s whose reply after)
    (horderly : after.Orderly) : KeepsOrder ⟨s, whose, reply⟩ := by
  refine ⟨⟨fun bVal hwhose ↦ ?_, fun hreply howner ↦ ?_⟩, fun hreply ↦ ?_⟩
  · obtain rfl : whose = .setRunning bVal := hwhose
    simp only [Step, turn] at hstep
    split_ifs at hstep with hidle
    obtain ⟨rfl, rfl⟩ := Prod.mk.inj (Option.some.inj hstep)
    obtain ⟨-, ⟨hdown, -⟩ | hup⟩ := h.rests (not_not.mp hidle)
    · exact hdown.running
    · obtain ⟨thread, hlive⟩ := hup.live
      exact absurd hlive ((horderly (not_not.mp hidle)).2 rfl thread)
  · obtain rfl : reply = some (.stopped true) := hreply
    obtain rfl := eq_of_stopped howner hstep
    unfold Stage at h
    rw [show s.owner = _ from howner] at h
    obtain ⟨thread, hlive⟩ := h.2.live
    exact absurd hlive ((horderly rfl).2 rfl thread)
  · obtain rfl : reply = some (.started true) := hreply
    obtain ⟨-, rfl⟩ := eq_of_started hstep
    exact ((horderly rfl).1 rfl).1

/-! ### Runs -/

/-- A `start` that succeeds finds `m_bExit` set when another one has succeeded before. -/
theorem keepsOrder_iff {trace : List (Call CUdpServer Turn (Option Reply))} {final : CUdpServer}
    (hrun : Run Step s trace final) : ∀ started, Stage started s → s.m_srvrThread.Guarded →
      ((∀ call ∈ trace, KeepsOrder call) ↔
        started + trace.countP (fun call ↦ call.reply = some (.started true)) ≤ 1 ∧
          ∀ call ∈ trace, Careful call) := by
  induction hrun with
  | nil s =>
    intro started h _
    exact iff_of_true (List.forall_mem_nil _) ⟨h.started_le, List.forall_mem_nil _⟩
  | @cons s middle final whose reply rest hfirst _ ih =>
    intro started h hguarded
    rw [List.forall_mem_cons, List.forall_mem_cons, List.countP_cons]
    by_cases hmeets : KeepsOrder ⟨s, whose, reply⟩
    · obtain ⟨hmiddle, hguarded'⟩ := h.step hguarded hfirst hmeets
      have hcount : started + successes reply +
          rest.countP (fun call ↦ call.reply = some (.started true)) =
            started + (rest.countP (fun call ↦ call.reply = some (.started true)) +
              if decide (reply = some (.started true)) = true then 1 else 0) := by
        unfold successes
        cases decide (reply = some (.started true)) <;> simp [Nat.add_assoc, Nat.add_comm 1]
      rw [and_iff_right hmeets, ih _ hmiddle hguarded', hcount, and_iff_right hmeets.toCareful]
    · refine iff_of_false (fun hall ↦ hmeets hall.1) ?_
      rintro ⟨hcount, hcareful, -⟩
      refine hmeets ⟨hcareful, fun hreply ↦ ?_⟩
      obtain rfl : reply = some (.started true) := hreply
      obtain ⟨howner, -⟩ := eq_of_started hfirst
      unfold Stage at h
      rw [howner] at h
      have hfirst : s.m_bExit.toNat = 0 := by
        rw [← h.2.1.started]
        simp only [decide_true, if_true] at hcount
        omega
      exact Bool.toNat_eq_zero.mp hfirst

/-- In every run, the server is orderly in all states between the calls of its owner exactly when
`start` succeeds at most once, `stop` does not pass over a thread that has not come to run, and
`setRunning` is not called while the server runs. -/
theorem orderly_iff {nPort : ℕ} {trace : List (Call CUdpServer Turn (Option Reply))}
    {final : CUdpServer} (hrun : Run Step (new nPort) trace final) :
    (∀ call ∈ trace, call.before.Orderly) ∧ final.Orderly ↔
      trace.countP (fun call ↦ call.reply = some (.started true)) ≤ 1 ∧
        ∀ call ∈ trace, Careful call := by
  have hguarded : (new nPort).m_srvrThread.Guarded := CThreadBase.guarded_new
  have hnew : Stage 0 (new nPort) :=
    ⟨⟨rfl, rfl⟩, .inl ⟨⟨rfl, rfl⟩, fun thread hthread ↦ hthread.1 rfl⟩⟩
  have horder : (Obeys (fun started call ↦ started + successes call.reply)
      (fun _ call ↦ call.before.Orderly) 0 trace ∧ final.Orderly) ↔ ∀ call ∈ trace,
        KeepsOrder call := hrun.obeys_iff
    (fun s started ↦ Stage started s ∧ s.m_srvrThread.Guarded) (fun s _ ↦ s.Orderly)
    (fun _ _ h ↦ h.1.orderly h.2) (fun _ _ h ↦ h)
    (fun _ _ _ _ _ h hstep hmeets ↦ ⟨h.1.orderly h.2, h.1.step h.2 hstep hmeets⟩)
    (fun _ _ _ _ _ h hstep hbreaks horderly ↦ hbreaks (h.1.keepsOrder hstep horderly))
    0 ⟨hnew, hguarded⟩
  rw [obeys_iff_forall] at horder
  rw [horder, keepsOrder_iff hrun 0 hnew hguarded, Nat.zero_add]

/-- A server is started, its thread handles a message, and it is stopped. -/
theorem exists_careful : ∃ trace final, Run Step (new 5) trace final ∧
    trace.countP (fun call ↦ call.reply = some (.started true)) ≤ 1 ∧
      ∀ call ∈ trace, Careful call := by
  refine Run.exists_cons .start rfl ?_
  refine Run.exists_cons (.owner true none) rfl ?_
  refine Run.exists_cons (.owner true none) rfl ?_
  refine Run.exists_cons (.owner true none) rfl ?_
  refine Run.exists_cons (.owner true none) rfl ?_
  refine Run.exists_cons (.owner true (some 0)) rfl ?_
  refine Run.exists_cons (.owner true none) rfl ?_
  refine Run.exists_cons (.owner true none) rfl ?_
  refine Run.exists_cons (.owner true none) rfl ?_
  refine Run.exists_cons (.thread 0) rfl ?_
  refine Run.exists_cons (.thread 0) rfl ?_
  refine Run.exists_cons .stop rfl ?_
  refine Run.exists_cons (.owner true none) rfl ?_
  refine Run.exists_cons (.owner true none) rfl ?_
  refine Run.exists_cons (.owner true none) rfl ?_
  refine Run.exists_cons (.owner true none) rfl ?_
  refine Run.exists_cons (.owner true none) rfl ?_
  refine Run.exists_cons (.owner true none) rfl ?_
  refine Run.exists_cons (.owner true none) rfl ?_
  refine Run.exists_cons (.owner true none) rfl ?_
  refine Run.exists_cons (.thread 0) rfl ?_
  refine Run.exists_cons (.thread 0) rfl ?_
  refine Run.exists_cons (.owner true none) rfl ?_
  refine Run.exists_cons (.owner true none) rfl ?_
  refine Run.exists_cons (.owner true none) rfl ?_
  refine Run.exists_cons (.owner true none) rfl ?_
  refine ⟨[], _, .nil _, by simp, ?_⟩
  simp [careful_iff]

theorem orderly_iff_once : ∃ trace final, Run Step (new 5) trace final ∧
    (∀ call ∈ trace, call.before.Orderly) ∧ final.Orderly := by
  obtain ⟨trace, final, hrun, hcareful⟩ := exists_careful
  exact ⟨trace, final, hrun, (orderly_iff hrun).mpr hcareful⟩

end RdbLibs.NetIO.CUdpServer
