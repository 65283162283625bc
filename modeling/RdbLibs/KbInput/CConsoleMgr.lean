import RdbLibs.Foundations.Runs

/-!
# `CConsoleMgr`

The terminal settings of `Src/KbInput/KbInput.c` and the class of `Src/KbInput/CConsoleMgr.h` that
manages them, as they are compiled where `WINDOWS` is not defined. Of a `struct termios` only the
local modes `c_lflag` are read or changed. `tcgetattr` and `tcsetattr` read and store them, and
nothing else changes them. The system headers decide which bits `ICANON` and `ECHO` are; here they
are two distinct bits of a word of any width.

The class should clear two bits and put them back. `setTermiosEcho` also clears `ICANON`, and when
it sets `ECHO` it does not ask whether the bit was set before; `setTermiosBuffering` with `true`
keeps nothing but `ICANON`, a bit that is clear at that moment. `manages_iff` says which calls are
harmless.
-/

set_option autoImplicit false
set_option relaxedAutoImplicit false

namespace RdbLibs.KbInput

/-- The bits of `c_lflag` that the system headers name. -/
structure LocalModes (w : ℕ) where
  icanon : Fin w
  echo : Fin w
  distinct : icanon ≠ echo

/-- `struct termios`. -/
structure Termios (w : ℕ) where
  c_lflag : BitVec w
deriving DecidableEq

variable {w : ℕ} (modes : LocalModes w)

/-- The mask `ICANON`. -/
def LocalModes.ICANON : BitVec w := BitVec.twoPow w modes.icanon

/-- The mask `ECHO`. -/
def LocalModes.ECHO : BitVec w := BitVec.twoPow w modes.echo

/-- `setTermiosEcho`: what it leaves in `save`, and the terminal. -/
def setTermiosEcho (bEcho : Bool) (terminal : Termios w) : Termios w × Termios w :=
  let save := terminal
  let c_lflag := save.c_lflag &&& ~~~modes.ICANON
  let c_lflag := if bEcho then c_lflag ||| modes.ECHO else c_lflag &&& ~~~modes.ECHO
  (save, ⟨c_lflag⟩)

/-- `setTermiosBuffering`: what it leaves in `save`, and the terminal. -/
def setTermiosBuffering (bBuffering : Bool) (terminal : Termios w) : Termios w × Termios w :=
  let save := terminal
  let c_lflag := if bBuffering then save.c_lflag &&& modes.ICANON
    else save.c_lflag &&& ~~~modes.ICANON
  (save, ⟨c_lflag⟩)

/-- A `CConsoleMgr`, with the terminal it manages. -/
structure CConsoleMgr (w : ℕ) where
  m_tioSave : Termios w
  m_bKbBufferingDisabled : Bool
  m_bKbEchoDisabled : Bool
  terminal : Termios w
deriving DecidableEq

/-- A call of the class, with its argument. -/
inductive ConsoleCall
  | dsableKbBuffering (val : Bool)
  | dsableKbEcho (val : Bool)
deriving DecidableEq

namespace CConsoleMgr

/-- The constructor. -/
def new (terminal : Termios w) : CConsoleMgr w := ⟨terminal, false, false, terminal⟩

/-- `CConsoleMgr::restore`. -/
def restore (s : CConsoleMgr w) : CConsoleMgr w := { s with terminal := s.m_tioSave }

/-- `CConsoleMgr::dsableKbBuffering`. -/
def dsableKbBuffering (s : CConsoleMgr w) (val : Bool) : Bool × CConsoleMgr w :=
  if val = true then
    if s.m_bKbBufferingDisabled = true then (false, s)
    else (true, { s with
      terminal := (setTermiosBuffering modes false s.terminal).2
      m_bKbBufferingDisabled := true })
  else
    if s.m_bKbBufferingDisabled = false then (false, s)
    else (true, { s with
      terminal := (setTermiosBuffering modes true s.terminal).2
      m_bKbBufferingDisabled := false })

/-- `CConsoleMgr::dsableKbEcho`. -/
def dsableKbEcho (s : CConsoleMgr w) (val : Bool) : Bool × CConsoleMgr w :=
  if val = true then
    if s.m_bKbEchoDisabled = true then (false, s)
    else (true, { s with
      terminal := (setTermiosEcho modes false s.terminal).2
      m_bKbEchoDisabled := true })
  else
    if s.m_bKbEchoDisabled = false then (false, s)
    else (true, { s with
      terminal := (setTermiosEcho modes true s.terminal).2
      m_bKbEchoDisabled := false })

/-- The destructor, which leaves the terminal. -/
def destroy (s : CConsoleMgr w) : Termios w :=
  if s.m_bKbBufferingDisabled = true ∨ s.m_bKbEchoDisabled = true then s.restore.terminal
  else s.terminal

/-- What a call makes of the object and the terminal. -/
def perform (s : CConsoleMgr w) : ConsoleCall → CConsoleMgr w
  | .dsableKbBuffering val => (s.dsableKbBuffering modes val).2
  | .dsableKbEcho val => (s.dsableKbEcho modes val).2

/-- The object that some calls leave, from its construction on. -/
def after (terminal : Termios w) (calls : List ConsoleCall) : CConsoleMgr w :=
  calls.foldl (perform modes) (new terminal)

end CConsoleMgr

/-! ### What the calls should do -/

/-- Whether buffering and echo should be disabled: what the last calls asked for. -/
structure Requested where
  bufferingDisabled : Bool
  echoDisabled : Bool
deriving DecidableEq

/-- What a call asks for. -/
def Requested.next (requested : Requested) : ConsoleCall → Requested
  | .dsableKbBuffering val => { requested with bufferingDisabled := val }
  | .dsableKbEcho val => { requested with echoDisabled := val }

/-- What some calls ask for. -/
def requests (calls : List ConsoleCall) : Requested := calls.foldl Requested.next ⟨false, false⟩

/-- Two bits are cleared on request, and all bits are otherwise as they were. -/
structure Managed (initial : BitVec w) (requested : Requested) (c_lflag : BitVec w) : Prop where
  others : ∀ i : Fin w, i ≠ modes.icanon → i ≠ modes.echo →
    c_lflag.getLsbD i = initial.getLsbD i
  icanon : c_lflag.getLsbD modes.icanon =
    (!requested.bufferingDisabled && initial.getLsbD modes.icanon)
  echo : c_lflag.getLsbD modes.echo = (!requested.echoDisabled && initial.getLsbD modes.echo)

/-- The calls of a session leave the terminal managed, each of them, and the destructor puts it back
to what it was. -/
def Manages (terminal : Termios w) (calls : List ConsoleCall) : Prop :=
  (∀ before, before <+: calls → Managed modes terminal.c_lflag (requests before)
    (CConsoleMgr.after modes terminal before).terminal.c_lflag) ∧
  (CConsoleMgr.after modes terminal calls).destroy = terminal

/-- The calls that do no harm to a terminal, from what was requested before. Buffering is enabled
again without harm where the terminal had no local mode but an echo that is disabled. Echo is
changed without harm where the terminal was not in canonical mode, or where buffering is disabled,
and enabled again where it was on. -/
def Harmless (initial : BitVec w) (requested : Requested) : ConsoleCall → Prop
  | .dsableKbBuffering true => True
  | .dsableKbBuffering false => requested.bufferingDisabled = true →
      ∀ i : Fin w, initial.getLsbD i = true → i = modes.echo ∧ requested.echoDisabled = true
  | .dsableKbEcho true => requested.echoDisabled = false →
      requested.bufferingDisabled = true ∨ initial.getLsbD modes.icanon = false
  | .dsableKbEcho false => requested.echoDisabled = true →
      (requested.bufferingDisabled = true ∨ initial.getLsbD modes.icanon = false) ∧
        initial.getLsbD modes.echo = true

/-! ### Bits -/

section Bits

variable {modes}

@[simp] theorem LocalModes.getLsbD_ICANON (i : Fin w) :
    modes.ICANON.getLsbD i = decide (i = modes.icanon) := by
  rw [ICANON, BitVec.getLsbD_twoPow, decide_eq_true modes.icanon.isLt, Bool.true_and]
  exact decide_eq_decide.mpr (Fin.val_inj.trans eq_comm)

@[simp] theorem LocalModes.getLsbD_ECHO (i : Fin w) :
    modes.ECHO.getLsbD i = decide (i = modes.echo) := by
  rw [ECHO, BitVec.getLsbD_twoPow, decide_eq_true modes.echo.isLt, Bool.true_and]
  exact decide_eq_decide.mpr (Fin.val_inj.trans eq_comm)

theorem getLsbD_setTermiosEcho (bEcho : Bool) (terminal : Termios w) (i : Fin w) :
    (setTermiosEcho modes bEcho terminal).2.c_lflag.getLsbD i =
      if i = modes.echo then bEcho
      else terminal.c_lflag.getLsbD i && !decide (i = modes.icanon) := by
  have hinside := decide_eq_true i.isLt
  cases bEcho
  all_goals
    by_cases hecho : i = modes.echo
    all_goals simp only [setTermiosEcho, Bool.false_eq_true, if_true, if_false, BitVec.getLsbD_or,
      BitVec.getLsbD_and, BitVec.getLsbD_not, LocalModes.getLsbD_ICANON, LocalModes.getLsbD_ECHO,
      hinside, hecho, decide_true, decide_false, Bool.true_and, Bool.not_true, Bool.not_false,
      Bool.and_false, Bool.and_true, Bool.or_true, Bool.or_false]

theorem getLsbD_setTermiosBuffering (bBuffering : Bool) (terminal : Termios w) (i : Fin w) :
    (setTermiosBuffering modes bBuffering terminal).2.c_lflag.getLsbD i =
      (terminal.c_lflag.getLsbD i && (bBuffering == decide (i = modes.icanon))) := by
  have hinside := decide_eq_true i.isLt
  cases bBuffering
  all_goals simp only [setTermiosBuffering, Bool.false_eq_true, if_true, if_false,
    BitVec.getLsbD_and, BitVec.getLsbD_not, LocalModes.getLsbD_ICANON, hinside, Bool.true_and,
    Bool.true_beq, Bool.false_beq]

theorem managed_initial (initial : BitVec w) : Managed modes initial ⟨false, false⟩ initial :=
  ⟨fun _ _ _ ↦ rfl, (Bool.true_and _).symm, (Bool.true_and _).symm⟩

theorem Managed.eq_initial {initial c_lflag : BitVec w}
    (h : Managed modes initial ⟨false, false⟩ c_lflag) : c_lflag = initial := by
  apply BitVec.eq_of_getLsbD_eq
  intro i hi
  by_cases hicanon : (⟨i, hi⟩ : Fin w) = modes.icanon
  · simpa [← hicanon] using h.icanon
  · by_cases hecho : (⟨i, hi⟩ : Fin w) = modes.echo
    · simpa [← hecho] using h.echo
    · exact h.others ⟨i, hi⟩ hicanon hecho

end Bits

/-! ### Calls -/

namespace CConsoleMgr

/-- What the flags of the object say. -/
def requested (s : CConsoleMgr w) : Requested := ⟨s.m_bKbBufferingDisabled, s.m_bKbEchoDisabled⟩

variable {modes} {s : CConsoleMgr w} {initial : BitVec w}

theorem requested_perform (call : ConsoleCall) :
    (s.perform modes call).requested = s.requested.next call := by
  obtain ⟨m_tioSave, bufferingDisabled, echoDisabled, terminal⟩ := s
  cases call with
  | dsableKbBuffering val => cases val <;> cases bufferingDisabled <;> rfl
  | dsableKbEcho val => cases val <;> cases echoDisabled <;> rfl

theorem tioSave_perform (call : ConsoleCall) :
    (s.perform modes call).m_tioSave = s.m_tioSave := by
  obtain ⟨m_tioSave, bufferingDisabled, echoDisabled, terminal⟩ := s
  cases call with
  | dsableKbBuffering val => cases val <;> cases bufferingDisabled <;> rfl
  | dsableKbEcho val => cases val <;> cases echoDisabled <;> rfl

/-- A call that asks for what is so already leaves the terminal. -/
theorem terminal_dsableKbBuffering (val : Bool) :
    (s.perform modes (.dsableKbBuffering val)).terminal =
      if s.m_bKbBufferingDisabled = val then s.terminal
      else (setTermiosBuffering modes (!val) s.terminal).2 := by
  obtain ⟨m_tioSave, bufferingDisabled, echoDisabled, terminal⟩ := s
  cases val <;> cases bufferingDisabled <;> rfl

theorem terminal_dsableKbEcho (val : Bool) :
    (s.perform modes (.dsableKbEcho val)).terminal =
      if s.m_bKbEchoDisabled = val then s.terminal
      else (setTermiosEcho modes (!val) s.terminal).2 := by
  obtain ⟨m_tioSave, bufferingDisabled, echoDisabled, terminal⟩ := s
  cases val <;> cases echoDisabled <;> rfl

theorem harmless_again {requested : Requested} {call : ConsoleCall}
    (hsame : requested.next call = requested) : Harmless modes initial requested call := by
  cases call with
  | dsableKbBuffering val =>
    cases val with
    | true => trivial
    | false => exact fun h ↦ Bool.noConfusion (h.symm.trans (congrArg _ hsame).symm)
  | dsableKbEcho val =>
    cases val with
    | true => exact fun h ↦ Bool.noConfusion (h.symm.trans (congrArg _ hsame).symm)
    | false => exact fun h ↦ Bool.noConfusion (h.symm.trans (congrArg _ hsame).symm)

/-- Disabling the buffering clears `ICANON`. -/
theorem managed_disableBuffering (h : Managed modes initial s.requested s.terminal.c_lflag) :
    Managed modes initial (s.requested.next (.dsableKbBuffering true))
      (setTermiosBuffering modes false s.terminal).2.c_lflag := by
  refine ⟨fun i hicanon hecho ↦ ?_, ?_, ?_⟩
  · rw [getLsbD_setTermiosBuffering, h.others i hicanon hecho, decide_eq_false hicanon]
    exact Bool.and_true _
  · rw [getLsbD_setTermiosBuffering, decide_eq_true rfl]
    exact Bool.and_false _
  · rw [getLsbD_setTermiosBuffering, h.echo, decide_eq_false modes.distinct.symm]
    exact Bool.and_true _

/-- Enabling the buffering clears all bits. -/
theorem managed_enableBuffering (h : Managed modes initial s.requested s.terminal.c_lflag)
    (hdisabled : s.m_bKbBufferingDisabled = true) :
    Managed modes initial (s.requested.next (.dsableKbBuffering false))
        (setTermiosBuffering modes true s.terminal).2.c_lflag ↔
      ∀ i : Fin w, initial.getLsbD i = true →
        i = modes.echo ∧ s.m_bKbEchoDisabled = true := by
  have hzero (i : Fin w) :
      (setTermiosBuffering modes true s.terminal).2.c_lflag.getLsbD i = false := by
    rw [getLsbD_setTermiosBuffering, Bool.true_beq]
    by_cases hicanon : i = modes.icanon
    · rw [hicanon, h.icanon, requested, hdisabled]
      rfl
    · rw [decide_eq_false hicanon]
      exact Bool.and_false _
  constructor
  · rintro ⟨hothers, hicanon, hecho⟩ i hset
    rw [hzero] at hicanon hecho
    by_cases hi : i = modes.icanon
    · rw [← hi, hset] at hicanon
      exact Bool.noConfusion hicanon
    · by_cases hj : i = modes.echo
      · rw [← hj, hset, Bool.and_true] at hecho
        exact ⟨hj, Bool.not_eq_eq_eq_not.mp hecho.symm⟩
      · have hclear := hothers i hi hj
        rw [hzero, hset] at hclear
        exact Bool.noConfusion hclear
  · intro hharmless
    have hclear (i : Fin w) (hi : ¬(i = modes.echo ∧ s.m_bKbEchoDisabled = true)) :
        initial.getLsbD i = false := Bool.eq_false_iff.mpr fun hset ↦ hi (hharmless i hset)
    refine ⟨fun i _ hecho ↦ ?_, ?_, ?_⟩
    · rw [hzero, hclear i fun hi ↦ hecho hi.1]
    · rw [hzero, hclear _ fun hi ↦ modes.distinct hi.1, Bool.and_false]
    · rw [hzero, Requested.next, requested]
      cases hdisabled : s.m_bKbEchoDisabled with
      | true => rfl
      | false => rw [hclear _ fun hi ↦ Bool.noConfusion (hdisabled.symm.trans hi.2), Bool.and_false]

/-- Echo is changed without harm where `ICANON` should be clear, and enabled again where `ECHO` was
set. -/
theorem managed_changeEcho (h : Managed modes initial s.requested s.terminal.c_lflag) (val : Bool) :
    Managed modes initial (s.requested.next (.dsableKbEcho val))
        (setTermiosEcho modes (!val) s.terminal).2.c_lflag ↔
      (s.m_bKbBufferingDisabled = true ∨ initial.getLsbD modes.icanon = false) ∧
        (val = true ∨ initial.getLsbD modes.echo = true) := by
  have hcanonical : (s.m_bKbBufferingDisabled = true ∨ initial.getLsbD modes.icanon = false) ↔
      false = (!s.m_bKbBufferingDisabled && initial.getLsbD modes.icanon) := by
    cases s.m_bKbBufferingDisabled <;> simp
  have hset : (val = true ∨ initial.getLsbD modes.echo = true) ↔
      (!val) = (!val && initial.getLsbD modes.echo) := by
    cases val <;> simp
  have hicanon : (setTermiosEcho modes (!val) s.terminal).2.c_lflag.getLsbD modes.icanon =
      false := by
    rw [getLsbD_setTermiosEcho, if_neg modes.distinct, decide_eq_true rfl]
    exact Bool.and_false _
  have hecho : (setTermiosEcho modes (!val) s.terminal).2.c_lflag.getLsbD modes.echo = !val := by
    rw [getLsbD_setTermiosEcho, if_pos rfl]
  have hothers (i : Fin w) (hi : i ≠ modes.icanon) (hj : i ≠ modes.echo) :
      (setTermiosEcho modes (!val) s.terminal).2.c_lflag.getLsbD i = initial.getLsbD i := by
    rw [getLsbD_setTermiosEcho, if_neg hj, h.others i hi hj, decide_eq_false hi]
    exact Bool.and_true _
  rw [hcanonical, hset]
  constructor
  · intro hmanaged
    exact ⟨hicanon.symm.trans hmanaged.icanon, hecho.symm.trans hmanaged.echo⟩
  · rintro ⟨hcanonical, hset⟩
    exact ⟨hothers, hicanon.trans hcanonical, hecho.trans hset⟩

/-- From a terminal that is managed, a call leaves one exactly when it is harmless. -/
theorem managed_perform_iff (h : Managed modes initial s.requested s.terminal.c_lflag)
    (call : ConsoleCall) :
    Managed modes initial (s.requested.next call) (s.perform modes call).terminal.c_lflag ↔
      Harmless modes initial s.requested call := by
  cases call with
  | dsableKbBuffering val =>
    rw [terminal_dsableKbBuffering]
    split_ifs with hsame
    · have hnext : s.requested.next (.dsableKbBuffering val) = s.requested :=
        congrArg (Requested.mk · _) hsame.symm
      rw [hnext]
      exact iff_of_true h (harmless_again hnext)
    · cases val with
      | true => exact iff_of_true (managed_disableBuffering h) trivial
      | false =>
        rw [Bool.not_eq_false] at hsame
        exact (managed_enableBuffering h hsame).trans
          ⟨fun hclears _ ↦ hclears, fun hharmless ↦ hharmless hsame⟩
  | dsableKbEcho val =>
    rw [terminal_dsableKbEcho]
    split_ifs with hsame
    · have hnext : s.requested.next (.dsableKbEcho val) = s.requested :=
        congrArg (Requested.mk _ ·) hsame.symm
      rw [hnext]
      exact iff_of_true h (harmless_again hnext)
    · rw [managed_changeEcho h]
      cases val with
      | true =>
        rw [Bool.not_eq_true] at hsame
        exact ⟨fun hset _ ↦ hset.1, fun hharmless ↦ ⟨hharmless hsame, .inl rfl⟩⟩
      | false =>
        rw [Bool.not_eq_false] at hsame
        rw [or_iff_right Bool.false_ne_true]
        exact ⟨fun hset _ ↦ hset, fun hharmless ↦ hharmless hsame⟩

variable (modes) in
theorem after_concat (terminal : Termios w) (calls : List ConsoleCall) (call : ConsoleCall) :
    after modes terminal (calls ++ [call]) = (after modes terminal calls).perform modes call :=
  List.foldl_append

theorem requests_concat (calls : List ConsoleCall) (call : ConsoleCall) :
    requests (calls ++ [call]) = (requests calls).next call := List.foldl_append

variable (modes) in
theorem requested_after (terminal : Termios w) (calls : List ConsoleCall) :
    (after modes terminal calls).requested = requests calls := by
  induction calls using List.reverseRecOn with
  | nil => rfl
  | append_singleton calls call ih =>
    rw [after_concat, requests_concat, requested_perform, ih]

variable (modes) in
theorem tioSave_after (terminal : Termios w) (calls : List ConsoleCall) :
    (after modes terminal calls).m_tioSave = terminal := by
  induction calls using List.reverseRecOn with
  | nil => rfl
  | append_singleton calls call ih =>
    rw [after_concat, tioSave_perform, ih]

/-- The destructor puts back a terminal that is managed. -/
theorem destroy_eq {terminal : Termios w} {calls : List ConsoleCall}
    (h : Managed modes terminal.c_lflag (requests calls)
      (after modes terminal calls).terminal.c_lflag) :
    (after modes terminal calls).destroy = terminal := by
  rw [destroy]
  split_ifs with hdisabled
  · exact tioSave_after modes terminal calls
  · rw [← requested_after modes terminal] at h
    rw [not_or, Bool.not_eq_true, Bool.not_eq_true] at hdisabled
    rw [requested, hdisabled.1, hdisabled.2] at h
    exact congrArg Termios.mk h.eq_initial

end CConsoleMgr

open CConsoleMgr in
/-- The calls of a session leave the terminal managed exactly when each of them is harmless where it
is made. -/
theorem manages_iff (terminal : Termios w) (calls : List ConsoleCall) :
    Manages modes terminal calls ↔
      ∀ before call, before ++ [call] <+: calls →
        Harmless modes terminal.c_lflag (requests before) call := by
  have hdestroy : Manages modes terminal calls ↔ ∀ before, before <+: calls →
      Managed modes terminal.c_lflag (requests before)
        (after modes terminal before).terminal.c_lflag :=
    and_iff_left_of_imp fun h ↦ destroy_eq (h calls List.prefix_rfl)
  rw [hdestroy]
  refine Runs.forall_isPrefix_iff (managed_initial terminal.c_lflag) (fun before call h ↦ ?_) calls
  rw [← requested_after modes terminal before] at h
  rw [after_concat, requests_concat, ← requested_after modes terminal before]
  exact managed_perform_iff h call

/-- A terminal with the local modes of a Linux terminal driver. -/
def linuxModes : LocalModes 32 := ⟨1, 3, by decide⟩

/-- Disabling the echo of a terminal in canonical mode leaves canonical mode. -/
theorem not_manages_echo : ¬Manages linuxModes ⟨0x8a3b⟩ [.dsableKbEcho true] := by
  intro h
  have hicanon := (h.1 _ List.prefix_rfl).icanon
  exact absurd hicanon (by decide)

end RdbLibs.KbInput
