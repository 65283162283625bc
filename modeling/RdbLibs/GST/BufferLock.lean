import RdbLibs.Foundations.Runs
import RdbLibs.GST.CMediaBuffer

/-!
# The lock flag of a `CMediaBuffer`

`m_bIsLocked` is to say whether `m_buferMutex` is held, and the destructor relies on it. All
functions but one restore it. `getMaxDataLen` sets it and locks nothing, so the flag is true while
the mutex is free, until a function that locks is called. In a run of legal calls the flag tells the
truth after each call, and the destructor unlocks no free mutex, exactly when `getMaxDataLen` is
called on an allocated buffer only while it is mapped (`lockFlag_iff`).
-/

set_option autoImplicit false
set_option relaxedAutoImplicit false

namespace RdbLibs.GST

open CheckedMemory Runs

inductive MediaCall
  | allocate (nSize : ℕ) (granted : Bool)
  | free
  | clear
  | map
  | unmap
  | setCurrentDataLen (nLen : ℕ)
  | getCurrentDataLen
  | getMaxDataLen
deriving DecidableEq

inductive MediaReply
  | flag (value : Bool)
  | length (value : ℕ)
deriving DecidableEq

namespace CMediaBuffer

/-- What a call answers, and the buffer that it leaves. -/
def answer (b : CMediaBuffer) : MediaCall → Except Fault (MediaReply × CMediaBuffer)
  | .allocate nSize granted => (b.allocate nSize granted).map (Prod.map .flag id)
  | .free => b.free.map (Prod.map .flag id)
  | .clear => b.clear.map (Prod.map .flag id)
  | .map => b.map.map (Prod.map .flag id)
  | .unmap => b.unmap.map (Prod.map .flag id)
  | .setCurrentDataLen nLen => (b.setCurrentDataLen nLen).map (Prod.map .flag id)
  | .getCurrentDataLen => b.getCurrentDataLen.map (Prod.map .length id)
  | .getMaxDataLen => .ok (Prod.map .length id b.getMaxDataLen)

/-- On an allocated buffer the flag is true exactly when the mutex is held, and the destructor
unlocks no mutex that is free. -/
structure Truthful (b : CMediaBuffer) : Prop where
  flag : b.m_pIoBuffer ≠ none → (b.isLocked = true ↔ b.m_buferMutex = true)
  destructor : b.destroy ≠ .error .notLocked

end CMediaBuffer

/-- A buffer with the map that its owner has not undone. -/
structure MediaOwner where
  buffer : CMediaBuffer
  mapped : Bool

/-- No function that locks is called while a map is outstanding, and an allocated buffer is unmapped
only then. -/
def MediaOwner.Legal (owner : MediaOwner) : MediaCall → Prop
  | .unmap => owner.buffer.m_pIoBuffer ≠ none → owner.mapped = true
  | .getMaxDataLen => True
  | _ => owner.mapped = false

/-- Whether a map is outstanding after a call. -/
def MediaOwner.mappedAfter (owner : MediaOwner) : MediaCall → Bool
  | .map => owner.buffer.m_pIoBuffer.isSome
  | .unmap => false
  | _ => owner.mapped

/-- One legal call. -/
def MediaStep (before : MediaOwner) (call : MediaCall) (reply : MediaReply) (after : MediaOwner) :
    Prop :=
  before.Legal call ∧ before.buffer.answer call = .ok (reply, after.buffer) ∧
    after.mapped = before.mappedAfter call

/-- A call with its answer. -/
abbrev AnsweredMediaCall := Call MediaOwner MediaCall MediaReply

/-- `getMaxDataLen` is called on an allocated buffer only while it is mapped. -/
def MaxLenWhileMapped (call : AnsweredMediaCall) : Prop :=
  call.label = .getMaxDataLen → call.before.buffer.m_pIoBuffer ≠ none → call.before.mapped = true

/-- What holds between any two legal calls: the mutex is held while a map is outstanding, the other
mutexes are free, and a buffer that is not allocated is neither mapped nor flagged. -/
structure MediaOwner.Sound (owner : MediaOwner) : Prop where
  mutex : owner.buffer.m_buferMutex = owner.mapped
  hasData : owner.buffer.m_hasDataMutex = false
  dataLen : owner.buffer.m_dataLenMutex = false
  unallocated : owner.buffer.m_pIoBuffer = none →
    owner.mapped = false ∧ owner.buffer.m_bIsLocked = false

namespace CMediaBuffer

variable {b : CMediaBuffer}

/-- A call that locks and unlocks again has left the mutexes free, and has changed nothing or
cleared the flag. -/
structure Restores (b b' : CMediaBuffer) : Prop where
  mutex : b'.m_buferMutex = false
  hasData : b'.m_hasDataMutex = false
  dataLen : b'.m_dataLenMutex = false
  flag : b' = b ∨ b'.m_bIsLocked = false

/-- The calls that lock a mutex and unlock it again. -/
def Restoring : MediaCall → Prop
  | .map | .unmap | .getMaxDataLen => False
  | _ => True

/-- Assumes: all mutexes are free. A call that locks and unlocks again is answered. -/
theorem exists_restores (hmutex : b.m_buferMutex = false) (hhasData : b.m_hasDataMutex = false)
    (hdataLen : b.m_dataLenMutex = false) {call : MediaCall} (hcall : Restoring call) :
    ∃ reply b', b.answer call = .ok (reply, b') ∧ Restores b b' := by
  obtain ⟨m_pIoBuffer, m_bNetData, m_nMaxDataLen, m_buferMutex, m_hasDataMutex, m_dataLenMutex,
    m_bIsLocked, m_nCurDataLen⟩ := b
  dsimp only at hmutex hhasData hdataLen
  subst hmutex hhasData hdataLen
  cases call with
  | allocate nSize granted =>
    cases m_pIoBuffer with
    | none => cases granted <;> exact ⟨_, _, rfl, rfl, rfl, rfl, .inr rfl⟩
    | some cells => exact ⟨_, _, rfl, rfl, rfl, rfl, .inl rfl⟩
  | setCurrentDataLen nLen =>
    cases m_pIoBuffer with
    | none => exact ⟨_, _, rfl, rfl, rfl, rfl, .inl rfl⟩
    | some cells => cases nLen <;> exact ⟨_, _, rfl, rfl, rfl, rfl, .inr rfl⟩
  | free | clear | getCurrentDataLen =>
    cases m_pIoBuffer with
    | none => exact ⟨_, _, rfl, rfl, rfl, rfl, .inl rfl⟩
    | some cells => exact ⟨_, _, rfl, rfl, rfl, rfl, .inr rfl⟩
  | map | unmap | getMaxDataLen => exact hcall.elim

end CMediaBuffer

namespace MediaOwner

open CMediaBuffer

variable {before after owner : MediaOwner} {call : MediaCall} {reply : MediaReply}

theorem sound_new (m_nMaxDataLen : ℕ) : Sound ⟨.new m_nMaxDataLen, false⟩ :=
  ⟨rfl, rfl, rfl, fun _ ↦ ⟨rfl, rfl⟩⟩

/-- Between legal calls, the buffer tells the truth when the flag says whether a map is
outstanding. -/
theorem Sound.truthful_iff (h : owner.Sound) :
    owner.buffer.Truthful ↔ owner.buffer.m_bIsLocked = owner.mapped := by
  obtain ⟨hmutex, -, -, hnone⟩ := h
  obtain ⟨⟨m_pIoBuffer, m_bNetData, m_nMaxDataLen, m_buferMutex, m_hasDataMutex, m_dataLenMutex,
    m_bIsLocked, m_nCurDataLen⟩, mapped⟩ := owner
  dsimp only at hmutex hnone ⊢
  subst hmutex
  cases m_pIoBuffer with
  | none =>
    obtain ⟨rfl, rfl⟩ := hnone rfl
    exact iff_of_true ⟨fun h ↦ absurd rfl h, nofun⟩ rfl
  | some cells =>
    constructor
    · exact fun h ↦ Bool.eq_iff_iff.mpr (h.flag nofun)
    · rintro rfl
      refine ⟨fun _ ↦ .rfl, ?_⟩
      cases m_bIsLocked <;> exact nofun

/-- A legal call that locks and unlocks again. -/
theorem Sound.restores (h : before.Sound) (hstep : MediaStep before call reply after)
    (hcall : Restoring call) :
    before.mapped = false ∧ after.mapped = false ∧ Restores before.buffer after.buffer := by
  obtain ⟨hlegal, hanswer, hmapped⟩ := hstep
  have hfree : before.mapped = false := by
    cases call with
    | map | unmap | getMaxDataLen => exact hcall.elim
    | _ => exact hlegal
  have hkept : after.mapped = before.mapped := by
    cases call with
    | map | unmap | getMaxDataLen => exact hcall.elim
    | _ => exact hmapped
  obtain ⟨reply', b', hanswer', hrestores⟩ :=
    exists_restores (h.mutex.trans hfree) h.hasData h.dataLen hcall
  rw [hanswer'] at hanswer
  obtain ⟨-, rfl⟩ := Prod.mk.inj (Except.ok.inj hanswer)
  exact ⟨hfree, hkept.trans hfree, hrestores⟩

/-- Every legal call leaves the mutexes as they are to be, and the flag tells the truth after it
exactly when it is none of `getMaxDataLen` on an allocated buffer that is not mapped. -/
theorem Sound.step (h : before.Sound) (hstep : MediaStep before call reply after) :
    after.Sound ∧ (before.buffer.m_bIsLocked = before.mapped →
      (after.buffer.m_bIsLocked = after.mapped ↔
        MaxLenWhileMapped ⟨before, call, reply⟩)) := by
  by_cases hcall : Restoring call
  · obtain ⟨hbefore, hafter, hrestores⟩ := h.restores hstep hcall
    have hflag : before.buffer.m_bIsLocked = before.mapped →
        after.buffer.m_bIsLocked = after.mapped := by
      intro htrue
      rw [hafter]
      rcases hrestores.flag with hsame | hclear
      · rw [hsame, htrue, hbefore]
      · exact hclear
    refine ⟨⟨hrestores.mutex.trans hafter.symm, hrestores.hasData, hrestores.dataLen,
      fun hnone ↦ ⟨hafter, ?_⟩⟩, fun htrue ↦ iff_of_true (hflag htrue) ?_⟩
    · rcases hrestores.flag with hsame | hclear
      · rw [hsame] at hnone ⊢
        exact (h.unallocated hnone).2
      · exact hclear
    · rintro rfl
      exact hcall.elim
  obtain ⟨hmutex, hhasData, hdataLen, hnone⟩ := h
  obtain ⟨hlegal, hanswer, hmapped⟩ := hstep
  obtain ⟨⟨m_pIoBuffer, m_bNetData, m_nMaxDataLen, m_buferMutex, m_hasDataMutex, m_dataLenMutex,
    m_bIsLocked, m_nCurDataLen⟩, mapped⟩ := before
  obtain ⟨b', mapped'⟩ := after
  dsimp only at hmutex hhasData hdataLen hmapped
  subst hmutex hhasData hdataLen hmapped
  cases m_pIoBuffer with
  | none =>
    obtain ⟨rfl, rfl⟩ := hnone rfl
    cases call with
    | map | unmap | getMaxDataLen =>
      obtain ⟨rfl, rfl⟩ := Prod.mk.inj (Except.ok.inj hanswer)
      exact ⟨⟨rfl, rfl, rfl, fun _ ↦ ⟨rfl, rfl⟩⟩, fun _ ↦ iff_of_true rfl fun _ h ↦ absurd rfl h⟩
    | _ => exact absurd trivial hcall
  | some cells =>
    cases call with
    | map =>
      obtain rfl : m_buferMutex = false := hlegal
      obtain ⟨rfl, rfl⟩ := Prod.mk.inj (Except.ok.inj hanswer)
      exact ⟨⟨rfl, rfl, rfl, nofun⟩, fun _ ↦ iff_of_true rfl nofun⟩
    | unmap =>
      obtain rfl : m_buferMutex = true := hlegal nofun
      obtain ⟨rfl, rfl⟩ := Prod.mk.inj (Except.ok.inj hanswer)
      exact ⟨⟨rfl, rfl, rfl, nofun⟩, fun _ ↦ iff_of_true rfl nofun⟩
    | getMaxDataLen =>
      obtain ⟨rfl, rfl⟩ := Prod.mk.inj (Except.ok.inj hanswer)
      refine ⟨⟨rfl, rfl, rfl, nofun⟩, fun _ ↦ ⟨fun hflag _ _ ↦ hflag.symm, fun hwhile ↦ ?_⟩⟩
      exact (hwhile rfl nofun).symm
    | _ => exact absurd trivial hcall

/-- Every legal call is answered. -/
theorem Sound.exists_step (h : owner.Sound) (hlegal : owner.Legal call) :
    ∃ reply after, MediaStep owner call reply after := by
  have hanswer : ∃ reply b', owner.buffer.answer call = .ok (reply, b') := by
    by_cases hcall : Restoring call
    · have hfree : owner.mapped = false := by
        cases call with
        | map | unmap | getMaxDataLen => exact hcall.elim
        | _ => exact hlegal
      obtain ⟨reply, b', hanswer, -⟩ :=
        exists_restores (h.mutex.trans hfree) h.hasData h.dataLen hcall
      exact ⟨reply, b', hanswer⟩
    obtain ⟨hmutex, hhasData, hdataLen, -⟩ := h
    obtain ⟨⟨m_pIoBuffer, m_bNetData, m_nMaxDataLen, m_buferMutex, m_hasDataMutex, m_dataLenMutex,
      m_bIsLocked, m_nCurDataLen⟩, mapped⟩ := owner
    dsimp only at hmutex hhasData hdataLen
    subst hmutex hhasData hdataLen
    cases m_pIoBuffer with
    | none =>
      cases call with
      | map | unmap | getMaxDataLen => exact ⟨_, _, rfl⟩
      | _ => exact absurd trivial hcall
    | some cells =>
      cases call with
      | map =>
        obtain rfl : m_buferMutex = false := hlegal
        exact ⟨_, _, rfl⟩
      | unmap =>
        obtain rfl : m_buferMutex = true := hlegal nofun
        exact ⟨_, _, rfl⟩
      | getMaxDataLen => exact ⟨_, _, rfl⟩
      | _ => exact absurd trivial hcall
  obtain ⟨reply, b', hanswer⟩ := hanswer
  exact ⟨reply, ⟨b', owner.mappedAfter call⟩, hlegal, hanswer, rfl⟩

end MediaOwner

/-- Assumes: a run of legal calls from a new buffer. After each call the flag of an allocated buffer
says whether the mutex is held, and the destructor would unlock no free mutex, exactly when
`getMaxDataLen` is called on an allocated buffer only while it is mapped. -/
theorem lockFlag_iff {m_nMaxDataLen : ℕ} {trace : List AnsweredMediaCall} {final : MediaOwner}
    (hrun : Run MediaStep ⟨.new m_nMaxDataLen, false⟩ trace final) :
    (∀ call ∈ trace, call.before.buffer.Truthful) ∧ final.buffer.Truthful ↔
      ∀ call ∈ trace, MaxLenWhileMapped call := by
  refine hrun.good_iff MediaOwner.Sound (fun owner ↦ owner.buffer.Truthful)
    (fun before label reply after hsound hstep ↦ (hsound.step hstep).1) ?_
    (MediaOwner.sound_new m_nMaxDataLen)
    ((MediaOwner.sound_new m_nMaxDataLen).truthful_iff.mpr rfl)
  intro before label reply after hsound htruthful hstep
  obtain ⟨hafter, hflag⟩ := hsound.step hstep
  rw [hafter.truthful_iff]
  exact hflag (hsound.truthful_iff.mp htruthful)

theorem lockFlag_iff_mapped :
    ∃ trace final, Run MediaStep ⟨.new 0, false⟩ trace final ∧
      trace.map Call.label = [.allocate 1 true, .map, .getMaxDataLen, .unmap] ∧
      (∀ call ∈ trace, call.before.buffer.Truthful) ∧ final.buffer.Truthful := by
  have hallocate : MediaStep ⟨.new 0, false⟩ (.allocate 1 true) (.flag true)
      ⟨⟨some [0], false, 1, false, false, false, false, 0⟩, false⟩ := ⟨rfl, rfl, rfl⟩
  have hmap : MediaStep ⟨⟨some [0], false, 1, false, false, false, false, 0⟩, false⟩ .map
      (.flag true) ⟨⟨some [0], false, 1, true, false, false, true, 0⟩, true⟩ := ⟨rfl, rfl, rfl⟩
  have hlength : MediaStep ⟨⟨some [0], false, 1, true, false, false, true, 0⟩, true⟩ .getMaxDataLen
      (.length 1) ⟨⟨some [0], false, 1, true, false, false, true, 0⟩, true⟩ := ⟨trivial, rfl, rfl⟩
  have hunmap : MediaStep ⟨⟨some [0], false, 1, true, false, false, true, 0⟩, true⟩ .unmap
      (.flag true) ⟨⟨some [0], false, 1, false, false, false, false, 0⟩, false⟩ :=
    ⟨fun _ ↦ rfl, rfl, rfl⟩
  have hrun := Run.cons hallocate (.cons hmap (.cons hlength (.cons hunmap (.nil _))))
  refine ⟨_, _, hrun, rfl, (lockFlag_iff hrun).mpr ?_⟩
  simp [MaxLenWhileMapped]

/-- `getMaxDataLen` on a buffer that is allocated and not mapped. The flag says that the mutex is
held, which is free, and the destructor unlocks it. -/
theorem not_truthful_getMaxDataLen :
    ∃ trace final, Run MediaStep ⟨.new 0, false⟩ trace final ∧
      trace.map Call.label = [.allocate 1 true, .getMaxDataLen] ∧
      final.buffer.m_pIoBuffer ≠ none ∧ final.buffer.isLocked = true ∧
      final.buffer.m_buferMutex = false ∧ final.buffer.destroy = .error .notLocked := by
  have hallocate : MediaStep ⟨.new 0, false⟩ (.allocate 1 true) (.flag true)
      ⟨⟨some [0], false, 1, false, false, false, false, 0⟩, false⟩ := ⟨rfl, rfl, rfl⟩
  have hlength : MediaStep ⟨⟨some [0], false, 1, false, false, false, false, 0⟩, false⟩
      .getMaxDataLen (.length 1) ⟨⟨some [0], false, 1, false, false, false, true, 0⟩, false⟩ :=
    ⟨trivial, rfl, rfl⟩
  exact ⟨_, _, .cons hallocate (.cons hlength (.nil _)), rfl, nofun, rfl, rfl, rfl⟩

end RdbLibs.GST
