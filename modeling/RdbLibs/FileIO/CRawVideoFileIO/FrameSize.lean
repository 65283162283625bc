import RdbLibs.FileIO.RawInput
import RdbLibs.Foundations.Runs

/-!
# The size of a frame and its format

`m_nFrameSize` is computed by the constructors and by `setFrameSize` from the width, the height and
the bits of a pixel. `setBitsPerPixel` changes the bits and `openFile` takes a format from the info
file, and neither computes it again. Behind the info file, `openFile` divides by it. An object that
was made without a format, and is to find it in the info file, has frames of no size there.
-/

set_option autoImplicit false
set_option relaxedAutoImplicit false

namespace RdbLibs.FileIO.CRawVideoFileIO

open MachineWord Runs

/-- The bytes of a frame of the format. -/
def formatBytes (s : CRawVideoFileIO) : ℕ := s.m_width * s.m_height * (s.m_bitsPerPixel / 8)

/-- The size of a frame is that of the format. -/
def SizeMatches (s : CRawVideoFileIO) : Prop := s.m_nFrameSize = s.formatBytes

/-- The objects that the constructors make. -/
inductive Constructed : CRawVideoFileIO → Prop
  | empty (file : Option (List UInt8)) : Constructed (newEmpty file)
  | format (width height bitsPerPixel : ℕ) (file : Option (List UInt8)) :
      Constructed (new width height bitsPerPixel file)
  | path (sFilePath : List Char) (file : Option (List UInt8)) : Constructed (newPath sFilePath file)

/-- What the disk has at the path of the object, and beside it. -/
def withDisk (s : CRawVideoFileIO) (file : Option (List UInt8)) (infoFile : Option (List Char)) :
    CRawVideoFileIO :=
  { s with m_fileIO := { s.m_fileIO with file := file }, infoFile := infoFile }

/-- A call that may change the format. For `openFile` it has what the disk has. -/
inductive FormatCall
  | setFrameSize (width height bitsPerPixel : ℕ)
  | setBitsPerPixel (bits : ℤ)
  | openFile (mode : eFileIoMode_def) (sFilePath : List Char) (file : Option (List UInt8))
      (infoFile : Option (List Char)) (o : OpenOutcome)

/-- How a call ends. -/
inductive Ending
  | returned
  | thrown
  | dividedByZero
deriving DecidableEq

/-- Two objects with the same format and the same size of a frame. -/
def SameFormat (s after : CRawVideoFileIO) : Prop :=
  after.m_width = s.m_width ∧ after.m_height = s.m_height ∧
    after.m_bitsPerPixel = s.m_bitsPerPixel ∧ after.m_nFrameSize = s.m_nFrameSize

/-- The calls. An exception leaves `openFile` where it reads the info file, before the format is
changed. If it comes to the end of that file and has no result, it has divided by zero. -/
inductive FormatCalls : CRawVideoFileIO → FormatCall → Ending → CRawVideoFileIO → Prop
  | setFrameSize (s : CRawVideoFileIO) (width height bitsPerPixel : ℕ) :
      FormatCalls s (.setFrameSize width height bitsPerPixel) .returned
        (s.setFrameSize width height bitsPerPixel)
  | setBitsPerPixel (s : CRawVideoFileIO) (bits : ℤ) :
      FormatCalls s (.setBitsPerPixel bits) .returned (s.setBitsPerPixel bits)
  | openFile {s after : CRawVideoFileIO} {mode : eFileIoMode_def} {sFilePath : List Char}
      {file : Option (List UInt8)} {infoFile : Option (List Char)} {o : OpenOutcome} {status : Bool}
      (hopen : (s.withDisk file infoFile).openFile mode sFilePath o = some (status, after)) :
      FormatCalls s (.openFile mode sFilePath file infoFile o) .returned after
  | thrown {s after : CRawVideoFileIO} {mode : eFileIoMode_def} {sFilePath : List Char}
      {file : Option (List UInt8)} {infoFile : Option (List Char)} {o : OpenOutcome}
      (hopen : (s.withDisk file infoFile).openFile mode sFilePath o = none)
      (hinfo : (parseInfoTextFile infoFile s.m_fileInfo).toOption = none)
      (hformat : SameFormat s after) :
      FormatCalls s (.openFile mode sFilePath file infoFile o) .thrown after
  | dividedByZero {s : CRawVideoFileIO} {mode : eFileIoMode_def} {sFilePath : List Char}
      {file : Option (List UInt8)} {infoFile : Option (List Char)} {o : OpenOutcome}
      (hopen : (s.withDisk file infoFile).openFile mode sFilePath o = none)
      (hinfo : (parseInfoTextFile infoFile s.m_fileInfo).toOption ≠ none) :
      FormatCalls s (.openFile mode sFilePath file infoFile o) .dividedByZero s

/-- The calls by which a frame of the format has less than `2 ^ 32` bytes. -/
def CallsInRange (before : CRawVideoFileIO) (call : FormatCall) (ending : Ending)
    (after : CRawVideoFileIO) : Prop :=
  FormatCalls before call ending after ∧ after.formatBytes < 2 ^ 32

/-- The path that `openFile` uses. -/
def pathFor (s : CRawVideoFileIO) (sFilePath : List Char) : List Char :=
  if sFilePath.isEmpty then s.m_sFilePath else sFilePath

/-- `openFile` for input is not refused, and opens the file. -/
structure OpensInput (s : CRawVideoFileIO) (sFilePath : List Char) (o : OpenOutcome) : Prop where
  closed : s.m_bFileOpened = false
  path : (s.pathFor sFilePath).isEmpty = false
  bits : s.m_bitsPerPixel ∈ [8, 16, 24, 32]
  allocated : o.allocated = true
  file : (s.m_fileIO.openFile .input o.opened).1 = true

/-- What keeps the size of a frame that of the format. `setBitsPerPixel` has to leave the whole
bytes of a pixel, unless a frame has no pixel. Where `openFile` comes to the end of the info file, a
frame has to have a size, and the format that is taken from the file has to have the same. -/
def KeepsSize (s : CRawVideoFileIO) : FormatCall → Prop
  | .setFrameSize _ _ _ => True
  | .setBitsPerPixel bits =>
    intToUnsigned bits / 8 = s.m_bitsPerPixel / 8 ∨ s.m_width * s.m_height = 0
  | .openFile mode sFilePath file infoFile o =>
    mode = .input → (s.withDisk file infoFile).OpensInput sFilePath o →
      ∀ parsed, parseInfoTextFile infoFile s.m_fileInfo = .ok parsed →
        s.formatBytes ≠ 0 ∧ (s.useInfo parsed.info).formatBytes = s.formatBytes

section Opening

variable {s : CRawVideoFileIO} {o : OpenOutcome}

/-- `openFile` behind its checks, where it opens the file. The format of what it leaves is that of
the info file. -/
theorem openInput_opens (hfile : (s.m_fileIO.openFile .input o.opened).1 = true) :
    ∃ after : SVideoFormatInfo → CRawVideoFileIO,
      (∀ info, SameFormat (s.useInfo info) (after info)) ∧
      s.openInput o = match parseInfoTextFile s.infoFile s.m_fileInfo with
        | .error _ => none
        | .ok parsed => if s.m_nFrameSize = 0 then none else some (true, after parsed.info) := by
  obtain ⟨hgranted, content, eMode, hio, -⟩ := CFileIO.openFile_input (Prod.ext hfile rfl)
  exact ⟨s.inputOf content, fun info ↦ ⟨rfl, rfl, rfl, rfl⟩, openInput_eq hio hgranted⟩

theorem openInput_refused (hfile : (s.m_fileIO.openFile .input o.opened).1 = false) :
    ∃ after, s.openInput o = some (false, after) ∧ SameFormat s after := by
  cases hio : s.m_fileIO.openFile .input o.opened with
  | mk status io =>
    rw [hio] at hfile
    obtain rfl : status = false := hfile
    unfold openInput
    rw [hio]
    exact ⟨_, rfl, rfl, rfl, rfl, rfl⟩

theorem openOutput_format (s : CRawVideoFileIO) (o : OpenOutcome) :
    SameFormat s (s.openOutput o).2 := by
  unfold openOutput
  dsimp only
  split_ifs
  · exact ⟨rfl, rfl, rfl, rfl⟩
  · exact ⟨rfl, rfl, rfl, rfl⟩
  · exact ⟨rfl, rfl, rfl, rfl⟩

/-- `openFile` behind the check that no file is open. -/
theorem openFile_closed (hclosed : s.m_bFileOpened = false) (mode : eFileIoMode_def)
    (sFilePath : List Char) : s.openFile mode sFilePath o =
      if (s.pathFor sFilePath).isEmpty then
        some (false, { s with m_sFilePath := s.pathFor sFilePath })
      else if s.m_bitsPerPixel ∉ [8, 16, 24, 32] then
        some (false, { s with m_sFilePath := s.pathFor sFilePath })
      else
        let s := { s with
          m_sFilePath := s.pathFor sFilePath
          m_pFramebuffer := s.allocFramebuffer o.allocated }
        if s.m_pFramebuffer.isNone then some (false, s)
        else match mode with
          | .input => openInput { s with m_eMode := .input } o
          | .output => some (openOutput { s with m_eMode := .output } o)
          | mode => some (false, { s with m_eMode := mode }) := by
  have hopen : ¬s.m_bFileOpened = true := by
    rw [hclosed]
    exact Bool.noConfusion
  unfold openFile
  rw [if_neg hopen]
  extract_lets +onlyGivenNames named
  have hnamed : named = { s with m_sFilePath := s.pathFor sFilePath } := by
    unfold named pathFor
    split_ifs
    · rfl
    · rfl
  clear_value named
  subst hnamed
  dsimp only
  rw [show allocFramebuffer { s with m_sFilePath := s.pathFor sFilePath } o.allocated =
    s.allocFramebuffer o.allocated from rfl]
  split_ifs
  · rfl
  · rfl
  · cases mode <;> rfl
  · rfl

/-- `openFile` for input, where it opens the file. -/
theorem OpensInput.openFile_eq {sFilePath : List Char} (h : s.OpensInput sFilePath o) :
    ∃ after : SVideoFormatInfo → CRawVideoFileIO,
      (∀ info, SameFormat (s.useInfo info) (after info)) ∧
      s.openFile .input sFilePath o = match parseInfoTextFile s.infoFile s.m_fileInfo with
        | .error _ => none
        | .ok parsed => if s.m_nFrameSize = 0 then none else some (true, after parsed.info) := by
  have hbuffer : (s.allocFramebuffer o.allocated).isNone = false := by
    rw [allocFramebuffer, if_pos h.allocated]
    rfl
  rw [openFile_closed h.closed, if_neg (by rw [h.path]; exact Bool.noConfusion),
    if_neg (not_not.mpr h.bits)]
  dsimp only
  rw [if_neg (by rw [hbuffer]; exact Bool.noConfusion)]
  exact openInput_opens (s := { s with
    m_sFilePath := s.pathFor sFilePath
    m_pFramebuffer := s.allocFramebuffer o.allocated
    m_eMode := .input }) h.file

/-- A call of `openFile` that does not open a file for input has a result, and leaves the format. -/
theorem openFile_format {mode : eFileIoMode_def} {sFilePath : List Char}
    (hrefused : mode = .input → ¬s.OpensInput sFilePath o) :
    ∃ status after, s.openFile mode sFilePath o = some (status, after) ∧ SameFormat s after := by
  by_cases hopen : s.m_bFileOpened = true
  · refine ⟨false, s, ?_, rfl, rfl, rfl, rfl⟩
    unfold openFile
    rw [if_pos hopen]
    rfl
  rw [Bool.not_eq_true] at hopen
  rw [openFile_closed hopen]
  dsimp only
  split_ifs with hpath hbits hbuffer
  · exact ⟨false, _, rfl, rfl, rfl, rfl, rfl⟩
  · exact ⟨false, _, rfl, rfl, rfl, rfl, rfl⟩
  · cases mode with
    | input =>
      have hallocated : o.allocated = true := by
        by_contra hnone
        rw [allocFramebuffer, if_neg hnone] at hbuffer
        exact hbuffer rfl
      have hfile : (s.m_fileIO.openFile .input o.opened).1 = false :=
        Bool.eq_false_iff.mpr fun hfile ↦ hrefused rfl
          ⟨hopen, Bool.eq_false_iff.mpr hpath, hbits, hallocated, hfile⟩
      obtain ⟨after, hinput, hformat⟩ := openInput_refused (s := { s with
        m_sFilePath := s.pathFor sFilePath
        m_pFramebuffer := s.allocFramebuffer o.allocated
        m_eMode := .input }) hfile
      exact ⟨false, after, hinput, hformat⟩
    | output => exact ⟨_, _, rfl, openOutput_format _ o⟩
    | unknown => exact ⟨false, _, rfl, rfl, rfl, rfl, rfl⟩
    | io => exact ⟨false, _, rfl, rfl, rfl, rfl, rfl⟩
    | append => exact ⟨false, _, rfl, rfl, rfl, rfl, rfl⟩
  · exact ⟨false, _, rfl, rfl, rfl, rfl, rfl⟩

end Opening

section Steps

variable {s after : CRawVideoFileIO}

theorem SameFormat.formatBytes_eq (h : SameFormat s after) :
    after.formatBytes = s.formatBytes := by
  obtain ⟨hwidth, hheight, hbits, -⟩ := h
  rw [formatBytes, formatBytes, hwidth, hheight, hbits]

theorem SameFormat.sizeMatches_iff (h : SameFormat s after) :
    after.SizeMatches ↔ s.SizeMatches := by
  rw [SizeMatches, SizeMatches, h.formatBytes_eq, h.2.2.2]

theorem sizeMatches_setFrameSize {width height bitsPerPixel : ℕ}
    (hrange : (s.setFrameSize width height bitsPerPixel).formatBytes < 2 ^ 32) :
    (s.setFrameSize width height bitsPerPixel).SizeMatches := by
  have hbytes : (s.setFrameSize width height bitsPerPixel).m_nFrameSize =
      toUnsigned (s.setFrameSize width height bitsPerPixel).formatBytes := by
    unfold setFrameSize
    dsimp only
    split_ifs
    · rfl
    · rfl
  rw [SizeMatches, hbytes, toUnsigned_of_lt hrange]

theorem sizeMatches_setBitsPerPixel_iff (hmatches : s.SizeMatches) (bits : ℤ) :
    (s.setBitsPerPixel bits).SizeMatches ↔ s.KeepsSize (.setBitsPerPixel bits) := by
  have hsize : (s.setBitsPerPixel bits).m_nFrameSize = s.m_nFrameSize := rfl
  have hbytes : (s.setBitsPerPixel bits).formatBytes =
      s.m_width * s.m_height * (intToUnsigned bits / 8) := rfl
  rw [SizeMatches, hsize, hmatches, formatBytes, hbytes, eq_comm, mul_eq_mul_left_iff]
  rfl

section OpenFile

variable {mode : eFileIoMode_def} {sFilePath : List Char} {file : Option (List UInt8)}
  {infoFile : Option (List Char)} {o : OpenOutcome}

/-- `openFile` for input, where it opens the file and the info file is read to its end. -/
theorem OpensInput.openFile_parsed (h : (s.withDisk file infoFile).OpensInput sFilePath o)
    {parsed : Parsed SVideoFormatInfo}
    (hinfo : parseInfoTextFile infoFile s.m_fileInfo = .ok parsed) :
    ∃ found, SameFormat (s.useInfo parsed.info) found ∧
      (s.withDisk file infoFile).openFile .input sFilePath o =
        if s.m_nFrameSize = 0 then none else some (true, found) := by
  obtain ⟨found, hformat, hresult⟩ := h.openFile_eq
  have hparsed : parseInfoTextFile (s.withDisk file infoFile).infoFile
      (s.withDisk file infoFile).m_fileInfo = .ok parsed := hinfo
  rw [hparsed] at hresult
  exact ⟨found parsed.info, hformat parsed.info, hresult⟩

/-- An exception leaves `openFile` where the info file is not read to its end. -/
theorem OpensInput.openFile_thrown (h : (s.withDisk file infoFile).OpensInput sFilePath o)
    {fault : TextFault} (hinfo : parseInfoTextFile infoFile s.m_fileInfo = .error fault) :
    (s.withDisk file infoFile).openFile .input sFilePath o = none := by
  obtain ⟨found, -, hresult⟩ := h.openFile_eq
  have hthrown : parseInfoTextFile (s.withDisk file infoFile).infoFile
      (s.withDisk file infoFile).m_fileInfo = .error fault := hinfo
  rw [hthrown] at hresult
  exact hresult

/-- What a call of `openFile` keeps. -/
theorem openFile_keepsSize_iff (hmatches : s.SizeMatches) {status : Bool}
    (hopen : (s.withDisk file infoFile).openFile mode sFilePath o = some (status, after)) :
    after.SizeMatches ↔ s.KeepsSize (.openFile mode sFilePath file infoFile o) := by
  by_cases hinput : mode = .input ∧ (s.withDisk file infoFile).OpensInput sFilePath o
  · obtain ⟨rfl, hopens⟩ := hinput
    cases hinfo : parseInfoTextFile infoFile s.m_fileInfo with
    | error fault => cases hopen.symm.trans (hopens.openFile_thrown hinfo)
    | ok parsed =>
      obtain ⟨found, hformat, hresult⟩ := hopens.openFile_parsed hinfo
      rw [hopen] at hresult
      obtain ⟨hsize, hafter⟩ := Option.ite_none_left_eq_some.mp hresult.symm
      obtain ⟨-, rfl⟩ := Prod.mk.inj (Option.some.inj hafter)
      have hsome : s.formatBytes ≠ 0 := fun hzero ↦ hsize (hmatches.trans hzero)
      have hkeeps : s.KeepsSize (.openFile .input sFilePath file infoFile o) ↔
          (s.useInfo parsed.info).formatBytes = s.formatBytes := by
        constructor
        · exact fun hall ↦ (hall rfl hopens parsed hinfo).2
        · intro hbytes _ _ parsed' hinfo'
          obtain rfl := Except.ok.inj (hinfo.symm.trans hinfo')
          exact ⟨hsome, hbytes⟩
      have hframe : (s.useInfo parsed.info).m_nFrameSize = s.formatBytes := hmatches
      rw [hkeeps, hformat.sizeMatches_iff, SizeMatches, hframe, eq_comm]
  · have hrefused : mode = .input → ¬(s.withDisk file infoFile).OpensInput sFilePath o :=
      fun hmode hopens ↦ hinput ⟨hmode, hopens⟩
    obtain ⟨status', after', hresult, hformat⟩ := openFile_format hrefused
    obtain ⟨rfl, rfl⟩ := Prod.mk.inj (Option.some.inj (hopen.symm.trans hresult))
    exact iff_of_true (hformat.sizeMatches_iff.mpr hmatches)
      fun hmode hopens ↦ absurd hopens (hrefused hmode)

/-- A call of `openFile` that divides by zero finds an object whose frames have no size. -/
theorem not_keepsSize_of_dividedByZero (hmatches : s.SizeMatches)
    (hopen : (s.withDisk file infoFile).openFile mode sFilePath o = none)
    (hinfo : (parseInfoTextFile infoFile s.m_fileInfo).toOption ≠ none) :
    ¬s.KeepsSize (.openFile mode sFilePath file infoFile o) := by
  intro hkeeps
  by_cases hinput : mode = .input ∧ (s.withDisk file infoFile).OpensInput sFilePath o
  · obtain ⟨rfl, hopens⟩ := hinput
    cases hparsed : parseInfoTextFile infoFile s.m_fileInfo with
    | error fault =>
      rw [hparsed] at hinfo
      exact hinfo rfl
    | ok parsed =>
      obtain ⟨found, -, hresult⟩ := hopens.openFile_parsed hparsed
      have hsize : s.m_nFrameSize ≠ 0 := fun hzero ↦
        (hkeeps rfl hopens parsed hparsed).1 (hmatches.symm.trans hzero)
      rw [hopen, if_neg hsize] at hresult
      cases hresult
  · obtain ⟨status, after, hresult, -⟩ := openFile_format fun hmode hopens ↦ hinput ⟨hmode, hopens⟩
    cases hopen.symm.trans hresult

end OpenFile

/-- A call ends without a division by zero, and with the size of the format, exactly where it keeps
the size. -/
theorem formatCalls_iff (hmatches : s.SizeMatches) {call : FormatCall} {ending : Ending}
    (hcall : CallsInRange s call ending after) :
    ending ≠ .dividedByZero ∧ after.SizeMatches ↔ s.KeepsSize call := by
  obtain ⟨hcall, hrange⟩ := hcall
  cases hcall with
  | setFrameSize width height bitsPerPixel =>
    exact iff_of_true ⟨nofun, sizeMatches_setFrameSize hrange⟩ trivial
  | setBitsPerPixel bits =>
    rw [and_iff_right nofun]
    exact sizeMatches_setBitsPerPixel_iff hmatches bits
  | openFile hopen =>
    rw [and_iff_right nofun]
    exact openFile_keepsSize_iff hmatches hopen
  | thrown hopen hinfo hformat =>
    refine iff_of_true ⟨nofun, hformat.sizeMatches_iff.mpr hmatches⟩ fun _ _ parsed hparsed ↦ ?_
    rw [hparsed] at hinfo
    cases hinfo
  | dividedByZero hopen hinfo =>
    exact iff_of_false (fun hends ↦ hends.1 rfl)
      (not_keepsSize_of_dividedByZero hmatches hopen hinfo)

end Steps

/-- The size that a constructor computes is that of the format. -/
theorem Constructed.sizeMatches {s : CRawVideoFileIO} (h : Constructed s)
    (hrange : s.formatBytes < 2 ^ 32) : s.SizeMatches := by
  have hnone : 0 * 0 * ((newEmpty none).m_bitsPerPixel / 8) = 0 := Nat.zero_mul _
  cases h with
  | empty file => exact hnone.symm
  | format width height bitsPerPixel file => exact toUnsigned_of_lt hrange
  | path sFilePath file => exact hnone.symm

/-- In every run of calls of an object whose frames have less than `2 ^ 32` bytes, the size of a
frame is that of its format in all states, and no call divides by zero, exactly when every call
keeps the size. -/
theorem frame_size_matches_iff {start final : CRawVideoFileIO}
    {trace : List (Call CRawVideoFileIO FormatCall Ending)} (hstart : Constructed start)
    (hrange : start.formatBytes < 2 ^ 32) (hrun : Run CallsInRange start trace final) :
    (∀ call ∈ trace, call.before.SizeMatches ∧ call.reply ≠ .dividedByZero) ∧ final.SizeMatches ↔
      ∀ call ∈ trace, call.before.KeepsSize call.label :=
  hrun.good_and_iff (fun _ ↦ True) SizeMatches (fun call ↦ call.reply ≠ .dividedByZero)
    (fun _ _ _ _ _ _ ↦ trivial) (fun _ _ _ _ _ hmatches hcall ↦ formatCalls_iff hmatches hcall)
    trivial (hstart.sizeMatches hrange)

/-- A format that is set, bits that leave the whole bytes of a pixel, and a file that is opened
beside an info file with the same width. -/
theorem frame_size_matches_iff_open : ∃ trace final, trace.length = 3 ∧
    Run CallsInRange (newEmpty none) trace final ∧ final.m_bFileOpened = true ∧
    (∀ call ∈ trace, call.before.SizeMatches ∧ call.reply ≠ .dividedByZero) ∧
      final.SizeMatches := by
  have hrun : Run CallsInRange (newEmpty none)
      [⟨_, .setFrameSize 2 1 12, .returned⟩, ⟨_, .setBitsPerPixel 8, .returned⟩,
        ⟨_, .openFile .input ['v'] (some [1, 2]) (some (frameWidthText ++ [' ', '2']))
          ⟨true, true, true⟩, .returned⟩] _ :=
    .cons ⟨.setFrameSize _ 2 1 12, by decide⟩ (.cons ⟨.setBitsPerPixel _ 8, by decide⟩
      (.cons ⟨.openFile rfl, by decide⟩ (.nil _)))
  refine ⟨_, _, rfl, hrun, rfl, (frame_size_matches_iff (.empty none) (by decide) hrun).mpr ?_⟩
  refine List.forall_mem_cons.mpr ⟨trivial, List.forall_mem_cons.mpr ⟨.inl rfl,
    List.forall_mem_singleton.mpr fun _ _ parsed hparsed ↦ ?_⟩⟩
  obtain rfl := Except.ok.inj hparsed
  decide

/-- The bits of a pixel are doubled, and the size of a frame is not. An object that was made without
a format divides by zero when it opens a file for input. -/
theorem frame_size_is_not_computed :
    (¬∀ (start final : CRawVideoFileIO) (trace : List (Call CRawVideoFileIO FormatCall Ending)),
      Constructed start → start.formatBytes < 2 ^ 32 → Run CallsInRange start trace final →
        final.SizeMatches) ∧
    ¬∀ (start final : CRawVideoFileIO) (trace : List (Call CRawVideoFileIO FormatCall Ending)),
      Constructed start → start.formatBytes < 2 ^ 32 → Run CallsInRange start trace final →
        ∀ call ∈ trace, call.reply ≠ .dividedByZero := by
  constructor
  · intro h
    have hrun : Run CallsInRange (new 1 1 8 none) [⟨_, .setBitsPerPixel 16, .returned⟩] _ :=
      .cons ⟨.setBitsPerPixel _ 16, by decide⟩ (.nil _)
    have hmatches := h _ _ _ (.format 1 1 8 none) (by decide) hrun
    unfold SizeMatches at hmatches
    exact absurd hmatches (by decide)
  · intro h
    have hrun : Run CallsInRange (newEmpty none)
        [⟨_, .openFile .input ['v'] (some [1]) none ⟨true, true, true⟩, .dividedByZero⟩] _ :=
      .cons ⟨.dividedByZero rfl nofun, by decide⟩ (.nil _)
    exact h _ _ _ (.empty none) (by decide) hrun _ List.mem_cons_self rfl

end RdbLibs.FileIO.CRawVideoFileIO
