import Mathlib.Data.List.TakeWhile
import RdbLibs.FileIO.CFileIO
import RdbLibs.Foundations.BoundedLines
import RdbLibs.Foundations.WhileLoop

/-!
# Lines of text files

`CFileIO::writeLine` and `CFileIO::readLine` of `Src/FileIO/CFileIO.h`, and the loop of a caller
that reads lines until there are none. The memory of a line is always served. The end-of-file
indicator is what `fgets` has just met: it is older only where the stream was at its end before and
is still there.

A file that is written line by line is read back as it was written exactly when its lines are such
as `fgets` makes them, and have no character 0 (`lines_read_back_iff`). The loop comes to an end
exactly when the stream may be read, or the object refuses the call (`readLines_ends_iff`): where
`fgets` fails without having met the end of the file, `readLine` notes an error, clears it, and
answers `true`.
-/

set_option autoImplicit false
set_option relaxedAutoImplicit false

namespace RdbLibs.FileIO

open BoundedLines FileStream WhileLoop

/-- `MAX_LINE_IO_SIZE`. -/
def MAX_LINE_IO_SIZE : ℕ := 1024

/-- The character `'\n'`. -/
def newline : UInt8 := 10

/-- The characters of a C string, which ends before the first 0. -/
def cString (memory : List UInt8) : List UInt8 := memory.takeWhile (· ≠ 0)

/-- `fgets` into a memory of `size` characters: the line, if there is one, and whether the end of
the file was met. -/
def fgets (stream : Stream UInt8) (size : ℕ) : Option (List UInt8) × Bool × Stream UInt8 :=
  if stream.readable = false then (none, false, stream)
  else
    let line := firstLine newline (size - 1) (stream.content.drop stream.offset)
    if line = [] then (none, true, stream)
    else
      (some line, !decide (Full newline (size - 1) line),
        stream.seek (stream.offset + line.length))

/-- `CFileIO`, with the fields that the functions for lines use. -/
structure LineFile extends CFileIO where
  m_bBinary : Bool
  m_nLastIoSize : ℕ

namespace LineFile

/-- A `CFileIO` whose path has the given file. -/
def new (file : Option (List UInt8)) : LineFile := ⟨.new file, false, 0⟩

/-- `CFileIO::openFile`. -/
def openFile (io : LineFile) (eMode : eFileIoMode_def) (granted : Bool) : Bool × LineFile :=
  let (opened, file) := io.toCFileIO.openFile eMode granted
  (opened, ⟨file, io.m_bBinary, if opened then 0 else io.m_nLastIoSize⟩)

/-- `CFileIO::closeFile`. -/
def closeFile (io : LineFile) : Bool × LineFile :=
  let (closed, file) := io.toCFileIO.closeFile
  (closed, { io with toCFileIO := file })

/-- `CFileIO::writeLine`. The text is one item of `fwrite`, of which the answer is the number. -/
def writeLine (io : LineFile) (sOutput : List UInt8) : Bool × LineFile :=
  match io.m_pFileHandle with
  | none => (false, io)
  | some stream =>
    let bloclSize := sOutput.length % 2 ^ 32
    let (length, stream) := stream.write bloclSize (sOutput.take bloclSize)
    (length == sOutput.length, { io with
      m_pFileHandle := some stream
      m_nLastIoSize := if 0 < length then bloclSize else 0 })

/-- `CFileIO::readLine`. The answer is followed by `sInput` and `nNumBytesRead`. -/
def readLine (io : LineFile) (sInput : List UInt8) (nNumBytesRead : ℕ) :
    Bool × List UInt8 × ℕ × LineFile :=
  match io.m_pFileHandle with
  | none => (false, sInput, nNumBytesRead, io)
  | some stream =>
    if io.m_bBinary then (false, sInput, nNumBytesRead, io)
    else
      let (status, eof, stream) := fgets stream MAX_LINE_IO_SIZE
      let line := cString (status.getD [])
      let io := { io with m_pFileHandle := some stream, m_nLastIoSize := line.length }
      -- what fails without the end of the file falls through to `return true`
      if line.length < 1 then (!eof, sInput, line.length, io)
      else (true, line, line.length, io)

/-- `writeLine` for one text after another, with the answers. -/
def writeLines (io : LineFile) : List (List UInt8) → List Bool × LineFile
  | [] => ([], io)
  | text :: texts =>
    let (answer, io) := io.writeLine text
    let (answers, io) := io.writeLines texts
    (answer :: answers, io)

end LineFile

/-- The variables of a caller that collects lines: the object, the last line, and all lines. -/
structure Collecting where
  io : LineFile
  sInput : List UInt8
  lines : List (List UInt8)

/-- A pass of the loop that goes on while `readLine` succeeds. -/
def readPass (state : Collecting) : Pass Collecting (List (List UInt8)) :=
  let (more, sInput, _, io) := state.io.readLine state.sInput 0
  if more then .again ⟨io, sInput, state.lines ++ [sInput]⟩ else .leave state.lines

/-- What the loop collects from the lines of a text, when `sInput` is what the variable of the
caller holds. A line that begins with 0 leaves the variable as it is. -/
def collected : List UInt8 → List (List UInt8) → List (List UInt8)
  | _, [] => []
  | sInput, line :: lines =>
    if cString line ≠ [] then cString line :: collected (cString line) lines
    else if Full newline (MAX_LINE_IO_SIZE - 1) line then sInput :: collected sInput lines
    else []

/-- The file of an object after some texts were written to it line by line, opened for reading. -/
def reopened (file : Option (List UInt8)) (texts : List (List UInt8)) : List Bool × LineFile :=
  let (_, io) := (LineFile.new file).openFile .output true
  let (answers, io) := io.writeLines texts
  let (_, io) := io.closeFile
  let (_, io) := io.openFile .input true
  (answers, io)

/-! ### Writing -/

namespace LineFile

variable {io : LineFile} {content : List UInt8}

/-- A text is written at the end of a new file, as far as an `unsigned int` counts its characters.
The answer is `true` where it has one character, or none. -/
theorem writeLine_output
    (hstream : io.m_pFileHandle = some ⟨content, content.length, false, true, false⟩)
    (sOutput : List UInt8) :
    (io.writeLine sOutput).1 = decide (sOutput.length ≤ 1) ∧ ∃ size,
      (io.writeLine sOutput).2 = { io with
        m_pFileHandle := some ⟨content ++ sOutput.take (sOutput.length % 2 ^ 32),
          (content ++ sOutput.take (sOutput.length % 2 ^ 32)).length, false, true, false⟩
        m_nLastIoSize := size } := by
  rw [writeLine, hstream]
  dsimp only
  rcases eq_or_ne (sOutput.length % 2 ^ 32) 0 with hzero | hsize
  · have hanswer : (0 == sOutput.length) = decide (sOutput.length ≤ 1) := by
      rw [Bool.eq_iff_iff, beq_iff_eq, decide_eq_true_iff]
      omega
    rw [hzero, Stream.write, if_pos (.inr rfl), List.take_zero, List.append_nil]
    exact ⟨hanswer, _, rfl⟩
  · have hitem :
        (sOutput.take (sOutput.length % 2 ^ 32)).length / (sOutput.length % 2 ^ 32) = 1 := by
      rw [List.length_take, Nat.min_eq_left (Nat.mod_le _ _), Nat.div_self (by omega)]
    have hanswer : (1 == sOutput.length) = decide (sOutput.length ≤ 1) := by
      rw [Bool.eq_iff_iff, beq_iff_eq, decide_eq_true_iff]
      omega
    have hwrite := Stream.write_atEnd (s := ⟨content, content.length, false, true, false⟩) rfl rfl
      hsize (sOutput.take (sOutput.length % 2 ^ 32))
    rw [hwrite, hitem]
    exact ⟨hanswer, _, rfl⟩

/-- Some texts are written one behind the other. -/
theorem writeLines_output (texts : List (List UInt8)) : ∀ {io : LineFile} {content : List UInt8},
    io.m_pFileHandle = some ⟨content, content.length, false, true, false⟩ →
    (io.writeLines texts).1 = texts.map (fun text ↦ decide (text.length ≤ 1)) ∧ ∃ size written,
      written = content ++ (texts.map fun text ↦ text.take (text.length % 2 ^ 32)).flatten ∧
      (io.writeLines texts).2 = { io with
        m_pFileHandle := some ⟨written, written.length, false, true, false⟩
        m_nLastIoSize := size } := by
  induction texts with
  | nil =>
    intro io content hstream
    obtain ⟨file, binary, size⟩ := io
    obtain ⟨disk, handle, mode⟩ := file
    dsimp only at hstream
    subst hstream
    exact ⟨rfl, size, content, (List.append_nil content).symm, rfl⟩
  | cons text texts ih =>
    intro io content hstream
    obtain ⟨hanswer, size, hline⟩ := writeLine_output hstream text
    obtain ⟨hanswers, size', written, hwritten, hlines⟩ :=
      ih (congrArg (fun io : LineFile ↦ io.m_pFileHandle) hline)
    rw [writeLines, List.map_cons, List.map_cons, List.flatten_cons, ← List.append_assoc]
    dsimp only
    rw [hanswer, hanswers, hlines, hline]
    exact ⟨rfl, size', written, hwritten, rfl⟩

end LineFile

/-- What was written is in the file, and is read from its beginning. -/
theorem reopened_eq (file : Option (List UInt8)) (texts : List (List UInt8)) :
    (reopened file texts).1 = texts.map (fun text ↦ decide (text.length ≤ 1)) ∧
      ∃ disk, (reopened file texts).2 = ⟨⟨disk,
        some ⟨(texts.map fun text ↦ text.take (text.length % 2 ^ 32)).flatten, 0, true, false,
          false⟩, .input⟩, false, 0⟩ := by
  obtain ⟨io, hio⟩ : ∃ io, io = ((LineFile.new file).openFile .output true).2 := ⟨_, rfl⟩
  have hstream : io.m_pFileHandle = some ⟨[], ([] : List UInt8).length, false, true, false⟩ := by
    rw [hio]
    rfl
  obtain ⟨hanswers, size, written, hwritten, hlines⟩ := LineFile.writeLines_output texts hstream
  rw [List.nil_append] at hwritten
  rw [← hwritten]
  unfold reopened
  dsimp only
  rw [← hio, hanswers, hlines]
  subst hio
  exact ⟨rfl, some written, rfl⟩

/-! ### Reading -/

/-- A text file that is open for reading, with its stream before some text. -/
structure LineFile.Reads (io : LineFile) (text : List UInt8) : Prop where
  text_mode : io.m_bBinary = false
  stream : ∃ stream, io.m_pFileHandle = some stream ∧ stream.readable = true ∧
    stream.content.drop stream.offset = text

namespace LineFile.Reads

variable {io : LineFile} {line rest sInput : List UInt8} {acc : List (List UInt8)}

/-- A pass that meets a line. -/
theorem readPass_line (h : io.Reads (line ++ rest))
    (hline : IsLine newline (MAX_LINE_IO_SIZE - 1) line)
    (hnext : Full newline (MAX_LINE_IO_SIZE - 1) line ∨ rest = []) (sInput : List UInt8)
    (acc : List (List UInt8)) :
    ∃ io' : LineFile, io'.Reads rest ∧ readPass ⟨io, sInput, acc⟩ =
      if cString line ≠ [] then .again ⟨io', cString line, acc ++ [cString line]⟩
      else if Full newline (MAX_LINE_IO_SIZE - 1) line then .again ⟨io', sInput, acc ++ [sInput]⟩
      else .leave acc := by
  obtain ⟨hmode, stream, hstream, hreadable, htext⟩ := h
  have hfirst : firstLine newline (MAX_LINE_IO_SIZE - 1) (stream.content.drop stream.offset) =
      line := by rw [htext, hline.firstLine_append hnext]
  have hfgets : fgets stream MAX_LINE_IO_SIZE = (some line,
      !decide (Full newline (MAX_LINE_IO_SIZE - 1) line),
      stream.seek (stream.offset + line.length)) := by
    rw [fgets, if_neg (by rw [hreadable]; decide)]
    dsimp only
    rw [hfirst, if_neg hline.ne_nil]
  obtain ⟨io', hio'⟩ : ∃ io' : LineFile, io' = { io with
    m_pFileHandle := some (stream.seek (stream.offset + line.length))
    m_nLastIoSize := (cString line).length } := ⟨_, rfl⟩
  have hrest : io'.Reads rest := by
    rw [hio']
    refine ⟨hmode, _, rfl, hreadable, ?_⟩
    rw [Stream.seek, ← List.drop_drop, htext, List.drop_left]
  have hread (nNumBytesRead : ℕ) : io.readLine sInput nNumBytesRead =
      if (cString line).length < 1 then
        (decide (Full newline (MAX_LINE_IO_SIZE - 1) line), sInput, (cString line).length, io')
      else (true, cString line, (cString line).length, io') := by
    have htextMode : ¬io.m_bBinary = true := by
      rw [hmode]
      exact Bool.false_ne_true
    rw [readLine, hstream]
    dsimp only
    rw [if_neg htextMode, hfgets]
    dsimp only
    rw [Option.getD_some, Bool.not_not, ← hio']
  refine ⟨io', hrest, ?_⟩
  rw [readPass, hread]
  rcases eq_or_ne (cString line) [] with hempty | hsome
  · have hlength : ([] : List UInt8).length < 1 := Nat.zero_lt_one
    rw [hempty, if_pos hlength, if_neg (not_not.mpr rfl)]
    by_cases hfull : Full newline (MAX_LINE_IO_SIZE - 1) line
    · rw [decide_eq_true hfull, if_pos hfull]
      rfl
    · rw [decide_eq_false hfull, if_neg hfull]
      rfl
  · have hlength : ¬(cString line).length < 1 := by
      have hpos := List.length_pos_iff.mpr hsome
      omega
    rw [if_neg hlength, if_pos hsome]
    rfl

/-- A pass at the end of the file. -/
theorem readPass_end (h : io.Reads []) (sInput : List UInt8) (acc : List (List UInt8)) :
    readPass ⟨io, sInput, acc⟩ = .leave acc := by
  obtain ⟨hmode, stream, hstream, hreadable, htext⟩ := h
  have hfgets : fgets stream MAX_LINE_IO_SIZE = (none, true, stream) := by
    rw [fgets, if_neg (by rw [hreadable]; decide)]
    dsimp only
    rw [htext, firstLine_nil, if_pos rfl]
  rw [readPass, readLine, hstream]
  dsimp only
  rw [hmode, if_neg Bool.false_ne_true, hfgets]
  rfl

/-- The loop collects the lines of the text that is left. -/
theorem returns_collected {text : List UInt8} {lines : List (List UInt8)}
    (hlines : Lines newline (MAX_LINE_IO_SIZE - 1) text lines) :
    ∀ {io : LineFile}, io.Reads text → ∀ (sInput : List UInt8) (acc : List (List UInt8)),
      Returns readPass ⟨io, sInput, acc⟩ (acc ++ collected sInput lines) := by
  induction hlines with
  | nil =>
    intro io h sInput acc
    rw [collected, List.append_nil]
    exact .leave (h.readPass_end sInput acc)
  | cons hline hnext _ ih =>
    intro io h sInput acc
    obtain ⟨io', hrest, hpass⟩ := h.readPass_line hline hnext sInput acc
    rw [collected]
    split_ifs at hpass ⊢ with hsome hfull
    · rw [List.append_cons]
      exact .again hpass (ih hrest _ _)
    · rw [List.append_cons]
      exact .again hpass (ih hrest _ _)
    · rw [List.append_nil]
      exact .leave hpass

end LineFile.Reads

/-! ### Reading back -/

theorem lineLimit_ne_zero : MAX_LINE_IO_SIZE - 1 ≠ 0 := by decide

theorem zero_notMem_cString (memory : List UInt8) : 0 ∉ cString memory := by
  intro hmem
  have hzero := List.mem_takeWhile_imp hmem
  exact absurd hzero (by decide)

theorem cString_eq {memory : List UInt8} (h : 0 ∉ memory) : cString memory = memory :=
  List.takeWhile_eq_self_iff.mpr fun _ hmem ↦ decide_eq_true fun hzero ↦ h (hzero ▸ hmem)

/-- Lines without a 0 are collected as they are. -/
theorem collected_eq {lines : List (List UInt8)} :
    ∀ {sInput : List UInt8}, (∀ line ∈ lines, line ≠ [] ∧ 0 ∉ line) →
      collected sInput lines = lines := by
  induction lines with
  | nil => exact fun _ ↦ rfl
  | cons line lines ih =>
    intro sInput h
    obtain ⟨⟨hne, hzero⟩, hrest⟩ := List.forall_mem_cons.mp h
    rw [collected, cString_eq hzero, if_pos hne, ih hrest]

/-- What is collected has no 0. -/
theorem zero_notMem_collected (lines : List (List UInt8)) : ∀ {sInput : List UInt8},
    0 ∉ sInput → ∀ text ∈ collected sInput lines, 0 ∉ text := by
  induction lines with
  | nil => exact fun _ _ hmem ↦ absurd hmem List.not_mem_nil
  | cons line lines ih =>
    intro sInput hsInput
    rw [collected]
    split_ifs
    · exact List.forall_mem_cons.mpr ⟨zero_notMem_cString line, ih (zero_notMem_cString line)⟩
    · exact List.forall_mem_cons.mpr ⟨hsInput, ih hsInput⟩
    · exact fun _ hmem ↦ absurd hmem List.not_mem_nil

/-- A file that is written line by line, closed, and opened for reading: `writeLine` answers `false`
for every text of more than one character, and the loop that reads lines collects exactly what was
written if and only if each text is a line of 1023 characters at most, with its line feed at its
end, each but the last has a line feed or 1023 characters, and none has a character 0. -/
theorem lines_read_back_iff (file : Option (List UInt8)) (texts : List (List UInt8)) :
    (reopened file texts).1 = texts.map (fun text ↦ decide (text.length ≤ 1)) ∧
      (Returns readPass ⟨(reopened file texts).2, [], []⟩ texts ↔
        WellFormed newline (MAX_LINE_IO_SIZE - 1) texts ∧ ∀ text ∈ texts, 0 ∉ text) := by
  obtain ⟨hanswers, disk, hopen⟩ := reopened_eq file texts
  obtain ⟨written, hwritten⟩ :
      ∃ written, written = (texts.map fun text ↦ text.take (text.length % 2 ^ 32)).flatten :=
    ⟨_, rfl⟩
  rw [← hwritten] at hopen
  have hreads : (reopened file texts).2.Reads written := by
    rw [hopen]
    exact ⟨rfl, _, rfl, rfl, rfl⟩
  obtain ⟨lines, hlines⟩ := exists_lines newline lineLimit_ne_zero written
  have hcollects := hreads.returns_collected hlines [] []
  rw [List.nil_append] at hcollects
  -- short texts are written as a whole
  have hshort (h : ∀ text ∈ texts, text.length ≤ MAX_LINE_IO_SIZE - 1) :
      written = texts.flatten := by
    rw [hwritten]
    refine congrArg List.flatten ((List.map_congr_left fun text htext ↦ ?_).trans
      (List.map_id texts))
    have hlength := h text htext
    rw [MAX_LINE_IO_SIZE] at hlength
    rw [Nat.mod_eq_of_lt (by omega), List.take_length, id]
  refine ⟨hanswers, fun hreturns ↦ ?_, fun ⟨hwell, hzero⟩ ↦ ?_⟩
  · have htexts : texts = collected [] lines := hreturns.unique hcollects
    have hzero : ∀ text ∈ texts, 0 ∉ text := by
      rw [htexts]
      exact zero_notMem_collected lines List.not_mem_nil
    have hwritten : 0 ∉ written := by
      rw [hwritten, List.mem_flatten]
      rintro ⟨piece, hpiece, hmem⟩
      obtain ⟨text, htext, rfl⟩ := List.mem_map.mp hpiece
      exact hzero text htext (List.mem_of_mem_take hmem)
    have hclean : ∀ line ∈ lines, line ≠ [] ∧ 0 ∉ line := by
      refine fun line hline ↦ ⟨(hlines.isLine line hline).ne_nil, fun hmem ↦ hwritten ?_⟩
      rw [← hlines.flatten_eq]
      exact List.mem_flatten.mpr ⟨line, hline, hmem⟩
    rw [collected_eq hclean] at htexts
    subst htexts
    rw [hshort fun text htext ↦ (hlines.isLine text htext).length_le] at hlines
    exact ⟨lines_flatten_iff.mp hlines, hzero⟩
  · have hsplit := lines_flatten_iff.mpr hwell
    have hparts := hsplit.isLine
    rw [hshort fun text htext ↦ (hparts text htext).length_le] at hlines
    obtain rfl := hlines.unique hsplit
    rwa [collected_eq fun line hline ↦ ⟨(hparts line hline).ne_nil, hzero line hline⟩]
      at hcollects

/-! ### The end of the loop -/

/-- A pass over a stream that may not be read goes on, with the same stream. -/
theorem readPass_unreadable {io : LineFile} {stream : Stream UInt8}
    (hstream : io.m_pFileHandle = some stream) (hmode : io.m_bBinary = false)
    (hreadable : stream.readable = false) (sInput : List UInt8) (acc : List (List UInt8)) :
    readPass ⟨io, sInput, acc⟩ =
      .again ⟨{ io with m_pFileHandle := some stream, m_nLastIoSize := 0 }, sInput,
        acc ++ [sInput]⟩ := by
  have htextMode : ¬io.m_bBinary = true := by
    rw [hmode]
    exact Bool.false_ne_true
  rw [readPass, LineFile.readLine, hstream]
  dsimp only
  rw [if_neg htextMode, fgets, if_pos hreadable]
  rfl

/-- The loop that reads lines comes to an end, with whatever variables it starts, exactly when the
object is not open, is in binary mode, or has a stream that may be read. -/
theorem readLines_ends_iff (io : LineFile) (sInput : List UInt8) (acc : List (List UInt8)) :
    (∃ result, Returns readPass ⟨io, sInput, acc⟩ result) ↔
      io.m_bBinary = true ∨ ∀ stream, io.m_pFileHandle = some stream → stream.readable = true := by
  constructor
  · rintro ⟨result, fuel, hloop⟩
    by_contra hnot
    obtain ⟨hmode, hstreams⟩ := not_or.mp hnot
    obtain ⟨stream, hopen⟩ := not_forall.mp hstreams
    obtain ⟨hstream, hreadable⟩ := Classical.not_imp.mp hopen
    -- every pass goes on, and meets the same stream
    have hpass (state : Collecting) (h : state.io.m_bBinary = false ∧
        state.io.m_pFileHandle = some stream) :
        readPass state = .again ⟨{ state.io with m_pFileHandle := some stream, m_nLastIoSize := 0 },
          state.sInput, state.lines ++ [state.sInput]⟩ :=
      readPass_unreadable h.2 h.1 (Bool.eq_false_of_not_eq_true hreadable) _ _
    refine loop_invariant (fun state ↦ state.io.m_bBinary = false ∧
      state.io.m_pFileHandle = some stream) (fun _ ↦ False) (fun state next hinv hnext ↦ ?_)
      (fun state result hinv hleave ↦ ?_) ⟨Bool.eq_false_of_not_eq_true hmode, hstream⟩ hloop
    · rw [hpass state hinv, Pass.again.injEq] at hnext
      rw [← hnext]
      exact ⟨hinv.1, rfl⟩
    · rw [hpass state hinv] at hleave
      cases hleave
  · intro hends
    cases hstream : io.m_pFileHandle with
    | none =>
      refine ⟨acc, .leave ?_⟩
      rw [readPass, LineFile.readLine, hstream]
      rfl
    | some stream =>
      cases hmode : io.m_bBinary with
      | true =>
        refine ⟨acc, .leave ?_⟩
        rw [readPass, LineFile.readLine, hstream]
        dsimp only
        rw [if_pos hmode]
        rfl
      | false =>
        have htextMode : ¬io.m_bBinary = true := by
          rw [hmode]
          exact Bool.false_ne_true
        have hreadable := hends.resolve_left htextMode stream hstream
        obtain ⟨lines, hlines⟩ :=
          exists_lines newline lineLimit_ne_zero (stream.content.drop stream.offset)
        have hreads : io.Reads (stream.content.drop stream.offset) :=
          ⟨hmode, stream, hstream, hreadable, rfl⟩
        exact ⟨_, hreads.returns_collected hlines sInput acc⟩

end RdbLibs.FileIO
