import RdbLibs.Foundations.Runs
import RdbLibs.XML.FileLoading

/-!
# The bounds of the text buffer

`AllocXmlBuffer` and `FreeXmlBuffer` leave the noted length as it was, so that it may be beyond what
was allocated last. `bounded_iff` says of all calls of an object that has a parser when that does
not happen, and when `Parse` and `DumpXmlBuffer` stay inside of the buffer: exactly where each
`AllocXmlBuffer` that gets memory asks for the noted length at least, and `Parse` finds a buffer.
-/

set_option autoImplicit false
set_option relaxedAutoImplicit false

namespace RdbLibs.XML

open Runs

/-- A call that uses the text buffer. The disk is as the call finds it. -/
inductive BufferCall
  | AllocXmlBuffer (nLen : ℤ) (allocated : Bool)
  | FreeXmlBuffer
  | LoadXmlBuffer (disk : Disk) (system : System) (text : Text)
  | LoadXmlFile (disk : Disk) (system : System) (pFolder pFileName : Option (List Char))
  | Parse
  | DumpXmlBuffer (disk : Disk) (system : System) (pFolder pFileName : Option (List Char))
      (bSpaceFill : Bool)

namespace XmlObject

variable (parse : (text : List UInt8) → Parsed text)

/-- What a call leaves, if it stays inside of the memory. -/
def next (s : XmlObject) : BufferCall → Option XmlObject
  | .AllocXmlBuffer nLen allocated => some (s.AllocXmlBuffer nLen allocated).2
  | .FreeXmlBuffer => some s.FreeXmlBuffer
  | .LoadXmlBuffer disk system text =>
    (s.LoadXmlBuffer parse disk system text.pBuffer text.nLen).map fun result ↦ result.2.1
  | .LoadXmlFile disk system pFolder pFileName =>
    (s.LoadXmlFile parse disk system pFolder pFileName).map fun result ↦ result.2.1
  | .Parse => (s.Parse parse).map Prod.snd
  | .DumpXmlBuffer disk system pFolder pFileName bSpaceFill =>
    (s.DumpXmlBuffer disk system pFolder pFileName bSpaceFill).map fun result ↦ result.2.1

/-- What some calls leave, if they stay inside of the memory. -/
def after (s : XmlObject) (calls : List BufferCall) : Option XmlObject :=
  calls.foldlM (next parse) s

/-- The noted length is at most the length that the buffer was allocated for, which is two less than
the bytes that it has. -/
def Bounded (s : XmlObject) : Prop :=
  ∀ pXmlBuffer, s.m_pXmlBuffer = some pXmlBuffer → s.m_lXmlBufLen ≤ pXmlBuffer.length - 2

/-- The calls that keep the noted length within the buffer, and stay inside of it. -/
def WithinBuffer (s : XmlObject) : BufferCall → Prop
  | .AllocXmlBuffer nLen allocated => Allocates nLen allocated → s.m_lXmlBufLen ≤ nLen
  | .Parse => s.m_pXmlBuffer ≠ none
  | _ => True

/-- What holds between any two calls: there is a parser, and the object has no buffer, or a text in
it. -/
structure Sound (s : XmlObject) : Prop where
  parser : s.m_pXmlParser ≠ none
  text : s.m_pXmlBuffer = none ∨ ∃ text, s.Holds text

variable {parse} {s : XmlObject}

theorem Sound.bounded (h : s.Sound) : s.Bounded := by
  intro pXmlBuffer hbuffer
  obtain hnone | ⟨text, htext⟩ := h.text
  · exact absurd (hnone.symm.trans hbuffer) nofun
  · obtain rfl := Option.some.inj (htext.buffer.symm.trans hbuffer)
    simpa using htext.length

/-! ### One call -/

section Calls

variable (h : s.Sound)
include h

theorem Sound.freeXmlBuffer : s.FreeXmlBuffer.Sound := ⟨h.parser, .inl rfl⟩

theorem Sound.allocXmlBuffer {nLen : ℤ} {allocated : Bool}
    (hlength : Allocates nLen allocated → s.m_lXmlBufLen ≤ nLen) :
    (s.AllocXmlBuffer nLen allocated).2.Sound := by
  by_cases hallocates : Allocates nLen allocated
  · rw [allocXmlBuffer_of_allocates hallocates]
    refine ⟨h.parser, .inr ⟨List.replicate nLen.toNat 0, rfl, ?_⟩⟩
    rw [List.length_replicate]
    have := hlength hallocates
    show s.m_lXmlBufLen ≤ nLen.toNat
    omega
  · obtain ⟨buffer, hbuffer, halloc⟩ := allocXmlBuffer_of_not (s := s) hallocates
    rw [halloc]
    obtain rfl | rfl := hbuffer
    · exact h
    · exact ⟨h.parser, .inl rfl⟩

theorem Sound.loadXmlBuffer (disk : Disk) (system : System) (text : Text) :
    ∃ bStatus after left,
      s.LoadXmlBuffer parse disk system text.pBuffer text.nLen = some (bStatus, after, left) ∧
        after.Sound := by
  by_cases hallocates : Allocates text.nLen system.allocated
  · cases hchars : text.pBuffer with
    | none =>
      refine ⟨false, s, disk, ?_, h⟩
      unfold LoadXmlBuffer
      cases s.m_pXmlParser <;> rfl
    | some chars =>
      obtain ⟨left, length, disk', hleft, hlength, hloaded⟩ :=
        loadXmlBuffer_of_allocates parse disk system h.parser (text.covered chars hchars) hallocates
      exact ⟨_, _, disk', hloaded, Option.some_ne_none _,
        .inr ⟨left, rfl, hlength.trans hleft.ge⟩⟩
  · obtain ⟨buffer, hbuffer, hloaded⟩ :=
      loadXmlBuffer_of_not parse disk system (s := s) text.pBuffer hallocates
    refine ⟨false, _, disk, hloaded, ?_⟩
    obtain rfl | rfl := hbuffer
    · exact h
    · exact ⟨h.parser, .inl rfl⟩

theorem Sound.dumpXmlBuffer (disk : Disk) (system : System) (pFolder pFileName : Option (List Char))
    (bSpaceFill : Bool) :
    ∃ bStatus after left, s.DumpXmlBuffer disk system pFolder pFileName bSpaceFill =
      some (bStatus, after, left) ∧ after.Sound := by
  obtain hnone | ⟨text, htext⟩ := h.text
  · exact ⟨false, s, disk, by rw [DumpXmlBuffer, hnone], h⟩
  · obtain ⟨status, length, left, hlength, hdumped⟩ :=
      htext.dumpXmlBuffer disk system pFolder pFileName bSpaceFill
    exact ⟨status, _, left, hdumped, h.parser, .inr ⟨text, htext.buffer, hlength⟩⟩

theorem Sound.loadXmlFile (disk : Disk) (system : System) (pFolder pFileName : Option (List Char)) :
    ∃ bStatus left,
      s.LoadXmlFile parse disk system pFolder pFileName = some (bStatus, s, left) := by
  cases pFileName with
  | none =>
    unfold LoadXmlFile
    cases s.m_pXmlParser <;> exact ⟨false, disk, rfl⟩
  | some pFileName =>
    rw [loadXmlFile_eq parse h.parser]
    split_ifs
    · exact ⟨_, _, rfl⟩
    · exact ⟨_, _, rfl⟩

theorem Sound.exists_parse (hbuffer : s.m_pXmlBuffer ≠ none) :
    ∃ bStatus after, s.Parse parse = some (bStatus, after) ∧ after.Sound := by
  obtain hnone | ⟨text, htext⟩ := h.text
  · exact absurd hnone hbuffer
  · obtain ⟨string, left, -, hleft, hparsed⟩ := htext.parse parse h.parser
    exact ⟨_, _, hparsed, Option.some_ne_none _, .inr ⟨left, rfl, htext.length.trans hleft.ge⟩⟩

/-- From a sound object, a call that stays within the buffer leads to a sound object. -/
theorem Sound.exists_next {call : BufferCall} (hwithin : s.WithinBuffer call) :
    ∃ after, s.next parse call = some after ∧ after.Sound := by
  cases call with
  | AllocXmlBuffer nLen allocated => exact ⟨_, rfl, h.allocXmlBuffer hwithin⟩
  | FreeXmlBuffer => exact ⟨_, rfl, h.freeXmlBuffer⟩
  | LoadXmlBuffer disk system text =>
    obtain ⟨bStatus, after, left, hloaded, hafter⟩ := h.loadXmlBuffer disk system text
    exact ⟨after, by rw [next, hloaded, Option.map_some], hafter⟩
  | LoadXmlFile disk system pFolder pFileName =>
    obtain ⟨bStatus, left, hloaded⟩ := h.loadXmlFile disk system pFolder pFileName
    exact ⟨s, by rw [next, hloaded, Option.map_some], h⟩
  | Parse =>
    obtain ⟨bStatus, after, hparsed, hafter⟩ := h.exists_parse hwithin
    exact ⟨after, by rw [next, hparsed, Option.map_some], hafter⟩
  | DumpXmlBuffer disk system pFolder pFileName bSpaceFill =>
    obtain ⟨bStatus, after, left, hdumped, hafter⟩ :=
      h.dumpXmlBuffer disk system pFolder pFileName bSpaceFill
    exact ⟨after, by rw [next, hdumped, Option.map_some], hafter⟩

/-- A call that keeps the noted length within the buffer, and stays inside, meets its condition. -/
theorem Sound.withinBuffer {call : BufferCall} {after : XmlObject}
    (hnext : s.next parse call = some after) (hbounded : after.Bounded) : s.WithinBuffer call := by
  cases call with
  | AllocXmlBuffer nLen allocated =>
    intro hallocates
    rw [next, allocXmlBuffer_of_allocates hallocates, Option.some_inj] at hnext
    subst hnext
    have hlength := hbounded _ rfl
    have hthree : 3 ≤ nLen := hallocates.1
    simp only [List.length_append, List.length_replicate, List.length_cons, List.length_nil]
      at hlength
    omega
  | Parse =>
    intro hnone
    obtain ⟨document, hdocument⟩ := Option.ne_none_iff_exists'.mp h.parser
    simp [next, XmlObject.Parse, hdocument, hnone] at hnext
  | FreeXmlBuffer | LoadXmlBuffer | LoadXmlFile | DumpXmlBuffer => trivial

end Calls

/-! ### All calls -/

variable (parse) (document : xml_node) (bDumpOnError : Bool) (pDumpFile : Option (List Char))

/-- An object of `XmlParserUtil` that was given a parser. -/
def withParser : XmlObject :=
  { XmlParserUtil.new bDumpOnError pDumpFile with m_pXmlParser := some document }

theorem after_concat (calls : List BufferCall) (call : BufferCall) :
    s.after parse (calls ++ [call]) =
      (s.after parse calls).bind fun before ↦ before.next parse call := by
  rw [after, after, List.foldlM_append]
  simp

/-- All calls of an object that has a parser keep the noted length within the buffer, and stay
inside of it, exactly where each call meets its condition. -/
theorem bounded_iff (calls : List BufferCall) :
    (∀ before, before <+: calls →
      ∃ s, (withParser document bDumpOnError pDumpFile).after parse before = some s ∧ s.Bounded) ↔
      ∀ before call, before ++ [call] <+: calls → ∀ s,
        (withParser document bDumpOnError pDumpFile).after parse before = some s →
          s.WithinBuffer call := by
  refine forall_isPrefix_iff_of_inv
    (fun before ↦ ∃ s : XmlObject,
      (withParser document bDumpOnError pDumpFile).after parse before = some s ∧ s.Sound)
    ⟨_, rfl, Option.some_ne_none _, .inl rfl⟩ ?_ ?_ ?_ calls
  · rintro before ⟨s, hs, hsound⟩
    exact ⟨s, hs, hsound.bounded⟩
  · rintro before call ⟨s, hs, hsound⟩ hwithin
    obtain ⟨after, hafter, hsound⟩ : ∃ after, s.next parse call = some after ∧ after.Sound :=
      hsound.exists_next (hwithin s hs)
    exact ⟨after, by rw [after_concat, hs, Option.bind_some, hafter], hsound⟩
  · rintro before call ⟨s, hs, hsound⟩ ⟨after, hafter, hbounded⟩ other hother
    obtain rfl := Option.some.inj (hs.symm.trans hother)
    rw [after_concat, hs, Option.bind_some] at hafter
    exact hsound.withinBuffer hafter hbounded

/-- Behind a text of five characters, `AllocXmlBuffer` gets memory for three. -/
theorem not_bounded_allocXmlBuffer :
    ¬∃ s, (withParser xml_document false none).after
        (fun text ↦ ⟨text, rfl, false, xml_document⟩)
        [.LoadXmlBuffer (fun _ ↦ none) ⟨fun _ ↦ true, true, true⟩
          ⟨some [97, 98, 99, 100, 101], 5, by decide⟩, .AllocXmlBuffer 3 true] = some s ∧
      s.Bounded := by
  rintro ⟨s, hs, hbounded⟩
  have hlength := congrArg (Option.map m_lXmlBufLen) hs
  have hbuffer := congrArg (Option.map m_pXmlBuffer) hs
  rw [Option.map_some] at hlength hbuffer
  have hnoted : 5 = s.m_lXmlBufLen := Option.some.inj hlength
  have hcells : some [0, 0, 0, 0, 0] = s.m_pXmlBuffer := Option.some.inj hbuffer
  have hle := hbounded _ hcells.symm
  rw [← hnoted] at hle
  exact absurd hle (by decide)

end XmlObject

end RdbLibs.XML
