import RdbLibs.XML.TextBuffer

/-!
# Loading a file

`LoadXmlFile` opens the file for output, which empties it. So it finds no characters, goes to its
end and answers as the opening did (`loadXmlFile_eq`). `onlyReads_iff` says when it nevertheless
leaves the file as it was, and the document of its content.
-/

set_option autoImplicit false
set_option relaxedAutoImplicit false

namespace RdbLibs.XML

open FileIO

namespace XmlObject

variable (parse : (text : List UInt8) → Parsed text)

/-- A call leaves a file as it was, and where it answers `true`, the document of its content. -/
def OnlyReads (sFilePath : List Char) (content : List UInt8)
    (result : Option (Bool × XmlObject × Disk)) : Prop :=
  ∃ bStatus after disk, result = some (bStatus, after, disk) ∧ disk sFilePath = some content ∧
    (bStatus = true → (parse (content.map blank)).accepted = true ∧
      after.m_pXmlParser = some (parse (content.map blank)).document)

section Opening

variable (disk : Disk) {system : System} {sFilePath : List Char}

/-- A file that is opened for output is empty, and stays so where nothing is written. -/
theorem openFile_output (hpath : sFilePath ≠ []) (hgranted : system.granted sFilePath = true) :
    ∃ cFileManager, openFile disk system sFilePath .output = (true, cFileManager) ∧
      cFileManager.getFileSize.1 = 0 ∧
      closeFile disk sFilePath cFileManager.getFileSize.2 =
        Function.update disk sFilePath (some []) := by
  have hopen : openFile disk system sFilePath .output =
      (true, ⟨disk sFilePath, some ⟨[], 0, false, true, false⟩, .output⟩) := by
    simp [openFile, CFileIO.new, CFileIO.openFile, CFileIO.fopen, hpath, hgranted]
  exact ⟨_, hopen, rfl, rfl⟩

theorem openFile_refused (eMode : eFileIoMode_def)
    (h : sFilePath = [] ∨ system.granted sFilePath = false) :
    (openFile disk system sFilePath eMode).1 = false := by
  have hrefused : (decide (sFilePath ≠ []) && system.granted sFilePath) = false := by
    obtain hpath | hgranted := h
    · simp [hpath]
    · simp [hgranted]
  rw [openFile, hrefused]
  rfl

end Opening

variable {s : XmlObject} {disk : Disk} {system : System}

/-- `LoadXmlFile` empties the file, and has no further effect. -/
theorem loadXmlFile_eq (hparser : s.m_pXmlParser ≠ none) (pFolder : Option (List Char))
    (pFileName : List Char) :
    s.LoadXmlFile parse disk system pFolder (some pFileName) =
      if filePath (pFolder.getD []) pFileName ≠ [] ∧
          system.granted (filePath (pFolder.getD []) pFileName) = true then
        some (true, s, Function.update disk (filePath (pFolder.getD []) pFileName) (some []))
      else some (false, s, disk) := by
  obtain ⟨document, hdocument⟩ := Option.ne_none_iff_exists'.mp hparser
  unfold LoadXmlFile
  split
  · next hnone => exact absurd hnone hparser
  · next hnone _ => cases hnone
  · next other _ hsome =>
    obtain rfl := Option.some.inj hsome
    split_ifs with hopened
    · obtain ⟨cFileManager, hopen, hsize, hclosed⟩ :=
        openFile_output disk hopened.1 hopened.2
      dsimp only
      rw [hopen]
      dsimp only
      rw [if_neg Bool.true_eq_false.mp, if_pos (by rw [hsize]; exact one_pos), hclosed]
    · have hrefused : filePath (pFolder.getD []) pFileName = [] ∨
          system.granted (filePath (pFolder.getD []) pFileName) = false := by
        rw [not_and_or, not_not, Bool.not_eq_true] at hopened
        exact hopened
      dsimp only
      rw [if_pos (openFile_refused disk .output hrefused)]

/-- Assumes: there is a file, and there is a parser. `LoadXmlFile` only reads the file exactly where
it cannot open it, or where the file is empty, as is the document. -/
theorem onlyReads_iff {document : xml_node} {content : List UInt8}
    {pFolder : Option (List Char)} {pFileName : List Char}
    (hparser : s.m_pXmlParser = some document)
    (hfile : disk (filePath (pFolder.getD []) pFileName) = some content) :
    OnlyReads parse (filePath (pFolder.getD []) pFileName) content
        (s.LoadXmlFile parse disk system pFolder (some pFileName)) ↔
      filePath (pFolder.getD []) pFileName = [] ∨
        system.granted (filePath (pFolder.getD []) pFileName) = false ∨
        content = [] ∧ (parse []).accepted = true ∧ document = (parse []).document := by
  rw [loadXmlFile_eq parse (by rw [hparser]; nofun)]
  split_ifs with hopened
  · rw [or_iff_right hopened.1, or_iff_right (by simp [hopened.2])]
    constructor
    · rintro ⟨bStatus, after, left, hresult, hkept, hparsed⟩
      obtain ⟨rfl, rfl, rfl⟩ : true = bStatus ∧ s = after ∧ _ = left := by simpa using hresult
      rw [Function.update_self, Option.some_inj] at hkept
      subst hkept
      obtain ⟨haccepted, hdocument⟩ := hparsed rfl
      exact ⟨rfl, haccepted, Option.some.inj (hparser.symm.trans hdocument)⟩
    · rintro ⟨rfl, haccepted, rfl⟩
      exact ⟨true, s, _, rfl, by rw [Function.update_self], fun _ ↦ ⟨haccepted, hparser⟩⟩
  · refine iff_of_true ⟨false, s, disk, rfl, hfile, nofun⟩ ?_
    rw [not_and_or, not_not, Bool.not_eq_true] at hopened
    exact hopened.imp_right .inl

/-- An empty file is only read into a new document. -/
theorem onlyReads_empty :
    OnlyReads (fun text ↦ ⟨text, rfl, decide (text = []), xml_document⟩) ['a'] []
      ((XmlObject.init (some xml_document)).LoadXmlFile
        (fun text ↦ ⟨text, rfl, decide (text = []), xml_document⟩) (fun _ ↦ some [])
        ⟨fun _ ↦ true, true, true⟩ none (some ['a'])) :=
  (onlyReads_iff _ rfl rfl).mpr (.inr (.inr ⟨rfl, rfl, rfl⟩))

/-- Whatever the parser makes of it, the file `<a/>` is empty when it was loaded. -/
theorem not_onlyReads_element :
    ¬∃ parse, OnlyReads parse ['a'] [60, 97, 47, 62]
      ((XmlObject.init (some xml_document)).LoadXmlFile parse
        (fun _ ↦ some [60, 97, 47, 62]) ⟨fun _ ↦ true, true, true⟩ none (some ['a'])) := by
  rintro ⟨parse, bStatus, after, disk, hresult, hkept, -⟩
  have hparser : (XmlObject.init (some xml_document)).m_pXmlParser ≠ none := Option.some_ne_none _
  rw [loadXmlFile_eq parse hparser, if_pos (by decide)] at hresult
  obtain ⟨-, -, rfl⟩ : true = bStatus ∧ _ = after ∧ _ = disk := by simpa using hresult
  exact absurd hkept (by decide)

end XmlObject

end RdbLibs.XML
