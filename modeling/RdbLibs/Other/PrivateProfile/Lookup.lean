import RdbLibs.Other.PrivateProfile.History

/-!
# The values of an INI file

A file is written as a line for each section, followed by a line for each of its pairs, with blank
lines and comments anywhere between them and spaces anywhere in a line. `loadLine` takes a line of
an entry for that entry (`loadLine_entry`) and leaves the others out, so that after all lines each
map has what the last pair of its section and key has put there (`findValue_sections`).
-/

set_option autoImplicit false
set_option relaxedAutoImplicit false

namespace RdbLibs.Other

open MachineWord

/-- A section of a file, with its pairs of a key and a value. -/
structure IniSection where
  name : List Char
  pairs : List (List Char × List Char)

/-- A text without spaces in one line. -/
def Plain (text : List Char) : Prop := ' ' ∉ text ∧ '\n' ∉ text

/-- A pair that a line can have. -/
structure PairValid (pair : List Char × List Char) : Prop where
  keyPlain : Plain pair.1
  valuePlain : Plain pair.2
  keyNonempty : pair.1 ≠ []
  noEquals : '=' ∉ pair.1
  notSection : pair.1.head? ≠ some '['
  notComment : pair.1.head? ≠ some ';' ∧ pair.1.head? ≠ some '#'

/-- A section that lines can have. -/
structure IniSection.Valid (s : IniSection) : Prop where
  namePlain : Plain s.name
  nameNonempty : s.name ≠ []
  pairs : ∀ pair ∈ s.pairs, PairValid pair

/-- What a line says. -/
inductive Entry
  | startSection (name : List Char)
  | keyValue (pair : List Char × List Char)

/-- The text of an entry. -/
def Entry.text : Entry → List Char
  | .startSection name => '[' :: (name ++ [']'])
  | .keyValue pair => pair.1 ++ '=' :: pair.2

/-- The entries of a section. -/
def IniSection.entries (s : IniSection) : List Entry :=
  .startSection s.name :: s.pairs.map .keyValue

/-- A line that says nothing: it is blank, or a comment. -/
def Idle (line : List Char) : Prop :=
  stripWhitespace line = [] ∨ (stripWhitespace line).head? = some ';' ∨
    (stripWhitespace line).head? = some '#'

/-- The lines have the entries in their order, with extra spaces, and lines between them that say
nothing. -/
inductive Written : List (List Char) → List Entry → Prop
  | nil : Written [] []
  | idle {line : List Char} {lines : List (List Char)} {entries : List Entry} (h : Idle line)
      (hrest : Written lines entries) : Written (line :: lines) entries
  | entry {line : List Char} {lines : List (List Char)} {entry : Entry} {entries : List Entry}
      (h : stripWhitespace line = entry.text) (hrest : Written lines entries) :
      Written (line :: lines) (entry :: entries)

/-- The value of the last pair that was written for a section and a key. -/
def lastValue (sections : List IniSection) (name key : List Char) : Option (List Char) :=
  ((sections.filter fun s ↦ s.name = name).flatMap IniSection.pairs).reverse.lookup key

/-! ### One line -/

theorem stripWhitespace_of_notMem {text : List Char} (h : ' ' ∉ text) :
    stripWhitespace text = text := by
  rw [stripWhitespace, List.filter_eq_self]
  intro c hc
  simpa using ne_of_mem_of_not_mem hc h

theorem loadLine_idle {line : List Char} (h : Idle line) (state : Loading) :
    loadLine state line = state := by
  unfold loadLine
  rcases h with hblank | hcomment | hcomment
  · rw [hblank]
  · obtain ⟨rest, hrest⟩ := List.head?_eq_some_iff.mp hcomment
    rw [hrest]
    simp
  · obtain ⟨rest, hrest⟩ := List.head?_eq_some_iff.mp hcomment
    rw [hrest]
    simp

theorem loadLine_startSection {line name : List Char} (hname : name ≠ [])
    (h : stripWhitespace line = (Entry.startSection name).text) (state : Loading) :
    loadLine state line = { state with currentSection := name } := by
  have hpos : 1 ≤ name.length := List.length_pos_of_ne_nil hname
  have hlength : ('[' :: (name ++ [']'])).length = name.length + 2 := by simp
  unfold loadLine
  rw [h, Entry.text]
  dsimp only
  rw [if_pos ⟨rfl, by omega⟩, hlength, Nat.add_sub_cancel, List.drop_succ_cons, List.drop_zero,
    List.take_left]

theorem loadLine_keyValue {line : List Char} {pair : List Char × List Char}
    (hvalid : PairValid pair) (h : stripWhitespace line = (Entry.keyValue pair).text)
    (state : Loading) :
    loadLine state line = state.assign pair.1 pair.2 := by
  obtain ⟨key, value⟩ := pair
  obtain ⟨first, rest, rfl⟩ := List.exists_cons_of_ne_nil hvalid.keyNonempty
  have hsection : ¬first = '[' := fun hfirst ↦ hvalid.notSection (congrArg some hfirst)
  have hcomment : ¬(first = ';' ∨ first = '#') := by
    rintro (hfirst | hfirst)
    · exact hvalid.notComment.1 (congrArg some hfirst)
    · exact hvalid.notComment.2 (congrArg some hfirst)
  have hpos : ((first :: rest) ++ '=' :: value).idxOf '=' = (first :: rest).length := by
    rw [List.idxOf_append_of_notMem hvalid.noEquals, List.idxOf_cons_self, Nat.add_zero]
  have htext : stripWhitespace line = first :: (rest ++ '=' :: value) := h
  unfold loadLine
  rw [htext]
  dsimp only
  rw [if_neg fun hstart ↦ hsection hstart.1, if_neg hcomment, ← List.cons_append, hpos,
    if_pos (by simp), List.take_left, ← List.drop_drop, List.drop_left, List.drop_succ_cons,
    List.drop_zero, stripWhitespace_of_notMem hvalid.keyPlain.1,
    stripWhitespace_of_notMem hvalid.valuePlain.1]

/-! ### All lines -/

/-- What an entry does. -/
def Entry.load (state : Loading) : Entry → Loading
  | .startSection name => { state with currentSection := name }
  | .keyValue pair => state.assign pair.1 pair.2

/-- An entry of a valid section. -/
def Entry.Valid : Entry → Prop
  | .startSection name => name ≠ []
  | .keyValue pair => PairValid pair

theorem IniSection.Valid.entries {s : IniSection} (h : s.Valid) :
    ∀ entry ∈ s.entries, entry.Valid := by
  rw [IniSection.entries, List.forall_mem_cons]
  refine ⟨h.nameNonempty, fun entry hentry ↦ ?_⟩
  obtain ⟨pair, hpair, rfl⟩ := List.mem_map.mp hentry
  exact h.pairs pair hpair

/-- The loop over the lines is a loop over their entries. -/
theorem Written.foldl_loadLine {lines : List (List Char)} {entries : List Entry}
    (h : Written lines entries) :
    (∀ entry ∈ entries, entry.Valid) → ∀ state,
      lines.foldl loadLine state = entries.foldl Entry.load state := by
  induction h with
  | nil => exact fun _ _ ↦ rfl
  | idle hidle _ ih =>
    intro hvalid state
    rw [List.foldl_cons, loadLine_idle hidle, ih hvalid]
  | @entry line lines entry entries htext _ ih =>
    intro hvalid state
    rw [List.forall_mem_cons] at hvalid
    have hline : loadLine state line = entry.load state := by
      cases entry with
      | startSection name => exact loadLine_startSection hvalid.1 htext state
      | keyValue pair => exact loadLine_keyValue hvalid.1 htext state
    rw [List.foldl_cons, List.foldl_cons, hline, ih hvalid.2]

/-! ### The values -/

/-- A value is found where it was assigned, and every other value where it was. -/
theorem findValue_assign (state : Loading) (key value name key' : List Char) :
    findValue (state.assign key value).gCurrentINIFile name key' =
      if name = state.currentSection ∧ key' = key then some value
      else findValue state.gCurrentINIFile name key' := by
  unfold findValue Loading.assign
  by_cases hname : name = state.currentSection
  · subst hname
    rw [AList.lookup_insert]
    by_cases hkey : key' = key
    · subst hkey
      rw [if_pos ⟨rfl, rfl⟩]
      exact AList.lookup_insert _
    · rw [if_neg fun h ↦ hkey h.2]
      dsimp only
      rw [AList.lookup_insert_ne hkey]
      cases state.gCurrentINIFile.lookup state.currentSection with
      | none => exact AList.lookup_empty _
      | some keyMap => rfl
  · rw [AList.lookup_insert_ne hname, if_neg fun h ↦ hname h.1]

/-- The pairs of a section: the last one of a key gives its value. -/
theorem findValue_pairs (pairs : List (List Char × List Char)) (name key : List Char) :
    ∀ state : Loading,
      (pairs.foldl (fun state pair ↦ state.assign pair.1 pair.2) state).currentSection =
        state.currentSection ∧
      findValue (pairs.foldl (fun state pair ↦ state.assign pair.1 pair.2) state).gCurrentINIFile
          name key =
        ((if state.currentSection = name then pairs else []).reverse.lookup key).or
          (findValue state.gCurrentINIFile name key) := by
  induction pairs with
  | nil =>
    intro state
    rw [ite_self]
    exact ⟨rfl, rfl⟩
  | cons pair pairs ih =>
    intro state
    obtain ⟨hsection, hvalue⟩ := ih (state.assign pair.1 pair.2)
    have hcurrent : (state.assign pair.1 pair.2).currentSection = state.currentSection := rfl
    refine ⟨hsection.trans hcurrent, ?_⟩
    rw [List.foldl_cons, hvalue, hcurrent, findValue_assign]
    by_cases hname : state.currentSection = name
    · rw [if_pos hname, if_pos hname, List.reverse_cons, List.lookup_append, Option.or_assoc]
      congr 1
      have hone : [pair].lookup key = if key == pair.1 then some pair.2 else none :=
        List.lookup_singleton
      by_cases hkey : key = pair.1
      · rw [if_pos ⟨hname.symm, hkey⟩, hone, if_pos (beq_iff_eq.mpr hkey), Option.some_or]
      · rw [if_neg fun h ↦ hkey h.2, hone, if_neg (mt beq_iff_eq.mp hkey), Option.none_or]
    · rw [if_neg hname, if_neg hname, if_neg fun h ↦ hname h.1.symm]

/-- After the entries of some sections, a value is the one of the last pair, or what it was. -/
theorem findValue_sections (sections : List IniSection) (name key : List Char) :
    ∀ state : Loading,
      findValue ((sections.flatMap IniSection.entries).foldl Entry.load state).gCurrentINIFile
          name key =
        (lastValue sections name key).or (findValue state.gCurrentINIFile name key) := by
  induction sections with
  | nil => exact fun _ ↦ rfl
  | cons s sections ih =>
    intro state
    have hentries : s.entries.foldl Entry.load state =
        s.pairs.foldl (fun state pair ↦ state.assign pair.1 pair.2)
          { state with currentSection := s.name } := by
      rw [IniSection.entries, List.foldl_cons, List.foldl_map]
      rfl
    have hpairs := (findValue_pairs s.pairs name key { state with currentSection := s.name }).2
    rw [List.flatMap_cons, List.foldl_append, ih, hentries, hpairs, ← Option.or_assoc]
    unfold lastValue
    rw [← List.lookup_append, ← List.reverse_append]
    dsimp only
    by_cases hname : s.name = name
    · rw [if_pos hname, List.filter_cons_of_pos (by simpa using hname), List.flatMap_cons]
    · rw [if_neg hname, List.filter_cons_of_neg (by simpa using hname), List.nil_append]

/-- A file with the lines of some sections has the values of their last pairs. -/
theorem findValue_loadLines {sections : List IniSection} (hvalid : ∀ s ∈ sections, s.Valid)
    {lines : List (List Char)} (hlines : Written lines (sections.flatMap IniSection.entries))
    (hnewline : ∀ line ∈ lines, '\n' ∉ line) (name key : List Char) :
    findValue (loadLines (some (['\n'].intercalate lines))) name key =
      lastValue sections name key := by
  have hentries : ∀ entry ∈ sections.flatMap IniSection.entries, entry.Valid := by
    intro entry hentry
    obtain ⟨s, hs, hentry⟩ := List.mem_flatMap.mp hentry
    exact (hvalid s hs).entries entry hentry
  have hsplit : ((['\n'].intercalate lines).splitOn '\n').foldl loadLine ⟨[], ∅⟩ =
      lines.foldl loadLine ⟨[], ∅⟩ := by
    by_cases hempty : lines = []
    · rw [hempty]
      rfl
    · rw [List.splitOn_intercalate '\n' hnewline hempty]
  rw [loadLines, hsplit, hlines.foldl_loadLine hentries, findValue_sections]
  cases lastValue sections name key with
  | none => rfl
  | some value => rfl

/-- The text that a call looks up: the value that the file has, or the default. -/
def textFor (files : Files) (lpAppName lpKeyName lpDefault lpFileName : CString) : CString :=
  ((findValue (loadLines (files.content lpFileName.chars)) lpAppName.chars lpKeyName.chars).map
    c_str).getD lpDefault

/-- After any calls on any files, a call copies the text that it looks up. -/
theorem GetPrivateProfileString_eq (files : Files) (calls : List IniCall)
    (lpAppName lpKeyName lpDefault lpFileName : CString) (nSize : ℤ) :
    (GetPrivateProfileString files (IniCache.after files calls) lpAppName lpKeyName lpDefault nSize
      lpFileName).1 =
      privateProfileStringCopy nSize (textFor files lpAppName lpKeyName lpDefault lpFileName) := by
  unfold GetPrivateProfileString textFor
  dsimp only
  rw [(IniCache.current_after files calls).select_eq, loadNewINIFile]
  cases findValue (loadLines (files.content lpFileName.chars)) lpAppName.chars lpKeyName.chars with
  | none => rfl
  | some value => rfl

/-- A C string that fits the buffer is copied, with zeros behind it. -/
theorem privateProfileStringCopy_eq {siz : ℤ} (hint : siz < 2 ^ 31) {val : CString}
    (hsiz : val.chars.length < siz) :
    privateProfileStringCopy siz val = ⟨val.chars.length,
      val.chars ++ List.replicate (siz.toNat - val.chars.length) nul⟩ := by
  have hsize : intToSize siz = siz.toNat := by
    unfold intToSize
    omega
  have hlength : toInt val.chars.length = val.chars.length := toInt_of_lt (by omega)
  rw [privateProfileStringCopy, strncpy, hsize, hlength, min_eq_right hsiz.le,
    List.take_of_length_le (by omega)]

/-- Assumes: a file has the lines of valid sections, with lines between them that say nothing, and
extra spaces anywhere. After any calls on any files, `GetPrivateProfileString` delivers the value of
the last pair that was written for the section and the key, as a C string, or else the default, to a
buffer that is longer. -/
theorem GetPrivateProfileString_delivers {files : Files} (calls : List IniCall)
    {lpFileName : CString} {sections : List IniSection} (hvalid : ∀ s ∈ sections, s.Valid)
    {lines : List (List Char)} (hlines : Written lines (sections.flatMap IniSection.entries))
    (hnewline : ∀ line ∈ lines, '\n' ∉ line)
    (hfile : files.content lpFileName.chars = some (['\n'].intercalate lines))
    (lpAppName lpKeyName lpDefault : CString) {delivered : CString}
    (hdelivered : delivered =
      ((lastValue sections lpAppName.chars lpKeyName.chars).map c_str).getD lpDefault)
    {nSize : ℤ} (hint : nSize < 2 ^ 31) (hsize : delivered.chars.length < nSize) :
    (GetPrivateProfileString files (IniCache.after files calls) lpAppName lpKeyName lpDefault nSize
      lpFileName).1 = ⟨delivered.chars.length,
        delivered.chars ++ List.replicate (nSize.toNat - delivered.chars.length) nul⟩ := by
  rw [GetPrivateProfileString_eq, textFor, hfile, findValue_loadLines hvalid hlines hnewline,
    ← hdelivered]
  exact privateProfileStringCopy_eq hint hsize

/-- A disk with one file, of a section, a comment, a pair with spaces and a blank line. -/
def exampleFiles : Files where
  content name := if name = ['f'] then
    some (['\n'].intercalate [['[', 'a', ']'], [' ', ';'], ['k', ' ', '=', 'v'], [' ']]) else none
  content_nil := rfl

theorem GetPrivateProfileString_delivers_pair :
    (GetPrivateProfileString exampleFiles (IniCache.after exampleFiles []) (c_str ['a'])
      (c_str ['k']) (c_str []) 3 (c_str ['f'])).1 = ⟨1, ['v', nul, nul]⟩ := by
  have hwritten : Written [['[', 'a', ']'], [' ', ';'], ['k', ' ', '=', 'v'], [' ']]
      ([IniSection.mk ['a'] [(['k'], ['v'])]].flatMap IniSection.entries) :=
    .entry rfl (.idle (.inr (.inl rfl)) (.entry rfl (.idle (.inl rfl) .nil)))
  refine GetPrivateProfileString_delivers [] ?_ hwritten (by decide) rfl (c_str ['a'])
    (c_str ['k']) (c_str []) (show c_str ['v'] = _ from rfl) (by decide) (by decide)
  rw [List.forall_mem_singleton]
  refine ⟨⟨by decide, by decide⟩, by decide, ?_⟩
  rw [List.forall_mem_singleton]
  exact ⟨⟨by decide, by decide⟩, ⟨by decide, by decide⟩, by decide, by decide, by decide, by decide⟩

end RdbLibs.Other
