import RdbLibs.NetIO.UriParams.Passes

/-!
# What `parseUriParams` reads of assembled parameters

`parseUriParams` cuts a name with the position of its end in the place of its length. Both a
question mark and an open brace stand before the first name, so that its end is behind its length,
and it is read with the separator behind it: no list of parameters is ever read as it was assembled,
neither behind a question mark (`parseUriParams_query_ne`) nor between braces
(`parseUriParams_braces_ne`).
-/

set_option autoImplicit false
set_option relaxedAutoImplicit false

namespace RdbLibs.NetIO

open MachineWord TextPositions WhileLoop

/-- A parameter as it is assembled behind a question mark. -/
def queryEntry (param : UriParamData) : List Char := param.m_sName ++ '=' :: param.m_sValue

/-- The parameters behind a question mark. -/
def queryText (params : List UriParamData) : List Char :=
  ['&'].intercalate (params.map queryEntry)

/-- A parameter that can stand behind a question mark. -/
structure QueryParam (param : UriParamData) : Prop where
  name_ne : param.m_sName ≠ []
  value_ne : param.m_sValue ≠ []
  name_free : ∀ ch ∈ ['=', '&', '?'], ch ∉ param.m_sName
  value_free : ∀ ch ∈ ['=', '&', '?'], ch ∉ param.m_sValue

/-- A parameter as it is assembled between braces, with its value in quotes or without. -/
def braceEntry (entry : Bool × UriParamData) : List Char :=
  '"' :: (entry.2.m_sName ++ '"' :: ':' ::
    if entry.1 then '"' :: (entry.2.m_sValue ++ ['"']) else entry.2.m_sValue)

/-- The parameters between braces, and the braces. -/
def braceText (entries : List (Bool × UriParamData)) : List Char :=
  '{' :: ([','].intercalate (entries.map braceEntry) ++ ['}'])

/-- A parameter that can stand between braces. A value without quotes begins with a character that
is no space. -/
structure BraceParam (entry : Bool × UriParamData) : Prop where
  name_free : ∀ ch ∈ ['"', ':', ',', '{', '}'], ch ∉ entry.2.m_sName
  value_free : ∀ ch ∈ ['"', ':', ',', '{', '}'], ch ∉ entry.2.m_sValue
  bare : entry.1 = false → ∃ ch rest, entry.2.m_sValue = ch :: rest ∧ ch ≠ ' '

/-- An assembled list begins with its first part. -/
theorem intercalate_cons_split {α : Type*} (sep first : List α) (rest : List (List α)) :
    ∃ behind, sep.intercalate (first :: rest) = first ++ behind := by
  cases rest with
  | nil => exact ⟨[], by rw [List.intercalate_singleton, List.append_nil]⟩
  | cons second rest =>
    rw [List.intercalate_cons_cons, List.append_assoc]
    exact ⟨_, rfl⟩

/-- A piece that is longer than a name is not the name. -/
theorem take_append_cons_ne {α : Type*} {name : List α} {count : ℕ} (h : name.length < count)
    (sep : α) (behind : List α) : (name ++ sep :: behind).take count ≠ name := by
  intro heq
  have hlength := congrArg List.length heq
  rw [List.length_take, List.length_append, List.length_cons] at hlength
  omega

/-- The first parameter that a loop returns has the name that its first pass reads. -/
theorem ParamPasses.named_of_cons {nLength nParamStart fuel : ℕ}
    {body : ParamScan → Except RangeFault (Pass ParamScan ParamAnswer)}
    {Named : ℕ → List Char → Prop} {Ends : ℕ → Prop} (h : ParamPasses nLength body Named Ends)
    {success : Bool} {param : UriParamData} {params : List UriParamData}
    (hloop : loop (fun scan ↦ Pass.checked (body scan)) fuel ⟨nParamStart, []⟩ =
      some (.ok (success, param :: params))) :
    Named nParamStart param.m_sName := by
  obtain ⟨answer, hanswer, hshows⟩ := h.first hloop
  obtain rfl := Except.ok.inj hanswer
  rcases hshows with ⟨-, newParam, hname, hmore⟩ | ⟨-, hnone | ⟨-, newParam, hname, hlist⟩⟩
  · obtain rfl := (List.cons_prefix_cons.mp hmore).1
    exact hname
  · exact absurd hnone (List.cons_ne_nil _ _)
  · obtain rfl := (List.cons.inj hlist).1
    exact hname

/-- Parameters behind a question mark are never read as they were assembled. -/
theorem parseUriParams_query_ne {before : List Char} (hbefore : '?' ∉ before)
    {params : List UriParamData} (hsome : params ≠ [])
    (hparams : ∀ param ∈ params, QueryParam param) (fuel : ℕ) :
    parseUriParams fuel (before ++ '?' :: queryText params) [] ≠ some (.ok (true, params)) := by
  obtain ⟨param, rest, rfl⟩ := List.exists_cons_of_ne_nil hsome
  have hparam := hparams param List.mem_cons_self
  obtain ⟨behind, hbehind⟩ := intercalate_cons_split ['&'] (queryEntry param)
    (rest.map queryEntry)
  have htext : before ++ '?' :: queryText (param :: rest) =
      (before ++ ['?']) ++ (param.m_sName ++ '=' :: (param.m_sValue ++ behind)) := by
    rw [queryText, List.map_cons, hbehind, queryEntry, List.append_assoc, List.append_assoc]
    rfl
  have hstart : (before ++ ['?']).length = before.length + 1 := List.length_append
  intro hparse
  rw [parseUriParams_of_question fuel [] (findFrom_zero_append_cons hbefore _)] at hparse
  split_ifs at hparse with hend
  · exact absurd (Prod.mk.inj (Except.ok.inj (Option.some.inj hparse))).1 Bool.false_ne_true
  have hname := (queryPasses _).named_of_cons hparse
  rw [htext] at hname
  have hequal := hname _ (findFrom_append_cons hstart (hparam.name_free '=' (by decide)) _)
  rw [List.drop_left' hstart] at hequal
  exact take_append_cons_ne (by omega) '=' _ hequal.symm

theorem queryParam_letter : QueryParam ⟨['a'], ['1']⟩ where
  name_ne := List.cons_ne_nil _ _
  value_ne := List.cons_ne_nil _ _
  name_free := by simp
  value_free := by simp

theorem parseUriParams_query_ne_one :
    parseUriParams 9 ([] ++ '?' :: queryText [⟨['a'], ['1']⟩]) [] ≠
      some (.ok (true, [⟨['a'], ['1']⟩])) :=
  parseUriParams_query_ne (by decide) (by decide)
    (fun _ hparam ↦ List.mem_singleton.mp hparam ▸ queryParam_letter) 9

/-- The name of the only parameter is read with the equal sign. -/
theorem query_name_is_too_long :
    parseUriParams 9 ['?', 'a', '=', '1'] [] = some (.ok (true, [⟨['a', '='], ['1']⟩])) ∧
      ¬∀ (before : List Char) (params : List UriParamData), '?' ∉ before → params ≠ [] →
        (∀ param ∈ params, QueryParam param) → ∃ fuel,
          parseUriParams fuel (before ++ '?' :: queryText params) [] =
            some (.ok (true, params)) := by
  refine ⟨by decide, fun h ↦ ?_⟩
  obtain ⟨fuel, hfuel⟩ := h [] [⟨['a'], ['1']⟩] (by decide) (by decide)
    fun _ hparam ↦ List.mem_singleton.mp hparam ▸ queryParam_letter
  rw [parseUriParams_of_question fuel [] (findFrom_zero_append_cons (by decide) _),
    if_neg (by decide)] at hfuel
  cases fuel with
  | zero => exact absurd hfuel nofun
  | succ fuel =>
    have hpass : Pass.checked (queryPass ([] ++ '?' :: queryText [⟨['a'], ['1']⟩])
        ⟨1, []⟩) = .leave (.ok (true, [⟨['a', '='], ['1']⟩])) := rfl
    exact absurd ((loop_succ_leave fuel hpass).symm.trans hfuel) (by decide)

/-- Parameters between braces are never read as they were assembled. -/
theorem parseUriParams_braces_ne {entries : List (Bool × UriParamData)} (hsome : entries ≠ [])
    (hentries : ∀ entry ∈ entries, BraceParam entry) (hquestion : '?' ∉ braceText entries)
    (fuel : ℕ) :
    parseUriParams fuel (braceText entries) [] ≠ some (.ok (true, entries.map Prod.snd)) := by
  obtain ⟨entry, rest, rfl⟩ := List.exists_cons_of_ne_nil hsome
  have hquote := (hentries entry List.mem_cons_self).name_free '"' (by decide)
  obtain ⟨behind, hbehind⟩ := intercalate_cons_split [','] (braceEntry entry)
    (rest.map braceEntry)
  obtain ⟨value, hvalue⟩ : ∃ value, braceText (entry :: rest) =
      ['{', '"'] ++ (entry.2.m_sName ++ '"' :: value) := by
    rw [braceText, List.map_cons, hbehind, braceEntry]
    simp only [List.cons_append, List.append_assoc, List.nil_append]
    exact ⟨_, rfl⟩
  have hopen : findFrom (braceText (entry :: rest)) '{' 0 = some 0 := by
    rw [hvalue]
    exact findFrom_zero_append_cons (List.not_mem_nil (a := '{')) _
  have hclose : findLast (braceText (entry :: rest)) '}' =
      some ('{' :: [','].intercalate ((entry :: rest).map braceEntry)).length := by
    rw [braceText, ← List.cons_append]
    exact findLast_append_cons List.not_mem_nil _
  have hfirst : findFrom (['{'] ++ ([] ++ '"' :: (entry.2.m_sName ++ '"' :: value))) '"' 1 =
      some 1 := findFrom_append_cons rfl List.not_mem_nil _
  have hsecond : findFrom (braceText (entry :: rest)) '"' 2 =
      some (2 + entry.2.m_sName.length) := by
    rw [hvalue]
    exact findFrom_append_cons rfl hquote value
  have hquotes : nextQuotes (braceText (entry :: rest)) 1 =
      some (1, 2 + entry.2.m_sName.length) := by
    have hfirst' : findFrom (braceText (entry :: rest)) '"' 1 = some 1 := hvalue ▸ hfirst
    rw [nextQuotes, hfirst', Option.bind_some, hsecond]
    rfl
  have hnone : findFrom (braceText (entry :: rest)) '?' 0 = none :=
    findFrom_eq_none_iff.mpr hquestion
  intro hparse
  rw [parseUriParams_of_braces fuel [] hnone hopen hclose] at hparse
  split_ifs at hparse with hend
  · exact absurd (Prod.mk.inj (Except.ok.inj (Option.some.inj hparse))).1 Bool.false_ne_true
  have hname := (bracePasses _ _).named_of_cons hparse _ _ hquotes
  rw [hvalue] at hname
  exact take_append_cons_ne (by omega) '"' value hname.symm

theorem braceParam_quoted : BraceParam (true, ⟨['a'], ['1']⟩) where
  name_free := by simp
  value_free := by simp
  bare := nofun

theorem braceParam_bare (name value : Char) (hname : name ∉ ['"', ':', ',', '{', '}'])
    (hvalue : value ∉ ['"', ':', ',', '{', '}', ' ']) :
    BraceParam (false, ⟨[name], [value]⟩) where
  name_free ch hch := fun hmem ↦ hname (List.mem_singleton.mp hmem ▸ hch)
  value_free ch hch := fun hmem ↦ hvalue (List.mem_singleton.mp hmem ▸
    List.mem_append_left [' '] hch)
  bare _ := ⟨value, [], rfl, fun heq ↦ hvalue (heq ▸ by simp)⟩

theorem parseUriParams_braces_ne_two :
    parseUriParams 20 (braceText [(true, ⟨['a'], ['1']⟩), (false, ⟨['b'], ['2']⟩)]) [] ≠
      some (.ok (true, [⟨['a'], ['1']⟩, ⟨['b'], ['2']⟩])) :=
  parseUriParams_braces_ne (by decide) (by
    rintro entry hentry
    rcases List.mem_cons.mp hentry with rfl | hentry
    · exact braceParam_quoted
    · obtain rfl := List.mem_singleton.mp hentry
      exact braceParam_bare 'b' '2' (by decide) (by decide)) (by decide) 20

/-- The name of the only parameter is read with the quote and the colon behind it, and its value
with all that follows. -/
theorem brace_name_is_too_long :
    parseUriParams 9 ['{', '"', 'a', '"', ':', '1', '}'] [] =
        some (.ok (true, [⟨['a', '"', ':'], ['1', '}']⟩])) ∧
      ¬∀ entries : List (Bool × UriParamData), entries ≠ [] →
        (∀ entry ∈ entries, BraceParam entry) → '?' ∉ braceText entries → ∃ fuel,
          parseUriParams fuel (braceText entries) [] =
            some (.ok (true, entries.map Prod.snd)) := by
  refine ⟨by decide, fun h ↦ ?_⟩
  obtain ⟨fuel, hfuel⟩ := h [(false, ⟨['a'], ['1']⟩)] (by decide) (by
    rintro entry hentry
    obtain rfl := List.mem_singleton.mp hentry
    exact braceParam_bare 'a' '1' (by decide) (by decide)) (by decide)
  have hopen : findFrom (braceText [(false, ⟨['a'], ['1']⟩)]) '{' 0 = some 0 := by decide
  have hclose : findLast (braceText [(false, ⟨['a'], ['1']⟩)]) '}' = some 6 := by decide
  rw [parseUriParams_of_braces fuel [] (by decide) hopen hclose, if_neg (by decide)] at hfuel
  cases fuel with
  | zero => exact absurd hfuel nofun
  | succ fuel =>
    have hpass : Pass.checked (bracePass (braceText [(false, ⟨['a'], ['1']⟩)]) 6 ⟨1, []⟩) =
        .leave (.ok (true, [⟨['a', '"', ':'], ['1', '}']⟩])) := rfl
    exact absurd ((loop_succ_leave fuel hpass).symm.trans hfuel) (by decide)

end RdbLibs.NetIO
