import Mathlib.Data.List.AList
import RdbLibs.Foundations.BoundedQueue
import RdbLibs.Foundations.FirstAppearance
import RdbLibs.Foundations.MachineWord
import RdbLibs.Foundations.Runs

/-!
# `CLogMessageList`

The list of log messages of `Src/Logging/LogMessageList.h`, and its table of modules. A message
names its module by a number, which `lookup` gives to each module that is new. The number is the
size of the table, as an `unsigned int`, and goes through an `int` on its way into a message.

The header declares `m_maxEntries` twice, once as a private and once as a public member. Here there
is one, which the constructor sets and `append` reads.
-/

set_option autoImplicit false
set_option relaxedAutoImplicit false

namespace RdbLibs.Logging

open FirstAppearance MachineWord Runs

/-- `LogMessageModuleList_def`. -/
abbrev LogMessageModuleList_def := AList fun _ : List Char ↦ ℕ

/-- `CLogMessageModuleListMgr`. -/
structure CLogMessageModuleListMgr where
  m_moduleList : LogMessageModuleList_def

namespace CLogMessageModuleListMgr

/-- The constructor. -/
def new : CLogMessageModuleListMgr := ⟨∅⟩

/-- `CLogMessageModuleListMgr::lookup`. -/
def lookup (mgr : CLogMessageModuleListMgr) (sModule : List Char) :
    ℤ × CLogMessageModuleListMgr :=
  match mgr.m_moduleList.lookup sModule with
  | some x => (toInt x, mgr)
  | none =>
    let nNewIdx := toUnsigned mgr.m_moduleList.entries.length
    (toInt nNewIdx, ⟨mgr.m_moduleList.insert sModule nNewIdx⟩)

end CLogMessageModuleListMgr

/-- `LogMessageEntry_def`. -/
structure LogMessageEntry_def where
  m_nLogLevel : ℕ
  m_nModuleID : ℕ
  m_timestamp : ℕ
  m_message : List Char

/-- `CLogMessageList`. -/
structure CLogMessageList where
  m_maxEntries : ℕ
  m_moduleList : CLogMessageModuleListMgr
  m_messageList : List LogMessageEntry_def

namespace CLogMessageList

/-- The constructor. -/
def new (nMaxEntries : ℕ) : CLogMessageList := ⟨nMaxEntries, .new, []⟩

/-- The constructor without an argument. -/
instance : Inhabited CLogMessageList := ⟨new 10000⟩

/-- The loop of `append`, which deletes the oldest entries. To delete the first entry where there is
none has no defined result. -/
def trim (m_maxEntries : ℕ) : List LogMessageEntry_def → Option (List LogMessageEntry_def)
  | [] => if m_maxEntries ≤ 0 then none else some []
  | entry :: rest =>
    if m_maxEntries ≤ rest.length + 1 then trim m_maxEntries rest else some (entry :: rest)

/-- `CLogMessageList::append`. -/
def append (list : CLogMessageList) (nLogLevel nTimestamp : ℕ) (sModule sMsg : List Char) :
    Option CLogMessageList := do
  let m_messageList ← trim list.m_maxEntries list.m_messageList
  let (nModule, m_moduleList) := list.m_moduleList.lookup sModule
  some { list with
    m_moduleList
    m_messageList :=
      m_messageList ++ [⟨nLogLevel, intToUnsigned nModule, nTimestamp, sMsg⟩] }

end CLogMessageList

/-- The arguments of a call of `append`. -/
structure AppendCall where
  nLogLevel : ℕ
  nTimestamp : ℕ
  sModule : List Char
  sMsg : List Char

/-- A call of `append`. The reply is the entry that it leaves at the end of the list. -/
def AppendStep (before : CLogMessageList) (call : AppendCall) (reply : LogMessageEntry_def)
    (after : CLogMessageList) : Prop :=
  before.append call.nLogLevel call.nTimestamp call.sModule call.sMsg = some after ∧
    after.m_messageList.getLast? = some reply

/-! ### Modules -/

/-- The table has the modules that were looked up, with their numbers. -/
structure Numbers (modules : List (List Char)) (table : LogMessageModuleList_def) : Prop where
  lookup : ∀ sModule, table.lookup sModule =
    if sModule ∈ modules then some (toUnsigned (rank modules sModule)) else none
  size : table.entries.length = modules.toFinset.card

theorem Numbers.new : Numbers [] CLogMessageModuleListMgr.new.m_moduleList :=
  ⟨fun _ ↦ rfl, rfl⟩

namespace Numbers

variable {modules : List (List Char)} {table : LogMessageModuleList_def} {sModule : List Char}

/-- A module that was looked up before. -/
theorem known (h : Numbers modules table) (hseen : sModule ∈ modules) :
    Numbers (modules ++ [sModule]) table := by
  constructor
  · intro other
    have hsame : other ∈ modules ++ [sModule] ↔ other ∈ modules := by
      simp only [List.mem_append, List.mem_singleton, or_iff_left_iff_imp]
      exact fun heq ↦ heq ▸ hseen
    rw [h.lookup other, if_congr hsame rfl rfl]
    split_ifs with hother
    · rw [rank_concat_of_mem hother]
    · rfl
  · rw [h.size, ← length_firsts, ← length_firsts, firsts_concat_of_mem hseen]

/-- A module that is new gets the next number. -/
theorem insert (h : Numbers modules table) (hnew : sModule ∉ modules) :
    Numbers (modules ++ [sModule])
      (table.insert sModule (toUnsigned modules.toFinset.card)) := by
  have habsent : sModule ∉ table := by
    rw [← AList.lookup_eq_none, h.lookup sModule, if_neg hnew]
  constructor
  · intro other
    rcases eq_or_ne other sModule with rfl | hne
    · rw [AList.lookup_insert, rank_concat_of_notMem hnew,
        if_pos (List.mem_append_right _ List.mem_cons_self)]
    · have hsame : other ∈ modules ++ [sModule] ↔ other ∈ modules := by
        rw [List.mem_append, List.mem_singleton, or_iff_left hne]
      rw [AList.lookup_insert_ne hne, h.lookup other, if_congr hsame rfl rfl]
      split_ifs with hother
      · rw [rank_concat_of_mem hother]
      · rfl
  · rw [AList.entries_insert_of_notMem habsent, List.length_cons, h.size,
      card_concat_of_notMem hnew]

/-- A message gets the number of its module, as a word. -/
theorem lookup_step {mgr : CLogMessageModuleListMgr} (h : Numbers modules mgr.m_moduleList)
    (sModule : List Char) :
    intToUnsigned (mgr.lookup sModule).1 = toUnsigned (rank (modules ++ [sModule]) sModule) ∧
      Numbers (modules ++ [sModule]) (mgr.lookup sModule).2.m_moduleList := by
  have hfound := h.lookup sModule
  unfold CLogMessageModuleListMgr.lookup
  by_cases hseen : sModule ∈ modules
  · rw [if_pos hseen] at hfound
    rw [hfound, rank_concat_of_mem hseen]
    exact ⟨intToUnsigned_toInt (toUnsigned_lt _), h.known hseen⟩
  · rw [if_neg hseen] at hfound
    rw [hfound, h.size, rank_concat_of_notMem hseen]
    exact ⟨intToUnsigned_toInt (toUnsigned_lt _), h.insert hseen⟩

end Numbers

/-! ### One call -/

/-- The entry of a call, with a number for its module. -/
def AppendCall.entry (call : AppendCall) (m_nModuleID : ℕ) : LogMessageEntry_def :=
  ⟨call.nLogLevel, m_nModuleID, call.nTimestamp, call.sMsg⟩

namespace CLogMessageList

/-- The loop leaves room for one entry. -/
theorem trim_eq {m_maxEntries : ℕ} (hpos : 1 ≤ m_maxEntries) (entries : List LogMessageEntry_def) :
    trim m_maxEntries entries = some (entries.rtake (m_maxEntries - 1)) := by
  induction entries with
  | nil => rw [trim, if_neg (by omega), List.rtake_nil]
  | cons entry rest ih =>
    rw [trim]
    split_ifs with hfull
    · have hlength : rest.length + 1 - (m_maxEntries - 1) =
          rest.length - (m_maxEntries - 1) + 1 := by omega
      rw [ih, List.rtake, List.rtake, List.length_cons, hlength, List.drop_succ_cons]
    · rw [BoundedQueue.rtake_of_length_le (by rw [List.length_cons]; omega)]

/-- A call puts its entry behind the newest ones that there is room for. -/
theorem append_eq {list : CLogMessageList} (hpos : 1 ≤ list.m_maxEntries) (call : AppendCall) :
    list.append call.nLogLevel call.nTimestamp call.sModule call.sMsg = some
      ⟨list.m_maxEntries, (list.m_moduleList.lookup call.sModule).2,
        (list.m_messageList ++
          [call.entry (intToUnsigned (list.m_moduleList.lookup call.sModule).1)]).rtake
            list.m_maxEntries⟩ := by
  rw [append, trim_eq hpos, BoundedQueue.rtake_concat hpos]
  rfl

end CLogMessageList

theorem AppendStep.eq {before after : CLogMessageList} {call : AppendCall}
    {reply : LogMessageEntry_def} (hpos : 1 ≤ before.m_maxEntries)
    (h : AppendStep before call reply after) :
    reply = call.entry (intToUnsigned (before.m_moduleList.lookup call.sModule).1) ∧
      after = ⟨before.m_maxEntries, (before.m_moduleList.lookup call.sModule).2,
        (before.m_messageList ++ [reply]).rtake before.m_maxEntries⟩ := by
  obtain ⟨hafter, hreply⟩ := h
  rw [CLogMessageList.append_eq hpos, Option.some.injEq] at hafter
  have hlast : reply = call.entry (intToUnsigned (before.m_moduleList.lookup call.sModule).1) := by
    rw [← hafter, BoundedQueue.rtake_concat hpos, List.getLast?_concat] at hreply
    exact (Option.some.inj hreply).symm
  exact ⟨hlast, hlast ▸ hafter.symm⟩

theorem AppendStep.exists {before : CLogMessageList} (hpos : 1 ≤ before.m_maxEntries)
    (call : AppendCall) :
    ∃ reply after, AppendStep before call reply after ∧
      after.m_maxEntries = before.m_maxEntries := by
  refine ⟨call.entry (intToUnsigned (before.m_moduleList.lookup call.sModule).1), _,
    ⟨CLogMessageList.append_eq hpos call, ?_⟩, rfl⟩
  rw [BoundedQueue.rtake_concat hpos, List.getLast?_concat]

/-! ### All calls -/

/-- A call of a run. -/
abbrev MessageCall := Call CLogMessageList AppendCall LogMessageEntry_def

/-- The module strings of the calls. -/
def modules (trace : List MessageCall) : List (List Char) :=
  trace.map fun call ↦ call.label.sModule

/-- What the calls leave. A dropped message still counts for the numbers. -/
structure Kept (nMaxEntries : ℕ) (list : CLogMessageList) (trace : List MessageCall) : Prop where
  max : list.m_maxEntries = nMaxEntries
  messages : list.m_messageList = (trace.map Call.reply).rtake nMaxEntries
  replies : ∀ call ∈ trace,
    call.reply = call.label.entry (toUnsigned (rank (modules trace) call.label.sModule))
  numbers : Numbers (modules trace) list.m_moduleList.m_moduleList

theorem Kept.new (nMaxEntries : ℕ) : Kept nMaxEntries (.new nMaxEntries) [] where
  max := rfl
  messages := (List.rtake_nil _).symm
  replies := nofun
  numbers := .new

theorem Kept.append_step {nMaxEntries : ℕ} (hpos : 1 ≤ nMaxEntries)
    {before after : CLogMessageList} {trace : List MessageCall}
    (h : Kept nMaxEntries before trace) {label : AppendCall} {reply : LogMessageEntry_def}
    (hstep : AppendStep before label reply after) :
    Kept nMaxEntries after (trace ++ [⟨before, label, reply⟩]) := by
  obtain ⟨hreply, hafter⟩ := hstep.eq (h.max ▸ hpos)
  obtain ⟨hid, hnumbers⟩ := h.numbers.lookup_step label.sModule
  have hmodules : modules (trace ++ [⟨before, label, reply⟩]) = modules trace ++ [label.sModule] :=
    List.map_append
  constructor
  · rw [hafter, h.max]
  · rw [hafter, h.max, h.messages, BoundedQueue.rtake_rtake_append, List.map_append, List.map_cons,
      List.map_nil]
  · rw [List.forall_mem_append, List.forall_mem_singleton, hmodules]
    constructor
    · intro call hcall
      have hmodule : call.label.sModule ∈ modules trace := List.mem_map_of_mem hcall
      rw [rank_concat_of_mem hmodule, h.replies call hcall]
    · rw [hreply, hid]
  · rw [hafter, hmodules]
    exact hnumbers

theorem Kept.run {nMaxEntries : ℕ} (hpos : 1 ≤ nMaxEntries) {start final : CLogMessageList}
    {trace : List MessageCall} (hrun : Run AppendStep start trace final) :
    ∀ earlier, Kept nMaxEntries start earlier → Kept nMaxEntries final (earlier ++ trace) := by
  induction hrun with
  | nil start =>
    intro earlier h
    rwa [List.append_nil]
  | cons hfirst _ ih =>
    intro earlier h
    have hrest := ih _ (h.append_step hpos hfirst)
    rwa [← List.append_cons] at hrest

/-- What a list should have after some calls: the newest messages, in the order of the calls, as
they were given. -/
structure KeepsNewest (nMaxEntries : ℕ) (trace : List MessageCall) (final : CLogMessageList) :
    Prop where
  messages : final.m_messageList = (trace.map Call.reply).drop (trace.length - nMaxEntries)
  given : ∀ call ∈ trace, call.reply.m_nLogLevel = call.label.nLogLevel ∧
    call.reply.m_timestamp = call.label.nTimestamp ∧ call.reply.m_message = call.label.sMsg

/-- What the numbers of the modules should be, in all messages of some calls: those of different
modules, and all those below the number of modules. -/
structure StableIds (trace : List MessageCall) : Prop where
  same : ∀ call ∈ trace, ∀ other ∈ trace,
    call.reply.m_nModuleID = other.reply.m_nModuleID ↔ call.label.sModule = other.label.sModule
  used : ∀ m_nModuleID, (∃ call ∈ trace, call.reply.m_nModuleID = m_nModuleID) ↔
    m_nModuleID < (modules trace).toFinset.card

section Results

variable {nMaxEntries : ℕ} {list : CLogMessageList} {trace : List MessageCall}

theorem Kept.keepsNewest (h : Kept nMaxEntries list trace) :
    KeepsNewest nMaxEntries trace list := by
  constructor
  · rw [h.messages, List.rtake, List.length_map]
  · intro call hcall
    rw [h.replies call hcall]
    exact ⟨rfl, rfl, rfl⟩

/-- The numbers are right for as many modules as there are words. -/
theorem Kept.stableIds_iff (h : Kept nMaxEntries list trace) :
    StableIds trace ↔ (modules trace).toFinset.card ≤ 2 ^ 32 := by
  have hid : ∀ call ∈ trace, call.reply.m_nModuleID =
      rank (modules trace) call.label.sModule % 2 ^ 32 := fun call hcall ↦
    congrArg LogMessageEntry_def.m_nModuleID (h.replies call hcall)
  have hsame : (∀ call ∈ trace, ∀ other ∈ trace, call.reply.m_nModuleID = other.reply.m_nModuleID ↔
        call.label.sModule = other.label.sModule) ↔
      ∀ sModule ∈ modules trace, ∀ other ∈ modules trace,
        (rank (modules trace) sModule % 2 ^ 32 = rank (modules trace) other % 2 ^ 32 ↔
          sModule = other) := by
    rw [modules, List.forall_mem_map]
    refine forall₂_congr fun call hcall ↦ ?_
    rw [List.forall_mem_map]
    refine forall₂_congr fun other hother ↦ ?_
    rw [hid call hcall, hid other hother, modules]
  have hused : ∀ m_nModuleID, (∃ call ∈ trace, call.reply.m_nModuleID = m_nModuleID) ↔
      ∃ sModule ∈ modules trace, rank (modules trace) sModule % 2 ^ 32 = m_nModuleID := by
    intro m_nModuleID
    constructor
    · rintro ⟨call, hcall, rfl⟩
      exact ⟨call.label.sModule, List.mem_map_of_mem hcall, (hid call hcall).symm⟩
    · rintro ⟨sModule, hmodule, rfl⟩
      obtain ⟨call, hcall, rfl⟩ := List.mem_map.mp hmodule
      exact ⟨call, hcall, hid call hcall⟩
  rw [← rank_mod_numbers_iff (modules trace) zero_lt_word]
  constructor
  · exact fun h ↦ ⟨hsame.mp h.same, fun id ↦ (hused id).symm.trans (h.used id)⟩
  · exact fun h ↦ ⟨hsame.mpr h.1, fun id ↦ (hused id).trans (h.2 id)⟩

/-- The calls of a list can be made, one after the other. -/
theorem exists_run (hpos : 1 ≤ nMaxEntries) (calls : List AppendCall) :
    ∃ trace final, Run AppendStep (.new nMaxEntries) trace final ∧
      trace.map Call.label = calls := by
  obtain ⟨trace, final, hrun, hlabels, -⟩ := Run.exists_of_total
    (fun list : CLogMessageList ↦ list.m_maxEntries = nMaxEntries) (fun _ : AppendCall ↦ True)
    (fun before label _ hmax ↦ by
      obtain ⟨reply, after, hstep, hafter⟩ := AppendStep.exists (hmax ▸ hpos) label
      exact ⟨reply, after, hstep, hafter.trans hmax⟩)
    calls (.new nMaxEntries) rfl (fun _ _ ↦ trivial)
  exact ⟨trace, final, hrun, hlabels⟩

end Results

/-- Every list of calls can be made. A list with room for a message keeps the newest messages, and
the numbers of the modules are right exactly when no more than `2 ^ 32` modules were seen. -/
theorem keepsNewest_and_stableIds_iff {nMaxEntries : ℕ} (hpos : 1 ≤ nMaxEntries)
    (calls : List AppendCall) :
    (∃ trace final, Run AppendStep (.new nMaxEntries) trace final ∧
        trace.map Call.label = calls) ∧
      ∀ trace final, Run AppendStep (.new nMaxEntries) trace final →
        trace.map Call.label = calls →
          KeepsNewest nMaxEntries trace final ∧
            (StableIds trace ↔ (calls.map AppendCall.sModule).toFinset.card ≤ 2 ^ 32) := by
  refine ⟨exists_run hpos calls, ?_⟩
  rintro trace final hrun rfl
  have hkept := Kept.run hpos hrun [] (Kept.new nMaxEntries)
  rw [List.map_map]
  exact ⟨hkept.keepsNewest, hkept.stableIds_iff⟩

/-- Two messages of one module, for a list with room for one message. -/
theorem keepsNewest_and_stableIds_iff_two :
    ∃ trace final, Run AppendStep (.new 1) trace final ∧
      trace.map Call.label = [⟨0, 5, ['a'], ['x']⟩, ⟨1, 6, ['a'], ['y']⟩] ∧
        KeepsNewest 1 trace final ∧ StableIds trace := by
  obtain ⟨⟨trace, final, hrun, hlabels⟩, hall⟩ := keepsNewest_and_stableIds_iff le_rfl
    [⟨0, 5, ['a'], ['x']⟩, ⟨1, 6, ['a'], ['y']⟩]
  obtain ⟨hkeeps, hids⟩ := hall trace final hrun hlabels
  exact ⟨trace, final, hrun, hlabels, hkeeps, hids.mpr (by decide)⟩

/-- Calls with different modules, whose names are numbers. -/
def differentModules (count : ℕ) : List AppendCall :=
  (List.range count).map fun number ↦ ⟨0, 0, Nat.toDigits 10 number, []⟩

theorem toDigits_injective : Function.Injective (Nat.toDigits 10) := by
  intro first second h
  have hnumbers := congrArg (fun name ↦ Nat.ofDigitChars 10 name 0) h
  simpa only [Nat.ofDigitChars_ten_toDigits] using hnumbers

theorem card_differentModules (count : ℕ) :
    ((differentModules count).map AppendCall.sModule).toFinset.card = count := by
  have hmodules : (differentModules count).map AppendCall.sModule =
      (List.range count).map (Nat.toDigits 10) := List.map_map
  rw [hmodules, List.toFinset_card_of_nodup (List.nodup_range.map toDigits_injective),
    List.length_map, List.length_range]

/-- With one module more than there are words, two modules have one number. -/
theorem too_many_modules :
    ¬∀ (nMaxEntries : ℕ) (calls : List AppendCall), 1 ≤ nMaxEntries →
      ∀ trace final, Run AppendStep (.new nMaxEntries) trace final →
        trace.map Call.label = calls → KeepsNewest nMaxEntries trace final ∧ StableIds trace := by
  intro h
  obtain ⟨trace, final, hrun, hlabels⟩ := exists_run le_rfl (differentModules (2 ^ 32 + 1))
  have hstable := (h 1 _ le_rfl trace final hrun hlabels).2
  have hkept := Kept.run le_rfl hrun [] (Kept.new 1)
  have hfew := hkept.stableIds_iff.mp hstable
  have hcard := card_differentModules (2 ^ 32 + 1)
  rw [← hlabels, List.map_map] at hcard
  exact absurd (hcard.symm.trans_le hfew) (Nat.not_succ_le_self _)

end RdbLibs.Logging
