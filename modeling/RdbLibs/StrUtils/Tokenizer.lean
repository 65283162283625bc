import RdbLibs.Foundations.MaximalRuns

/-!
# `tokenizer`

`tokenizer` of `Src/String/StrUtils.h`, for sequences of any type of items. The loop takes the items
that are no delimiters into `accum`, which becomes a token at the next delimiter or at the end,
unless it is empty. At every item the open token begins where the next maximal run of such items
begins, if there is one, so that the tokens are these runs.
-/

set_option autoImplicit false
set_option relaxedAutoImplicit false

namespace RdbLibs.StrUtils

open MaximalRuns

variable {α : Type*} {isdelimiter : α → Bool}

/-- The loop of `tokenizer`, and the last token behind it. -/
def tokenizerFrom (isdelimiter : α → Bool) : List α → List (List α) → List α → List (List α)
  | [], result, accum => if !accum.isEmpty then result ++ [accum] else result
  | item :: rest, result, accum =>
    if !isdelimiter item then tokenizerFrom isdelimiter rest result (accum ++ [item])
    else if !accum.isEmpty then tokenizerFrom isdelimiter rest (result ++ [accum]) []
    else tokenizerFrom isdelimiter rest result accum

/-- `StrUtils::tokenizer`. -/
def tokenizer (ins : List α) (isdelimiter : α → Bool) : List (List α) :=
  tokenizerFrom isdelimiter ins [] []

/-- The positions of the items that are no delimiters. -/
def StandsAt (isdelimiter : α → Bool) (ins : List α) : ℕ → Prop :=
  HoldsAt (fun item ↦ !isdelimiter item) ins

/-! ### One pass -/

section Passes

variable {item : α} {rest : List α} {result : List (List α)} {accum : List α}

theorem tokenizerFrom_of_item (h : isdelimiter item = false) :
    tokenizerFrom isdelimiter (item :: rest) result accum =
      tokenizerFrom isdelimiter rest result (accum ++ [item]) := by
  rw [tokenizerFrom, h, Bool.not_false, if_pos rfl]

theorem tokenizerFrom_of_delimiter (h : isdelimiter item = true) (haccum : accum ≠ []) :
    tokenizerFrom isdelimiter (item :: rest) result accum =
      tokenizerFrom isdelimiter rest (result ++ [accum]) [] := by
  have hsome : accum.isEmpty = false := List.isEmpty_eq_false_iff.mpr haccum
  rw [tokenizerFrom, h, hsome, Bool.not_true, Bool.not_false, if_neg Bool.false_ne_true,
    if_pos rfl]

theorem tokenizerFrom_of_empty (h : isdelimiter item = true) :
    tokenizerFrom isdelimiter (item :: rest) result [] =
      tokenizerFrom isdelimiter rest result [] := by
  rw [tokenizerFrom, h, Bool.not_true, if_neg Bool.false_ne_true, List.isEmpty_nil, Bool.not_true,
    if_neg Bool.false_ne_true]

theorem tokenizerFrom_nil (haccum : accum ≠ []) :
    tokenizerFrom isdelimiter [] result accum = result ++ [accum] := by
  have hsome : accum.isEmpty = false := List.isEmpty_eq_false_iff.mpr haccum
  rw [tokenizerFrom, hsome, Bool.not_false, if_pos rfl]

end Passes

/-! ### Runs of the loop -/

/-- The loop has come behind `front` and `accum`, and has found `runs` before: `accum` is an open
token, which nothing before it makes longer. -/
structure Scanned (isdelimiter : α → Bool) (ins front accum : List α) (runs : List (ℕ × ℕ)) :
    Prop where
  found : RunsBefore (StandsAt isdelimiter ins) front.length runs
  stands : ∀ item ∈ accum, (!isdelimiter item) = true
  starts : ∀ k, front.length = k + 1 → ¬StandsAt isdelimiter ins k

section Scanned

variable {front accum rest : List α} {item : α} {runs : List (ℕ × ℕ)}

/-- An item that is no delimiter makes the open token longer. -/
theorem Scanned.extend {ins : List α} (h : Scanned isdelimiter ins front accum runs)
    (hitem : isdelimiter item = false) : Scanned isdelimiter ins front (accum ++ [item]) runs where
  found := h.found
  stands other hother := by
    rcases List.mem_append.mp hother with hold | hnew
    · exact h.stands other hold
    · rw [List.mem_singleton.mp hnew, hitem]
      rfl
  starts := h.starts

/-- An open token that is not empty, and that what follows does not make longer, is a maximal
run. -/
theorem Scanned.isMaximalRun
    (h : Scanned isdelimiter (front ++ accum ++ rest) front accum runs) (haccum : accum ≠ [])
    (hrest : ∀ item ∈ rest.head?, isdelimiter item = true) :
    IsMaximalRun (StandsAt isdelimiter (front ++ accum ++ rest))
      (front.length, front.length + accum.length) := by
  refine isMaximalRun_middle rest haccum h.stands h.starts fun item hitem ↦ ?_
  rw [hrest item hitem]
  rfl

/-- A delimiter ends the open token, if there is one. -/
theorem Scanned.delimiter
    (h : Scanned isdelimiter (front ++ accum ++ item :: rest) front accum runs)
    (hitem : isdelimiter item = true) :
    Scanned isdelimiter (front ++ accum ++ item :: rest) (front ++ accum ++ [item]) []
      (if accum = [] then runs else runs ++ [(front.length, front.length + accum.length)]) := by
  have hstop :
      ¬StandsAt isdelimiter (front ++ accum ++ item :: rest) (front ++ accum).length := by
    rw [StandsAt, holdsAt_middle, hitem]
    exact Bool.false_ne_true
  have hlength : (front ++ accum ++ [item]).length = (front ++ accum).length + 1 := by
    rw [List.length_append, List.length_singleton]
  refine ⟨?_, nofun, fun k hk ↦ ?_⟩
  · rw [hlength]
    split_ifs with hempty
    · subst hempty
      rw [List.append_nil] at h hstop ⊢
      exact h.found.skip hstop
    · rw [List.length_append]
      refine h.found.push (h.isMaximalRun hempty fun other hother ↦ ?_)
      rw [← Option.some.inj hother, hitem]
  · rw [hlength] at hk
    rwa [← Nat.succ.inj hk]

end Scanned

/-- From there on the loop adds the maximal runs that it has not yet come to. -/
theorem tokenizerFrom_eq (rest : List α) : ∀ (front accum : List α) (runs : List (ℕ × ℕ)),
    Scanned isdelimiter (front ++ accum ++ rest) front accum runs →
      ∃ runs', tokenizerFrom isdelimiter rest (runs.map (slice (front ++ accum ++ rest))) accum =
        runs'.map (slice (front ++ accum ++ rest)) ∧
        RunsBefore (StandsAt isdelimiter (front ++ accum ++ rest))
          ((front ++ accum ++ rest).length + 1) runs' := by
  induction rest with
  | nil =>
    intro front accum runs h
    by_cases hempty : accum = []
    · subst hempty
      refine ⟨runs, rfl, ?_⟩
      have hlength : (front ++ [] ++ []).length = front.length := by
        rw [List.append_nil, List.append_nil]
      rw [hlength]
      exact h.found.skip (hlength ▸ not_holdsAt_length)
    · refine ⟨runs ++ [(front.length, front.length + accum.length)], ?_, ?_⟩
      · rw [tokenizerFrom_nil hempty, List.map_append, List.map_singleton, slice_middle]
      · have hpush := h.found.push (h.isMaximalRun hempty nofun)
        rw [List.append_nil] at hpush ⊢
        rwa [List.length_append]
  | cons item rest ih =>
    intro front accum runs h
    cases hitem : isdelimiter item with
    | false =>
      have hitems : front ++ (accum ++ [item]) ++ rest = front ++ accum ++ item :: rest := by
        simp only [List.append_assoc, List.singleton_append]
      have hnext := ih front (accum ++ [item]) runs
      rw [hitems] at hnext
      rw [tokenizerFrom_of_item hitem]
      exact hnext (h.extend hitem)
    | true =>
      have hitems : front ++ accum ++ [item] ++ [] ++ rest = front ++ accum ++ item :: rest := by
        simp only [List.append_assoc, List.singleton_append, List.append_nil]
      have hnext := ih (front ++ accum ++ [item]) [] _ (hitems.symm ▸ h.delimiter hitem)
      rw [hitems] at hnext
      split_ifs at hnext with hempty
      · subst hempty
        rw [tokenizerFrom_of_empty hitem]
        exact hnext
      · rw [tokenizerFrom_of_delimiter hitem hempty]
        rwa [List.map_append, List.map_singleton, slice_middle] at hnext

/-- What the loop makes of the items is not changed but for the delimiters. -/
theorem flatten_tokenizerFrom (rest : List α) : ∀ (result : List (List α)) (accum : List α),
    (tokenizerFrom isdelimiter rest result accum).flatten =
      result.flatten ++ accum ++ rest.filter fun item ↦ !isdelimiter item := by
  induction rest with
  | nil =>
    intro result accum
    by_cases hempty : accum = []
    · subst hempty
      rw [List.filter_nil, List.append_nil, List.append_nil]
      rfl
    · rw [tokenizerFrom_nil hempty, List.flatten_concat, List.filter_nil, List.append_nil]
  | cons item rest ih =>
    intro result accum
    cases hitem : isdelimiter item with
    | false =>
      rw [tokenizerFrom_of_item hitem, ih, List.filter_cons_of_pos (by rw [hitem]; rfl),
        List.append_assoc, List.append_assoc, List.append_assoc, List.singleton_append]
    | true =>
      rw [List.filter_cons_of_neg (by rw [hitem]; exact Bool.false_ne_true)]
      by_cases hempty : accum = []
      · rw [hempty, tokenizerFrom_of_empty hitem, ih]
      · rw [tokenizerFrom_of_delimiter hitem hempty, ih, List.flatten_concat, List.append_nil]

/-- Items that are no delimiters are taken into the open token. -/
theorem tokenizerFrom_append {token : List α} (htoken : ∀ item ∈ token, isdelimiter item = false)
    (rest : List α) (result : List (List α)) : ∀ accum : List α,
      tokenizerFrom isdelimiter (token ++ rest) result accum =
        tokenizerFrom isdelimiter rest result (accum ++ token) := by
  induction token with
  | nil => exact fun accum ↦ by rw [List.nil_append, List.append_nil]
  | cons item token ih =>
    intro accum
    rw [List.forall_mem_cons] at htoken
    rw [List.cons_append, tokenizerFrom_of_item htoken.1, ih htoken.2, List.append_assoc,
      List.singleton_append]

/-- Tokens with one delimiter between each two are taken one after the other. -/
theorem tokenizerFrom_intercalate {x : α} (hx : isdelimiter x = true) (tokens : List (List α)) :
    ∀ result : List (List α),
      (∀ token ∈ tokens, token ≠ [] ∧ ∀ item ∈ token, isdelimiter item = false) →
        tokenizerFrom isdelimiter ([x].intercalate tokens) result [] = result ++ tokens := by
  induction tokens with
  | nil =>
    intro result _
    rw [List.append_nil]
    rfl
  | cons token tokens ih =>
    intro result htokens
    rw [List.forall_mem_cons] at htokens
    obtain ⟨⟨hsome, htoken⟩, hrest⟩ := htokens
    cases tokens with
    | nil =>
      have hjoin : [x].intercalate [token] = token ++ [] := by
        rw [List.append_nil, List.intercalate_singleton]
      rw [hjoin, tokenizerFrom_append htoken, List.nil_append, tokenizerFrom_nil hsome]
    | cons next tokens =>
      rw [List.intercalate_cons_cons, List.append_assoc, tokenizerFrom_append htoken,
        List.nil_append, List.singleton_append, tokenizerFrom_of_delimiter hx hsome, ih _ hrest,
        List.append_assoc, List.singleton_append]

/-! ### Tokens -/

/-- The tokens are the maximal non-empty runs of items that are no delimiters, in order. None is
empty or has a delimiter, together they are the sequence without its delimiters, and tokens that
were joined by a delimiter are the tokens again. -/
theorem tokenizer_splits (ins : List α) (isdelimiter : α → Bool) :
    (∃ runs : List (ℕ × ℕ), runs.Pairwise (fun first second ↦ first.2 < second.1) ∧
      (∀ run, run ∈ runs ↔ IsMaximalRun (StandsAt isdelimiter ins) run) ∧
      tokenizer ins isdelimiter = runs.map (slice ins)) ∧
    (∀ token ∈ tokenizer ins isdelimiter,
      token ≠ [] ∧ ∀ item ∈ token, isdelimiter item = false) ∧
    (tokenizer ins isdelimiter).flatten = ins.filter (fun item ↦ !isdelimiter item) ∧
    (∀ (x : α) (tokens : List (List α)), isdelimiter x = true →
      (∀ token ∈ tokens, token ≠ [] ∧ ∀ item ∈ token, isdelimiter item = false) →
        tokenizer ([x].intercalate tokens) isdelimiter = tokens) := by
  have hscanned : Scanned isdelimiter ins [] [] [] := ⟨RunsBefore.nil, nofun, nofun⟩
  obtain ⟨runs, htokens, hruns⟩ := tokenizerFrom_eq ins [] [] [] hscanned
  change tokenizer ins isdelimiter = runs.map (slice ins) at htokens
  have hmem (run : ℕ × ℕ) : run ∈ runs ↔ IsMaximalRun (StandsAt isdelimiter ins) run := by
    rw [hruns.mem_iff run]
    refine and_iff_left_of_imp fun hrun ↦ Nat.lt_succ_of_lt ?_
    exact lt_length_of_holdsAt (hrun.holds run.1 (Nat.le_refl _) hrun.nonempty)
  refine ⟨⟨runs, hruns.ordered, hmem, htokens⟩, ?_, ?_, ?_⟩
  · intro token htoken
    rw [htokens, List.mem_map] at htoken
    obtain ⟨run, hrun, rfl⟩ := htoken
    have hmax := (hmem run).mp hrun
    refine ⟨hmax.slice_ne_nil, fun item hitem ↦ ?_⟩
    rw [← Bool.not_eq_true']
    exact hmax.forall_mem_slice item hitem
  · exact flatten_tokenizerFrom ins [] []
  · intro x tokens hx htokens
    exact tokenizerFrom_intercalate hx tokens [] htokens

end RdbLibs.StrUtils
