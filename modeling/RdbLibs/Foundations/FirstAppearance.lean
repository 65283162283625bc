import Mathlib.Data.Finset.Card
import Mathlib.Data.List.Dedup
import Mathlib.Tactic.Common

/-!
# Numbers by first appearance

Keys come one after the other, and each that was not seen before gets the next number. The number
of a key is its place among the keys without their repetitions (`rank`), and no later key changes it
(`rank_concat_of_mem`). Where the numbers are kept modulo some number, they are those of different
keys, and all those below the number of keys, as long as that many are different
(`rank_mod_numbers_iff`).
-/

set_option autoImplicit false
set_option relaxedAutoImplicit false

namespace RdbLibs.FirstAppearance

variable {κ : Type*} [DecidableEq κ]

/-- The keys without their repetitions, in the order of their first appearance. -/
def firsts (keys : List κ) : List κ := keys.reverse.dedup.reverse

/-- The number of a key. -/
def rank (keys : List κ) (key : κ) : ℕ := (firsts keys).idxOf key

variable {keys : List κ} {key other : κ}

@[simp] theorem mem_firsts : key ∈ firsts keys ↔ key ∈ keys := by
  rw [firsts, List.mem_reverse, List.mem_dedup, List.mem_reverse]

theorem nodup_firsts (keys : List κ) : (firsts keys).Nodup :=
  List.nodup_reverse.mpr (List.nodup_dedup _)

@[simp] theorem length_firsts (keys : List κ) : (firsts keys).length = keys.toFinset.card := by
  rw [firsts, List.length_reverse, ← List.card_toFinset, List.toFinset_reverse]

theorem firsts_concat_of_mem (h : key ∈ keys) : firsts (keys ++ [key]) = firsts keys := by
  rw [firsts, List.reverse_append, List.reverse_singleton, List.singleton_append,
    List.dedup_cons_of_mem (List.mem_reverse.mpr h), firsts]

theorem firsts_concat_of_notMem (h : key ∉ keys) :
    firsts (keys ++ [key]) = firsts keys ++ [key] := by
  rw [firsts, List.reverse_append, List.reverse_singleton, List.singleton_append,
    List.dedup_cons_of_notMem (mt List.mem_reverse.mp h), List.reverse_cons, firsts]

theorem card_concat_of_notMem (h : key ∉ keys) :
    (keys ++ [key]).toFinset.card = keys.toFinset.card + 1 := by
  rw [← length_firsts, firsts_concat_of_notMem h, List.length_append, length_firsts,
    List.length_singleton]

/-- A key that has a number keeps it. -/
theorem rank_concat_of_mem (h : key ∈ keys) (new : κ) :
    rank (keys ++ [new]) key = rank keys key := by
  unfold rank
  by_cases hnew : new ∈ keys
  · rw [firsts_concat_of_mem hnew]
  · rw [firsts_concat_of_notMem hnew, List.idxOf_append_of_mem (mem_firsts.mpr h)]

/-- A new key gets the next number. -/
theorem rank_concat_of_notMem (h : key ∉ keys) : rank (keys ++ [key]) key = keys.toFinset.card := by
  rw [rank, firsts_concat_of_notMem h, List.idxOf_append_of_notMem (mt mem_firsts.mp h),
    List.idxOf_cons_self, length_firsts, Nat.add_zero]

theorem rank_lt (h : key ∈ keys) : rank keys key < keys.toFinset.card :=
  length_firsts keys ▸ List.idxOf_lt_length_of_mem (mem_firsts.mpr h)

theorem rank_inj (h : key ∈ keys) : rank keys key = rank keys other ↔ key = other :=
  List.idxOf_inj (mem_firsts.mpr h)

theorem exists_rank_eq {number : ℕ} (h : number < keys.toFinset.card) :
    ∃ key ∈ keys, rank keys key = number := by
  rw [← length_firsts] at h
  exact ⟨(firsts keys)[number], mem_firsts.mp (List.getElem_mem h),
    (nodup_firsts keys).idxOf_getElem number h⟩

/-- Numbers that are kept modulo a positive number are those of different keys, and are all those
below the number of keys, exactly when there are at most so many keys. -/
theorem rank_mod_numbers_iff (keys : List κ) {modulus : ℕ} (hpos : 0 < modulus) :
    (∀ key ∈ keys, ∀ other ∈ keys,
        (rank keys key % modulus = rank keys other % modulus ↔ key = other)) ∧
      (∀ number, (∃ key ∈ keys, rank keys key % modulus = number) ↔
        number < keys.toFinset.card) ↔
      keys.toFinset.card ≤ modulus := by
  constructor
  · rintro ⟨-, hall⟩
    by_contra hmany
    obtain ⟨key, -, hkey⟩ := (hall modulus).mpr (Nat.not_le.mp hmany)
    exact (Nat.mod_lt _ hpos).ne hkey
  · intro hfew
    have hmod : ∀ key ∈ keys, rank keys key % modulus = rank keys key := fun key hkey ↦
      Nat.mod_eq_of_lt ((rank_lt hkey).trans_le hfew)
    refine ⟨fun key hkey other hother ↦ ?_, fun number ↦ ⟨?_, fun hnumber ↦ ?_⟩⟩
    · rw [hmod key hkey, hmod other hother, rank_inj hkey]
    · rintro ⟨key, hkey, rfl⟩
      rw [hmod key hkey]
      exact rank_lt hkey
    · obtain ⟨key, hkey, hrank⟩ := exists_rank_eq hnumber
      exact ⟨key, hkey, (hmod key hkey).trans hrank⟩

end RdbLibs.FirstAppearance
