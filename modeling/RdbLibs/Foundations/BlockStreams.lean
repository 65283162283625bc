import Mathlib.Algebra.Order.BigOperators.Group.List
import Mathlib.Algebra.Order.Group.Nat
import Mathlib.Algebra.Ring.Nat
import Mathlib.Tactic.Common

/-!
# Blocks that are written and read one after another

A device takes a list of blocks, or gives blocks of given sizes, one transfer after the other, and
each of them succeeds: it answers a position that is not zero. What all transfers keep holds at the
end (`Writes.holds`, `Reads.answers`). Where each read starts again at the first item, the blocks
make up a beginning of the data exactly when the data repeats itself at the start of each of them
(`flatten_map_take_eq_iff`).
-/

set_option autoImplicit false
set_option relaxedAutoImplicit false

namespace RdbLibs.BlockStreams

variable {σ ε α : Type*}

/-- The blocks are written one after another, each with success and by one of some functions. -/
inductive Writes (IsWrite : (σ → List α → Except ε (ℕ × σ)) → Prop) :
    σ → List (List α) → σ → Prop
  | nil (state : σ) : Writes IsWrite state [] state
  | cons {write : σ → List α → Except ε (ℕ × σ)} {state next final : σ} {position : ℕ}
      {block : List α} {blocks : List (List α)} :
      IsWrite write → write state block = .ok (position, next) → position ≠ 0 →
        Writes IsWrite next blocks final → Writes IsWrite state (block :: blocks) final

/-- Blocks of the given sizes are read one after another, each with success. -/
inductive Reads (read : σ → ℕ → Except ε (ℕ × List α × σ)) : σ → List ℕ → List (List α) → Prop
  | nil (state : σ) : Reads read state [] []
  | cons {state next : σ} {position count : ℕ} {block : List α} {counts : List ℕ}
      {blocks : List (List α)} :
      read state count = .ok (position, block, next) → position ≠ 0 →
        Reads read next counts blocks → Reads read state (count :: counts) (block :: blocks)

/-- Assumes: a write with success adds the block to what the device holds. -/
theorem Writes.holds {IsWrite : (σ → List α → Except ε (ℕ × σ)) → Prop}
    (Holds : σ → List α → Prop)
    (hwrite : ∀ write state data block position next, IsWrite write → Holds state data →
      write state block = .ok (position, next) → position ≠ 0 → Holds next (data ++ block))
    {start final : σ} {blocks : List (List α)} (hwrites : Writes IsWrite start blocks final) :
    ∀ data, Holds start data → Holds final (data ++ blocks.flatten) := by
  induction hwrites with
  | nil state =>
    intro data hdata
    rwa [List.flatten_nil, List.append_nil]
  | cons hkind hfirst hsuccess _ ih =>
    intro data hdata
    rw [List.flatten_cons, ← List.append_assoc]
    exact ih _ (hwrite _ _ _ _ _ _ hkind hdata hfirst hsuccess)

/-- Assumes: a read with success keeps `Inv` and gives the block that belongs to its size. -/
theorem Reads.answers {read : σ → ℕ → Except ε (ℕ × List α × σ)} (Inv : σ → Prop)
    (answer : ℕ → List α)
    (hread : ∀ state count position block next, Inv state →
      read state count = .ok (position, block, next) → position ≠ 0 →
        Inv next ∧ block = answer count)
    {start : σ} {counts : List ℕ} {blocks : List (List α)}
    (hreads : Reads read start counts blocks) :
    Inv start → blocks = counts.map answer := by
  induction hreads with
  | nil state => exact fun _ ↦ rfl
  | cons hfirst hsuccess _ ih =>
    intro hinv
    obtain ⟨hnext, rfl⟩ := hread _ _ _ _ _ hinv hfirst hsuccess
    rw [List.map_cons, ih hnext]

/-- At the start of each block of the given sizes, the data begins as it does at its own start. -/
def Repeats (data : List α) (counts : List ℕ) : Prop :=
  ∀ before count after, counts = before ++ count :: after →
    data.take count = (data.drop before.sum).take count

theorem flatten_map_take_eq_iff_aux (data : List α) (counts : List ℕ) :
    ∀ start, start + counts.sum ≤ data.length →
      ((counts.map fun count ↦ data.take count).flatten = (data.drop start).take counts.sum ↔
        ∀ before count after, counts = before ++ count :: after →
          data.take count = (data.drop (start + before.sum)).take count) := by
  induction counts with
  | nil => exact fun start _ ↦ iff_of_true rfl fun before count after hsplit ↦ by simp at hsplit
  | cons count counts ih =>
    intro start hsum
    rw [List.sum_cons] at hsum ⊢
    have hlength : (data.take count).length = ((data.drop start).take count).length := by
      rw [List.length_take, List.length_take, List.length_drop]
      omega
    have hrest := ih (start + count) (by omega)
    rw [List.map_cons, List.flatten_cons, List.take_add, List.drop_drop]
    constructor
    · intro hall before other after hsplit
      obtain ⟨hfirst, hlater⟩ := List.append_inj hall hlength
      cases before with
      | nil =>
        obtain ⟨rfl, rfl⟩ := List.cons.inj hsplit
        exact hfirst
      | cons first before =>
        obtain ⟨rfl, hcounts⟩ := List.cons.inj hsplit
        rw [List.sum_cons, ← Nat.add_assoc]
        exact hrest.mp hlater before other after hcounts
    · intro hsplits
      have hfirst : data.take count = (data.drop start).take count := hsplits [] count counts rfl
      rw [hfirst, hrest.mpr]
      intro before other after hsplit
      have hlater := hsplits (count :: before) other after (congrArg (count :: ·) hsplit)
      rwa [List.sum_cons, ← Nat.add_assoc] at hlater

/-- Assumes: the blocks are not longer than the data. -/
theorem flatten_map_take_eq_iff {data : List α} {counts : List ℕ}
    (hsum : counts.sum ≤ data.length) :
    (counts.map fun count ↦ data.take count).flatten = data.take counts.sum ↔
      Repeats data counts := by
  have hstart := flatten_map_take_eq_iff_aux data counts 0 (by rwa [Nat.zero_add])
  simpa only [Repeats, List.drop_zero, Nat.zero_add] using hstart

/-- Assumes: the cells of the device begin with the data, and a read with success gives the first
cells, as many as it is asked for. Reads of no more than the data give it in order exactly when the
data repeats itself at the start of each. -/
theorem Reads.flatten_eq_take_iff {read : σ → ℕ → Except ε (ℕ × List α × σ)} (Inv : σ → Prop)
    {cells data : List α} (hdata : data <+: cells)
    (hread : ∀ state count position block next, Inv state →
      read state count = .ok (position, block, next) → position ≠ 0 →
        Inv next ∧ block = cells.take count)
    {start : σ} {counts : List ℕ} {blocks : List (List α)} (hreads : Reads read start counts blocks)
    (hstart : Inv start) (hsum : counts.sum ≤ data.length) :
    blocks.flatten = data.take counts.sum ↔ Repeats data counts := by
  have hblock : ∀ count ∈ counts, cells.take count = data.take count := by
    intro count hcount
    obtain ⟨rest, rfl⟩ := hdata
    exact List.take_append_of_le_length ((List.le_sum_of_mem hcount).trans hsum)
  rw [hreads.answers Inv (fun count ↦ cells.take count) hread hstart,
    List.map_congr_left hblock, flatten_map_take_eq_iff hsum]

end RdbLibs.BlockStreams
