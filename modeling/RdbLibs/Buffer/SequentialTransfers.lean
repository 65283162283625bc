import RdbLibs.Buffer.GrantedBlocks
import RdbLibs.Foundations.BlockStreams

/-!
# Block transfers at the current index

After `clear`, blocks that are written one after another fill the cells from the first on. A read
at the current index checks and advances the index, but copies the first cells of the buffer,
whatever the index is. So reads of what was written give it in order exactly when it repeats itself
at the start of each of them (`sequential_reads_iff`).
-/

set_option autoImplicit false
set_option relaxedAutoImplicit false

namespace RdbLibs.Buffer

open BlockHeap BlockStreams CheckedMemory MachineWord

universe u

variable {T : Type*}

/-- A checked transfer that has answered an index that is not zero was not refused. -/
theorem of_checked {ε : Type*} {β γ : Type u} {refused : Prop} [Decidable refused]
    {transfer : Except ε β} {position answer : ℕ} {before next : γ} {after : β → γ}
    (h : (if refused then Except.ok (0, before)
      else transfer >>= fun result ↦ .ok (position, after result)) = .ok (answer, next))
    (hanswer : answer ≠ 0) :
    ¬refused ∧ ∃ result, transfer = .ok result ∧ next = after result := by
  split_ifs at h with hrefused
  · cases h
    exact absurd rfl hanswer
  · obtain ⟨result, htransfer, hnext⟩ := of_bind_eq_ok h
    cases hnext
    exact ⟨hrefused, result, htransfer, rfl⟩

theorem scatter_append {data block rest cells : List T} (hfits : block.length ≤ rest.length)
    (hwrite : scatter (data ++ rest) (List.range' data.length block.length) block = .ok cells) :
    cells = data ++ block ++ rest.drop block.length := by
  rw [scatter_range' (by rw [List.length_append]; omega), List.take_left,
    List.drop_append] at hwrite
  rw [← Except.ok.inj hwrite, List.drop_eq_nil_of_le (Nat.le_add_right _ _), List.nil_append,
    Nat.add_sub_cancel_left]

theorem gather_take {cells block : List T} {count : ℕ} (hfits : count ≤ cells.length)
    (hread : gather cells (List.range' 0 count) = .ok block) : block = cells.take count := by
  rw [gather_range' (by rwa [Nat.zero_add]), List.drop_zero] at hread
  exact (Except.ok.inj hread).symm

namespace CSimpleAudioBuffer

variable {b next : CSimpleAudioBuffer T} {cells data : List T} {position : ℕ}

/-- The data is in the first cells, and the write index behind it. -/
def Holds (b : CSimpleAudioBuffer T) (data : List T) : Prop :=
  ∃ rest, b.Granted (data ++ rest) ∧ (b.m_arraySize = 0 ∨ b.m_writeIdx = data.length)

theorem Granted.holds_clear [Zero T] (h : b.Granted cells) (hclear : b.clear = .ok next) :
    next.Holds [] := by
  rw [clear, if_neg h.not_unallocated, h.block_eq, ok_bind] at hclear
  split_ifs at hclear with hsize
  · obtain rfl := Except.ok.inj hclear
    exact ⟨cells, h, .inl (by omega)⟩
  · obtain ⟨cleared, hfill, hnext⟩ := of_bind_eq_ok hclear
    obtain rfl := Except.ok.inj hnext
    have hlength := (length_of_fillRange hfill).trans h.length
    exact ⟨cleared, ⟨h.numChls_pos, h.blockSize_pos, h.arraySize, h.allocated, rfl, hlength⟩,
      .inr rfl⟩

theorem Holds.writeSamples {block : List T} (h : b.Holds data)
    (hwrite : b.writeSamples block = .ok (position, next)) (hsuccess : position ≠ 0) :
    next.Holds (data ++ block) := by
  obtain ⟨rest, hgranted, hindex⟩ := h
  rw [CSimpleAudioBuffer.writeSamples, if_neg hgranted.not_unallocated, hgranted.block_eq,
    ok_bind] at hwrite
  obtain ⟨hfits, cells, hscatter, rfl⟩ := of_checked hwrite hsuccess
  have hlength := hgranted.length
  rw [List.length_append] at hlength
  have hwriteIdx : b.m_writeIdx = data.length := hindex.resolve_left (by omega)
  rw [hwriteIdx] at hscatter
  obtain rfl := scatter_append (by omega) hscatter
  refine ⟨rest.drop block.length, ⟨hgranted.numChls_pos, hgranted.blockSize_pos,
    hgranted.arraySize, hgranted.allocated, rfl, ?_⟩, .inr ?_⟩
  · rw [List.length_append, List.length_append, List.length_drop]
    dsimp only
    omega
  · rw [List.length_append, ← hwriteIdx]

theorem Granted.readSamples {count : ℕ} {block : List T} (h : b.Granted cells)
    (hread : b.readSamples count = .ok (position, block, next)) (hsuccess : position ≠ 0) :
    next.Granted cells ∧ block = cells.take count := by
  rw [CSimpleAudioBuffer.readSamples, if_neg h.not_unallocated, h.block_eq, ok_bind] at hread
  obtain ⟨hfits, buf, hgather, hnext⟩ := of_checked hread hsuccess
  obtain ⟨rfl, rfl⟩ := Prod.mk.inj hnext
  have hlength := h.length
  exact ⟨⟨h.numChls_pos, h.blockSize_pos, h.arraySize, h.allocated, h.pBuffer, h.length⟩,
    gather_take (by omega) hgather⟩

end CSimpleAudioBuffer

namespace CSimpleDataBuffer

variable {b next : CSimpleDataBuffer T} {cells data : List T} {position : ℕ}

/-- The data is in the first cells, and the write index behind it. -/
def Holds (b : CSimpleDataBuffer T) (data : List T) : Prop :=
  ∃ rest, b.Granted (data ++ rest) ∧ (b.m_arraySize = 0 ∨ b.m_writeIdx = data.length)

theorem Granted.withIndices (h : b.Granted cells) (readIdx writeIdx : ℕ) :
    { b with m_readIdx := readIdx, m_writeIdx := writeIdx : CSimpleDataBuffer T }.Granted cells :=
  ⟨h.frameSize_pos, h.blockSize_pos, h.arraySize, h.allocated, h.pBuffer, h.length⟩

theorem Granted.holds_clear [Zero T] (h : b.Granted cells) (hclear : b.clear = .ok next) :
    next.Holds [] := by
  rw [clear, if_neg h.not_unallocated, h.block_eq, ok_bind] at hclear
  split_ifs at hclear with hsize
  · obtain rfl := Except.ok.inj hclear
    exact ⟨cells, h, .inl (by omega)⟩
  · obtain ⟨cleared, hfill, hnext⟩ := of_bind_eq_ok hclear
    obtain rfl := Except.ok.inj hnext
    have hlength := length_of_fillRange (access_eq_ok.mp hfill)
    exact ⟨cleared, (h.setBlock hlength).withIndices 0 0, .inr rfl⟩

theorem Holds.writeDataBlock {block : List T} (h : b.Holds data)
    (hwrite : b.writeDataBlock block = .ok (position, next)) (hsuccess : position ≠ 0) :
    next.Holds (data ++ block) := by
  obtain ⟨rest, hgranted, hindex⟩ := h
  rw [CSimpleDataBuffer.writeDataBlock, if_neg hgranted.not_unallocated, hgranted.block_eq,
    ok_bind] at hwrite
  obtain ⟨hfits, cells, hscatter, rfl⟩ := of_checked hwrite hsuccess
  have hlength := hgranted.length
  rw [List.length_append] at hlength
  have hwriteIdx : b.m_writeIdx = data.length := hindex.resolve_left (by omega)
  rw [hwriteIdx] at hscatter
  obtain rfl := scatter_append (by omega) (access_eq_ok.mp hscatter)
  refine ⟨rest.drop block.length, (hgranted.setBlock ?_).withIndices _ _, .inr ?_⟩
  · rw [List.length_append, List.length_append, List.length_drop, List.length_append]
    omega
  · rw [List.length_append, ← hwriteIdx]

/-- The two functions that write a block at the current index. -/
def WritesNext (write : CSimpleDataBuffer T → List T → Except HeapFault (ℕ × CSimpleDataBuffer T)) :
    Prop :=
  write = writeDataBlock ∨ write = writeDataBlockBytes

theorem Holds.writesNext {write : CSimpleDataBuffer T → List T →
    Except HeapFault (ℕ × CSimpleDataBuffer T)} {block : List T} (hwrites : WritesNext write)
    (h : b.Holds data) (hwrite : write b block = .ok (position, next)) (hsuccess : position ≠ 0) :
    next.Holds (data ++ block) := by
  rcases hwrites with rfl | rfl
  · exact h.writeDataBlock hwrite hsuccess
  · obtain ⟨rest, hgranted, -⟩ := id h
    rw [hgranted.writeDataBlockBytes_eq] at hwrite
    exact h.writeDataBlock hwrite hsuccess

theorem Granted.readDataBlock {count : ℕ} {block : List T} (h : b.Granted cells)
    (hread : b.readDataBlock count = .ok (position, block, next)) (hsuccess : position ≠ 0) :
    next.Granted cells ∧ block = cells.take count := by
  rw [CSimpleDataBuffer.readDataBlock, if_neg h.not_unallocated, h.block_eq, ok_bind] at hread
  obtain ⟨hfits, buf, hgather, hnext⟩ := of_checked hread hsuccess
  obtain ⟨rfl, rfl⟩ := Prod.mk.inj hnext
  have hlength := h.length
  exact ⟨h.withIndices _ _, gather_take (by omega) (access_eq_ok.mp hgather)⟩

end CSimpleDataBuffer

/-- After `clear`, the data of both classes that is written in blocks and read in other blocks comes
back in order exactly when it repeats itself at the start of each block that is read. -/
theorem sequential_reads_iff [Zero T] (blocks : List (List T)) (counts : List ℕ)
    (hsum : counts.sum ≤ blocks.flatten.length) :
    (∀ (b cleared written : CSimpleAudioBuffer T) (cells : List T) (answers : List (List T)),
      b.Granted cells → b.clear = .ok cleared →
        Writes (· = CSimpleAudioBuffer.writeSamples) cleared blocks written →
          Reads CSimpleAudioBuffer.readSamples written counts answers →
            (answers.flatten = blocks.flatten.take counts.sum ↔ Repeats blocks.flatten counts)) ∧
    ∀ (b cleared written : CSimpleDataBuffer T) (cells : List T) (answers : List (List T)),
      b.Granted cells → b.clear = .ok cleared →
        Writes CSimpleDataBuffer.WritesNext cleared blocks written →
          Reads CSimpleDataBuffer.readDataBlock written counts answers →
            (answers.flatten = blocks.flatten.take counts.sum ↔ Repeats blocks.flatten counts) := by
  constructor
  · intro b cleared written cells answers hgranted hclear hwrites hreads
    obtain ⟨rest, hwritten, -⟩ := hwrites.holds CSimpleAudioBuffer.Holds
      (fun _ _ _ _ _ _ hkind hdata ↦ hkind ▸ hdata.writeSamples) [] (hgranted.holds_clear hclear)
    exact hreads.flatten_eq_take_iff (·.Granted (blocks.flatten ++ rest))
      (List.prefix_append _ _) (fun _ _ _ _ _ hstate ↦ hstate.readSamples) hwritten hsum
  · intro b cleared written cells answers hgranted hclear hwrites hreads
    obtain ⟨rest, hwritten, -⟩ := hwrites.holds CSimpleDataBuffer.Holds
      (fun _ _ _ _ _ _ hkind hdata ↦ hdata.writesNext hkind) [] (hgranted.holds_clear hclear)
    exact hreads.flatten_eq_take_iff (·.Granted (blocks.flatten ++ rest))
      (List.prefix_append _ _) (fun _ _ _ _ _ hstate ↦ hstate.readDataBlock) hwritten hsum

theorem sequential_reads_iff_equal :
    Repeats [[5], [5]].flatten [1, 1] ∧
      ([[5], [5]] : List (List ℕ)).flatten = [[5], [5]].flatten.take [1, 1].sum := by
  obtain ⟨haudio, hdata⟩ := sequential_reads_iff [[5], [5]] [1, 1] (by decide)
  have hrepeats : Repeats [[5], [5]].flatten [1, 1] :=
    (haudio ⟨1, 4, 4, 0, 0, true, true, some [0, 0, 0, 0]⟩
      ⟨1, 4, 4, 0, 0, true, true, some [0, 0, 0, 0]⟩
      ⟨1, 4, 4, 0, 2, true, true, some [5, 5, 0, 0]⟩ [0, 0, 0, 0] [[5], [5]]
      ⟨by decide, by decide, rfl, rfl, rfl, rfl⟩ rfl
      (.cons rfl rfl (by decide) (.cons rfl rfl (by decide) (.nil _)))
      (.cons rfl (by decide) (.cons rfl (by decide) (.nil _)))).mp rfl
  exact ⟨hrepeats, (hdata ⟨1, 4, 4, 0, 0, true, some 0, ⟨[some [0, 0, 0, 0]]⟩⟩
    ⟨1, 4, 4, 0, 0, true, some 0, ⟨[some [0, 0, 0, 0]]⟩⟩
    ⟨1, 4, 4, 0, 2, true, some 0, ⟨[some [5, 5, 0, 0]]⟩⟩ [0, 0, 0, 0] [[5], [5]]
    ⟨by decide, by decide, rfl, rfl, ⟨0, rfl, rfl⟩, rfl⟩ rfl
    (.cons (.inl rfl) rfl (by decide) (.cons (.inr rfl) rfl (by decide) (.nil _)))
    (.cons rfl (by decide) (.cons rfl (by decide) (.nil _)))).mpr hrepeats⟩

/-- The second of two reads answers the first sample again. -/
theorem not_sequential_reads :
    let b : CSimpleAudioBuffer ℕ :=
      (((.new true : CSimpleAudioBuffer ℕ).setSize 1 4).alloc 0 true).2
    b.Granted [0, 0, 0, 0] ∧ ∃ cleared written, b.clear = .ok cleared ∧
      Writes (· = CSimpleAudioBuffer.writeSamples) cleared [[5, 6]] written ∧
        Reads CSimpleAudioBuffer.readSamples written [1, 1] [[5], [5]] ∧
          [[5], [5]].flatten ≠ [[5, 6]].flatten.take [1, 1].sum :=
  ⟨⟨by decide, by decide, rfl, rfl, rfl, rfl⟩, ⟨1, 4, 4, 0, 0, true, true, some [0, 0, 0, 0]⟩,
    ⟨1, 4, 4, 0, 2, true, true, some [5, 6, 0, 0]⟩, rfl, .cons rfl rfl (by decide) (.nil _),
    .cons rfl (by decide) (.cons rfl (by decide) (.nil _)), by decide⟩

end RdbLibs.Buffer
