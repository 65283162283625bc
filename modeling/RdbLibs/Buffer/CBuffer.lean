import RdbLibs.Foundations.MachineWord
import RdbLibs.Foundations.SequenceEdits

/-!
# `CBuffer::insert`

A `CBuffer` of `Src/Buffer/CBuffer.h` is a `std::vector` of bytes. Both overloads of `insert` write
zeros behind the bytes until there are `nPos` of them, and then insert one byte after the other,
each behind the last one. They differ in where a byte comes from: it is the same one each time, or
the next one in the memory of the caller. The vector always finds memory here, so that nothing is
caught.
-/

set_option autoImplicit false
set_option relaxedAutoImplicit false

namespace RdbLibs.Buffer.CBuffer

open CheckedMemory MachineWord

/-- The first loop of `insert`. -/
def pad : ℕ → List UInt8 → List UInt8
  | 0, buffer => buffer
  | passes + 1, buffer => pad passes (buffer ++ [0])

/-- The second loop of `insert`, from `b` on. -/
def insertFrom (nPos : ℕ) (byteAt : ℕ → Except Fault UInt8) :
    ℕ → ℕ → List UInt8 → Except Fault (List UInt8)
  | 0, _, buffer => return buffer
  | passes + 1, b, buffer => do
    let byte ← byteAt b
    let buffer ← insertAt buffer (toSize (nPos + b)) byte
    insertFrom nPos byteAt passes (b + 1) buffer

/-- What the overloads of `insert` have in common. -/
def insert (buffer : List UInt8) (nPos : ℕ) (byteAt : ℕ → Except Fault UInt8) (nLen : ℤ) :
    Except Fault (List UInt8) :=
  if nLen < 1 then return buffer
  else insertFrom nPos byteAt nLen.toNat 0 (pad (toInt nPos - toInt buffer.length).toNat buffer)

/-- `CBuffer::insert` of one byte, `nLen` times. -/
def insertFill (buffer : List UInt8) (nPos : ℕ) (cVal : UInt8) (nLen : ℤ) :
    Except Fault (List UInt8) :=
  insert buffer nPos (fun _ ↦ .ok cVal) nLen

/-- `CBuffer::insert` of the bytes at `pVal`. -/
def insertData (buffer : List UInt8) (nPos : ℕ) (pVal : List UInt8) (nLen : ℤ) :
    Except Fault (List UInt8) :=
  insert buffer nPos (load pVal) nLen

/-- A buffer into which bytes were inserted: its first `nPos` bytes, with zeros behind them if it
has fewer, the bytes, and what it has from `nPos` on. -/
def inserted (buffer : List UInt8) (nPos : ℕ) (bytes : List UInt8) : List UInt8 :=
  (buffer.take nPos ++ List.replicate (nPos - buffer.length) 0) ++ bytes ++ buffer.drop nPos

theorem pad_eq (passes : ℕ) : ∀ buffer : List UInt8,
    pad passes buffer = buffer ++ List.replicate passes 0 := by
  induction passes with
  | zero => exact fun buffer ↦ (List.append_nil buffer).symm
  | succ passes ih =>
    intro buffer
    rw [pad, ih, List.append_assoc, List.replicate_succ, List.singleton_append]

/-- As long as no position reaches `2 ^ 64`, the loop inserts the bytes that it reads, each at the
position behind the last one. -/
theorem insertFrom_eq (nPos : ℕ) {byteAt : ℕ → Except Fault UInt8} (rest : List UInt8) :
    ∀ (b : ℕ) (buffer : List UInt8), nPos + b + rest.length < 2 ^ 64 →
      (∀ k byte, rest[k]? = some byte → byteAt (b + k) = .ok byte) →
        insertFrom nPos byteAt rest.length b buffer = insertEach buffer (nPos + b) rest := by
  induction rest with
  | nil => exact fun _ _ _ _ ↦ rfl
  | cons byte rest ih =>
    intro b buffer hbound hbytes
    rw [List.length_cons] at hbound
    have hbyte : byteAt b = .ok byte := hbytes 0 byte rfl
    have hindex : toSize (nPos + b) = nPos + b := Nat.mod_eq_of_lt (by omega)
    rw [List.length_cons, insertFrom, insertEach, hbyte, ok_bind, hindex]
    congr 1
    ext1 next
    refine ih (b + 1) next (by omega) fun k other hother ↦ ?_
    rw [Nat.add_assoc, Nat.add_comm 1]
    exact hbytes (k + 1) other hother

/-- Assumes: the bytes are read, and all lengths and positions stay below `2 ^ 31`. -/
theorem insert_eq {old bytes : List UInt8} {nPos : ℕ} {byteAt : ℕ → Except Fault UInt8}
    (hsome : 1 ≤ bytes.length) (hbound : old.length + nPos + bytes.length < 2 ^ 31)
    (hbytes : ∀ k byte, bytes[k]? = some byte → byteAt k = .ok byte) :
    insert old nPos byteAt bytes.length = .ok (inserted old nPos bytes) := by
  have hpasses : (toInt nPos - toInt old.length).toNat = nPos - old.length := by
    rw [toInt_of_lt (by omega), toInt_of_lt (by omega)]
    omega
  have hfront : (old.take nPos ++ List.replicate (nPos - old.length) (0 : UInt8)).length =
      nPos := by
    rw [List.length_append, List.length_take, List.length_replicate]
    omega
  -- if there is padding, nothing of the old bytes is behind it
  have hpadded : old ++ List.replicate (nPos - old.length) 0 =
      (old.take nPos ++ List.replicate (nPos - old.length) 0) ++ old.drop nPos := by
    rcases Nat.le_total old.length nPos with hle | hge
    · rw [List.take_of_length_le hle, List.drop_of_length_le hle, List.append_nil]
    · rw [Nat.sub_eq_zero_of_le hge, List.replicate_zero, List.append_nil, List.append_nil,
        List.take_append_drop]
  have hloop := insertFrom_eq nPos bytes 0
    (old ++ List.replicate (nPos - old.length) 0) (by omega) fun k byte hbyte ↦ by
      rw [Nat.zero_add]
      exact hbytes k byte hbyte
  have heach := insertEach_eq (old.drop nPos) bytes
    (old.take nPos ++ List.replicate (nPos - old.length) 0)
  rw [hfront, ← hpadded] at heach
  rw [insert, if_neg (by omega), Int.toNat_natCast, hpasses, pad_eq, hloop, Nat.add_zero, heach]
  rfl

/-- Both overloads insert `n` bytes at `nPos`, into bytes that are padded with zeros up to there. -/
theorem insert_places (old : List UInt8) {nPos n : ℕ} (hn : 1 ≤ n)
    (hbound : old.length + nPos + n < 2 ^ 31) :
    (∀ v behind : List UInt8, v.length = n →
      insertData old nPos (v ++ behind) n = .ok (inserted old nPos v)) ∧
    ∀ c : UInt8, insertFill old nPos c n = .ok (inserted old nPos (List.replicate n c)) := by
  constructor
  · rintro v behind rfl
    refine insert_eq hn hbound fun k byte hbyte ↦ ?_
    obtain ⟨hk, -⟩ := List.getElem?_eq_some_iff.mp hbyte
    rw [load, List.getElem?_append_left hk, hbyte]
  · intro c
    have hlength : (List.replicate n c).length = n := List.length_replicate
    have heq : insert old nPos (fun _ ↦ .ok c) (List.replicate n c).length =
        .ok (inserted old nPos (List.replicate n c)) :=
      insert_eq (hlength.symm ▸ hn) (by rwa [hlength]) fun k byte hbyte ↦ by
        rw [List.eq_of_mem_replicate (List.mem_of_getElem? hbyte)]
    rwa [hlength] at heq

/-- Two bytes behind the end of a buffer of one byte. -/
theorem insert_places_behind :
    (∀ v behind : List UInt8, v.length = 2 →
      insertData [7] 3 (v ++ behind) 2 = .ok (inserted [7] 3 v)) ∧
    ∀ c : UInt8, insertFill [7] 3 c 2 = .ok (inserted [7] 3 (List.replicate 2 c)) :=
  insert_places [7] (by norm_num) (by norm_num)

example : inserted [7] 3 [8, 9] = [7, 0, 0, 8, 9] ∧ inserted [1, 2, 3] 1 [8, 9] = [1, 8, 9, 2, 3] :=
  ⟨rfl, rfl⟩

end RdbLibs.Buffer.CBuffer
