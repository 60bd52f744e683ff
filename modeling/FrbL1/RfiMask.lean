import Mathlib.Data.List.Basic
import Mathlib.Algebra.Order.Ring.Nat
/-!
# RfiMask — the RFI mask from `chunk_init` to the python reader

`chunk_init` packs a boolean array into `chunk->rfi_mask`; the bytes are stored in the msgpack file as they are, and
`AssembledChunk.__init__` unpacks them.  `readBack` is what the reader gets, bit by bit, from what the writer stores
(`unpack_packed`): the writer's loop ends after an eighth of the bytes, and each byte it stores is eight copies of one
sample.  So every byte is written only if there are none (`rfi_mask_round_trip`).

`nt` is ch_frb_io's `nt_per_assembled_chunk`, a multiple of 8, and `nrfimaskbytes` is `nrfifreq * nt / 8`.
-/
namespace FrbL1
namespace RfiMask

/-- The data of a C-contiguous boolean array of shape `(nrfifreq, nt)`. -/
structure RfiArray (nrfifreq nt : Nat) where
  data   : List Bool
  length : data.length = nrfifreq * nt

def RfiArray.get {nrfifreq nt : Nat} (b : RfiArray nrfifreq nt) (f t : Nat) : Bool := b.data.getD (f * nt + t) false

def RfiArray.rows {nrfifreq nt : Nat} (b : RfiArray nrfifreq nt) : List (List Bool) :=
  (List.range nrfifreq).map (fun f => (List.range nt).map (b.get f))

def nrfimaskbytes (nrfifreq nt : Nat) : Nat := nrfifreq * nt / 8

/-! ## The writer -/

/-- The inner loop of `chunk_init`: `bval |= (b[i] * (1<<j))` for `j` in 0..7. -/
def bval (b : Bool) : UInt8 := (List.range 8).foldl (fun v j => v ||| b.toUInt8 * ((1 : UInt8) <<< j.toUInt8)) 0

/-- The stores of the outer loop, for `i` in 0..`nrfimaskbytes/8`. -/
def stores {nrfifreq nt : Nat} (b : RfiArray nrfifreq nt) : List (Nat × UInt8) :=
  (List.range (nrfimaskbytes nrfifreq nt / 8)).map (fun i => (i, bval (b.data.getD i false)))

/-- `chunk->rfi_mask` after the loop, over what was there before. -/
def packed {nrfifreq nt : Nat} (b : RfiArray nrfifreq nt) (mem : List UInt8) : List UInt8 :=
  (stores b).foldl (fun m s => m.set s.1 s.2) mem

/-! ## The reader -/

/-- `(byte & (1<<i)) > 0`. -/
def bit (byte : UInt8) (i : Nat) : Bool := 0 < byte &&& ((1 : UInt8) <<< i.toUInt8)

/-- One row: `rfi_mask[:,i::8] = (mask & (1<<i)) > 0` for `i` in 0..7, over zeros. -/
def unpackRow (nt : Nat) (mask : List UInt8) : List Bool :=
  (List.range 8).foldl (fun out i => out.mapIdx (fun t v => if t % 8 = i then bit (mask.getD (t / 8) 0) i else v))
    (List.replicate nt false)

/-- The mask of `AssembledChunk.__init__`; `none` where `reshape((nrfifreq, nt//8))` raises. -/
def unpack (nrfifreq nt : Nat) (mask : List UInt8) : Option (List (List Bool)) :=
  if mask.length = nrfifreq * (nt / 8) then
    some ((List.range nrfifreq).map (fun f => unpackRow nt ((mask.drop (f * (nt / 8))).take (nt / 8))))
  else none

/-! ## What is read back -/

theorem bit_bval : ∀ (b : Bool) (i : Nat), i < 8 → bit (bval b) i = b := by decide

theorem length_foldl_set : ∀ (l : List (Nat × UInt8)) (mem : List UInt8),
    (l.foldl (fun m s => m.set s.1 s.2) mem).length = mem.length
  | [], _ => rfl
  | s :: l, mem => by rw [List.foldl_cons, length_foldl_set l, List.length_set]

theorem getD_foldl_set (v : Nat → UInt8) : ∀ (n : Nat) (mem : List UInt8) (k : Nat), n ≤ mem.length →
    (((List.range n).map (fun i => (i, v i))).foldl (fun m s => m.set s.1 s.2) mem).getD k 0 =
      if k < n then v k else mem.getD k 0
  | 0, _, _, _ => rfl
  | n + 1, mem, k, h => by
    have ih := getD_foldl_set v n mem k (by omega)
    rw [List.range_succ, List.map_append, List.foldl_append]
    simp only [List.map_cons, List.map_nil, List.foldl_cons, List.foldl_nil]
    rw [List.getD_eq_getElem?_getD] at ih ⊢
    by_cases hk : k = n
    · subst hk
      rw [List.getElem?_set_self (by rw [length_foldl_set]; omega)]
      simp
    · rw [List.getElem?_set_ne (Ne.symm hk), ih]
      by_cases hkn : k < n
      · rw [if_pos hkn, if_pos (by omega)]
      · rw [if_neg hkn, if_neg (by omega)]

/-- The reader's loop over the bits, after the first `n` of them. -/
theorem foldl_bits (nt : Nat) (mask : List UInt8) : ∀ n : Nat,
    (List.range n).foldl (fun out i => out.mapIdx (fun t v => if t % 8 = i then bit (mask.getD (t / 8) 0) i else v))
      (List.replicate nt false) =
    (List.range nt).map (fun t => if t % 8 < n then bit (mask.getD (t / 8) 0) (t % 8) else false)
  | 0 => by simp [List.map_const']
  | n + 1 => by
    rw [List.range_succ, List.foldl_append, foldl_bits nt mask n]
    simp only [List.foldl_cons, List.foldl_nil]
    refine List.ext_getElem (by simp) (fun t h1 h2 => ?_)
    simp only [List.getElem_mapIdx, List.getElem_map, List.getElem_range]
    by_cases ht : t % 8 = n
    · simp [ht]
    · rw [if_neg ht]
      by_cases hlt : t % 8 < n
      · rw [if_pos hlt, if_pos (by omega)]
      · rw [if_neg hlt, if_neg (by omega)]

theorem unpackRow_eq (nt : Nat) (mask : List UInt8) :
    unpackRow nt mask = (List.range nt).map (fun t => bit (mask.getD (t / 8) 0) (t % 8)) := by
  unfold unpackRow
  rw [foldl_bits]
  exact List.map_congr_left (fun t _ => if_pos (Nat.mod_lt t (by decide)))

/-- The byte that holds sample `t` of frequency `f`. -/
def byteIndex (nt f t : Nat) : Nat := f * (nt / 8) + t / 8

/-- What the reader gets for sample `t` of frequency `f`: where the writer has stored, a copy of sample `k` of the array
if the sample is in byte `k`; and else what was in the memory before. -/
def readBack {nrfifreq nt : Nat} (b : RfiArray nrfifreq nt) (mem : List UInt8) (f t : Nat) : Bool :=
  if byteIndex nt f t < nrfimaskbytes nrfifreq nt / 8 then b.data.getD (byteIndex nt f t) false
  else bit (mem.getD (byteIndex nt f t) 0) (t % 8)

theorem byteIndex_row {nt t : Nat} (h8 : 8 ∣ nt) (ht : t < nt) (f : Nat) (mask : List UInt8) :
    ((mask.drop (f * (nt / 8))).take (nt / 8)).getD (t / 8) 0 = mask.getD (byteIndex nt f t) 0 := by
  obtain ⟨m, rfl⟩ := h8
  rw [List.getD_eq_getElem?_getD, List.getD_eq_getElem?_getD, List.getElem?_take_of_lt (by omega), List.getElem?_drop]
  rfl

/-- **What the reader gets from the writer's bytes**, sample by sample. -/
theorem unpack_packed {nrfifreq nt : Nat} (b : RfiArray nrfifreq nt) (mem : List UInt8) (h8 : 8 ∣ nt)
    (hmem : mem.length = nrfimaskbytes nrfifreq nt) :
    unpack nrfifreq nt (packed b mem) =
      some ((List.range nrfifreq).map (fun f => (List.range nt).map (readBack b mem f))) := by
  have hlen : (packed b mem).length = nrfifreq * (nt / 8) := by
    rw [packed, length_foldl_set, hmem, nrfimaskbytes, Nat.mul_div_assoc nrfifreq h8]
  unfold unpack
  rw [if_pos hlen]
  congr 1
  refine List.map_congr_left (fun f _ => ?_)
  rw [unpackRow_eq]
  refine List.map_congr_left (fun t ht => ?_)
  rw [byteIndex_row h8 (List.mem_range.1 ht), packed, stores,
    getD_foldl_set (fun i => bval (b.data.getD i false)) _ _ _ (by rw [hmem]; omega)]
  unfold readBack
  split
  · exact bit_bval _ _ (Nat.mod_lt t (by decide))
  · rfl

/-- The last byte of a mask that has one is not written. -/
theorem last_not_stored {nrfifreq nt : Nat} (b : RfiArray nrfifreq nt) (h : 0 < nrfimaskbytes nrfifreq nt) :
    nrfimaskbytes nrfifreq nt - 1 ∉ (stores b).map (·.1) := by
  simp only [stores, List.map_map, List.mem_map, List.mem_range, Function.comp_apply]
  rintro ⟨i, hi, he⟩
  omega

/-! ## The round trip -/

/-- The mask is read back as it was, and every byte of `rfi_mask` was written. -/
def RoundTrips {nrfifreq nt : Nat} (b : RfiArray nrfifreq nt) (mem : List UInt8) : Prop :=
  unpack nrfifreq nt (packed b mem) = some b.rows ∧ ∀ k < nrfimaskbytes nrfifreq nt, k ∈ (stores b).map (·.1)

/-- **Only an empty mask makes the round trip.** -/
theorem rfi_mask_round_trip {nrfifreq nt : Nat} (b : RfiArray nrfifreq nt) (mem : List UInt8) (h8 : 8 ∣ nt)
    (hmem : mem.length = nrfimaskbytes nrfifreq nt) : RoundTrips b mem ↔ nrfifreq * nt = 0 := by
  constructor
  · rintro ⟨-, hall⟩
    by_contra hne
    have hpos : 0 < nrfimaskbytes nrfifreq nt := by
      obtain ⟨m, rfl⟩ := h8
      have : nrfifreq * (8 * m) = nrfifreq * m * 8 := by rw [Nat.mul_comm 8 m, Nat.mul_assoc]
      unfold nrfimaskbytes
      omega
    exact last_not_stored b hpos (hall _ (by omega))
  · intro h0
    have hbytes : nrfimaskbytes nrfifreq nt = 0 := by rw [nrfimaskbytes, h0]
    refine ⟨?_, fun k hk => absurd hk (by omega)⟩
    rw [unpack_packed b mem h8 hmem]
    rcases Nat.mul_eq_zero.1 h0 with rfl | rfl <;> rfl

/-- The empty mask, of 1024 samples a row. -/
theorem rfi_mask_round_trip_empty : RoundTrips (⟨[], rfl⟩ : RfiArray 0 1024) [] :=
  (rfi_mask_round_trip (⟨[], rfl⟩ : RfiArray 0 1024) [] (by decide) rfl).2 rfl

/-- **One row whose first sample alone is set**, over zeroed memory: bytes are left unwritten, and the second sample is
read back as set. -/
theorem rfi_mask_first_sample :
    let b : RfiArray 1 1024 := ⟨true :: List.replicate 1023 false, by rw [List.length_cons, List.length_replicate]⟩
    let mem := List.replicate 128 0
    127 ∉ (stores b).map (·.1) ∧ b.get 0 1 = false ∧ readBack b mem 0 1 = true ∧ ¬ RoundTrips b mem := by
  intro b mem
  have hlast : 127 ∉ (stores b).map (·.1) := last_not_stored b (by decide)
  exact ⟨hlast, rfl, rfl, fun h => hlast (h.2 127 (by decide))⟩

end RfiMask
end FrbL1
