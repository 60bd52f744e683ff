import FrbL1.MsgpackCodec
/-!
# MsgpackPacker — objects that are written piece by piece

A packer appends to a buffer: the size of an array first, and then its elements.  What it has written is an object if
the sizes are right.  `Carries` says so in terms of the reader: the bytes are an object from which `read` takes the
value; it is composed as the bytes are (`carries_int`, `carries_text`, `carries_list`), and what the bytes of a message
carry is what its reader gets (`Carries.unpackb`).
-/
namespace Msgpack

/-! ## Writing -/

/-- `pack(int)` -/
def packInt (n : Int) : List UInt8 := if 0 ≤ n then packUnsigned n.toNat else packSigned n

/-- `pack_array(uint32_t)` -/
def packArray (n : Nat) : List UInt8 := packSize (n % 2 ^ 32)

/-! ## Reading, in a language without declared types -/

namespace Object

def items : Object → Option (List Object)
  | array _ p => some (List.ofFn p)
  | _         => none

def int? : Object → Option Int
  | posInt n   => some n.toNat
  | negInt n _ => some n.toInt
  | _          => none

def text? : Object → Option (List Char)
  | str s => some s
  | _     => none

def list? {α : Type} (read : Object → Option α) (o : Object) : Option (List α) := o.items.bind (List.mapM read)

theorem items_ofList {os : List Object} {o : Object} (h : ofList os = some o) : o.items = some os := by
  obtain ⟨hlen, rfl⟩ := ofList_eq_some h
  refine congrArg some (List.ext_getElem (by simp) (fun i hi hi' => ?_))
  simp

theorem int?_ofInt {n : Int} {o : Object} (h : ofInt n = some o) : o.int? = some n := by
  unfold ofInt at h
  split at h
  · rename_i h0
    split at h
    · rename_i hn
      obtain rfl := Option.some.inj h
      exact congrArg some (by rw [toNat_ofNat_toNat h0 hn, Int.toNat_of_nonneg h0])
    · cases h
  · rename_i h0
    split at h
    · split at h
      · rename_i hneg hn
        obtain rfl := Option.some.inj h
        refine congrArg some (Int64.toInt_ofInt_of_le hn ?_)
        omega
      · cases h
    · cases h

end Object

/-! ## What the bytes carry -/

/-- The bytes are an object from which `read` takes the value. -/
def Carries {α : Type} (bytes : List UInt8) (read : Object → Option α) (a : α) : Prop :=
  ∃ o, pack o = some bytes ∧ read o = some a

theorem carries_int {n : Int} (hlo : -2 ^ 63 ≤ n) (hhi : n < 2 ^ 64) : Carries (packInt n) Object.int? n := by
  unfold packInt
  by_cases h0 : 0 ≤ n
  · have hn : Object.ofInt n = some (.posInt (UInt64.ofNat n.toNat)) := Object.ofInt_eq_posInt h0 hhi
    refine ⟨_, ?_, Object.int?_ofInt hn⟩
    rw [if_pos h0, pack, Object.toNat_ofNat_toNat h0 hhi]
  · have htoInt : (Int64.ofInt n).toInt = n := Int64.toInt_ofInt_of_le hlo (by omega)
    have hneg : Int64.ofInt n < 0 := by
      rw [Int64.lt_iff_toInt_lt, htoInt, Int64.toInt_zero]
      omega
    refine ⟨.negInt (Int64.ofInt n) hneg, ?_, congrArg some htoInt⟩
    rw [if_neg h0, pack, htoInt]

theorem carries_text {s : List Char} {bytes : List UInt8} (h : packText (utf8 s) = some bytes) :
    Carries bytes Object.text? s :=
  ⟨.str s, h, rfl⟩

theorem carries_items {parts : List (List UInt8)} {os : List Object}
    (h : List.Forall₂ (fun part o => pack o = some part) parts os) (hlen : parts.length < 2 ^ 32) :
    Carries (packArray parts.length ++ parts.flatten) Object.items os := by
  have hos : os.length < 2 ^ 32 := h.length_eq ▸ hlen
  have hlist : Object.ofList os = some (.array (UInt32.ofNatLT os.length hos) (fun i => os.get i)) := dif_pos hos
  refine ⟨_, ?_, Object.items_ofList hlist⟩
  have hparts : List.mapM id (List.ofFn (fun i : Fin os.length => pack (os.get i))) = some parts := by
    have hmap : List.ofFn (fun i : Fin os.length => pack (os.get i)) = parts.map some := by
      rw [List.forall₂_iff_get] at h
      obtain ⟨hlen', hget⟩ := h
      refine List.ext_getElem (by simp [hlen']) (fun i hi hi' => ?_)
      have := hget i (by simpa using hi') (by simpa using hi)
      simpa using this
    rw [hmap, List.mapM_map]
    exact (Fallible.mapM_eq_some (g := id) (fun _ _ => rfl)).trans (by rw [List.map_id])
  rw [pack]
  show (List.mapM id (List.ofFn (fun i : Fin os.length => pack (os.get i)))).map _ = _
  rw [hparts, Option.map_some, packArray, h.length_eq, Nat.mod_eq_of_lt hos]
  rfl

theorem carries_list {α : Type} {read : Object → Option α} {parts : List (List UInt8)} {as : List α}
    (h : List.Forall₂ (fun part a => Carries part read a) parts as) (hlen : parts.length < 2 ^ 32) :
    Carries (packArray parts.length ++ parts.flatten) (Object.list? read) as := by
  obtain ⟨os, hos, hread⟩ : ∃ os, List.Forall₂ (fun part o => pack o = some part) parts os ∧ os.mapM read = some as := by
    clear hlen
    induction h with
    | nil => exact ⟨[], .nil, rfl⟩
    | cons hpart _ ih =>
      obtain ⟨o, hpack, hread⟩ := hpart
      obtain ⟨os, hos, hreads⟩ := ih
      refine ⟨o :: os, .cons hpack hos, ?_⟩
      rw [List.mapM_cons, hread, hreads]
      rfl
  obtain ⟨o, hpack, hitems⟩ := carries_items hos hlen
  refine ⟨o, hpack, ?_⟩
  rw [Object.list?, hitems]
  exact hread

theorem Carries.unpackb {α : Type} {bytes : List UInt8} {read : Object → Option α} {a : α} (h : Carries bytes read a) :
    (codec.unpackb bytes).bind read = some a := by
  obtain ⟨o, hpack, hread⟩ := h
  rw [codec_correct.unpackb hpack]
  exact hread

end Msgpack
