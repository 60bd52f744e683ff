import FrbL1.Msgpack
import Mathlib.Data.List.OfFn
/-!
# MsgpackCodec — packed objects

A packed message is a sequence of objects, one behind the other; an unpacker reads the one that begins at an offset and
says where it ends.  That an object comes back as it was packed is `Codec.Correct`.  `codec` is the msgpack format, as
far as null, booleans, integers, doubles, texts and arrays, and it is correct (`codec_correct`).
-/
namespace Msgpack

open Fallible (forall₂_of_mapM_some)

/-- A packer and an unpacker; `none` stands for an exception. -/
structure Codec where
  pack   : Object → Option (List UInt8)
  unpack : List UInt8 → Nat → Option (Object × Nat)

/-- Objects come back as they were packed, whatever is before them and behind them. -/
def Codec.Correct (c : Codec) : Prop := ∀ before o bytes after, c.pack o = some bytes →
  c.unpack (before ++ bytes ++ after) before.length = some (o, before.length + bytes.length)

/-- `unpackb`: there has to be just one object. -/
def Codec.unpackb (c : Codec) (bytes : List UInt8) : Option Object :=
  match c.unpack bytes 0 with
  | some (o, n) => if n = bytes.length then some o else none
  | none        => none

section
variable {c : Codec} (hc : c.Correct)
include hc

theorem Codec.Correct.unpack_first {o : Object} {bytes : List UInt8} (h : c.pack o = some bytes) (after : List UInt8) :
    c.unpack (bytes ++ after) 0 = some (o, bytes.length) := by
  have hfirst := hc [] o bytes after h
  rwa [List.nil_append, List.length_nil, Nat.zero_add] at hfirst

theorem Codec.Correct.unpack_last {o : Object} {bytes : List UInt8} (h : c.pack o = some bytes) (before : List UInt8) :
    c.unpack (before ++ bytes) before.length = some (o, before.length + bytes.length) := by
  have hlast := hc before o bytes [] h
  rwa [List.append_nil] at hlast

theorem Codec.Correct.unpackb {o : Object} {bytes : List UInt8} (h : c.pack o = some bytes) :
    c.unpackb bytes = some o := by
  have hfirst := hc.unpack_first h []
  rw [List.append_nil] at hfirst
  unfold Codec.unpackb
  rw [hfirst]
  exact if_pos rfl

end

/-! ## Objects to pack -/

namespace Object

/-- An integer; one that has no 64 bits cannot be packed. -/
def ofInt (n : Int) : Option Object :=
  if 0 ≤ n then
    if n < 2 ^ 64 then some (.posInt (UInt64.ofNat n.toNat)) else none
  else if h : Int64.ofInt n < 0 then
    if -2 ^ 63 ≤ n then some (.negInt (Int64.ofInt n) h) else none
  else none

def ofList (os : List Object) : Option Object :=
  if h : os.length < 2 ^ 32 then
    some (.array (UInt32.ofNatLT os.length h) (fun i => os.get i))
  else none

theorem ofInt_toNat (n : UInt64) : ofInt n.toNat = some (.posInt n) := by
  have hlt : (n.toNat : Int) < 2 ^ 64 := by exact_mod_cast n.toNat_lt
  unfold ofInt
  rw [if_pos (Int.natCast_nonneg _), if_pos hlt, Int.toNat_natCast, UInt64.ofNat_toNat]

theorem ofInt_toInt {n : Int64} (h : n < 0) : ofInt n.toInt = some (.negInt n h) := by
  have hneg : ¬ 0 ≤ n.toInt := by
    have hlt := Int64.lt_iff_toInt_lt.1 h
    rw [Int64.toInt_zero] at hlt
    omega
  have hle : -2 ^ 63 ≤ n.toInt := n.le_toInt
  have hn : Int64.ofInt n.toInt = n := Int64.ofInt_toInt n
  unfold ofInt
  rw [if_neg hneg, dif_pos (by rw [hn]; exact h), if_pos hle]
  simp only [hn]

theorem array_ext {n n' : UInt32} {p : Fin n.toNat → Object} {p' : Fin n'.toNat → Object} (hn : n = n')
    (hp : ∀ i (hi : i < n.toNat) (hi' : i < n'.toNat), p ⟨i, hi⟩ = p' ⟨i, hi'⟩) : array n p = array n' p' := by
  subst hn
  congr 1
  funext i
  exact hp i.1 i.2 i.2

theorem ofList_ofFn (n : UInt32) (p : Fin n.toNat → Object) : ofList (List.ofFn p) = some (.array n p) := by
  have hlen : (List.ofFn p).length < 2 ^ 32 := by
    rw [List.length_ofFn]
    exact n.toNat_lt
  unfold ofList
  rw [dif_pos hlen]
  refine congrArg some (array_ext (UInt32.toNat_inj.1 (by simp)) (fun i hi hi' => ?_))
  simp

theorem ofList_eq_some {os : List Object} {o : Object} (h : ofList os = some o) :
    ∃ hlen, o = .array (UInt32.ofNatLT os.length hlen) (fun i => os.get i) := by
  unfold ofList at h
  split at h
  · rename_i hlen
    exact ⟨hlen, (Option.some.inj h).symm⟩
  · cases h

theorem size_ofList {os : List Object} {o : Object} (h : ofList os = some o) : o.size = .ok (UInt32.ofNat os.length) := by
  obtain ⟨hlen, rfl⟩ := ofList_eq_some h
  exact congrArg Except.ok (UInt32.toNat_inj.1 (by simp [Nat.mod_eq_of_lt hlen]))

theorem elem_ofList {os : List Object} {o e : Object} (h : ofList os = some o) {i : Nat} (he : os[i]? = some e) :
    o.elem i = .ok e := by
  obtain ⟨hlen, rfl⟩ := ofList_eq_some h
  obtain ⟨hi, rfl⟩ := List.getElem?_eq_some_iff.1 he
  exact dif_pos hi

theorem asVector_ofList {α : Type} {as : Object → Except Fault α} {os : List Object} {o : Object}
    (h : ofList os = some o) : o.asVector as = os.mapM as := by
  obtain ⟨hlen, rfl⟩ := ofList_eq_some h
  exact congrArg (List.mapM as) (List.ofFn_get os)

/-! ## Integers that are converted back -/

theorem ofInt_eq_posInt {n : Int} (h0 : 0 ≤ n) (hn : n < 2 ^ 64) : ofInt n = some (.posInt (UInt64.ofNat n.toNat)) := by
  unfold ofInt
  rw [if_pos h0, if_pos hn]

theorem toNat_ofNat_toNat {n : Int} (h0 : 0 ≤ n) (hn : n < 2 ^ 64) : (UInt64.ofNat n.toNat).toNat = n.toNat :=
  UInt64.toNat_ofNat_of_lt' (by
    show n.toNat < 2 ^ 64
    omega)

theorem asUint64_ofInt {n : Int} {o : Object} (h : ofInt n = some o) (h0 : 0 ≤ n) (hn : n < 2 ^ 64) :
    o.asUint64 = .ok (UInt64.ofNat n.toNat) := by
  rw [ofInt_eq_posInt h0 hn] at h
  obtain rfl := Option.some.inj h
  rfl

theorem asUint32_ofInt {n : Int} {o : Object} (h : ofInt n = some o) (h0 : 0 ≤ n) :
    o.asUint32 = if n < 2 ^ 32 then .ok (UInt32.ofNat n.toNat) else .error .typeError := by
  have hn : n < 2 ^ 64 := by
    by_contra hn
    unfold ofInt at h
    rw [if_pos h0, if_neg hn] at h
    cases h
  rw [ofInt_eq_posInt h0 hn] at h
  obtain rfl := Option.some.inj h
  show (if _ then _ else _) = _
  rw [toNat_ofNat_toNat h0 hn]
  by_cases hlt : n < 2 ^ 32
  · rw [if_pos hlt, if_pos (by omega)]
    refine congrArg Except.ok (UInt32.toNat_inj.1 ?_)
    rw [UInt64.toNat_toUInt32, toNat_ofNat_toNat h0 hn]
    exact (UInt32.toNat_ofNat).symm
  · rw [if_neg hlt, if_neg (by omega)]

theorem asInt_ofInt {n : Int} {o : Object} (h : ofInt n = some o) (hlo : -2 ^ 31 ≤ n) (hhi : n < 2 ^ 31) :
    o.asInt = .ok n := by
  by_cases h0 : 0 ≤ n
  · have hn : n < 2 ^ 64 := by omega
    rw [ofInt_eq_posInt h0 hn] at h
    obtain rfl := Option.some.inj h
    show (if _ then _ else _) = _
    rw [toNat_ofNat_toNat h0 hn, if_pos (by omega), Int.toNat_of_nonneg h0]
  · have hto : (Int64.ofInt n).toInt = n := Int64.toInt_ofInt_of_le (by omega) (by omega)
    unfold ofInt at h
    rw [if_neg h0] at h
    split at h
    · rw [if_pos (by omega)] at h
      obtain rfl := Option.some.inj h
      show (if _ then _ else _) = _
      rw [hto, if_pos hlo]
    · cases h

theorem mapM_asInt {ns : List Int} {os : List Object} (h : ns.mapM ofInt = some os)
    (hrange : ∀ n ∈ ns, -2 ^ 31 ≤ n ∧ n < 2 ^ 31) : os.mapM asInt = .ok ns := by
  have hall := forall₂_of_mapM_some h
  clear h
  induction hall with
  | nil => rfl
  | @cons n o ns os ho _ ih =>
    obtain ⟨hlo, hhi⟩ := hrange n (.head _)
    rw [List.mapM_cons, asInt_ofInt ho hlo hhi, ih (fun m hm => hrange m (.tail _ hm))]
    rfl

end Object

/-! ## Numbers -/

/-- The last `k` bytes of a number, the highest first. -/
def bigEndian : Nat → Nat → List UInt8
  | 0,     _ => []
  | k + 1, n => bigEndian k (n / 256) ++ [UInt8.ofNat (n % 256)]

def fromBigEndian (bytes : List UInt8) : Nat := bytes.foldl (fun n b => n * 256 + b.toNat) 0

theorem length_bigEndian : ∀ k n, (bigEndian k n).length = k
  | 0,     _ => rfl
  | k + 1, n => by rw [bigEndian, List.length_append, length_bigEndian k, List.length_singleton]

theorem fromBigEndian_bigEndian : ∀ {k n : Nat}, n < 256 ^ k → fromBigEndian (bigEndian k n) = n
  | 0,     n, h => by
    obtain rfl : n = 0 := Nat.lt_one_iff.1 h
    rfl
  | k + 1, n, h => by
    have hdiv : n / 256 < 256 ^ k := Nat.div_lt_of_lt_mul (by rwa [Nat.mul_comm, ← Nat.pow_succ])
    have hbyte : (UInt8.ofNat (n % 256)).toNat = n % 256 := UInt8.toNat_ofNat_of_lt' (Nat.mod_lt _ (by decide))
    have hhigh := fromBigEndian_bigEndian hdiv
    unfold fromBigEndian at hhigh ⊢
    rw [bigEndian, List.foldl_append, hhigh, List.foldl_cons, List.foldl_nil, hbyte, Nat.div_add_mod']

def takeBytes (k : Nat) (s : List UInt8) : Option (List UInt8 × List UInt8) :=
  if k ≤ s.length then some (s.take k, s.drop k) else none

theorem takeBytes_append (a s : List UInt8) : takeBytes a.length (a ++ s) = some (a, s) := by
  unfold takeBytes
  rw [if_pos (by simp), List.take_left, List.drop_left]

def readNumber (k : Nat) (s : List UInt8) : Option (Nat × List UInt8) :=
  (takeBytes k s).map (fun (a, s) => (fromBigEndian a, s))

theorem readNumber_bigEndian {k n : Nat} (h : n < 256 ^ k) (s : List UInt8) :
    readNumber k (bigEndian k n ++ s) = some (n, s) := by
  have htake := takeBytes_append (bigEndian k n) s
  rw [length_bigEndian] at htake
  unfold readNumber
  rw [htake, Option.map_some]
  show some (fromBigEndian (bigEndian k n), s) = _
  rw [fromBigEndian_bigEndian h]

/-! ## The format -/

def utf8 (s : List Char) : List UInt8 := s.flatMap String.utf8EncodeChar

def fromUtf8 (bytes : List UInt8) : Option (List Char) := bytes.toByteArray.utf8Decode?.map Array.toList

theorem fromUtf8_utf8 (s : List Char) : fromUtf8 (utf8 s) = some s := by
  show s.utf8Encode.utf8Decode?.map Array.toList = some s
  rw [List.utf8Decode?_utf8Encode, Option.map_some]

def packUnsigned (n : Nat) : List UInt8 :=
  if n < 2 ^ 7 then [UInt8.ofNat n]
  else if n < 2 ^ 8 then 0xcc :: bigEndian 1 n
  else if n < 2 ^ 16 then 0xcd :: bigEndian 2 n
  else if n < 2 ^ 32 then 0xce :: bigEndian 4 n
  else 0xcf :: bigEndian 8 n

def packSigned (n : Int) : List UInt8 :=
  if -2 ^ 5 ≤ n then [UInt8.ofNat (n + 2 ^ 8).toNat]
  else if -2 ^ 7 ≤ n then 0xd0 :: bigEndian 1 (n + 2 ^ 8).toNat
  else if -2 ^ 15 ≤ n then 0xd1 :: bigEndian 2 (n + 2 ^ 16).toNat
  else if -2 ^ 31 ≤ n then 0xd2 :: bigEndian 4 (n + 2 ^ 32).toNat
  else 0xd3 :: bigEndian 8 (n + 2 ^ 64).toNat

def packSize (n : Nat) : List UInt8 :=
  if n < 2 ^ 4 then [UInt8.ofNat (0x90 + n)]
  else if n < 2 ^ 16 then 0xdc :: bigEndian 2 n
  else 0xdd :: bigEndian 4 n

def packText (bytes : List UInt8) : Option (List UInt8) :=
  if bytes.length < 2 ^ 5 then some (UInt8.ofNat (0xa0 + bytes.length) :: bytes)
  else if bytes.length < 2 ^ 8 then some (0xd9 :: bigEndian 1 bytes.length ++ bytes)
  else if bytes.length < 2 ^ 16 then some (0xda :: bigEndian 2 bytes.length ++ bytes)
  else if bytes.length < 2 ^ 32 then some (0xdb :: bigEndian 4 bytes.length ++ bytes)
  else none

/-- Binary data, maps and extensions are left out. -/
def pack : Object → Option (List UInt8)
  | .nil        => some [0xc0]
  | .bool b     => some [if b then 0xc3 else 0xc2]
  | .posInt n   => some (packUnsigned n.toNat)
  | .negInt n _ => some (packSigned n.toInt)
  | .float x    => some (0xcb :: bigEndian 8 x.toBits.toNat)
  | .str s      => packText (utf8 s)
  | .array n p  => (List.mapM id (List.ofFn (fun i => pack (p i)))).map (fun parts => packSize n.toNat ++ parts.flatten)
  | .bin _ | .map _ _ _ | .ext _ _ => none

open Float.Model Float.Model.UnpackedFloat in
instance decidableValid (spec : Format) (b : BitVec spec.numBits) : Decidable (spec.Valid b) :=
  decidable_of_iff (unpackExponent b = (-1#_) → unpackMantissa b ≠ 0#_ → b = packedNaN spec)
    ⟨fun h => ⟨h⟩, fun h => h.eq_packedNaN⟩

def doubleOfBits (bits : UInt64) : Float :=
  if h : Float.Model.Format.binary64.Valid bits.toBitVec then .ofModel ⟨bits, h⟩ else Float.ofBits bits

def unpackUnsigned (k : Nat) (s : List UInt8) : Option (Object × List UInt8) :=
  (readNumber k s).bind (fun x => (Object.ofInt x.1).map (·, x.2))

def unpackSigned (k : Nat) (s : List UInt8) : Option (Object × List UInt8) :=
  (readNumber k s).bind (fun x =>
    (Object.ofInt (if x.1 < 2 ^ (8 * k - 1) then x.1 else x.1 - 2 ^ (8 * k))).map (·, x.2))

def unpackText (n : Nat) (s : List UInt8) : Option (Object × List UInt8) :=
  (takeBytes n s).bind (fun x => (fromUtf8 x.1).map (fun cs => (.str cs, x.2)))

def unpackItems (item : List UInt8 → Option (Object × List UInt8)) :
    Nat → List UInt8 → Option (List Object × List UInt8)
  | 0,     s => some ([], s)
  | n + 1, s => do
    let (o, s) ← item s
    let (os, s) ← unpackItems item n s
    return (o :: os, s)

def unpackArray (item : List UInt8 → Option (Object × List UInt8)) (n : Nat) (s : List UInt8) :
    Option (Object × List UInt8) :=
  (unpackItems item n s).bind (fun x => (Object.ofList x.1).map (·, x.2))

/-- A text or an array with its size in `k` bytes. -/
def sized (body : Nat → List UInt8 → Option (Object × List UInt8)) (k : Nat) (s : List UInt8) :
    Option (Object × List UInt8) := (readNumber k s).bind (fun x => body x.1 x.2)

/-- What is behind one of the bytes from `0xc0` on. -/
def unpackTagged (array : Nat → List UInt8 → Option (Object × List UInt8)) (s : List UInt8) :
    Nat → Option (Object × List UInt8)
  | 0xc0 => some (.nil, s)
  | 0xc2 => some (.bool false, s)
  | 0xc3 => some (.bool true, s)
  | 0xcb => (readNumber 8 s).map (fun x => (.float (doubleOfBits (UInt64.ofNat x.1)), x.2))
  | 0xcc => unpackUnsigned 1 s
  | 0xcd => unpackUnsigned 2 s
  | 0xce => unpackUnsigned 4 s
  | 0xcf => unpackUnsigned 8 s
  | 0xd0 => unpackSigned 1 s
  | 0xd1 => unpackSigned 2 s
  | 0xd2 => unpackSigned 4 s
  | 0xd3 => unpackSigned 8 s
  | 0xd9 => sized unpackText 1 s
  | 0xda => sized unpackText 2 s
  | 0xdb => sized unpackText 4 s
  | 0xdc => sized array 2 s
  | 0xdd => sized array 4 s
  | _    => none

/-- The first object, and the bytes behind it; arrays are nested at most as deep as the first argument. -/
def unpackAt : Nat → List UInt8 → Option (Object × List UInt8)
  | 0,     _      => none
  | _ + 1, []     => none
  | d + 1, b :: s =>
    let n := b.toNat
    if n < 0x80 then (Object.ofInt n).map (·, s)
    else if n < 0x90 then none
    else if n < 0xa0 then unpackArray (unpackAt d) (n - 0x90) s
    else if n < 0xc0 then unpackText (n - 0xa0) s
    else if 0xe0 ≤ n then (Object.ofInt (n - 2 ^ 8)).map (·, s)
    else unpackTagged (unpackArray (unpackAt d)) s n

def codec : Codec where
  pack   := pack
  unpack := fun bytes offset =>
    (unpackAt (bytes.length - offset) (bytes.drop offset)).map (fun (o, s) => (o, bytes.length - s.length))

/-! ## The round trip -/

theorem doubleOfBits_toBits (x : Float) : doubleOfBits x.toBits = x := by
  unfold doubleOfBits
  exact dif_pos x.toModel.valid

theorem unpackUnsigned_bigEndian {k : Nat} {n : UInt64} (h : n.toNat < 256 ^ k) (s : List UInt8) :
    unpackUnsigned k (bigEndian k n.toNat ++ s) = some (.posInt n, s) := by
  unfold unpackUnsigned
  rw [readNumber_bigEndian h, Option.bind_some, Object.ofInt_toNat, Option.map_some]

theorem unpackText_append (a : List Char) (s : List UInt8) :
    unpackText (utf8 a).length (utf8 a ++ s) = some (.str a, s) := by
  unfold unpackText
  rw [takeBytes_append, Option.bind_some, fromUtf8_utf8, Option.map_some]

theorem sized_bigEndian {body : Nat → List UInt8 → Option (Object × List UInt8)} {k n : Nat} (h : n < 256 ^ k)
    (s : List UInt8) : sized body k (bigEndian k n ++ s) = body n s := by
  unfold sized
  rw [readNumber_bigEndian h, Option.bind_some]

theorem unpackSigned_bigEndian {k : Nat} {n : Int64} (hneg : n < 0) (hk : 0 < k) (h : -2 ^ (8 * k - 1) ≤ n.toInt)
    (s : List UInt8) : unpackSigned k (bigEndian k (n.toInt + 2 ^ (8 * k)).toNat ++ s) = some (.negInt n hneg, s) := by
  have hlt : n.toInt < 0 := by
    have hlt := Int64.lt_iff_toInt_lt.1 hneg
    rwa [Int64.toInt_zero] at hlt
  have hpow : (2 : Int) ^ (8 * k) = 2 * 2 ^ (8 * k - 1) := by
    rw [← pow_succ']
    congr 1
    omega
  have hhalf : (0 : Int) < 2 ^ (8 * k - 1) := Int.pow_pos (by decide)
  have hnat : ((n.toInt + 2 ^ (8 * k)).toNat : Int) = n.toInt + 2 ^ (8 * k) := Int.toNat_of_nonneg (by omega)
  have hbound : (n.toInt + 2 ^ (8 * k)).toNat < 256 ^ k := by
    have h256 : ((256 ^ k : Nat) : Int) = 2 ^ (8 * k) := by
      rw [Int.natCast_pow, pow_mul]
      rfl
    have hlt256 : n.toInt + 2 ^ (8 * k) < ((256 ^ k : Nat) : Int) := by omega
    exact Int.ofNat_lt.1 (by rwa [hnat])
  have hge : ¬ (n.toInt + 2 ^ (8 * k)).toNat < 2 ^ (8 * k - 1) := by
    intro hlow
    have hlow' : ((n.toInt + 2 ^ (8 * k)).toNat : Int) < 2 ^ (8 * k - 1) := by exact_mod_cast hlow
    omega
  unfold unpackSigned
  rw [readNumber_bigEndian hbound, Option.bind_some, if_neg hge, hnat, add_sub_cancel_right, Object.ofInt_toInt hneg,
    Option.map_some]

theorem unpackAt_byte (d : Nat) {n : Nat} (hn : n < 2 ^ 8) (s : List UInt8) :
    unpackAt (d + 1) (UInt8.ofNat n :: s) =
      if n < 0x80 then (Object.ofInt n).map (·, s)
      else if n < 0x90 then none
      else if n < 0xa0 then unpackArray (unpackAt d) (n - 0x90) s
      else if n < 0xc0 then unpackText (n - 0xa0) s
      else if 0xe0 ≤ n then (Object.ofInt (n - 2 ^ 8)).map (·, s)
      else unpackTagged (unpackArray (unpackAt d)) s n := by
  have hbyte : (UInt8.ofNat n).toNat = n := UInt8.toNat_ofNat_of_lt' hn
  rw [unpackAt, hbyte]

theorem unpackAt_packUnsigned (d : Nat) (n : UInt64) (s : List UInt8) :
    unpackAt (d + 1) (packUnsigned n.toNat ++ s) = some (.posInt n, s) := by
  unfold packUnsigned
  by_cases h7 : n.toNat < 2 ^ 7
  · rw [if_pos h7, List.singleton_append, unpackAt_byte d (by omega), if_pos (show n.toNat < 0x80 from h7),
      Object.ofInt_toNat, Option.map_some]
  · rw [if_neg h7]
    split
    · rename_i h
      exact unpackUnsigned_bigEndian (k := 1) h s
    · split
      · rename_i h
        exact unpackUnsigned_bigEndian (k := 2) h s
      · split
        · rename_i h
          exact unpackUnsigned_bigEndian (k := 4) h s
        · exact unpackUnsigned_bigEndian (k := 8) n.toNat_lt s

theorem unpackAt_packSigned (d : Nat) {n : Int64} (hneg : n < 0) (s : List UInt8) :
    unpackAt (d + 1) (packSigned n.toInt ++ s) = some (.negInt n hneg, s) := by
  have hlt : n.toInt < 0 := by
    have hlt := Int64.lt_iff_toInt_lt.1 hneg
    rwa [Int64.toInt_zero] at hlt
  unfold packSigned
  by_cases h5 : -2 ^ 5 ≤ n.toInt
  · have hcast : ((n.toInt + 2 ^ 8).toNat : Int) - 2 ^ 8 = n.toInt := by omega
    rw [if_pos h5, List.singleton_append, unpackAt_byte d (by omega), if_neg (by omega), if_neg (by omega),
      if_neg (by omega), if_neg (by omega), if_pos (by omega), hcast, Object.ofInt_toInt hneg, Option.map_some]
  · rw [if_neg h5]
    split
    · rename_i h
      exact unpackSigned_bigEndian (k := 1) hneg (by decide) h s
    · split
      · rename_i h
        exact unpackSigned_bigEndian (k := 2) hneg (by decide) h s
      · split
        · rename_i h
          exact unpackSigned_bigEndian (k := 4) hneg (by decide) h s
        · exact unpackSigned_bigEndian (k := 8) hneg (by decide) n.le_toInt s

theorem unpackAt_packText (d : Nat) {a : List Char} {bytes : List UInt8} (h : packText (utf8 a) = some bytes)
    (s : List UInt8) : unpackAt (d + 1) (bytes ++ s) = some (.str a, s) := by
  have hsized : ∀ k, (utf8 a).length < 256 ^ k →
      sized unpackText k (bigEndian k (utf8 a).length ++ (utf8 a ++ s)) = some (.str a, s) := fun k hk => by
    rw [sized_bigEndian hk, unpackText_append]
  unfold packText at h
  by_cases h5 : (utf8 a).length < 2 ^ 5
  · rw [if_pos h5] at h
    obtain rfl := Option.some.inj h
    rw [List.cons_append, unpackAt_byte d (by omega), if_neg (by omega), if_neg (by omega), if_neg (by omega),
      if_pos (by omega), Nat.add_sub_cancel_left, unpackText_append]
  · rw [if_neg h5] at h
    split at h
    · rename_i hlt
      obtain rfl := Option.some.inj h
      rw [List.cons_append, List.cons_append, List.append_assoc]
      exact hsized 1 hlt
    · split at h
      · rename_i hlt
        obtain rfl := Option.some.inj h
        rw [List.cons_append, List.cons_append, List.append_assoc]
        exact hsized 2 hlt
      · split at h
        · rename_i hlt
          obtain rfl := Option.some.inj h
          rw [List.cons_append, List.cons_append, List.append_assoc]
          exact hsized 4 hlt
        · cases h

theorem unpackItems_flatten {item : List UInt8 → Option (Object × List UInt8)} : ∀ {os : List Object}
    {parts : List (List UInt8)}, List.Forall₂ (fun o part => ∀ s, item (part ++ s) = some (o, s)) os parts →
    ∀ s, unpackItems item os.length (parts.flatten ++ s) = some (os, s)
  | [],      _, .nil,         s => rfl
  | o :: os, _, .cons hpart hparts, s => by
    have hrest := unpackItems_flatten hparts s
    rw [List.length_cons, unpackItems, List.flatten_cons, List.append_assoc, hpart, Option.bind_eq_bind, Option.bind_some]
    show (unpackItems item os.length _).bind _ = _
    rw [hrest]
    rfl

theorem unpackAt_packSize (d : Nat) {n : Nat} (hn : n < 2 ^ 32) (s : List UInt8) :
    unpackAt (d + 1) (packSize n ++ s) = unpackArray (unpackAt d) n s := by
  unfold packSize
  by_cases h4 : n < 2 ^ 4
  · rw [if_pos h4, List.singleton_append, unpackAt_byte d (by omega), if_neg (by omega), if_neg (by omega),
      if_pos (by omega), Nat.add_sub_cancel_left]
  · rw [if_neg h4]
    split
    · rename_i h
      show sized (unpackArray (unpackAt d)) 2 (bigEndian 2 n ++ s) = _
      exact sized_bigEndian h s
    · show sized (unpackArray (unpackAt d)) 4 (bigEndian 4 n ++ s) = _
      exact sized_bigEndian hn s

theorem packUnsigned_ne_nil (n : Nat) : packUnsigned n ≠ [] := by
  unfold packUnsigned
  split_ifs <;> exact List.cons_ne_nil _ _

theorem packSigned_ne_nil (n : Int) : packSigned n ≠ [] := by
  unfold packSigned
  split_ifs <;> exact List.cons_ne_nil _ _

theorem length_packSize_pos (n : Nat) : 0 < (packSize n).length := by
  unfold packSize
  split_ifs <;> exact Nat.succ_pos _

theorem pack_ne_nil {o : Object} {bytes : List UInt8} (h : pack o = some bytes) : bytes ≠ [] := by
  rintro rfl
  cases o with
  | nil | bool _ | float _ => exact absurd (Option.some.inj h) (List.cons_ne_nil _ _)
  | posInt n => exact packUnsigned_ne_nil _ (Option.some.inj h)
  | negInt n neg => exact packSigned_ne_nil _ (Option.some.inj h)
  | str a =>
    simp only [pack, packText] at h
    split_ifs at h <;> exact absurd (Option.some.inj h) (List.cons_ne_nil _ _)
  | array n p =>
    obtain ⟨parts, -, hparts⟩ := Option.map_eq_some_iff.1 h
    have hpos := length_packSize_pos n.toNat
    rw [(List.append_eq_nil_iff.1 hparts).1] at hpos
    exact absurd hpos (Nat.lt_irrefl 0)
  | bin _ | map _ _ _ | ext _ _ => exact nomatch h

theorem depth_of_pack {o : Object} {bytes : List UInt8} (h : pack o = some bytes) {d : Nat} (hd : bytes.length ≤ d) :
    ∃ d', d = d' + 1 :=
  Nat.exists_eq_succ_of_ne_zero (Nat.ne_of_gt (Nat.lt_of_lt_of_le (List.length_pos_of_ne_nil (pack_ne_nil h)) hd))

theorem length_le_flatten {part : List UInt8} {parts : List (List UInt8)} (h : part ∈ parts) :
    part.length ≤ parts.flatten.length :=
  (List.sublist_flatten_of_mem h).length_le

theorem unpackAt_double (d : Nat) (s : List UInt8) : unpackAt (d + 1) (0xcb :: s) =
    (readNumber 8 s).map (fun x => (.float (doubleOfBits (UInt64.ofNat x.1)), x.2)) := rfl

/-- **A packed object is unpacked again.** -/
theorem unpackAt_pack {o : Object} : ∀ {bytes : List UInt8}, pack o = some bytes → ∀ d, bytes.length ≤ d →
    ∀ s, unpackAt d (bytes ++ s) = some (o, s) := by
  induction o with
  | nil =>
    intro bytes h d hd s
    obtain ⟨d, rfl⟩ := depth_of_pack h hd
    obtain rfl := Option.some.inj h
    rfl
  | bool b =>
    intro bytes h d hd s
    obtain ⟨d, rfl⟩ := depth_of_pack h hd
    obtain rfl := Option.some.inj h
    cases b <;> rfl
  | posInt n =>
    intro bytes h d hd s
    obtain ⟨d, rfl⟩ := depth_of_pack h hd
    obtain rfl := Option.some.inj h
    exact unpackAt_packUnsigned d n s
  | negInt n neg =>
    intro bytes h d hd s
    obtain ⟨d, rfl⟩ := depth_of_pack h hd
    obtain rfl := Option.some.inj h
    exact unpackAt_packSigned d neg s
  | float x =>
    intro bytes h d hd s
    obtain ⟨d, rfl⟩ := depth_of_pack h hd
    obtain rfl := Option.some.inj h
    rw [List.cons_append, unpackAt_double, readNumber_bigEndian x.toBits.toNat_lt, Option.map_some, UInt64.ofNat_toNat, doubleOfBits_toBits]
  | str a =>
    intro bytes h d hd s
    obtain ⟨d, rfl⟩ := depth_of_pack h hd
    exact unpackAt_packText d h s
  | array n p ih =>
    intro bytes h d hd s
    obtain ⟨d, rfl⟩ := depth_of_pack h hd
    obtain ⟨parts, hparts, rfl⟩ := Option.map_eq_some_iff.1 h
    have hpos := length_packSize_pos n.toNat
    rw [List.length_append] at hd
    have hpack := forall₂_of_mapM_some hparts
    have hitems : List.Forall₂ (fun o part => ∀ s, unpackAt d (part ++ s) = some (o, s)) (List.ofFn p) parts := by
      rw [List.forall₂_iff_get] at hpack ⊢
      obtain ⟨hlen, hget⟩ := hpack
      rw [List.length_ofFn] at hlen
      refine ⟨by rw [List.length_ofFn, hlen], fun i hi hi' s => ?_⟩
      have hpart := hget i (by simpa using hi) hi'
      have hle := length_le_flatten (List.get_mem parts ⟨i, hi'⟩)
      simp only [List.get_eq_getElem, List.getElem_ofFn] at hpart hle ⊢
      exact ih _ hpart d (by omega) s
    have hunpack := unpackItems_flatten hitems s
    rw [List.length_ofFn] at hunpack
    rw [List.append_assoc, unpackAt_packSize d n.toNat_lt]
    unfold unpackArray
    rw [hunpack, Option.bind_some, Object.ofList_ofFn, Option.map_some]
  | bin _ | map _ _ _ | ext _ _ => exact fun h => nomatch h

/-- **The format is correct.** -/
theorem codec_correct : codec.Correct := by
  intro before o bytes after h
  show (unpackAt _ _).map _ = _
  have hdrop : (before ++ bytes ++ after).drop before.length = bytes ++ after := by
    rw [List.append_assoc, List.drop_left]
  have hlen : (before ++ bytes ++ after).length - before.length = bytes.length + after.length := by
    rw [List.length_append, List.length_append]
    omega
  rw [hdrop, hlen, unpackAt_pack h _ (Nat.le_add_right _ _), Option.map_some]
  show some (o, (before ++ bytes ++ after).length - after.length) = _
  rw [List.length_append, List.length_append, Nat.add_sub_cancel]

end Msgpack
