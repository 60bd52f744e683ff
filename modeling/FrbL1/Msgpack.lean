import FrbL1.Fallible
import Mathlib.Algebra.Group.Int.Defs
import Mathlib.Algebra.Group.Nat.Defs
import Mathlib.Data.List.Forall2
/-!
# Msgpack — unpacked objects and their conversions

An object is a tagged union.  Its array member is read with `size` and `elem`, which are undefined for an object of any
other type; the conversions `asString`, `asInt`, … test the type first and throw a type error.  A `Shape` says what an
object has to look like for a conversion, and each conversion accepts exactly the objects of its shape (`Converts`).
-/
namespace Msgpack

inductive Object
  | nil
  | bool (b : Bool)
  | posInt (n : UInt64)
  | negInt (n : Int64) (neg : n < 0)
  | float (x : Float)
  | str (s : List Char)
  | bin (s : List Char)
  | array (size : UInt32) (ptr : Fin size.toNat → Object)
  | map (size : UInt32) (key val : Fin size.toNat → Object)
  | ext (type : Int8) (data : List Char)

inductive Fault
  | typeError
  | undefined     -- the member of another variant is read, or an element that is not there
  deriving DecidableEq

/-! ## Floating-point numbers -/

open Float.Model in
def roundTo (format : Format) : UnpackedFloat → UnpackedFloat
  | .finite sign mantissa exponent _ => UnpackedFloat.round format sign mantissa exponent
  | x                                => x

def castFloat (x : Float) : Float32 := .ofModel (.pack (roundTo .binary32 x.toModel.unpack))

def castDouble (x : Float32) : Float := .ofModel (.pack (roundTo .binary64 x.toModel.unpack))

namespace Object

/-! ## The array member -/

/-- `via.array.size` -/
def size : Object → Except Fault UInt32
  | array n _ => .ok n
  | _         => .error .undefined

/-- `via.array.ptr[i]` -/
def elem (i : Nat) : Object → Except Fault Object
  | array n p => if h : i < n.toNat then .ok (p ⟨i, h⟩) else .error .undefined
  | _         => .error .undefined

/-! ## Conversions -/

def asString : Object → Except Fault (List Char)
  | str s | bin s => .ok s
  | _             => .error .typeError

def asBool : Object → Except Fault Bool
  | bool b => .ok b
  | _      => .error .typeError

def asInt : Object → Except Fault Int
  | posInt n   => if n.toNat < 2 ^ 31 then .ok n.toNat else .error .typeError
  | negInt n _ => if -2 ^ 31 ≤ n.toInt then .ok n.toInt else .error .typeError
  | _          => .error .typeError

def asUint32 : Object → Except Fault UInt32
  | posInt n => if n.toNat < 2 ^ 32 then .ok n.toUInt32 else .error .typeError
  | _        => .error .typeError

def asUint64 : Object → Except Fault UInt64
  | posInt n => .ok n
  | _        => .error .typeError

def asFloat : Object → Except Fault Float32
  | float x    => .ok (castFloat x)
  | posInt n   => .ok n.toFloat32
  | negInt n _ => .ok n.toFloat32
  | _          => .error .typeError

def asDouble : Object → Except Fault Float
  | float x    => .ok x
  | posInt n   => .ok n.toFloat
  | negInt n _ => .ok n.toFloat
  | _          => .error .typeError

def asVector {α : Type} (as : Object → Except Fault α) : Object → Except Fault (List α)
  | array _ p => (List.ofFn p).mapM as
  | _         => .error .typeError

end Object

/-! ## Shapes -/

inductive Shape
  | string
  | bool
  | int
  | double
  | vector (s : Shape)

def Object.Has : Shape → Object → Prop
  | .string,   .str _ | .string, .bin _                         => True
  | .bool,     .bool _                                          => True
  | .int,      .posInt n                                        => n.toNat < 2 ^ 31
  | .int,      .negInt n _                                      => -2 ^ 31 ≤ n.toInt
  | .double,   .float _ | .double, .posInt _ | .double, .negInt _ _ => True
  | .vector s, .array _ p                                       => ∀ i, (p i).Has s
  | _,         _                                                => False

def Object.HasElems (ss : List Shape) : Object → Prop
  | array _ p => List.Forall₂ (fun e s => e.Has s) (List.ofFn p) ss
  | _         => False

def Object.IsArray : Object → Prop
  | array _ _ => True
  | _         => False

theorem Object.HasElems.size_eq {ss : List Shape} {n : UInt32} {p : Fin n.toNat → Object}
    (h : (Object.array n p).HasElems ss) : n.toNat = ss.length := by
  simpa using h.length_eq

theorem Object.size_of_not_isArray {o : Object} (h : ¬ o.IsArray) : o.size = .error .undefined := by
  cases o <;> first | rfl | exact absurd trivial h

/-- The conversion accepts the objects of the shape, and throws a type error for any other. -/
structure Converts {α : Type} (as : Object → Except Fault α) (s : Shape) : Prop where
  ok    : ∀ o, o.Has s → ∃ a, as o = .ok a
  error : ∀ o, ¬ o.Has s → as o = .error .typeError

theorem converts_string : Converts Object.asString .string where
  ok    := fun o h => by cases o <;> first | exact ⟨_, rfl⟩ | exact h.elim
  error := fun o h => by cases o <;> first | rfl | exact absurd trivial h

theorem converts_bool : Converts Object.asBool .bool where
  ok    := fun o h => by cases o <;> first | exact ⟨_, rfl⟩ | exact h.elim
  error := fun o h => by cases o <;> first | rfl | exact absurd trivial h

theorem converts_double : Converts Object.asDouble .double where
  ok    := fun o h => by cases o <;> first | exact ⟨_, rfl⟩ | exact h.elim
  error := fun o h => by cases o <;> first | rfl | exact absurd trivial h

theorem converts_int : Converts Object.asInt .int where
  ok    := fun o h => by
    cases o with
    | posInt n => exact ⟨_, if_pos h⟩
    | negInt n neg => exact ⟨_, if_pos h⟩
    | _ => exact h.elim
  error := fun o h => by
    cases o with
    | posInt n => exact if_neg h
    | negInt n neg => exact if_neg h
    | _ => rfl

section
variable {α : Type} {as : Object → Except Fault α} {s : Shape}

theorem Converts.mapM_error (hc : Converts as s) : ∀ os : List Object, ¬ (∀ o ∈ os, o.Has s) →
    os.mapM as = .error .typeError
  | [], h => absurd (fun _ ho => nomatch ho) h
  | o :: os, h => by
    rw [List.mapM_cons]
    by_cases ho : o.Has s
    · obtain ⟨a, ha⟩ := hc.ok o ho
      rw [ha, hc.mapM_error os (fun hall => h (List.forall_mem_cons.2 ⟨ho, hall⟩))]
      rfl
    · rw [hc.error o ho]
      rfl

theorem Converts.vector (hc : Converts as s) : Converts (Object.asVector as) (.vector s) where
  ok    := fun o h => by
    cases o with
    | array n p =>
      refine Fallible.mapM_ok (fun o' ho' => ?_)
      obtain ⟨i, rfl⟩ := List.mem_ofFn.1 ho'
      exact hc.ok _ (h i)
    | _ => exact h.elim
  error := fun o h => by
    cases o with
    | array n p => exact hc.mapM_error _ (fun hall => h (fun i => hall _ (List.mem_ofFn.2 ⟨i, rfl⟩)))
    | _ => rfl

end

end Msgpack
