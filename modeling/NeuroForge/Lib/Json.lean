/-
  JSON values, and codecs that read back what they write.

  An integer and a float are different values, as they are in JSON text; floats are finite
  and exact. An object is the list of its fields in order. A `Json.Codec` carries its own
  round trip, so that the codec of a record is a list of field codecs and nothing is left
  to prove about the fields.
-/
import Mathlib.Data.Rat.Cast.Defs
import NeuroForge.Lib.Dict
import NeuroForge.Lib.Fallible

inductive Json where
  | null
  | bool (b : Bool)
  | int (z : ℤ)
  | float (q : ℚ)
  | str (s : String)
  | arr (items : List Json)
  | obj (fields : List (String × Json))

namespace Json

open Fallible

/-- Where a value does not fit its type, and why. -/
structure Misfit where
  loc : String
  msg : String
  deriving DecidableEq

/-- A type's JSON form and the reader that gives the value back. -/
structure Codec (α : Type) where
  encode : α → Json
  decode : Json → Except Misfit α
  roundtrip : ∀ a, decode (encode a) = .ok a

namespace Codec

variable {α : Type}

/-- A value of any type. -/
def any : Codec Json where
  encode j := j
  decode j := .ok j
  roundtrip _ := rfl

def bool : Codec Bool where
  encode b := .bool b
  decode
    | .bool b => .ok b
    | _ => .error ⟨"", "Input should be a valid boolean"⟩
  roundtrip _ := rfl

def str : Codec String where
  encode s := .str s
  decode
    | .str s => .ok s
    | _ => .error ⟨"", "Input should be a valid string"⟩
  roundtrip _ := rfl

/-- An integer is a number too. -/
def float : Codec ℚ where
  encode q := .float q
  decode
    | .float q => .ok q
    | .int z => .ok z
    | _ => .error ⟨"", "Input should be a valid number"⟩
  roundtrip _ := rfl

def nat : Codec ℕ where
  encode n := .int n
  decode
    | .int (.ofNat n) => .ok n
    | _ => .error ⟨"", "Input should be a valid integer"⟩
  roundtrip _ := rfl

def int : Codec ℤ where
  encode z := .int z
  decode
    | .int z => .ok z
    | _ => .error ⟨"", "Input should be a valid integer"⟩
  roundtrip _ := rfl

/-- A list, item by item. -/
def list (c : Codec α) : Codec (List α) where
  encode as := .arr (as.map c.encode)
  decode
    | .arr items => items.mapM c.decode
    | _ => .error ⟨"", "Input should be a valid list"⟩
  roundtrip as := mapM_map_self as c.roundtrip

/-- A value or `null`, for values that are not written as `null` themselves. -/
def nullable (c : Codec α) (h : ∀ a, c.encode a ≠ .null) : Codec (Option α) where
  encode a := a.elim .null c.encode
  decode
    | .null => .ok none
    | j => (c.decode j).map some
  roundtrip a := by
    cases a with
    | none => rfl
    | some a =>
        show (match c.encode a with
          | .null => Except.ok none
          | j => (c.decode j).map some) = .ok (some a)
        split
        · rename_i hnull
          exact absurd hnull (h a)
        · rw [c.roundtrip]
          rfl

/-- The fields of an object. -/
def fieldsOf : Json → Except Misfit (Dict String Json)
  | .obj fields => .ok fields
  | _ => .error ⟨"", "Input should be a valid dictionary"⟩

/-- The entries of a dictionary, each written by `c`. -/
def encodeEntries (c : Codec α) (d : Dict String α) : Dict String Json :=
  d.map fun e => (e.1, c.encode e.2)

/-- The entries of an object, each read by `c`. -/
def decodeEntries (c : Codec α) : Dict String Json → Except Misfit (Dict String α)
  | [] => .ok []
  | (key, j) :: fields => do
      let a ← c.decode j
      let d ← decodeEntries c fields
      return (key, a) :: d

theorem decodeEntries_encodeEntries (c : Codec α) (d : Dict String α) :
    c.decodeEntries (c.encodeEntries d) = .ok d := by
  induction d with
  | nil => rfl
  | cons e d ih =>
      have hcons : c.encodeEntries (e :: d) = (e.1, c.encode e.2) :: c.encodeEntries d := rfl
      rw [hcons, decodeEntries, c.roundtrip, ok_bind, ih]
      rfl

/-- A dictionary with text keys, one field an entry. -/
def dict (c : Codec α) : Codec (Dict String α) where
  encode d := .obj (c.encodeEntries d)
  decode j := fieldsOf j >>= c.decodeEntries
  roundtrip := c.decodeEntries_encodeEntries

/-- A required field. -/
def field (c : Codec α) (fields : Dict String Json) (name : String) : Except Misfit α :=
  match Dict.get? fields name with
  | some j => c.decode j
  | none => .error ⟨name, "Field required"⟩

/-- A field with a default. -/
def fieldD (c : Codec α) (fields : Dict String Json) (name : String) (default : α) :
    Except Misfit α :=
  match Dict.get? fields name with
  | some j => c.decode j
  | none => .ok default

theorem field_encode {c : Codec α} {fields : Dict String Json} {name : String} {a : α}
    (h : Dict.get? fields name = some (c.encode a)) : c.field fields name = .ok a := by
  rw [field, h]
  exact c.roundtrip a

theorem fieldD_encode {c : Codec α} {fields : Dict String Json} {name : String} {a : α}
    (default : α) (h : Dict.get? fields name = some (c.encode a)) :
    c.fieldD fields name default = .ok a := by
  rw [fieldD, h]
  exact c.roundtrip a

end Codec

end Json
