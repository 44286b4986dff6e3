import Mathlib.Data.List.Basic

/-!
# JSON values

`ofFields` builds an object the way a serializer does: a field without a value is
not written. `get?` and the readers are what a decoder sees of the result; for `fieldD` a
field that is missing or `null` has a value of its own.
-/

namespace Minikura

inductive Json where
  | null
  | bool (b : Bool)
  | num (n : Int)
  | str (s : String)
  | arr (items : List Json)
  | obj (fields : List (String × Json))

namespace Json

/-- An object of the fields that have a value. -/
def ofFields (fields : List (String × Option Json)) : Json :=
  .obj (fields.filterMap fun f => f.2.map (f.1, ·))

def get? : Json → String → Option Json
  | .obj fields, key => fields.lookup key
  | _, _ => none

def str? : Json → Option String
  | .str s => some s
  | _ => none

def num? : Json → Option Int
  | .num n => some n
  | _ => none

def bool? : Json → Option Bool
  | .bool b => some b
  | _ => none

def arr? : Json → Option (List Json)
  | .arr items => some items
  | _ => none

def isNull : Json → Bool
  | .null => true
  | _ => false

/-- A field with a value other than `null`. -/
def field? (j : Json) (key : String) : Option Json := do
  let v ← j.get? key
  if v.isNull then none else some v

/-- The value read from a field, or the one that stands for a missing field. -/
def fieldD {α : Type} (j : Json) (key : String) (read : Json → Option α) (missing : α) :
    Option α :=
  match j.field? key with
  | none => some missing
  | some v => read v

/-- What is read has to be an object. -/
def readObject {α : Type} (read : Json → Option α) : Json → Option α
  | .obj fields => read (.obj fields)
  | _ => none

@[simp] theorem get?_ofFields_nil (key : String) : (ofFields []).get? key = none := rfl

@[simp] theorem get?_ofFields_cons (key k : String) (v : Option Json)
    (fields : List (String × Option Json)) :
    (ofFields ((k, v) :: fields)).get? key =
      if key = k then v <|> (ofFields fields).get? key else (ofFields fields).get? key := by
  cases v with
  | none => by_cases h : key = k <;> simp [ofFields, get?, h]
  | some j =>
    by_cases h : key = k
    · simp [ofFields, get?, h]
    · have hb : (key == k) = false := beq_false_of_ne h
      simp [ofFields, get?, h, List.lookup_cons, hb]

@[simp] theorem str?_str (s : String) : (str s).str? = some s := rfl
@[simp] theorem num?_num (n : Int) : (num n).num? = some n := rfl
@[simp] theorem bool?_bool (b : Bool) : (bool b).bool? = some b := rfl
@[simp] theorem arr?_arr (items : List Json) : (arr items).arr? = some items := rfl

@[simp] theorem readObject_ofFields {α : Type} (read : Json → Option α)
    (fields : List (String × Option Json)) :
    readObject read (ofFields fields) = read (ofFields fields) := rfl

@[simp] theorem isNull_str (s : String) : (str s).isNull = false := rfl
@[simp] theorem isNull_num (n : Int) : (num n).isNull = false := rfl
@[simp] theorem isNull_bool (b : Bool) : (bool b).isNull = false := rfl
@[simp] theorem isNull_arr (items : List Json) : (arr items).isNull = false := rfl

@[simp] theorem isNull_ofFields (fields : List (String × Option Json)) :
    (ofFields fields).isNull = false := rfl

end Json
end Minikura
