import MeteredLedger.Json.Parse

/-!
# JSON forms

A type has a JSON form when its values are written as JSON values (`toJson`) and
some JSON values are read back as them (`ofJson?`). Lists are arrays; an absent
value is null. A record is an object of its fields in order, and is read from an
object, in any order and with members that it does not know, or from an array of
exactly its fields in order (`fields?`). Reading refuses a known key that occurs
twice.
-/

namespace MeteredLedger

/-- Types whose values have a JSON form. -/
class JsonForm (α : Type) where
  /-- The form of a value. -/
  toJson : α → Json
  /-- The value that has, or may be written in, this form. -/
  ofJson? : Json → Option α

export JsonForm (toJson ofJson?)

namespace Json

/-! ### Numbers, lists and absent values -/

/-- A number from zero up to a bound, the bound excluded. -/
def natBelow? (bound : Nat) : Json → Option Nat
  | .integer (.ofNat n) => if n < bound then some n else none
  | _ => none

/-- The number of a natural number. -/
def ofNat (n : Nat) : Json := .integer n

/-- The values of an array, each read as `read` says. -/
def list? {α : Type} (read : Json → Option α) : Json → Option (List α)
  | .array js => js.mapM read
  | _ => none

end Json

instance : JsonForm UInt8 where
  toJson n := .ofNat n.toNat
  ofJson? j := UInt8.ofNat <$> j.natBelow? UInt8.size

instance : JsonForm UInt64 where
  toJson n := .ofNat n.toNat
  ofJson? j := UInt64.ofNat <$> j.natBelow? UInt64.size

instance {w : Nat} : JsonForm (BitVec w) where
  toJson n := .ofNat n.toNat
  ofJson? j := BitVec.ofNat w <$> j.natBelow? ((BitVec.allOnes w).toNat + 1)

instance {α : Type} [JsonForm α] : JsonForm (List α) where
  toJson xs := .array (xs.map toJson)
  ofJson? := Json.list? ofJson?

instance {α : Type} [JsonForm α] : JsonForm (Option α) where
  toJson
    | none => .null
    | some a => toJson a
  ofJson?
    | .null => some none
    | j => some <$> ofJson? j

namespace Json

/-! ### Records -/

/-- The values of the members with a key, in order. -/
def membersWith (key : String) (members : List (Option String × Json)) : List Json :=
  members.filterMap fun (k, j) => if k = some key then some j else none

/-- The value of a field that an object may have once. -/
def onlyMember? (members : List (Option String × Json)) (key : String) : Option (Option Json) :=
  match membersWith key members with
  | [] => some none
  | [j] => some (some j)
  | _ => none

/-- The values of the fields of a record: none for a field that is not there, and
no answer at all if the value is no form of a record with these fields. -/
def fields? (names : List String) : Json → Option (List (Option Json))
  | .object members =>
    if members.all fun m => m.1.isSome then names.mapM (onlyMember? members) else none
  | .array js => if js.length = names.length then some (js.map some) else none
  | _ => none

/-- A field that has to be there. -/
def required? {α : Type} [JsonForm α] : Option Json → Option α
  | some j => ofJson? j
  | none => none

/-- A field that may be missing, like null. -/
def optional? {α : Type} [JsonForm α] : Option Json → Option (Option α)
  | some j => ofJson? j
  | none => some none

/-- The value that a text spells, in the JSON form of its type. -/
def read? {α : Type} [JsonForm α] (text : String) : Option α := parse text >>= ofJson?

/-- The text of a value in the JSON form of its type. -/
def write {α : Type} [JsonForm α] (a : α) : String := (toJson a).render

end Json

end MeteredLedger
