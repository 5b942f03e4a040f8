import MeteredLedger.Params.Json
import MeteredLedger.Toml.Parse

/-!
# Parameters as TOML

A TOML document describes the parameters that its table describes as a JSON value
(`Toml.Value.toJson`); a moment there is an object that has no known field.
Written, the plain fields come first and each table of costs follows behind a
blank line. Whole numbers of TOML have a sign and 64 bits, so that parameters
above `2 ^ 63 - 1` cannot be written.
-/

namespace MeteredLedger

namespace Toml

mutual

/-- A TOML value as a JSON value. -/
def Value.toJson : Value → Json
  | .string s => .string s
  | .integer n => .integer n
  | .float text => .decimal text
  | .boolean b => .bool b
  | .moment text => .object [(some "$moment", .string text)]
  | .array vs => .array (listToJson vs)
  | .table ms => .object (membersToJson ms)

/-- Values as JSON values. -/
def listToJson : List Value → List Json
  | [] => []
  | v :: vs => v.toJson :: listToJson vs

/-- Members as members. -/
def membersToJson : List (String × Value) → List (Option String × Json)
  | [] => []
  | (key, v) :: ms => (some key, v.toJson) :: membersToJson ms

end

/-- A field of a table, if its value can be written. -/
def fieldLine? (name : String) (n : Gas) : Option String :=
  if n.toNat ≤ largestInteger then some (name ++ " = " ++ toString n.toNat ++ "\n") else none

/-- Fields of a table, if their values can be written. -/
def fieldLines? (fields : List (String × Gas)) : Option String :=
  String.join <$> fields.mapM fun (name, n) => fieldLine? name n

/-- A table with its heading, behind an empty line, if its values can be written. -/
def tableText? (name : String) (fields : List (String × Gas)) : Option String := do
  let lines ← fieldLines? fields
  some ("\n[" ++ name ++ "]\n" ++ lines)

end Toml

namespace Params

/-- The parameters that a TOML document describes. -/
def ofTomlText? (text : String) : Option Params := do
  let ms ← Toml.parse text
  ofTree? .ignored (.object (Toml.membersToJson ms))

/-- Parameters as a TOML document, if they can be written. -/
def toTomlText? (p : Params) : Option String := do
  let plain ← Toml.fieldLines? p.plainFields
  let tables ← p.tables.mapM fun (name, fields) => Toml.tableText? name fields
  some (plain ++ String.join tables)

end Params

end MeteredLedger
