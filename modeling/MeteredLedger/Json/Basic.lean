/-!
# JSON values

A value keeps what its text says: members in their order, whole numbers in full,
any other number as it is spelled. A string whose escapes leave half of a
surrogate pair alone has no text (`broken`, and `none` as the key of a member);
such a string may stand where nobody reads it. `Json.render` writes a value
without blanks.
-/

namespace MeteredLedger

/-- A JSON value. -/
inductive Json where
  | null
  | bool (b : Bool)
  /-- A whole number, written without fraction and exponent. -/
  | integer (n : Int)
  /-- Any other number, as it is spelled; minus zero is one of them. -/
  | decimal (text : String)
  | string (s : String)
  /-- A string without a text. -/
  | broken
  | array (elements : List Json)
  /-- An object; a member whose key has no text has key none. -/
  | object (members : List (Option String × Json))
  deriving Repr, Inhabited

namespace Json

/-! ### Writing -/

/-- The four hexadecimal digits of a number below 65536. -/
def hexQuad (n : Nat) : List Char :=
  let digit (k : Nat) := if k < 10 then Char.ofNat (48 + k) else Char.ofNat (87 + k)
  [digit (n / 4096 % 16), digit (n / 256 % 16), digit (n / 16 % 16), digit (n % 16)]

/-- A character inside of a string. -/
def escape (c : Char) : List Char :=
  if c = '"' then ['\\', '"']
  else if c = '\\' then ['\\', '\\']
  else if c = '\x08' then ['\\', 'b']
  else if c = '\x0c' then ['\\', 'f']
  else if c = '\n' then ['\\', 'n']
  else if c = '\r' then ['\\', 'r']
  else if c = '\t' then ['\\', 't']
  else if c.toNat < 32 then '\\' :: 'u' :: hexQuad c.toNat
  else [c]

/-- A string with its quotes. -/
def renderString (s : String) : List Char := '"' :: (s.toList.flatMap escape ++ ['"'])

/-- The decimal digits of a number. -/
def renderNat (n : Nat) : List Char := Nat.toDigits 10 n

/-- A whole number. -/
def renderInt : Int → List Char
  | .ofNat n => renderNat n
  | .negSucc n => '-' :: renderNat (n + 1)

mutual

/-- The characters of a value, without blanks. -/
def renderChars : Json → List Char
  | null => ['n', 'u', 'l', 'l']
  | bool true => ['t', 'r', 'u', 'e']
  | bool false => ['f', 'a', 'l', 's', 'e']
  | integer n => renderInt n
  | decimal text => text.toList
  | string s => renderString s
  | broken => ['"', '\\', 'u', 'd', '8', '0', '0', '"']
  | array [] => ['[', ']']
  | array (j :: js) => '[' :: (renderChars j ++ renderMore js)
  | object [] => ['\x7b', '\x7d']
  | object (m :: ms) => '\x7b' :: (renderMember m ++ renderMoreMembers ms)

/-- The further elements of an array, each behind a comma, and its end. -/
def renderMore : List Json → List Char
  | [] => [']']
  | j :: js => ',' :: (renderChars j ++ renderMore js)

/-- A member of an object. -/
def renderMember : Option String × Json → List Char
  | (some key, j) => renderString key ++ ':' :: renderChars j
  | (none, j) => renderChars broken ++ ':' :: renderChars j

/-- The further members of an object, each behind a comma, and its end. -/
def renderMoreMembers : List (Option String × Json) → List Char
  | [] => ['\x7d']
  | m :: ms => ',' :: (renderMember m ++ renderMoreMembers ms)

end

/-- The text of a value, without blanks. -/
def render (j : Json) : String := String.ofList j.renderChars

/-! ### Building and reading -/

/-- An object with these members. -/
def ofFields (fields : List (String × Json)) : Json :=
  .object (fields.map fun (key, j) => (some key, j))

/-- The first member with a key. -/
def field? (key : String) : Json → Option Json
  | .object members => (members.find? fun m => m.1 == some key).map (·.2)
  | _ => none

end Json

end MeteredLedger
