import MeteredLedger.Json.Basic

/-!
# Reading JSON

`Json.parse` reads one value with blanks around it and nothing behind. Numbers
have no leading zeros; a string holds no control characters, and of its escapes
`\u` takes four digits. Whether two halves of a surrogate pair belong together
is settled after a string is read (`joinParts`), as a string that is skipped need
not have a text.
-/

namespace MeteredLedger.Json

/-! ### Blanks, digits and words -/

/-- The characters that may stand between tokens. -/
def isBlank (c : Char) : Bool := c = ' ' || c = '\n' || c = '\t' || c = '\r'

/-- What follows the blanks. -/
def skipBlanks (cs : List Char) : List Char := cs.dropWhile isBlank

/-- Whether a character is a decimal digit. -/
def isDigit (c : Char) : Bool := '0' ≤ c && c ≤ '9'

/-- The number that decimal digits spell. -/
def ofDigits (ds : List Char) : Nat := ds.foldl (fun n c => 10 * n + (c.toNat - 48)) 0

/-- What follows a given word. -/
def dropWord : List Char → List Char → Option (List Char)
  | [], cs => some cs
  | w :: ws, c :: cs => if w = c then dropWord ws cs else none
  | _ :: _, [] => none

/-! ### Strings -/

/-- A piece of a string: a character, or a unit of a pair given by its number. -/
inductive Part where
  | char (c : Char)
  | unit (n : Nat)
  deriving DecidableEq, Repr

/-- The value of a hexadecimal digit. -/
def hexValue? (c : Char) : Option Nat :=
  if '0' ≤ c ∧ c ≤ '9' then some (c.toNat - 48)
  else if 'a' ≤ c ∧ c ≤ 'f' then some (c.toNat - 87)
  else if 'A' ≤ c ∧ c ≤ 'F' then some (c.toNat - 55)
  else none

/-- The number that four hexadecimal digits spell. -/
def quad? (a b c d : Char) : Option Nat := do
  let a ← hexValue? a
  let b ← hexValue? b
  let c ← hexValue? c
  let d ← hexValue? d
  some (((a * 16 + b) * 16 + c) * 16 + d)

/-- The character of a one-letter escape. -/
def unescape? (c : Char) : Option Char :=
  if c = '"' ∨ c = '\\' ∨ c = '/' then some c
  else if c = 'b' then some '\x08'
  else if c = 'f' then some '\x0c'
  else if c = 'n' then some '\n'
  else if c = 'r' then some '\r'
  else if c = 't' then some '\t'
  else none

/-- The pieces of a string whose opening quote has been read, behind the pieces
`before` in reverse, and what follows its closing quote. -/
def stringParts (before : List Part) : List Char → Option (List Part × List Char)
  | '"' :: rest => some (before.reverse, rest)
  | '\\' :: 'u' :: a :: b :: c :: d :: rest =>
    match quad? a b c d with
    | some n => stringParts (.unit n :: before) rest
    | none => none
  | '\\' :: c :: rest =>
    match unescape? c with
    | some c => stringParts (.char c :: before) rest
    | none => none
  | c :: rest => if c.toNat < 32 then none else stringParts (.char c :: before) rest
  | [] => none

/-- Whether a unit opens a pair. -/
def isHigh (n : Nat) : Bool := 0xd800 ≤ n && n < 0xdc00

/-- Whether a unit closes a pair. -/
def isLow (n : Nat) : Bool := 0xdc00 ≤ n && n < 0xe000

/-- The characters that the pieces of a string make, if no half of a pair is
left alone. -/
def joinParts : List Part → Option (List Char)
  | [] => some []
  | .char c :: rest => (c :: ·) <$> joinParts rest
  | .unit h :: .unit l :: rest =>
    if isHigh h then
      if isLow l then
        (Char.ofNat (0x10000 + (h - 0xd800) * 0x400 + (l - 0xdc00)) :: ·) <$> joinParts rest
      else none
    else if isLow h then none
    else (Char.ofNat h :: ·) <$> joinParts (.unit l :: rest)
  | .unit n :: rest =>
    if isHigh n || isLow n then none else (Char.ofNat n :: ·) <$> joinParts rest

/-- A string whose opening quote has been read: its text, if it has one, and what
follows. -/
def stringText? (cs : List Char) : Option (Option String × List Char) := do
  let (parts, rest) ← stringParts [] cs
  some ((joinParts parts).map String.ofList, rest)

/-! ### Numbers -/

/-- The fraction of a number, with its point, and what follows. -/
def fraction? : List Char → Option (List Char × List Char)
  | '.' :: cs =>
    let digits := cs.takeWhile isDigit
    if digits.isEmpty then none else some ('.' :: digits, cs.dropWhile isDigit)
  | cs => some ([], cs)

/-- The exponent of a number, with its letter and sign, and what follows. -/
def exponent? (cs : List Char) : Option (List Char × List Char) :=
  match cs with
  | c :: rest =>
    if c = 'e' ∨ c = 'E' then
      let (sign, rest) := match rest with
        | '+' :: rest => (['+'], rest)
        | '-' :: rest => (['-'], rest)
        | rest => ([], rest)
      let digits := rest.takeWhile isDigit
      if digits.isEmpty then none else some (c :: sign ++ digits, rest.dropWhile isDigit)
    else some ([], cs)
  | [] => some ([], [])

/-- A number without its sign: its whole part, the spelling of the rest, and what
follows. -/
def magnitude? (cs : List Char) : Option (List Char × List Char × List Char) := do
  let digits := cs.takeWhile isDigit
  let rest := cs.dropWhile isDigit
  let whole ← match digits with
    | [] => none
    | ['0'] => some ['0']
    | '0' :: _ => none
    | ds => some ds
  let (fraction, rest) ← fraction? rest
  let (exponent, rest) ← exponent? rest
  some (whole, fraction ++ exponent, rest)

/-- The number at the front. -/
def number? (cs : List Char) : Option (Json × List Char) :=
  match cs with
  | '-' :: cs => do
    let (whole, more, rest) ← magnitude? cs
    if more.isEmpty ∧ ofDigits whole ≠ 0 then some (.integer (-(ofDigits whole : Int)), rest)
    else some (.decimal (String.ofList ('-' :: whole ++ more)), rest)
  | cs => do
    let (whole, more, rest) ← magnitude? cs
    if more.isEmpty then some (.integer (ofDigits whole), rest)
    else some (.decimal (String.ofList (whole ++ more)), rest)

/-! ### Values -/

mutual

/-- The value at the front of a text, blanks before it skipped. The first
argument bounds the depth of the recursion; the length of the text is enough. -/
def value? : Nat → List Char → Option (Json × List Char)
  | 0, _ => none
  | fuel + 1, cs =>
    match skipBlanks cs with
    | 'n' :: rest => (Json.null, ·) <$> dropWord ['u', 'l', 'l'] rest
    | 't' :: rest => (Json.bool true, ·) <$> dropWord ['r', 'u', 'e'] rest
    | 'f' :: rest => (Json.bool false, ·) <$> dropWord ['a', 'l', 's', 'e'] rest
    | '"' :: rest => do
      let (text, rest) ← stringText? rest
      some (text.elim .broken .string, rest)
    | '[' :: rest =>
      match skipBlanks rest with
      | ']' :: rest => some (.array [], rest)
      | rest => do
        let (js, rest) ← elements? fuel rest
        some (.array js, rest)
    | '\x7b' :: rest =>
      match skipBlanks rest with
      | '\x7d' :: rest => some (.object [], rest)
      | rest => do
        let (ms, rest) ← members? fuel rest
        some (.object ms, rest)
    | rest => number? rest

/-- One or more elements of an array, and what follows its end. -/
def elements? : Nat → List Char → Option (List Json × List Char)
  | 0, _ => none
  | fuel + 1, cs => do
    let (j, rest) ← value? fuel cs
    match skipBlanks rest with
    | ']' :: rest => some ([j], rest)
    | ',' :: rest => do
      let (js, rest) ← elements? fuel rest
      some (j :: js, rest)
    | _ => none

/-- One or more members of an object, and what follows its end. -/
def members? : Nat → List Char → Option (List (Option String × Json) × List Char)
  | 0, _ => none
  | fuel + 1, cs =>
    match skipBlanks cs with
    | '"' :: rest => do
      let (key, rest) ← stringText? rest
      match skipBlanks rest with
      | ':' :: rest => do
        let (j, rest) ← value? fuel rest
        match skipBlanks rest with
        | '\x7d' :: rest => some ([(key, j)], rest)
        | ',' :: rest => do
          let (ms, rest) ← members? fuel rest
          some ((key, j) :: ms, rest)
        | _ => none
      | _ => none
    | _ => none

end

/-- The value that a list of characters spells. -/
def parseChars (cs : List Char) : Option Json := do
  let (j, rest) ← value? (cs.length + 1) cs
  if (skipBlanks rest).isEmpty then some j else none

/-- The value that a text spells. -/
def parse (text : String) : Option Json := parseChars text.toList

end MeteredLedger.Json
