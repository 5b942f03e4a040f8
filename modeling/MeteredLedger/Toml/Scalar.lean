import MeteredLedger.Toml.Token

/-!
# Numbers and moments of TOML

Digits may be grouped by single underscores between them. A whole number fits into
64 bits with a sign; it may be written in base 16, 8 or 2 behind `0x`, `0o` or
`0b`, without sign. A float may not be so large that it is read as infinity. A
date has a day that its month has, a time its seconds.
-/

namespace MeteredLedger.Toml

/-! ### Digits -/

/-- Whether a character is a decimal digit. -/
def isDigit (c : Char) : Bool := '0' ≤ c && c ≤ '9'

/-- Whether a character is a hexadecimal digit. -/
def isHexDigit (c : Char) : Bool := (hexValue? c).isSome

/-- Whether a character is an octal digit. -/
def isOctalDigit (c : Char) : Bool := '0' ≤ c && c ≤ '7'

/-- Whether a character is a binary digit. -/
def isBinaryDigit (c : Char) : Bool := c = '0' || c = '1'

/-- The digits behind a digit, their underscores left out, and what follows. An
underscore must stand before a digit. -/
def moreDigits? (digit : Char → Bool) : List Char → Option (List Char × List Char)
  | '_' :: c :: cs =>
    if digit c then do
      let (ds, cs) ← moreDigits? digit cs
      some (c :: ds, cs)
    else none
  | ['_'] => none
  | c :: cs =>
    if digit c then do
      let (ds, cs) ← moreDigits? digit cs
      some (c :: ds, cs)
    else some ([], c :: cs)
  | [] => some ([], [])

/-- One or more digits, their underscores left out, and what follows. -/
def digits? (digit : Char → Bool) : List Char → Option (List Char × List Char)
  | c :: cs =>
    if digit c then do
      let (ds, cs) ← moreDigits? digit cs
      some (c :: ds, cs)
    else none
  | [] => none

/-- The number that digits of a base spell. -/
def ofDigits (base : Nat) (ds : List Char) : Nat :=
  ds.foldl (fun n c => base * n + (hexValue? c).getD 0) 0

/-- The sign at the front, and what follows. -/
def sign : List Char → List Char × List Char
  | '+' :: cs => (['+'], cs)
  | '-' :: cs => (['-'], cs)
  | cs => ([], cs)

/-- The decimal digits of a whole number, which do not start with a zero unless
that is all, and what follows. -/
def wholeDigits? : List Char → Option (List Char × List Char)
  | '0' :: cs => some (['0'], cs)
  | cs => digits? isDigit cs

/-! ### Numbers -/

/-- A whole number, if it fits. -/
def fit? (n : Int) : Option Value :=
  if -largestInteger - 1 ≤ n ∧ n ≤ largestInteger then some (.integer n) else none

/-- A whole number in another base, its mark read. -/
def based? (base : Nat) (digit : Char → Bool) (cs : List Char) : Option (Value × List Char) := do
  let (ds, cs) ← digits? digit cs
  let v ← fit? (ofDigits base ds)
  some (v, cs)

/-- The whole number at the front. -/
def integer? (cs : List Char) : Option (Value × List Char) :=
  match cs with
  | '0' :: 'x' :: cs => based? 16 isHexDigit cs
  | '0' :: 'o' :: cs => based? 8 isOctalDigit cs
  | '0' :: 'b' :: cs => based? 2 isBinaryDigit cs
  | cs => do
    let (mark, cs) := sign cs
    let (ds, cs) ← wholeDigits? cs
    let n : Int := ofDigits 10 ds
    let v ← fit? (if mark = ['-'] then -n else n)
    some (v, cs)

/-- Whether `digits` times ten to the power `exponent` lies so far out that it is
read as infinity: at the middle between the largest float and the next power of
two, or above. -/
def isHuge (digits : Nat) (exponent : Int) : Bool :=
  let bound := 1 <<< 1024 - 1 <<< 970
  if digits = 0 then false
  else if 400 ≤ exponent then true
  else if 0 ≤ exponent then bound ≤ digits * Nat.pow 10 exponent.toNat
  else
    let places := (-exponent).toNat
    -- a number with fewer digits than places is below one
    if (Nat.toDigits 10 digits).length ≤ places then false
    else bound * Nat.pow 10 places ≤ digits

/-- The fraction of a float, with its point: its digits, and what follows. -/
def fraction? : List Char → Option (List Char × List Char)
  | '.' :: cs => digits? isDigit cs
  | _ => none

/-- The exponent of a float: its sign and digits, and what follows. -/
def exponent? : List Char → Option (Int × List Char)
  | c :: cs =>
    if c = 'e' ∨ c = 'E' then do
      let (mark, cs) := sign cs
      let (ds, cs) ← digits? isDigit cs
      let n : Int := ofDigits 10 ds
      some (if mark = ['-'] then -n else n, cs)
    else none
  | [] => none

/-- Whether a character opens an exponent. -/
def opensExponent : List Char → Bool
  | c :: _ => c = 'e' || c = 'E'
  | [] => false

/-- What is left of a list when a list that it ends with is taken away. -/
def before (cs rest : List Char) : List Char := cs.take (cs.length - rest.length)

/-- The float at the front, given by its digits: with a fraction, an exponent or
both. -/
def decimalFloat? (cs : List Char) : Option (Value × List Char) := do
  let (mark, rest) := sign cs
  let (whole, rest) ← wholeDigits? rest
  let (fraction, rest) ←
    if opensExponent rest then some ([], rest) else fraction? rest
  let (exponent, rest) ← if opensExponent rest then exponent? rest else some (0, rest)
  let huge := isHuge (ofDigits 10 (whole ++ fraction)) (exponent - fraction.length)
  if huge ∧ mark ≠ ['-'] then none else some (.float (String.ofList (before cs rest)), rest)

/-- An infinity, or no number, with or without sign. -/
def specialFloat? (cs : List Char) : Option (Value × List Char) :=
  let (_, rest) := sign cs
  match rest with
  | 'i' :: 'n' :: 'f' :: rest => some (.float (String.ofList (before cs rest)), rest)
  | 'n' :: 'a' :: 'n' :: rest => some (.float (String.ofList (before cs rest)), rest)
  | _ => none

/-! ### Moments -/

/-- The number that exactly so many digits spell, within bounds, and what
follows. -/
def field? (width low high : Nat) (cs : List Char) : Option (Nat × List Char) :=
  let ds := cs.take width
  if ds.length = width ∧ ds.all isDigit then
    let n := ofDigits 10 ds
    if low ≤ n ∧ n ≤ high then some (n, cs.drop width) else none
  else none

/-- What follows a character. -/
def mark? (c : Char) : List Char → Option (List Char)
  | d :: cs => if c = d then some cs else none
  | [] => none

/-- The days of a month. -/
def daysOf (year month : Nat) : Nat :=
  if month = 2 then
    if year % 4 = 0 ∧ (year % 100 ≠ 0 ∨ year % 400 = 0) then 29 else 28
  else if month = 4 ∨ month = 6 ∨ month = 9 ∨ month = 11 then 30
  else 31

/-- What follows a date. -/
def afterDate? (cs : List Char) : Option (List Char) := do
  let (year, cs) ← field? 4 0 9999 cs
  let cs ← mark? '-' cs
  let (month, cs) ← field? 2 1 12 cs
  let cs ← mark? '-' cs
  let (_, cs) ← field? 2 1 (daysOf year month) cs
  some cs

/-- What follows a time of day, with a fraction of a second if there is one. -/
def afterTime? (cs : List Char) : Option (List Char) := do
  let (_, cs) ← field? 2 0 23 cs
  let cs ← mark? ':' cs
  let (_, cs) ← field? 2 0 59 cs
  let cs ← mark? ':' cs
  let (_, cs) ← field? 2 0 60 cs
  match cs with
  | '.' :: c :: rest => if isDigit c then some (rest.dropWhile isDigit) else some cs
  | cs => some cs

/-- What follows an offset from the time of day at the zero meridian, if there is
one. -/
def afterOffset? (cs : List Char) : Option (List Char) :=
  match cs with
  | c :: rest =>
    if c = 'Z' ∨ c = 'z' then some rest
    else if c = '+' ∨ c = '-' then do
      let (_, rest) ← field? 2 0 23 rest
      let rest ← mark? ':' rest
      let (_, rest) ← field? 2 0 59 rest
      some rest
    else some cs
  | [] => some []

/-- What follows a date and, if there is one, the time behind it. -/
def afterDateTime? (cs : List Char) : Option (List Char) := do
  let rest ← afterDate? cs
  match rest with
  | c :: more =>
    if c = 'T' ∨ c = 't' ∨ c = ' ' then
      match afterTime? more with
      | some more => afterOffset? more
      | none => some rest
    else some rest
  | [] => some rest

/-- The moment at the front. -/
def moment? (cs : List Char) : Option (Value × List Char) := do
  let rest ← (afterDateTime? cs <|> afterTime? cs)
  some (.moment (String.ofList (before cs rest)), rest)

/-! ### Scalars -/

/-- Whether a value that starts with this character is a number or a moment. -/
def opensNumber (c : Char) : Bool := isDigit c || c = '+' || c = '-'

/-- The number or moment at the front. -/
def number? (cs : List Char) : Option (Value × List Char) :=
  moment? cs <|> decimalFloat? cs <|> specialFloat? cs <|> integer? cs

end MeteredLedger.Toml
