import MeteredLedger.Toml.Scalar
import MeteredLedger.Toml.Table

/-!
# Reading TOML

A document is a sequence of lines, each a comment, a header or the value of a key;
`Toml.parse` gives the table that they make together. An inline table stays on
its line and ends without a comma; an array may run over lines, with comments,
and may end with one.
-/

namespace MeteredLedger.Toml

mutual

/-- The value at the front. The first number bounds the recursion, for which the
length of the text is enough; the second is the nesting of values so far. -/
def value? : (fuel depth : Nat) → List Char → Option (Value × List Char)
  | 0, _, _ => none
  | fuel + 1, depth, cs =>
    match cs with
    | '[' :: rest =>
      if depth + 1 < depthBound then
        match rest with
        | ']' :: rest => some (.array [], rest)
        | rest => do
          let (vs, rest) ← elements? fuel (depth + 1) rest
          some (.array vs, rest)
      else none
    | '\x7b' :: rest =>
      if depth + 1 < depthBound then
        match skipBlanks rest with
        | '\x7d' :: rest => some (.table [], rest)
        | rest => do
          let (ms, rest) ← pairs? fuel (depth + 1) [] rest
          some (.table (valuesOf ms), rest)
      else none
    | 't' :: 'r' :: 'u' :: 'e' :: rest => some (.boolean true, rest)
    | 'f' :: 'a' :: 'l' :: 's' :: 'e' :: rest => some (.boolean false, rest)
    | '"' :: _ | '\'' :: _ => do
      let (s, rest) ← string? cs
      some (.string s, rest)
    | 'i' :: _ | 'n' :: _ => specialFloat? cs
    | c :: _ => if opensNumber c then number? cs else none
    | [] => none

/-- The further elements of an array, and what follows its end. -/
def elements? : (fuel depth : Nat) → List Char → Option (List Value × List Char)
  | 0, _, _ => none
  | fuel + 1, depth, cs =>
    match skipLines cs with
    | ']' :: rest => some ([], rest)
    | cs => do
      let (v, rest) ← value? fuel depth cs
      match skipLines rest with
      | ']' :: rest => some ([v], rest)
      | ',' :: rest => do
        let (vs, rest) ← elements? fuel depth rest
        some (v :: vs, rest)
      | _ => none

/-- The further members of an inline table, and what follows its end. -/
def pairs? : (fuel depth : Nat) → Members → List Char → Option (Members × List Char)
  | 0, _, _, _ => none
  | fuel + 1, depth, ms, cs => do
    let (path, rest) ← key? cs
    match rest with
    | '=' :: rest => do
      let (v, rest) ← value? fuel depth (skipBlanks rest)
      let ms ← ms.assign path v
      match skipBlanks rest with
      | '\x7d' :: rest => some (ms, rest)
      | ',' :: rest => pairs? fuel depth ms rest
      | _ => none
    | _ => none

end

/-- The path in a header, whose opening brackets have been read and whose closing
brackets are `close`, and what follows its line. -/
def header? (close cs : List Char) : Option (List String × List Char) := do
  let (path, rest) ← key? cs
  if rest.take close.length = close then
    let rest ← lineRest? (rest.drop close.length)
    some (path, rest)
  else none

/-- The members that the lines of a document make. `current` is the path of the
table that was opened last. The number bounds the lines; the length of the text
is enough. -/
def lines? : (fuel : Nat) → (current : List String) → Members → List Char → Option Members
  | 0, _, _, _ => none
  | fuel + 1, current, ms, cs =>
    match skipLines cs with
    | [] => some ms
    | '#' :: cs => if (lineRest? ('#' :: cs)).isSome then some ms else none
    | '[' :: '[' :: rest => do
      let (path, rest) ← header? [']', ']'] rest
      let ms ← ms.openElement path
      lines? fuel path ms rest
    | '[' :: rest => do
      let (path, rest) ← header? [']'] rest
      let ms ← ms.openTable path
      lines? fuel path ms rest
    | cs => do
      let (path, rest) ← key? cs
      match rest with
      | '=' :: rest => do
        let (v, rest) ← value? (rest.length + 1) 0 (skipBlanks rest)
        let rest ← lineRest? rest
        let ms ← ms.assignIn current path v
        lines? fuel current ms rest
      | _ => none

/-- The members of the table that a document describes. A byte order mark may stand
before it. -/
def parse (text : String) : Option (List (String × Value)) :=
  let cs := match text.toList with
    | c :: cs => if c.toNat = 0xfeff then cs else c :: cs
    | [] => []
  valuesOf <$> lines? (cs.length + 1) [] [] cs

end MeteredLedger.Toml
