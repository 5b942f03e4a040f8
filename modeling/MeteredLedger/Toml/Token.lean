import MeteredLedger.Toml.Value

/-!
# Blanks, strings and keys of TOML

Every reader here takes the characters of a document from some place on, and
gives what it has read and the characters behind it, or nothing if what it looks
for is not there. A string is basic, with escapes, or literal, without; either
kind may span lines between triple quotes. Control characters other than the tab
stand nowhere, and a carriage return only before a line feed.
-/

namespace MeteredLedger.Toml

/-! ### Blanks, line ends and comments -/

/-- Whether a character is a blank. -/
def isBlank (c : Char) : Bool := c = ' ' || c = '\t'

/-- What follows the blanks. -/
def skipBlanks (cs : List Char) : List Char := cs.dropWhile isBlank

/-- What follows a line end. -/
def newline? : List Char → Option (List Char)
  | '\n' :: cs => some cs
  | '\r' :: '\n' :: cs => some cs
  | _ => none

/-- Whether a character may stand in a comment or, quotes and backslashes apart,
in a string. -/
def isText (c : Char) : Bool := c = '\t' || (0x20 ≤ c.toNat && c.toNat ≠ 0x7f)

/-- What follows a comment, if there is one. -/
def skipComment : List Char → List Char
  | '#' :: cs => cs.dropWhile isText
  | cs => cs

/-- What follows the rest of a line that holds nothing but blanks and a comment.
The document may end with it. -/
def lineRest? (cs : List Char) : Option (List Char) :=
  match skipComment (skipBlanks cs) with
  | [] => some []
  | cs => newline? cs

theorem length_newline?_lt {cs rest : List Char} (h : newline? cs = some rest) :
    rest.length < cs.length := by
  unfold newline? at h
  split at h <;> cases h <;> simp only [List.length_cons] <;> omega

theorem length_skipComment_le (cs : List Char) : (skipComment cs).length ≤ cs.length := by
  unfold skipComment
  split
  · exact Nat.le_succ_of_le (List.dropWhile_sublist _).length_le
  · exact Nat.le_refl _

/-- What follows blanks, line ends and comments; every comment must have its line
end. -/
def skipLines (cs : List Char) : List Char :=
  match _h : newline? (skipComment (skipBlanks cs)) with
  | some rest => skipLines rest
  | none => skipBlanks cs
termination_by cs.length
decreasing_by
  exact Nat.lt_of_lt_of_le (length_newline?_lt _h) (Nat.le_trans (length_skipComment_le _)
    (List.dropWhile_sublist _).length_le)

/-! ### Escapes -/

/-- The value of a hexadecimal digit. -/
def hexValue? (c : Char) : Option Nat :=
  if '0' ≤ c ∧ c ≤ '9' then some (c.toNat - 48)
  else if 'a' ≤ c ∧ c ≤ 'f' then some (c.toNat - 87)
  else if 'A' ≤ c ∧ c ≤ 'F' then some (c.toNat - 55)
  else none

/-- The character whose number some hexadecimal digits spell. -/
def charOfDigits? (ds : List Char) : Option Char := do
  let ns ← ds.mapM hexValue?
  let n := ns.foldl (fun n d => 16 * n + d) 0
  if n.isValidChar then some (Char.ofNat n) else none

/-- The character of a one-letter escape. -/
def unescape? (c : Char) : Option Char :=
  if c = '"' ∨ c = '\\' then some c
  else if c = 'b' then some '\x08'
  else if c = 'f' then some '\x0c'
  else if c = 'n' then some '\n'
  else if c = 'r' then some '\r'
  else if c = 't' then some '\t'
  else none

/-- The character of the escape whose backslash has been read, and what follows. -/
def escape? : List Char → Option (Char × List Char)
  | 'u' :: cs =>
    if (cs.take 4).length = 4 then (·, cs.drop 4) <$> charOfDigits? (cs.take 4) else none
  | 'U' :: cs =>
    if (cs.take 8).length = 8 then (·, cs.drop 8) <$> charOfDigits? (cs.take 8) else none
  | c :: cs => (·, cs) <$> unescape? c
  | [] => none

/-! ### Strings -/

/-- The rest of a basic string, whose characters so far are `before` in reverse,
and what follows its closing quote. The number bounds the characters. -/
def basicRest? : Nat → List Char → List Char → Option (String × List Char)
  | 0, _, _ => none
  | fuel + 1, before, cs =>
    match cs with
    | '"' :: cs => some (String.ofList before.reverse, cs)
    | '\\' :: cs => do
      let (c, cs) ← escape? cs
      basicRest? fuel (c :: before) cs
    | c :: cs => if isText c then basicRest? fuel (c :: before) cs else none
    | [] => none

/-- The rest of a literal string, and what follows its closing quote. -/
def literalRest? (cs : List Char) : Option (String × List Char) :=
  let inside := cs.takeWhile fun c => isText c && c ≠ '\''
  match cs.dropWhile fun c => isText c && c ≠ '\'' with
  | '\'' :: cs => some (String.ofList inside, cs)
  | _ => none

/-- The end of a string between triple quotes: what up to two more quotes add to
it, and what follows. -/
def closeTriple (quote : Char) (before cs : List Char) : String × List Char :=
  let more := (cs.takeWhile (· = quote)).take 2
  (String.ofList (before.reverse ++ more), cs.drop more.length)

/-- What follows blanks and line ends. -/
def skipBlankLines : Nat → List Char → List Char
  | 0, cs => cs
  | fuel + 1, cs =>
    let cs := skipBlanks cs
    match newline? cs with
    | some cs => skipBlankLines fuel cs
    | none => cs

/-- The rest of a string between triple quotes. In a basic one, a backslash at the
end of a line takes away the line end and the blanks and line ends after it. -/
def tripleRest? (quote : Char) : Nat → List Char → List Char → Option (String × List Char)
  | 0, _, _ => none
  | fuel + 1, before, cs =>
    match newline? cs with
    | some cs => tripleRest? quote fuel ('\n' :: before) cs
    | none =>
      match cs with
      | a :: b :: c :: rest =>
        if a = quote ∧ b = quote ∧ c = quote then some (closeTriple quote before rest)
        else if a = '\\' ∧ quote = '"' then
          match newline? (skipBlanks (b :: c :: rest)) with
          | some cs => tripleRest? quote fuel before (skipBlankLines fuel cs)
          | none => do
            let (x, cs) ← escape? (b :: c :: rest)
            tripleRest? quote fuel (x :: before) cs
        else if isText a then tripleRest? quote fuel (a :: before) (b :: c :: rest)
        else none
      | _ => none

/-- What follows the line end right behind an opening triple quote. -/
def skipFirstNewline (cs : List Char) : List Char := (newline? cs).getD cs

/-- The string at the front. -/
def string? (cs : List Char) : Option (String × List Char) :=
  match cs with
  | '"' :: '"' :: '"' :: cs => tripleRest? '"' (cs.length + 1) [] (skipFirstNewline cs)
  | '"' :: cs => basicRest? (cs.length + 1) [] cs
  | '\'' :: '\'' :: '\'' :: cs => tripleRest? '\'' (cs.length + 1) [] (skipFirstNewline cs)
  | '\'' :: cs => literalRest? cs
  | _ => none

/-! ### Keys -/

/-- Whether a character may stand in a key without quotes. -/
def isKeyChar (c : Char) : Bool :=
  ('0' ≤ c && c ≤ '9') || ('A' ≤ c && c ≤ 'Z') || ('a' ≤ c && c ≤ 'z') || c = '_' || c = '-'

/-- One part of a key. -/
def keyPart? (cs : List Char) : Option (String × List Char) :=
  match cs with
  | '"' :: cs => basicRest? (cs.length + 1) [] cs
  | '\'' :: cs => literalRest? cs
  | cs =>
    let part := cs.takeWhile isKeyChar
    if part.isEmpty then none else some (String.ofList part, cs.dropWhile isKeyChar)

/-- The parts of a key, with blanks around each. -/
def keyParts? : Nat → List Char → Option (List String × List Char)
  | 0, _ => none
  | fuel + 1, cs => do
    let (part, cs) ← keyPart? (skipBlanks cs)
    match skipBlanks cs with
    | '.' :: cs => do
      let (parts, cs) ← keyParts? fuel cs
      some (part :: parts, cs)
    | cs => some ([part], cs)

/-- The key at the front, if it does not have too many parts, and what follows it
and the blanks behind it. -/
def key? (cs : List Char) : Option (List String × List Char) := do
  let (parts, cs) ← keyParts? (cs.length + 1) cs
  if parts.length < depthBound then some (parts, cs) else none

end MeteredLedger.Toml
