import MeteredLedger.Text.Visible

/-!
# Quoted text

Text in a message stands between quotes and shows every character unambiguously:
a backslash or the quote itself behind a backslash, the tab, line feed, carriage
return and null by a letter or digit, any other character that does not show by
itself (`Text.isVisible`) by its code point in hexadecimal, and the rest as they
are. A string stands between double quotes, a character between single ones, and
only the quote in use is escaped.
-/

namespace MeteredLedger.Text

/-- The lower-case hexadecimal digits of a number, without leading zeros. -/
def hexNumeral (n : Nat) : String := String.ofList (Nat.toDigits 16 n)

/-- A character as it stands between two of the quotes `quote`. -/
def escapeChar (quote c : Char) : String :=
  if c = '\x00' then "\\0"
  else if c = '\t' then "\\t"
  else if c = '\n' then "\\n"
  else if c = '\r' then "\\r"
  else if c = '\\' || c = quote then String.ofList ['\\', c]
  else if isVisible c then c.toString
  else "\\u\x7b" ++ hexNumeral c.toNat ++ "\x7d"

/-- A string in double quotes. -/
def quoteString (s : String) : String :=
  "\"" ++ String.join (s.toList.map (escapeChar '"')) ++ "\""

/-- A character in single quotes. -/
def quoteChar (c : Char) : String := "'" ++ escapeChar '\'' c ++ "'"

end MeteredLedger.Text
