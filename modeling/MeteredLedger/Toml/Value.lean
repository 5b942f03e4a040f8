/-!
# TOML values

The values of a TOML document. Floats and moments (dates, times and both) keep
their spelling. A table holds its members in the order of their first mention.
-/

namespace MeteredLedger.Toml

/-- A TOML value. -/
inductive Value where
  | string (s : String)
  /-- A whole number, which fits into 64 bits with a sign. -/
  | integer (n : Int)
  | float (text : String)
  | boolean (b : Bool)
  /-- A date, a time or both. -/
  | moment (text : String)
  | array (elements : List Value)
  | table (members : List (String × Value))
  deriving Repr, Inhabited

/-- The largest whole number; the smallest is one farther from zero. -/
def largestInteger : Nat := 0x7fffffffffffffff

/-- The nesting of values, and the parts of a key, stay below this bound. -/
def depthBound : Nat := 80

end MeteredLedger.Toml
