import MeteredLedger.Address

/-!
# Canonical encoding

The bytes that are hashed and signed. A number takes one byte below 251, else a
marker that says how many bytes follow, lowest first, the fewest of 2, 4, 8 and
16 that hold it. Strings of bytes follow their length; identifiers, whose length
is fixed, stand as they are; an absent value is a zero byte and a present one
follows a one. A record is its fields in order, with nothing between them, so
its encoding is read off from the front.
-/

namespace MeteredLedger.Encoding

/-- A number below `2 ^ 128`. -/
def number (n : Nat) : Bytes :=
  if n < 251 then [UInt8.ofNat n]
  else if n < UInt16.size then 251 :: Bytes.littleEndian 2 n
  else if n < UInt32.size then 252 :: Bytes.littleEndian 4 n
  else if n < UInt64.size then 253 :: Bytes.littleEndian 8 n
  else 254 :: Bytes.littleEndian 16 n

/-- A string of bytes, behind its length. -/
def bytes (bs : Bytes) : Bytes := number bs.length ++ bs

/-- A value that may be absent. -/
def optional {α : Type} (encode : α → Bytes) : Option α → Bytes
  | none => [0]
  | some a => 1 :: encode a

end MeteredLedger.Encoding
