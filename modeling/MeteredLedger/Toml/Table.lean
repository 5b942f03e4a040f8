import MeteredLedger.Toml.Value

/-!
# Tables in the making

A table comes into being in one of three ways: by its own header or as an inline
value, by a header that only passes through it, or by a dotted key. Which way
decides what may be added to it later (`Entry`). A key names a value once; a
header opens a table once, though one that so far has only been passed through
may still be opened; dotted keys add to what dotted keys or passing headers have
made, and give members only to the former. An array of tables stands for its last
element on the way to something below it.
-/

namespace MeteredLedger.Toml

/-- What a key of a table in the making has. -/
inductive Entry where
  /-- A finished value. -/
  | value (v : Value)
  /-- A table: whether it has never been opened itself, and whether a dotted key
  has made it. -/
  | table (isImplicit isDotted : Bool) (members : List (String × Entry))
  /-- An array of tables, the last first. -/
  | tables (elements : List (List (String × Entry)))
  deriving Inhabited

/-- The members of a table in the making. -/
abbrev Members := List (String × Entry)

namespace Members

/-- What a key has. -/
def get? (ms : Members) (key : String) : Option Entry := (ms.find? (·.1 == key)).map (·.2)

/-- With a new entry for a key, in the place of an old one. -/
def put (ms : Members) (key : String) (e : Entry) : Members :=
  if ms.any (·.1 == key) then ms.map fun m => if m.1 == key then (key, e) else m
  else ms ++ [(key, e)]

/-- Changes the table that lies at the end of a path, making the tables on the way
that are not there. `act` is told whether a dotted key has made the table it is
given; the first one is `start`. -/
def descend (dotted : Bool) (act : Bool → Members → Option Members) :
    (path : List String) → (start : Bool) → Members → Option Members
  | [], start, ms => act start ms
  | key :: path, _, ms =>
    match ms.get? key with
    | none => do
      let below ← descend dotted act path dotted []
      some (ms.put key (.table true dotted below))
    | some (.value _) => none
    | some (.table isImplicit isDotted below) =>
      if dotted && !isImplicit then none
      else do
        let below ← descend dotted act path isDotted below
        some (ms.put key (.table isImplicit isDotted below))
    | some (.tables []) => none
    | some (.tables (last :: earlier)) => do
      let last ← descend dotted act path false last
      some (ms.put key (.tables (last :: earlier)))

/-- Gives a value to a dotted or plain key. -/
def assign (ms : Members) (path : List String) (v : Value) : Option Members :=
  match path.getLast? with
  | none => none
  | some key =>
    let act (isDotted : Bool) (below : Members) : Option Members :=
      if isDotted = path.dropLast.isEmpty then none
      else match below.get? key with
        | none => some (below.put key (.value v))
        | some _ => none
    descend true act path.dropLast false ms

/-- Opens the table of a header. -/
def openTable (ms : Members) (path : List String) : Option Members :=
  match path.getLast? with
  | none => none
  | some key =>
    let act (_ : Bool) (below : Members) : Option Members :=
      match below.get? key with
      | none => some (below.put key (.table false false []))
      | some (.table true false inner) => some (below.put key (.table false false inner))
      | some _ => none
    descend false act path.dropLast false ms

/-- Adds an element to the array of tables of a header. -/
def openElement (ms : Members) (path : List String) : Option Members :=
  match path.getLast? with
  | none => none
  | some key =>
    let act (_ : Bool) (below : Members) : Option Members :=
      match below.get? key with
      | none => some (below.put key (.tables [[]]))
      | some (.tables elements) => some (below.put key (.tables ([] :: elements)))
      | some _ => none
    descend false act path.dropLast false ms

/-- Gives a value to a key of the table that was opened last. -/
def assignIn (current : List String) (ms : Members) (path : List String) (v : Value) :
    Option Members :=
  descend false (fun _ below => assign below path v) current false ms

end Members

mutual

/-- The value of an entry. -/
def Entry.toValue : Entry → Value
  | .value v => v
  | .table _ _ ms => .table (valuesOf ms)
  | .tables elements => .array (elementsOf elements [])

/-- The values of members. -/
def valuesOf : List (String × Entry) → List (String × Value)
  | [] => []
  | (key, e) :: ms => (key, e.toValue) :: valuesOf ms

/-- The tables of an array, of which the last comes first, in front of others. -/
def elementsOf : List (List (String × Entry)) → List Value → List Value
  | [], after => after
  | ms :: elements, after => elementsOf elements (.table (valuesOf ms) :: after)

end

end MeteredLedger.Toml
