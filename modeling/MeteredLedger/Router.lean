import MeteredLedger.Transition

/-!
# Routers

A router hands a message to the handler registered for its route. A route is
named by letters and digits of ASCII, at least one, and is registered once.
-/

namespace MeteredLedger

/-- What a handler makes of a message: a result or an error, and the resources as
it leaves them in either case. -/
abbrev Handled := Except Abort (Except LedgerError Transition × Ambient)

/-- Handles messages. -/
abbrev Handler := Message → Ambient → Handled

namespace Handler

/-- The handler that carries messages out. -/
def ofProcessor (p : Processor) : Handler := fun m a => do
  let (t, a) ← p.execute m a
  .ok (.ok t, a)

/-- The handler that always answers with an error. -/
def failing (e : LedgerError) : Handler := fun _ a => .ok (.error e, a)

/-- The handler that burns gas, if it is to, and reports that some gas was not
enough. -/
def exhausted (burn reported : Gas) : Handler := fun _ a =>
  let answer := Transition.failed (.outOfGas reported)
  if burn = 0 then .ok (.ok answer, a)
  else match a.meter.consume burn "burn" with
    | .ok meter => .ok (.ok answer, { a with meter })
    | .error (.error e) => .ok (.error e, a)
    | .error (.abort f) => .error f

end Handler

/-- Handlers by route. -/
structure Router where
  /-- The handler of each route. -/
  routes : Std.ExtTreeMap String Handler

namespace Router

/-- The router without routes. -/
def empty : Router := ⟨∅⟩

/-- Whether a character may stand in the name of a route. -/
def isRouteChar (c : Char) : Bool :=
  ('0' ≤ c && c ≤ '9') || ('A' ≤ c && c ≤ 'Z') || ('a' ≤ c && c ≤ 'z')

/-- Whether a name is fit for a route. -/
def isRouteName (name : String) : Bool := !name.isEmpty && name.toList.all isRouteChar

/-- The handler of a route. -/
def route? (r : Router) (name : String) : Option Handler := r.routes[name]?

/-- Whether a route has a handler. -/
def hasRoute (r : Router) (name : String) : Bool := r.routes.contains name

/-- Registers a handler. -/
def add (r : Router) (name : String) (h : Handler) : Except LedgerError Router :=
  if !isRouteName name then .error (.invalidRoute name)
  else if r.hasRoute name then .error (.duplicateRoute name)
  else .ok ⟨r.routes.insert name h⟩

/-- Has a message handled. -/
def dispatch (r : Router) (m : Message) (a : Ambient) : Handled :=
  match r.route? Message.route with
  | some handler => handler m a
  | none => .ok (.error (.unknownRoute Message.route), a)

/-- The router of a processor. -/
def ofProcessor (p : Processor) : Router :=
  ⟨Std.ExtTreeMap.empty.insert Message.route (.ofProcessor p)⟩

end Router

end MeteredLedger
