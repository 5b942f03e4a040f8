import MeteredLedger.Json.Form
import MeteredLedger.Params

/-!
# The JSON form of parameters

Parameters are written as an object with an object for each table of costs. They
are read from any part of that: what is missing is as in the standard parameters.
In place of an object the first so many of its values may stand in an array, in
order; whether further values may stand behind them is up to the reader
(`Surplus`).
-/

namespace MeteredLedger

/-- Whether an array that stands for an object may have more values than the
object has fields. -/
inductive Surplus where
  | refused
  | ignored
  deriving DecidableEq, Repr

namespace Json

/-- The values of the fields of a record of which any may be missing. -/
def someFields? (surplus : Surplus) (names : List String) : Json → Option (List (Option Json))
  | .object members =>
    if members.all fun m => m.1.isSome then names.mapM (onlyMember? members) else none
  | .array js =>
    if js.length ≤ names.length ∨ surplus = .ignored then
      some ((js.take names.length).map some ++ List.replicate (names.length - js.length) none)
    else none
  | _ => none

/-- A field, read as `read` says, that has a standard value. -/
def fieldOr? {α : Type} (standard : α) (read : Json → Option α) : Option Json → Option α
  | some j => read j
  | none => some standard

end Json

open Json (ofFields someFields? fieldOr?)

namespace InstructionCosts

/-- The fields with their names, in order. -/
def fields (c : InstructionCosts) : List (String × Gas) := [
  ("zero", c.zero), ("base", c.base), ("very_low", c.veryLow), ("low", c.low), ("mid", c.mid),
  ("high", c.high), ("jumpdest", c.jumpdest), ("balance", c.balance), ("blockhash", c.blockhash),
  ("keccak", c.keccak)]

/-- The costs that a JSON value describes. -/
def ofTree? (surplus : Surplus) (j : Json) : Option InstructionCosts := do
  let standard := InstructionCosts.standard
  match ← someFields? surplus (standard.fields.map (·.1)) j with
  | [zero, base, veryLow, low, mid, high, jumpdest, balance, blockhash, keccak] =>
    some {
      zero := ← fieldOr? standard.zero ofJson? zero
      base := ← fieldOr? standard.base ofJson? base
      veryLow := ← fieldOr? standard.veryLow ofJson? veryLow
      low := ← fieldOr? standard.low ofJson? low
      mid := ← fieldOr? standard.mid ofJson? mid
      high := ← fieldOr? standard.high ofJson? high
      jumpdest := ← fieldOr? standard.jumpdest ofJson? jumpdest
      balance := ← fieldOr? standard.balance ofJson? balance
      blockhash := ← fieldOr? standard.blockhash ofJson? blockhash
      keccak := ← fieldOr? standard.keccak ofJson? keccak }
  | _ => none

end InstructionCosts

namespace EffectCosts

/-- The fields with their names, in order. -/
def fields (c : EffectCosts) : List (String × Gas) := [
  ("call", c.call), ("call_value_transfer", c.callValueTransfer), ("create", c.create),
  ("create_data", c.createData), ("sload", c.sload), ("sstore_set", c.sstoreSet),
  ("sstore_reset", c.sstoreReset), ("log", c.log), ("log_topic", c.logTopic),
  ("log_data", c.logData), ("memory", c.memory), ("quad_coeff_div", c.quadCoeffDiv),
  ("keccak_word", c.keccakWord), ("copy", c.copy)]

/-- The costs that a JSON value describes. -/
def ofTree? (surplus : Surplus) (j : Json) : Option EffectCosts := do
  let standard := EffectCosts.standard
  match ← someFields? surplus (standard.fields.map (·.1)) j with
  | [call, callValueTransfer, create, createData, sload, sstoreSet, sstoreReset, log, logTopic,
      logData, memory, quadCoeffDiv, keccakWord, copy] =>
    some {
      call := ← fieldOr? standard.call ofJson? call
      callValueTransfer := ← fieldOr? standard.callValueTransfer ofJson? callValueTransfer
      create := ← fieldOr? standard.create ofJson? create
      createData := ← fieldOr? standard.createData ofJson? createData
      sload := ← fieldOr? standard.sload ofJson? sload
      sstoreSet := ← fieldOr? standard.sstoreSet ofJson? sstoreSet
      sstoreReset := ← fieldOr? standard.sstoreReset ofJson? sstoreReset
      log := ← fieldOr? standard.log ofJson? log
      logTopic := ← fieldOr? standard.logTopic ofJson? logTopic
      logData := ← fieldOr? standard.logData ofJson? logData
      memory := ← fieldOr? standard.memory ofJson? memory
      quadCoeffDiv := ← fieldOr? standard.quadCoeffDiv ofJson? quadCoeffDiv
      keccakWord := ← fieldOr? standard.keccakWord ofJson? keccakWord
      copy := ← fieldOr? standard.copy ofJson? copy }
  | _ => none

end EffectCosts

namespace Params

/-- The fields that are numbers, with their names, in order. -/
def plainFields (p : Params) : List (String × Gas) := [
  ("max_call_depth", p.maxCallDepth), ("max_code_size", p.maxCodeSize),
  ("default_gas_limit", p.defaultGasLimit)]

/-- The tables of costs, with their names, in order. -/
def tables (p : Params) : List (String × List (String × Gas)) := [
  ("op_const_gas", p.instructions.fields), ("common_gas", p.effects.fields)]

/-- The names of the fields, in order. -/
def fieldNames : List String :=
  ["op_const_gas", "common_gas", "max_call_depth", "max_code_size", "default_gas_limit"]

/-- The parameters that a JSON value describes. -/
def ofTree? (surplus : Surplus) (j : Json) : Option Params := do
  let standard := Params.standard
  match ← someFields? surplus fieldNames j with
  | [instructions, effects, maxCallDepth, maxCodeSize, defaultGasLimit] =>
    some {
      instructions :=
        ← fieldOr? standard.instructions (InstructionCosts.ofTree? surplus) instructions
      effects := ← fieldOr? standard.effects (EffectCosts.ofTree? surplus) effects
      maxCallDepth := ← fieldOr? standard.maxCallDepth ofJson? maxCallDepth
      maxCodeSize := ← fieldOr? standard.maxCodeSize ofJson? maxCodeSize
      defaultGasLimit := ← fieldOr? standard.defaultGasLimit ofJson? defaultGasLimit }
  | _ => none

/-- Fields as an object. -/
def fieldsToJson (fields : List (String × Gas)) : Json :=
  ofFields (fields.map fun (name, g) => (name, toJson g))

instance : JsonForm Params where
  toJson p := ofFields (p.tables.map (fun (name, fields) => (name, fieldsToJson fields))
    ++ p.plainFields.map fun (name, g) => (name, toJson g))
  ofJson? := ofTree? .refused

/-- The parameters that a JSON text describes. -/
def ofJsonText? (text : String) : Option Params := Json.read? text

/-- Parameters as a JSON text. -/
def toJsonText (p : Params) : String := Json.write p

end Params

end MeteredLedger
