import MeteredLedger.Proofs.Json.Parts

/-!
# Parameters of which some are left out

Fields are named by their paths: a plain field by its name, a cost by the name of
its table and its own, and a table by its name alone. `Params.reset` puts the
standard parameters in the place of a set of fields, and that is what is read
where these fields are left out of the JSON of parameters (`ofTree?_members`),
whatever that leaves of it and in whatever order.
-/

namespace MeteredLedger

open Json (ofFields isPlain_ofFields without_ofFields someFields?_filter someFields?_perm
  bind_fieldOr? bind_fieldOr?_ite)

/-- The costs with some of them, by their names, as in the standard costs. -/
def InstructionCosts.reset (drops : String → Bool) (c : InstructionCosts) : InstructionCosts where
  zero := if drops "zero" then standard.zero else c.zero
  base := if drops "base" then standard.base else c.base
  veryLow := if drops "very_low" then standard.veryLow else c.veryLow
  low := if drops "low" then standard.low else c.low
  mid := if drops "mid" then standard.mid else c.mid
  high := if drops "high" then standard.high else c.high
  jumpdest := if drops "jumpdest" then standard.jumpdest else c.jumpdest
  balance := if drops "balance" then standard.balance else c.balance
  blockhash := if drops "blockhash" then standard.blockhash else c.blockhash
  keccak := if drops "keccak" then standard.keccak else c.keccak

/-- The costs with some of them, by their names, as in the standard costs. -/
def EffectCosts.reset (drops : String → Bool) (c : EffectCosts) : EffectCosts where
  call := if drops "call" then standard.call else c.call
  callValueTransfer :=
    if drops "call_value_transfer" then standard.callValueTransfer else c.callValueTransfer
  create := if drops "create" then standard.create else c.create
  createData := if drops "create_data" then standard.createData else c.createData
  sload := if drops "sload" then standard.sload else c.sload
  sstoreSet := if drops "sstore_set" then standard.sstoreSet else c.sstoreSet
  sstoreReset := if drops "sstore_reset" then standard.sstoreReset else c.sstoreReset
  log := if drops "log" then standard.log else c.log
  logTopic := if drops "log_topic" then standard.logTopic else c.logTopic
  logData := if drops "log_data" then standard.logData else c.logData
  memory := if drops "memory" then standard.memory else c.memory
  quadCoeffDiv := if drops "quad_coeff_div" then standard.quadCoeffDiv else c.quadCoeffDiv
  keccakWord := if drops "keccak_word" then standard.keccakWord else c.keccakWord
  copy := if drops "copy" then standard.copy else c.copy

/-- The parameters with some fields, by their paths, as in the standard
parameters. -/
def Params.reset (drops : List String → Bool) (p : Params) : Params where
  instructions :=
    if drops ["op_const_gas"] then standard.instructions
    else p.instructions.reset fun name => drops ["op_const_gas", name]
  effects :=
    if drops ["common_gas"] then standard.effects
    else p.effects.reset fun name => drops ["common_gas", name]
  maxCallDepth := if drops ["max_call_depth"] then standard.maxCallDepth else p.maxCallDepth
  maxCodeSize := if drops ["max_code_size"] then standard.maxCodeSize else p.maxCodeSize
  defaultGasLimit :=
    if drops ["default_gas_limit"] then standard.defaultGasLimit else p.defaultGasLimit

/-! ### Tables of costs -/

variable {surplus : Surplus}

/-- The fields of a table that are left, as an object. -/
theorem fieldsToJson_filter (drops : String → Bool) (fields : List (String × Gas)) :
    Params.fieldsToJson (fields.filter fun f => !drops f.1)
      = ofFields ((fields.map fun (name, g) => (name, toJson g)).filter fun f => !drops f.1) := by
  rw [Params.fieldsToJson, List.filter_map]
  rfl

theorem InstructionCosts.ofTree?_filter (drops : String → Bool) (c : InstructionCosts) :
    ofTree? surplus (Params.fieldsToJson (c.fields.filter fun f => !drops f.1))
      = some (c.reset drops) := by
  have names : InstructionCosts.standard.fields.map (·.1)
      = (c.fields.map fun (name, g) => (name, toJson g)).map Prod.fst := rfl
  rw [fieldsToJson_filter, ofTree?, names, someFields?_filter drops (names ▸ by decide)]
  -- from the outside in, as what is inside of a bind is seen again after every field
  simp only [↓Option.bind_eq_bind, ↓Option.bind_some, fields, List.map_cons, List.map_nil,
    ↓bind_fieldOr?_ite]
  rfl

theorem EffectCosts.ofTree?_filter (drops : String → Bool) (c : EffectCosts) :
    ofTree? surplus (Params.fieldsToJson (c.fields.filter fun f => !drops f.1))
      = some (c.reset drops) := by
  have names : EffectCosts.standard.fields.map (·.1)
      = (c.fields.map fun (name, g) => (name, toJson g)).map Prod.fst := rfl
  rw [fieldsToJson_filter, ofTree?, names, someFields?_filter drops (names ▸ by decide)]
  simp only [↓Option.bind_eq_bind, ↓Option.bind_some, fields, List.map_cons, List.map_nil,
    ↓bind_fieldOr?_ite]
  rfl

/-! ### All parameters -/

namespace Params

/-- Plain fields as members. -/
def plainMembers (fields : List (String × Gas)) : List (String × Json) :=
  fields.map fun (name, g) => (name, toJson g)

/-- Tables as members. -/
def tableMembers (tables : List (String × List (String × Gas))) : List (String × Json) :=
  tables.map fun (name, fields) => (name, fieldsToJson fields)

/-- What is left of plain fields. -/
def plainWithout (drops : List String → Bool) (fields : List (String × Gas)) :
    List (String × Gas) := fields.filter fun f => !drops [f.1]

/-- What is left of tables. -/
def tablesWithout (drops : List String → Bool) (tables : List (String × List (String × Gas))) :
    List (String × List (String × Gas)) :=
  (tables.filter fun t => !drops [t.1]).map fun (name, fields) =>
    (name, fields.filter fun f => !drops [name, f.1])

/-- The members that are left of the object of parameters. -/
def members (drops : List String → Bool) (p : Params) : List (String × Json) :=
  tableMembers (tablesWithout drops p.tables) ++ plainMembers (plainWithout drops p.plainFields)

/-- In which order the members stand makes no difference. -/
theorem ofTree?_perm {ms ms' : List (Option String × Json)} (h : ms.Perm ms') :
    ofTree? surplus (.object ms) = ofTree? surplus (.object ms') := by
  rw [ofTree?, ofTree?, someFields?_perm h]

/-- **Parameters are read from what is left of their object.** -/
theorem ofTree?_members (drops : List String → Bool) (p : Params) :
    ofTree? surplus (ofFields (p.members drops)) = some (p.reset drops) := by
  -- fields of the tables are left out first, so that whole members are left out of one list
  let whole := tableMembers (p.tables.map fun (name, fields) =>
    (name, fields.filter fun f => !drops [name, f.1])) ++ plainMembers p.plainFields
  have left : p.members drops = whole.filter fun f => !drops [f.1] := by
    simp only [members, tablesWithout, plainWithout, whole, tableMembers, plainMembers,
      List.filter_append, List.filter_map, List.map_map]
    rfl
  have names : fieldNames = whole.map Prod.fst := rfl
  rw [left, ofTree?, names, someFields?_filter (fun name => drops [name]) (names ▸ by decide)]
  simp only [↓Option.bind_eq_bind, ↓Option.bind_some, whole, tableMembers, plainMembers, tables,
    plainFields, List.map_cons, List.map_nil, List.cons_append, List.nil_append,
    ↓bind_fieldOr?_ite]
  rw [bind_fieldOr? (InstructionCosts.ofTree?_filter (fun name => drops ["op_const_gas", name]) _),
    bind_fieldOr? (EffectCosts.ofTree?_filter (fun name => drops ["common_gas", name]) _)]
  rfl

/-- A number has no members to leave out. -/
theorem without_gas (drops : List String → Bool) (g : Gas) : (toJson g).without drops = toJson g := by
  change (Json.integer _).without drops = Json.integer _
  simp only [Json.without]

theorem without_plain (drops : List String → Bool) (fields : List (String × Gas)) :
    ((plainMembers fields).filter fun f => !drops [f.1]).map
        (fun f => (f.1, f.2.without fun path => drops (f.1 :: path)))
      = plainMembers (plainWithout drops fields) := by
  simp only [plainMembers, plainWithout, List.filter_map, List.map_map, Function.comp_def,
    without_gas]

theorem without_fieldsToJson (drops : List String → Bool) (fields : List (String × Gas)) :
    (fieldsToJson fields).without drops = fieldsToJson (plainWithout drops fields) :=
  (without_ofFields drops _).trans (congrArg ofFields (without_plain drops fields))

theorem without_tables (drops : List String → Bool) (tables : List (String × List (String × Gas))) :
    ((tableMembers tables).filter fun f => !drops [f.1]).map
        (fun f => (f.1, f.2.without fun path => drops (f.1 :: path)))
      = tableMembers (tablesWithout drops tables) := by
  simp only [tableMembers, tablesWithout, List.filter_map, List.map_map, Function.comp_def,
    without_fieldsToJson, plainWithout]

/-- The members that are left of the object of parameters. -/
theorem without_toJson (drops : List String → Bool) (p : Params) :
    (toJson p).without drops = ofFields (p.members drops) := by
  change (ofFields (tableMembers p.tables ++ plainMembers p.plainFields)).without drops = _
  rw [without_ofFields, List.filter_append, List.map_append, without_tables, without_plain]
  rfl

theorem isPlain_toJson (p : Params) : (toJson p).isPlain = true := by
  refine isPlain_ofFields fun f hf => ?_
  obtain hf | hf := List.mem_append.1 hf
  · obtain ⟨t, -, rfl⟩ := List.mem_map.1 hf
    refine isPlain_ofFields fun f hf => ?_
    obtain ⟨g, -, rfl⟩ := List.mem_map.1 hf
    exact LawfulJsonForm.isPlain g.2
  · obtain ⟨g, -, rfl⟩ := List.mem_map.1 hf
    exact LawfulJsonForm.isPlain g.2

/-- The object of parameters is what its text spells. -/
theorem parse_toJsonText (p : Params) : Json.parse p.toJsonText = some (toJson p) :=
  Json.parse_render p.isPlain_toJson

/-- **Parameters load back from JSON**, with standard values for the fields that are
left out. -/
theorem ofJsonText?_without (drops : List String → Bool) (p : Params) :
    ofJsonText? ((toJson p).without drops).render = some (p.reset drops) := by
  rw [ofJsonText?, Json.read?, Json.parse_render (Json.isPlain_without drops p.isPlain_toJson),
    without_toJson]
  exact ofTree?_members drops p

end Params

end MeteredLedger
