import Mathlib.Data.List.Nodup
import MeteredLedger.Proofs.Params.Partial
import MeteredLedger.Proofs.Toml.Lines

/-!
# Parameters read back from their texts

The TOML text of parameters is a document of plain fields and tables
(`toTomlText?_of_le`). What is left of its lines when some fields and tables are taken
out is read as what is left of these, so both texts, of which one has the tables first
and the other the plain fields, load as the same parameters (`texts_load_back`).
-/

namespace MeteredLedger

open Toml
open Toml.Members (assignIn_nil)
open Params (plainWithout tablesWithout plainMembers tableMembers)

namespace Toml

variable {drops : List String → Bool} {fs : List (String × Gas)}
  {ts : List (String × List (String × Gas))} {t : String × List (String × Gas)}
  {current : List String} {ms : Members} {cs : List Char}

/-! ### Documents of fields and tables -/

/-- The lines of a table, behind an empty one. -/
def tableLines (t : String × List (String × Gas)) : List (List Char) :=
  [] :: headingChars t.1 :: t.2.map fieldChars

/-- The lines of a document. -/
def documentLines (fs : List (String × Gas)) (ts : List (String × List (String × Gas))) :
    List (List Char) := fs.map fieldChars ++ ts.flatMap tableLines

/-- The lines that are left of a table. -/
def tableLinesWithout (drops : List String → Bool) (t : String × List (String × Gas)) :
    List (List Char) :=
  [] :: if drops [t.1] then []
    else headingChars t.1 :: (t.2.filter fun f => !drops [t.1, f.1]).map fieldChars

/-- The lines that are left of a document. -/
def documentLinesWithout (drops : List String → Bool) (fs : List (String × Gas))
    (ts : List (String × List (String × Gas))) : List (List Char) :=
  (plainWithout drops fs).map fieldChars ++ ts.flatMap (tableLinesWithout drops)

/-- Plain fields and tables that make a document. -/
structure Document (fs : List (String × Gas)) (ts : List (String × List (String × Gas))) : Prop where
  plain : Writable fs
  names : ∀ t ∈ ts, IsName t.1
  tables : ∀ t ∈ ts, Writable t.2
  nodup : (fs.map Prod.fst ++ ts.map Prod.fst).Nodup

theorem linesWithout_table (hname : IsName t.1) (hfields : ∀ f ∈ t.2, IsName f.1)
    {table : List String} {lines : List (List Char)} :
    linesWithout drops table (tableLines t ++ lines)
      = tableLinesWithout drops t ++ linesWithout drops [t.1] lines := by
  rw [tableLines, List.cons_append, List.cons_append, linesWithout, linesWithout_heading hname,
    linesWithout_fields hfields, tableLinesWithout]
  cases hd : drops [t.1] <;> simp [isGone_pair, hd]

theorem linesWithout_tables (hnames : ∀ t ∈ ts, IsName t.1)
    (hfields : ∀ t ∈ ts, ∀ f ∈ t.2, IsName f.1) (table : List String) :
    linesWithout drops table (ts.flatMap tableLines ++ [[]])
      = ts.flatMap (tableLinesWithout drops) ++ [[]] := by
  induction ts generalizing table with
  | nil => simp [linesWithout]
  | cons t ts ih =>
    rw [List.flatMap_cons, List.append_assoc,
      linesWithout_table (hnames t List.mem_cons_self) (hfields t List.mem_cons_self),
      ih (fun u hu => hnames u (List.mem_cons_of_mem _ hu))
        (fun u hu => hfields u (List.mem_cons_of_mem _ hu)), List.flatMap_cons, List.append_assoc]

/-- The lines of dropped fields and tables are taken out of a document. -/
theorem linesWithout_document (h : Document fs ts) :
    linesWithout drops [] (documentLines fs ts ++ [[]]) = documentLinesWithout drops fs ts ++ [[]] := by
  rw [documentLines, List.append_assoc, linesWithout_fields h.plain.names,
    linesWithout_tables h.names fun t ht => (h.tables t ht).names, documentLinesWithout,
    List.append_assoc]
  simp only [List.nil_append, isGone_singleton, plainWithout]

theorem newline_notMem_documentLines (h : Document fs ts) :
    ∀ line ∈ documentLines fs ts, '\n' ∉ line := by
  intro line hline
  obtain hline | hline := List.mem_append.1 hline
  · obtain ⟨f, hf, rfl⟩ := List.mem_map.1 hline
    exact newline_notMem_fieldChars (h.plain.names f hf)
  · obtain ⟨t, ht, hline⟩ := List.mem_flatMap.1 hline
    simp only [tableLines, List.mem_cons] at hline
    obtain rfl | rfl | hline := hline
    · exact List.not_mem_nil
    · exact newline_notMem_headingChars (h.names t ht)
    · obtain ⟨f, hf, rfl⟩ := List.mem_map.1 hline
      exact newline_notMem_fieldChars ((h.tables t ht).names f hf)

theorem without_document (h : Document fs ts) :
    without drops (String.ofList (joinLines (documentLines fs ts)))
      = String.ofList (joinLines (documentLinesWithout drops fs ts)) := by
  rw [without, String.toList_ofList, splitOn_joinLines (newline_notMem_documentLines h),
    linesWithout_document h, intercalate_newline]

/-! ### Reading what is left of a document -/

theorem Writable.filter (h : Writable fs) (keep : String × Gas → Bool) : Writable (fs.filter keep) :=
  ⟨fun f hf => h.names f (List.mem_of_mem_filter hf),
    h.nodup.sublist (List.filter_sublist.map _), fun f hf => h.fit f (List.mem_of_mem_filter hf)⟩

/-- Tables as members. -/
def tableEntries (ts : List (String × List (String × Gas))) : Members :=
  ts.map fun t => (t.1, .table false false (fieldEntries t.2))

/-- **What is left of tables is read**, table by table. -/
theorem Reads.tables (hnames : ∀ t ∈ ts, IsName t.1) (htables : ∀ t ∈ ts, Writable t.2)
    (hnodup : (ts.map Prod.fst).Nodup) (hnew : ∀ t ∈ ts, t.1 ∉ ms.map Prod.fst) :
    Reads current ms (joinLines (ts.flatMap (tableLinesWithout drops)))
      (ms ++ tableEntries (tablesWithout drops ts)) := by
  induction ts generalizing current ms with
  | nil => simpa [joinLines, tableEntries, tablesWithout] using Reads.nil current ms
  | cons t ts ih =>
    have hrest {current : List String} {ms : Members} (hms : ∀ u ∈ ts, u.1 ∉ ms.map Prod.fst) :
        Reads current ms (joinLines (ts.flatMap (tableLinesWithout drops)))
          (ms ++ tableEntries (tablesWithout drops ts)) :=
      ih (fun u hu => hnames u (List.mem_cons_of_mem _ hu))
        (fun u hu => htables u (List.mem_cons_of_mem _ hu)) (List.nodup_cons.1 hnodup).2 hms
    rw [List.flatMap_cons, joinLines_append, tableLinesWithout, joinLines_cons]
    refine Reads.newline ?_
    cases hd : drops [t.1] with
    | true =>
      have hleft : tablesWithout drops (t :: ts) = tablesWithout drops ts := by
        simp [tablesWithout, hd]
      rw [if_pos rfl, hleft]
      exact hrest fun u hu => hnew u (List.mem_cons_of_mem _ hu)
    | false =>
      let fields := t.2.filter fun f => !drops [t.1, f.1]
      have hleft : ms ++ tableEntries (tablesWithout drops (t :: ts))
          = ms ++ [(t.1, .table false false (fieldEntries fields))]
            ++ tableEntries (tablesWithout drops ts) := by
        simp [tableEntries, tablesWithout, hd, fields]
      rw [if_neg Bool.false_ne_true, hleft]
      refine Reads.table (hnames t List.mem_cons_self) ((htables t List.mem_cons_self).filter _)
        (hnew t List.mem_cons_self) (hrest fun u hu => ?_)
      have hne : u.1 ≠ t.1 := fun heq => (List.nodup_cons.1 hnodup).1 (heq ▸ List.mem_map_of_mem hu)
      simp [hnew u (List.mem_cons_of_mem _ hu), hne]

/-- **What is left of a document is read.** -/
theorem reads_document (h : Document fs ts) (drops : List String → Bool) :
    Reads [] [] (joinLines (documentLinesWithout drops fs ts))
      (fieldEntries (plainWithout drops fs) ++ tableEntries (tablesWithout drops ts)) := by
  rw [documentLinesWithout, joinLines_append]
  refine Reads.fields id [] (fun hkey v => assignIn_nil hkey v) (h.plain.filter _)
    (fun f _ => List.not_mem_nil) ?_
  refine Reads.tables h.names h.tables h.nodup.of_append_right fun t ht hmem => ?_
  simp only [id, List.nil_append, fieldEntries, List.map_map] at hmem
  obtain ⟨f, hf, hname⟩ := List.mem_map.1 hmem
  have hfield : t.1 ∈ fs.map Prod.fst := hname ▸ List.mem_map_of_mem (List.mem_of_mem_filter hf)
  exact List.disjoint_of_nodup_append h.nodup hfield (List.mem_map_of_mem ht)

/-- No byte order mark stands in front. -/
theorem head_documentLines (h : Document fs ts) (drops : List String → Bool) :
    ∀ c ∈ (joinLines (documentLinesWithout drops fs ts)).head?, c.toNat ≠ 0xfeff := by
  rw [documentLinesWithout, joinLines_append]
  cases hleft : plainWithout drops fs with
  | nil =>
    cases ts with
    | nil => nofun
    | cons t ts =>
      rintro _ ⟨⟩
      decide
  | cons f left =>
    have hname : IsName f.1 := (h.plain.filter _).names f (hleft ▸ List.mem_cons_self)
    obtain ⟨c, t, ht, hc⟩ := hname.exists_cons
    rw [List.map_cons, joinLines_cons, fieldChars, ht]
    rintro _ ⟨⟩ hmark
    have hc' : c = '\ufeff' := Char.toNat_inj.1 hmark
    exact ne_of_kind hc (by decide) hc'

theorem parse_of_reads {ms' : Members} (hbom : ∀ c ∈ cs.head?, c.toNat ≠ 0xfeff)
    (h : Reads [] [] cs ms') : parse (String.ofList cs) = some (valuesOf ms') := by
  rw [parse, String.toList_ofList]
  cases cs with
  | nil => rw [h _ (Nat.lt_succ_self _)]; rfl
  | cons c cs =>
    simp only [if_neg (hbom c rfl)]
    rw [h _ (Nat.lt_succ_self _)]
    rfl

/-! ### Members as JSON -/

theorem membersToJson_valuesOf (ms : Members) :
    membersToJson (valuesOf ms) = ms.map fun m => (some m.1, m.2.toValue.toJson) := by
  induction ms with
  | nil => rw [valuesOf, membersToJson, List.map_nil]
  | cons m ms ih => rw [valuesOf, membersToJson, ih, List.map_cons]

theorem toJson_fieldEntries (fs : List (String × Gas)) :
    membersToJson (valuesOf (fieldEntries fs))
      = (plainMembers fs).map fun (name, j) => (some name, j) := by
  rw [membersToJson_valuesOf, fieldEntries, plainMembers, List.map_map, List.map_map]
  refine List.map_congr_left fun f _ => ?_
  simp only [Function.comp_apply, Entry.toValue, Value.toJson]
  rfl

theorem toJson_entries (fs : List (String × Gas)) (ts : List (String × List (String × Gas))) :
    membersToJson (valuesOf (fieldEntries fs ++ tableEntries ts))
      = (plainMembers fs ++ tableMembers ts).map fun (name, j) => (some name, j) := by
  rw [membersToJson_valuesOf, List.map_append, ← membersToJson_valuesOf, toJson_fieldEntries,
    List.map_append]
  congr 1
  rw [tableEntries, tableMembers, List.map_map, List.map_map]
  refine List.map_congr_left fun t _ => ?_
  simp only [Function.comp_apply, Entry.toValue, Value.toJson, toJson_fieldEntries]
  rfl

/-! ### Writing -/

theorem fieldLine?_of_le {f : String × Gas} (h : f.2.toNat ≤ largestInteger) :
    fieldLine? f.1 f.2 = some (String.ofList (fieldChars f ++ ['\n'])) := by
  refine (if_pos h).trans (congrArg some (String.toList_injective ?_))
  simp [fieldChars]

theorem join_map_ofList {α : Type} (g : α → List Char) (xs : List α) :
    String.join (xs.map fun x => String.ofList (g x)) = String.ofList (xs.flatMap g) := by
  refine String.toList_injective ?_
  simp only [String.toList_join, List.flatMap_map, String.toList_ofList]

/-- One of them has no result, so they have none. -/
theorem mapM_eq_none {α β : Type} {g : α → Option β} {xs : List α} {x : α} (hx : x ∈ xs)
    (h : g x = none) : xs.mapM g = none := by
  induction xs with
  | nil => cases hx
  | cons y xs ih =>
    rw [List.mapM_cons]
    obtain rfl | hx := List.mem_cons.1 hx
    · rw [h]; rfl
    · rw [ih hx]
      cases g y <;> rfl

theorem fieldLines?_eq (fs : List (String × Gas)) :
    fieldLines? fs = (fs.mapM fun f => fieldLine? f.1 f.2).map String.join := rfl

/-- Fields can be written if their numbers fit, -/
theorem fieldLines?_of_le (h : ∀ f ∈ fs, f.2.toNat ≤ largestInteger) :
    fieldLines? fs = some (String.ofList (joinLines (fs.map fieldChars))) := by
  have hlines := Json.mapM_eq_some (f := fun f : String × Gas => fieldLine? f.1 f.2)
    fun f hf => fieldLine?_of_le (h f hf)
  rw [fieldLines?_eq, hlines, Option.map_some, join_map_ofList, joinLines, List.flatMap_map]

/-- and only then. -/
theorem fieldLines?_eq_none {f : String × Gas} (hf : f ∈ fs) (h : largestInteger < f.2.toNat) :
    fieldLines? fs = none := by
  rw [fieldLines?_eq, mapM_eq_none hf (if_neg (Nat.not_le_of_lt h)), Option.map_none]

theorem tableText?_of_le (h : ∀ f ∈ t.2, f.2.toNat ≤ largestInteger) :
    tableText? t.1 t.2 = some (String.ofList (joinLines (tableLines t))) := by
  rw [tableText?, fieldLines?_of_le h]
  refine congrArg some (String.toList_injective ?_)
  simp [tableLines, headingChars, joinLines]

theorem tableText?_eq_none {f : String × Gas} (hf : f ∈ t.2) (h : largestInteger < f.2.toNat) :
    tableText? t.1 t.2 = none := by
  rw [tableText?, fieldLines?_eq_none hf h]
  rfl

end Toml

namespace Params

variable {p : Params} {fs : List (String × Gas)}

/-- The numbers of all fields. -/
def values (p : Params) : List Gas :=
  (p.plainFields ++ p.tables.flatMap (·.2)).map (·.2)

/-- The numbers are those of the plain fields and those in the tables. -/
theorem forall_values {Q : Gas → Prop} :
    (∀ g ∈ p.values, Q g) ↔ (∀ f ∈ p.plainFields, Q f.2) ∧ ∀ t ∈ p.tables, ∀ f ∈ t.2, Q f.2 := by
  rw [values, List.forall_mem_map, List.forall_mem_append, List.forall_mem_flatMap]

theorem writable_of_names (names : List String) (hfs : fs.map Prod.fst = names)
    (hnames : ∀ name ∈ names, IsName name) (hnodup : names.Nodup)
    (hfit : ∀ f ∈ fs, f.2.toNat ≤ largestInteger) : Writable fs :=
  ⟨fun _ hf => hnames _ (hfs ▸ List.mem_map_of_mem hf), hfs.symm ▸ hnodup, hfit⟩

theorem isDocument (h : ∀ g ∈ p.values, g.toNat ≤ largestInteger) :
    Document p.plainFields p.tables := by
  obtain ⟨hplain, htables⟩ := forall_values.1 h
  have hinstructions := htables _ List.mem_cons_self
  have heffects := htables _ (List.mem_cons_of_mem _ List.mem_cons_self)
  refine ⟨writable_of_names (standard.plainFields.map Prod.fst) rfl (by decide +kernel)
    (by decide) hplain, ?_, ?_, ?_⟩
  · change ∀ t ∈ [("op_const_gas", _), ("common_gas", _)], _
    simp only [List.forall_mem_cons]
    exact ⟨by decide +kernel, by decide +kernel, nofun⟩
  · simp only [tables, List.forall_mem_cons]
    exact ⟨writable_of_names (InstructionCosts.standard.fields.map Prod.fst) rfl (by decide +kernel)
      (by decide) hinstructions, writable_of_names (EffectCosts.standard.fields.map Prod.fst) rfl
      (by decide +kernel) (by decide) heffects, nofun⟩
  · change (standard.plainFields.map Prod.fst ++ standard.tables.map Prod.fst).Nodup
    decide

theorem toTomlText?_eq (p : Params) :
    p.toTomlText? = (fieldLines? p.plainFields).bind fun plain =>
      (p.tables.mapM fun t => tableText? t.1 t.2).bind fun tables =>
        some (plain ++ String.join tables) := rfl

/-- Parameters can be written if their numbers fit, -/
theorem toTomlText?_of_le (h : ∀ g ∈ p.values, g.toNat ≤ largestInteger) :
    p.toTomlText? = some (String.ofList (joinLines (documentLines p.plainFields p.tables))) := by
  obtain ⟨hplain, htables⟩ := forall_values.1 h
  have hwritten := Json.mapM_eq_some (f := fun (t : String × List (String × Gas)) =>
    tableText? t.1 t.2) fun t ht => tableText?_of_le (htables t ht)
  rw [toTomlText?_eq, fieldLines?_of_le hplain, hwritten, Option.bind_some, Option.bind_some,
    join_map_ofList]
  refine congrArg some (String.toList_injective ?_)
  simp [documentLines, joinLines, List.flatMap_assoc]

/-- and only then. -/
theorem toTomlText?_eq_none (h : ¬ ∀ g ∈ p.values, g.toNat ≤ largestInteger) :
    p.toTomlText? = none := by
  simp only [forall_values, not_and_or, not_forall, not_le] at h
  obtain ⟨f, hf, hlarge⟩ | ⟨t, ht, f, hf, hlarge⟩ := h
  · rw [toTomlText?_eq, fieldLines?_eq_none hf hlarge, Option.bind_none]
  · rw [toTomlText?_eq, mapM_eq_none ht (tableText?_eq_none hf hlarge)]
    simp only [Option.bind_none, Option.bind_fun_none]

/-- **Parameters load back from TOML**, with standard values for the fields whose lines
are taken out. -/
theorem ofTomlText?_without (h : ∀ g ∈ p.values, g.toNat ≤ largestInteger)
    (drops : List String → Bool) {text : String} (htext : p.toTomlText? = some text) :
    ofTomlText? (without drops text) = some (p.reset drops) := by
  obtain rfl := Option.some.inj ((toTomlText?_of_le h).symm.trans htext)
  have hread := parse_of_reads (head_documentLines (isDocument h) drops)
    (reads_document (isDocument h) drops)
  rw [ofTomlText?, without_document (isDocument h), hread, Option.bind_eq_bind, Option.bind_some,
    toJson_entries]
  -- the plain fields come first here, and the tables in the object
  exact (ofTree?_perm (List.perm_append_comm.map _)).trans (ofTree?_members drops p)

/-- **Parameters load back from both of their texts**, and what is left out takes its
standard value: whichever fields or tables are taken out of the object that the JSON text
spells, or out of the lines of the TOML text, what is loaded is the parameters with these
fields reset. A TOML text can be written exactly if every number fits into 64 bits with
a sign. -/
theorem texts_load_back (p : Params) (drops : List String → Bool) :
    (∃ j, Json.parse p.toJsonText = some j ∧
      ofJsonText? (j.without drops).render = some (p.reset drops)) ∧
    ((∃ text, p.toTomlText? = some text) ↔ ∀ g ∈ p.values, g.toNat ≤ 2 ^ 63 - 1) ∧
    ∀ text, p.toTomlText? = some text →
      ofTomlText? (Toml.without drops text) = some (p.reset drops) := by
  have hwritten : (∃ text, p.toTomlText? = some text) ↔ ∀ g ∈ p.values, g.toNat ≤ 2 ^ 63 - 1 := by
    constructor
    · rintro ⟨text, htext⟩
      by_contra h
      rw [toTomlText?_eq_none h] at htext
      cases htext
    · exact fun h => ⟨_, toTomlText?_of_le h⟩
  exact ⟨⟨toJson p, p.parse_toJsonText, ofJsonText?_without drops p⟩, hwritten,
    fun text htext => ofTomlText?_without (hwritten.1 ⟨text, htext⟩) drops htext⟩

/-! ### A document of which some is left -/

/-- Parameters that differ from the standard ones in the tables and outside of them. -/
def uncommon : Params where
  instructions := { InstructionCosts.standard with keccak := 31 }
  effects := { EffectCosts.standard with call := 1000, sload := 900 }
  maxCallDepth := 8
  maxCodeSize := 9223372036854775807
  defaultGasLimit := 0

/-- A table, a cost of the other one and a plain field. -/
def leftOut (path : List String) : Bool :=
  [["op_const_gas"], ["common_gas", "sload"], ["max_code_size"]].contains path

/-- The text of the parameters is there, and what is left of it is loaded; with one more
byte of code there is none. -/
theorem texts_load_back_uncommon :
    (∃ text, uncommon.toTomlText? = some text ∧
      ofTomlText? (Toml.without leftOut text) = some
        { standard with
          effects := { EffectCosts.standard with call := 1000 }
          maxCallDepth := 8
          defaultGasLimit := 0 }) ∧
    ¬ ∃ text, { uncommon with maxCodeSize := 9223372036854775808 }.toTomlText? = some text := by
  have hall : uncommon.values.all (fun g => decide (g.toNat ≤ 2 ^ 63 - 1)) = true := by decide
  have hreset : uncommon.reset leftOut =
      { standard with
        effects := { EffectCosts.standard with call := 1000 }
        maxCallDepth := 8
        defaultGasLimit := 0 } := by decide
  obtain ⟨-, hwritten, hread⟩ := texts_load_back uncommon leftOut
  obtain ⟨text, htext⟩ := hwritten.2 fun g hg => of_decide_eq_true (List.all_eq_true.1 hall g hg)
  refine ⟨⟨text, htext, hreset ▸ hread text htext⟩, fun h => ?_⟩
  have hlarge := (texts_load_back { uncommon with maxCodeSize := 9223372036854775808 }
    leftOut).2.1.1 h 9223372036854775808 (by simp [values, plainFields])
  exact absurd hlarge (by decide)

end Params

end MeteredLedger
