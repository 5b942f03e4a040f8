import MeteredLedger.Params.Toml
import MeteredLedger.Proofs.Toml.Tokens

/-!
# Lines of TOML read back

A document of numbers in tables is read line by line: an empty line says nothing, a
heading opens a table, and a field gives a number to a key of the table that was
opened last (`Reads`). So fields are read in whatever number they are there
(`Reads.fields`), which is what is left to read of a document when some of its lines
are taken out (`without`).
-/

namespace MeteredLedger.Toml

open Members (assignIn openTable)

variable {name : String} {current : List String} {ms ms₁ ms' below : Members} {cs : List Char}
  {f : String × Gas} {fs : List (String × Gas)}

/-! ### Lines -/

/-- The line that gives a number to a key. -/
def fieldChars (f : String × Gas) : List Char :=
  f.1.toList ++ ' ' :: '=' :: ' ' :: Nat.toDigits 10 f.2.toNat

/-- The line that opens a table. -/
def headingChars (name : String) : List Char := '[' :: (name.toList ++ [']'])

/-- From here on, with the table at `current` open and these members so far, a document
comes to the members `ms'`. -/
def Reads (current : List String) (ms : Members) (cs : List Char) (ms' : Members) : Prop :=
  ∀ fuel, cs.length < fuel → lines? fuel current ms cs = some ms'

theorem Reads.nil (current : List String) (ms : Members) : Reads current ms [] ms := by
  intro fuel hfuel
  obtain ⟨fuel, rfl⟩ := Nat.exists_eq_add_of_lt hfuel
  rw [lines?, skipLines_nil]

/-- An empty line says nothing. -/
theorem Reads.newline (h : Reads current ms cs ms') : Reads current ms ('\n' :: cs) ms' := by
  intro fuel hfuel
  rw [← h fuel (Nat.lt_of_succ_lt hfuel)]
  cases fuel with
  | zero => rfl
  | succ fuel => simp only [lines?, skipLines_newline]

/-- A line that starts with a name is not skipped. -/
theorem skipLines_name (h : IsName name) (cs : List Char) :
    skipLines (name.toList ++ cs) = name.toList ++ cs := by
  obtain ⟨c, t, ht, hc⟩ := h.exists_cons
  rw [ht, List.cons_append]
  exact skipLines_cons (isBlank_of_isKeyChar hc) (ne_of_kind hc (by decide))
    (ne_of_kind hc (by decide)) (ne_of_kind hc (by decide))

/-- A line that starts with a name gives a value to a key. -/
theorem lines?_name (h : IsName name) {path : List String} {v : Value} {rest after : List Char}
    (hkey : key? (name.toList ++ cs) = some (path, '=' :: rest))
    (hvalue : value? (rest.length + 1) 0 (skipBlanks rest) = some (v, '\n' :: after))
    (hassign : assignIn current ms path v = some ms₁) (fuel : Nat) :
    lines? (fuel + 1) current ms (name.toList ++ cs) = lines? fuel current ms₁ after := by
  obtain ⟨c, t, ht, hc⟩ := h.exists_cons
  have hskip := skipLines_name h cs
  rw [ht, List.cons_append] at hkey hskip ⊢
  rw [lines?, hskip]
  split
  · rename_i heq
    cases heq
  · rename_i heq
    exact absurd (List.cons.inj heq).1 (ne_of_kind hc (by decide))
  · rename_i heq
    exact absurd (List.cons.inj heq).1 (ne_of_kind hc (by decide))
  · rename_i heq
    exact absurd (List.cons.inj heq).1 (ne_of_kind hc (by decide))
  · simp [hkey, hvalue, lineRest?_newline, hassign]

/-- A line gives a number to a key. -/
theorem Reads.field (hname : IsName f.1) (hfit : f.2.toNat ≤ largestInteger)
    (hassign : assignIn current ms [f.1] (.integer f.2.toNat) = some ms₁)
    (h : Reads current ms₁ cs ms') : Reads current ms (fieldChars f ++ '\n' :: cs) ms' := by
  intro fuel hfuel
  obtain ⟨fuel, rfl⟩ := Nat.exists_eq_add_of_lt hfuel
  have hkey : key? (f.1.toList ++ ' ' :: '=' :: ' ' :: (Nat.toDigits 10 f.2.toNat ++ '\n' :: cs))
      = some ([f.1], '=' :: ' ' :: (Nat.toDigits 10 f.2.toNat ++ '\n' :: cs)) :=
    key?_name hname (by rintro _ ⟨⟩; decide) (by rintro _ ⟨⟩; decide)
  rw [fieldChars, List.append_assoc, List.cons_append, List.cons_append, List.cons_append,
    lines?_name hname hkey (by rw [skipBlanks_toDigits]; exact value?_toDigits hfit _ _ _) hassign]
  refine h _ ?_
  simp only [List.length_append, List.length_cons]
  omega

theorem header?_name (h : IsName name) (cs : List Char) :
    header? [']'] (name.toList ++ ']' :: '\n' :: cs) = some ([name], cs) := by
  have hkey : key? (name.toList ++ ']' :: '\n' :: cs) = some ([name], ']' :: '\n' :: cs) :=
    key?_name h (by rintro _ ⟨⟩; decide) (by rintro _ ⟨⟩; decide)
  simp [header?, hkey, lineRest?_newline]

/-- A line opens a table. -/
theorem Reads.heading (hname : IsName name) (hopen : openTable ms [name] = some ms₁)
    (h : Reads [name] ms₁ cs ms') : Reads current ms (headingChars name ++ '\n' :: cs) ms' := by
  intro fuel hfuel
  obtain ⟨fuel, rfl⟩ := Nat.exists_eq_add_of_lt hfuel
  obtain ⟨c, t, ht, hc⟩ := hname.exists_cons
  have hheader := header?_name hname cs
  have hskip : skipLines (headingChars name ++ '\n' :: cs)
      = '[' :: (name.toList ++ ']' :: '\n' :: cs) := by
    rw [headingChars, List.cons_append, List.append_assoc]
    exact skipLines_cons (by decide) (by decide) (by decide) (by decide)
  rw [lines?, hskip]
  rw [ht, List.cons_append] at hheader ⊢
  split
  · rename_i heq
    cases heq
  · rename_i heq
    cases heq
  · rename_i heq
    exact absurd (List.cons.inj (List.cons.inj heq).2).1 (ne_of_kind hc (by decide))
  · rename_i heq
    obtain rfl := (List.cons.inj heq).2
    simp only [hheader, Option.bind_eq_bind, Option.bind_some, hopen]
    refine h _ ?_
    simp only [headingChars, List.length_append, List.length_cons]
    omega
  · rename_i hother
    exact (hother _ rfl).elim

/-! ### Members -/

namespace Members

variable {key : String} {e e' : Entry} {v : Value}

theorem find?_eq_none (h : key ∉ ms.map Prod.fst) : ms.find? (·.1 == key) = none :=
  List.find?_eq_none.2 fun _ hm hkey => h (eq_of_beq hkey ▸ List.mem_map_of_mem hm)

theorem get?_eq_none (h : key ∉ ms.map Prod.fst) : ms.get? key = none := by
  rw [get?, find?_eq_none h]
  rfl

theorem get?_append_self (h : key ∉ ms.map Prod.fst) : get? (ms ++ [(key, e)]) key = some e := by
  rw [get?, List.find?_append, find?_eq_none h]
  simp

/-- A new key comes last. -/
theorem put_new (h : key ∉ ms.map Prod.fst) : ms.put key e = ms ++ [(key, e)] := by
  refine if_neg fun hany => h ?_
  obtain ⟨m, hm, hkey⟩ := List.any_eq_true.1 hany
  exact eq_of_beq hkey ▸ List.mem_map_of_mem hm

/-- The last key stays the last. -/
theorem put_last (h : key ∉ ms.map Prod.fst) :
    put (ms ++ [(key, e)]) key e' = ms ++ [(key, e')] := by
  have hany : (ms ++ [(key, e)]).any (·.1 == key) = true := by simp
  have hms : ms.map (fun m => if m.1 == key then (key, e') else m) = ms := by
    refine (List.map_congr_left fun m hm => if_neg fun hkey => h ?_).trans (List.map_id _)
    exact eq_of_beq hkey ▸ List.mem_map_of_mem hm
  rw [put, if_pos hany, List.map_append, hms]
  simp

/-- A new key gets its value. -/
theorem assign_new (h : key ∉ ms.map Prod.fst) (v : Value) :
    ms.assign [key] v = some (ms ++ [(key, .value v)]) := by
  simp [assign, descend, get?_eq_none h, put_new h]

theorem assignIn_nil (h : key ∉ ms.map Prod.fst) (v : Value) :
    assignIn [] ms [key] v = some (ms ++ [(key, .value v)]) := by
  rw [assignIn, descend, assign_new h]

theorem openTable_new (h : key ∉ ms.map Prod.fst) :
    ms.openTable [key] = some (ms ++ [(key, .table false false [])]) := by
  simp [openTable, descend, get?_eq_none h, put_new h]

/-- A new key of the table that was opened last gets its value there. -/
theorem assignIn_last {table : String} (htable : table ∉ ms.map Prod.fst)
    (hkey : key ∉ below.map Prod.fst) (v : Value) :
    assignIn [table] (ms ++ [(table, .table false false below)]) [key] v
      = some (ms ++ [(table, .table false false (below ++ [(key, .value v)]))]) := by
  simp [assignIn, descend, get?_append_self htable, assign_new hkey, put_last htable]

end Members

/-! ### Tables -/

/-- Fields that have names which need no quotes, each of its own, and numbers that fit. -/
structure Writable (fs : List (String × Gas)) : Prop where
  names : ∀ f ∈ fs, IsName f.1
  nodup : (fs.map Prod.fst).Nodup
  fit : ∀ f ∈ fs, f.2.toNat ≤ largestInteger

/-- Fields as members. -/
def fieldEntries (fs : List (String × Gas)) : Members :=
  fs.map fun f => (f.1, .value (.integer f.2.toNat))

/-- Lines, each with its end. -/
def joinLines (lines : List (List Char)) : List Char := lines.flatMap (· ++ ['\n'])

theorem joinLines_cons (line : List Char) (lines : List (List Char)) (cs : List Char) :
    joinLines (line :: lines) ++ cs = line ++ '\n' :: (joinLines lines ++ cs) := by
  simp [joinLines]

theorem joinLines_append (lines more : List (List Char)) :
    joinLines (lines ++ more) = joinLines lines ++ joinLines more := List.flatMap_append

/-- **Fields are read, line by line**, into the table that was opened last: `place` puts
the members of that table where they are in the document. -/
theorem Reads.fields (place : Members → Members) (below : Members)
    (hplace : ∀ {below : Members} {key : String}, key ∉ below.map Prod.fst → ∀ v,
      assignIn current (place below) [key] v = some (place (below ++ [(key, .value v)])))
    (hfs : Writable fs) (hnew : ∀ f ∈ fs, f.1 ∉ below.map Prod.fst)
    (h : Reads current (place (below ++ fieldEntries fs)) cs ms') :
    Reads current (place below) (joinLines (fs.map fieldChars) ++ cs) ms' := by
  induction fs generalizing below with
  | nil => simpa [joinLines, fieldEntries] using h
  | cons f fs ih =>
    obtain ⟨hnames, hnodup, hfit⟩ := hfs
    rw [List.map_cons, List.nodup_cons] at hnodup
    rw [List.map_cons, joinLines_cons]
    refine Reads.field (hnames f List.mem_cons_self) (hfit f List.mem_cons_self)
      (hplace (hnew f List.mem_cons_self) _) ?_
    refine ih _ ⟨fun g hg => hnames g (List.mem_cons_of_mem _ hg), hnodup.2,
      fun g hg => hfit g (List.mem_cons_of_mem _ hg)⟩ (fun g hg => ?_) ?_
    · have hne : g.1 ≠ f.1 := fun heq => hnodup.1 (heq ▸ List.mem_map_of_mem hg)
      simp [hnew g (List.mem_cons_of_mem _ hg), hne]
    · simpa [fieldEntries] using h

/-- **A table is read**, heading and fields. -/
theorem Reads.table (hname : IsName name) (hfs : Writable fs) (hnew : name ∉ ms.map Prod.fst)
    (h : Reads [name] (ms ++ [(name, .table false false (fieldEntries fs))]) cs ms') :
    Reads current ms (joinLines (headingChars name :: fs.map fieldChars) ++ cs) ms' := by
  let place (below : Members) : Members := ms ++ [(name, .table false false below)]
  rw [joinLines_cons]
  refine Reads.heading hname (Members.openTable_new hnew) ?_
  exact Reads.fields place [] (fun hkey v => Members.assignIn_last hnew hkey v) hfs
    (fun f _ => List.not_mem_nil) h

/-! ### Documents without some of their lines -/

/-- Whether a field or a table is dropped, or is in a table that is. -/
def isGone (drops : List String → Bool) (path : List String) : Bool := path.inits.tail.any drops

theorem isGone_singleton (drops : List String → Bool) (key : String) :
    isGone drops [key] = drops [key] := by
  simp [isGone]

theorem isGone_pair (drops : List String → Bool) (table key : String) :
    isGone drops [table, key] = (drops [table] || drops [table, key]) := by
  simp [isGone]

/-- The lines of a document without the ones of dropped fields and tables. `table` is
the path of the table that was opened last. -/
def linesWithout (drops : List String → Bool) :
    (table : List String) → List (List Char) → List (List Char)
  | _, [] => []
  | table, [] :: lines => [] :: linesWithout drops table lines
  | _, ('[' :: line) :: lines =>
    let table := [String.ofList (line.takeWhile isKeyChar)]
    if isGone drops table then linesWithout drops table lines
    else ('[' :: line) :: linesWithout drops table lines
  | table, line :: lines =>
    if isGone drops (table ++ [String.ofList (line.takeWhile isKeyChar)]) then
      linesWithout drops table lines
    else line :: linesWithout drops table lines

/-- A document without the lines of dropped fields and tables. -/
def without (drops : List String → Bool) (text : String) : String :=
  String.ofList (['\n'].intercalate (linesWithout drops [] (text.toList.splitOn '\n')))

variable {drops : List String → Bool} {table : List String} {lines : List (List Char)}

/-- A name is what a line starts with. -/
theorem takeWhile_name (h : IsName name) {c : Char} (hc : isKeyChar c = false) (cs : List Char) :
    String.ofList ((name.toList ++ c :: cs).takeWhile isKeyChar) = name := by
  rw [List.takeWhile_append_of_pos h.2, List.takeWhile_cons_of_neg (by simp [hc]), List.append_nil,
    String.ofList_toList]

theorem linesWithout_field (h : IsName f.1) :
    linesWithout drops table (fieldChars f :: lines)
      = if isGone drops (table ++ [f.1]) then linesWithout drops table lines
        else fieldChars f :: linesWithout drops table lines := by
  obtain ⟨c, t, ht, hc⟩ := h.exists_cons
  have hname : String.ofList ((fieldChars f).takeWhile isKeyChar) = f.1 :=
    takeWhile_name h (by decide) _
  rw [linesWithout, hname]
  · rw [fieldChars, ht]
    nofun
  · rw [fieldChars, ht]
    rintro line heq
    exact absurd (List.cons.inj heq).1 (ne_of_kind hc (by decide))

theorem linesWithout_heading (h : IsName name) :
    linesWithout drops table (headingChars name :: lines)
      = if drops [name] then linesWithout drops [name] lines
        else headingChars name :: linesWithout drops [name] lines := by
  have hname : String.ofList ((name.toList ++ [']']).takeWhile isKeyChar) = name :=
    takeWhile_name h (by decide) _
  rw [headingChars, linesWithout]
  simp only [hname, isGone_singleton]

theorem linesWithout_fields (h : ∀ f ∈ fs, IsName f.1) :
    linesWithout drops table (fs.map fieldChars ++ lines)
      = (fs.filter fun f => !isGone drops (table ++ [f.1])).map fieldChars
        ++ linesWithout drops table lines := by
  induction fs with
  | nil => rfl
  | cons f fs ih =>
    rw [List.map_cons, List.cons_append, linesWithout_field (h f List.mem_cons_self),
      ih fun g hg => h g (List.mem_cons_of_mem _ hg)]
    cases hd : isGone drops (table ++ [f.1]) <;> simp [hd]

/-! ### Splitting a document into lines -/

theorem splitOn_joinLines (h : ∀ line ∈ lines, '\n' ∉ line) :
    (joinLines lines).splitOn '\n' = lines ++ [[]] := by
  induction lines with
  | nil => rfl
  | cons line lines ih =>
    have hline := joinLines_cons line lines []
    rw [List.append_nil, List.append_nil] at hline
    have hfirst : ∀ c ∈ line, (c == '\n') = false := fun c hc =>
      beq_eq_false_iff_ne.2 fun heq => h line List.mem_cons_self (heq ▸ hc)
    rw [hline, List.splitOn, List.splitOnP_append_cons_of_forall_mem hfirst _ (beq_self_eq_true _)]
    exact congrArg (line :: ·) (ih fun l hl => h l (List.mem_cons_of_mem _ hl))

theorem intercalate_newline (lines : List (List Char)) :
    ['\n'].intercalate (lines ++ [[]]) = joinLines lines := by
  induction lines with
  | nil => rfl
  | cons line lines ih =>
    have hline := joinLines_cons line lines []
    rw [List.append_nil, List.append_nil] at hline
    rw [hline, ← ih]
    cases lines <;> rfl

theorem newline_notMem_name (h : IsName name) : '\n' ∉ name.toList := fun hmem =>
  absurd (h.2 _ hmem) (by decide)

theorem newline_notMem_fieldChars (h : IsName f.1) : '\n' ∉ fieldChars f := by
  intro hmem
  simp only [fieldChars, List.mem_append, List.mem_cons] at hmem
  obtain hmem | hmem | hmem | hmem | hmem := hmem
  · exact newline_notMem_name h hmem
  · cases hmem
  · cases hmem
  · cases hmem
  · exact absurd (isDigit_of_mem_toDigits hmem) (by decide)

theorem newline_notMem_headingChars (h : IsName name) : '\n' ∉ headingChars name := by
  intro hmem
  simp only [headingChars, List.mem_append, List.mem_cons] at hmem
  obtain hmem | hmem | hmem | hmem := hmem
  · cases hmem
  · exact newline_notMem_name h hmem
  · cases hmem
  · cases hmem

end MeteredLedger.Toml
