import Mathlib.Algebra.Ring.Int.Defs
import Mathlib.Data.List.Forall2
import Mathlib.Data.Option.Basic
import MeteredLedger.Json.Parse

/-!
# Rendered JSON reads back

Where the text of a value ends is settled by what stands behind it: a number goes on as long as there
are digits, and everything else ends by itself. Behind a value inside of an array or an object comes a
comma or the end of that (`EndsValue`), so the value at the front of what is rendered is the one that
was rendered, and what is left is what stood behind it (`value?_renderChars`). It takes no more fuel
than there are characters.

Two kinds of values are left out (`isPlain`): a string without a text, which may be rendered in other
words than it was read in, and a number that is not whole, which is rendered as it is spelled, and need
not be spelled well.
-/

namespace MeteredLedger.Json

/-! ### Plain values -/

mutual

/-- Whether all strings in a value have a text and all its numbers are whole. -/
def isPlain : Json → Bool
  | .decimal _ | .broken => false
  | .array js => arePlain js
  | .object ms => arePlainMembers ms
  | _ => true

/-- Whether all elements are plain. -/
def arePlain : List Json → Bool
  | [] => true
  | j :: js => j.isPlain && arePlain js

/-- Whether all members are plain, with a text for a key. -/
def arePlainMembers : List (Option String × Json) → Bool
  | [] => true
  | (key, j) :: ms => key.isSome && j.isPlain && arePlainMembers ms

end

/-! ### What stands behind a value -/

/-- Nothing follows, or a comma, or the end of an array or an object. -/
def EndsValue (rest : List Char) : Prop := ∀ c ∈ rest.head?, c = ',' ∨ c = ']' ∨ c = '\x7d'

namespace EndsValue

variable {rest : List Char}

theorem nil : EndsValue [] := fun _ h => by cases h

theorem comma (rest : List Char) : EndsValue (',' :: rest) := by
  rintro _ ⟨⟩
  exact .inl rfl

theorem bracket (rest : List Char) : EndsValue (']' :: rest) := by
  rintro _ ⟨⟩
  exact .inr (.inl rfl)

theorem brace (rest : List Char) : EndsValue ('\x7d' :: rest) := by
  rintro _ ⟨⟩
  exact .inr (.inr rfl)

/-- No number goes on there. -/
theorem takeWhile_isDigit (h : EndsValue rest) : rest.takeWhile isDigit = [] := by
  cases rest with
  | nil => rfl
  | cons c rest => obtain rfl | rfl | rfl := h c rfl <;> rfl

theorem dropWhile_isDigit (h : EndsValue rest) : rest.dropWhile isDigit = rest := by
  cases rest with
  | nil => rfl
  | cons c rest => obtain rfl | rfl | rfl := h c rfl <;> rfl

theorem fraction? (h : EndsValue rest) : Json.fraction? rest = some ([], rest) := by
  cases rest with
  | nil => rfl
  | cons c rest => obtain rfl | rfl | rfl := h c rfl <;> rfl

theorem exponent? (h : EndsValue rest) : Json.exponent? rest = some ([], rest) := by
  cases rest with
  | nil => rfl
  | cons c rest => obtain rfl | rfl | rfl := h c rfl <;> rfl

end EndsValue

/-! ### Numbers -/

theorem isDigit_of_mem_renderNat {n : Nat} {c : Char} (h : c ∈ renderNat n) : isDigit c = true :=
  Nat.isDigit_of_mem_toDigits (by decide) (by decide) h

theorem ofDigits_renderNat (n : Nat) : ofDigits (renderNat n) = n := Nat.ofDigitChars_ten_toDigits

/-- No number but zero starts with the digit zero. -/
theorem eq_zero_of_renderNat {n : Nat} {ds : List Char} (h : renderNat n = '0' :: ds) : n = 0 := by
  induction n using Nat.strongRecOn generalizing ds with
  | ind n ih =>
    unfold renderNat at h ih
    by_cases hn : n < 10
    · rw [Nat.toDigits_of_lt_base hn, List.cons.injEq] at h
      have hdigit : ∀ n < 10, Nat.digitChar n = '0' → n = 0 := by decide
      exact hdigit n hn h.1
    · rw [Nat.toDigits_of_base_le (by decide) (Nat.le_of_not_lt hn), List.append_eq_cons_iff] at h
      obtain ⟨hnil, -⟩ | ⟨ds', hds, -⟩ := h
      · exact absurd hnil Nat.toDigits_ne_nil
      · have := ih (n / 10) (by omega) hds
        omega

/-- Digits without a zero in front, up to what ends a value. -/
theorem magnitude?_append {ds rest : List Char} (hne : ds ≠ [])
    (hdigits : ∀ c ∈ ds, isDigit c = true) (hzero : ∀ t, ds = '0' :: t → t = [])
    (h : EndsValue rest) : magnitude? (ds ++ rest) = some (ds, [], rest) := by
  have htake : (ds ++ rest).takeWhile isDigit = ds := by
    rw [List.takeWhile_append_of_pos hdigits, h.takeWhile_isDigit, List.append_nil]
  have hdrop : (ds ++ rest).dropWhile isDigit = rest := by
    rw [List.dropWhile_append_of_pos hdigits, h.dropWhile_isDigit]
  unfold magnitude?
  simp only [htake, hdrop, h.fraction?]
  split
  · exact absurd rfl hne
  · simp [h.exponent?]
  · rename_i t hsingle
    exact absurd (hzero t rfl ▸ rfl) hsingle
  · simp [h.exponent?]

theorem magnitude?_renderNat (n : Nat) {rest : List Char} (h : EndsValue rest) :
    magnitude? (renderNat n ++ rest) = some (renderNat n, [], rest) := by
  refine magnitude?_append Nat.toDigits_ne_nil (fun c => isDigit_of_mem_renderNat) (fun t ht => ?_) h
  obtain rfl := eq_zero_of_renderNat ht
  exact (List.cons.inj ht).2.symm

theorem renderNat_eq_cons (n : Nat) : ∃ d ds, renderNat n = d :: ds ∧ isDigit d = true := by
  obtain ⟨d, ds, h⟩ := List.exists_cons_of_ne_nil (Nat.toDigits_ne_nil (n := n) (b := 10))
  have hd : d ∈ renderNat n := by
    rw [renderNat, h]
    exact List.mem_cons_self
  exact ⟨d, ds, h, isDigit_of_mem_renderNat hd⟩

/-- A sign or a digit, with which a number starts. -/
def StartsNumber (c : Char) : Prop := c = '-' ∨ isDigit c = true

instance (c : Char) : Decidable (StartsNumber c) := inferInstanceAs (Decidable (_ ∨ _))

theorem renderInt_eq_cons (n : Int) : ∃ c cs, renderInt n = c :: cs ∧ StartsNumber c := by
  cases n with
  | ofNat n =>
    obtain ⟨d, ds, h, hd⟩ := renderNat_eq_cons n
    exact ⟨d, ds, h, .inr hd⟩
  | negSucc n => exact ⟨'-', _, rfl, .inl rfl⟩

theorem number?_renderInt (n : Int) {rest : List Char} (h : EndsValue rest) :
    number? (renderInt n ++ rest) = some (.integer n, rest) := by
  cases n with
  | ofNat n =>
    show number? (renderNat n ++ rest) = _
    unfold number?
    split
    · rename_i cs hcs
      obtain ⟨d, ds, hds, hd⟩ := renderNat_eq_cons n
      rw [hds, List.cons_append, List.cons.injEq] at hcs
      rw [hcs.1] at hd
      cases hd
    · rw [magnitude?_renderNat n h]
      simp [ofDigits_renderNat]
  | negSucc n =>
    have hnumber : number? ('-' :: (renderNat (n + 1) ++ rest)) = some (.integer (.negSucc n), rest) := by
      simp [number?, magnitude?_renderNat (n + 1) h, ofDigits_renderNat, Int.negSucc_eq]
    exact hnumber

/-! ### Strings -/

/-- A piece of a string stands for a character, which it names or gives by its number. -/
def Part.Spells (p : Part) (c : Char) : Prop := p = .char c ∨ p = .unit c.toNat ∧ c.toNat < 32

/-- The number of a control character is read back from its digits. -/
theorem quad?_hexQuad {n : Nat} (h : n < 32) :
    ∃ a b c d, hexQuad n = [a, b, c, d] ∧ quad? a b c d = some n := by
  refine ⟨_, _, _, _, rfl, ?_⟩
  revert n
  decide

/-- What stands for a character inside of a string is read as one piece. -/
theorem stringParts_escape (c : Char) : ∃ p : Part, p.Spells c ∧
    ∀ before cs, stringParts before (escape c ++ cs) = stringParts (p :: before) cs := by
  unfold escape
  split_ifs with h₁ h₂ h₃ h₄ h₅ h₆ h₇ h₈
  · exact ⟨.char c, .inl rfl, fun _ _ => by subst h₁; rfl⟩
  · exact ⟨.char c, .inl rfl, fun _ _ => by subst h₂; rfl⟩
  · exact ⟨.char c, .inl rfl, fun _ _ => by subst h₃; rfl⟩
  · exact ⟨.char c, .inl rfl, fun _ _ => by subst h₄; rfl⟩
  · exact ⟨.char c, .inl rfl, fun _ _ => by subst h₅; rfl⟩
  · exact ⟨.char c, .inl rfl, fun _ _ => by subst h₆; rfl⟩
  · exact ⟨.char c, .inl rfl, fun _ _ => by subst h₇; rfl⟩
  · obtain ⟨a, b, d, e, hdigits, hvalue⟩ := quad?_hexQuad h₈
    refine ⟨.unit c.toNat, .inr ⟨rfl, h₈⟩, fun before cs => ?_⟩
    simp only [hdigits, List.cons_append, List.nil_append, stringParts, hvalue]
  · refine ⟨.char c, .inl rfl, fun before cs => ?_⟩
    simp [stringParts, h₂, h₈]

theorem stringParts_flatMap_escape (cs : List Char) : ∃ ps, List.Forall₂ Part.Spells ps cs ∧
    ∀ before rest, stringParts before (cs.flatMap escape ++ '"' :: rest)
      = some (before.reverse ++ ps, rest) := by
  induction cs with
  | nil => exact ⟨[], .nil, fun before rest => by simp [stringParts]⟩
  | cons c cs ih =>
    obtain ⟨p, hp, hread⟩ := stringParts_escape c
    obtain ⟨ps, hps, hrest⟩ := ih
    refine ⟨p :: ps, .cons hp hps, fun before rest => ?_⟩
    rw [List.flatMap_cons, List.append_assoc, hread, hrest, List.reverse_cons, List.append_assoc,
      List.singleton_append]

/-- A control character is no half of a pair. -/
theorem joinParts_unit {n : Nat} (h : n < 32) (ps : List Part) :
    joinParts (.unit n :: ps) = (Char.ofNat n :: ·) <$> joinParts ps := by
  have hhigh : isHigh n = false := by simp [isHigh]; omega
  have hlow : isLow n = false := by simp [isLow]; omega
  obtain _ | ⟨_ | _, ps⟩ := ps <;> simp [joinParts, hhigh, hlow]

theorem joinParts_of_spells {ps : List Part} {cs : List Char} (h : List.Forall₂ Part.Spells ps cs) :
    joinParts ps = some cs := by
  induction h with
  | nil => rw [joinParts]
  | @cons p c ps cs hp _ ih =>
    obtain rfl | ⟨rfl, hc⟩ := hp
    · rw [joinParts, ih]
      rfl
    · rw [joinParts_unit hc, ih, Char.ofNat_toNat]
      rfl

theorem renderString_append (s : String) (rest : List Char) :
    renderString s ++ rest = '"' :: (s.toList.flatMap escape ++ '"' :: rest) := by
  rw [renderString, List.cons_append, List.append_assoc, List.singleton_append]

/-- **A string reads back**, behind its opening quote. -/
theorem stringText?_flatMap_escape (s : String) (rest : List Char) :
    stringText? (s.toList.flatMap escape ++ '"' :: rest) = some (some s, rest) := by
  obtain ⟨ps, hps, hread⟩ := stringParts_flatMap_escape s.toList
  simp [stringText?, hread, joinParts_of_spells hps]

/-! ### Values -/

theorem skipBlanks_cons {c : Char} (h : isBlank c = false) (cs : List Char) :
    skipBlanks (c :: cs) = c :: cs := by
  rw [skipBlanks, List.dropWhile_cons_of_neg (by simp [h])]

theorem StartsNumber.ne {c d : Char} (h : StartsNumber c) (hd : ¬ StartsNumber d) : c ≠ d := by
  rintro rfl
  exact hd h

theorem StartsNumber.not_isBlank {c : Char} (h : StartsNumber c) : isBlank c = false := by
  simp only [isBlank, h.ne (d := ' ') (by decide), h.ne (d := '\n') (by decide),
    h.ne (d := '\t') (by decide), h.ne (d := '\r') (by decide), decide_false, Bool.or_self]

/-- No other value starts like a number. -/
theorem value?_number {c : Char} (h : StartsNumber c) (fuel : Nat) (cs : List Char) :
    value? (fuel + 1) (c :: cs) = number? (c :: cs) := by
  rw [value?, skipBlanks_cons h.not_isBlank]
  split
  case h_7 => rfl
  all_goals
    rename_i heq
    exact absurd (List.cons.inj heq).1 (h.ne (by decide))

/-- A plain value starts with something that is neither a blank nor the end of an array. -/
theorem renderChars_eq_cons {j : Json} (h : j.isPlain = true) :
    ∃ c cs, j.renderChars = c :: cs ∧ isBlank c = false ∧ c ≠ ']' := by
  cases j with
  | null => exact ⟨_, _, by rw [renderChars], by decide⟩
  | bool b => cases b <;> exact ⟨_, _, by rw [renderChars], by decide⟩
  | integer n =>
    obtain ⟨c, cs, hcs, hc⟩ := renderInt_eq_cons n
    exact ⟨c, cs, by rw [renderChars, hcs], hc.not_isBlank, hc.ne (by decide)⟩
  | string s => exact ⟨_, _, by rw [renderChars, renderString], by decide⟩
  | array js => cases js <;> exact ⟨_, _, by rw [renderChars], by decide⟩
  | object ms => cases ms <;> exact ⟨_, _, by rw [renderChars], by decide⟩
  | decimal _ => rw [isPlain] at h; cases h
  | broken => rw [isPlain] at h; cases h

/-- An array that has elements. -/
theorem value?_array {j : Json} (hj : j.isPlain = true) {fuel : Nat} {cs rest : List Char}
    {js : List Json} (h : elements? fuel (j.renderChars ++ cs) = some (js, rest)) :
    value? (fuel + 1) ('[' :: (j.renderChars ++ cs)) = some (.array js, rest) := by
  obtain ⟨c, cs', hc, hblank, hend⟩ := renderChars_eq_cons hj
  rw [hc, List.cons_append] at h ⊢
  rw [value?, skipBlanks_cons (by decide)]
  simp only [skipBlanks_cons hblank]
  split
  · rename_i heq
    exact absurd (List.cons.inj heq).1 hend
  · rw [h]
    rfl

/-- An object that has members. -/
theorem value?_object {fuel : Nat} {key : String} {cs rest : List Char}
    {ms : List (Option String × Json)} (h : members? fuel (renderString key ++ cs) = some (ms, rest)) :
    value? (fuel + 1) ('\x7b' :: (renderString key ++ cs)) = some (.object ms, rest) := by
  rw [renderString_append] at h ⊢
  simp [value?, skipBlanks_cons, isBlank, h]

/-- The last element of an array. -/
theorem elements?_last {fuel : Nat} {cs rest : List Char} {j : Json}
    (h : value? fuel cs = some (j, ']' :: rest)) :
    elements? (fuel + 1) cs = some ([j], rest) := by
  simp [elements?, h, skipBlanks_cons, isBlank]

/-- An element that is not the last one. -/
theorem elements?_more {fuel : Nat} {cs more rest : List Char} {j : Json} {js : List Json}
    (h : value? fuel cs = some (j, ',' :: more)) (hmore : elements? fuel more = some (js, rest)) :
    elements? (fuel + 1) cs = some (j :: js, rest) := by
  simp [elements?, h, skipBlanks_cons, isBlank, hmore]

/-- The last member of an object. -/
theorem members?_last {fuel : Nat} {cs rest : List Char} {key : String} {j : Json}
    (h : value? fuel cs = some (j, '\x7d' :: rest)) :
    members? (fuel + 1) (renderString key ++ ':' :: cs) = some ([(some key, j)], rest) := by
  rw [renderString_append]
  simp [members?, stringText?_flatMap_escape, h, skipBlanks_cons, isBlank]

/-- A member that is not the last one. -/
theorem members?_more {fuel : Nat} {cs more rest : List Char} {key : String} {j : Json}
    {ms : List (Option String × Json)} (h : value? fuel cs = some (j, ',' :: more))
    (hmore : members? fuel more = some (ms, rest)) :
    members? (fuel + 1) (renderString key ++ ':' :: cs) = some ((some key, j) :: ms, rest) := by
  rw [renderString_append]
  simp [members?, stringText?_flatMap_escape, h, skipBlanks_cons, isBlank, hmore]

/-! ### Whole values -/

mutual

/-- **The value at the front reads back**, and what stood behind it is left. -/
theorem value?_renderChars : ∀ {j : Json} {fuel : Nat} {rest : List Char}, j.isPlain = true →
    EndsValue rest → j.renderChars.length ≤ fuel →
    value? fuel (j.renderChars ++ rest) = some (j, rest)
  | j, 0, rest, hj, _, hfuel => by
    obtain ⟨c, cs, hc, -⟩ := renderChars_eq_cons hj
    rw [hc] at hfuel
    cases hfuel
  | .null, fuel + 1, rest, _, _, _ => by
    simp [renderChars, value?, skipBlanks_cons, isBlank, dropWord]
  | .bool true, fuel + 1, rest, _, _, _ => by
    simp [renderChars, value?, skipBlanks_cons, isBlank, dropWord]
  | .bool false, fuel + 1, rest, _, _, _ => by
    simp [renderChars, value?, skipBlanks_cons, isBlank, dropWord]
  | .integer n, fuel + 1, rest, _, hrest, _ => by
    obtain ⟨c, cs, hcs, hc⟩ := renderInt_eq_cons n
    have hnumber := number?_renderInt n hrest
    rw [renderChars]
    rw [hcs, List.cons_append] at hnumber ⊢
    rw [value?_number hc, hnumber]
  | .string s, fuel + 1, rest, _, _, _ => by
    rw [renderChars, renderString_append]
    simp [value?, skipBlanks_cons, isBlank, stringText?_flatMap_escape]
  | .array [], fuel + 1, rest, _, _, _ => by
    simp [renderChars, value?, skipBlanks_cons, isBlank]
  | .array (j :: js), fuel + 1, rest, hj, _, hfuel => by
    rw [isPlain, arePlain, Bool.and_eq_true] at hj
    rw [renderChars, List.length_cons] at hfuel
    rw [renderChars, List.cons_append, List.append_assoc]
    exact value?_array hj.1 (elements?_render hj.1 hj.2 (Nat.le_of_succ_le_succ hfuel))
  | .object [], fuel + 1, rest, _, _, _ => by
    simp [renderChars, value?, skipBlanks_cons, isBlank]
  | .object ((none, j) :: ms), fuel + 1, rest, hj, _, hfuel => by
    rw [isPlain, arePlainMembers] at hj
    cases hj
  | .object ((some key, j) :: ms), fuel + 1, rest, hj, _, hfuel => by
    rw [isPlain, arePlainMembers, Bool.and_eq_true, Bool.and_eq_true] at hj
    rw [renderChars, renderMember, List.length_cons, List.append_assoc, List.cons_append] at hfuel
    rw [renderChars, renderMember, List.cons_append, List.append_assoc, List.append_assoc,
      List.cons_append]
    exact value?_object (members?_render hj.1.2 hj.2 (Nat.le_of_succ_le_succ hfuel))

/-- All elements of an array. -/
theorem elements?_render : ∀ {j : Json} {js : List Json} {fuel : Nat} {rest : List Char},
    j.isPlain = true → arePlain js = true →
    (j.renderChars ++ renderMore js).length ≤ fuel →
    elements? fuel (j.renderChars ++ (renderMore js ++ rest)) = some (j :: js, rest)
  | j, js, 0, rest, hj, _, hfuel => by
    obtain ⟨c, cs, hc, -⟩ := renderChars_eq_cons hj
    rw [hc] at hfuel
    cases hfuel
  | j, [], fuel + 1, rest, hj, _, hfuel => by
    rw [renderMore, List.length_append, List.length_singleton] at hfuel
    rw [renderMore]
    exact elements?_last (value?_renderChars hj (.bracket rest) (by omega))
  | j, j' :: js, fuel + 1, rest, hj, hjs, hfuel => by
    rw [arePlain, Bool.and_eq_true] at hjs
    rw [renderMore, List.length_append, List.length_cons] at hfuel
    rw [renderMore, List.cons_append, List.append_assoc]
    exact elements?_more (value?_renderChars hj (.comma _) (by omega))
      (elements?_render hjs.1 hjs.2 (by omega))

/-- **All members of an object.** -/
theorem members?_render : ∀ {key : String} {j : Json} {ms : List (Option String × Json)} {fuel : Nat}
    {rest : List Char}, j.isPlain = true → arePlainMembers ms = true →
    (renderString key ++ ':' :: (j.renderChars ++ renderMoreMembers ms)).length ≤ fuel →
    members? fuel (renderString key ++ ':' :: (j.renderChars ++ (renderMoreMembers ms ++ rest)))
      = some ((some key, j) :: ms, rest)
  | key, j, ms, 0, rest, _, _, hfuel => by
    rw [renderString] at hfuel
    cases hfuel
  | key, j, [], fuel + 1, rest, hj, _, hfuel => by
    rw [renderMoreMembers, List.length_append, List.length_cons, List.length_append] at hfuel
    rw [renderMoreMembers]
    exact members?_last (value?_renderChars hj (.brace rest) (by omega))
  | key, j, (none, j') :: ms, fuel + 1, rest, _, hms, _ => by
    rw [arePlainMembers] at hms
    cases hms
  | key, j, (some key', j') :: ms, fuel + 1, rest, hj, hms, hfuel => by
    rw [arePlainMembers, Bool.and_eq_true, Bool.and_eq_true] at hms
    rw [renderMoreMembers, renderMember, List.append_assoc, List.cons_append, List.length_append,
      List.length_cons, List.length_append, List.length_cons] at hfuel
    rw [renderMoreMembers, renderMember, List.cons_append, List.append_assoc, List.append_assoc,
      List.cons_append]
    exact members?_more (value?_renderChars hj (.comma _) (by omega))
      (members?_render hms.1.2 hms.2 (by omega))

end

/-- **A plain value reads back from its text.** -/
theorem parse_render {j : Json} (h : j.isPlain = true) : parse j.render = some j := by
  have hread : value? (j.renderChars.length + 1) (j.renderChars ++ []) = some (j, []) :=
    value?_renderChars h .nil (Nat.le_succ _)
  rw [List.append_nil] at hread
  rw [parse, render, String.toList_ofList, parseChars, hread]
  rfl

end MeteredLedger.Json
