import MeteredLedger.Proofs.Json.Text
import MeteredLedger.Toml.Parse

/-!
# Names and numbers of TOML read back

A name without quotes is read up to what may not stand in one, and a number up to
the end of its line: digits that a line end follows are neither a moment nor a
float, so they are a whole number, if it fits (`number?_toDigits`).
-/

namespace MeteredLedger.Toml

/-! ### Names -/

/-- A key that needs no quotes. -/
def IsName (name : String) : Prop := name.toList ≠ [] ∧ ∀ c ∈ name.toList, isKeyChar c = true

instance (name : String) : Decidable (IsName name) :=
  decidable_of_iff (name.toList ≠ [] ∧ name.toList.all isKeyChar = true)
    (by rw [IsName, List.all_eq_true])

variable {c : Char} {cs rest : List Char} {name : String} {n : Nat}

theorem skipBlanks_cons (h : isBlank c = false) : skipBlanks (c :: cs) = c :: cs := by
  rw [skipBlanks, List.dropWhile_cons_of_neg (by simp [h])]

/-- Characters differ if only one of them is of a kind. -/
theorem ne_of_kind {kind : Char → Bool} {d : Char} (h : kind c = true) (hd : kind d = false) :
    c ≠ d := by
  rintro rfl
  rw [h] at hd
  cases hd

theorem isBlank_of_isKeyChar (h : isKeyChar c = true) : isBlank c = false := by
  simp only [isBlank, ne_of_kind h (d := ' ') (by decide),
    ne_of_kind h (d := '\t') (by decide), decide_false, Bool.or_self]

theorem IsName.exists_cons (h : IsName name) : ∃ c cs, name.toList = c :: cs ∧ isKeyChar c = true := by
  obtain ⟨c, cs, hcs⟩ := List.exists_cons_of_ne_nil h.1
  exact ⟨c, cs, hcs, h.2 c (hcs ▸ List.mem_cons_self)⟩

/-- A name is read up to what may not stand in one. -/
theorem keyPart?_name (h : IsName name) (hrest : ∀ c ∈ rest.head?, isKeyChar c = false) :
    keyPart? (name.toList ++ rest) = some (name, rest) := by
  have htake : (name.toList ++ rest).takeWhile isKeyChar = name.toList := by
    rw [List.takeWhile_append_of_pos h.2]
    cases rest with
    | nil => simp
    | cons c rest => simp [hrest c rfl]
  have hdrop : (name.toList ++ rest).dropWhile isKeyChar = rest := by
    rw [List.dropWhile_append_of_pos h.2]
    cases rest with
    | nil => rfl
    | cons c rest => simp [hrest c rfl]
  obtain ⟨c, cs, hcs, hc⟩ := h.exists_cons
  unfold keyPart?
  split
  · rename_i heq
    rw [hcs, List.cons_append, List.cons.injEq] at heq
    exact absurd heq.1 (ne_of_kind hc (by decide))
  · rename_i heq
    rw [hcs, List.cons_append, List.cons.injEq] at heq
    exact absurd heq.1 (ne_of_kind hc (by decide))
  · simp [htake, hdrop, h.1]

/-- A name is a key of one part, if no dot follows. -/
theorem key?_name (h : IsName name) (hrest : ∀ c ∈ rest.head?, isKeyChar c = false)
    (hdot : ∀ c ∈ (skipBlanks rest).head?, c ≠ '.') :
    key? (name.toList ++ rest) = some ([name], skipBlanks rest) := by
  obtain ⟨c, cs, hcs, hc⟩ := h.exists_cons
  have hskip : skipBlanks (name.toList ++ rest) = name.toList ++ rest := by
    rw [hcs, List.cons_append, skipBlanks_cons (isBlank_of_isKeyChar hc)]
  have hparts (fuel : Nat) :
      keyParts? (fuel + 1) (name.toList ++ rest) = some ([name], skipBlanks rest) := by
    rw [keyParts?, hskip, keyPart?_name h hrest, Option.bind_eq_bind, Option.bind_some]
    dsimp only
    split
    · rename_i heq
      exact absurd rfl (hdot '.' (by rw [heq]; rfl))
    · rfl
  rw [key?, hparts, Option.bind_eq_bind, Option.bind_some]
  rfl

/-! ### Line ends -/

theorem newline?_cons (hn : c ≠ '\n') (hr : c ≠ '\r') : newline? (c :: cs) = none := by
  unfold newline?
  split
  · rename_i heq
    exact absurd (List.cons.inj heq).1 hn
  · rename_i heq
    exact absurd (List.cons.inj heq).1 hr
  · rfl

theorem skipLines_nil : skipLines [] = [] := by
  rw [skipLines]
  rfl

/-- A line end is skipped. -/
theorem skipLines_newline (cs : List Char) : skipLines ('\n' :: cs) = skipLines cs := by
  rw [skipLines]
  rfl

/-- A line that holds something is not skipped. -/
theorem skipLines_cons (hb : isBlank c = false) (hc : c ≠ '#') (hn : c ≠ '\n') (hr : c ≠ '\r') :
    skipLines (c :: cs) = c :: cs := by
  have hcomment : skipComment (c :: cs) = c :: cs := by
    unfold skipComment
    split
    · rename_i heq
      exact absurd (List.cons.inj heq).1 hc
    · rfl
  rw [skipLines, skipBlanks_cons hb, hcomment, newline?_cons hn hr]

/-- Nothing else is on the line. -/
theorem lineRest?_newline (cs : List Char) : lineRest? ('\n' :: cs) = some cs := rfl

/-! ### Numbers -/

variable {ds : List Char}

theorem isDigit_of_mem_toDigits (h : c ∈ Nat.toDigits 10 n) : isDigit c = true :=
  Json.isDigit_of_mem_renderNat h

/-- A number that starts with a zero is at its end. -/
theorem eq_newline_of_toDigits {d : Char} {more : List Char}
    (h : Nat.toDigits 10 n ++ '\n' :: rest = '0' :: d :: more) : d = '\n' := by
  obtain ⟨c, t, hct⟩ := List.exists_cons_of_ne_nil (Nat.toDigits_ne_nil (n := n) (b := 10))
  rw [hct, List.cons_append, List.cons.injEq] at h
  obtain ⟨rfl, h⟩ := h
  obtain rfl := Json.eq_zero_of_renderNat hct
  obtain rfl : t = [] := (List.cons.inj hct).2.symm
  exact (List.cons.inj h).1.symm

theorem moreDigits?_append (h : ∀ c ∈ ds, isDigit c = true) (rest : List Char) :
    moreDigits? isDigit (ds ++ '\n' :: rest) = some (ds, '\n' :: rest) := by
  induction ds with
  | nil => simp [moreDigits?, isDigit]
  | cons c ds ih =>
    have hc : isDigit c = true := h c List.mem_cons_self
    have hne : c ≠ '_' := by
      rintro rfl
      cases hc
    rw [List.cons_append, moreDigits?.eq_def]
    split
    · rename_i heq
      exact absurd (List.cons.inj heq).1 hne
    · rename_i heq
      exact absurd (List.cons.inj heq).1 hne
    · rename_i heq
      obtain ⟨rfl, rfl⟩ := List.cons.inj heq
      rw [if_pos hc, ih fun c hc => h c (List.mem_cons_of_mem _ hc)]
      rfl
    · rename_i heq
      cases heq

theorem wholeDigits?_toDigits (n : Nat) (rest : List Char) :
    wholeDigits? (Nat.toDigits 10 n ++ '\n' :: rest) = some (Nat.toDigits 10 n, '\n' :: rest) := by
  have hdigits : ∀ c ∈ Nat.toDigits 10 n, isDigit c = true := fun _ => isDigit_of_mem_toDigits
  obtain ⟨c, t, hct⟩ := List.exists_cons_of_ne_nil (Nat.toDigits_ne_nil (n := n) (b := 10))
  rw [hct] at hdigits ⊢
  rw [List.cons_append]
  unfold wholeDigits?
  split
  · rename_i heq
    obtain ⟨rfl, rfl⟩ := List.cons.inj heq
    obtain rfl := Json.eq_zero_of_renderNat hct
    obtain rfl : t = [] := (List.cons.inj hct).2.symm
    rfl
  · rw [digits?, if_pos (hdigits c List.mem_cons_self),
      moreDigits?_append fun c hc => hdigits c (List.mem_cons_of_mem _ hc)]
    rfl

theorem ofDigits_toDigits (n : Nat) : ofDigits 10 (Nat.toDigits 10 n) = n := by
  have hvalue (c : Char) (h : isDigit c = true) : (hexValue? c).getD 0 = c.toNat - '0'.toNat := by
    rw [isDigit, Bool.and_eq_true, decide_eq_true_eq, decide_eq_true_eq] at h
    rw [hexValue?, if_pos h]
    rfl
  rw [ofDigits]
  refine Eq.trans ?_ (Nat.ofDigitChars_ten_toDigits (n := n))
  rw [Nat.ofDigitChars]
  refine List.foldl_ext _ _ _ fun k c hc => ?_
  rw [hvalue c (isDigit_of_mem_toDigits hc)]

theorem toDigits_eq_cons (n : Nat) : ∃ d t, Nat.toDigits 10 n = d :: t ∧ isDigit d = true := by
  obtain ⟨d, t, h⟩ := List.exists_cons_of_ne_nil (Nat.toDigits_ne_nil (n := n) (b := 10))
  exact ⟨d, t, h, isDigit_of_mem_toDigits (h ▸ List.mem_cons_self)⟩

theorem sign_toDigits (n : Nat) (rest : List Char) :
    sign (Nat.toDigits 10 n ++ rest) = ([], Nat.toDigits 10 n ++ rest) := by
  obtain ⟨d, t, ht, hd⟩ := toDigits_eq_cons n
  rw [ht, List.cons_append]
  unfold sign
  split
  · rename_i heq
    exact absurd (List.cons.inj heq).1 (ne_of_kind hd (by decide))
  · rename_i heq
    exact absurd (List.cons.inj heq).1 (ne_of_kind hd (by decide))
  · rfl

/-- Digits alone are no float. -/
theorem decimalFloat?_toDigits (n : Nat) (rest : List Char) :
    decimalFloat? (Nat.toDigits 10 n ++ '\n' :: rest) = none := by
  simp [decimalFloat?, sign_toDigits, wholeDigits?_toDigits, opensExponent, fraction?]

theorem specialFloat?_toDigits (n : Nat) (rest : List Char) :
    specialFloat? (Nat.toDigits 10 n ++ rest) = none := by
  obtain ⟨d, t, ht, hd⟩ := toDigits_eq_cons n
  rw [specialFloat?, sign_toDigits, ht, List.cons_append]
  dsimp only
  split
  · rename_i heq
    exact absurd (List.cons.inj heq).1 (ne_of_kind hd (by decide))
  · rename_i heq
    exact absurd (List.cons.inj heq).1 (ne_of_kind hd (by decide))
  · rfl

/-- Behind a field of digits comes another digit or the end of the line. -/
theorem mark?_of_field? {m : Char} {width low high k : Nat} (hm : isDigit m = false) (hn : m ≠ '\n')
    (hds : ∀ c ∈ ds, isDigit c = true)
    (h : field? width low high (ds ++ '\n' :: rest) = some (k, cs)) : mark? m cs = none := by
  unfold field? at h
  dsimp only at h
  split at h
  · rename_i hfull
    obtain ⟨hlength, hall⟩ := hfull
    have hwidth : width ≤ ds.length := by
      by_contra hlt
      have hmem : '\n' ∈ (ds ++ '\n' :: rest).take width := by
        obtain ⟨k, hk⟩ := Nat.exists_eq_add_of_lt (Nat.lt_of_not_le hlt)
        rw [List.take_append, List.mem_append, show width - ds.length = k + 1 by omega,
          List.take_succ_cons]
        exact .inr List.mem_cons_self
      exact absurd (List.all_eq_true.1 hall _ hmem) (by decide)
    split at h
    · obtain ⟨-, rfl⟩ := Prod.mk.inj (Option.some.inj h)
      rw [List.drop_append_of_le_length hwidth]
      cases hdrop : ds.drop width with
      | nil => simp [mark?, hn]
      | cons d t =>
        have hd : isDigit d = true := hds d (List.mem_of_mem_drop (hdrop ▸ List.mem_cons_self))
        simp [mark?, (ne_of_kind hd hm).symm]
    · cases h
  · cases h

/-- Digits alone are no moment. -/
theorem moment?_toDigits (n : Nat) (rest : List Char) :
    moment? (Nat.toDigits 10 n ++ '\n' :: rest) = none := by
  have hds : ∀ c ∈ Nat.toDigits 10 n, isDigit c = true := fun _ => isDigit_of_mem_toDigits
  have hdate : afterDate? (Nat.toDigits 10 n ++ '\n' :: rest) = none := by
    unfold afterDate?
    cases hfield : field? 4 0 9999 (Nat.toDigits 10 n ++ '\n' :: rest) with
    | none => rfl
    | some found =>
      have hmark : mark? '-' found.2 = none := mark?_of_field? (by decide) (by decide) hds hfield
      simp [hmark]
  have htime : afterTime? (Nat.toDigits 10 n ++ '\n' :: rest) = none := by
    unfold afterTime?
    cases hfield : field? 2 0 23 (Nat.toDigits 10 n ++ '\n' :: rest) with
    | none => rfl
    | some found =>
      have hmark : mark? ':' found.2 = none := mark?_of_field? (by decide) (by decide) hds hfield
      simp [hmark]
  simp [moment?, afterDateTime?, hdate, htime]

theorem integer?_toDigits (h : n ≤ largestInteger) (rest : List Char) :
    integer? (Nat.toDigits 10 n ++ '\n' :: rest) = some (.integer n, '\n' :: rest) := by
  have hfit : fit? n = some (.integer n) := if_pos (by omega)
  unfold integer?
  split
  · rename_i heq
    cases eq_newline_of_toDigits heq
  · rename_i heq
    cases eq_newline_of_toDigits heq
  · rename_i heq
    cases eq_newline_of_toDigits heq
  · simp [sign_toDigits, wholeDigits?_toDigits, ofDigits_toDigits, hfit]

/-- **A number reads back**, at the end of a line, if it fits. -/
theorem number?_toDigits (h : n ≤ largestInteger) (rest : List Char) :
    number? (Nat.toDigits 10 n ++ '\n' :: rest) = some (.integer n, '\n' :: rest) := by
  simp [number?, moment?_toDigits, decimalFloat?_toDigits, specialFloat?_toDigits,
    integer?_toDigits h]

/-- No blank is part of a number. -/
theorem skipBlanks_toDigits (n : Nat) (rest : List Char) :
    skipBlanks (' ' :: (Nat.toDigits 10 n ++ rest)) = Nat.toDigits 10 n ++ rest := by
  obtain ⟨d, t, ht, hd⟩ := toDigits_eq_cons n
  have hblank : isBlank d = false := by
    simp only [isBlank, ne_of_kind hd (d := ' ') (by decide),
      ne_of_kind hd (d := '\t') (by decide), decide_false, Bool.or_self]
  rw [skipBlanks, List.dropWhile_cons_of_pos (by decide)]
  rw [ht, List.cons_append]
  exact skipBlanks_cons hblank

theorem value?_toDigits (h : n ≤ largestInteger) (fuel depth : Nat) (rest : List Char) :
    value? (fuel + 1) depth (Nat.toDigits 10 n ++ '\n' :: rest)
      = some (.integer n, '\n' :: rest) := by
  have hnumber := number?_toDigits h rest
  obtain ⟨d, t, ht, hd⟩ := toDigits_eq_cons n
  rw [ht, List.cons_append] at hnumber ⊢
  have hopens : opensNumber d = true := by simp [opensNumber, hd]
  rw [value?, if_pos hopens, hnumber]
  -- no other value starts with a digit
  all_goals
    intros
    subst_vars
    cases hd

end MeteredLedger.Toml
