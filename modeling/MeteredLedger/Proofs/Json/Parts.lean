import MeteredLedger.Params.Json
import MeteredLedger.Proofs.Json.Records

/-!
# JSON values with members left out

`Json.without` leaves out the members of an object, and of the objects in it,
whose paths are in a set. What is left of a plain value is plain, and the fields
of a record of which any may be missing are found wherever they are left, in any
order (`someFields?_filter`, `someFields?_perm`).
-/

namespace MeteredLedger.Json

/-! ### Leaving out members -/

mutual

/-- A value without the members whose paths are dropped. -/
def without (drops : List String → Bool) : Json → Json
  | .object ms => .object (membersWithout drops ms)
  | j => j

/-- Members without the ones whose paths are dropped. -/
def membersWithout (drops : List String → Bool) :
    List (Option String × Json) → List (Option String × Json)
  | [] => []
  | (none, j) :: ms => (none, j) :: membersWithout drops ms
  | (some key, j) :: ms =>
    if drops [key] then membersWithout drops ms
    else (some key, j.without fun path => drops (key :: path)) :: membersWithout drops ms

end

mutual

theorem isPlain_without : ∀ {j : Json} (drops : List String → Bool), j.isPlain = true →
    (j.without drops).isPlain = true
  | .object ms, drops, h => by
    rw [isPlain] at h
    rw [without, isPlain]
    exact arePlainMembers_without drops h
  | .null, _, h | .bool _, _, h | .integer _, _, h | .decimal _, _, h | .string _, _, h
  | .broken, _, h | .array _, _, h => by simpa only [without] using h

theorem arePlainMembers_without : ∀ {ms : List (Option String × Json)} (drops : List String → Bool),
    arePlainMembers ms = true → arePlainMembers (membersWithout drops ms) = true
  | [], _, _ => by rw [membersWithout, arePlainMembers]
  | (none, _) :: _, _, h => by
    rw [arePlainMembers] at h
    cases h
  | (some key, j) :: ms, drops, h => by
    rw [arePlainMembers, Bool.and_eq_true, Bool.and_eq_true] at h
    have hms := arePlainMembers_without drops h.2
    rw [membersWithout]
    split
    · exact hms
    · rw [arePlainMembers, isPlain_without _ h.1.2, hms]
      rfl

end

variable {fs : List (String × Json)} {ms ms' : List (Option String × Json)} {surplus : Surplus}

/-- What is left of a record. -/
theorem without_ofFields (drops : List String → Bool) (fs : List (String × Json)) :
    (ofFields fs).without drops = ofFields ((fs.filter fun f => !drops [f.1]).map fun f =>
      (f.1, f.2.without fun path => drops (f.1 :: path))) := by
  rw [ofFields, without, ofFields, List.map_map]
  congr 1
  induction fs with
  | nil => rw [List.map_nil, membersWithout, List.filter_nil, List.map_nil]
  | cons f fs ih =>
    rw [List.map_cons, membersWithout, ih]
    cases hd : drops [f.1] <;> simp [hd]

/-! ### Finding what is left -/

/-- In which order the members stand makes no difference. -/
theorem onlyMember?_perm (h : ms.Perm ms') (key : String) :
    onlyMember? ms key = onlyMember? ms' key := by
  have hperm : (membersWith key ms).Perm (membersWith key ms') := h.filterMap _
  unfold onlyMember?
  match hms : membersWith key ms, hms' : membersWith key ms' with
  | [], js => rw [hms, hms'] at hperm; rw [hperm.nil_eq]
  | [j], js => rw [hms, hms'] at hperm; rw [hperm.singleton_eq]
  | j :: j' :: js, [] => rw [hms, hms'] at hperm; cases hperm.length_eq
  | j :: j' :: js, [_] => rw [hms, hms'] at hperm; cases hperm.length_eq
  | j :: j' :: js, _ :: _ :: _ => rfl

theorem someFields?_perm (h : ms.Perm ms') (names : List String) :
    someFields? surplus names (.object ms) = someFields? surplus names (.object ms') := by
  have hall : (ms.all fun m => m.1.isSome) = ms'.all fun m => m.1.isSome := h.all_eq
  simp only [someFields?, hall, funext (onlyMember?_perm h)]

/-- **The fields that are left are found**, if the names of all of them differ. -/
theorem someFields?_filter (drops : String → Bool) (hn : (fs.map Prod.fst).Nodup) :
    someFields? surplus (fs.map Prod.fst) (ofFields (fs.filter fun f => !drops f.1))
      = some (fs.map fun f => if drops f.1 then none else some f.2) := by
  have hleft : ((fs.filter fun f => !drops f.1).map Prod.fst).Nodup :=
    hn.sublist (List.filter_sublist.map _)
  rw [ofFields, someFields?, if_pos, List.mapM_map]
  case hc => simp
  refine mapM_eq_some fun f hf => ?_
  unfold Function.comp onlyMember?
  cases hd : drops f.1 with
  | false => rw [membersWith_of_mem hleft (List.mem_filter.2 ⟨hf, by simp [hd]⟩)]; simp
  | true =>
    have hgone : f.1 ∉ (fs.filter fun f => !drops f.1).map Prod.fst := by
      intro h
      obtain ⟨g, hg, hfg⟩ := List.mem_map.1 h
      have := (List.mem_filter.1 hg).2
      rw [hfg, hd] at this
      cases this
    rw [membersWith_eq_nil hgone]
    simp

/-- A field that has a standard value is read where it is left, and what is made
of it goes on. -/
theorem bind_fieldOr? {α β : Type} {read : Json → Option α} {j : Json} {a : α}
    (h : read j = some a) (dropped : Bool) (standard : α) (k : α → Option β) :
    (fieldOr? standard read (if dropped then none else some j)).bind k
      = k (if dropped then standard else a) := by
  cases dropped with
  | false => simp [fieldOr?, h]
  | true => rfl

theorem bind_fieldOr?_ite {α β : Type} [JsonForm α] [LawfulJsonForm α] (dropped : Bool)
    (standard a : α) (k : α → Option β) :
    (fieldOr? standard ofJson? (if dropped then none else some (toJson a))).bind k
      = k (if dropped then standard else a) :=
  bind_fieldOr? (LawfulJsonForm.reads a) dropped standard k

end MeteredLedger.Json
