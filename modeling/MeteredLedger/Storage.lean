import MeteredLedger.Changes

/-!
# Storage

The storage of the store lies address by address: an address that has slots has a map of them, from
their keys to their values. The map is made with the first slot of the address, and it is taken away
with the last. To read and to write, a slot is named by its address and key together.
-/

namespace MeteredLedger

/-- A map from keys, in their order. -/
abbrev KeyMap (α : Type) := Std.ExtTreeMap Hash α

/-- The slots of all addresses. -/
structure Storage where
  /-- The slots of each address that has any. -/
  maps : AddressMap (KeyMap Bytes)

namespace Storage

instance : EmptyCollection Storage := ⟨⟨∅⟩⟩

instance : Inhabited Storage := ⟨∅⟩

/-- The value of a slot. -/
def get? (m : Storage) (x : Slot) : Option Bytes := m.maps[x.address]?.bind fun keys => keys[x.key]?

instance : GetElem? Storage Slot Bytes fun m x => (m.get? x).isSome where
  getElem m x h := (m.get? x).get h
  getElem? := get?

/-- With a slot, in place of its value before. -/
def insert (m : Storage) (x : Slot) (value : Bytes) : Storage :=
  ⟨m.maps.insert x.address ((m.maps[x.address]?.getD ∅).insert x.key value)⟩

/-- Without a slot, and without the map of its address if it was the last one there. -/
def erase (m : Storage) (x : Slot) : Storage :=
  match m.maps[x.address]? with
  | none => m
  | some keys =>
    let keys := keys.erase x.key
    ⟨if keys.isEmpty then m.maps.erase x.address else m.maps.insert x.address keys⟩

/-- The slots with their values, in order. -/
def toList (m : Storage) : List (Slot × Bytes) :=
  m.maps.toList.flatMap fun (a, keys) => keys.toList.map fun (key, value) => (⟨a, key⟩, value)

/-- The number of slots. -/
def size (m : Storage) : Nat := m.toList.length

variable (m : Storage) (x y : Slot)

theorem getElem?_eq : m[x]? = m.maps[x.address]?.bind fun keys => keys[x.key]? := rfl

@[simp] theorem length_toList : m.toList.length = m.size := rfl

@[simp] theorem getElem?_empty : (∅ : Storage)[x]? = none := by
  show ((∅ : AddressMap (KeyMap Bytes))[x.address]?.bind fun keys => keys[x.key]?) = none
  rw [Std.ExtTreeMap.getElem?_empty]
  rfl

/-- In its own map, a slot is its key. -/
theorem eq_iff {x y : Slot} (h : x.address = y.address) : x = y ↔ x.key = y.key := by
  cases x
  cases y
  cases h
  simp

theorem getElem?_insert (value : Bytes) :
    (m.insert x value)[y]? = if x = y then some value else m[y]? := by
  rw [getElem?_eq, getElem?_eq, insert, Std.ExtTreeMap.getElem?_insert]
  by_cases ha : x.address = y.address
  · have hkeys : ((m.maps[x.address]?.getD ∅).insert x.key value)[y.key]? =
        if x.key = y.key then some value
        else m.maps[y.address]?.bind fun keys => keys[y.key]? := by
      rw [Std.ExtTreeMap.getElem?_insert, ha]
      cases m.maps[y.address]? <;> simp
    simpa [ha, eq_iff ha] using hkeys
  · have hne : x ≠ y := fun h => ha (congrArg Slot.address h)
    simp [ha, hne]

theorem getElem?_erase : (m.erase x)[y]? = if x = y then none else m[y]? := by
  rw [getElem?_eq, getElem?_eq, erase]
  by_cases ha : x.address = y.address
  · rw [ha]
    cases hmap : m.maps[y.address]? with
    | none => simp [hmap]
    | some keys =>
      have hkeys : (keys.erase x.key)[y.key]? = if x.key = y.key then none else keys[y.key]? := by
        simp [Std.ExtTreeMap.getElem?_erase]
      dsimp only
      split
      · -- nothing is left in the map of the address
        rename_i hempty
        rw [Std.ExtTreeMap.isEmpty_iff.1 hempty, Std.ExtTreeMap.getElem?_empty] at hkeys
        simpa [eq_iff ha] using hkeys
      · simpa [eq_iff ha] using hkeys
  · have hne : x ≠ y := fun h => ha (congrArg Slot.address h)
    split
    · simp [hne]
    · dsimp only
      split
      · simp [Std.ExtTreeMap.getElem?_erase, ha]
      · simp [Std.ExtTreeMap.getElem?_insert, ha]

/-- What is listed is what is read. -/
theorem mem_toList_iff {value : Bytes} : (x, value) ∈ m.toList ↔ m[x]? = some value := by
  rw [getElem?_eq, toList, List.mem_flatMap]
  simp only [List.mem_map, Prod.exists, Prod.mk.injEq, Option.bind_eq_some_iff,
    Std.ExtTreeMap.mem_toList_iff_getElem?_eq_some]
  constructor
  · rintro ⟨a, keys, hmap, key, _, hvalue, rfl, rfl⟩
    exact ⟨keys, hmap, hvalue⟩
  · rintro ⟨keys, hmap, hvalue⟩
    exact ⟨x.address, keys, hmap, x.key, value, hvalue, rfl, rfl⟩

end Storage

end MeteredLedger
