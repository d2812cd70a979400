/-!
# Maps from names

A `NameMap α` holds at most one value for each name, in ascending order of the
names.  Strings are ordered by their first differing character, a shorter text
before its continuations.  Two maps with the same entries are equal, whatever
the order of the insertions, so listing the entries needs no sorting.

`get?_insert` and `get?_erase` say what the operations do to the entries.
-/

namespace Decommission

/-- A finite map from names, its entries in ascending order of the names. -/
structure NameMap (α : Type) where
  toList : List (String × α)
  /-- The names ascend. -/
  ascending : toList.Pairwise fun a b => a.1 < b.1
deriving DecidableEq

namespace NameMap

variable {α : Type}

/-- The map without entries. -/
def empty : NameMap α := ⟨[], .nil⟩

instance : Inhabited (NameMap α) := ⟨empty⟩

/-- The value at a name in a list of entries. -/
def find? (name : String) : List (String × α) → Option α
  | [] => none
  | e :: es => if e.1 = name then some e.2 else find? name es

/-- Entries with one value set.  The new entry replaces one of the same name, and
else goes before the first entry with a greater name. -/
def place (name : String) (value : α) : List (String × α) → List (String × α)
  | [] => [(name, value)]
  | e :: es =>
      if name < e.1 then (name, value) :: e :: es
      else if e.1 = name then (name, value) :: es
      else e :: place name value es

theorem mem_place {name : String} {value : α} {x : String × α} {es : List (String × α)}
    (h : x ∈ place name value es) : x = (name, value) ∨ x ∈ es := by
  induction es with
  | nil => exact Or.inl (List.mem_singleton.mp h)
  | cons e es ih =>
    unfold place at h
    split at h
    · exact (List.mem_cons.mp h)
    · split at h
      · exact (List.mem_cons.mp h).imp id (List.mem_cons_of_mem _)
      · cases List.mem_cons.mp h with
        | inl he => exact Or.inr (he ▸ List.mem_cons_self ..)
        | inr hm => exact (ih hm).imp id (List.mem_cons_of_mem _)

theorem place_ascending (name : String) (value : α) {es : List (String × α)}
    (h : es.Pairwise fun a b => a.1 < b.1) :
    (place name value es).Pairwise fun a b => a.1 < b.1 := by
  induction es with
  | nil => exact List.pairwise_singleton ..
  | cons e es ih =>
    obtain ⟨he, hes⟩ := List.pairwise_cons.mp h
    unfold place
    split
    · rename_i hlt
      refine List.pairwise_cons.mpr ⟨fun b hb => ?_, h⟩
      cases List.mem_cons.mp hb with
      | inl hbe => exact hbe ▸ hlt
      | inr hbm => exact String.lt_trans hlt (he b hbm)
    · rename_i hlt
      split
      · rename_i heq
        exact List.pairwise_cons.mpr ⟨fun b hb => heq ▸ he b hb, hes⟩
      · rename_i hne
        refine List.pairwise_cons.mpr ⟨fun b hb => ?_, ih hes⟩
        cases mem_place hb with
        | inl hbe =>
          subst hbe
          have hle : e.1 ≤ name := String.not_lt.mp hlt
          exact String.not_le.mp fun hge => hne (String.le_antisymm hle hge)
        | inr hbm => exact he b hbm

/-- The value at a name. -/
def get? (m : NameMap α) (name : String) : Option α := find? name m.toList

/-- Set the value at a name. -/
def insert (m : NameMap α) (name : String) (value : α) : NameMap α :=
  ⟨place name value m.toList, place_ascending name value m.ascending⟩

/-- Remove a name. -/
def erase (m : NameMap α) (name : String) : NameMap α :=
  ⟨m.toList.filter fun e => e.1 ≠ name, m.ascending.filter _⟩

/-- The names, ascending. -/
def names (m : NameMap α) : List String := m.toList.map (·.1)

/-- The values, in the order of their names. -/
def values (m : NameMap α) : List α := m.toList.map (·.2)

/-- Whether a name has a value. -/
def contains (m : NameMap α) (name : String) : Bool := (m.get? name).isSome

/-- The number of entries. -/
def size (m : NameMap α) : Nat := m.toList.length

/-- Insert the pairs of a list, one after the other. -/
def ofList (pairs : List (String × α)) : NameMap α :=
  pairs.foldl (fun m p => m.insert p.1 p.2) empty

/-! ## What the operations do to the entries -/

theorem find?_place_self (name : String) (value : α) (es : List (String × α)) :
    find? name (place name value es) = some value := by
  induction es with
  | nil => simp [place, find?]
  | cons e es ih =>
    unfold place
    split
    · simp [find?]
    · split
      · simp [find?]
      · rename_i hne
        simp [find?, hne, ih]

theorem find?_place_ne {name other : String} (value : α) (h : name ≠ other)
    (es : List (String × α)) : find? other (place name value es) = find? other es := by
  induction es with
  | nil => simp [place, find?, h]
  | cons e es ih =>
    unfold place
    split
    · simp [find?, h]
    · split
      · rename_i heq
        simp [find?, h, heq]
      · simp [find?, ih]

theorem get?_insert (m : NameMap α) (name : String) (value : α) (other : String) :
    (m.insert name value).get? other = if name = other then some value else m.get? other := by
  by_cases h : name = other
  · subst h
    rw [if_pos rfl]
    exact find?_place_self name value m.toList
  · rw [if_neg h]
    exact find?_place_ne value h m.toList

theorem find?_filter_ne (name other : String) (es : List (String × α)) :
    find? other (es.filter fun e => e.1 ≠ name) =
      if name = other then none else find? other es := by
  induction es with
  | nil => simp [find?]
  | cons e es ih =>
    by_cases he : e.1 = name
    · by_cases ho : name = other
      · simp_all
      · simp_all [find?]
    · by_cases ho : name = other
      · subst ho
        simp_all [find?]
      · simp_all [find?]

theorem get?_erase (m : NameMap α) (name other : String) :
    (m.erase name).get? other = if name = other then none else m.get? other :=
  find?_filter_ne name other m.toList

@[simp]
theorem get?_empty (name : String) : (empty : NameMap α).get? name = none := rfl

/-- The entries of a map are what is found in it. -/
theorem mem_toList_iff {m : NameMap α} {name : String} {value : α} :
    (name, value) ∈ m.toList ↔ m.get? name = some value := by
  obtain ⟨es, hes⟩ := m
  show (name, value) ∈ es ↔ find? name es = some value
  induction es with
  | nil => simp [find?]
  | cons e es ih =>
    obtain ⟨he, hes⟩ := List.pairwise_cons.mp hes
    rw [find?, List.mem_cons]
    split
    · rename_i heq
      subst heq
      refine ⟨fun h => ?_, fun h => Or.inl (by rw [← Option.some.inj h])⟩
      cases h with
      | inl hself => rw [← hself]
      | inr hm => exact absurd (he _ hm) (String.lt_irrefl _)
    · rename_i hne
      refine ⟨fun h => ?_, fun h => Or.inr ((ih hes).mpr h)⟩
      cases h with
      | inl hself => exact absurd (by rw [← hself]) hne
      | inr hm => exact (ih hes).mp hm

theorem get?_foldl_insert {pairs : List (String × α)} (h : (pairs.map (·.1)).Nodup)
    (m : NameMap α) (name : String) (value : α) :
    (pairs.foldl (fun m p => m.insert p.1 p.2) m).get? name = some value ↔
      (name, value) ∈ pairs ∨ name ∉ pairs.map (·.1) ∧ m.get? name = some value := by
  induction pairs generalizing m with
  | nil => simp
  | cons p pairs ih =>
    obtain ⟨hp, hpairs⟩ := List.nodup_cons.mp h
    rw [List.foldl_cons, ih hpairs, get?_insert]
    by_cases hname : p.1 = name
    · subst hname
      rw [if_pos rfl]
      constructor
      · rintro (hm | ⟨_, hv⟩)
        · exact absurd (List.mem_map_of_mem hm) hp
        · exact Or.inl (by rw [← Option.some.inj hv]; exact List.mem_cons_self ..)
      · rintro (hm | ⟨hn, _⟩)
        · cases List.mem_cons.mp hm with
          | inl heq => exact Or.inr ⟨hp, by rw [← heq]⟩
          | inr hm => exact Or.inl hm
        · exact absurd (List.mem_cons_self ..) hn
    · rw [if_neg hname]
      have hpair : (name, value) ≠ p := fun heq => hname (by rw [← heq])
      rw [List.mem_cons, List.map_cons, List.mem_cons, or_iff_right hpair,
        not_or, and_iff_right (Ne.symm hname)]

/-- What is found in a map made of pairs with different names. -/
theorem get?_ofList {pairs : List (String × α)} (h : (pairs.map (·.1)).Nodup) {name : String}
    {value : α} : (ofList pairs).get? name = some value ↔ (name, value) ∈ pairs := by
  rw [ofList, get?_foldl_insert h]
  simp

example : (ofList [("b", 1), ("a", 2), ("b", 3)]).toList = [("a", 2), ("b", 3)] := by decide

end NameMap

end Decommission
