/-!
Finite maps from names.  The watcher keeps everything it knows about a project
under the project's id, and every lock under its name.  The order of the
entries is never observed: only `get?` is.
-/

namespace BuildWatch

/-- A finite map from names, as the list of its entries. -/
structure Table (α : Type) where
  entries : List (String × α) := []
deriving Repr, DecidableEq

namespace Table

variable {α β : Type}

def empty : Table α := { entries := [] }

instance : Inhabited (Table α) := ⟨empty⟩

def get? (table : Table α) (name : String) : Option α :=
  (table.entries.find? (fun entry => entry.1 == name)).map Prod.snd

def contains (table : Table α) (name : String) : Bool :=
  (table.get? name).isSome

def erase (table : Table α) (name : String) : Table α :=
  { entries := table.entries.filter (fun entry => entry.1 != name) }

def set (table : Table α) (name : String) (value : α) : Table α :=
  { entries := (name, value) :: (table.erase name).entries }

def put (table : Table α) (name : String) : Option α → Table α
  | some value => table.set name value
  | none => table.erase name

def names (table : Table α) : List String :=
  table.entries.map Prod.fst

/-! ### What the operations do to the values kept -/

@[simp] theorem get?_empty (name : String) : (empty : Table α).get? name = none := rfl

private theorem find?_filter_ne (entries : List (String × α)) (name other : String)
    (hDistinct : other ≠ name) :
    (entries.filter (fun entry => entry.1 != name)).find? (fun entry => entry.1 == other) =
      entries.find? (fun entry => entry.1 == other) := by
  induction entries with
  | nil => rfl
  | cons entry rest ih =>
      by_cases hName : entry.1 = name
      · have hOther : (entry.1 == other) = false := by
          simp only [hName, beq_eq_false_iff_ne, ne_eq]
          exact fun hSame => hDistinct hSame.symm
        rw [List.filter_cons_of_neg (by simp [hName]), List.find?_cons, hOther]
        exact ih
      · rw [List.filter_cons_of_pos (by simp [hName]), List.find?_cons, List.find?_cons, ih]

theorem get?_erase_self (table : Table α) (name : String) :
    (table.erase name).get? name = none := by
  have hNone : (table.erase name).entries.find? (fun entry => entry.1 == name) = none := by
    rw [List.find?_eq_none]
    intro entry hMember
    have hKept := (List.mem_filter.mp hMember).2
    simpa using hKept
  simp [get?, hNone]

theorem get?_erase_ne (table : Table α) (name other : String) (hDistinct : other ≠ name) :
    (table.erase name).get? other = table.get? other := by
  simp only [get?, erase, find?_filter_ne table.entries name other hDistinct]

theorem get?_set_self (table : Table α) (name : String) (value : α) :
    (table.set name value).get? name = some value := by
  simp [get?, set]

theorem get?_set_ne (table : Table α) (name other : String) (value : α)
    (hDistinct : other ≠ name) :
    (table.set name value).get? other = table.get? other := by
  rw [← get?_erase_ne table name other hDistinct]
  have hHead : (name == other) = false := by
    simp only [beq_eq_false_iff_ne, ne_eq]
    exact fun hSame => hDistinct hSame.symm
  simp [get?, set, hHead]

theorem get?_erase (table : Table α) (name other : String) :
    (table.erase name).get? other = if other = name then none else table.get? other := by
  by_cases hSame : other = name
  · subst hSame
    simp [get?_erase_self]
  · simp [hSame, get?_erase_ne table name other hSame]

theorem get?_set (table : Table α) (name other : String) (value : α) :
    (table.set name value).get? other = if other = name then some value else table.get? other := by
  by_cases hSame : other = name
  · subst hSame
    simp [get?_set_self]
  · simp [hSame, get?_set_ne table name other value hSame]

theorem erase_of_absent {table : Table α} {name : String} (hAbsent : table.get? name = none) :
    table.erase name = table := by
  have hNone := List.find?_eq_none.mp (Option.map_eq_none_iff.mp hAbsent)
  have hKept : table.entries.filter (fun entry => entry.1 != name) = table.entries :=
    List.filter_eq_self.mpr fun entry hEntry => by simpa using hNone entry hEntry
  unfold erase
  rw [hKept]

theorem mem_names_of_get? {table : Table α} {name : String} {value : α}
    (hValue : table.get? name = some value) : name ∈ table.names := by
  obtain ⟨entry, hFound, _⟩ := Option.map_eq_some_iff.mp hValue
  have hName : entry.1 = name := by simpa using List.find?_some hFound
  exact List.mem_map.mpr ⟨entry, List.mem_of_find?_eq_some hFound, hName⟩

theorem get?_put (table : Table α) (name other : String) (value? : Option α) :
    (table.put name value?).get? other = if other = name then value? else table.get? other := by
  cases value? with
  | none => rw [put, get?_erase]
  | some value => rw [put, get?_set]

end Table

end BuildWatch
