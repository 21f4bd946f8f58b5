import BuildWatch.Proofs.Json.Written
import Mathlib.Data.List.Induction
import Mathlib.Data.List.Nodup

/-!
The map of a list of members.  It is sorted by key, holds each key once, and gives for a key the
last of the values given for it; nothing else about the list matters.
-/

namespace BuildWatch.Json

/-- Members sorted by key, with no key twice. -/
def IsMap (members : List (String × Value)) : Prop :=
  members.Pairwise fun member other => member.1 < other.1

instance (members : List (String × Value)) : Decidable (IsMap members) :=
  inferInstanceAs (Decidable (members.Pairwise fun member other => member.1 < other.1))

/-! ### Looking up -/

section Lookup

variable {α : Type} {members : List (String × α)} {key : String} {value : α}

theorem lookup_cons_eq (member : String × α) (rest : List (String × α)) (key : String) :
    (member :: rest).lookup key = if key = member.1 then some member.2 else rest.lookup key := by
  obtain ⟨own, value⟩ := member
  by_cases hSame : key = own
  · rw [if_pos hSame, hSame, List.lookup_cons_self]
  · rw [if_neg hSame, List.lookup_cons, beq_eq_false_iff_ne.mpr hSame]

theorem mem_of_lookup (hValue : members.lookup key = some value) : (key, value) ∈ members := by
  obtain ⟨before, after, hMembers, _⟩ := List.lookup_eq_some_iff.mp hValue
  rw [hMembers]
  exact List.mem_append_right before List.mem_cons_self

theorem lookup_of_mem (hDistinct : (members.map Prod.fst).Nodup)
    (hMember : (key, value) ∈ members) :
    members.lookup key = some value := by
  induction members with
  | nil => cases hMember
  | cons first rest ih =>
      rw [List.map_cons, List.nodup_cons] at hDistinct
      rw [lookup_cons_eq]
      rcases List.mem_cons.mp hMember with rfl | hRest
      · exact if_pos rfl
      · rw [if_neg, ih hDistinct.2 hRest]
        intro hSame
        exact hDistinct.1 (List.mem_map.mpr ⟨(key, value), hRest, hSame⟩)

theorem lookup_reverse (hDistinct : (members.map Prod.fst).Nodup) (key : String) :
    members.reverse.lookup key = members.lookup key := by
  have hReversed : (members.reverse.map Prod.fst).Nodup := by
    rw [List.map_reverse]
    exact List.nodup_reverse.mpr hDistinct
  apply Option.ext
  intro value
  constructor
  · intro hValue
    exact lookup_of_mem hDistinct (List.mem_reverse.mp (mem_of_lookup hValue))
  · intro hValue
    exact lookup_of_mem hReversed (List.mem_reverse.mpr (mem_of_lookup hValue))

end Lookup

/-! ### Maps -/

namespace IsMap

variable {members others : List (String × Value)}

theorem nodup_keys (hMap : IsMap members) : (members.map Prod.fst).Nodup := by
  rw [List.Nodup, List.pairwise_map]
  refine hMap.imp ?_
  rintro member other hLess hSame
  rw [hSame] at hLess
  exact String.lt_irrefl _ hLess

theorem mem_iff_lookup (hMap : IsMap members) (member : String × Value) :
    member ∈ members ↔ members.lookup member.1 = some member.2 :=
  ⟨lookup_of_mem hMap.nodup_keys, mem_of_lookup⟩

theorem eq_of_lookup (hMap : IsMap members) (hOther : IsMap others)
    (hSame : ∀ key, members.lookup key = others.lookup key) : members = others := by
  have hPerm : members.Perm others := by
    rw [List.perm_ext_iff_of_nodup (List.Nodup.of_map _ hMap.nodup_keys)
      (List.Nodup.of_map _ hOther.nodup_keys)]
    intro member
    rw [hMap.mem_iff_lookup, hOther.mem_iff_lookup, hSame]
  refine hPerm.eq_of_pairwise ?_ hMap hOther
  intro member other _ _ hLess hGreater
  exact absurd hGreater (String.lt_asymm hLess)

end IsMap

/-! ### Inserting -/

theorem lookup_insertMember (key : String) (value : Value) (members : List (String × Value))
    (other : String) :
    (insertMember key value members).lookup other =
      if other = key then some value else members.lookup other := by
  induction members with
  | nil => rw [insertMember, lookup_cons_eq]
  | cons first rest ih =>
      rw [insertMember]
      by_cases hBefore : key < first.1
      · rw [if_pos hBefore, lookup_cons_eq]
      · rw [if_neg hBefore, lookup_cons_eq first]
        by_cases hSame : key = first.1
        · rw [if_pos hSame, lookup_cons_eq, ← hSame]
          split_ifs <;> rfl
        · rw [if_neg hSame, lookup_cons_eq, ih]
          split_ifs with hFirst hKey
          · exact absurd (hKey.symm.trans hFirst) hSame
          · rfl
          · rfl
          · rfl

theorem IsMap.insertMember {members : List (String × Value)} (hMap : IsMap members) (key : String)
    (value : Value) : IsMap (insertMember key value members) := by
  induction members with
  | nil => exact List.pairwise_singleton _ _
  | cons first rest ih =>
      obtain ⟨hFirst, hRest⟩ := List.pairwise_cons.mp hMap
      rw [Json.insertMember]
      split_ifs with hBefore hSame
      · refine List.pairwise_cons.mpr ⟨?_, hMap⟩
        intro other hOther
        rcases List.mem_cons.mp hOther with rfl | hLater
        · exact hBefore
        · exact String.lt_trans hBefore (hFirst other hLater)
      · refine List.pairwise_cons.mpr ⟨?_, hRest⟩
        intro other hOther
        exact hSame ▸ hFirst other hOther
      · refine List.pairwise_cons.mpr ⟨?_, ih hRest⟩
        intro other hOther
        rcases mem_insertMember hOther with rfl | hLater
        · exact Std.lt_of_le_of_ne (String.not_lt.mp hBefore) (Ne.symm hSame)
        · exact hFirst other hLater

/-! ### The map of a list -/

theorem mapOfMembers_concat (members : List (String × Value)) (member : String × Value) :
    mapOfMembers (members ++ [member]) = insertMember member.1 member.2 (mapOfMembers members) := by
  simp [mapOfMembers]

theorem isMap_mapOfMembers (members : List (String × Value)) : IsMap (mapOfMembers members) := by
  induction members using List.reverseRecOn with
  | nil => exact List.Pairwise.nil
  | append_singleton members member ih =>
      rw [mapOfMembers_concat]
      exact ih.insertMember member.1 member.2

/-- The last of the values that are given for a key is kept. -/
theorem lookup_mapOfMembers (members : List (String × Value)) (key : String) :
    (mapOfMembers members).lookup key = members.reverse.lookup key := by
  induction members using List.reverseRecOn with
  | nil => rfl
  | append_singleton members member ih =>
      rw [mapOfMembers_concat, lookup_insertMember, List.reverse_append, List.reverse_singleton,
        List.singleton_append, lookup_cons_eq, ih]

theorem mapOfMembers_congr {members others : List (String × Value)}
    (hSame : ∀ key, members.reverse.lookup key = others.reverse.lookup key) :
    mapOfMembers members = mapOfMembers others := by
  apply (isMap_mapOfMembers members).eq_of_lookup (isMap_mapOfMembers others)
  intro key
  rw [lookup_mapOfMembers, lookup_mapOfMembers, hSame]

theorem lookup_mapOfMembers_of_nodup {members : List (String × Value)}
    (hDistinct : (members.map Prod.fst).Nodup) (key : String) :
    (mapOfMembers members).lookup key = members.lookup key := by
  rw [lookup_mapOfMembers, lookup_reverse hDistinct]

theorem IsMap.mapOfMembers_eq {members : List (String × Value)} (hMap : IsMap members) :
    mapOfMembers members = members := by
  apply (isMap_mapOfMembers members).eq_of_lookup hMap
  exact lookup_mapOfMembers_of_nodup hMap.nodup_keys

end BuildWatch.Json
