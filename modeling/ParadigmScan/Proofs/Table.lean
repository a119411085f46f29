import Mathlib.Data.List.Nodup
import ParadigmScan.Table

/-!
This module contains what tables say about a key after values were set or another table was merged into them, and
the order in which keys come up.
-/

namespace ParadigmScan

namespace Table

variable {α : Type}

def keys (table : Table α) : List String := table.map (·.1)

@[simp]
theorem keys_nil : keys ([] : Table α) = [] := rfl

@[simp]
theorem keys_cons (entry : String × α) (table : Table α) :
    keys (entry :: table) = entry.1 :: keys table := rfl

@[simp]
theorem keys_append (table other : Table α) : keys (table ++ other) = keys table ++ keys other := by
  simp [keys]

theorem lookup_cons (key : String) (entry : String × α) (table : Table α) :
    List.lookup key (entry :: table) = if key = entry.1 then some entry.2 else table.lookup key := by
  rw [List.lookup_cons]
  by_cases h : key = entry.1
  . simp [h]
  . have hne : (key == entry.1) = false := by simpa using h
    simp [hne, h]

theorem lookup_eq_none_iff {table : Table α} {key : String} :
    table.lookup key = none ↔ key ∉ keys table := by
  induction table with
  | nil => simp
  | cons entry table ih =>
    rw [lookup_cons]
    by_cases h : key = entry.1
    . simp [h]
    . simpa [h] using ih

theorem lookup_set (table : Table α) (key : String) (value : α) (other : String) :
    (table.set key value).lookup other = if other = key then some value else table.lookup other := by
  induction table with
  | nil =>
    rw [set]
    rw [lookup_cons]
  | cons entry table ih =>
    rw [set]
    by_cases hkey : entry.1 = key
    . simp only [hkey, beq_self_eq_true, ↓reduceIte, lookup_cons]
      by_cases h : other = key <;> simp [h]
    . have hne : (entry.1 == key) = false := by simpa using hkey
      simp only [hne, Bool.false_eq_true, ↓reduceIte, lookup_cons, ih]
      by_cases h : other = entry.1
      . subst h
        simp [hkey]
      . simp [h]

theorem keys_set (table : Table α) (key : String) (value : α) :
    keys (table.set key value) = if key ∈ keys table then keys table else keys table ++ [key] := by
  induction table with
  | nil => simp [set]
  | cons entry table ih =>
    rw [set]
    by_cases hkey : entry.1 = key
    . simp [hkey]
    . have hne : (entry.1 == key) = false := by simpa using hkey
      simp only [hne, Bool.false_eq_true, ↓reduceIte, keys_cons, ih, List.mem_cons]
      by_cases h : key ∈ keys table
      . simp [h]
      . simp [h, Ne.symm hkey]

theorem nodup_append_singleton {table : Table α} (h : (keys table).Nodup) {key : String}
    (hkey : table.lookup key = none) (value : α) : (keys (table ++ [(key, value)])).Nodup := by
  rw [lookup_eq_none_iff] at hkey
  rw [keys_append]
  apply h.append (List.nodup_singleton key)
  simpa using hkey

theorem nodup_set {table : Table α} (h : (keys table).Nodup) (key : String) (value : α) :
    (keys (table.set key value)).Nodup := by
  rw [keys_set]
  split
  . exact h
  . next hkey =>
    have := nodup_append_singleton h (lookup_eq_none_iff.mpr hkey) value
    simpa using this

theorem find?_keys_set (table : Table α) (key : String) (value : α) (p : String → Bool)
    (others : List String) :
    (keys (table.set key value) ++ others).find? p = (keys table ++ key :: others).find? p := by
  rw [keys_set]
  split
  . next hkey =>
    rw [List.find?_append]
    rw [List.find?_append]
    rw [List.find?_cons]
    cases hp : p key with
    | false => rfl
    | true =>
      have hsome : ((keys table).find? p).isSome = true := by
        rw [List.find?_isSome]
        exact ⟨key, hkey, hp⟩
      obtain ⟨first, hfirst⟩ := Option.isSome_iff_exists.mp hsome
      simp [hfirst]
  . simp

@[simp]
theorem merge_nil (table : Table α) : table.merge [] = table := rfl

@[simp]
theorem merge_cons (table : Table α) (key : String) (value : α) (other : Table α) :
    table.merge ((key, value) :: other) = (table.set key value).merge other := rfl

theorem find?_keys_merge (table other : Table α) (p : String → Bool) :
    (keys (table.merge other)).find? p = (keys table ++ keys other).find? p := by
  induction other generalizing table with
  | nil => simp
  | cons entry other ih =>
    rw [merge_cons]
    rw [ih]
    rw [find?_keys_set]
    rfl

theorem lookup_merge (table : Table α) {other : Table α} (h : (keys other).Nodup) (key : String) :
    (table.merge other).lookup key = (other.lookup key).or (table.lookup key) := by
  induction other generalizing table with
  | nil => simp
  | cons entry other ih =>
    rw [keys_cons] at h
    rw [List.nodup_cons] at h
    rw [merge_cons]
    rw [ih (table.set entry.1 entry.2) h.2]
    rw [lookup_set]
    rw [lookup_cons]
    by_cases hkey : key = entry.1
    . subst hkey
      rw [lookup_eq_none_iff.mpr h.1]
      simp
    . simp [hkey]

theorem lookup_foldl_merge (tables : List (Table α)) (h : ∀ table ∈ tables, (keys table).Nodup)
    (start : Table α) (key : String) :
    (tables.foldl merge start).lookup key =
      (tables.reverse.findSome? (·.lookup key)).or (start.lookup key) := by
  induction tables generalizing start with
  | nil => rfl
  | cons table tables ih =>
    rw [List.foldl_cons]
    rw [ih (fun other hother => h other (List.mem_cons_of_mem _ hother))]
    rw [lookup_merge _ (h table List.mem_cons_self)]
    rw [List.reverse_cons]
    rw [List.findSome?_append]
    simp [Option.or_assoc]

theorem find?_keys_foldl_merge (tables : List (Table α)) (start : Table α) (p : String → Bool) :
    (keys (tables.foldl merge start)).find? p = (keys start ++ tables.flatMap keys).find? p := by
  induction tables generalizing start with
  | nil => simp
  | cons table tables ih =>
    rw [List.foldl_cons]
    rw [ih]
    rw [List.find?_append]
    rw [find?_keys_merge]
    simp [List.find?_append, Option.or_assoc]

theorem lookup_erase (table : Table α) (key other : String) :
    (table.erase key).lookup other = if other = key then none else table.lookup other := by
  induction table with
  | nil => simp [erase]
  | cons entry table ih =>
    unfold erase at ih ⊢
    rw [List.filter_cons]
    by_cases hkey : entry.1 = key
    . simp only [hkey, bne_self_eq_false, Bool.false_eq_true, ↓reduceIte, ih, lookup_cons]
      by_cases h : other = key <;> simp [h]
    . have hne : (entry.1 != key) = true := by simpa using hkey
      simp only [hne, ↓reduceIte, lookup_cons, ih]
      by_cases h : other = entry.1
      . subst h
        simp [hkey]
      . simp [h]

theorem keys_erase (table : Table α) (key : String) :
    keys (table.erase key) = (keys table).filter (· != key) := by
  unfold keys erase
  rw [List.filter_map]
  rfl

theorem nodup_erase {table : Table α} (h : (keys table).Nodup) (key : String) :
    (keys (table.erase key)).Nodup := by
  rw [keys_erase]
  exact h.filter _

theorem lookup_filter {table : Table α} (h : (keys table).Nodup) (p : α → Bool) (key : String) :
    List.lookup key (table.filter (p ·.2)) = (table.lookup key).filter p := by
  induction table with
  | nil => rfl
  | cons entry table ih =>
    rw [keys_cons] at h
    rw [List.nodup_cons] at h
    rw [List.filter_cons]
    rw [lookup_cons]
    cases hp : p entry.2 with
    | true =>
      rw [if_pos rfl]
      rw [lookup_cons]
      rw [ih h.2]
      by_cases hkey : key = entry.1 <;> simp [hkey, hp, Option.filter]
    | false =>
      rw [if_neg Bool.false_ne_true]
      rw [ih h.2]
      by_cases hkey : key = entry.1
      . subst hkey
        rw [lookup_eq_none_iff.mpr h.1]
        simp [hp, Option.filter]
      . simp [hkey]

theorem keys_filter {table : Table α} (h : (keys table).Nodup) (p : α → Bool) :
    keys (table.filter (p ·.2)) = (keys table).filter fun key => (table.lookup key).any p := by
  induction table with
  | nil => rfl
  | cons entry table ih =>
    rw [keys_cons] at h ⊢
    rw [List.nodup_cons] at h
    have hrest : (keys table).filter (fun key => (List.lookup key (entry :: table)).any p) =
        (keys table).filter fun key => (table.lookup key).any p := by
      apply List.filter_congr
      intro key hkey
      rw [lookup_cons]
      have hne : ¬ key = entry.1 := by
        rintro rfl
        exact h.1 hkey
      rw [if_neg hne]
    rw [List.filter_cons]
    rw [List.filter_cons]
    rw [hrest]
    rw [lookup_cons]
    rw [if_pos rfl]
    rw [Option.any_some]
    rw [← ih h.2]
    cases p entry.2 <;> simp

theorem find?_eq_some_iff {table : Table α} {p : String → Bool} {key : String} {value : α} :
    table.find? (p ·.1) = some (key, value) ↔
      (keys table).find? p = some key ∧ table.lookup key = some value := by
  induction table with
  | nil => simp
  | cons entry table ih =>
    rw [keys_cons]
    rw [List.find?_cons]
    rw [List.find?_cons]
    rw [lookup_cons]
    cases hp : p entry.1 with
    | true =>
      obtain ⟨first, value'⟩ := entry
      simp only [Option.some.injEq, Prod.mk.injEq]
      constructor
      . rintro ⟨rfl, rfl⟩
        simp
      . rintro ⟨rfl, h⟩
        simpa using h
    | false =>
      rw [ih]
      by_cases hkey : key = entry.1
      . subst hkey
        have hnone : ¬ (keys table).find? p = some entry.1 := by
          intro h
          have := List.find?_some h
          simp [hp] at this
        simp [hnone]
      . simp [hkey]

theorem find?_eq_none_iff {table : Table α} {p : String → Bool} :
    table.find? (p ·.1) = none ↔ (keys table).find? p = none := by
  simp [keys]

end Table

end ParadigmScan
