import Mathlib.Algebra.BigOperators.Group.List.Basic
import Mathlib.Algebra.GroupWithZero.Nat

/-!
# Sums and first entries of tree maps

The lookup rules of `Std.TreeMap` with equality tests on keys, the sum of a
weight over all entries of a map and how the operations change it, and the
entry with the smallest key.
-/

namespace ParallaX.Data

open Std List TreeMap

universe u v

variable {α : Type u} {β : Type v} {cmp : α → α → Ordering}

section Lookups

variable [TransCmp cmp] [LawfulEqCmp cmp] [DecidableEq α] (items : TreeMap α β cmp) (key : α)
  (other : α) (change : β → β)

theorem lookup_insert (value : β) :
    (items.insert key value)[other]? = if key = other then some value else items[other]? := by
  rw [TreeMap.getElem?_insert]
  simp [LawfulEqCmp.compare_eq_iff_eq]

theorem lookup_erase : (items.erase key)[other]? = if key = other then none else items[other]? := by
  rw [TreeMap.getElem?_erase]
  simp [LawfulEqCmp.compare_eq_iff_eq]

theorem lookup_modify :
    (items.modify key change)[other]? =
      if key = other then items[key]?.map change else items[other]? := by
  rw [TreeMap.getElem?_modify]
  simp [LawfulEqCmp.compare_eq_iff_eq]

@[simp]
theorem lookup_insert_self (value : β) : (items.insert key value)[key]? = some value := by
  rw [lookup_insert, if_pos rfl]

@[simp]
theorem lookup_erase_self : (items.erase key)[key]? = none := by
  rw [lookup_erase, if_pos rfl]

variable {items}

theorem lookup_erase_of_ne {key other : α} (ne : key ≠ other) :
    (items.erase key)[other]? = items[other]? := by
  rw [lookup_erase, if_neg ne]

/-- A modified entry was there before. -/
theorem lookup_modify_eq_some {key other : α} {change : β → β} {value : β}
    (found : (items.modify key change)[other]? = some value) :
    ∃ old, items[other]? = some old ∧ value = if key = other then change old else old := by
  rw [lookup_modify] at found
  by_cases same : key = other
  · subst same
    rw [if_pos rfl] at found
    obtain ⟨old, present, rfl⟩ := Option.map_eq_some_iff.mp found
    exact ⟨old, present, by rw [if_pos rfl]⟩
  · rw [if_neg same] at found
    exact ⟨value, found, by rw [if_neg same]⟩

end Lookups

/-! ## Sums over all entries -/

def total (weight : α → β → Nat) (items : TreeMap α β cmp) : Nat :=
  (items.toList.map fun entry => weight entry.1 entry.2).sum

@[simp]
theorem total_empty (weight : α → β → Nat) : total weight (∅ : TreeMap α β cmp) = 0 := rfl

theorem total_map {γ : Type v}
    (weight : α → γ → Nat) (change : α → β → γ) (items : TreeMap α β cmp) :
    total weight (items.map change) =
      total (fun key value => weight key (change key value)) items := by
  unfold total
  rw [toList_map, map_map]
  rfl

section Totals

variable [TransCmp cmp]

theorem nodup_toList (items : TreeMap α β cmp) : items.toList.Nodup := by
  apply List.Pairwise.imp _ distinct_keys_toList
  intro _ _ ne same
  subst same
  exact ne ReflCmp.compare_self

variable [LawfulEqCmp cmp] {first second : TreeMap α β cmp}

theorem toList_perm_of_lookup (agree : ∀ key : α, first[key]? = second[key]?) :
    first.toList.Perm second.toList := by
  apply (perm_ext_iff_of_nodup (nodup_toList _) (nodup_toList _)).mpr
  rintro ⟨_, _⟩
  rw [mem_toList_iff_getElem?_eq_some, mem_toList_iff_getElem?_eq_some, agree]

variable {items : TreeMap α β cmp} {key : α} {value : β} (weight : α → β → Nat)

theorem total_of_lookup (agree : ∀ key : α, first[key]? = second[key]?) :
    total weight first = total weight second :=
  ((toList_perm_of_lookup agree).map _).sum_eq

variable [DecidableEq α]

theorem toList_insert_perm (value : β) (absent : items[key]? = none) :
    (items.insert key value).toList.Perm ((key, value) :: items.toList) := by
  have notMember : (key, value) ∉ items.toList := by
    rw [mem_toList_iff_getElem?_eq_some, absent]
    exact nofun
  apply (perm_ext_iff_of_nodup (nodup_toList _) (nodup_cons.mpr ⟨notMember, nodup_toList _⟩)).mpr
  rintro ⟨other, _⟩
  rw [mem_cons, mem_toList_iff_getElem?_eq_some,
    mem_toList_iff_getElem?_eq_some, lookup_insert, Prod.mk.injEq]
  by_cases same : key = other
  · subst same
    simp [absent, eq_comm]
  · simp [same, Ne.symm same]

theorem total_insert (value : β) (absent : items[key]? = none) :
    total weight (items.insert key value) = weight key value + total weight items := by
  unfold total
  rw [((toList_insert_perm value absent).map _).sum_eq, map_cons, sum_cons]

theorem total_erase (found : items[key]? = some value) :
    weight key value + total weight (items.erase key) = total weight items := by
  rw [← total_insert weight value (lookup_erase_self items key)]
  apply total_of_lookup
  intro other
  rw [lookup_insert]
  by_cases same : key = other
  · rw [if_pos same, ← same, found]
  · rw [if_neg same, lookup_erase_of_ne same]

theorem total_modify (change : β → β) (found : items[key]? = some value) :
    weight key value + total weight (items.modify key change) =
      weight key (change value) + total weight items := by
  have rebuilt :
      total weight (items.modify key change) =
        total weight ((items.erase key).insert key (change value)) := by
    apply total_of_lookup
    intro other
    rw [lookup_modify, lookup_insert, found, Option.map_some]
    by_cases same : key = other
    · rw [if_pos same, if_pos same]
    · rw [if_neg same, if_neg same, lookup_erase_of_ne same]
  rw [rebuilt, total_insert weight _ (lookup_erase_self items key), ← total_erase weight found]
  omega

/-- Changing an entry without changing its weight keeps the sum. -/
theorem total_modify_same {change : β → β} {weight : α → β → Nat}
    (kept : ∀ value, items[key]? = some value → weight key (change value) = weight key value) :
    total weight (items.modify key change) = total weight items := by
  cases found : items[key]? with
  | none =>
    apply total_of_lookup
    intro other
    rw [lookup_modify]
    by_cases same : key = other
    · rw [if_pos same, ← same, found, Option.map_none]
    · rw [if_neg same]
  | some value =>
    have sums := total_modify weight change found
    rw [kept value found] at sums
    omega

theorem total_replace {old new : β}
    (before : first[key]? = some old) (after : second[key]? = some new)
    (others : ∀ other, key ≠ other → second[other]? = first[other]?) :
    weight key old + total weight second = weight key new + total weight first := by
  have replaced : total weight second = total weight (first.modify key fun _ => new) := by
    apply total_of_lookup
    intro other
    rw [lookup_modify]
    by_cases same : key = other
    · rw [if_pos same, ← same, after, before, Option.map_some]
    · rw [if_neg same, others other same]
  rw [replaced]
  exact total_modify weight (fun _ => new) before

theorem le_total (found : items[key]? = some value) : weight key value ≤ total weight items := by
  rw [← total_erase weight found]
  exact Nat.le_add_right _ _

end Totals

section First

variable [TransCmp cmp] [LawfulEqCmp cmp] {items : TreeMap α β cmp}

theorem lookup_of_head {key : α} {value : β} (isHead : items.toList.head? = some (key, value)) :
    items[key]? = some value :=
  mem_toList_iff_getElem?_eq_some.mp (mem_of_head? isHead)

theorem test_of_find {test : α × β → Bool} {key : α} {value : β}
    (first : (items.toList.find? test).map Prod.fst = some key)
    (found : items[key]? = some value) : test (key, value) = true := by
  obtain ⟨⟨_, _⟩, isFirst, rfl⟩ := Option.map_eq_some_iff.mp first
  have member := mem_toList_iff_getElem?_eq_some.mp (mem_of_find?_eq_some isFirst)
  rw [found] at member
  rw [Option.some.inj member]
  exact List.find?_some isFirst

theorem head_le {items : TreeMap Nat β} {key other : Nat} {value found : β}
    (isHead : items.toList.head? = some (key, value)) (present : items[other]? = some found) :
    key ≤ other := by
  have member := mem_toList_iff_getElem?_eq_some.mpr present
  have ordered := ordered_keys_toList (t := items)
  cases shape : items.toList with
  | nil =>
    rw [shape] at member
    cases member
  | cons head =>
    rw [shape] at isHead member ordered
    cases isHead
    rcases mem_cons.mp member with same | later
    · rw [Prod.mk.injEq] at same
      exact Nat.le_of_eq same.1.symm
    · have below := (pairwise_cons.mp ordered).1 _ later
      exact Nat.le_of_lt (Nat.compare_eq_lt.mp below)

end First

theorem head_eq_none {items : TreeMap α β cmp} [TransCmp cmp] [LawfulEqCmp cmp]
    (noHead : items.toList.head? = none) (key : α) : items[key]? = none := by
  have empty := List.head?_eq_none_iff.mp noHead
  cases found : items[key]? with
  | none => rfl
  | some =>
    have member := mem_toList_iff_getElem?_eq_some.mpr found
    rw [empty] at member
    cases member

end ParallaX.Data
