import Mathlib.Algebra.Order.Ring.Nat
import Mathlib.Data.List.AList

/-!
# Unordered maps

An unordered map is an association list without duplicate keys (`AList`). Lookup, insertion and
erasure are Mathlib's; this file adds the update of every value (`mapVal`), maps built from a list
of entries (`ofEntries`, `filterMapVal`), the sum of a weight over all entries (`sumBy`) and the
facts about `lookup` that a map's clients use by name.
-/

set_option autoImplicit false

namespace Covered.Lib

open Option List

universe u v

variable {κ : Type u} {V : Type v} [DecidableEq κ]

/-- Map from `κ` to `V`, with the entries in an unspecified order. -/
abbrev UnorderedMap (κ : Type u) (V : Type v) := AList (fun _ : κ => V)

namespace UnorderedMap

/-- Every value updated by `f`. -/
def mapVal (f : V → V) (m : UnorderedMap κ V) : UnorderedMap κ V where
  entries := m.entries.map fun p => ⟨p.1, f p.2⟩
  nodupKeys := by
    have h : (m.entries.map fun p => (⟨p.1, f p.2⟩ : (_ : κ) × V)).keys = m.entries.keys := by
      simp [List.keys, List.map_map, Function.comp_def]
    rw [List.NodupKeys, h]
    exact m.nodupKeys

@[simp] theorem lookup_mapVal (f : V → V) (m : UnorderedMap κ V) (k : κ) :
    (mapVal f m).lookup k = (m.lookup k).map f :=
  dlookup_map₂ (f := fun _ => f) k

/-- Lookup after an insertion, by cases on the key. -/
theorem lookup_insert_eq (m : UnorderedMap κ V) (k k' : κ) (v : V) :
    (m.insert k' v).lookup k = if k = k' then some v else m.lookup k := by
  by_cases h : k = k'
  · subst h
    rw [AList.lookup_insert, if_pos rfl]
  · rw [AList.lookup_insert_ne h, if_neg h]

/-- Lookup after an erasure, by cases on the key. -/
theorem lookup_erase_eq (m : UnorderedMap κ V) (k k' : κ) :
    (m.erase k').lookup k = if k = k' then none else m.lookup k := by
  by_cases h : k = k'
  · subst h
    rw [AList.lookup_erase, if_pos rfl]
  · rw [AList.lookup_erase_ne h, if_neg h]

/-- The entry list of a map has the pairs that `lookup` finds. -/
theorem mem_entries_iff (m : UnorderedMap κ V) (k : κ) (v : V) :
    (⟨k, v⟩ : (_ : κ) × V) ∈ m.entries ↔ m.lookup k = some v := by
  rw [← AList.mem_lookup_iff, mem_def]

theorem mem_keys_iff (m : UnorderedMap κ V) (k : κ) :
    k ∈ m.keys ↔ ∃ v, m.lookup k = some v := by
  rw [← AList.mem_keys, ← AList.lookup_isSome, isSome_iff_exists]

/-- A list of the keys without repetitions, up to the order. -/
theorem perm_keys (m : UnorderedMap κ V) {l : List κ} (hl : l.Nodup)
    (h : ∀ k, (m.lookup k).isSome = true ↔ k ∈ l) : m.keys.Perm l := by
  refine (perm_ext_iff_of_nodup m.keys_nodup hl).2 fun k => ?_
  rw [mem_keys_iff, ← h, isSome_iff_exists]

theorem length_entries (m : UnorderedMap κ V) {l : List κ} (hl : l.Nodup)
    (h : ∀ k, (m.lookup k).isSome = true ↔ k ∈ l) : m.entries.length = l.length := by
  have hkeys : m.keys.length = m.entries.length := length_map _
  rw [← hkeys, (m.perm_keys hl h).length_eq]

theorem exists_lookup_of_entries_ne_nil (m : UnorderedMap κ V) (h : m.entries ≠ []) :
    ∃ k v, m.lookup k = some v := by
  obtain ⟨p, rest, hp⟩ := exists_cons_of_ne_nil h
  refine ⟨p.1, p.2, (mem_entries_iff m p.1 p.2).1 ?_⟩
  rw [hp]
  exact mem_cons_self

/-! ## Maps from lists of entries -/

/-- An insertion that keeps the value of a key that is there. -/
def insertNew (m : UnorderedMap κ V) (k : κ) (v : V) : UnorderedMap κ V :=
  if (m.lookup k).isSome then m else m.insert k v

theorem lookup_insertNew (m : UnorderedMap κ V) (k k' : κ) (v : V) :
    (insertNew m k' v).lookup k = (m.lookup k).or (if k = k' then some v else none) := by
  rw [insertNew]
  by_cases hk : k = k'
  · subst hk
    rw [if_pos rfl]
    cases h : m.lookup k with
    | some w => rw [isSome_some, if_pos rfl, h, some_or]
    | none => rw [isSome_none, if_neg Bool.false_ne_true, AList.lookup_insert, none_or]
  · rw [if_neg hk, or_none]
    split
    · rfl
    · exact AList.lookup_insert_ne hk

/-- The map that insertions of the entries lead to. -/
def ofEntries (entries : List ((_ : κ) × V)) : UnorderedMap κ V :=
  entries.foldl (fun m p => insertNew m p.1 p.2) ∅

theorem lookup_foldl_insertNew (entries : List ((_ : κ) × V)) (m : UnorderedMap κ V) (k : κ) :
    (entries.foldl (fun m p => insertNew m p.1 p.2) m).lookup k =
      (m.lookup k).or (entries.dlookup k) := by
  induction entries generalizing m with
  | nil => exact or_none.symm
  | cons p rest ih =>
    rw [foldl_cons, ih, lookup_insertNew, Option.or_assoc]
    by_cases hk : k = p.1
    · subst hk
      rw [if_pos rfl, some_or, dlookup_cons_eq]
    · rw [if_neg hk, none_or, dlookup_cons_ne _ _ hk]

theorem lookup_ofEntries (entries : List ((_ : κ) × V)) (k : κ) :
    (ofEntries entries).lookup k = entries.dlookup k :=
  (lookup_foldl_insertNew entries ∅ k).trans none_or

/-- The entries whose value `f` maps to something, with what it maps them to. -/
def filterMapVal {W : Type v} (f : κ → V → Option W) (m : UnorderedMap κ V) : UnorderedMap κ W :=
  ofEntries (m.entries.filterMap fun p => (f p.1 p.2).map fun w => ⟨p.1, w⟩)

theorem lookup_filterMapVal {W : Type v} (f : κ → V → Option W) (m : UnorderedMap κ V) (k : κ) :
    (filterMapVal f m).lookup k = (m.lookup k).bind (f k) := by
  have key : ∀ l : List ((_ : κ) × V), l.NodupKeys →
      (l.filterMap fun p => (f p.1 p.2).map fun w => (⟨p.1, w⟩ : (_ : κ) × W)).dlookup k =
        (l.dlookup k).bind (f k) := by
    intro l hl
    induction l with
    | nil => rfl
    | cons p rest ih =>
      obtain ⟨hfresh, hrest⟩ := nodupKeys_cons.1 hl
      rw [filterMap_cons]
      by_cases hk : k = p.1
      · subst hk
        rw [dlookup_cons_eq, bind_some]
        cases hf : f p.1 p.2 with
        | some w => exact dlookup_cons_eq _ _ _
        | none =>
          -- no other entry has the key
          refine (ih hrest).trans ?_
          rw [dlookup_eq_none.2 hfresh, bind_none]
      · rw [dlookup_cons_ne _ _ hk]
        cases hf : f p.1 p.2 with
        | some w => exact (dlookup_cons_ne _ (⟨p.1, w⟩ : (_ : κ) × W) hk).trans (ih hrest)
        | none => exact ih hrest
  rw [filterMapVal, lookup_ofEntries]
  exact key m.entries m.nodupKeys

/-! ## Sums over the entries -/

/-- The sum of a weight over all entries. -/
def sumBy (w : κ → V → Nat) (m : UnorderedMap κ V) : Nat :=
  (m.entries.map fun p => w p.1 p.2).sum

/-- An erasure takes the weight of the erased entry away. -/
theorem sumBy_erase (w : κ → V → Nat) (m : UnorderedMap κ V) (k : κ) :
    sumBy w (m.erase k) + (m.lookup k).elim 0 (w k) = sumBy w m := by
  have key : ∀ l : List ((_ : κ) × V),
      ((l.kerase k).map fun p => w p.1 p.2).sum + (l.dlookup k).elim 0 (w k) =
        (l.map fun p => w p.1 p.2).sum := by
    intro l
    induction l with
    | nil => rfl
    | cons p rest ih =>
      by_cases hk : k = p.1
      · subst hk
        rw [kerase_cons_eq rfl, dlookup_cons_eq, map_cons, sum_cons,
          elim_some, Nat.add_comm]
      · rw [kerase_cons_ne hk, dlookup_cons_ne _ _ hk, map_cons, map_cons,
          sum_cons, sum_cons, Nat.add_assoc, ih]
  exact key m.entries

/-- An insertion replaces the weight of the entry of the key. -/
theorem sumBy_insert (w : κ → V → Nat) (m : UnorderedMap κ V) (k : κ) (v : V) :
    sumBy w (m.insert k v) + (m.lookup k).elim 0 (w k) = sumBy w m + w k v := by
  have herase := sumBy_erase w m k
  have hinsert : sumBy w (m.insert k v) = w k v + sumBy w (m.erase k) := by
    rw [sumBy, AList.entries_insert, map_cons, sum_cons]
    rfl
  omega

end UnorderedMap

end Covered.Lib
