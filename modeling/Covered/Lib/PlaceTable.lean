import Mathlib.Algebra.BigOperators.Group.List.Basic
import Covered.Lib.LinkedList

/-!
# Tables of places

A cache keeps its elements in containers with stable iterators and finds them through a hash table
from the key to the place of the element. `Indexes keyOf table get` says that the two agree: the
table has an entry for exactly the keys of the elements, and the entry is the place of the one
element with the key. `get` dereferences a place; a place is an iterator, or a container together
with an iterator.

An operation on the containers is an update of `get`, and there is one rule for each operation that
changes the containers and the table together: `Indexes.insert`, `Indexes.erase`, `Indexes.set` and
`Indexes.move`. `found` is the element of a key, and each operation changes it for one key. The
lemmas on `LinkedList` say which update of `get` its operations are.
-/

set_option autoImplicit false

namespace Covered.Lib

open UnorderedMap Function Option List

universe u v w

section

variable {α : Type u} {κ : Type v} {ρ : Type w} [DecidableEq κ]

/-- The table has exactly the keys of the stored elements, each with the place of its element. -/
def Indexes (keyOf : α → κ) (table : UnorderedMap κ ρ) (get : ρ → Option α) : Prop :=
  ∀ k r, table.lookup k = some r ↔ ∃ a, get r = some a ∧ keyOf a = k

namespace Indexes

variable {keyOf : α → κ} {table : UnorderedMap κ ρ} {get : ρ → Option α} {r r' : ρ} {a b : α}
  {k : κ}

theorem empty (h : ∀ r, get r = none) : Indexes keyOf ∅ get := by
  intro k r
  refine iff_of_false (fun hlookup => ?_) ?_
  · cases hlookup
  · rintro ⟨a, hget, -⟩
    rw [h r] at hget
    cases hget

theorem lookup_of_get (h : Indexes keyOf table get) (hget : get r = some a) :
    table.lookup (keyOf a) = some r :=
  (h (keyOf a) r).2 ⟨a, hget, rfl⟩

/-- An element is determined by its key. -/
theorem eq_of_key_eq (h : Indexes keyOf table get) (ha : get r = some a) (hb : get r' = some b)
    (hkey : keyOf a = keyOf b) : r = r' := by
  have hlookup := h.lookup_of_get ha
  rw [hkey, h.lookup_of_get hb] at hlookup
  exact (some.inj hlookup).symm

theorem get_key_ne (h : Indexes keyOf table get) (hnew : table.lookup k = none)
    (hget : get r = some a) : keyOf a ≠ k := by
  rintro rfl
  rw [h.lookup_of_get hget] at hnew
  cases hnew

variable [DecidableEq ρ]

/-- A new element at an unused place. -/
theorem insert (h : Indexes keyOf table get) (hnew : table.lookup (keyOf a) = none)
    (hunused : get r = none) :
    Indexes keyOf (table.insert (keyOf a) r) (update get r (some a)) := by
  intro k r'
  rw [lookup_insert_eq]
  by_cases hk : k = keyOf a
  · subst hk
    rw [if_pos rfl, some.injEq]
    constructor
    · rintro rfl
      exact ⟨a, update_self .., rfl⟩
    · rintro ⟨b, hb, hkey⟩
      by_contra hne
      rw [update_of_ne (Ne.symm hne)] at hb
      exact h.get_key_ne hnew hb hkey
  · rw [if_neg hk, h k r']
    by_cases hr : r' = r
    · -- the place holds the new element, which has another key
      subst hr
      refine iff_of_false ?_ ?_
      · rintro ⟨b, hb, -⟩
        rw [hunused] at hb
        cases hb
      · rintro ⟨b, hb, hkey⟩
        rw [update_self, some.injEq] at hb
        exact hk (hb ▸ hkey.symm)
    · rw [update_of_ne hr]

/-- An element taken away with its entry. -/
theorem erase (h : Indexes keyOf table get) (hget : get r = some a) :
    Indexes keyOf (table.erase (keyOf a)) (update get r none) := by
  intro k r'
  rw [lookup_erase_eq]
  by_cases hk : k = keyOf a
  · subst hk
    rw [if_pos rfl]
    refine iff_of_false (some_ne_none r').symm ?_
    rintro ⟨b, hb, hkey⟩
    by_cases hr : r' = r
    · rw [hr, update_self] at hb
      cases hb
    · rw [update_of_ne hr] at hb
      exact hr (h.eq_of_key_eq hb hget hkey)
  · rw [if_neg hk, h k r']
    by_cases hr : r' = r
    · subst hr
      rw [update_self]
      refine iff_of_false ?_ ?_
      · rintro ⟨b, hb, hkey⟩
        rw [hget, some.injEq] at hb
        exact hk (hb ▸ hkey.symm)
      · rintro ⟨b, hb, -⟩
        cases hb
    · rw [update_of_ne hr]

/-- An element replaced by one with the same key. -/
theorem set (h : Indexes keyOf table get) (hget : get r = some a) (hkey : keyOf b = keyOf a) :
    Indexes keyOf table (update get r (some b)) := by
  intro k r'
  rw [h k r']
  by_cases hr : r' = r
  · subst hr
    simp only [hget, update_self, some.injEq, exists_eq_left', hkey]
  · rw [update_of_ne hr]

/-- An element replaced by one with the same key at another, unused place. -/
theorem move (h : Indexes keyOf table get) (hget : get r = some a) (hkey : keyOf b = keyOf a)
    (hunused : get r' = none) :
    Indexes keyOf (table.insert (keyOf a) r')
      (update (update get r none) r' (some b)) := by
  have hne : r' ≠ r := by
    rintro rfl
    rw [hunused] at hget
    cases hget
  have herase := h.erase hget
  have hinsert := herase.insert (a := b) (r := r')
    (by rw [hkey, lookup_erase_eq, if_pos rfl])
    (by rw [update_of_ne hne]; exact hunused)
  intro k r''
  rw [← hinsert k r'', hkey, lookup_insert_eq, lookup_insert_eq,
    lookup_erase_eq]
  by_cases hk : k = keyOf a
  · rw [if_pos hk, if_pos hk]
  · rw [if_neg hk, if_neg hk, if_neg hk]

end Indexes

/-! ### The element of a key -/

/-- The element that the table leads to. -/
def found (table : UnorderedMap κ ρ) (get : ρ → Option α) (k : κ) : Option α :=
  (table.lookup k).bind get

namespace Indexes

variable {keyOf : α → κ} {table : UnorderedMap κ ρ} {get : ρ → Option α} {r r' : ρ} {a b : α}
  {k : κ}

theorem found_eq_some_iff (h : Indexes keyOf table get) :
    found table get k = some a ↔ ∃ r, get r = some a ∧ keyOf a = k := by
  rw [found, bind_eq_some_iff]
  constructor
  · rintro ⟨r, hlookup, hget⟩
    obtain ⟨b, hb, rfl⟩ := (h k r).1 hlookup
    rw [hget, some.injEq] at hb
    exact ⟨r, hget, by rw [hb]⟩
  · rintro ⟨r, hget, rfl⟩
    exact ⟨r, h.lookup_of_get hget, hget⟩

theorem found_of_get (h : Indexes keyOf table get) (hget : get r = some a) :
    found table get (keyOf a) = some a :=
  h.found_eq_some_iff.2 ⟨r, hget, rfl⟩

theorem found_eq_none_iff (h : Indexes keyOf table get) :
    found table get k = none ↔ table.lookup k = none := by
  constructor
  · intro hfound
    cases hlookup : table.lookup k with
    | none => rfl
    | some r =>
      obtain ⟨a, hget, -⟩ := (h k r).1 hlookup
      rw [found, hlookup, bind_some, hget] at hfound
      cases hfound
  · intro hlookup
    rw [found, hlookup, bind_none]

/-- What is found under a key depends on the place of its element only. -/
theorem found_congr (h : Indexes keyOf table get) {get' : ρ → Option α}
    (hsame : ∀ r a, get r = some a → keyOf a = k → get' r = get r) :
    found table get' k = found table get k := by
  rw [found, found]
  cases hlookup : table.lookup k with
  | none => rfl
  | some r =>
    obtain ⟨a, hget, hkey⟩ := (h k r).1 hlookup
    rw [bind_some, bind_some, hsame r a hget hkey]

variable [DecidableEq ρ]

theorem found_insert (h : Indexes keyOf table get) (hunused : get r = none) :
    found (table.insert (keyOf a) r) (update get r (some a)) k =
      if k = keyOf a then some a else found table get k := by
  rw [found, lookup_insert_eq]
  by_cases hk : k = keyOf a
  · rw [if_pos hk, if_pos hk, bind_some, update_self]
  · rw [if_neg hk, if_neg hk]
    refine h.found_congr fun r' b hget _ => update_of_ne ?_ _ _
    rintro rfl
    rw [hunused] at hget
    cases hget

theorem found_erase (h : Indexes keyOf table get) (hget : get r = some a) :
    found (table.erase (keyOf a)) (update get r none) k =
      if k = keyOf a then none else found table get k := by
  rw [found, lookup_erase_eq]
  by_cases hk : k = keyOf a
  · rw [if_pos hk, if_pos hk, bind_none]
  · rw [if_neg hk, if_neg hk]
    refine h.found_congr fun r' b hb hkey => update_of_ne ?_ _ _
    rintro rfl
    rw [hget, some.injEq] at hb
    exact hk (by rw [hb, hkey])

theorem found_set (h : Indexes keyOf table get) (hget : get r = some a) :
    found table (update get r (some b)) k =
      if k = keyOf a then some b else found table get k := by
  by_cases hk : k = keyOf a
  · rw [if_pos hk, hk, found, h.lookup_of_get hget, bind_some, update_self]
  · rw [if_neg hk]
    refine h.found_congr fun r' c hc hkey => update_of_ne ?_ _ _
    rintro rfl
    rw [hget, some.injEq] at hc
    exact hk (by rw [hc, hkey])

theorem found_move (h : Indexes keyOf table get) (hget : get r = some a)
    (hunused : get r' = none) :
    found (table.insert (keyOf a) r')
      (update (update get r none) r' (some b)) k =
        if k = keyOf a then some b else found table get k := by
  rw [found, lookup_insert_eq]
  by_cases hk : k = keyOf a
  · rw [if_pos hk, if_pos hk, bind_some, update_self]
  · rw [if_neg hk, if_neg hk]
    refine h.found_congr fun r'' c hc hkey => ?_
    have hnew : r'' ≠ r' := by
      rintro rfl
      rw [hunused] at hc
      cases hc
    have hold : r'' ≠ r := by
      rintro rfl
      rw [hget, some.injEq] at hc
      exact hk (by rw [hc, hkey])
    rw [update_of_ne hnew, update_of_ne hold]

end Indexes

end

/-! ## Lists -/

namespace LinkedList

variable {α : Type u} {l : LinkedList α} {it : Nat} {a b : α}

theorem get_insertAt_eq (i : Nat) :
    (l.insertAt i a).get = update l.get l.next (some a) := by
  funext it
  rw [get_insertAt, update_apply]

theorem get_erase_eq : (l.erase it).get = update l.get it none := by
  funext it'
  rw [get_erase, update_apply]

theorem get_set_eq (h : l.get it = some b) :
    (l.set it a).get = update l.get it (some a) := by
  funext it'
  rw [get_set h, update_apply]

/-- The sum of a weight over the elements. -/
def bytes (w : α → Nat) (l : LinkedList α) : Nat := (l.toList.map w).sum

theorem bytes_insertAt (w : α → Nat) (i : Nat) : (l.insertAt i a).bytes w = l.bytes w + w a := by
  have hsplit := congrArg sum
    (congrArg (map w) (take_append_drop i l.toList))
  rw [map_append, sum_append] at hsplit
  rw [bytes, bytes, toList_insertAt, map_append, map_cons, sum_append,
    sum_cons]
  omega

theorem bytes_erase (w : α → Nat) (h : l.get it = some a) :
    (l.erase it).bytes w + w a = l.bytes w :=
  sum_toList_erase w h

theorem bytes_set (w : α → Nat) (h : l.get it = some a) (b : α) :
    (l.set it b).bytes w + w a = l.bytes w + w b := by
  obtain ⟨n, hn, rfl⟩ := map_eq_some_iff.1 h
  have hsum := KeyedList.sum_map_replace (fun n : Nat × α => w n.2) (it, b) hn
  rwa [← comp_def w Prod.snd, ← List.map_map, ← List.map_map] at hsum

theorem le_bytes (w : α → Nat) (h : l.get it = some a) : w a ≤ l.bytes w :=
  Nat.le.intro ((Nat.add_comm _ _).trans (bytes_erase w h))

/-- Where every element weighs something, only the empty list weighs nothing. -/
theorem bytes_eq_zero_iff {w : α → Nat} (hw : ∀ a, 0 < w a) : l.bytes w = 0 ↔ l.toList = [] := by
  constructor
  · intro hzero
    cases hlist : l.toList with
    | nil => rfl
    | cons a rest =>
      rw [bytes, hlist, map_cons, sum_cons] at hzero
      have hpos := hw a
      omega
  · intro hnil
    rw [bytes, hnil]
    rfl

theorem get_pushFront_eq : (l.pushFront a).get = update l.get l.next (some a) :=
  get_insertAt_eq 0

/-- The elements that a table indexes have distinct keys. -/
theorem nodupKeys_of_indexes {κ : Type v} [DecidableEq κ] {keyOf : α → κ}
    {table : UnorderedMap κ Nat} (h : Indexes keyOf table l.get) :
    KeyedList.NodupKeys keyOf l.toList := by
  rw [KeyedList.NodupKeys, toList, List.map_map]
  refine List.Nodup.map_on ?_ (List.Nodup.of_map _ l.nodup)
  intro n hn m hm hkey
  have hget := get_eq_some_iff.2 hn
  have heq := h.eq_of_key_eq hget (get_eq_some_iff.2 hm) hkey
  exact l.nodup.eq_of_mem hn hm heq

theorem perm_toList_set (h : l.get it = some a) (b : α) :
    (l.set it b).toList.Perm (b :: (l.erase it).toList) := by
  have hget : (l.set it b).get it = some b := by
    rw [get_set h, if_pos rfl]
  have hperm := perm_cons_toList_erase hget
  have herase : ((l.set it b).erase it).toList = (l.erase it).toList :=
    congrArg (map Prod.snd) (KeyedList.erase_replace rfl)
  rw [herase] at hperm
  exact hperm

theorem length_toList_set (h : l.get it = some a) (b : α) :
    (l.set it b).toList.length = l.toList.length := by
  rw [(perm_toList_set h b).length_eq, length_cons, length_toList_erase h]

/-! ### Sums in a group -/

variable {M : Type v} [AddCommGroup M] (w : α → M)

theorem sum_map_pushFront (a : α) :
    ((l.pushFront a).toList.map w).sum = (l.toList.map w).sum + w a := by
  rw [toList_pushFront, map_cons, sum_cons, add_comm]

theorem sum_map_erase (h : l.get it = some a) :
    ((l.erase it).toList.map w).sum = (l.toList.map w).sum - w a := by
  have hsum := ((perm_cons_toList_erase h).map w).sum_eq
  rw [map_cons, sum_cons] at hsum
  rw [hsum, add_sub_cancel_left]

theorem sum_map_set (h : l.get it = some a) (b : α) :
    ((l.set it b).toList.map w).sum = (l.toList.map w).sum - w a + w b := by
  have hsum := ((perm_toList_set h b).map w).sum_eq
  rw [map_cons, sum_cons, sum_map_erase w h] at hsum
  rw [hsum, add_comm]
end LinkedList

end Covered.Lib
