import Covered.Lib.PlaceTable

/-!
# Lists with a table of iterators and a byte counter

A cache keeps its items in a list, finds them by a table from keys to iterators, and counts the
bytes of the items and of the table in one number. `IndexedList` says that the table finds exactly
the items of the list and that the number is the sum. An item enters at the front, leaves from
anywhere, is replaced where it is, or is replaced and moved to the front; there is one lemma for
each.
-/

set_option autoImplicit false

namespace Covered.Lib

open UnorderedMap LinkedList

universe u v

variable {α : Type u} {κ : Type v} [DecidableEq κ]

/-- The table finds the items, and the size is what the items and the entries of the table weigh. -/
structure IndexedList (keyOf : α → κ) (w : α → Nat) (entry : κ → Nat) (list : LinkedList α)
    (table : UnorderedMap κ Nat) (size : Nat) : Prop where
  indexes : Indexes keyOf table list.get
  size : size = list.bytes w + table.sumBy fun key _ => entry key

namespace IndexedList

variable {keyOf : α → κ} {w : α → Nat} {entry : κ → Nat} {list : LinkedList α}
  {table : UnorderedMap κ Nat} {size it : Nat} {a b : α}

theorem empty : IndexedList keyOf w entry .empty ∅ 0 where
  indexes := Indexes.empty fun _ => rfl
  size := rfl

theorem lookup_of_get (h : IndexedList keyOf w entry list table size)
    (hget : list.get it = some a) : table.lookup (keyOf a) = some it :=
  h.indexes.lookup_of_get hget

/-- What the table finds is an item with the key. -/
theorem get_of_lookup (h : IndexedList keyOf w entry list table size) {key : κ}
    (hlookup : table.lookup key = some it) : ∃ a, list.get it = some a ∧ keyOf a = key :=
  (h.indexes key it).1 hlookup

theorem nodupKeys (h : IndexedList keyOf w entry list table size) :
    KeyedList.NodupKeys keyOf list.toList :=
  nodupKeys_of_indexes h.indexes

omit [DecidableEq κ] in
theorem sublist_erase (list : LinkedList α) (it : Nat) :
    (list.erase it).toList.Sublist list.toList :=
  KeyedList.erase_sublist.map Prod.snd

section Indexed

variable (h : IndexedList keyOf w entry list table size)
include h

/-- The other items have other keys. -/
theorem key_ne_of_mem_erase
    (hget : list.get it = some a) : ∀ b ∈ (list.erase it).toList, keyOf b ≠ keyOf a := by
  intro b hb
  rw [toList_erase h.nodupKeys hget, KeyedList.erase_eq_filter h.nodupKeys,
    List.mem_filter] at hb
  exact of_decide_eq_true hb.2

/-- The keys of the items are those of the table. -/
theorem lookup_isSome_iff {key : κ} :
    (table.lookup key).isSome = true ↔ ∃ a ∈ list.toList, keyOf a = key := by
  constructor
  · intro hcached
    obtain ⟨it, hlookup⟩ := Option.isSome_iff_exists.1 hcached
    obtain ⟨a, hget, hkey⟩ := h.get_of_lookup hlookup
    exact ⟨a, mem_toList_iff.2 ⟨it, hget⟩, hkey⟩
  · rintro ⟨a, ha, rfl⟩
    obtain ⟨it, hget⟩ := mem_toList_iff.1 ha
    rw [h.lookup_of_get hget, Option.isSome_some]

/-- An item with its entry is counted. -/
theorem le_size (hget : list.get it = some a) : w a + entry (keyOf a) ≤ size := by
  have hbytes := le_bytes w hget
  have hsum := sumBy_erase (fun key (_ : Nat) => entry key) table (keyOf a)
  rw [h.lookup_of_get hget, Option.elim_some] at hsum
  rw [h.size]
  omega

theorem pushFront (hnew : table.lookup (keyOf a) = none) :
    IndexedList keyOf w entry (list.pushFront a) (table.insert (keyOf a) list.next)
      (size + w a + entry (keyOf a)) := by
  constructor
  · rw [get_pushFront_eq]
    exact h.indexes.insert hnew get_next
  · have hsum := sumBy_insert (fun key (_ : Nat) => entry key) table (keyOf a)
      list.next
    have hbytes : (list.pushFront a).bytes w = list.bytes w + w a := bytes_insertAt w 0
    rw [hnew, Option.elim_none] at hsum
    rw [h.size, hbytes]
    omega

section Found

variable (hget : list.get it = some a)
include hget

theorem erase :
    IndexedList keyOf w entry (list.erase it) (table.erase (keyOf a))
      (size - (w a + entry (keyOf a))) := by
  constructor
  · rw [get_erase_eq]
    exact h.indexes.erase hget
  · have hsum := sumBy_erase (fun key (_ : Nat) => entry key) table (keyOf a)
    have hbytes := bytes_erase w hget
    rw [h.lookup_of_get hget, Option.elim_some] at hsum
    rw [h.size]
    omega

theorem set (hkey : keyOf b = keyOf a) :
    IndexedList keyOf w entry (list.set it b) table (size - w a + w b) := by
  constructor
  · rw [get_set_eq hget]
    exact h.indexes.set hget hkey
  · have hbytes := bytes_set w hget b
    have hle := le_bytes w hget
    rw [h.size]
    omega

theorem moveFront (hkey : keyOf b = keyOf a) :
    IndexedList keyOf w entry ((list.erase it).pushFront b)
      (table.insert (keyOf a) (list.erase it).next) (size - w a + w b) := by
  constructor
  · rw [get_pushFront_eq, get_erase_eq]
    exact h.indexes.move hget hkey get_next
  · have hsum := sumBy_insert (fun key (_ : Nat) => entry key) table (keyOf a)
      (list.erase it).next
    have hpush : ((list.erase it).pushFront b).bytes w = (list.erase it).bytes w + w b :=
      bytes_insertAt w 0
    have hbytes := bytes_erase w hget
    rw [h.lookup_of_get hget, Option.elim_some] at hsum
    rw [h.size, hpush]
    omega

/-- The item keeps its iterator on the way to the front. -/
theorem moveToFront : IndexedList keyOf w entry (list.moveToFront it) table size := by
  constructor
  · intro key it'
    rw [get_moveToFront]
    exact h.indexes key it'
  · have hbytes := bytes_erase w hget
    have hmoved : (list.moveToFront it).bytes w = w a + (list.erase it).bytes w := by
      rw [bytes, toList_moveToFront hget, List.map_cons, List.sum_cons]
      rfl
    rw [h.size, hmoved]
    omega

/-- The new item enters before the old one leaves. -/
theorem replaceFront (hkey : keyOf b = keyOf a) :
    IndexedList keyOf w entry ((list.pushFront b).erase it) (table.insert (keyOf a) list.next)
      (size - w a + w b) := by
  have hne : list.next ≠ it := (lt_next_of_get hget).ne'
  constructor
  · rw [get_erase_eq, get_pushFront_eq, Function.update_comm hne]
    exact h.indexes.move hget hkey get_next
  · have hsum := sumBy_insert (fun key (_ : Nat) => entry key) table (keyOf a)
      list.next
    have hpush : (list.pushFront b).bytes w = list.bytes w + w b := bytes_insertAt w 0
    have hget' : (list.pushFront b).get it = some a := by
      rw [get_pushFront, if_neg hne.symm, hget]
    have hbytes := bytes_erase w hget'
    have hle := le_bytes w hget
    rw [h.lookup_of_get hget, Option.elim_some] at hsum
    rw [h.size]
    omega

end Found

end Indexed

end IndexedList

end Covered.Lib
