import Covered.Lib.KeyedList
import Covered.Lib.SortBy
import Covered.Lib.UnorderedMap
import Mathlib.Data.List.TakeWhile

/-!
# Containers with stable iterators

A list or an ordered multimap of the standard library hands out iterators that denote elements, not
positions: they stay valid while other elements come and go. Here every element is a node with an
identity, which the container never uses again, and an iterator is an identity. `get` dereferences
an iterator; `insertAt`, `erase`, `set` and `moveToFront` are the updates, with one lemma for what
`get` finds after each (`get_insertAt`, `get_erase`, `get_set`, `get_moveToFront`) and one for the
order of the elements.

The distinctness of the identities is a field of the structure, so no proof about a client repeats
it.
-/

set_option autoImplicit false

namespace Covered.Lib

open KeyedList Option List

universe u v

/-- A sequence of nodes with identities below `next`. -/
structure LinkedList (α : Type u) where
  nodes : List (Nat × α)
  next : Nat
  nodup : KeyedList.NodupKeys Prod.fst nodes
  fresh : ∀ n ∈ nodes, n.1 < next

namespace LinkedList

variable {α : Type u}

/-- The empty container. -/
def empty : LinkedList α := ⟨[], 0, List.nodup_nil, fun _ h => nomatch h⟩

instance : Inhabited (LinkedList α) := ⟨empty⟩

/-- The elements in order. -/
def toList (l : LinkedList α) : List α := l.nodes.map Prod.snd

/-- The element that an iterator denotes. -/
def get (l : LinkedList α) (it : Nat) : Option α :=
  (KeyedList.find Prod.fst it l.nodes).map Prod.snd

/-- The last node, with its iterator. -/
def back (l : LinkedList α) : Option (Nat × α) := l.nodes.getLast?

/-- A new element before the `i`-th one; its iterator is `l.next`. -/
def insertAt (l : LinkedList α) (i : Nat) (a : α) : LinkedList α where
  nodes := l.nodes.take i ++ (l.next, a) :: l.nodes.drop i
  next := l.next + 1
  nodup := by
    have hperm : (l.nodes.take i ++ (l.next, a) :: l.nodes.drop i).Perm
        ((l.next, a) :: (l.nodes.take i ++ l.nodes.drop i)) := List.perm_middle
    rw [List.take_append_drop] at hperm
    refine KeyedList.NodupKeys.perm ?_ hperm.symm
    refine List.nodup_cons.2 ⟨fun hmem => ?_, l.nodup⟩
    obtain ⟨n, hn, heq⟩ := List.mem_map.1 hmem
    exact absurd (l.fresh n hn) (by rw [heq]; exact Nat.lt_irrefl _)
  fresh := by
    intro n hn
    rcases List.mem_append.1 hn with hn | hn
    · exact Nat.lt_succ_of_lt (l.fresh n (List.mem_of_mem_take hn))
    · rcases List.mem_cons.1 hn with rfl | hn
      · exact Nat.lt_succ_self _
      · exact Nat.lt_succ_of_lt (l.fresh n (List.mem_of_mem_drop hn))

/-- A new first element; its iterator is `l.next`. -/
def pushFront (l : LinkedList α) (a : α) : LinkedList α := l.insertAt 0 a

/-- A new last element; its iterator is `l.next`. -/
def pushBack (l : LinkedList α) (a : α) : LinkedList α := l.insertAt l.toList.length a

/-- A new element of an ordered multimap, behind the elements with an equal key; its iterator is
`l.next`. -/
def insertSorted {κ : Type v} [LinearOrder κ] (f : α → κ) (l : LinkedList α) (a : α) :
    LinkedList α :=
  l.insertAt (l.toList.takeWhile fun b => decide ¬ f a < f b).length a

/-- The container without the element that the iterator denotes. -/
def erase (l : LinkedList α) (it : Nat) : LinkedList α where
  nodes := KeyedList.erase Prod.fst it l.nodes
  next := l.next
  nodup := l.nodup.sublist KeyedList.erase_sublist
  fresh := fun n hn => l.fresh n (KeyedList.erase_sublist.subset hn)

/-- The element that the iterator denotes replaced. -/
def set (l : LinkedList α) (it : Nat) (a : α) : LinkedList α where
  nodes := KeyedList.replace Prod.fst it (it, a) l.nodes
  next := l.next
  nodup := l.nodup.replace rfl
  fresh := by
    intro n hn
    have hkey : n.1 ∈ (KeyedList.replace Prod.fst it (it, a) l.nodes).map Prod.fst :=
      List.mem_map_of_mem hn
    rw [KeyedList.map_replace (f := Prod.fst) (b := (it, a)) rfl] at hkey
    obtain ⟨m, hm, heq⟩ := List.mem_map.1 hkey
    exact heq ▸ l.fresh m hm

/-- The element that the iterator denotes moved to the front; the iterator still denotes it. -/
def moveToFront (l : LinkedList α) (it : Nat) : LinkedList α where
  nodes := (KeyedList.find Prod.fst it l.nodes).toList ++ KeyedList.erase Prod.fst it l.nodes
  next := l.next
  nodup := by
    cases hfind : KeyedList.find Prod.fst it l.nodes with
    | none => exact l.nodup.sublist KeyedList.erase_sublist
    | some n =>
      refine List.nodup_cons.2 ⟨?_, l.nodup.sublist KeyedList.erase_sublist⟩
      have herased : KeyedList.find Prod.fst n.1 (KeyedList.erase Prod.fst it l.nodes) = none := by
        rw [KeyedList.find_erase l.nodup, if_pos (KeyedList.key_of_find hfind)]
      exact KeyedList.find_eq_none_iff.1 herased
  fresh := by
    intro n hn
    rcases List.mem_append.1 hn with hn | hn
    · exact l.fresh n (KeyedList.mem_of_find (Option.mem_toList.1 hn))
    · exact l.fresh n (KeyedList.erase_sublist.subset hn)

variable {l : LinkedList α} {it it' : Nat} {a b : α}

/-! ## What an iterator denotes -/

@[simp] theorem get_empty : (empty : LinkedList α).get it = none := rfl

theorem get_eq_some_iff : l.get it = some a ↔ (it, a) ∈ l.nodes := by
  rw [get, map_eq_some_iff]
  constructor
  · rintro ⟨n, hn, rfl⟩
    obtain ⟨hmem, rfl⟩ := (find_eq_some_iff l.nodup).1 hn
    exact hmem
  · intro hmem
    exact ⟨(it, a), (find_eq_some_iff l.nodup).2 ⟨hmem, rfl⟩, rfl⟩

theorem mem_toList_iff : a ∈ l.toList ↔ ∃ it, l.get it = some a := by
  rw [toList, List.mem_map]
  constructor
  · rintro ⟨⟨it, a⟩, hmem, rfl⟩
    exact ⟨it, get_eq_some_iff.2 hmem⟩
  · rintro ⟨it, hit⟩
    exact ⟨(it, a), get_eq_some_iff.1 hit, rfl⟩

theorem lt_next_of_get (h : l.get it = some a) : it < l.next := l.fresh _ (get_eq_some_iff.1 h)

theorem get_next : l.get l.next = none := by
  cases h : l.get l.next with
  | none => rfl
  | some a => exact absurd (lt_next_of_get h) (Nat.lt_irrefl _)

theorem perm_nodes_insertAt (i : Nat) : (l.insertAt i a).nodes.Perm ((l.next, a) :: l.nodes) := by
  have hmiddle : (l.insertAt i a).nodes.Perm
      ((l.next, a) :: (l.nodes.take i ++ l.nodes.drop i)) := perm_middle
  rwa [take_append_drop] at hmiddle

theorem get_insertAt (i : Nat) :
    (l.insertAt i a).get it = if it = l.next then some a else l.get it := by
  rw [get, find_perm (l.insertAt i a).nodup (perm_nodes_insertAt i), find_cons]
  by_cases h : it = l.next
  · rw [if_pos h.symm, if_pos h, map_some]
  · rw [if_neg (Ne.symm h), if_neg h, get]

theorem get_pushFront : (l.pushFront a).get it = if it = l.next then some a else l.get it :=
  get_insertAt 0

theorem get_erase : (l.erase it').get it = if it = it' then none else l.get it := by
  rw [get, erase, find_erase l.nodup]
  split
  · rfl
  · rfl

theorem get_set (h : l.get it' = some b) :
    (l.set it' a).get it = if it = it' then some a else l.get it := by
  have hnodes : (l.set it' a).nodes = replace Prod.fst it' (it', a) l.nodes := rfl
  rw [get, hnodes, find_replace (f := Prod.fst) (b := (it', a)) rfl]
  split
  · obtain ⟨n, hn, -⟩ := map_eq_some_iff.1 h
    rw [hn, map_some, map_some]
  · rfl

theorem get_moveToFront : (l.moveToFront it').get it = l.get it := by
  rw [get, moveToFront, find_append, find_erase l.nodup]
  cases hfind : find Prod.fst it' l.nodes with
  | none =>
    rw [toList_none, find_nil, none_or]
    split
    · next h => rw [h, get, hfind]
    · rfl
  | some n =>
    rw [toList_some, find_cons, key_of_find hfind, find_nil]
    by_cases h : it = it'
    · rw [if_pos h.symm, some_or, h, get, hfind]
    · rw [if_neg (Ne.symm h), if_neg h, none_or, get]

theorem get_of_back (h : l.back = some (it, a)) : l.get it = some a :=
  get_eq_some_iff.2 (mem_of_getLast? h)

theorem back_eq_none_iff : l.back = none ↔ l.toList = [] := by
  rw [back, getLast?_eq_none_iff, toList, map_eq_nil_iff]

theorem toList_getLast_of_back (h : l.back = some (it, a)) : l.toList.getLast? = some a := by
  rw [toList, getLast?_map, ← back, h, map_some]

/-! ## The order of the elements -/

theorem toList_insertAt (i : Nat) :
    (l.insertAt i a).toList = l.toList.take i ++ a :: l.toList.drop i := by
  simp only [toList, insertAt, map_append, map_cons, map_take, map_drop]

theorem toList_pushFront : (l.pushFront a).toList = a :: l.toList := toList_insertAt 0

theorem perm_cons_toList_erase (h : l.get it = some a) :
    l.toList.Perm (a :: (l.erase it).toList) := by
  obtain ⟨n, hn, rfl⟩ := map_eq_some_iff.1 h
  exact (perm_cons_erase hn).map Prod.snd

theorem toList_moveToFront (h : l.get it = some a) :
    (l.moveToFront it).toList = a :: (l.erase it).toList := by
  obtain ⟨n, hn, rfl⟩ := map_eq_some_iff.1 h
  have hnodes : (l.moveToFront it).nodes =
      (find Prod.fst it l.nodes).toList ++ KeyedList.erase Prod.fst it l.nodes := rfl
  rw [toList, hnodes, hn, toList_some, singleton_append, map_cons]
  rfl

section Keys

variable {κ : Type v} [DecidableEq κ] {f : α → κ}

omit [DecidableEq κ] in
/-- Where the elements have distinct keys, an iterator singles out the element with its key. -/
theorem iter_eq_iff_key_eq (hl : KeyedList.NodupKeys f l.toList) (h : l.get it = some a) :
    ∀ n ∈ l.nodes, n.1 = it ↔ (f ∘ Prod.snd) n = f a := by
  have hnodes : KeyedList.NodupKeys (f ∘ Prod.snd) l.nodes := by
    rwa [KeyedList.NodupKeys, toList, List.map_map] at hl
  have hmem := get_eq_some_iff.1 h
  intro n hn
  constructor
  · intro hit
    rw [l.nodup.eq_of_mem hn hmem hit]
    rfl
  · intro hkey
    rw [hnodes.eq_of_mem hn hmem hkey]

theorem toList_erase (hl : KeyedList.NodupKeys f l.toList) (h : l.get it = some a) :
    (l.erase it).toList = KeyedList.erase f (f a) l.toList := by
  rw [toList, toList, erase_map, ← erase_congr (iter_eq_iff_key_eq hl h)]
  rfl

theorem toList_set (hl : KeyedList.NodupKeys f l.toList) (h : l.get it = some a) (b : α) :
    (l.set it b).toList = replace f (f a) b l.toList := by
  have hreplace := replace_map Prod.snd (f := f) (k := f a) (l := l.nodes) (it, b)
  rw [← replace_congr (iter_eq_iff_key_eq hl h)] at hreplace
  rw [toList, toList, hreplace]
  rfl

end Keys

theorem toList_set_pushFront (l : LinkedList α) (a b : α) :
    ((l.pushFront a).set l.next b).toList = b :: l.toList := by
  have hnodes : ((l.pushFront a).set l.next b).nodes =
      replace Prod.fst l.next (l.next, b) ((l.next, a) :: l.nodes) := rfl
  rw [toList, hnodes, KeyedList.replace, if_pos rfl, map_cons, toList]

theorem toList_insertAt_of_append {xs ys : List α} (h : l.toList = xs ++ ys) :
    (l.insertAt xs.length a).toList = xs ++ a :: ys := by
  rw [toList_insertAt, h, take_left, drop_left]

variable {κ : Type v}

theorem toList_insertSorted [LinearOrder κ] (f : α → κ) (a : α) :
    (l.insertSorted f a).toList = l.toList.orderedInsert (fun a b => f a < f b) a := by
  have hsplit := takeWhile_append_dropWhile (p := fun b => decide ¬ f a < f b) (l := l.toList)
  rw [insertSorted, toList_insertAt_of_append hsplit.symm, orderedInsert_eq_take_drop]

theorem get_insertSorted [LinearOrder κ] (f : α → κ) :
    (l.insertSorted f a).get it = if it = l.next then some a else l.get it := get_insertAt _

/-- An erasure takes the weight of the element away. -/
theorem sum_toList_erase (w : α → Nat) (h : l.get it = some a) :
    ((l.erase it).toList.map w).sum + w a = (l.toList.map w).sum := by
  obtain ⟨n, hn, rfl⟩ := map_eq_some_iff.1 h
  have hsum := sum_map_erase (fun n : Nat × α => w n.2) hn
  rwa [← Function.comp_def w Prod.snd, ← List.map_map, ← List.map_map] at hsum

theorem length_toList_erase (h : l.get it = some a) :
    (l.erase it).toList.length + 1 = l.toList.length :=
  (perm_cons_toList_erase h).length_eq.symm

/-! ## Loading -/

theorem get_pushBack : (l.pushBack a).get it = if it = l.next then some a else l.get it :=
  get_insertAt _

theorem toList_pushBack : (l.pushBack a).toList = l.toList ++ [a] :=
  toList_insertAt_of_append (append_nil _).symm

/-- An element that is not below the others comes last. -/
theorem toList_insertSorted_of_ascending [LinearOrder κ] {f : α → κ}
    (h : SortBy.Ascending f (l.toList ++ [a])) : (l.insertSorted f a).toList = l.toList ++ [a] := by
  have hle : ∀ b ∈ l.toList, f b ≤ f a := fun b hb =>
    (pairwise_append.1 h).2.2 b hb a (mem_singleton_self a)
  have hall : l.toList.takeWhile (fun b => decide ¬ f a < f b) = l.toList :=
    takeWhile_eq_self_iff.2 fun b hb => decide_eq_true (not_lt.2 (hle b hb))
  rw [insertSorted, hall]
  exact toList_pushBack

section Load

variable {κ : Type v} [DecidableEq κ] {keyOf : α → κ}

/-- Elements inserted one after the other into an empty container, with a table of their iterators.
A key that comes again keeps its first iterator. -/
def load (insert : LinkedList α → α → LinkedList α) (keyOf : α → κ) (items : List α) :
    LinkedList α × UnorderedMap κ Nat :=
  items.foldl (fun s a => (insert s.1 a, s.2.insertNew (keyOf a) s.1.next)) (empty, ∅)

/-- The table has exactly the keys of the elements, and their iterators. -/
structure Indexed (keyOf : α → κ) (s : LinkedList α × UnorderedMap κ Nat) : Prop where
  places : ∀ k it, s.2.lookup k = some it → ∃ a, s.1.get it = some a ∧ keyOf a = k
  exists_iff : ∀ k, (s.2.lookup k).isSome = true ↔ k ∈ s.1.toList.map keyOf

theorem Indexed.insert {s : LinkedList α × UnorderedMap κ Nat} (h : Indexed keyOf s)
    {l : LinkedList α} (hlist : l.toList = s.1.toList ++ [a])
    (hget : ∀ it, l.get it = if it = s.1.next then some a else s.1.get it) :
    Indexed keyOf (l, s.2.insertNew (keyOf a) s.1.next) := by
  constructor
  case places =>
    intro k it hit
    rw [UnorderedMap.lookup_insertNew, or_eq_some_iff] at hit
    rcases hit with hit | ⟨-, hit⟩
    · obtain ⟨b, hb, hk⟩ := h.places k it hit
      exact ⟨b, (hget it).trans ((if_neg (Nat.ne_of_lt (lt_next_of_get hb))).trans hb), hk⟩
    · split at hit
      · next hk =>
        cases hit
        exact ⟨a, (hget _).trans (if_pos rfl), hk.symm⟩
      · cases hit
  case exists_iff =>
    intro k
    rw [UnorderedMap.lookup_insertNew, isSome_or, Bool.or_eq_true, h.exists_iff, hlist,
      map_append, mem_append, map_singleton, mem_singleton]
    refine or_congr_right ?_
    split
    · next hk => exact iff_of_true rfl hk
    · next hk => exact iff_of_false Bool.false_ne_true hk

/-- Insertions that append the elements load them in order, and index them. -/
theorem load_spec {insert : LinkedList α → α → LinkedList α} (keyOf : α → κ) (items : List α)
    (hget : ∀ (l : LinkedList α) a it,
      (insert l a).get it = if it = l.next then some a else l.get it)
    (hinsert : ∀ (l : LinkedList α) a rest, l.toList ++ a :: rest = items →
      (insert l a).toList = l.toList ++ [a]) :
    (load insert keyOf items).1.toList = items ∧ Indexed keyOf (load insert keyOf items) := by
  have key : ∀ (rest : List α) (s : LinkedList α × UnorderedMap κ Nat),
      s.1.toList ++ rest = items → Indexed keyOf s →
      (rest.foldl (fun s a => (insert s.1 a, s.2.insertNew (keyOf a) s.1.next)) s).1.toList =
          items ∧
        Indexed keyOf (rest.foldl (fun s a => (insert s.1 a, s.2.insertNew (keyOf a) s.1.next))
          s) := by
    intro rest
    induction rest with
    | nil => exact fun s hs h => ⟨(append_nil _).symm.trans hs, h⟩
    | cons a rest ih =>
      intro s hs h
      have hlist := hinsert s.1 a rest hs
      refine ih _ ?_ (h.insert hlist (hget s.1 a))
      rw [hlist, append_assoc]
      exact hs
  refine key items (empty, ∅) rfl ⟨fun k it hit => ?_, fun k => ?_⟩
  · cases hit
  · exact iff_of_false Bool.false_ne_true not_mem_nil

end Load

end LinkedList

end Covered.Lib
