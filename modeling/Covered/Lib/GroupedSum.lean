import Mathlib.Algebra.BigOperators.Group.List.Basic
import Mathlib.Data.List.Induction
import Covered.Lib.Checked
import Covered.Lib.KeyedList
import Covered.Lib.UnorderedMap

/-!
# Sums of checked summands, over groups

`sumM f l` adds up `f a` over a list; a summand that aborts makes the sum abort. The sum does not
depend on the order (`sumM_perm`), and a sum over the concatenation of lists is the sum of their
sums (`sumM_flatMap`).

A program that collects elements in a table by key and then goes through the table goes through the
same elements in another order. `groupBy` collects in a hash table and `groupList` in a list of
pairs; `lookup_groupBy` and `valueOf_groupList` say what the group of a key is, and `perm_groupBy`
and `perm_groupList` that no element is lost or doubled.
-/

set_option autoImplicit false

namespace Covered.Lib

open KeyedList Option List

universe u v w

open Checked

section Sums

variable {α : Type u} {β : Type v} {M : Type w} [AddCommMonoid M]

/-- The sum of checked summands. -/
def sumM (f : α → Option M) : List α → Option M
  | [] => some 0
  | a :: rest => do
      let x ← f a
      let y ← sumM f rest
      return x + y

variable {f g : α → Option M} {l l' : List α}

theorem sumM_cons (a : α) : sumM f (a :: l) = (f a).bind fun x => (sumM f l).map (x + ·) := by
  rw [sumM]
  cases f a with
  | none => rfl
  | some x => cases sumM f l <;> rfl

theorem sumM_eq_some {w : α → M} (h : ∀ a ∈ l, f a = some (w a)) :
    sumM f l = some (l.map w).sum := by
  induction l with
  | nil => rfl
  | cons a rest ih =>
    rw [sumM_cons, h a mem_cons_self, ih fun b hb => h b (mem_cons_of_mem a hb)]
    rfl

/-- A sum does not abort iff no summand does. -/
theorem sumM_isSome_iff : (sumM f l).isSome = true ↔ ∀ a ∈ l, (f a).isSome = true := by
  induction l with
  | nil => exact iff_of_true rfl fun _ h => nomatch h
  | cons a rest ih =>
    rw [sumM_cons, forall_mem_cons, ← ih]
    cases f a with
    | none => exact iff_of_false Bool.false_ne_true fun h => Bool.false_ne_true h.1
    | some x => rw [bind_some, isSome_map]; exact (and_iff_right rfl).symm

/-- A sum whose summands have a value where a condition holds has one where all conditions hold. -/
theorem sumM_eq_some_iff {p : α → Prop} {w : α → M} {x : M}
    (h : ∀ a ∈ l, ∀ y, f a = some y ↔ p a ∧ w a = y) :
    sumM f l = some x ↔ (∀ a ∈ l, p a) ∧ (l.map w).sum = x := by
  constructor
  · intro hsum
    have hall : ∀ a ∈ l, p a := by
      intro a ha
      obtain ⟨y, hy⟩ := isSome_iff_exists.1
        (sumM_isSome_iff.1 (isSome_of_eq_some hsum) a ha)
      exact ((h a ha y).1 hy).1
    rw [sumM_eq_some fun a ha => (h a ha (w a)).2 ⟨hall a ha, rfl⟩] at hsum
    exact ⟨hall, some.inj hsum⟩
  · rintro ⟨hall, rfl⟩
    exact sumM_eq_some fun a ha => (h a ha (w a)).2 ⟨hall a ha, rfl⟩

theorem sumM_congr (h : ∀ a ∈ l, f a = g a) : sumM f l = sumM g l := by
  induction l with
  | nil => rfl
  | cons a rest ih =>
    rw [sumM_cons, sumM_cons, h a mem_cons_self,
      ih fun b hb => h b (mem_cons_of_mem a hb)]

theorem sumM_perm (h : l.Perm l') : sumM f l = sumM f l' := by
  induction h with
  | nil => rfl
  | cons a _ ih => rw [sumM_cons, sumM_cons, ih]
  | swap a b l =>
    simp only [sumM_cons]
    cases f a with
    | none => cases f b <;> rfl
    | some x =>
      cases f b with
      | none => rfl
      | some y =>
        cases sumM f l with
        | none => rfl
        | some z => exact congrArg some (add_left_comm y x z)
  | trans _ _ ih ih' => exact ih.trans ih'

theorem sumM_append :
    sumM f (l ++ l') = (sumM f l).bind fun x => (sumM f l').map (x + ·) := by
  induction l with
  | nil =>
    rw [nil_append, sumM, bind_some]
    cases sumM f l' with
    | none => rfl
    | some y => rw [map_some, zero_add]
  | cons a rest ih =>
    rw [cons_append, sumM_cons, sumM_cons, ih]
    cases f a with
    | none => rfl
    | some x =>
      cases sumM f rest with
      | none => rfl
      | some y =>
        cases sumM f l' with
        | none => rfl
        | some z => exact congrArg some (add_assoc x y z).symm

theorem sumM_flatMap {k : β → List α} {bs : List β} :
    sumM f (bs.flatMap k) = sumM (fun b => sumM f (k b)) bs := by
  induction bs with
  | nil => rfl
  | cons b rest ih => rw [flatMap_cons, sumM_append, sumM_cons, ih]

/-- What every summand of a sum that is not empty asks for first can be asked for before the sum. -/
theorem bind_sumM {γ : Type v} (p : Option γ) (f : γ → α → Option M) (hl : l ≠ []) :
    (p.bind fun c => sumM (f c) l) = sumM (fun a => p.bind fun c => f c a) l := by
  cases p with
  | some c => rfl
  | none =>
    cases l with
    | nil => exact absurd rfl hl
    | cons a rest => rw [sumM_cons]; rfl

theorem sumM_map {w : β → α} {bs : List β} : sumM f (bs.map w) = sumM (fun b => f (w b)) bs := by
  induction bs with
  | nil => rfl
  | cons b rest ih => rw [map_cons, sumM_cons, sumM_cons, ih]

end Sums

section Upsert

variable {κ : Type u} {V : Type v} {W : Type w} [DecidableEq κ] {f : Option V → V}
variable {list : List (κ × V)} {k k' : κ}

/-- Change the value of a key in a list of pairs, or append the key with a first value. -/
def upsert (k : κ) (f : Option V → V) (list : List (κ × V)) : List (κ × V) :=
  match KeyedList.find Prod.fst k list with
  | none => list ++ [(k, f none)]
  | some entry => KeyedList.replace Prod.fst k (k, f (some entry.2)) list

/-- The value of a key in a list of pairs. -/
def valueOf (k : κ) (list : List (κ × V)) : Option V :=
  (KeyedList.find Prod.fst k list).map Prod.snd

theorem valueOf_upsert :
    valueOf k' (upsert k f list) =
      if k' = k then some (f (valueOf k list)) else valueOf k' list := by
  rw [valueOf, valueOf, valueOf, upsert]
  cases hfind : find Prod.fst k list with
  | none =>
    show (find Prod.fst k' (list ++ [(k, f none)])).map Prod.snd = _
    rw [find_append_singleton hfind]
    by_cases hk : k' = k
    · rw [if_pos hk, if_pos hk]
      rfl
    · rw [if_neg hk, if_neg hk]
  | some entry =>
    show (find Prod.fst k' (replace Prod.fst k _ list)).map Prod.snd = _
    rw [find_replace (f := Prod.fst) (b := (k, f (some entry.2))) rfl]
    by_cases hk : k' = k
    · rw [if_pos hk, if_pos hk]
      show (Option.map _ (find Prod.fst k list)).map Prod.snd = _
      rw [hfind]
      rfl
    · rw [if_neg hk, if_neg hk]

theorem nodupKeys_upsert (h : KeyedList.NodupKeys Prod.fst list) :
    KeyedList.NodupKeys Prod.fst (upsert k f list) := by
  rw [upsert]
  cases hfind : find Prod.fst k list with
  | none => exact h.append_singleton hfind
  | some entry => exact h.replace rfl

/-- A list whose values are mapped is changed in the same way, if the values are. -/
theorem upsert_map (F : V → W) {g : Option W → W} (hg : ∀ o, g (o.map F) = F (f o)) :
    upsert k g (list.map fun entry => (entry.1, F entry.2)) =
      (upsert k f list).map fun entry => (entry.1, F entry.2) := by
  have hfind : find Prod.fst k (list.map fun entry => (entry.1, F entry.2)) =
      (find Prod.fst k list).map fun entry => (entry.1, F entry.2) := by
    rw [find, find, find?_map]
    rfl
  rw [upsert, upsert, hfind]
  cases find Prod.fst k list with
  | none =>
    have hvalue : g none = F (f none) := hg none
    show list.map _ ++ [(k, g none)] = _
    rw [map_append, hvalue]
    rfl
  | some entry =>
    have hvalue : (k, g (some (F entry.2))) = (k, F (f (some entry.2))) :=
      congrArg (fun x => (k, x)) (hg (some entry.2))
    show replace Prod.fst k (k, g (some (F entry.2))) _ = _
    rw [hvalue]
    exact replace_map (f := Prod.fst) (fun entry : κ × V => (entry.1, F entry.2))
      (k, f (some entry.2))

theorem valueOf_map (F : V → W) :
    valueOf k (list.map fun entry => (entry.1, F entry.2)) = (valueOf k list).map F := by
  rw [valueOf, valueOf, find, find, find?_map, Option.map_map,
    Option.map_map]
  rfl

end Upsert

section Groups

variable {α : Type u} {κ : Type v} [DecidableEq κ] (keyOf : α → κ)

/-- Append to the group of the key in a hash table. -/
def pushGroup (groups : UnorderedMap κ (List α)) (a : α) : UnorderedMap κ (List α) :=
  groups.insert (keyOf a) ((groups.lookup (keyOf a)).getD [] ++ [a])

/-- The elements of a list by key, in a hash table. -/
def groupBy (l : List α) : UnorderedMap κ (List α) := l.foldl (pushGroup keyOf) ∅

/-- Append to the group of the key in a list of groups. -/
def pushGroupList (groups : List (κ × List α)) (a : α) : List (κ × List α) :=
  upsert (keyOf a) (fun group => group.getD [] ++ [a]) groups

/-- The elements of a list by key, in a list of groups. -/
def groupList (l : List α) : List (κ × List α) := l.foldl (pushGroupList keyOf) []

variable {keyOf} {groups : UnorderedMap κ (List α)} {list : List (κ × List α)} {l : List α} {k : κ}

/-- The elements with the given key, in their order. -/
abbrev withKey (keyOf : α → κ) (k : κ) (l : List α) : List α := l.filter fun a => keyOf a = k

/-- The group of a key, if it is not empty. -/
def groupOf (keyOf : α → κ) (k : κ) (l : List α) : Option (List α) :=
  if withKey keyOf k l = [] then none else some (withKey keyOf k l)

theorem groupOf_append_singleton (a : α) : groupOf keyOf k (l ++ [a]) =
    if k = keyOf a then some ((groupOf keyOf k l).getD [] ++ [a]) else groupOf keyOf k l := by
  have hfilter : withKey keyOf k (l ++ [a]) =
      withKey keyOf k l ++ if k = keyOf a then [a] else [] := by
    rw [withKey, filter_append, filter_singleton]
    congr 1
    by_cases hk : k = keyOf a
    · rw [if_pos hk, hk, decide_eq_true rfl]
      rfl
    · rw [if_neg hk, decide_eq_false (Ne.symm hk)]
      rfl
  rw [groupOf, hfilter]
  by_cases hk : k = keyOf a
  · rw [if_pos hk, if_pos hk, if_neg (append_ne_nil_of_right_ne_nil _ (cons_ne_nil a []))]
    congr 2
    rw [groupOf]
    split
    · next hnil => rw [hnil]; rfl
    · rfl
  · rw [if_neg hk, if_neg hk, append_nil]
    rfl

theorem lookup_groupBy : (groupBy keyOf l).lookup k = groupOf keyOf k l := by
  have key : ∀ (rest done : List α) (m : UnorderedMap κ (List α)),
      (∀ k, m.lookup k = groupOf keyOf k done) →
      ∀ k, (rest.foldl (pushGroup keyOf) m).lookup k = groupOf keyOf k (done ++ rest) := by
    intro rest
    induction rest with
    | nil => exact fun done m hm k => by rw [append_nil]; exact hm k
    | cons a rest ih =>
      intro done m hm k
      rw [foldl_cons, ← singleton_append, ← append_assoc]
      refine ih (done ++ [a]) _ (fun k => ?_) k
      rw [groupOf_append_singleton, pushGroup, UnorderedMap.lookup_insert_eq, hm]
      split
      · next hk => rw [hk]
      · exact hm k
  exact key l [] ∅ (fun _ => rfl) k

theorem perm_pushGroup (a : α) : ((pushGroup keyOf groups a).entries.flatMap Sigma.snd).Perm
    (a :: groups.entries.flatMap Sigma.snd) := by
  rw [pushGroup, AList.entries_insert, flatMap_cons]
  by_cases hmem : keyOf a ∈ groups.entries.keys
  · obtain ⟨group, front, back, hfront, hentries, herase⟩ := exists_of_kerase hmem
    have hlookup : groups.lookup (keyOf a) = some group := by
      refine AList.mem_lookup_iff.2 ?_
      rw [hentries]
      exact mem_append_right front mem_cons_self
    rw [hlookup, getD_some, herase, hentries, flatMap_append, flatMap_append,
      flatMap_cons]
    -- the group is in front in the one table and in its old place in the other
    have hswap : (group ++ (front.flatMap Sigma.snd ++ back.flatMap Sigma.snd)).Perm
        (front.flatMap Sigma.snd ++ (group ++ back.flatMap Sigma.snd)) := by
      rw [← append_assoc, ← append_assoc]
      exact perm_append_comm.append_right _
    rw [append_assoc]
    exact perm_middle.trans (hswap.cons a)
  · have hlookup : groups.lookup (keyOf a) = none := AList.lookup_eq_none.2 hmem
    rw [hlookup, getD_none, kerase_of_notMem_keys hmem]
    exact List.Perm.refl _

/-- The groups hold the elements of the list, in another order. -/
theorem perm_groupBy : ((groupBy keyOf l).entries.flatMap Sigma.snd).Perm l := by
  have key : ∀ (rest : List α) (m : UnorderedMap κ (List α)),
      ((rest.foldl (pushGroup keyOf) m).entries.flatMap Sigma.snd).Perm
        (m.entries.flatMap Sigma.snd ++ rest) := by
    intro rest
    induction rest with
    | nil => exact fun m => by rw [append_nil]; exact List.Perm.refl _
    | cons a rest ih =>
      intro m
      refine (ih (pushGroup keyOf m a)).trans (((perm_pushGroup a).append_right rest).trans ?_)
      exact perm_middle.symm
  exact key l ∅

theorem valueOf_groupList : valueOf k (groupList keyOf l) = groupOf keyOf k l := by
  have key : ∀ (rest done : List α) (m : List (κ × List α)),
      (∀ k, valueOf k m = groupOf keyOf k done) →
      ∀ k, valueOf k (rest.foldl (pushGroupList keyOf) m) = groupOf keyOf k (done ++ rest) := by
    intro rest
    induction rest with
    | nil => exact fun done m hm k => by rw [append_nil]; exact hm k
    | cons a rest ih =>
      intro done m hm k
      rw [foldl_cons, ← singleton_append, ← append_assoc]
      refine ih (done ++ [a]) _ (fun k => ?_) k
      rw [groupOf_append_singleton, pushGroupList, valueOf_upsert, ← hm]
      split
      · next hk => rw [hk]
      · rfl
  exact key l [] [] (fun _ => rfl) k

theorem nodupKeys_groupList : KeyedList.NodupKeys Prod.fst (groupList keyOf l) := by
  have key : ∀ (rest : List α) (m : List (κ × List α)), KeyedList.NodupKeys Prod.fst m →
      KeyedList.NodupKeys Prod.fst (rest.foldl (pushGroupList keyOf) m) := by
    intro rest
    induction rest with
    | nil => exact fun m hm => hm
    | cons a rest ih => exact fun m hm => ih _ (nodupKeys_upsert hm)
  exact key l [] nodup_nil

theorem perm_pushGroupList (a : α) : ((pushGroupList keyOf list a).flatMap Prod.snd).Perm
    (a :: list.flatMap Prod.snd) := by
  rw [pushGroupList, upsert]
  cases hfind : find Prod.fst (keyOf a) list with
  | none =>
    show ((list ++ [(keyOf a, [a])]).flatMap Prod.snd).Perm _
    rw [flatMap_append]
    exact perm_append_comm
  | some group =>
    show ((replace Prod.fst (keyOf a) _ list).flatMap Prod.snd).Perm _
    induction list with
    | nil => cases hfind
    | cons g rest ih =>
      rw [find_cons] at hfind
      rw [KeyedList.replace]
      by_cases hg : g.1 = keyOf a
      · rw [if_pos hg] at hfind ⊢
        cases hfind
        rw [flatMap_cons, flatMap_cons, append_assoc]
        exact perm_middle
      · rw [if_neg hg] at hfind ⊢
        rw [flatMap_cons, flatMap_cons]
        exact ((ih hfind).append_left g.2).trans perm_middle

theorem perm_groupList : ((groupList keyOf l).flatMap Prod.snd).Perm l := by
  have key : ∀ (rest : List α) (m : List (κ × List α)),
      ((rest.foldl (pushGroupList keyOf) m).flatMap Prod.snd).Perm
        (m.flatMap Prod.snd ++ rest) := by
    intro rest
    induction rest with
    | nil => exact fun m => by rw [append_nil]; exact List.Perm.refl _
    | cons a rest ih =>
      intro m
      refine (ih (pushGroupList keyOf m a)).trans
        (((perm_pushGroupList a).append_right rest).trans ?_)
      exact perm_middle.symm
  exact key l []

end Groups

section MapsTo

variable {κ : Type u} {V : Type v} {W : Type w} [DecidableEq κ] {f : V → W}
variable {m : UnorderedMap κ V} {m' : UnorderedMap κ W}

/-- The second table has the entries of the first one, each value mapped by `f`. -/
def MapsTo (f : V → W) (m : UnorderedMap κ V) (m' : UnorderedMap κ W) : Prop :=
  m'.entries = m.entries.map fun p => ⟨p.1, f p.2⟩

theorem MapsTo.lookup (h : MapsTo f m m') (k : κ) : m'.lookup k = (m.lookup k).map f := by
  rw [AList.lookup, h]
  exact dlookup_map₂ (f := fun _ => f) k

theorem MapsTo.insert (h : MapsTo f m m') (k : κ) (x : V) :
    MapsTo f (m.insert k x) (m'.insert k (f x)) := by
  have key : ∀ l : List ((_ : κ) × V),
      (l.map fun p => (⟨p.1, f p.2⟩ : (_ : κ) × W)).kerase k =
        (l.kerase k).map fun p => ⟨p.1, f p.2⟩ := by
    intro l
    induction l with
    | nil => rfl
    | cons p rest ih =>
      rw [map_cons]
      by_cases hp : k = p.1
      · rw [kerase_cons_eq hp]
        exact kerase_cons_eq hp
      · rw [kerase_cons_ne hp, map_cons, ← ih]
        exact kerase_cons_ne hp
  rw [MapsTo, AList.entries_insert, AList.entries_insert, map_cons, h, key]

end MapsTo

end Covered.Lib
