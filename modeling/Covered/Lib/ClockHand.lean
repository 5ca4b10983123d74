import Covered.Lib.Checked
import Covered.Lib.LinkedList

/-!
# A hand that sweeps over a list

The algorithms of the clock family keep a hand on a list with stable iterators. A sweep goes from
the hand towards the head and on from the tail; it clears the mark of each marked element that it
passes and stops at the first element without a mark.

`walk` lists the iterators in the order of the sweep, once round. A pass of the loop rotates it by
one (`exists_stepBack`), so a sweep is an induction over the marked elements at its front
(`whileLoop_passOver`). `sweep_spec` is the rule for a client: a sweep ends, after at most as many
passes as there are elements, and clears the marks of the longest marked front of the walk and no
others. If all elements are marked it stops where it began. `sweep_invariant` is the rule for what
the clearing of a mark keeps.
-/

set_option autoImplicit false

namespace Covered.Lib

open Option List

universe u

open Checked

namespace LinkedList

variable {α : Type u} {l : LinkedList α} {it cur : Nat} {a : α}

/-! ## Iterators in order -/

/-- The iterators of the elements in order. -/
def iterators (l : LinkedList α) : List Nat := l.nodes.map Prod.fst

theorem nodup_iterators : l.iterators.Nodup := l.nodup

theorem mem_iterators_iff : it ∈ l.iterators ↔ ∃ a, l.get it = some a := by
  rw [iterators, List.mem_map]
  constructor
  · rintro ⟨⟨it, a⟩, hmem, rfl⟩
    exact ⟨a, get_eq_some_iff.2 hmem⟩
  · rintro ⟨a, hget⟩
    exact ⟨(it, a), get_eq_some_iff.1 hget, rfl⟩

theorem length_iterators : l.iterators.length = l.toList.length := by
  rw [iterators, toList, length_map, length_map]

theorem iterators_set : (l.set it a).iterators = l.iterators :=
  KeyedList.map_replace (f := Prod.fst) (b := (it, a)) rfl

/-- The iterator of the first element, the end of an empty list. -/
def begin (l : LinkedList α) : Option Nat := l.iterators.head?

/-- The iterator one before: the last element before the end, nothing before the first element. -/
def prev (l : LinkedList α) : Option Nat → Option Nat
  | none => l.iterators.getLast?
  | some it => (l.iterators.takeWhile fun i => decide (i ≠ it)).getLast?

theorem prev_end (h : l.toList ≠ []) : ∃ last, l.prev none = some last ∧ last ∈ l.iterators := by
  have hne : l.iterators ≠ [] := by
    rw [← length_pos_iff, length_iterators, length_pos_iff]
    exact h
  obtain ⟨last, hlast⟩ := ne_none_iff_exists'.1 (mt getLast?_eq_none_iff.1 hne)
  exact ⟨last, hlast, mem_of_getLast? hlast⟩

theorem prev_some {before : Nat} (h : l.prev (some it) = some before) :
    before ∈ l.iterators ∧ before ≠ it := by
  have hmem := mem_of_getLast? h
  have hne := mem_takeWhile_imp (p := fun i => decide (i ≠ it)) hmem
  exact ⟨(takeWhile_sublist _).subset hmem, of_decide_eq_true hne⟩

/-- One step towards the head, from the head to the tail. -/
def stepBack (l : LinkedList α) (cur : Nat) : Option Nat :=
  l.prev (if l.begin = some cur then none else some cur)

/-! ## The order of a sweep -/

/-- The iterators from the given one towards the head and on from the tail. -/
def walk (l : LinkedList α) (cur : Nat) : List Nat :=
  cur :: (l.iterators.takeWhile fun i => decide (i ≠ cur)).reverse ++
    (l.iterators.dropWhile fun i => decide (i ≠ cur)).tail.reverse

/-- The list around an iterator. -/
theorem around_iterator {before after : List Nat} (h : l.iterators = before ++ cur :: after) :
    cur ∉ before ∧ (l.iterators.takeWhile fun i => decide (i ≠ cur)) = before ∧
      l.walk cur = cur :: before.reverse ++ after.reverse := by
  have hnodup := l.nodup_iterators
  rw [h] at hnodup
  have hnot : cur ∉ before := fun hmem =>
    (nodup_append.1 hnodup).2.2 cur hmem cur mem_cons_self rfl
  have hall : ∀ i ∈ before, decide (i ≠ cur) = true := fun i hi =>
    decide_eq_true fun heq => hnot (heq ▸ hi)
  have hstop : decide (cur ≠ cur) = false := decide_eq_false (not_not.2 rfl)
  have htake : (l.iterators.takeWhile fun i => decide (i ≠ cur)) = before := by
    rw [h, takeWhile_append_of_pos hall, takeWhile_cons, hstop]
    exact append_nil before
  have hdrop : (l.iterators.dropWhile fun i => decide (i ≠ cur)) = cur :: after := by
    rw [h, dropWhile_append_of_pos hall, dropWhile_cons, hstop]
    rfl
  refine ⟨hnot, htake, ?_⟩
  rw [walk, htake, hdrop, tail_cons]

theorem perm_walk (hcur : cur ∈ l.iterators) : (l.walk cur).Perm l.iterators := by
  obtain ⟨before, after, h⟩ := append_of_mem hcur
  rw [(around_iterator h).2.2, h, cons_append]
  refine List.Perm.trans ?_ perm_middle.symm
  exact ((reverse_perm before).append (reverse_perm after)).cons cur

/-- From the tail a sweep goes over the list in reverse. -/
theorem walk_back (h : l.iterators.getLast? = some cur) : l.walk cur = l.iterators.reverse := by
  obtain ⟨front, hfront⟩ := getLast?_eq_some_iff.1 h
  have hwalk := (@around_iterator _ _ _ _ [] hfront).2.2
  rw [hwalk, hfront]
  simp

/-- The step back leads to the second iterator of the walk, and the walk from there is rotated. -/
theorem exists_stepBack (rest : List Nat) (hcur : cur ∈ l.iterators)
    (hwalk : l.walk cur = cur :: rest) :
    ∃ before, l.stepBack cur = some before ∧ before ∈ l.iterators ∧
      l.walk before = rest ++ [cur] := by
  obtain ⟨before, after, h⟩ := append_of_mem hcur
  obtain ⟨hnot, htake, haround⟩ := around_iterator h
  have hrest : rest = before.reverse ++ after.reverse := by
    rw [hwalk] at haround
    exact (cons.inj haround).2
  rcases eq_nil_or_concat before with rfl | ⟨front, last, rfl⟩
  · -- from the head back to the tail
    have hbegin : l.begin = some cur := by rw [begin, h]; rfl
    obtain ⟨last, hlast⟩ := ne_none_iff_exists'.1
      (mt getLast?_eq_none_iff.1 (ne_nil_of_mem hcur))
    refine ⟨last, ?_, mem_of_getLast? hlast, ?_⟩
    · rw [stepBack, if_pos hbegin]
      exact hlast
    · rw [walk_back hlast, h, hrest]
      simp
  · rw [concat_eq_append] at h hnot htake hrest
    have hsplit : l.iterators = front ++ last :: (cur :: after) := by
      rw [h]
      simp
    have hbegin : l.begin ≠ some cur := by
      intro heq
      apply hnot
      rw [begin, h, append_assoc, head?_append] at heq
      rcases front with _ | ⟨first, front⟩
      · cases heq
        exact mem_append_right _ mem_cons_self
      · cases heq
        exact mem_append_left _ mem_cons_self
    refine ⟨last, ?_, hsplit ▸ mem_append_right _ mem_cons_self, ?_⟩
    · rw [stepBack, if_neg hbegin, prev, htake, getLast?_append, getLast?_singleton]
      rfl
    · rw [(around_iterator hsplit).2.2, hrest]
      simp

/-! ## Sweeps -/

variable (marked : α → Bool) (clear : α → α)

/-- The hand is at a marked element. -/
def atMarked (r : LinkedList α × Nat) : Bool := (r.1.get r.2).any marked

/-- Clear the mark of the element at the hand and step back. -/
def passOver (r : LinkedList α × Nat) : Option (LinkedList α × Nat) :=
  (r.1.get r.2).bind fun a =>
    ((r.1.set r.2 (clear a)).stepBack r.2).map fun before => (r.1.set r.2 (clear a), before)

/-- The list after a sweep, and where the sweep stops. -/
def sweep (l : LinkedList α) (cur : Nat) : Option (LinkedList α × Nat) :=
  whileLoop (atMarked marked) (passOver clear) l.toList.length (l, cur)

variable {marked clear}

/-- What a list is after the marks of some elements have been cleared. -/
structure Cleared (clear : α → α) (passed : List Nat) (l l' : LinkedList α) : Prop where
  iterators : l'.iterators = l.iterators
  get : ∀ it, l'.get it = (l.get it).map fun a => if it ∈ passed then clear a else a

theorem walk_congr {l' : LinkedList α} (h : l'.iterators = l.iterators) :
    l'.walk cur = l.walk cur := by
  rw [walk, walk, h]

/-- The passes over the marked elements at the front of the walk. -/
theorem whileLoop_passOver {passed rest : List Nat} (clear : α → α) (fuel : Nat)
    (hcur : cur ∈ l.iterators) (hwalk : l.walk cur = passed ++ rest)
    (hmarked : ∀ it ∈ passed, (l.get it).any marked = true) :
    ∃ l' cur', whileLoop (atMarked marked) (passOver clear) (fuel + passed.length) (l, cur) =
        whileLoop (atMarked marked) (passOver clear) fuel (l', cur') ∧
      Cleared clear passed l l' ∧ cur' ∈ l.iterators ∧ l.walk cur' = rest ++ passed := by
  induction passed generalizing l cur rest with
  | nil =>
    refine ⟨l, cur, rfl, ⟨rfl, fun it => ?_⟩, hcur, ?_⟩
    · simp
    · rw [hwalk, nil_append, append_nil]
  | cons first passed ih =>
    have hfirst : first = cur := (cons.inj hwalk).1.symm
    subst hfirst
    have hnodup : (first :: (passed ++ rest)).Nodup := by
      have hperm := perm_walk hcur
      rw [hwalk] at hperm
      exact hperm.nodup_iff.2 l.nodup_iterators
    have hnot : first ∉ passed := fun hmem =>
      (nodup_cons.1 hnodup).1 (mem_append_left _ hmem)
    have hat : atMarked marked (l, first) = true := hmarked first mem_cons_self
    obtain ⟨a, ha, hmark⟩ := (any_eq_true _ _).1 hat
    have hcur' : first ∈ (l.set first (clear a)).iterators := by rwa [iterators_set]
    obtain ⟨before, hbefore, hmem, hrotated⟩ := exists_stepBack (passed ++ rest) hcur'
      (by rw [walk_congr iterators_set, hwalk, cons_append])
    have hget : ∀ it, (l.set first (clear a)).get it =
        if it = first then some (clear a) else l.get it := fun it => get_set ha
    obtain ⟨l', cur', hloop, hcleared, hcur', hwalk'⟩ := ih hmem
      (hrotated.trans (append_assoc passed rest [first])) (by
        intro it hit
        have hne : it ≠ first := fun heq => hnot (heq ▸ hit)
        rw [hget, if_neg hne]
        exact hmarked it (mem_cons_of_mem _ hit))
    refine ⟨l', cur', ?_, ⟨hcleared.iterators.trans iterators_set, fun it => ?_⟩, ?_, ?_⟩
    · have hpass : passOver clear (l, first) = some (l.set first (clear a), before) := by
        rw [passOver, ha, bind_some, hbefore, map_some]
      rw [length_cons, ← Nat.add_assoc, whileLoop, if_pos hat, hpass, bind_some]
      exact hloop
    · -- the first element is cleared by this pass, the others by the later ones
      rw [hcleared.get, hget]
      by_cases heq : it = first
      · subst heq
        rw [if_pos rfl, ha, map_some, map_some, if_neg hnot,
          if_pos mem_cons_self]
      · have hiff : it ∈ first :: passed ↔ it ∈ passed := by
          rw [mem_cons]
          exact ⟨fun hor => hor.resolve_left heq, Or.inr⟩
        rw [if_neg heq]
        simp only [hiff]
    · rwa [iterators_set] at hcur'
    · rw [walk_congr iterators_set] at hwalk'
      rw [hwalk', append_assoc]
      rfl

/-- A sweep over a list. Its walk begins with the marked elements that are passed; it stops at the
element after them, which is not marked, or where it began if all are passed. -/
theorem sweep_spec (marked : α → Bool) (clear : α → α) (hclear : ∀ a, marked (clear a) = false)
    (hcur : cur ∈ l.iterators) :
    ∃ passed rest l' stop, l.walk cur = passed ++ rest ∧
      (∀ it ∈ passed, (l.get it).any marked = true) ∧
      (∀ it ∈ rest.head?, (l.get it).any marked = false) ∧
      (rest ++ passed).head? = some stop ∧ sweep marked clear l cur = some (l', stop) ∧
      Cleared clear passed l l' := by
  have hparts := takeWhile_append_dropWhile
    (p := fun it => (l.get it).any marked) (l := l.walk cur)
  have hhead := head?_dropWhile_not (fun it => (l.get it).any marked) (l.walk cur)
  have htake : ∀ it ∈ (l.walk cur).takeWhile fun it => (l.get it).any marked,
      (l.get it).any marked = true := fun it => mem_takeWhile_imp
  revert hparts hhead htake
  generalize (l.walk cur).takeWhile (fun it => (l.get it).any marked) = passed
  generalize (l.walk cur).dropWhile (fun it => (l.get it).any marked) = rest
  intro hparts hhead htake
  have hlength : passed.length + rest.length = l.toList.length := by
    rw [← length_append, hparts, (perm_walk hcur).length_eq, length_iterators]
  obtain ⟨l', stop, hloop, hcleared, hstop, hwalk⟩ := whileLoop_passOver clear rest.length
    hcur hparts.symm htake
  have hhead' : (rest ++ passed).head? = some stop := by
    rw [← hwalk]
    rfl
  have hrest : ∀ it ∈ rest.head?, (l.get it).any marked = false := by
    intro it hit
    rw [mem_def.1 hit] at hhead
    exact hhead
  refine ⟨passed, rest, l', stop, hparts.symm, htake, hrest, hhead', ?_, hcleared⟩
  -- the element where the passes end is not marked, so the loop is over
  have hunmarked : atMarked marked (l', stop) = false := by
    rw [atMarked, hcleared.get]
    dsimp only
    by_cases hpassed : stop ∈ passed
    · cases l.get stop with
      | none => rfl
      | some a => rw [map_some, if_pos hpassed, any_some, hclear]
    · have hfirst : stop ∈ rest.head? := by
        rw [head?_append] at hhead'
        cases hrest? : rest.head? with
        | some first =>
          rw [hrest?] at hhead'
          exact hhead'
        | none =>
          rw [hrest?, none_or] at hhead'
          exact absurd (mem_of_head? hhead') hpassed
      simp only [if_neg hpassed, Option.map_id']
      exact hrest stop hfirst
  rw [sweep, ← hlength, Nat.add_comm, hloop]
  cases rest with
  | nil => rw [length_nil, whileLoop, hunmarked]; rfl
  | cons first rest => rw [length_cons, whileLoop, hunmarked]; rfl

/-- What the clearing of one element keeps, a sweep keeps. -/
theorem sweep_invariant {P : LinkedList α → Prop} {l' : LinkedList α} {stop : Nat}
    (hstep : ∀ l it a, P l → l.get it = some a → P (l.set it (clear a))) (hP : P l)
    (h : sweep marked clear l cur = some (l', stop)) : P l' := by
  refine (whileLoop_invariant (P := fun r => P r.1) ?_ hP h).1
  intro r r' hr _ hpass
  obtain ⟨a, ha, hbefore⟩ := Option.bind_eq_some_iff.1 hpass
  obtain ⟨before, -, rfl⟩ := map_eq_some_iff.1 hbefore
  exact hstep r.1 r.2 a hr ha

end LinkedList

end Covered.Lib
