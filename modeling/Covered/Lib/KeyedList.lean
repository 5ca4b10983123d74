import Mathlib.Algebra.Order.Ring.Nat
import Mathlib.Data.List.Nodup
import Mathlib.Data.List.Perm.Basic

/-!
# Lists searched by a key

A list whose elements carry a key `f a`, searched from the front: `find` is the first element with a
key, `replace` puts a new element in its place, `erase` removes it. When no two elements have the
same key, such a list is a finite map with an order, and what an update does is said by what `find`
returns after it (`find_replace`, `find_erase`, `find_append_singleton`).

`perm_map_of_find` goes back from the map to the list: two lists that are equal as maps, up to a
projection that still determines the key, are equal up to the order.

`collect` gathers an optional message about each element and `applyAll` applies a list of messages;
both may abort. `find_collect` and `find_applyAll` say what they do by key.
-/

set_option autoImplicit false

namespace Covered.Lib.KeyedList

open Option List

universe u v w

variable {α : Type u} {κ : Type v} [DecidableEq κ] (f : α → κ)

/-- The first element with the given key. -/
def find (k : κ) (l : List α) : Option α := l.find? fun a => decide (f a = k)

/-- The list with the first element with the given key replaced. -/
def replace (k : κ) (b : α) : List α → List α
  | [] => []
  | a :: rest => if f a = k then b :: rest else a :: replace k b rest

/-- The list without the first element with the given key. -/
def erase (k : κ) (l : List α) : List α := l.eraseP fun a => decide (f a = k)

/-- The messages about the elements of a list; there may be none about an element. -/
def collect (message : α → Option (Option α)) : List α → Option (List α)
  | [] => some []
  | a :: rest => do
      let here ← message a
      let others ← collect message rest
      return here.toList ++ others

/-- A list of messages applied one after another. -/
def applyAll (apply : List α → α → Option (List α)) : List α → List α → Option (List α)
  | l, [] => some l
  | l, m :: rest => do
      let l' ← apply l m
      applyAll apply l' rest

/-- The elements of the list have distinct keys. -/
def NodupKeys (l : List α) : Prop := (l.map f).Nodup

instance (l : List α) : Decidable (NodupKeys f l) := inferInstanceAs (Decidable (List.Nodup _))

variable {f} {k k' : κ} {a b : α} {l l' : List α}

omit [DecidableEq κ] in
/-- Without the element at an index the others are still there. -/
theorem mem_eraseIdx_or (i : Nat) (h : a ∈ l) : l[i]? = some a ∨ a ∈ l.eraseIdx i := by
  obtain ⟨j, hj⟩ := getElem?_of_mem h
  by_cases heq : j = i
  · exact .inl (heq ▸ hj)
  · exact .inr (mem_eraseIdx_iff_getElem?.2 ⟨j, heq, hj⟩)

@[simp] theorem find_nil : find f k [] = none := rfl

theorem find_cons : find f k (a :: l) = if f a = k then some a else find f k l := by
  by_cases h : f a = k <;> simp [find, h]

theorem key_of_find (h : find f k l = some a) : f a = k := by
  have hdec := find?_some h
  exact of_decide_eq_true hdec

theorem mem_of_find (h : find f k l = some a) : a ∈ l := mem_of_find?_eq_some h

theorem find_eq_none_iff : find f k l = none ↔ k ∉ l.map f := by
  rw [find, find?_eq_none, List.mem_map]
  constructor
  · rintro h ⟨a, ha, rfl⟩
    exact h a ha (decide_eq_true rfl)
  · intro h a ha hdec
    exact h ⟨a, ha, of_decide_eq_true hdec⟩

theorem find_eq_some_iff (hl : NodupKeys f l) : find f k l = some a ↔ a ∈ l ∧ f a = k := by
  constructor
  · intro h
    exact ⟨mem_of_find h, key_of_find h⟩
  · rintro ⟨ha, rfl⟩
    induction l with
    | nil => cases ha
    | cons b rest ih =>
      rw [NodupKeys, map_cons, nodup_cons] at hl
      rw [find_cons]
      rcases mem_cons.1 ha with rfl | hrest
      · rw [if_pos rfl]
      · -- the head has another key, since the key of `a` occurs in the rest
        rw [if_neg, ih hl.2 hrest]
        intro heq
        exact hl.1 (heq ▸ mem_map_of_mem hrest)

theorem find_append : find f k (l ++ l') = (find f k l).or (find f k l') := by
  simp [find, find?_append]

theorem find_append_singleton (h : find f (f b) l = none) :
    find f k (l ++ [b]) = if k = f b then some b else find f k l := by
  rw [find_append, find_cons, find_nil]
  by_cases hk : k = f b
  · subst hk
    simp [h]
  · rw [if_neg (Ne.symm hk), if_neg hk, or_none]

theorem find_replace (hb : f b = k') :
    find f k (replace f k' b l) = if k = k' then (find f k' l).map fun _ => b else find f k l := by
  induction l with
  | nil => simp [replace]
  | cons a rest ih =>
    by_cases ha : f a = k'
    · rw [replace, if_pos ha, find_cons, find_cons, find_cons, hb, ha]
      by_cases hk : k = k'
      · simp [hk]
      · simp [hk, Ne.symm hk]
    · rw [replace, if_neg ha, find_cons, ih, find_cons, find_cons, if_neg ha]
      by_cases hk : k = k'
      · rw [if_pos hk, if_pos hk, if_neg (by rw [hk]; exact ha)]
      · rw [if_neg hk, if_neg hk]

theorem map_replace (hb : f b = k) : (replace f k b l).map f = l.map f := by
  induction l with
  | nil => rfl
  | cons a rest ih =>
    by_cases ha : f a = k
    · rw [replace, if_pos ha, map_cons, map_cons, hb, ha]
    · rw [replace, if_neg ha, map_cons, map_cons, ih]

theorem mem_replace (h : a ∈ replace f k b l) : a = b ∨ a ∈ l := by
  induction l with
  | nil => cases h
  | cons c rest ih =>
    rw [replace] at h
    split at h
    · rcases mem_cons.1 h with rfl | hrest
      · exact .inl rfl
      · exact .inr (mem_cons_of_mem c hrest)
    · rcases mem_cons.1 h with rfl | hrest
      · exact .inr mem_cons_self
      · exact (ih hrest).imp id fun hmem => mem_cons_of_mem c hmem

theorem erase_sublist : (erase f k l).Sublist l := eraseP_sublist

omit [DecidableEq κ] in
theorem NodupKeys.sublist (hl : NodupKeys f l) (hsub : l'.Sublist l) : NodupKeys f l' :=
  List.Nodup.sublist (hsub.map f) hl

theorem NodupKeys.replace (hl : NodupKeys f l) (hb : f b = k) :
    NodupKeys f (replace f k b l) := by
  rw [NodupKeys, map_replace hb]
  exact hl

/-- An element after a replacement is the new one, or an old one with another key. -/
theorem NodupKeys.mem_replace (hl : NodupKeys f l) (hb : f b = k)
    (h : a ∈ KeyedList.replace f k b l) :
    a = b ∨ a ∈ l ∧ f a ≠ k := by
  have hfind := (find_eq_some_iff (hl.replace hb)).2 ⟨h, rfl⟩
  rw [find_replace hb] at hfind
  split at hfind
  · obtain ⟨-, -, heq⟩ := map_eq_some_iff.1 hfind
    exact .inl heq.symm
  · next hne => exact .inr ⟨mem_of_find hfind, hne⟩

theorem NodupKeys.append_singleton (hl : NodupKeys f l) (hb : find f (f b) l = none) :
    NodupKeys f (l ++ [b]) := by
  rw [NodupKeys, map_append, map_singleton]
  refine List.Nodup.append hl (nodup_singleton _) ?_
  rw [disjoint_singleton]
  exact find_eq_none_iff.1 hb

omit [DecidableEq κ] in
theorem NodupKeys.perm (hl : NodupKeys f l) (hperm : l.Perm l') : NodupKeys f l' :=
  ((hperm.map f).nodup_iff).1 hl

theorem find_erase (hl : NodupKeys f l) :
    find f k (erase f k' l) = if k = k' then none else find f k l := by
  induction l with
  | nil => simp [erase]
  | cons a rest ih =>
    have hnodup := hl
    rw [NodupKeys, map_cons, nodup_cons] at hnodup
    by_cases ha : f a = k'
    · have herase : erase f k' (a :: rest) = rest := by simp [erase, ha]
      rw [herase, find_cons, ha]
      by_cases hk : k = k'
      · rw [if_pos hk, find_eq_none_iff, hk, ← ha]
        exact hnodup.1
      · rw [if_neg hk, if_neg (Ne.symm hk)]
    · have herase : erase f k' (a :: rest) = a :: erase f k' rest := by simp [erase, ha]
      rw [herase, find_cons, find_cons, ih hnodup.2]
      by_cases hk : k = k'
      · rw [if_pos hk, if_pos hk, if_neg (by rw [hk]; exact ha)]
      · rw [if_neg hk, if_neg hk]

theorem erase_of_find_none (h : find f k l = none) : erase f k l = l := by
  apply eraseP_of_forall_not
  intro a ha hk
  exact find_eq_none_iff.1 h (mem_map.2 ⟨a, ha, of_decide_eq_true hk⟩)

/-- With distinct keys an erasure keeps exactly the elements of other keys. -/
theorem erase_eq_filter (hl : NodupKeys f l) :
    erase f k l = l.filter fun a => decide (f a ≠ k) := by
  induction l with
  | nil => rfl
  | cons a rest ih =>
    have hnotin := (nodup_cons.1 hl).1
    have hrest := ih (nodup_cons.1 hl).2
    rw [erase] at hrest ⊢
    rw [eraseP_cons, filter_cons]
    by_cases ha : f a = k
    · -- no other element has the key
      have hall : ∀ b ∈ rest, decide (f b ≠ k) = true := by
        intro b hb
        apply decide_eq_true
        intro hbk
        exact hnotin (ha.trans hbk.symm ▸ mem_map_of_mem hb)
      simp only [ha, decide_true, cond_true, ne_eq, not_true_eq_false, decide_false,
        Bool.false_eq_true, if_false]
      exact (filter_eq_self.2 hall).symm
    · simp only [ha, decide_false, cond_false, ne_eq, not_false_eq_true, decide_true, if_true,
        hrest]

theorem map_erase (hl : NodupKeys f l) :
    (erase f k l).map f = (l.map f).filter fun j => decide (j ≠ k) := by
  rw [erase_eq_filter hl, List.filter_map]
  rfl

/-- An erasure takes the found element out. -/
theorem perm_cons_erase (h : find f k l = some a) : l.Perm (a :: erase f k l) := by
  induction l with
  | nil => cases h
  | cons b rest ih =>
    rw [find_cons] at h
    by_cases hb : f b = k
    · have herase : erase f k (b :: rest) = rest := by simp [erase, hb]
      rw [if_pos hb, some.injEq] at h
      rw [herase, h]
    · have herase : erase f k (b :: rest) = b :: erase f k rest := by simp [erase, hb]
      rw [if_neg hb] at h
      rw [herase]
      exact ((ih h).cons b).trans (List.Perm.swap a b _)

/-- A replaced element is erased like the old one. -/
theorem erase_replace (hb : f b = k) : erase f k (replace f k b l) = erase f k l := by
  induction l with
  | nil => rfl
  | cons c rest ih =>
    by_cases hc : f c = k
    · simp [replace, erase, hc, hb]
    · have hrest : (c :: rest).eraseP (fun a => decide (f a = k)) = c :: erase f k rest := by
        simp [erase, hc]
      simp only [erase] at ih
      simp [replace, erase, hc, ih]
/-- An erasure takes the weight of the erased element away. -/
theorem sum_map_erase (w : α → Nat) (h : find f k l = some a) :
    ((erase f k l).map w).sum + w a = (l.map w).sum := by
  induction l with
  | nil => cases h
  | cons b rest ih =>
    rw [find_cons] at h
    by_cases hb : f b = k
    · have herase : erase f k (b :: rest) = rest := by simp [erase, hb]
      rw [if_pos hb, some.injEq] at h
      rw [herase, map_cons, sum_cons, h, Nat.add_comm]
    · rw [if_neg hb] at h
      have herase : erase f k (b :: rest) = b :: erase f k rest := by simp [erase, hb]
      rw [herase, map_cons, map_cons, sum_cons, sum_cons, Nat.add_assoc, ih h]

/-- A replacement exchanges the weights of the two elements. -/
theorem sum_map_replace (w : α → Nat) (b : α) (h : find f k l = some a) :
    ((replace f k b l).map w).sum + w a = (l.map w).sum + w b := by
  induction l with
  | nil => cases h
  | cons c rest ih =>
    rw [find_cons] at h
    by_cases hc : f c = k
    · rw [if_pos hc] at h
      cases h
      rw [replace, if_pos hc, map_cons, map_cons, sum_cons, sum_cons]
      omega
    · rw [if_neg hc] at h
      have hrest := ih h
      rw [replace, if_neg hc, map_cons, map_cons, sum_cons, sum_cons]
      omega

variable {β : Type w}

/-- A replacement in the image is the image of a replacement by the composed key. -/
theorem replace_map (g : β → α) {l : List β} (c : β) :
    replace f k (g c) (l.map g) = (replace (f ∘ g) k c l).map g := by
  induction l with
  | nil => rfl
  | cons b rest ih =>
    simp only [map_cons, replace, Function.comp_apply]
    split
    · rfl
    · rw [ih, map_cons]

theorem erase_map (g : β → α) {l : List β} :
    erase f k (l.map g) = (erase (f ∘ g) k l).map g := eraseP_map

section TwoKeys

variable {κ' : Type w} [DecidableEq κ'] {g : α → κ'} {j : κ'}

/-- Two keys that single out the same elements give the same replacement. -/
theorem replace_congr (h : ∀ a ∈ l, f a = k ↔ g a = j) (b : α) :
    replace f k b l = replace g j b l := by
  induction l with
  | nil => rfl
  | cons a rest ih =>
    have hrest := ih fun c hc => h c (mem_cons_of_mem a hc)
    simp only [replace, h a mem_cons_self, hrest]

theorem erase_congr (h : ∀ a ∈ l, f a = k ↔ g a = j) : erase f k l = erase g j l := by
  induction l with
  | nil => rfl
  | cons a rest ih =>
    have hrest := ih fun c hc => h c (mem_cons_of_mem a hc)
    simp only [erase] at hrest ⊢
    simp only [eraseP_cons, h a mem_cons_self, hrest]

end TwoKeys

omit [DecidableEq κ] in
theorem NodupKeys.eq_of_mem (hl : NodupKeys f l) (ha : a ∈ l) (hb : b ∈ l) (h : f a = f b) :
    a = b := inj_on_of_nodup_map hl ha hb h

/-- A replacement that keeps a value of the elements keeps the values of the list. -/
theorem map_replace_of_find {g : α → β} (h : find f k l = some a) (hb : g b = g a) :
    (replace f k b l).map g = l.map g := by
  induction l with
  | nil => cases h
  | cons c rest ih =>
    rw [find_cons] at h
    rw [replace]
    by_cases hc : f c = k
    · rw [if_pos hc] at h ⊢
      cases h
      rw [map_cons, hb, map_cons]
    · rw [if_neg hc] at h ⊢
      rw [map_cons, ih h, map_cons]

/-- A search does not depend on the order. -/
theorem find_perm (hl : NodupKeys f l) (hperm : l.Perm l') : find f k l = find f k l' := by
  cases h : find f k l with
  | none =>
    rw [find_eq_none_iff, (hperm.map f).mem_iff] at h
    exact (find_eq_none_iff.2 h).symm
  | some a =>
    obtain ⟨ha, hk⟩ := (find_eq_some_iff hl).1 h
    exact ((find_eq_some_iff (hl.perm hperm)).2 ⟨hperm.mem_iff.1 ha, hk⟩).symm

/-- Two lists that are equal as maps, up to a projection that determines the key, are equal up to
the order. -/
theorem perm_map_of_find {g : α → β} (hg : ∀ a b, g a = g b → f a = f b) (hl : NodupKeys f l)
    (hl' : NodupKeys f l') (h : ∀ k, (find f k l).map g = (find f k l').map g) :
    (l.map g).Perm (l'.map g) := by
  have hnodup : ∀ {l : List α}, NodupKeys f l → (l.map g).Nodup := by
    intro l hl
    exact List.Pairwise.map g (fun a b hne heq => hne (hg a b heq)) (pairwise_map.1 hl)
  have hsub : ∀ {l l' : List α}, NodupKeys f l →
      (∀ k, (find f k l).map g = (find f k l').map g) → l.map g ⊆ l'.map g := by
    intro l l' hl h x hx
    obtain ⟨a, ha, rfl⟩ := mem_map.1 hx
    have hfind := h (f a)
    rw [(find_eq_some_iff hl).2 ⟨ha, rfl⟩, map_some] at hfind
    obtain ⟨b, hb, hgb⟩ := map_eq_some_iff.1 hfind.symm
    exact hgb ▸ mem_map_of_mem (mem_of_find hb)
  refine (perm_ext_iff_of_nodup (hnodup hl) (hnodup hl')).2 fun x => ⟨?_, ?_⟩
  · exact fun hx => hsub hl h hx
  · exact fun hx => hsub hl' (fun k => (h k).symm) hx

/-! ## Messages -/

section Messages

variable (message : α → Option (Option α)) {apply : List α → α → Option (List α)}

omit [DecidableEq κ] in
theorem collect_isSome (hsome : ∀ a ∈ l, (message a).isSome = true) :
    ∃ ms, collect message l = some ms ∧ ∀ m ∈ ms, ∃ a ∈ l, message a = some (some m) := by
  induction l with
  | nil => exact ⟨[], rfl, by simp⟩
  | cons a rest ih =>
    obtain ⟨ms, hms, hmem⟩ := ih fun b hb => hsome b (mem_cons_of_mem a hb)
    obtain ⟨here, hhere⟩ := isSome_iff_exists.1 (hsome a mem_cons_self)
    refine ⟨here.toList ++ ms, ?_, fun m hm => ?_⟩
    · simp only [collect, hhere, hms, bind_eq_bind, bind_some]
      rfl
    · rcases mem_append.1 hm with hm | hm
      · rw [mem_toList] at hm
        exact ⟨a, mem_cons_self, by rw [hhere, hm]⟩
      · obtain ⟨b, hb, heq⟩ := hmem m hm
        exact ⟨b, mem_cons_of_mem a hb, heq⟩

variable {ms : List α}

omit [DecidableEq κ] in
/-- What every single message satisfies, the gathered messages satisfy. -/
theorem forall_mem_collect {P : α → Prop} (hmessage : ∀ a m, message a = some (some m) → P m)
    (h : collect message l = some ms) :
    ∀ m ∈ ms, P m := by
  induction l generalizing ms with
  | nil =>
    cases h
    exact fun m hm => absurd hm not_mem_nil
  | cons a rest ih =>
    simp only [collect, bind_eq_bind, bind_eq_some_iff, Option.pure_def,
      some.injEq] at h
    obtain ⟨here, hhere, others, hothers, rfl⟩ := h
    intro m hm
    rcases mem_append.1 hm with hm | hm
    · rw [mem_toList] at hm
      exact hmessage a m (by rw [hhere, hm])
    · exact ih hothers m hm

/-- The message found under a key is the one about the element with that key. -/
theorem find_collect (hsome : ∀ a ∈ l, (message a).isSome = true)
    (hkey : ∀ a ∈ l, ∀ m, message a = some (some m) → f m = f a) (hl : NodupKeys f l) :
    ∃ ms, collect message l = some ms ∧ (ms.map f).Sublist (l.map f) ∧
      ∀ k, find f k ms = (find f k l).bind fun a => (message a).getD none := by
  induction l with
  | nil => exact ⟨[], rfl, List.Sublist.refl _, fun k => rfl⟩
  | cons a rest ih =>
    have hnodup := hl
    rw [NodupKeys, map_cons, nodup_cons] at hnodup
    obtain ⟨ms, hms, hsub, hfind⟩ := ih (fun b hb => hsome b (mem_cons_of_mem a hb))
      (fun b hb => hkey b (mem_cons_of_mem a hb)) hnodup.2
    obtain ⟨here, hhere⟩ := isSome_iff_exists.1 (hsome a mem_cons_self)
    refine ⟨here.toList ++ ms, ?_, ?_, fun k => ?_⟩
    · simp only [collect, hhere, hms, bind_eq_bind, bind_some]
      rfl
    · cases here with
      | none => exact hsub.cons _
      | some m =>
        rw [toList_some, singleton_append, map_cons, map_cons,
          hkey a mem_cons_self m hhere]
        exact hsub.cons_cons _
    · rw [find_cons]
      by_cases hk : f a = k
      · -- the key of the head occurs in no later message
        have hlater : find f k ms = none := by
          rw [find_eq_none_iff]
          intro hmem
          exact hnodup.1 (hk ▸ hsub.subset hmem)
        rw [if_pos hk, bind_some, hhere, getD_some]
        cases here with
        | none => exact hlater
        | some m =>
          rw [toList_some, singleton_append, find_cons,
            hkey a mem_cons_self m hhere, if_pos hk]
      · rw [if_neg hk, ← hfind k]
        cases here with
        | none => rfl
        | some m =>
          rw [toList_some, singleton_append, find_cons,
            hkey a mem_cons_self m hhere, if_neg hk]

variable {P : List α → Prop}

omit [DecidableEq κ] in
theorem applyAll_isSome {Q : α → Prop} (hstep : ∀ l m, P l → Q m → ∃ l', apply l m = some l' ∧ P l')
    (hP : P l) (hQ : ∀ m ∈ ms, Q m) : ∃ l', applyAll apply l ms = some l' ∧ P l' := by
  induction ms generalizing l with
  | nil => exact ⟨l, rfl, hP⟩
  | cons m rest ih =>
    obtain ⟨l₁, h₁, hP₁⟩ := hstep l m hP (hQ m mem_cons_self)
    obtain ⟨l', h', hP'⟩ := ih hP₁ fun b hb => hQ b (mem_cons_of_mem m hb)
    refine ⟨l', ?_, hP'⟩
    simp only [applyAll, h₁, bind_eq_bind, bind_some]
    exact h'

/-- Messages with distinct keys, each of which has an effect on its key only. -/
theorem find_applyAll {Q : α → Prop} {e : Option α → α → Option α}
    (hstep : ∀ l m, P l → Q m → ∃ l', apply l m = some l' ∧ P l' ∧
      ∀ k, find f k l' = if k = f m then e (find f k l) m else find f k l) (hP : P l)
    (hQ : ∀ m ∈ ms, Q m) (hms : NodupKeys f ms) :
    ∃ l', applyAll apply l ms = some l' ∧ P l' ∧
      ∀ k, find f k l' = match find f k ms with
        | none => find f k l
        | some m => e (find f k l) m := by
  induction ms generalizing l with
  | nil => exact ⟨l, rfl, hP, fun k => rfl⟩
  | cons m rest ih =>
    rw [NodupKeys, map_cons, nodup_cons] at hms
    obtain ⟨l₁, h₁, hP₁, hfind₁⟩ := hstep l m hP (hQ m mem_cons_self)
    obtain ⟨l', h', hP', hfind'⟩ := ih hP₁ (fun b hb => hQ b (mem_cons_of_mem m hb)) hms.2
    refine ⟨l', ?_, hP', fun k => ?_⟩
    · simp only [applyAll, h₁, bind_eq_bind, bind_some]
      exact h'
    · rw [hfind', hfind₁, find_cons]
      by_cases hk : f m = k
      · -- no later message is about this key
        have hlater : find f k rest = none := by
          rw [find_eq_none_iff, ← hk]
          exact hms.1
        rw [if_pos hk, if_pos hk.symm, hlater]
      · rw [if_neg hk, if_neg (Ne.symm hk)]

section Images

variable {β : Type w} {g : β → α} {lb ms : List β}

omit [DecidableEq κ] in
/-- Messages about the elements of an image are the images of the messages. -/
theorem collect_map {message' : β → Option (Option β)}
    (h : ∀ b ∈ lb, message (g b) = (message' b).map (Option.map g)) :
    collect message (lb.map g) = (collect message' lb).map (map g) := by
  induction lb with
  | nil => rfl
  | cons b rest ih =>
    have hrest := ih fun c hc => h c (mem_cons_of_mem b hc)
    simp only [map_cons, collect, h b mem_cons_self, hrest, bind_eq_bind]
    cases message' b with
    | none => rfl
    | some here =>
      cases collect message' rest with
      | none => rfl
      | some others => cases here <;> rfl

omit [DecidableEq κ] in
/-- Messages of an image applied to an image give the image of what the messages give. -/
theorem applyAll_map {apply' : List β → β → Option (List β)}
    (hstep : ∀ l m, apply (l.map g) (g m) = (apply' l m).map (map g)) :
    applyAll apply (lb.map g) (ms.map g) = (applyAll apply' lb ms).map (map g) := by
  induction ms generalizing lb with
  | nil => rfl
  | cons m rest ih =>
    simp only [map_cons, applyAll, hstep, bind_eq_bind]
    cases apply' lb m with
    | none => rfl
    | some l' => exact ih

end Images

omit [DecidableEq κ] in
theorem applyAll_invariant (hstep : ∀ l m l', m ∈ ms → P l → apply l m = some l' → P l') (hl : P l)
    (h : applyAll apply l ms = some l') : P l' := by
  induction ms generalizing l with
  | nil =>
    cases h
    exact hl
  | cons m rest ih =>
    simp only [applyAll, bind_eq_bind, bind_eq_some_iff] at h
    obtain ⟨l₁, h₁, h⟩ := h
    exact ih (fun l m l' hm => hstep l m l' (mem_cons_of_mem _ hm))
      (hstep l m l₁ mem_cons_self hl h₁) h

end Messages

end Covered.Lib.KeyedList
