import Covered.Lib.Execution

/-!
# Maps that forget

A cache as its users see it: a partial map that answers reads, takes writes, and drops entries on
its own account. `content` is the map that a history of operations leaves, and `Explained` says that
every answer in the history is that of this map, so a read returns what was written last and only
what is there is dropped. `explained_of_runs` is the rule for a machine whose steps do to the values
in its state what the events do to the map.
-/

set_option autoImplicit false

namespace Covered.Lib.EvictingMap

open Execution Function

universe u v w x y

variable {κ : Type u} {ν : Type v} [DecidableEq κ]

/-- An operation with its answer. -/
inductive Event (κ : Type u) (ν : Type v)
  | read (key : κ) (value : Option ν)
  /-- A new value, which a key takes only if it is cached; the answer is whether it was. -/
  | update (key : κ) (value : ν) (isCached : Bool)
  /-- A new entry, unless the key is cached. -/
  | insert (key : κ) (value : ν)
  /-- An entry that the user drops. -/
  | remove (key : κ) (value : Option ν)
  /-- The entry that the cache drops, with the value that it reports; `none` if there is none. -/
  | evict (victim : Option (κ × Option ν))
  | other

/-- The map after an event. -/
def next (m : κ → Option ν) : Event κ ν → κ → Option ν
  | .read _ _ => m
  | .update key value _ => if (m key).isSome then Function.update m key (some value) else m
  | .insert key value => if (m key).isSome then m else Function.update m key (some value)
  | .remove key _ => Function.update m key none
  | .evict none => m
  | .evict (some (key, _)) => Function.update m key none
  | .other => m

/-- The answer is that of the map. -/
def Right (m : κ → Option ν) : Event κ ν → Prop
  | .read key value => value = m key
  | .update key _ isCached => isCached = (m key).isSome
  | .insert _ _ => True
  | .remove key value => value = m key
  | .evict none => ∀ key, m key = none
  | .evict (some (key, value)) => (m key).isSome = true ∧ value = m key
  | .other => True

/-- What a history leaves; the latest event comes first. -/
def content (events : List (Event κ ν)) : κ → Option ν :=
  events.foldr (fun event m => next m event) fun _ => none

def Explained : List (Event κ ν) → Prop
  | [] => True
  | event :: events => Right (content events) event ∧ Explained events

/-- What a step does to the values is what the event does to the map. -/
structure Does (m : κ → Option ν) (event : Event κ ν) (m' : κ → Option ν) : Prop where
  right : Right m event
  next : m' = next m event

section Does

variable {m m' : κ → Option ν} {key : κ} {value : ν} {found : Option ν}

theorem does_read (hfound : m key = found) (h : m' = m) : Does m (.read key found) m' :=
  ⟨hfound.symm, h⟩

theorem does_other (h : m' = m) : Does m .other m' := ⟨trivial, h⟩

theorem does_update {old : ν} (hold : m key = some old)
    (h : m' = Function.update m key (some value)) : Does m (.update key value true) m' :=
  ⟨by rw [Right, hold]; rfl, by rw [h, EvictingMap.next, hold, Option.isSome_some, if_pos rfl]⟩

theorem does_update_uncached (hnone : m key = none) (h : m' = m) :
    Does m (.update key value false) m' :=
  ⟨by rw [Right, hnone]; rfl, by
    rw [h, EvictingMap.next, hnone, Option.isSome_none, if_neg Bool.false_ne_true]⟩

theorem does_insert (hnone : m key = none) (h : m' = Function.update m key (some value)) :
    Does m (.insert key value) m' :=
  ⟨trivial, by rw [h, EvictingMap.next, hnone, Option.isSome_none, if_neg Bool.false_ne_true]⟩

theorem does_insert_cached {old : ν} (hold : m key = some old) (h : m' = m) :
    Does m (.insert key value) m' :=
  ⟨trivial, by rw [h, EvictingMap.next, hold, Option.isSome_some, if_pos rfl]⟩

theorem does_remove (hfound : m key = found) (h : m' = Function.update m key none) :
    Does m (.remove key found) m' :=
  ⟨hfound.symm, h⟩

theorem does_remove_uncached (hnone : m key = none) (h : m' = m) : Does m (.remove key none) m' :=
  does_remove hnone (by rw [h, ← hnone, update_eq_self])

theorem does_evict_none (hempty : ∀ key, m key = none) (h : m' = m) : Does m (.evict none) m' :=
  ⟨hempty, h⟩

theorem does_evict (hvalue : m key = some value) (h : m' = Function.update m key none) :
    Does m (.evict (some (key, some value))) m' :=
  ⟨⟨by rw [hvalue]; rfl, hvalue.symm⟩, h⟩

end Does

/-- A machine whose steps do what the events do has an explained history. -/
theorem explained_of_runs {σ : Type w} {α : Type x} {β : Type y} {step : σ → α → Option (σ × β)}
    {C : σ → α → Prop} {P : σ → Prop} {values : σ → κ → Option ν} {event : α × β → Event κ ν}
    {s t : σ} {tr : List (α × β)} (h : Runs step C s tr t) (hP : P s)
    (hempty : ∀ key, values s key = none)
    (hstep : ∀ {t a t' b}, P t → C t a → step t a = some (t', b) →
      P t' ∧ Does (values t) (event (a, b)) (values t')) :
    Explained (tr.map event) ∧ values t = content (tr.map event) := by
  have hall : P t ∧ Explained (tr.map event) ∧ values t = content (tr.map event) := by
    -- the events so far are explained, and the values are those that they leave
    refine h.trace_invariant (P := fun tr t => P t ∧ Explained (tr.map event) ∧
      values t = content (tr.map event)) ⟨hP, trivial, funext hempty⟩ ?_
    rintro tr t a t' b ⟨ht, hexplained, hvalues⟩ hC hs
    obtain ⟨ht', hdoes⟩ := hstep ht hC hs
    -- the step answers from the values, which are the content of the events before it
    rw [hvalues] at hdoes
    exact ⟨ht', ⟨hdoes.right, hexplained⟩, hdoes.next⟩
  exact hall.2

end Covered.Lib.EvictingMap
