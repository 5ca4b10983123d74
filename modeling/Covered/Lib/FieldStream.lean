import Covered.Lib.ByteStream

/-!
# Streams of fields

A file to which values of different types are written one after the other, where the bytes of a
value do not matter: a stream is a list of fields, and a reader takes fields from its front. `Reads`
says which fields a reader takes and what it makes of them, with one rule for each way of composing
readers, as `Parses` does for bytes.
-/

set_option autoImplicit false

namespace Covered.Lib.FieldStream

open Lib.ByteStream

variable {F α β : Type}

/-- A reader takes fields from the front of a stream. -/
abbrev Reader (F α : Type) := StateT (List F) Option α

/-- Read one field, of which `decode` makes a value if it has the right type. -/
def next (decode : F → Option α) : Reader F α
  | [] => none
  | field :: rest => (decode field).map fun a => (a, rest)

/-- The reader makes the value of exactly these fields. -/
def Reads (f : Reader F α) (a : α) (fields : List F) : Prop :=
  ∀ rest, f (fields ++ rest) = some (a, rest)

theorem reads_pure (a : α) : Reads (pure a : Reader F α) a [] := fun _ => rfl

theorem reads_next {decode : F → Option α} {field : F} {a : α} (h : decode field = some a) :
    Reads (next decode) a [field] := by
  intro rest
  rw [List.singleton_append, next, h, Option.map_some]

theorem Reads.andThen {f : Reader F α} {g : α → Reader F β} {a : α} {b : β}
    {fields fields' : List F} (hf : Reads f a fields) (hg : Reads (g a) b fields') :
    Reads (f >>= g) b (fields ++ fields') := by
  intro rest
  rw [List.append_assoc]
  simp only [bind, StateT.bind, hf (fields' ++ rest), Option.bind_some, hg rest]

/-- A field that is followed by the rest. -/
theorem Reads.field {decode : F → Option α} {field : F} {g : α → Reader F β} {a : α} {b : β}
    {fields : List F} (h : decode field = some a) (hg : Reads (g a) b fields) :
    Reads (next decode >>= g) b (field :: fields) :=
  (reads_next h).andThen hg

/-- The last step returns a value computed from the one that was read. -/
theorem Reads.map {f : Reader F α} {a : α} {fields : List F} (hf : Reads f a fields) (g : α → β) :
    Reads (f >>= fun a => pure (g a)) (g a) fields := by
  have h : Reads (f >>= fun a => pure (g a)) (g a) (fields ++ []) :=
    hf.andThen (reads_pure (g a))
  rw [List.append_nil] at h
  exact h

theorem reads_readMany {f : Reader F β} {encode : α → List F} {decoded : α → β} {items : List α}
    (h : ∀ a ∈ items, Reads f (decoded a) (encode a)) :
    Reads (readMany f items.length) (items.map decoded) (items.flatMap encode) := by
  induction items with
  | nil => exact reads_pure []
  | cons a rest ih =>
    have hrest := ih fun b hb => h b (List.mem_cons_of_mem a hb)
    rw [List.flatMap_cons]
    exact (h a (List.mem_cons_self ..)).andThen (hrest.map fun rest => decoded a :: rest)

/-- One field for each item. -/
theorem reads_readMany_next {decode : F → Option α} {field : α → F} {items : List α}
    (h : ∀ a, decode (field a) = some a) :
    Reads (readMany (next decode) items.length) items (items.map field) := by
  have hmany : Reads (readMany (next decode) items.length) (items.map id)
      (items.flatMap fun a => [field a]) := reads_readMany fun a _ => reads_next (h a)
  rw [List.map_id, ← List.map_eq_flatMap] at hmany
  exact hmany

/-! ## What a reader read -/

section Inversion

variable {s s' : List F}

/-- A reader that was followed by another one. -/
theorem bind_eq_some {f : Reader F α} {g : α → Reader F β} {b : β}
    (h : (f >>= g) s = some (b, s')) : ∃ a t, f s = some (a, t) ∧ g a t = some (b, s') := by
  simp only [bind, StateT.bind] at h
  obtain ⟨⟨a, t⟩, hf, hg⟩ := Option.bind_eq_some_iff.1 h
  exact ⟨a, t, hf, hg⟩

theorem pure_eq_some {a b : α} (h : (pure a : Reader F α) s = some (b, s')) : a = b ∧ s = s' := by
  cases h
  exact ⟨rfl, rfl⟩

theorem length_of_readMany {f : Reader F α} {n : Nat} {l : List α}
    (h : readMany f n s = some (l, s')) : l.length = n := by
  induction n generalizing s s' l with
  | zero =>
    obtain ⟨rfl, -⟩ := pure_eq_some h
    rfl
  | succ n ih =>
    obtain ⟨a, t, -, h⟩ := bind_eq_some h
    obtain ⟨rest, t', hrest, h⟩ := bind_eq_some h
    obtain ⟨rfl, -⟩ := pure_eq_some h
    rw [List.length_cons, ih hrest]

end Inversion

end Covered.Lib.FieldStream
