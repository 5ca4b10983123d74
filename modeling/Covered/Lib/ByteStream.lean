import Mathlib.Algebra.Order.Ring.Nat

/-!
# Byte streams

A serializer writes one field after the other to a sink, and a deserializer reads them from a source
in the same order. Sinks and sources are given by their operations and one law each; `Emits` and
`Parses` say which bytes a traversal writes and reads, and have one rule for each way of composing
traversals. A traversal that is generic in its sink is so proved once for all of them.

Numbers have a fixed width and are little-endian or big-endian.
-/

set_option autoImplicit false

namespace Covered.Lib.ByteStream

open Option List

/-! ## Numbers -/

/-- The bytes of a number, least significant first. -/
def littleEndian : Nat → Nat → List UInt8
  | 0, _ => []
  | width + 1, n => UInt8.ofNat n :: littleEndian width (n / 256)

/-- The number that has the given bytes. -/
def ofLittleEndian (bytes : List UInt8) : Nat :=
  bytes.foldr (fun byte n => byte.toNat + 256 * n) 0

def bigEndian (width n : Nat) : List UInt8 := (littleEndian width n).reverse

def ofBigEndian (bytes : List UInt8) : Nat := ofLittleEndian bytes.reverse

@[simp] theorem length_littleEndian (width n : Nat) : (littleEndian width n).length = width := by
  induction width generalizing n with
  | zero => rfl
  | succ width ih => rw [littleEndian, length_cons, ih]

@[simp] theorem length_bigEndian (width n : Nat) : (bigEndian width n).length = width := by
  rw [bigEndian, length_reverse, length_littleEndian]

theorem ofLittleEndian_littleEndian {width n : Nat} (h : n < 256 ^ width) :
    ofLittleEndian (littleEndian width n) = n := by
  induction width generalizing n with
  | zero =>
    rw [Nat.pow_zero, Nat.lt_one_iff] at h
    exact h.symm
  | succ width ih =>
    have hdiv : n / 256 < 256 ^ width := by
      rw [Nat.div_lt_iff_lt_mul (by decide), ← Nat.pow_succ]
      exact h
    have hsplit := Nat.mod_add_div n 256
    calc ofLittleEndian (littleEndian (width + 1) n)
        = (UInt8.ofNat n).toNat + 256 * ofLittleEndian (littleEndian width (n / 256)) := rfl
      _ = n % 256 + 256 * (n / 256) := by rw [ih hdiv, UInt8.toNat_ofNat']
      _ = n := hsplit

theorem ofBigEndian_bigEndian {width n : Nat} (h : n < 256 ^ width) :
    ofBigEndian (bigEndian width n) = n := by
  rw [ofBigEndian, bigEndian, reverse_reverse, ofLittleEndian_littleEndian h]

/-- Two's complement of a signed 32-bit number. -/
def unsigned32 (x : Int) : Nat := (x % 2 ^ 32).toNat

def signed32 (n : Nat) : Int := if n < 2 ^ 31 then n else (n : Int) - 2 ^ 32

theorem unsigned32_lt (x : Int) : unsigned32 x < 256 ^ 4 := by
  have hlt := Int.emod_lt_of_pos x (show (0 : Int) < 2 ^ 32 by decide)
  rw [unsigned32]
  omega

theorem signed32_unsigned32 {x : Int} (hlow : -2 ^ 31 ≤ x) (hhigh : x < 2 ^ 31) :
    signed32 (unsigned32 x) = x := by
  rw [signed32, unsigned32]
  split <;> omega

/-- A computation that may fail and reads or writes nothing. -/
def ofOption {S α : Type} (a : Option α) : StateT S Option α := fun s => a.map (·, s)

/-! ## Sinks -/

/-- Where bytes are written to. A sink has `written` bytes and counts the size of what is written;
`Fits` says for how many bytes there is room. -/
structure Sink (S : Type) where
  put : List UInt8 → StateT S Option Unit
  written : S → List UInt8
  size : S → Nat
  Fits : S → Nat → Prop
  put_fits : ∀ {s : S} {bytes : List UInt8} {n : Nat}, Fits s (bytes.length + n) →
    ∃ s', put bytes s = some ((), s') ∧ written s' = written s ++ bytes ∧
      size s' = size s + bytes.length ∧ Fits s' n

section Emits

variable {S α : Type} {sink : Sink S} {f g : StateT S Option Unit} {bytes bytes' : List UInt8}

/-- The traversal writes these bytes if there is room for them. -/
def Emits (sink : Sink S) (f : StateT S Option Unit) (bytes : List UInt8) : Prop :=
  ∀ s n, sink.Fits s (bytes.length + n) →
    ∃ s', f s = some ((), s') ∧ sink.written s' = sink.written s ++ bytes ∧
      sink.size s' = sink.size s + bytes.length ∧ sink.Fits s' n

theorem emits_put (sink : Sink S) (bytes : List UInt8) : Emits sink (sink.put bytes) bytes :=
  fun _ _ => sink.put_fits

theorem emits_nothing (sink : Sink S) : Emits sink (pure ()) [] := by
  intro s n hfits
  rw [length_nil, Nat.zero_add] at hfits
  exact ⟨s, rfl, (append_nil _).symm, rfl, hfits⟩

theorem Emits.andThen (hf : Emits sink f bytes) (hg : Emits sink g bytes') :
    Emits sink (f >>= fun _ => g) (bytes ++ bytes') := by
  intro s n hfits
  rw [length_append, Nat.add_assoc] at hfits
  obtain ⟨s₁, hs₁, hwritten₁, hsize₁, hfits₁⟩ := hf s _ hfits
  obtain ⟨s₂, hs₂, hwritten₂, hsize₂, hfits₂⟩ := hg s₁ n hfits₁
  refine ⟨s₂, ?_, ?_, ?_, hfits₂⟩
  · simp only [bind, StateT.bind, hs₁, bind_some, hs₂]
  · rw [hwritten₂, hwritten₁, append_assoc]
  · rw [hsize₂, hsize₁, length_append, Nat.add_assoc]

theorem Emits.afterOption {o : Option α} {g : α → StateT S Option Unit} {a : α} (h : o = some a)
    (hg : Emits sink (g a) bytes) : Emits sink (ofOption o >>= g) bytes := by
  intro s n hfits
  obtain ⟨s', hs', hrest⟩ := hg s n hfits
  subst h
  exact ⟨s', hs', hrest⟩

/-- Write a field that is there on a condition. -/
def onlyIf (c : Prop) [Decidable c] (f : StateT S Option Unit) : StateT S Option Unit :=
  if c then f else pure ()

theorem Emits.onlyIf {c : Prop} [Decidable c] (hf : c → Emits sink f bytes) :
    Emits sink (onlyIf c f) (if c then bytes else []) := by
  rw [ByteStream.onlyIf]
  by_cases hc : c
  · rw [if_pos hc, if_pos hc]
    exact hf hc
  · rw [if_neg hc, if_neg hc]
    exact emits_nothing sink

theorem Emits.ite {c : Prop} [Decidable c] (hf : c → Emits sink f bytes)
    (hg : ¬ c → Emits sink g bytes') :
    Emits sink (if c then f else g) (if c then bytes else bytes') := by
  by_cases hc : c
  · rw [if_pos hc, if_pos hc]
    exact hf hc
  · rw [if_neg hc, if_neg hc]
    exact hg hc

/-- Write the items of a list one after the other. -/
def writeMany (f : α → StateT S Option Unit) : List α → StateT S Option Unit
  | [] => pure ()
  | a :: rest => f a >>= fun _ => writeMany f rest

theorem emits_writeMany {f : α → StateT S Option Unit} {encode : α → List UInt8} {items : List α}
    (h : ∀ a ∈ items, Emits sink (f a) (encode a)) :
    Emits sink (writeMany f items) (items.flatMap encode) := by
  induction items with
  | nil => exact emits_nothing sink
  | cons a rest ih =>
    rw [flatMap_cons]
    exact (h a (mem_cons_self ..)).andThen (ih fun b hb => h b (mem_cons_of_mem a hb))

theorem writeMany_map {β : Type} (f : β → StateT S Option Unit) (g : α → β) (items : List α) :
    writeMany f (items.map g) = writeMany (fun a => f (g a)) items := by
  induction items with
  | nil => rfl
  | cons a rest ih => rw [map_cons, writeMany, writeMany, ih]

end Emits

/-! ## Sources -/

/-- Where bytes are read from. -/
structure Source (S : Type) where
  get : Nat → StateT S Option (List UInt8)
  remaining : S → List UInt8
  size : S → Nat
  get_remaining : ∀ {s : S} {n : Nat}, n ≤ (remaining s).length →
    ∃ s', get n s = some ((remaining s).take n, s') ∧ remaining s' = (remaining s).drop n ∧
      size s' = size s + n

section Parses

variable {S α β : Type} {source : Source S} {bytes bytes' : List UInt8}

/-- The traversal reads a value from exactly these bytes. -/
def Parses (source : Source S) (f : StateT S Option α) (a : α) (bytes : List UInt8) : Prop :=
  ∀ s rest, source.remaining s = bytes ++ rest →
    ∃ s', f s = some (a, s') ∧ source.remaining s' = rest ∧
      source.size s' = source.size s + bytes.length

theorem parses_get (source : Source S) {n : Nat} (h : bytes.length = n) :
    Parses source (source.get n) bytes bytes := by
  intro s rest hrest
  subst h
  have hle : bytes.length ≤ (source.remaining s).length := by
    rw [hrest, length_append]
    exact Nat.le_add_right ..
  obtain ⟨s', hget, hremaining, hsize⟩ := source.get_remaining hle
  rw [hrest, take_left] at hget
  rw [hrest, drop_left] at hremaining
  exact ⟨s', hget, hremaining, hsize⟩

theorem parses_pure (source : Source S) (a : α) : Parses source (pure a) a [] :=
  fun s _ hrest => ⟨s, rfl, hrest, rfl⟩

variable {f : StateT S Option α} {a : α}

variable {g : α → StateT S Option β}

theorem Parses.andThen {b : β} (hf : Parses source f a bytes) (hg : Parses source (g a) b bytes') :
    Parses source (f >>= g) b (bytes ++ bytes') := by
  intro s rest hrest
  rw [append_assoc] at hrest
  obtain ⟨s₁, hs₁, hremaining₁, hsize₁⟩ := hf s _ hrest
  obtain ⟨s₂, hs₂, hremaining₂, hsize₂⟩ := hg s₁ rest hremaining₁
  refine ⟨s₂, ?_, hremaining₂, ?_⟩
  · simp only [bind, StateT.bind, hs₁, bind_some, hs₂]
  · rw [hsize₂, hsize₁, length_append, Nat.add_assoc]

/-- The last step returns a value computed from the one that was read. -/
theorem Parses.map (hf : Parses source f a bytes) (g : α → β) :
    Parses source (f >>= fun a => pure (g a)) (g a) bytes := by
  have h : Parses source (f >>= fun a => pure (g a)) (g a) (bytes ++ []) :=
    hf.andThen (parses_pure source (g a))
  rw [append_nil] at h
  exact h

/-- Read a field that is there on a condition and has a default otherwise. -/
def optional (c : Prop) [Decidable c] (f : StateT S Option α) (default : α) : StateT S Option α :=
  if c then f else pure default

theorem Parses.optional {c : Prop} [Decidable c] {default : α} (hf : c → Parses source f a bytes) :
    Parses source (optional c f default) (if c then a else default) (if c then bytes else []) := by
  rw [ByteStream.optional]
  by_cases hc : c
  · rw [if_pos hc, if_pos hc, if_pos hc]
    exact hf hc
  · rw [if_neg hc, if_neg hc, if_neg hc]
    exact parses_pure source default

theorem parses_ofOption (source : Source S) {o : Option α} (h : o = some a) :
    Parses source (ofOption o) a [] := by
  intro s rest hrest
  subst h
  exact ⟨s, rfl, hrest, rfl⟩

theorem Parses.afterOption {o : Option α} {b : β} (h : o = some a)
    (hg : Parses source (g a) b bytes) :
    Parses source (ofOption o >>= g) b bytes := by
  have hboth : Parses source (ofOption o >>= g) b ([] ++ bytes) :=
    (parses_ofOption source h).andThen hg
  exact hboth

theorem Parses.thenOption {o : α → Option β} {b : β} (hf : Parses source f a bytes)
    (h : o a = some b) :
    Parses source (f >>= fun a => ofOption (o a)) b bytes := by
  have hboth : Parses source (f >>= fun a => ofOption (o a)) b (bytes ++ []) :=
    hf.andThen (parses_ofOption source h)
  rw [append_nil] at hboth
  exact hboth

/-- Read a little-endian number. -/
def Source.getLittleEndian (source : Source S) (width : Nat) : StateT S Option Nat :=
  source.get width >>= fun bytes => pure (ofLittleEndian bytes)

def Source.getBigEndian (source : Source S) (width : Nat) : StateT S Option Nat :=
  source.get width >>= fun bytes => pure (ofBigEndian bytes)

theorem parses_getLittleEndian (source : Source S) {width n : Nat} (h : n < 256 ^ width) :
    Parses source (source.getLittleEndian width) n (littleEndian width n) := by
  have hget := (parses_get source (length_littleEndian width n)).map ofLittleEndian
  rw [ofLittleEndian_littleEndian h] at hget
  exact hget

theorem parses_getBigEndian (source : Source S) {width n : Nat} (h : n < 256 ^ width) :
    Parses source (source.getBigEndian width) n (bigEndian width n) := by
  have hget := (parses_get source (length_bigEndian width n)).map ofBigEndian
  rw [ofBigEndian_bigEndian h] at hget
  exact hget

/-- Read a number of items one after the other. -/
def readMany (f : StateT S Option α) : Nat → StateT S Option (List α)
  | 0 => pure []
  | n + 1 => f >>= fun a => readMany f n >>= fun rest => pure (a :: rest)

theorem parses_readMany {f : StateT S Option β} {encode : α → List UInt8} {decoded : α → β}
    {items : List α} (h : ∀ a ∈ items, Parses source f (decoded a) (encode a)) :
    Parses source (readMany f items.length) (items.map decoded) (items.flatMap encode) := by
  induction items with
  | nil => exact parses_pure source []
  | cons a rest ih =>
    have hrest := ih fun b hb => h b (mem_cons_of_mem a hb)
    rw [flatMap_cons]
    exact (h a (mem_cons_self ..)).andThen (hrest.map fun rest => decoded a :: rest)

end Parses

/-! ## Traversals of two representations -/

section Simulates

variable {S α β γ δ : Type} {g : α → β} {h : γ → δ} {f : StateT S Option α} {f' : StateT S Option β}

/-- Whatever the first traversal reads, the second one reads in its own representation. -/
def Simulates (g : α → β) (f : StateT S Option α) (f' : StateT S Option β) : Prop :=
  ∀ s a s', f s = some (a, s') → f' s = some (g a, s')

theorem simulates_refl (f : StateT S Option α) : Simulates id f f := fun _ _ _ hf => hf

theorem simulates_pure {a : α} {b : β} (hb : g a = b) :
    Simulates (S := S) g (pure a) (pure b) := by
  intro s a' s' hs
  cases hs
  rw [hb]
  rfl

theorem Simulates.andThen {k : α → StateT S Option γ} {k' : β → StateT S Option δ}
    (hf : Simulates g f f') (hk : ∀ a, Simulates h (k a) (k' (g a))) :
    Simulates h (f >>= k) (f' >>= k') := by
  intro s c s' hs
  simp only [bind, StateT.bind, bind_eq_some_iff] at hs ⊢
  obtain ⟨⟨a, s₁⟩, hfirst, hthen⟩ := hs
  exact ⟨(g a, s₁), hf s a s₁ hfirst, hk a s₁ c s' hthen⟩

theorem simulates_ofOption {o : Option α} {o' : Option β} (ho : ∀ a, o = some a → o' = some (g a)) :
    Simulates (S := S) g (ofOption o) (ofOption o') := by
  intro s a s' hs
  obtain ⟨a', ha', heq⟩ := map_eq_some_iff.1 hs
  cases heq
  simp only [ofOption, ho a ha', map_some]

/-- The second traversal has a value already that the first one checks. -/
theorem simulates_ofOption_pure {o : Option α} {b : β} (ho : ∀ a, o = some a → g a = b) :
    Simulates (S := S) g (ofOption o) (pure b) := by
  intro s a s' hs
  obtain ⟨a', ha', heq⟩ := map_eq_some_iff.1 hs
  cases heq
  rw [ho a ha']
  rfl

/-- The second traversal checks what holds of all values of the first one. -/
theorem Simulates.thenCheck {o : β → Option β} (hf : Simulates g f f')
    (ho : ∀ a, o (g a) = some (g a)) : Simulates g f (f' >>= fun b => ofOption (o b)) := by
  intro s a s' hs
  simp only [bind, StateT.bind, hf s a s' hs, bind_some, ofOption, ho a, map_some]

theorem Simulates.optional {c c' : Prop} [Decidable c] [Decidable c'] {default : α} {default' : β}
    (hc : c ↔ c') (hf : c → Simulates g f f') (hdefault : g default = default') :
    Simulates g (optional c f default) (optional c' f' default') := by
  by_cases h : c
  · rw [ByteStream.optional, ByteStream.optional, if_pos h, if_pos (hc.1 h)]
    exact hf h
  · rw [ByteStream.optional, ByteStream.optional, if_neg h, if_neg fun h' => h (hc.2 h')]
    exact simulates_pure hdefault

theorem Simulates.readMany (hf : Simulates g f f') (n : Nat) :
    Simulates (map g) (readMany f n) (readMany f' n) := by
  induction n with
  | zero => exact simulates_pure rfl
  | succ n ih => exact hf.andThen fun a => ih.andThen fun rest => simulates_pure rfl

theorem Parses.simulated {source : Source S} {a : α} {bytes : List UInt8}
    (hparse : Parses source f a bytes) (hf : Simulates g f f') : Parses source f' (g a) bytes := by
  intro s rest hrest
  obtain ⟨s', hread, hremaining⟩ := hparse s rest hrest
  exact ⟨s', hf s a s' hread, hremaining⟩

end Simulates

/-! ## What is read back -/

/-- The value is read from the bytes that a traversal wrote to a sink with room for them, as many as
a 32-bit number can count. -/
def ReadBack {α : Type} (size : Option Nat)
    (write : (S : Type) → Sink S → StateT S Option Unit)
    (read : (S : Type) → Source S → StateT S Option α) (a : α) : Prop :=
  ∃ (S S' : Type) (sink : Sink S) (source : Source S') (s s' : S) (r r' : S')
    (bytes rest : List UInt8) (n : Nat), size = some n ∧ n < 2 ^ 32 ∧ sink.Fits s n ∧
    write S sink s = some ((), s') ∧ sink.written s' = sink.written s ++ bytes ∧
    source.remaining r = bytes ++ rest ∧ read S' source r = some (a, r')

theorem ReadBack.eq {α : Type} {size : Nat} {write : (S : Type) → Sink S → StateT S Option Unit}
    {read : (S : Type) → Source S → StateT S Option α} {a b : α} {bytes : List UInt8}
    (h : ReadBack (some size) write read a) (hlength : bytes.length = size)
    (hwrite : ∀ {S : Type} (sink : Sink S), Emits sink (write S sink) bytes)
    (hread : size < 2 ^ 32 →
      ∀ {S : Type} (source : Source S), Parses source (read S source) b bytes) :
    a = b := by
  obtain ⟨S, S', sink, source, s, s', r, r', bytes', rest, n, hsize, hlimit, hfits, hwritten,
    hbytes, hremaining, hresult⟩ := h
  cases hsize
  -- the bytes that were written are those of the format
  obtain ⟨s₁, hs₁, hbytes₁, -⟩ := hwrite sink s 0 (by rw [hlength]; exact hfits)
  rw [hwritten, some.injEq, Prod.mk.injEq] at hs₁
  obtain ⟨-, rfl⟩ := hs₁
  obtain rfl : bytes' = bytes := append_cancel_left (hbytes.symm.trans hbytes₁)
  obtain ⟨r₁, hr₁, -⟩ := hread hlimit source r rest hremaining
  rw [hresult, some.injEq, Prod.mk.injEq] at hr₁
  exact hr₁.1

end Covered.Lib.ByteStream
