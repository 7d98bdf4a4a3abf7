import Mathlib

/-!
# Codecs, and decoders that may trap

A `Codec` writes a value in front of any rest and reads it back, in both directions: what was
written is read (`decode_encode`), and what is read was written (`encode_of_decode`). Pairs,
length prefixes and counted lists of codecs are codecs, so a format built from them is a
bijection between the values that fit it and the strings it accepts.

`Checked` is the outcome of a decoder as a program has it: a value, an error, or a trap (an
index out of range, an overflow). `Checked.Agrees` compares it with what a codec reads.
-/

namespace Wire

/-! ## Codecs -/

/-- `Fits` holds of the values the format can express. -/
structure Codec (β α : Type) where
  Fits : α → Prop
  encode : α → List β
  decode : List β → Option (α × List β)
  decode_encode : ∀ {a}, Fits a → ∀ rest, decode (encode a ++ rest) = some (a, rest)
  encode_of_decode : ∀ {b a rest}, decode b = some (a, rest) → encode a ++ rest = b ∧ Fits a

namespace Codec

variable {β α γ : Type}

/-- What is read is no longer than the string. -/
theorem length_of_decode (c : Codec β α) {b rest : List β} {a : α}
    (read : c.decode b = some (a, rest)) : (c.encode a).length + rest.length = b.length := by
  rw [← (c.encode_of_decode read).1, List.length_append]

/-- Exactly `n` symbols. -/
def block (n : Nat) : Codec β (List β) where
  Fits a := a.length = n
  encode a := a
  decode b := if n ≤ b.length then some (b.take n, b.drop n) else none
  decode_encode := by
    rintro a rfl rest
    rw [if_pos (by rw [List.length_append]; omega), List.take_left, List.drop_left]
  encode_of_decode := by
    intro b a rest read
    split at read
    · cases read
      exact ⟨List.take_append_drop _ _, List.length_take_of_le ‹_›⟩
    · cases read

/-- The values of a codec under another representation: `f` reads it, where it can. -/
def refine (c : Codec β α) (f : α → Option γ) (g : γ → α) (f_g : ∀ x, f (g x) = some x)
    (g_f : ∀ a x, f a = some x → g x = a) : Codec β γ where
  Fits x := c.Fits (g x)
  encode x := c.encode (g x)
  decode b := (c.decode b).bind fun r => (f r.1).map fun x => (x, r.2)
  decode_encode := by
    intro x fits rest
    rw [c.decode_encode fits, Option.bind_some, f_g, Option.map_some]
  encode_of_decode := by
    intro b x rest read
    obtain ⟨⟨a, rest'⟩, first, read⟩ := Option.bind_eq_some_iff.mp read
    obtain ⟨y, value, eq⟩ := Option.map_eq_some_iff.mp read
    cases eq
    rw [g_f a x value]
    exact c.encode_of_decode first

/-- One value after another, the second codec chosen by the first value. -/
def dependent {δ : Type} (c : Codec β α) (d : α → Codec β γ) (build : α → γ → δ) (fst : δ → α)
    (snd : δ → γ) (build_eta : ∀ x, build (fst x) (snd x) = x)
    (fst_build : ∀ a y, (d a).Fits y → fst (build a y) = a)
    (snd_build : ∀ a y, snd (build a y) = y) : Codec β δ where
  Fits x := c.Fits (fst x) ∧ (d (fst x)).Fits (snd x)
  encode x := c.encode (fst x) ++ (d (fst x)).encode (snd x)
  decode b := (c.decode b).bind fun r => ((d r.1).decode r.2).map fun s => (build r.1 s.1, s.2)
  decode_encode := by
    intro x fits rest
    rw [List.append_assoc, c.decode_encode fits.1, Option.bind_some,
      (d (fst x)).decode_encode fits.2, Option.map_some, build_eta]
  encode_of_decode := by
    intro b x rest read
    obtain ⟨⟨a, rest₁⟩, first, read⟩ := Option.bind_eq_some_iff.mp read
    obtain ⟨⟨y, rest₂⟩, second, eq⟩ := Option.map_eq_some_iff.mp read
    cases eq
    obtain ⟨whole, fitsA⟩ := c.encode_of_decode first
    obtain ⟨part, fitsY⟩ := (d a).encode_of_decode second
    rw [fst_build a y fitsY, snd_build]
    exact ⟨by rw [List.append_assoc, part, whole], fitsA, fitsY⟩

/-- A string after its length. -/
def sized (len : Codec β Nat) : Codec β (List β) :=
  len.dependent (fun n => block n) (fun _ s => s) List.length id (fun _ => rfl)
    (fun _ _ fits => fits) fun _ _ => rfl

/-- A value after a fixed tag. -/
def tagged [DecidableEq β] (tag : List β) (c : Codec β α) : Codec β α where
  Fits := c.Fits
  encode a := tag ++ c.encode a
  decode b := if b.take tag.length = tag then c.decode (b.drop tag.length) else none
  decode_encode := by
    intro a fits rest
    rw [List.append_assoc, List.take_left, if_pos rfl, List.drop_left, c.decode_encode fits]
  encode_of_decode := by
    intro b a rest read
    split at read
    · obtain ⟨whole, fits⟩ := c.encode_of_decode read
      refine ⟨?_, fits⟩
      rw [List.append_assoc, whole]
      nth_rewrite 1 [← ‹b.take tag.length = tag›]
      rw [List.take_append_drop]
    · cases read

/-- The reader of `n` values. -/
def decodeTimes (c : Codec β α) : Nat → List β → Option (List α × List β)
  | 0, b => some ([], b)
  | n + 1, b => (c.decode b).bind fun r =>
      (c.decodeTimes n r.2).map fun s => (r.1 :: s.1, s.2)

theorem decodeTimes_encode (c : Codec β α) {l : List α} (fits : ∀ a ∈ l, c.Fits a)
    (rest : List β) : c.decodeTimes l.length (l.flatMap c.encode ++ rest) = some (l, rest) := by
  induction l with
  | nil => rfl
  | cons a l ih =>
      obtain ⟨first, later⟩ := List.forall_mem_cons.mp fits
      rw [List.flatMap_cons, List.append_assoc, List.length_cons, decodeTimes,
        c.decode_encode first, Option.bind_some, ih later, Option.map_some]

theorem encode_of_decodeTimes (c : Codec β α) {n : Nat} {b : List β} {l : List α} {rest : List β}
    (read : c.decodeTimes n b = some (l, rest)) :
    l.flatMap c.encode ++ rest = b ∧ l.length = n ∧ ∀ a ∈ l, c.Fits a := by
  induction n generalizing b l with
  | zero =>
      cases read
      exact ⟨rfl, rfl, List.forall_mem_nil _⟩
  | succ n ih =>
      obtain ⟨⟨a, rest₁⟩, first, read⟩ := Option.bind_eq_some_iff.mp read
      obtain ⟨⟨l', rest₂⟩, later, eq⟩ := Option.map_eq_some_iff.mp read
      cases eq
      obtain ⟨whole, fits⟩ := c.encode_of_decode first
      obtain ⟨part, length, all⟩ := ih later
      refine ⟨?_, by rw [List.length_cons, length], List.forall_mem_cons.mpr ⟨fits, all⟩⟩
      rw [List.flatMap_cons, List.append_assoc, part, whole]

/-- `n` values, one after another. -/
def times (c : Codec β α) (n : Nat) : Codec β (List α) where
  Fits l := l.length = n ∧ ∀ a ∈ l, c.Fits a
  encode l := l.flatMap c.encode
  decode b := c.decodeTimes n b
  decode_encode := by
    rintro l ⟨rfl, fits⟩ rest
    exact c.decodeTimes_encode fits rest
  encode_of_decode := c.encode_of_decodeTimes

/-- A list of values after its length. -/
def counted (len : Codec β Nat) (c : Codec β α) : Codec β (List α) :=
  len.dependent c.times (fun _ l => l) List.length id (fun _ => rfl)
    (fun _ _ fits => fits.1) fun _ _ => rfl

/-- A string is read whole as a value just if it is what is written for the value. -/
theorem decode_whole_iff (c : Codec β α) {b : List β} {a : α} :
    c.decode b = some (a, []) ↔ c.Fits a ∧ c.encode a = b := by
  constructor
  · intro read
    obtain ⟨whole, fits⟩ := c.encode_of_decode read
    exact ⟨fits, by rwa [List.append_nil] at whole⟩
  · rintro ⟨fits, rfl⟩
    simpa only [List.append_nil] using c.decode_encode fits []

/-! ## Reading at a position -/

/-- A value read at a position of the string, and the position after it. -/
def readAt (c : Codec β α) (b : List β) (pos : Nat) : Option (α × Nat) :=
  (c.decode (b.drop pos)).map fun r => (r.1, b.length - r.2.length)

/-- What is left of a string is found again at its position. -/
theorem drop_of_decode (c : Codec β α) {b rest : List β} {pos : Nat} {a : α}
    (read : c.decode (b.drop pos) = some (a, rest)) : b.drop (b.length - rest.length) = rest := by
  have inside : rest <:+ b.drop pos := ⟨c.encode a, (c.encode_of_decode read).1⟩
  exact (List.suffix_iff_eq_drop.mp (inside.trans (List.drop_suffix pos b))).symm

theorem readAt_bind {δ : Type} (c : Codec β α) (b : List β) (pos : Nat)
    {f : α × List β → Option δ} {g : α × Nat → Option δ}
    (same : ∀ r, b.drop (b.length - r.2.length) = r.2 → f r = g (r.1, b.length - r.2.length)) :
    (c.decode (b.drop pos)).bind f = (c.readAt b pos).bind g := by
  cases read : c.decode (b.drop pos) with
  | none => rw [readAt, read]; rfl
  | some r =>
      rw [readAt, read, Option.bind_some, Option.map_some, Option.bind_some]
      exact same r (c.drop_of_decode read)

theorem readAt_refine (c : Codec β α) {f : α → Option γ} {g : γ → α} {f_g g_f} (b : List β)
    (pos : Nat) : (c.refine f g f_g g_f).readAt b pos =
      (c.readAt b pos).bind fun r => (f r.1).map fun x => (x, r.2) := by
  rw [readAt, refine, Option.map_bind]
  refine c.readAt_bind b pos fun r _ => ?_
  rw [Function.comp_apply, Option.map_map]
  rfl

theorem readAt_dependent {δ : Type} (c : Codec β α) {d : α → Codec β γ} {build : α → γ → δ}
    {fst : δ → α} {snd : δ → γ} {h₁ h₂ h₃} (b : List β) (pos : Nat) :
    (c.dependent d build fst snd h₁ h₂ h₃).readAt b pos = (c.readAt b pos).bind fun r =>
      ((d r.1).readAt b r.2).map fun s => (build r.1 s.1, s.2) := by
  rw [readAt, dependent, Option.map_bind]
  refine c.readAt_bind b pos fun r place => ?_
  rw [Function.comp_apply, readAt, place, Option.map_map, Option.map_map]
  rfl

theorem readAt_times_zero (c : Codec β α) {b : List β} {pos : Nat} (start : pos ≤ b.length) :
    (c.times 0).readAt b pos = some ([], pos) := by
  rw [readAt]
  change some ([], b.length - (b.drop pos).length) = _
  rw [List.length_drop, Nat.sub_sub_self start]

theorem readAt_times_succ (c : Codec β α) (n : Nat) (b : List β) (pos : Nat) :
    (c.times (n + 1)).readAt b pos = (c.readAt b pos).bind fun r =>
      ((c.times n).readAt b r.2).map fun s => (r.1 :: s.1, s.2) := by
  change Option.map _ ((c.decode (b.drop pos)).bind _) = _
  rw [Option.map_bind]
  refine c.readAt_bind b pos fun r place => ?_
  rw [Function.comp_apply, readAt, place, Option.map_map, Option.map_map]
  rfl

theorem readAt_tagged [DecidableEq β] (tag : List β) (c : Codec β α) (b : List β) (pos : Nat) :
    (tagged tag c).readAt b pos =
      if (b.drop pos).take tag.length = tag then c.readAt b (pos + tag.length) else none := by
  change Option.map _ (if _ then c.decode ((b.drop pos).drop _) else none) = _
  split
  · rw [List.drop_drop, readAt]
  · rfl

/-- A codec that reads the first `n` symbols reads them at every position. -/
theorem readAt_prefix {c : Codec β α} {n : Nat} (value : List β → α)
    (reads : ∀ b, c.decode b =
      if n ≤ b.length then some (value (b.take n), b.drop n) else none)
    {b : List β} {pos : Nat} (start : pos ≤ b.length) : c.readAt b pos =
      if pos + n ≤ b.length then some (value ((b.drop pos).take n), pos + n) else none := by
  rw [readAt, reads, List.length_drop]
  by_cases inside : pos + n ≤ b.length
  · rw [if_pos (by omega), if_pos inside, Option.map_some, List.length_drop, List.length_drop]
    congr 2
    omega
  · rw [if_neg (by omega), if_neg inside, Option.map_none]

theorem readAt_block {n : Nat} {b : List β} {pos : Nat} (start : pos ≤ b.length) :
    (block n : Codec β (List β)).readAt b pos =
      if pos + n ≤ b.length then some ((b.drop pos).take n, pos + n) else none :=
  readAt_prefix id (fun _ => rfl) start

theorem readAt_sized (len : Codec β Nat) (b : List β) (pos : Nat) :
    (sized len).readAt b pos = (len.readAt b pos).bind fun r => (block r.1).readAt b r.2 := by
  refine (len.readAt_dependent b pos).trans ?_
  congr 1
  funext r
  exact Option.map_id'

theorem readAt_counted (len : Codec β Nat) (c : Codec β α) (b : List β) (pos : Nat) :
    (counted len c).readAt b pos =
      (len.readAt b pos).bind fun r => (c.times r.1).readAt b r.2 := by
  refine (len.readAt_dependent b pos).trans ?_
  congr 1
  funext r
  exact Option.map_id'

/-- What is read at a position is what is written there. -/
theorem readAt_iff (c : Codec β α) {b : List β} {pos : Nat} (start : pos ≤ b.length) {a : α}
    {p : Nat} : c.readAt b pos = some (a, p) ↔
      c.Fits a ∧ b.drop pos = c.encode a ++ b.drop p ∧ p = pos + (c.encode a).length := by
  constructor
  · intro read
    obtain ⟨⟨x, rest⟩, decoded, eq⟩ := Option.map_eq_some_iff.mp read
    cases eq
    have place := c.drop_of_decode decoded
    have length := c.length_of_decode decoded
    obtain ⟨whole, fits⟩ := c.encode_of_decode decoded
    rw [List.length_drop] at length
    exact ⟨fits, by rw [place, whole], by simp only; omega⟩
  · rintro ⟨fits, whole, rfl⟩
    rw [readAt, whole, c.decode_encode fits, Option.map_some, List.length_drop]
    have length := congrArg List.length whole
    rw [List.length_drop, List.length_append, List.length_drop] at length
    congr 2
    omega

/-- A string is read whole if the position after it is its end. -/
theorem readAt_whole_iff (c : Codec β α) {b : List β} {a : α} :
    c.readAt b 0 = some (a, b.length) ↔ c.Fits a ∧ c.encode a = b := by
  rw [← c.decode_whole_iff, readAt, List.drop_zero]
  constructor
  · intro read
    obtain ⟨⟨x, rest⟩, decoded, eq⟩ := Option.map_eq_some_iff.mp read
    obtain ⟨rfl, all⟩ := Prod.mk.injEq .. ▸ eq
    have fewer := c.length_of_decode decoded
    have empty : rest = [] := List.eq_nil_of_length_eq_zero (by simp only at all; omega)
    rw [decoded, empty]
  · intro read
    rw [read]
    rfl

end Codec

/-! ## Decoders that may trap -/

/-- A value, an error, or a trap. -/
inductive Checked (ε α : Type) where
  | ok (value : α)
  | err (error : ε)
  | trap
  deriving DecidableEq, Repr

namespace Checked

variable {ε α γ β : Type}

instance : Monad (Checked ε) where
  pure := ok
  bind
    | ok a, f => f a
    | err e, _ => err e
    | trap, _ => trap

@[simp] theorem pure_eq (a : α) : (pure a : Checked ε α) = ok a := rfl
@[simp] theorem ok_bind (a : α) (f : α → Checked ε γ) : (ok a >>= f) = f a := rfl
@[simp] theorem err_bind (e : ε) (f : α → Checked ε γ) : (err e >>= f) = err e := rfl
@[simp] theorem trap_bind (f : α → Checked ε γ) : (trap >>= f) = trap := rfl

theorem bind_assoc {δ : Type} (r : Checked ε α) (f : α → Checked ε γ) (g : γ → Checked ε δ) :
    (r >>= f >>= g) = r >>= fun a => f a >>= g := by
  cases r <;> rfl

theorem bind_eq_ok {r : Checked ε α} {f : α → Checked ε γ} {b : γ} :
    (r >>= f) = ok b ↔ ∃ a, r = ok a ∧ f a = ok b := by
  constructor
  · intro eq
    cases r with
    | ok a => exact ⟨a, rfl, eq⟩
    | err e => cases eq
    | trap => cases eq
  · rintro ⟨a, rfl, eq⟩
    exact eq

theorem bind_ne_trap {r : Checked ε α} {f : α → Checked ε γ} (first : r ≠ trap)
    (later : ∀ a, f a ≠ trap) : (r >>= f) ≠ trap := by
  cases r with
  | ok a => exact later a
  | err e => simp
  | trap => exact absurd rfl first

/-- An error unless the condition holds. -/
def require (holds : Bool) (e : ε) : Checked ε Unit := if holds then ok () else err e

@[simp] theorem require_true (e : ε) : require true e = ok () := rfl
@[simp] theorem require_false (e : ε) : require false e = err e := rfl

/-- A missing value as an error. -/
def ofOption (e : ε) : Option α → Checked ε α
  | some a => ok a
  | none => err e

/-- An `Except` as an outcome. -/
def ofExcept {δ : Type} (wrap : δ → ε) : Except δ α → Checked ε α
  | .ok a => ok a
  | .error e => err (wrap e)

theorem ofExcept_ne_trap {δ : Type} (wrap : δ → ε) (r : Except δ α) : ofExcept wrap r ≠ trap := by
  cases r <;> simp [ofExcept]

/-- The outcome under another type of errors. -/
def mapError {δ : Type} (wrap : δ → ε) : Checked δ α → Checked ε α
  | ok a => ok a
  | err e => err (wrap e)
  | trap => trap

theorem mapError_eq_ok {δ : Type} {wrap : δ → ε} {r : Checked δ α} {a : α} :
    r.mapError wrap = ok a ↔ r = ok a := by
  cases r <;> simp [mapError]

/-- `n` symbols from a position on; out of range it is a trap. -/
def slice (b : List β) (pos n : Nat) : Checked ε (List β) :=
  if pos + n ≤ b.length then ok ((b.drop pos).take n) else trap

theorem slice_eq {b : List β} {pos n : Nat} (inside : pos + n ≤ b.length) :
    (slice b pos n : Checked ε (List β)) = ok ((b.drop pos).take n) := if_pos inside

/-- The outcome is the value, or there is no value and the outcome is an error. -/
def Agrees : Checked ε α → Option α → Prop
  | ok a, some b => a = b
  | err _, none => True
  | _, _ => False

theorem agrees_some {r : Checked ε α} {a : α} : r.Agrees (some a) ↔ r = ok a := by
  cases r <;> simp [Agrees]

theorem agrees_none {r : Checked ε α} : r.Agrees none ↔ ∃ e, r = err e := by
  cases r <;> simp [Agrees]

theorem ofOption_agrees (e : ε) (o : Option α) : (ofOption e o).Agrees o := by
  cases o with
  | none => trivial
  | some a => rfl

theorem Agrees.bind {r : Checked ε α} {o : Option α} {f : α → Checked ε γ} {g : α → Option γ}
    (first : r.Agrees o) (later : ∀ a, o = some a → (f a).Agrees (g a)) :
    (r >>= f).Agrees (o.bind g) := by
  cases o with
  | none =>
      obtain ⟨e, rfl⟩ := agrees_none.mp first
      trivial
  | some a =>
      rw [agrees_some.mp first]
      exact later a rfl

theorem Agrees.bind_ok {r : Checked ε α} {o : Option α} (agrees : r.Agrees o) (f : α → γ) :
    (r >>= fun a => ok (f a)).Agrees (o.map f) := by
  rw [Option.map_eq_bind]
  exact agrees.bind fun _ _ => rfl

/-- An outcome that agrees is no trap, and its values are the values read. -/
theorem Agrees.total {r : Checked ε α} {o : Option α} (agrees : r.Agrees o) :
    r ≠ trap ∧ ∀ a, r = ok a ↔ o = some a := by
  cases o with
  | none =>
      obtain ⟨e, rfl⟩ := agrees_none.mp agrees
      exact ⟨by simp, by simp⟩
  | some b =>
      rw [agrees_some.mp agrees]
      exact ⟨by simp, by simp⟩

end Checked

end Wire
