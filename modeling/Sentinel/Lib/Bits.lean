import Mathlib

/-!
# Bits and symbols

A number as its bits, most significant first, and a string of bits as symbols of a fixed width.
Both ways of writing are undone by reading: `toNat_ofNat` and `ofNat_toNat` for numbers,
`symbols_spread` and `spread_symbols` for symbols.
-/

namespace Bits

/-- The low `n` bits of a number, most significant first. -/
def ofNat (value n : Nat) : List Nat := (List.range n).reverse.map fun i => value >>> i &&& 1

/-- The number with these bits, most significant first. -/
def toNat (bits : List Nat) : Nat := bits.foldl (fun acc b => acc <<< 1 ||| b) 0

/-- All entries are bits. -/
def IsBits (bits : List Nat) : Prop := ∀ b ∈ bits, b < 2

@[simp] theorem length_ofNat (value n : Nat) : (ofNat value n).length = n := by
  simp [ofNat]

theorem ofNat_succ (value n : Nat) : ofNat value (n + 1) = value / 2 ^ n % 2 :: ofNat value n := by
  rw [ofNat, List.range_succ, List.reverse_append, List.reverse_singleton, List.singleton_append,
    List.map_cons, Nat.shiftRight_eq_div_pow, Nat.and_one_is_mod, ofNat]

theorem isBits_ofNat (value n : Nat) : IsBits (ofNat value n) := by
  intro b mem
  obtain ⟨i, -, rfl⟩ := List.mem_map.mp mem
  rw [Nat.and_one_is_mod]
  exact Nat.mod_lt _ two_pos

theorem isBits_append {s t : List Nat} : IsBits (s ++ t) ↔ IsBits s ∧ IsBits t :=
  List.forall_mem_append

/-- Shifting a number to the left and setting the low bits. -/
theorem shiftLeft_or {n b : Nat} (small : b < 2 ^ n) (acc : Nat) :
    acc <<< n ||| b = acc * 2 ^ n + b := by
  rw [← Nat.shiftLeft_add_eq_or_of_lt small, Nat.shiftLeft_eq]

theorem foldl_eq {bits : List Nat} (all : IsBits bits) (acc : Nat) :
    bits.foldl (fun acc b => acc <<< 1 ||| b) acc = acc * 2 ^ bits.length + toNat bits := by
  induction bits generalizing acc with
  | nil => simp [toNat]
  | cons b bits ih =>
      obtain ⟨bit, rest⟩ := List.forall_mem_cons.mp all
      have low : b < 2 ^ 1 := bit
      rw [toNat, List.foldl_cons, List.foldl_cons, ih rest, ih rest (0 <<< 1 ||| b),
        shiftLeft_or low, shiftLeft_or low, List.length_cons, pow_succ]
      ring

theorem toNat_append {s t : List Nat} (all : IsBits t) :
    toNat (s ++ t) = toNat s * 2 ^ t.length + toNat t := by
  rw [toNat, List.foldl_append, foldl_eq all]
  rfl

theorem toNat_singleton {b : Nat} (bit : b < 2) : toNat [b] = b := by
  have low : b < 2 ^ 1 := bit
  rw [toNat, List.foldl_cons, List.foldl_nil, shiftLeft_or low, zero_mul, zero_add]

theorem toNat_cons {b : Nat} {bits : List Nat} (all : IsBits (b :: bits)) :
    toNat (b :: bits) = b * 2 ^ bits.length + toNat bits := by
  obtain ⟨bit, rest⟩ := List.forall_mem_cons.mp all
  have apart := toNat_append (s := [b]) rest
  rwa [toNat_singleton bit] at apart

theorem toNat_lt {bits : List Nat} (all : IsBits bits) : toNat bits < 2 ^ bits.length := by
  induction bits with
  | nil => exact Nat.one_pos
  | cons b bits ih =>
      obtain ⟨bit, rest⟩ := List.forall_mem_cons.mp all
      have tail := ih rest
      have head : b * 2 ^ bits.length ≤ 1 * 2 ^ bits.length :=
        Nat.mul_le_mul_right _ (Nat.le_of_lt_succ bit)
      rw [toNat_cons all, List.length_cons, pow_succ]
      omega

/-- The bits of a number are those of its remainder. -/
theorem toNat_ofNat (value n : Nat) : toNat (ofNat value n) = value % 2 ^ n := by
  induction n with
  | zero => rw [pow_zero, Nat.mod_one]; rfl
  | succ n ih =>
      have all : IsBits (value / 2 ^ n % 2 :: ofNat value n) := ofNat_succ value n ▸ isBits_ofNat _ _
      rw [ofNat_succ, toNat_cons all, length_ofNat, ih, pow_succ, Nat.mod_mul]
      ring

/-- Strings of bits of one length are told apart by their numbers. -/
theorem eq_of_toNat_eq {s t : List Nat} (allS : IsBits s) (allT : IsBits t)
    (length : s.length = t.length) (same : toNat s = toNat t) : s = t := by
  induction s generalizing t with
  | nil => exact (List.eq_nil_of_length_eq_zero length.symm).symm
  | cons b s ih =>
      cases t with
      | nil => cases length
      | cons b' t =>
          have lengths : s.length = t.length := Nat.succ.inj length
          obtain ⟨-, restS⟩ := List.forall_mem_cons.mp allS
          obtain ⟨-, restT⟩ := List.forall_mem_cons.mp allT
          have lowS := toNat_lt restS
          have lowT := toNat_lt restT
          rw [toNat_cons allS, toNat_cons allT, lengths] at same
          rw [lengths] at lowS
          have heads : b = b' := by
            have first := congrArg (· / 2 ^ t.length) same
            simp only [mul_comm b, mul_comm b', Nat.mul_add_div (Nat.two_pow_pos _),
              Nat.div_eq_of_lt lowS, Nat.div_eq_of_lt lowT, add_zero] at first
            exact first
          subst heads
          rw [ih restS restT lengths (Nat.add_left_cancel same)]

theorem ofNat_toNat {bits : List Nat} (all : IsBits bits) :
    ofNat (toNat bits) bits.length = bits := by
  refine eq_of_toNat_eq (isBits_ofNat _ _) all (length_ofNat _ _) ?_
  rw [toNat_ofNat, Nat.mod_eq_of_lt (toNat_lt all)]

/-! ## Symbols -/

/-- Pieces of a fixed width; the last may be shorter. -/
def chunks {α : Type} (w : Nat) (l : List α) : List (List α) :=
  (List.range ((l.length + w - 1) / w)).map fun i => (l.drop (i * w)).take w

section Chunks

variable {α : Type} {w : Nat}

theorem chunks_nil (wide : 0 < w) : chunks w ([] : List α) = [] := by
  rw [chunks, List.length_nil, Nat.zero_add, Nat.div_eq_of_lt (by omega)]
  rfl

theorem chunks_append (wide : 0 < w) {s : List α} (length : s.length = w) (l : List α) :
    chunks w (s ++ l) = s :: chunks w l := by
  have count : ((s ++ l).length + w - 1) / w = (l.length + w - 1) / w + 1 := by
    rw [List.length_append, length, ← Nat.add_div_right _ wide]
    congr 1
    omega
  rw [chunks, count, List.range_succ_eq_map, List.map_cons, zero_mul, List.drop_zero,
    List.take_left' length, List.map_map, chunks]
  refine congrArg (s :: ·) (List.map_congr_left fun i _ => ?_)
  rw [Function.comp_apply, Nat.succ_mul, add_comm, ← List.drop_drop, List.drop_left' length]

theorem chunks_flatten (wide : 0 < w) {pieces : List (List α)} (all : ∀ s ∈ pieces, s.length = w) :
    chunks w pieces.flatten = pieces := by
  induction pieces with
  | nil => exact chunks_nil wide
  | cons s pieces ih =>
      obtain ⟨first, rest⟩ := List.forall_mem_cons.mp all
      rw [List.flatten_cons, chunks_append wide first, ih rest]

/-- A list of a multiple of the width is made of pieces of the width. -/
theorem exists_pieces (w m : Nat) {l : List α} (length : l.length = m * w) :
    ∃ pieces : List (List α), pieces.flatten = l ∧ ∀ s ∈ pieces, s.length = w := by
  induction m generalizing l with
  | zero =>
      rw [zero_mul] at length
      exact ⟨[], (List.eq_nil_of_length_eq_zero length).symm, List.forall_mem_nil _⟩
  | succ m ih =>
      rw [Nat.succ_mul] at length
      obtain ⟨pieces, whole, all⟩ := ih (l := l.drop w) (by rw [List.length_drop]; omega)
      refine ⟨l.take w :: pieces, ?_, List.forall_mem_cons.mpr ⟨?_, all⟩⟩
      · rw [List.flatten_cons, whole, List.take_append_drop]
      · rw [List.length_take]
        omega

end Chunks

/-- The symbols of a string of bits. -/
def symbols (w : Nat) (bits : List Nat) : List Nat := (chunks w bits).map toNat

/-- The bits of a string of symbols. -/
def spread (w : Nat) (symbols : List Nat) : List Nat := symbols.flatMap fun v => ofNat v w

variable {w : Nat}

theorem isBits_spread (w : Nat) (syms : List Nat) : IsBits (spread w syms) := by
  intro b mem
  obtain ⟨v, -, mem⟩ := List.mem_flatMap.mp mem
  exact isBits_ofNat v w b mem

theorem spread_cons (w v : Nat) (syms : List Nat) :
    spread w (v :: syms) = ofNat v w ++ spread w syms := rfl

theorem length_spread (w : Nat) (syms : List Nat) : (spread w syms).length = syms.length * w := by
  induction syms with
  | nil => rw [List.length_nil, zero_mul]; rfl
  | cons v syms ih =>
      rw [spread_cons, List.length_append, length_ofNat, List.length_cons, Nat.succ_mul, add_comm,
        ih]

theorem symbols_spread (wide : 0 < w) {syms : List Nat} (small : ∀ v ∈ syms, v < 2 ^ w) :
    symbols w (spread w syms) = syms := by
  have pieces : chunks w (spread w syms) = syms.map fun v => ofNat v w := by
    rw [spread, List.flatMap_def]
    refine chunks_flatten wide fun s mem => ?_
    obtain ⟨v, -, rfl⟩ := List.mem_map.mp mem
    exact length_ofNat v w
  rw [symbols, pieces, List.map_map]
  refine (List.map_congr_left fun v mem => ?_).trans (List.map_id syms)
  rw [Function.comp_apply, toNat_ofNat, Nat.mod_eq_of_lt (small v mem), id]

theorem spread_symbols (wide : 0 < w) {bits : List Nat} (all : IsBits bits) (m : Nat)
    (length : bits.length = m * w) : spread w (symbols w bits) = bits := by
  obtain ⟨pieces, rfl, widths⟩ := exists_pieces w m length
  rw [symbols, chunks_flatten wide widths, spread, List.flatMap_map, List.flatMap_def]
  refine congrArg List.flatten ((List.map_congr_left fun s mem => ?_).trans (List.map_id pieces))
  have inside : IsBits s := fun b mem' => all b (List.mem_flatten.mpr ⟨s, mem, mem'⟩)
  have back := ofNat_toNat inside
  rw [widths s mem] at back
  rw [back, id]

theorem symbols_lt (wide : 0 < w) {bits : List Nat} (all : IsBits bits) (m : Nat)
    (length : bits.length = m * w) : ∀ v ∈ symbols w bits, v < 2 ^ w := by
  obtain ⟨pieces, rfl, widths⟩ := exists_pieces w m length
  rw [symbols, chunks_flatten wide widths]
  intro v mem
  obtain ⟨s, piece, rfl⟩ := List.mem_map.mp mem
  have inside : IsBits s := fun b mem' => all b (List.mem_flatten.mpr ⟨s, piece, mem'⟩)
  have low := toNat_lt inside
  rwa [widths s piece] at low

theorem length_symbols (wide : 0 < w) {bits : List Nat} (all : IsBits bits) (m : Nat)
    (length : bits.length = m * w) : (symbols w bits).length = m := by
  have back := congrArg List.length (spread_symbols wide all m length)
  rw [length_spread, length] at back
  exact Nat.eq_of_mul_eq_mul_right wide back

/-- Reading symbols one after another reads the number of their bits. -/
theorem foldl_symbols {syms : List Nat} (small : ∀ v ∈ syms, v < 2 ^ w) (acc : Nat) :
    syms.foldl (fun acc v => acc <<< w ||| v) acc =
      acc * 2 ^ (syms.length * w) + toNat (spread w syms) := by
  induction syms generalizing acc with
  | nil => simp [spread, toNat]
  | cons v syms ih =>
      obtain ⟨first, rest⟩ := List.forall_mem_cons.mp small
      have apart := toNat_append (s := ofNat v w) (isBits_spread w syms)
      rw [toNat_ofNat, Nat.mod_eq_of_lt first, length_spread] at apart
      rw [List.foldl_cons, ih rest, shiftLeft_or first, spread_cons, apart, List.length_cons,
        Nat.succ_mul, pow_add]
      ring

end Bits
