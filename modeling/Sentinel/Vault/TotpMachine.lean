import Sentinel.Api.Enrollment
import Sentinel.Lib.Bits
import Sentinel.Vault.Sealed
import Sentinel.Vault.Totp

/-!
# One-time codes in machine arithmetic

`Vault/Totp` has the codes of `crates/core/src/totp.rs` as numbers. Here the same functions compute
in the fixed-width integers of the source, with the bounds checks of every index: `none` is a
panic. A sum or a power that does not fit panics where the build checks for overflow and wraps
elsewhere.

`Usable` says that a secret can be used at a time, and `totp_usable_iff` when it can.
-/

namespace Sentinel.Vault

instance (n : Int) : Decidable (IsI64 n) :=
  inferInstanceAs (Decidable (-(2 ^ 63) ≤ n ∧ n < 2 ^ 63))

/-- `a + b` of an `i64`. -/
def addI64 (overflowChecks : Bool) (a b : Int) : Option Int :=
  if IsI64 (a + b) then some (a + b)
  else if overflowChecks then none
  else some (Int.bmod (a + b) (2 ^ 64))

/-- `a * b` of a `u64`. -/
def mulU64 (overflowChecks : Bool) (a b : Nat) : Option Nat :=
  if a * b < 2 ^ 64 then some (a * b)
  else if overflowChecks then none
  else some (a * b % 2 ^ 64)

/-- `10u32.pow(digits)`. -/
def tenPow (overflowChecks : Bool) (digits : Nat) : Option Nat :=
  if 10 ^ digits < 2 ^ 32 then some (10 ^ digits)
  else if overflowChecks then none
  else some (10 ^ digits % 2 ^ 32)

/-- `a / b` of unsigned integers. -/
def divide (a b : Nat) : Option Nat := if b = 0 then none else some (a / b)

/-- `a % b` of unsigned integers. -/
def remainder (a b : Nat) : Option Nat := if b = 0 then none else some (a % b)

/-- The dynamic truncation of a digest. -/
def truncated (digest : Bytes) : Option Nat := do
  let last ← digest.getLast?
  let offset := (last &&& 0x0f).toNat
  let b0 ← digest[offset]?
  let b1 ← digest[offset + 1]?
  let b2 ← digest[offset + 2]?
  let b3 ← digest[offset + 3]?
  pure ((b0.toNat &&& 0x7f) <<< 24 ||| b1.toNat <<< 16 ||| b2.toNat <<< 8 ||| b3.toNat)

/-- `ct_eq`, a copy of the server's `constant_time_eq`. -/
def ctEq (a b : Bytes) : Bool := Api.constantTimeEq a b

/-- A loop over steps that ends at the first that matches. -/
def anyStep (matches_ : Int → Option Bool) : List Int → Option Bool
  | [] => some false
  | step :: steps => do
      if ← matches_ step then pure true else anyStep matches_ steps

namespace TotpSecret

/-- `code_at`. -/
def codeAtMachine (overflowChecks : Bool) (e : TotpEngine) (t : TotpSecret) (unix : Nat) :
    Option String := do
  let counter ← divide unix t.period
  let digest := e.hmac t.algo t.raw (Api.toBeBytes counter)
  let bin ← truncated digest
  let modulo ← tenPow overflowChecks t.digits
  pure (padded t.digits (← remainder bin modulo))

/-- `remaining_ms`; the remainder is below the minuend. -/
def remainingMs (overflowChecks : Bool) (t : TotpSecret) (unixMs : Nat) : Option Nat := do
  let periodMs ← mulU64 overflowChecks t.period 1000
  pure (periodMs - (← remainder unixMs periodMs))

/-- `verify_at`. -/
def verifyAtMachine (overflowChecks : Bool) (e : TotpEngine) (t : TotpSecret) (code : String)
    (unix : Nat) : Option Bool :=
  let code := Api.trim code
  let p : Int := t.period
  anyStep (fun step => do
    -- `unix as i64`
    let time ← addI64 overflowChecks (Int.bmod unix (2 ^ 64)) (step * p)
    let candidate ← codeAtMachine overflowChecks e t (max time 0).toNat
    pure (ctEq (Api.utf8 candidate) (Api.utf8 code))) [-1, 0, 1]

end TotpSecret

/-- The bytes of a digest. -/
def TotpAlgo.outputSize : TotpAlgo → Nat
  | sha1 => 20
  | sha256 => 32
  | sha512 => 64

/-! ## What the operations give -/

theorem foldl_diff_eq_zero (pairs : List (UInt8 × UInt8)) (diff : UInt8) :
    pairs.foldl (fun diff xy => diff ||| (xy.1 ^^^ xy.2)) diff = 0 ↔
      diff = 0 ∧ ∀ xy ∈ pairs, xy.1 = xy.2 := by
  induction pairs generalizing diff with
  | nil => simp
  | cons xy pairs ih =>
      rw [List.foldl_cons, ih, UInt8.or_eq_zero_iff, UInt8.xor_eq_zero_iff, List.forall_mem_cons,
        and_assoc]

theorem ctEq_iff {a b : Bytes} : ctEq a b = true ↔ a = b := by
  rw [ctEq, Api.constantTimeEq]
  by_cases length : a.length = b.length
  · rw [if_neg (not_not.mpr length), decide_eq_true_iff, foldl_diff_eq_zero, and_iff_right rfl]
    constructor
    · intro same
      refine List.ext_getElem length fun i low high => ?_
      exact same (a[i], b[i]) (List.mem_iff_getElem.mpr
        ⟨i, by rw [List.length_zip]; omega, List.getElem_zip⟩)
    · rintro rfl xy mem
      obtain ⟨i, inside, rfl⟩ := List.mem_iff_getElem.mp mem
      rw [List.getElem_zip]
  · rw [if_pos length]
    constructor
    · intro same
      cases same
    · rintro rfl
      exact absurd rfl length

/-- A number below a power of ten has as many digits as the exponent. -/
theorem padded_digits {width n : Nat} (wide : 0 < width) (small : n < 10 ^ width) :
    (TotpSecret.padded width n).toList.length = width ∧
      ∀ c ∈ (TotpSecret.padded width n).toList, c.isDigit = true := by
  have short := (Nat.length_toDigits_le_iff (by norm_num) wide).mpr small
  rw [TotpSecret.padded, String.toList_ofList, Nat.toList_repr, List.length_append,
    List.length_replicate]
  refine ⟨by omega, fun c mem => ?_⟩
  obtain zero | mem := List.mem_append.mp mem
  · rw [List.eq_of_mem_replicate zero]
    decide
  · exact Nat.isDigit_of_mem_toDigits (by norm_num) (by norm_num) mem

theorem padded_ne_empty (width n : Nat) : (TotpSecret.padded width n).toList ≠ [] := by
  rw [TotpSecret.padded, String.toList_ofList, Nat.toList_repr]
  exact List.append_ne_nil_of_right_ne_nil _ Nat.toDigits_ne_nil

/-- Four bytes put together, most significant first. -/
theorem or_bytes (a : Nat) {b c d : Nat} (byteB : b < 2 ^ 8) (byteC : c < 2 ^ 8)
    (byteD : d < 2 ^ 8) : a <<< 24 ||| b <<< 16 ||| c <<< 8 ||| d =
      a * 2 ^ 24 + b * 2 ^ 16 + c * 2 ^ 8 + d := by
  have low : c <<< 8 ||| d = c * 2 ^ 8 + d := Bits.shiftLeft_or byteD c
  have middle : b <<< 16 ||| (c * 2 ^ 8 + d) = b * 2 ^ 16 + (c * 2 ^ 8 + d) :=
    Bits.shiftLeft_or (by omega) b
  have high : a <<< 24 ||| (b * 2 ^ 16 + (c * 2 ^ 8 + d)) =
      a * 2 ^ 24 + (b * 2 ^ 16 + (c * 2 ^ 8 + d)) := Bits.shiftLeft_or (by omega) a
  rw [Nat.or_assoc, Nat.or_assoc, low, middle, high, ← Nat.add_assoc, ← Nat.add_assoc]

/-- A digest of twenty bytes or more is truncated to 31 bits. -/
theorem truncated_eq {digest : Bytes} (long : 20 ≤ digest.length) : truncated digest =
    some ((digest.getD ((digest.getD (digest.length - 1) 0).toNat % 16) 0).toNat % 128 * 2 ^ 24 +
      (digest.getD ((digest.getD (digest.length - 1) 0).toNat % 16 + 1) 0).toNat * 2 ^ 16 +
      (digest.getD ((digest.getD (digest.length - 1) 0).toNat % 16 + 2) 0).toNat * 2 ^ 8 +
      (digest.getD ((digest.getD (digest.length - 1) 0).toNat % 16 + 3) 0).toNat) := by
  have last : digest.getLast? = some (digest.getD (digest.length - 1) 0) := by
    rw [List.getLast?_eq_getElem?, List.getElem?_eq_getElem (by omega),
      List.getD_eq_getElem _ _ (by omega)]
  have low : ((digest.getD (digest.length - 1) 0) &&& 0x0f).toNat =
      (digest.getD (digest.length - 1) 0).toNat % 16 := by
    rw [UInt8.toNat_and]
    exact Nat.and_two_pow_sub_one_eq_mod _ 4
  have inside : (digest.getD (digest.length - 1) 0).toNat % 16 < 16 := Nat.mod_lt _ (by norm_num)
  rw [truncated, last, Option.bind_eq_bind, Option.bind_some, low]
  generalize (digest.getD (digest.length - 1) 0).toNat % 16 = offset at inside ⊢
  have byte : ∀ i < digest.length, digest[i]? = some (digest.getD i 0) := by
    intro i low
    rw [List.getElem?_eq_getElem low, List.getD_eq_getElem _ _ low]
  have top : (digest.getD offset 0).toNat &&& 0x7f = (digest.getD offset 0).toNat % 128 :=
    Nat.and_two_pow_sub_one_eq_mod _ 7
  dsimp only
  rw [byte _ (by omega), byte _ (by omega), byte _ (by omega), byte _ (by omega)]
  simp only [Option.bind_some, Option.pure_def, top]
  rw [or_bytes _ (UInt8.toNat_lt _) (UInt8.toNat_lt _) (UInt8.toNat_lt _)]

/-- What the code needs of its HMAC. -/
def TotpEngine.Sized (e : TotpEngine) : Prop :=
  ∀ algo key msg, (e.hmac algo key msg).length = algo.outputSize

theorem TotpEngine.Sized.long {e : TotpEngine} (sized : e.Sized) (algo : TotpAlgo)
    (key msg : Bytes) : 20 ≤ (e.hmac algo key msg).length := by
  rw [sized]
  cases algo <;> decide

namespace TotpSecret

/-- The code in machine arithmetic is the code, unless it panics. -/
theorem codeAtMachine_eq {e : TotpEngine} (sized : e.Sized) (overflowChecks : Bool)
    (t : TotpSecret) (unix : Nat) : codeAtMachine overflowChecks e t unix =
      if codePanics overflowChecks t then none else some (t.codeAt e unix) := by
  by_cases zero : t.period = 0
  · have panics : codePanics overflowChecks t = true := by
      rw [codePanics, decide_eq_true zero, Bool.true_or, Bool.true_or]
    rw [if_pos panics, codeAtMachine, divide, if_pos zero]
    rfl
  · have digest := truncated_eq (sized.long t.algo t.raw (Api.toBeBytes (unix / t.period)))
    rw [codeAtMachine, divide, if_neg zero, Option.bind_eq_bind, Option.bind_some]
    dsimp only
    rw [digest, Option.bind_some, codePanics, decide_eq_false zero,
      Bool.false_or]
    by_cases fits : 10 ^ t.digits < 2 ^ 32
    · have positive : 10 ^ t.digits % 2 ^ 32 ≠ 0 := by
        rw [Nat.mod_eq_of_lt fits]
        exact (Nat.pow_pos (by norm_num)).ne'
      have nonzero : 10 ^ t.digits ≠ 0 := (Nat.pow_pos (by norm_num)).ne'
      rw [tenPow, if_pos fits, decide_eq_false (Nat.not_le.mpr fits), Bool.and_false, Bool.false_or,
        decide_eq_false positive, if_neg Bool.false_ne_true, Option.bind_some, remainder, if_neg nonzero, codeAt]
      dsimp only
      rw [Nat.mod_eq_of_lt fits]
      rfl
    · cases overflowChecks with
      | true =>
          rw [tenPow, if_neg fits, decide_eq_true (Nat.not_lt.mp fits), Bool.and_true,
            Bool.true_or, if_pos rfl, if_pos rfl]
          rfl
      | false =>
          rw [tenPow, if_neg fits, if_neg Bool.false_ne_true, Option.bind_some, Bool.false_and, Bool.false_or, remainder]
          by_cases wraps : 10 ^ t.digits % 2 ^ 32 = 0
          · rw [if_pos wraps, if_pos (decide_eq_true wraps)]
            rfl
          · rw [if_neg wraps, decide_eq_false wraps, if_neg Bool.false_ne_true]
            rfl

theorem ten_pow_lt_iff {d : Nat} : 10 ^ d < 2 ^ 32 ↔ d ≤ 9 := by
  constructor
  · intro fits
    by_contra large
    have power : 10 ^ 10 ≤ 10 ^ d := Nat.pow_le_pow_right (by norm_num) (by omega)
    have wide : 2 ^ 32 < 10 ^ 10 := by norm_num
    omega
  · intro small
    have power : 10 ^ d ≤ 10 ^ 9 := Nat.pow_le_pow_right (by norm_num) small
    have narrow : 10 ^ 9 < 2 ^ 32 := by norm_num
    omega

/-- With overflow checks the code panics just for a period of zero or more than nine digits. -/
theorem codePanics_iff {t : TotpSecret} :
    codePanics true t = false ↔ t.period ≠ 0 ∧ t.digits ≤ 9 := by
  rw [codePanics, Bool.true_and, Bool.or_eq_false_iff, Bool.or_eq_false_iff, decide_eq_false_iff_not,
    decide_eq_false_iff_not, decide_eq_false_iff_not, Nat.not_le, ten_pow_lt_iff]
  constructor
  · rintro ⟨⟨period, digits⟩, -⟩
    exact ⟨period, digits⟩
  · rintro ⟨period, digits⟩
    refine ⟨⟨period, digits⟩, ?_⟩
    rw [Nat.mod_eq_of_lt (ten_pow_lt_iff.mpr digits)]
    exact (Nat.pow_pos (by norm_num)).ne'

/-- The digits of a code. -/
theorem codeAt_digits (e : TotpEngine) {t : TotpSecret} (some_ : 0 < t.digits) (few : t.digits ≤ 9)
    (unix : Nat) : (t.codeAt e unix).toList.length = t.digits ∧
      ∀ c ∈ (t.codeAt e unix).toList, c.isDigit = true := by
  rw [codeAt]
  dsimp only
  rw [Nat.mod_eq_of_lt (ten_pow_lt_iff.mpr few)]
  exact padded_digits some_ (Nat.mod_lt _ (Nat.pow_pos (by norm_num)))

/-! ## What parses -/

theorem parseUnsigned_getD_lt {v : String} {bound default : Nat} (small : default < bound) :
    (queryParam.parseUnsigned v bound).getD default < bound := by
  cases read : queryParam.parseUnsigned v bound with
  | none => exact small
  | some n =>
      rw [queryParam.parseUnsigned, Option.filter_eq_some_iff] at read
      exact of_decide_eq_true read.2

/-- One parameter keeps the numbers in their types. -/
theorem queryParam_bounds {s s' : Option Bytes × TotpAlgo × Nat × Nat} {kv : String × String}
    (step : queryParam s kv = .ok s') (digits : s.2.2.1 < 2 ^ 8) (period : s.2.2.2 < 2 ^ 32) :
    s'.2.2.1 < 2 ^ 8 ∧ s'.2.2.2 < 2 ^ 32 := by
  obtain ⟨secret, algo, d, p⟩ := s
  unfold queryParam at step
  dsimp only at step
  split at step
  · obtain ⟨raw, -, same⟩ := bind_ok_iff.mp step
    cases same
    exact ⟨digits, period⟩
  · cases step
    exact ⟨digits, period⟩
  · cases step
    exact ⟨parseUnsigned_getD_lt (by norm_num), period⟩
  · cases step
    exact ⟨digits, parseUnsigned_getD_lt (by norm_num)⟩
  · cases step
    exact ⟨digits, period⟩

theorem foldlM_queryParam_bounds (pairs : List (String × String))
    {s s' : Option Bytes × TotpAlgo × Nat × Nat} (run : pairs.foldlM queryParam s = .ok s')
    (digits : s.2.2.1 < 2 ^ 8) (period : s.2.2.2 < 2 ^ 32) :
    s'.2.2.1 < 2 ^ 8 ∧ s'.2.2.2 < 2 ^ 32 := by
  induction pairs generalizing s with
  | nil =>
      cases run
      exact ⟨digits, period⟩
  | cons kv pairs ih =>
      rw [List.foldlM_cons] at run
      obtain ⟨next, step, rest⟩ := bind_ok_iff.mp run
      obtain ⟨digits', period'⟩ := queryParam_bounds step digits period
      exact ih rest digits' period'

/-- The digits of a parsed secret are a `u8`, its period is a `u32`. -/
theorem parse_bounds {e : TotpEngine} {input : String} {t : TotpSecret}
    (parsed : parse e input = .ok t) : t.digits < 2 ^ 8 ∧ t.period < 2 ^ 32 := by
  unfold parse at parsed
  split at parsed
  · obtain ⟨pairs, -, parsed⟩ := bind_ok_iff.mp parsed
    obtain ⟨⟨secret, algo, digits, period⟩, run, parsed⟩ := bind_ok_iff.mp parsed
    obtain ⟨raw, -, same⟩ := bind_ok_iff.mp parsed
    cases same
    exact foldlM_queryParam_bounds pairs run (by norm_num) (by norm_num)
  · obtain ⟨raw, -, same⟩ := bind_ok_iff.mp parsed
    cases same
    constructor <;> norm_num

/-! ## What can be used -/

theorem remainingMs_isSome {t : TotpSecret} (narrow : t.period < 2 ^ 32) (unixMs : Nat) :
    (remainingMs true t unixMs).isSome = true ↔ t.period ≠ 0 := by
  have fits : t.period * 1000 < 2 ^ 64 := by omega
  rw [remainingMs, mulU64, if_pos fits, Option.bind_eq_bind, Option.bind_some, remainder]
  by_cases zero : t.period = 0
  · rw [if_pos (by omega)]
    simp [zero]
  · rw [if_neg (by omega)]
    simp [zero]

end TotpSecret

theorem anyStep_isSome {matches_ : Int → Option Bool} {steps : List Int}
    (all : ∀ step ∈ steps, (matches_ step).isSome = true) :
    (anyStep matches_ steps).isSome = true := by
  induction steps with
  | nil => rfl
  | cons step steps ih =>
      obtain ⟨first, rest⟩ := List.forall_mem_cons.mp all
      obtain ⟨b, here⟩ := Option.isSome_iff_exists.mp first
      rw [anyStep, here, Option.bind_eq_bind, Option.bind_some]
      cases b with
      | true => rfl
      | false => exact ih rest

/-- If no step matches, the loop takes all of them. -/
theorem forall_of_anyStep {matches_ : Int → Option Bool} {steps : List Int}
    (never : ∀ step ∈ steps, matches_ step ≠ some true)
    (ends : (anyStep matches_ steps).isSome = true) :
    ∀ step ∈ steps, (matches_ step).isSome = true := by
  induction steps with
  | nil => exact List.forall_mem_nil _
  | cons step steps ih =>
      obtain ⟨first, rest⟩ := List.forall_mem_cons.mp never
      rw [anyStep] at ends
      cases here : matches_ step with
      | none =>
          rw [here] at ends
          cases ends
      | some b =>
          cases b with
          | true => exact absurd here first
          | false =>
              rw [here] at ends
              exact List.forall_mem_cons.mpr ⟨congrArg Option.isSome here, ih rest ends⟩

/-- The times at which no step of a period leaves an `i64`. -/
def StepsFit (period unix : Nat) : Prop := unix + period < 2 ^ 63 ∨ 2 ^ 63 + period ≤ unix

theorem isI64_steps {period unix : Nat} (narrow : period < 2 ^ 32) (time : unix < 2 ^ 64) :
    (∀ step ∈ [-1, 0, 1], IsI64 (Int.bmod unix (2 ^ 64) + step * (period : Int))) ↔
      StepsFit period unix := by
  have cast : Int.bmod unix (2 ^ 64) = if unix < 2 ^ 63 then (unix : Int) else unix - 2 ^ 64 := by
    rw [Int.bmod_def]
    split <;> split <;> omega
  rw [List.forall_mem_cons, List.forall_mem_cons, List.forall_mem_singleton, cast]
  unfold IsI64 StepsFit
  split <;> omega

/-- A secret can be used at a time: nothing panics or overflows, and the code has its digits. -/
structure Usable (e : TotpEngine) (t : TotpSecret) (unix unixMs : Nat) : Prop where
  code : ∃ code, t.codeAtMachine true e unix = some code ∧ code.toList.length = t.digits ∧
    ∀ c ∈ code.toList, c.isDigit = true
  remaining : (t.remainingMs true unixMs).isSome = true
  verify : ∀ code, (t.verifyAtMachine true e code unix).isSome = true

section Use

variable {e : TotpEngine} {t : TotpSecret} {unix unixMs : Nat}

theorem addI64_isSome {a b : Int} : (addI64 true a b).isSome = true ↔ IsI64 (a + b) := by
  rw [addI64]
  by_cases fits : IsI64 (a + b)
  · rw [if_pos fits]
    simp [fits]
  · rw [if_neg fits, if_pos rfl]
    simp [fits]

/-- Verifying panics for no code just if no step leaves an `i64`, where codes do not panic. -/
theorem verifyAtMachine_isSome (sized : e.Sized) (codes : t.codePanics true = false)
    (narrow : t.period < 2 ^ 32) (time : unix < 2 ^ 64) :
    (∀ code, (t.verifyAtMachine true e code unix).isSome = true) ↔ StepsFit t.period unix := by
  have candidates : ∀ n, t.codeAtMachine true e n = some (t.codeAt e n) := by
    intro n
    rw [TotpSecret.codeAtMachine_eq sized, codes, if_neg Bool.false_ne_true]
  rw [← isI64_steps narrow time]
  constructor
  · intro all
    have ends := all ""
    rw [TotpSecret.verifyAtMachine] at ends
    refine fun step mem => addI64_isSome.mp ?_
    -- no candidate is the empty code
    have taken := forall_of_anyStep (fun step _ matched => ?_) ends step mem
    · cases sum : addI64 true (Int.bmod unix (2 ^ 64)) (step * (t.period : Int)) with
      | none =>
          rw [sum] at taken
          cases taken
      | some time => rfl
    · obtain ⟨time, -, matched⟩ := Option.bind_eq_some_iff.mp matched
      rw [candidates] at matched
      have same := Api.utf8_injective (ctEq_iff.mp (Option.some.inj matched))
      have empty : Api.trim "" = "" := rfl
      rw [empty] at same
      exact padded_ne_empty _ _ (congrArg String.toList same)
  · intro fits code
    rw [TotpSecret.verifyAtMachine]
    refine anyStep_isSome fun step mem => ?_
    obtain ⟨time, sum⟩ := Option.isSome_iff_exists.mp (addI64_isSome.mpr (fits step mem))
    rw [sum, Option.bind_eq_bind, Option.bind_some, candidates]
    rfl

/-- A secret that parses can be used at a time just if it has a period, one to nine digits, and no
step of its period leaves an `i64` there. -/
theorem totp_usable_iff (sized : e.Sized) {input : String}
    (parsed : TotpSecret.parse e input = .ok t) (time : unix < 2 ^ 64) :
    Usable e t unix unixMs ↔
      1 ≤ t.period ∧ 1 ≤ t.digits ∧ t.digits ≤ 9 ∧
        (unix + t.period < 2 ^ 63 ∨ 2 ^ 63 + t.period ≤ unix) := by
  obtain ⟨-, narrow⟩ := TotpSecret.parse_bounds parsed
  constructor
  · rintro ⟨⟨code, made, length, -⟩, -, verify⟩
    have codes : t.codePanics true = false := by
      rw [TotpSecret.codeAtMachine_eq sized] at made
      cases panics : t.codePanics true with
      | false => rfl
      | true =>
          rw [panics] at made
          cases made
    rw [TotpSecret.codeAtMachine_eq sized, codes, if_neg Bool.false_ne_true] at made
    obtain ⟨period, few⟩ := TotpSecret.codePanics_iff.mp codes
    have some_ : t.digits ≠ 0 := by
      intro none_
      rw [none_, ← Option.some.inj made] at length
      exact padded_ne_empty _ _ (List.eq_nil_of_length_eq_zero length)
    exact ⟨Nat.one_le_iff_ne_zero.mpr period, Nat.one_le_iff_ne_zero.mpr some_, few,
      (verifyAtMachine_isSome sized codes narrow time).mp verify⟩
  · rintro ⟨period, some_, few, fits⟩
    have nonzero : t.period ≠ 0 := Nat.one_le_iff_ne_zero.mp period
    have codes := TotpSecret.codePanics_iff.mpr ⟨nonzero, few⟩
    obtain ⟨length, digits⟩ := TotpSecret.codeAt_digits e some_ few unix
    refine ⟨⟨t.codeAt e unix, ?_, length, digits⟩,
      (TotpSecret.remainingMs_isSome narrow unixMs).mpr nonzero,
      (verifyAtMachine_isSome sized codes narrow time).mpr fits⟩
    rw [TotpSecret.codeAtMachine_eq sized, codes, if_neg Bool.false_ne_true]

end Use

/-- `12345678901234567890` in base 32. -/
def rfcSecret : String := "GEZDGNBVGY3TQOJQGEZDGNBVGY3TQOJQ"

/-- The HMAC of that secret for the counter 1; elsewhere zeros. -/
def rfcEngine : TotpEngine where
  hmac algo key msg :=
    if algo = .sha1 ∧ key = Api.utf8 "12345678901234567890" ∧ msg = [0, 0, 0, 0, 0, 0, 0, 1] then
      [0x75, 0xa4, 0x8a, 0x19, 0xd4, 0xcb, 0xe1, 0x00, 0x64, 0x4e, 0x8a, 0xc1, 0x39, 0x7e, 0xea,
       0x74, 0x7a, 0x2d, 0x33, 0xab]
    else List.replicate algo.outputSize 0
  queryPairs uri :=
    if uri = "otpauth://totp/x?secret=JBSWY3DPEHPK3PXP&period=0" then
      some [("secret", "JBSWY3DPEHPK3PXP"), ("period", "0")]
    else none

theorem sized_rfcEngine : rfcEngine.Sized := by
  intro algo key msg
  rw [rfcEngine]
  dsimp only
  split
  · rename_i recorded
    rw [recorded.1]
    rfl
  · exact List.length_replicate

/-- The secret of the test vectors can be used in its 59th second. -/
theorem totp_usable_rfc : Usable rfcEngine
    ⟨Api.utf8 "12345678901234567890", .sha1, 6, 30⟩ 59 59000 :=
  (totp_usable_iff sized_rfcEngine (show TotpSecret.parse rfcEngine rfcSecret = _ by
    decide +kernel) (by norm_num)).mpr ⟨by norm_num, by norm_num, by norm_num, by norm_num⟩

/-- A period of zero parses, and then the code and the time left are divisions by zero. -/
theorem periodZero_unusable :
    TotpSecret.parse rfcEngine "otpauth://totp/x?secret=JBSWY3DPEHPK3PXP&period=0" =
        .ok ⟨[72, 101, 108, 108, 111, 33, 222, 173, 190, 239], .sha1, 6, 0⟩ ∧
      TotpSecret.codeAtMachine true rfcEngine
        ⟨[72, 101, 108, 108, 111, 33, 222, 173, 190, 239], .sha1, 6, 0⟩ 59 = none ∧
      TotpSecret.remainingMs true
        ⟨[72, 101, 108, 108, 111, 33, 222, 173, 190, 239], .sha1, 6, 0⟩ 59000 = none ∧
      ¬ Usable rfcEngine ⟨[72, 101, 108, 108, 111, 33, 222, 173, 190, 239], .sha1, 6, 0⟩ 59
        59000 := by
  refine ⟨by decide +kernel, rfl, rfl, ?_⟩
  rintro ⟨⟨code, made, -⟩, -, -⟩
  cases made

end Sentinel.Vault
