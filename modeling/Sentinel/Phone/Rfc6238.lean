import Sentinel.Vault.TotpMachine

/-!
# Three implementations of one-time codes

The core has `totp.rs`, the server `auth.rs`, the phone `Rfc6238.swift`. With one HMAC under all
three they give the same six digits at every time, and the core and the server accept the same
codes, as long as the next step is still an `i64`.
-/

namespace Sentinel.Api

open Vault

/-- `auth::totp_verify` in machine arithmetic. -/
def totpVerifyMachine (overflowChecks : Bool) (env : Env) (secret : Bytes) (code : String)
    (unix : Int) : Option Bool :=
  let code := trim code
  anyStep (fun step => do
    let time ← addI64 overflowChecks unix (step * 30)
    pure (constantTimeEq (utf8 (totpCode env secret time)) (utf8 code))) [-1, 0, 1]

end Sentinel.Api

namespace Sentinel.Phone

open Vault

namespace Rfc6238

/-- The loop that writes the counter, most significant byte first. -/
def counterBytes (counter : Nat) : Bytes :=
  ((List.range 8).reverse.foldl (fun (bytes, counter) i =>
    (bytes.set i (UInt8.ofNat (counter &&& 0xff)), counter >>> 8))
      (List.replicate 8 0, counter)).1

/-- `UInt32(pow(10.0, Double(digits)))`. -/
def tenTo (digits : Int) : Option Nat :=
  if digits < 0 then some 0 else tenPow true digits.toNat

/-- `Rfc6238.code`; the time is its seconds since 1970, `none` is a trap. -/
def code (hmac : TotpAlgo → Bytes → Bytes → Bytes) (secret : Bytes) (algo : TotpAlgo)
    (digits period : Int) (seconds : ℚ) : Option String := do
  -- `UInt64` of a `Double` and of an `Int`
  if ¬ (-1 < seconds ∧ seconds < 2 ^ 64) then none
  if period < 0 then none
  let counter ← divide ⌊seconds⌋.toNat period.toNat
  let digest := hmac algo secret (counterBytes counter)
  let bin ← truncated digest
  let mod ← tenTo digits
  pure (TotpSecret.padded digits.toNat (← remainder bin mod))

theorem counterBytes_eq (counter : Nat) : counterBytes counter = Api.toBeBytes counter := by
  have byte : ∀ n, UInt8.ofNat (n &&& 0xff) = UInt8.ofNat n := by
    intro n
    have low : n &&& 0xff = n % 256 := Nat.and_two_pow_sub_one_eq_mod n 8
    rw [low]
    exact UInt8.ofNat_mod_size
  simp only [counterBytes, Api.toBeBytes, List.range, List.range.loop, List.reverse_cons,
    List.reverse_nil, List.nil_append, List.cons_append, List.foldl_cons, List.foldl_nil, byte,
    List.replicate, List.set, List.map_cons, List.map_nil, Nat.shiftRight_eq_div_pow,
    Nat.div_div_eq_div_mul]
  norm_num

end Rfc6238

/-- The parameters of an enrolled authenticator: SHA-1, six digits, thirty seconds. -/
def standard (secret : Bytes) : TotpSecret := ⟨secret, .sha1, 6, 30⟩

theorem standard_codes (overflowChecks : Bool) (secret : Bytes) :
    (standard secret).codePanics overflowChecks = false := by
  cases overflowChecks <;> rfl

section Agreement

variable {e : TotpEngine} {env : Api.Env} {secret : Bytes}

theorem core_code (sized : e.Sized) (overflowChecks : Bool) (secret : Bytes) (t : Nat) :
    (standard secret).codeAtMachine overflowChecks e t = some ((standard secret).codeAt e t) := by
  rw [TotpSecret.codeAtMachine_eq sized, standard_codes, if_neg Bool.false_ne_true]

/-- Six digits are padded to the same text. -/
theorem sixDigits_eq (n : Nat) : Api.sixDigits n = TotpSecret.padded 6 n := by
  rw [Api.sixDigits, TotpSecret.padded, Nat.toList_repr]

/-- The server's code is the core's. -/
theorem server_code (common : ∀ key msg, env.hmacSha1 key msg = e.hmac .sha1 key msg) {t : Nat}
    (small : t < 2 ^ 64) : Api.totpCode env secret t = (standard secret).codeAt e t := by
  have counter : (((t : Int).tdiv 30) % 2 ^ 64).toNat = t / 30 := by
    rw [Int.tdiv_eq_ediv_of_nonneg (by omega)]
    omega
  have modulus : 10 ^ (standard secret).digits % 2 ^ 32 = 1000000 := rfl
  rw [Api.totpCode, counter, TotpSecret.codeAt]
  dsimp only
  rw [common, modulus, sixDigits_eq]
  rfl

/-- The phone's code is the core's, at every moment of the second. -/
theorem phone_code (sized : e.Sized) (secret : Bytes) {t : Nat} (small : t < 2 ^ 64) {seconds : ℚ}
    (second : ⌊seconds⌋ = t) :
    Rfc6238.code e.hmac secret .sha1 6 30 seconds = some ((standard secret).codeAt e t) := by
  obtain ⟨low, high⟩ := Int.floor_eq_iff.mp second
  have nonneg : (0 : ℚ) ≤ seconds := le_trans (by positivity) low
  have below : seconds < 2 ^ 64 := by
    have next : ((t : Int) : ℚ) + 1 ≤ 2 ^ 64 := by exact_mod_cast small
    exact high.trans_le next
  have inside : ¬ ¬ (-1 < seconds ∧ seconds < 2 ^ 64) :=
    not_not.mpr ⟨lt_of_lt_of_le (by norm_num) nonneg, below⟩
  have digest := truncated_eq (sized.long .sha1 secret (Api.toBeBytes (t / 30)))
  rw [Rfc6238.code, if_neg inside, if_neg (by norm_num), second, Int.toNat_natCast]
  change (divide t 30 >>= _) = _
  rw [divide, if_neg (by norm_num), Option.bind_eq_bind, Option.bind_some, Rfc6238.counterBytes_eq]
  dsimp only
  rw [digest]
  rfl

theorem anyStep_congr {f g : Int → Option Bool} {steps : List Int}
    (same : ∀ step ∈ steps, f step = g step) : anyStep f steps = anyStep g steps := by
  induction steps with
  | nil => rfl
  | cons step steps ih =>
      obtain ⟨here, rest⟩ := List.forall_mem_cons.mp same
      rw [anyStep, anyStep, here, ih rest]

theorem anyStep_some (matches_ : Int → Bool) (steps : List Int) :
    anyStep (fun step => some (matches_ step)) steps = some (steps.any matches_) := by
  induction steps with
  | nil => rfl
  | cons step steps ih =>
      rw [anyStep, Option.bind_eq_bind, Option.bind_some, List.any_cons]
      cases matches_ step with
      | true => rfl
      | false => exact ih

/-- Comparing with the codes of the three steps around a time. -/
theorem steps_any {codes : Int → String} {code : String} {t : Int} :
    [-1, 0, 1].any (fun step =>
        Api.constantTimeEq (Api.utf8 (codes (t + step * 30))) (Api.utf8 code)) =
      decide (code ∈ [codes (t - 30), codes t, codes (t + 30)]) := by
  have same : ∀ a : String, Api.constantTimeEq (Api.utf8 a) (Api.utf8 code) = decide (code = a) := by
    intro a
    rw [Bool.eq_iff_iff, decide_eq_true_iff, eq_comm (a := code)]
    exact ctEq_iff.trans ⟨fun h => Api.utf8_injective h, congrArg _⟩
  have before : t + -1 * 30 = t - 30 := by omega
  have now : t + 0 * 30 = t := by omega
  have after : t + 1 * 30 = t + 30 := by omega
  rw [Bool.eq_iff_iff, decide_eq_true_iff]
  simp only [List.any_cons, List.any_nil, Bool.or_false, Bool.or_eq_true, same, before, now, after,
    decide_eq_true_iff, List.mem_cons, List.not_mem_nil, or_false]

/-- Where no step leaves an `i64`, the server accepts the codes of the three steps. -/
theorem server_verify (overflowChecks : Bool) (env : Api.Env) (secret : Bytes) (code : String)
    {t : Nat} (next : t + 30 < 2 ^ 63) : Api.totpVerifyMachine overflowChecks env secret code t =
      some (decide (Api.trim code ∈ [Api.totpCode env secret (t - 30 : Int),
        Api.totpCode env secret t, Api.totpCode env secret (t + 30 : Int)])) := by
  have times : ∀ step ∈ [-1, 0, 1], addI64 overflowChecks t (step * 30) =
      some ((t : Int) + step * 30) := by
    intro step mem
    have fits : IsI64 ((t : Int) + step * 30) := by
      unfold IsI64
      simp only [List.mem_cons, List.not_mem_nil, or_false] at mem
      omega
    rw [addI64, if_pos fits]
  rw [← steps_any, ← anyStep_some, Api.totpVerifyMachine]
  refine anyStep_congr fun step mem => ?_
  rw [times step mem]
  rfl

/-- And so does the core, from its thirtieth second on. -/
theorem core_verify (sized : e.Sized)
    (common : ∀ key msg, env.hmacSha1 key msg = e.hmac .sha1 key msg) (overflowChecks : Bool)
    (secret : Bytes) (code : String) {t : Nat} (late : 30 ≤ t) (next : t + 30 < 2 ^ 63) :
    (standard secret).verifyAtMachine overflowChecks e code t =
      some (decide (Api.trim code ∈ [Api.totpCode env secret (t - 30 : Int),
        Api.totpCode env secret t, Api.totpCode env secret (t + 30 : Int)])) := by
  have cast : Int.bmod t (2 ^ 64) = t := by
    rw [Int.bmod_def]
    split <;> omega
  have candidates : ∀ step ∈ [-1, 0, 1], (do
      let time ← addI64 overflowChecks (t : Int) (step * 30)
      (standard secret).codeAtMachine overflowChecks e (max time 0).toNat) =
        some (Api.totpCode env secret ((t : Int) + step * 30)) := by
    intro step mem
    simp only [List.mem_cons, List.not_mem_nil, or_false] at mem
    have fits : IsI64 ((t : Int) + step * 30) := by
      unfold IsI64
      omega
    obtain ⟨n, time⟩ := Int.eq_ofNat_of_zero_le (a := (t : Int) + step * 30) (by omega)
    have clamped : max ((n : Int)) 0 = n := by omega
    rw [addI64, if_pos fits, time, Option.bind_eq_bind, Option.bind_some, clamped,
      Int.toNat_natCast, core_code sized, server_code common (by omega)]
  rw [← steps_any, ← anyStep_some, TotpSecret.verifyAtMachine]
  refine anyStep_congr fun step mem => ?_
  have candidate := candidates step mem
  rw [cast]
  cases sum : addI64 overflowChecks (t : Int) (step * 30) with
  | none =>
      rw [sum] at candidate
      cases candidate
  | some time =>
      rw [sum, Option.bind_eq_bind, Option.bind_some] at candidate
      have period : ((standard secret).period : Int) = 30 := rfl
      rw [period, sum, Option.bind_eq_bind, Option.bind_some, candidate]
      rfl

/-- One secret gives the same six digits in the core, on the server and on the phone. As long as
the next step is an `i64`, the core and the server accept the codes of the three steps around the
time, and no others. -/
theorem totp_agree (sized : e.Sized)
    (common : ∀ key msg, env.hmacSha1 key msg = e.hmac .sha1 key msg) (overflowChecks : Bool)
    (secret : Bytes) {t : Nat} (late : 30 ≤ t) (time : t < 2 ^ 63) :
    ((standard secret).codeAtMachine overflowChecks e t = some (Api.totpCode env secret t) ∧
      (∀ seconds : ℚ, ⌊seconds⌋ = t →
        Rfc6238.code e.hmac secret .sha1 6 30 seconds = some (Api.totpCode env secret t)) ∧
      (Api.totpCode env secret t).toList.length = 6 ∧
      ∀ c ∈ (Api.totpCode env secret t).toList, c.isDigit = true) ∧
    (t + 30 < 2 ^ 63 → ∀ code,
      (standard secret).verifyAtMachine overflowChecks e code t =
        some (decide (Api.trim code ∈ [Api.totpCode env secret (t - 30 : Int),
          Api.totpCode env secret t, Api.totpCode env secret (t + 30 : Int)])) ∧
      Api.totpVerifyMachine overflowChecks env secret code t =
        some (decide (Api.trim code ∈ [Api.totpCode env secret (t - 30 : Int),
          Api.totpCode env secret t, Api.totpCode env secret (t + 30 : Int)]))) := by
  have server : Api.totpCode env secret t = (standard secret).codeAt e t :=
    server_code common (by omega)
  refine ⟨?_, fun next code => ⟨core_verify sized common overflowChecks secret code late next,
    server_verify overflowChecks env secret code next⟩⟩
  rw [server]
  refine ⟨core_code sized overflowChecks secret t, fun seconds second => ?_,
    TotpSecret.codeAt_digits e (show 0 < 6 by decide) (show 6 ≤ 9 by decide) t⟩
  exact phone_code sized secret (by omega) second

end Agreement

/-- The HMAC of `12345678901234567890` for the counters of two minutes. -/
def recordedDigests : List (Bytes × Bytes) :=
  [([0, 0, 0, 0, 0, 0, 0, 0],
    [0xcc, 0x93, 0xcf, 0x18, 0x50, 0x8d, 0x94, 0x93, 0x4c, 0x64, 0xb6, 0x5d, 0x8b, 0xa7, 0x66, 0x7f,
     0xb7, 0xcd, 0xe4, 0xb0]),
   ([0, 0, 0, 0, 0, 0, 0, 1],
    [0x75, 0xa4, 0x8a, 0x19, 0xd4, 0xcb, 0xe1, 0x00, 0x64, 0x4e, 0x8a, 0xc1, 0x39, 0x7e, 0xea, 0x74,
     0x7a, 0x2d, 0x33, 0xab]),
   ([0, 0, 0, 0, 0, 0, 0, 2],
    [0x0b, 0xac, 0xb7, 0xfa, 0x08, 0x2f, 0xef, 0x30, 0x78, 0x22, 0x11, 0x93, 0x8b, 0xc1, 0xc5, 0xe7,
     0x04, 0x16, 0xff, 0x44]),
   ([4, 68, 68, 68, 68, 68, 68, 67],
    [0x06, 0x70, 0xd6, 0xb3, 0xc1, 0x35, 0xc2, 0xba, 0xc9, 0x60, 0x70, 0xcf, 0x5a, 0x96, 0xa5, 0x01,
     0xbe, 0xc3, 0xe9, 0x31]),
   ([4, 68, 68, 68, 68, 68, 68, 68],
    [0xe8, 0xc0, 0xea, 0xf4, 0x76, 0x87, 0x26, 0xa6, 0x97, 0x5e, 0x5e, 0x89, 0x85, 0xaa, 0xaa, 0x29,
     0x6e, 0x76, 0x2b, 0xb6]),
   ([251, 187, 187, 187, 187, 187, 187, 189],
    [0xf5, 0x8a, 0xc0, 0x2d, 0x37, 0x32, 0x70, 0x75, 0x46, 0x7b, 0x8e, 0x94, 0x76, 0xa0, 0xdc, 0x57,
     0x55, 0xd9, 0x85, 0x57])]

/-- The recorded digests; zeros elsewhere. -/
def recordedHmac (key msg : Bytes) : Bytes :=
  if key = Api.utf8 "12345678901234567890" then
    (recordedDigests.lookup msg).getD (List.replicate 20 0)
  else List.replicate 20 0

def recordedEngine : TotpEngine where
  hmac algo key msg :=
    if algo = .sha1 then recordedHmac key msg else List.replicate algo.outputSize 0
  queryPairs _ := none

def recordedEnv : Api.Env := { Api.Env.bare with hmacSha1 := recordedHmac }

theorem sized_recordedEngine : recordedEngine.Sized := by
  intro algo key msg
  rw [recordedEngine]
  dsimp only
  by_cases sha1 : algo = .sha1
  · rw [if_pos sha1, sha1, recordedHmac]
    by_cases own : key = Api.utf8 "12345678901234567890"
    · rw [if_pos own]
      cases found : recordedDigests.lookup msg with
      | none => rfl
      | some digest =>
          have lengths : ∀ entry ∈ recordedDigests, entry.2.length = 20 := by decide
          obtain ⟨before, after, entries, -⟩ := List.lookup_eq_some_iff.mp found
          have mem : (msg, digest) ∈ recordedDigests := by
            rw [entries]
            exact List.mem_append_right _ List.mem_cons_self
          exact lengths _ mem
    · rw [if_neg own]
      rfl
  · rw [if_neg sha1, List.length_replicate]

/-- In the 59th second the three agree, and the codes of the first three steps are accepted. -/
theorem totp_agree_59 :
    Api.totpCode recordedEnv (Api.utf8 "12345678901234567890") 59 = "287082" ∧
      Rfc6238.code recordedEngine.hmac (Api.utf8 "12345678901234567890") .sha1 6 30 (119 / 2) =
        some "287082" ∧
      (standard (Api.utf8 "12345678901234567890")).verifyAtMachine false recordedEngine
        " 755224" 59 = some true := by
  have common : ∀ key msg, recordedEnv.hmacSha1 key msg = recordedEngine.hmac .sha1 key msg :=
    fun key msg => rfl
  obtain ⟨⟨-, phone, -⟩, verify⟩ := totp_agree sized_recordedEngine common false (Api.utf8 "12345678901234567890")
    (show 30 ≤ 59 by norm_num) (by norm_num)
  have code : Api.totpCode recordedEnv (Api.utf8 "12345678901234567890") 59 = "287082" := by
    decide +kernel
  refine ⟨code, ?_, ?_⟩
  · rw [phone (119 / 2) (by norm_num)]
    exact congrArg some code
  · rw [(verify (by norm_num) " 755224").1]
    decide +kernel

/-- At the last second of an `i64` a release build wraps: the core takes the next step for the
first of all and accepts its code, which is the code of no step there, and the server does not. -/
theorem totp_lastSecond :
    (standard (Api.utf8 "12345678901234567890")).verifyAtMachine false recordedEngine "755224"
        (2 ^ 63 - 1) = some true ∧
      Api.totpVerifyMachine false recordedEnv (Api.utf8 "12345678901234567890") "755224"
        (2 ^ 63 - 1) = some false := by
  constructor <;> decide +kernel

end Sentinel.Phone
