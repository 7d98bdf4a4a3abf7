import Sentinel.Lib.Bits
import Sentinel.Vault.Bundle

/-!
# Recovery codes

`crates/core/src/recovery_kit/mod.rs`: a key of 128 bits as 30 characters of Crockford's base 32,
which a person types from a printed page. The first is the version, the next 26 carry two zero bits
and the key, the last three a checksum of 15 bits, the front of `SHA-256("SNTL-RK-v1" | key)`.

`decode` is total on texts: it reads the characters by position only after `normalize` has counted
them, and every index it takes is checked here (`Checked`).
-/

namespace Sentinel.Vault

open Wire

/-- What SHA-256 gives. -/
structure Digest32 where
  bytes : Bytes
  length : bytes.length = 32
  deriving DecidableEq, Repr

/-- `RecoveryKey`. -/
@[ext] structure RecoveryKey where
  bytes : Bytes
  length : bytes.length = 16
  deriving Repr

instance decidableEqRecoveryKey : DecidableEq RecoveryKey := fun _ _ =>
  decidable_of_iff _ RecoveryKey.ext_iff.symm

/-- `CoreError`, on the variants of recovery codes. -/
inductive RecoveryError where
  | invalid (message : String)
  | invalidRecoveryKey
  deriving DecidableEq, Repr

/-- `u128::from_be_bytes`. -/
def fromBeBytes (b : Bytes) : Nat := leNat b.reverse

/-- `to_be_bytes` of a `u128`. -/
def toBeBytes16 (n : Nat) : Bytes := (leBytes 16 n).reverse

theorem length_toBeBytes16 (n : Nat) : (toBeBytes16 n).length = 16 := by
  rw [toBeBytes16, List.length_reverse, length_leBytes]

theorem fromBeBytes_toBeBytes16 {n : Nat} (small : n < 2 ^ 128) :
    fromBeBytes (toBeBytes16 n) = n := by
  rw [fromBeBytes, toBeBytes16, List.reverse_reverse, leNat_leBytes]
  exact Nat.mod_eq_of_lt small

theorem toBeBytes16_fromBeBytes {b : Bytes} (sixteen : b.length = 16) :
    toBeBytes16 (fromBeBytes b) = b := by
  have back := leBytes_leNat b.reverse
  rw [List.length_reverse, sixteen] at back
  rw [toBeBytes16, fromBeBytes, back, List.reverse_reverse]

theorem fromBeBytes_lt {b : Bytes} (sixteen : b.length = 16) : fromBeBytes b < 2 ^ 128 := by
  have same := leNat_leBytes 16 (leNat b.reverse)
  have back := leBytes_leNat b.reverse
  rw [List.length_reverse, sixteen] at back
  rw [back] at same
  rw [fromBeBytes, same]
  exact Nat.mod_lt _ (by norm_num)

namespace RecoveryKit

/-- `CROCKFORD`. -/
def crockford : List Char := "0123456789ABCDEFGHJKMNPQRSTVWXYZ".toList

/-- `VERSION_CHAR`. -/
def versionChar : Char := 'A'

/-- `CHECKSUM_DOMAIN`, `b"SNTL-RK-v1"`. -/
def checksumDomain : Bytes := [0x53, 0x4e, 0x54, 0x4c, 0x2d, 0x52, 0x4b, 0x2d, 0x76, 0x31]

section Hash

variable (sha256 : Bytes → Digest32)

/-- `checksum15`: all of byte 0 and the top seven bits of byte 1. -/
def checksum15 (key : Bytes) : Nat :=
  let d := sha256 (checksumDomain ++ key)
  ((d.bytes.getD 0 0).toNat <<< 7 ||| (d.bytes.getD 1 0).toNat >>> 1) &&& 0x7FFF

/-- `bits_to_chars`. -/
def bitsToChars (bits : List Nat) : List Char :=
  (Bits.chunks 5 bits).map fun c => crockford.getD (Bits.toNat c) '0'

/-- The 30 characters that `encode` groups. -/
def data (rk : RecoveryKey) : List Char :=
  let key := fromBeBytes rk.bytes
  let payloadBits := Bits.ofNat 0 2 ++ Bits.ofNat key 128
  let payload := bitsToChars payloadBits
  let csBits := Bits.ofNat (checksum15 sha256 rk.bytes) 15
  let checksum := bitsToChars csBits
  versionChar :: payload ++ checksum

/-- `group`: the prefix and the groups of five. -/
def group (data : List Char) : String :=
  String.ofList ("SNTL-".toList ++ (['-'] : List Char).intercalate (Bits.chunks 5 data))

/-- `encode`. -/
def encode (rk : RecoveryKey) : String := group (data sha256 rk)

/-- The characters that `normalize` drops. -/
def isSeparator (c : Char) : Bool := c == '-' || c == ' ' || c == '\t' || c == '\n' || c == '\r'

/-- The fold of `normalize`. -/
def foldGlyph (c : Char) : Char :=
  if c = 'I' ∨ c = 'L' then '1' else if c = 'O' then '0' else c

/-- `strip_prefix("SNTL")`, and the whole without it. -/
def stripPrefix : List Char → List Char
  | 'S' :: 'N' :: 'T' :: 'L' :: rest => rest
  | cleaned => cleaned

/-- The data characters of an input: without separators and prefix, upper case, glyphs folded. -/
def normalForm (input : String) : List Char :=
  (stripPrefix ((input.toList.filter fun c => !isSeparator c).map Char.toUpper)).map foldGlyph

/-- `normalize`. -/
def normalize (input : String) : Checked RecoveryError (List Char) :=
  let out := normalForm input
  if out.length ≠ 30 then
    .err (.invalid s!"recovery key must be 30 characters, got {out.length}")
  else .ok out

/-- `char_to_val`. -/
def charToVal (c : Char) : Checked RecoveryError Nat :=
  Checked.ofOption (.invalid s!"invalid recovery character: {c}") (crockford.idxOf? c)

/-- The loops over the characters, which stop at the first that is none of the alphabet. -/
def charsToVals : List Char → Checked RecoveryError (List Nat)
  | [] => .ok []
  | c :: cs => do
      let v ← charToVal c
      let vs ← charsToVals cs
      pure (v :: vs)

/-- `decode`. -/
def decode (display : String) : Checked RecoveryError RecoveryKey := do
  let chars ← normalize display
  let version ← Checked.slice chars 0 1
  Checked.require (version == [versionChar]) .invalidRecoveryKey
  let vals ← charsToVals (← Checked.slice chars 1 26)
  let bits := Bits.spread 5 vals
  -- the first two bits are padding
  let pad ← Checked.slice bits 0 2
  Checked.require (pad == [0, 0]) .invalidRecoveryKey
  let keyBits ← Checked.slice bits 2 128
  let keyBytes := toBeBytes16 (Bits.toNat keyBits)
  let csVals ← charsToVals (← Checked.slice chars 27 3)
  let cs := csVals.foldl (fun cs v => cs <<< 5 ||| v) 0
  Checked.require (cs == checksum15 sha256 keyBytes) .invalidRecoveryKey
  pure ⟨keyBytes, length_toBeBytes16 _⟩

end Hash

/-! ## Characters and values -/

/-- The character of a value. -/
def digit (v : Nat) : Char := crockford.getD v '0'

theorem charToVal_cases (c : Char) : (∃ v, charToVal c = .ok v ∧ v < 32 ∧ digit v = c) ∨
    ∃ e, charToVal c = .err e ∧ ∀ v < 32, digit v ≠ c := by
  rw [charToVal]
  cases found : crockford.idxOf? c with
  | none =>
      refine .inr ⟨_, rfl, fun v small same => ?_⟩
      have inside : v < crockford.length := small
      rw [digit, List.getD_eq_getElem _ _ inside] at same
      exact List.idxOf?_eq_none_iff.mp found (same ▸ List.getElem_mem inside)
  | some v =>
      obtain ⟨inside, same, -⟩ := List.idxOf?_eq_some_iff.mp found
      refine .inl ⟨v, rfl, inside, ?_⟩
      rw [digit, List.getD_eq_getElem _ _ inside]
      exact same

theorem digit_injOn {v w : Nat} (smallV : v < 32) (smallW : w < 32) (same : digit v = digit w) :
    v = w := by
  have distinct : crockford.Nodup := by decide
  have insideV : v < crockford.length := smallV
  have insideW : w < crockford.length := smallW
  rw [digit, digit, List.getD_eq_getElem _ _ insideV, List.getD_eq_getElem _ _ insideW] at same
  exact (distinct.getElem_inj_iff).mp same

/-- All entries are values of characters. -/
def Small (vs : List Nat) : Prop := ∀ v ∈ vs, v < 2 ^ 5

theorem map_digit_injOn {vs ws : List Nat} (smallV : Small vs) (smallW : Small ws)
    (same : vs.map digit = ws.map digit) : vs = ws := by
  induction vs generalizing ws with
  | nil => exact (List.map_eq_nil_iff.mp same.symm).symm
  | cons v vs ih =>
      cases ws with
      | nil => cases same
      | cons w ws =>
          obtain ⟨first, rest⟩ := List.cons.inj same
          obtain ⟨headV, tailV⟩ := List.forall_mem_cons.mp smallV
          obtain ⟨headW, tailW⟩ := List.forall_mem_cons.mp smallW
          rw [digit_injOn headV headW first, ih tailV tailW rest]

/-- The loop gives the values of the characters, or one of them has none. -/
theorem charsToVals_cases (cs : List Char) :
    (∃ vs, charsToVals cs = .ok vs ∧ Small vs ∧ vs.map digit = cs) ∨
      ∃ e, charsToVals cs = .err e ∧ ∀ vs, Small vs → vs.map digit ≠ cs := by
  induction cs with
  | nil => exact .inl ⟨[], rfl, List.forall_mem_nil _, rfl⟩
  | cons c cs ih =>
      obtain ⟨v, read, small, rfl⟩ | ⟨e, unread, none_⟩ := charToVal_cases c
      · obtain ⟨vs, reads, smalls, rfl⟩ | ⟨e, unread, none_⟩ := ih
        · refine .inl ⟨v :: vs, ?_, List.forall_mem_cons.mpr ⟨small, smalls⟩, rfl⟩
          rw [charsToVals, read, reads]
          rfl
        · refine .inr ⟨e, ?_, fun vs smalls same => ?_⟩
          · rw [charsToVals, read, unread]
            rfl
          · cases vs with
            | nil => cases same
            | cons w ws =>
                exact none_ ws (List.forall_mem_cons.mp smalls).2 (List.cons.inj same).2
      · refine .inr ⟨e, ?_, fun vs smalls same => ?_⟩
        · rw [charsToVals, unread]
          rfl
        · cases vs with
          | nil => cases same
          | cons w ws =>
              exact none_ w (List.forall_mem_cons.mp smalls).1 (List.cons.inj same).1

theorem bitsToChars_eq (bits : List Nat) : bitsToChars bits = (Bits.symbols 5 bits).map digit := by
  rw [Bits.symbols, List.map_map]
  rfl

/-! ## The two parts of a code -/

/-- The bits of the payload. -/
def payloadBits (rk : RecoveryKey) : List Nat :=
  Bits.ofNat 0 2 ++ Bits.ofNat (fromBeBytes rk.bytes) 128

theorem length_payloadBits (rk : RecoveryKey) : (payloadBits rk).length = 26 * 5 := by
  rw [payloadBits, List.length_append, Bits.length_ofNat, Bits.length_ofNat]

theorem isBits_payloadBits (rk : RecoveryKey) : Bits.IsBits (payloadBits rk) :=
  Bits.isBits_append.mpr ⟨Bits.isBits_ofNat _ _, Bits.isBits_ofNat _ _⟩

/-- The values are those of a key's payload just if the padding is zero and the rest is the key. -/
theorem payload_iff {vs : List Nat} (small : Small vs) (length : vs.length = 26)
    (rk : RecoveryKey) : vs = Bits.symbols 5 (payloadBits rk) ↔
      (Bits.spread 5 vs).take 2 = [0, 0] ∧
        toBeBytes16 (Bits.toNat ((Bits.spread 5 vs).drop 2)) = rk.bytes := by
  have zeros : Bits.ofNat 0 2 = [0, 0] := rfl
  have cut : (payloadBits rk).take 2 = [0, 0] ∧
      (payloadBits rk).drop 2 = Bits.ofNat (fromBeBytes rk.bytes) 128 := by
    rw [payloadBits, zeros]
    exact ⟨rfl, rfl⟩
  constructor
  · rintro rfl
    rw [Bits.spread_symbols (by norm_num) (isBits_payloadBits rk) 26 (length_payloadBits rk),
      cut.1, cut.2, Bits.toNat_ofNat, Nat.mod_eq_of_lt (fromBeBytes_lt rk.length)]
    exact ⟨rfl, toBeBytes16_fromBeBytes rk.length⟩
  · rintro ⟨pad, key⟩
    have all := Bits.isBits_spread 5 vs
    have whole := Bits.length_spread 5 vs
    have restLength : ((Bits.spread 5 vs).drop 2).length = 128 := by
      rw [List.length_drop, whole, length]
    have restBits : Bits.IsBits ((Bits.spread 5 vs).drop 2) :=
      fun b mem => all b (List.mem_of_mem_drop mem)
    have low := Bits.toNat_lt restBits
    rw [restLength] at low
    have back := Bits.ofNat_toNat restBits
    rw [restLength] at back
    have number : fromBeBytes rk.bytes = Bits.toNat ((Bits.spread 5 vs).drop 2) := by
      rw [← key, fromBeBytes_toBeBytes16 low]
    have same : payloadBits rk = Bits.spread 5 vs := by
      rw [payloadBits, zeros, number, back, ← pad, List.take_append_drop]
    rw [same, Bits.symbols_spread (by norm_num) small]

/-- The values are those of a number of 15 bits just if they are read as it. -/
theorem checksum_iff {ws : List Nat} (small : Small ws) (length : ws.length = 3) {n : Nat}
    (low : n < 2 ^ 15) : ws = Bits.symbols 5 (Bits.ofNat n 15) ↔
      ws.foldl (fun cs v => cs <<< 5 ||| v) 0 = n := by
  rw [Bits.foldl_symbols small, zero_mul, zero_add]
  constructor
  · rintro rfl
    rw [Bits.spread_symbols (by norm_num) (Bits.isBits_ofNat _ _) 3 (Bits.length_ofNat _ _),
      Bits.toNat_ofNat, Nat.mod_eq_of_lt low]
  · intro read
    have back := Bits.ofNat_toNat (Bits.isBits_spread 5 ws)
    rw [Bits.length_spread, length, read] at back
    rw [back, Bits.symbols_spread (by norm_num) small]

/-! ## Decoding -/

section Decode

variable (sha256 : Bytes → Digest32)

theorem checksum15_lt (key : Bytes) : checksum15 sha256 key < 2 ^ 15 := by
  have masked : checksum15 sha256 key ≤ 0x7FFF := Nat.and_le_right
  exact Nat.lt_succ_of_le masked

theorem data_eq (rk : RecoveryKey) : data sha256 rk = versionChar ::
    ((Bits.symbols 5 (payloadBits rk)).map digit ++
      (Bits.symbols 5 (Bits.ofNat (checksum15 sha256 rk.bytes) 15)).map digit) := by
  rw [← bitsToChars_eq, ← bitsToChars_eq]
  rfl

theorem small_payload (rk : RecoveryKey) : Small (Bits.symbols 5 (payloadBits rk)) :=
  Bits.symbols_lt (by norm_num) (isBits_payloadBits rk) 26 (length_payloadBits rk)

theorem small_checksum (n : Nat) : Small (Bits.symbols 5 (Bits.ofNat n 15)) :=
  Bits.symbols_lt (by norm_num) (Bits.isBits_ofNat _ _) 3 (Bits.length_ofNat _ _)

theorem length_payload (rk : RecoveryKey) :
    ((Bits.symbols 5 (payloadBits rk)).map digit).length = 26 := by
  rw [List.length_map, Bits.length_symbols (by norm_num) (isBits_payloadBits rk) 26
    (length_payloadBits rk)]

theorem length_checksum (n : Nat) : ((Bits.symbols 5 (Bits.ofNat n 15)).map digit).length = 3 := by
  rw [List.length_map, Bits.length_symbols (by norm_num) (Bits.isBits_ofNat _ _) 3
    (Bits.length_ofNat _ _)]

theorem length_data (rk : RecoveryKey) : (data sha256 rk).length = 30 := by
  rw [data_eq, List.length_cons, List.length_append, length_payload, length_checksum]

/-- A text of 30 characters is the data of a key just if its three parts are. -/
theorem eq_data_iff {t : List Char} (length : t.length = 30) (rk : RecoveryKey) :
    t = data sha256 rk ↔ t.take 1 = [versionChar] ∧
      (t.drop 1).take 26 = (Bits.symbols 5 (payloadBits rk)).map digit ∧
        (t.drop 27).take 3 =
          (Bits.symbols 5 (Bits.ofNat (checksum15 sha256 rk.bytes) 15)).map digit := by
  have tail : (t.drop 27).take 3 = (t.drop 1).drop 26 := by
    rw [List.take_of_length_le (by rw [List.length_drop]; omega), List.drop_drop]
  rw [data_eq]
  constructor
  · intro same
    rw [tail, same]
    exact ⟨rfl, List.take_left' (length_payload rk), List.drop_left' (length_payload rk)⟩
  · rintro ⟨version, payload, checksum⟩
    rw [← List.take_append_drop 1 t, ← List.take_append_drop 26 (t.drop 1), ← tail, version,
      payload, checksum]
    rfl

/-- What `decode` gives: the key whose data characters the input normalises to, or an error where
there is none. -/
theorem decode_cases (s : String) :
    (∃ rk, decode sha256 s = .ok rk ∧ normalForm s = data sha256 rk) ∨
      ∃ e, decode sha256 s = .err e ∧ ∀ rk, normalForm s ≠ data sha256 rk := by
  rw [decode, normalize]
  generalize normalForm s = t
  by_cases length : t.length = 30
  · have first : t.take 1 = (t.drop 0).take 1 := rfl
    rw [if_neg (not_not.mpr length), Checked.ok_bind,
      Checked.slice_eq (show 0 + 1 ≤ t.length by omega),
      Checked.slice_eq (show 1 + 26 ≤ t.length by omega),
      Checked.slice_eq (show 27 + 3 ≤ t.length by omega), ← first]
    simp only [Checked.ok_bind, ne_eq, eq_data_iff sha256 length]
    by_cases version : t.take 1 = [versionChar]
    · rw [beq_iff_eq.mpr version, Checked.require_true, Checked.ok_bind]
      obtain ⟨vs, reads, small, chars⟩ | ⟨e, unread, none_⟩ :=
        charsToVals_cases ((t.drop 1).take 26)
      · have count : vs.length = 26 := by
          have same := congrArg List.length chars
          rw [List.length_map, List.length_take, List.length_drop] at same
          omega
        have bits := Bits.length_spread 5 vs
        rw [reads, Checked.ok_bind, Checked.slice_eq (show 0 + 2 ≤ _ by omega),
          Checked.slice_eq (show 2 + 128 ≤ _ by omega), List.drop_zero,
          List.take_of_length_le (show ((Bits.spread 5 vs).drop 2).length ≤ 128 by
            rw [List.length_drop]; omega)]
        simp only [Checked.ok_bind]
        by_cases pad : (Bits.spread 5 vs).take 2 = [0, 0]
        · rw [beq_iff_eq.mpr pad, Checked.require_true, Checked.ok_bind]
          obtain ⟨ws, reads', small', chars'⟩ | ⟨e, unread, none_⟩ :=
            charsToVals_cases ((t.drop 27).take 3)
          · have count' : ws.length = 3 := by
              have same := congrArg List.length chars'
              rw [List.length_map, List.length_take, List.length_drop] at same
              omega
            rw [reads', Checked.ok_bind]
            let rk : RecoveryKey :=
              ⟨toBeBytes16 (Bits.toNat ((Bits.spread 5 vs).drop 2)), length_toBeBytes16 _⟩
            by_cases check : ws.foldl (fun cs v => cs <<< 5 ||| v) 0 = checksum15 sha256 rk.bytes
            · refine .inl ⟨rk, ?_, version, ?_, ?_⟩
              · rw [beq_iff_eq.mpr check]
                rfl
              · rw [← chars, ← (payload_iff small count rk).mpr ⟨pad, rfl⟩]
              · rw [← chars', ← (checksum_iff small' count' (checksum15_lt sha256 _)).mpr check]
            · refine .inr ⟨.invalidRecoveryKey, ?_, fun rk' same => check ?_⟩
              · rw [beq_eq_false_iff_ne.mpr check]
                rfl
              · have values := map_digit_injOn small (small_payload rk') (chars.trans same.2.1)
                have key := ((payload_iff small count rk').mp values).2
                have values' := map_digit_injOn small' (small_checksum _) (chars'.trans same.2.2)
                have read := (checksum_iff small' count' (checksum15_lt sha256 _)).mp values'
                exact read.trans (congrArg (checksum15 sha256) key.symm)
          · refine .inr ⟨e, ?_, fun rk same => none_ _ ?_ same.2.2.symm⟩
            · rw [unread, Checked.err_bind]
            · exact small_checksum _
        · refine .inr ⟨.invalidRecoveryKey, ?_, fun rk same => ?_⟩
          · rw [beq_eq_false_iff_ne.mpr pad, Checked.require_false, Checked.err_bind]
          · have values := map_digit_injOn small (small_payload rk) (chars.trans same.2.1)
            exact pad ((payload_iff small count rk).mp values).1
      · refine .inr ⟨e, ?_, fun rk same => none_ _ ?_ same.2.1.symm⟩
        · rw [unread, Checked.err_bind]
        · exact small_payload rk
    · refine .inr ⟨.invalidRecoveryKey, ?_, fun rk same => version same.1⟩
      rw [beq_eq_false_iff_ne.mpr version, Checked.require_false, Checked.err_bind]
  · refine .inr ⟨.invalid s!"recovery key must be 30 characters, got {t.length}", ?_,
      fun rk same => length (same ▸ length_data sha256 rk)⟩
    rw [if_pos length, Checked.err_bind]

theorem decode_eq_ok {s : String} {rk : RecoveryKey} :
    decode sha256 s = .ok rk ↔ normalForm s = data sha256 rk := by
  obtain ⟨rk', read, same⟩ | ⟨e, unread, none_⟩ := decode_cases sha256 s
  · rw [read, same, Checked.ok.injEq]
    constructor
    · rintro rfl
      rfl
    · intro datas
      have length := length_data sha256 rk'
      obtain ⟨-, payload, -⟩ := (eq_data_iff sha256 length rk).mp datas
      obtain ⟨-, payload', -⟩ := (eq_data_iff sha256 length rk').mp rfl
      have values := map_digit_injOn (small_payload rk') (small_payload rk)
        (payload'.symm.trans payload)
      have count : (Bits.symbols 5 (payloadBits rk')).length = 26 := by
        rw [← length_payload rk', List.length_map]
      have mine := ((payload_iff (small_payload rk') count rk').mp rfl).2
      have other := ((payload_iff (small_payload rk') count rk).mp values).2
      exact RecoveryKey.ext (mine.symm.trans other)
  · rw [unread]
    constructor
    · intro opens
      cases opens
    · intro same
      exact absurd same (none_ rk)

/-! ## Encoding -/

theorem digit_mem (v : Nat) : digit v ∈ crockford := by
  rw [digit, List.getD_eq_getElem?_getD]
  cases found : crockford[v]? with
  | none => decide
  | some c => exact List.mem_of_getElem? found

theorem mem_crockford_of_mem_data {rk : RecoveryKey} {c : Char} (mem : c ∈ data sha256 rk) :
    c ∈ crockford := by
  rw [data_eq, List.mem_cons, List.mem_append, List.mem_map, List.mem_map] at mem
  obtain rfl | ⟨v, -, rfl⟩ | ⟨v, -, rfl⟩ := mem
  · decide
  · exact digit_mem v
  · exact digit_mem v

/-- No character of the alphabet is changed by the normalisation. -/
theorem crockford_plain {c : Char} (mem : c ∈ crockford) :
    isSeparator c = false ∧ c.toUpper = c ∧ foldGlyph c = c := by
  have all : (crockford.all fun c => !isSeparator c && decide (c.toUpper = c) &&
      decide (foldGlyph c = c)) = true := by decide +kernel
  have plain := List.all_eq_true.mp all c mem
  simp only [Bool.and_eq_true, Bool.not_eq_true', decide_eq_true_eq] at plain
  exact ⟨plain.1.1, plain.1.2, plain.2⟩

/-- Dropping the separators joins the groups again. -/
theorem filter_intercalate (groups : List (List Char))
    (plain : ∀ g ∈ groups, ∀ c ∈ g, isSeparator c = false) :
    ((['-'] : List Char).intercalate groups).filter (fun c => !isSeparator c) =
      groups.flatten := by
  have keep : ∀ g ∈ groups, g.filter (fun c => !isSeparator c) = g := by
    intro g mem
    refine List.filter_eq_self.mpr fun c inside => ?_
    rw [plain g mem c inside, Bool.not_false]
  induction groups with
  | nil => rfl
  | cons g groups ih =>
      obtain ⟨first, rest⟩ := List.forall_mem_cons.mp keep
      cases groups with
      | nil =>
          change (g ++ []).filter _ = g ++ []
          rw [List.append_nil, first]
      | cons h groups =>
          have tail := ih (List.forall_mem_cons.mp plain).2 rest
          change (g ++ ('-' :: (['-'] : List Char).intercalate (h :: groups))).filter _ = _
          rw [List.filter_append, first, List.flatten_cons, ← tail]
          rfl

theorem map_eq_self {f : Char → Char} {cs : List Char} (same : ∀ c ∈ cs, f c = c) :
    cs.map f = cs := (List.map_congr_left same).trans (List.map_id cs)

theorem stripPrefix_append (rest : List Char) :
    stripPrefix (['S', 'N', 'T', 'L'] ++ rest) = rest := by
  rw [List.cons_append, List.cons_append, List.cons_append, List.cons_append, List.nil_append,
    stripPrefix]

/-- The display form of a key normalises to its data characters. -/
theorem normalForm_encode (rk : RecoveryKey) :
    normalForm (encode sha256 rk) = data sha256 rk := by
  have plain : ∀ c ∈ data sha256 rk, isSeparator c = false ∧ c.toUpper = c ∧ foldGlyph c = c :=
    fun c mem => crockford_plain (mem_crockford_of_mem_data sha256 mem)
  obtain ⟨groups, whole, widths⟩ := Bits.exists_pieces 5 6 (length_data sha256 rk)
  have dropped : ((['-'] : List Char).intercalate (Bits.chunks 5 (data sha256 rk))).filter
      (fun c => !isSeparator c) = data sha256 rk := by
    rw [← whole, Bits.chunks_flatten (by norm_num) widths, filter_intercalate]
    intro g mem c inside
    exact (plain c (whole ▸ List.mem_flatten.mpr ⟨g, mem, inside⟩)).1
  have front : ("SNTL-".toList.filter fun c => !isSeparator c) = ['S', 'N', 'T', 'L'] := by
    rw [String.toList_ofList]
    rfl
  have upper : (['S', 'N', 'T', 'L'] : List Char).map Char.toUpper = ['S', 'N', 'T', 'L'] := by
    decide
  have uppers : (data sha256 rk).map Char.toUpper = data sha256 rk :=
    map_eq_self fun c mem => (plain c mem).2.1
  have cleaned : ((encode sha256 rk).toList.filter fun c => !isSeparator c) =
      ['S', 'N', 'T', 'L'] ++ data sha256 rk := by
    unfold encode group
    rw [String.toList_ofList, List.filter_append, dropped, front]
  unfold normalForm
  rw [cleaned, List.map_append, upper, uppers, stripPrefix_append]
  exact map_eq_self fun c mem => (plain c mem).2.2

/-- The second character of a code is one of the first eight: its two high bits are padding. -/
theorem second_lt {rk : RecoveryKey} {v : Nat} (small : v < 32)
    (second : (data sha256 rk)[1]? = some (digit v)) : v < 8 := by
  have count : (Bits.symbols 5 (payloadBits rk)).length = 26 := by
    rw [← length_payload rk, List.length_map]
  obtain ⟨pad, -⟩ := (payload_iff (small_payload rk) count rk).mp rfl
  have smalls := small_payload rk
  rw [data_eq, List.getElem?_cons_succ] at second
  cases vs : Bits.symbols 5 (payloadBits rk) with
  | nil =>
      rw [vs] at count
      cases count
  | cons w ws =>
      rw [vs] at second pad smalls
      have head : w < 32 := (List.forall_mem_cons.mp smalls).1
      obtain rfl := digit_injOn head small (Option.some.inj second)
      have bits : (Bits.spread 5 (w :: ws)).take 2 = [w / 16 % 2, w / 8 % 2] := by
        rw [Bits.spread_cons, Bits.ofNat_succ, Bits.ofNat_succ]
        rfl
      rw [bits, List.cons.injEq, List.cons.injEq] at pad
      omega

/-- Recovery codes decode exactly: `decode` undoes `encode`, accepts just the texts whose normal
form is the data of a key, and never fails a bounds check. -/
theorem recovery_codes :
    (∀ rk, decode sha256 (encode sha256 rk) = .ok rk) ∧
    (∀ s rk, decode sha256 s = .ok rk ↔ normalForm s = data sha256 rk) ∧
    (∀ rk, (data sha256 rk).length = 30 ∧ normalForm (encode sha256 rk) = data sha256 rk) ∧
    (∀ rk rk', data sha256 rk = data sha256 rk' → rk = rk') ∧
    (∀ rk rk', encode sha256 rk = encode sha256 rk' → rk = rk') ∧
    (∀ s, (normalForm s).length ≠ 30 ∨ (normalForm s).head? ≠ some versionChar ∨
      (∃ v, 8 ≤ v ∧ v < 32 ∧ (normalForm s)[1]? = some (digit v)) →
        ∃ e, decode sha256 s = .err e) ∧
    ∀ s, decode sha256 s ≠ .trap := by
  have read : ∀ rk, decode sha256 (encode sha256 rk) = .ok rk :=
    fun rk => (decode_eq_ok sha256).mpr (normalForm_encode sha256 rk)
  refine ⟨read, fun s rk => decode_eq_ok sha256,
    fun rk => ⟨length_data sha256 rk, normalForm_encode sha256 rk⟩, ?_, ?_, ?_, ?_⟩
  · intro rk rk' same
    have both := (decode_eq_ok sha256).mpr ((normalForm_encode sha256 rk).trans same)
    rw [read rk, Checked.ok.injEq] at both
    exact both
  · intro rk rk' same
    have both := read rk'
    rw [← same, read rk, Checked.ok.injEq] at both
    exact both
  · intro s bad
    obtain ⟨rk, -, same⟩ | ⟨e, unread, -⟩ := decode_cases sha256 s
    · rw [same] at bad
      obtain length | version | ⟨v, high, small, second⟩ := bad
      · exact absurd (length_data sha256 rk) length
      · exact absurd (by rw [data_eq, List.head?_cons]) version
      · exact absurd (second_lt sha256 small second) (Nat.not_lt.mpr high)
    · exact ⟨e, unread⟩
  · intro s trapped
    obtain ⟨rk, read', -⟩ | ⟨e, unread, -⟩ := decode_cases sha256 s
    · rw [read'] at trapped
      cases trapped
    · rw [unread] at trapped
      cases trapped

end Decode

end RecoveryKit

end Sentinel.Vault
