import Sentinel.Lib.Codec
import Sentinel.Lib.Utf8
import Sentinel.Vpn.CloudInit

/-!
# The provisioning callback

`crates/core/src/provision/callback.rs`, and the `callback.py` a fresh node runs, from the template
in `cloudinit.rs`. The node answers with its public key, its address and a MAC of the two put
together without a delimiter; `verify_callback` computes the MAC again.

The MAC is ideal in `Ideal`: a right tag was computed by the node. `CallbackSound` is what the
caller relies on, and `callbackSound_iff` says when it holds.
-/

namespace Sentinel.Vpn

open Wire

/-- `callback::CallbackBody`. -/
structure CallbackBody where
  pubkey : String
  ip : String
  mac : String
  deriving DecidableEq, Repr

def hexAlphabet : List Char := "0123456789abcdef".toList

/-- `format!("{b:02x}")`. -/
def hexByte (b : UInt8) : List Char :=
  [hexAlphabet.getD (b.toNat / 16) '0', hexAlphabet.getD (b.toNat % 16) '0']

def hexEncode (bytes : List UInt8) : String := String.ofList (bytes.flatMap hexByte)

/-- The value of an ASCII digit in base sixteen. -/
def hexValue (b : UInt8) : Option Nat :=
  if 0x30 ≤ b ∧ b ≤ 0x39 then some (b.toNat - 0x30)
  else if 0x61 ≤ b ∧ b ≤ 0x66 then some (b.toNat - 0x61 + 10)
  else if 0x41 ≤ b ∧ b ≤ 0x46 then some (b.toNat - 0x41 + 10)
  else none

/-- `u8::from_str_radix` in base sixteen, which takes a plus sign before the digits. -/
def fromStrRadix16 (src : List UInt8) : Option UInt8 := do
  let digits ← match src with
    | [] => none
    | [0x2b] => none
    | 0x2b :: digits => some digits
    | digits => some digits
  let n ← digits.foldlM (fun n b => do
    let d ← hexValue b
    if 16 * n + d < 256 then some (16 * n + d) else none) 0
  pure (UInt8.ofNat n)

/-- `str::is_char_boundary`. -/
def isCharBoundary (b : List UInt8) (i : Nat) : Bool :=
  if i = 0 then true
  else match b[i]? with
    | some x => decide (x &&& 0xc0 ≠ 0x80)
    | none => decide (i = b.length)

def badHex : CoreError := .provision "callback" "bad hex"

/-- One pair of `hex_decode`; a slice that cuts a character panics. -/
def hexPair (b : List UInt8) (i : Nat) : Checked CoreError UInt8 :=
  if isCharBoundary b i && isCharBoundary b (i + 2) then
    .ofOption badHex (fromStrRadix16 ((b.drop i).take 2))
  else .trap

/-- The results for the indices below `n`, up to the first that is none. -/
def collect {ε α : Type} (f : Nat → Checked ε α) : Nat → Checked ε (List α)
  | 0 => .ok []
  | n + 1 => do
      let xs ← collect f n
      let x ← f n
      pure (xs ++ [x])

def hexDecode (s : String) : Checked CoreError (List UInt8) :=
  let b := utf8 s
  if b.length % 2 ≠ 0 then .err (.provision "callback" "odd hex length")
  else collect (fun k => hexPair b (2 * k)) (b.length / 2)

section Mac

variable (hmac : List UInt8 → List UInt8 → List UInt8)

/-- `verify_callback`; an HMAC takes a key of any length. -/
def verifyCallback (body : CallbackBody) (hmacKeyHex : String) : Checked CoreError String := do
  let key ← hexDecode hmacKeyHex
  let expected := hmac key (utf8 body.pubkey ++ utf8 body.ip)
  let got ← hexDecode body.mac
  if got.length ≠ expected.length ∨ got ≠ expected then
    .err (.provision "callback" "pubkey HMAC mismatch (possible MITM)")
  else .ok body.pubkey

def computeMac (pubkey ip hmacKeyHex : String) : Checked CoreError String := do
  let key ← hexDecode hmacKeyHex
  pure (hexEncode (hmac key (utf8 pubkey ++ utf8 ip)))

/-- What `do_GET` of `callback.py` answers to the bearer of the token. -/
def callbackReply (key : List UInt8) (p i : String) : CallbackBody :=
  { pubkey := p, ip := i, mac := hexEncode (hmac key (utf8 (p ++ i))) }

end Mac

/-! ## Collecting -/

section Collect

variable {ε α : Type} {f : Nat → Checked ε α}

theorem collect_isOk {n : Nat} :
    (∃ xs, collect f n = .ok xs) ↔ ∀ k < n, ∃ x, f k = .ok x := by
  induction n with
  | zero => exact iff_of_true ⟨[], rfl⟩ fun k below => absurd below (Nat.not_lt_zero k)
  | succ n ih =>
      constructor
      · rintro ⟨xs, all⟩ k below
        obtain ⟨init, first, rest⟩ := Checked.bind_eq_ok.mp all
        obtain ⟨x, last, -⟩ := Checked.bind_eq_ok.mp rest
        obtain before | rfl := Nat.lt_succ_iff_lt_or_eq.mp below
        · exact ih.mp ⟨init, first⟩ k before
        · exact ⟨x, last⟩
      · intro each
        obtain ⟨init, first⟩ := ih.mpr fun k below => each k (Nat.lt_succ_of_lt below)
        obtain ⟨x, last⟩ := each n (Nat.lt_succ_self n)
        refine ⟨init ++ [x], ?_⟩
        rw [collect, first, Checked.ok_bind, last]
        rfl

/-- Collecting panics just where an index does before which none fails. -/
theorem collect_ne_trap {n : Nat} : collect f n ≠ .trap ↔
    ∀ k < n, (∀ j < k, ∃ x, f j = .ok x) → f k ≠ .trap := by
  induction n with
  | zero =>
      exact iff_of_true (fun trapped => by cases trapped) fun k below => absurd below (Nat.not_lt_zero k)
  | succ n ih =>
      constructor
      · intro total k below before trapped
        obtain earlier | rfl := Nat.lt_succ_iff_lt_or_eq.mp below
        · refine ih.mp (fun first => total ?_) k earlier before trapped
          rw [collect, first]
          rfl
        · obtain ⟨init, first⟩ := collect_isOk.mpr before
          refine total ?_
          rw [collect, first, Checked.ok_bind, trapped]
          rfl
      · intro each
        rw [collect]
        cases first : collect f n with
        | ok init =>
            rw [Checked.ok_bind]
            refine Checked.bind_ne_trap ?_ fun x trapped => by cases trapped
            exact each n (Nat.lt_succ_self n) (collect_isOk.mp ⟨init, first⟩)
        | err e =>
            intro trapped
            cases trapped
        | trap =>
            refine absurd first (ih.mpr fun k below => ?_)
            exact each k (Nat.lt_succ_of_lt below)

theorem collect_of_getElem {xs : List α}
    (each : ∀ k (inside : k < xs.length), f k = .ok xs[k]) : collect f xs.length = .ok xs := by
  induction xs using List.reverseRecOn with
  | nil => rfl
  | append_singleton xs x ih =>
      have first : collect f xs.length = .ok xs := by
        refine ih fun k inside => ?_
        rw [each k (by rw [List.length_append]; omega), List.getElem_append_left inside]
      have last : f xs.length = .ok x := by
        rw [each xs.length (by rw [List.length_append, List.length_singleton]; omega),
          List.getElem_concat_length rfl]
      rw [List.length_append, List.length_singleton, collect, first, Checked.ok_bind, last]
      rfl

end Collect

/-! ## Digits -/

/-- A digit of the alphabet has its index as value, and is one byte. -/
theorem hexValue_alphabet {n : Nat} (small : n < 16) :
    ∃ b, String.utf8EncodeChar (hexAlphabet.getD n '0') = [b] ∧ hexValue b = some n := by
  have digits : ∀ n < 16, hexValue ((String.utf8EncodeChar (hexAlphabet.getD n '0')).headD 0) =
      some n ∧ (String.utf8EncodeChar (hexAlphabet.getD n '0')).length = 1 := by decide
  obtain ⟨value, single⟩ := digits n small
  obtain ⟨b, encoded⟩ := List.length_eq_one_iff.mp single
  rw [encoded] at value
  exact ⟨b, encoded, value⟩

theorem hexValue_lt {b : UInt8} {n : Nat} (value : hexValue b = some n) : n < 16 := by
  unfold hexValue at value
  split at value
  · rename_i range
    obtain ⟨-, high⟩ := range
    cases value
    have := UInt8.le_iff_toNat_le.mp high
    change b.toNat ≤ 57 at this
    change b.toNat - 48 < 16
    omega
  · split at value
    · rename_i range
      obtain ⟨-, high⟩ := range
      cases value
      have := UInt8.le_iff_toNat_le.mp high
      change b.toNat ≤ 102 at this
      change b.toNat - 97 + 10 < 16
      omega
    · split at value
      · rename_i range
        obtain ⟨-, high⟩ := range
        cases value
        have := UInt8.le_iff_toNat_le.mp high
        change b.toNat ≤ 70 at this
        change b.toNat - 65 + 10 < 16
        omega
      · cases value

/-- A digit after a number below sixteen does not overflow. -/
theorem digit_step (n : Nat) (small : n < 16) (b : UInt8) :
    ((hexValue b).bind fun d => if 16 * n + d < 256 then some (16 * n + d) else none) =
      (hexValue b).map fun d => 16 * n + d := by
  cases value : hexValue b with
  | none => rfl
  | some d =>
      have below := hexValue_lt value
      rw [Option.bind_some, if_pos (by omega), Option.map_some]

/-- Two bytes are read as two digits, or as a plus sign and a digit. -/
theorem fromStrRadix16_pair (x y : UInt8) : fromStrRadix16 [x, y] =
    if x = 0x2b then (hexValue y).map UInt8.ofNat
    else (hexValue x).bind fun h => (hexValue y).map fun l => UInt8.ofNat (16 * h + l) := by
  by_cases plus : x = 0x2b
  · subst plus
    rw [if_pos rfl, fromStrRadix16]
    · dsimp only [Option.bind_eq_bind, Option.bind_some]
      rw [List.foldlM_cons, Option.bind_eq_bind, digit_step 0 (by norm_num)]
      cases hexValue y with
      | none => rfl
      | some l =>
          simp only [Option.map_some, Option.bind_some, List.foldlM_nil, Option.pure_def,
            Nat.mul_zero, Nat.zero_add]
    · exact List.cons_ne_nil y []
  · rw [if_neg plus, fromStrRadix16]
    · dsimp only [Option.bind_eq_bind, Option.bind_some]
      rw [List.foldlM_cons, Option.bind_eq_bind, digit_step 0 (by norm_num)]
      cases high : hexValue x with
      | none => rfl
      | some h =>
          simp only [Option.map_some, Option.bind_some, Nat.mul_zero, Nat.zero_add]
          rw [List.foldlM_cons, Option.bind_eq_bind, digit_step h (hexValue_lt high)]
          cases hexValue y with
          | none => rfl
          | some l => rfl
    · exact List.cons_ne_nil x [y]
    · exact fun same => plus (List.cons.inj same).1
    · exact fun digits same => plus (List.cons.inj same).1

/-- A byte that is a digit. -/
def IsHexByte (b : UInt8) : Prop := (hexValue b).isSome = true

instance (b : UInt8) : Decidable (IsHexByte b) :=
  inferInstanceAs (Decidable ((hexValue b).isSome = true))

/-- A pair that reads is a pair of digits, but for the sign. -/
theorem fromStrRadix16_isSome {x y : UInt8} : (fromStrRadix16 [x, y]).isSome = true ↔
    (x = 0x2b ∨ IsHexByte x) ∧ IsHexByte y := by
  rw [fromStrRadix16_pair]
  unfold IsHexByte
  by_cases plus : x = 0x2b
  · rw [if_pos plus, Option.isSome_map]
    exact (and_iff_right (.inl plus)).symm
  · rw [if_neg plus, or_iff_right plus]
    cases hexValue x with
    | none => simp
    | some h => rw [Option.bind_some, Option.isSome_map, and_iff_right (Option.isSome_some)]

/-- A byte is read back from its two digits. -/
theorem hexByte_pair (b : UInt8) : ∃ x y, (hexByte b).flatMap String.utf8EncodeChar = [x, y] ∧
    (IsHexByte x ∧ IsHexByte y) ∧ fromStrRadix16 [x, y] = some b := by
  have byte := UInt8.toNat_lt b
  obtain ⟨x, first, high⟩ := hexValue_alphabet (show b.toNat / 16 < 16 by omega)
  obtain ⟨y, second, low⟩ := hexValue_alphabet (show b.toNat % 16 < 16 by omega)
  have digit : x ≠ 0x2b := by
    rintro rfl
    cases high
  have whole : 16 * (b.toNat / 16) + b.toNat % 16 = b.toNat := by omega
  refine ⟨x, y, ?_, ⟨Option.isSome_of_eq_some high, Option.isSome_of_eq_some low⟩, ?_⟩
  · rw [hexByte, List.flatMap_cons, List.flatMap_singleton, first, second]
    rfl
  · rw [fromStrRadix16_pair, if_neg digit, high, low, Option.bind_some, Option.map_some, whole,
      UInt8.ofNat_toNat]

/-! ## Strings -/

/-- A string of hexadecimal digits of even length. -/
def IsHex (s : String) : Prop :=
  s.toList.length % 2 = 0 ∧ ∀ c ∈ s.toList, c ∈ "0123456789abcdefABCDEF".toList

/-- The bytes that are digits are the bytes of the digits. -/
theorem isHexByte_char {b : UInt8} (hex : IsHexByte b) :
    b.toNat < 128 ∧ Char.ofNat b.toNat ∈ "0123456789abcdefABCDEF".toList := by
  have table : ∀ n < 256, IsHexByte (UInt8.ofNat n) →
      n < 128 ∧ Char.ofNat n ∈ "0123456789abcdefABCDEF".toList := by decide +kernel
  refine table b.toNat (UInt8.toNat_lt b) ?_
  rw [UInt8.ofNat_toNat]
  exact hex

/-- And the digits have one byte each, which is a digit. -/
theorem digit_encode {c : Char} (digit : c ∈ "0123456789abcdefABCDEF".toList) :
    (String.utf8EncodeChar c).length = 1 ∧ ∀ b ∈ String.utf8EncodeChar c, IsHexByte b := by
  have table : ("0123456789abcdefABCDEF".toList.all fun c =>
      decide (c.utf8Size = 1 ∧ IsHexByte c.val.toUInt8)) = true := by decide +kernel
  obtain ⟨short, hex⟩ := of_decide_eq_true (List.all_eq_true.mp table c digit)
  rw [String.utf8EncodeChar_eq_singleton short]
  exact ⟨rfl, List.forall_mem_singleton.mpr hex⟩

/-- A character is a digit just if its bytes are. -/
theorem isHexByte_encode {c : Char} : (∀ b ∈ String.utf8EncodeChar c, IsHexByte b) ↔
    c ∈ "0123456789abcdefABCDEF".toList := by
  refine ⟨fun hex => ?_, fun digit => (digit_encode digit).2⟩
  obtain ⟨b, rest, encoded⟩ := List.exists_cons_of_ne_nil (String.utf8EncodeChar_ne_nil (c := c))
  have first : IsHexByte b := hex b (by rw [encoded]; exact List.mem_cons_self)
  obtain ⟨ascii, digit⟩ := isHexByte_char first
  rw [(Utf8.encode_of_head_lt encoded ascii).2]
  exact digit

theorem length_utf8_of_digits {cs : List Char}
    (digits : ∀ c ∈ cs, c ∈ "0123456789abcdefABCDEF".toList) :
    (cs.flatMap String.utf8EncodeChar).length = cs.length := by
  induction cs with
  | nil => rfl
  | cons c cs ih =>
      obtain ⟨here, rest⟩ := List.forall_mem_cons.mp digits
      rw [List.flatMap_cons, List.length_append, (digit_encode here).1, ih rest, List.length_cons,
        Nat.add_comm]

theorem isHex_iff {s : String} :
    IsHex s ↔ (utf8 s).length % 2 = 0 ∧ ∀ b ∈ utf8 s, IsHexByte b := by
  have bytes : utf8 s = s.toList.flatMap String.utf8EncodeChar := Utf8.bytes_eq_flatMap s
  have each : (∀ b ∈ utf8 s, IsHexByte b) ↔
      ∀ c ∈ s.toList, c ∈ "0123456789abcdefABCDEF".toList := by
    rw [bytes]
    constructor
    · intro hex c mem
      exact isHexByte_encode.mp fun b inside => hex b (List.mem_flatMap.mpr ⟨c, mem, inside⟩)
    · intro digits b mem
      obtain ⟨c, inside, encoded⟩ := List.mem_flatMap.mp mem
      exact isHexByte_encode.mpr (digits c inside) b encoded
  rw [IsHex, each]
  refine and_congr_left fun digits => ?_
  rw [bytes, length_utf8_of_digits digits]

/-- The pair at an index reads as a byte. -/
def Reads (b : List UInt8) (k : Nat) : Prop :=
  (fromStrRadix16 ((b.drop (2 * k)).take 2)).isSome = true

theorem pair_eq {b : List UInt8} {k : Nat} (inside : 2 * k + 1 < b.length) :
    (b.drop (2 * k)).take 2 = [b[2 * k], b[2 * k + 1]] := by
  rw [List.drop_eq_getElem_cons (by omega), List.drop_eq_getElem_cons inside]
  rfl

/-- All pairs read and there is no sign just if all bytes are digits. -/
theorem reads_iff {b : List UInt8} (even : b.length % 2 = 0) :
    ((∀ k < b.length / 2, Reads b k) ∧ 0x2b ∉ b) ↔ ∀ x ∈ b, IsHexByte x := by
  constructor
  · rintro ⟨reads, unsigned⟩ x mem
    obtain ⟨i, inside, rfl⟩ := List.mem_iff_getElem.mp mem
    have pair := reads (i / 2) (by omega)
    rw [Reads, pair_eq (by omega), fromStrRadix16_isSome] at pair
    obtain ⟨first, second⟩ := pair
    obtain low | high := Nat.mod_two_eq_zero_or_one i
    · have index : 2 * (i / 2) = i := by omega
      simp only [index] at first
      exact first.resolve_left fun plus => unsigned (plus ▸ mem)
    · have index : 2 * (i / 2) + 1 = i := by omega
      simp only [index] at second
      exact second
  · intro hex
    refine ⟨fun k below => ?_, fun mem => absurd (hex _ mem) (by decide)⟩
    rw [Reads, pair_eq (by omega), fromStrRadix16_isSome]
    exact ⟨.inr (hex _ (List.getElem_mem _)), hex _ (List.getElem_mem _)⟩

/-- The strings that `hex_decode` treats as the hexadecimal strings they are or are not: no
character lies across an even offset that the pairs before lead to, and if all pairs read, there is
no sign among them. -/
def HexSound (s : String) : Prop :=
  (utf8 s).length % 2 = 0 →
    (∀ k < (utf8 s).length / 2, (∀ j < k, Reads (utf8 s) j) →
      isCharBoundary (utf8 s) (2 * k + 2) = true) ∧
    ((∀ k < (utf8 s).length / 2, Reads (utf8 s) k) → 0x2b ∉ utf8 s)

theorem hexPair_isOk {b : List UInt8} {k : Nat} : (∃ x, hexPair b (2 * k) = .ok x) ↔
    (isCharBoundary b (2 * k) = true ∧ isCharBoundary b (2 * k + 2) = true) ∧ Reads b k := by
  rw [hexPair, ← Bool.and_eq_true, Reads]
  cases isCharBoundary b (2 * k) && isCharBoundary b (2 * k + 2) with
  | false => simp
  | true =>
      rw [if_pos rfl, and_iff_right rfl]
      cases fromStrRadix16 ((b.drop (2 * k)).take 2) <;> simp [Checked.ofOption]

theorem hexPair_ne_trap {b : List UInt8} {i : Nat} : hexPair b i ≠ .trap ↔
    isCharBoundary b i = true ∧ isCharBoundary b (i + 2) = true := by
  rw [hexPair, ← Bool.and_eq_true]
  cases isCharBoundary b i && isCharBoundary b (i + 2) with
  | false => simp
  | true =>
      rw [if_pos rfl]
      cases fromStrRadix16 ((b.drop i).take 2) <;> simp [Checked.ofOption]

/-- Where the pairs before an index read and end between characters, so does the index start. -/
theorem boundary_of_before {b : List UInt8} {n : Nat}
    (sound : ∀ k < n, (∀ j < k, Reads b j) → isCharBoundary b (2 * k + 2) = true) {k : Nat}
    (below : k < n) (before : ∀ j < k, Reads b j) :
    isCharBoundary b (2 * k) = true ∧ isCharBoundary b (2 * k + 2) = true := by
  refine ⟨?_, sound k below before⟩
  cases k with
  | zero => rfl
  | succ k => exact sound k (by omega) fun j earlier => before j (by omega)

theorem hexDecode_sound_iff {s : String} :
    (hexDecode s ≠ .trap ∧ ((∃ bs, hexDecode s = .ok bs) ↔ IsHex s)) ↔ HexSound s := by
  rw [isHex_iff, hexDecode, HexSound]
  generalize utf8 s = b
  by_cases even : b.length % 2 = 0
  · rw [if_neg (not_not.mpr even), collect_ne_trap, collect_isOk, and_iff_right even,
      ← reads_iff even]
    constructor
    · rintro ⟨total, same⟩ -
      have sound : ∀ k < b.length / 2, (∀ j < k, Reads b j) →
          isCharBoundary b (2 * k + 2) = true := by
        intro k
        induction k using Nat.strong_induction_on with
        | _ k ih =>
            intro below before
            refine (hexPair_ne_trap.mp (total k below fun j earlier => ?_)).2
            have bounds := boundary_of_before (n := k)
              (fun i inside => ih i inside (by omega)) earlier fun i inside => before i (by omega)
            exact hexPair_isOk.mpr ⟨bounds, before j earlier⟩
      refine ⟨sound, fun reads => (same.mp fun k below => ?_).2⟩
      exact hexPair_isOk.mpr
        ⟨boundary_of_before sound below fun j earlier => reads j (by omega), reads k below⟩
    · intro sound
      obtain ⟨sound, unsigned⟩ := sound even
      refine ⟨fun k below before => ?_, ?_, ?_⟩
      · exact hexPair_ne_trap.mpr (boundary_of_before sound below fun j earlier =>
          (hexPair_isOk.mp (before j earlier)).2)
      · intro all
        have reads : ∀ k < b.length / 2, Reads b k := fun k below =>
          (hexPair_isOk.mp (all k below)).2
        exact ⟨reads, unsigned reads⟩
      · rintro ⟨reads, -⟩ k below
        exact hexPair_isOk.mpr
          ⟨boundary_of_before sound below fun j earlier => reads j (by omega), reads k below⟩
  · rw [if_pos even]
    refine iff_of_true ⟨by simp, ?_⟩ fun also => absurd also even
    exact iff_of_false (by simp) fun hex => even hex.1

/-- Every index of digits is between characters. -/
theorem boundary_of_hex {b : List UInt8} (hex : ∀ x ∈ b, IsHexByte x) {i : Nat}
    (inside : i ≤ b.length) : isCharBoundary b i = true := by
  have table : ∀ n < 128, UInt8.ofNat n &&& 0xc0 ≠ 0x80 := by decide
  rw [isCharBoundary]
  split
  · rfl
  · split
    · rename_i x here
      have ascii := (isHexByte_char (hex x (List.mem_of_getElem? here))).1
      have low := table x.toNat ascii
      rw [UInt8.ofNat_toNat] at low
      exact decide_eq_true low
    · rename_i beyond
      have past := List.getElem?_eq_none_iff.mp beyond
      exact decide_eq_true (by omega)

/-- A string of digits is sound. -/
theorem hexSound_of_isHex {s : String} (hex : IsHex s) : HexSound s := by
  obtain ⟨even, digits⟩ := isHex_iff.mp hex
  refine fun _ => ⟨fun k below _ => boundary_of_hex digits (by omega), fun _ => ?_⟩
  exact ((reads_iff even).mpr digits).2

/-- The piece of an element, where all pieces are two long. -/
theorem take_two_flatMap {α β : Type} {f : α → List β} (two : ∀ a, (f a).length = 2) (as : List α)
    (k : Nat) (inside : k < as.length) :
    ((as.flatMap f).drop (2 * k)).take 2 = f as[k] := by
  induction as generalizing k with
  | nil => exact absurd inside (Nat.not_lt_zero k)
  | cons a as ih =>
      rw [List.flatMap_cons]
      cases k with
      | zero => exact List.take_left' (two a)
      | succ k =>
          have past : 2 * (k + 1) = (f a).length + 2 * k := by
            rw [two]
            omega
          rw [past, List.drop_length_add_append, ih k (Nat.lt_of_succ_lt_succ inside)]
          rfl

theorem utf8_hexEncode (bs : List UInt8) :
    utf8 (hexEncode bs) = bs.flatMap fun b => (hexByte b).flatMap String.utf8EncodeChar := by
  refine (Utf8.bytes_eq_flatMap _).trans ?_
  rw [hexEncode, String.toList_ofList, List.flatMap_assoc]

theorem length_hexByte (b : UInt8) : ((hexByte b).flatMap String.utf8EncodeChar).length = 2 := by
  obtain ⟨x, y, same, -⟩ := hexByte_pair b
  rw [same]
  rfl

theorem length_utf8_hexEncode (bs : List UInt8) : (utf8 (hexEncode bs)).length = 2 * bs.length := by
  rw [utf8_hexEncode, List.length_flatMap, List.map_congr_left fun b _ => length_hexByte b,
    List.map_const', List.sum_replicate, smul_eq_mul, Nat.mul_comm]

/-- What is encoded is a hexadecimal string. -/
theorem isHex_hexEncode (bs : List UInt8) : IsHex (hexEncode bs) := by
  refine isHex_iff.mpr ⟨by rw [length_utf8_hexEncode]; omega, fun x mem => ?_⟩
  rw [utf8_hexEncode] at mem
  obtain ⟨b, -, inside⟩ := List.mem_flatMap.mp mem
  obtain ⟨y, z, same, ⟨first, second⟩, -⟩ := hexByte_pair b
  rw [same] at inside
  obtain rfl | inside := List.mem_cons.mp inside
  · exact first
  · rw [List.mem_singleton.mp inside]
    exact second

/-- And is decoded again. -/
theorem hexDecode_hexEncode (bs : List UInt8) : hexDecode (hexEncode bs) = .ok bs := by
  have length := length_utf8_hexEncode bs
  obtain ⟨even, hex⟩ := isHex_iff.mp (isHex_hexEncode bs)
  rw [hexDecode, if_neg (not_not.mpr even), length, Nat.mul_div_cancel_left _ (by norm_num)]
  refine collect_of_getElem fun k inside => ?_
  obtain ⟨x, y, same, -, read⟩ := hexByte_pair bs[k]
  rw [hexPair, boundary_of_hex hex (by omega), boundary_of_hex hex (by omega), Bool.and_self,
    if_pos rfl, utf8_hexEncode, take_two_flatMap length_hexByte bs k inside, same, read]
  rfl

/-! ## The callback -/

section Sound

variable (hmac : List UInt8 → List UInt8 → List UInt8)

/-- An ideal MAC, for one key and tag: whatever it is the right tag of, the node computed it under
the key on a public key and an address that make up the message. The log holds the node's
computations. -/
def IdealTag (log : List (List UInt8 × String × String)) (key tag : List UInt8) : Prop :=
  ∀ msg, hmac key msg = tag → ∃ p i, (key, p, i) ∈ log ∧ utf8 (p ++ i) = msg

/-- What a caller of the callback relies on. -/
structure CallbackSound (log : List (List UInt8 × String × String)) (hmacKeyHex : String)
    (body : CallbackBody) : Prop where
  authentic : ∀ p, verifyCallback hmac body hmacKeyHex = .ok p →
    ∃ key, hexDecode hmacKeyHex = .ok key ∧ (key, p, body.ip) ∈ log
  total : verifyCallback hmac body hmacKeyHex ≠ .trap
  decodes : ∀ s ∈ [hmacKeyHex, body.mac],
    hexDecode s ≠ .trap ∧ ((∃ bs, hexDecode s = .ok bs) ↔ IsHex s)
  inverts : ∀ bs, hexDecode (hexEncode bs) = .ok bs

/-- The body carries a tag that the node computed on its text, but never on a public key as long
as the body's: it is a reply of the node, cut elsewhere. -/
def CutElsewhere (log : List (List UInt8 × String × String)) (hmacKeyHex : String)
    (body : CallbackBody) : Prop :=
  ∃ key p i, hexDecode hmacKeyHex = .ok key ∧ (key, p, i) ∈ log ∧
    hexDecode body.mac = .ok (hmac key (utf8 (p ++ i))) ∧ p ++ i = body.pubkey ++ body.ip ∧
    ∀ p' i', (key, p', i') ∈ log → p' ++ i' = body.pubkey ++ body.ip →
      p'.length ≠ body.pubkey.length

end Sound

section Verify

variable {hmac : List UInt8 → List UInt8 → List UInt8}
  {log : List (List UInt8 × String × String)} {hmacKeyHex : String} {body : CallbackBody}

theorem verifyCallback_eq_ok {p : String} : verifyCallback hmac body hmacKeyHex = .ok p ↔
    p = body.pubkey ∧ ∃ key, hexDecode hmacKeyHex = .ok key ∧
      hexDecode body.mac = .ok (hmac key (utf8 (body.pubkey ++ body.ip))) := by
  have joined : utf8 (body.pubkey ++ body.ip) = utf8 body.pubkey ++ utf8 body.ip :=
    Utf8.bytes_append _ _
  rw [verifyCallback, Checked.bind_eq_ok, joined]
  constructor
  · rintro ⟨key, decoded, rest⟩
    obtain ⟨got, tag, rest⟩ := Checked.bind_eq_ok.mp rest
    split at rest
    · cases rest
    · rename_i same
      obtain ⟨-, same⟩ := not_or.mp same
      cases rest
      rw [not_not.mp same] at tag
      exact ⟨rfl, key, decoded, tag⟩
  · rintro ⟨rfl, key, decoded, tag⟩
    refine ⟨key, decoded, ?_⟩
    dsimp only
    rw [tag, Checked.ok_bind, if_neg]
    rintro (length | differs)
    · exact length rfl
    · exact differs rfl

theorem verifyCallback_ne_trap (key : hexDecode hmacKeyHex ≠ .trap)
    (mac : hexDecode body.mac ≠ .trap) : verifyCallback hmac body hmacKeyHex ≠ .trap := by
  refine Checked.bind_ne_trap key fun key => Checked.bind_ne_trap mac fun got => ?_
  split <;> simp

/-- What `compute_mac` computes is accepted. -/
theorem verifyCallback_computeMac {p i mac : String}
    (computed : computeMac hmac p i hmacKeyHex = .ok mac) :
    verifyCallback hmac ⟨p, i, mac⟩ hmacKeyHex = .ok p := by
  obtain ⟨key, decoded, same⟩ := Checked.bind_eq_ok.mp computed
  cases same
  refine verifyCallback_eq_ok.mpr ⟨rfl, key, decoded, ?_⟩
  have joined : utf8 (p ++ i) = utf8 p ++ utf8 i := Utf8.bytes_append _ _
  rw [joined]
  exact hexDecode_hexEncode _

/-- The callback is sound just for two sound strings and a body that is no reply cut elsewhere. -/
theorem callbackSound_iff (ideal : ∀ key tag, hexDecode hmacKeyHex = .ok key →
      hexDecode body.mac = .ok tag → IdealTag hmac log key tag) :
    CallbackSound hmac log hmacKeyHex body ↔
      HexSound hmacKeyHex ∧ HexSound body.mac ∧ ¬ CutElsewhere hmac log hmacKeyHex body := by
  constructor
  · rintro ⟨authentic, -, decodes, -⟩
    obtain ⟨key, mac⟩ := List.forall_mem_cons.mp decodes
    have mac := List.forall_mem_singleton.mp mac
    refine ⟨hexDecode_sound_iff.mp key, hexDecode_sound_iff.mp mac, ?_⟩
    rintro ⟨key, p, i, decoded, -, tag, same, cut⟩
    rw [same] at tag
    obtain ⟨key', decoded', mem⟩ := authentic body.pubkey
      (verifyCallback_eq_ok.mpr ⟨rfl, key, decoded, tag⟩)
    cases decoded.symm.trans decoded'
    exact cut body.pubkey body.ip mem rfl rfl
  · rintro ⟨key, mac, whole⟩
    have key := hexDecode_sound_iff.mpr key
    have mac := hexDecode_sound_iff.mpr mac
    refine ⟨fun p accepted => ?_, verifyCallback_ne_trap key.1 mac.1,
      List.forall_mem_cons.mpr ⟨key, List.forall_mem_singleton.mpr mac⟩, hexDecode_hexEncode⟩
    obtain ⟨rfl, key, decoded, tag⟩ := verifyCallback_eq_ok.mp accepted
    refine ⟨key, decoded, ?_⟩
    obtain ⟨p, i, logged, bytes⟩ := ideal key _ decoded tag _ rfl
    have same : p ++ i = body.pubkey ++ body.ip := Utf8.bytes_injective bytes
    by_contra missing
    refine whole ⟨key, p, i, decoded, logged, by rw [same, tag], same, ?_⟩
    intro p' i' logged' same' length
    have texts := congrArg String.toList same'
    rw [String.toList_append, String.toList_append] at texts
    obtain ⟨first, second⟩ := List.append_inj texts
      (by rw [String.length_toList, String.length_toList, length])
    rw [String.toList_injective first, String.toList_injective second] at logged'
    exact missing logged'

end Verify

/-- The key `00112233445566778899aabbccddeeff`. -/
def recordedKey : List UInt8 :=
  [0x00, 0x11, 0x22, 0x33, 0x44, 0x55, 0x66, 0x77, 0x88, 0x99, 0xaa, 0xbb, 0xcc, 0xdd, 0xee, 0xff]

/-- The HMAC of one message under that key; elsewhere zeros. -/
def recordedMac (key msg : List UInt8) : List UInt8 :=
  if key = recordedKey ∧ msg = utf8 "SERVERPUBKEYbase64=203.0.113.7" then
    [0xa4, 0xf3, 0x72, 0xcb, 0xf6, 0x95, 0x50, 0x97, 0x7a, 0x3b, 0x88, 0x0d, 0x19, 0x3b, 0xda, 0x80,
     0xdb, 0xc3, 0x2d, 0xa0, 0xec, 0x27, 0xe2, 0x79, 0x05, 0x6e, 0x47, 0x27, 0x45, 0xf1, 0x59, 0x52]
  else List.replicate 32 0

/-- The node computed it for its key and address. -/
def recordedLog : List (List UInt8 × String × String) :=
  [(recordedKey, "SERVERPUBKEYbase64=", "203.0.113.7")]

theorem idealTag_recorded :
    IdealTag recordedMac recordedLog recordedKey (recordedMac recordedKey
      (utf8 "SERVERPUBKEYbase64=203.0.113.7")) := by
  intro msg same
  by_cases recorded : msg = utf8 "SERVERPUBKEYbase64=203.0.113.7"
  · obtain rfl := recorded
    exact ⟨"SERVERPUBKEYbase64=", "203.0.113.7", List.mem_singleton_self _, rfl⟩
  · rw [recordedMac, if_neg fun both => recorded both.2] at same
    exact absurd same (by decide +kernel)

/-- The reply that the node sent is sound. -/
theorem callbackSound_recorded :
    CallbackSound recordedMac recordedLog "00112233445566778899aabbccddeeff"
      (callbackReply recordedMac recordedKey "SERVERPUBKEYbase64=" "203.0.113.7") := by
  have key : "00112233445566778899aabbccddeeff" = hexEncode recordedKey := by decide +kernel
  rw [key]
  refine (callbackSound_iff fun k tag decodedKey decoded => ?_).mpr
    ⟨hexSound_of_isHex (isHex_hexEncode _), hexSound_of_isHex (isHex_hexEncode _), ?_⟩
  · cases (hexDecode_hexEncode _).symm.trans decodedKey
    cases (hexDecode_hexEncode _).symm.trans decoded
    exact idealTag_recorded
  · rintro ⟨key, p, i, -, logged, -, -, cut⟩
    cases List.mem_singleton.mp logged
    exact cut _ _ logged rfl rfl

/-- With the first digit of the address moved to the key, the same tag is accepted. And a plus sign
decodes before a digit, and a two-byte character at an odd offset panics. -/
theorem cutElsewhere_accepted :
    ¬ CallbackSound recordedMac recordedLog "00112233445566778899aabbccddeeff"
        ⟨"SERVERPUBKEYbase64=2", "03.0.113.7",
          "a4f372cbf69550977a3b880d193bda80dbc32da0ec27e279056e472745f15952"⟩ ∧
      verifyCallback recordedMac ⟨"SERVERPUBKEYbase64=2", "03.0.113.7",
          "a4f372cbf69550977a3b880d193bda80dbc32da0ec27e279056e472745f15952"⟩
        "00112233445566778899aabbccddeeff" = .ok "SERVERPUBKEYbase64=2" ∧
      hexDecode "+f" = .ok [15] ∧ hexDecode "aéa" = .trap := by
  have accepted : verifyCallback recordedMac ⟨"SERVERPUBKEYbase64=2", "03.0.113.7",
      "a4f372cbf69550977a3b880d193bda80dbc32da0ec27e279056e472745f15952"⟩
        "00112233445566778899aabbccddeeff" = .ok "SERVERPUBKEYbase64=2" :=
    verifyCallback_computeMac (by decide +kernel)
  refine ⟨fun sound => ?_, accepted, by decide +kernel, by decide +kernel⟩
  obtain ⟨key, -, logged⟩ := sound.authentic _ accepted
  have same := (Prod.mk.inj (Prod.mk.inj (List.mem_singleton.mp logged)).2).1
  exact absurd same (by decide)

end Sentinel.Vpn
