import Sentinel.Lib.Bits
import Sentinel.Vault.Totp

/-!
# The base-32 codecs

Secrets of one-time codes are written in base 32 by the core (`totp.rs`) and twice by the server
(`auth.rs` for the enrollment address, `routes.rs` for the secret that is typed), and read by the
core. Every loop keeps an accumulator of 32 bits and shifts its high bits out. What stays are the
bits that are not yet written or read: `foldl_base32Step` and `foldl_base32Push` say so for inputs
of any length, and `base32_codecs` follows.
-/

namespace Bits

variable {w : Nat}

theorem ofNat_zero (value : Nat) : ofNat value 0 = [] := rfl

theorem ofNat_of_zero (n : Nat) : ofNat 0 n = List.replicate n 0 := by
  induction n with
  | zero => rfl
  | succ n ih => rw [ofNat_succ, ih, Nat.zero_div, Nat.zero_mod, List.replicate_succ]

/-- The low bits of a number, in two parts. -/
theorem ofNat_add (value m n : Nat) :
    ofNat value (m + n) = ofNat (value >>> n) m ++ ofNat value n := by
  induction m with
  | zero => rw [Nat.zero_add, ofNat_zero, List.nil_append]
  | succ m ih =>
      rw [Nat.succ_add, ofNat_succ, ih, ofNat_succ, List.cons_append, Nat.shiftRight_eq_div_pow,
        Nat.div_div_eq_div_mul, ← pow_add, Nat.add_comm m n]

/-- They do not depend on the other bits. -/
theorem ofNat_mod {m n : Nat} (le : n ≤ m) (value : Nat) : ofNat (value % 2 ^ m) n = ofNat value n := by
  refine eq_of_toNat_eq (isBits_ofNat _ _) (isBits_ofNat _ _) ?_ ?_
  · rw [length_ofNat, length_ofNat]
  · rw [toNat_ofNat, toNat_ofNat, Nat.mod_mod_of_dvd _ (pow_dvd_pow 2 le)]

/-- A number with some bits shifted in. -/
theorem ofNat_shiftLeft_or {v : Nat} (small : v < 2 ^ w) (acc n : Nat) :
    ofNat (acc <<< w ||| v) (n + w) = ofNat acc n ++ ofNat v w := by
  have high : (acc * 2 ^ w + v) >>> w = acc := by
    rw [Nat.shiftRight_eq_div_pow, Nat.mul_comm, Nat.mul_add_div (Nat.two_pow_pos w),
      Nat.div_eq_of_lt small, Nat.add_zero]
  have low : ofNat (acc * 2 ^ w + v) w = ofNat v w := by
    rw [← ofNat_mod le_rfl, Nat.mul_comm, Nat.mul_add_mod]
    exact ofNat_mod le_rfl v
  rw [shiftLeft_or small, ofNat_add, high, low]

/-- A symbol is determined by its bits. -/
theorem spread_injOn (wide : 0 < w) {s t : List Nat} (smallS : ∀ v ∈ s, v < 2 ^ w)
    (smallT : ∀ v ∈ t, v < 2 ^ w) (same : spread w s = spread w t) : s = t := by
  rw [← symbols_spread wide smallS, same, symbols_spread wide smallT]

theorem spread_append (s t : List Nat) : spread w (s ++ t) = spread w s ++ spread w t :=
  List.flatMap_append

theorem spread_singleton (v : Nat) : spread w [v] = ofNat v w := by
  rw [spread, List.flatMap_singleton]

end Bits

namespace Sentinel.Vault

/-! ## The encoders -/

/-- The inner loop of an encoder: what it pushes and the bits it leaves. -/
def base32DrainWith (char : UInt32 → Char) (buffer : UInt32) : Nat → List Char × Nat
  | bits + 5 =>
      let (rest, left) := base32DrainWith char buffer bits
      (char (buffer >>> UInt32.ofNat bits) :: rest, left)
  | bits => ([], bits)

/-- The encoders over their alphabet. -/
def base32With (alphabet : List Char) (data : Bytes) : String :=
  let char (buffer : UInt32) : Char := alphabet.getD (buffer &&& 0x1f).toNat 'A'
  let (buffer, bits, out) := data.foldl (fun (buffer, bits, out) b =>
    let buffer := (buffer <<< 8) ||| b.toUInt32
    let (chars, left) := base32DrainWith char buffer (bits + 8)
    (buffer, left, out ++ chars)) ((0 : UInt32), 0, ([] : List Char))
  String.ofList (if 0 < bits then out ++ [char (buffer <<< UInt32.ofNat (5 - bits))] else out)

/-- `totp::base32_encode` of the core. -/
def base32Encode (data : Bytes) : String := base32With "ABCDEFGHIJKLMNOPQRSTUVWXYZ234567".toList data

/-- `routes::base32` of the server. -/
def routesBase32 (data : Bytes) : String := base32With "ABCDEFGHIJKLMNOPQRSTUVWXYZ234567".toList data

theorem base32DrainWith_eq (buffer : UInt32) (bits : Nat) :
    base32DrainWith Api.base32Char buffer bits = Api.base32Drain buffer bits := by
  induction bits using Nat.strong_induction_on with
  | _ bits ih =>
      match bits with
      | 0 => rfl
      | 1 => rfl
      | 2 => rfl
      | 3 => rfl
      | 4 => rfl
      | bits + 5 => rw [base32DrainWith, Api.base32Drain, ih bits (by omega)]

/-- The three encoders are one. -/
theorem base32With_eq (data : Bytes) :
    base32With "ABCDEFGHIJKLMNOPQRSTUVWXYZ234567".toList data = Api.base32Encode data := by
  have step : (fun (s : UInt32 × Nat × List Char) (b : UInt8) =>
      let buffer := (s.1 <<< 8) ||| b.toUInt32
      let (chars, left) := base32DrainWith Api.base32Char buffer (s.2.1 + 8)
      (buffer, left, s.2.2 ++ chars)) = Api.base32Step := by
    funext s b
    obtain ⟨buffer, bits, out⟩ := s
    rw [Api.base32Step]
    dsimp only
    rw [base32DrainWith_eq]
  rw [Api.base32Encode, ← step]
  rfl

/-! ## What the accumulators keep -/

/-- The character of a symbol. -/
def base32Symbol (v : Nat) : Char := Api.base32Alphabet.getD v 'A'

/-- A buffer with some bits shifted in, where they fit. -/
theorem ofNat_push {buffer v : UInt32} {w n : Nat} (small : v.toNat < 2 ^ w) (narrow : w < 32)
    (fits : n + w ≤ 32) : Bits.ofNat ((buffer <<< UInt32.ofNat w) ||| v).toNat (n + w) =
      Bits.ofNat buffer.toNat n ++ Bits.ofNat v.toNat w := by
  have shift : (UInt32.ofNat w).toNat = w := UInt32.toNat_ofNat_of_lt' (by
    exact lt_trans narrow (by decide))
  have wraps : ((buffer <<< UInt32.ofNat w) ||| v).toNat =
      (buffer.toNat <<< w ||| v.toNat) % 2 ^ 32 := by
    rw [UInt32.toNat_or, UInt32.toNat_shiftLeft, shift, Nat.mod_eq_of_lt narrow, Nat.or_mod_two_pow,
      Nat.mod_eq_of_lt v.toNat_lt]
  rw [wraps, Bits.ofNat_mod fits, Bits.ofNat_shiftLeft_or small]

/-- The character that is pushed is that of the five bits. -/
theorem base32Char_shift {buffer : UInt32} {n : Nat} (narrow : n < 32) :
    Api.base32Char (buffer >>> UInt32.ofNat n) =
      base32Symbol ((buffer.toNat >>> n) % 2 ^ 5) := by
  have shift : (UInt32.ofNat n).toNat = n := UInt32.toNat_ofNat_of_lt' (by
    exact lt_trans narrow (by decide))
  have low : ((buffer >>> UInt32.ofNat n) &&& 0x1f).toNat = (buffer.toNat >>> n) % 2 ^ 5 := by
    rw [UInt32.toNat_and, UInt32.toNat_shiftRight, shift, Nat.mod_eq_of_lt narrow]
    exact Nat.and_two_pow_sub_one_eq_mod _ 5
  rw [Api.base32Char, low, base32Symbol]

/-- The inner loop writes the bits of the buffer, five at a time, and leaves fewer than five. -/
theorem base32Drain_spec (buffer : UInt32) (bits : Nat) (fits : bits ≤ 32) :
    ∃ vals left, Api.base32Drain buffer bits = (vals.map base32Symbol, left) ∧ left < 5 ∧
      (∀ v ∈ vals, v < 2 ^ 5) ∧
      Bits.ofNat buffer.toNat bits = Bits.spread 5 vals ++ Bits.ofNat buffer.toNat left := by
  induction bits using Nat.strong_induction_on with
  | _ bits ih =>
      by_cases few : bits < 5
      · have stops : Api.base32Drain buffer bits = ([], bits) := by
          unfold Api.base32Drain
          split
          · omega
          · rfl
        exact ⟨[], bits, stops, few, List.forall_mem_nil _, rfl⟩
      · obtain ⟨bits, rfl⟩ := Nat.exists_eq_add_of_le' (Nat.not_lt.mp few)
        obtain ⟨vals, left, rest, short, small, kept⟩ := ih bits (by omega) (by omega)
        refine ⟨(buffer.toNat >>> bits) % 2 ^ 5 :: vals, left, ?_, short,
          List.forall_mem_cons.mpr ⟨Nat.mod_lt _ (by norm_num), small⟩, ?_⟩
        · rw [Api.base32Drain, rest, base32Char_shift (by omega), List.map_cons]
        · rw [Nat.add_comm bits, Bits.ofNat_add, kept, Bits.spread_cons, Bits.ofNat_mod le_rfl,
            List.append_assoc]

/-- After any bytes: what is written and what the accumulator keeps are their bits. -/
theorem foldl_base32Step (data : Bytes) : ∃ vals buffer left,
    data.foldl Api.base32Step (0, 0, []) = (buffer, left, vals.map base32Symbol) ∧ left < 5 ∧
      (∀ v ∈ vals, v < 2 ^ 5) ∧
      Bits.spread 8 (data.map UInt8.toNat) = Bits.spread 5 vals ++ Bits.ofNat buffer.toNat left := by
  induction data using List.reverseRecOn with
  | nil => exact ⟨[], 0, 0, rfl, by norm_num, List.forall_mem_nil _, rfl⟩
  | append_singleton data b ih =>
      obtain ⟨vals, buffer, left, run, short, small, kept⟩ := ih
      obtain ⟨vals', left', drained, short', small', kept'⟩ :=
        base32Drain_spec ((buffer <<< 8) ||| b.toUInt32) (left + 8) (by omega)
      have byte : b.toUInt32.toNat < 2 ^ 8 := by
        rw [UInt8.toNat_toUInt32]
        exact b.toNat_lt
      have pushed : Bits.ofNat ((buffer <<< 8) ||| b.toUInt32).toNat (left + 8) =
          Bits.ofNat buffer.toNat left ++ Bits.ofNat b.toUInt32.toNat 8 :=
        ofNat_push (w := 8) (n := left) byte (by norm_num) (by omega)
      refine ⟨vals ++ vals', (buffer <<< 8) ||| b.toUInt32, left', ?_, short', ?_, ?_⟩
      · rw [List.foldl_concat, run, Api.base32Step, List.map_append]
        dsimp only
        rw [drained]
      · intro v mem
        exact (List.mem_append.mp mem).elim (small v) (small' v)
      · rw [List.map_append, Bits.spread_append, kept, List.map_singleton, Bits.spread_singleton,
          Bits.spread_append, List.append_assoc, List.append_assoc, ← kept']
        change Bits.ofNat ((buffer <<< 8) ||| b.toUInt32).toNat (left + 8) = _ at pushed
        rw [pushed, UInt8.toNat_toUInt32]

/-- After any characters: what is read and what the accumulator keeps are their bits. -/
theorem foldl_base32Push {vals : List Nat} (small : ∀ v ∈ vals, v < 2 ^ 5) : ∃ buffer left out,
    vals.foldl base32Push (0, 0, []) = (buffer, left, out) ∧ left < 8 ∧
      Bits.spread 5 vals = Bits.spread 8 (out.map UInt8.toNat) ++ Bits.ofNat buffer.toNat left := by
  induction vals using List.reverseRecOn with
  | nil => exact ⟨0, 0, [], rfl, by norm_num, rfl⟩
  | append_singleton vals v ih =>
      obtain ⟨before, here⟩ := List.forall_mem_append.mp small
      have here := List.forall_mem_singleton.mp here
      obtain ⟨buffer, left, out, run, short, kept⟩ := ih before
      have value : (UInt32.ofNat v).toNat = v := UInt32.toNat_ofNat_of_lt' (by
        exact lt_trans here (by decide))
      have pushed : Bits.ofNat ((buffer <<< 5) ||| UInt32.ofNat v).toNat (left + 5) =
          Bits.ofNat buffer.toNat left ++ Bits.ofNat v 5 := by
        have both : Bits.ofNat ((buffer <<< 5) ||| UInt32.ofNat v).toNat (left + 5) =
            Bits.ofNat buffer.toNat left ++ Bits.ofNat (UInt32.ofNat v).toNat 5 :=
          ofNat_push (w := 5) (n := left) (by rw [value]; exact here) (by norm_num) (by omega)
        rwa [value] at both
      have all : Bits.spread 5 (vals ++ [v]) = Bits.spread 8 (out.map UInt8.toNat) ++
          Bits.ofNat ((buffer <<< 5) ||| UInt32.ofNat v).toNat (left + 5) := by
        rw [Bits.spread_append, kept, Bits.spread_singleton, List.append_assoc, pushed]
      rw [List.foldl_concat, run, base32Push]
      by_cases full : 8 ≤ left + 5
      · obtain ⟨rest, count⟩ := Nat.exists_eq_add_of_le full
        have shift : (UInt32.ofNat rest).toNat = rest := UInt32.toNat_ofNat_of_lt' (by
          exact lt_trans (show rest < 8 by omega) (by decide))
        have byte : (((buffer <<< 5) ||| UInt32.ofNat v) >>> UInt32.ofNat rest).toUInt8.toNat =
            (((buffer <<< 5) ||| UInt32.ofNat v).toNat >>> rest) % 2 ^ 8 := by
          rw [UInt32.toNat_toUInt8, UInt32.toNat_shiftRight, shift,
            Nat.mod_eq_of_lt (show rest < 32 by omega)]
        have over_ : left + 5 - 8 = rest := by omega
        rw [if_pos full, over_]
        refine ⟨_, _, _, rfl, by omega, ?_⟩
        rw [all, count, Bits.ofNat_add, List.map_append, Bits.spread_append, List.map_singleton,
          Bits.spread_singleton, byte, Bits.ofNat_mod le_rfl, List.append_assoc]
      · rw [if_neg full]
        exact ⟨_, _, _, rfl, by omega, all⟩

/-! ## Round trip -/

/-- The characters of a text are those of a code in either case, with padding and white space
anywhere among them. -/
def Decorates (text code : String) : Prop :=
  List.Forall₂ (fun c d => d = c ∨ d = c.toLower) code.toList
    (text.toList.filter fun c => decide (c ≠ '=') && !Api.isWhitespace c)

/-- A character of the alphabet reads as its symbol, in either case. -/
theorem base32Value_symbol {v : Nat} (small : v < 2 ^ 5) :
    base32Value (base32Symbol v) = some v ∧ base32Value (base32Symbol v).toLower = some v := by
  have table : ∀ v < 32, base32Value (base32Symbol v) = some v ∧
      base32Value (base32Symbol v).toLower = some v := by decide
  exact table v small

theorem mapM_base32Value {vals : List Nat} (small : ∀ v ∈ vals, v < 2 ^ 5) {chars : List Char}
    (same : List.Forall₂ (fun c d => d = c ∨ d = c.toLower) (vals.map base32Symbol) chars) :
    chars.mapM base32Value = some vals := by
  induction vals generalizing chars with
  | nil =>
      cases same
      rfl
  | cons v vals ih =>
      cases same with
      | cons here rest =>
          obtain ⟨first, later⟩ := List.forall_mem_cons.mp small
          obtain ⟨upper, lower⟩ := base32Value_symbol first
          have value := here.elim (fun same => same ▸ upper) fun same => same ▸ lower
          rw [List.mapM_cons, value, ih later rest]
          rfl

/-- What is read are symbols. -/
theorem base32Value_lt {chars : List Char} {vals : List Nat}
    (read : chars.mapM base32Value = some vals) : ∀ v ∈ vals, v < 2 ^ 5 := by
  induction chars generalizing vals with
  | nil =>
      cases read
      exact List.forall_mem_nil _
  | cons c chars ih =>
      rw [List.mapM_cons] at read
      obtain ⟨v, value, rest⟩ := Option.bind_eq_some_iff.mp read
      obtain ⟨later, values, same⟩ := Option.bind_eq_some_iff.mp rest
      cases same
      obtain ⟨inside, -⟩ := List.findIdx?_eq_some_iff_getElem.mp value
      exact List.forall_mem_cons.mpr ⟨inside, ih values⟩

/-- A code is the symbols of the bytes' bits, filled up with zeros. -/
theorem base32Encode_spec (data : Bytes) : ∃ vals pad, (Api.base32Encode data).toList =
    vals.map base32Symbol ∧ (∀ v ∈ vals, v < 2 ^ 5) ∧ pad < 5 ∧
      Bits.spread 5 vals = Bits.spread 8 (data.map UInt8.toNat) ++ List.replicate pad 0 := by
  obtain ⟨vals, buffer, left, run, short, small, kept⟩ := foldl_base32Step data
  rw [Api.base32Encode, run]
  dsimp only
  rw [String.toList_ofList]
  by_cases some_ : 0 < left
  · have shift : (UInt32.ofNat (5 - left)).toNat = 5 - left := UInt32.toNat_ofNat_of_lt' (by
      exact lt_trans (show 5 - left < 5 by omega) (by decide))
    have low : ((buffer <<< UInt32.ofNat (5 - left)) &&& 0x1f).toNat =
        (buffer.toNat <<< (5 - left)) % 2 ^ 5 := by
      rw [UInt32.toNat_and, UInt32.toNat_shiftLeft, shift,
        Nat.mod_eq_of_lt (show 5 - left < 32 by omega)]
      have narrow : 2 ^ 5 ∣ 2 ^ 32 := by norm_num
      exact (Nat.and_two_pow_sub_one_eq_mod _ 5).trans (Nat.mod_mod_of_dvd _ narrow)
    have last : Api.base32Char (buffer <<< UInt32.ofNat (5 - left)) =
        base32Symbol ((buffer.toNat <<< (5 - left)) % 2 ^ 5) := by
      rw [Api.base32Char, low, base32Symbol]
    have filled : Bits.ofNat (buffer.toNat <<< (5 - left)) 5 =
        Bits.ofNat buffer.toNat left ++ List.replicate (5 - left) 0 := by
      have shifted := Bits.ofNat_shiftLeft_or (Nat.two_pow_pos (5 - left)) buffer.toNat left
      rw [Nat.or_zero, show left + (5 - left) = 5 by omega, Bits.ofNat_of_zero] at shifted
      exact shifted
    rw [if_pos some_, last]
    refine ⟨vals ++ [(buffer.toNat <<< (5 - left)) % 2 ^ 5], 5 - left, ?_, ?_, by omega, ?_⟩
    · rw [List.map_append, List.map_singleton]
    · exact List.forall_mem_append.mpr
        ⟨small, List.forall_mem_singleton.mpr (Nat.mod_lt _ (by norm_num))⟩
    · rw [Bits.spread_append, Bits.spread_singleton, Bits.ofNat_mod le_rfl, filled, kept,
        List.append_assoc]
  · have none_ : left = 0 := by omega
    subst none_
    rw [if_neg some_]
    refine ⟨vals, 0, rfl, small, by norm_num, ?_⟩
    rw [kept, Bits.ofNat_zero, List.append_nil, List.replicate_zero, List.append_nil]

/-- A decorated code decodes to the bytes. -/
theorem base32Decode_decorated {data : Bytes} (some_ : data ≠ []) {text : String}
    (decorates : Decorates text (Api.base32Encode data)) : base32Decode text = .ok data := by
  obtain ⟨vals, pad, code, small, few, filled⟩ := base32Encode_spec data
  rw [Decorates, code] at decorates
  obtain ⟨buffer, left, out, run, short, kept⟩ := foldl_base32Push small
  have bytes : ∀ b : Bytes, ∀ v ∈ b.map UInt8.toNat, v < 2 ^ 8 := by
    intro b v mem
    obtain ⟨x, -, rfl⟩ := List.mem_map.mp mem
    exact x.toNat_lt
  -- both are the whole bytes of the same bits
  have same : out = data := by
    rw [filled] at kept
    have lengths := congrArg List.length kept
    simp only [List.length_append, Bits.length_spread, List.length_map, List.length_replicate,
      Bits.length_ofNat] at lengths
    have equal : (Bits.spread 8 (data.map UInt8.toNat)).length =
        (Bits.spread 8 (out.map UInt8.toNat)).length := by
      simp only [Bits.length_spread, List.length_map]
      omega
    have spreads := (List.append_inj kept equal).1
    have values := Bits.spread_injOn (by norm_num) (bytes data) (bytes out) spreads
    exact (List.map_injective_iff.mpr (fun _ _ => UInt8.toNat_inj.mp) values).symm
  rw [base32Decode, mapM_base32Value small decorates]
  refine (pure_bind vals _).trans ?_
  rw [run, same]
  dsimp only
  rw [if_neg some_]
  rfl

/-- The three encoders write one code for every secret, and the core reads it back in either case
and with padding and white space anywhere. The accumulators of 32 bits keep every bit that is not
yet written or read, whatever the length of the input. -/
theorem base32_codecs (data : Bytes) :
    (base32Encode data = Api.base32Encode data ∧ routesBase32 data = Api.base32Encode data) ∧
    (data ≠ [] → ∀ text, Decorates text (base32Encode data) → base32Decode text = .ok data) ∧
    (∃ vals buffer left,
      data.foldl Api.base32Step (0, 0, []) = (buffer, left, vals.map base32Symbol) ∧
      Bits.spread 8 (data.map UInt8.toNat) = Bits.spread 5 vals ++ Bits.ofNat buffer.toNat left) ∧
    ∀ (chars : List Char) vals, chars.mapM base32Value = some vals → ∃ buffer left out,
      vals.foldl base32Push (0, 0, []) = (buffer, left, out) ∧
      Bits.spread 5 vals = Bits.spread 8 (out.map UInt8.toNat) ++ Bits.ofNat buffer.toNat left := by
  have core : base32Encode data = Api.base32Encode data := base32With_eq data
  refine ⟨⟨core, base32With_eq data⟩, fun some_ text decorates => ?_, ?_, fun chars vals read => ?_⟩
  · rw [core] at decorates
    exact base32Decode_decorated some_ decorates
  · obtain ⟨vals, buffer, left, run, -, -, kept⟩ := foldl_base32Step data
    exact ⟨vals, buffer, left, run, kept⟩
  · obtain ⟨buffer, left, out, run, -, kept⟩ := foldl_base32Push (base32Value_lt read)
    exact ⟨buffer, left, out, run, kept⟩

end Sentinel.Vault
