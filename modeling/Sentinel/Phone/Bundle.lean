import Sentinel.Vault.Bundle

/-!
# Bundles on the phone

`apps/ios-key/NorthKey/Crypto/VaultCrypto.swift`: `unpackBundle` reads the bundles the desktop
packs. Its lengths are signed: a length of eight bytes can be negative, which `fits` rejects,
and the sum of a position and a length can pass `Int.max`, which ends the app.
-/

namespace Sentinel.Phone

open Wire Vault

/-- `VaultCryptoError`. -/
inductive VaultCryptoError where
  | badFormat (what : String)
  | decryptFailed
  | wrongPassword
  | zstd (detail : String)
  deriving DecidableEq, Repr

/-- An array of bytes: its elements lie behind a header of 32 bytes in one allocation. -/
structure ByteArrayBuffer extends Buffer where
  header : bytes.length + 32 < 2 ^ 63

/-- `fits`: the sum is formed only for lengths that are not negative, and it traps past
`Int.max`. -/
def fits (b : Bytes) (pos : Nat) : Int → Checked VaultCryptoError Bool
  | .ofNat n => if pos + n < 2 ^ 63 then .ok (decide (pos + n ≤ b.length)) else .trap
  | .negSucc _ => .ok false

/-- `guard fits(n) else { throw .badFormat("file bundle") }`. -/
def guardFits (b : Bytes) (pos : Nat) (n : Int) : Checked VaultCryptoError Unit := do
  let inside ← fits b pos n
  Checked.require inside (.badFormat "file bundle")

/-- The nested `u32`. -/
def u32 (b : Bytes) (pos : Nat) : Checked VaultCryptoError Int := do
  let s ← Checked.slice b pos 4
  pure (leNat s)

/-- The nested `u64`: the eighth byte is shifted into the sign. -/
def u64 (b : Bytes) (pos : Nat) : Checked VaultCryptoError Int := do
  let s ← Checked.slice b pos 8
  pure (i64FromLe s)

/-- A length of `k` bytes and as many bytes after it. -/
def readSized (b : Bytes) (k : Nat) (number : Nat → Checked VaultCryptoError Int) (pos : Nat) :
    Checked VaultCryptoError (Bytes × Nat) := do
  guardFits b pos k
  let n ← number pos
  guardFits b (pos + k) n
  let body ← Checked.slice b (pos + k) n.toNat
  pure (body, pos + k + n.toNat)

/-- The body of the loop of `unpackBundle`. -/
def unpackEntry (b : Bytes) (pos : Nat) : Checked VaultCryptoError (BundleEntry × Nat) := do
  let (name, pos) ← readSized b 4 (u32 b) pos
  let name ← Checked.ofOption (.badFormat "file bundle") (fromUtf8 name)
  let (data, pos) ← readSized b 8 (u64 b) pos
  pure (⟨name, data⟩, pos)

def unpackEntries (b : Bytes) : Nat → Nat → List BundleEntry →
    Checked VaultCryptoError (List BundleEntry × Nat)
  | 0, pos, out => pure (out, pos)
  | count + 1, pos, out => do
      let (e, pos) ← unpackEntry b pos
      unpackEntries b count pos (out ++ [e])

/-- `VaultCrypto.unpackBundle`. -/
def unpackBundle (buffer : ByteArrayBuffer) : Checked VaultCryptoError (List BundleEntry) := do
  let b := buffer.bytes
  Checked.require (decide (9 ≤ b.length) && b.take 4 == nkarTag.take 4) (.badFormat "file bundle")
  let version ← Checked.slice b 4 1
  Checked.require (version == [0x01]) (.badFormat "file bundle")
  let count ← u32 b 5
  let (out, pos) ← unpackEntries b count.toNat 9 []
  Checked.require (pos == b.length) (.badFormat "file bundle")
  pure out

/-! ## The lengths that end the app -/

/-- What stands in a bundle up to an entry behind other entries. -/
def upTo (count : Nat) (before : List BundleEntry) : Bytes :=
  nkarTag ++ leBytes 4 count ++ before.flatMap packEntry

/-- What stands in an entry up to the body of length `n`, of the name or of the data. -/
def UpToBody (n : Nat) (front : Bytes) : Prop :=
  n < 2 ^ 32 ∧ front = leBytes 4 n ∨
    n < 2 ^ 63 ∧ ∃ name, (asBytes name).length < 2 ^ 32 ∧
      front = leBytes 4 (asBytes name).length ++ asBytes name ++ leBytes 8 n

/-- The string starts like a bundle of which some entries are complete, and a name or the data of
the next one is to end past `2 ^ 63 - 1`, with a length that is not past it. -/
def Overflows (b : Bytes) : Prop :=
  ∃ count before n front tail, count < 2 ^ 32 ∧ before.length < count ∧
    (∀ e ∈ before, entry.Fits e) ∧ UpToBody n front ∧ b = upTo count before ++ front ++ tail ∧
    2 ^ 63 ≤ (upTo count before ++ front).length + n

/-- The entry at a position has such a length. -/
def OverflowsAt (b : Bytes) (pos : Nat) : Prop :=
  (∃ n q, (le 4).readAt b pos = some (n, q) ∧ 2 ^ 63 ≤ q + n) ∨
    ∃ name p n q, entryName.readAt b pos = some (name, p) ∧ (le 8).readAt b p = some (n, q) ∧
      n < 2 ^ 63 ∧ 2 ^ 63 ≤ q + n

/-- One of `count` entries from a position on has such a length. -/
def OverflowsFrom (b : Bytes) (count pos : Nat) : Prop :=
  ∃ k < count, ∃ before p, (entry.times k).readAt b pos = some (before, p) ∧ OverflowsAt b p

theorem not_overflowsFrom_zero (b : Bytes) (pos : Nat) : ¬ OverflowsFrom b 0 pos := by
  rintro ⟨k, less, -⟩
  exact absurd less (Nat.not_lt_zero k)

theorem overflowsFrom_succ {b : Bytes} {count pos : Nat} (start : pos ≤ b.length) :
    OverflowsFrom b (count + 1) pos ↔ OverflowsAt b pos ∨
      ∃ e p, entry.readAt b pos = some (e, p) ∧ OverflowsFrom b count p := by
  constructor
  · rintro ⟨k, less, before, p, read, here⟩
    cases k with
    | zero =>
        rw [Codec.readAt_times_zero _ start] at read
        cases read
        exact .inl here
    | succ k =>
        rw [Codec.readAt_times_succ] at read
        obtain ⟨⟨e, p₁⟩, first, read⟩ := Option.bind_eq_some_iff.mp read
        obtain ⟨⟨rest, p₂⟩, later, eq⟩ := Option.map_eq_some_iff.mp read
        cases eq
        exact .inr ⟨e, p₁, first, k, Nat.lt_of_succ_lt_succ less, rest, _, later, here⟩
  · rintro (here | ⟨e, p, first, k, less, before, p', later, here⟩)
    · exact ⟨0, Nat.succ_pos _, [], pos, Codec.readAt_times_zero _ start, here⟩
    · refine ⟨k + 1, Nat.succ_lt_succ less, e :: before, p', ?_, here⟩
      rw [Codec.readAt_times_succ, first, Option.bind_some, later, Option.map_some]

/-! ## One entry -/

section Entry

variable (buffer : ByteArrayBuffer)

theorem fits_natCast {pos n : Nat} (small : pos + n < 2 ^ 63) :
    fits buffer.bytes pos n = .ok (decide (pos + n ≤ buffer.bytes.length)) := if_pos small

theorem fits_trap {pos n : Nat} (large : 2 ^ 63 ≤ pos + n) : fits buffer.bytes pos n = .trap :=
  if_neg (Nat.not_lt.mpr large)

theorem fits_neg {pos : Nat} {n : Int} (neg : n < 0) : fits buffer.bytes pos n = .ok false := by
  obtain ⟨m, rfl⟩ := Int.eq_negSucc_of_lt_zero neg
  rfl

/-- How the phone takes the bytes of a length. -/
structure Reads (k : Nat) (number : Nat → Checked VaultCryptoError Int) (value : Bytes → Int) :
    Prop where
  short : k ≤ 8
  number_eq : ∀ pos, number pos = (Checked.slice buffer.bytes pos k >>= fun s => .ok (value s))
  sign : ∀ s, s.length = k →
    value s = leNat s ∧ leNat s < 2 ^ 63 ∨ value s < 0 ∧ 2 ^ 63 ≤ leNat s

theorem reads_u32 : Reads buffer 4 (u32 buffer.bytes) fun s => leNat s := by
  refine ⟨by omega, fun _ => rfl, fun s length => .inl ⟨rfl, ?_⟩⟩
  have small := leNat_lt s
  rw [length] at small
  omega

theorem reads_u64 : Reads buffer 8 (u64 buffer.bytes) i64FromLe := by
  refine ⟨le_rfl, fun _ => rfl, fun s length => ?_⟩
  have bound := leNat_lt s
  rw [length] at bound
  obtain small | large := Nat.lt_or_ge (leNat s) (2 ^ 63)
  · exact .inl ⟨bmod_of_emod (by omega) (by omega) (by omega), small⟩
  · have eq : i64FromLe s = (leNat s : Int) - 2 ^ 64 :=
      bmod_of_emod (by omega) (by omega) (by omega)
    exact .inr ⟨by rw [eq]; omega, large⟩

variable {buffer}

/-- The length is read, and what `fits` makes of it. -/
theorem Reads.readSized_eq {k : Nat} {number : Nat → Checked VaultCryptoError Int}
    {value : Bytes → Int} (reads : Reads buffer k number value) {pos : Nat}
    (inside : pos + k ≤ buffer.bytes.length) : readSized buffer.bytes k number pos =
      (guardFits buffer.bytes (pos + k) (value ((buffer.bytes.drop pos).take k)) >>= fun _ =>
        Checked.slice buffer.bytes (pos + k) (value ((buffer.bytes.drop pos).take k)).toNat >>=
          fun body => .ok (body, pos + k + (value ((buffer.bytes.drop pos).take k)).toNat)) := by
  have header := buffer.header
  have fit := fits_natCast buffer (show pos + k < 2 ^ 63 by omega)
  rw [readSized, guardFits, fit, reads.number_eq, decide_eq_true inside, Checked.ok_bind, 
    Checked.require_true, Checked.ok_bind, Checked.slice_eq inside, Checked.ok_bind]
  rfl

/-- A length that passes `Int.max` traps. -/
theorem Reads.trap {k : Nat} {number : Nat → Checked VaultCryptoError Int} {value : Bytes → Int}
    (reads : Reads buffer k number value) {pos n q : Nat} (start : pos ≤ buffer.bytes.length)
    (read : (le k).readAt buffer.bytes pos = some (n, q)) (small : n < 2 ^ 63)
    (large : 2 ^ 63 ≤ q + n) : readSized buffer.bytes k number pos = .trap := by
  rw [readAt_le start] at read
  split at read
  · rename_i inside
    cases read
    have length : ((buffer.bytes.drop pos).take k).length = k := by
      rw [List.length_take, List.length_drop]
      omega
    obtain ⟨same, -⟩ | ⟨-, beyond⟩ := reads.sign _ length
    · rw [reads.readSized_eq inside, guardFits, same, fits_trap buffer large]
      rfl
    · exact absurd small (Nat.not_lt.mpr beyond)
  · cases read

/-- With a length that does not the phone reads what the format says. -/
theorem Reads.agrees {k : Nat} {number : Nat → Checked VaultCryptoError Int} {value : Bytes → Int}
    (reads : Reads buffer k number value) {pos : Nat} (start : pos ≤ buffer.bytes.length)
    (calm : ∀ n q, (le k).readAt buffer.bytes pos = some (n, q) → n < 2 ^ 63 → q + n < 2 ^ 63) :
    (readSized buffer.bytes k number pos).Agrees
      ((Codec.sized (le k)).readAt buffer.bytes pos) := by
  have header := buffer.header
  have short := reads.short
  rw [readAt_sized start]
  by_cases inside : pos + k ≤ buffer.bytes.length
  · have read : (le k).readAt buffer.bytes pos =
        some (leNat ((buffer.bytes.drop pos).take k), pos + k) := by
      rw [readAt_le start, if_pos inside]
    have length : ((buffer.bytes.drop pos).take k).length = k := by
      rw [List.length_take, List.length_drop]
      omega
    rw [reads.readSized_eq inside, guardFits]
    obtain ⟨same, small⟩ | ⟨neg, large⟩ := reads.sign _ length
    · rw [same, fits_natCast buffer (calm _ _ read small), Checked.ok_bind, Int.toNat_natCast]
      by_cases body : pos + k + leNat ((buffer.bytes.drop pos).take k) ≤ buffer.bytes.length
      · rw [if_pos ⟨inside, body⟩, decide_eq_true body, Checked.slice_eq body]
        rfl
      · rw [if_neg fun both => body both.2, decide_eq_false body]
        trivial
    · rw [fits_neg buffer neg, if_neg (by omega)]
      trivial
  · have fit := fits_natCast buffer (show pos + k < 2 ^ 63 by omega)
    rw [if_neg fun both => inside both.1, readSized, guardFits, fit, decide_eq_false inside]
    trivial

theorem unpackEntry_agrees {pos : Nat} (start : pos ≤ buffer.bytes.length)
    (calm : ¬ OverflowsAt buffer.bytes pos) :
    (unpackEntry buffer.bytes pos).Agrees (entry.readAt buffer.bytes pos) := by
  have name_calm : ∀ n q, (le 4).readAt buffer.bytes pos = some (n, q) → n < 2 ^ 63 →
      q + n < 2 ^ 63 := by
    intro n q read _
    by_contra large
    exact calm (.inl ⟨n, q, read, Nat.not_lt.mp large⟩)
  rw [entry, Codec.readAt_dependent, entryName, Codec.readAt_refine, Option.bind_assoc]
  refine ((reads_u32 buffer).agrees start name_calm).bind fun r named => ?_
  rw [Option.bind_map]
  refine (Checked.ofOption_agrees _ _).bind fun name utf8 => ?_
  refine ((reads_u64 buffer).agrees (readAt_le_length _ named) ?_).bind_ok _
  intro n q read small
  by_contra large
  refine calm (.inr ⟨name, r.2, n, q, ?_, read, small, Nat.not_lt.mp large⟩)
  rw [entryName, Codec.readAt_refine, named, Option.bind_some, utf8]
  rfl

theorem unpackEntry_trap {pos : Nat} (start : pos ≤ buffer.bytes.length)
    (overflows : OverflowsAt buffer.bytes pos) : unpackEntry buffer.bytes pos = .trap := by
  have small_of_read : ∀ {n q}, (le 4).readAt buffer.bytes pos = some (n, q) → n < 2 ^ 63 := by
    intro n q read
    have small : n < 256 ^ 4 := (((le 4).readAt_iff start).mp read).1
    omega
  by_cases first : ∃ n q, (le 4).readAt buffer.bytes pos = some (n, q) ∧ 2 ^ 63 ≤ q + n
  · obtain ⟨n, q, read, large⟩ := first
    rw [unpackEntry, (reads_u32 buffer).trap start read (small_of_read read) large]
    rfl
  · obtain name | ⟨name, p, n, q, named, read, small, large⟩ := overflows
    · exact absurd name first
    · rw [entryName, Codec.readAt_refine] at named
      obtain ⟨⟨s, p'⟩, sized, named⟩ := Option.bind_eq_some_iff.mp named
      obtain ⟨x, utf8, eq⟩ := Option.map_eq_some_iff.mp named
      cases eq
      have name_read := (reads_u32 buffer).agrees start fun n q read _ =>
        Nat.not_le.mp fun large => first ⟨n, q, read, large⟩
      rw [sized, Checked.agrees_some] at name_read
      dsimp only at utf8
      rw [unpackEntry, name_read, Checked.ok_bind]
      dsimp only
      rw [utf8]
      change (readSized buffer.bytes 8 (u64 buffer.bytes) p' >>= _) = _
      rw [(reads_u64 buffer).trap (readAt_le_length _ sized) read small large]
      rfl

end Entry

/-! ## All entries -/

section Loop

variable {buffer : ByteArrayBuffer}

theorem unpackEntries_agrees (count : Nat) {pos : Nat} (start : pos ≤ buffer.bytes.length)
    (calm : ¬ OverflowsFrom buffer.bytes count pos) (out : List BundleEntry) :
    (unpackEntries buffer.bytes count pos out).Agrees
      (((entry.times count).readAt buffer.bytes pos).map fun r => (out ++ r.1, r.2)) := by
  induction count generalizing pos out with
  | zero =>
      rw [Codec.readAt_times_zero _ start, Option.map_some, List.append_nil]
      rfl
  | succ count ih =>
      rw [overflowsFrom_succ start, not_or] at calm
      rw [Codec.readAt_times_succ, Option.map_bind]
      refine (unpackEntry_agrees start calm.1).bind fun r read => ?_
      rw [Function.comp_apply, Option.map_map]
      have later := ih (readAt_le_length _ read) (fun over_ => calm.2 ⟨r.1, r.2, read, over_⟩)
        (out ++ [r.1])
      simpa only [Function.comp_def, List.append_assoc, List.singleton_append] using later

theorem unpackEntries_trap (count : Nat) {pos : Nat} (start : pos ≤ buffer.bytes.length)
    (overflows : OverflowsFrom buffer.bytes count pos) (out : List BundleEntry) :
    unpackEntries buffer.bytes count pos out = .trap := by
  induction count generalizing pos out with
  | zero => exact absurd overflows (not_overflowsFrom_zero _ _)
  | succ count ih =>
      rw [unpackEntries]
      by_cases here : OverflowsAt buffer.bytes pos
      · rw [unpackEntry_trap start here]
        rfl
      · obtain now | ⟨e, p, read, later⟩ := (overflowsFrom_succ start).mp overflows
        · exact absurd now here
        · have agrees := unpackEntry_agrees start here
          rw [read, Checked.agrees_some] at agrees
          rw [agrees, Checked.ok_bind]
          exact ih (readAt_le_length _ read) later _

theorem unpackBundle_eq : unpackBundle buffer =
    withHeader buffer.bytes (.badFormat "file bundle") (.badFormat "file bundle") fun s =>
      unpackEntries buffer.bytes (leNat s) 9 [] >>= fun x =>
        Checked.require (x.2 == buffer.bytes.length) (.badFormat "file bundle") >>= fun _ =>
          .ok x.1 := by
  simp only [unpackBundle, withHeader, u32, Checked.bind_assoc, Checked.pure_eq, Checked.ok_bind,
    Int.toNat_natCast]

theorem unpackBundle_agrees (calm : ¬ (HasHeader buffer.bytes ∧
    OverflowsFrom buffer.bytes (leNat ((buffer.bytes.drop 5).take 4)) 9)) :
    (unpackBundle buffer).Agrees (wholeBundle buffer.bytes) := by
  rw [unpackBundle_eq]
  by_cases header : HasHeader buffer.bytes
  · rw [withHeader_eq header, wholeBundle_eq header]
    exact agrees_whole (unpackEntries_agrees _ header.1 (fun flow => calm ⟨header, flow⟩) []) _
  · rw [wholeBundle_none header]
    exact withHeader_err header _ _ _

theorem unpackBundle_trap (header : HasHeader buffer.bytes)
    (overflows : OverflowsFrom buffer.bytes (leNat ((buffer.bytes.drop 5).take 4)) 9) :
    unpackBundle buffer = .trap := by
  rw [unpackBundle_eq, withHeader_eq header, unpackEntries_trap _ header.1 overflows]
  rfl

end Loop

/-! ## The strings with such a length -/

theorem length_upTo (count : Nat) (before : List BundleEntry) :
    (upTo count before).length = 9 + (before.flatMap packEntry).length := by
  rw [upTo, List.length_append, List.length_append, length_leBytes]
  rfl

/-- What `upTo` writes is the header and the entries in front. -/
theorem header_upTo {count : Nat} (small : count < 2 ^ 32) (before : List BundleEntry)
    (rest : Bytes) : HasHeader (upTo count before ++ rest) ∧
      leNat (((upTo count before ++ rest).drop 5).take 4) = count ∧
      (upTo count before ++ rest).drop 9 = before.flatMap packEntry ++ rest := by
  have whole : upTo count before ++ rest =
      nkarTag ++ (leBytes 4 count ++ (before.flatMap packEntry ++ rest)) := by
    simp only [upTo, List.append_assoc]
  have four : (leBytes 4 count).length = 4 := length_leBytes 4 count
  have five : nkarTag.length = 5 := rfl
  rw [whole]
  refine ⟨⟨?_, List.take_left' five⟩, ?_, ?_⟩
  · rw [List.length_append, List.length_append, four, five]
    omega
  · rw [List.drop_left' five, List.take_left' four, leNat_leBytes]
    exact Nat.mod_eq_of_lt small
  · rw [← List.append_assoc, List.drop_left' (by rw [List.length_append, four, five])]

/-- A value stands at a position. -/
theorem readAt_append {α : Type} (c : Codec UInt8 α) {b rest : Bytes} {pos : Nat} {a : α}
    (start : pos ≤ b.length) (fits_ : c.Fits a) (here : b.drop pos = c.encode a ++ rest) :
    c.readAt b pos = some (a, pos + (c.encode a).length) ∧
      b.drop (pos + (c.encode a).length) = rest := by
  have behind : b.drop (pos + (c.encode a).length) = rest := by
    rw [← List.drop_drop, here, List.drop_left]
  exact ⟨(c.readAt_iff start).mpr ⟨fits_, by rw [behind, here], rfl⟩, behind⟩

theorem overflowsAt_of_upToBody {b front tail : Bytes} {n pos : Nat} (start : pos ≤ b.length)
    (body : UpToBody n front) (here : b.drop pos = front ++ tail)
    (large : 2 ^ 63 ≤ pos + front.length + n) : OverflowsAt b pos := by
  obtain ⟨small, rfl⟩ | ⟨small, name, short, rfl⟩ := body
  · have read := (readAt_append (le 4) start (show n < 256 ^ 4 from small) here).1
    exact .inl ⟨n, _, read, large⟩
  · rw [List.append_assoc] at here
    obtain ⟨named, behind⟩ := readAt_append entryName start (a := name) ⟨short, rfl⟩ here
    have eight : n < 256 ^ 8 := lt_trans small (by norm_num)
    have read := (readAt_append (le 8) (readAt_le_length _ named) eight behind).1
    refine .inr ⟨name, _, n, _, named, read, small, ?_⟩
    rw [List.length_append, ← Nat.add_assoc] at large
    exact large

theorem upToBody_of_overflowsAt {b : Bytes} {pos : Nat} (start : pos ≤ b.length)
    (overflows : OverflowsAt b pos) : ∃ n front tail, UpToBody n front ∧
      b.drop pos = front ++ tail ∧ 2 ^ 63 ≤ pos + front.length + n := by
  obtain ⟨n, q, read, large⟩ | ⟨name, p, n, q, named, read, small, large⟩ := overflows
  · obtain ⟨small, here, rfl⟩ := ((le 4).readAt_iff start).mp read
    exact ⟨n, leBytes 4 n, _, .inl ⟨small, rfl⟩, here, large⟩
  · obtain ⟨short, here, rfl⟩ := (entryName.readAt_iff start).mp named
    obtain ⟨-, there, rfl⟩ := ((le 8).readAt_iff (readAt_le_length _ named)).mp read
    have whole := here.trans ((congrArg _ there).trans (List.append_assoc ..).symm)
    refine ⟨n, _, _, .inr ⟨small, name, short.1, rfl⟩, whole, ?_⟩
    rw [List.length_append, ← Nat.add_assoc]
    exact large

/-- `Overflows` in terms of what a decoder reads. -/
theorem overflows_iff {b : Bytes} : Overflows b ↔
    HasHeader b ∧ OverflowsFrom b (leNat ((b.drop 5).take 4)) 9 := by
  constructor
  · rintro ⟨count, before, n, front, tail, small, less, fits_, body, rfl, large⟩
    rw [List.append_assoc]
    obtain ⟨header, same, rest⟩ := header_upTo small before (front ++ tail)
    rw [same]
    obtain ⟨read, behind⟩ := readAt_append (entry.times before.length) header.1 (a := before)
      ⟨rfl, fits_⟩ (by rw [rest, ← encode_entry]; rfl)
    refine ⟨header, before.length, less, before, _, read, ?_⟩
    refine overflowsAt_of_upToBody (readAt_le_length _ read) body behind ?_
    rw [List.length_append, length_upTo, ← encode_entry] at large
    exact large
  · rintro ⟨⟨long, tag⟩, k, less, before, p, read, here⟩
    obtain ⟨⟨rfl, fits_⟩, rest, place⟩ := ((entry.times k).readAt_iff long).mp read
    obtain ⟨n, front, tail, body, there, large⟩ :=
      upToBody_of_overflowsAt (readAt_le_length _ read) here
    have four : ((b.drop 5).take 4).length = 4 := by
      rw [List.length_take, List.length_drop]
      omega
    have small := leNat_lt ((b.drop 5).take 4)
    rw [four] at small
    have front_ : upTo (leNat ((b.drop 5).take 4)) before ++ front ++ tail = b := by
      have count : leBytes 4 (leNat ((b.drop 5).take 4)) = (b.drop 5).take 4 := by
        nth_rewrite 1 [← four]
        exact leBytes_leNat _
      rw [upTo, count, ← tag, List.append_assoc, ← there, ← encode_entry, List.append_assoc]
      change _ ++ (((entry.times before.length).encode before) ++ b.drop p) = b
      rw [← rest, ← List.take_add, List.take_append_drop]
    refine ⟨_, before, n, front, tail, small, less, fits_, body, front_.symm, ?_⟩
    rw [List.length_append, length_upTo, ← encode_entry]
    rw [place] at large
    exact large

/-- The phone ends without a trap and reads a string as the desktop does, the same entries or
none, just if the string has no length that passes `2 ^ 63 - 1` from its position. -/
theorem reads_alike_iff (buffer : ByteArrayBuffer) :
    (unpackBundle buffer ≠ .trap ∧ ∀ entries,
      unpackBundle buffer = .ok entries ↔ Vault.unpackBundle buffer.toBuffer = .ok entries) ↔
      ¬ Overflows buffer.bytes := by
  rw [overflows_iff]
  constructor
  · rintro ⟨total, -⟩ ⟨header, overflows⟩
    exact total (unpackBundle_trap header overflows)
  · intro calm
    obtain ⟨total, values⟩ := (unpackBundle_agrees calm).total
    refine ⟨total, fun entries => (values entries).trans ?_⟩
    exact ((Vault.unpackBundle_agrees buffer.toBuffer).total.2 entries).symm

/-- A bundle of one file without a name, whose data is said to have `2 ^ 63 - 1` bytes. -/
def crashBundle : ByteArrayBuffer where
  bytes := [0x4E, 0x4B, 0x41, 0x52, 0x01, 1, 0, 0, 0, 0, 0, 0, 0,
    0xFF, 0xFF, 0xFF, 0xFF, 0xFF, 0xFF, 0xFF, 0x7F]
  bounded := by decide
  header := by decide

theorem crashBundle_overflows : Overflows crashBundle.bytes := by
  refine ⟨1, [], 2 ^ 63 - 1, leBytes 4 0 ++ asBytes "" ++ leBytes 8 (2 ^ 63 - 1), [],
    by norm_num, Nat.one_pos, List.forall_mem_nil _, .inr ⟨by norm_num, "", ?_, rfl⟩, ?_, ?_⟩
  · decide
  · decide +kernel
  · decide +kernel

/-- The bundle ends the phone's app, and the desktop rejects it. -/
theorem crashBundle_traps : ¬ (∀ buffer : ByteArrayBuffer, unpackBundle buffer ≠ .trap ∧
    ∀ entries, unpackBundle buffer = .ok entries ↔
      Vault.unpackBundle buffer.toBuffer = .ok entries) := by
  intro alike
  obtain ⟨header, overflows⟩ := overflows_iff.mp crashBundle_overflows
  exact (alike crashBundle).1 (unpackBundle_trap header overflows)

end Sentinel.Phone
