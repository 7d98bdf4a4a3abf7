import Sentinel.Lib.Utf8

/-!
# CBOR

Data items of RFC 8949 with heads of definite length: integers, strings of bytes and of text, arrays
and maps. `decode` reads an item and leaves the rest, whatever the sizes of its heads are; `encode`
writes it with the shortest heads. A decoder reads back what was written (`decode_encode`), and no
head that reads as an argument is shorter than the one that is written (`encodeHead_shortest`).

`Sorted` is the order of the keys of a map in the canonical form: first the major type, then the
length, then the bytes.
-/

namespace Cbor

/-- A data item. -/
inductive Item where
  | int (v : Int)
  | bytes (b : List UInt8)
  | text (s : String)
  | array (items : List Item)
  | map (pairs : List (Item × Item))

/-! ## Heads -/

/-- The number with these bytes, most significant first. -/
def beNat (b : List UInt8) : Nat := b.foldl (fun n x => 256 * n + x.toNat) 0

/-- The bytes of a number, most significant first. -/
def beBytes : Nat → Nat → List UInt8
  | 0, _ => []
  | k + 1, n => beBytes k (n / 256) ++ [UInt8.ofNat (n % 256)]

/-- A head: the major type, the argument, and the bytes after it. -/
def decodeHead : List UInt8 → Option (Nat × Nat × List UInt8)
  | [] => none
  | first :: rest =>
      let major := first.toNat / 32
      let info := first.toNat % 32
      if info < 24 then some (major, info, rest)
      else if info < 28 then
        let k := 2 ^ (info - 24)
        if k ≤ rest.length then some (major, beNat (rest.take k), rest.drop k) else none
      else none

/-- The shortest head. -/
def encodeHead (major arg : Nat) : List UInt8 :=
  if arg < 24 then [UInt8.ofNat (32 * major + arg)]
  else if arg < 2 ^ 8 then UInt8.ofNat (32 * major + 24) :: beBytes 1 arg
  else if arg < 2 ^ 16 then UInt8.ofNat (32 * major + 25) :: beBytes 2 arg
  else if arg < 2 ^ 32 then UInt8.ofNat (32 * major + 26) :: beBytes 4 arg
  else UInt8.ofNat (32 * major + 27) :: beBytes 8 arg

@[simp] theorem length_beBytes (k n : Nat) : (beBytes k n).length = k := by
  induction k generalizing n with
  | zero => rfl
  | succ k ih => rw [beBytes, List.length_append, ih, List.length_singleton]

theorem beNat_append_singleton (b : List UInt8) (x : UInt8) :
    beNat (b ++ [x]) = 256 * beNat b + x.toNat := by
  rw [beNat, List.foldl_concat]
  rfl

theorem beNat_beBytes {k n : Nat} (small : n < 256 ^ k) : beNat (beBytes k n) = n := by
  induction k generalizing n with
  | zero =>
      rw [pow_zero, Nat.lt_one_iff] at small
      rw [small]
      rfl
  | succ k ih =>
      have high : n / 256 < 256 ^ k := Nat.div_lt_of_lt_mul (by rwa [pow_succ, Nat.mul_comm] at small)
      have low : (UInt8.ofNat (n % 256)).toNat = n % 256 :=
        UInt8.toNat_ofNat_of_lt' (Nat.mod_lt n (by norm_num))
      rw [beBytes, beNat_append_singleton, ih high, low, Nat.div_add_mod]

theorem beNat_lt (b : List UInt8) : beNat b < 256 ^ b.length := by
  induction b using List.reverseRecOn with
  | nil => exact Nat.one_pos
  | append_singleton b x ih =>
      have byte := x.toNat_lt
      rw [beNat_append_singleton, List.length_append, List.length_singleton, pow_succ]
      omega

section Heads

variable {major arg : Nat} {rest : List UInt8}

theorem decodeHead_small (few : major < 8) (small : arg < 24) :
    decodeHead (UInt8.ofNat (32 * major + arg) :: rest) = some (major, arg, rest) := by
  have first : (UInt8.ofNat (32 * major + arg)).toNat = 32 * major + arg :=
    UInt8.toNat_ofNat_of_lt' (show 32 * major + arg < 256 by omega)
  have high : (32 * major + arg) / 32 = major := by omega
  have low : (32 * major + arg) % 32 = arg := by omega
  rw [decodeHead]
  dsimp only
  rw [first, high, low, if_pos small]

theorem decodeHead_wide (few : major < 8) {j : Nat} (size : j < 4) (small : arg < 256 ^ 2 ^ j) :
    decodeHead (UInt8.ofNat (32 * major + (24 + j)) :: (beBytes (2 ^ j) arg ++ rest)) =
      some (major, arg, rest) := by
  have first : (UInt8.ofNat (32 * major + (24 + j))).toNat = 32 * major + (24 + j) :=
    UInt8.toNat_ofNat_of_lt' (show 32 * major + (24 + j) < 256 by omega)
  have high : (32 * major + (24 + j)) / 32 = major := by omega
  have low : (32 * major + (24 + j)) % 32 = 24 + j := by omega
  have long : 2 ^ j ≤ (beBytes (2 ^ j) arg ++ rest).length := by
    rw [List.length_append, length_beBytes]
    omega
  rw [decodeHead]
  dsimp only
  rw [first, high, low, if_neg (by omega), if_pos (by omega), Nat.add_sub_cancel_left, if_pos long,
    List.take_left' (length_beBytes _ _), List.drop_left' (length_beBytes _ _), beNat_beBytes small]

/-- A head reads back. -/
theorem decodeHead_encodeHead (few : major < 8) (small : arg < 2 ^ 64) (rest : List UInt8) :
    decodeHead (encodeHead major arg ++ rest) = some (major, arg, rest) := by
  rw [encodeHead]
  split
  · rename_i least
    exact decodeHead_small few least
  · split
    · rename_i byte
      exact decodeHead_wide few (j := 0) (by norm_num) byte
    · split
      · rename_i two
        exact decodeHead_wide few (j := 1) (by norm_num) two
      · split
        · rename_i four
          exact decodeHead_wide few (j := 2) (by norm_num) four
        · exact decodeHead_wide few (j := 3) (by norm_num) small

theorem encodeHead_ne_nil (major arg : Nat) : encodeHead major arg ≠ [] := by
  rw [encodeHead]
  split
  · exact List.cons_ne_nil _ _
  · split
    · exact List.cons_ne_nil _ _
    · split
      · exact List.cons_ne_nil _ _
      · split <;> exact List.cons_ne_nil _ _

/-- The head of an argument below a power is no longer than the bytes of the power. -/
theorem length_encodeHead_le {j : Nat} (size : j < 4) (small : arg < 256 ^ 2 ^ j) :
    (encodeHead major arg).length ≤ 1 + 2 ^ j := by
  have powers : ∀ j < 4, (256 ^ 2 ^ j ≤ 2 ^ 8 ∨ 1 ≤ j) ∧ (256 ^ 2 ^ j ≤ 2 ^ 16 ∨ 2 ≤ j) ∧
      (256 ^ 2 ^ j ≤ 2 ^ 32 ∨ 3 ≤ j) := by decide
  obtain ⟨one, two, three⟩ := powers j size
  have positive := Nat.one_le_two_pow (n := j)
  have least1 : 1 ≤ j → 2 ≤ 2 ^ j := fun le => Nat.pow_le_pow_right two_pos le
  have least2 : 2 ≤ j → 4 ≤ 2 ^ j := fun le => Nat.pow_le_pow_right two_pos le
  have least3 : 3 ≤ j → 8 ≤ 2 ^ j := fun le => Nat.pow_le_pow_right two_pos le
  rw [encodeHead]
  split
  · rw [List.length_singleton]
    omega
  · split
    · rw [List.length_cons, length_beBytes]
      omega
    · split
      · rw [List.length_cons, length_beBytes]
        omega
      · split
        · rw [List.length_cons, length_beBytes]
          omega
        · rw [List.length_cons, length_beBytes]
          omega

/-- No head of an argument is shorter than the one that is written. -/
theorem encodeHead_shortest {b : List UInt8} (read : decodeHead b = some (major, arg, rest)) :
    (encodeHead major arg).length + rest.length ≤ b.length := by
  cases b with
  | nil => cases read
  | cons first tail =>
      rw [decodeHead] at read
      dsimp only at read
      split at read
      · rename_i least
        cases read
        rw [encodeHead, if_pos least, List.length_singleton, List.length_cons, Nat.add_comm]
      · rename_i least
        split at read
        · rename_i size
          split at read
          · rename_i long
            cases read
            have below := beNat_lt (tail.take (2 ^ (first.toNat % 32 - 24)))
            rw [List.length_take_of_le long] at below
            have size : first.toNat % 32 - 24 < 4 := by omega
            have short := @length_encodeHead_le (first.toNat / 32) _ _ size below
            rw [List.length_drop, List.length_cons]
            omega
          · cases read
        · cases read

end Heads

/-! ## Items -/

/-- So many readings, one after the other. -/
def decodeMany {α : Type} (read : List UInt8 → Option (α × List UInt8)) :
    Nat → List UInt8 → Option (List α × List UInt8)
  | 0, b => some ([], b)
  | n + 1, b =>
      (read b).bind fun first =>
        (decodeMany read n first.2).map fun others => (first.1 :: others.1, others.2)

/-- A key and its value. -/
def decodePair (read : List UInt8 → Option (Item × List UInt8)) (b : List UInt8) :
    Option ((Item × Item) × List UInt8) :=
  (read b).bind fun k => (read k.2).map fun v => ((k.1, v.1), v.2)

/-- The item a head begins, its own items read by `read`. -/
def decodeContents (read : List UInt8 → Option (Item × List UInt8)) (major arg : Nat)
    (rest : List UInt8) : Option (Item × List UInt8) :=
  match major with
  | 0 => some (.int arg, rest)
  | 1 => some (.int (-1 - arg), rest)
  | 2 => if arg ≤ rest.length then some (.bytes (rest.take arg), rest.drop arg) else none
  | 3 =>
      if arg ≤ rest.length then
        (String.fromUTF8? ⟨(rest.take arg).toArray⟩).map fun s => (.text s, rest.drop arg)
      else none
  | 4 => (decodeMany read arg rest).map fun found => (.array found.1, found.2)
  | 5 => (decodeMany (decodePair read) arg rest).map fun found => (.map found.1, found.2)
  | _ => none

/-- An item of at most this depth, and the bytes after it. -/
def decode : Nat → List UInt8 → Option (Item × List UInt8)
  | 0, _ => none
  | depth + 1, b =>
      (decodeHead b).bind fun head => decodeContents (decode depth) head.1 head.2.1 head.2.2

/-- The item these bytes are, with none left. No item is deeper than it is long. -/
def decodeAll (b : List UInt8) : Option Item :=
  match decode b.length b with
  | some (item, []) => some item
  | _ => none

mutual

/-- The bytes of an item, every head the shortest. -/
def encode : Item → List UInt8
  | .int v => if v < 0 then encodeHead 1 (-1 - v).toNat else encodeHead 0 v.toNat
  | .bytes b => encodeHead 2 b.length ++ b
  | .text s => encodeHead 3 (Sentinel.Utf8.bytes s).length ++ Sentinel.Utf8.bytes s
  | .array items => encodeHead 4 items.length ++ encodeItems items
  | .map pairs => encodeHead 5 pairs.length ++ encodePairs pairs

def encodeItems : List Item → List UInt8
  | [] => []
  | item :: items => encode item ++ encodeItems items

def encodePair : Item × Item → List UInt8
  | (k, v) => encode k ++ encode v

def encodePairs : List (Item × Item) → List UInt8
  | [] => []
  | pair :: pairs => encodePair pair ++ encodePairs pairs

end

mutual

/-- How deep the items in an item nest, itself counted. -/
def depth : Item → Nat
  | .int _ => 1
  | .bytes _ => 1
  | .text _ => 1
  | .array items => 1 + depthItems items
  | .map pairs => 1 + depthPairs pairs

def depthItems : List Item → Nat
  | [] => 0
  | item :: items => max (depth item) (depthItems items)

def depthPair : Item × Item → Nat
  | (k, v) => max (depth k) (depth v)

def depthPairs : List (Item × Item) → Nat
  | [] => 0
  | pair :: pairs => max (depthPair pair) (depthPairs pairs)

end

mutual

/-- Every argument in an item fits a head. -/
def Fits : Item → Prop
  | .int v => -2 ^ 64 ≤ v ∧ v < 2 ^ 64
  | .bytes b => b.length < 2 ^ 64
  | .text s => (Sentinel.Utf8.bytes s).length < 2 ^ 64
  | .array items => items.length < 2 ^ 64 ∧ FitItems items
  | .map pairs => pairs.length < 2 ^ 64 ∧ FitPairs pairs

def FitItems : List Item → Prop
  | [] => True
  | item :: items => Fits item ∧ FitItems items

def FitPair : Item × Item → Prop
  | (k, v) => Fits k ∧ Fits v

def FitPairs : List (Item × Item) → Prop
  | [] => True
  | pair :: pairs => FitPair pair ∧ FitPairs pairs

end

/-- The major type of an item, given by its bytes. -/
def majorType : List UInt8 → Nat
  | [] => 0
  | first :: _ => first.toNat / 32

/-- The order of two keys, each given by its bytes. -/
def KeyBefore (a b : List UInt8) : Prop :=
  majorType a < majorType b ∨
    majorType a = majorType b ∧ (a.length < b.length ∨ a.length = b.length ∧ a < b)

instance : DecidableRel KeyBefore := fun a b =>
  inferInstanceAs (Decidable (majorType a < majorType b ∨
    majorType a = majorType b ∧ (a.length < b.length ∨ a.length = b.length ∧ a < b)))

/-- The keys of a map stand in order. -/
def Sorted (pairs : List (Item × Item)) : Prop :=
  (pairs.map fun pair => encode pair.1).Pairwise KeyBefore

mutual

/-- The keys of every map in an item stand in order. -/
def Canonical : Item → Prop
  | .int _ => True
  | .bytes _ => True
  | .text _ => True
  | .array items => CanonicalItems items
  | .map pairs => Sorted pairs ∧ CanonicalPairs pairs

def CanonicalItems : List Item → Prop
  | [] => True
  | item :: items => Canonical item ∧ CanonicalItems items

def CanonicalPair : Item × Item → Prop
  | (k, v) => Canonical k ∧ Canonical v

def CanonicalPairs : List (Item × Item) → Prop
  | [] => True
  | pair :: pairs => CanonicalPair pair ∧ CanonicalPairs pairs

end

/-! ## Reading back -/

theorem fromUTF8?_bytes (s : String) :
    String.fromUTF8? ⟨(Sentinel.Utf8.bytes s).toArray⟩ = some s := by
  have same : (⟨(Sentinel.Utf8.bytes s).toArray⟩ : ByteArray) = s.toUTF8 :=
    ByteArray.ext Array.toArray_toList
  have valid : s.toUTF8.IsValidUTF8 := s.isValidUTF8
  rw [same, String.fromUTF8?, dif_pos valid]
  exact congrArg some (String.toByteArray_inj.mp rfl)

theorem encode_ne_nil (item : Item) : encode item ≠ [] := by
  cases item with
  | int v =>
      rw [encode]
      split <;> exact encodeHead_ne_nil _ _
  | bytes b => exact List.append_ne_nil_of_left_ne_nil (encodeHead_ne_nil _ _) _
  | text s => exact List.append_ne_nil_of_left_ne_nil (encodeHead_ne_nil _ _) _
  | array items =>
      rw [encode]
      exact List.append_ne_nil_of_left_ne_nil (encodeHead_ne_nil _ _) _
  | map pairs =>
      rw [encode]
      exact List.append_ne_nil_of_left_ne_nil (encodeHead_ne_nil _ _) _

mutual

/-- Each level of an item has a head of its own. -/
theorem depth_le_length (item : Item) : depth item ≤ (encode item).length := by
  cases item with
  | int v => exact List.length_pos_of_ne_nil (encode_ne_nil _)
  | bytes b => exact List.length_pos_of_ne_nil (encode_ne_nil _)
  | text s => exact List.length_pos_of_ne_nil (encode_ne_nil _)
  | array items =>
      have head := List.length_pos_of_ne_nil (encodeHead_ne_nil 4 items.length)
      have inner := depthItems_le_length items
      rw [depth, encode, List.length_append]
      omega
  | map pairs =>
      have head := List.length_pos_of_ne_nil (encodeHead_ne_nil 5 pairs.length)
      have inner := depthPairs_le_length pairs
      rw [depth, encode, List.length_append]
      omega

theorem depthItems_le_length (items : List Item) :
    depthItems items ≤ (encodeItems items).length := by
  cases items with
  | nil => exact Nat.zero_le _
  | cons item items =>
      have first := depth_le_length item
      have others := depthItems_le_length items
      rw [depthItems, encodeItems, List.length_append]
      omega

theorem depthPair_le_length (pair : Item × Item) :
    depthPair pair ≤ (encodePair pair).length := by
  cases pair with
  | mk k v =>
      have first := depth_le_length k
      have second := depth_le_length v
      rw [depthPair, encodePair, List.length_append]
      omega

theorem depthPairs_le_length (pairs : List (Item × Item)) :
    depthPairs pairs ≤ (encodePairs pairs).length := by
  cases pairs with
  | nil => exact Nat.zero_le _
  | cons pair pairs =>
      have first := depthPair_le_length pair
      have others := depthPairs_le_length pairs
      rw [depthPairs, encodePairs, List.length_append]
      omega

end

theorem decode_head {major arg n : Nat} (few : major < 8) (fits : arg < 2 ^ 64)
    (rest : List UInt8) :
    decode (n + 1) (encodeHead major arg ++ rest) = decodeContents (decode n) major arg rest := by
  rw [decode, decodeHead_encodeHead few fits, Option.bind_some]

theorem decode_int {v : Int} (low : -2 ^ 64 ≤ v) (high : v < 2 ^ 64) (n : Nat)
    (rest : List UInt8) : decode (n + 1) (encode (.int v) ++ rest) = some (.int v, rest) := by
  rw [encode]
  split
  · rename_i below
    have value : (-1 - ((-1 - v).toNat : Int)) = v := by omega
    rw [decode_head (by norm_num) (by omega)]
    exact congrArg (fun v => some (Item.int v, rest)) value
  · rename_i above
    have value : ((v.toNat : Nat) : Int) = v := by omega
    rw [decode_head (by norm_num) (by omega)]
    exact congrArg (fun v => some (Item.int v, rest)) value

theorem decode_bytes {b : List UInt8} (fits : b.length < 2 ^ 64) (n : Nat) (rest : List UInt8) :
    decode (n + 1) (encode (.bytes b) ++ rest) = some (.bytes b, rest) := by
  rw [encode, List.append_assoc, decode_head (by norm_num) fits]
  refine (if_pos (by rw [List.length_append]; omega)).trans ?_
  rw [List.take_left, List.drop_left]

theorem decode_text {s : String} (fits : (Sentinel.Utf8.bytes s).length < 2 ^ 64) (n : Nat)
    (rest : List UInt8) :
    decode (n + 1) (encode (.text s) ++ rest) = some (.text s, rest) := by
  rw [encode, List.append_assoc, decode_head (by norm_num) fits]
  refine (if_pos (by rw [List.length_append]; omega)).trans ?_
  rw [List.take_left, List.drop_left, fromUTF8?_bytes, Option.map_some]

mutual

/-- An item reads back from its bytes, whatever stands after it. -/
theorem decode_encode (item : Item) (fits : Fits item) {n : Nat} (deep : depth item ≤ n)
    (rest : List UInt8) : decode n (encode item ++ rest) = some (item, rest) := by
  cases n with
  | zero =>
      have positive : 0 < depth item := by
        cases item <;> rw [depth] <;> omega
      omega
  | succ n =>
      cases item with
      | int v => exact decode_int fits.1 fits.2 n rest
      | bytes b => exact decode_bytes fits n rest
      | text s => exact decode_text fits n rest
      | array items =>
          rw [depth] at deep
          rw [Fits] at fits
          rw [encode, List.append_assoc, decode_head (by norm_num) fits.1]
          have read := decodeMany_encodeItems items fits.2 (n := n) (by omega) rest
          exact congrArg (Option.map fun found => (Item.array found.1, found.2)) read
      | map pairs =>
          rw [depth] at deep
          rw [Fits] at fits
          rw [encode, List.append_assoc, decode_head (by norm_num) fits.1]
          have read := decodeMany_encodePairs pairs fits.2 (n := n) (by omega) rest
          exact congrArg (Option.map fun found => (Item.map found.1, found.2)) read

theorem decodeMany_encodeItems (items : List Item) (fits : FitItems items) {n : Nat}
    (deep : depthItems items ≤ n) (rest : List UInt8) :
    decodeMany (decode n) items.length (encodeItems items ++ rest) = some (items, rest) := by
  cases items with
  | nil => rfl
  | cons item items =>
      rw [depthItems] at deep
      rw [FitItems] at fits
      rw [List.length_cons, decodeMany, encodeItems, List.append_assoc,
        decode_encode item fits.1 (by omega), Option.bind_some]
      dsimp only
      rw [decodeMany_encodeItems items fits.2 (by omega) rest, Option.map_some]

theorem decodePair_encodePair (pair : Item × Item) (fits : FitPair pair) {n : Nat}
    (deep : depthPair pair ≤ n) (rest : List UInt8) :
    decodePair (decode n) (encodePair pair ++ rest) = some (pair, rest) := by
  cases pair with
  | mk k v =>
      rw [depthPair] at deep
      rw [FitPair] at fits
      rw [decodePair, encodePair, List.append_assoc, decode_encode k fits.1 (by omega),
        Option.bind_some]
      dsimp only
      rw [decode_encode v fits.2 (by omega), Option.map_some]

theorem decodeMany_encodePairs (pairs : List (Item × Item)) (fits : FitPairs pairs) {n : Nat}
    (deep : depthPairs pairs ≤ n) (rest : List UInt8) :
    decodeMany (decodePair (decode n)) pairs.length (encodePairs pairs ++ rest) =
      some (pairs, rest) := by
  cases pairs with
  | nil => rfl
  | cons pair pairs =>
      rw [depthPairs] at deep
      rw [FitPairs] at fits
      rw [List.length_cons, decodeMany, encodePairs, List.append_assoc,
        decodePair_encodePair pair fits.1 (by omega), Option.bind_some]
      dsimp only
      rw [decodeMany_encodePairs pairs fits.2 (by omega) rest, Option.map_some]

end

/-- The bytes of an item are that item and nothing more. -/
theorem decodeAll_encode {item : Item} (fits : Fits item) :
    decodeAll (encode item) = some item := by
  have read := decode_encode item fits (depth_le_length item) []
  rw [List.append_nil] at read
  rw [decodeAll, read]

end Cbor
