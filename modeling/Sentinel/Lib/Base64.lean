import Mathlib

/-!
# Base 64

The standard alphabet with mandatory padding. The decoder accepts exactly the canonical
texts: whole groups of four characters, padding only in the last one, and zero bits
where the last group has bits to spare.
-/

namespace Base64

def alphabet : List Char :=
  "ABCDEFGHIJKLMNOPQRSTUVWXYZabcdefghijklmnopqrstuvwxyz0123456789+/".toList

/-- The character for six bits. -/
def digit (n : Nat) : Char := alphabet.getD n 'A'

/-- The six bits of a character. -/
def value? (c : Char) : Option Nat := alphabet.findIdx? fun d => decide (d = c)

theorem value?_digit : ∀ n < 64, value? (digit n) = some n := by decide +kernel

theorem digit_ne_pad : ∀ n < 64, digit n ≠ '=' := by decide +kernel

def encodeChars : List UInt8 → List Char
  | a :: b :: c :: rest =>
      digit (a.toNat / 4) :: digit (a.toNat % 4 * 16 + b.toNat / 16) ::
        digit (b.toNat % 16 * 4 + c.toNat / 64) :: digit (c.toNat % 64) :: encodeChars rest
  | [a, b] =>
      [digit (a.toNat / 4), digit (a.toNat % 4 * 16 + b.toNat / 16), digit (b.toNat % 16 * 4), '=']
  | [a] => [digit (a.toNat / 4), digit (a.toNat % 4 * 16), '=', '=']
  | [] => []

def decodeChars : List Char → Option (List UInt8)
  | [] => some []
  | w :: x :: y :: z :: rest =>
      if y = '=' ∧ z = '=' ∧ rest = [] then do
        let w ← value? w
        let x ← value? x
        if x % 16 = 0 then some [UInt8.ofNat (w * 4 + x / 16)] else none
      else if z = '=' ∧ rest = [] then do
        let w ← value? w
        let x ← value? x
        let y ← value? y
        if y % 4 = 0 then
          some [UInt8.ofNat (w * 4 + x / 16), UInt8.ofNat (x % 16 * 16 + y / 4)]
        else none
      else do
        let w ← value? w
        let x ← value? x
        let y ← value? y
        let z ← value? z
        let bytes ← decodeChars rest
        some (UInt8.ofNat (w * 4 + x / 16) :: UInt8.ofNat (x % 16 * 16 + y / 4) ::
          UInt8.ofNat (y % 4 * 64 + z) :: bytes)
  | _ => none

def encode (bytes : List UInt8) : String := String.ofList (encodeChars bytes)

def decode (text : String) : Option (List UInt8) := decodeChars text.toList

theorem byte_eq {n : Nat} {a : UInt8} (h : n = a.toNat) : UInt8.ofNat n = a := by
  rw [h, UInt8.ofNat_toNat]

theorem decodeChars_encodeChars (bytes : List UInt8) :
    decodeChars (encodeChars bytes) = some bytes := by
  induction bytes using encodeChars.induct with
  | case1 a b c rest ih =>
      have ha := a.toNat_lt
      have hb := b.toNat_lt
      have hc := c.toNat_lt
      have last := digit_ne_pad (c.toNat % 64) (by omega)
      simp only [encodeChars, decodeChars, last, false_and, and_false, if_false, ih,
        value?_digit (a.toNat / 4) (by omega),
        value?_digit (a.toNat % 4 * 16 + b.toNat / 16) (by omega),
        value?_digit (b.toNat % 16 * 4 + c.toNat / 64) (by omega),
        value?_digit (c.toNat % 64) (by omega), Option.bind_eq_bind, Option.bind_some]
      rw [byte_eq (a := a) (by omega), byte_eq (a := b) (by omega), byte_eq (a := c) (by omega)]
  | case2 a b =>
      have ha := a.toNat_lt
      have hb := b.toNat_lt
      have third := digit_ne_pad (b.toNat % 16 * 4) (by omega)
      have spare : b.toNat % 16 * 4 % 4 = 0 := by omega
      simp only [encodeChars, decodeChars, third, false_and, if_false, and_self, if_true,
        value?_digit (a.toNat / 4) (by omega),
        value?_digit (a.toNat % 4 * 16 + b.toNat / 16) (by omega),
        value?_digit (b.toNat % 16 * 4) (by omega), Option.bind_eq_bind, Option.bind_some, spare]
      rw [byte_eq (a := a) (by omega), byte_eq (a := b) (by omega)]
  | case3 a =>
      have ha := a.toNat_lt
      have spare : a.toNat % 4 * 16 % 16 = 0 := by omega
      simp only [encodeChars, decodeChars, and_self, if_true, value?_digit (a.toNat / 4) (by omega),
        value?_digit (a.toNat % 4 * 16) (by omega), Option.bind_eq_bind, Option.bind_some, spare]
      rw [byte_eq (a := a) (by omega)]
  | case4 => rfl

theorem decode_encode (bytes : List UInt8) : decode (encode bytes) = some bytes := by
  rw [decode, encode, String.toList_ofList, decodeChars_encodeChars]

example : encode [77, 97] = "TWE=" := by decide

end Base64
