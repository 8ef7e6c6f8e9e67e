import Mathlib.Data.Nat.Digits.Defs
import Mathlib.Tactic.Ring

/-!
# Natural numbers as big-endian bytes

A number is written with as many bytes as it needs, or into a buffer of a fixed
length.  Parts of a buffer are the buffers of the corresponding quotients, so
fields at fixed positions are read off by division and remainder.
-/

namespace BigEndian

open List

def value (bytes : List UInt8) : Nat :=
  bytes.foldl (fun high byte => 256 * high + byte.toNat) 0

def bytes (number : Nat) : List UInt8 :=
  ((Nat.digits 256 number).map UInt8.ofNat).reverse

/-- The last bytes of a number. -/
def fill : Nat → Nat → List UInt8
  | 0, _ => []
  | length + 1, number => fill length (number / 256) ++ [UInt8.ofNat number]

def fillBytes (length number : Nat) : Option (List UInt8) :=
  if number < 256 ^ length then some (fill length number) else none

@[simp] theorem length_fill (length number : Nat) :
    (fill length number).length = length := by
  induction length generalizing number with
  | zero => rfl
  | succ length induction => simp [fill, induction]

theorem value_snoc (front : List UInt8) (byte : UInt8) :
    value (front ++ [byte]) = 256 * value front + byte.toNat := by
  simp [value]

@[simp] theorem value_fill (length number : Nat) :
    value (fill length number) = number % 256 ^ length := by
  induction length generalizing number with
  | zero => simp [fill, value, Nat.mod_one]
  | succ length induction =>
    have split : (256 : Nat) ^ (length + 1) = 256 * 256 ^ length :=
      Nat.pow_succ'
    rw [fill, value_snoc, induction, UInt8.toNat_ofNat', split, Nat.mod_mul]
    omega

theorem value_append (front back : List UInt8) :
    value (front ++ back) = value front * 256 ^ back.length + value back := by
  induction back generalizing front with
  | nil => simp [value]
  | cons byte rest induction =>
    have single : value (byte :: rest) =
        byte.toNat * 256 ^ rest.length + value rest := by
      simpa [value] using induction [byte]
    rw [append_cons, induction, value_snoc, single, length_cons,
      Nat.pow_succ]
    ring

theorem fill_add (front back number : Nat) :
    fill (front + back) number =
      fill front (number / 256 ^ back) ++ fill back number := by
  induction back generalizing number with
  | zero => simp [fill]
  | succ back induction =>
    rw [← Nat.add_assoc, fill, induction, fill, ← append_assoc,
      Nat.div_div_eq_div_mul, ← Nat.pow_succ']

theorem field_fill (front length back number : Nat) :
    ((fill (front + length + back) number).drop front).take length =
      fill length (number / 256 ^ back) := by
  rw [fill_add, fill_add, append_assoc,
    drop_left' (length_fill front _),
    take_left' (length_fill length _)]

end BigEndian
