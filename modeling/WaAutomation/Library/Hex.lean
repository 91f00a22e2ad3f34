/-
**Bytes written in hexadecimal digits.**

`encode` writes two digits for a byte; `decode` reads pairs of digits, in either case of letters,
and stops at the first pair that is none. `decode_encode` is the round trip, and `isSome_of_mem`
says that nothing but digits is written.
-/

import Mathlib.Data.List.Basic
import Mathlib.Data.UInt

set_option linter.unusedSectionVars false

namespace WaAutomation.Library.Hex

/-- The value of a digit. -/
def value? (mark : Char) : Option Nat :=
  if '0' ≤ mark ∧ mark ≤ '9' then some (mark.toNat - 48)
  else if 'a' ≤ mark ∧ mark ≤ 'f' then some (mark.toNat - 87)
  else if 'A' ≤ mark ∧ mark ≤ 'F' then some (mark.toNat - 55)
  else none

/-- The two digits of a byte. -/
def pair (byte : UInt8) : List Char :=
  [Nat.digitChar (byte.toNat / 16), Nat.digitChar (byte.toNat % 16)]

def encode (bytes : List UInt8) : List Char := bytes.flatMap pair

def decode : List Char → List UInt8
  | high :: low :: rest =>
      match value? high, value? low with
      | some high, some low => UInt8.ofNat (16 * high + low) :: decode rest
      | _, _ => []
  | _ => []

theorem value_digitChar {value : Nat} (small : value < 16) :
    value? (Nat.digitChar value) = some value := by
  have all : ∀ value : Fin 16, value? (Nat.digitChar value) = some value.val := by decide
  exact all ⟨value, small⟩

theorem byte_lt (byte : UInt8) : byte.toNat / 16 < 16 ∧ byte.toNat % 16 < 16 := by
  have bound : byte.toNat < 256 := byte.toNat_lt
  omega

/-- **What is written is read back.** -/
theorem decode_encode (bytes : List UInt8) : decode (encode bytes) = bytes := by
  induction bytes with
  | nil => rfl
  | cons byte rest ih =>
    obtain ⟨high, low⟩ := byte_lt byte
    have digits : encode (byte :: rest) = Nat.digitChar (byte.toNat / 16) ::
        Nat.digitChar (byte.toNat % 16) :: encode rest := rfl
    have whole : UInt8.ofNat (16 * (byte.toNat / 16) + byte.toNat % 16) = byte := by
      rw [Nat.div_add_mod]
      exact UInt8.ofNat_toNat
    rw [digits, decode, value_digitChar high, value_digitChar low]
    dsimp only
    rw [whole, ih]

/-- Only digits are written. -/
theorem isSome_of_mem {bytes : List UInt8} {mark : Char} (member : mark ∈ encode bytes) :
    (value? mark).isSome = true := by
  obtain ⟨byte, _, inside⟩ := List.mem_flatMap.mp member
  obtain ⟨high, low⟩ := byte_lt byte
  rcases List.mem_pair.mp inside with rfl | rfl
  · rw [value_digitChar high]
    rfl
  · rw [value_digitChar low]
    rfl

theorem encode_eq_nil {bytes : List UInt8} : encode bytes = [] ↔ bytes = [] := by
  cases bytes with
  | nil => exact iff_of_true rfl rfl
  | cons byte rest => exact iff_of_false (List.cons_ne_nil _ _) (List.cons_ne_nil _ _)

end WaAutomation.Library.Hex
