import KeyWrapping.Bytes

/-!
# Byte strings as numbers

The published definitions of digest and cipher speak of words and blocks as numbers whose first
byte counts most. `bigEndian` writes a number in a fixed count of bytes and `value` reads one.
-/

namespace KeyWrapping.Standard

/-- The number that bytes write. -/
def value (bytes : Bytes) : Nat := bytes.foldl (fun number byte => number * 256 + byte.toNat) 0

/-- A number in `count` bytes; what does not fit is left out. -/
def bigEndian : (count : Nat) → (number : Nat) → Bytes
  | 0, _ => []
  | count + 1, number => bigEndian count (number / 256) ++ [UInt8.ofNat (number % 256)]

/-- A number has as many bytes as asked for. -/
@[simp] theorem length_bigEndian (count number : Nat) :
    (bigEndian count number).length = count := by
  induction count generalizing number with
  | zero => rfl
  | succ count ih => simp [bigEndian, ih]

/-- The bytewise sum with one byte. -/
def addByte (byte : UInt8) (bytes : Bytes) : Bytes := bytes.map (byte ^^^ ·)

end KeyWrapping.Standard
