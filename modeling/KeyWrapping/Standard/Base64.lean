import KeyWrapping.Bytes

/-!
# Base-64 text as published

The bits of a byte string are taken in groups of six, the last group filled with zeros; each group
chooses a symbol of the alphabet, and the text is filled up with `=` to whole groups of four.
-/

namespace KeyWrapping.Standard.Base64

/-- The sixty-four symbols, in the order of the groups that choose them. -/
def alphabet : List Char :=
  "ABCDEFGHIJKLMNOPQRSTUVWXYZabcdefghijklmnopqrstuvwxyz0123456789+/".toList

/-- The bits of a byte, the highest first. -/
def bits (byte : UInt8) : List Bool :=
  (List.range 8).map fun place => byte.toNat.testBit (7 - place)

/-- The number that bits write. -/
def number (bits : List Bool) : Nat := bits.foldl (fun number bit => number * 2 + bit.toNat) 0

/-- Bits in groups of six, the last group filled with zeros. -/
def groups : List Bool → List (List Bool)
  | [] => []
  | a :: b :: c :: d :: e :: f :: rest => [a, b, c, d, e, f] :: groups rest
  | last => [last ++ List.replicate (6 - last.length) false]

/-- The symbol of a group. -/
def symbol (group : List Bool) : Char := alphabet.getD (number group) '='

/-- The written form of a byte string. -/
def written (data : Bytes) : List Char :=
  let symbols := (groups (data.flatMap bits)).map symbol
  symbols ++ List.replicate ((4 - symbols.length % 4) % 4) '='

end KeyWrapping.Standard.Base64
