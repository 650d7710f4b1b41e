import KeyWrapping.Cipher.Block

/-!
# The polynomial hash

Blocks are elements of the field of 2¹²⁸ elements, written with the coefficient of the lowest
degree at the high end. The hash of a list of blocks is the value at the hash key of the
polynomial with those coefficients, computed by one multiplication per block.
-/

namespace KeyWrapping.Ghash

/-- The product with the element of degree one: every bit moves one place toward the low end,
and a bit that falls off comes back as the reduction constant. -/
def halve (block : Block) : Block :=
  let high := block.high >>> 1
  let low := (block.low >>> 1) ||| (block.high <<< 63)
  if block.low &&& 1 = 0 then ⟨high, low⟩ else ⟨high ^^^ 0xe100000000000000, low⟩

/-- Add to `sum` the product of `block` with the next `count` bits, read from the high end of
`bits`; the block, moved on by as many places, is returned beside it. -/
def addProduct : (count : Nat) → (bits : UInt64) → (sum block : Block) → Block × Block
  | 0, _, sum, block => (sum, block)
  | count + 1, bits, sum, block =>
    addProduct count (bits <<< 1) (if bits >>> 63 = 0 then sum else sum.xor block) (halve block)

/-- The product of two field elements. -/
def multiply (left right : Block) : Block :=
  let (sum, moved) := addProduct 64 left.high Block.zero right
  (addProduct 64 left.low sum moved).1

/-- One block taken into the hash. -/
def absorb (key sum block : Block) : Block := multiply (sum.xor block) key

/-- The hash of a list of blocks under a hash key. -/
def hash (key : Block) (blocks : List Block) : Block := blocks.foldl (absorb key) Block.zero

end KeyWrapping.Ghash
