import KeyWrapping.Bytes

/-!
# Blocks of the cipher

A block is 128 bits, kept as two double words with the first byte of the text at the high end.
A byte string is cut into blocks from its front, and the last one is filled with zeros; a
block gives its sixteen bytes back. Block `i` of a string is read from byte `16 * i` on
(`getElem?_blocks`).
-/

namespace KeyWrapping

/-- A block of 128 bits. -/
@[ext] structure Block where
  /-- The first eight bytes. -/
  high : UInt64
  /-- The last eight bytes. -/
  low : UInt64
  deriving DecidableEq

namespace Block

/-- The block of zeros. -/
def zero : Block := ⟨0, 0⟩

/-- The bitwise sum of two blocks. -/
@[inline] def xor (left right : Block) : Block := ⟨left.high ^^^ right.high, left.low ^^^ right.low⟩

/-- The first sixteen bytes of a string as a block, filled with zeros when there are fewer. -/
def ofBytes (bytes : Bytes) : Block :=
  let byte (index : Nat) : UInt8 := bytes.getD index 0
  ⟨doubleOfBytes (byte 0) (byte 1) (byte 2) (byte 3) (byte 4) (byte 5) (byte 6) (byte 7),
    doubleOfBytes (byte 8) (byte 9) (byte 10) (byte 11) (byte 12) (byte 13) (byte 14) (byte 15)⟩

/-- The sixteen bytes of a block. -/
def toBytes (block : Block) : Bytes := bytesOfDouble block.high ++ bytesOfDouble block.low

/-- A block has sixteen bytes. -/
@[simp] theorem length_toBytes (block : Block) : block.toBytes.length = 16 := rfl

/-- The sixteen bytes of a block, with their count. -/
def toOctets (block : Block) : Octets 16 := ⟨block.toBytes, block.length_toBytes⟩

/-- The first `count` blocks of a byte string. -/
def firstBlocks : (count : Nat) → Bytes → List Block
  | 0, _ => []
  | count + 1, bytes => ofBytes bytes :: firstBlocks count (bytes.drop 16)

/-- How many blocks hold `count` bytes. -/
def needed (count : Nat) : Nat := (count + 15) / 16

/-- The blocks of a byte string, the last one filled with zeros. -/
def blocks (bytes : Bytes) : List Block := firstBlocks (needed bytes.length) bytes

/-- Each of the first blocks is read sixteen bytes after the one before. -/
theorem getElem?_firstBlocks (count index : Nat) (bytes : Bytes) :
    (firstBlocks count bytes)[index]? =
      if index < count then some (ofBytes (bytes.drop (16 * index))) else none := by
  induction count generalizing index bytes with
  | zero => simp [firstBlocks]
  | succ count ih =>
    cases index with
    | zero => simp [firstBlocks]
    | succ index =>
      simp only [firstBlocks, List.getElem?_cons_succ, ih, List.drop_drop, Nat.add_lt_add_iff_right]
      rw [show 16 + 16 * index = 16 * (index + 1) by omega]

/-- Block `index` of a byte string is read from byte `16 * index` on. -/
theorem getElem?_blocks (index : Nat) (bytes : Bytes) :
    (blocks bytes)[index]? =
      if index < needed bytes.length then some (ofBytes (bytes.drop (16 * index))) else none :=
  getElem?_firstBlocks _ _ _

/-- A byte string has as many blocks as its count needs. -/
@[simp] theorem length_blocks (bytes : Bytes) : (blocks bytes).length = needed bytes.length := by
  have counted : ∀ count bytes, (firstBlocks count bytes).length = count := by
    intro count
    induction count with
    | zero => intro bytes; rfl
    | succ count ih => intro bytes; simp [firstBlocks, ih]
  exact counted _ _

end Block

end KeyWrapping
