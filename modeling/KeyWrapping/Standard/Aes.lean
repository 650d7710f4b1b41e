import KeyWrapping.Standard.Numbers

/-!
# The block cipher as published

Bytes are elements of the field of 256 elements. The substitution is computed from inverses in
this field, mixing is a matrix product, and the key schedule is a list of four-byte words that
grows by one word at a time. The state is a list of sixteen bytes, column after column.
-/

namespace KeyWrapping.Standard.Aes

/-- A field element. -/
abbrev Element := BitVec 8

/-- The product with the element of degree one. -/
def timesX (a : Element) : Element := if a.getMsbD 0 then (a <<< 1) ^^^ 0x1b else a <<< 1

/-- The product of an element with the terms of degree below `count` of another. -/
def product (a b : Element) : (count : Nat) → Element
  | 0 => 0
  | count + 1 => (if b.getLsbD count then Nat.repeat timesX count a else 0) ^^^ product a b count

/-- The product of two elements. -/
def times (a b : Element) : Element := product a b 8

/-- The multiplicative inverse; zero stands in for its own. -/
def inverse (a : Element) : Element :=
  (((List.range 256).map (BitVec.ofNat 8)).find? fun b => times a b = 1).getD 0

/-- The substitution of bytes. -/
def substitute (a : Element) : Element :=
  let b := inverse a
  b ^^^ b.rotateLeft 1 ^^^ b.rotateLeft 2 ^^^ b.rotateLeft 3 ^^^ b.rotateLeft 4 ^^^ 0x63

/-- The sum of two lists of elements. -/
def add (s t : List Element) : List Element := List.zipWith (· ^^^ ·) s t

/-- The element of a state in a row and a column, both counted in a circle. -/
def entry (state : List Element) (row column : Nat) : Element :=
  state.getD (row % 4 + 4 * (column % 4)) 0

/-- The state whose entries are given by row and column. -/
def ofEntries (entries : Nat → Nat → Element) : List Element :=
  (List.range 16).map fun index => entries (index % 4) (index / 4)

/-- Row `r` moved by `r` columns. -/
def shiftRows (state : List Element) : List Element :=
  ofEntries fun row column => entry state row (column + row)

/-- The first row of the mixing matrix; the others are its rotations. -/
def mixingRow : List Element := [2, 3, 1, 1]

/-- The matrix product of every column. -/
def mixColumns (state : List Element) : List Element :=
  ofEntries fun row column =>
    ((List.range 4).map fun index =>
      times (mixingRow.getD ((index + 4 - row) % 4) 0) (entry state index column)).foldl (· ^^^ ·) 0

/-- The first word rotated, for the schedule. -/
def rotateWord (word : List Element) : List Element := word.drop 1 ++ word.take 1

/-- The constant of a cycle of the schedule, counted from one. -/
def cycleConstant (cycle : Nat) : List Element := [Nat.repeat timesX (cycle - 1) 1, 0, 0, 0]

/-- The words of a key with `count` further words of its schedule. -/
def schedule (key : List (List Element)) : (count : Nat) → List (List Element)
  | 0 => key
  | count + 1 =>
    let words := schedule key count
    let index := key.length + count
    let last := words.getD (index - 1) []
    let carried :=
      if index % key.length = 0 then
        add ((rotateWord last).map substitute) (cycleConstant (index / key.length))
      else if 6 < key.length ∧ index % key.length = 4 then last.map substitute
      else last
    words ++ [add (words.getD (index - key.length) []) carried]

/-- The words of a key given in bytes. -/
def keyWords (key : Bytes) : List (List Element) :=
  (List.range (key.length / 4)).map fun index =>
    ((key.drop (4 * index)).take 4).map UInt8.toBitVec

/-- The number of rounds under a key of some words. -/
def roundCount (words : Nat) : Nat := words + 6

/-- The key of a round: four words of the schedule. -/
def roundKey (words : List (List Element)) (round : Nat) : List Element :=
  ((words.drop (4 * round)).take 4).flatten

/-- The state after the first `count` rounds, all of which mix. -/
def mixedRounds (words : List (List Element)) (state : List Element) : (count : Nat) → List Element
  | 0 => add state (roundKey words 0)
  | count + 1 =>
    add (mixColumns (shiftRows ((mixedRounds words state count).map substitute)))
      (roundKey words (count + 1))

/-- Encipher sixteen bytes under a key of sixteen or thirty-two bytes. -/
def encipher (key block : Bytes) : Bytes :=
  let rounds := roundCount (keyWords key).length
  let words := schedule (keyWords key) (4 * (rounds + 1) - (keyWords key).length)
  let state := mixedRounds words (block.map UInt8.toBitVec) (rounds - 1)
  (add (shiftRows (state.map substitute)) (roundKey words rounds)).map UInt8.ofBitVec

end KeyWrapping.Standard.Aes
