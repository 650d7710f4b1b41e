import KeyWrapping.Cipher.Aes
import KeyWrapping.Proofs.ByteOrder
import Mathlib.Data.List.Nodup
/-!
# A key keeps the blocks apart

No step of a round loses anything. No two bytes are replaced by the same byte, which is seen from
the table by marking one byte after the other; moving the rows only changes places; mixing a column
four times gives the column back (`Column.mix_mix_mix_mix`); and what was added can be added again.
So no two blocks are enciphered to the same block, whatever the round keys are
(`encipherWith_injective`), and those of either schedule are a case of it (`encipher_injective`).
-/

namespace KeyWrapping

/-- The bits that two bytes have in common with a third are summed with the bytes. -/
theorem xor_and_distrib (left right mask : UInt8) :
    (left ^^^ right) &&& mask = (left &&& mask) ^^^ (right &&& mask) := by
  apply UInt8.toBitVec_inj.mp
  ext index
  simp only [UInt8.toBitVec_and, UInt8.toBitVec_xor, BitVec.getElem_and, BitVec.getElem_xor,
    Bool.and_xor_distrib_right]

/-- In a sum of three bytes the first two can change places. -/
theorem xor_left_comm (first second third : UInt8) :
    first ^^^ (second ^^^ third) = second ^^^ (first ^^^ third) := by
  rw [← UInt8.xor_assoc, UInt8.xor_comm first, UInt8.xor_assoc]

/-- A byte that is added twice drops out. -/
theorem xor_xor_self (byte other : UInt8) : byte ^^^ (byte ^^^ other) = other := by
  rw [← UInt8.xor_assoc, UInt8.xor_self, UInt8.zero_xor]

namespace Aes

/-- Whether no byte of a list is marked already or comes twice; the bits of a number are marks. -/
def allNew : (marks : Nat) → Bytes → Bool
  | _, [] => true
  | marks, byte :: rest => !marks.testBit byte.toNat && allNew (marks ||| 2 ^ byte.toNat) rest

/-- The marks of new bytes are not set, and no byte among them comes twice. -/
theorem nodup_of_allNew {marks : Nat} {list : Bytes} (new : allNew marks list = true) :
    (∀ byte ∈ list, marks.testBit byte.toNat = false) ∧ list.Nodup := by
  induction list generalizing marks with
  | nil => simp
  | cons first rest ih =>
    simp only [allNew, Bool.and_eq_true, Bool.not_eq_true'] at new
    obtain ⟨unmarked, apart⟩ := ih new.2
    have neither : ∀ byte ∈ rest, marks.testBit byte.toNat = false ∧
        (2 ^ first.toNat).testBit byte.toNat = false := by
      intro byte among
      rw [← Bool.or_eq_false_iff, ← Nat.testBit_or]
      exact unmarked byte among
    have once : first ∉ rest := by
      intro again
      have marked := (neither first again).2
      rw [Nat.testBit_two_pow_self] at marked
      contradiction
    rw [List.forall_mem_cons, List.nodup_cons]
    exact ⟨⟨new.1, fun byte among => (neither byte among).1⟩, once, apart⟩

/-- No byte stands twice in the substitution. -/
theorem substitutionTable_nodup : substitutionTable.toList.Nodup := by
  -- One pass with marks, where comparing every byte with every other is slow.
  have new : allNew 0 substitutionTable.toList = true := by decide +kernel
  exact (nodup_of_allNew new).2

/-- No two bytes are replaced by the same byte. -/
theorem substitute_injective : Function.Injective substitute := by
  intro left right same
  have inside (byte : UInt8) : byte.toNat < substitutionTable.toList.length := by
    rw [Vector.length_toList]
    exact byte.toNat_lt
  have entry (byte : UInt8) :
      substitute byte = substitutionTable.toList.get ⟨byte.toNat, inside byte⟩ := by
    rw [List.get_eq_getElem, Vector.getElem_toList]
    rfl
  rw [entry left, entry right] at same
  have places := List.nodup_iff_injective_get.mp substitutionTable_nodup same
  rw [Fin.mk.injEq] at places
  exact UInt8.toNat_inj.mp places

/-- The highest bit of a byte is set or not. -/
theorem highest_bit : ∀ byte : UInt8, byte &&& 0x80 = 0 ∨ byte &&& 0x80 = 0x80 :=
  forall_byte (by decide +kernel)

/-- Doubling keeps sums. -/
theorem double_xor (left right : UInt8) :
    double (left ^^^ right) = double left ^^^ double right := by
  have carries : (if (left ^^^ right) &&& 0x80 = 0 then (0 : UInt8) else 0x1b) =
      (if left &&& 0x80 = 0 then 0 else 0x1b) ^^^ (if right &&& 0x80 = 0 then 0 else 0x1b) := by
    rw [xor_and_distrib]
    rcases highest_bit left with inLeft | inLeft <;> rcases highest_bit right with inRight | inRight
      <;> rw [inLeft, inRight] <;> decide
  rw [double, double, double, carries, UInt8.shiftLeft_xor]
  simp only [UInt8.xor_assoc, xor_left_comm]

namespace Column

/-- Adding a column keeps columns apart. -/
theorem xor_left_injective (key : Column) :
    Function.Injective fun column : Column => column.xor key := by
  intro left right same
  simpa only [xor, mk.injEq, UInt8.xor_left_inj, ← Column.ext_iff] using same

/-- Replacing every byte keeps columns apart. -/
theorem substitute_injective : Function.Injective substitute := by
  intro left right same
  simpa only [substitute, mk.injEq, Aes.substitute_injective.eq_iff, ← Column.ext_iff] using same

/-- Mixing twice adds to every byte four times its sum with the byte two places on. -/
theorem mix_mix (column : Column) :
    column.mix.mix =
      ⟨column.b0 ^^^ double (double (column.b0 ^^^ column.b2)),
        column.b1 ^^^ double (double (column.b1 ^^^ column.b3)),
        column.b2 ^^^ double (double (column.b0 ^^^ column.b2)),
        column.b3 ^^^ double (double (column.b1 ^^^ column.b3))⟩ := by
  -- Doublings are moved down to the bytes; of a sum in order, equal neighbours drop out.
  simp only [mix, double_xor, UInt8.xor_assoc, UInt8.xor_comm, xor_left_comm, UInt8.xor_self,
    xor_xor_self, UInt8.xor_zero, UInt8.zero_xor]

/-- Mixing four times changes nothing. -/
theorem mix_mix_mix_mix (column : Column) : column.mix.mix.mix.mix = column := by
  rw [mix_mix column.mix.mix, mix_mix column]
  simp only [double_xor, UInt8.xor_comm, xor_left_comm, UInt8.xor_self, UInt8.xor_zero]

/-- Mixing keeps columns apart. -/
theorem mix_injective : Function.Injective mix := by
  intro left right same
  rw [← mix_mix_mix_mix left, same, mix_mix_mix_mix]

end Column

namespace State

/-- The columns of a block make the block again. -/
theorem toBlock_ofBlock (block : Block) : (ofBlock block).toBlock = block := by
  simp only [toBlock, ofBlock, UInt64.shiftRight_zero, doubleOfBytes_bytesOfDouble]

/-- The cutting of blocks into columns keeps blocks apart. -/
theorem ofBlock_injective : Function.Injective ofBlock :=
  Function.LeftInverse.injective toBlock_ofBlock

/-- Putting columns together to a block keeps states apart. -/
theorem toBlock_injective : Function.Injective toBlock := by
  intro left right same
  have high := congrArg (fun block => bytesOfDouble block.high) same
  have low := congrArg (fun block => bytesOfDouble block.low) same
  simp only [toBlock, bytesOfDouble_doubleOfBytes, List.cons.injEq] at high low
  ext <;> simp only [high, low]

/-- Adding a round key keeps states apart. -/
theorem xor_left_injective (key : State) :
    Function.Injective fun state : State => state.xor key := by
  intro left right same
  simpa only [xor, mk.injEq, (Column.xor_left_injective _).eq_iff, ← State.ext_iff] using same

/-- Replacing every byte keeps states apart. -/
theorem substitute_injective : Function.Injective substitute := by
  intro left right same
  simpa only [substitute, mk.injEq, Column.substitute_injective.eq_iff, ← State.ext_iff] using same

/-- Moving the rows keeps states apart. -/
theorem shiftRows_injective : Function.Injective shiftRows := by
  intro left right same
  simp only [shiftRows, mk.injEq, Column.mk.injEq] at same
  ext <;> simp only [same]

/-- Mixing every column keeps states apart. -/
theorem mixColumns_injective : Function.Injective mixColumns := by
  intro left right same
  simpa only [mixColumns, mk.injEq, Column.mix_injective.eq_iff, ← State.ext_iff] using same

/-- A round keeps states apart. -/
theorem round_injective (key : State) : Function.Injective fun state => round state key :=
  (xor_left_injective key).comp
    (mixColumns_injective.comp (shiftRows_injective.comp substitute_injective))

/-- The last round keeps states apart. -/
theorem lastRound_injective (key : State) : Function.Injective fun state => lastRound state key :=
  (xor_left_injective key).comp (shiftRows_injective.comp substitute_injective)

/-- Rounds keep states apart, whatever their keys are. -/
theorem rounds_injective (keys : List State) : Function.Injective (rounds keys) := by
  induction keys with
  | nil => exact Function.injective_id
  | cons key others ih =>
    cases others with
    | nil => exact lastRound_injective key
    | cons next later => exact ih.comp (round_injective key)

end State

/-- No two blocks are enciphered to the same block, whatever the round keys are. -/
theorem encipherWith_injective (keys : List State) : Function.Injective (encipherWith keys) := by
  cases keys with
  | nil => exact Function.injective_id
  | cons key others =>
    exact State.toBlock_injective.comp ((State.rounds_injective others).comp
      ((State.xor_left_injective key).comp State.ofBlock_injective))

/-- No two blocks are enciphered to the same block under a key. -/
theorem encipher_injective (key : Key) : Function.Injective (encipher key) :=
  encipherWith_injective key.roundKeys

end Aes

end KeyWrapping
