import KeyWrapping.Proofs.Published.ByteField
import Mathlib.Data.List.GetD
/-!
# The block cipher that runs is the published one

A state of four columns is the published list of sixteen elements, column after column, and a column
is a word of the published schedule. Every step of a round does to the list what the published step
does (`elements_shiftRows`, `elements_mixColumns`). The round keys are made a whole key at a time, but
they are the published words in order (`flatMap_roundKeys`), so the rounds find the keys that are
published (`State.elements_rounds`) and a block is enciphered as published (`toBytes_encipher`).
-/

namespace KeyWrapping.Aes

open KeyWrapping.Standard.Aes (Element add cycleConstant entry keyWords mixedRounds mixingRow
  ofEntries rotateWord roundCount roundKey schedule times timesX)

/-! ## States as lists of elements -/

/-- The bytes of a column as elements of the field. -/
def Column.elements (column : Column) : List Element :=
  [column.b0.toBitVec, column.b1.toBitVec, column.b2.toBitVec, column.b3.toBitVec]

/-- The product of a row of the mixing matrix and four elements. -/
def mixedRow (x : Nat → Element) (row : Nat) : Element :=
  ((List.range 4).map fun index => times (mixingRow.getD ((index + 4 - row) % 4) 0) (x index)).foldl
    (· ^^^ ·) 0

/-- Only the four elements count. -/
theorem mixedRow_congr {x y : Nat → Element} (same : ∀ index < 4, x index = y index) (row : Nat) :
    mixedRow x row = mixedRow y row := by
  have products : ((List.range 4).map fun index =>
      times (mixingRow.getD ((index + 4 - row) % 4) 0) (x index)) =
      (List.range 4).map fun index =>
        times (mixingRow.getD ((index + 4 - row) % 4) 0) (y index) :=
    List.map_congr_left fun index listed => by rw [same index (List.mem_range.mp listed)]
  rw [mixedRow, products, mixedRow]

/-- A column is mixed by its products with the rows of the matrix. -/
theorem Column.elements_mix (column : Column) :
    column.mix.elements = (List.range 4).map (mixedRow (column.elements.getD · 0)) := by
  obtain ⟨first, second, third, fourth⟩ := Standard.Aes.toBitVec_mix column
  rw [elements, first, second, third, fourth]
  simp [mixedRow, mixingRow, elements, List.range_succ]

/-- Sums of columns are taken element by element. -/
theorem Column.elements_xor (left right : Column) :
    (left.xor right).elements = add left.elements right.elements := rfl

/-- Every element is replaced. -/
theorem Column.elements_substitute (column : Column) :
    column.substitute.elements = column.elements.map Standard.Aes.substitute := by
  simp only [elements, substitute, List.map_cons, List.map_nil, Standard.Aes.toBitVec_substitute]

/-- A column is rotated as published. -/
theorem Column.elements_rotate (column : Column) :
    column.rotate.elements = rotateWord column.elements := rfl

namespace State

/-- The columns of a state, the words of a key schedule. -/
def words (s : State) : List (List Element) :=
  [s.c0.elements, s.c1.elements, s.c2.elements, s.c3.elements]

/-- A state has four columns. -/
theorem length_words (s : State) : s.words.length = 4 := rfl

/-- The bytes of a state as elements of the field, column after column. -/
def elements (s : State) : List Element := s.words.flatten

/-- Sums of states are taken element by element. -/
theorem elements_xor (s t : State) : (s.xor t).elements = add s.elements t.elements := rfl

/-- Every element is replaced. -/
theorem elements_substitute (s : State) :
    s.substitute.elements = s.elements.map Standard.Aes.substitute := by
  simp only [elements, words, substitute, Column.elements_substitute, List.flatten_cons,
    List.flatten_nil, List.map_append, List.map_nil]

/-- The rows are moved as published. -/
theorem elements_shiftRows (s : State) :
    s.shiftRows.elements = Standard.Aes.shiftRows s.elements := rfl

/-- A state with given entries is put together column after column. -/
theorem ofEntries_eq (entries : Nat → Nat → Element) :
    ofEntries entries = ((List.range 4).map (entries · 0)) ++ (((List.range 4).map (entries · 1)) ++
      (((List.range 4).map (entries · 2)) ++ ((List.range 4).map (entries · 3)))) := rfl

/-- The entries of a state are those of its columns. -/
theorem entry_elements (s : State) (index : Nat) (small : index < 4) :
    entry s.elements index 0 = s.c0.elements.getD index 0 ∧
      entry s.elements index 1 = s.c1.elements.getD index 0 ∧
      entry s.elements index 2 = s.c2.elements.getD index 0 ∧
      entry s.elements index 3 = s.c3.elements.getD index 0 := by
  match index with
  | 0 | 1 | 2 | 3 => exact ⟨rfl, rfl, rfl, rfl⟩

/-- The columns are mixed as published. -/
theorem elements_mixColumns (s : State) :
    s.mixColumns.elements = Standard.Aes.mixColumns s.elements := by
  have mixed : Standard.Aes.mixColumns s.elements =
      ofEntries fun row which => mixedRow (entry s.elements · which) row := rfl
  have column {which : Nat} {c : Column}
      (found : ∀ index < 4, entry s.elements index which = c.elements.getD index 0) :
      ((List.range 4).map fun row => mixedRow (entry s.elements · which) row) = c.mix.elements := by
    rw [Column.elements_mix]
    exact List.map_congr_left fun row _ => mixedRow_congr found row
  rw [mixed, ofEntries_eq, column fun index small => (entry_elements s index small).1,
    column fun index small => (entry_elements s index small).2.1,
    column fun index small => (entry_elements s index small).2.2.1,
    column fun index small => (entry_elements s index small).2.2.2]
  rfl

/-- A block and its columns have the same bytes. -/
theorem elements_ofBlock (block : Block) :
    (ofBlock block).elements = block.toBytes.map UInt8.toBitVec := by
  simp only [ofBlock, UInt64.shiftRight_zero]
  rfl

/-- Columns and their block have the same bytes. -/
theorem toBytes_toBlock (s : State) : s.toBlock.toBytes = s.elements.map UInt8.ofBitVec := by
  rw [Block.toBytes, toBlock, bytesOfDouble_doubleOfBytes, bytesOfDouble_doubleOfBytes]
  rfl

end State

/-! ## The schedule of the key -/

/-- A schedule has the words of the key and those made further. -/
theorem length_schedule (key : List (List Element)) (count : Nat) :
    (schedule key count).length = key.length + count := by
  induction count with
  | zero => rfl
  | succ count ih => rw [schedule, List.length_append, ih, List.length_singleton, Nat.add_assoc]

/-- What goes from the last word of a schedule into the next one, at a place in a cycle. -/
def carried (size cycle offset : Nat) (last : List Element) : List Element :=
  if offset = 0 then
    add ((rotateWord last).map Standard.Aes.substitute) (cycleConstant (cycle + 1))
  else if 6 < size ∧ offset = 4 then last.map Standard.Aes.substitute
  else last

/-- What the last column of a cycle carries into the next one. -/
theorem carried_cycle {constant : UInt8} {cycle : Nat} (size : Nat) (column : Column)
    (power : constant.toBitVec = Nat.repeat timesX cycle 1) :
    carried size cycle 0 column.elements = (cycleCarry constant column).elements := by
  simp only [carried, if_pos, cycleConstant, Nat.add_sub_cancel, ← power, cycleCarry,
    Column.elements_xor, Column.elements_substitute, Column.elements_rotate]
  rfl

/-- A schedule of which some words of a cycle are made: further words depend only on the words since
the start of the cycle before. -/
structure Reached (key before window : List (List Element)) (cycle offset : Nat) : Prop where
  /-- The words so far. -/
  made : schedule key (key.length * cycle + offset) = before ++ window
  /-- The words that no further word depends on fill whole cycles. -/
  counted : before.length = key.length * cycle

namespace Reached

variable {key before window : List (List Element)} {cycle offset : Nat}

/-- At the beginning there is the key alone. -/
theorem start (key : List (List Element)) : Reached key [] key 0 0 where
  made := by rw [Nat.mul_zero, Nat.add_zero, schedule, List.nil_append]
  counted := (Nat.mul_zero _).symm

/-- The words since the start of the cycle before. -/
theorem length_window (reached : Reached key before window cycle offset) :
    window.length = key.length + offset := by
  have lengths := congrArg List.length reached.made
  rw [length_schedule, List.length_append, reached.counted] at lengths
  omega

/-- The next word is made from the one at the same place of the cycle before and the last one. -/
theorem succ (reached : Reached key before window cycle offset) (small : offset < key.length) :
    Reached key before (window ++ [add (window.getD offset [])
      (carried key.length cycle offset (window.getD (key.length + offset - 1) []))])
      cycle (offset + 1) := by
  have place : (key.length + (key.length * cycle + offset)) % key.length = offset := by
    rw [Nat.add_mod_left, Nat.mul_add_mod, Nat.mod_eq_of_lt small]
  have turn : (key.length + (key.length * cycle + offset)) / key.length = cycle + 1 := by
    rw [Nat.add_div_left _ (by omega), Nat.mul_add_div (by omega), Nat.div_eq_of_lt small,
      Nat.add_zero]
  have behind (index : Nat) :
      (before ++ window).getD (key.length * cycle + index) [] = window.getD index [] := by
    rw [← reached.counted, List.getD_append_right _ _ _ _ (Nat.le_add_right _ _),
      Nat.add_sub_cancel_left]
  have earlier : key.length + (key.length * cycle + offset) - key.length =
      key.length * cycle + offset := Nat.add_sub_cancel_left ..
  have last : key.length + (key.length * cycle + offset) - 1 =
      key.length * cycle + (key.length + offset - 1) := by omega
  refine ⟨?_, reached.counted⟩
  rw [← Nat.add_assoc, schedule, reached.made]
  simp only [place, turn, earlier, last, behind, List.append_assoc]
  rfl

/-- Where nothing is replaced, the last word itself goes into the next one. -/
theorem succ_plain {last : List Element} {later : List (List Element)}
    (reached : Reached key before (window ++ (later ++ [last])) cycle offset)
    (small : offset < key.length) (inside : offset < window.length)
    (plain : offset ≠ 0 ∧ offset ≠ 4) :
    Reached key before (window ++ (later ++ [last, add (window.getD offset []) last]))
      cycle (offset + 1) := by
  have counted := reached.length_window
  rw [List.length_append, List.length_append, List.length_singleton] at counted
  have ends : (window ++ (later ++ [last])).getD (key.length + offset - 1) [] = last := by
    rw [List.getD_append_right _ _ _ _ (by omega), List.getD_append_right _ _ _ _ (by omega),
      show key.length + offset - 1 - window.length - later.length = 0 by omega]
    rfl
  have goes : carried key.length cycle offset last = last := by
    rw [carried, if_neg plain.1, if_neg fun replaced => plain.2 replaced.2]
  have next := reached.succ small
  rwa [ends, goes, List.getD_append _ _ _ _ inside, List.append_assoc, List.append_assoc] at next

/-- Four words from the start or the middle of a cycle on are the next round key. -/
theorem four {earlier : State} {column : Column}
    (reached : Reached key before window cycle offset) (room : offset + 4 ≤ key.length)
    (aligned : offset = 0 ∨ offset = 4) (found : (window.drop offset).take 4 = earlier.words)
    (ends : carried key.length cycle offset (window.getD (key.length + offset - 1) []) =
      column.elements) :
    Reached key before (window ++ (nextKey earlier column).words) cycle (offset + 4) := by
  have counted := reached.length_window
  have word (place : Nat) (small : place < 4) :
      window.getD (offset + place) [] = earlier.words.getD place [] := by
    rw [← found, List.getD_eq_getElem?_getD, List.getD_eq_getElem?_getD, List.getElem?_take,
      if_pos small, List.getElem?_drop]
  let next := nextKey earlier column
  have first : Reached key before (window ++ ([] ++ [next.c0.elements])) cycle (offset + 1) := by
    have made := reached.succ (by omega)
    rwa [ends, ← Nat.add_zero offset, word 0 (by decide)] at made
  have second : Reached key before (window ++ ([next.c0.elements] ++ [next.c1.elements])) cycle
      (offset + 2) := by
    have made := first.succ_plain (by omega) (by omega) (by omega)
    rwa [word 1 (by decide)] at made
  have third : Reached key before
      (window ++ ([next.c0.elements, next.c1.elements] ++ [next.c2.elements])) cycle
      (offset + 3) := by
    have made := second.succ_plain (by omega) (by omega) (by omega)
    rwa [word 2 (by decide)] at made
  have made := third.succ_plain (by omega) (by omega) (by omega)
  rwa [word 3 (by decide)] at made

/-- At its end a cycle is the one before. -/
theorem turn {first rest : List (List Element)}
    (reached : Reached key before (first ++ rest) cycle key.length)
    (whole : first.length = key.length) : Reached key (before ++ first) rest (cycle + 1) 0 where
  made := by rw [Nat.mul_succ, Nat.add_zero, reached.made, List.append_assoc]
  counted := by rw [List.length_append, reached.counted, whole, Nat.mul_succ]

/-- The round keys of a short key are its schedule, a cycle for each of them. -/
theorem expandShort {earlier : State} {constants : List UInt8} (sized : key.length = 4)
    (reached : Reached key before earlier.words cycle 0)
    (powers : constants.map UInt8.toBitVec =
      (List.range' cycle constants.length).map fun power => Nat.repeat timesX power 1) :
    schedule key (4 * (cycle + constants.length)) =
      before ++ (Aes.expandShort constants earlier).flatMap State.words := by
  induction constants generalizing before earlier cycle with
  | nil =>
    rw [Aes.expandShort, List.flatMap_singleton, ← reached.made, sized]
    rfl
  | cons constant others ih =>
    rw [List.length_cons, List.range'_succ, List.map_cons, List.map_cons, List.cons.injEq] at powers
    have cycled : Reached key before
        (earlier.words ++ (nextKey earlier (cycleCarry constant earlier.c3)).words) cycle
        key.length := by
      rw [sized]
      exact reached.four (by omega) (.inl rfl) rfl
        (by rw [sized]; exact carried_cycle 4 earlier.c3 powers.1)
    have rest := ih (cycled.turn sized.symm) powers.2
    rwa [Nat.add_assoc, Nat.add_comm 1, List.append_assoc, ← List.flatMap_cons] at rest

/-- The round keys of a long key are its schedule, two for each cycle; the last cycle makes one that
is not used. -/
theorem expandLong {first second : State} {constants : List UInt8} (sized : key.length = 8)
    (reached : Reached key before (first.words ++ second.words) cycle 0)
    (powers : constants.map UInt8.toBitVec =
      (List.range' cycle constants.length).map fun power => Nat.repeat timesX power 1) :
    ∃ unused, unused.length = 4 ∧ schedule key (8 * (cycle + constants.length)) =
      before ++ ((Aes.expandLong constants first second).flatMap State.words ++ unused) := by
  induction constants generalizing before first second cycle with
  | nil =>
    refine ⟨second.words, second.length_words, ?_⟩
    rw [Aes.expandLong, List.flatMap_singleton, ← reached.made, sized]
    rfl
  | cons constant others ih =>
    rw [List.length_cons, List.range'_succ, List.map_cons, List.map_cons, List.cons.injEq] at powers
    let third := nextKey first (cycleCarry constant second.c3)
    let fourth := nextKey second third.c3.substitute
    have half : Reached key before ((first.words ++ second.words) ++ third.words) cycle 4 :=
      reached.four (by omega) (.inl rfl) rfl
        (by rw [sized]; exact carried_cycle 8 second.c3 powers.1)
    have cycled : Reached key before
        ((first.words ++ second.words) ++ (third.words ++ fourth.words)) cycle key.length := by
      have whole := half.four (by omega) (.inr rfl) rfl
        (by rw [sized, Column.elements_substitute]; rfl)
      rw [List.append_assoc] at whole
      rwa [sized]
    obtain ⟨unused, counted, rest⟩ := ih (cycled.turn sized.symm) powers.2
    refine ⟨unused, counted, ?_⟩
    rw [Nat.add_assoc, Nat.add_comm 1] at rest
    rw [List.length_cons, rest, Aes.expandLong, List.flatMap_cons, List.flatMap_cons]
    simp only [List.append_assoc]
    rfl

end Reached

/-- The words of sixteen bytes in front are their columns. -/
theorem keyWords_append (block : Block) (rest : Bytes) :
    keyWords (block.toBytes ++ rest) = (State.ofBlock block).words ++ keyWords rest := by
  have count : (block.toBytes ++ rest).length / 4 = 4 + rest.length / 4 := by
    rw [List.length_append, Block.length_toBytes]
    omega
  have later (index : Nat) :
      (block.toBytes ++ rest).drop (4 * (4 + index)) = rest.drop (4 * index) := by
    rw [Nat.mul_add, ← List.drop_drop, List.drop_left' block.length_toBytes]
  rw [keyWords, count, List.range_add, List.map_append, List.map_map]
  simp only [Function.comp_def, later, State.ofBlock, UInt64.shiftRight_zero]
  rfl

/-- No bytes are no words. -/
theorem keyWords_nil : keyWords [] = [] := rfl

/-- A schedule goes on from itself. -/
theorem exists_schedule_eq_append (key : List (List Element)) (count more : Nat) :
    ∃ later, schedule key (count + more) = schedule key count ++ later := by
  induction more with
  | zero => exact ⟨[], (List.append_nil _).symm⟩
  | succ more ih =>
    obtain ⟨later, longer⟩ := ih
    rw [← Nat.add_assoc, schedule, longer, List.append_assoc]
    exact ⟨_, rfl⟩

/-- Without the words at the end a schedule is the shorter one. -/
theorem schedule_of_append {key made unused : List (List Element)} {count more : Nat}
    (counted : unused.length = more) (longer : schedule key (count + more) = made ++ unused) :
    schedule key count = made := by
  obtain ⟨later, parts⟩ := exists_schedule_eq_append key count more
  have lengths := congrArg List.length longer
  rw [length_schedule, List.length_append, counted, ← Nat.add_assoc] at lengths
  have equally : (schedule key count).length = made.length := by
    rw [length_schedule]
    omega
  exact (List.append_inj (parts.symm.trans longer) equally).1

/-- The constants of the cycles are the powers of the element of degree one. -/
theorem map_cycleConstants : cycleConstants.map UInt8.toBitVec =
    (List.range' 0 cycleConstants.length).map fun power => Nat.repeat timesX power 1 := by
  decide

/-- The constants of the cycles of a long key are the first of them. -/
theorem map_take_cycleConstants : (cycleConstants.take 7).map UInt8.toBitVec =
    (List.range' 0 (cycleConstants.take 7).length).map fun power => Nat.repeat timesX power 1 := by
  decide

/-- The words of a short key are the columns of its block. -/
theorem keyWords_short (octets : Octets 16) :
    keyWords octets.bytes = (State.ofBlock (Block.ofBytes octets.bytes)).words := by
  have front := keyWords_append (Block.ofBytes octets.bytes) []
  rwa [keyWords_nil, List.append_nil, List.append_nil,
    Block.toBytes_ofBytes_of_length octets.length_eq] at front

/-- The words of a long key are the columns of its two blocks. -/
theorem keyWords_long (octets : Octets 32) :
    keyWords octets.bytes = (State.ofBlock (Block.ofBytes octets.bytes)).words ++
      (State.ofBlock (Block.ofBytes (octets.bytes.drop 16))).words := by
  let second := Block.ofBytes (octets.bytes.drop 16)
  have counted := octets.length_eq
  have front : (Block.ofBytes octets.bytes).toBytes = octets.bytes.take 16 := by
    rw [Block.toBytes_ofBytes_eq_append, List.length_take, counted]
    exact List.append_nil _
  have back : second.toBytes = octets.bytes.drop 16 :=
    Block.toBytes_ofBytes_of_length (by rw [List.length_drop, counted])
  have inOrder := keyWords_append (Block.ofBytes octets.bytes) (second.toBytes ++ [])
  rwa [keyWords_append second, keyWords_nil, List.append_nil, List.append_nil, front, back,
    List.take_append_drop] at inOrder

/-- The round keys of a key are the published words. -/
theorem flatMap_roundKeys (key : Key) :
    key.roundKeys.flatMap State.words =
      schedule (keyWords key.bytes)
        (4 * (roundCount (keyWords key.bytes).length + 1) - (keyWords key.bytes).length) := by
  cases key with
  | short octets =>
    let first := State.ofBlock (Block.ofBytes octets.bytes)
    have cycles := (Reached.start first.words).expandShort first.length_words map_cycleConstants
    rw [List.nil_append, show 4 * (0 + cycleConstants.length) = 4 * (roundCount 4 + 1) - 4 from rfl]
      at cycles
    rw [Key.bytes, keyWords_short, Key.roundKeys, State.length_words, cycles]
  | long octets =>
    let first := State.ofBlock (Block.ofBytes octets.bytes)
    let second := State.ofBlock (Block.ofBytes (octets.bytes.drop 16))
    have eight : (first.words ++ second.words).length = 8 := by
      rw [List.length_append, first.length_words, second.length_words]
    obtain ⟨unused, four, cycles⟩ :=
      (Reached.start (first.words ++ second.words)).expandLong eight map_take_cycleConstants
    rw [List.nil_append, show 8 * (0 + (cycleConstants.take 7).length) =
      4 * (roundCount 8 + 1) - 8 + 4 from rfl] at cycles
    rw [Key.bytes, keyWords_long, Key.roundKeys, eight, schedule_of_append four cycles]

/-- A short key has a round key more than there are cycles. -/
theorem length_expandShort (constants : List UInt8) (key : State) :
    (expandShort constants key).length = constants.length + 1 := by
  induction constants generalizing key with
  | nil => rfl
  | cons constant others ih => rw [expandShort, List.length_cons, ih, List.length_cons]

/-- A long key has a round key more than two for each cycle. -/
theorem length_expandLong (constants : List UInt8) (first second : State) :
    (expandLong constants first second).length = 2 * constants.length + 1 := by
  induction constants generalizing first second with
  | nil => rfl
  | cons constant others ih =>
    rw [expandLong, List.length_cons, List.length_cons, ih, List.length_cons]
    omega

/-- There is one key before the rounds and one for each. -/
theorem length_roundKeys (key : Key) :
    key.roundKeys.length = roundCount (keyWords key.bytes).length + 1 := by
  rw [keyWords, List.length_map, List.length_range, Key.length_bytes]
  cases key with
  | short octets =>
    rw [Key.roundKeys, length_expandShort, Key.size, roundCount]
    rfl
  | long octets =>
    rw [Key.roundKeys, length_expandLong, Key.size, roundCount]
    rfl

/-! ## Rounds -/

/-- The key of a round is found behind the keys before it. -/
theorem roundKey_flatMap (before rest : List State) (key : State) :
    roundKey ((before ++ key :: rest).flatMap State.words) before.length = key.elements := by
  have counted : (before.flatMap State.words).length = 4 * before.length := by
    rw [List.length_flatMap]
    simp [State.words, Nat.mul_comm]
  rw [roundKey, List.flatMap_append, List.drop_left' counted]
  rfl

/-- The rounds that are left, from a state that the rounds before have reached. -/
theorem State.elements_rounds {input : List Element} {all before later : List State} {done : Nat}
    {s : State} (parts : all = before ++ later) (counted : before.length = done + 1)
    (given : later ≠ []) (reached : s.elements = mixedRounds (all.flatMap words) input done) :
    (rounds later s).elements =
      add (Standard.Aes.shiftRows ((mixedRounds (all.flatMap words) input
          (done + later.length - 1)).map Standard.Aes.substitute))
        (roundKey (all.flatMap words) (done + later.length)) := by
  induction later generalizing before done s with
  | nil => contradiction
  | cons key others ih =>
    have found : roundKey (all.flatMap words) (done + 1) = key.elements := by
      rw [parts, ← counted, roundKey_flatMap]
    cases others with
    | nil =>
      rw [rounds, lastRound, elements_xor, elements_shiftRows, elements_substitute, reached, ← found]
      rfl
    | cons next rest =>
      have parts' : all = (before ++ [key]) ++ next :: rest := by
        rw [parts, List.append_assoc, List.singleton_append]
      have counted' : (before ++ [key]).length = done + 1 + 1 := by
        rw [List.length_append, counted, List.length_singleton]
      have reached' : (s.round key).elements = mixedRounds (all.flatMap words) input (done + 1) := by
        rw [round, elements_xor, elements_mixColumns, elements_shiftRows, elements_substitute,
          reached, ← found, mixedRounds]
      have rest' := ih parts' counted' (List.cons_ne_nil _ _) reached'
      rwa [Nat.add_assoc, Nat.add_comm 1, ← List.length_cons] at rest'

/-- A block is enciphered as published. -/
theorem toBytes_encipher (key : Key) (block : Block) :
    (encipher key block).toBytes = Standard.Aes.encipher key.bytes block.toBytes := by
  obtain ⟨first, others, keys⟩ := List.exists_cons_of_length_eq_add_one (length_roundKeys key)
  have counted : others.length = roundCount (keyWords key.bytes).length := by
    have lengths := length_roundKeys key
    rwa [keys, List.length_cons, Nat.add_right_cancel_iff] at lengths
  have given : others ≠ [] := by
    rw [← List.length_pos_iff, counted, roundCount]
    omega
  let start := (State.ofBlock block).xor first
  have started : start.elements =
      mixedRounds ((first :: others).flatMap State.words) (block.toBytes.map UInt8.toBitVec) 0 := by
    rw [State.elements_xor, State.elements_ofBlock, ← roundKey_flatMap [] others first]
    rfl
  have parts : first :: others = [first] ++ others := rfl
  have one : [first].length = 0 + 1 := rfl
  have rounds := State.elements_rounds parts one given started
  rw [Nat.zero_add, counted, ← keys, flatMap_roundKeys] at rounds
  rw [encipher, keys, encipherWith, State.toBytes_toBlock]
  exact congrArg (List.map UInt8.ofBitVec) rounds

end KeyWrapping.Aes
