import KeyWrapping.Digest.Sha256
import KeyWrapping.Proofs.Published.Numbers
import KeyWrapping.Standard.Sha256
import Mathlib.Data.List.GetD
/-!
# The digest that runs is the published one

The schedule that runs is extended sixteen words at a time, and a message is folded into a state of
eight words that can be kept and continued. Word by word this is the published digest: four stretches
of the schedule are its sixty-four words (`schedule_words`), one block changes the state as published
(`bits_compress`), and a message is cut into the same blocks (`bits_absorb`). So both give the same
digest of every message (`digest_eq`), also when the front of the message is folded in before the rest
is known (`toBytes_finish_absorb`).
-/

namespace KeyWrapping.Sha256

open KeyWrapping.Standard (bigEndian value)
open KeyWrapping.Standard.Sha256 (Word schedule)

/-! ## Words -/

/-- Words as strings of bits. -/
def bits (words : List UInt32) : List Word := words.map UInt32.toBitVec

/-- Two shifts that meet are a rotation. -/
theorem toBitVec_rotateRight (word count : UInt32) (positive : 0 < count.toNat)
    (small : count.toNat < 32) :
    (rotateRight word count).toBitVec = word.toBitVec.rotateRight count.toNat := by
  have back : (4294967296 - count.toNat) % 32 = 32 - count.toNat := by omega
  simp [rotateRight, BitVec.rotateRight_def, Nat.mod_eq_of_lt small, back]

/-- The mixing of the first variable. -/
theorem toBitVec_bigSigma0 (x : UInt32) :
    (bigSigma0 x).toBitVec = Standard.Sha256.bigSigma0 x.toBitVec := by
  simp only [bigSigma0, UInt32.toBitVec_xor, toBitVec_rotateRight x 2 (by decide) (by decide),
    toBitVec_rotateRight x 13 (by decide) (by decide),
    toBitVec_rotateRight x 22 (by decide) (by decide)]
  rfl

/-- The mixing of the fifth variable. -/
theorem toBitVec_bigSigma1 (x : UInt32) :
    (bigSigma1 x).toBitVec = Standard.Sha256.bigSigma1 x.toBitVec := by
  simp only [bigSigma1, UInt32.toBitVec_xor, toBitVec_rotateRight x 6 (by decide) (by decide),
    toBitVec_rotateRight x 11 (by decide) (by decide),
    toBitVec_rotateRight x 25 (by decide) (by decide)]
  rfl

/-- The mixing of the word fifteen places back. -/
theorem toBitVec_smallSigma0 (x : UInt32) :
    (smallSigma0 x).toBitVec = Standard.Sha256.smallSigma0 x.toBitVec := by
  simp only [smallSigma0, UInt32.toBitVec_xor, toBitVec_rotateRight x 7 (by decide) (by decide),
    toBitVec_rotateRight x 18 (by decide) (by decide)]
  rfl

/-- The mixing of the word two places back. -/
theorem toBitVec_smallSigma1 (x : UInt32) :
    (smallSigma1 x).toBitVec = Standard.Sha256.smallSigma1 x.toBitVec := by
  simp only [smallSigma1, UInt32.toBitVec_xor, toBitVec_rotateRight x 17 (by decide) (by decide),
    toBitVec_rotateRight x 19 (by decide) (by decide)]
  rfl

/-- The next word of a schedule. -/
theorem toBitVec_extend (back16 back15 back7 back2 : UInt32) :
    (extend back16 back15 back7 back2).toBitVec =
      Standard.Sha256.smallSigma1 back2.toBitVec + back7.toBitVec +
        Standard.Sha256.smallSigma0 back15.toBitVec + back16.toBitVec := by
  simp only [extend, UInt32.toBitVec_add, toBitVec_smallSigma0, toBitVec_smallSigma1]

/-! ## The schedule -/

/-- The words of a block in order. -/
def Block.words (b : Block) : List UInt32 :=
  [b.w0, b.w1, b.w2, b.w3, b.w4, b.w5, b.w6, b.w7, b.w8, b.w9, b.w10, b.w11, b.w12, b.w13, b.w14,
    b.w15]

/-- The schedule goes on with the next stretch of words. -/
theorem schedule_block (b : Block) :
    schedule (bits b.words) 16 = bits b.words ++ bits b.next.words := by
  simp only [schedule, bits, Block.words, Block.next, List.map_cons, List.map_nil, toBitVec_extend,
    List.cons_append, List.nil_append, List.getD_cons_zero, List.getD_cons_succ, Nat.reduceAdd,
    Nat.reduceSub]

/-- A schedule looks back sixteen words, so it goes on from its second stretch as from a block. -/
theorem schedule_add {first second : List Word} (counted : first.length = 16)
    (extended : schedule first 16 = first ++ second) (count : Nat) :
    schedule first (16 + count) = first ++ schedule second count := by
  induction count with
  | zero => exact extended
  | succ count ih =>
    have back (distance : Nat) (near : distance ≤ 16) :
        (first ++ schedule second count).getD (16 + count + 16 - distance) 0 =
          (schedule second count).getD (count + 16 - distance) 0 := by
      have place : 16 + count + 16 - distance - 16 = count + 16 - distance := by omega
      rw [List.getD_append_right _ _ _ _ (by omega), counted, place]
    rw [← Nat.add_assoc, schedule, schedule, ih]
    simp only [back 2 (by decide), back 7 (by decide), back 15 (by decide), back 16 (by decide),
      List.append_assoc]

/-- The four stretches of words are the whole schedule. -/
theorem schedule_words (b : Block) :
    schedule (bits b.words) 48 =
      bits b.words ++ (bits b.next.words ++ (bits b.next.next.words ++
        bits b.next.next.next.words)) := by
  rw [show 48 = 16 + (16 + 16) from rfl, schedule_add rfl (schedule_block b),
    schedule_add rfl (schedule_block b.next), schedule_block]

/-! ## Rounds and blocks -/

/-- The published constants. -/
theorem constants_eq : Standard.Sha256.constants =
    bits constants0.words ++ (bits constants1.words ++ (bits constants2.words ++
      bits constants3.words)) := rfl

/-- The working variables of a state. -/
def State.working (s : State) : Standard.Sha256.Variables :=
  ⟨s.a.toBitVec, s.b.toBitVec, s.c.toBitVec, s.d.toBitVec, s.e.toBitVec, s.f.toBitVec,
    s.g.toBitVec, s.h.toBitVec⟩

/-- One round. -/
theorem State.working_round (s : State) (constant word : UInt32) :
    (s.round constant word).working =
      Standard.Sha256.round s.working constant.toBitVec word.toBitVec := by
  simp only [State.round, State.working, Standard.Sha256.round, Standard.Sha256.choose,
    Standard.Sha256.majority, choose, majority, UInt32.toBitVec_add, UInt32.toBitVec_xor,
    UInt32.toBitVec_and, UInt32.toBitVec_not, toBitVec_bigSigma0, toBitVec_bigSigma1]

/-- Published rounds, one for each pair of a constant and a word. -/
def publishedRounds (start : Standard.Sha256.Variables) (entries : List (Word × Word)) :
    Standard.Sha256.Variables :=
  entries.foldl (fun v (constant, word) => Standard.Sha256.round v constant word) start

/-- Rounds with further entries come behind. -/
theorem publishedRounds_append (start : Standard.Sha256.Variables)
    (first second : List (Word × Word)) :
    publishedRounds start (first ++ second) =
      publishedRounds (publishedRounds start first) second :=
  List.foldl_append

/-- Sixteen rounds. -/
theorem State.working_rounds (s : State) (k w : Block) :
    (s.rounds k w).working = publishedRounds s.working ((bits k.words).zip (bits w.words)) := by
  simp only [State.rounds, State.working_round]
  rfl

/-- Two stretches are paired word by word, and what is behind them apart from them. -/
theorem zip_stretch (k w : Block) (constants words : List Word) :
    (bits k.words ++ constants).zip (bits w.words ++ words) =
      (bits k.words).zip (bits w.words) ++ constants.zip words :=
  List.zip_append rfl

/-- The sum of a state and the working variables of another. -/
theorem State.bits_add (s t : State) :
    bits (s.add t).words = List.zipWith (· + ·) (bits s.words) t.working.words := rfl

/-- One block changes the state as published. -/
theorem bits_compress (s : State) (b : Block) :
    bits (s.compress b).words = Standard.Sha256.compress (bits s.words) (bits b.words) := by
  have entries : Standard.Sha256.constants.zip (schedule (bits b.words) 48) =
      (bits constants0.words).zip (bits b.words) ++
        ((bits constants1.words).zip (bits b.next.words) ++
          ((bits constants2.words).zip (bits b.next.next.words) ++
            (bits constants3.words).zip (bits b.next.next.next.words))) := by
    rw [schedule_words, constants_eq, zip_stretch, zip_stretch, zip_stretch]
  have start : Standard.Sha256.Variables.ofState (bits s.words) = s.working := rfl
  rw [State.compress, State.bits_add, Standard.Sha256.compress, entries, start,
    ← publishedRounds.eq_def]
  simp only [State.working_rounds, publishedRounds_append]

/-! ## Messages -/

/-- Sixteen words are the words of a block. -/
theorem exists_block {words : List UInt32} (counted : words.length = 16) :
    ∃ block : Block, words = block.words := by
  match words, counted with
  | [w0, w1, w2, w3, w4, w5, w6, w7, w8, w9, w10, w11, w12, w13, w14, w15], _ =>
    exact ⟨⟨w0, w1, w2, w3, w4, w5, w6, w7, w8, w9, w10, w11, w12, w13, w14, w15⟩, rfl⟩

/-- Fewer words than a block has are left out. -/
theorem blocksOfWords_of_short {words : List UInt32} (short : words.length < 16) :
    blocksOfWords words = [] := by
  unfold blocksOfWords
  split
  · simp only [List.length_cons] at short
    omega
  · rfl

/-- The words of a block in front make the first block. -/
theorem blocksOfWords_words_append (block : Block) (rest : List UInt32) :
    blocksOfWords (block.words ++ rest) = block :: blocksOfWords rest := rfl

/-- What is true of fewer words than a block has, and of a block in front of words of which it is
true, is true of all words. -/
theorem blocks_induction {holds : List UInt32 → Prop}
    (short : ∀ words, words.length < 16 → holds words)
    (block : ∀ (block : Block) rest, holds rest → holds (block.words ++ rest)) (words : List UInt32) :
    holds words := by
  by_cases few : words.length < 16
  · exact short words few
  · have counted : (words.take 16).length = 16 := by
      rw [List.length_take]
      omega
    obtain ⟨first, found⟩ := exists_block counted
    have rest := blocks_induction short block (words.drop 16)
    have whole := block first _ rest
    rwa [← found, List.take_append_drop] at whole
termination_by words.length
decreasing_by
  rw [List.length_drop]
  omega

/-- The blocks of words are the stretches of sixteen of them. -/
theorem map_blocksOfWords (words : List UInt32) :
    (blocksOfWords words).map Block.words =
      (List.range (words.length / 16)).map fun index => (words.drop (16 * index)).take 16 := by
  induction words using blocks_induction with
  | short words few => rw [blocksOfWords_of_short few, Nat.div_eq_of_lt few]; rfl
  | block block rest ih =>
    have count : (block.words ++ rest).length / 16 = rest.length / 16 + 1 := by
      rw [List.length_append, show block.words.length = 16 from rfl, Nat.add_div_left _ (by decide)]
    have later (index : Nat) :
        (block.words ++ rest).drop (16 * (index + 1)) = rest.drop (16 * index) := by
      rw [Nat.mul_add, Nat.add_comm, ← List.drop_drop, List.drop_left' (by rfl)]
    rw [blocksOfWords_words_append, List.map_cons, ih, count, List.range_succ_eq_map, List.map_cons,
      List.map_map]
    simp only [Function.comp_def, Nat.succ_eq_add_one, later]
    rfl

/-- The words of a byte string are read four bytes apart. -/
theorem bits_wordsOfBytes (bytes : Bytes) :
    bits (wordsOfBytes bytes) =
      (List.range (bytes.length / 4)).map (Standard.Sha256.word bytes) := by
  induction bytes using wordsOfBytes.induct with
  | case1 b0 b1 b2 b3 rest ih =>
    have count : (b0 :: b1 :: b2 :: b3 :: rest).length / 4 = rest.length / 4 + 1 := by
      simp only [List.length_cons]
      omega
    have first : Standard.Sha256.word (b0 :: b1 :: b2 :: b3 :: rest) 0 =
        (wordOfBytes b0 b1 b2 b3).toBitVec := by
      apply BitVec.eq_of_toNat_eq
      have number := Standard.value_four b0 b1 b2 b3
      have small := (wordOfBytes b0 b1 b2 b3).toNat_lt
      rw [← number] at small
      rw [Standard.Sha256.word, BitVec.toNat_ofNat]
      exact (Nat.mod_eq_of_lt small).trans number
    have later (index : Nat) : Standard.Sha256.word (b0 :: b1 :: b2 :: b3 :: rest) (index + 1) =
        Standard.Sha256.word rest index := by
      rw [Standard.Sha256.word, Standard.Sha256.word, Nat.mul_add]
      rfl
    rw [wordsOfBytes, bits, List.map_cons, ← bits, ih, count, List.range_succ_eq_map,
      List.map_cons, List.map_map, first]
    simp only [Function.comp_def, Nat.succ_eq_add_one, later]
  | case2 bytes other =>
    have few : bytes.length < 4 := by
      match bytes, other with
      | [], _ | [_], _ | [_, _], _ | [_, _, _], _ => simp
      | b0 :: b1 :: b2 :: b3 :: rest, other => exact (other b0 b1 b2 b3 rest rfl).elim
    rw [wordsOfBytes, Nat.div_eq_of_lt few]
    · rfl
    · exact other

/-- There is a word for every four bytes. -/
theorem length_wordsOfBytes (bytes : Bytes) : (wordsOfBytes bytes).length = bytes.length / 4 := by
  have lengths := congrArg List.length (bits_wordsOfBytes bytes)
  rwa [bits, List.length_map, List.length_map, List.length_range] at lengths

/-- A stretch of a numbered list is numbered from its first place on. -/
theorem take_drop_map_range {α : Type} (entry : Nat → α) {count start size : Nat}
    (inside : start + size ≤ count) :
    (((List.range count).map entry).drop start).take size =
      (List.range size).map fun offset => entry (start + offset) := by
  apply List.ext_getElem
  · simp only [List.length_take, List.length_drop, List.length_map, List.length_range]
    omega
  · intro index _ _
    simp only [List.getElem_take, List.getElem_drop, List.getElem_map, List.getElem_range]

/-- The blocks that are folded in are the published ones. -/
theorem map_blocksOfBytes (bytes : Bytes) :
    (blocksOfWords (wordsOfBytes bytes)).map (fun block => bits block.words) =
      (List.range (bytes.length / 64)).map (Standard.Sha256.block bytes) := by
  have words := congrArg (List.map bits) (map_blocksOfWords (wordsOfBytes bytes))
  rw [List.map_map, List.map_map, length_wordsOfBytes, Nat.div_div_eq_div_mul] at words
  refine words.trans (List.map_congr_left ?_)
  intro index listed
  have inside : 16 * index + 16 ≤ bytes.length / 4 := by
    have := List.mem_range.mp listed
    omega
  rw [Function.comp_apply, bits, List.map_take, List.map_drop, ← bits, bits_wordsOfBytes,
    take_drop_map_range _ inside, Standard.Sha256.block]

/-- Blocks change the state one after the other as published. -/
theorem bits_foldl_compress (s : State) (blocks : List Block) :
    bits (blocks.foldl State.compress s).words =
      (blocks.map fun block => bits block.words).foldl Standard.Sha256.compress (bits s.words) := by
  induction blocks generalizing s with
  | nil => rfl
  | cons block rest ih => rw [List.foldl_cons, ih, List.map_cons, List.foldl_cons, bits_compress]

/-- Folding in the blocks of a byte string is as published. -/
theorem bits_absorb (s : State) (bytes : Bytes) :
    bits (s.absorb bytes).words =
      ((List.range (bytes.length / 64)).map (Standard.Sha256.block bytes)).foldl
        Standard.Sha256.compress (bits s.words) := by
  rw [State.absorb, bits_foldl_compress, map_blocksOfBytes]

/-- The bytes of a state are those of its words. -/
theorem toBytes_eq (s : State) :
    s.toBytes = (bits s.words).flatMap fun word => bigEndian 4 word.toNat := by
  have written : (fun word : UInt32 => bigEndian 4 word.toBitVec.toNat) = bytesOfWord :=
    funext fun word => (Standard.bytesOfWord_eq word).symm
  rw [State.toBytes, bits, List.flatMap_map, written]

/-! ## The padding and the digest -/

/-- The zeros of the padding are the fewest that complete a block. -/
theorem zeros_eq (count : Nat) : Standard.Sha256.zeros count = (119 - count % 64) % 64 := by
  have found : (List.range 64).find? (fun zeros => (count + 1 + zeros + 8) % 64 = 0) =
      some ((119 - count % 64) % 64) := by
    rw [List.find?_range_eq_some]
    refine ⟨?_, ?_, ?_⟩
    · simp only [decide_eq_true_eq]
      omega
    · rw [List.mem_range]
      omega
    · intro fewer before
      simp only [Bool.not_eq_eq_eq_not, Bool.not_true, decide_eq_false_iff_not]
      omega
  rw [Standard.Sha256.zeros, found, Option.getD_some]

/-- A message with its padding is the published padded message. -/
theorem append_padding (message : Bytes) :
    message ++ padding message.length = Standard.Sha256.padded message := by
  rw [padding, Standard.Sha256.padded, Standard.bytesOfDouble_ofNat, zeros_eq, List.append_assoc]

/-- The digest is the published one. -/
theorem digest_eq (message : Bytes) : digest message = Standard.Sha256.digest message := by
  rw [digest, State.finish, Nat.zero_add, append_padding, toBytes_eq, bits_absorb]
  rfl

-- The published digest of "abc".
example : Standard.Sha256.digest [0x61, 0x62, 0x63] =
    [0xba, 0x78, 0x16, 0xbf, 0x8f, 0x01, 0xcf, 0xea, 0x41, 0x41, 0x40, 0xde, 0x5d, 0xae, 0x22, 0x23,
      0xb0, 0x03, 0x61, 0xa3, 0x96, 0x17, 0x7a, 0x9c, 0xb4, 0x10, 0xff, 0x61, 0xf2, 0x00, 0x15,
      0xad] := by
  rw [← digest_eq]
  decide +kernel

/-! ## Messages of two parts -/

/-- Whole words in front are read before the words of what follows them. -/
theorem wordsOfBytes_append (front rest : Bytes) (whole : front.length % 4 = 0) :
    wordsOfBytes (front ++ rest) = wordsOfBytes front ++ wordsOfBytes rest := by
  induction front using wordsOfBytes.induct with
  | case1 b0 b1 b2 b3 later ih =>
    simp only [List.length_cons] at whole
    simp only [List.cons_append, wordsOfBytes, ih (by omega)]
  | case2 front other =>
    match front, other with
    | [], _ => rfl
    | [_], _ | [_, _], _ | [_, _, _], _ => simp at whole
    | b0 :: b1 :: b2 :: b3 :: later, other => exact (other b0 b1 b2 b3 later rfl).elim

/-- Whole blocks in front are read before the blocks of what follows them. -/
theorem blocksOfWords_append (front rest : List UInt32) (whole : front.length % 16 = 0) :
    blocksOfWords (front ++ rest) = blocksOfWords front ++ blocksOfWords rest := by
  induction front using blocks_induction with
  | short front few =>
    obtain rfl := List.eq_nil_of_length_eq_zero (by omega : front.length = 0)
    rfl
  | block block later ih =>
    have counted : block.words.length = 16 := rfl
    rw [List.length_append] at whole
    rw [List.append_assoc, blocksOfWords_words_append, blocksOfWords_words_append, ih (by omega),
      List.cons_append]

/-- Whole blocks in front are folded in before what follows them. -/
theorem absorb_append (s : State) (front rest : Bytes) (whole : front.length % 64 = 0) :
    s.absorb (front ++ rest) = (s.absorb front).absorb rest := by
  have words : (wordsOfBytes front).length % 16 = 0 := by
    rw [length_wordsOfBytes]
    omega
  rw [State.absorb, wordsOfBytes_append front rest (by omega),
    blocksOfWords_append _ _ words, List.foldl_append]
  rfl

/-- A digest that is continued behind whole blocks is the digest of the whole message. -/
theorem toBytes_finish_absorb (front rest : Bytes) (whole : front.length % 64 = 0) :
    ((State.initial.absorb front).finish front.length rest).toBytes =
      Standard.Sha256.digest (front ++ rest) := by
  rw [← digest_eq, digest, State.finish, State.finish, ← absorb_append _ _ _ whole, Nat.zero_add,
    List.length_append, List.append_assoc]

end KeyWrapping.Sha256
