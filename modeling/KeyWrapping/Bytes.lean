/-!
# Byte strings

Passwords, payloads, salts and stored records are byte strings, kept as lists so that every
law of lists applies to them. This module adds byte strings of a fixed count, the bytewise
sum used by stream encryption, big-endian words, and a comparison that reads every byte
whatever it has met before. Its main laws: the comparison decides equality
(`sameBytes_iff`), and a sum with the same string twice is the identity (`xor_xor_cancel`).
-/

namespace KeyWrapping

/-- A byte string, first byte first. -/
abbrev Bytes := List UInt8

/-- A byte string of exactly `count` bytes. -/
@[ext] structure Octets (count : Nat) where
  /-- The bytes in order. -/
  bytes : Bytes
  /-- There are as many as the type promises. -/
  length_eq : bytes.length = count
  deriving DecidableEq

namespace Octets

/-- A byte string is admitted exactly when it has the promised count. -/
def ofBytes? (count : Nat) (bytes : Bytes) : Option (Octets count) :=
  if counted : bytes.length = count then some ⟨bytes, counted⟩ else none

/-- The stretch of `count` bytes that starts at `start`, in a string long enough to hold it. -/
def slice (bytes : Bytes) (start count : Nat) (inside : start + count ≤ bytes.length) :
    Octets count :=
  ⟨(bytes.drop start).take count, by simp only [List.length_take, List.length_drop]; omega⟩

/-- Bytes of the promised count are admitted unchanged. -/
@[simp] theorem ofBytes?_bytes {count : Nat} (octets : Octets count) :
    ofBytes? count octets.bytes = some octets := by
  simp [ofBytes?, octets.length_eq]

end Octets

namespace Bytes

/-- The bytewise sum, as long as the shorter string. -/
def xor (left right : Bytes) : Bytes := List.zipWith (· ^^^ ·) left right

/-- The sum is as long as the shorter string. -/
@[simp] theorem length_xor (left right : Bytes) :
    (xor left right).length = min left.length right.length := by
  simp [xor]

/-- Adding the same long enough string twice changes nothing. -/
theorem xor_xor_cancel (text mask : Bytes) (covered : text.length ≤ mask.length) :
    xor (xor text mask) mask = text := by
  induction text generalizing mask with
  | nil => simp [xor]
  | cons first rest ih =>
    cases mask with
    | nil => simp at covered
    | cons bit others =>
      have shorter : rest.length ≤ others.length := by simpa using covered
      have tail := ih others shorter
      simp only [xor, List.zipWith_cons_cons, List.cons.injEq] at tail ⊢
      exact ⟨by rw [UInt8.xor_assoc, UInt8.xor_self, UInt8.xor_zero], tail⟩

/-- The union of the differences of two strings of one length, read to the end. -/
def difference (left right : Bytes) : UInt8 := (xor left right).foldl (· ||| ·) 0

/-- `utils::constant_time_eq` — comparison of two secrets: unequal lengths differ at once, and for
equal lengths every pair of bytes is read before the answer is given. -/
def sameBytes (left right : Bytes) : Bool :=
  left.length == right.length && difference left right == 0

/-- A union of differences is empty exactly when it started empty and met none. -/
theorem foldl_or_eq_zero (differences : Bytes) (start : UInt8) :
    differences.foldl (· ||| ·) start = 0 ↔ start = 0 ∧ ∀ d ∈ differences, d = 0 := by
  induction differences generalizing start with
  | nil => simp
  | cons first rest ih =>
    simp only [List.foldl_cons, ih, UInt8.or_eq_zero_iff, List.forall_mem_cons, and_assoc]

/-- The bytewise sum of two strings of one length is all zeros exactly when they are equal. -/
theorem forall_xor_eq_zero (left right : Bytes) (counted : left.length = right.length) :
    (∀ d ∈ xor left right, d = 0) ↔ left = right := by
  induction left generalizing right with
  | nil =>
    cases right with
    | nil => simp [xor]
    | cons first rest => simp at counted
  | cons first rest ih =>
    cases right with
    | nil => simp at counted
    | cons head tail =>
      have shorter : rest.length = tail.length := by simpa using counted
      have inner := ih tail shorter
      simp only [xor] at inner
      simp only [xor, List.zipWith_cons_cons, List.forall_mem_cons, inner, List.cons.injEq,
        UInt8.xor_eq_zero_iff]

/-- The comparison answers true exactly for equal byte strings. -/
theorem sameBytes_iff (left right : Bytes) : sameBytes left right = true ↔ left = right := by
  by_cases counted : left.length = right.length
  · simp [sameBytes, counted, difference, foldl_or_eq_zero,
      forall_xor_eq_zero left right counted]
  · have differ : left ≠ right := fun same => counted (congrArg List.length same)
    simp [sameBytes, counted, differ]

end Bytes

/-- The big-endian word of four bytes. -/
@[inline] def wordOfBytes (b0 b1 b2 b3 : UInt8) : UInt32 :=
  (b0.toUInt32 <<< 24) ||| (b1.toUInt32 <<< 16) ||| (b2.toUInt32 <<< 8) ||| b3.toUInt32

/-- The four bytes of a word, the most significant first. -/
def bytesOfWord (word : UInt32) : Bytes :=
  [(word >>> 24).toUInt8, (word >>> 16).toUInt8, (word >>> 8).toUInt8, word.toUInt8]

/-- The eight bytes of a double word, the most significant first. -/
def bytesOfDouble (double : UInt64) : Bytes :=
  [(double >>> 56).toUInt8, (double >>> 48).toUInt8, (double >>> 40).toUInt8,
    (double >>> 32).toUInt8, (double >>> 24).toUInt8, (double >>> 16).toUInt8,
    (double >>> 8).toUInt8, double.toUInt8]

/-- The big-endian double word of eight bytes. -/
def doubleOfBytes (b0 b1 b2 b3 b4 b5 b6 b7 : UInt8) : UInt64 :=
  (b0.toUInt64 <<< 56) ||| (b1.toUInt64 <<< 48) ||| (b2.toUInt64 <<< 40) |||
    (b3.toUInt64 <<< 32) ||| (b4.toUInt64 <<< 24) ||| (b5.toUInt64 <<< 16) |||
    (b6.toUInt64 <<< 8) ||| b7.toUInt64

end KeyWrapping
