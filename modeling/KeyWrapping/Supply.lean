import KeyWrapping.Failure
import KeyWrapping.Bytes

/-!
# Random bytes

Randomness comes from a supply of bytes that is used from its front. A draw takes exactly the
bytes asked for from the front (`draw_append`), or, when too few are left, fails and takes none
(`draw_exhausted`).
-/

namespace KeyWrapping

/-- Random bytes not yet used. -/
structure Supply where
  /-- The bytes in the order of their use. -/
  remaining : Bytes
  deriving DecidableEq

namespace Supply

/-- `utils::random_array` and `utils::random_bytes` — take the next `count` bytes. -/
def draw (count : Nat) (supply : Supply) : Except Failure (Octets count) × Supply :=
  if enough : count ≤ supply.remaining.length then
    (.ok ⟨supply.remaining.take count, by simp only [List.length_take]; omega⟩,
      ⟨supply.remaining.drop count⟩)
  else (.error .supplyExhausted, supply)

/-- A draw takes the bytes in front. -/
theorem draw_append {count : Nat} (octets : Octets count) (rest : Bytes) :
    draw count ⟨octets.bytes ++ rest⟩ = (.ok octets, ⟨rest⟩) := by
  have enough : count ≤ (octets.bytes ++ rest).length := by
    rw [List.length_append, octets.length_eq]
    omega
  rw [draw, dif_pos enough]
  simp only [List.take_left' octets.length_eq, List.drop_left' octets.length_eq]

/-- A draw that finds too few bytes takes none. -/
theorem draw_exhausted (count : Nat) (supply : Supply)
    (short : supply.remaining.length < count) :
    supply.draw count = (.error .supplyExhausted, supply) := by
  simp [draw, Nat.not_le.mpr short]

end Supply

end KeyWrapping
