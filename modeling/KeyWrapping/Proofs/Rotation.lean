import KeyWrapping.Proofs.Refusals
/-!
# Changing the password again and again

A rotation wraps a payload once and moves the stored form from password to password, with each call
getting what the one before has left of the supply. One call leaves a record that opens to the
payload and that wrapping the payload alone would have written (`wrap_leaves`, `rewrap_leaves`); by
induction on the number of calls this is so after every one of them (`exists_leaves`), whatever the
passwords before it were. Only the first call can meet a payload that is too long for the cipher,
and then it is the only call (`rotation_of_overlong`).
-/

namespace KeyWrapping

namespace Wrapper

variable (wrapper : Wrapper)

/-- The replies of a run that has already had one reply, under a password, and goes on to further
passwords. Each call gets the stored form and the supply that the one before it has left; after a
failure there is nothing to go on with. -/
def continued (reply : Traced WrappedKey × Supply) (password : Bytes) :
    List Bytes → List (Traced WrappedKey × Supply)
  | [] => [reply]
  | next :: later =>
    match reply.1.result with
    | .ok key =>
      reply :: continued (wrapper.rewrap password next key.toBytes reply.2) next later
    | .error _ => [reply]

/-- Wrap a payload under a first password and move it through the later ones. -/
def rotation (payload first : Bytes) (later : List Bytes) (supply : Supply) :
    List (Traced WrappedKey × Supply) :=
  wrapper.continued (wrapper.wrap first payload supply) first later

/-- A run starts with the reply that it has already had. -/
theorem getElem?_continued_zero (reply : Traced WrappedKey × Supply) (password : Bytes)
    (later : List Bytes) : (wrapper.continued reply password later)[0]? = some reply := by
  cases later with
  | nil => rfl
  | cons next later =>
    rw [continued]
    split
    · rfl
    · rfl

/-- A run has at most one reply for each password. -/
theorem length_continued_le (reply : Traced WrappedKey × Supply) (password : Bytes)
    (later : List Bytes) : (wrapper.continued reply password later).length ≤ later.length + 1 := by
  induction later generalizing reply password with
  | nil => exact Nat.le_refl 1
  | cons next later ih =>
    rw [continued]
    split
    · next key _ =>
      have shorter := ih (wrapper.rewrap password next key.toBytes reply.2) next
      rw [List.length_cons, List.length_cons]
      omega
    · rw [List.length_singleton, List.length_cons]
      omega

/-- After a reply with a record comes the reply about moving that record to the next password. -/
theorem getElem?_continued_succ (reply : Traced WrappedKey × Supply) (password : Bytes)
    (later : List Bytes) (index : Nat) {before : Traced WrappedKey × Supply} {key : WrappedKey}
    {current next : Bytes}
    (reached : (wrapper.continued reply password later)[index]? = some before)
    (succeeded : before.1.result = .ok key)
    (under : (password :: later)[index]? = some current)
    (further : (password :: later)[index + 1]? = some next) :
    (wrapper.continued reply password later)[index + 1]? =
      some (wrapper.rewrap current next key.toBytes before.2) := by
  induction later generalizing reply password index with
  | nil => simp at further
  | cons head later ih =>
    cases index with
    | zero =>
      rw [getElem?_continued_zero] at reached
      obtain rfl := Option.some.inj reached
      obtain rfl : password = current := Option.some.inj under
      obtain rfl : head = next := Option.some.inj further
      rw [continued, succeeded]
      exact wrapper.getElem?_continued_zero _ _ _
    | succ index =>
      rw [continued] at reached ⊢
      split at reached
      · exact ih _ _ index reached under further
      · simp at reached

/-- What a call of a rotation leaves: a record that opens to the payload, that wrapping the payload
alone on the next twenty-eight bytes writes, and the bytes behind them. -/
structure Leaves (password payload : Bytes) (supply : Supply) (reply : Traced WrappedKey × Supply)
    (key : WrappedKey) : Prop where
  /-- The call gives the record. -/
  result : reply.1.result = .ok key
  /-- The record is as long as every record of the payload. -/
  size : key.toBytes.length = WrappedKey.leastSize + payload.length
  /-- Wrapping alone gives the same record. -/
  alone : (wrapper.wrap password payload ⟨supply.remaining.take 28⟩).1.result = .ok key
  /-- The record opens to the payload. -/
  opens : (wrapper.unwrap password key.toBytes).result = .ok ⟨payload⟩
  /-- Twenty-eight bytes are drawn. -/
  left : reply.2 = ⟨supply.remaining.drop 28⟩

variable {password payload : Bytes} {supply : Supply}

/-- Wrapping leaves a record of the payload. -/
theorem wrap_leaves (nonempty : password ≠ []) (fits : payload.length ≤ Cipher.longest)
    (enough : 28 ≤ supply.remaining.length) :
    ∃ key, wrapper.Leaves password payload supply (wrapper.wrap password payload supply) key := by
  have split := wrapper.wrap_take enough password payload
  obtain ⟨key, wrapped, _, opens, sizes⟩ := wrapper.exists_wrapped nonempty fits enough
  refine ⟨key, wrapped, ?_, ?_, opens, ?_⟩
  · rw [← sizes]
    exact key.size_eq
  · rw [split] at wrapped
    exact wrapped
  · rw [split]

/-- Moving a record of the payload to another password leaves a record of the payload. -/
theorem rewrap_leaves {stored next : Bytes}
    (opens : (wrapper.unwrap password stored).result = .ok ⟨payload⟩) (nonempty : next ≠ [])
    (fits : payload.length ≤ Cipher.longest) (enough : 28 ≤ supply.remaining.length) :
    ∃ key, wrapper.Leaves next payload supply (wrapper.rewrap password next stored supply) key := by
  obtain ⟨key, leaves⟩ := wrapper.wrap_leaves nonempty fits enough
  have moved := wrapper.rewrap_of_opened opens next supply
  refine ⟨key, ?_, leaves.size, leaves.alone, leaves.opens, ?_⟩
  · rw [moved]
    exact leaves.result
  · rw [moved]
    exact leaves.left

/-- Every call of a rotation leaves a record of the payload, on its own stretch of the supply. -/
theorem exists_leaves {first : Bytes} {later : List Bytes}
    (nonempty : ∀ password ∈ first :: later, password ≠ [])
    (enough : 28 * (later.length + 1) ≤ supply.remaining.length)
    (fits : payload.length ≤ Cipher.longest) (index : Nat) {password : Bytes}
    (listed : (first :: later)[index]? = some password) :
    ∃ reply key, (wrapper.rotation payload first later supply)[index]? = some reply ∧
      wrapper.Leaves password payload ⟨supply.remaining.drop (28 * index)⟩ reply key := by
  have bound : index < later.length + 1 := (List.getElem?_eq_some_iff.mp listed).1
  have stretch : 28 ≤ (supply.remaining.drop (28 * index)).length := by
    rw [List.length_drop]
    omega
  have given : password ≠ [] := nonempty password (List.mem_of_getElem? listed)
  -- The record that a call opens is the one that the call before it has left.
  induction index generalizing password with
  | zero =>
    obtain rfl : first = password := Option.some.inj listed
    obtain ⟨key, leaves⟩ := wrapper.wrap_leaves given fits stretch
    exact ⟨_, key, wrapper.getElem?_continued_zero _ _ _, leaves⟩
  | succ index ih =>
    obtain ⟨previous, under⟩ : ∃ previous, (first :: later)[index]? = some previous :=
      ⟨_, List.getElem?_eq_getElem (by rw [List.length_cons]; omega)⟩
    have stretchBefore : 28 ≤ (supply.remaining.drop (28 * index)).length := by
      rw [List.length_drop]
      omega
    have givenBefore : previous ≠ [] := nonempty previous (List.mem_of_getElem? under)
    obtain ⟨before, record, reached, leavesBefore⟩ := ih under (by omega) stretchBefore givenBefore
    have left : before.2 = ⟨supply.remaining.drop (28 * (index + 1))⟩ := by
      rw [leavesBefore.left, List.drop_drop, Nat.mul_succ]
    obtain ⟨key, leaves⟩ := wrapper.rewrap_leaves leavesBefore.opens given fits stretch
    have following := wrapper.getElem?_continued_succ _ first later index reached
      leavesBefore.result under listed
    rw [left] at following
    exact ⟨_, key, following, leaves⟩

/-- A rotation of a payload that is not too long has a reply for each password. -/
theorem length_rotation {first : Bytes} {later : List Bytes}
    (nonempty : ∀ password ∈ first :: later, password ≠ [])
    (enough : 28 * (later.length + 1) ≤ supply.remaining.length)
    (fits : payload.length ≤ Cipher.longest) :
    (wrapper.rotation payload first later supply).length = later.length + 1 := by
  have atMost : (wrapper.rotation payload first later supply).length ≤ later.length + 1 :=
    wrapper.length_continued_le _ _ _
  obtain ⟨last, listed⟩ : ∃ last, (first :: later)[later.length]? = some last :=
    ⟨_, List.getElem?_eq_getElem (Nat.lt_succ_self _)⟩
  obtain ⟨reply, _, reached, _⟩ := wrapper.exists_leaves nonempty enough fits _ listed
  have atLeast := (List.getElem?_eq_some_iff.mp reached).1
  omega

/-- A rotation of a longer payload ends with its first call, which the cipher refuses behind the
draws and the derivation. -/
theorem rotation_of_overlong {first : Bytes} (nonempty : first ≠ [])
    (long : Cipher.longest < payload.length) (enough : 28 ≤ supply.remaining.length)
    (later : List Bytes) :
    wrapper.rotation payload first later supply =
      [(⟨.error .sealing, [wrapper.derived]⟩, ⟨supply.remaining.drop 28⟩)] := by
  have refused := wrapper.wrap_of_overlong nonempty long enough
  cases later with
  | nil => rw [rotation, continued, refused]
  | cons next later => rw [rotation, continued, refused]

/-- A rotation of a payload that is not too long for the cipher, through all of its passwords, has
one reply for each, every one with a record of the payload: as long as a record of the payload is,
opened by its own password, and byte for byte what wrapping the payload alone under that password
writes on the stretch of the supply at that place. The calls are a wrapping and then, each time, the
moving of the record before it, whose events are those of opening it and then those of wrapping. Of
a longer payload there is one reply, in which the cipher refuses the first call. -/
theorem rotation_keeps_payload {first : Bytes} {later : List Bytes} {supply : Supply}
    (nonempty : ∀ password ∈ first :: later, password ≠ [])
    (enough : 28 * (later.length + 1) ≤ supply.remaining.length) (payload : Bytes) :
    (payload.length ≤ Cipher.longest →
      (wrapper.rotation payload first later supply).length = later.length + 1 ∧
      (wrapper.rotation payload first later supply)[0]? =
        some (wrapper.wrap first payload supply) ∧
      ∀ index password, (first :: later)[index]? = some password →
        ∃ reply key, (wrapper.rotation payload first later supply)[index]? = some reply ∧
          reply.1.result = .ok key ∧
          key.toBytes.length = 45 + payload.length ∧
          (wrapper.wrap password payload
              ⟨(supply.remaining.drop (28 * index)).take 28⟩).1.result = .ok key ∧
          (wrapper.unwrap password key.toBytes).result = .ok ⟨payload⟩ ∧
          reply.2 = ⟨supply.remaining.drop (28 * (index + 1))⟩ ∧
          ∀ next, (first :: later)[index + 1]? = some next →
            ∃ following, (wrapper.rotation payload first later supply)[index + 1]? =
                some following ∧
              following = wrapper.rewrap password next key.toBytes reply.2 ∧
              following.1.events = (wrapper.unwrap password key.toBytes).events ++
                (wrapper.wrap next payload
                  ⟨(supply.remaining.drop (28 * (index + 1))).take 28⟩).1.events) ∧
    (Cipher.longest < payload.length →
      ∃ reply, wrapper.rotation payload first later supply = [reply] ∧
        RefusedAs reply.1.result .sealing "AesError" 5001 ∧
        reply.2 = ⟨supply.remaining.drop 28⟩) := by
  refine ⟨?_, ?_⟩
  · intro fits
    refine ⟨wrapper.length_rotation nonempty enough fits, wrapper.getElem?_continued_zero _ _ _, ?_⟩
    intro index password listed
    obtain ⟨reply, key, reached, leaves⟩ :=
      wrapper.exists_leaves nonempty enough fits index listed
    have left : reply.2 = ⟨supply.remaining.drop (28 * (index + 1))⟩ := by
      rw [leaves.left, List.drop_drop, Nat.mul_succ]
    refine ⟨reply, key, reached, leaves.result, leaves.size, leaves.alone, leaves.opens, left, ?_⟩
    intro next further
    have following := wrapper.getElem?_continued_succ _ first later index reached leaves.result
      listed further
    refine ⟨_, following, rfl, ?_⟩
    have bound : index + 1 < later.length + 1 := (List.getElem?_eq_some_iff.mp further).1
    have stretch : 28 ≤ (supply.remaining.drop (28 * (index + 1))).length := by
      rw [List.length_drop]
      omega
    rw [left, wrapper.rewrap_of_opened leaves.opens, wrapper.wrap_take stretch]
  · intro long
    have given : first ≠ [] := nonempty first List.mem_cons_self
    have first_enough : 28 ≤ supply.remaining.length := by omega
    have refused := wrapper.rotation_of_overlong given long first_enough later
    exact ⟨_, refused, ⟨rfl, rfl, rfl⟩, rfl⟩

/-- After two changes of the password the usual wrapper opens the last record to what it wrapped. -/
theorem rotation_of_three :
    (∀ password ∈ ([[0x61], [0x62], [0x63]] : List Bytes), password ≠ []) ∧
      28 * 3 ≤ (Supply.mk (List.replicate 84 0)).remaining.length ∧
      ∃ reply key,
        (standard.rotation [0x64] [0x61] [[0x62], [0x63]] ⟨List.replicate 84 0⟩)[2]? =
          some reply ∧
        reply.1.result = .ok key ∧ (standard.unwrap [0x63] key.toBytes).result = .ok ⟨[0x64]⟩ := by
  have nonempty : ∀ password ∈ ([[0x61], [0x62], [0x63]] : List Bytes), password ≠ [] := by decide
  have enough : 28 * 3 ≤ (Supply.mk (List.replicate 84 0)).remaining.length := by decide
  obtain ⟨_, _, leaves⟩ := (rotation_keeps_payload standard nonempty enough [0x64]).1 (by decide)
  obtain ⟨reply, key, reached, result, _, _, opens, _⟩ := leaves 2 [0x63] rfl
  exact ⟨nonempty, enough, reply, key, reached, result, opens⟩

/-- Not every payload can be wrapped and moved: one that is one byte too long is refused by the
first call, with a password and with enough random bytes. -/
theorem byte_too_many_refused :
    let wrapper : Wrapper := ⟨.interactive, .standard, by decide⟩
    let payload : Bytes := List.replicate 68719476737 0
    let supply : Supply := ⟨List.replicate 28 0⟩
    (∀ password ∈ ([[0x61]] : List Bytes), password ≠ []) ∧
      28 * 1 ≤ supply.remaining.length ∧
      ∃ reply, wrapper.rotation payload [0x61] [] supply = [reply] ∧
        RefusedAs reply.1.result .sealing "AesError" 5001 := by
  intro wrapper payload supply
  have nonempty : ∀ password ∈ ([[0x61]] : List Bytes), password ≠ [] := by decide
  have enough : 28 ≤ supply.remaining.length := by decide
  -- the payload is known by its length alone
  have long : Cipher.longest < payload.length := by
    rw [List.length_replicate]
    decide
  have refused := wrapper.rotation_of_overlong (nonempty _ List.mem_cons_self) long enough []
  exact ⟨nonempty, enough, _, refused, rfl, rfl, rfl⟩

end Wrapper

end KeyWrapping
