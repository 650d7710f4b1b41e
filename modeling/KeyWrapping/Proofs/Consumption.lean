import KeyWrapping.Proofs.RoundTrip
import KeyWrapping.Session
/-!
# What a run of calls takes from the supply

Only a call that comes to wrapping takes random bytes, and how many it takes depends on nothing but
the count of bytes that it finds (`Supply.takenFrom`). One call leaves the rest of its supply, and a
record that it gives holds exactly the bytes that it took (`answer_accounts`); by induction on the
calls, each call of a run finds the supply behind what all calls before it have taken
(`getElem?_session`). So no byte of the supply gets into two records.
-/

namespace KeyWrapping

/-- What a wrapping takes from a supply of `count` bytes: a salt and a nonce, or the salt alone if
no nonce is left behind it, or nothing if there is no salt. -/
def Supply.takenFrom (count : Nat) : Nat :=
  if 28 ≤ count then 28 else if 16 ≤ count then 16 else 0

namespace Wrapper

variable (wrapper : Wrapper)

/-- Without twenty-eight bytes to draw, nothing is wrapped and nothing is logged, whatever the
password; a salt that was found is gone. -/
theorem wrap_of_short {supply : Supply} (short : supply.remaining.length < 28)
    (password payload : Bytes) :
    wrapper.wrap password payload supply =
      (Traced.fail .supplyExhausted,
        ⟨supply.remaining.drop (Supply.takenFrom supply.remaining.length)⟩) := by
  rw [Supply.takenFrom, if_neg (Nat.not_le.mpr short)]
  by_cases salted : 16 ≤ supply.remaining.length
  · have noNonce : (supply.remaining.drop 16).length < 12 := by
      rw [List.length_drop]
      omega
    rw [if_pos salted, wrap, Supply.draw, dif_pos salted]
    simp only [Supply.draw_exhausted 12 ⟨supply.remaining.drop 16⟩ noNonce]
  · rw [if_neg salted, wrap, Supply.draw_exhausted 16 supply (Nat.not_le.mp salted)]
    rfl

/-- A wrapping leaves all but what it takes, whether it succeeds or not. -/
theorem wrap_left (password payload : Bytes) (supply : Supply) :
    (wrapper.wrap password payload supply).2 =
      ⟨supply.remaining.drop (Supply.takenFrom supply.remaining.length)⟩ := by
  by_cases enough : 28 ≤ supply.remaining.length
  · rw [wrap_take wrapper enough, Supply.takenFrom, if_pos enough]
  · rw [wrap_of_short wrapper (Nat.not_le.mp enough)]

/-- A record holds the salt and the nonce that its wrapping has drawn. -/
theorem drawn_of_wrap {password payload : Bytes} {supply : Supply} {key : WrappedKey}
    (wrapped : (wrapper.wrap password payload supply).1.result = .ok key) :
    28 ≤ supply.remaining.length ∧
      key.salt.bytes ++ key.nonce.bytes = supply.remaining.take 28 := by
  by_cases enough : 28 ≤ supply.remaining.length
  · obtain ⟨salt, nonce, drawn⟩ := Supply.exists_drawn enough
    rw [wrapper.wrap_of_drawn drawn, sealWith_eq_ok_iff] at wrapped
    obtain ⟨_, _, rfl⟩ := wrapped
    exact ⟨enough, drawn.symm⟩
  · rw [wrap_of_short wrapper (Nat.not_le.mp enough)] at wrapped
    contradiction

/-- What is wrapped has a password and is not too long, and it is the record of the payload with the
salt and the nonce that were drawn. -/
theorem record_of_wrap {password payload : Bytes} {supply : Supply} {key : WrappedKey}
    (wrapped : (wrapper.wrap password payload supply).1.result = .ok key) :
    password ≠ [] ∧ payload.length ≤ Cipher.longest ∧
      wrapper.record password payload key.salt key.nonce = key := by
  obtain ⟨_, drawn⟩ := wrapper.drawn_of_wrap wrapped
  rw [wrapper.wrap_of_drawn drawn.symm, sealWith_eq_ok_iff] at wrapped
  exact wrapped

/-- Whether a call comes to wrapping: a wrapping does, and so does moving a stored form that
opens. -/
def wraps : Call → Bool
  | .wrap _ _ => true
  | .rewrap oldPassword _ stored => (wrapper.unwrap oldPassword stored).result.isOk
  | .unwrap _ _ | .unwrapKey _ _ | .verifyPassword _ _ => false

/-- What a call takes from a supply of `count` bytes. -/
def takes (call : Call) (count : Nat) : Nat :=
  if wrapper.wraps call then Supply.takenFrom count else 0

/-- What calls take, one after the other, from a supply of `count` bytes. -/
def takesInTurn : List Call → Nat → Nat
  | [], _ => 0
  | call :: calls, count =>
    wrapper.takes call count + takesInTurn calls (count - wrapper.takes call count)

/-- The account of one call over its supply. -/
structure Accounts (call : Call) (supply : Supply) (reply : Reply) : Prop where
  /-- All is left but what the call takes. -/
  left : reply.left = ⟨supply.remaining.drop (wrapper.takes call supply.remaining.length)⟩
  /-- A call that comes to wrapping and finds too few bytes fails for that reason. -/
  short : wrapper.wraps call = true → supply.remaining.length < 28 →
    reply.traced.result = .error .supplyExhausted
  /-- A record holds the twenty-eight bytes that its call takes. -/
  drawn : ∀ key, reply.traced.result = .ok (.wrapped key) →
    wrapper.takes call supply.remaining.length = 28 ∧ 28 ≤ supply.remaining.length ∧
      key.salt.bytes ++ key.nonce.bytes = supply.remaining.take 28

/-- A call that does not come to wrapping and gives no record leaves its supply as it is. -/
theorem accounts_of_not_wraps {call : Call} {supply : Supply} {reply : Reply}
    (without : wrapper.wraps call = false) (left : reply.left = supply)
    (noRecord : ∀ key, reply.traced.result ≠ .ok (.wrapped key)) :
    wrapper.Accounts call supply reply := by
  refine ⟨?_, ?_, fun key given => absurd given (noRecord key)⟩
  · rw [left, takes, without]
    rfl
  · intro wraps
    rw [without] at wraps
    contradiction

/-- A call whose result and supply are those of a wrapping has the account of a wrapping. -/
theorem accounts_of_wraps {call : Call} (password payload : Bytes) {supply : Supply}
    {reply : Reply} (wraps : wrapper.wraps call = true)
    (result : reply.traced.result =
      (wrapper.wrap password payload supply).1.result.map .wrapped)
    (left : reply.left = (wrapper.wrap password payload supply).2) :
    wrapper.Accounts call supply reply := by
  refine ⟨?_, ?_, ?_⟩
  · rw [left, wrap_left, takes, if_pos wraps]
  · intro _ short
    rw [result, wrap_of_short wrapper short]
    rfl
  · intro key given
    rw [result] at given
    cases wrapped : (wrapper.wrap password payload supply).1.result with
    | error failure =>
      rw [wrapped] at given
      contradiction
    | ok record =>
      rw [wrapped] at given
      obtain rfl : record = key := by simpa [Except.map] using given
      obtain ⟨enough, drawn⟩ := wrapper.drawn_of_wrap wrapped
      refine ⟨?_, enough, drawn⟩
      rw [takes, if_pos wraps, Supply.takenFrom, if_pos enough]

/-- Every call has its account, whatever its arguments. -/
theorem answer_accounts (call : Call) (supply : Supply) :
    wrapper.Accounts call supply (wrapper.answer call supply) := by
  cases call with
  | wrap password payload => exact wrapper.accounts_of_wraps password payload rfl rfl rfl
  | unwrap password stored =>
    refine wrapper.accounts_of_not_wraps rfl rfl ?_
    intro key given
    cases opened : (wrapper.unwrap password stored).result <;>
      simp [answer, Traced.mapResult, opened, Except.map] at given
  | unwrapKey password record =>
    refine wrapper.accounts_of_not_wraps rfl rfl ?_
    intro key given
    cases opened : (wrapper.unwrapKey password record).result <;>
      simp [answer, Traced.mapResult, opened, Except.map] at given
  | rewrap oldPassword newPassword stored =>
    cases opened : (wrapper.unwrap oldPassword stored).result with
    | error failure =>
      have moved := wrapper.rewrap_of_refused opened newPassword supply
      refine wrapper.accounts_of_not_wraps ?_ ?_ ?_
      · rw [wraps, opened]
        rfl
      · simp only [answer, moved]
      · intro key given
        simp [answer, moved, Traced.mapResult, Except.map] at given
    | ok payload =>
      have moved := wrapper.rewrap_of_opened opened newPassword supply
      refine wrapper.accounts_of_wraps newPassword payload.bytes ?_ ?_ ?_
      · rw [wraps, opened]
        rfl
      · simp only [answer, moved, Traced.mapResult]
      · simp only [answer, moved]
  | verifyPassword password stored =>
    refine wrapper.accounts_of_not_wraps rfl rfl ?_
    intro key given
    cases answered : (wrapper.verifyPassword password stored).result <;>
      simp [answer, Traced.mapResult, answered, Except.map] at given

/-- Calls take what those in front take, and then what the others take from the rest. -/
theorem takesInTurn_append (calls later : List Call) (count : Nat) :
    wrapper.takesInTurn (calls ++ later) count = wrapper.takesInTurn calls count +
      wrapper.takesInTurn later (count - wrapper.takesInTurn calls count) := by
  induction calls generalizing count with
  | nil => simp [takesInTurn]
  | cons call calls ih => simp only [List.cons_append, takesInTurn, ih, Nat.add_assoc, Nat.sub_sub]

/-- Up to a call and with it, the calls take what those before it take and then its own share. -/
theorem takesInTurn_take_succ {calls : List Call} {index : Nat} {call : Call}
    (listed : calls[index]? = some call) (count : Nat) :
    wrapper.takesInTurn (calls.take (index + 1)) count =
      wrapper.takesInTurn (calls.take index) count +
        wrapper.takes call (count - wrapper.takesInTurn (calls.take index) count) := by
  rw [List.take_add_one, listed, takesInTurn_append]
  rfl

/-- More calls take no less. -/
theorem takesInTurn_take_mono (calls : List Call) (count : Nat) {earlier later : Nat}
    (ordered : earlier ≤ later) :
    wrapper.takesInTurn (calls.take earlier) count ≤
      wrapper.takesInTurn (calls.take later) count := by
  have parts := List.take_append_drop earlier (calls.take later)
  rw [List.take_take, Nat.min_eq_left ordered] at parts
  rw [← parts, takesInTurn_append]
  exact Nat.le_add_right _ _

/-- Each call of a run is answered over the supply behind what the calls before it have taken. -/
theorem getElem?_session (calls : List Call) (supply : Supply) (index : Nat) :
    (wrapper.session calls supply)[index]? = calls[index]?.map fun call =>
      wrapper.answer call
        ⟨supply.remaining.drop
          (wrapper.takesInTurn (calls.take index) supply.remaining.length)⟩ := by
  induction calls generalizing supply index with
  | nil => simp [session]
  | cons call calls ih =>
    cases index with
    | zero => simp [session, takesInTurn]
    | succ index =>
      simp only [session, List.getElem?_cons_succ, ih, (wrapper.answer_accounts call supply).left,
        List.take_succ_cons, takesInTurn, List.length_drop, List.drop_drop]

/-- A run has a reply for each call. -/
theorem length_session (calls : List Call) (supply : Supply) :
    (wrapper.session calls supply).length = calls.length := by
  induction calls generalizing supply with
  | nil => rfl
  | cons call calls ih => simp only [session, List.length_cons, ih]

/-- What is left at the end of a run. -/
def leftAfter (calls : List Call) (supply : Supply) : Supply :=
  ((wrapper.session calls supply).getLast?.map Reply.left).getD supply

/-- A run leaves the supply behind what all of its calls have taken. -/
theorem leftAfter_eq (calls : List Call) (supply : Supply) :
    wrapper.leftAfter calls supply =
      ⟨supply.remaining.drop (wrapper.takesInTurn calls supply.remaining.length)⟩ := by
  induction calls generalizing supply with
  | nil => rfl
  | cons call calls ih =>
    have onward : wrapper.leftAfter (call :: calls) supply =
        wrapper.leftAfter calls (wrapper.answer call supply).left := by
      simp only [leftAfter, session, List.getLast?_cons, Option.map_some, Option.getD_some]
      cases (wrapper.session calls (wrapper.answer call supply).left).getLast? <;> rfl
    rw [onward, ih, (wrapper.answer_accounts call supply).left]
    simp only [takesInTurn, List.length_drop, List.drop_drop]

/-- A record in a run holds the twenty-eight bytes that its call takes behind all shares before
it. -/
theorem drawn_in_session {calls : List Call} {supply : Supply} {index : Nat} {reply : Reply}
    {key : WrappedKey} (reached : (wrapper.session calls supply)[index]? = some reply)
    (given : reply.traced.result = .ok (.wrapped key)) :
    let place (index : Nat) := wrapper.takesInTurn (calls.take index) supply.remaining.length
    place (index + 1) = place index + 28 ∧ place index + 28 ≤ supply.remaining.length ∧
      key.salt.bytes ++ key.nonce.bytes = (supply.remaining.drop (place index)).take 28 := by
  intro place
  rw [getElem?_session] at reached
  obtain ⟨call, listed, rfl⟩ := Option.map_eq_some_iff.mp reached
  obtain ⟨share, inside, drawn⟩ := (wrapper.answer_accounts call _).drawn key given
  have next : place (index + 1) =
      place index + wrapper.takes call (supply.remaining.length - place index) :=
    wrapper.takesInTurn_take_succ listed _
  rw [List.length_drop] at share inside
  have fits : 28 ≤ supply.remaining.length - place index := inside
  exact ⟨by rw [next, share], by omega, drawn⟩

/-- Every call of a run takes its share of the supply behind all shares before it, and what the run
leaves is the supply behind all of them. A call that comes to wrapping without twenty-eight bytes to
draw fails for want of them; a record holds, as salt and nonce, the twenty-eight bytes that its own
call takes; and the stretches of two records of a run do not meet, the later call having the later
one. -/
theorem session_takes_disjoint_stretches (calls : List Call) (supply : Supply) :
    let place (index : Nat) := wrapper.takesInTurn (calls.take index) supply.remaining.length
    (wrapper.session calls supply).length = calls.length ∧
    wrapper.leftAfter calls supply = ⟨supply.remaining.drop (place calls.length)⟩ ∧
    (∀ index call, calls[index]? = some call →
      ∃ reply, (wrapper.session calls supply)[index]? = some reply ∧
        reply = wrapper.answer call ⟨supply.remaining.drop (place index)⟩ ∧
        place (index + 1) =
          place index + wrapper.takes call (supply.remaining.length - place index) ∧
        reply.left = ⟨supply.remaining.drop (place (index + 1))⟩ ∧
        (wrapper.wraps call = true → supply.remaining.length - place index < 28 →
          reply.traced.result = .error .supplyExhausted) ∧
        ∀ key, reply.traced.result = .ok (.wrapped key) →
          place (index + 1) = place index + 28 ∧
            key.salt.bytes ++ key.nonce.bytes = (supply.remaining.drop (place index)).take 28) ∧
    ∀ earlier later reply reply' key key', earlier < later →
      (wrapper.session calls supply)[earlier]? = some reply →
      (wrapper.session calls supply)[later]? = some reply' →
      reply.traced.result = .ok (.wrapped key) → reply'.traced.result = .ok (.wrapped key') →
      place earlier + 28 ≤ place later ∧ place later + 28 ≤ supply.remaining.length := by
  intro place
  refine ⟨wrapper.length_session calls supply, ?_, ?_, ?_⟩
  · simp only [leftAfter_eq, place, List.take_length]
  · intro index call listed
    have reached := wrapper.getElem?_session calls supply index
    rw [listed, Option.map_some] at reached
    have next : place (index + 1) =
        place index + wrapper.takes call (supply.remaining.length - place index) :=
      wrapper.takesInTurn_take_succ listed _
    have account := wrapper.answer_accounts call ⟨supply.remaining.drop (place index)⟩
    refine ⟨_, reached, rfl, next, ?_, ?_, ?_⟩
    · rw [account.left, List.drop_drop, List.length_drop, next]
    · intro wraps short
      refine account.short wraps ?_
      rw [List.length_drop]
      exact short
    · intro key given
      obtain ⟨share, _, drawn⟩ := wrapper.drawn_in_session reached given
      exact ⟨share, drawn⟩
  · intro earlier later reply reply' key key' ordered reached reached' given given'
    obtain ⟨share, _, _⟩ := wrapper.drawn_in_session reached given
    obtain ⟨_, inside, _⟩ := wrapper.drawn_in_session reached' given'
    have onward : place (earlier + 1) ≤ place later :=
      wrapper.takesInTurn_take_mono calls _ ordered
    exact ⟨Nat.le_trans (Nat.le_of_eq share.symm) onward, inside⟩

/-- A wrapping that fails for its empty password takes its share too, and one that finds a salt but
no nonce takes the salt. -/
example : standard.takesInTurn
    [.wrap [] [0x62], .verifyPassword [0x61] [], .wrap [0x61] [0x62]] 50 = 28 + 0 + 16 := by decide

end Wrapper

end KeyWrapping
