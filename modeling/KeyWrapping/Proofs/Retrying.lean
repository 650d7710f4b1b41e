import KeyWrapping.Proofs.Refusals
/-!
# When trying again can help

Two calls with the same arguments differ in nothing but the random bytes that they find, so a call
can succeed when it is tried again exactly if it gives an answer over some supply (`CanSucceed`). A
report calls its failure worth another try only for want of random bytes, and that is the failure of
just the calls that come to wrapping and find too few of them (`result_eq_exhausted_iff`). Such a
call succeeds over a longer supply, with two exceptions: random bytes are drawn before the new
password and the length of the payload are looked at, so a call that is to seal under no password,
or a payload that is too long, is reported as one to be tried again as long as the supply is short,
although it never succeeds.
-/

namespace KeyWrapping

/-- The password under which a call is to seal, if it is to seal at all. -/
def Call.newPassword? : Call → Option Bytes
  | .wrap password _ => some password
  | .rewrap _ newPassword _ => some newPassword
  | .unwrap _ _ | .unwrapKey _ _ | .verifyPassword _ _ => none

/-- Only a want of random bytes is reported as worth another try. -/
theorem Failure.retryable_iff (failure : Failure) :
    failure.report.retryable = true ↔ failure = .supplyExhausted := by
  cases failure <;> simp [report, Report.retryable]

namespace Wrapper

variable (wrapper : Wrapper)

/-- A call can succeed when some supply makes it give an answer. -/
def CanSucceed (call : Call) : Prop :=
  ∃ supply answer, (wrapper.answer call supply).traced.result = .ok answer

/-- The payload that a call comes to seal, if it comes to sealing: the one that it brings, or the
one that its stored form opens to. -/
def payloadOf? : Call → Option Bytes
  | .wrap _ payload => some payload
  | .rewrap oldPassword _ stored =>
    (wrapper.unwrap oldPassword stored).result.toOption.map Secret.bytes
  | .unwrap _ _ | .unwrapKey _ _ | .verifyPassword _ _ => none

/-- Opening a stored form needs no random bytes, so it never fails for want of them. -/
theorem unwrap_ne_exhausted (password stored : Bytes) :
    (wrapper.unwrap password stored).result ≠ .error .supplyExhausted := by
  intro exhausted
  cases read : WrappedKey.ofBytes stored with
  | error failure =>
    rw [unwrap_of_unread wrapper read] at exhausted
    obtain rfl : failure = .supplyExhausted := Except.error.inj exhausted
    obtain short | ⟨first, unknown⟩ := WrappedKey.failure_of_ofBytes read
    · contradiction
    · contradiction
  | ok key =>
    rw [unwrap_of_read wrapper read] at exhausted
    by_cases empty : password = []
    · rw [empty, unwrapKey_of_empty] at exhausted
      exact nomatch exhausted
    · obtain ⟨payload, opened⟩ | refused := wrapper.result_unwrapKey_of_password empty key
      · rw [opened] at exhausted
        exact nomatch exhausted
      · rw [refused] at exhausted
        exact nomatch exhausted

/-- A wrapping fails for want of random bytes exactly when it finds fewer than twenty-eight. -/
theorem wrap_eq_exhausted_iff (password payload : Bytes) (supply : Supply) :
    (wrapper.wrap password payload supply).1.result = .error .supplyExhausted ↔
      supply.remaining.length < 28 := by
  constructor
  · intro exhausted
    by_contra enough
    have found : 28 ≤ supply.remaining.length := Nat.not_lt.mp enough
    obtain ⟨without, within, beyond⟩ := wrapper.result_wrap_of_enough found password payload
    by_cases empty : password = []
    · rw [without empty] at exhausted
      contradiction
    by_cases fits : payload.length ≤ Cipher.longest
    · obtain ⟨key, wrapped⟩ := within empty fits
      rw [wrapped] at exhausted
      contradiction
    · rw [beyond empty (Nat.not_le.mp fits)] at exhausted
      contradiction
  · intro short
    exact wrapper.result_wrap_of_short short password payload

/-- Moving a stored form comes to wrapping exactly when the stored form opens. -/
theorem wraps_rewrap (oldPassword newPassword stored : Bytes) :
    (∃ payload, (wrapper.unwrap oldPassword stored).result = .ok payload ∧
      wrapper.wraps (.rewrap oldPassword newPassword stored) = true) ∨
    (∃ failure, (wrapper.unwrap oldPassword stored).result = .error failure ∧
      wrapper.wraps (.rewrap oldPassword newPassword stored) = false) := by
  cases opened : (wrapper.unwrap oldPassword stored).result with
  | ok payload =>
    refine .inl ⟨payload, rfl, ?_⟩
    rw [Wrapper.wraps, opened]
    rfl
  | error failure =>
    refine .inr ⟨failure, rfl, ?_⟩
    rw [Wrapper.wraps, opened]
    rfl

/-- A call that comes to wrapping ends as the wrapping of its payload under its new password,
whatever the supply. -/
theorem exists_wrap_of_wraps {call : Call} (wraps : wrapper.wraps call = true) :
    ∃ password payload, call.newPassword? = some password ∧
      wrapper.payloadOf? call = some payload ∧
      ∀ supply, (wrapper.answer call supply).traced.result =
        (wrapper.wrap password payload supply).1.result.map .wrapped := by
  cases call with
  | wrap password payload => exact ⟨password, payload, rfl, rfl, fun _ => rfl⟩
  | rewrap oldPassword newPassword stored =>
    obtain ⟨payload, opened, _⟩ | ⟨failure, _, without⟩ :=
      wrapper.wraps_rewrap oldPassword newPassword stored
    · refine ⟨newPassword, payload.bytes, rfl, ?_, ?_⟩
      · rw [payloadOf?, opened]
        rfl
      · intro supply
        rw [answer, wrapper.rewrap_of_opened opened]
        rfl
    · rw [without] at wraps
      contradiction
  | unwrap _ _ | unwrapKey _ _ | verifyPassword _ _ => contradiction

/-- A call that does not come to wrapping ends alike over every supply. -/
theorem result_of_not_wraps {call : Call} (without : wrapper.wraps call = false)
    (supply other : Supply) :
    (wrapper.answer call supply).traced.result = (wrapper.answer call other).traced.result := by
  cases call with
  | wrap password payload => contradiction
  | rewrap oldPassword newPassword stored =>
    obtain ⟨payload, _, wraps⟩ | ⟨failure, refused, _⟩ :=
      wrapper.wraps_rewrap oldPassword newPassword stored
    · rw [without] at wraps
      contradiction
    · rw [answer, answer, wrapper.rewrap_of_refused refused, wrapper.rewrap_of_refused refused]
  | unwrap _ _ | unwrapKey _ _ | verifyPassword _ _ => rfl

/-- A call that does not come to wrapping never fails for want of random bytes. -/
theorem ne_exhausted_of_not_wraps {call : Call} (without : wrapper.wraps call = false)
    (supply : Supply) :
    (wrapper.answer call supply).traced.result ≠ .error .supplyExhausted := by
  intro exhausted
  cases call with
  | wrap password payload => contradiction
  | rewrap oldPassword newPassword stored =>
    obtain ⟨payload, _, wraps⟩ | ⟨failure, refused, _⟩ :=
      wrapper.wraps_rewrap oldPassword newPassword stored
    · rw [without] at wraps
      contradiction
    · have moved : (wrapper.rewrap oldPassword newPassword stored supply).1.result =
          .error .supplyExhausted := map_eq_error_iff.mp exhausted
      rw [wrapper.rewrap_of_refused refused] at moved
      obtain rfl : failure = .supplyExhausted := Except.error.inj moved
      exact wrapper.unwrap_ne_exhausted oldPassword stored refused
  | unwrap password stored =>
    exact wrapper.unwrap_ne_exhausted password stored (map_eq_error_iff.mp exhausted)
  | unwrapKey password key =>
    have opening : (wrapper.unwrap password key.toBytes).result = .error .supplyExhausted := by
      rw [unwrap_of_read wrapper key.ofBytes_toBytes]
      exact map_eq_error_iff.mp exhausted
    exact wrapper.unwrap_ne_exhausted password key.toBytes opening
  | verifyPassword password stored =>
    have tried := map_eq_error_iff.mp exhausted
    rw [result_verifyPassword, verdict_eq_error_iff] at tried
    exact wrapper.unwrap_ne_exhausted password stored tried.1

/-- The calls that fail for want of random bytes are those that come to wrapping and find fewer than
twenty-eight. -/
theorem result_eq_exhausted_iff (call : Call) (supply : Supply) :
    (wrapper.answer call supply).traced.result = .error .supplyExhausted ↔
      wrapper.wraps call = true ∧ supply.remaining.length < 28 := by
  cases wraps : wrapper.wraps call with
  | false =>
    have other := wrapper.ne_exhausted_of_not_wraps wraps supply
    simp [other]
  | true =>
    obtain ⟨password, payload, _, _, ends⟩ := wrapper.exists_wrap_of_wraps wraps
    rw [ends, map_eq_error_iff, wrap_eq_exhausted_iff]
    simp

/-- A call that comes to wrapping can succeed exactly when it has a password to seal under and a
payload that is not too long. -/
theorem canSucceed_iff_of_wraps {call : Call} (wraps : wrapper.wraps call = true) :
    wrapper.CanSucceed call ↔ call.newPassword? ≠ some [] ∧
      ∀ payload, wrapper.payloadOf? call = some payload → payload.length ≤ Cipher.longest := by
  obtain ⟨password, payload, asked, brought, ends⟩ := wrapper.exists_wrap_of_wraps wraps
  rw [asked, brought]
  simp only [ne_eq, Option.some.injEq, forall_eq']
  constructor
  · rintro ⟨supply, answer, succeeded⟩
    rw [ends] at succeeded
    cases wrapped : (wrapper.wrap password payload supply).1.result with
    | ok key =>
      obtain ⟨nonempty, fits, _⟩ := wrapper.record_of_wrap wrapped
      exact ⟨nonempty, fits⟩
    | error failure =>
      rw [wrapped] at succeeded
      contradiction
  · rintro ⟨nonempty, fits⟩
    have enough : 28 ≤ (Supply.mk (List.replicate 28 0)).remaining.length := by decide
    obtain ⟨key, wrapped⟩ := (wrapper.exists_wrap_iff nonempty enough payload).mpr fits
    refine ⟨⟨List.replicate 28 0⟩, .wrapped key, ?_⟩
    rw [ends, wrapped]
    rfl

/-- A call that fails without coming to wrapping fails over every supply. -/
theorem not_canSucceed_of_not_wraps {call : Call} (without : wrapper.wraps call = false)
    {supply : Supply} {failure : Failure}
    (failed : (wrapper.answer call supply).traced.result = .error failure) :
    ¬wrapper.CanSucceed call := by
  rintro ⟨other, answer, succeeded⟩
  rw [wrapper.result_of_not_wraps without other supply, failed] at succeeded
  contradiction

/-- What the report of a failed call says about trying again. Unless the call is to seal under an
empty password or comes to seal a payload that is too long, its report says that another try can
help exactly when the call succeeds over some supply. A call that is to seal under an empty password
or comes to seal a payload that is too long never succeeds; still its report says that another try
can help exactly when it comes to wrapping and finds too few random bytes. -/
theorem retryable_iff_canSucceed {call : Call} {supply : Supply} {failure : Failure}
    (failed : (wrapper.answer call supply).traced.result = .error failure) :
    (call.newPassword? ≠ some [] →
      (∀ payload, wrapper.payloadOf? call = some payload → payload.length ≤ Cipher.longest) →
      (failure.report.retryable = true ↔ wrapper.CanSucceed call)) ∧
    ((call.newPassword? = some [] ∨ ∃ payload, wrapper.payloadOf? call = some payload ∧
        Cipher.longest < payload.length) →
      ¬wrapper.CanSucceed call ∧
        (failure.report.retryable = true ↔
          wrapper.wraps call = true ∧ supply.remaining.length < 28)) := by
  have exhausted : failure = .supplyExhausted ↔
      wrapper.wraps call = true ∧ supply.remaining.length < 28 := by
    rw [← wrapper.result_eq_exhausted_iff, failed, Except.error.injEq]
  rw [Failure.retryable_iff, exhausted]
  cases wraps : wrapper.wraps call with
  | false =>
    have never := wrapper.not_canSucceed_of_not_wraps wraps failed
    simp [never]
  | true =>
    rw [wrapper.canSucceed_iff_of_wraps wraps]
    constructor
    · intro nonempty fits
      -- a call that comes to wrapping with both in order fails for want of random bytes alone
      have short : supply.remaining.length < 28 := by
        by_contra enough
        obtain ⟨password, payload, asked, brought, ends⟩ := wrapper.exists_wrap_of_wraps wraps
        have given : password ≠ [] := fun empty => nonempty (by rw [asked, empty])
        obtain ⟨key, wrapped⟩ :=
          (wrapper.exists_wrap_iff given (Nat.not_lt.mp enough) payload).mpr (fits payload brought)
        rw [ends, wrapped] at failed
        contradiction
      exact iff_of_true ⟨rfl, short⟩ ⟨nonempty, fits⟩
    · intro unsealable
      refine ⟨?_, Iff.rfl⟩
      rintro ⟨nonempty, fits⟩
      obtain empty | ⟨payload, brought, long⟩ := unsealable
      · exact nonempty empty
      · exact Nat.not_le.mpr long (fits payload brought)

/-- A payload that was not wrapped for want of random bytes can be wrapped in another try. -/
theorem wrap_after_empty_supply :
    (standard.answer (.wrap [0x61] [0x62]) ⟨[]⟩).traced.result = .error .supplyExhausted ∧
      (Call.wrap [0x61] [0x62]).newPassword? ≠ some [] ∧
      (∀ payload, standard.payloadOf? (.wrap [0x61] [0x62]) = some payload →
        payload.length ≤ Cipher.longest) ∧
      (Failure.supplyExhausted.report.retryable = true ↔
        standard.CanSucceed (.wrap [0x61] [0x62])) ∧
      standard.CanSucceed (.wrap [0x61] [0x62]) := by
  have nonempty : (Call.wrap [0x61] [0x62]).newPassword? ≠ some [] := by decide
  have failed : (standard.answer (.wrap [0x61] [0x62]) ⟨[]⟩).traced.result =
      .error .supplyExhausted :=
    (standard.result_eq_exhausted_iff _ _).mpr ⟨rfl, by decide⟩
  have fits : ∀ payload, standard.payloadOf? (.wrap [0x61] [0x62]) = some payload →
      payload.length ≤ Cipher.longest := by
    intro payload brought
    obtain rfl := Option.some.inj brought
    decide
  have helps := (retryable_iff_canSucceed standard failed).1 nonempty fits
  exact ⟨failed, nonempty, fits, helps, helps.mp rfl⟩

/-- Not every report that another try can help is right: without a password and without random bytes
wrapping is reported so, but without a password it never succeeds. -/
theorem retry_without_password :
    let wrapper : Wrapper := ⟨.interactive, .standard, by decide⟩
    ∃ failure, (wrapper.answer (.wrap [] []) ⟨[]⟩).traced.result = .error failure ∧
      ¬(failure.report.retryable = true ↔ wrapper.CanSucceed (.wrap [] [])) := by
  intro wrapper
  have failed : (wrapper.answer (.wrap [] []) ⟨[]⟩).traced.result = .error .supplyExhausted :=
    (wrapper.result_eq_exhausted_iff _ _).mpr ⟨rfl, by decide⟩
  have never : ¬wrapper.CanSucceed (.wrap [] []) := by
    rw [wrapper.canSucceed_iff_of_wraps rfl]
    exact fun sealable => sealable.1 rfl
  refine ⟨.supplyExhausted, failed, ?_⟩
  intro helps
  exact never (helps.mp rfl)

end Wrapper

end KeyWrapping
