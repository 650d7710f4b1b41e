import KeyWrapping.Proofs.Consumption
import KeyWrapping.Report
/-!
# Which call is refused for what

The checks of a call come in a fixed order, and the first that fails names the refusal. Wrapping
asks for random bytes before it looks at the password, and the cipher looks at the length of the
payload last; opening looks at the length, the version, the password and the tag, in this order.
Trying a password and moving a stored form add no check of their own, and what is moved is never too
long. Parameters are never refused here, because a wrapper has only parameters that its deriver
accepts and keys of a length that its cipher takes. So unless a call brings a payload that is too
long, five kinds of refusal are all that there are (`Failure.Arises`).
-/

namespace KeyWrapping

/-- A call brings no payload that is too long for the cipher. -/
def Call.Fits : Call → Prop
  | .wrap _ payload => payload.length ≤ Cipher.longest
  | .unwrap _ _ | .unwrapKey _ _ | .rewrap _ _ _ | .verifyPassword _ _ => True

/-- The failures that such calls of a wrapper end in. -/
def Failure.Arises : Failure → Prop
  | emptyPassword | recordTooShort _ | unknownVersion _ | authentication | supplyExhausted => True
  | saltLength _ | tooFewIterations _ _ | floorTooLow _ _ | derivedKeyLength _ | cipherKeyLength _
  | unreadableText _ | sealing => False

/-- The kinds and the codes of their reports. -/
def refusals : List (String × UInt32) :=
  [("InvalidParameter", 1004), ("MalformedBlob", 2001), ("MalformedBlob", 2002),
    ("AuthenticationFailed", 3001), ("RandomGenerationError", 4001)]

/-- Salts, iterations, lengths of keys and the cipher have no part in them. -/
theorem code_of_mem_refusals : ∀ entry ∈ refusals, entry.2 ∉ [1001, 1002, 1003, 5001] := by decide

/-- Every failure of a call is reported with one of these kinds and codes. -/
theorem Failure.Arises.mem_refusals {failure : Failure} (arises : failure.Arises) :
    (failure.report.kind, failure.report.code) ∈ refusals := by
  cases failure with
  | emptyPassword | recordTooShort _ | unknownVersion _ | authentication | supplyExhausted =>
    simp [refusals, report, Report.kind, Report.code, Code.number]
  | saltLength _ | tooFewIterations _ _ | floorTooLow _ _ | derivedKeyLength _ | cipherKeyLength _
  | unreadableText _ | sealing => contradiction

/-- A result is a failure, and its report has a kind and a code. -/
structure RefusedAs {α : Type} (result : Except Failure α) (failure : Failure) (kind : String)
    (code : UInt32) : Prop where
  /-- There is no value, for this reason. -/
  failed : result = .error failure
  /-- The kind of the report. -/
  kind_eq : failure.report.kind = kind
  /-- The code of the report. -/
  code_eq : failure.report.code = code

/-- A changed value leaves a failure as it is. -/
theorem map_eq_error_iff {α β : Type} {change : α → β} {result : Except Failure α}
    {failure : Failure} : result.map change = .error failure ↔ result = .error failure := by
  cases result <;> simp [Except.map]

/-- What cannot be read is too short or of another version. -/
theorem WrappedKey.failure_of_ofBytes {bytes : Bytes} {failure : Failure}
    (unread : ofBytes bytes = .error failure) :
    failure = .recordTooShort bytes.length ∨ ∃ first, failure = .unknownVersion first := by
  by_cases long : leastSize ≤ bytes.length
  · cases starts : bytes.head? with
    | none =>
      obtain rfl := List.head?_eq_none_iff.mp starts
      contradiction
    | some first =>
      by_cases known : first = version
      · obtain ⟨key, read, _⟩ := exists_ofBytes long (known ▸ starts)
        rw [read] at unread
        contradiction
      · rw [ofBytes_of_unknown long starts known] at unread
        exact .inr ⟨first, (Except.error.inj unread).symm⟩
  · rw [ofBytes_of_short (Nat.not_le.mp long)] at unread
    exact .inl (Except.error.inj unread).symm

namespace Wrapper

/-- The verdict is that the password was right exactly when there is a payload. -/
theorem verdict_eq_true_iff (result : Except Failure Secret) :
    verdict result = .ok true ↔ ∃ payload, result = .ok payload := by
  cases result with
  | ok payload => simp [verdict]
  | error failure => cases failure <;> simp [verdict]

/-- The verdict is that the password was wrong exactly when the tag was refused. -/
theorem verdict_eq_false_iff (result : Except Failure Secret) :
    verdict result = .ok false ↔ result = .error .authentication := by
  cases result with
  | ok payload => simp [verdict]
  | error failure => cases failure <;> simp [verdict]

/-- There is no verdict exactly when something else than the tag was refused. -/
theorem verdict_eq_error_iff (result : Except Failure Secret) (failure : Failure) :
    verdict result = .error failure ↔ result = .error failure ∧ failure ≠ .authentication := by
  cases result with
  | ok payload => simp [verdict]
  | error found =>
    cases found with
    | authentication =>
      simp only [verdict, reduceCtorEq, Except.error.injEq, false_iff, not_and, not_not]
      exact Eq.symm
    | emptyPassword | saltLength _ | tooFewIterations _ _ | floorTooLow _ _ | derivedKeyLength _
    | cipherKeyLength _ | recordTooShort _ | unknownVersion _ | unreadableText _
    | supplyExhausted | sealing =>
      simp only [verdict, Except.error.injEq]
      constructor
      · rintro rfl
        simp
      · exact And.left

variable (wrapper : Wrapper)

/-- Without enough to draw from, nothing is wrapped, whatever the password. -/
theorem result_wrap_of_short {supply : Supply} (short : supply.remaining.length < 28)
    (password payload : Bytes) :
    (wrapper.wrap password payload supply).1.result = .error .supplyExhausted := by
  rw [wrapper.wrap_of_short short]
  rfl

/-- With enough to draw from, only an empty password or the length of the payload keeps a payload
from being wrapped, and the password is looked at first. -/
theorem result_wrap_of_enough {supply : Supply} (enough : 28 ≤ supply.remaining.length)
    (password payload : Bytes) :
    (password = [] → (wrapper.wrap password payload supply).1.result = .error .emptyPassword) ∧
      (password ≠ [] → payload.length ≤ Cipher.longest →
        ∃ key, (wrapper.wrap password payload supply).1.result = .ok key) ∧
      (password ≠ [] → Cipher.longest < payload.length →
        (wrapper.wrap password payload supply).1.result = .error .sealing) := by
  refine ⟨?_, ?_, ?_⟩
  · rintro rfl
    obtain ⟨salt, nonce, drawn⟩ := Supply.exists_drawn enough
    rw [wrapper.wrap_of_drawn drawn, sealWith_of_empty]
  · intro nonempty fits
    exact (wrapper.exists_wrap_iff nonempty enough payload).mpr fits
  · intro nonempty long
    rw [wrapper.wrap_of_overlong nonempty long enough]

/-- Under a password a record opens, or its tag is refused. -/
theorem result_unwrapKey_of_password {password : Bytes} (nonempty : password ≠ [])
    (key : WrappedKey) :
    (∃ payload, (wrapper.unwrapKey password key).result = .ok payload) ∨
      (wrapper.unwrapKey password key).result = .error .authentication := by
  by_cases recognized : wrapper.Recognizes password key
  · rw [unwrapKey_of_recognized wrapper nonempty recognized]
    exact .inl ⟨_, rfl⟩
  · rw [unwrapKey_of_unrecognized wrapper nonempty recognized]
    exact .inr rfl

/-- A string shorter than every stored form is refused for its length, whatever the password. -/
theorem result_unwrap_of_short {stored : Bytes} (short : stored.length < 45) (password : Bytes) :
    (wrapper.unwrap password stored).result = .error (.recordTooShort stored.length) := by
  rw [unwrap_of_unread wrapper (WrappedKey.ofBytes_of_short short)]

/-- A long enough string of another version is refused for it, whatever the password. -/
theorem result_unwrap_of_unknown {stored : Bytes} (long : 45 ≤ stored.length) {first : UInt8}
    (starts : stored.head? = some first) (unknown : first ≠ 1) (password : Bytes) :
    (wrapper.unwrap password stored).result = .error (.unknownVersion first) := by
  rw [unwrap_of_unread wrapper (WrappedKey.ofBytes_of_unknown long starts unknown)]

/-- A long enough string of the version in use is refused for an empty password, and under every
other one it opens or its tag is refused. -/
theorem result_unwrap_of_known {stored : Bytes} (long : 45 ≤ stored.length)
    (starts : stored.head? = some 1) (password : Bytes) :
    (password = [] → (wrapper.unwrap password stored).result = .error .emptyPassword) ∧
      (password ≠ [] → (∃ payload, (wrapper.unwrap password stored).result = .ok payload) ∨
        (wrapper.unwrap password stored).result = .error .authentication) := by
  obtain ⟨key, read, _⟩ := WrappedKey.exists_ofBytes long starts
  rw [unwrap_of_read wrapper read]
  constructor
  · rintro rfl
    rw [unwrapKey_of_empty]
  · intro nonempty
    exact wrapper.result_unwrapKey_of_password nonempty key

/-- Wrapping a payload that is not too long fails for want of random bytes or of a password. -/
theorem arises_of_wrap {password payload : Bytes} (fits : payload.length ≤ Cipher.longest)
    {supply : Supply} {failure : Failure}
    (failed : (wrapper.wrap password payload supply).1.result = .error failure) :
    failure.Arises := by
  by_cases enough : 28 ≤ supply.remaining.length
  · obtain ⟨without, under, _⟩ := wrapper.result_wrap_of_enough enough password payload
    by_cases empty : password = []
    · rw [without empty] at failed
      obtain rfl := Except.error.inj failed
      trivial
    · obtain ⟨key, wrapped⟩ := under empty fits
      rw [wrapped] at failed
      contradiction
  · rw [wrapper.result_wrap_of_short (Nat.not_le.mp enough)] at failed
    obtain rfl := Except.error.inj failed
    trivial

/-- Opening a record fails for want of a password or of the right tag. -/
theorem arises_of_unwrapKey {password : Bytes} {key : WrappedKey} {failure : Failure}
    (failed : (wrapper.unwrapKey password key).result = .error failure) : failure.Arises := by
  by_cases empty : password = []
  · rw [empty, unwrapKey_of_empty] at failed
    obtain rfl := Except.error.inj failed
    trivial
  · obtain ⟨payload, opened⟩ | refused := wrapper.result_unwrapKey_of_password empty key
    · rw [opened] at failed
      contradiction
    · rw [refused] at failed
      obtain rfl := Except.error.inj failed
      trivial

/-- A stored form that does not open is too short or of another version, or its record does not
open. -/
theorem arises_of_unwrap {password stored : Bytes} {failure : Failure}
    (failed : (wrapper.unwrap password stored).result = .error failure) : failure.Arises := by
  cases read : WrappedKey.ofBytes stored with
  | ok key =>
    rw [unwrap_of_read wrapper read] at failed
    exact wrapper.arises_of_unwrapKey failed
  | error unread =>
    rw [unwrap_of_unread wrapper read] at failed
    obtain rfl : unread = failure := Except.error.inj failed
    obtain rfl | ⟨first, rfl⟩ := WrappedKey.failure_of_ofBytes read
    · trivial
    · trivial

/-- Moving a stored form fails where opening it fails, or where wrapping its payload does, which is
not too long. -/
theorem arises_of_rewrap {oldPassword newPassword stored : Bytes} {supply : Supply}
    {failure : Failure}
    (failed : (wrapper.rewrap oldPassword newPassword stored supply).1.result = .error failure) :
    failure.Arises := by
  cases opened : (wrapper.unwrap oldPassword stored).result with
  | ok payload =>
    rw [wrapper.rewrap_of_opened opened] at failed
    exact wrapper.arises_of_wrap (wrapper.length_le_of_unwrap opened) failed
  | error refused =>
    rw [wrapper.rewrap_of_refused opened] at failed
    obtain rfl : refused = failure := Except.error.inj failed
    exact wrapper.arises_of_unwrap opened

/-- Every failure of a call that brings no payload that is too long is one of those that arise. -/
theorem arises_of_answer {call : Call} (fits : call.Fits) {supply : Supply} {failure : Failure}
    (failed : (wrapper.answer call supply).traced.result = .error failure) : failure.Arises := by
  cases call with
  | wrap password payload => exact wrapper.arises_of_wrap fits (map_eq_error_iff.mp failed)
  | unwrap password stored => exact wrapper.arises_of_unwrap (map_eq_error_iff.mp failed)
  | unwrapKey password key => exact wrapper.arises_of_unwrapKey (map_eq_error_iff.mp failed)
  | rewrap oldPassword newPassword stored =>
    exact wrapper.arises_of_rewrap (map_eq_error_iff.mp failed)
  | verifyPassword password stored =>
    have tried := map_eq_error_iff.mp failed
    rw [result_verifyPassword, verdict_eq_error_iff] at tried
    exact wrapper.arises_of_unwrap tried.1

/-- The refusals of a wrapper, in the order of its checks. Wrapping is refused for want of random
bytes whatever the password is, then for want of a password, then for a payload that is too long for
the cipher, and for nothing else; opening is refused for the length, the version, the password or
the tag, in this order. Trying a password answers by how opening goes and refuses what opening
refuses for another reason than the tag, with the same events; moving a stored form is opening it
and then wrapping its payload. Unless it brings a payload that is too long, no call ends in a failure with
another kind or code: not for a salt, for iterations or for the length of a key, and not in the
cipher. -/
theorem refusals_in_order :
    (∀ password payload supply,
      let result := (wrapper.wrap password payload supply).1.result
      (supply.remaining.length < 28 →
        RefusedAs result .supplyExhausted "RandomGenerationError" 4001) ∧
      (28 ≤ supply.remaining.length → password = [] →
        RefusedAs result .emptyPassword "InvalidParameter" 1004) ∧
      (28 ≤ supply.remaining.length → password ≠ [] → payload.length ≤ Cipher.longest →
        ∃ key, result = .ok key) ∧
      (28 ≤ supply.remaining.length → password ≠ [] → Cipher.longest < payload.length →
        RefusedAs result .sealing "AesError" 5001)) ∧
    (∀ password stored,
      let result := (wrapper.unwrap password stored).result
      (stored.length < 45 →
        RefusedAs result (.recordTooShort stored.length) "MalformedBlob" 2001) ∧
      (45 ≤ stored.length → ∀ first, stored.head? = some first → first ≠ 1 →
        RefusedAs result (.unknownVersion first) "MalformedBlob" 2002) ∧
      (45 ≤ stored.length → stored.head? = some 1 → password = [] →
        RefusedAs result .emptyPassword "InvalidParameter" 1004) ∧
      (45 ≤ stored.length → stored.head? = some 1 → password ≠ [] →
        (∃ payload, result = .ok payload) ∨
          RefusedAs result .authentication "AuthenticationFailed" 3001)) ∧
    (∀ password stored,
      let opened := wrapper.unwrap password stored
      let tried := wrapper.verifyPassword password stored
      (tried.result = .ok true ↔ ∃ payload, opened.result = .ok payload) ∧
      (tried.result = .ok false ↔ opened.result = .error .authentication) ∧
      (∀ failure, tried.result = .error failure ↔
        opened.result = .error failure ∧ failure ≠ .authentication) ∧
      tried.events = opened.events) ∧
    (∀ oldPassword newPassword stored supply,
      let opened := (wrapper.unwrap oldPassword stored).result
      let moved := (wrapper.rewrap oldPassword newPassword stored supply).1.result
      (∀ failure, opened = .error failure → moved = .error failure) ∧
      ∀ payload, opened = .ok payload →
        moved = (wrapper.wrap newPassword payload.bytes supply).1.result) ∧
    ∀ call supply failure, call.Fits →
      (wrapper.answer call supply).traced.result = .error failure →
      (failure.report.kind, failure.report.code) ∈ refusals ∧
        failure.report.code ∉ [1001, 1002, 1003, 5001] := by
  refine ⟨?_, ?_, ?_, ?_, ?_⟩
  · intro password payload supply
    refine ⟨?_, ?_, ?_, ?_⟩
    · intro short
      exact ⟨wrapper.result_wrap_of_short short password payload, rfl, rfl⟩
    · intro enough empty
      exact ⟨(wrapper.result_wrap_of_enough enough password payload).1 empty, rfl, rfl⟩
    · intro enough nonempty fits
      exact (wrapper.result_wrap_of_enough enough password payload).2.1 nonempty fits
    · intro enough nonempty long
      have refused := (wrapper.result_wrap_of_enough enough password payload).2.2 nonempty long
      exact ⟨refused, rfl, rfl⟩
  · intro password stored
    refine ⟨?_, ?_, ?_, ?_⟩
    · intro short
      exact ⟨wrapper.result_unwrap_of_short short password, rfl, rfl⟩
    · intro long first starts unknown
      exact ⟨wrapper.result_unwrap_of_unknown long starts unknown password, rfl, rfl⟩
    · intro long starts empty
      exact ⟨(wrapper.result_unwrap_of_known long starts password).1 empty, rfl, rfl⟩
    · intro long starts nonempty
      obtain opened | refused := (wrapper.result_unwrap_of_known long starts password).2 nonempty
      · exact .inl opened
      · exact .inr ⟨refused, rfl, rfl⟩
  · intro password stored
    exact ⟨verdict_eq_true_iff _, verdict_eq_false_iff _, verdict_eq_error_iff _, rfl⟩
  · intro oldPassword newPassword stored supply
    refine ⟨?_, ?_⟩
    · intro failure refused
      rw [wrapper.rewrap_of_refused refused]
    · intro payload opened
      rw [wrapper.rewrap_of_opened opened]
  · intro call supply failure fits failed
    have listed := (wrapper.arises_of_answer fits failed).mem_refusals
    exact ⟨listed, code_of_mem_refusals _ listed⟩

end Wrapper

end KeyWrapping
