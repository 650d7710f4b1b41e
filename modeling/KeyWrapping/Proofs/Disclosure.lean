import KeyWrapping.Proofs.Refusals
/-!
# What answers and events disclose

An outsider sees the lines of the log, what is told about failures, the lengths of records and
payloads, the verdicts, and how many random bytes are left (`Reply.sight`). Two calls are comparable
when their arguments have the same lengths, their stored forms start alike, and the cipher, where
both calls come to it, accepts both records or refuses both. One call then looks like the other
(`answer_sight_eq`), and by induction on the calls one run looks like the other: everything that is
seen depends on lengths and on that one bit.
-/

namespace KeyWrapping

/-- All that is told about a failure; the details are those of a report made at any time. -/
structure Told where
  /-- The kind of the report. -/
  kind : String
  /-- The message for the log. -/
  message : String
  /-- The numeric code. -/
  code : UInt32
  /-- The message for the user. -/
  userMessage : String
  /-- The advice. -/
  remediation : Option String
  /-- Whether trying again can help. -/
  retryable : Bool
  /-- The details, by the time of the report. -/
  details : (time : String) → List (String × String)

/-- What is told about a failure of this library. -/
def Failure.told (failure : Failure) : Told where
  kind := failure.report.kind
  message := failure.report.message
  code := failure.report.code
  userMessage := failure.report.userMessage
  remediation := failure.report.remediation
  retryable := failure.report.retryable
  details time := failure.report.details time

/-- An answer from outside. -/
inductive Outside where
  /-- A record of some length. -/
  | record (size : Nat)
  /-- A payload of some length. -/
  | payload (size : Nat)
  /-- A verdict, as it is. -/
  | verdict (right : Bool)

/-- The outside of an answer. -/
def Answer.outside : Answer → Outside
  | wrapped key => .record key.size
  | payload secret => .payload secret.size
  | verdict right => .verdict right

/-- What an outsider sees of a reply. -/
structure Sight where
  /-- The level and the text of each line of the log. -/
  lines : List (String × String)
  /-- The outside of the answer, or what is told about there being none. -/
  outcome : Except Told Outside
  /-- The count of random bytes left. -/
  left : Nat

/-- The sight of a reply. -/
def Reply.sight (reply : Reply) : Sight where
  lines := reply.traced.events.map fun event => (event.level.name, event.message)
  outcome := (reply.traced.result.map Answer.outside).mapError Failure.told
  left := reply.left.remaining.length

/-- Two traced results with the same events, and with the same failure or values of one measure. -/
structure Traced.Alike {α β : Type} (measure : α → β) (first second : Traced α) : Prop where
  /-- The events are the same. -/
  events : first.events = second.events
  /-- The results are the same as far as they are measured. -/
  results : first.result.map measure = second.result.map measure

/-- Replies look alike when their traced results are alike in what is seen of the values. -/
theorem Traced.Alike.sight_eq {α β : Type} {measure : α → β} {first second : Traced α}
    (alike : Alike measure first second) {wrap : α → Answer} (face : β → Outside)
    (seen : ∀ value, (wrap value).outside = face (measure value)) {left left' : Supply}
    (counts : left.remaining.length = left'.remaining.length) :
    Reply.sight ⟨first.mapResult (·.map wrap), left⟩ =
      Reply.sight ⟨second.mapResult (·.map wrap), left'⟩ := by
  have outsides (result : Except Failure α) :
      (result.map wrap).map Answer.outside = (result.map measure).map face := by
    cases result with
    | error failure => rfl
    | ok value => exact congrArg Except.ok (seen value)
  simp only [Reply.sight, mapResult, outsides, alike.events, alike.results, counts]

/-- Alike results are the same failure, or two values of the same measure. -/
theorem Traced.Alike.cases {α β : Type} {measure : α → β} {first second : Traced α}
    (alike : Alike measure first second) :
    (∃ failure, first.result = .error failure ∧ second.result = .error failure) ∨
      ∃ value value', first.result = .ok value ∧ second.result = .ok value' ∧
        measure value = measure value' := by
  have results := alike.results
  cases found : first.result with
  | error failure =>
    rw [found] at results
    exact .inl ⟨failure, rfl, map_eq_error_iff.mp results.symm⟩
  | ok value =>
    cases found' : second.result with
    | error failure =>
      rw [found, found'] at results
      contradiction
    | ok value' =>
      rw [found, found'] at results
      exact .inr ⟨value, value', rfl, rfl, Except.ok.inj results⟩

/-- Two strings of one length that start alike are refused for the same reason, or both read. -/
theorem WrappedKey.ofBytes_alike {bytes bytes' : Bytes} (lengths : bytes.length = bytes'.length)
    (starts : bytes.head? = bytes'.head?) :
    (∃ failure, ofBytes bytes = .error failure ∧ ofBytes bytes' = .error failure) ∨
      ∃ key key', ofBytes bytes = .ok key ∧ ofBytes bytes' = .ok key' ∧ key.size = key'.size := by
  by_cases long : leastSize ≤ bytes.length
  · have long' : leastSize ≤ bytes'.length := lengths ▸ long
    cases found : bytes.head? with
    | none =>
      obtain rfl := List.head?_eq_none_iff.mp found
      contradiction
    | some first =>
      have found' : bytes'.head? = some first := starts ▸ found
      by_cases known : first = version
      · obtain ⟨key, read, size⟩ := exists_ofBytes long (known ▸ found)
        obtain ⟨key', read', size'⟩ := exists_ofBytes long' (known ▸ found')
        exact .inr ⟨key, key', read, read', by rw [size, size', lengths]⟩
      · exact .inl ⟨_, ofBytes_of_unknown long found known, ofBytes_of_unknown long' found' known⟩
  · refine .inl ⟨_, ofBytes_of_short (Nat.not_le.mp long), ?_⟩
    rw [lengths]
    exact ofBytes_of_short (Nat.not_le.mp (lengths ▸ long))

/-- Two calls of one kind that cannot be told apart by the lengths of their arguments or by the
first bytes of their stored forms; of a password it only counts whether there is one. -/
inductive Call.Alike : Call → Call → Prop where
  /-- Payloads of one length. -/
  | wrap {password password' payload payload' : Bytes} (passwords : password = [] ↔ password' = [])
    (payloads : payload.length = payload'.length) :
    Alike (.wrap password payload) (.wrap password' payload')
  /-- Stored forms of one length that start alike. -/
  | unwrap {password password' stored stored' : Bytes}
    (passwords : password = [] ↔ password' = []) (lengths : stored.length = stored'.length)
    (starts : stored.head? = stored'.head?) :
    Alike (.unwrap password stored) (.unwrap password' stored')
  /-- Records of one length. -/
  | unwrapKey {password password' : Bytes} {key key' : WrappedKey}
    (passwords : password = [] ↔ password' = []) (sizes : key.size = key'.size) :
    Alike (.unwrapKey password key) (.unwrapKey password' key')
  /-- Stored forms of one length that start alike. -/
  | rewrap {oldPassword oldPassword' newPassword newPassword' stored stored' : Bytes}
    (oldPasswords : oldPassword = [] ↔ oldPassword' = [])
    (newPasswords : newPassword = [] ↔ newPassword' = [])
    (lengths : stored.length = stored'.length) (starts : stored.head? = stored'.head?) :
    Alike (.rewrap oldPassword newPassword stored) (.rewrap oldPassword' newPassword' stored')
  /-- Stored forms of one length that start alike. -/
  | verifyPassword {password password' stored stored' : Bytes}
    (passwords : password = [] ↔ password' = []) (lengths : stored.length = stored'.length)
    (starts : stored.head? = stored'.head?) :
    Alike (.verifyPassword password stored) (.verifyPassword password' stored')

namespace Wrapper

variable (wrapper : Wrapper)

/-- Whether the cipher under a password accepts a record, if there is a cipher. -/
def accepts? (password : Bytes) (key : WrappedKey) : Option Bool :=
  match (wrapper.cipher password key.salt).result with
  | .ok cipher => some (cipher.openText key.nonce key.header key.text).isOk
  | .error _ => none

/-- Whether the cipher accepts what a call brings to it, if it brings anything. -/
def decrypts? : Call → Option Bool
  | .wrap _ _ => none
  | .unwrapKey password key => wrapper.accepts? password key
  | .unwrap password stored | .rewrap password _ stored | .verifyPassword password stored =>
    match WrappedKey.ofBytes stored with
    | .ok key => wrapper.accepts? password key
    | .error _ => none

/-- Two calls on two wrappers look alike, and the cipher, where it comes to it in both, accepts both
times or refuses both times. -/
structure Comparable (other : Wrapper) (call call' : Call) : Prop where
  /-- The calls look alike. -/
  alike : call.Alike call'
  /-- The cipher answers alike. -/
  accepted : ∀ accepts accepts', wrapper.decrypts? call = some accepts →
    other.decrypts? call' = some accepts' → accepts = accepts'

/-- The cipher accepts a recognized record. -/
theorem accepts?_of_recognized {password : Bytes} (nonempty : password ≠ []) {key : WrappedKey}
    (recognized : wrapper.Recognizes password key) : wrapper.accepts? password key = some true := by
  rw [accepts?, cipher_of_password wrapper nonempty]
  simp only [openText_of_recognized wrapper recognized]
  rfl

/-- The cipher refuses a record that is not recognized. -/
theorem accepts?_of_unrecognized {password : Bytes} (nonempty : password ≠ []) {key : WrappedKey}
    (unrecognized : ¬wrapper.Recognizes password key) :
    wrapper.accepts? password key = some false := by
  rw [accepts?, cipher_of_password wrapper nonempty]
  simp only [openText_of_unrecognized wrapper unrecognized]
  rfl

variable {wrapper} {other : Wrapper}

/-- Wrappers with the same parameters note the same derivation. -/
theorem derived_congr (equal : other.params = wrapper.params) : other.derived = wrapper.derived := by
  rw [derived, derived, equal]

/-- Wrappers with the same parameters note the same sealing. -/
theorem sealedEvent_congr (equal : other.params = wrapper.params) :
    other.sealedEvent = wrapper.sealedEvent := by
  funext count
  rw [sealedEvent, sealedEvent, equal]

/-- Opening two records of one length looks alike when the cipher answers alike. -/
theorem unwrapKey_alike (equal : other.params = wrapper.params) {password password' : Bytes}
    {key key' : WrappedKey} (passwords : password = [] ↔ password' = [])
    (sizes : key.size = key'.size)
    (accepted : ∀ accepts accepts', wrapper.accepts? password key = some accepts →
      other.accepts? password' key' = some accepts' → accepts = accepts') :
    Traced.Alike Secret.size (wrapper.unwrapKey password key)
      (other.unwrapKey password' key') := by
  have payloads : key.payloadSize = key'.payloadSize := by
    rw [key.size_eq, key'.size_eq] at sizes
    omega
  by_cases empty : password = []
  · rw [passwords.mp empty, empty, unwrapKey_of_empty, unwrapKey_of_empty]
    exact ⟨rfl, rfl⟩
  have nonempty' : password' ≠ [] := mt passwords.mpr empty
  by_cases recognized : wrapper.Recognizes password key
  · have recognized' : other.Recognizes password' key' := by
      by_contra unrecognized'
      have differ := accepted true false (wrapper.accepts?_of_recognized empty recognized)
        (other.accepts?_of_unrecognized nonempty' unrecognized')
      contradiction
    rw [unwrapKey_of_recognized wrapper empty recognized,
      unwrapKey_of_recognized other nonempty' recognized', derived_congr equal, payloads]
    refine ⟨rfl, ?_⟩
    have measured : key.ciphertext.length = key'.ciphertext.length := payloads
    simp only [Except.map, Secret.size, Gcm.length_mask, measured]
  · have unrecognized' : ¬other.Recognizes password' key' := by
      intro recognized'
      have differ := accepted false true (wrapper.accepts?_of_unrecognized empty recognized)
        (other.accepts?_of_recognized nonempty' recognized')
      contradiction
    rw [unwrapKey_of_unrecognized wrapper empty recognized,
      unwrapKey_of_unrecognized other nonempty' unrecognized', derived_congr equal, sizes]
    exact ⟨rfl, rfl⟩

/-- Opening two stored forms of one length that start alike looks alike when the cipher answers
alike. -/
theorem unwrap_alike (equal : other.params = wrapper.params) {password password' : Bytes}
    {stored stored' : Bytes} (passwords : password = [] ↔ password' = [])
    (lengths : stored.length = stored'.length) (starts : stored.head? = stored'.head?)
    (accepted : ∀ accepts accepts', wrapper.decrypts? (.unwrap password stored) = some accepts →
      other.decrypts? (.unwrap password' stored') = some accepts' → accepts = accepts') :
    Traced.Alike Secret.size (wrapper.unwrap password stored) (other.unwrap password' stored') := by
  obtain ⟨failure, unread, unread'⟩ | ⟨key, key', read, read', sizes⟩ :=
    WrappedKey.ofBytes_alike lengths starts
  · rw [unwrap_of_unread wrapper unread, unwrap_of_unread other unread']
    exact ⟨rfl, rfl⟩
  · simp only [decrypts?, read, read'] at accepted
    rw [unwrap_of_read wrapper read, unwrap_of_read other read']
    exact unwrapKey_alike equal passwords sizes accepted

/-- A record is as long as its payload and what every record has. -/
theorem size_record (password payload : Bytes) (salt : Octets 16) (nonce : Octets 12) :
    (wrapper.record password payload salt nonce).size = WrappedKey.leastSize + payload.length := by
  rw [WrappedKey.size_eq, payloadSize_record]

/-- Wrapping two payloads of one length over supplies of one length looks alike. -/
theorem wrap_alike (equal : other.params = wrapper.params) {password password' : Bytes}
    {payload payload' : Bytes} {supply supply' : Supply} (passwords : password = [] ↔ password' = [])
    (payloads : payload.length = payload'.length)
    (supplies : supply.remaining.length = supply'.remaining.length) :
    Traced.Alike WrappedKey.size (wrapper.wrap password payload supply).1
        (other.wrap password' payload' supply').1 ∧
      (wrapper.wrap password payload supply).2.remaining.length =
        (other.wrap password' payload' supply').2.remaining.length := by
  refine ⟨?_, by simp only [wrap_left, List.length_drop, supplies]⟩
  by_cases enough : 28 ≤ supply.remaining.length
  · obtain ⟨salt, nonce, drawn⟩ := Supply.exists_drawn enough
    obtain ⟨salt', nonce', drawn'⟩ := Supply.exists_drawn (supplies ▸ enough)
    rw [wrapper.wrap_of_drawn drawn, other.wrap_of_drawn drawn']
    by_cases empty : password = []
    · rw [passwords.mp empty, empty, sealWith_of_empty, sealWith_of_empty]
      exact ⟨rfl, rfl⟩
    have nonempty' : password' ≠ [] := mt passwords.mpr empty
    by_cases fits : payload.length ≤ Cipher.longest
    · rw [sealWith_of_password wrapper empty fits,
        sealWith_of_password other nonempty' (payloads ▸ fits), derived_congr equal,
        sealedEvent_congr equal, payloads]
      refine ⟨rfl, ?_⟩
      simp only [Except.map, size_record, payloads]
    · have long : Cipher.longest < payload.length := Nat.not_le.mp fits
      rw [sealWith_of_overlong wrapper empty long,
        sealWith_of_overlong other nonempty' (payloads ▸ long), derived_congr equal]
      exact ⟨rfl, rfl⟩
  · rw [wrapper.wrap_of_short (Nat.not_le.mp enough),
      other.wrap_of_short (Nat.not_le.mp (supplies ▸ enough))]
    exact ⟨rfl, rfl⟩

/-- Trying a password looks alike where opening does. -/
theorem verifyPassword_alike {password password' stored stored' : Bytes}
    (opening : Traced.Alike Secret.size (wrapper.unwrap password stored)
      (other.unwrap password' stored')) :
    Traced.Alike id (wrapper.verifyPassword password stored)
      (other.verifyPassword password' stored') := by
  refine ⟨opening.events, ?_⟩
  rw [result_verifyPassword, result_verifyPassword]
  obtain ⟨failure, refused, refused'⟩ | ⟨payload, payload', opened, opened', _⟩ := opening.cases
  · rw [refused, refused']
  · rw [opened, opened']
    rfl

/-- Moving two stored forms looks alike where opening them does. -/
theorem rewrap_alike (equal : other.params = wrapper.params)
    {oldPassword oldPassword' newPassword newPassword' stored stored' : Bytes}
    {supply supply' : Supply}
    (opening : Traced.Alike Secret.size (wrapper.unwrap oldPassword stored)
      (other.unwrap oldPassword' stored'))
    (newPasswords : newPassword = [] ↔ newPassword' = [])
    (supplies : supply.remaining.length = supply'.remaining.length) :
    Traced.Alike WrappedKey.size (wrapper.rewrap oldPassword newPassword stored supply).1
        (other.rewrap oldPassword' newPassword' stored' supply').1 ∧
      (wrapper.rewrap oldPassword newPassword stored supply).2.remaining.length =
        (other.rewrap oldPassword' newPassword' stored' supply').2.remaining.length := by
  obtain ⟨failure, refused, refused'⟩ | ⟨payload, payload', opened, opened', sizes⟩ := opening.cases
  · rw [wrapper.rewrap_of_refused refused, other.rewrap_of_refused refused', opening.events]
    exact ⟨⟨rfl, rfl⟩, supplies⟩
  · rw [wrapper.rewrap_of_opened opened, other.rewrap_of_opened opened', opening.events]
    obtain ⟨wrapping, left⟩ := wrap_alike equal newPasswords sizes supplies
    exact ⟨⟨by rw [wrapping.events], wrapping.results⟩, left⟩

/-- Comparable calls over supplies of one length look alike. -/
theorem answer_sight_eq (equal : other.params = wrapper.params) {call call' : Call}
    {supply supply' : Supply} (comparable : wrapper.Comparable other call call')
    (supplies : supply.remaining.length = supply'.remaining.length) :
    (wrapper.answer call supply).sight = (other.answer call' supply').sight := by
  obtain ⟨alike, accepted⟩ := comparable
  cases alike with
  | wrap passwords payloads =>
    obtain ⟨wrapping, left⟩ := wrap_alike equal passwords payloads supplies
    exact wrapping.sight_eq .record (fun _ => rfl) left
  | unwrap passwords lengths starts =>
    exact (unwrap_alike equal passwords lengths starts accepted).sight_eq .payload
      (fun _ => rfl) supplies
  | unwrapKey passwords sizes =>
    exact (unwrapKey_alike equal passwords sizes accepted).sight_eq .payload
      (fun _ => rfl) supplies
  | rewrap oldPasswords newPasswords lengths starts =>
    have opening := unwrap_alike equal oldPasswords lengths starts accepted
    obtain ⟨moving, left⟩ := rewrap_alike equal opening newPasswords supplies
    exact moving.sight_eq .record (fun _ => rfl) left
  | verifyPassword passwords lengths starts =>
    have opening := unwrap_alike equal passwords lengths starts accepted
    exact (verifyPassword_alike opening).sight_eq .verdict (fun _ => rfl) supplies

/-- Runs of comparable calls over supplies of one length look alike from the first call to the
last. -/
theorem session_sight_eq (equal : other.params = wrapper.params) {calls calls' : List Call}
    {supply supply' : Supply} (comparable : List.Forall₂ (wrapper.Comparable other) calls calls')
    (supplies : supply.remaining.length = supply'.remaining.length) :
    (wrapper.session calls supply).map Reply.sight =
      (other.session calls' supply').map Reply.sight := by
  induction comparable generalizing supply supply' with
  | nil => rfl
  | cons first _ ih =>
    have same := answer_sight_eq equal first supplies
    have left := congrArg Sight.left same
    simp only [session, List.map_cons, same, ih left]

/-- A refused tag is noted with the length of the stored form, and with nothing else of it. -/
theorem unwrap_of_refused {password stored : Bytes}
    (refused : (wrapper.unwrap password stored).result = .error .authentication) :
    wrapper.unwrap password stored =
      ⟨.error .authentication, [wrapper.derived, .rejected stored.length]⟩ := by
  cases read : WrappedKey.ofBytes stored with
  | error failure =>
    rw [unwrap_of_unread wrapper read] at refused
    obtain rfl : failure = .authentication := Except.error.inj refused
    obtain short | ⟨first, unknown⟩ := WrappedKey.failure_of_ofBytes read
    · contradiction
    · contradiction
  | ok key =>
    obtain rfl := WrappedKey.toBytes_of_ofBytes read
    rw [unwrap_of_read wrapper read] at refused ⊢
    by_cases empty : password = []
    · rw [empty, unwrapKey_of_empty] at refused
      cases Except.error.inj refused
    by_cases recognized : wrapper.Recognizes password key
    · rw [unwrapKey_of_recognized wrapper empty recognized] at refused
      contradiction
    · rw [unwrapKey_of_unrecognized wrapper empty recognized]
      rfl

/-- Two refusals of a tag look alike in every use of stored forms of one length, whatever the
reasons are. -/
theorem refused_sight_eq (equal : other.params = wrapper.params)
    {password password' stored stored' : Bytes} (lengths : stored.length = stored'.length)
    (refused : (wrapper.unwrap password stored).result = .error .authentication)
    (refused' : (other.unwrap password' stored').result = .error .authentication)
    {supply supply' : Supply} (supplies : supply.remaining.length = supply'.remaining.length) :
    (wrapper.answer (.unwrap password stored) supply).sight =
        (other.answer (.unwrap password' stored') supply').sight ∧
      (wrapper.answer (.verifyPassword password stored) supply).sight =
        (other.answer (.verifyPassword password' stored') supply').sight ∧
      ∀ next next', (wrapper.answer (.rewrap password next stored) supply).sight =
        (other.answer (.rewrap password' next' stored') supply').sight := by
  have opening : Traced.Alike Secret.size (wrapper.unwrap password stored)
      (other.unwrap password' stored') := by
    rw [unwrap_of_refused refused, unwrap_of_refused refused', derived_congr equal, lengths]
    exact ⟨rfl, rfl⟩
  refine ⟨opening.sight_eq .payload (fun _ => rfl) supplies,
    (verifyPassword_alike opening).sight_eq .verdict (fun _ => rfl) supplies, ?_⟩
  intro next next'
  have first := wrapper.rewrap_of_refused refused next supply
  have second := other.rewrap_of_refused refused' next' supply'
  have moving : Traced.Alike WrappedKey.size (wrapper.rewrap password next stored supply).1
      (other.rewrap password' next' stored' supply').1 := by
    rw [first, second, opening.events]
    exact ⟨rfl, rfl⟩
  have left : (wrapper.rewrap password next stored supply).2.remaining.length =
      (other.rewrap password' next' stored' supply').2.remaining.length := by
    rw [first, second]
    exact supplies
  exact moving.sight_eq .record (fun _ => rfl) left

variable (wrapper) (other)

/-- Answers and events disclose lengths and the answers of the cipher, and nothing else. Two runs
of comparable calls, over supplies of one length and on wrappers with the same parameters, look the
same from the first call to the last: the same lines in the log, the same told about failures, the
same verdicts, records and payloads of the same lengths, as many random bytes left. Two refusals of
a tag look the same whether the password was wrong or the stored form was altered, whatever is
asked, as long as the stored forms have one length. -/
theorem runs_look_alike (equal : other.params = wrapper.params) {calls calls' : List Call}
    {supply supply' : Supply} (comparable : List.Forall₂ (wrapper.Comparable other) calls calls')
    (supplies : supply.remaining.length = supply'.remaining.length) :
    (wrapper.session calls supply).map Reply.sight =
        (other.session calls' supply').map Reply.sight ∧
      ∀ password password' stored stored', stored.length = stored'.length →
        (wrapper.unwrap password stored).result = .error .authentication →
        (other.unwrap password' stored').result = .error .authentication →
        (wrapper.answer (.unwrap password stored) supply).sight =
            (other.answer (.unwrap password' stored') supply').sight ∧
          (wrapper.answer (.verifyPassword password stored) supply).sight =
            (other.answer (.verifyPassword password' stored') supply').sight ∧
          ∀ next next', (wrapper.answer (.rewrap password next stored) supply).sight =
            (other.answer (.rewrap password' next' stored') supply').sight := by
  refine ⟨session_sight_eq equal comparable supplies, ?_⟩
  intro password password' stored stored' lengths refused refused'
  exact refused_sight_eq equal lengths refused refused' supplies

/-- Wrapping a payload, opening a record and reading a string of one byte look the same with
another password, payload and supply, on a wrapper with another floor. -/
theorem other_contents_look_alike :
    let raised : Wrapper := ⟨.moderate, ⟨200000, by decide⟩, by decide⟩
    let zeros : Supply := ⟨List.replicate 28 0⟩
    let ones : Supply := ⟨List.replicate 28 1⟩
    raised.params = standard.params ∧ zeros.remaining.length = ones.remaining.length ∧
      ∃ key key', (standard.wrap [0x61] [0x64] zeros).1.result = .ok key ∧
        (raised.wrap [0x62, 0x63] [0x65] ones).1.result = .ok key' ∧
        let calls := [.wrap [0x61] [0x64], .unwrap [0x61] key.toBytes, .unwrap [0x61] [7]]
        let calls' := [.wrap [0x62, 0x63] [0x65], .unwrap [0x62, 0x63] key'.toBytes,
          .unwrap [0x62, 0x63] [7]]
        List.Forall₂ (standard.Comparable raised) calls calls' ∧
          (standard.session calls zeros).map Reply.sight =
            (raised.session calls' ones).map Reply.sight := by
  intro raised zeros ones
  have given : ([0x61] : Bytes) ≠ [] := by decide
  have given' : ([0x62, 0x63] : Bytes) ≠ [] := by decide
  have passwords : ([0x61] : Bytes) = [] ↔ ([0x62, 0x63] : Bytes) = [] := by decide
  obtain ⟨key, wrapped, recognized, _, size⟩ :=
    standard.exists_wrapped given (show ([0x64] : Bytes).length ≤ Cipher.longest by decide)
      (show 28 ≤ zeros.remaining.length by decide)
  obtain ⟨key', wrapped', recognized', _, size'⟩ :=
    raised.exists_wrapped given' (show ([0x65] : Bytes).length ≤ Cipher.longest by decide)
      (show 28 ≤ ones.remaining.length by decide)
  have supplies : zeros.remaining.length = ones.remaining.length := by decide
  refine ⟨rfl, supplies, key, key', wrapped, wrapped', ?_⟩
  intro calls calls'
  have first : standard.Comparable raised (.wrap [0x61] [0x64]) (.wrap [0x62, 0x63] [0x65]) :=
    ⟨.wrap passwords rfl, fun _ _ none _ => nomatch none⟩
  have second : standard.Comparable raised (.unwrap [0x61] key.toBytes)
      (.unwrap [0x62, 0x63] key'.toBytes) := by
    refine ⟨.unwrap passwords ?_ rfl, ?_⟩
    · have sizes : key.size = key'.size := by rw [key.size_eq, key'.size_eq, size, size']; rfl
      exact sizes
    · intro accepts accepts' found found'
      simp only [decrypts?, WrappedKey.ofBytes_toBytes, Option.some.injEq,
        standard.accepts?_of_recognized given recognized,
        raised.accepts?_of_recognized given' recognized'] at found found'
      rw [← found, ← found']
  have third : standard.Comparable raised (.unwrap [0x61] [7]) (.unwrap [0x62, 0x63] [7]) :=
    ⟨.unwrap passwords rfl rfl, fun _ _ none _ => nomatch none⟩
  have comparable : List.Forall₂ (standard.Comparable raised) calls calls' :=
    .cons first (.cons second (.cons third .nil))
  exact ⟨comparable, (runs_look_alike standard raised rfl comparable supplies).1⟩

end Wrapper

end KeyWrapping
