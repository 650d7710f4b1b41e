import KeyWrapping.Json.Value
/-!
# What a reading can still come to

A reading that has begun is bound to what it has read: an item or a member once read stays, and an
open bracket becomes an array or an object of the whole. `Closes` says this of the stack of open
brackets, each of which hands the value that it becomes to the bracket outside it, and
`Reading.Reaches` of a reading. One token takes no reading to a value that it could not have come to
(`reaches_of_step`), so whatever a reading of any tokens gives, the reading could come to it
(`reaches_of_readValue`).
-/

namespace KeyWrapping.Json

/-- A value that is put into the innermost of some open brackets can end up in a whole: each bracket
keeps what is in it, takes in more, and is put into the next. -/
def Closes : List Frame → Value → Value → Prop
  | [], inside, whole => whole = inside
  | .array items :: outer, inside, whole =>
    ∃ more, Closes outer (.array ((inside :: items).reverse ++ more)) whole
  | .member members key :: outer, inside, whole =>
    ∃ more, Closes outer (.object (((key, inside) :: members).reverse ++ more)) whole

/-- A reading can come to a value. -/
def Reading.Reaches : Reading → Value → Prop
  | .value outer, whole => ∃ inside, Closes outer inside whole
  | .itemOrClose outer, whole => ∃ items, Closes outer (.array items) whole
  | .afterItem items outer, whole => ∃ more, Closes outer (.array (items.reverse ++ more)) whole
  | .keyOrClose outer, whole => ∃ members, Closes outer (.object members) whole
  | .key members outer, whole => ∃ more, Closes outer (.object (members.reverse ++ more)) whole
  | .colon members name outer, whole =>
    ∃ inside, Closes (.member members name :: outer) inside whole
  | .afterMember members outer, whole =>
    ∃ more, Closes outer (.object (members.reverse ++ more)) whole

/-- What a token makes of a reading can come to a value. -/
def Progress.Reaches : Progress → Value → Prop
  | .more reading, whole => reading.Reaches whole
  | .done value, whole => whole = value

/-- A value that is kept can begin with a token. -/
def Token.Begins : Token → Value → Prop
  | .openArray, value => ∃ items, value = .array items
  | .openObject, value => ∃ members, value = .object members
  | .null, value => value = .null
  | .bool found, value => value = .bool found
  | .number form, value => value = .number form ∧ form.numeral ≠ .tooLarge
  | .text (some chars), value => value = .text chars
  | .text none, _ | .unreadable .., _ | .closeArray, _ | .closeObject, _ | .comma, _ | .colon, _ =>
    False

/-- A complete value can end up only where its brackets put it. -/
theorem closes_of_complete {inside whole : Value} {outer : List Frame}
    (reaches : (complete inside outer).Reaches whole) : Closes outer inside whole := by
  cases outer with
  | nil => exact reaches
  | cons frame outer =>
    cases frame with
    | array items => exact reaches
    | member members key => exact reaches

/-- A value that is begun ends up as a value that begins with the token. -/
theorem begins_of_startValue {outer : List Frame} {token : Token} {progress : Progress}
    {whole : Value} (started : startValue .full outer token = .ok progress)
    (reaches : progress.Reaches whole) :
    ∃ inside, token.Begins inside ∧ Closes outer inside whole := by
  cases token with
  | openArray =>
    simp only [startValue] at started
    split at started
    · obtain rfl := Except.ok.inj started
      obtain ⟨items, closes⟩ := reaches
      exact ⟨.array items, ⟨items, rfl⟩, closes⟩
    · contradiction
  | openObject =>
    simp only [startValue] at started
    split at started
    · obtain rfl := Except.ok.inj started
      obtain ⟨members, closes⟩ := reaches
      exact ⟨.object members, ⟨members, rfl⟩, closes⟩
    · contradiction
  | null =>
    obtain rfl := Except.ok.inj started
    exact ⟨.null, rfl, closes_of_complete reaches⟩
  | bool found =>
    obtain rfl := Except.ok.inj started
    exact ⟨.bool found, rfl, closes_of_complete reaches⟩
  | number form =>
    simp only [startValue, Scrutiny.number] at started
    split at started
    · contradiction
    · next fits =>
      obtain rfl := Except.ok.inj started
      exact ⟨.number form, ⟨rfl, fits⟩, closes_of_complete reaches⟩
  | text found =>
    cases found with
    | none => contradiction
    | some chars =>
      obtain rfl := Except.ok.inj started
      exact ⟨.text chars, rfl, closes_of_complete reaches⟩
  | closeArray | closeObject | comma | colon | unreadable _ _ _ => contradiction

/-- A member that is begun has a key, and its value ends up behind the members before it. -/
theorem colon_of_startMember {members : List (List Char × Value)} {outer : List Frame}
    {token : Token} {progress : Progress}
    (started : startMember .full members outer token = .ok progress) :
    ∃ key, token = .text (some key) ∧ progress = .more (.colon members key outer) := by
  cases token with
  | text found =>
    cases found with
    | none => contradiction
    | some key => exact ⟨key, rfl, (Except.ok.inj started).symm⟩
  | unreadable quoted kept passed => cases quoted <;> contradiction
  | openArray | closeArray | openObject | closeObject | comma | colon | null | bool _ | number _ =>
    contradiction

/-- A member that is begun leaves the members before it in front. -/
theorem reaches_of_startMember {members : List (List Char × Value)} {outer : List Frame}
    {token : Token} {progress : Progress} {whole : Value}
    (started : startMember .full members outer token = .ok progress)
    (reaches : progress.Reaches whole) :
    ∃ more, Closes outer (.object (members.reverse ++ more)) whole := by
  obtain ⟨key, _, rfl⟩ := colon_of_startMember started
  obtain ⟨inside, more, closes⟩ := reaches
  refine ⟨(key, inside) :: more, ?_⟩
  rw [List.reverse_cons, List.append_assoc] at closes
  exact closes

/-- One token takes a reading only to values that it could have come to before. -/
theorem reaches_of_step {reading : Reading} {token : Token} {progress : Progress} {whole : Value}
    (stepped : step .full reading token = .ok progress) (reaches : progress.Reaches whole) :
    reading.Reaches whole := by
  cases reading with
  | value outer =>
    obtain ⟨inside, _, closes⟩ := begins_of_startValue stepped reaches
    exact ⟨inside, closes⟩
  | itemOrClose outer =>
    have further (started : startValue .full (.array [] :: outer) token = .ok progress) :
        (Reading.itemOrClose outer).Reaches whole := by
      obtain ⟨inside, _, more, closes⟩ := begins_of_startValue started reaches
      exact ⟨_, closes⟩
    cases token with
    | closeArray =>
      obtain rfl := Except.ok.inj stepped
      exact ⟨[], closes_of_complete reaches⟩
    | openArray | openObject | closeObject | comma | colon | null | bool _ | number _ | text _
    | unreadable _ _ _ => exact further stepped
  | afterItem items outer =>
    cases token with
    | comma =>
      obtain rfl := Except.ok.inj stepped
      obtain ⟨inside, more, closes⟩ := reaches
      refine ⟨inside :: more, ?_⟩
      rw [List.reverse_cons, List.append_assoc] at closes
      exact closes
    | closeArray =>
      obtain rfl := Except.ok.inj stepped
      refine ⟨[], ?_⟩
      rw [List.append_nil]
      exact closes_of_complete reaches
    | openArray | openObject | closeObject | colon | null | bool _ | number _ | text _
    | unreadable _ _ _ => contradiction
  | keyOrClose outer =>
    have further (started : startMember .full [] outer token = .ok progress) :
        (Reading.keyOrClose outer).Reaches whole := by
      obtain ⟨more, closes⟩ := reaches_of_startMember started reaches
      exact ⟨_, closes⟩
    cases token with
    | closeObject =>
      obtain rfl := Except.ok.inj stepped
      exact ⟨[], closes_of_complete reaches⟩
    | openArray | closeArray | openObject | comma | colon | null | bool _ | number _ | text _
    | unreadable _ _ _ => exact further stepped
  | key members outer => exact reaches_of_startMember stepped reaches
  | colon members key outer =>
    cases token with
    | colon =>
      obtain rfl := Except.ok.inj stepped
      exact reaches
    | openArray | closeArray | openObject | closeObject | comma | null | bool _ | number _ | text _
    | unreadable _ _ _ => contradiction
  | afterMember members outer =>
    cases token with
    | comma =>
      obtain rfl := Except.ok.inj stepped
      exact reaches
    | closeObject =>
      obtain rfl := Except.ok.inj stepped
      refine ⟨[], ?_⟩
      rw [List.append_nil]
      exact closes_of_complete reaches
    | openArray | closeArray | openObject | colon | null | bool _ | number _ | text _
    | unreadable _ _ _ => contradiction

/-- Go on with what a token made of a reading. -/
def resume (scrutiny : Scrutiny) : Progress → List Token → Except Fault (Value × List Token)
  | .more reading, tokens => readValue scrutiny reading tokens
  | .done value, tokens => .ok (value, tokens)

/-- A reading takes one token and goes on. -/
theorem readValue_cons (scrutiny : Scrutiny) (reading : Reading) (token : Token)
    (rest : List Token) :
    readValue scrutiny reading (token :: rest) =
      (step scrutiny reading token).bind (resume scrutiny · rest) := by
  rw [readValue]
  split
  · next fault refused => rw [refused]; rfl
  · next value done => rw [done]; rfl
  · next next more => rw [more]; rfl

/-- Whatever a reading gives, it could come to it from the start. -/
theorem reaches_of_readValue {reading : Reading} {tokens rest : List Token} {whole : Value}
    (read : readValue .full reading tokens = .ok (whole, rest)) : reading.Reaches whole := by
  induction tokens generalizing reading with
  | nil => contradiction
  | cons token tokens ih =>
    rw [readValue_cons] at read
    cases stepped : step .full reading token with
    | error fault =>
      rw [stepped] at read
      contradiction
    | ok progress =>
      rw [stepped] at read
      apply reaches_of_step stepped
      cases progress with
      | more next => exact ih read
      | done value =>
        obtain ⟨rfl, _⟩ := Prod.mk.inj (Except.ok.inj read)
        rfl

/-- Whatever comes of what a token made of a reading, it could come to it. -/
theorem reaches_of_resume {progress : Progress} {tokens rest : List Token} {whole : Value}
    (resumed : resume .full progress tokens = .ok (whole, rest)) : progress.Reaches whole := by
  cases progress with
  | more reading => exact reaches_of_readValue resumed
  | done value =>
    obtain ⟨rfl, _⟩ := Prod.mk.inj (Except.ok.inj resumed)
    rfl

end KeyWrapping.Json
