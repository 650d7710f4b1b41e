import KeyWrapping.Proofs.Collecting
import KeyWrapping.Proofs.Json.Outcomes
import KeyWrapping.Proofs.Json.Scrutiny
/-!
# Two ways of loading parameters

Stored parameters can be read from a stream of tokens or from a value that is read first. Both
readers take the same tokens, so they are compared token by token: `Tracks` relates a state of the
stream to the reading of the value beside it, and one token either takes both on, or is refused by
both, or is refused by one for a reason of its own (`compared_step`). The reader of the value refuses
what it keeps and the stream passes over, and then the text is malformed. The stream refuses a value
that is bad for its field, or a field that it has found before; then the object gives parameters only
if the field comes again. By induction on the tokens both ways agree on every text
(`agrees_of_tracks`).
-/

namespace KeyWrapping.Params

open KeyWrapping.Json

/-- A state of the stream and the reading of the value at the same token. -/
inductive Tracks : State → Reading → Prop where
  /-- Nothing has been read. -/
  | start : Tracks .start .start
  /-- The first key of an object comes next, or its end. -/
  | keyOrClose : Tracks .keyOrClose (.keyOrClose [])
  /-- A further key comes next. -/
  | key {found : Found} {members : List (List Char × Value)} (collects : Collects found members) :
    Tracks (.key found) (.key members [])
  /-- The colon after the key of a field comes next. -/
  | colon {found : Found} {members : List (List Char × Value)} {field : Field}
    (collects : Collects found members) (first : found.has field = false) :
    Tracks (.colon found field) (.colon members field.key [])
  /-- The value of a field comes next. -/
  | value {found : Found} {members : List (List Char × Value)} {field : Field}
    (collects : Collects found members) (first : found.has field = false) :
    Tracks (.value found field) (.value [.member members field.key])
  /-- The colon after another key comes next. -/
  | otherColon {found : Found} {members : List (List Char × Value)} {key : List Char}
    (collects : Collects found members) (unknown : Field.ofKey? key = none) :
    Tracks (.otherColon found) (.colon members key [])
  /-- The value of another member is passed over by the stream. -/
  | otherValue {found : Found} {members : List (List Char × Value)} {key : List Char}
    {passed kept : Reading} (collects : Collects found members) (unknown : Field.ofKey? key = none)
    (shadows : Shadows [.member members key] passed kept) :
    Tracks (.otherValue found passed) kept
  /-- A comma comes next, or the end of the object. -/
  | commaOrClose {found : Found} {members : List (List Char × Value)}
    (collects : Collects found members) : Tracks (.commaOrClose found) (.afterMember members [])
  /-- The first item of an array comes next. -/
  | firstItem : Tracks .firstItem (.itemOrClose [])
  /-- The comma after the first item comes next. -/
  | comma {found : Found} {first : Value} (given : addValue .none .iterations first = .ok found) :
    Tracks (.comma found) (.afterItem [first] [])
  /-- The second item comes next. -/
  | secondItem {found : Found} {first : Value}
    (given : addValue .none .iterations first = .ok found) :
    Tracks (.secondItem found) (.value [.array [first]])
  /-- The end of the array comes next. -/
  | close {found found' : Found} {first second : Value}
    (given : addValue .none .iterations first = .ok found)
    (given' : addValue found .keyLength second = .ok found') :
    Tracks (.close found') (.afterItem [second, first] [])

/-- Whatever the reader of the value can still come to, it gives no parameters, unless the fault of
the stream was a mismatch and a field comes more than once. -/
def Excused (fault : Fault) (progress : Json.Progress) : Prop :=
  ∀ whole params, progress.Reaches whole → ofValue whole = .ok params →
    fault = .mismatch ∧ RepeatsField whole

/-- What one token makes of the stream and of the reading beside it. -/
inductive Compared : Except Fault Progress → Except Fault Json.Progress → Prop where
  /-- Both refuse the token. -/
  | refused (fault fault' : Fault) : Compared (.error fault) (.error fault')
  /-- Only the reader of the value refuses it. -/
  | stricter (progress : Progress) : Compared (.ok progress) (.error .malformed)
  /-- Both go on. -/
  | together {state : State} {reading : Reading} (tracks : Tracks state reading) :
    Compared (.ok (.more state)) (.ok (.more reading))
  /-- The parameters are complete, and so is a value that gives them. -/
  | complete {params : Params} {value : Value} (given : ofValue value = .ok params) :
    Compared (.ok (.done params)) (.ok (.done value))
  /-- Only the stream refuses the token. -/
  | apart {fault : Fault} {progress : Json.Progress} (excused : Excused fault progress) :
    Compared (.error fault) (.ok progress)

/-- What begins with a token that is added to a field is a number that is added alike. -/
theorem number_of_addToken {found found' : Found} {field : Field} {token : Token}
    (added : addToken found field token = .ok found') :
    ∃ form, token = .number form ∧ form.numeral ≠ .tooLarge ∧
      addValue found field (.number form) = .ok found' := by
  cases token with
  | number form =>
    obtain ⟨natural, known, _⟩ := exists_natural_of_addNumber added
    refine ⟨form, rfl, ?_, addValue_of_addNumber added⟩
    rw [known]
    simp
  | openArray | closeArray | openObject | closeObject | comma | colon | null | bool _ | text _
  | unreadable _ _ _ => contradiction

/-- A number that fits is refused for a field as a mismatch. -/
theorem mismatch_of_addNumber {found : Found} {field : Field} {form : NumeralForm} {fault : Fault}
    (fits : form.numeral ≠ .tooLarge) (refused : addNumber found field form = .error fault) :
    fault = .mismatch := by
  unfold addNumber at refused
  split at refused
  · next value _ =>
    cases field with
    | iterations =>
      unfold Found.add at refused
      simp only at refused
      split at refused
      · contradiction
      · exact (Except.error.inj refused).symm
    | keyLength => contradiction
  · exact (Except.error.inj refused).symm
  · next tooLarge => exact absurd tooLarge fits

/-- A value that begins with a token that is refused for a field is bad for the field, and the
refusal is a mismatch. -/
theorem bad_of_addToken {found : Found} {field : Field} {token : Token} {fault : Fault}
    {value : Value} (refused : addToken found field token = .error fault)
    (begins : token.Begins value) : fault = .mismatch ∧ Bad field value := by
  have other {value : Value} (noNumber : ∀ form, value ≠ .number form) : Bad field value := by
    intro found found' added
    obtain ⟨form, number, _⟩ := exists_number_of_addValue added
    exact noNumber form number
  cases token with
  | openArray =>
    obtain ⟨items, rfl⟩ := begins
    exact ⟨(Except.error.inj refused).symm, other (by simp)⟩
  | openObject =>
    obtain ⟨members, rfl⟩ := begins
    exact ⟨(Except.error.inj refused).symm, other (by simp)⟩
  | null =>
    obtain rfl := begins
    exact ⟨(Except.error.inj refused).symm, other (by simp)⟩
  | bool flag =>
    obtain rfl := begins
    exact ⟨(Except.error.inj refused).symm, other (by simp)⟩
  | number form =>
    obtain ⟨rfl, fits⟩ := begins
    have numbered : addNumber found field form = .error fault := refused
    have failed : addValue found field (.number form) = .error .mismatch := by
      rw [addValue, numbered]
      rfl
    exact ⟨mismatch_of_addNumber fits numbered, bad_of_error failed⟩
  | text chars =>
    cases chars with
    | none => exact begins.elim
    | some chars =>
      obtain rfl := begins
      exact ⟨(Except.error.inj refused).symm, other (by simp)⟩
  | closeArray | closeObject | comma | colon | unreadable _ _ _ => exact begins.elim

/-- A value for a field: the stream takes a number that is good for the field, and the reader of the
value takes it too. Whatever else the reader of the value takes is bad for the field, so all that is
left to show is what a good number leads to and what a bad value leads to. -/
theorem compared_addToken {found : Found} {field : Field} {outer : List Frame} {next : Found → State}
    (good : ∀ form found', addValue found field (.number form) = .ok found' →
      ∃ reading, complete (.number form) outer = .more reading ∧ Tracks (next found') reading)
    (excused : ∀ inside whole params, Bad field inside → Closes outer inside whole →
      ofValue whole = .ok params → RepeatsField whole) (token : Token) :
    Compared ((addToken found field token).map (.more <| next ·)) (startValue .full outer token) := by
  cases added : addToken found field token with
  | ok found' =>
    obtain ⟨form, rfl, fits, given⟩ := number_of_addToken added
    obtain ⟨reading, completed, tracks⟩ := good form found' given
    have started : startValue .full outer (.number form) = .ok (.more reading) := by
      rw [startValue, Scrutiny.number, if_neg fits, ← completed]
      rfl
    rw [started]
    exact .together tracks
  | error fault =>
    cases started : startValue .full outer token with
    | error fault' => exact .refused fault fault'
    | ok progress =>
      refine .apart ?_
      intro whole params reaches given
      obtain ⟨inside, begins, closes⟩ := begins_of_startValue started reaches
      obtain ⟨mismatched, bad⟩ := bad_of_addToken added begins
      exact ⟨mismatched, excused inside whole params bad closes given⟩

/-- A key: the stream refuses a field that it has found before, and takes every other key that the
reader of the value takes. -/
theorem compared_takeKey {found : Found} {members : List (List Char × Value)}
    (collects : Collects found members) (token : Token) :
    Compared (takeKey found token) (startMember .full members [] token) := by
  cases token with
  | text chars =>
    cases chars with
    | none => exact .refused _ _
    | some key =>
      change Compared (takeKey found (.text (some key))) (.ok (.more (.colon members key [])))
      rw [takeKey]
      cases named : Field.ofKey? key with
      | none => exact .together (.otherColon collects named)
      | some field =>
        obtain rfl := (Field.ofKey?_eq_some_iff key field).mp named
        cases has : found.has field with
        | false =>
          simp only [has, Bool.false_eq_true, if_false]
          exact .together (.colon collects has)
        | true =>
          simp only [has, if_true]
          refine .apart ?_
          rintro whole params ⟨inside, more, rfl⟩ _
          exact ⟨rfl, repeats_of_mem inside ((collects.has_iff field).mp has)⟩
  | unreadable quoted kept passed =>
    cases quoted with
    | false => exact .refused _ _
    | true => exact .refused _ _
  | openArray | closeArray | openObject | closeObject | comma | colon | null | bool _ | number _ =>
    exact .refused _ _

/-- The end of the object: the stream is complete when both fields are found, and the object gives
the same parameters; where a field is missing it gives none. -/
theorem compared_finish {found : Found} {members : List (List Char × Value)}
    (collects : Collects found members) :
    Compared (finish found) (.ok (.done (.object members.reverse))) := by
  rw [finish]
  cases complete : found.params with
  | ok params => exact .complete (collects.ofValue_eq complete)
  | error fault =>
    refine .apart ?_
    rintro whole params rfl given
    exact absurd given (collects.ofValue_ne complete params)

/-- A value other than an array or an object gives no parameters. -/
theorem ofValue_ne_of_begins {token : Token} {value : Value} (begins : token.Begins value)
    (noArray : token ≠ .openArray) (noObject : token ≠ .openObject) (params : Params) :
    ofValue value ≠ .ok params := by
  intro given
  cases token with
  | openArray => exact noArray rfl
  | openObject => exact noObject rfl
  | null | bool _ =>
    obtain rfl := begins
    contradiction
  | number form =>
    obtain ⟨rfl, _⟩ := begins
    contradiction
  | text found =>
    cases found with
    | none => exact begins.elim
    | some chars =>
      obtain rfl := begins
      contradiction
  | closeArray | closeObject | comma | colon | unreadable _ _ _ => exact begins.elim

/-- An array whose first item is bad for the iterations gives no parameters. -/
theorem ofValue_ne_of_bad_first {first : Value} {more : List Value} (bad : Bad .iterations first)
    (params : Params) : ofValue (.array (first :: more)) ≠ .ok params := by
  intro given
  cases more with
  | nil => contradiction
  | cons second more =>
    cases more with
    | nil =>
      simp only [ofValue, bind, Except.bind] at given
      split at given
      · contradiction
      · next found added => exact bad _ _ added
    | cons third more => contradiction

/-- An array whose second item is bad for the key length gives no parameters. -/
theorem ofValue_ne_of_bad_second {first second : Value} {more : List Value}
    (bad : Bad .keyLength second) (params : Params) :
    ofValue (.array (first :: second :: more)) ≠ .ok params := by
  intro given
  cases more with
  | nil =>
    simp only [ofValue, bind, Except.bind] at given
    split at given
    · contradiction
    · split at given
      · contradiction
      · next found' added => exact bad _ _ added
  | cons third more => contradiction

/-- One token takes the stream and the reading of the value to states that belong together, unless it
is refused by both, or by one for a reason of its own. -/
theorem compared_step {state : State} {reading : Reading} (tracks : Tracks state reading)
    (token : Token) : Compared (step state token) (Json.step .full reading token) := by
  cases tracks with
  | start =>
    have scalar (noArray : token ≠ .openArray) (noObject : token ≠ .openObject) (fault : Fault) :
        Compared (.error fault) (startValue .full [] token) := by
      cases started : startValue .full [] token with
      | error fault' => exact .refused fault fault'
      | ok progress =>
        refine .apart ?_
        intro whole params reaches given
        obtain ⟨inside, begins, rfl⟩ := begins_of_startValue started reaches
        exact absurd given (ofValue_ne_of_begins begins noArray noObject params)
    cases token with
    | openObject => exact .together .keyOrClose
    | openArray => exact .together .firstItem
    | closeArray | closeObject | comma | colon | null | bool _ | number _ | text _
    | unreadable _ _ _ => exact scalar (by simp) (by simp) _
  | keyOrClose =>
    have further := compared_takeKey .none token
    cases token with
    | closeObject => exact compared_finish .none
    | openArray | closeArray | openObject | comma | colon | null | bool _ | number _ | text _
    | unreadable _ _ _ => exact further
  | key collects => exact compared_takeKey collects token
  | @colon found members field collects first =>
    cases token with
    | colon => exact .together (.value collects first)
    | openArray | closeArray | openObject | closeObject | comma | null | bool _ | number _ | text _
    | unreadable _ _ _ => exact .refused _ _
  | @value found members field collects first =>
    refine compared_addToken ?_ ?_ token
    · intro form found' added
      exact ⟨_, rfl, .commaOrClose (.field collects first added)⟩
    · rintro inside whole params bad ⟨more, rfl⟩ given
      exact repeats_of_bad bad given
  | otherColon collects unknown =>
    cases token with
    | colon => exact .together (.otherValue collects unknown (.value .base))
    | openArray | closeArray | openObject | closeObject | comma | null | bool _ | number _ | text _
    | unreadable _ _ _ => exact .refused _ _
  | @otherValue found members key passed _ collects unknown shadows =>
    have follows := follows_step shadows token
    rw [step, passOver]
    generalize Json.step .form passed token = passing at follows
    generalize Json.step .full reading token = keeping at follows
    cases follows with
    | refused fault fault' => exact .refused fault fault'
    | stricter progress => cases progress <;> exact .stricter _
    | more shadows => exact .together (.otherValue collects unknown shadows)
    | done value value' => exact .together (.commaOrClose (.other collects unknown value'))
  | commaOrClose collects =>
    cases token with
    | comma => exact .together (.key collects)
    | closeObject => exact compared_finish collects
    | openArray | closeArray | openObject | colon | null | bool _ | number _ | text _
    | unreadable _ _ _ => exact .refused _ _
  | firstItem =>
    have further : Compared ((addToken .none .iterations token).map (.more <| State.comma ·))
        (startValue .full [.array []] token) := by
      refine compared_addToken ?_ ?_ token
      · intro form found added
        exact ⟨_, rfl, .comma added⟩
      · rintro inside whole params bad ⟨more, rfl⟩ given
        exact absurd given (ofValue_ne_of_bad_first bad params)
    cases token with
    | closeArray =>
      refine .apart ?_
      rintro whole params rfl given
      contradiction
    | openArray | openObject | closeObject | comma | colon | null | bool _ | number _ | text _
    | unreadable _ _ _ => exact further
  | @comma found first added =>
    cases token with
    | comma => exact .together (.secondItem added)
    | closeArray =>
      refine .apart ?_
      rintro whole params rfl given
      contradiction
    | openArray | openObject | closeObject | colon | null | bool _ | number _ | text _
    | unreadable _ _ _ => exact .refused _ _
  | @secondItem found first added =>
    refine compared_addToken ?_ ?_ token
    · intro form found' added'
      exact ⟨_, rfl, .close added added'⟩
    · rintro inside whole params bad ⟨more, rfl⟩ given
      exact absurd given (ofValue_ne_of_bad_second bad params)
  | @close found found' first second added added' =>
    cases token with
    | closeArray =>
      change Compared (finish found') (.ok (.done (.array [first, second])))
      have array : ofValue (.array [first, second]) = found'.params := by
        rw [ofValue, added]
        change (addValue found .keyLength second >>= Found.params) = _
        rw [added']
        rfl
      rw [finish]
      cases complete : found'.params with
      | ok params => exact .complete (array.trans complete)
      | error fault =>
        refine .apart ?_
        rintro whole params rfl given
        rw [array, complete] at given
        contradiction
    | comma =>
      refine .apart ?_
      rintro whole params ⟨inside, more, rfl⟩ given
      contradiction
    | openArray | openObject | closeObject | colon | null | bool _ | number _ | text _
    | unreadable _ _ _ => exact .refused _ _

/-- What the stream and the reader of the value give on the same tokens. -/
structure Agrees (streamed : Except Fault (Params × List Token))
    (read : Except Fault (Value × List Token)) : Prop where
  /-- Where the stream gives parameters, the reader of the value gives a value of the same parameters
  and leaves the same tokens, or finds the text malformed. -/
  of_ok : ∀ params rest, streamed = .ok (params, rest) →
    read = .error .malformed ∨ ∃ value, read = .ok (value, rest) ∧ ofValue value = .ok params
  /-- Where only the stream fails, it finds a mismatch, and a field comes more than once. -/
  of_error : ∀ fault value rest params, streamed = .error fault → read = .ok (value, rest) →
    ofValue value = .ok params → fault = .mismatch ∧ RepeatsField value

/-- A stream reads one token and goes on, or ends with it. -/
theorem agrees_of_tracks {state : State} {reading : Reading} (tracks : Tracks state reading)
    (tokens : List Token) : Agrees (readStream state tokens) (readValue .full reading tokens) := by
  induction tokens generalizing state reading with
  | nil =>
    constructor
    · intro params rest given
      contradiction
    · intro fault value rest params failed read
      contradiction
  | cons token tokens ih =>
    have compared := compared_step tracks token
    rw [readStream, readValue_cons]
    generalize step state token = streamed at compared
    generalize Json.step .full reading token = read at compared
    cases compared with
    | refused fault fault' =>
      constructor
      · intro params rest given
        contradiction
      · intro fault value rest params failed read
        contradiction
    | stricter progress =>
      constructor
      · intro params rest given
        exact .inl rfl
      · intro fault value rest params failed read
        contradiction
    | together tracks => exact ih tracks
    | @complete params value given =>
      constructor
      · intro params' rest streamed
        obtain ⟨rfl, rfl⟩ := Prod.mk.inj (Except.ok.inj streamed)
        exact .inr ⟨value, rfl, given⟩
      · intro fault value' rest params' failed
        contradiction
    | @apart fault progress excused =>
      constructor
      · intro params rest given
        contradiction
      · intro fault' value rest params failed read given
        obtain rfl : fault = fault' := Except.error.inj failed
        exact excused value params (reaches_of_resume read) given

/-- On whole texts: where the stream gives parameters, the value gives the same or the text is
malformed. -/
theorem ofTokens_of_ok {tokens : List Token} {params : Params} (given : ofTokens tokens = .ok params) :
    Value.ofTokens tokens = .error .malformed ∨
      ∃ value, Value.ofTokens tokens = .ok value ∧ ofValue value = .ok params := by
  have agrees := agrees_of_tracks .start tokens
  unfold ofTokens at given
  split at given
  · contradiction
  · next found streamed =>
    obtain rfl : found = params := Except.ok.inj given
    obtain malformed | ⟨value, read, taken⟩ := agrees.of_ok _ _ streamed
    · rw [Value.ofTokens, malformed]
      exact .inl rfl
    · rw [Value.ofTokens, read]
      exact .inr ⟨value, rfl, taken⟩
  · contradiction

/-- On whole texts: where the value gives parameters and the stream fails, it finds a mismatch, and a
field comes more than once. -/
theorem ofTokens_of_error {tokens : List Token} {fault : Fault} {value : Value} {params : Params}
    (failed : ofTokens tokens = .error fault) (read : Value.ofTokens tokens = .ok value)
    (taken : ofValue value = .ok params) : fault = .mismatch ∧ RepeatsField value := by
  have agrees := agrees_of_tracks .start tokens
  have whole : readValue .full .start tokens = .ok (value, []) := by
    unfold Value.ofTokens at read
    split at read
    · contradiction
    · next found complete => rw [complete, Except.ok.inj read]
    · contradiction
  unfold ofTokens at failed
  split at failed
  · next fault' streamed =>
    obtain rfl : fault' = fault := Except.error.inj failed
    exact agrees.of_error _ _ _ _ streamed whole taken
  · contradiction
  · next found token tokens' streamed =>
    -- the stream leaves tokens behind only where the reader of the value does
    obtain malformed | ⟨value', other, _⟩ := agrees.of_ok _ _ streamed
    · rw [whole] at malformed
      contradiction
    · rw [whole] at other
      exact nomatch other

/-- Parameters come of a text by way of a value exactly when the text is a value that gives them. -/
theorem ofTextValue_eq_ok_iff (text : String) (params : Params) :
    ofTextValue text = .ok params ↔
      ∃ value, Value.ofText text = .ok value ∧ ofValue value = .ok params := by
  rw [ofTextValue]
  cases read : Value.ofText text with
  | ok value => simp [bind, Except.bind]
  | error fault => simp [bind, Except.bind]

/-- The two ways of loading parameters never give different ones. Where both succeed they agree.
Where the stream succeeds and the way through a value fails, the text is malformed as a value. Where
the way through a value succeeds and the stream fails, the text is an object in which the key of a
field comes more than once, and the stream finds a mismatch. -/
theorem loaders_agree (text : String) :
    (∀ params other, ofStream text = .ok params → ofTextValue text = .ok other → other = params) ∧
    (∀ params fault, ofStream text = .ok params → ofTextValue text = .error fault →
      fault = .malformed ∧ Value.ofText text = .error .malformed) ∧
    (∀ params fault, ofTextValue text = .ok params → ofStream text = .error fault →
      fault = .mismatch ∧
        ∃ members, Value.ofText text = .ok (.object members) ∧
          ∃ field, 1 < members.countP (·.1 = Field.key field)) := by
  refine ⟨?_, ?_, ?_⟩
  · intro params other streamed valued
    obtain ⟨value, read, taken⟩ := (ofTextValue_eq_ok_iff text other).mp valued
    obtain malformed | ⟨value', read', taken'⟩ := ofTokens_of_ok streamed
    · rw [Value.ofText, malformed] at read
      contradiction
    · obtain rfl : value' = value := Except.ok.inj (read'.symm.trans read)
      exact Except.ok.inj (taken.symm.trans taken')
  · intro params fault streamed failed
    obtain malformed | ⟨value, read, taken⟩ := ofTokens_of_ok streamed
    · have unread : Value.ofText text = .error .malformed := malformed
      rw [ofTextValue, unread] at failed
      exact ⟨(Except.error.inj failed).symm, unread⟩
    · rw [(ofTextValue_eq_ok_iff text params).mpr ⟨value, read, taken⟩] at failed
      contradiction
  · intro params fault valued failed
    obtain ⟨value, read, taken⟩ := (ofTextValue_eq_ok_iff text params).mp valued
    obtain ⟨mismatched, members, field, rfl, repeated⟩ := ofTokens_of_error failed read taken
    exact ⟨mismatched, members, read, field, repeated⟩

end KeyWrapping.Params
