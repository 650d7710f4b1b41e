import KeyWrapping.Json.Value
/-!
# Passing over what another reader keeps

A reader that passes over a value and one that keeps it, inside some brackets more, take the same
tokens with readings of one shape (`Shadows`): their open brackets are of the same kinds, although
what is in them differs. The reader that keeps the value looks at more, so it may refuse a token
that the other takes; then the text is malformed. It never takes a token that the other refuses, and
both find the end of the value at the same token (`follows_step`).
-/

namespace KeyWrapping.Json

/-- The open brackets of two readers are of the same kinds, and the second has `base` open outside
them. -/
inductive Within (base : List Frame) : List Frame → List Frame → Prop where
  /-- The first reader has no bracket open. -/
  | base : Within base [] base
  /-- Both have an array open. -/
  | array (items items' : List Value) {outer outer' : List Frame}
    (within : Within base outer outer') :
    Within base (.array items :: outer) (.array items' :: outer')
  /-- Both have an object open, and read the value of a member. -/
  | member (members members' : List (List Char × Value)) (key key' : List Char)
    {outer outer' : List Frame} (within : Within base outer outer') :
    Within base (.member members key :: outer) (.member members' key' :: outer')

/-- Two readings are of one shape, the second inside `base`. -/
inductive Shadows (base : List Frame) : Reading → Reading → Prop where
  /-- For both a value comes next. -/
  | value {outer outer' : List Frame} (within : Within base outer outer') :
    Shadows base (.value outer) (.value outer')
  /-- For both the first item of an array comes next, or its end. -/
  | itemOrClose {outer outer' : List Frame} (within : Within base outer outer') :
    Shadows base (.itemOrClose outer) (.itemOrClose outer')
  /-- For both a comma comes next, or the end of an array. -/
  | afterItem (items items' : List Value) {outer outer' : List Frame}
    (within : Within base outer outer') :
    Shadows base (.afterItem items outer) (.afterItem items' outer')
  /-- For both the first key of an object comes next, or its end. -/
  | keyOrClose {outer outer' : List Frame} (within : Within base outer outer') :
    Shadows base (.keyOrClose outer) (.keyOrClose outer')
  /-- For both a further key comes next. -/
  | key (members members' : List (List Char × Value)) {outer outer' : List Frame}
    (within : Within base outer outer') : Shadows base (.key members outer) (.key members' outer')
  /-- For both the colon after a key comes next. -/
  | colon (members members' : List (List Char × Value)) (name name' : List Char)
    {outer outer' : List Frame} (within : Within base outer outer') :
    Shadows base (.colon members name outer) (.colon members' name' outer')
  /-- For both a comma comes next, or the end of an object. -/
  | afterMember (members members' : List (List Char × Value)) {outer outer' : List Frame}
    (within : Within base outer outer') :
    Shadows base (.afterMember members outer) (.afterMember members' outer')

/-- What one token makes of two readings, the second inside `base`. -/
inductive Follows (base : List Frame) : Except Fault Progress → Except Fault Progress → Prop where
  /-- Both readers refuse the token. -/
  | refused (fault fault' : Fault) : Follows base (.error fault) (.error fault')
  /-- Only the reader that keeps the value refuses the token. -/
  | stricter (progress : Progress) : Follows base (.ok progress) (.error .malformed)
  /-- Both readers go on. -/
  | more {passed kept : Reading} (shadows : Shadows base passed kept) :
    Follows base (.ok (.more passed)) (.ok (.more kept))
  /-- The value is complete for both. -/
  | done (value value' : Value) : Follows base (.ok (.done value)) (.ok (complete value' base))

variable {base outer outer' : List Frame}

/-- A value that is complete for one reader is complete for the other. -/
theorem follows_complete (within : Within base outer outer') (value value' : Value) :
    Follows base (.ok (complete value outer)) (.ok (complete value' outer')) := by
  cases within with
  | base => exact .done value value'
  | array items items' within => exact .more (.afterItem _ _ within)
  | member members members' key key' within => exact .more (.afterMember _ _ within)

/-- Both readers begin a value with the same tokens, as far as the stricter one allows. -/
theorem follows_startValue (within : Within base outer outer') (token : Token) :
    Follows base (startValue .form outer token) (startValue .full outer' token) := by
  cases token with
  | openArray =>
    by_cases shallow : Scrutiny.full.admitsBracket outer'.length = true
    · rw [startValue, startValue, if_pos shallow]
      exact .more (.itemOrClose within)
    · rw [startValue, startValue, if_neg shallow]
      exact .stricter _
  | openObject =>
    by_cases shallow : Scrutiny.full.admitsBracket outer'.length = true
    · rw [startValue, startValue, if_pos shallow]
      exact .more (.keyOrClose within)
    · rw [startValue, startValue, if_neg shallow]
      exact .stricter _
  | null => exact follows_complete within _ _
  | bool found => exact follows_complete within _ _
  | number form =>
    simp only [startValue, Scrutiny.number]
    split
    · exact .stricter _
    · exact follows_complete within _ _
  | text found =>
    cases found with
    | none => exact .stricter _
    | some chars => exact follows_complete within _ _
  | closeArray | closeObject | comma | colon | unreadable _ _ _ => exact .refused _ _

/-- Both readers begin a member with the same tokens, as far as the stricter one allows. -/
theorem follows_startMember (within : Within base outer outer')
    (members members' : List (List Char × Value)) (token : Token) :
    Follows base (startMember .form members outer token)
      (startMember .full members' outer' token) := by
  cases token with
  | text found =>
    cases found with
    | none => exact .stricter _
    | some key => exact .more (.colon _ _ _ _ within)
  | unreadable quoted kept passed => cases quoted <;> exact .refused _ _
  | openArray | closeArray | openObject | closeObject | comma | colon | null | bool _ | number _ =>
    exact .refused _ _

/-- One token keeps the shape of both readings, as far as the stricter reader allows. -/
theorem follows_step {passed kept : Reading} (shadows : Shadows base passed kept) (token : Token) :
    Follows base (step .form passed token) (step .full kept token) := by
  cases shadows with
  | value within => exact follows_startValue within token
  | itemOrClose within =>
    have further := follows_startValue (.array [] [] within) token
    cases token with
    | closeArray => exact follows_complete within _ _
    | openArray | openObject | closeObject | comma | colon | null | bool _ | number _ | text _
    | unreadable _ _ _ => exact further
  | afterItem items items' within =>
    cases token with
    | comma => exact .more (.value (.array _ _ within))
    | closeArray => exact follows_complete within _ _
    | openArray | openObject | closeObject | colon | null | bool _ | number _ | text _
    | unreadable _ _ _ => exact .refused _ _
  | keyOrClose within =>
    have further := follows_startMember within [] [] token
    cases token with
    | closeObject => exact follows_complete within _ _
    | openArray | closeArray | openObject | comma | colon | null | bool _ | number _ | text _
    | unreadable _ _ _ => exact further
  | key members members' within => exact follows_startMember within members members' token
  | colon members members' name name' within =>
    cases token with
    | colon => exact .more (.value (.member _ _ _ _ within))
    | openArray | closeArray | openObject | closeObject | comma | null | bool _ | number _ | text _
    | unreadable _ _ _ => exact .refused _ _
  | afterMember members members' within =>
    cases token with
    | comma => exact .more (.key _ _ within)
    | closeObject => exact follows_complete within _ _
    | openArray | closeArray | openObject | colon | null | bool _ | number _ | text _
    | unreadable _ _ _ => exact .refused _ _

end KeyWrapping.Json
