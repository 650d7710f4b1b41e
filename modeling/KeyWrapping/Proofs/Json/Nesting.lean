import KeyWrapping.Proofs.Json.Outcomes
import KeyWrapping.Proofs.Json.Spelling
/-!
# Nested values and their tokens

A value of natural numbers, words, strings, arrays and objects (`Value.Plain`) is read back from its
tokens, whatever is open around it, as long as there is room for its brackets
(`Value.Plain.comes`). Its tokens can be written one after the other (`Value.Plain.tokens_apart`),
so the value is read back from every text of them (`Value.Plain.ofTokens_of_renders`), and its own
text is one of these (`Value.Plain.renders_written`). The items of an array and the members of an
object are both parts with commas between them, inside brackets (`Enclosure`).
-/

namespace KeyWrapping.Json

/-- A value whose numbers are natural numbers of sixty-four bits, with at most `depth` brackets
open at once. -/
inductive Value.Plain : Nat → Value → Prop where
  /-- Nothing. -/
  | null (depth : Nat) : Plain depth .null
  /-- Yes or no. -/
  | bool (depth : Nat) (value : Bool) : Plain depth (.bool value)
  /-- A natural number. -/
  | number (depth : Nat) {value : Nat} (small : value < UInt64.size) :
    Plain depth (.number (.ofNat value))
  /-- A string. -/
  | text (depth : Nat) (chars : List Char) : Plain depth (.text chars)
  /-- An array opens one bracket around its items. -/
  | array {depth : Nat} {items : List Value} (inside : ∀ item ∈ items, Plain depth item) :
    Plain (depth + 1) (.array items)
  /-- An object opens one bracket around the values of its members. -/
  | object {depth : Nat} {members : List (List Char × Value)}
    (inside : ∀ member ∈ members, Plain depth member.2) : Plain (depth + 1) (.object members)

/-! ## Parts with commas between them -/

/-- The items of an array have commas between them. -/
theorem itemTokens_eq (items : List Value) :
    itemTokens items = [.comma].intercalate (items.map Value.tokens) := by
  induction items with
  | nil => rw [itemTokens, List.map_nil, List.intercalate_nil]
  | cons first more ih =>
    cases more with
    | nil => rw [itemTokens, List.map_singleton, List.intercalate_singleton]
    | cons second more =>
      rw [itemTokens, ih]
      simp only [List.map_cons, List.intercalate_cons_cons, List.append_assoc,
        List.singleton_append]

/-- The members of an object have commas between them. -/
theorem memberTokens_eq (members : List (List Char × Value)) :
    memberTokens members = [.comma].intercalate (members.map memberToken) := by
  induction members with
  | nil => rw [memberTokens, List.map_nil, List.intercalate_nil]
  | cons first more ih =>
    cases more with
    | nil => rw [memberTokens, List.map_singleton, List.intercalate_singleton]
    | cons second more =>
      rw [memberTokens, ih]
      simp only [List.map_cons, List.intercalate_cons_cons, List.append_assoc,
        List.singleton_append]

/-- A token of parts with commas between them is one of a part, or a comma. -/
theorem mem_intercalate {parts : List (List Token)} {token : Token}
    (among : token ∈ [.comma].intercalate parts) :
    token = .comma ∨ ∃ part ∈ parts, token ∈ part := by
  obtain ⟨piece, listed, inside⟩ := List.mem_flatten.mp among
  induction parts with
  | nil => contradiction
  | cons first more ih =>
    cases more with
    | nil =>
      obtain rfl := List.mem_singleton.mp listed
      exact .inr ⟨piece, List.mem_cons_self, inside⟩
    | cons second more =>
      rw [List.intersperse_cons_cons, List.mem_cons, List.mem_cons] at listed
      obtain rfl | rfl | later := listed
      · exact .inr ⟨piece, List.mem_cons_self, inside⟩
      · exact .inl (List.mem_singleton.mp inside)
      · obtain comma | ⟨part, known, within⟩ :=
          ih (List.mem_flatten.mpr ⟨piece, later, inside⟩) later
        · exact .inl comma
        · exact .inr ⟨part, List.mem_cons_of_mem first known, within⟩

/-- Parts with commas between them begin with the first part. -/
theorem exists_intercalate_eq_append (first : List Token) (more : List (List Token)) :
    ∃ others, [.comma].intercalate (first :: more) = first ++ others := by
  cases more with
  | nil => exact ⟨[], by rw [List.intercalate_singleton, List.append_nil]⟩
  | cons second more => exact ⟨_, by rw [List.intercalate_cons_cons, List.append_assoc]⟩

/-! ## Reading the tokens of a value -/

/-- A value is read back from its tokens inside some open brackets. -/
def Value.Comes (value : Value) (outer : List Frame) : Prop :=
  ∀ rest, readValue .full (.value outer) (value.tokens ++ rest) =
    resume .full (complete value outer) rest

/-- The brackets of an array or an object, and the states of a reading inside them: what a part of
it is written as, where a part begins and where it is read. -/
structure Enclosure (Part : Type) (outer : List Frame) where
  /-- The tokens of a part. -/
  tokensOf : Part → List Token
  /-- A part comes next, after some parts that have been read, the last first. -/
  before : List Part → Reading
  /-- A part has been read. -/
  behind : List Part → Reading
  /-- The bracket that closes the parts. -/
  close : Token
  /-- The value that consists of the parts. -/
  whole : List Part → Value
  /-- Behind a comma there is another part. -/
  step_comma : ∀ done, step .full (behind done) .comma = .ok (.more (before done))
  /-- The closing bracket completes the value. -/
  step_close : ∀ done,
    step .full (behind done) close = .ok (complete (whole done.reverse) outer)

/-- Parts that are read one by one are read to the closing bracket. -/
theorem readValue_parts {Part : Type} {outer : List Frame} (enclosure : Enclosure Part outer)
    {first : Part} {more : List Part}
    (each : ∀ part ∈ first :: more, ∀ done rest,
      readValue .full (enclosure.before done) (enclosure.tokensOf part ++ rest) =
        readValue .full (enclosure.behind (part :: done)) rest)
    (done : List Part) (rest : List Token) :
    readValue .full (enclosure.before done)
        ([.comma].intercalate ((first :: more).map enclosure.tokensOf) ++ enclosure.close :: rest) =
      resume .full (complete (enclosure.whole (done.reverse ++ first :: more)) outer) rest := by
  have head := each first List.mem_cons_self done
  induction more generalizing first done with
  | nil =>
    rw [List.map_singleton, List.intercalate_singleton, head, readValue_cons,
      enclosure.step_close, List.reverse_cons]
    rfl
  | cons second more ih =>
    have others := fun part (among : part ∈ second :: more) =>
      each part (List.mem_cons_of_mem first among)
    have read := ih others (first :: done) (others second List.mem_cons_self _)
    rw [List.reverse_cons, List.append_assoc] at read
    rw [List.map_cons, List.map_cons, List.intercalate_cons_cons, List.append_assoc,
      List.append_assoc, head, List.singleton_append, readValue_cons, enclosure.step_comma]
    exact read

/-- An array consists of its items. -/
def arrayEnclosure (outer : List Frame) : Enclosure Value outer where
  tokensOf := Value.tokens
  before done := .value (.array done :: outer)
  behind done := .afterItem done outer
  close := .closeArray
  whole := .array
  step_comma _ := rfl
  step_close _ := rfl

/-- An object consists of its members. -/
def objectEnclosure (outer : List Frame) : Enclosure (List Char × Value) outer where
  tokensOf := memberToken
  before done := .key done outer
  behind done := .afterMember done outer
  close := .closeObject
  whole := .object
  step_comma _ := rfl
  step_close _ := rfl

/-- The tokens of a value begin with one that does not close an array. -/
theorem exists_first_token (value : Value) :
    ∃ token rest, value.tokens = token :: rest ∧ token ≠ .closeArray := by
  cases value with
  | null | bool _ | number _ | text _ => exact ⟨_, _, by rw [Value.tokens], by simp⟩
  | array _ | object _ => exact ⟨_, _, by rw [Value.tokens, List.cons_append], by simp⟩

/-- The first item of an array is read like any other. -/
theorem readValue_first_item (item : Value) (outer : List Frame) (rest : List Token) :
    readValue .full (.itemOrClose outer) (item.tokens ++ rest) =
      readValue .full (.value (.array [] :: outer)) (item.tokens ++ rest) := by
  obtain ⟨token, others, begins, opens⟩ := exists_first_token item
  have same : step .full (.itemOrClose outer) token =
      step .full (.value (.array [] :: outer)) token := by
    cases token with
    | closeArray => contradiction
    | openArray | openObject | closeObject | comma | colon | null | bool _ | number _ | text _
    | unreadable _ _ _ => rfl
  rw [begins, List.cons_append, readValue_cons, readValue_cons, same]

/-- The items of an array are read back behind its opening bracket. -/
theorem readValue_array {outer : List Frame} {items : List Value}
    (each : ∀ item ∈ items, ∀ done, item.Comes (.array done :: outer)) (rest : List Token) :
    readValue .full (.itemOrClose outer) (itemTokens items ++ .closeArray :: rest) =
      resume .full (complete (.array items) outer) rest := by
  cases items with
  | nil =>
    rw [itemTokens, List.nil_append, readValue_cons]
    rfl
  | cons first more =>
    have read := readValue_parts (arrayEnclosure outer) each [] rest
    obtain ⟨others, begins⟩ := exists_intercalate_eq_append first.tokens (more.map Value.tokens)
    rw [itemTokens_eq]
    calc
      readValue .full (.itemOrClose outer)
          ([.comma].intercalate ((first :: more).map Value.tokens) ++ .closeArray :: rest) =
        readValue .full (.value (.array [] :: outer))
          ([.comma].intercalate ((first :: more).map Value.tokens) ++ .closeArray :: rest) := by
          rw [List.map_cons, begins, List.append_assoc, readValue_first_item]
      _ = resume .full (complete (.array (first :: more)) outer) rest := read

/-- The members of an object are read back behind its opening bracket. -/
theorem readValue_object {outer : List Frame} {members : List (List Char × Value)}
    (each : ∀ member ∈ members, ∀ done key, member.2.Comes (.member done key :: outer))
    (rest : List Token) :
    readValue .full (.keyOrClose outer) (memberTokens members ++ .closeObject :: rest) =
      resume .full (complete (.object members) outer) rest := by
  cases members with
  | nil =>
    rw [memberTokens, List.nil_append, readValue_cons]
    rfl
  | cons first more =>
    have parts : ∀ member ∈ first :: more, ∀ done rest,
        readValue .full (.key done outer) (memberToken member ++ rest) =
          readValue .full (.afterMember (member :: done) outer) rest := by
      rintro ⟨key, value⟩ among done rest
      exact each (key, value) among done key rest
    have read := readValue_parts (objectEnclosure outer) parts [] rest
    obtain ⟨key, value⟩ := first
    obtain ⟨others, begins⟩ :=
      exists_intercalate_eq_append (memberToken (key, value)) (more.map memberToken)
    rw [memberTokens_eq]
    -- the first key is read alike behind the bracket and behind a comma
    calc
      readValue .full (.keyOrClose outer)
          ([.comma].intercalate (((key, value) :: more).map memberToken) ++ .closeObject :: rest) =
        readValue .full (.key [] outer)
          ([.comma].intercalate (((key, value) :: more).map memberToken) ++
            .closeObject :: rest) := by
          rw [List.map_cons, begins, memberToken]
          rfl
      _ = resume .full (complete (.object ((key, value) :: more)) outer) rest := read

/-- A plain value is read back from its tokens wherever there is room for its brackets. -/
theorem Value.Plain.comes {depth : Nat} {value : Value} (plain : value.Plain depth)
    {outer : List Frame} (room : outer.length + depth ≤ depthLimit) : value.Comes outer := by
  induction plain generalizing outer with
  | null depth | bool depth value | text depth chars =>
    intro rest
    rw [Value.tokens, List.singleton_append, readValue_cons]
    rfl
  | @number depth value small =>
    intro rest
    have fits : (NumeralForm.ofNat value).numeral ≠ .tooLarge := by
      rw [NumeralForm.numeral_ofNat small]
      simp
    rw [Value.tokens, List.singleton_append, readValue_cons, step, startValue, Scrutiny.number,
      if_neg fits]
    rfl
  | @array depth items inside ih =>
    intro rest
    have admitted : Scrutiny.full.admitsBracket outer.length = true := by
      simp only [Scrutiny.admitsBracket, decide_eq_true_eq]
      omega
    have each : ∀ item ∈ items, ∀ done, item.Comes (.array done :: outer) := by
      intro item among done
      apply ih item among
      rw [List.length_cons]
      omega
    rw [Value.tokens, List.append_assoc, List.cons_append, readValue_cons, step, startValue,
      if_pos admitted]
    exact readValue_array each rest
  | @object depth members inside ih =>
    intro rest
    have admitted : Scrutiny.full.admitsBracket outer.length = true := by
      simp only [Scrutiny.admitsBracket, decide_eq_true_eq]
      omega
    have each : ∀ member ∈ members, ∀ done key, member.2.Comes (.member done key :: outer) := by
      intro member among done key
      apply ih member among
      rw [List.length_cons]
      omega
    rw [Value.tokens, List.append_assoc, List.cons_append, readValue_cons, step, startValue,
      if_pos admitted]
    exact readValue_object each rest

/-! ## Writing the tokens of a value -/

/-- Tokens that can be written one after the other, also behind a number. -/
structure Continues (tokens : List Token) : Prop where
  /-- The tokens can be written one after the other. -/
  apart : tokens.IsChain Token.Apart
  /-- The first of them can follow a number. -/
  separates : ∀ token ∈ tokens.head?, token.Separates

/-- A token that is no number can be written in front of any others. -/
theorem isChain_cons {token : Token} {rest : List Token} (noNumber : ∀ form, token ≠ .number form)
    (apart : rest.IsChain Token.Apart) : (token :: rest).IsChain Token.Apart := by
  rw [List.isChain_cons]
  refine ⟨?_, apart⟩
  rintro next - ⟨form, number⟩
  exact absurd number (noNumber form)

/-- A separator in front of tokens that can be written one after the other goes on with anything. -/
theorem Continues.cons {token : Token} {rest : List Token} (separates : token.Separates)
    (apart : rest.IsChain Token.Apart) : Continues (token :: rest) where
  apart := by
    apply isChain_cons _ apart
    rintro form rfl
    rcases separates with _ | _ | _ <;> contradiction
  separates := by
    rintro first found
    obtain rfl := Option.some.inj found
    exact separates

/-- Tokens that can be written one after the other, in front of what goes on with anything. -/
def Leads (toks : List Token) : Prop :=
  ∀ rest, Continues rest → (toks ++ rest).IsChain Token.Apart

/-- Parts with commas between them can be written if every part can. -/
theorem leads_intercalate {parts : List (List Token)} (each : ∀ part ∈ parts, Leads part) :
    Leads ([.comma].intercalate parts) := by
  induction parts with
  | nil =>
    intro rest continues
    exact continues.apart
  | cons first more ih =>
    have head := each first List.mem_cons_self
    cases more with
    | nil =>
      rw [List.intercalate_singleton]
      exact head
    | cons second more =>
      have others := ih fun part among => each part (List.mem_cons_of_mem first among)
      intro rest continues
      rw [List.intercalate_cons_cons, List.append_assoc, List.append_assoc]
      apply head
      exact .cons (.inl rfl) (others rest continues)

/-- Tokens in brackets can be written if those between the brackets can. -/
theorem Leads.enclosed {inside : List Token} (leads : Leads inside) {bracket close : Token}
    (opens : ∀ form, bracket ≠ .number form) (closes : close.Separates) :
    Leads (bracket :: inside ++ [close]) := by
  intro rest continues
  rw [List.append_assoc, List.cons_append]
  apply isChain_cons opens
  exact leads _ (.cons closes continues.apart)

/-- A plain value can be written in front of what goes on with anything. -/
theorem Value.Plain.leads {depth : Nat} {value : Value} (plain : value.Plain depth) :
    Leads value.tokens := by
  induction plain with
  | null depth | bool depth value | text depth chars =>
    intro rest continues
    rw [Value.tokens]
    exact isChain_cons (by simp) continues.apart
  | @number depth value small =>
    intro rest continues
    rw [Value.tokens, List.singleton_append, List.isChain_cons]
    exact ⟨fun next found _ => continues.separates next found, continues.apart⟩
  | @array depth items inside ih =>
    have each : ∀ part ∈ items.map Value.tokens, Leads part := by
      intro part among
      obtain ⟨item, listed, rfl⟩ := List.mem_map.mp among
      exact ih item listed
    rw [Value.tokens, itemTokens_eq]
    exact (leads_intercalate each).enclosed (by simp) (.inr (.inl rfl))
  | @object depth members inside ih =>
    have each : ∀ part ∈ members.map memberToken, Leads part := by
      intro part among rest continues
      obtain ⟨⟨key, value⟩, listed, rfl⟩ := List.mem_map.mp among
      rw [memberToken]
      apply isChain_cons (by simp)
      apply isChain_cons (by simp)
      exact ih (key, value) listed rest continues
    rw [Value.tokens, memberTokens_eq]
    exact (leads_intercalate each).enclosed (by simp) (.inr (.inr rfl))

/-- The tokens of a plain value can be written one after the other. -/
theorem Value.Plain.tokens_apart {depth : Nat} {value : Value} (plain : value.Plain depth) :
    value.tokens.IsChain Token.Apart := by
  have apart := plain.leads [] ⟨.nil, by simp⟩
  rwa [List.append_nil] at apart

/-- Whatever way the text of a plain value is written in, the value is read back from it. -/
theorem Value.Plain.ofTokens_of_renders {value : Value} (plain : value.Plain depthLimit)
    {text : List Char} (renders : Renders value.tokens text) :
    Value.ofTokens (Json.tokens text) = .ok value := by
  have room : ([] : List Frame).length + depthLimit ≤ depthLimit := by simp
  have read := plain.comes room []
  rw [List.append_nil] at read
  rw [tokens_of_renders renders plain.tokens_apart, Value.ofTokens, Reading.start, read]
  rfl

/-! ## The text of a value -/

/-- The own text of every token of a plain value is one way to write it. -/
theorem Value.Plain.spelled {depth : Nat} {value : Value} (plain : value.Plain depth) :
    ∀ token ∈ value.tokens, token.Spelled token.written := by
  induction plain with
  | null depth =>
    intro token among
    rw [Value.tokens, List.mem_singleton] at among
    exact among ▸ .null
  | bool depth value =>
    intro token among
    rw [Value.tokens, List.mem_singleton] at among
    cases value with
    | true => exact among ▸ .true
    | false => exact among ▸ .false
  | @number depth value small =>
    intro token among
    rw [Value.tokens, List.mem_singleton] at among
    rw [among, Token.written, NumeralForm.written_ofNat]
    exact .number value
  | text depth chars =>
    intro token among
    rw [Value.tokens, List.mem_singleton] at among
    exact among ▸ .text (spelledText_written chars)
  | @array depth items inside ih =>
    intro token among
    rw [Value.tokens, List.cons_append, List.mem_cons, List.mem_append, List.mem_singleton] at among
    obtain rfl | later | rfl := among
    · exact .openArray
    · rw [itemTokens_eq] at later
      obtain rfl | ⟨_, listed, inner⟩ := mem_intercalate later
      · exact .comma
      · obtain ⟨item, among, rfl⟩ := List.mem_map.mp listed
        exact ih item among token inner
    · exact .closeArray
  | @object depth members inside ih =>
    intro token among
    rw [Value.tokens, List.cons_append, List.mem_cons, List.mem_append, List.mem_singleton] at among
    obtain rfl | later | rfl := among
    · exact .openObject
    · rw [memberTokens_eq] at later
      obtain rfl | ⟨_, listed, inner⟩ := mem_intercalate later
      · exact .comma
      · obtain ⟨⟨key, value⟩, among, rfl⟩ := List.mem_map.mp listed
        rw [memberToken, List.mem_cons, List.mem_cons] at inner
        obtain rfl | rfl | inner := inner
        · exact .text (spelledText_written key)
        · exact .colon
        · exact ih (key, value) among token inner
    · exact .closeObject

/-- The own text of a plain value is one way to write it. -/
theorem Value.Plain.renders_written {depth : Nat} {value : Value} (plain : value.Plain depth) :
    Renders value.tokens value.written :=
  renders_of_spelled plain.spelled

end KeyWrapping.Json
