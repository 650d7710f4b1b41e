import KeyWrapping.Proofs.Json.Nesting
import KeyWrapping.Proofs.Loading
/-!
# Parameters that come back

Stored parameters come back as they were (`stored_params_come_back`), whatever their fields are, and
also from an object that has other members beside the two fields (`Grown`), in any order, and with
any blanks and escapes in its text. The way through a value looks each field up among all members
(`Grown.ofValue_eq`); the stream takes the members as they come, and finds the same because no field
comes twice (`Grown.not_repeatsField`).
-/

namespace KeyWrapping.Params

open KeyWrapping.Json

/-- The number that is stored for a field. -/
def stored (params : Params) : Field → Nat
  | .iterations => params.iterations.toNat
  | .keyLength => params.keyLength.toNat

/-- The member that is stored for a field. -/
def member (params : Params) (field : Field) : List Char × Value :=
  (field.key, .number (.ofNat (params.stored field)))

/-- A member beside the fields: it has another key, and a plain value that leaves room for the
bracket of the object. -/
structure Extra (member : List Char × Value) : Prop where
  /-- The key is that of no field. -/
  unknown : ∀ field : Field, member.1 ≠ field.key
  /-- The value can be kept inside the object. -/
  plain : member.2.Plain (depthLimit - 1)

/-- Parameters are stored as the members of their fields. -/
theorem toValue_eq (params : Params) :
    params.toValue = .object [params.member .iterations, params.member .keyLength] := rfl

/-- The number of a field has sixty-four bits. -/
theorem stored_lt (params : Params) (field : Field) : params.stored field < UInt64.size := by
  cases field with
  | iterations => exact Nat.lt_trans params.iterations.toNat_lt (by decide)
  | keyLength => exact params.keyLength.toNat_lt

/-- What is stored for a field is added as it was. -/
theorem addValue_member (params : Params) (found : Found) (field : Field) :
    addValue found field (params.member field).2 =
      .ok (Found.give ⟨some params.iterations, some params.keyLength⟩ field found) := by
  apply addValue_of_addNumber
  rw [addNumber, NumeralForm.numeral_ofNat (params.stored_lt field)]
  cases field with
  | iterations =>
    have same : (UInt64.ofNat params.iterations.toNat).toNat = params.iterations.toNat :=
      UInt64.toNat_ofNat_of_lt (params.stored_lt .iterations)
    have fits : (UInt64.ofNat params.iterations.toNat).toNat < UInt32.size := by
      rw [same]
      exact params.iterations.toNat_lt
    have kept : (UInt64.ofNat params.iterations.toNat).toUInt32 = params.iterations := by
      apply UInt32.toNat_inj.mp
      rw [UInt64.toNat_toUInt32, same]
      exact Nat.mod_eq_of_lt params.iterations.toNat_lt
    simp only [Found.add, stored, if_pos fits, kept, Found.give]
  | keyLength =>
    simp only [Found.add, stored, UInt64.ofNat_toNat, Found.give]

/-! ## Members in any order -/

/-- The members of a record that has grown: those of the fields and others beside them, in any
order. -/
def Grown (params : Params) (members : List (List Char × Value)) : Prop :=
  ∃ extras, (∀ member ∈ extras, Extra member) ∧
    members.Perm (params.member .iterations :: params.member .keyLength :: extras)

variable {params : Params} {members : List (List Char × Value)}

/-- A member whose key no other member has is looked up by its key. -/
theorem lastMember?_of_mem {key : List Char} {value : Value} (among : (key, value) ∈ members)
    (only : ∀ member ∈ members, member.1 = key → member = (key, value)) :
    lastMember? key members = some value := by
  rw [lastMember?]
  cases last : members.reverse.find? (·.1 = key) with
  | none =>
    have missing := List.find?_eq_none.mp last (key, value) (List.mem_reverse.mpr among)
    simp at missing
  | some member =>
    have named := List.find?_some last
    have listed := List.mem_reverse.mp (List.mem_of_find?_eq_some last)
    rw [only member listed (by simpa using named)]
    rfl

/-- Parameters that are stored have not grown. -/
theorem grown_stored (params : Params) :
    Grown params [params.member .iterations, params.member .keyLength] :=
  ⟨[], by simp, .refl _⟩

/-- A member of a grown record is that of a field, or another one. -/
theorem Grown.mem_cases (grown : Grown params members) {member : List Char × Value}
    (among : member ∈ members) : (∃ field, member = params.member field) ∨ Extra member := by
  obtain ⟨extras, others, order⟩ := grown
  obtain rfl | rfl | extra := by simpa using order.mem_iff.mp among
  · exact .inl ⟨.iterations, rfl⟩
  · exact .inl ⟨.keyLength, rfl⟩
  · exact .inr (others member extra)

/-- The member of a field is looked up by its key. -/
theorem Grown.lastMember?_eq (grown : Grown params members) (field : Field) :
    lastMember? field.key members = some (params.member field).2 := by
  apply lastMember?_of_mem
  · obtain ⟨extras, _, order⟩ := grown
    rw [order.mem_iff]
    cases field with
    | iterations => exact List.mem_cons_self
    | keyLength => exact List.mem_cons_of_mem _ List.mem_cons_self
  · intro member among named
    obtain ⟨found, rfl⟩ | extra := grown.mem_cases among
    · rw [Field.key_injective named]
      rfl
    · exact absurd named (extra.unknown field)

/-- A grown record gives the parameters. -/
theorem Grown.ofValue_eq (grown : Grown params members) :
    ofValue (.object members) = .ok params := by
  have added (found : Found) (field : Field) : addMember members found field =
      .ok (Found.give ⟨some params.iterations, some params.keyLength⟩ field found) := by
    rw [addMember, grown.lastMember?_eq field]
    exact addValue_member params found field
  simp only [ofValue, added, bind, Except.bind]
  rfl

/-- No field of a grown record comes twice. -/
theorem Grown.not_repeatsField (grown : Grown params members) :
    ¬RepeatsField (.object members) := by
  rintro ⟨same, field, equal, twice⟩
  obtain rfl := Value.object.inj equal
  obtain ⟨extras, others, order⟩ := grown
  have none_among : extras.countP (·.1 = field.key) = 0 := by
    rw [List.countP_eq_zero]
    intro member among
    simpa using (others member among).unknown field
  have differ : Field.keyLength.key ≠ Field.iterations.key := by decide
  rw [order.countP_eq, List.countP_cons, List.countP_cons, none_among] at twice
  cases field with
  | iterations => simp [member, differ] at twice
  | keyLength => simp [member, differ.symm] at twice

/-- A grown record can be kept: the bracket of the object is one more than its members need. -/
theorem Grown.plain (grown : Grown params members) : (Value.object members).Plain depthLimit := by
  apply Value.Plain.object
  intro member among
  obtain ⟨field, rfl⟩ | extra := grown.mem_cases among
  · exact .number (depthLimit - 1) (params.stored_lt field)
  · exact extra.plain

/-! ## Both ways of loading -/

/-- What a value gives without repeating a field, the stream gives as well. -/
theorem ofTokens_of_ofValue {toks : List Token} {value : Value}
    (read : Value.ofTokens toks = .ok value) (given : ofValue value = .ok params)
    (once : ¬RepeatsField value) : ofTokens toks = .ok params := by
  cases streamed : ofTokens toks with
  | error fault => exact absurd (ofTokens_of_error streamed read given).2 once
  | ok other =>
    obtain malformed | ⟨value', read', given'⟩ := ofTokens_of_ok streamed
    · rw [malformed] at read
      contradiction
    · obtain rfl : value' = value := Except.ok.inj (read'.symm.trans read)
      rw [Except.ok.inj (given'.symm.trans given)]

/-- A grown record comes back from every way to write it. -/
theorem Grown.comes_back (grown : Grown params members) {text : String}
    (renders : Renders (Value.object members).tokens text.toList) :
    ofStream text = .ok params ∧ ofTextValue text = .ok params := by
  have read := grown.plain.ofTokens_of_renders renders
  constructor
  · exact ofTokens_of_ofValue read grown.ofValue_eq grown.not_repeatsField
  · exact (ofTextValue_eq_ok_iff text params).mpr ⟨_, read, grown.ofValue_eq⟩

/-- Stored parameters come back unchanged on both ways of loading them. This holds for every text
of an object with the two fields and any other members beside them, in any order and with any blanks
and escapes, and for the stored text itself. -/
theorem stored_params_come_back (params : Params) :
    (∀ members text, Grown params members →
      Renders (Value.object members).tokens text.toList →
      ofStream text = .ok params ∧ ofTextValue text = .ok params) ∧
    ofStream params.toJson = .ok params ∧ ofTextValue params.toJson = .ok params := by
  refine ⟨fun members text grown renders => grown.comes_back renders, ?_⟩
  have grown := grown_stored params
  apply grown.comes_back
  rw [toJson, String.toList_ofList, toValue_eq]
  exact grown.plain.renders_written

end KeyWrapping.Params
