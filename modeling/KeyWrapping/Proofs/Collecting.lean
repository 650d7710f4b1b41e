import KeyWrapping.Params.Json
/-!
# Fields found among members

A reader that takes the members of an object as they come and one that looks them up when all are
there find the same fields, as long as no field comes twice: `Collects` says what the former has
found after some members, and this is what the latter looks up (`Collects.addMember_eq`). An object
that gives parameters has a good value for each field in the last place of its key
(`exists_last_of_ofValue`), so a bad value for a field, or a field that was found before, shows that
its key comes more than once (`repeats_of_bad`, `repeats_of_mem`).
-/

namespace KeyWrapping.Params

open KeyWrapping.Json

/-- Two fields with one name are one field. -/
theorem Field.key_injective {field other : Field} (equal : field.key = other.key) :
    field = other := by
  cases field with
  | iterations =>
    cases other with
    | iterations => rfl
    | keyLength => exact absurd equal (by decide)
  | keyLength =>
    cases other with
    | iterations => exact absurd equal (by decide)
    | keyLength => rfl

/-- A name is the name of a field exactly when the field is found by it. -/
theorem Field.ofKey?_eq_some_iff (key : List Char) (field : Field) :
    Field.ofKey? key = some field ↔ key = field.key := by
  have found (known : Field) (named : key = known.key) :
      some known = some field ↔ key = field.key := by
    rw [Option.some.injEq, named]
    exact ⟨congrArg Field.key, Field.key_injective⟩
  unfold Field.ofKey?
  by_cases first : key = Field.iterations.key
  · rw [if_pos first]
    exact found .iterations first
  · by_cases second : key = Field.keyLength.key
    · rw [if_neg first, if_pos second]
      exact found .keyLength second
    · rw [if_neg first, if_neg second]
      cases field with
      | iterations => simp [first]
      | keyLength => simp [second]

/-- What is not found as a field has the name of none. -/
theorem Field.ne_key_of_ofKey? {key : List Char} (unknown : Field.ofKey? key = none)
    (field : Field) : key ≠ field.key := by
  intro named
  rw [(Field.ofKey?_eq_some_iff key field).mpr named] at unknown
  contradiction

namespace Found

/-- Some fields, with one of them taken from what is found. -/
def give (found : Found) (field : Field) (other : Found) : Found :=
  match field with
  | .iterations => { other with iterations := found.iterations }
  | .keyLength => { other with keyLength := found.keyLength }

/-- A field stays as it is when another one is replaced. -/
theorem has_give_of_ne {field asked : Field} (differ : asked ≠ field) (found other : Found) :
    (found.give field other).has asked = other.has asked := by
  cases field with
  | iterations =>
    cases asked with
    | iterations => contradiction
    | keyLength => rfl
  | keyLength =>
    cases asked with
    | iterations => rfl
    | keyLength => contradiction

/-- A field that was not replaced is given as it was. -/
theorem give_of_ne {field asked : Field} (differ : asked ≠ field) (found other target : Found) :
    (found.give field other).give asked target = other.give asked target := by
  cases field with
  | iterations =>
    cases asked with
    | iterations => contradiction
    | keyLength => rfl
  | keyLength =>
    cases asked with
    | iterations => rfl
    | keyLength => contradiction

/-- Parameters are complete exactly when both fields are found. -/
theorem params_eq_ok_iff (found : Found) (params : Params) :
    found.params = .ok params ↔ found = ⟨some params.iterations, some params.keyLength⟩ := by
  obtain ⟨iterations, keyLength⟩ := found
  cases iterations <;> cases keyLength <;> cases params <;> simp [Found.params]

/-- Where parameters are incomplete a field is missing, and that is a mismatch. -/
theorem missing_of_params {found : Found} {fault : Fault} (incomplete : found.params = .error fault) :
    fault = .mismatch ∧ ∃ field, found.has field = false := by
  obtain ⟨iterations, keyLength⟩ := found
  cases iterations with
  | none => exact ⟨(Except.error.inj incomplete).symm, .iterations, rfl⟩
  | some count =>
    cases keyLength with
    | none => exact ⟨(Except.error.inj incomplete).symm, .keyLength, rfl⟩
    | some size => contradiction

/-- What a field is added from does not depend on what was found before. -/
theorem add_eq {found found' : Found} {field : Field} {value : UInt64}
    (added : found.add field value = .ok found') :
    found'.has field = true ∧ found' = found'.give field found ∧
      ∀ other : Found, other.add field value = .ok (found'.give field other) := by
  cases field with
  | iterations =>
    unfold Found.add at added ⊢
    simp only at added ⊢
    split at added
    · next small =>
      obtain rfl := Except.ok.inj added
      exact ⟨rfl, rfl, fun other => by rw [if_pos small]; rfl⟩
    · contradiction
  | keyLength =>
    obtain rfl := Except.ok.inj added
    exact ⟨rfl, rfl, fun other => rfl⟩

end Found

/-- Only a natural number can be added. -/
theorem exists_natural_of_addNumber {found found' : Found} {field : Field} {form : NumeralForm}
    (added : addNumber found field form = .ok found') :
    ∃ value, form.numeral = .natural value ∧ found.add field value = .ok found' := by
  unfold addNumber at added
  split at added
  · next value natural => exact ⟨value, natural, added⟩
  · contradiction
  · contradiction

/-- Only a number can be added. -/
theorem exists_number_of_addValue {found found' : Found} {field : Field} {value : Value}
    (added : addValue found field value = .ok found') :
    ∃ form, value = .number form ∧ addNumber found field form = .ok found' := by
  cases value with
  | number form =>
    refine ⟨form, rfl, ?_⟩
    change (addNumber found field form).mapError _ = .ok found' at added
    cases taken : addNumber found field form with
    | ok other =>
      rw [taken] at added
      exact added
    | error fault =>
      rw [taken] at added
      contradiction
  | null | bool _ | text _ | array _ | object _ => contradiction

/-- A number that can be added is added alike as a value. -/
theorem addValue_of_addNumber {found found' : Found} {field : Field} {form : NumeralForm}
    (added : addNumber found field form = .ok found') :
    addValue found field (.number form) = .ok found' := by
  rw [addValue, added]
  rfl

/-- What a field is added from does not depend on what was found before. -/
theorem addValue_eq {found found' : Found} {field : Field} {value : Value}
    (added : addValue found field value = .ok found') :
    found'.has field = true ∧ found' = found'.give field found ∧
      ∀ other, addValue other field value = .ok (found'.give field other) := by
  obtain ⟨form, rfl, number⟩ := exists_number_of_addValue added
  obtain ⟨natural, known, given⟩ := exists_natural_of_addNumber number
  obtain ⟨has, kept, others⟩ := Found.add_eq given
  refine ⟨has, kept, ?_⟩
  intro other
  apply addValue_of_addNumber
  rw [addNumber, known]
  exact others other

/-- A value that cannot be added to anything. -/
def Bad (field : Field) (value : Value) : Prop :=
  ∀ found found', addValue found field value ≠ .ok found'

/-- A value that cannot be added to something is bad. -/
theorem bad_of_error {found : Found} {field : Field} {value : Value} {fault : Fault}
    (failed : addValue found field value = .error fault) : Bad field value := by
  intro other found' added
  obtain ⟨_, _, others⟩ := addValue_eq added
  rw [others found] at failed
  contradiction

/-! ## The last member with a key -/

variable {members more : List (List Char × Value)}

/-- The last member that was put in front of a reversed list is the first to be looked up. -/
theorem lastMember?_reverse_cons (asked key : List Char) (value : Value) :
    lastMember? asked ((key, value) :: members).reverse =
      if key = asked then some value else lastMember? asked members.reverse := by
  rw [lastMember?, lastMember?, List.reverse_reverse, List.reverse_reverse, List.find?_cons]
  by_cases same : key = asked
  · simp [same]
  · simp [same]

/-- Members behind, none of which has the key, are not looked up. -/
theorem lastMember?_append {asked : List Char} (others : ∀ member ∈ more, member.1 ≠ asked) :
    lastMember? asked (members ++ more) = lastMember? asked members := by
  have unfound : more.reverse.find? (·.1 = asked) = none := by
    rw [List.find?_eq_none]
    intro member among
    simpa using others member (List.mem_reverse.mp among)
  rw [lastMember?, lastMember?, List.reverse_append, List.find?_append, unfound, Option.none_or]

/-- What is looked up is among the members. -/
theorem mem_of_lastMember? {asked : List Char} {value : Value}
    (last : lastMember? asked members = some value) : ∃ member ∈ members, member.1 = asked := by
  obtain ⟨member, found, _⟩ := Option.map_eq_some_iff.mp last
  have named := List.find?_some found
  exact ⟨member, List.mem_reverse.mp (List.mem_of_find?_eq_some found), by simpa using named⟩

/-- An object that gives parameters has a good value in the last place of every field. -/
theorem exists_last_of_ofValue {params : Params} (given : ofValue (.object members) = .ok params)
    (field : Field) : ∃ value, lastMember? field.key members = some value ∧ ¬Bad field value := by
  have good {found found' : Found} (added : addMember members found field = .ok found') :
      ∃ value, lastMember? field.key members = some value ∧ ¬Bad field value := by
    unfold addMember at added
    split at added
    · next value last => exact ⟨value, last, fun bad => bad found found' added⟩
    · contradiction
  simp only [ofValue, bind, Except.bind] at given
  split at given
  · contradiction
  · next found first =>
    split at given
    · contradiction
    · next found' second =>
      cases field with
      | iterations => exact good first
      | keyLength => exact good second

/-- An object without a field gives no parameters. -/
theorem ofValue_ne_of_missing {field : Field} (missing : ∀ member ∈ members, member.1 ≠ field.key)
    (params : Params) : ofValue (.object members) ≠ .ok params := by
  intro given
  obtain ⟨value, last, _⟩ := exists_last_of_ofValue given field
  obtain ⟨member, among, named⟩ := mem_of_lastMember? last
  exact missing member among named

/-! ## Fields that come more than once -/

/-- A value is an object in which the key of a field comes more than once. -/
def RepeatsField (value : Value) : Prop :=
  ∃ members field, value = .object members ∧ 1 < members.countP (·.1 = Field.key field)

/-- A key that comes before and after a place comes more than once. -/
theorem one_lt_countP {key : List Char} (before : ∃ member ∈ members, member.1 = key)
    (after : ∃ member ∈ more, member.1 = key) : 1 < (members ++ more).countP (·.1 = key) := by
  have counted {list : List (List Char × Value)} (among : ∃ member ∈ list, member.1 = key) :
      0 < list.countP (·.1 = key) := by
    obtain ⟨member, listed, named⟩ := among
    exact List.countP_pos_iff.mpr ⟨member, listed, by simpa using named⟩
  have first := counted before
  have second := counted after
  rw [List.countP_append]
  omega

/-- An object that gives parameters in spite of a bad value for a field has the field again. -/
theorem repeats_of_bad {field : Field} {value : Value} (bad : Bad field value) {params : Params}
    (given : ofValue (.object (((field.key, value) :: members).reverse ++ more)) = .ok params) :
    RepeatsField (.object (((field.key, value) :: members).reverse ++ more)) := by
  refine ⟨_, field, rfl, ?_⟩
  by_cases again : ∃ member ∈ more, member.1 = field.key
  · exact one_lt_countP ⟨(field.key, value), by simp, rfl⟩ again
  · have others : ∀ member ∈ more, member.1 ≠ field.key := by
      intro member among named
      exact again ⟨member, among, named⟩
    obtain ⟨found, last, good⟩ := exists_last_of_ofValue given field
    rw [lastMember?_append others, lastMember?_reverse_cons, if_pos rfl, Option.some.injEq] at last
    exact absurd (last ▸ bad) good

/-- A member with a field that was found before repeats it. -/
theorem repeats_of_mem {field : Field} (value : Value)
    (found : ∃ member ∈ members, member.1 = field.key) :
    RepeatsField (.object (((field.key, value) :: members).reverse ++ more)) := by
  refine ⟨_, field, rfl, ?_⟩
  obtain ⟨member, among, named⟩ := found
  rw [List.reverse_cons, List.append_assoc]
  exact one_lt_countP ⟨member, List.mem_reverse.mpr among, named⟩
    ⟨(field.key, value), by simp, rfl⟩

/-! ## What is found on the way -/

/-- The fields that a reader has found after some members, the last first: every field at most
once, and whatever has another key is passed over. -/
inductive Collects : Found → List (List Char × Value) → Prop where
  /-- Nothing has been read. -/
  | none : Collects .none []
  /-- A field comes for the first time. -/
  | field {found found' : Found} {members : List (List Char × Value)} {field : Field}
    {value : Value} (before : Collects found members) (first : found.has field = false)
    (added : addValue found field value = .ok found') :
    Collects found' ((field.key, value) :: members)
  /-- Another member comes. -/
  | other {found : Found} {members : List (List Char × Value)} {key : List Char}
    (before : Collects found members) (unknown : Field.ofKey? key = .none) (value : Value) :
    Collects found ((key, value) :: members)

/-- A field is found exactly when its key is among the members. -/
theorem Collects.has_iff {found : Found} (collects : Collects found members) (field : Field) :
    found.has field = true ↔ ∃ member ∈ members, member.1 = field.key := by
  induction collects with
  | none => cases field <;> simp [Found.none, Found.has]
  | @field found found' members known value before first added ih =>
    obtain ⟨has, kept, _⟩ := addValue_eq added
    by_cases same : field = known
    · rw [same, has]
      simp
    · have differ : known.key ≠ field.key := fun equal => same (Field.key_injective equal).symm
      rw [kept, Found.has_give_of_ne same, ih]
      simp [differ]
  | @other found members key before unknown value ih =>
    have differ := Field.ne_key_of_ofKey? unknown field
    rw [ih]
    simp [differ]

/-- What is found on the way is what is looked up in the end. -/
theorem Collects.addMember_eq {found : Found} (collects : Collects found members) {field : Field}
    (has : found.has field = true) (target : Found) :
    addMember members.reverse target field = .ok (found.give field target) := by
  induction collects with
  | none => cases field <;> contradiction
  | @field found found' members known value before first added ih =>
    obtain ⟨_, kept, others⟩ := addValue_eq added
    rw [addMember, lastMember?_reverse_cons]
    by_cases same : known = field
    · rw [same, if_pos rfl]
      exact same ▸ others target
    · have differ : known.key ≠ field.key := fun equal => same (Field.key_injective equal)
      rw [kept, Found.has_give_of_ne (Ne.symm same)] at has
      rw [if_neg differ, kept, Found.give_of_ne (Ne.symm same)]
      exact ih has
  | @other found members key before unknown value ih =>
    rw [addMember, lastMember?_reverse_cons, if_neg (Field.ne_key_of_ofKey? unknown field)]
    exact ih has

/-- What is found and complete is what the object gives. -/
theorem Collects.ofValue_eq {found : Found} {params : Params} (collects : Collects found members)
    (complete : found.params = .ok params) : ofValue (.object members.reverse) = .ok params := by
  obtain rfl := (Found.params_eq_ok_iff found params).mp complete
  rw [ofValue, collects.addMember_eq rfl]
  change (addMember members.reverse _ .keyLength >>= Found.params) = _
  rw [collects.addMember_eq rfl]
  rfl

/-- Where a field is missing the object gives nothing. -/
theorem Collects.ofValue_ne {found : Found} {fault : Fault} (collects : Collects found members)
    (incomplete : found.params = .error fault) (params : Params) :
    ofValue (.object members.reverse) ≠ .ok params := by
  obtain ⟨_, field, missing⟩ := Found.missing_of_params incomplete
  apply ofValue_ne_of_missing
  intro member among named
  have has := (collects.has_iff field).mpr ⟨member, List.mem_reverse.mp among, named⟩
  rw [missing] at has
  contradiction

end KeyWrapping.Params
