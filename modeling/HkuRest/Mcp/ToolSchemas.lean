import HkuRest.Mcp.ToolDescriptions

/-! The schemas in a description that is accepted. The checks reach every schema of an object's
property and of an array's items, to any depth; but the names of the types are compared with the
valid ones for the properties of `inputSchema` only. -/

namespace Hku.McpService

open McpHandle (key)
open Checks (accepted rejected each Settles ite_isSome)

variable {tool schema outer : Json} {fuel more : Nat} {name noObject noType : Bytes}
  {next further : Bytes → Checks Bytes}

/-- The schema of a property of an object, or of the items of an array. -/
inductive Child (outer : Json) : Json → Prop
  | property {members : List (Bytes × Json)} {name : Bytes} {schema : Json}
      (object : typeOf outer = some (key "object"))
      (found : outer.find (key "properties") = some (.object members))
      (member : (name, schema) ∈ members) : Child outer schema
  | items {schema : Json} (array : typeOf outer = some (key "array"))
      (found : outer.find (key "items") = some schema) : Child outer schema

/-- The schema of a property of `inputSchema`. -/
def Top (tool schema : Json) : Prop :=
  ∃ input members name, tool.find (key "inputSchema") = some input ∧
    input.find (key "properties") = some (.object members) ∧ (name, schema) ∈ members

/-- A schema within these, at any depth. -/
inductive Nested (tool : Json) : Json → Prop
  | first {outer schema : Json} : Top tool outer → Child outer schema → Nested tool schema
  | deeper {outer schema : Json} : Nested tool outer → Child outer schema → Nested tool schema

structure WellFormed (schema : Json) : Prop where
  object : schema.isObject = true
  type : ∃ name ∈ typeNames, typeOf schema = some name
  items : typeOf schema = some (key "array") → (schema.find (key "items")).isSome = true

/-- What an accepted description is meant to be. -/
def Sound (tool : Json) : Prop := ∀ schema, Top tool schema ∨ Nested tool schema → WellFormed schema

/-- No type of a nested schema is misspelled. -/
def NestedTypesValid (tool : Json) : Prop :=
  ∀ schema name, Nested tool schema → typeOf schema = some name → name ∈ typeNames

theorem withType_accepted_iff : withType schema noObject noType next = accepted ↔
    schema.isObject = true ∧ ∃ name, typeOf schema = some name ∧ next name = accepted := by
  unfold withType
  cases schema.isObject with
  | false => simp
  | true => cases typeOf schema <;> simp

theorem withType_isSome (ended : ∀ name, typeOf schema = some name → (next name).isSome = true) :
    (withType schema noObject noType next).isSome = true := by
  unfold withType
  split
  · cases typed : typeOf schema with
    | none => rfl
    | some name => exact ended name typed
  · rfl

theorem settles_withType (steps : ∀ name, Settles (next name) (further name)) :
    Settles (withType schema noObject noType next) (withType schema noObject noType further) := by
  unfold withType
  split
  · cases typeOf schema with
    | none => exact .refl _
    | some name => exact steps name
  · exact .refl _

/-- A schema that the recursion has come to and has let pass. -/
structure Passed (schema : Json) : Prop where
  object : schema.isObject = true
  typed : ∃ name, typeOf schema = some name
  properties : typeOf schema = some (key "object") →
    ∃ fuel name, validateNestedObjectProperty fuel name schema = accepted
  items : typeOf schema = some (key "array") →
    ∃ fuel name, validateArrayProperty fuel name schema = accepted

theorem array_or_object {type : Bytes} (array object other : Checks Bytes) :
    (if type = key "array" then array else if type = key "object" then object else other) =
      if type = key "object" then object else if type = key "array" then array else other := by
  by_cases isArray : type = key "array"
  · subst isArray
    rfl
  · rw [if_neg isArray, if_neg isArray]

theorem passed_of_calls {type : Bytes} (object : schema.isObject = true) (typed : typeOf schema = some type)
    (calls : (if type = key "object" then validateNestedObjectProperty fuel name schema
      else if type = key "array" then validateArrayProperty fuel name schema else accepted) = accepted) :
    Passed schema := by
  have apart : key "array" ≠ key "object" := by decide
  refine ⟨object, ⟨type, typed⟩, ?_, ?_⟩
  · intro isObject
    obtain rfl := Option.some.inj (typed.symm.trans isObject)
    rw [if_pos rfl] at calls
    exact ⟨fuel, name, calls⟩
  · intro isArray
    obtain rfl := Option.some.inj (typed.symm.trans isArray)
    rw [if_neg apart, if_pos rfl] at calls
    exact ⟨fuel, name, calls⟩

theorem passed_property {members : List (Bytes × Json)} {property : Bytes × Json}
    (passes : validateNestedObjectProperty fuel name outer = accepted)
    (found : outer.find (key "properties") = some (.object members)) (member : property ∈ members) :
    Passed property.2 := by
  cases fuel with
  | zero => cases passes
  | succ fuel =>
    rw [validateNestedObjectProperty, found] at passes
    obtain ⟨object, type, typed, calls⟩ :=
      withType_accepted_iff.mp (Checks.each_accepted_iff.mp passes property member)
    exact passed_of_calls object typed calls

theorem passed_items (passes : validateArrayProperty fuel name outer = accepted) :
    ∃ items, outer.find (key "items") = some items ∧ Passed items := by
  cases fuel with
  | zero => cases passes
  | succ fuel =>
    rw [validateArrayProperty] at passes
    cases found : outer.find (key "items") with
    | none => simp [found] at passes
    | some items =>
      rw [found] at passes
      obtain ⟨object, type, typed, calls⟩ := withType_accepted_iff.mp passes
      exact ⟨items, rfl, passed_of_calls object typed calls⟩

theorem Passed.child (passed : Passed outer) (child : Child outer schema) : Passed schema := by
  cases child with
  | property object found member =>
    obtain ⟨fuel, name, passes⟩ := passed.properties object
    exact passed_property passes found member
  | items array found =>
    obtain ⟨fuel, name, passes⟩ := passed.items array
    obtain ⟨items, same, passed⟩ := passed_items passes
    rw [found, Option.some.injEq] at same
    rwa [same]

theorem Passed.array_items (passed : Passed schema) (array : typeOf schema = some (key "array")) :
    (schema.find (key "items")).isSome = true := by
  obtain ⟨fuel, name, passes⟩ := passed.items array
  obtain ⟨items, found, -⟩ := passed_items passes
  rw [found]
  rfl

theorem validateProperty_accepted {property : Bytes × Json}
    (passes : validateProperty fuel property = accepted) :
    Passed property.2 ∧ ∃ name ∈ typeNames, typeOf property.2 = some name := by
  obtain ⟨object, type, typed, checks⟩ := withType_accepted_iff.mp passes
  obtain ⟨valid, checks⟩ : type ∈ typeNames ∧ _ := by
    split at checks
    · rename_i known
      exact ⟨by simpa using known, checks⟩
    · simp at checks
  obtain ⟨calls, -⟩ := Checks.andThen_accepted_iff.mp checks
  rw [array_or_object] at calls
  exact ⟨passed_of_calls object typed calls, type, valid, typed⟩

theorem top_accepted (passes : validate fuel tool = accepted) (top : Top tool schema) :
    Passed schema ∧ ∃ name ∈ typeNames, typeOf schema = some name := by
  obtain ⟨input, members, name, described, found, member⟩ := top
  obtain ⟨-, checks⟩ := Checks.andThen_accepted_iff.mp passes
  have filled : members ≠ [] := List.ne_nil_of_mem member
  simp only [validateInputSchema, described, Option.getD_some, found, if_neg filled] at checks
  split at checks
  · simp at checks
  · obtain ⟨properties, -⟩ := Checks.andThen_accepted_iff.mp checks
    exact validateProperty_accepted (Checks.each_accepted_iff.mp properties _ member)

theorem nested_accepted (passes : validate fuel tool = accepted) (nested : Nested tool schema) :
    Passed schema := by
  induction nested with
  | first top child => exact (top_accepted passes top).1.child child
  | deeper _ child ih => exact ih.child child

/-- An accepted description is what it is meant to be but for misspelled types in nested schemas. -/
theorem sound_iff (passes : validate fuel tool = accepted) : Sound tool ↔ NestedTypesValid tool := by
  constructor
  · intro sound schema name nested typed
    obtain ⟨valid, known, same⟩ := (sound schema (.inr nested)).type
    rw [typed, Option.some.injEq] at same
    rwa [same]
  · intro valid schema reached
    rcases reached with top | nested
    · obtain ⟨passed, type⟩ := top_accepted passes top
      exact ⟨passed.object, type, passed.array_items⟩
    · have passed := nested_accepted passes nested
      obtain ⟨name, typed⟩ := passed.typed
      exact ⟨passed.object, ⟨name, valid schema name nested typed, typed⟩, passed.array_items⟩

theorem sizeOf_find {json value : Json} (found : json.find name = some value) :
    sizeOf value < sizeOf json := by
  cases json with
  | object members =>
    obtain ⟨member, held, rfl⟩ := Option.map_eq_some_iff.mp found
    have smaller := List.sizeOf_lt_of_mem (List.mem_of_find?_eq_some held)
    obtain ⟨key, value⟩ := member
    simp only [Prod.mk.sizeOf_spec, Json.object.sizeOf_spec] at smaller ⊢
    omega
  | _ => cases found

theorem sizeOf_property {members : List (Bytes × Json)} {property : Bytes × Json}
    (found : outer.find name = some (.object members)) (member : property ∈ members) :
    sizeOf property.2 < sizeOf outer := by
  have whole := sizeOf_find found
  have smaller := List.sizeOf_lt_of_mem member
  obtain ⟨key, value⟩ := property
  simp only [Prod.mk.sizeOf_spec, Json.object.sizeOf_spec] at smaller whole ⊢
  omega

/-- Each call is for a schema that is smaller. -/
theorem calls_isSome (name : Bytes) (enough : sizeOf schema < fuel) :
    (validateArrayProperty fuel name schema).isSome = true ∧
      (validateNestedObjectProperty fuel name schema).isSome = true := by
  induction fuel generalizing schema name with
  | zero => exact absurd enough (Nat.not_lt_zero _)
  | succ fuel ih =>
    constructor
    · rw [validateArrayProperty]
      cases found : schema.find (key "items") with
      | none => rfl
      | some items =>
        have smaller := sizeOf_find found
        refine withType_isSome fun type _ => ?_
        exact ite_isSome (ih _ (by omega)).2 (ite_isSome (ih _ (by omega)).1 rfl)
    · rw [validateNestedObjectProperty]
      split
      · rfl
      · rename_i nestedProperties found
        refine Checks.each_isSome fun property member => ?_
        have smaller := sizeOf_property found member
        refine withType_isSome fun type _ => ?_
        exact ite_isSome (ih _ (by omega)).2 (ite_isSome (ih _ (by omega)).1 rfl)
      · rfl

theorem calls_settle (enough : fuel ≤ more) (name : Bytes) (schema : Json) :
    Settles (validateArrayProperty fuel name schema) (validateArrayProperty more name schema) ∧
      Settles (validateNestedObjectProperty fuel name schema)
        (validateNestedObjectProperty more name schema) := by
  induction fuel generalizing more name schema with
  | zero =>
    rw [validateArrayProperty, validateNestedObjectProperty]
    exact ⟨.none _, .none _⟩
  | succ fuel ih =>
    obtain ⟨further, rfl⟩ := Nat.exists_eq_add_of_le enough
    rw [Nat.add_right_comm]
    have inner (name : Bytes) (schema : Json) := ih (Nat.le_add_right fuel further) name schema
    simp only [validateArrayProperty, validateNestedObjectProperty]
    constructor
    · cases schema.find (key "items") with
      | none => exact .refl _
      | some items =>
        refine settles_withType fun type => ?_
        exact .ite (inner _ items).2 (.ite (inner _ items).1 (.refl _))
    · split
      · exact .refl _
      · refine .each fun property _ => settles_withType fun type => ?_
        exact .ite (inner _ property.2).2 (.ite (inner _ property.2).1 (.refl _))
      · exact .refl _

theorem validate_settles (enough : fuel ≤ more) (tool : Json) :
    Settles (validate fuel tool) (validate more tool) := by
  refine .andThen (.refl _) ?_
  unfold validateInputSchema
  refine .ite (.refl _) ?_
  split
  · refine .ite (.refl _) (.andThen (.each fun property _ => ?_) (.refl _))
    have calls := calls_settle enough property.1 property.2
    refine settles_withType fun type => .ite (.andThen ?_ (.refl _)) (.refl _)
    exact .ite calls.1 (.ite calls.2 (.refl _))
  · exact .refl _

theorem validateProperty_isSome {property : Bytes × Json} (enough : sizeOf property.2 < fuel) :
    (validateProperty fuel property).isSome = true := by
  have calls := calls_isSome property.1 enough
  refine withType_isSome fun type _ => ite_isSome (Checks.andThen_isSome ?_ (ite_isSome rfl rfl)) rfl
  exact ite_isSome calls.1 (ite_isSome calls.2 rfl)

theorem validateRequired_isSome (properties : List (Bytes × Json)) (required : Json) :
    (validateRequired properties required).isSome = true := by
  unfold validateRequired
  split
  · split <;> rfl
  · rfl

theorem validateRequiredFields_isSome (tool : Json) : (validateRequiredFields tool).isSome = true := by
  simp only [validateRequiredFields]
  split
  · rfl
  · split
    · rfl
    · split
      · rfl
      · split <;> rfl

theorem validate_isSome (tool : Json) : (validate (sizeOf tool) tool).isSome = true := by
  refine Checks.andThen_isSome (validateRequiredFields_isSome tool) ?_
  simp only [validateInputSchema]
  split
  · rfl
  · split
    · rename_i properties found
      have smaller : ∀ property ∈ properties, sizeOf property.2 < sizeOf tool := by
        intro property member
        cases described : tool.find (key "inputSchema") with
        | none =>
          rw [described] at found
          cases found
        | some input =>
          rw [described] at found
          exact (sizeOf_property found member).trans (sizeOf_find described)
      split
      · rfl
      · refine Checks.andThen_isSome (Checks.each_isSome fun property member => ?_)
          (Checks.andThen_isSome ?_ ?_)
        · exact validateProperty_isSome (smaller property member)
        · split
          · rfl
          · exact Checks.each_isSome fun required _ => validateRequired_isSome properties required
          · rfl
        · split <;> rfl
    · rfl

theorem addToolDescription_eq_ok {stored after : List Json} :
    addToolDescription fuel stored tool = some (.ok after) ↔
      validate fuel tool = accepted ∧ after = stored ++ [tool] := by
  unfold addToolDescription
  rcases validate fuel tool with _ | (_ | _) <;> simp [Except.map, accepted, eq_comm]

/-- The validation ends for every description, and does not depend on the fuel then. One that is
accepted has only schemas of a valid type, arrays with their items, exactly when no type of a
nested schema is misspelled. -/
theorem addToolDescription_sound_iff (stored : List Json) (description : Json) :
    (∃ fuel result, ∀ more ≥ fuel, addToolDescription more stored description = some result) ∧
      ∀ fuel after, addToolDescription fuel stored description = some (.ok after) →
        (Sound description ↔ NestedTypesValid description) := by
  constructor
  · obtain ⟨verdict, ended⟩ := Option.isSome_iff_exists.mp (validate_isSome description)
    refine ⟨sizeOf description, verdict.map fun () => stored ++ [description], ?_⟩
    intro more enough
    rw [addToolDescription, validate_settles enough description (by rw [ended]; rfl), ended, Option.map_some]
  · intro fuel after added
    exact sound_iff (addToolDescription_eq_ok.mp added).1

/-- What `required` and `additionalProperties` are meant to be. -/
structure MembersValid (input : Json) : Prop where
  required : ∀ value, input.find (key "required") = some value →
    ∃ fields : List Bytes, value = .array (fields.map .string) ∧
      ∀ field ∈ fields, ∃ properties schema,
        input.find (key "properties") = some (.object properties) ∧ (field, schema) ∈ properties
  additional : ∀ value, input.find (key "additionalProperties") = some value →
    (∃ flag, value = .boolean flag) ∨ value.isObject = true

/-- The two members are left out, or are what they may be without any property. -/
def Harmless (input : Json) : Prop :=
  (∀ value, input.find (key "required") = some value → value = .array []) ∧
    ∀ value, input.find (key "additionalProperties") = some value →
      (∃ flag, value = .boolean flag) ∨ value.isObject = true

theorem validateRequired_accepted_iff {properties : List (Bytes × Json)} {required : Json} :
    validateRequired properties required = accepted ↔
      ∃ field schema, required = .string field ∧ (field, schema) ∈ properties := by
  cases required with
  | string field =>
    simp only [validateRequired]
    split
    · rename_i held
      obtain ⟨⟨name, schema⟩, member, same⟩ := List.any_eq_true.mp held
      have same : name = field := of_decide_eq_true same
      simp only [true_iff]
      exact ⟨field, schema, rfl, same ▸ member⟩
    · rename_i missing
      simp only [Checks.rejected_ne_accepted, false_iff]
      rintro ⟨name, schema, same, member⟩
      cases same
      exact missing (List.any_eq_true.mpr ⟨_, member, decide_eq_true rfl⟩)
  | _ => simp [validateRequired]

theorem each_required {properties : List (Bytes × Json)} {items : List Json}
    (passes : each items (validateRequired properties) = accepted) :
    ∃ fields : List Bytes, items = fields.map .string ∧
      ∀ field ∈ fields, ∃ schema, (field, schema) ∈ properties := by
  induction items with
  | nil => exact ⟨[], rfl, by simp⟩
  | cons item items ih =>
    obtain ⟨here, others⟩ := Checks.andThen_accepted_iff.mp passes
    obtain ⟨field, schema, rfl, member⟩ := validateRequired_accepted_iff.mp here
    obtain ⟨fields, rfl, defined⟩ := ih others
    exact ⟨field :: fields, rfl, List.forall_mem_cons.mpr ⟨⟨schema, member⟩, defined⟩⟩

theorem membersValid_of_property {input : Json} {properties : List (Bytes × Json)}
    (passes : validate fuel tool = accepted) (described : tool.find (key "inputSchema") = some input)
    (found : input.find (key "properties") = some (.object properties)) (filled : properties ≠ []) :
    MembersValid input := by
  obtain ⟨-, checks⟩ := Checks.andThen_accepted_iff.mp passes
  simp only [validateInputSchema, described, Option.getD_some, found, if_neg filled] at checks
  split at checks
  · simp at checks
  obtain ⟨-, checks⟩ := Checks.andThen_accepted_iff.mp checks
  obtain ⟨required, additional⟩ := Checks.andThen_accepted_iff.mp checks
  constructor
  · intro value written
    rw [written] at required
    cases value with
    | array items =>
      obtain ⟨fields, rfl, defined⟩ := each_required required
      refine ⟨fields, rfl, fun field member => ?_⟩
      obtain ⟨schema, held⟩ := defined field member
      exact ⟨properties, schema, found, held⟩
    | _ => simp at required
  · intro value written
    rw [written] at additional
    cases value with
    | boolean flag => exact .inl ⟨flag, rfl⟩
    | object members => exact .inr rfl
    | _ => simp at additional

theorem membersValid_empty_iff {input : Json}
    (empty : input.find (key "properties") = some (.object [])) : MembersValid input ↔ Harmless input := by
  constructor
  · intro valid
    refine ⟨fun value written => ?_, valid.additional⟩
    obtain ⟨fields, rfl, defined⟩ := valid.required value written
    cases fields with
    | nil => rfl
    | cons field fields =>
      obtain ⟨properties, schema, found, member⟩ := defined field List.mem_cons_self
      rw [empty, Option.some.injEq, Json.object.injEq] at found
      subst found
      cases member
  · intro harmless
    refine ⟨fun value written => ⟨[], harmless.1 value written, by simp⟩, harmless.2⟩

theorem accepted_properties (passes : validate fuel tool = accepted) :
    ∃ input properties, tool.find (key "inputSchema") = some input ∧
      input.find (key "properties") = some (.object properties) := by
  obtain ⟨fields, checks⟩ := Checks.andThen_accepted_iff.mp passes
  cases described : tool.find (key "inputSchema") with
  | none =>
    simp only [validateRequiredFields, described] at fields
    split at fields
    · simp at fields
    · split at fields <;> simp at fields
  | some input =>
    simp only [validateInputSchema, described, Option.getD_some] at checks
    split at checks
    · simp at checks
    · split at checks
      · rename_i properties found
        exact ⟨input, properties, rfl, found⟩
      · simp at checks

/-- An accepted description has `required` and `additionalProperties` as they are meant to be
exactly when it has a property, or has nothing there that would be refused beside one. -/
theorem addToolDescription_members_iff (fuel : Nat) (stored after : List Json) (description : Json)
    (added : addToolDescription fuel stored description = some (.ok after)) :
    ∃ input properties, description.find (key "inputSchema") = some input ∧
      input.find (key "properties") = some (.object properties) ∧
        (MembersValid input ↔ properties ≠ [] ∨ Harmless input) := by
  have passes := (addToolDescription_eq_ok.mp added).1
  obtain ⟨input, properties, described, found⟩ := accepted_properties passes
  refine ⟨input, properties, described, found, ?_⟩
  by_cases empty : properties = []
  · subst empty
    simp [membersValid_empty_iff found]
  · exact iff_of_true (membersValid_of_property passes described found empty) (.inl empty)

/-- A description with one property. -/
def describe (property : Json) : Json :=
  .object
    [(key "name", .string (key "sum")), (key "description", .string (key "Adds numbers")),
      (key "inputSchema", .object
        [(key "type", .string (key "object")), (key "properties", .object [(key "numbers", property)])])]

def ofType (type : Bytes) : Json := .object [(key "type", .string type)]

def numbers : Json := .object [(key "type", .string (key "array")), (key "items", ofType (key "number"))]

/-- Nothing is misspelled in a list of numbers. -/
theorem addToolDescription_sound_iff_numbers :
    ∃ after, addToolDescription 2 [] (describe numbers) = some (.ok after) ∧
      (Sound (describe numbers) ↔ NestedTypesValid (describe numbers)) := by
  have added : addToolDescription 2 [] (describe numbers) = some (.ok [describe numbers]) := by
    rfl
  exact ⟨_, added, (addToolDescription_sound_iff [] (describe numbers)).2 2 _ added⟩

/-- A list of `numbr` is accepted. -/
theorem misspelled_items_accepted :
    ¬ ∀ fuel stored after description, addToolDescription fuel stored description = some (.ok after) →
      Sound description := by
  intro sound
  let misspelled : Json :=
    .object [(key "type", .string (key "array")), (key "items", ofType (key "numbr"))]
  have added : addToolDescription 2 [] (describe misspelled) = some (.ok [describe misspelled]) := by
    rfl
  have top : Top (describe misspelled) misspelled :=
    ⟨_, [(key "numbers", misspelled)], key "numbers", rfl, rfl, List.mem_singleton.mpr rfl⟩
  have nested : Nested (describe misspelled) (ofType (key "numbr")) := .first top (.items rfl rfl)
  obtain ⟨name, known, same⟩ := (sound 2 [] _ (describe misspelled) added _ (.inr nested)).type
  have written : typeOf (ofType (key "numbr")) = some (key "numbr") := rfl
  rw [written, Option.some.injEq] at same
  subst same
  exact absurd known (by decide)

theorem addToolDescription_members_iff_numbers :
    ∃ after, addToolDescription 2 [] (describe numbers) = some (.ok after) ∧
      ∃ input properties, (describe numbers).find (key "inputSchema") = some input ∧
        input.find (key "properties") = some (.object properties) ∧
          (MembersValid input ↔ properties ≠ [] ∨ Harmless input) := by
  have added : addToolDescription 2 [] (describe numbers) = some (.ok [describe numbers]) := by
    rfl
  exact ⟨_, added, addToolDescription_members_iff 2 [] _ (describe numbers) added⟩

/-- A tool without parameters, of which one is required. -/
def parameterless : Json :=
  .object
    [(key "description", .string (key "The time")),
      (key "inputSchema", .object
        [(key "additionalProperties", .integer 5), (key "properties", .object []),
          (key "required", .array [.string (key "zone")]), (key "type", .string (key "object"))]),
      (key "name", .string (key "now"))]

/-- Neither that `zone` is no property nor that 5 is no schema is noticed. -/
theorem parameterless_accepted :
    ¬ ∀ fuel stored after description input,
      addToolDescription fuel stored description = some (.ok after) →
        description.find (key "inputSchema") = some input → MembersValid input := by
  intro valid
  have added : addToolDescription 0 [] parameterless = some (.ok [parameterless]) := by
    rfl
  obtain ⟨required, -⟩ := valid 0 [] _ parameterless _ added rfl
  obtain ⟨fields, written, defined⟩ := required _ rfl
  cases fields with
  | nil => cases written
  | cons field fields =>
    obtain ⟨properties, schema, found, member⟩ := defined field List.mem_cons_self
    obtain rfl : [] = properties := Json.object.inj (Option.some.inj found)
    cases member

end Hku.McpService
