import HkuRest.Mcp.ToolSchemas

/-! The descriptions of tools, prompts and resources that an `McpService` lists, and the functions
that add several of them: to each belong an overload for a vector and one for a JSON value. -/

namespace Hku

namespace Json

/-- What a loop over a value goes through. -/
def elements : Json → List Json
  | .null => []
  | .array items => items
  | .object members => members.map Prod.snd
  | scalar => [scalar]

def isArray : Json → Bool
  | .array _ => true
  | _ => false

def isString : Json → Bool
  | .string _ => true
  | _ => false

def isBoolean : Json → Bool
  | .boolean _ => true
  | _ => false

/-- The member is a string, and not the empty one. -/
def filled (name : Bytes) (json : Json) : Bool := (json.text name).any (· ≠ [])

/-- The member is of the kind, or there is none. -/
def optional (name : Bytes) (kind : Json → Bool) (json : Json) : Bool := (json.find name).all kind

end Json

namespace McpService

open McpHandle (key)
open Checks (accepted rejected each)

def validatePromptDescriptionFields (description : Json) : Checks Bytes :=
  if !description.filled (key "name") then
    rejected (Bytes.ascii "Field 'name' is required and must be a non-empty string.")
  else if !description.filled (key "description") then
    rejected (Bytes.ascii "Field 'description' is required and must be a non-empty string.")
  else if !description.optional (key "arguments") Json.isArray then
    rejected (Bytes.ascii "Field 'arguments' must be an array if present.")
  else accepted

/-- The checks of an argument and its index. -/
def validatePromptArgument : Json × Nat → Checks Bytes
  | (arg, index) =>
      let name := (arg.text (key "name")).getD []
      if !arg.isObject then
        rejected (Bytes.ascii "Argument at index " ++ Bytes.decimal index ++
          Bytes.ascii " must be a JSON object.")
      else if !arg.filled (key "name") then
        rejected (Bytes.ascii "Argument at index " ++ Bytes.decimal index ++
          Bytes.ascii " must have a non-empty 'name' field.")
      else if !arg.optional (key "description") Json.isString then
        rejected (Bytes.ascii "Argument '" ++ name ++ Bytes.ascii "' description must be a string.")
      else if !arg.optional (key "required") Json.isBoolean then
        rejected (Bytes.ascii "Argument '" ++ name ++ Bytes.ascii "' required field must be a boolean.")
      else accepted

def validatePromptArguments (description : Json) : Checks Bytes :=
  match description.find (key "arguments") with
  | none => accepted
  | some arguments => each arguments.elements.zipIdx validatePromptArgument

def validatePrompt (description : Json) : Checks Bytes :=
  (validatePromptDescriptionFields description).andThen (validatePromptArguments description)

def validateResource (resource : Json) : Checks Bytes :=
  if !resource.filled (key "uri") then
    rejected (Bytes.ascii "Field 'uri' is required and must be a non-empty string.")
  else if !resource.filled (key "name") then
    rejected (Bytes.ascii "Field 'name' is required and must be a non-empty string.")
  else if !resource.optional (key "description") Json.isString then
    rejected (Bytes.ascii "Field 'description' must be a string if present.")
  else if !resource.optional (key "mimeType") Json.isString then
    rejected (Bytes.ascii "Field 'mimeType' must be a string if present.")
  else accepted

/-- A function that adds to the descriptions: they afterwards, or what is thrown. -/
abbrev Add := List Json → Json → Option (Except Bytes (List Json))

/-- What is added if the checks pass. -/
def addIf (validate : Json → Checks Bytes) : Add :=
  fun stored description => (validate description).map fun verdict =>
    verdict.map fun () => stored ++ [description]

def addPrompt : Add := addIf validatePrompt

def addResource : Add := addIf validateResource

/-- How a call ends, and the descriptions it leaves. -/
abbrev Added := Checks Bytes × List Json

/-- The loop of an overload. -/
def addEach (add : Add) : List Json → List Json → Added
  | [], stored => (accepted, stored)
  | description :: rest, stored =>
      match add stored description with
      | none => (none, stored)
      | some (.error message) => (rejected message, stored)
      | some (.ok after) => addEach add rest after

/-- `CLS_CHECK`: it throws unless the condition is true. -/
def clsCheck (condition : Bool) (message : String) (stored : List Json) (next : Added) : Added :=
  if condition then next else (rejected (Bytes.ascii message), stored)

/-- The overloads of one function for the elements of a vector. -/
def addToolDescriptions (fuel : Nat) (descriptions stored : List Json) : Added :=
  addEach (addToolDescription fuel) descriptions stored

def addPrompts (descriptions stored : List Json) : Added := addEach addPrompt descriptions stored

def addResources (descriptions stored : List Json) : Added := addEach addResource descriptions stored

def addToolDescriptionsJson (fuel : Nat) (descriptionArray : Json) (stored : List Json) : Added :=
  clsCheck (!descriptionArray.isArray) "addToolDescriptions requires a JSON array" stored
    (addEach (addToolDescription fuel) descriptionArray.elements stored)

def addPromptsJson (descriptionArray : Json) (stored : List Json) : Added :=
  clsCheck (!descriptionArray.isArray) "addPrompts requires a JSON array" stored
    (addEach addPrompt descriptionArray.elements stored)

def addResourcesJson (description : Json) (stored : List Json) : Added :=
  clsCheck (!description.isObject) "addResource requires a JSON object" stored
    -- no check of the resource, and no loop
    (accepted, stored ++ [description])

/-- The same descriptions are left, and the one call throws where the other does. -/
def Agree (one other : Added) : Prop := one.2 = other.2 ∧ (one.1 = accepted ↔ other.1 = accepted)

variable {checks : Json → Checks Bytes} {descriptions items stored : List Json} {fuel : Nat}

theorem addEach_eq (checks : Json → Checks Bytes) (descriptions stored : List Json) :
    addEach (addIf checks) descriptions stored =
      (each descriptions checks, stored ++ descriptions.takeWhile (checks · = accepted)) := by
  induction descriptions generalizing stored with
  | nil => simp [addEach]
  | cons description rest ih =>
    rw [addEach, addIf]
    rcases verdict : checks description with _ | message | passed
    · simp [Checks.andThen, verdict, accepted]
    · simp [Checks.andThen, Except.map, verdict, accepted, rejected]
    · simp [Checks.andThen, Except.map, verdict, accepted, ih]

/-- With a call that throws and adds nothing a loop agrees only if it stops at once. -/
theorem agree_rejected_iff {message : Bytes} :
    Agree (rejected message, stored) (addEach (addIf checks) descriptions stored) ↔
      ∃ first rest, descriptions = first :: rest ∧ checks first ≠ accepted := by
  rw [addEach_eq]
  cases descriptions with
  | nil => simp [Agree]
  | cons first rest =>
    by_cases passes : checks first = accepted <;> simp [Agree, passes]

theorem addEach_validated (checks : Json → Checks Bytes) (descriptions stored : List Json) :
    ∃ added, (addEach (addIf checks) descriptions stored).2 = stored ++ added ∧
      ∀ description ∈ added, checks description = accepted := by
  refine ⟨_, by rw [addEach_eq], fun description member => ?_⟩
  exact of_decide_eq_true (List.all_eq_true.mp List.all_takeWhile description member)

theorem validateResource_array (items : List Json) : validateResource (.array items) ≠ accepted := by
  simp [validateResource, Json.filled, Json.text, Json.find]

theorem addResources_disagree (items stored : List Json) :
    ¬ Agree (addResourcesJson (.array items) stored) (addResources items stored) := by
  rintro ⟨left, -⟩
  obtain ⟨added, vector, passed⟩ := addEach_validated validateResource items stored
  have same : stored ++ [.array items] = stored ++ added := left.trans vector
  have member : .array items ∈ added := by
    rw [← List.append_cancel_left same]
    exact List.mem_singleton.mpr rfl
  exact validateResource_array items (passed _ member)

theorem validate_isSome_of_le {tool : Json} (enough : sizeOf tool ≤ fuel) :
    (validate fuel tool).isSome = true := by
  have ended := validate_isSome tool
  rwa [← validate_settles enough tool ended] at ended

/-- For every array of JSON, the overload for it adds the same as the one for a vector, and fails
where that does: never for resources, where what it adds has passed no check, and for tools and
prompts only if there is a first element and that is no description. -/
theorem overloads_agree_iff (items stored : List Json) :
    ∃ enough, ∀ fuel ≥ enough,
      (addToolDescriptions fuel items stored).1.isSome = true ∧
        (Agree (addToolDescriptionsJson fuel (.array items) stored)
            (addToolDescriptions fuel items stored) ↔
          ∃ first rest, items = first :: rest ∧ validate fuel first ≠ accepted) ∧
        (Agree (addPromptsJson (.array items) stored) (addPrompts items stored) ↔
          ∃ first rest, items = first :: rest ∧ validatePrompt first ≠ accepted) ∧
        ¬ Agree (addResourcesJson (.array items) stored) (addResources items stored) ∧
        ¬ ∀ resource ∈ (addResourcesJson (.array items) stored).2,
          validateResource resource = accepted := by
  refine ⟨sizeOf items, fun fuel enough => ⟨?_, ?_, ?_, ?_, ?_⟩⟩
  · have loop := addEach_eq (validate fuel) items stored
    rw [addToolDescriptions, show addToolDescription fuel = addIf (validate fuel) from rfl, loop]
    refine Checks.each_isSome fun tool member => validate_isSome_of_le ?_
    have smaller := List.sizeOf_lt_of_mem member
    omega
  · exact agree_rejected_iff
  · exact agree_rejected_iff
  · exact addResources_disagree items stored
  · intro passed
    have added : .array items ∈ (addResourcesJson (.array items) stored).2 :=
      List.mem_append_right stored List.mem_cons_self
    exact validateResource_array items (passed _ added)

/-- A list of one tool is refused as JSON and added as a vector, and an empty list of resources
becomes a resource. -/
theorem overloads_disagree :
    ¬ Agree (addToolDescriptionsJson 2 (.array [describe numbers]) [])
        (addToolDescriptions 2 [describe numbers] []) ∧
      addResourcesJson (.array []) [] = (accepted, [.array []]) := by
  constructor
  · rintro ⟨left, -⟩
    have refused : (addToolDescriptionsJson 2 (.array [describe numbers]) []).2 = [] := rfl
    have added : (addToolDescriptions 2 [describe numbers] []).2 = [describe numbers] := rfl
    rw [refused, added] at left
    cases left
  · rfl

end McpService

end Hku
