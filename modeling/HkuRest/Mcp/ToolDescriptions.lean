import HkuRest.Core.Checks
import HkuRest.Mcp.McpHandle

/-! `McpService::addToolDescription`: the description of a tool, with the schema of its input.
The validation of a property calls itself for the properties of an object and the items of an
array; it is given fuel for its depth. -/

namespace Hku

namespace Json

def isObject : Json → Bool
  | .object _ => true
  | _ => false

/-- A member that is a string. -/
def text (name : Bytes) (json : Json) : Option Bytes :=
  match json.find name with
  | some (.string text) => some text
  | _ => none

end Json

namespace McpService

open McpHandle (key)
open Checks (accepted rejected each)

/-- `schema["type"]`, if it is a string. -/
def typeOf (schema : Json) : Option Bytes := schema.text (key "type")

/-- The values of `type` that are valid. -/
def typeNames : List Bytes :=
  [key "string", key "number", key "integer", key "boolean", key "array", key "object", key "null"]

def validateRequiredFields (tool : Json) : Checks Bytes :=
  let filled (name : Bytes) : Bool := (tool.text name).any (· ≠ [])
  if !filled (key "name") then
    rejected (Bytes.ascii "Field 'name' is required and must be a non-empty string.")
  else if !filled (key "description") then
    rejected (Bytes.ascii "Field 'description' is required and must be a non-empty string.")
  else
    match tool.find (key "inputSchema") with
    | none => rejected (Bytes.ascii "Field 'inputSchema' is required.")
    | some schema =>
        if schema.isObject then accepted
        else rejected (Bytes.ascii "Field 'inputSchema' must be a JSON object.")

/-- A schema is an object with a type; the messages are for one that is no object or has none. -/
def withType (schema : Json) (noObject noType : Bytes) (next : Bytes → Checks Bytes) : Checks Bytes :=
  if schema.isObject then
    match typeOf schema with
    | none => rejected noType
    | some type => next type
  else rejected noObject

mutual

def validateArrayProperty : Nat → Bytes → Json → Checks Bytes
  | 0, _, _ => none
  | fuel + 1, propName, propSchema =>
      match propSchema.find (key "items") with
      | none =>
          rejected (Bytes.ascii "Array property '" ++ propName ++
            Bytes.ascii "' must have an 'items' field defining element type.")
      | some items =>
          withType items
            (Bytes.ascii "Property '" ++ propName ++ Bytes.ascii "' items must be a JSON Schema object.")
            (Bytes.ascii "Property '" ++ propName ++ Bytes.ascii "' items must have a 'type' field.")
            fun itemType =>
              if itemType = key "object" then
                validateNestedObjectProperty fuel (propName ++ Bytes.ascii "[]") items
              else if itemType = key "array" then
                validateArrayProperty fuel (propName ++ Bytes.ascii "[]") items
              else accepted

def validateNestedObjectProperty : Nat → Bytes → Json → Checks Bytes
  | 0, _, _ => none
  | fuel + 1, propName, propSchema =>
      match propSchema.find (key "properties") with
      | none => accepted
      | some (.object nestedProperties) =>
          each nestedProperties fun (nestedName, nestedPropSchema) =>
            let nestedPropName := propName ++ Bytes.ascii "." ++ nestedName
            withType nestedPropSchema
              (Bytes.ascii "Nested property '" ++ nestedPropName ++ Bytes.ascii "' must be a JSON object.")
              (Bytes.ascii "Nested property '" ++ nestedPropName ++
                Bytes.ascii "' must have a 'type' field.")
              fun nestedType =>
                -- no name is compared with the valid ones here
                if nestedType = key "object" then
                  validateNestedObjectProperty fuel nestedPropName nestedPropSchema
                else if nestedType = key "array" then
                  validateArrayProperty fuel nestedPropName nestedPropSchema
                else accepted
      | some _ =>
          rejected (Bytes.ascii "Property '" ++ propName ++ Bytes.ascii "' properties must be an object.")

end

/-- The checks of a property of `inputSchema`. -/
def validateProperty (fuel : Nat) : Bytes × Json → Checks Bytes
  | (propName, propSchema) =>
      withType propSchema
        (Bytes.ascii "Property '" ++ propName ++ Bytes.ascii "' in inputSchema must be a JSON object.")
        (Bytes.ascii "Property '" ++ propName ++ Bytes.ascii "' must have a 'type' field.")
        fun typeValue =>
          if typeNames.any (typeValue = ·) then
            let complex :=
              if typeValue = key "array" then validateArrayProperty fuel propName propSchema
              else if typeValue = key "object" then validateNestedObjectProperty fuel propName propSchema
              else accepted
            let described := (propSchema.find (key "description")).isNone ||
              (propSchema.text (key "description")).isSome
            complex.andThen
              (if described then accepted
              else
                rejected (Bytes.ascii "Property '" ++ propName ++
                  Bytes.ascii "' description must be a string."))
          else
            rejected (Bytes.ascii "Property '" ++ propName ++ Bytes.ascii "' has invalid type '" ++
              typeValue ++ Bytes.ascii ("'. Valid types are: " ++
                "string, number, integer, boolean, array, object, null."))

/-- The checks of an element of `required`. -/
def validateRequired (properties : List (Bytes × Json)) (required : Json) : Checks Bytes :=
  match required with
  | .string field =>
      if properties.any (·.1 = field) then accepted
      else
        rejected (Bytes.ascii "Required field '" ++ field ++ Bytes.ascii "' is not defined in properties.")
  | _ => rejected (Bytes.ascii "Items in 'required' array must be strings.")

def validateInputSchema (fuel : Nat) (tool : Json) : Checks Bytes :=
  let schema := (tool.find (key "inputSchema")).getD .null
  if typeOf schema ≠ some (key "object") then
    rejected (Bytes.ascii "inputSchema 'type' must be 'object'.")
  else
    match schema.find (key "properties") with
    | some (.object properties) =>
        if properties = [] then accepted
        else
          (each properties (validateProperty fuel)).andThen
            ((match schema.find (key "required") with
              | none => accepted
              | some (.array required) => each required (validateRequired properties)
              | some _ => rejected (Bytes.ascii "inputSchema 'required' field must be an array.")).andThen
            (match schema.find (key "additionalProperties") with
              | none | some (.boolean _) | some (.object _) => accepted
              | some _ =>
                  rejected (Bytes.ascii ("inputSchema 'additionalProperties' must be a boolean or " ++
                    "JSON Schema object."))))
    | _ => rejected (Bytes.ascii "inputSchema must contain a 'properties' object.")

def validate (fuel : Nat) (description : Json) : Checks Bytes :=
  (validateRequiredFields description).andThen (validateInputSchema fuel description)

/-- `addToolDescription`: the descriptions afterwards, or what is thrown. -/
def addToolDescription (fuel : Nat) (toolDescriptions : List Json) (description : Json) :
    Option (Except Bytes (List Json)) :=
  (validate fuel description).map fun verdict =>
    verdict.map fun () => toolDescriptions ++ [description]

end McpService

end Hku
