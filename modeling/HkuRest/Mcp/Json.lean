import HkuRest.Core.Bytes
import Mathlib.Data.List.Nodup

/-! JSON values as `nlohmann::json` has them, and the two functions of that library
between values and texts. Members of an object are sorted by key; a floating-point
number is kept as its shortest literal. -/

namespace Hku

inductive Json
  | null
  | boolean (value : Bool)
  | integer (value : Int)
  | real (literal : Bytes)
  | string (text : Bytes)
  | array (items : List Json)
  | object (members : List (Bytes × Json))
  deriving Repr

namespace Json

mutual

def same : Json → Json → Bool
  | .null, .null => true
  | .boolean left, .boolean right => left = right
  | .integer left, .integer right => left = right
  | .real left, .real right => left = right
  | .string left, .string right => left = right
  | .array left, .array right => sameItems left right
  | .object left, .object right => sameMembers left right
  | _, _ => false

def sameItems : List Json → List Json → Bool
  | [], [] => true
  | left :: lefts, right :: rights => same left right && sameItems lefts rights
  | _, _ => false

def sameMembers : List (Bytes × Json) → List (Bytes × Json) → Bool
  | [], [] => true
  | (key, left) :: lefts, (other, right) :: rights =>
      decide (key = other) && same left right && sameMembers lefts rights
  | _, _ => false

end

mutual

theorem same_iff (left right : Json) : same left right = true ↔ left = right := by
  cases left with
  | null | boolean value | integer value | real literal | string text => cases right <;> simp [same]
  | array items =>
    cases right with
    | array others => simp [same, sameItems_iff items others]
    | _ => simp [same]
  | object members =>
    cases right with
    | object others => simp [same, sameMembers_iff members others]
    | _ => simp [same]

theorem sameItems_iff (left right : List Json) : sameItems left right = true ↔ left = right := by
  cases left with
  | nil => cases right <;> simp [sameItems]
  | cons item items =>
    cases right with
    | nil => simp [sameItems]
    | cons other others => simp [sameItems, same_iff item other, sameItems_iff items others]

theorem sameMembers_iff (left right : List (Bytes × Json)) :
    sameMembers left right = true ↔ left = right := by
  cases left with
  | nil => cases right <;> simp [sameMembers]
  | cons member members =>
    obtain ⟨key, value⟩ := member
    cases right with
    | nil => simp [sameMembers]
    | cons other others =>
      obtain ⟨name, content⟩ := other
      simp [sameMembers, same_iff value content, sameMembers_iff members others]

end

instance : DecidableEq Json := fun left right => decidable_of_iff _ (same_iff left right)

/-- The member of an object; other values contain none. -/
def find (key : Bytes) : Json → Option Json
  | .object members => (List.find? (fun member => member.1 = key) members).map Prod.snd
  | _ => none

/-- `value(key, default)` for text: nothing where the library throws a `type_error`,
because the value is no object or its member no string. -/
def value (key default : Bytes) : Json → Option Bytes
  | .object members =>
      match (Json.object members).find key with
      | none => some default
      | some (.string text) => some text
      | some _ => none
  | _ => none

/-- `members[key] = value`, in the order of the keys. -/
def setMember (key : Bytes) (value : Json) : List (Bytes × Json) → List (Bytes × Json)
  | [] => [(key, value)]
  | (name, content) :: rest =>
      if key = name then (key, value) :: rest
      else if key < name then (key, value) :: (name, content) :: rest
      else (name, content) :: setMember key value rest

/-- `json[key] = value`. Null becomes an object; other values that are none throw. -/
def set (json : Json) (key : Bytes) (value : Json) : Option Json :=
  match json with
  | .null => some (.object [(key, value)])
  | .object members => some (.object (setMember key value members))
  | _ => none

theorem find_setMember (key : Bytes) (value : Json) (members : List (Bytes × Json)) :
    (List.find? (fun member => member.1 = key) (setMember key value members)).map Prod.snd =
      some value := by
  induction members with
  | nil => simp [setMember]
  | cons member rest ih =>
    obtain ⟨name, content⟩ := member
    simp only [setMember]
    split
    · simp
    · rename_i other
      split
      · simp
      · rw [List.find?_cons_of_neg (by simpa using Ne.symm other)]
        exact ih

theorem find_set {key : Bytes} {value json changed : Json} (written : json.set key value = some changed) :
    changed.find key = some value := by
  cases json with
  | null =>
    cases written
    simp [find]
  | object members =>
    cases written
    exact find_setMember key value members
  | _ => cases written

theorem find_setMember_other {key name : Bytes} (apart : name ≠ key) (value : Json)
    (members : List (Bytes × Json)) :
    (List.find? (fun member => member.1 = name) (setMember key value members)).map Prod.snd =
      (List.find? (fun member => member.1 = name) members).map Prod.snd := by
  induction members with
  | nil => simp [setMember, apart.symm]
  | cons member rest ih =>
    obtain ⟨held, content⟩ := member
    simp only [setMember]
    split
    · rename_i same
      subst same
      simp [apart.symm]
    · split
      · simp [apart.symm]
      · by_cases here : held = name
        · simp [here]
        · simpa [here] using ih

theorem find_set_other {key name : Bytes} {value json changed : Json} (apart : name ≠ key)
    (written : json.set key value = some changed) : changed.find name = json.find name := by
  cases json with
  | null =>
    cases written
    simp [find, apart.symm]
  | object members =>
    cases written
    exact find_setMember_other apart value members
  | _ => cases written

theorem set_of_find {json : Json} {name : Bytes} {content : Json} (held : json.find name = some content)
    (key : Bytes) (value : Json) : ∃ changed, json.set key value = some changed := by
  cases json with
  | object members => exact ⟨_, rfl⟩
  | _ => cases held

end Json

/-- `parse` and `dump`. Parsing an error, or dumping what is no UTF-8, throws. What was
dumped is parsed back, and its line breaks are escaped. -/
structure JsonCodec where
  parse : Bytes → Option Json
  dump : Json → Option Bytes
  parse_dump {json : Json} {text : Bytes} : dump json = some text → parse text = some json
  dump_line {json : Json} {text : Bytes} : dump json = some text → Bytes.lf ∉ text
  parse_nil : parse [] = none

namespace Json

def quoted (text : Bytes) : Bytes := 0x22 :: (text ++ [0x22])

def separated (texts : List Bytes) : Bytes := [0x2c].intercalate texts

mutual

/-- The text without blanks, for strings that need no escapes. -/
def compact : Json → Bytes
  | .null => Bytes.ascii "null"
  | .boolean value => Bytes.ascii (if value then "true" else "false")
  | .integer value => (if value < 0 then [0x2d] else []) ++ Bytes.decimal value.natAbs
  | .real literal => literal
  | .string text => quoted text
  | .array items => 0x5b :: (separated (compactItems items) ++ [0x5d])
  | .object members => 0x7b :: (separated (compactMembers members) ++ [0x7d])

def compactItems : List Json → List Bytes
  | [] => []
  | item :: items => compact item :: compactItems items

def compactMembers : List (Bytes × Json) → List Bytes
  | [] => []
  | (key, value) :: members => (quoted key ++ 0x3a :: compact value) :: compactMembers members

end

end Json

/-- Values whose texts are distinct lines. -/
structure Legible (values : List Json) : Prop where
  distinct : (values.map Json.compact).Nodup
  lines : ∀ value ∈ values, Bytes.lf ∉ value.compact
  filled : ∀ value ∈ values, value.compact ≠ []

/-- It knows these values only. -/
def JsonCodec.ofValues (values : List Json) (legible : Legible values) : JsonCodec where
  parse text := List.find? (fun value => value.compact = text) values
  dump json := if json ∈ values then some json.compact else none
  parse_dump := by
    intro json text dumped
    obtain ⟨member, written⟩ := Option.ite_none_right_eq_some.mp dumped
    obtain rfl := Option.some.inj written
    have known : (List.find? (fun value => value.compact = json.compact) values).isSome = true :=
      List.find?_isSome.mpr ⟨json, member, decide_eq_true rfl⟩
    obtain ⟨value, found⟩ := Option.isSome_iff_exists.mp known
    have same : value.compact = json.compact := by simpa using List.find?_some found
    rw [found, List.inj_on_of_nodup_map legible.distinct (List.mem_of_find?_eq_some found) member
      same]
  dump_line := by
    intro json text dumped
    obtain ⟨member, same⟩ := Option.ite_none_right_eq_some.mp dumped
    rw [← Option.some.inj same]
    exact legible.lines json member
  parse_nil := by
    rw [List.find?_eq_none]
    intro value member
    simpa using legible.filled value member

end Hku
