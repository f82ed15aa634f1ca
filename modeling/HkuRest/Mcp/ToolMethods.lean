import HkuRest.Core.Base64
import HkuRest.Httpd.CidrGrammar
import HkuRest.Mcp.SessionRecords
import HkuRest.Mcp.ServiceMethods

/-! The tools of the MCP example server, and a client that follows the cursors of the paginated
one. A cursor is opaque to the client; it is the index of the next item, in base64. -/

namespace Hku

/-- `value(key, default)` for an `int`: a wider integer loses its higher bits, and a
floating-point number is cut off as the language does it. -/
def Json.valueInt (cutOff : Bytes → Int) (key : Bytes) (default : Int) : Json → Option Int
  | .object members =>
      match (Json.object members).find key with
      | none => some default
      | some (.integer value) => some ((value + 2 ^ 31) % 2 ^ 32 - 2 ^ 31)
      | some (.boolean value) => some value.toNat
      | some (.real literal) => some (cutOff literal)
      | some _ => none
  | _ => none

/-- `base64_encode` and `base64_decode`, which may throw. What was encoded is decoded back. -/
structure Base64Coding where
  encode : Bytes → Bytes
  decode : Bytes → Option Bytes
  decode_encode : ∀ text, decode (encode text) = some text
  encode_ne_nil : ∀ text, text ≠ [] → encode text ≠ []

namespace McpMethod

open McpHandle (key recordToolUsage)
open McpService (UserMethod MethodRun succeed text answer)

/-- The time that a record has, in whole seconds. -/
def seconds (now : Int) : Int := now.tdiv 1000000000

def textContent (content : Bytes) : Json :=
  .array [.object [(key "text", .string content), (key "type", text "text")]]

/-- The library throws where a parameter has another type. -/
def mistyped (sessions : SessionManager) : MethodRun := ⟨[], .standardException, sessions⟩

def weatherText (location : Bytes) : Bytes :=
  Bytes.ascii "Weather in " ++ location ++ Bytes.ascii ": Temperature 22" ++ [0xc2, 0xb0] ++
    Bytes.ascii "C, Condition: Sunny, Humidity: 65%"

def executeGetWeather : UserMethod := fun now arguments sessionId sessions =>
  match arguments.value (key "location") (Bytes.ascii "Unknown") with
  | none => mistyped sessions
  | some location =>
      let details := Json.object [(key "location", .string location)]
      let recorded := recordToolUsage now sessionId ⟨seconds now, Bytes.ascii "get_weather", details⟩
        sessions
      answer (succeed (.object [(key "content", textContent (weatherText location))])) recorded.2

/-- The last entries of a history. The client can have stored anything under its key: of an object
nothing can be erased, and another value is one entry. A negative limit is a huge one. -/
def limited (limit : Int) : Json → Option Json
  | .array items =>
      some (.array (if 0 ≤ limit then items.drop (items.length - limit.toNat) else items))
  | .object members =>
      if 0 ≤ limit ∧ limit.toNat < members.length then none else some (.object members)
  | json => some (if limit = 0 then .null else json)

def executeGetSessionHistory (cutOff : Bytes → Int) : UserMethod :=
  fun _ arguments sessionId sessions =>
    match arguments.valueInt cutOff (key "limit") 10 with
    | none => mistyped sessions
    | some limit =>
        let stored := sessions.getSessionMetadata sessionId (key "history")
        if stored = .null then answer (succeed (.array [])) sessions
        else
          match limited limit stored with
          | none => mistyped sessions
          | some history => answer (succeed history) sessions

def taskSteps : Nat := 10

def taskStarted (taskId taskName : Bytes) (duration : Int) : ProgressUpdate :=
  ⟨taskId, 0, Bytes.ascii "Task started",
    .object [(key "estimated_duration", .integer duration), (key "task_name", .string taskName)]⟩

def taskStep (taskId : Bytes) (step : Nat) : ProgressUpdate :=
  let progress := step * 100 / taskSteps
  ⟨taskId, progress,
    Bytes.ascii "Processing... " ++ Bytes.decimal progress ++ Bytes.ascii "% complete",
    .object [(key "current_step", .integer step), (key "total_steps", .integer taskSteps)]⟩

def taskCompleted (taskId : Bytes) : ProgressUpdate :=
  ⟨taskId, 100, Bytes.ascii "Task completed successfully",
    .object [(key "output", text "Task finished"), (key "result", text "success")]⟩

def durationText (duration : Int) : Bytes :=
  (if duration < 0 then [0x2d] else []) ++ Bytes.decimal duration.natAbs

def taskText (taskId taskName : Bytes) (duration : Int) : Bytes :=
  Bytes.ascii "Task '" ++ taskName ++ Bytes.ascii "' completed with ID: " ++ taskId ++
    Bytes.ascii "\nTotal duration: " ++ durationText duration ++ Bytes.ascii " seconds\nReceived " ++
    Bytes.decimal taskSteps ++ Bytes.ascii " progress updates via SSE stream"

/-- What the tool pushes and answers, at this stamp of the clock; it is the only tool that is
streamed. -/
def executeLongRunningTask (cutOff : Bytes → Int) (stamp : Nat) (arguments : Json) : Dispatched :=
  match arguments.valueInt cutOff (key "duration_seconds") 10,
      arguments.value (key "task_name") (Bytes.ascii "example_task") with
  | some duration, some taskName =>
      let taskId := taskName ++ Bytes.ascii "_" ++ Bytes.decimal stamp
      ⟨taskStarted taskId taskName duration :: (List.range' 1 taskSteps).map (taskStep taskId) ++
          [taskCompleted taskId],
        some (succeed (.object [(key "content", textContent (taskText taskId taskName duration)),
          (key "task_id", .string taskId)]))⟩
  | _, _ => ⟨[], some (McpService.fail bizMcpToolExecutionError)⟩

example : (executeLongRunningTask (fun _ => 0) 5 (.object [])).pushes.map ProgressUpdate.progress =
    [0, 10, 20, 30, 40, 50, 60, 70, 80, 90, 100, 100] := by
  decide +kernel

def totalItems : Nat := 250

/-- From 1 to 100. -/
def clampedSize (pageSize : Int) : Nat :=
  if pageSize < 1 then 1 else if 100 < pageSize then 100 else pageSize.toNat

/-- Where a page starts; an invalid cursor throws. -/
def startIndex (base64 : Base64Coding) (cursor : Bytes) : Option Nat :=
  if cursor = [] then some 0
  else
    ((base64.decode cursor).bind stoi).bind fun index =>
      if index < 0 ∨ (totalItems : Int) ≤ index then none else some index.toNat

def item (now : Int) (index : Nat) : Json :=
  let number := Bytes.decimal (index + 1)
  .object [(key "created_at", .integer (seconds now - (totalItems - index) * 60)),
    (key "id", .integer (index + 1)), (key "index", .integer index),
    (key "name", .string (Bytes.ascii "Item_" ++ number)),
    (key "value", .string (Bytes.ascii "Value for item " ++ number))]

def pagination (start stop : Nat) : Json :=
  .object [(key "current_page_end", .integer (stop - 1)), (key "current_page_start", .integer start),
    (key "has_more", .boolean (stop < totalItems)), (key "returned_count", .integer (stop - start)),
    (key "total_items", .integer totalItems)]

def pageText (count size : Nat) : Bytes :=
  Bytes.ascii "Retrieved " ++ Bytes.decimal count ++ Bytes.ascii " items (total: " ++
    Bytes.decimal totalItems ++ Bytes.ascii ", page size: " ++ Bytes.decimal size ++ Bytes.ascii ")"

/-- The member `nextCursor`, if there are more items. -/
def nextCursor (base64 : Base64Coding) (stop : Nat) : List (Bytes × Json) :=
  if stop < totalItems then [(key "nextCursor", .string (base64.encode (Bytes.decimal stop)))] else []

def page (base64 : Base64Coding) (now : Int) (start size : Nat) : Json :=
  let stop := min (start + size) totalItems
  .object ([(key "content", textContent (pageText (stop - start) size)),
      (key "items", .array ((List.range' start (stop - start)).map (item now)))] ++
    nextCursor base64 stop ++ [(key "pagination", pagination start stop)])

def executeQueryPaginatedData (base64 : Base64Coding) (cutOff : Bytes → Int) : UserMethod :=
  fun now arguments sessionId sessions =>
    match arguments.valueInt cutOff (key "page_size") 10, arguments.value (key "cursor") [] with
    | some pageSize, some cursor =>
        let size := clampedSize pageSize
        match startIndex base64 cursor with
        | none => mistyped sessions
        | some start =>
            let stop := min (start + size) totalItems
            let details := Json.object
              [(key "cursor", .string (if cursor = [] then Bytes.ascii "first_page" else cursor)),
                (key "has_more", .boolean (stop < totalItems)), (key "page_size", .integer size),
                (key "returned_count", .integer (stop - start))]
            let recorded := recordToolUsage now sessionId
              ⟨seconds now, Bytes.ascii "query_paginated_data", details⟩ sessions
            answer (succeed (page base64 now start size)) recorded.2
    | _, _ => mistyped sessions

/-- The arguments of a call; the first one has no cursor. -/
def pageArguments (pageSize : Int) : Option Bytes → Json
  | none => .object [(key "page_size", .integer pageSize)]
  | some cursor => .object [(key "cursor", .string cursor), (key "page_size", .integer pageSize)]

def itemsOf (response : Json) : List Json :=
  match response.find (key "items") with
  | some (.array items) => items
  | _ => []

def cursorOf (response : Json) : Option Bytes :=
  match response.find (key "nextCursor") with
  | some (.string cursor) => some cursor
  | _ => none

/-- The pages that the client gets if it goes on from the cursor. At its `n`th call the server has
this time and these sessions. It gives up on an error, and when it has no more calls to make. -/
def browse (query : UserMethod) (pageSize : Int) (sessionId : Bytes)
    (visits : Nat → Int × SessionManager) : Nat → Nat → Option Bytes → Option (List (List Json))
  | 0, _, _ => none
  | calls + 1, n, cursor =>
      match (query (visits n).1 (pageArguments pageSize cursor) sessionId (visits n).2).ending with
      | .returned result =>
          if result.err ≠ 0 then none
          else
            match cursorOf result.value with
            | none => some [itemsOf result.value]
            | some next =>
                (browse query pageSize sessionId visits calls (n + 1) (some next)).map
                  (itemsOf result.value :: ·)
      | _ => none

variable {base64 : Base64Coding} {cutOff : Bytes → Int} {start size : Nat} {now pageSize : Int}
  {cursor : Option Bytes}

theorem clampedSize_bounds (pageSize : Int) : 1 ≤ clampedSize pageSize ∧ clampedSize pageSize ≤ 100 := by
  unfold clampedSize
  split
  · omega
  · split <;> omega

theorem startIndex_encode (bounded : start < totalItems) :
    startIndex base64 (base64.encode (Bytes.decimal start)) = some start := by
  have read : ∀ index < totalItems, stoi (Bytes.decimal index) = some (index : Int) := by
    decide +kernel
  have filled := base64.encode_ne_nil (Bytes.decimal start) (Bytes.numeral_ne_nil 10 start)
  have range : ¬ ((start : Int) < 0 ∨ (totalItems : Int) ≤ start) := by omega
  simp only [startIndex, if_neg filled, base64.decode_encode, Option.bind_some, read start bounded,
    if_neg range, Int.toNat_natCast]

theorem itemsOf_page (base64 : Base64Coding) (now : Int) (start size : Nat) :
    itemsOf (page base64 now start size) =
      (List.range' start (min (start + size) totalItems - start)).map (item now) := by
  rfl

theorem cursorOf_page (base64 : Base64Coding) (now : Int) (start size : Nat) :
    cursorOf (page base64 now start size) =
      if start + size < totalItems then some (base64.encode (Bytes.decimal (start + size))) else none := by
  by_cases more : start + size < totalItems
  · have inside : min (start + size) totalItems = start + size := Nat.min_eq_left more.le
    simp only [page, nextCursor, inside, if_pos more]
    rfl
  · have inside : min (start + size) totalItems = totalItems := Nat.min_eq_right (not_lt.mp more)
    simp only [page, nextCursor, inside, lt_irrefl, if_neg more, if_false]
    rfl

/-- What the tool reads of the arguments: any number is a size, and the client's cursor is one that
the tool made. -/
theorem query_page (now pageSize : Int) (sessionId : Bytes) (sessions : SessionManager)
    (starts : start = 0 ∧ cursor = none ∨
      start < totalItems ∧ cursor = some (base64.encode (Bytes.decimal start))) :
    (executeQueryPaginatedData base64 cutOff now (pageArguments pageSize cursor) sessionId
        sessions).ending =
      .returned (succeed (page base64 now start
        (clampedSize ((pageSize + 2 ^ 31) % 2 ^ 32 - 2 ^ 31)))) := by
  have sized : (pageArguments pageSize cursor).valueInt cutOff (key "page_size") 10 =
      some ((pageSize + 2 ^ 31) % 2 ^ 32 - 2 ^ 31) := by
    cases cursor <;> rfl
  have placed : ∃ text, (pageArguments pageSize cursor).value (key "cursor") [] = some text ∧
      startIndex base64 text = some start := by
    rcases starts with ⟨rfl, rfl⟩ | ⟨bounded, rfl⟩
    · exact ⟨[], rfl, rfl⟩
    · exact ⟨_, rfl, startIndex_encode bounded⟩
  obtain ⟨text, written, started⟩ := placed
  simp only [executeQueryPaginatedData, sized, written, started]
  rfl

theorem browse_step (sessionId : Bytes) (visits : Nat → Int × SessionManager) (calls n : Nat)
    (sized : clampedSize ((pageSize + 2 ^ 31) % 2 ^ 32 - 2 ^ 31) = size)
    (starts : start = 0 ∧ cursor = none ∨
      start < totalItems ∧ cursor = some (base64.encode (Bytes.decimal start))) :
    let query := executeQueryPaginatedData base64 cutOff
    let items := (List.range' start (min (start + size) totalItems - start)).map (item (visits n).1)
    browse query pageSize sessionId visits (calls + 1) n cursor =
      if start + size < totalItems then
        (browse query pageSize sessionId visits calls (n + 1)
          (some (base64.encode (Bytes.decimal (start + size))))).map (items :: ·)
      else some [items] := by
  have answered := @query_page base64 cutOff start cursor (visits n).1 pageSize sessionId (visits n).2
    starts
  simp only [browse, answered, succeed, ne_eq, not_true, if_false, cursorOf_page, itemsOf_page, sized]
  split
  · rename_i ended
    by_cases more : start + size < totalItems <;> simp [more] at ended ⊢
  · rename_i next continued
    by_cases more : start + size < totalItems <;> simp [more] at continued ⊢
    rw [continued]

/-- The ids of the items from an index on. -/
def idsFrom (start count : Nat) : List Json :=
  (List.range' start count).map fun (index : Nat) => .integer (index + 1)

def idsOf (items : List Json) : List Json := items.filterMap fun item => item.find (key "id")

theorem idsOf_items (now : Int) (start count : Nat) :
    idsOf ((List.range' start count).map (item now)) = idsFrom start count := by
  rw [idsOf, List.filterMap_map, idsFrom, ← List.filterMap_eq_map]
  rfl

theorem idsFrom_append (start first second : Nat) :
    idsFrom start first ++ idsFrom (start + first) second = idsFrom start (first + second) := by
  simp only [idsFrom, ← List.map_append, List.range'_append_1]

theorem browse_from (base64 : Base64Coding) (cutOff : Bytes → Int) (pageSize : Int)
    (sessionId : Bytes) (visits : Nat → Int × SessionManager)
    (sized : clampedSize ((pageSize + 2 ^ 31) % 2 ^ 32 - 2 ^ 31) = size) (calls n : Nat)
    (bounded : start < totalItems) (enough : totalItems ≤ start + calls * size)
    (starts : start = 0 ∧ cursor = none ∨ cursor = some (base64.encode (Bytes.decimal start))) :
    ∃ pages, browse (executeQueryPaginatedData base64 cutOff) pageSize sessionId visits calls n cursor =
        some pages ∧
      pages.flatMap idsOf = idsFrom start (totalItems - start) ∧ (∀ page ∈ pages, page.length ≤ size) ∧
        pages.length = (totalItems - start + (size - 1)) / size := by
  have positive : 0 < size := sized ▸ (clampedSize_bounds _).1
  induction calls generalizing start n cursor with
  | zero => omega
  | succ calls ih =>
    rw [browse_step sessionId visits calls n sized (starts.imp_right fun made => ⟨bounded, made⟩)]
    by_cases more : start + size < totalItems
    · have inside : min (start + size) totalItems - start = size := by omega
      obtain ⟨pages, browsed, ids, short, count⟩ :=
        ih (n + 1) more (by rw [Nat.succ_mul] at enough; omega) (.inr rfl)
      simp only [if_pos more, browsed, Option.map_some, inside]
      refine ⟨_, rfl, ?_, ?_, ?_⟩
      · rw [List.flatMap_cons, idsOf_items, ids, idsFrom_append]
        congr 1
        omega
      · simpa using short
      · have remaining : totalItems - start + (size - 1) =
            totalItems - (start + size) + (size - 1) + size := by omega
        rw [List.length_cons, count, remaining, Nat.add_div_right _ positive]
    · have inside : min (start + size) totalItems - start = totalItems - start := by omega
      simp only [if_neg more, inside]
      refine ⟨_, rfl, ?_, ?_, ?_⟩
      · rw [List.flatMap_singleton, idsOf_items]
      · simp
        omega
      · have one : (totalItems - start + (size - 1)) / size = 1 :=
          Nat.div_eq_of_lt_le (by omega) (by omega)
        rw [one, List.length_singleton]

/-- A client that follows the cursors from the first page on sees every item once, in order, in the
fewest pages of the size that it asked for, whatever happens to its session in between. -/
theorem pages_complete (base64 : Base64Coding) (cutOff : Bytes → Int) (pageSize : Int)
    (sessionId : Bytes) (visits : Nat → Int × SessionManager) :
    let size := clampedSize ((pageSize + 2 ^ 31) % 2 ^ 32 - 2 ^ 31)
    ∃ pages, browse (executeQueryPaginatedData base64 cutOff) pageSize sessionId visits totalItems 0
        none = some pages ∧
      pages.flatMap idsOf = idsFrom 0 totalItems ∧ (∀ page ∈ pages, page.length ≤ size) ∧
        pages.length = (totalItems + (size - 1)) / size := by
  intro size
  have positive := (clampedSize_bounds ((pageSize + 2 ^ 31) % 2 ^ 32 - 2 ^ 31)).1
  have enough : totalItems ≤ 0 + totalItems * size := by
    rw [Nat.zero_add]
    exact Nat.le_mul_of_pos_right _ positive
  exact browse_from base64 cutOff pageSize sessionId visits rfl totalItems 0 (by decide) enough
    (.inl ⟨rfl, rfl⟩)

/-- Base64 as it is usual. -/
def usualCoding : Base64Coding where
  encode := Base64.encode
  decode := Base64.decode
  decode_encode := Base64.decode_encode
  encode_ne_nil _ := Base64.encode_ne_nil

example : (browse (executeQueryPaginatedData usualCoding fun _ => 0) 100 [1]
    (fun _ => (0, .create)) 3 0 none).map (List.map List.length) = some [100, 100, 50] := by
  decide +kernel

end McpMethod

end Hku
