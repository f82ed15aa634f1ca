import HkuRest.Core.Bytes

/-! The event stream format: lines that end in a line feed, of which those of the field
`data` make up the payload of an event, and a blank one ends it. Other fields and an
event without its blank line are passed over. -/

namespace EventStream

/-- The payload of a `data` line, without the blank that may follow the colon. -/
def dataLine (line : Bytes) : Option Bytes :=
  if Bytes.hasPrefix (Bytes.ascii "data: ") line then some (line.drop 6)
  else if Bytes.hasPrefix (Bytes.ascii "data:") line then some (line.drop 5)
  else none

/-- The payloads of the events; `pending` are the data lines of the event under way. -/
def read : List Bytes → List Bytes → List Bytes
  | [], _ => []
  | line :: rest, pending =>
      if line = [] then
        if pending = [] then read rest [] else [Bytes.lf].intercalate pending :: read rest []
      else
        match dataLine line with
        | some data => read rest (pending ++ [data])
        | none => read rest pending

def events (bytes : Bytes) : List Bytes := read (bytes.splitOn Bytes.lf) []

/-- An event with one line of payload. -/
def event (data : Bytes) : Bytes := Bytes.ascii "data: " ++ data ++ [Bytes.lf, Bytes.lf]

def namedEvent (name data : Bytes) : Bytes :=
  Bytes.ascii "event: " ++ name ++ Bytes.lf :: event data

theorem dataLine_data (data : Bytes) : dataLine (Bytes.ascii "data: " ++ data) = some data := by
  simp [dataLine, Bytes.hasPrefix, Bytes.ascii]

theorem dataLine_event (name : Bytes) : dataLine (Bytes.ascii "event: " ++ name) = none := by
  simp [dataLine, Bytes.hasPrefix, Bytes.ascii]

@[simp] theorem events_nil : events [] = [] := rfl

theorem events_event {data : Bytes} (rest : Bytes) (single : Bytes.lf ∉ data) :
    events (event data ++ rest) = data :: events rest := by
  have field : Bytes.lf ∉ Bytes.ascii "data: " := by decide
  have line : Bytes.lf ∉ Bytes.ascii "data: " ++ data := by
    intro member
    exact (List.mem_append.mp member).elim field single
  have shape : event data ++ rest =
      (Bytes.ascii "data: " ++ data) ++ Bytes.lf :: ([] ++ Bytes.lf :: rest) := by
    simp [event]
  rw [events, shape, List.splitOn_append_cons_self_of_not_mem line,
    List.splitOn_append_cons_self_of_not_mem List.not_mem_nil, read, if_neg (by simp [Bytes.ascii]),
    dataLine_data]
  simp [read, events, List.intercalate]

theorem events_namedEvent {name data : Bytes} (rest : Bytes) (named : Bytes.lf ∉ name)
    (single : Bytes.lf ∉ data) : events (namedEvent name data ++ rest) = data :: events rest := by
  have field : Bytes.lf ∉ Bytes.ascii "event: " := by decide
  have line : Bytes.lf ∉ Bytes.ascii "event: " ++ name := by
    intro member
    exact (List.mem_append.mp member).elim field named
  have shape : namedEvent name data ++ rest =
      (Bytes.ascii "event: " ++ name) ++ Bytes.lf :: (event data ++ rest) := by
    simp [namedEvent]
  rw [← events_event rest single, events, shape, List.splitOn_append_cons_self_of_not_mem line, read,
    if_neg (by simp [Bytes.ascii]), dataLine_event, events]

end EventStream
