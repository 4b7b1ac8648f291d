import Yess.Ext.JsonFormat
import Yess.Handler.Handle

namespace Yess
namespace ActionHandler

open Foundation Db Ext

/-!
# The JSON values of streams and events

A stream always has a value; an event has one when its payload is JSON.  The value of
a list of events is that of each of them, or the exception of the first payload that is
not JSON.
-/

theorem fitsJsonInteger_toInt (n : Int32) : fitsJsonInteger n.toInt = true := by
  have hLower := n.minValue_le_toInt
  have hUpper := n.toInt_le
  simp only [fitsJsonInteger, Bool.and_eq_true, decide_eq_true_eq]
  constructor
  · exact le_trans (by decide) hLower
  · exact le_trans hUpper (by decide)

/-- The keys of the objects are ASCII. -/
theorem keys_isUtf8 : isUtf8 "data" = true ∧ isUtf8 "id" = true ∧ isUtf8 "message" = true ∧
    isUtf8 "payload" = true ∧ isUtf8 "status" = true ∧ isUtf8 "streamId" = true ∧
    isUtf8 "type" = true ∧ isUtf8 "version" = true := by
  decide +kernel

/-! ## Streams -/

theorem stream_json_isUtf8 (stream : Stream) : stream.json.isUtf8 = isUtf8 stream.type := by
  simp [Stream.json, Json.isUtf8, Json.membersUtf8, keys_isUtf8]

theorem stream_json_wellFormed (stream : Stream) :
    stream.json.wellFormed = isUtf8 stream.type := by
  have hSorted : keysSorted [("id", .integer stream.id.toInt), ("type", .string stream.type),
      ("version", .integer stream.version.toInt)] = true := by
    simp only [keysSorted, List.map_cons, List.map_nil]
    decide +kernel
  simp [Stream.json, Json.wellFormed, Json.membersWellFormed, hSorted, fitsJsonInteger_toInt,
    keys_isUtf8]

/-! ## Events -/

/-- The value of an event with the value of its payload. -/
def eventObject (event : Event) (payload : Json) : Json :=
  .object [("id", .integer event.id.toInt), ("payload", payload),
    ("streamId", .integer event.streamId.toInt), ("type", .string event.type),
    ("version", .integer event.version.toInt)]

theorem eventObject_isUtf8 (event : Event) (payload : Json) :
    (eventObject event payload).isUtf8 = (payload.isUtf8 && isUtf8 event.type) := by
  simp [eventObject, Json.isUtf8, Json.membersUtf8, keys_isUtf8]

theorem eventObject_wellFormed (event : Event) (payload : Json) :
    (eventObject event payload).wellFormed = (payload.wellFormed && isUtf8 event.type) := by
  have hSorted : keysSorted [("id", .integer event.id.toInt), ("payload", payload),
      ("streamId", .integer event.streamId.toInt), ("type", .string event.type),
      ("version", .integer event.version.toInt)] = true := by
    simp only [keysSorted, List.map_cons, List.map_nil]
    decide +kernel
  simp [eventObject, Json.wellFormed, Json.membersWellFormed, hSorted, fitsJsonInteger_toInt,
    keys_isUtf8]

variable {J : JsonLib} {σ : Type}

theorem json_of_parse {event : Event} {payload : Json}
    (hParse : J.parse event.payload = some payload) :
    (Event.json J event : FrontProg σ Json) = pure (eventObject event payload) := by
  simp only [Event.json, parseJson, hParse, pure_bind]
  rfl

theorem json_of_unreadable {event : Event} (hParse : J.parse event.payload = none) :
    (Event.json J event : FrontProg σ Json) = throwJson (J.parseError event.payload) := by
  simp only [Event.json, parseJson, hParse]
  rfl

/-- The value of a payload; of a text that is not JSON there is none. -/
def payloadValue (J : JsonLib) (event : Event) : Json := (J.parse event.payload).getD .null

/-- The array of the values of events. -/
def eventValues (J : JsonLib) (events : List Event) : List Json :=
  events.map fun event => eventObject event (payloadValue J event)

/-- Is the payload JSON? -/
def PayloadReadable (J : JsonLib) (event : Event) : Bool := (J.parse event.payload).isSome

/-- The first event that cannot be read. -/
def firstUnreadable (J : JsonLib) (events : List Event) : Option Event :=
  events.find? fun event => !PayloadReadable J event

theorem firstUnreadable_eq_none_iff {events : List Event} :
    firstUnreadable J events = none ↔ ∀ event ∈ events, PayloadReadable J event = true := by
  simp [firstUnreadable, List.find?_eq_none]

theorem parse_eq_payloadValue {event : Event} (hReadable : PayloadReadable J event = true) :
    J.parse event.payload = some (payloadValue J event) := by
  obtain ⟨payload, hParse⟩ := Option.isSome_iff_exists.mp hReadable
  rw [payloadValue, hParse, Option.getD_some]

/-- What the reading of a list of events comes to. -/
theorem mapM_json (events : List Event) :
    (events.mapM (Event.json J) : FrontProg σ (List Json)) =
      match firstUnreadable J events with
      | none => pure (eventValues J events)
      | some event => throwJson (J.parseError event.payload) := by
  induction events with
  | nil => rfl
  | cons event events ih =>
      rw [List.mapM_cons]
      by_cases hReadable : PayloadReadable J event = true
      · have hFirst : firstUnreadable J (event :: events) = firstUnreadable J events :=
          List.find?_cons_of_neg (by simp [hReadable])
        rw [json_of_parse (parse_eq_payloadValue hReadable), pure_bind, ih, hFirst]
        cases firstUnreadable J events with
        | none => rfl
        | some unreadable => rfl
      · have hFirst : firstUnreadable J (event :: events) = some event :=
          List.find?_cons_of_pos (by simp [hReadable])
        have hParse : J.parse event.payload = none := by
          simpa [PayloadReadable] using hReadable
        rw [json_of_unreadable hParse, hFirst]
        rfl

/-- Readable events can be printed exactly as far as their types can. -/
theorem eventValues_allUtf8_iff (hConforms : J.Conforms) {events : List Event}
    (hReadable : ∀ event ∈ events, PayloadReadable J event = true) :
    Json.allUtf8 (eventValues J events) = true ↔ ∀ event ∈ events, isUtf8 event.type = true := by
  rw [Json.allUtf8_iff, eventValues, List.forall_mem_map]
  apply forall₂_congr
  intro event hEvent
  have hPayload := hConforms.parsesUtf8 _ _ (parse_eq_payloadValue (hReadable event hEvent))
  rw [eventObject_isUtf8, hPayload, Bool.true_and]

theorem eventValues_wellFormed (hConforms : J.Conforms) {events : List Event}
    (hReadable : ∀ event ∈ events, PayloadReadable J event = true)
    (hTypes : ∀ event ∈ events, isUtf8 event.type = true) :
    Json.allWellFormed (eventValues J events) = true := by
  rw [Json.allWellFormed_iff, eventValues, List.forall_mem_map]
  intro event hEvent
  have hPayload := hConforms.parse_wellFormed _ _ (parse_eq_payloadValue (hReadable event hEvent))
  rw [eventObject_wellFormed, hPayload, hTypes event hEvent]
  rfl

end ActionHandler
end Yess
