import Yess.Handler.EntityValues

namespace Yess
namespace Msg

open Foundation Db Ext ActionHandler

/-!
# `msg::serialize`

The serializer of lists writes the brackets and the commas itself; the reply of
`Action_handler::handle` is an array that the library prints.  `serialize_agrees` says
that both come to one text, and that the serializer throws exactly where the array
cannot be built.
-/

/-! ## Objects -/

/-- `std::map::emplace`: an element that has the key stays. -/
def emplace (key : String) (value : Json) : List (String × Json) → List (String × Json)
  | [] => [(key, value)]
  | (name, other) :: members =>
      if key < name then (key, value) :: (name, other) :: members
      else if key = name then (name, other) :: members
      else (name, other) :: emplace key value members

/-- A `json` object from a list of pairs, which are put into it in their order. -/
def ofPairs (pairs : List (String × Json)) : Json :=
  .object (pairs.foldl (fun members pair => emplace pair.1 pair.2 members) [])

/-- `obj[key] = value`. -/
def assign (key : String) (value : Json) : List (String × Json) → List (String × Json)
  | [] => [(key, value)]
  | (name, other) :: members =>
      if key < name then (key, value) :: (name, other) :: members
      else if key = name then (name, value) :: members
      else (name, other) :: assign key value members

/-! ## The serializer -/

section

variable (J : JsonLib) {σ : Type}

/-- `serialize(const Event&)`. -/
def serializeEvent (event : Event) : FrontProg σ String := do
  let payload ← parseJson J event.payload
  let obj := ofPairs [("id", .integer event.id.toInt), ("streamId", .integer event.streamId.toInt),
    ("payload", payload), ("type", .string event.type), ("version", .integer event.version.toInt)]
  dumpJson J obj

/-- `serialize(const Stream&)`. -/
def serializeStream (stream : Stream) : FrontProg σ String :=
  let obj := ofPairs [("id", .integer stream.id.toInt), ("type", .string stream.type),
    ("version", .integer stream.version.toInt)]
  dumpJson J obj

/-- The loop of the two serializers of lists, with its variables `result` and
`delim`. -/
def serializeList {α : Type} (serialize : α → FrontProg σ String) (items : List α) :
    FrontProg σ String := do
  let (result, _) ← items.foldlM (fun (result, delim) item => do
    let text ← serialize item
    pure (result ++ delim ++ text, ",")) ("[", "")
  pure (result ++ "]")

/-- `serialize(const std::vector<Event>&)`. -/
def serializeEvents (events : List Event) : FrontProg σ String :=
  serializeList (serializeEvent J) events

/-- `serialize(const std::vector<Stream>&)`. -/
def serializeStreams (streams : List Stream) : FrontProg σ String :=
  serializeList (serializeStream J) streams

end

/-! ## The two field maps -/

theorem ofPairs_event (event : Event) (payload : Json) :
    ofPairs [("id", .integer event.id.toInt), ("streamId", .integer event.streamId.toInt),
      ("payload", payload), ("type", .string event.type),
      ("version", .integer event.version.toInt)] = eventObject event payload := by
  simp +decide only [ofPairs, List.foldl, emplace, eventObject, if_true, if_false]

theorem ofPairs_stream (stream : Stream) :
    ofPairs [("id", .integer stream.id.toInt), ("type", .string stream.type),
      ("version", .integer stream.version.toInt)] = stream.json := by
  simp +decide only [ofPairs, List.foldl, emplace, Stream.json, if_false]

/-- The object of `Event::json` is the one that its assignments make, in their order. -/
theorem assigned_event (event : Event) (payload : Json) :
    Json.object (assign "version" (.integer event.version.toInt)
      (assign "type" (.string event.type) (assign "payload" payload
        (assign "streamId" (.integer event.streamId.toInt)
          (assign "id" (.integer event.id.toInt) []))))) = eventObject event payload := by
  simp +decide only [assign, eventObject, if_true, if_false]

theorem assigned_stream (stream : Stream) :
    Json.object (assign "version" (.integer stream.version.toInt)
      (assign "type" (.string stream.type) (assign "id" (.integer stream.id.toInt) []))) =
        stream.json := by
  simp +decide only [assign, Stream.json, if_false]

variable {J : JsonLib} {σ : Type}

theorem serializeEvent_eq (hConforms : J.Conforms) {event : Event}
    (hType : isUtf8 event.type = true) :
    (serializeEvent J event : FrontProg σ String) = (do
      let value ← Event.json J event
      pure (J.dump value)) := by
  cases hParse : J.parse event.payload with
  | none =>
      rw [json_of_unreadable hParse]
      simp only [serializeEvent, parseJson, hParse]
      rfl
  | some payload =>
      have hPayload := hConforms.parsesUtf8 event.payload payload hParse
      have hUtf8 : (eventObject event payload).isUtf8 = true := by
        rw [eventObject_isUtf8, hPayload, hType]
        rfl
      rw [json_of_parse hParse]
      simp only [serializeEvent, parseJson, hParse, pure_bind, ofPairs_event]
      exact dumpJson_of_utf8 J hUtf8

theorem serializeStream_eq {stream : Stream} (hType : isUtf8 stream.type = true) :
    (serializeStream J stream : FrontProg σ String) = pure (J.dump stream.json) := by
  rw [serializeStream, ofPairs_stream]
  exact dumpJson_of_utf8 J (by rw [stream_json_isUtf8, hType])

/-! ## The loop -/

/-- The commas between what is appended and what was there already. -/
def separated (delim : String) (texts : List String) : String :=
  texts.foldr (fun text rest => delim ++ text ++ rest) ""

theorem separated_cons (delim text : String) (texts : List String) :
    separated delim (text :: texts) = delim ++ text ++ separated delim texts := rfl

theorem intercalate_cons (delim text : String) (texts : List String) :
    delim.intercalate (text :: texts) = text ++ separated delim texts := by
  induction texts generalizing text with
  | nil => simp [separated]
  | cons next texts ih =>
      rw [String.intercalate_cons_cons, ih, separated_cons]
      simp only [String.append_assoc]

/-- Behind the first item the loop appends a comma and the text of each item. -/
theorem foldlM_separated {α : Type} {serialize : α → FrontProg σ String}
    {value : α → FrontProg σ Json} {items : List α}
    (hItem : ∀ item ∈ items, serialize item = do
      let v ← value item
      pure (J.dump v)) (result delim : String) :
    items.foldlM (fun (read : String × String) item => do
        let text ← serialize item
        pure (read.1 ++ read.2 ++ text, ",")) (result, delim) = (do
      let arr ← items.mapM value
      pure (match arr.map J.dump with
        | [] => (result, delim)
        | text :: texts => (result ++ delim ++ text ++ separated "," texts, ","))) := by
  induction items generalizing result delim with
  | nil => simp
  | cons item items ih =>
      rw [List.forall_mem_cons] at hItem
      rw [List.foldlM_cons, List.mapM_cons, hItem.1]
      simp only [bind_assoc, pure_bind, ih hItem.2]
      congr 1
      funext v
      congr 1
      funext arr
      cases arr with
      | nil => simp [separated]
      | cons w arr => simp [separated_cons, String.append_assoc]

theorem serializeList_eq {α : Type} (hConforms : J.Conforms)
    {serialize : α → FrontProg σ String} {value : α → FrontProg σ Json} {items : List α}
    (hItem : ∀ item ∈ items, serialize item = do
      let v ← value item
      pure (J.dump v)) :
    serializeList serialize items = (do
      let arr ← items.mapM value
      pure (J.dump (.array arr))) := by
  have hFold := foldlM_separated hItem "[" ""
  unfold serializeList
  show (do
    let read ← items.foldlM (fun (read : String × String) item => do
        let text ← serialize item
        pure (read.1 ++ read.2 ++ text, ",")) ("[", "")
    pure (read.1 ++ "]") : FrontProg σ String) = _
  rw [hFold]
  simp only [bind_assoc, pure_bind]
  congr 1
  funext arr
  rw [hConforms.dump_array]
  cases arr with
  | nil => simp
  | cons v arr => simp [intercalate_cons, String.append_assoc]

/-! ## Agreement -/

/-- A serializer returns exactly under a condition, and then the compact text of the
array that is built of the values, which parses back to this array. -/
structure Agrees (J : JsonLib) (serialize : FrontProg σ String) (values : FrontProg σ (List Json))
    (condition : Prop) : Prop where
  succeeds_iff : ∀ s, (∃ text s', serialize s = .returned text s') ↔ condition
  text_eq : ∀ s text s', serialize s = .returned text s' →
    ∃ arr, values s = .returned arr s' ∧ text = J.dump (.array arr) ∧
      J.parse text = some (.array arr)

theorem agrees_of_values {serialize : FrontProg σ String} {arr : List Json}
    (hConforms : J.Conforms) (hSerialize : serialize = pure (J.dump (.array arr)))
    (hWellFormed : Json.allWellFormed arr = true) {condition : Prop} (hCondition : condition) :
    Agrees J serialize (pure arr) condition := by
  rw [hSerialize]
  constructor
  · intro s
    exact iff_of_true ⟨_, s, rfl⟩ hCondition
  · intro s text s' hReturned
    rw [Prog.pure_apply, Outcome.returned.injEq] at hReturned
    obtain ⟨rfl, rfl⟩ := hReturned
    exact ⟨arr, rfl, rfl, hConforms.parse_dump _ hWellFormed⟩

theorem serializeEvents_agrees (hConforms : J.Conforms) {events : List Event}
    (hTypes : ∀ event ∈ events, isUtf8 event.type = true) :
    Agrees J (serializeEvents J events : FrontProg σ String) (events.mapM (Event.json J))
      (∀ event ∈ events, (J.parse event.payload).isSome) := by
  have hSerialize : (serializeEvents J events : FrontProg σ String) = _ :=
    serializeList_eq hConforms fun event hEvent => serializeEvent_eq hConforms (hTypes event hEvent)
  rw [mapM_json] at hSerialize ⊢
  cases hFirst : firstUnreadable J events with
  | none =>
      have hReadable := firstUnreadable_eq_none_iff.mp hFirst
      simp only [hFirst, pure_bind] at hSerialize
      exact agrees_of_values hConforms hSerialize
        (eventValues_wellFormed hConforms hReadable hTypes) hReadable
  | some event =>
      have hThrew : ∀ s, (serializeEvents J events : FrontProg σ String) s =
          .threw (.json (J.parseError event.payload)) s := by
        intro s
        rw [hSerialize, hFirst]
        rfl
      have hNot : ¬∀ event ∈ events, (J.parse event.payload).isSome := by
        intro hReadable
        have hNone := firstUnreadable_eq_none_iff.mpr hReadable
        simp [hFirst] at hNone
      constructor
      · intro s
        refine iff_of_false ?_ hNot
        rintro ⟨text, s', hReturned⟩
        simp [hThrew] at hReturned
      · intro s text s' hReturned
        simp [hThrew] at hReturned

theorem serializeStreams_agrees (hConforms : J.Conforms) {streams : List Stream}
    (hTypes : ∀ stream ∈ streams, isUtf8 stream.type = true) :
    Agrees J (serializeStreams J streams : FrontProg σ String)
      (pure (streams.map Stream.json)) True := by
  have hSerialize : (serializeStreams J streams : FrontProg σ String) = _ :=
    @serializeList_eq J σ Stream hConforms _ (fun stream => pure stream.json) streams
      fun stream hStream => by rw [serializeStream_eq (hTypes stream hStream), pure_bind]
  rw [List.mapM_pure, pure_bind] at hSerialize
  have hWellFormed : Json.allWellFormed (streams.map Stream.json) = true := by
    rw [Json.allWellFormed_iff, List.forall_mem_map]
    intro stream hStream
    rw [stream_json_wellFormed, hTypes stream hStream]
  exact agrees_of_values hConforms hSerialize hWellFormed trivial

/-- For all lists of events and of streams with types in UTF-8: the serializer of events
returns exactly when all payloads are JSON, that of streams always; and what they return
is the compact text of the array that `handle` builds, which parses back to the
array. -/
theorem serialize_agrees (hConforms : J.Conforms) :
    (∀ events : List Event, (∀ event ∈ events, isUtf8 event.type = true) →
      Agrees J (serializeEvents J events : FrontProg σ String) (events.mapM (Event.json J))
        (∀ event ∈ events, (J.parse event.payload).isSome)) ∧
    ∀ streams : List Stream, (∀ stream ∈ streams, isUtf8 stream.type = true) →
      Agrees J (serializeStreams J streams : FrontProg σ String)
      (pure (streams.map Stream.json)) True :=
  ⟨fun _ => serializeEvents_agrees hConforms, fun _ => serializeStreams_agrees hConforms⟩

def sampleEvents : List Event :=
  [⟨1, 1, "UserCreated", "[null,[1,-2],\"x\"]", 1⟩, ⟨2, 1, "User,Renamed", "{}", 2⟩]

theorem serialize_agrees_sample :
    Agrees Compact.jsonLib (serializeEvents Compact.jsonLib sampleEvents : FrontProg Unit String)
        (sampleEvents.mapM (Event.json Compact.jsonLib))
        (∀ event ∈ sampleEvents, (Compact.jsonLib.parse event.payload).isSome) ∧
      Agrees Compact.jsonLib
        (serializeStreams Compact.jsonLib [⟨1, "User", 0⟩] : FrontProg Unit String)
        (pure [Stream.json ⟨1, "User", 0⟩]) True :=
  have hAgrees := @serialize_agrees Compact.jsonLib Unit Compact.jsonText_conforms
  ⟨hAgrees.1 sampleEvents (by decide +kernel), hAgrees.2 [⟨1, "User", 0⟩] (by decide +kernel)⟩

example : ∀ event ∈ sampleEvents, (Compact.jsonLib.parse event.payload).isSome := by
  decide +kernel

end Msg
end Yess
