import Sparkplane.Gateway

/-!
# Image history

`image_history.rs`: old images of a conversation are replaced by a line of text
before a request goes to the engine. A traversal that only reads is the list of
the parts it visits.
-/

namespace Sparkplane.ImageHistory

open Gateway (Crates)

def requestBytes : Nat := 32 * 1024 * 1024

def textBytes : Nat := 8 * 1024 * 1024

def recent : Nat := 6

def highWater : Nat := 12

inductive Protocol where
  | responses
  | anthropic
  | chat
  deriving DecidableEq

namespace Protocol

def field : Protocol → String
  | .responses => "input"
  | _ => "messages"

def image (protocol : Protocol) (part : Value) : Bool :=
  part.fieldIs "type" (match protocol with
    | .responses => "input_image"
    | .anthropic => "image"
    | .chat => "image_url")

def text (protocol : Protocol) (text : String) : Value :=
  .object [("type", .string (if protocol = .responses then "input_text" else "text")), ("text", .string text)]

end Protocol

/-! ## The parts of an item -/

section
variable {σ : Type} (protocol : Protocol) (visit : Value → σ → Value × σ)

-- `content` is visited before `output`, wherever they stand in the object.
mutual
def visitParts : Value → σ → Value × σ
  | .array parts, s => (visitEach parts s).map .array id
  | .object fields, s =>
    if protocol.image (.object fields) then visit (.object fields) s
    else
      let content := visitField "content" fields s
      let output := visitField "output" fields content.2
      (.object ((Fields.putSome fields "content" content.1).putSome "output" output.1), output.2)
  | value, s => (value, s)

def visitEach : List Value → σ → List Value × σ
  | [], s => ([], s)
  | part :: parts, s =>
    let first := visitParts part s
    let rest := visitEach parts first.2
    (first.1 :: rest.1, rest.2)

def visitField (key : String) : List (String × Value) → σ → Option Value × σ
  | [], s => (none, s)
  | (k, value) :: fields, s =>
    if k = key then (visitParts value s).map some id else visitField key fields s
end

mutual
def parts : Value → List Value
  | .array items => partsEach items
  | .object fields =>
    if protocol.image (.object fields) then [.object fields]
    else partsField "content" fields ++ partsField "output" fields
  | _ => []

def partsEach : List Value → List Value
  | [] => []
  | item :: items => parts item ++ partsEach items

def partsField (key : String) : List (String × Value) → List Value
  | [] => []
  | (k, value) :: fields => if k = key then parts value else partsField key fields
end

end

def images (protocol : Protocol) (items : List Value) : List Value := items.flatMap (parts protocol)

def acknowledged (protocol : Protocol) (item : Value) : Bool :=
  item.fieldIs "role" "assistant" ||
    protocol = .responses && (item.fieldIs "type" "function_call" || item.fieldIs "type" "custom_tool_call")

def imagePayload (protocol : Protocol) (part : Value) : Option String :=
  match protocol with
  | .responses => (part.field "image_url").asStr
  | .anthropic => ((part.field "source").field "data").asStr
  | .chat => ((part.field "image_url").field "url").asStr

def payloadLen (protocol : Protocol) (part : Value) : Nat := ((imagePayload protocol part).map (·.utf8ByteSize)).getD 0

def payloadBytes (protocol : Protocol) (parts : List Value) : Nat := (parts.map (payloadLen protocol)).sum

def imageId (X : Crates) (protocol : Protocol) (part : Value) : Option String :=
  (imagePayload protocol part).map X.sha256

def evictable (protocol : Protocol) (part : Value) : Bool :=
  match part.asObject with
  | none => false
  | some object =>
    match protocol with
    | .responses | .chat =>
      object.keys.all (["type", "image_url", "detail"].contains ·) &&
        (imagePayload protocol part).any fun payload => payload.startsWith "data:image/png;base64," ||
          payload.startsWith "data:image/jpeg;base64," || payload.startsWith "data:image/webp;base64,"
    | .anthropic =>
      object.keys.all (["type", "source"].contains ·) && (part.field "source").fieldIs "type" "base64" &&
        ["image/png", "image/jpeg", "image/webp"].any ((part.field "source").fieldIs "media_type" ·)

/-! ## Pruning -/

/-- An archive that always gives the same answer. -/
abbrev Archive := String → Value → Option String

structure Statistics where
  evicted : Nat := 0
  removedBytes : Nat := 0

instance : Add Statistics where
  add a b := ⟨a.evicted + b.evicted, a.removedBytes + b.removedBytes⟩

/-- A history being pruned, with what was removed and what the archive was asked. -/
structure Progress where
  items : List Value := []
  stats : Statistics := {}
  calls : List (String × Value) := []

def Progress.next (p q : Progress) : Progress := ⟨q.items, p.stats + q.stats, p.calls ++ q.calls⟩

/-- The counters of the second loop of `prune_items`. -/
structure Sweep where
  remove : Nat
  payloadBytes : Nat
  stats : Statistics
  calls : List (String × Value)

section
variable (X : Crates) (protocol : Protocol) (maxCount : Nat) (archive : Option Archive)

/-- The position of the last acknowledged item, 0 where there is none: all items count as after it then. -/
def seen : List Value → Nat
  | [] => 0
  | _ :: items => if items.any (acknowledged protocol) then seen items + 1 else 0

def unseen (items : List Value) : List Value := images protocol (items.drop (seen protocol items))

def notePath (item : Value) (paths : List (String × String)) : List (String × String) :=
  if item.fieldIs "type" "function_call" || item.fieldIs "type" "custom_tool_call" then
    match (item.field "call_id").asStr, (item.field "arguments").asStr.bind X.fromStr with
    | some id, some arguments =>
      match (arguments.field "path").asStr with
      | some path => if path.utf8ByteSize ≤ 4096 then (id, path) :: paths else paths
      | none => paths
    | _, _ => paths
  else paths

def pathOf (item : Value) (paths : List (String × String)) : Option String :=
  (item.field "call_id").asStr.bind fun id => List.lookup id paths

/-- A user item or the result of a tool call. -/
def prunable (item : Value) : Bool :=
  item.fieldIs "role" "user" || protocol = .responses &&
      (item.fieldIs "type" "function_call_output" || item.fieldIs "type" "custom_tool_call_output") ||
    protocol = .chat && item.fieldIs "role" "tool"

def reference : Option String → String
  | some path => "Reopen with view_image using path " ++ X.toText (.string path) ++
      ". A source path may have changed; prefer the archived copy when present."
  | none => "Original is not available through this gateway; request the image again if details are needed."

def omitted (id : String) (original : Option String) : Value :=
  protocol.text ("[Older image " ++ id ++ " omitted from active history. " ++ reference X original ++
    " Written observations are retained.]")

def evictPart (path : Option String) (part : Value) (s : Sweep) : Value × Sweep :=
  if s.remove = 0 ∧ s.payloadBytes ≤ requestBytes / 2 ∨ evictable protocol part = false then (part, s)
  else
    match imageId X protocol part with
    | none => (part, s)
    | some id =>
      let bytes := payloadLen protocol part
      (omitted X protocol id ((archive.bind (· id part)).or path),
        { remove := s.remove - 1
          payloadBytes := s.payloadBytes - bytes
          stats := ⟨s.stats.evicted + 1, s.stats.removedBytes + bytes⟩
          calls := s.calls ++ if archive.isSome then [(id, part)] else [] })

def sweepItems (paths : List (String × String)) : List Value → Sweep → List Value × Sweep
  | [], s => ([], s)
  | item :: items, s =>
    let paths := notePath X item paths
    let first := if prunable protocol item then
        visitParts protocol (evictPart X protocol archive (pathOf item paths)) item s
      else (item, s)
    let rest := sweepItems paths items first.2
    (first.1 :: rest.1, rest.2)

def keep (items : List Value) : Nat := max (min recent maxCount) (unseen protocol items).length

def startSweep (items : List Value) : Sweep :=
  ⟨(images protocol items).length - keep protocol maxCount items, payloadBytes protocol (images protocol items), {}, []⟩

def prune (items : List Value) : Progress :=
  if (images protocol items).length < min highWater maxCount ∧
      payloadBytes protocol (images protocol items) ≤ requestBytes / 2 then ⟨items, {}, []⟩
  else
    -- The items from the last acknowledged one on are passed over.
    let k := seen protocol items
    let swept := sweepItems X protocol archive [] (items.take k) (startSweep protocol maxCount items)
    ⟨swept.1 ++ items.drop k, swept.2.stats, swept.2.calls⟩

def batchError : String := "new image batch exceeds the model limit; split the batch"

def pruneEnforced (items : List Value) : Except String Progress :=
  if maxCount < (unseen protocol items).length then .error batchError
  else .ok (prune X protocol maxCount archive items)

def pushItem (p : Progress) (item : Value) : Progress :=
  p.next (prune X protocol maxCount archive (p.items ++ [item]))

def pushAll (items : List Value) : Progress := items.foldl (pushItem X protocol maxCount archive) {}

structure Projected where
  value : Value
  stats : Statistics
  calls : List (String × Value)

/-- `value.get_mut(field).and_then(as_array_mut)`. -/
def history (value : Value) : Option (List Value) := (value.get protocol.field).bind Value.asArray

def project (value : Value) : Except String Projected :=
  match history protocol value with
  | none => .ok ⟨value, {}, []⟩
  | some items =>
    if maxCount < (unseen protocol items).length then .error batchError
    else do
      let p := pushAll X protocol maxCount archive items
      let last ← pruneEnforced X protocol maxCount archive p.items
      .ok ⟨value.put protocol.field (.array last.items), p.stats + last.stats, p.calls ++ last.calls⟩

end

/-! ## Streaming -/

inductive ReaderError where
  | batch
  | historyText
  | requestText
  | activeBatch
  | io
  | invalid

def ReaderError.message : ReaderError → String
  | .batch => batchError
  | .historyText | .requestText => "history text exceeds the adapter budget; compact the conversation"
  | .activeBatch | .io => "image or request exceeds the adapter byte budget"
  | .invalid => "request JSON is invalid"

structure Seed where
  stats : Statistics := {}
  calls : List (String × Value) := []
  reads : Nat := 0

section
variable (X : Crates) (protocol : Protocol) (maxCount : Nat) (archive : Option Archive)
  -- Which read of a key, a value or an end fails: the deadline, the limit of the
  -- bytes of one item, and a text that is not JSON.
  (fault : Nat → Option ReaderError)

def size (value : Value) : Nat := (X.toText value).utf8ByteSize

def read (seed : Seed) : Except ReaderError Seed :=
  match fault seed.reads with
  | some e => .error e
  | none => .ok { seed with reads := seed.reads + 1 }

def visitItems : List Value → Nat → List Value → Seed → Except ReaderError (List Value × Seed)
  | [], _, items, seed => do
    let seed ← read fault seed
    .ok (items, seed)
  | item :: rest, text, items, seed => do
    let seed ← read fault seed
    let text := text + (size X item - payloadBytes protocol (parts protocol item))
    Gateway.refuse (textBytes < text) .historyText
    let p := pushItem X protocol maxCount archive ⟨items, seed.stats, seed.calls⟩ item
    Gateway.refuse (requestBytes < payloadBytes protocol (images protocol p.items)) .activeBatch
    visitItems rest text p.items ⟨p.stats, p.calls, seed.reads⟩

def visitSeq (items : List Value) (seed : Seed) : Except ReaderError (Value × Seed) := do
  let (items, seed) ← visitItems X protocol maxCount archive fault items 0 [] seed
  match pruneEnforced X protocol maxCount archive items with
  | .error _ => .error .batch
  | .ok last => .ok (.array last.items, ⟨seed.stats + last.stats, seed.calls ++ last.calls, seed.reads⟩)

-- A history that is an object is visited as a request of its own.
mutual
def visitAny : Value → Seed → Except ReaderError (Value × Seed)
  | .array items, seed => visitSeq X protocol maxCount archive fault items seed
  | .string text, seed => do
    let seed ← read fault seed
    .ok (.string text, seed)
  | .object fields, seed => visitMap fields [] 0 seed
  | _, _ => .error .invalid

def visitMap : List (String × Value) → Fields → Nat → Seed → Except ReaderError (Value × Seed)
  | [], object, _, seed => do
    let seed ← read fault seed
    .ok (.object object, seed)
  | (key, value) :: rest, object, other, seed => do
    let seed ← read fault seed
    Gateway.refuse (object.contains key) .invalid
    if key = protocol.field then do
      let (value, seed) ← visitAny value seed
      visitMap rest (object.insert key value) other seed
    else do
      let seed ← read fault seed
      let other := other + (key.utf8ByteSize + size X value)
      Gateway.refuse (textBytes < other) .requestText
      visitMap rest (object.insert key value) other seed
end

/-- `project_reader` on the text of a value whose fields are as they were written. -/
def projectReader (trailing : Bool) (body : Value) : Except String Projected :=
  match body with
  | .object fields =>
    match visitMap X protocol maxCount archive fault fields [] 0 {} with
    | .error e => .error e.message
    | .ok (value, seed) => do
      Gateway.refuse trailing "request has trailing data"
      let last ← project X protocol maxCount none value
      Gateway.refuse (requestBytes < size X last.value) "projected request exceeds 32 MiB; compact the conversation"
      .ok ⟨last.value, seed.stats + last.stats, seed.calls⟩
  | _ => .error ReaderError.invalid.message

end

/-- The value that `serde_json` makes of the same text: the last field of a key stands. -/
def parsed : Value → Value
  | .object fields => .object (fields.foldl (fun object f => Fields.insert object f.1 f.2) [])
  | value => value

end Sparkplane.ImageHistory
