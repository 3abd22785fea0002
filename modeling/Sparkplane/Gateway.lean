import Sparkplane.Value
import Sparkplane.Wire

/-!
# The inference gateway

`gateway.rs`: what the public protocols share. A request of either protocol is
rewritten into one chat request for the engine; the engine's answer arrives as
generation events. A body is the text it decodes to, since bytes that are not
UTF-8 are refused like any other text that is not JSON.
-/

namespace Sparkplane.Gateway

def maxCompletionBodyBytes : Nat := 8 * 1024 * 1024

def maxOutputTokens : Nat := 32768

structure OpenAiError where
  code : String
  message : String

def invalidRequest (message : String) : OpenAiError := ⟨"invalid_request_error", message⟩

/-- `return Err(e)` when `bad` holds. -/
def refuse {ε : Type} (bad : Bool) (e : ε) : Except ε Unit := if bad then .error e else .ok ()

def okOr {ε α : Type} (o : Option α) (e : ε) : Except ε α :=
  match o with
  | some a => .ok a
  | none => .error e

section
variable {ε α β : Type}

theorem ok_bind_eq (a : α) (f : α → Except ε β) : (Except.ok a >>= f) = f a := rfl

theorem ok_bind {x : Except ε α} {f : α → Except ε β} {b : β} (h : (x >>= f) = .ok b) :
    ∃ a, x = .ok a ∧ f a = .ok b := by
  cases x with
  | error e => cases h
  | ok a => exact ⟨a, rfl, h⟩

theorem refuse_bind {bad : Bool} {e : ε} {f : Unit → Except ε β} {b : β} (h : (refuse bad e >>= f) = .ok b) :
    bad = false ∧ f () = .ok b := by
  cases bad with
  | false => exact ⟨rfl, h⟩
  | true => cases h

theorem okOr_bind {o : Option α} {e : ε} {f : α → Except ε β} {b : β} (h : (okOr o e >>= f) = .ok b) :
    ∃ a, o = some a ∧ f a = .ok b := by
  cases o with
  | none => cases h
  | some a => exact ⟨a, rfl, h⟩

end

inductive ImageFormat where
  | png
  | jpeg
  | webP

/-- What the code takes from its crates: `serde_json` (`from_str`, `from_slice`
and `to_string`), `base64`, `image`, `sha2` with `{:x}`, and `char::is_whitespace`. -/
structure Crates where
  fromStr : String → Option Value
  toText : Value → String
  decode : String → Option (List UInt8)
  encode : List UInt8 → String
  dimensions : ImageFormat → List UInt8 → Option (Nat × Nat)
  sha256 : String → String
  isWhitespace : Char → Bool

/-! ## The chat request -/

inductive Role where
  | system
  | user
  | assistant
  | tool
  deriving DecidableEq

def Role.text : Role → String
  | .system => "system"
  | .user => "user"
  | .assistant => "assistant"
  | .tool => "tool"

inductive Part where
  | text (text : String)
  | imageUrl (url : String)
  deriving DecidableEq

inductive Content where
  | null
  | text (text : String)
  | parts (parts : List Part)

structure ChatToolCall where
  id : String
  name : String
  arguments : String
  deriving DecidableEq

/-- A message of the engine's request. A key that is absent is `none`. -/
structure ChatMessage where
  role : Role
  content : Content
  toolCalls : Option (List ChatToolCall) := none
  reasoningContent : Option String := none
  toolCallId : Option String := none

def Part.toValue : Part → Value
  | .text s => .object [("type", .string "text"), ("text", .string s)]
  | .imageUrl url => .object [("type", .string "image_url"), ("image_url", .object [("url", .string url)])]

def Content.toValue : Content → Value
  | .null => .null
  | .text s => .string s
  | .parts l => .array (l.map Part.toValue)

def ChatToolCall.toValue (c : ChatToolCall) : Value :=
  .object [("id", .string c.id), ("type", .string "function"),
    ("function", .object [("name", .string c.name), ("arguments", .string c.arguments)])]

def ChatMessage.toValue (m : ChatMessage) : Value :=
  .object ([("role", .string m.role.text), ("content", m.content.toValue)] ++
    (m.toolCalls.map fun calls => ("tool_calls", Value.array (calls.map ChatToolCall.toValue))).toList ++
    (m.reasoningContent.map fun text => ("reasoning_content", Value.string text)).toList ++
    (m.toolCallId.map fun id => ("tool_call_id", Value.string id)).toList)

/-- The content of one text part alone is that text. -/
def Content.ofParts : List Part → Content
  | [.text s] => .text s
  | l => .parts l

def mergeSystemMessages (messages : List ChatMessage) : List ChatMessage :=
  let system := messages.filterMap fun m =>
    match m.role, m.content with
    | .system, .text text => some text
    | _, _ => none
  let native := messages.filter fun m => m.role ≠ .system
  if system.isEmpty then native
  else { role := .system, content := .text ("\n\n".intercalate system) } :: native

structure GenerationRequest where
  body : Value
  stream : Bool
  customTools : List String
  omitReasoning : Bool

/-! ## Profiles -/

structure SamplingPolicy where
  defaults : List (String × Number) := []
  reasoningEffortMap : List (String × String) := []
  chatTemplateKwargs : Fields := []

structure VisionPolicy where
  mediaTypes : List String
  maxBytes : Nat
  maxTotalBytes : Nat
  maxCount : Nat
  maxWidth : Nat
  maxHeight : Nat

structure GatewayProfile where
  vision : Option VisionPolicy := none
  nativeResponses : Bool := false
  sampling : SamplingPolicy := {}

def SamplingPolicy.effort (policy : SamplingPolicy) (effort : String) : String :=
  ((policy.reasoningEffortMap.find? fun e => e.1 = effort).map Prod.snd).getD effort

def applySamplingDefaults (policy : SamplingPolicy) (body : Fields) : Fields :=
  let body := policy.defaults.foldl (fun (body : Fields) d =>
    if (body.get d.1).all Value.isNull then body.insert d.1 (.number d.2) else body) body
  if policy.chatTemplateKwargs.isEmpty then body
  else
    match (body.get "chat_template_kwargs").getD (.object []) with
    | .object template =>
      body.insert "chat_template_kwargs" <| .object <| policy.chatTemplateKwargs.foldl (fun (template : Fields) k =>
        if template.contains k.1 then template else template.insert k.1 k.2) template
    | _ => body

theorem sampling_get {defaults : List (String × Number)} {key : String} {v : Value} (hn : v.isNull = false) :
    ∀ {body : Fields}, body.get key = some v →
      (defaults.foldl (fun (body : Fields) d =>
        if (body.get d.1).all Value.isNull then body.insert d.1 (.number d.2) else body) body).get key = some v := by
  induction defaults with
  | nil => exact id
  | cons d defaults ih =>
    intro body h
    refine ih ?_
    by_cases hd : key = d.1
    · subst hd
      simp [h, hn]
    · dsimp only
      split
      · rw [Fields.get_insert_of_ne _ _ hd, h]
      · exact h

theorem applySamplingDefaults_get {policy : SamplingPolicy} {body : Fields} {key : String} {v : Value}
    (h : body.get key = some v) (hn : v.isNull = false) (hk : key ≠ "chat_template_kwargs") :
    (applySamplingDefaults policy body).get key = some v := by
  have hd := @sampling_get policy.defaults key v hn body h
  unfold applySamplingDefaults
  dsimp only
  split
  · exact hd
  · split
    · rw [Fields.get_insert_of_ne _ _ hk, hd]
    · exact hd

def omitEmptyToolControls (body : Fields) : Fields :=
  if ((body.get "tools").bind Value.asArray).any List.isEmpty then
    ((body.remove "tools").remove "tool_choice").remove "parallel_tool_calls"
  else body

/-! ## Images -/

structure ImageBudget where
  count : Nat := 0
  bytes : Nat := 0

structure ImagePart where
  mediaType : String
  bytes : List UInt8

def splitOnce (sep s : String) : Option (String × String) :=
  match s.splitOn sep with
  | [] | [_] => none
  | first :: rest => some (first, sep.intercalate rest)

def parseDataUri (value : String) : Except OpenAiError (String × String) := do
  let value ← okOr (stripPre "data:" value) (invalidRequest "remote and file image URLs are unsupported")
  let (mediaType, data) ← okOr (splitOnce ";base64," value)
    (invalidRequest "image data URI must contain base64 content")
  refuse (mediaType.isEmpty || data.isEmpty) (invalidRequest "image data URI is empty")
  return (mediaType, data)

/-- The format a media type and the magic bytes agree on. -/
def imageFormat (mediaType : String) (bytes : List UInt8) : Option ImageFormat :=
  if mediaType = "image/png" ∧ [0x89, 0x50, 0x4e, 0x47, 0x0d, 0x0a, 0x1a, 0x0a].isPrefixOf bytes then some .png
  else if mediaType = "image/jpeg" ∧ [0xff, 0xd8, 0xff].isPrefixOf bytes then some .jpeg
  else if mediaType = "image/webp" ∧ [0x52, 0x49, 0x46, 0x46].isPrefixOf bytes ∧
      [0x57, 0x45, 0x42, 0x50].isPrefixOf (bytes.drop 8) then some .webP
  else none

def decodeImage (X : Crates) (mediaType encoded : String) (policy : Option VisionPolicy) (budget : ImageBudget) :
    Except OpenAiError (ImagePart × ImageBudget) := do
  let policy ← okOr policy (invalidRequest "image input requires a vision profile")
  refuse (mediaType ∉ policy.mediaTypes || (policy.maxBytes + 2) / 3 * 4 + 4 < encoded.utf8ByteSize)
    (invalidRequest "image format or encoded size is unsupported")
  let bytes ← okOr (X.decode encoded) (invalidRequest "image base64 is invalid")
  refuse (bytes.isEmpty || policy.maxBytes < bytes.length || policy.maxCount ≤ budget.count ||
      policy.maxTotalBytes < budget.bytes + bytes.length) (invalidRequest "image byte or count limit is exceeded")
  let format ← okOr (imageFormat mediaType bytes)
    (invalidRequest "image media type does not match its magic bytes")
  let (width, height) ← okOr (X.dimensions format bytes) (invalidRequest "image header is invalid")
  refuse (width = 0 || height = 0 || policy.maxWidth < width || policy.maxHeight < height)
    (invalidRequest "image dimensions exceed the profile limit")
  return (⟨mediaType, bytes⟩, ⟨budget.count + 1, budget.bytes + bytes.length⟩)

def canonicalImage (X : Crates) (image : ImagePart) : Part :=
  .imageUrl ("data:" ++ image.mediaType ++ ";base64," ++ X.encode image.bytes)

/-! ## Generation events -/

inductive GenerationEvent where
  | reasoningDelta (text : String)
  | textDelta (text : String)
  | toolCallDelta (index : UInt32) (callId name : Option String) (arguments : String)
  | finished (finishReason : Option String)
  | usage (promptTokens completionTokens : Nat)
  | done
  deriving DecidableEq

end Sparkplane.Gateway
