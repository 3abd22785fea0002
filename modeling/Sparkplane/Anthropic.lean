import Sparkplane.Gateway

/-!
# Anthropic requests

`rewrite_anthropic_request_with_profile`. The request is the document `serde`
makes of the body; `anthropicRequest` stands for that. A message of blocks is
regrouped by kind before it is written out, and the calls that wait for their
results are carried from message to message.
-/

namespace Sparkplane.Gateway

variable {X : Crates}

structure AnthropicError where
  errorType : String
  message : String

def anthropicInvalid (message : String) : AnthropicError := ⟨"invalid_request_error", message⟩

/-! ## The document -/

structure CacheControl where
  kind : String
  ttl : Option String := none

structure AnthropicImageSource where
  kind : String
  mediaType : String
  data : String

inductive ToolResultBlock where
  | text (text : String) (cacheControl : Option CacheControl)
  | image (source : AnthropicImageSource)

inductive ToolResultContent where
  | text (text : String)
  | blocks (blocks : List ToolResultBlock)

inductive ContentBlock where
  | text (text : String) (cacheControl : Option CacheControl)
  | toolUse (id name : String) (input : Value) (cacheControl : Option CacheControl)
  | toolResult (toolUseId : String) (content : ToolResultContent) (isError : Bool)
      (cacheControl : Option CacheControl)
  | image (source : AnthropicImageSource)
  | thinking (thinking signature : String) (cacheControl : Option CacheControl)

inductive AnthropicContent where
  | text (text : String)
  | blocks (blocks : List ContentBlock)

structure AnthropicMessage where
  role : String
  content : AnthropicContent

structure AnthropicTool where
  name : String
  description : String := ""
  inputSchema : Value
  kind : Option String := none
  cacheControl : Option CacheControl := none

structure AnthropicToolChoice where
  kind : String
  name : Option String := none
  disableParallelToolUse : Bool := false

structure AnthropicThinking where
  kind : String
  budgetTokens : Option Nat := none
  display : Option String := none

structure AnthropicContextEdit where
  kind : String
  keep : String

structure AnthropicOutputFormat where
  kind : String
  schema : Value

structure AnthropicOutputConfig where
  effort : Option String := none
  format : Option AnthropicOutputFormat := none

structure AnthropicMessageRequest where
  model : String
  messages : List AnthropicMessage
  system : Option AnthropicContent := none
  maxTokens : Nat
  stream : Bool := false
  tools : List AnthropicTool := []
  toolChoice : Option AnthropicToolChoice := none
  stopSequences : List String := []
  temperature : Option Rat := none
  topP : Option Rat := none
  topK : Option Nat := none
  /-- `metadata.user_id`. -/
  userId : Option String := none
  thinking : Option AnthropicThinking := none
  /-- `context_management.edits`. -/
  edits : List AnthropicContextEdit := []
  outputConfig : Option AnthropicOutputConfig := none
  serviceTier : Option String := none

/-! ## Options -/

def validateCacheControl (value : Option CacheControl) : Except AnthropicError Unit :=
  refuse (value.any fun v => v.kind ≠ "ephemeral" || v.ttl.any (· ∉ ["5m", "1h"]))
    (anthropicInvalid "cache control is invalid")

def outsideUnit (q : Rat) : Bool := q < 0 || 1 < q

def validateAnthropicOptions (r : AnthropicMessageRequest) : Except AnthropicError Unit := do
  refuse (r.topK.any (· = 0) || r.temperature.any outsideUnit || r.topP.any outsideUnit ||
      r.userId.any (256 < ·.utf8ByteSize) || r.serviceTier.any (· ≠ "auto"))
    (anthropicInvalid "request options are invalid")
  if let some thinking := r.thinking then
    let budgetValid : Bool := match thinking.kind with
      | "enabled" => thinking.budgetTokens.any fun budget => 1024 ≤ budget && budget < r.maxTokens
      | "adaptive" | "disabled" => thinking.budgetTokens.isNone
      | _ => false
    refuse (!budgetValid || thinking.display.any (· ≠ "omitted")) (anthropicInvalid "thinking mode is unsupported")
  refuse (r.edits.any (fun edit => edit.kind ≠ "clear_thinking_20251015" || edit.keep ≠ "all") ||
      (r.outputConfig.bind (·.effort)).any (· ∉ ["low", "medium", "high", "max"]))
    (anthropicInvalid "Claude Code compatibility option is invalid")

def anthropicResponseFormat (output : Option AnthropicOutputConfig) : Except AnthropicError Value := do
  let some format := output.bind (·.format) | return .null
  refuse (format.kind ≠ "json_schema" || !format.schema.isObject) (anthropicInvalid "output format is invalid")
  return .object [("type", .string "json_schema"), ("json_schema", .object
    [("name", .string "anthropic_output"), ("schema", format.schema), ("strict", .bool true)])]

def anthropicTool (tool : AnthropicTool) : Except AnthropicError Value := do
  validateCacheControl tool.cacheControl
  refuse (tool.kind.isSome || tool.name.isEmpty || 128 < tool.name.utf8ByteSize)
    ⟨"invalid_request_error", "provider-hosted tools are unsupported"⟩
  refuse (!tool.inputSchema.isObject) (anthropicInvalid "tool input_schema must be an object")
  return .object [("type", .string "function"), ("function", .object [("name", .string tool.name),
    ("description", .string tool.description), ("parameters", tool.inputSchema)])]

def anthropicToolChoice (choice : Option AnthropicToolChoice) : Except AnthropicError Value := do
  let some choice := choice | return .string "auto"
  match choice.kind with
  | "auto" => return .string "auto"
  | "any" => return .string "required"
  | "none" => return .string "none"
  | "tool" =>
    match choice.name.filter (!·.isEmpty) with
    | some name => return .object [("type", .string "function"), ("function", .object [("name", .string name)])]
    | none => throw (anthropicInvalid "tool choice name is required")
  | _ => throw (anthropicInvalid "tool choice is unsupported")

/-! ## The reasoning signature -/

def signaturePre : String := "sy-local-v1:"

def localReasoningSignature (X : Crates) (reasoning : String) : String := signaturePre ++ X.sha256 reasoning

def validLocalReasoningSignature (X : Crates) (reasoning signature : String) : Bool :=
  if !reasoning.isEmpty then signature = localReasoningSignature X reasoning
  else (stripPre signaturePre signature).any fun digest =>
    digest.utf8ByteSize = 64 && digest.toList.all isAsciiHexdigit

/-! ## Blocks -/

def anthropicSystemText (content : AnthropicContent) : Except AnthropicError String :=
  match content with
  | .text text => return text
  | .blocks blocks => blocks.foldlM (fun text block =>
    match block with
    | .text part cacheControl => do
      validateCacheControl cacheControl
      return text ++ part
    | _ => throw (anthropicInvalid "system content must contain only text")) ""

def anthropicImage (X : Crates) (source : AnthropicImageSource) (vision : Option VisionPolicy)
    (images : ImageBudget) : Except AnthropicError (Part × ImageBudget) :=
  match decodeImage X source.mediaType source.data vision images with
  | .ok (image, images) => return (canonicalImage X image, images)
  | .error e => throw (anthropicInvalid e.message)

structure ResultParts where
  content : List Part := []
  text : String := ""
  multimodal : Bool := false
  images : ImageBudget

def resultBlock (X : Crates) (vision : Option VisionPolicy) (s : ResultParts) :
    ToolResultBlock → Except AnthropicError ResultParts
  | .text part cacheControl => do
    validateCacheControl cacheControl
    return { s with text := s.text ++ part, content := s.content ++ [.text part] }
  | .image source => do
    refuse (source.kind ≠ "base64") (anthropicInvalid "image source must be inline base64 tool-result content")
    let (image, images) ← anthropicImage X source vision s.images
    return { s with content := s.content ++ [image], multimodal := true, images := images }

def anthropicToolResultContent (X : Crates) (content : ToolResultContent) (vision : Option VisionPolicy)
    (images : ImageBudget) : Except AnthropicError (Content × ImageBudget) :=
  match content with
  | .text text => return (.text text, images)
  | .blocks blocks => do
    let s ← blocks.foldlM (resultBlock X vision) { images := images }
    return (if s.multimodal then .parts s.content else .text s.text, s.images)

def Content.markError : Content → Content
  | .text s => .text ("Tool error: " ++ s)
  | .parts l => .parts (.text "Tool error:" :: l)
  | .null => .null

/-- What the blocks of one message are regrouped into, with the calls that wait
for a result and the images so far. -/
structure Blocks where
  content : List Part := []
  reasoning : String := ""
  calls : List ChatToolCall := []
  results : List ChatMessage := []
  pending : List String
  images : ImageBudget

def anthropicBlock (X : Crates) (role : String) (vision : Option VisionPolicy) (s : Blocks) :
    ContentBlock → Except AnthropicError Blocks
  | .text part cacheControl => do
    validateCacheControl cacheControl
    return { s with content := s.content ++ [.text part] }
  | .toolUse id name input cacheControl => do
    validateCacheControl cacheControl
    refuse (role ≠ "assistant" || id.isEmpty || name.isEmpty || id ∈ s.pending)
      (anthropicInvalid "tool_use block is invalid")
    return { s with pending := s.pending ++ [id], calls := s.calls ++ [⟨id, name, X.toText input⟩] }
  | .toolResult toolUseId content isError cacheControl => do
    validateCacheControl cacheControl
    refuse (role ≠ "user" || toolUseId ∉ s.pending) (anthropicInvalid "tool_result does not match a prior tool_use")
    let (content, images) ← anthropicToolResultContent X content vision s.images
    return { s with
      pending := s.pending.erase toolUseId
      images := images
      results := s.results ++ [{
        role := .tool
        toolCallId := some toolUseId
        content := if isError then content.markError else content }] }
  | .image source => do
    refuse (role ≠ "user" || source.kind ≠ "base64")
      (anthropicInvalid "image source must be inline base64 user content")
    let (image, images) ← anthropicImage X source vision s.images
    return { s with content := s.content ++ [image], images := images }
  | .thinking thinking signature cacheControl => do
    validateCacheControl cacheControl
    refuse (role ≠ "assistant" || !validLocalReasoningSignature X thinking signature)
      (anthropicInvalid "thinking block is invalid")
    return { s with reasoning := s.reasoning ++ thinking }

def Blocks.Takes (X : Crates) (role : String) (s s' : Blocks) : ContentBlock → Prop
  | .text part _ => s' = { s with content := s.content ++ [.text part] }
  | .toolUse id name input _ => role = "assistant" ∧ id ∉ s.pending ∧
      s' = { s with pending := s.pending ++ [id], calls := s.calls ++ [⟨id, name, X.toText input⟩] }
  | .toolResult id _ _ _ => role = "user" ∧ id ∈ s.pending ∧ ∃ (content : Content) (images : ImageBudget),
      s' = { s with
        pending := s.pending.erase id
        images := images
        results := s.results ++ [{ role := .tool, toolCallId := some id, content := content }] }
  | .image _ => role = "user" ∧ ∃ (part : Part) (images : ImageBudget),
      s' = { s with content := s.content ++ [part], images := images }
  | .thinking thinking _ _ => role = "assistant" ∧ s' = { s with reasoning := s.reasoning ++ thinking }

theorem anthropicBlock_ok {role : String} {vision : Option VisionPolicy} {s s' : Blocks}
    {block : ContentBlock} (h : anthropicBlock X role vision s block = .ok s') : s.Takes X role s' block := by
  cases block with
  | text part cacheControl =>
    obtain ⟨_, -, h⟩ := ok_bind h
    cases h
    rfl
  | toolUse id name input cacheControl =>
    obtain ⟨_, -, h⟩ := ok_bind h
    obtain ⟨hgood, h⟩ := refuse_bind h
    cases h
    simp only [Bool.or_eq_false_iff, decide_eq_false_iff_not, not_not] at hgood
    exact ⟨hgood.1.1.1, hgood.2, rfl⟩
  | toolResult id content isError cacheControl =>
    obtain ⟨_, -, h⟩ := ok_bind h
    obtain ⟨hgood, h⟩ := refuse_bind h
    obtain ⟨⟨content', images'⟩, -, h⟩ := ok_bind h
    cases h
    simp only [Bool.or_eq_false_iff, decide_eq_false_iff_not, not_not] at hgood
    exact ⟨hgood.1, hgood.2, _, _, rfl⟩
  | image source =>
    obtain ⟨hgood, h⟩ := refuse_bind h
    obtain ⟨⟨part, images'⟩, -, h⟩ := ok_bind h
    cases h
    simp only [Bool.or_eq_false_iff, decide_eq_false_iff_not, not_not] at hgood
    exact ⟨hgood.1, _, _, rfl⟩
  | thinking thinking signature cacheControl =>
    obtain ⟨_, -, h⟩ := ok_bind h
    obtain ⟨hgood, h⟩ := refuse_bind h
    cases h
    simp only [Bool.or_eq_false_iff, decide_eq_false_iff_not, not_not] at hgood
    exact ⟨hgood.1, rfl⟩

def anthropicRole : String → Option Role
  | "system" => some .system
  | "user" => some .user
  | "assistant" => some .assistant
  | _ => none

def Blocks.messages (role : Role) (s : Blocks) : List ChatMessage :=
  (if s.content.isEmpty && s.calls.isEmpty && s.reasoning.isEmpty then []
   else [{
    role := role
    content := if s.content.isEmpty then .null else .ofParts s.content
    toolCalls := if s.calls.isEmpty then none else some s.calls
    reasoningContent := if s.reasoning.isEmpty then none else some s.reasoning }]) ++ s.results

/-- `anthropic_blocks`, or the one message of a text: what is appended to the
output, the calls still pending and the images. -/
def anthropicMessage (X : Crates) (vision : Option VisionPolicy) (m : AnthropicMessage) (pending : List String)
    (images : ImageBudget) : Except AnthropicError (List ChatMessage × List String × ImageBudget) := do
  let role ← okOr (anthropicRole m.role) (anthropicInvalid "message role is invalid")
  match m.content with
  | .text text => return ([{ role := role, content := .text text }], pending, images)
  | .blocks blocks =>
    let s ← blocks.foldlM (anthropicBlock X m.role vision) { pending := pending, images := images }
    return (s.messages role, s.pending, s.images)

def anthropicLoop (X : Crates) (vision : Option VisionPolicy) : List AnthropicMessage → List String →
    ImageBudget → Except AnthropicError (List ChatMessage)
  | [], pending, _ =>
    if pending.isEmpty then return [] else throw (anthropicInvalid "tool_use is missing its tool_result")
  | m :: messages, pending, images => do
    let (output, pending, images) ← anthropicMessage X vision m pending images
    return output ++ (← anthropicLoop X vision messages pending images)

def anthropicMessages (X : Crates) (messages : List AnthropicMessage) (vision : Option VisionPolicy) :
    Except AnthropicError (List ChatMessage) := anthropicLoop X vision messages [] {}

/-! ## The request -/

def ratValue (q : Rat) : Value := .number (.float q)

def anthropicAsked (servedModel : String) (r : AnthropicMessageRequest) (messages : List ChatMessage)
    (tools : List Value) (toolChoice responseFormat : Value) (budget : Option Nat) (effort : Option String) :
    Fields :=
  let parallelToolCalls := r.toolChoice.all (!·.disableParallelToolUse)
  let enableThinking := r.thinking.all (·.kind ≠ "disabled")
  let body : Fields :=
    [("model", .string servedModel), ("messages", .array (messages.map ChatMessage.toValue)),
      ("max_tokens", .nat r.maxTokens), ("stream", .bool true),
      ("stream_options", .object [("include_usage", .bool true)]), ("tools", .array tools),
      ("tool_choice", toolChoice), ("parallel_tool_calls", .bool parallelToolCalls),
      ("stop", .array (r.stopSequences.map .string)), ("temperature", .ofOption ratValue r.temperature),
      ("top_p", .ofOption ratValue r.topP), ("top_k", .ofOption .nat r.topK),
      ("response_format", responseFormat),
      ("chat_template_kwargs", .object [("enable_thinking", .bool enableThinking)])]
  let body := body.insertSome "thinking_token_budget" (budget.map .nat)
  omitEmptyToolControls (body.insertSome "reasoning_effort" (effort.map .string))

def anthropicBody (servedModel : String) (profile : GatewayProfile) (r : AnthropicMessageRequest)
    (messages : List ChatMessage) (tools : List Value) (toolChoice responseFormat : Value) : Fields :=
  let budget := r.thinking.bind (·.budgetTokens)
  let effort := (r.outputConfig.bind (·.effort)).map profile.sampling.effort
  let body := applySamplingDefaults profile.sampling
    (anthropicAsked servedModel r messages tools toolChoice responseFormat budget effort)
  if effort.isSome && budget.isNone then body.remove "thinking_token_budget" else body

theorem anthropicBody_messages (servedModel : String) (profile : GatewayProfile) (r : AnthropicMessageRequest)
    (messages : List ChatMessage) (tools : List Value) (toolChoice responseFormat : Value) :
    (anthropicBody servedModel profile r messages tools toolChoice responseFormat).get "messages" =
      some (.array (messages.map ChatMessage.toValue)) := by
  have hasked : ∀ budget effort, (anthropicAsked servedModel r messages tools toolChoice responseFormat budget
      effort).get "messages" = some (.array (messages.map ChatMessage.toValue)) := by
    intro budget effort
    unfold anthropicAsked omitEmptyToolControls
    dsimp only
    split
    · rw [Fields.get_remove_of_ne _ (by decide), Fields.get_remove_of_ne _ (by decide),
        Fields.get_remove_of_ne _ (by decide), Fields.get_insertSome_of_ne _ _ (by decide),
        Fields.get_insertSome_of_ne _ _ (by decide)]
      rfl
    · rw [Fields.get_insertSome_of_ne _ _ (by decide), Fields.get_insertSome_of_ne _ _ (by decide)]
      rfl
  have hsampled := fun budget effort =>
    @applySamplingDefaults_get profile.sampling _ _ _ (hasked budget effort) rfl (by decide)
  unfold anthropicBody
  dsimp only
  split
  · rw [Fields.get_remove_of_ne _ (by decide), hsampled]
  · exact hsampled _ _

def systemMessage : Option AnthropicContent → Except AnthropicError (List ChatMessage)
  | some system => do return [{ role := .system, content := .text (← anthropicSystemText system) }]
  | none => return []

variable (anthropicRequest : String → Option AnthropicMessageRequest)

def rewriteAnthropicRequestWithProfile (X : Crates) (bytes servedModel : String) (profile : GatewayProfile) :
    Except AnthropicError GenerationRequest := do
  refuse (maxCompletionBodyBytes < bytes.utf8ByteSize) (anthropicInvalid "request body is too large")
  let request ← okOr (anthropicRequest bytes) (anthropicInvalid "request JSON is invalid")
  refuse (request.model.isEmpty || request.messages.isEmpty || request.maxTokens = 0 ||
      maxOutputTokens < request.maxTokens)
    (anthropicInvalid "model or output token limit is invalid")
  validateAnthropicOptions request
  let system ← systemMessage request.system
  let messages ← anthropicMessages X request.messages profile.vision
  let messages := mergeSystemMessages (system ++ messages)
  let tools ← request.tools.mapM anthropicTool
  let toolChoice ← anthropicToolChoice request.toolChoice
  let responseFormat ← anthropicResponseFormat request.outputConfig
  return {
    body := .object (anthropicBody servedModel profile request messages tools toolChoice responseFormat)
    stream := request.stream
    customTools := []
    omitReasoning := (request.thinking.bind (·.display)) = some "omitted" }

variable {anthropicRequest : String → Option AnthropicMessageRequest}

theorem rewriteAnthropic_ok {bytes servedModel : String} {profile : GatewayProfile}
    {r : GenerationRequest}
    (h : rewriteAnthropicRequestWithProfile anthropicRequest X bytes servedModel profile = .ok r) :
    ∃ request system messages, anthropicRequest bytes = some request ∧ systemMessage request.system = .ok system ∧
      anthropicMessages X request.messages profile.vision = .ok messages ∧
      r.body.get "messages" =
        some (.array ((mergeSystemMessages (system ++ messages)).map ChatMessage.toValue)) := by
  unfold rewriteAnthropicRequestWithProfile at h
  obtain ⟨-, h⟩ := refuse_bind h
  obtain ⟨request, hrequest, h⟩ := okOr_bind h
  obtain ⟨-, h⟩ := refuse_bind h
  obtain ⟨_, -, h⟩ := ok_bind h
  obtain ⟨system, hsystem, h⟩ := ok_bind h
  obtain ⟨messages, hmessages, h⟩ := ok_bind h
  obtain ⟨tools, -, h⟩ := ok_bind h
  obtain ⟨toolChoice, -, h⟩ := ok_bind h
  obtain ⟨responseFormat, -, h⟩ := ok_bind h
  cases h
  exact ⟨request, system, messages, hrequest, hsystem, hmessages, anthropicBody_messages ..⟩

end Sparkplane.Gateway
