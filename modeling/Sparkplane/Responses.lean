import Sparkplane.Gateway

/-!
# Responses requests

`rewrite_responses_request_with_profile`: one assistant turn of the Responses
protocol is a row of items, and becomes one assistant message for the engine.
Instructions may come as a field, as system messages and as developer messages.
-/

namespace Sparkplane.Gateway

variable {X : Crates} {bytes servedModel : String} {profile : GatewayProfile}

/-! ## Tools -/

def responseTool (tool : Value) (custom : List String) : Except OpenAiError (Value × List String) := do
  let name ← okOr (tool.field "name").asStr (invalidRequest "tool name is required")
  refuse (name.isEmpty || 128 < name.utf8ByteSize) (invalidRequest "tool name is invalid")
  let description := ((tool.field "description").asStr).getD ""
  let isCustom := tool.fieldIs "type" "custom"
  let parameters : Value :=
    if isCustom then
      .object [("type", .string "object"), ("properties", .object [("input", .object [("type", .string "string")])]),
        ("required", .array [.string "input"])]
    else (tool.get "parameters").getD (.object [("type", .string "object")])
  return (.object [("type", .string "function"), ("function", .object [("name", .string name),
      ("description", .string description), ("parameters", parameters)])],
    if isCustom && name ∉ custom then custom ++ [name] else custom)

def appendNamespaceTools (tool : Value) (custom : List String) (output : List Value) :
    Except OpenAiError (List Value × List String) := do
  let space ← okOr (tool.field "name").asStr (invalidRequest "namespace name is required")
  let tools ← okOr (tool.field "tools").asArray (invalidRequest "namespace tools are invalid")
  tools.foldlM (fun (output, custom) child => do
    refuse (!child.fieldIs "type" "function") (invalidRequest "namespace child is unsupported")
    let name ← okOr (child.field "name").asStr (invalidRequest "namespace tool name is required")
    let (tool, custom) ← responseTool (child.setField "name" (.string (space ++ "." ++ name))) custom
    return (output ++ [tool], custom)) (output, custom)

def responseTools (value : Option Value) : Except OpenAiError (List Value × List String) := do
  let some value := value | return ([], [])
  let tools ← okOr value.asArray (invalidRequest "tools must be an array")
  refuse (tools.any fun tool => ((tool.field "type").asStr).all (· ∉ ["function", "custom", "namespace"]))
    ⟨"unsupported_tool", "only client-side function and custom tools are supported"⟩
  tools.foldlM (fun (converted, custom) tool =>
    if tool.fieldIs "type" "namespace" then appendNamespaceTools tool custom converted
    else do
      let (tool, custom) ← responseTool tool custom
      return (converted ++ [tool], custom)) ([], [])

/-! ## Options -/

def responseKeys : List String :=
  ["model", "input", "instructions", "tools", "tool_choice", "parallel_tool_calls", "max_output_tokens",
    "stream", "store", "include", "reasoning", "text", "temperature", "top_p", "truncation", "metadata",
    "prompt_cache_key", "client_metadata", "stream_options", "service_tier", "safety_identifier",
    "previous_response_id", "conversation", "background"]

def validateResponseOptions (object : Fields) : Except OpenAiError Unit := do
  refuse (object.keys.any (· ∉ responseKeys)) (invalidRequest "request contains an unknown field")
  refuse ((object.get "store").bind Value.asBool = some true)
    (invalidRequest "server-side response storage is unsupported")
  refuse ((object.get "background").bind Value.asBool = some true ||
      (object.get "previous_response_id").any (!·.isNull) || (object.get "conversation").any (!·.isNull))
    (invalidRequest "only stateless synchronous responses are supported")

def responseMaxTokens (value : Option Value) : Except OpenAiError (Option Nat) := do
  let some tokens := value.bind Value.asU64 | return none
  refuse (tokens = 0 || maxOutputTokens < tokens) (invalidRequest "max_output_tokens exceeds the configured ceiling")
  return some tokens

def responseToolChoice (value : Option Value) : Except OpenAiError Value := do
  let some value := value | return .string "auto"
  if value.asStr.any (· ∈ ["auto", "none", "required"]) then return value
  let name ← okOr (value.field "name").asStr (invalidRequest "tool_choice is invalid")
  refuse (((value.field "type").asStr).all (· ∉ ["function", "custom"]))
    ⟨"unsupported_tool", "hosted tool choice is unsupported"⟩
  return .object [("type", .string "function"), ("function", .object [("name", .string name)])]

def codexContextCompaction (X : Crates) (object : Fields) (tools : List Value) : Bool :=
  if !tools.isEmpty then false
  else
    match ((((object.get "client_metadata").bind fun m => m.get "x-codex-turn-metadata").bind Value.asStr).filter
        fun m => m.utf8ByteSize ≤ 16 * 1024).bind X.fromStr with
    | some metadata => metadata.fieldIs "request_kind" "compaction"
    | none => false

/-! ## Items -/

def responsePart (X : Crates) (role : String) (vision : Option VisionPolicy) (part : Value)
    (images : ImageBudget) : Except OpenAiError (Part × ImageBudget) := do
  match (part.field "type").asStr with
  | some "input_text" | some "output_text" =>
    let text ← okOr (part.field "text").asStr (invalidRequest "text content is invalid")
    return (.text text, images)
  | some "input_image" =>
    refuse (role ∉ ["user", "tool"] ||
        part.asObject.all (fun object => object.keys.any (· ∉ ["type", "image_url", "detail"])) ||
        (part.get "file_id").isSome)
      (invalidRequest "image input must be bounded inline user or tool-result content")
    let url ← okOr (part.field "image_url").asStr (invalidRequest "image_url must be an inline data URI")
    let (mediaType, data) ← parseDataUri url
    let (image, images) ← decodeImage X mediaType data vision images
    return (canonicalImage X image, images)
  | _ => throw (invalidRequest "message content type is unsupported")

def responseParts (X : Crates) (role : String) (vision : Option VisionPolicy) :
    List Value → ImageBudget → Except OpenAiError (List Part × ImageBudget)
  | [], images => return ([], images)
  | part :: parts, images => do
    let (part, images) ← responsePart X role vision part images
    let (parts, images) ← responseParts X role vision parts images
    return (part :: parts, images)

def responseContent (X : Crates) (value : Value) (role : String) (vision : Option VisionPolicy)
    (images : ImageBudget) : Except OpenAiError (Content × ImageBudget) := do
  if let some text := value.asStr then return (.text text, images)
  let parts ← okOr value.asArray (invalidRequest "message content is invalid")
  let (content, images) ← responseParts X role vision parts images
  return (.ofParts content, images)

/-- The engine has no developer role. -/
def responseRole : String → Option Role
  | "system" | "developer" => some .system
  | "user" => some .user
  | "assistant" => some .assistant
  | _ => none

def responseMessage (X : Crates) (item : Value) (vision : Option VisionPolicy) (images : ImageBudget) :
    Except OpenAiError (ChatMessage × ImageBudget) := do
  let role ← okOr (item.field "role").asStr (invalidRequest "message role is required")
  let chatRole ← okOr (responseRole role) (invalidRequest "message role is invalid")
  let (content, images) ← responseContent X (item.field "content") role vision images
  return ({ role := chatRole, content := content }, images)

/-- The input of a custom tool is wrapped in an object. -/
def responseArguments (X : Crates) (item : Value) (custom : Bool) : Except OpenAiError String :=
  if custom then
    match (item.field "input").asStr with
    | some input => return X.toText (.object [("input", .string input)])
    | none => throw (invalidRequest "custom tool input is required")
  else
    match (item.field "arguments").asStr with
    | some arguments => return arguments
    | none => throw (invalidRequest "function arguments are required")

def responseToolCall (X : Crates) (item : Value) (custom : Bool) : Except OpenAiError ChatMessage := do
  let callId ← okOr (item.field "call_id").asStr (invalidRequest "tool call_id is required")
  let name ← okOr (item.field "name").asStr (invalidRequest "tool name is required")
  let arguments ← responseArguments X item custom
  return { role := .assistant, content := .null, toolCalls := some [⟨callId, name, arguments⟩] }

/-- Typed parts stay parts, so that an image is not sent as text. -/
def responseOutput (X : Crates) (output : Value) (vision : Option VisionPolicy) (images : ImageBudget) :
    Except OpenAiError (Content × ImageBudget) :=
  if output.asArray.any fun parts => parts.any fun part =>
      ((part.field "type").asStr).any (· ∈ ["input_text", "output_text", "input_image", "input_file"]) then
    responseContent X output "tool" vision images
  else return (.text (output.asStr.getD (X.toText output)), images)

def responseToolOutput (X : Crates) (item : Value) (vision : Option VisionPolicy) (images : ImageBudget) :
    Except OpenAiError (ChatMessage × ImageBudget) := do
  let callId ← okOr (item.field "call_id").asStr (invalidRequest "tool output call_id is required")
  let output ← okOr (item.get "output") (invalidRequest "tool output is required")
  let (content, images) ← responseOutput X output vision images
  return ({ role := .tool, content := content, toolCallId := some callId }, images)

def responseSummary : List Value → Except OpenAiError String
  | [] => return ""
  | part :: parts => do
    refuse (!part.fieldIs "type" "summary_text") (invalidRequest "reasoning summary type is unsupported")
    let text ← okOr (part.field "text").asStr (invalidRequest "reasoning summary text is invalid")
    return text ++ (← responseSummary parts)

def responseReasoning (item : Value) : Except OpenAiError ChatMessage := do
  let summary ← okOr (item.field "summary").asArray (invalidRequest "reasoning summary must be an array")
  let reasoning ← responseSummary summary
  return { role := .assistant, content := .text "", reasoningContent := some reasoning }

def responseInputItem (X : Crates) (item : Value) (vision : Option VisionPolicy) (images : ImageBudget) :
    Except OpenAiError (ChatMessage × ImageBudget) :=
  match (item.field "type").asStr with
  | some "message" => responseMessage X item vision images
  | some "function_call" => do return (← responseToolCall X item false, images)
  | some "custom_tool_call" => do return (← responseToolCall X item true, images)
  | some "function_call_output" | some "custom_tool_call_output" => responseToolOutput X item vision images
  | some "reasoning" => do return (← responseReasoning item, images)
  | some "computer_call" | some "computer_call_output" =>
    throw ⟨"unsupported_tool", "hosted computer tools are unsupported"⟩
  | _ => throw (invalidRequest "input item type is unsupported")

/-! ## Messages -/

/-- `response_assistant_text`; a part that is not text makes it fail. -/
def Content.assistantText : Content → Option String
  | .null => some ""
  | .text s => some s
  | .parts l => l.foldlM (fun s part =>
    match part with
    | .text more => some (s ++ more)
    | .imageUrl _ => none) ""

def mergeReasoning (target source : ChatMessage) : ChatMessage :=
  match source.reasoningContent with
  | some incoming =>
    if incoming.isEmpty then target
    else { target with reasoningContent := some (target.reasoningContent.getD "" ++ incoming) }
  | none => target

def mergeText (target source : ChatMessage) : ChatMessage :=
  match source.content.assistantText with
  | some incoming =>
    if incoming.isEmpty then target
    else { target with content := .text (target.content.assistantText.getD "" ++ incoming) }
  | none => target

def mergeCalls (target source : ChatMessage) : ChatMessage :=
  match source.toolCalls with
  | some incoming => { target with toolCalls := some (target.toolCalls.getD [] ++ incoming) }
  | none => target

def mergeResponseAssistant (target source : ChatMessage) : ChatMessage :=
  mergeCalls (mergeText (mergeReasoning target source) source) source

/-- Adjacent assistant items are one message. -/
def appendResponse (messages : List ChatMessage) (message : ChatMessage) : List ChatMessage :=
  match messages.getLast? with
  | some previous =>
    if message.role = .assistant ∧ previous.role = .assistant then
      messages.dropLast ++ [mergeResponseAssistant previous message]
    else messages ++ [message]
  | none => messages ++ [message]

def responseItems (X : Crates) (vision : Option VisionPolicy) :
    List Value → ImageBudget → List ChatMessage → Except OpenAiError (List ChatMessage)
  | [], _, messages => return messages
  | item :: items, images, messages => do
    let (message, images) ← responseInputItem X item vision images
    responseItems X vision items images (appendResponse messages message)

def responseMessages (X : Crates) (value : Option Value) (vision : Option VisionPolicy) :
    Except OpenAiError (List ChatMessage) := do
  let value ← okOr value (invalidRequest "input is required")
  if let some text := value.asStr then return [{ role := .user, content := .text text }]
  let items ← okOr value.asArray (invalidRequest "input must be a string or item array")
  responseItems X vision items {} []

/-! ## The request -/

def instructionMessage (object : Fields) : List ChatMessage :=
  (((object.get "instructions").bind Value.asStr).map fun instructions =>
    { role := .system, content := .text instructions }).toList

def responseEffort (X : Crates) (profile : GatewayProfile) (object : Fields) (tools : List Value) : Option String :=
  if !profile.nativeResponses && codexContextCompaction X object tools then some "none"
  else (((object.get "reasoning").bind fun r => r.get "effort").bind Value.asStr).map profile.sampling.effort

def responseAsked (servedModel : String) (object : Fields) (tools : List Value) (messages : List ChatMessage)
    (maxTokens : Option Nat) (toolChoice : Value) (effort : Option String) : Fields :=
  let body : Fields :=
    [("model", .string servedModel), ("messages", .array (messages.map ChatMessage.toValue)),
      ("stream", .bool true), ("stream_options", .object [("include_usage", .bool true)]),
      ("temperature", (object.get "temperature").getD .null), ("top_p", (object.get "top_p").getD .null)]
  let body := body.insertSome "max_tokens" (maxTokens.map .nat)
  let body :=
    if tools.isEmpty then body
    else ((body.insert "tools" (.array tools)).insert "tool_choice" toolChoice).insert "parallel_tool_calls"
      ((object.get "parallel_tool_calls").getD (.bool true))
  let body := body.insertSome "reasoning_effort" (effort.map .string)
  body.insertSome "chat_template_kwargs"
    (if effort = some "none" then some (.object [("enable_thinking", .bool false)]) else none)

def responseBody (X : Crates) (servedModel : String) (profile : GatewayProfile) (object : Fields)
    (tools : List Value) (messages : List ChatMessage) (maxTokens : Option Nat) (toolChoice : Value) : Fields :=
  let body := applySamplingDefaults profile.sampling (responseAsked servedModel object tools messages maxTokens
    toolChoice (responseEffort X profile object tools))
  if body.contains "reasoning_effort" then body.remove "thinking_token_budget" else body

theorem responseBody_messages (X : Crates) (servedModel : String) (profile : GatewayProfile) (object : Fields)
    (tools : List Value) (messages : List ChatMessage) (maxTokens : Option Nat) (toolChoice : Value) :
    (responseBody X servedModel profile object tools messages maxTokens toolChoice).get "messages" =
      some (.array (messages.map ChatMessage.toValue)) := by
  have hasked : ∀ effort, (responseAsked servedModel object tools messages maxTokens toolChoice effort).get
      "messages" = some (.array (messages.map ChatMessage.toValue)) := by
    intro effort
    unfold responseAsked
    dsimp only
    rw [Fields.get_insertSome_of_ne _ _ (by decide), Fields.get_insertSome_of_ne _ _ (by decide)]
    split
    · exact Fields.get_insertSome_of_ne _ _ (by decide)
    · rw [Fields.get_insert_of_ne _ _ (by decide), Fields.get_insert_of_ne _ _ (by decide),
        Fields.get_insert_of_ne _ _ (by decide)]
      exact Fields.get_insertSome_of_ne _ _ (by decide)
  have hsampled := @applySamplingDefaults_get profile.sampling _ _ _
    (hasked (responseEffort X profile object tools)) rfl (by decide)
  unfold responseBody
  dsimp only
  split
  · rw [Fields.get_remove_of_ne _ (by decide), hsampled]
  · exact hsampled

def rewriteResponsesRequestWithProfile (X : Crates) (bytes servedModel : String) (profile : GatewayProfile) :
    Except OpenAiError GenerationRequest := do
  refuse (maxCompletionBodyBytes < bytes.utf8ByteSize) (invalidRequest "request body is too large")
  let request ← okOr (X.fromStr bytes) (invalidRequest "request JSON is invalid")
  let object ← okOr request.asObject (invalidRequest "request must be an object")
  validateResponseOptions object
  let (tools, customTools) ← responseTools (object.get "tools")
  let messages ← responseMessages X (object.get "input") profile.vision
  let messages := mergeSystemMessages (instructionMessage object ++ messages)
  refuse (!messages.any fun m => m.role = .user) (invalidRequest "stateless input must contain a user query")
  let maxTokens ← responseMaxTokens (object.get "max_output_tokens")
  let toolChoice ← responseToolChoice (object.get "tool_choice")
  return {
    body := .object (responseBody X servedModel profile object tools messages maxTokens toolChoice)
    stream := ((object.get "stream").bind Value.asBool).getD false
    customTools := customTools
    omitReasoning := false }

theorem rewriteResponses_ok
    {r : GenerationRequest} (h : rewriteResponsesRequestWithProfile X bytes servedModel profile = .ok r) :
    ∃ (object : Fields) (messages : List ChatMessage), X.fromStr bytes = some (.object object) ∧
      responseMessages X (object.get "input") profile.vision = .ok messages ∧
      r.body.get "messages" = some (.array
        ((mergeSystemMessages (instructionMessage object ++ messages)).map ChatMessage.toValue)) := by
  unfold rewriteResponsesRequestWithProfile at h
  obtain ⟨-, h⟩ := refuse_bind h
  obtain ⟨request, hrequest, h⟩ := okOr_bind h
  obtain ⟨object, hobject, h⟩ := okOr_bind h
  obtain ⟨_, -, h⟩ := ok_bind h
  obtain ⟨⟨tools, customTools⟩, -, h⟩ := ok_bind h
  obtain ⟨messages, hmessages, h⟩ := ok_bind h
  obtain ⟨-, h⟩ := refuse_bind h
  obtain ⟨maxTokens, -, h⟩ := ok_bind h
  obtain ⟨toolChoice, -, h⟩ := ok_bind h
  cases h
  refine ⟨object, messages, ?_, hmessages, responseBody_messages ..⟩
  cases request with
  | object fields => rw [hrequest, Option.some.inj hobject]
  | _ => cases hobject

theorem mergeSystemMessages_filter (messages : List ChatMessage) {p : ChatMessage → Bool}
    (hp : ∀ m, m.role = .system → p m = false) : (mergeSystemMessages messages).filter p = messages.filter p := by
  have hnative : (messages.filter fun m => m.role ≠ .system).filter p = messages.filter p := by
    rw [List.filter_filter]
    refine List.filter_congr fun m _ => ?_
    by_cases h : m.role = .system
    · simp [h, hp m h]
    · simp [h]
  unfold mergeSystemMessages
  dsimp only
  split
  · exact hnative
  · rw [List.filter_cons_of_neg (by simp [hp]), hnative]

/-- All of a request but its input is accepted. -/
structure ResponsesEnvelope (X : Crates) (bytes : String) (object : Fields) : Prop where
  size : bytes.utf8ByteSize ≤ maxCompletionBodyBytes
  read : X.fromStr bytes = some (.object object)
  options : validateResponseOptions object = .ok ()
  tools : ∃ tools, responseTools (object.get "tools") = .ok tools
  maxTokens : ∃ n, responseMaxTokens (object.get "max_output_tokens") = .ok n
  toolChoice : ∃ v, responseToolChoice (object.get "tool_choice") = .ok v

theorem rewriteResponses_accepts
    {object : Fields} {messages : List ChatMessage} (h : ResponsesEnvelope X bytes object)
    (hmessages : responseMessages X (object.get "input") profile.vision = .ok messages)
    (huser : (messages.any fun m => m.role = .user) = true) :
    ∃ r, rewriteResponsesRequestWithProfile X bytes servedModel profile = .ok r ∧ r.body.get "messages" = some (.array
        ((mergeSystemMessages (instructionMessage object ++ messages)).map ChatMessage.toValue)) := by
  have husers : ((mergeSystemMessages (instructionMessage object ++ messages)).any fun m => m.role = .user) =
      true := by
    obtain ⟨m, hm, hrole⟩ := List.any_eq_true.mp huser
    have hkept := mergeSystemMessages_filter (instructionMessage object ++ messages)
      (p := fun m => m.role = .user) fun m h => by simp [h]
    have hm' : m ∈ (instructionMessage object ++ messages).filter fun m => m.role = .user :=
      List.mem_filter.mpr ⟨List.mem_append_right _ hm, hrole⟩
    rw [← hkept] at hm'
    exact List.any_eq_true.mpr ⟨m, (List.mem_filter.mp hm').1, hrole⟩
  obtain ⟨⟨tools, customTools⟩, htools⟩ := h.tools
  obtain ⟨maxTokens, hmax⟩ := h.maxTokens
  obtain ⟨toolChoice, hchoice⟩ := h.toolChoice
  have haccepted : ∃ r, rewriteResponsesRequestWithProfile X bytes servedModel profile = .ok r := by
    refine ⟨?_, ?_⟩
    rotate_left
    · unfold rewriteResponsesRequestWithProfile
      rw [decide_eq_false (Nat.not_lt.mpr h.size), h.read]
      simp only [refuse, okOr, Value.asObject, bind, Except.bind, h.options, htools, hmax, hchoice, hmessages, husers]
      rfl
  obtain ⟨r, hr⟩ := haccepted
  obtain ⟨object', messages', hread', hmessages', hbody⟩ := rewriteResponses_ok hr
  obtain rfl : object = object' := by
    rw [h.read] at hread'
    cases hread'
    rfl
  rw [hmessages] at hmessages'
  cases hmessages'
  exact ⟨r, hr, hbody⟩

end Sparkplane.Gateway
