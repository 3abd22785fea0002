import Sparkplane.Anthropic
import Sparkplane.TableView

/-!
# The encoders

`AnthropicEncoder` and `ResponsesEncoder`: each takes the engine's events one
by one, keeps what was said, and queues the events of its own protocol. `pop`
only hands the queue out, so `pending` holds all that was ever queued. The
tools are a map under the engine's index; `rows` has them as they appeared.
-/

namespace Sparkplane.Gateway

/-- `u32::saturating_add` of one. -/
def succU32 (n : Nat) : Nat := min (n + 1) (2 ^ 32 - 1)

/-- `BTreeMap::values`. -/
def toolValues {ρ : Type} (tools : Table UInt32 ρ) : List ρ := (tools.sorted UInt32.toNat).map Prod.snd

/-! ## Anthropic -/

structure AnthropicToolCall where
  callId : String := ""
  name : String := ""
  arguments : String := ""
  blockIndex : Option Nat := none

inductive ReplyBlock where
  | thinking (thinking signature : String)
  | text (text : String)
  | toolUse (id name : String) (input : Value)

def ReplyBlock.toValue : ReplyBlock → Value
  | .thinking t signature =>
    .object [("type", .string "thinking"), ("thinking", .string t), ("signature", .string signature)]
  | .text s => .object [("type", .string "text"), ("text", .string s)]
  | .toolUse id name input =>
    .object [("type", .string "tool_use"), ("id", .string id), ("name", .string name), ("input", input)]

inductive BlockDelta where
  | text (text : String)
  | thinking (thinking : String)
  | signature (signature : String)
  | inputJson (json : String)

inductive AnthropicStreamEvent where
  | messageStart (id model : String)
  | blockStart (index : Nat) (block : ReplyBlock)
  | blockDelta (index : Nat) (delta : BlockDelta)
  | blockStop (index : Nat)
  | messageDelta (stopReason : String) (usage : Nat × Nat)
  | messageStop

def usageValue (usage : Nat × Nat) : Value :=
  .object [("input_tokens", .nat usage.1), ("output_tokens", .nat usage.2)]

structure AnthropicEncoder where
  id : String
  model : String
  omitReasoning : Bool
  reasoning : String := ""
  reasoningIndex : Option Nat := none
  text : String := ""
  textIndex : Option Nat := none
  tools : Table UInt32 AnthropicToolCall := .empty
  usage : Nat × Nat := (0, 0)
  outputBytes : Nat := 0
  finishReason : Option String := none
  nextIndex : Nat := 0
  pending : List AnthropicStreamEvent := []

def anthropicStopReason : Option String → String
  | some "length" => "max_tokens"
  | some "tool_calls" => "tool_use"
  | some "stop" | none => "end_turn"
  | some _ => "stop_sequence"

namespace AnthropicEncoder

def event (e : AnthropicEncoder) (event : AnthropicStreamEvent) : AnthropicEncoder :=
  { e with pending := e.pending ++ [event] }

/-- `id` is "msg_" and a fresh ulid. -/
def create (id model : String) (omitReasoning : Bool) : AnthropicEncoder :=
  ({ id := id, model := model, omitReasoning := omitReasoning } : AnthropicEncoder).event (.messageStart id model)

def textDelta (e : AnthropicEncoder) (text : String) : Except AnthropicError AnthropicEncoder := do
  refuse (maxCompletionBodyBytes < e.outputBytes + text.utf8ByteSize)
    (anthropicInvalid "response exceeds the bounded output buffer")
  let index := e.textIndex.getD e.nextIndex
  let e :=
    if e.textIndex.isNone then
      { e with nextIndex := succU32 e.nextIndex, textIndex := some index }.event (.blockStart index (.text ""))
    else e
  let e := { e with outputBytes := e.outputBytes + text.utf8ByteSize, text := e.text ++ text }
  return e.event (.blockDelta index (.text text))

def reasoningDelta (e : AnthropicEncoder) (text : String) : Except AnthropicError AnthropicEncoder := do
  refuse (maxCompletionBodyBytes < e.outputBytes + text.utf8ByteSize)
    (anthropicInvalid "response exceeds the bounded output buffer")
  let index := e.reasoningIndex.getD e.nextIndex
  let e :=
    if e.reasoningIndex.isNone then
      { e with nextIndex := succU32 e.nextIndex, reasoningIndex := some index }.event
        (.blockStart index (.thinking "" ""))
    else e
  let e := { e with outputBytes := e.outputBytes + text.utf8ByteSize, reasoning := e.reasoning ++ text }
  return if e.omitReasoning then e else e.event (.blockDelta index (.thinking text))

def toolDelta (e : AnthropicEncoder) (engineIndex : UInt32) (callId name : Option String) (arguments : String) :
    Except AnthropicError AnthropicEncoder := do
  let tool := (e.tools.get? engineIndex).getD {}
  refuse (maxCompletionBodyBytes < e.outputBytes + arguments.utf8ByteSize)
    (anthropicInvalid "tool input exceeds the bounded output buffer")
  let index := tool.blockIndex.getD e.nextIndex
  let announce := tool.blockIndex.isNone
  let tool := { tool with
    callId := callId.getD tool.callId
    name := name.getD tool.name
    arguments := tool.arguments ++ arguments
    blockIndex := some index }
  let e := { e with
    outputBytes := e.outputBytes + arguments.utf8ByteSize
    nextIndex := if announce then succU32 e.nextIndex else e.nextIndex
    tools := e.tools.upsert engineIndex tool }
  let e := if announce then e.event (.blockStart index (.toolUse tool.callId tool.name (.object []))) else e
  return if arguments.isEmpty then e else e.event (.blockDelta index (.inputJson arguments))

/-- The end of one block; the reasoning is signed there. -/
def stopBlock (X : Crates) (e : AnthropicEncoder) (index : Nat) : AnthropicEncoder :=
  let e :=
    if e.reasoningIndex = some index then
      e.event (.blockDelta index (.signature (localReasoningSignature X e.reasoning)))
    else e
  e.event (.blockStop index)

def indices (e : AnthropicEncoder) : List Nat :=
  (e.reasoningIndex.toList ++ e.textIndex.toList ++ (toolValues e.tools).filterMap (·.blockIndex)).insertionSort (· ≤ ·)

def done (X : Crates) (e : AnthropicEncoder) : Except AnthropicError AnthropicEncoder := do
  refuse ((toolValues e.tools).any fun tool =>
      tool.callId.isEmpty || tool.name.isEmpty || (X.fromStr tool.arguments).isNone)
    (anthropicInvalid "upstream tool input is invalid")
  let e := e.indices.foldl (stopBlock X) e
  let e := e.event (.messageDelta (anthropicStopReason e.finishReason) e.usage)
  return e.event .messageStop

def accept (X : Crates) (e : AnthropicEncoder) : GenerationEvent → Except AnthropicError AnthropicEncoder
  | .reasoningDelta text => e.reasoningDelta text
  | .textDelta text => e.textDelta text
  | .toolCallDelta index callId name arguments => e.toolDelta index callId name arguments
  | .usage promptTokens completionTokens => return { e with usage := (promptTokens, completionTokens) }
  | .finished finishReason => return { e with finishReason := finishReason }
  | .done => e.done X

def run (X : Crates) (e : AnthropicEncoder) (events : List GenerationEvent) :
    Except AnthropicError AnthropicEncoder := events.foldlM (accept X) e

section
variable {X : Crates} {e e' : AnthropicEncoder} {text : String}

theorem textDelta_ok (h : e.textDelta text = .ok e') :
    e.outputBytes + text.utf8ByteSize ≤ maxCompletionBodyBytes ∧ e' = { e with
      text := e.text ++ text
      textIndex := some (e.textIndex.getD e.nextIndex)
      nextIndex := if e.textIndex.isNone then succU32 e.nextIndex else e.nextIndex
      outputBytes := e.outputBytes + text.utf8ByteSize
      pending := e.pending ++ (if e.textIndex.isNone then [.blockStart e.nextIndex (.text "")] else []) ++
        [.blockDelta (e.textIndex.getD e.nextIndex) (.text text)] } := by
  obtain ⟨hb, h⟩ := refuse_bind h
  cases h
  refine ⟨by simpa using hb, ?_⟩
  cases hi : e.textIndex <;> simp [event, hi]

theorem reasoningDelta_ok (h : e.reasoningDelta text = .ok e') :
    e.outputBytes + text.utf8ByteSize ≤ maxCompletionBodyBytes ∧ e' = { e with
      reasoning := e.reasoning ++ text
      reasoningIndex := some (e.reasoningIndex.getD e.nextIndex)
      nextIndex := if e.reasoningIndex.isNone then succU32 e.nextIndex else e.nextIndex
      outputBytes := e.outputBytes + text.utf8ByteSize
      pending := e.pending ++ (if e.reasoningIndex.isNone then [.blockStart e.nextIndex (.thinking "" "")] else []) ++
        if e.omitReasoning then [] else [.blockDelta (e.reasoningIndex.getD e.nextIndex) (.thinking text)] } := by
  obtain ⟨hb, h⟩ := refuse_bind h
  cases h
  refine ⟨by simpa using hb, ?_⟩
  cases hi : e.reasoningIndex <;> cases ho : e.omitReasoning <;> simp [event, hi, ho]

theorem toolDelta_ok {i : UInt32} {callId name : Option String} {arguments : String}
    (h : e.toolDelta i callId name arguments = .ok e') :
    e.outputBytes + arguments.utf8ByteSize ≤ maxCompletionBodyBytes ∧
      let tool := (e.tools.get? i).getD {}
      let index := tool.blockIndex.getD e.nextIndex
      e' = { e with
        tools := e.tools.upsert i ⟨callId.getD tool.callId, name.getD tool.name, tool.arguments ++ arguments, some index⟩
        nextIndex := if tool.blockIndex.isNone then succU32 e.nextIndex else e.nextIndex
        outputBytes := e.outputBytes + arguments.utf8ByteSize
        pending := e.pending ++ (if tool.blockIndex.isNone then
            [.blockStart index (.toolUse (callId.getD tool.callId) (name.getD tool.name) (.object []))] else []) ++
          if arguments.isEmpty then [] else [.blockDelta index (.inputJson arguments)] } := by
  obtain ⟨hb, h⟩ := refuse_bind h
  cases h
  refine ⟨by simpa using hb, ?_⟩
  dsimp only
  cases ((e.tools.get? i).getD {}).blockIndex <;> cases arguments.isEmpty <;> simp [event]

theorem stopBlocks_eq (indices : List Nat) : indices.foldl (stopBlock X) e = { e with
    pending := e.pending ++ indices.flatMap fun index =>
      (if e.reasoningIndex = some index then
        [.blockDelta index (.signature (localReasoningSignature X e.reasoning))] else []) ++ [.blockStop index] } := by
  induction indices generalizing e with
  | nil => simp
  | cons index indices ih =>
    rw [List.foldl_cons, ih]
    by_cases hi : e.reasoningIndex = some index <;> simp [stopBlock, event, hi]

theorem done_ok (h : e.done X = .ok e') :
    (∀ tool ∈ toolValues e.tools, tool.callId ≠ "" ∧ tool.name ≠ "" ∧ (X.fromStr tool.arguments).isSome) ∧
      e' = { e with
        pending := e.pending ++ (e.indices.flatMap fun index =>
          (if e.reasoningIndex = some index then
            [.blockDelta index (.signature (localReasoningSignature X e.reasoning))] else []) ++ [.blockStop index]) ++
          [.messageDelta (anthropicStopReason e.finishReason) e.usage, .messageStop] } := by
  obtain ⟨hgood, h⟩ := refuse_bind h
  cases h
  refine ⟨?_, ?_⟩
  · intro tool ht
    have := List.any_eq_false.mp hgood tool ht
    simpa [Option.isSome_iff_ne_none, and_assoc] using this
  · simp [stopBlocks_eq, event]

end

def finalTool (X : Crates) (tool : AnthropicToolCall) : ReplyBlock :=
  .toolUse tool.callId tool.name ((X.fromStr tool.arguments).getD (.object []))

def finalContent (X : Crates) (e : AnthropicEncoder) : List ReplyBlock :=
  (if e.reasoningIndex.isSome then
    [.thinking (if e.omitReasoning then "" else e.reasoning) (localReasoningSignature X e.reasoning)] else []) ++
  (if e.textIndex.isSome then [.text e.text] else []) ++
  (toolValues e.tools).map (finalTool X)

def finalDocument (X : Crates) (e : AnthropicEncoder) : Value :=
  .object [("id", .string e.id), ("type", .string "message"), ("role", .string "assistant"),
    ("model", .string e.model), ("content", .array ((e.finalContent X).map ReplyBlock.toValue)),
    ("stop_reason", .string (anthropicStopReason e.finishReason)), ("stop_sequence", .null),
    ("usage", usageValue e.usage)]

end AnthropicEncoder

/-! ## Responses -/

structure ToolCall where
  callId : String := ""
  name : String := ""
  arguments : String := ""
  announced : Bool := false
  outputIndex : Option Nat := none

structure OpenAiStreamEvent where
  name : String
  data : Value

/-- The id is "resp_" and `ulid`. -/
structure ResponsesEncoder where
  ulid : String
  model : String
  customTools : List String
  reasoning : String := ""
  reasoningIndex : Option Nat := none
  text : String := ""
  textIndex : Option Nat := none
  tools : Table UInt32 ToolCall := .empty
  usage : Nat × Nat := (0, 0)
  outputBytes : Nat := 0
  finishReason : Option String := none
  sequence : Nat := 0
  nextIndex : Nat := 0
  pending : List OpenAiStreamEvent := []

namespace ResponsesEncoder

def customInput (X : Crates) (arguments : String) : String :=
  ((X.fromStr arguments).bind fun value => (value.field "input").asStr).getD arguments

def textPhase (e : ResponsesEncoder) : String := if e.tools.rows.isEmpty then "final_answer" else "commentary"

def summaryPart (text : String) : Value := .object [("type", .string "summary_text"), ("text", .string text)]

def outputPart (text : String) : Value :=
  .object [("type", .string "output_text"), ("text", .string text), ("annotations", .array [])]

def reasoningItem (e : ResponsesEncoder) (status : String) (summary : List Value) : Value :=
  .object [("id", .string ("rs_" ++ e.ulid)), ("type", .string "reasoning"), ("status", .string status),
    ("summary", .array summary)]

def textItem (e : ResponsesEncoder) : Value :=
  .object [("id", .string ("msg_" ++ e.ulid)), ("type", .string "message"), ("status", .string "completed"),
    ("role", .string "assistant"), ("phase", .string e.textPhase), ("content", .array [outputPart e.text])]

def customItem (status callId name input : String) : Value :=
  .object [("id", .string ("ctc_" ++ callId)), ("type", .string "custom_tool_call"), ("status", .string status),
    ("call_id", .string callId), ("name", .string name), ("input", .string input)]

def functionItem (status callId name arguments : String) : Value :=
  .object [("id", .string ("fc_" ++ callId)), ("type", .string "function_call"), ("status", .string status),
    ("call_id", .string callId), ("name", .string name), ("arguments", .string arguments)]

def toolItem (X : Crates) (e : ResponsesEncoder) (tool : ToolCall) : Value :=
  if tool.name ∈ e.customTools then customItem "completed" tool.callId tool.name (customInput X tool.arguments)
  else functionItem "completed" tool.callId tool.name tool.arguments

def outputItems (X : Crates) (e : ResponsesEncoder) : List Value :=
  let output : List (Nat × Value) :=
    (e.reasoningIndex.map fun index => (index, e.reasoningItem "completed" [summaryPart e.reasoning])).toList ++
    (e.textIndex.map fun index => (index, e.textItem)).toList ++
    (toolValues e.tools).filterMap fun tool => tool.outputIndex.map fun index => (index, e.toolItem X tool)
  (output.insertionSort fun a b => a.1 ≤ b.1).map Prod.snd

variable (X : Crates) (clock : Nat → Int)

/-- `clock n` is the time once `n` events are numbered. -/
def document (e : ResponsesEncoder) (status : String) : Value :=
  .object [("id", .string ("resp_" ++ e.ulid)), ("object", .string "response"),
    ("created_at", .number (.int (clock e.sequence))), ("status", .string status), ("model", .string e.model),
    ("output", .array (e.outputItems X)),
    ("usage", .object [("input_tokens", .nat e.usage.1), ("output_tokens", .nat e.usage.2),
      ("total_tokens", .nat (min (e.usage.1 + e.usage.2) (2 ^ 64 - 1)))]),
    ("error", .null),
    ("incomplete_details",
      if status = "incomplete" then .object [("reason", .string "max_output_tokens")] else .null)]

def finalDocument (e : ResponsesEncoder) : Value :=
  e.document X clock (if e.finishReason = some "length" then "incomplete" else "completed")

def push (e : ResponsesEncoder) (name status : String) : ResponsesEncoder :=
  let sequence := e.sequence
  let e := { e with sequence := e.sequence + 1 }
  { e with pending := e.pending ++ [⟨name, .object [("type", .string name), ("sequence_number", .nat sequence),
    ("response", e.document X clock status)]⟩] }

def event (e : ResponsesEncoder) (name : String) (fields : Fields) : ResponsesEncoder :=
  { e with
    sequence := e.sequence + 1
    pending := e.pending ++
      [⟨name, .object ((fields.insert "type" (.string name)).insert "sequence_number" (.nat e.sequence))⟩] }

def new (ulid model : String) (customTools : List String) : ResponsesEncoder :=
  let e : ResponsesEncoder := { ulid := ulid, model := model, customTools := customTools }
  (e.push X clock "response.created" "in_progress").push X clock "response.in_progress" "in_progress"

def reserveOutput (e : ResponsesEncoder) (bytes : Nat) : Except OpenAiError ResponsesEncoder := do
  refuse (maxCompletionBodyBytes < e.outputBytes + bytes) (invalidRequest "response exceeds the bounded output buffer")
  return { e with outputBytes := e.outputBytes + bytes }

def reasoningDelta (e : ResponsesEncoder) (text : String) : Except OpenAiError ResponsesEncoder := do
  let e ← e.reserveOutput text.utf8ByteSize
  let index := e.reasoningIndex.getD e.nextIndex
  let e :=
    if e.reasoningIndex.isNone then
      let e := { e with nextIndex := succU32 e.nextIndex, reasoningIndex := some index }
      let e := e.event "response.output_item.added"
        [("output_index", .nat index), ("item", e.reasoningItem "in_progress" [])]
      e.event "response.reasoning_summary_part.added" [("item_id", .string ("rs_" ++ e.ulid)),
        ("output_index", .nat index), ("summary_index", .nat 0), ("part", summaryPart "")]
    else e
  let e := { e with reasoning := e.reasoning ++ text }
  return e.event "response.reasoning_summary_text.delta" [("item_id", .string ("rs_" ++ e.ulid)),
    ("output_index", .nat index), ("summary_index", .nat 0), ("delta", .string text)]

def textDelta (e : ResponsesEncoder) (text : String) : Except OpenAiError ResponsesEncoder := do
  let e ← e.reserveOutput text.utf8ByteSize
  let index := e.textIndex.getD e.nextIndex
  let e :=
    if e.textIndex.isNone then
      let e := { e with nextIndex := succU32 e.nextIndex, textIndex := some index }
      let e := e.event "response.output_item.added" [("output_index", .nat index),
        ("item", .object [("id", .string ("msg_" ++ e.ulid)), ("type", .string "message"),
          ("status", .string "in_progress"), ("role", .string "assistant"), ("content", .array [])])]
      e.event "response.content_part.added" [("item_id", .string ("msg_" ++ e.ulid)), ("output_index", .nat index),
        ("content_index", .nat 0), ("part", outputPart "")]
    else e
  let e := { e with text := e.text ++ text }
  return e.event "response.output_text.delta" [("item_id", .string ("msg_" ++ e.ulid)),
    ("output_index", .nat index), ("content_index", .nat 0), ("delta", .string text)]

def announceTool (e : ResponsesEncoder) (index : Nat) (callId name : String) : ResponsesEncoder :=
  e.event "response.output_item.added" [("output_index", .nat index),
    ("item", if name ∈ e.customTools then customItem "in_progress" callId name ""
      else functionItem "in_progress" callId name "")]

def toolDelta (e : ResponsesEncoder) (engineIndex : UInt32) (callId name : Option String) (arguments : String) :
    Except OpenAiError ResponsesEncoder := do
  let e ← e.reserveOutput arguments.utf8ByteSize
  let tool := (e.tools.get? engineIndex).getD {}
  let index := tool.outputIndex.getD e.nextIndex
  let announce := !tool.announced
  let fresh := tool.outputIndex.isNone
  let tool := { tool with
    callId := callId.getD tool.callId
    name := name.getD tool.name
    arguments := tool.arguments ++ arguments
    announced := true
    outputIndex := some index }
  let e := { e with
    nextIndex := if fresh then succU32 e.nextIndex else e.nextIndex
    tools := e.tools.upsert engineIndex tool }
  let e := if announce then e.announceTool index tool.callId tool.name else e
  return if tool.name ∉ e.customTools && !arguments.isEmpty then
      e.event "response.function_call_arguments.delta" [("item_id", .string ("fc_" ++ tool.callId)),
        ("output_index", .nat index), ("delta", .string arguments)]
    else e

def finishReasoning (e : ResponsesEncoder) : ResponsesEncoder :=
  match e.reasoningIndex with
  | none => e
  | some index =>
    let place : Fields :=
      [("item_id", .string ("rs_" ++ e.ulid)), ("output_index", .nat index), ("summary_index", .nat 0)]
    let part := summaryPart e.reasoning
    let e := e.event "response.reasoning_summary_text.done" (place ++ [("text", .string e.reasoning)])
    let e := e.event "response.reasoning_summary_part.done" (place ++ [("part", part)])
    e.event "response.output_item.done" [("output_index", .nat index), ("item", e.reasoningItem "completed" [part])]

def finishText (e : ResponsesEncoder) : ResponsesEncoder :=
  match e.textIndex with
  | none => e
  | some index =>
    let place : Fields :=
      [("item_id", .string ("msg_" ++ e.ulid)), ("output_index", .nat index), ("content_index", .nat 0)]
    let e := e.event "response.output_text.done" (place ++ [("text", .string e.text)])
    let e := e.event "response.content_part.done" (place ++ [("part", outputPart e.text)])
    e.event "response.output_item.done" [("output_index", .nat index), ("item", e.textItem)]

def finishTool (e : ResponsesEncoder) (tool : ToolCall) : ResponsesEncoder :=
  match tool.outputIndex with
  | none => e
  | some index =>
    let e :=
      if tool.name ∈ e.customTools then
        e.event "response.custom_tool_call_input.done" [("item_id", .string ("ctc_" ++ tool.callId)),
          ("output_index", .nat index), ("input", .string (customInput X tool.arguments))]
      else
        e.event "response.function_call_arguments.done" [("item_id", .string ("fc_" ++ tool.callId)),
          ("output_index", .nat index), ("arguments", .string tool.arguments)]
    e.event "response.output_item.done" [("output_index", .nat index), ("item", e.toolItem X tool)]

/-- `text.trim().is_empty()`. -/
def blank (text : String) : Bool := text.toList.all X.isWhitespace

def reasoningOnlyStop (e : ResponsesEncoder) : Bool :=
  e.finishReason = some "stop" && !blank X e.reasoning && blank X e.text && e.tools.rows.isEmpty

def done (e : ResponsesEncoder) : Except OpenAiError ResponsesEncoder := do
  refuse ((toolValues e.tools).any fun tool =>
      tool.callId.isEmpty || tool.name.isEmpty || (X.fromStr tool.arguments).isNone)
    (invalidRequest "upstream tool arguments are invalid")
  refuse (e.reasoningOnlyStop X) ⟨"server_error", "upstream generation produced no actionable output"⟩
  let e := e.finishReasoning.finishText
  let e := (toolValues e.tools).foldl (finishTool X) e
  return if e.finishReason = some "length" then e.push X clock "response.incomplete" "incomplete"
    else e.push X clock "response.completed" "completed"

def accept (e : ResponsesEncoder) : GenerationEvent → Except OpenAiError ResponsesEncoder
  | .reasoningDelta text => e.reasoningDelta text
  | .textDelta text => e.textDelta text
  | .toolCallDelta index callId name arguments => e.toolDelta index callId name arguments
  | .usage promptTokens completionTokens => return { e with usage := (promptTokens, completionTokens) }
  | .finished finishReason => return { e with finishReason := finishReason }
  | .done => e.done X clock

def run (e : ResponsesEncoder) (events : List GenerationEvent) : Except OpenAiError ResponsesEncoder :=
  events.foldlM (accept X clock) e

end ResponsesEncoder

end Sparkplane.Gateway
