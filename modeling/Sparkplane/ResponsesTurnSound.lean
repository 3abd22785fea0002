import Sparkplane.InstructionSound
import Sparkplane.TurnSound

/-!
# A Responses turn comes back

The output of a turn is its pieces in order, one item each. Read back as input,
each item is a part of an assistant message, and adjacent ones are merged. What
a message holds of reasoning, text and calls adds up under the merge, so the
merged message holds the turn.
-/

namespace Sparkplane.Gateway

open ResponsesEncoder
open ChatMessage

/-! ## Merging -/

namespace ChatMessage

def thought (m : ChatMessage) : String := m.reasoningContent.getD ""

def said (m : ChatMessage) : String := m.content.assistantText.getD ""

def called (m : ChatMessage) : List ChatToolCall := m.toolCalls.getD []

end ChatMessage

section
variable (target source : ChatMessage)

theorem mergeResponseAssistant_eq : mergeResponseAssistant target source = { target with
    reasoningContent :=
      if source.thought.isEmpty then target.reasoningContent else some (target.thought ++ source.thought)
    content := if source.said.isEmpty then target.content else .text (target.said ++ source.said)
    toolCalls := source.toolCalls.elim target.toolCalls fun incoming => some (target.called ++ incoming) } := by
  have hthought : ∀ m : ChatMessage, mergeReasoning m source = { m with
      reasoningContent := if source.thought.isEmpty then m.reasoningContent else some (m.thought ++ source.thought) } := by
    intro m
    unfold mergeReasoning thought
    cases source.reasoningContent with
    | none => rfl
    | some incoming => dsimp only [Option.getD]; split <;> rfl
  have hsaid : ∀ m : ChatMessage, mergeText m source = { m with
      content := if source.said.isEmpty then m.content else .text (m.said ++ source.said) } := by
    intro m
    unfold mergeText said
    cases source.content.assistantText with
    | none => rfl
    | some incoming => dsimp only [Option.getD]; split <;> rfl
  rw [mergeResponseAssistant, hthought, hsaid, mergeCalls]
  cases source.toolCalls <;> rfl

theorem mergeResponseAssistant_thought :
    (mergeResponseAssistant target source).thought = target.thought ++ source.thought := by
  rw [mergeResponseAssistant_eq]
  unfold thought
  by_cases h : source.reasoningContent.getD "" = ""
  · simp [h]
  · simp [h]

theorem mergeResponseAssistant_said (h : target.content.assistantText = some target.said) :
    (mergeResponseAssistant target source).content.assistantText = some (target.said ++ source.said) := by
  rw [mergeResponseAssistant_eq]
  by_cases he : source.said = ""
  · simp [he, h]
  · simp [he, Content.assistantText]

theorem mergeResponseAssistant_called :
    (mergeResponseAssistant target source).called = target.called ++ source.called := by
  rw [mergeResponseAssistant_eq]
  unfold called
  cases source.toolCalls <;> simp

end

/-! ## Items -/

namespace ResponsesEncoder

def pieceItem (X : Crates) (e : ResponsesEncoder) (r : Source × Piece) : Value :=
  match r.1 with
  | .reasoning => e.reasoningItem "completed" [summaryPart e.reasoning]
  | .text => e.textItem
  | .tool _ => e.toolItem X (call r.2)

variable {X : Crates} {clock : Nat → Int} {e : ResponsesEncoder} {t : Turn}

theorem Of.outputItems_eq (h : e.Of t) (hn : t.Numbered) (hlt : t.rows.length < 2 ^ 32) :
    e.outputItems X = t.rows.map (e.pieceItem X) := by
  have hsorted : (t.rows.map fun r => (r.2.index, e.pieceItem X r)).Pairwise fun a b => a.1 < b.1 :=
    List.pairwise_map.mpr (hn.sorted hlt)
  have hreasoning : (e.reasoningIndex.map fun index =>
      (index, e.reasoningItem "completed" [summaryPart e.reasoning])).toList =
      (t.rows.filter fun r => r.1 = .reasoning).map fun r => (r.2.index, e.pieceItem X r) := by
    have hindex : e.reasoningIndex = (t.get? .reasoning).map (·.index) := h.kept.reasoningIndex
    rw [Table.filter_rows_eq, hindex]
    cases t.get? .reasoning <;> rfl
  have htext : (e.textIndex.map fun index => (index, e.textItem)).toList =
      (t.rows.filter fun r => r.1 = .text).map fun r => (r.2.index, e.pieceItem X r) := by
    have hindex : e.textIndex = (t.get? .text).map (·.index) := h.kept.textIndex
    rw [Table.filter_rows_eq, hindex]
    cases t.get? .text <;> rfl
  have htools : ((toolValues e.tools).filterMap fun tool =>
      tool.outputIndex.map fun index => (index, e.toolItem X tool)).Perm
      ((t.rows.filter fun r => r.1.toolIndex.isSome).map fun r => (r.2.index, e.pieceItem X r)) := by
    have hrows : (e.tools.rows.map Prod.snd).filterMap (fun tool =>
        tool.outputIndex.map fun index => (index, e.toolItem X tool)) =
        (t.rows.filter fun r => r.1.toolIndex.isSome).map fun r => (r.2.index, e.pieceItem X r) := by
      rw [h.tools]
      induction t.rows with
      | nil => rfl
      | cons r rows ih =>
        obtain ⟨s, p⟩ := r
        cases s with
        | tool i =>
          rw [List.filterMap_cons_some (by rfl), List.map_cons, List.filterMap_cons_some (by rfl),
            List.filter_cons_of_pos (by rfl), List.map_cons, ih]
          rfl
        | _ => rw [List.filterMap_cons_none (by rfl), List.filter_cons_of_neg (by simp), ih]
    rw [← hrows]
    exact ((Table.sorted_perm _ _).map _).filterMap _
  unfold outputItems
  rw [hreasoning, htext, ← List.map_append]
  have hkinds := (Turn.rows_perm t.rows).map fun r => (r.2.index, e.pieceItem X r)
  rw [List.map_append] at hkinds
  have hperm := (htools.append_left _).trans hkinds
  dsimp only
  rw [List.insertionSort_eq_of_perm (f := fun a : Nat × Value => a.1) hperm hsorted, List.map_map]
  rfl

end ResponsesEncoder

/-! ## Reading the items back -/

def pieceMessage (r : Source × Piece) : ChatMessage :=
  match r.1 with
  | .reasoning => { role := .assistant, content := .text "", reasoningContent := some r.2.body }
  | .text => { role := .assistant, content := .text r.2.body }
  | .tool _ => { role := .assistant, content := .null, toolCalls := some [⟨r.2.callId, r.2.name, r.2.body⟩] }

theorem pieceMessage_role (r : Source × Piece) : (pieceMessage r).role = .assistant := by
  unfold pieceMessage
  split <;> rfl

section
variable {X : Crates} {vision : Option VisionPolicy} {e : ResponsesEncoder} {t : Turn}

theorem responseInputItem_piece (h : e.Of t) (hcustom : e.customTools = []) {r : Source × Piece} (hr : r ∈ t.rows)
    (images : ImageBudget) : responseInputItem X (e.pieceItem X r) vision images = .ok (pieceMessage r, images) := by
  have hget : t.get? r.1 = some r.2 := Table.get?_eq_some.mpr hr
  obtain ⟨s, p⟩ := r
  cases s with
  | reasoning =>
    have hbody : e.reasoning = p.body := by
      have := h.kept.reasoning
      rw [Turn.body, hget] at this
      exact this
    simp [pieceItem, reasoningItem, summaryPart,
      responseInputItem, responseReasoning, responseSummary, Value.field, Value.get, Value.fieldIs, Fields.get,
      Value.asStr, Value.asArray, okOr, refuse, bind, Except.bind, pure, Except.pure, pieceMessage, hbody]
  | text =>
    have hbody : e.text = p.body := by
      have := h.kept.text
      rw [Turn.body, hget] at this
      exact this
    simp [pieceItem, textItem, outputPart, responseInputItem,
      responseMessage, responseRole, responseContent, responseParts, responsePart, Content.ofParts, Value.field,
      Value.get, Fields.get, Value.asStr, Value.asArray, okOr, bind, Except.bind, pure, Except.pure, pieceMessage,
      hbody]
  | tool i =>
    simp [pieceItem, toolItem, functionItem, hcustom,
      call, responseInputItem, responseToolCall, responseArguments, Value.field, Value.get,
      Fields.get, Value.asStr, okOr, bind, Except.bind, pure, Except.pure, pieceMessage]

theorem appendResponse_assistant {front : List ChatMessage} {a m : ChatMessage} (ha : a.role = .assistant)
    (hm : m.role = .assistant) : appendResponse (front ++ [a]) m = front ++ [mergeResponseAssistant a m] := by
  simp [appendResponse, ha, hm]

theorem responseItems_pieces (h : e.Of t) (hcustom : e.customTools = []) {images : ImageBudget}
    {front : List ChatMessage} {rows : List (Source × Piece)} (hrows : ∀ r ∈ rows, r ∈ t.rows) :
    ∀ {a : ChatMessage}, a.role = .assistant → responseItems X vision (rows.map (e.pieceItem X)) images (front ++ [a]) =
        .ok (front ++ [(rows.map pieceMessage).foldl mergeResponseAssistant a]) := by
  induction rows with
  | nil => exact fun _ => rfl
  | cons r rows ih =>
    intro a ha
    have hr := @responseInputItem_piece X vision _ _ h hcustom _ (hrows r List.mem_cons_self) images
    rw [List.map_cons, responseItems, hr]
    show responseItems X vision _ images (appendResponse (front ++ [a]) (pieceMessage r)) = _
    rw [appendResponse_assistant ha (pieceMessage_role r),
      ih (fun r' hr' => hrows r' (List.mem_cons_of_mem _ hr')) ((mergeResponseAssistant_role a _).trans ha)]
    rfl

end

/-! ## The merged message -/

theorem foldl_merge_role (ms : List ChatMessage) (a : ChatMessage) :
    (ms.foldl mergeResponseAssistant a).role = a.role := by
  induction ms generalizing a with
  | nil => rfl
  | cons m ms ih => rw [List.foldl_cons, ih, mergeResponseAssistant_role]

theorem foldl_merge_thought (ms : List ChatMessage) (a : ChatMessage) :
    (ms.foldl mergeResponseAssistant a).thought = ms.foldl (fun s m => s ++ m.thought) a.thought := by
  induction ms generalizing a with
  | nil => rfl
  | cons m ms ih => rw [List.foldl_cons, ih, mergeResponseAssistant_thought, List.foldl_cons]

theorem foldl_merge_said (ms : List ChatMessage) {a : ChatMessage} (ha : a.content.assistantText = some a.said) :
    (ms.foldl mergeResponseAssistant a).content.assistantText = some (ms.foldl (fun s m => s ++ m.said) a.said) := by
  induction ms generalizing a with
  | nil => exact ha
  | cons m ms ih =>
    have hm := mergeResponseAssistant_said a m ha
    have hsaid : (mergeResponseAssistant a m).said = a.said ++ m.said := by rw [said, hm]; rfl
    rw [List.foldl_cons, ih (by rw [hm, hsaid]), hsaid, List.foldl_cons]

theorem foldl_merge_called (ms : List ChatMessage) (a : ChatMessage) :
    (ms.foldl mergeResponseAssistant a).called = a.called ++ ms.flatMap called := by
  induction ms generalizing a with
  | nil => simp
  | cons m ms ih => rw [List.foldl_cons, ih, mergeResponseAssistant_called, List.flatMap_cons, List.append_assoc]

def Turn.calls (t : Turn) : List ChatToolCall :=
  t.rows.filterMap fun r => r.1.toolIndex.map fun _ => ⟨r.2.callId, r.2.name, r.2.body⟩

theorem Turn.foldl_body (t : Turn) {s : Source} {f : Source × Piece → String}
    (hf : ∀ r, f r = if r.1 = s then r.2.body else "") : t.rows.foldl (fun acc r => acc ++ f r) "" = t.body s := by
  have hnone : ∀ (rows : List (Source × Piece)) (acc : String), s ∉ rows.map Prod.fst →
      rows.foldl (fun acc r => acc ++ f r) acc = acc := by
    intro rows
    induction rows with
    | nil => exact fun _ _ => rfl
    | cons r rows ih =>
      intro acc hs
      rw [List.map_cons, List.mem_cons, not_or] at hs
      rw [List.foldl_cons, hf, if_neg (Ne.symm hs.1), String.append_empty, ih acc hs.2]
  have hall : ∀ (rows : List (Source × Piece)), (rows.map Prod.fst).Nodup → rows.foldl (fun acc r => acc ++ f r) "" =
        ((((rows.find? fun r => r.1 = s).map Prod.snd).map (·.body)).getD "") := by
    intro rows
    induction rows with
    | nil => exact fun _ => rfl
    | cons r rows ih =>
      intro hn
      rw [List.map_cons, List.nodup_cons] at hn
      rw [List.foldl_cons, hf, String.empty_append]
      by_cases e : r.1 = s
      · rw [if_pos e, hnone rows _ (e ▸ hn.1), List.find?_cons_of_pos (by simpa using e)]
        rfl
      · rw [if_neg e, ih hn.2, List.find?_cons_of_neg (by simpa using e)]
  exact hall t.rows t.nodup

structure HoldsTurn (t : Turn) (a : ChatMessage) : Prop where
  role : a.role = .assistant
  reasoning : a.reasoningContent.getD "" = t.body .reasoning
  text : a.content.assistantText = some (t.body .text)
  calls : a.toolCalls.getD [] = t.calls

theorem holdsTurn_merged {t : Turn} {r : Source × Piece} {rows : List (Source × Piece)} (h : t.rows = r :: rows) :
    HoldsTurn t ((rows.map pieceMessage).foldl mergeResponseAssistant (pieceMessage r)) where
  role := (foldl_merge_role _ _).trans (pieceMessage_role r)
  reasoning := by
    have hbody := t.foldl_body (s := .reasoning) (f := fun r => (pieceMessage r).thought) fun r => by
      obtain ⟨s, p⟩ := r
      cases s <;> rfl
    rw [← hbody, h, List.foldl_cons, String.empty_append]
    exact (foldl_merge_thought _ _).trans (by rw [List.foldl_map])
  text := by
    have hbody := t.foldl_body (s := .text) (f := fun r => (pieceMessage r).said) fun r => by
      obtain ⟨s, p⟩ := r
      cases s <;> rfl
    have hfirst : (pieceMessage r).content.assistantText = some (pieceMessage r).said := by
      obtain ⟨s, p⟩ := r
      cases s <;> rfl
    rw [← hbody, h, List.foldl_cons, String.empty_append, foldl_merge_said _ hfirst, List.foldl_map]
  calls := by
    have hcalled : ∀ r, (pieceMessage r).called =
        (r.1.toolIndex.map fun _ => (⟨r.2.callId, r.2.name, r.2.body⟩ : ChatToolCall)).toList := by
      intro r
      obtain ⟨s, p⟩ := r
      cases s <;> rfl
    have hrows : ∀ rows : List (Source × Piece), (rows.map pieceMessage).flatMap called =
        rows.filterMap fun r => r.1.toolIndex.map fun _ => ⟨r.2.callId, r.2.name, r.2.body⟩ := by
      intro rows
      induction rows with
      | nil => rfl
      | cons r rows ih => rw [List.map_cons, List.flatMap_cons, ih, hcalled, filterMap_toList]
    refine (foldl_merge_called _ _).trans ?_
    rw [hcalled, hrows, Turn.calls, h, filterMap_toList]

/-- Read back after a user message, a turn is no message when it has no pieces, and else one that holds it. -/
theorem responseItems_turn {X : Crates} {vision : Option VisionPolicy} {e : ResponsesEncoder} {t : Turn} (h : e.Of t)
    (hcustom : e.customTools = []) {u : ChatMessage} (hu : u.role = .user) (images : ImageBudget) :
    ∃ assistants, responseItems X vision (t.rows.map (e.pieceItem X)) images [u] = .ok (u :: assistants) ∧
      (t.rows = [] → assistants = []) ∧ (t.rows ≠ [] → ∃ a, assistants = [a] ∧ HoldsTurn t a) := by
  cases hrows : t.rows with
  | nil => exact ⟨[], rfl, fun _ => rfl, fun hne => absurd rfl hne⟩
  | cons r₀ rows =>
    have hmem : ∀ r ∈ r₀ :: rows, r ∈ t.rows := fun r hr => hrows ▸ hr
    have hfirst := @responseInputItem_piece X vision _ _ h hcustom _ (hmem r₀ List.mem_cons_self) images
    have hrest := @responseItems_pieces X vision _ _ h hcustom images [u] rows
      (fun r hr => hmem r (List.mem_cons_of_mem _ hr)) _ (pieceMessage_role r₀)
    have hsecond : appendResponse [u] (pieceMessage r₀) = [u] ++ [pieceMessage r₀] := by
      simp [appendResponse, hu]
    refine ⟨[_], ?_, (fun hnil => by cases hnil), fun _ => ⟨_, rfl, holdsTurn_merged hrows⟩⟩
    rw [List.map_cons, responseItems, hfirst]
    show responseItems X vision _ images (appendResponse [u] (pieceMessage r₀)) = _
    rw [hsecond, hrest]
    rfl

/-- An assistant turn with some output comes back as one message that holds it, and one without any as none. -/
theorem responses_turn_returns {X : Crates} (hX : X.fromStr "" = none) {clock : Nat → Int} {ulid model : String}
    {events : List GenerationEvent} {e : ResponsesEncoder}
    (hrun : (new X clock ulid model []).run X clock (events ++ [.done]) = .ok e)
    {output : List Value} (hdocument : (e.finalDocument X clock).get "output" = some (.array output))
    {bytes servedModel : String} {profile : GatewayProfile} {object : Fields} {user : Value}
    {u : ChatMessage} {images : ImageBudget} (henvelope : ResponsesEnvelope X bytes object)
    (hinput : object.get "input" = some (.array (user :: output)))
    (huser : responseInputItem X user profile.vision {} = .ok (u, images)) (hu : u.role = .user) :
    ∃ (r : GenerationRequest) (messages : List ChatMessage),
      rewriteResponsesRequestWithProfile X bytes servedModel profile = .ok r ∧
      r.body.get "messages" = some (.array (messages.map toValue)) ∧
      (output = [] ↔ (Turn.of (events ++ [.done])).rows = []) ∧
      (output = [] → messages.filter (fun m => m.role = .assistant) = []) ∧
      (output ≠ [] → ∃ a, messages.filter (fun m => m.role = .assistant) = [a] ∧
        HoldsTurn (Turn.of (events ++ [.done])) a) := by
  obtain ⟨e₁, hrun₁, hdone⟩ := run_done hrun
  have hof₁ : e₁.Of (Turn.of events) := (of_new ulid model []).run hrun₁
  have hof : e.Of (Turn.of (events ++ [.done])) := by
    rw [Turn.of_append]
    exact hof₁.done hdone
  have hlength : (Turn.of (events ++ [.done])).rows.length < 2 ^ 32 := by
    rw [Turn.of_append]
    have hlt := hof₁.length_lt hX hdone
    simpa [Turn.step, Table.update] using hlt
  have houtput : output = (Turn.of (events ++ [.done])).rows.map (e.pieceItem X) := by
    rw [← hof.outputItems_eq (Turn.numbered_of _) hlength]
    simpa [finalDocument, document, Value.get, Fields.get, eq_comm] using hdocument
  have hempty : output = [] ↔ (Turn.of (events ++ [.done])).rows = [] := by rw [houtput, List.map_eq_nil_iff]
  obtain ⟨assistants, hitems, hnone, hone⟩ := @responseItems_turn X profile.vision _ _ hof
    (run_custom hrun) _ hu images
  have hmessages : responseMessages X (object.get "input") profile.vision = .ok (u :: assistants) := by
    rw [hinput, houtput]
    show responseItems X profile.vision (user :: _) {} [] = _
    rw [responseItems, huser]
    exact hitems
  obtain ⟨r, hr, hbody⟩ := @rewriteResponses_accepts X bytes servedModel profile _ _ henvelope hmessages (by simp [hu])
  have hinstructions : (instructionMessage object).filter (fun m => m.role = .assistant) = [] := by
    unfold instructionMessage
    cases (object.get "instructions").bind Value.asStr <;> rfl
  refine ⟨r, _, hr, hbody, hempty, ?_⟩
  rw [mergeSystemMessages_filter _ fun m h => by simp [h], List.filter_append, hinstructions, hempty, ne_eq, hempty]
  refine ⟨fun h => ?_, fun h => ?_⟩
  · rw [hnone h]
    simp [hu]
  · obtain ⟨a, rfl, ha⟩ := hone h
    exact ⟨a, by simp [hu, ha.role], ha⟩

/-! ## A silent turn, and one with reasoning, a text and two calls -/

def helloItem : Value := messageItem "user" (.string "Hello")

def helloBody : String :=
  "\x7b\"model\":\"m\",\"input\":[\x7b\"type\":\"message\",\"role\":\"user\",\"content\":\"Hello\"\x7d]\x7d"

/-- A turn in which nothing is said is done, and nothing of it comes back. -/
theorem silent_turn_lost : ∃ e r,
    (new (cratesOf helloBody (.object (inputFields [helloItem]))) (fun _ => 0) "u" "m" []).run
        (cratesOf helloBody (.object (inputFields [helloItem]))) (fun _ => 0) ([] ++ [.done]) = .ok e ∧
      (e.finalDocument (cratesOf helloBody (.object (inputFields [helloItem]))) fun _ => 0).get "output" =
        some (.array []) ∧
      rewriteResponsesRequestWithProfile (cratesOf helloBody (.object (inputFields [helloItem]))) helloBody "m" {} =
        .ok r ∧
      r.body.get "messages" =
        some (.array ([{ role := .user, content := .text "Hello" }].map toValue)) := by
  have hmessages : responseMessages (cratesOf helloBody (.object (inputFields [helloItem])))
      (Fields.get (inputFields [helloItem]) "input") none = .ok [{ role := .user, content := .text "Hello" }] := by
    simp [responseMessages, inputFields, helloItem, Fields.get, okOr, Value.asStr, Value.asArray, responseItems,
      responseInputItem_user, appendResponse, bind, Except.bind, pure, Except.pure]
  obtain ⟨r, hr, hbody⟩ := @rewriteResponses_accepts _ helloBody "m" {} _ _
    (inputFields_envelope (by decide +kernel) (cratesOf_fromStr ..)) hmessages rfl
  rw [inputFields_instructions] at hbody
  exact ⟨_, r, rfl, rfl, hr, hbody⟩

def callsItems : List Value :=
  [.object [("id", .string "rs_u"), ("type", .string "reasoning"), ("status", .string "completed"),
    ("summary", .array [summaryPart "Hm"])], functionItem "completed" "t1" "add" "\x7b\x7d",
   .object [("id", .string "msg_u"), ("type", .string "message"), ("status", .string "completed"),
    ("role", .string "assistant"), ("phase", .string "commentary"), ("content", .array [outputPart "Hi"])],
   functionItem "completed" "t0" "sub" "\x7b\x7d"]

def braced (fields : String) : String := "\x7b" ++ fields ++ "\x7d"

def callBody (id name : String) : String :=
  braced ("\"id\":\"fc_" ++ id ++ "\",\"type\":\"function_call\",\"status\":\"completed\",\"call_id\":\"" ++ id ++
    "\",\"name\":\"" ++ name ++ "\",\"arguments\":\"\x7b\x7d\"")

def callsBody : String :=
  braced ("\"model\":\"m\",\"input\":[" ++
    braced "\"type\":\"message\",\"role\":\"user\",\"content\":\"Hello\"" ++ "," ++
    braced ("\"id\":\"rs_u\",\"type\":\"reasoning\",\"status\":\"completed\",\"summary\":[" ++
      braced "\"type\":\"summary_text\",\"text\":\"Hm\"" ++ "]") ++ "," ++ callBody "t1" "add" ++ "," ++
    braced ("\"id\":\"msg_u\",\"type\":\"message\",\"status\":\"completed\",\"role\":\"assistant\"," ++
      "\"phase\":\"commentary\",\"content\":[" ++
      braced "\"type\":\"output_text\",\"text\":\"Hi\",\"annotations\":[]" ++ "]") ++ "," ++
    callBody "t0" "sub" ++ "]")

def callsCrates : Crates :=
  { cratesOf callsBody (.object (inputFields (helloItem :: callsItems))) with
    fromStr := fun t => if t = "\x7b\x7d" then some (.object [])
      else (cratesOf callsBody (.object (inputFields (helloItem :: callsItems)))).fromStr t }

/-- The arguments of the first call come in two parts, around the text and the second call. -/
def callsTurn : List GenerationEvent :=
  [.reasoningDelta "Hm", .toolCallDelta 1 (some "t1") (some "add") "\x7b", .textDelta "Hi",
   .toolCallDelta 0 (some "t0") (some "sub") "\x7b\x7d", .toolCallDelta 1 none none "\x7d"]

theorem calls_turn_returns : ∃ (e : ResponsesEncoder) (r : GenerationRequest) (messages : List ChatMessage)
    (a : ChatMessage),
    (new callsCrates (fun _ => 0) "u" "m" []).run callsCrates (fun _ => 0) (callsTurn ++ [.done]) = .ok e ∧
      (e.finalDocument callsCrates fun _ => 0).get "output" = some (.array callsItems) ∧
      rewriteResponsesRequestWithProfile callsCrates callsBody "m" {} = .ok r ∧
      r.body.get "messages" = some (.array (messages.map toValue)) ∧
      messages.filter (fun m => m.role = .assistant) = [a] ∧ a.reasoningContent.getD "" = "Hm" ∧
      a.content.assistantText = some "Hi" ∧
      a.toolCalls.getD [] = [⟨"t1", "add", "\x7b\x7d"⟩, ⟨"t0", "sub", "\x7b\x7d"⟩] := by
  have hX : callsCrates.fromStr "" = none := by decide +kernel
  have hother : callsBody ≠ "\x7b\x7d" := by decide +kernel
  have hread : callsCrates.fromStr callsBody = some (.object (inputFields (helloItem :: callsItems))) := by
    simp only [callsCrates, if_neg hother, cratesOf_fromStr]
  have hrun : ∃ e, (new callsCrates (fun _ => 0) "u" "m" []).run callsCrates (fun _ => 0)
      (callsTurn ++ [.done]) = .ok e ∧
      (e.finalDocument callsCrates fun _ => 0).get "output" = some (.array callsItems) := ⟨_, rfl, rfl⟩
  obtain ⟨e, he, hdocument⟩ := hrun
  obtain ⟨r, messages, hr, hbody, -, -, hone⟩ := @responses_turn_returns callsCrates hX _ _ _ _ e he _ hdocument
    callsBody "m" {} _ helloItem _ _ (inputFields_envelope (by decide +kernel) hread) rfl (responseInputItem_user ..) rfl
  obtain ⟨a, ha, hholds⟩ := hone (by simp [callsItems])
  exact ⟨e, r, messages, a, he, hdocument, hr, hbody, ha, hholds.reasoning, hholds.text, hholds.calls⟩

end Sparkplane.Gateway
