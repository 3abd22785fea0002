import Sparkplane.Anthropic
import Sparkplane.Responses

/-!
# Where the instructions go

The engine gets one system message, in front. `merge_system_messages` puts
there what it finds in system messages whose content is a text, and drops the
other system messages. A message of one part is a text by then; a message of
several parts is not.
-/

namespace Sparkplane.Gateway

open ChatMessage

/-! ## Merging -/

def ChatMessage.systemText (m : ChatMessage) : Option String :=
  match m.role, m.content with
  | .system, .text s => some s
  | _, _ => none

theorem mergeSystemMessages_eq (messages : List ChatMessage) : mergeSystemMessages messages =
      let system := messages.filterMap systemText
      let native := messages.filter fun m => m.role ≠ .system
      if system.isEmpty then native
      else { role := .system, content := .text ("\n\n".intercalate system) } :: native := rfl

structure Instruction where
  text : String
  whole : Bool

open Instruction

/-- The texts are, in order, among the paragraphs of the one system message,
which leads; with no texts there need be none. -/
def Leads (texts : List String) (messages : List ChatMessage) : Prop :=
  ∃ paragraphs rest, texts.Sublist paragraphs ∧ (∀ m ∈ rest, m.role ≠ .system) ∧
    (messages = { role := .system, content := .text ("\n\n".intercalate paragraphs) } :: rest ∨
      paragraphs = [] ∧ messages = rest)

def room (texts : List String) : Nat := (texts.map fun s => s.length + 2).sum

theorem room_cons (s : String) (texts : List String) : room (s :: texts) = s.length + 2 + room texts := rfl

theorem room_intercalate : ∀ {texts : List String}, texts ≠ [] → ("\n\n".intercalate texts).length + 2 = room texts
  | [], h => absurd rfl h
  | [s], _ => by simp [room]
  | s :: s' :: texts, _ => by
    have ih : ("\n\n".intercalate (s' :: texts)).length + 2 = room (s' :: texts) := room_intercalate (by simp)
    have hsep : "\n\n".length = 2 := rfl
    rw [String.intercalate_cons_cons, String.length_append, String.length_append, room_cons, ← ih, hsep]
    omega

theorem room_mono {texts texts' : List String} (h : texts.Sublist texts') : room texts ≤ room texts' := by
  induction h with
  | slnil => exact Nat.le_refl _
  | cons s _ ih => rw [room_cons]; omega
  | cons_cons s _ ih => rw [room_cons, room_cons]; omega

theorem room_whole {instructions : List Instruction} {i : Instruction} (hi : i ∈ instructions) (hw : i.whole = false) :
    room ((instructions.filter (·.whole)).map (·.text)) < room (instructions.map (·.text)) := by
  induction instructions with
  | nil => cases hi
  | cons j instructions ih =>
    have hle : room ((instructions.filter (·.whole)).map (·.text)) ≤ room (instructions.map (·.text)) :=
      room_mono (List.filter_sublist.map _)
    rw [List.map_cons, room_cons]
    cases hj : j.whole with
    | false =>
      rw [List.filter_cons_of_neg (by simp [hj])]
      omega
    | true =>
      rw [List.filter_cons_of_pos (p := fun i : Instruction => i.whole) hj, List.map_cons, room_cons]
      rcases List.mem_cons.mp hi with rfl | hi
      · rw [hw] at hj
        cases hj
      · have := ih hi
        omega

theorem leads_iff {messages : List ChatMessage} {instructions : List Instruction}
    (h : messages.filterMap systemText = (instructions.filter (·.whole)).map (·.text)) :
    Leads (instructions.map (·.text)) (mergeSystemMessages messages) ↔ ∀ i ∈ instructions, i.whole = true := by
  have hnative : ∀ m ∈ messages.filter fun m => m.role ≠ .system, m.role ≠ .system := by
    intro m hm
    simpa using (List.mem_filter.mp hm).2
  rw [mergeSystemMessages_eq, h]
  dsimp only
  constructor
  · rintro ⟨paragraphs, rest, hsub, hrest, hm⟩ i hi
    by_contra hw
    rw [Bool.not_eq_true] at hw
    -- what the system message holds is too short for all the texts
    have hlost := room_whole hi hw
    have hroom := room_mono hsub
    have hne : paragraphs ≠ [] := by
      rintro rfl
      have : room ([] : List String) = 0 := rfl
      omega
    rcases hm with hm | ⟨hp, -⟩
    · split at hm
      · exact hnative _ (hm ▸ List.mem_cons_self) rfl
      next hk =>
        have hk : (instructions.filter (·.whole)).map (·.text) ≠ [] := by simpa using hk
        have e := congrArg String.length (Content.text.inj (congrArg content (List.cons.inj hm).1))
        have h1 := room_intercalate hk
        have h2 := room_intercalate hne
        omega
    · exact hne hp
  · intro hall
    rw [List.filter_eq_self.mpr hall]
    refine ⟨instructions.map (·.text), messages.filter fun m => m.role ≠ .system, List.Sublist.refl _, hnative, ?_⟩
    split
    next hk => exact .inr ⟨by simpa using hk, rfl⟩
    next => exact .inl rfl

/-! ## Responses -/

def partText (part : Value) : String := (part.field "text").asStr.getD ""

def Instruction.lost (text : String) : Option Instruction := if text = "" then none else some ⟨text, false⟩

def contentInstruction : Value → Option Instruction
  | .string s => some ⟨s, true⟩
  | .array [part] => some ⟨partText part, true⟩
  | .array parts => lost ("".intercalate (parts.map partText))
  | _ => none

def itemInstruction (item : Value) : Option Instruction :=
  if item.fieldIs "type" "message" && (item.fieldIs "role" "system" || item.fieldIs "role" "developer") then
    contentInstruction (item.field "content")
  else none

def fieldInstruction : Value → Option Instruction
  | .string s => some ⟨s, true⟩
  | .array parts => lost ("".intercalate (parts.filterMap fun part => part.asStr.or (part.field "text").asStr))
  | value => lost (partText value)

def responseInstructions (object : Fields) : List Instruction :=
  ((object.get "instructions").bind fieldInstruction).toList ++
    (((object.get "input").bind Value.asArray).getD []).filterMap itemInstruction

section
variable {X : Crates} {vision : Option VisionPolicy} {images images' : ImageBudget}

theorem responsePart_text {role : String} (hr : role ∉ ["user", "tool"]) {part : Value} {p : Part}
    (h : responsePart X role vision part images = .ok (p, images')) : p = .text (partText part) := by
  have htext : ∀ {s}, (part.field "text").asStr = some s → Part.text s = .text (partText part) := by
    intro s hs
    rw [partText, hs]
    rfl
  unfold responsePart at h
  split at h
  · obtain ⟨s, hs, h⟩ := okOr_bind h
    cases h
    exact htext hs
  · obtain ⟨s, hs, h⟩ := okOr_bind h
    cases h
    exact htext hs
  · obtain ⟨hbad, -⟩ := refuse_bind h
    simp [hr] at hbad
  · cases h

theorem responseParts_text {role : String} (hr : role ∉ ["user", "tool"]) :
    ∀ {parts : List Value} {ps : List Part} {images images' : ImageBudget},
      responseParts X role vision parts images = .ok (ps, images') → ps = parts.map fun p => .text (partText p)
  | [], ps, images, images', h => by cases h; rfl
  | part :: parts, ps, images, images', h => by
    obtain ⟨⟨p, images1⟩, hp, h⟩ := ok_bind h
    obtain ⟨⟨ps', images2⟩, hps, h⟩ := ok_bind h
    cases h
    rw [responsePart_text hr hp, responseParts_text hr hps]
    rfl

def Instruction.kept (i : Option Instruction) : Option String := (i.filter (·.whole)).map (·.text)

theorem Instruction.kept_lost (text : String) : kept (lost text) = none := by
  unfold lost
  split <;> rfl

theorem responseContent_system {role : String} (hr : role ∉ ["user", "tool"]) {value : Value} {c : Content}
    (h : responseContent X value role vision images = .ok (c, images')) :
    ({ role := .system, content := c } : ChatMessage).systemText = kept (contentInstruction value) := by
  unfold responseContent at h
  cases value with
  | string s =>
    cases h
    rfl
  | array parts =>
    obtain ⟨parts', hparts, h⟩ := okOr_bind h
    cases hparts
    obtain ⟨⟨ps, images1⟩, hps, h⟩ := ok_bind h
    cases h
    rw [responseParts_text hr hps]
    match parts with
    | [] => rfl
    | [p] => rfl
    | p :: q :: parts =>
      rw [contentInstruction, kept_lost]
      · rfl
      · simp
  | _ => cases h

theorem responseRole_system {role : String} {r : Role} (h : responseRole role = some r) :
    if role = "system" ∨ role = "developer" then r = .system ∧ role ∉ ["user", "tool"] else r ≠ .system := by
  unfold responseRole at h
  split at h <;> cases h <;> simp

theorem responseMessage_system {item : Value} {m : ChatMessage}
    (h : responseMessage X item vision images = .ok (m, images')) :
    m.systemText = kept (if item.fieldIs "role" "system" || item.fieldIs "role" "developer" then
      contentInstruction (item.field "content") else none) := by
  unfold responseMessage at h
  obtain ⟨role, hrole, h⟩ := okOr_bind h
  obtain ⟨r, hr, h⟩ := okOr_bind h
  obtain ⟨⟨c, images1⟩, hc, h⟩ := ok_bind h
  cases h
  have hsys := responseRole_system hr
  simp only [Value.fieldIs, hrole, Option.some.injEq]
  by_cases e : role = "system" ∨ role = "developer"
  · rw [if_pos e] at hsys
    rw [if_pos (by simpa using e), hsys.1]
    exact responseContent_system hsys.2 hc
  · rw [if_neg e] at hsys
    rw [if_neg (by simpa using e)]
    cases r with
    | system => exact absurd rfl hsys
    | _ => rfl

theorem ChatMessage.systemText_of_role {m : ChatMessage} (h : m.role ≠ .system) : m.systemText = none := by
  unfold systemText
  split
  next hr _ => exact absurd hr h
  next => rfl

theorem responseToolCall_role {item : Value} {custom : Bool} {m : ChatMessage}
    (h : responseToolCall X item custom = .ok m) : m.role = .assistant := by
  unfold responseToolCall at h
  obtain ⟨callId, -, h⟩ := okOr_bind h
  obtain ⟨name, -, h⟩ := okOr_bind h
  obtain ⟨arguments, -, h⟩ := ok_bind h
  cases h
  rfl

theorem responseReasoning_role {item : Value} {m : ChatMessage} (h : responseReasoning item = .ok m) :
    m.role = .assistant := by
  unfold responseReasoning at h
  obtain ⟨summary, -, h⟩ := okOr_bind h
  obtain ⟨reasoning, -, h⟩ := ok_bind h
  cases h
  rfl

theorem responseToolOutput_role {item : Value} {m : ChatMessage}
    (h : responseToolOutput X item vision images = .ok (m, images')) : m.role = .tool := by
  unfold responseToolOutput at h
  obtain ⟨callId, -, h⟩ := okOr_bind h
  obtain ⟨output, -, h⟩ := okOr_bind h
  obtain ⟨c, -, h⟩ := ok_bind h
  cases h
  rfl

theorem responseInputItem_system {item : Value} {m : ChatMessage}
    (h : responseInputItem X item vision images = .ok (m, images')) :
    m.systemText = kept (itemInstruction item) := by
  have hother : ∀ t, (item.field "type").asStr = some t → t ≠ "message" → m.role ≠ .system →
      m.systemText = kept (itemInstruction item) := by
    intro t ht hne hr
    rw [systemText_of_role hr]
    simp [itemInstruction, Value.fieldIs, ht, hne, kept]
  unfold responseInputItem at h
  split at h
  next ht =>
    simp only [itemInstruction, Value.fieldIs, ht, decide_true, Bool.true_and]
    exact responseMessage_system h
  next ht =>
    obtain ⟨m', hm, h⟩ := ok_bind h
    cases h
    exact hother _ ht (by decide) (by simp [responseToolCall_role hm])
  next ht =>
    obtain ⟨m', hm, h⟩ := ok_bind h
    cases h
    exact hother _ ht (by decide) (by simp [responseToolCall_role hm])
  next ht => exact hother _ ht (by decide) (by simp [responseToolOutput_role h])
  next ht => exact hother _ ht (by decide) (by simp [responseToolOutput_role h])
  next ht =>
    obtain ⟨m', hm, h⟩ := ok_bind h
    cases h
    exact hother _ ht (by decide) (by simp [responseReasoning_role hm])
  all_goals cases h

theorem mergeResponseAssistant_role (target source : ChatMessage) :
    (mergeResponseAssistant target source).role = target.role := by
  unfold mergeResponseAssistant mergeCalls mergeText mergeReasoning
  repeat' split
  all_goals rfl

theorem appendResponse_system (messages : List ChatMessage) (m : ChatMessage) :
    (appendResponse messages m).filterMap systemText = messages.filterMap systemText ++ m.systemText.toList := by
  have happend : (messages ++ [m]).filterMap systemText = messages.filterMap systemText ++ m.systemText.toList := by
    rw [List.filterMap_append, List.filterMap_cons]
    cases m.systemText <;> rfl
  unfold appendResponse
  split
  next previous hp =>
    split
    next hr =>
      have hm : m.systemText = none := systemText_of_role (by simp [hr.1])
      have hprevious : previous.systemText = none := systemText_of_role (by simp [hr.2])
      have hmerged : (mergeResponseAssistant previous m).systemText = none :=
        systemText_of_role (by simp [mergeResponseAssistant_role, hr.2])
      obtain ⟨front, rfl⟩ := List.getLast?_eq_some_iff.mp hp
      rw [List.dropLast_concat, List.filterMap_append, List.filterMap_append]
      simp [hm, hprevious, hmerged]
    next => exact happend
  next => exact happend

theorem filterMap_toList {α β : Type} (f : α → Option β) (a : α) (l : List α) :
    (a :: l).filterMap f = (f a).toList ++ l.filterMap f := by
  rw [List.filterMap_cons]
  cases f a <;> rfl

def keptTexts (instructions : List Instruction) : List String := (instructions.filter (·.whole)).map (·.text)

theorem keptTexts_append (l l' : List Instruction) : keptTexts (l ++ l') = keptTexts l ++ keptTexts l' := by
  simp [keptTexts]

theorem keptTexts_toList (i : Option Instruction) : keptTexts i.toList = (kept i).toList := by
  cases i with
  | none => rfl
  | some i => cases h : i.whole <;> simp [keptTexts, kept, Option.filter, h]

theorem responseItems_system : ∀ {items : List Value} {images : ImageBudget} {messages messages' : List ChatMessage},
    responseItems X vision items images messages = .ok messages' → messages'.filterMap systemText =
        messages.filterMap systemText ++ keptTexts (items.filterMap itemInstruction)
  | [], images, messages, messages', h => by
    cases h
    simp [keptTexts]
  | item :: items, images, messages, messages', h => by
    obtain ⟨⟨m, images1⟩, hm, h⟩ := ok_bind h
    rw [responseItems_system h, appendResponse_system, responseInputItem_system hm, filterMap_toList,
      keptTexts_append, keptTexts_toList, List.append_assoc]

theorem responseMessages_system {value : Option Value} {messages : List ChatMessage}
    (h : responseMessages X value vision = .ok messages) :
    messages.filterMap systemText = keptTexts (((value.bind Value.asArray).getD []).filterMap itemInstruction) := by
  unfold responseMessages at h
  obtain ⟨value, rfl, h⟩ := okOr_bind h
  cases value with
  | string s =>
    cases h
    rfl
  | array items =>
    obtain ⟨items', hitems, h⟩ := okOr_bind h
    cases hitems
    exact responseItems_system h
  | _ => cases h

theorem fieldInstruction_kept (value : Option Value) :
    keptTexts (value.bind fieldInstruction).toList = (value.bind Value.asStr).toList := by
  rw [keptTexts_toList]
  cases value with
  | none => rfl
  | some value =>
    cases value with
    | string s => rfl
    | array parts => exact congrArg Option.toList (kept_lost _)
    | object fields => exact congrArg Option.toList (kept_lost _)
    | _ => rfl

theorem instructionMessage_system (object : Fields) : (instructionMessage object).filterMap systemText =
      ((object.get "instructions").bind Value.asStr).toList := by
  unfold instructionMessage
  cases (object.get "instructions").bind Value.asStr <;> rfl

end

/-! ## Anthropic -/

def blockText : ContentBlock → String
  | .text s _ => s
  | _ => ""

def systemInstruction : AnthropicContent → Instruction
  | .text s => ⟨s, true⟩
  | .blocks blocks => ⟨"".intercalate (blocks.map blockText), true⟩

def messageInstruction (m : AnthropicMessage) : Option Instruction :=
  if m.role = "system" then
    match m.content with
    | .text s => some ⟨s, true⟩
    | .blocks [block] => some ⟨blockText block, true⟩
    | .blocks blocks => lost ("".intercalate (blocks.map blockText))
  else none

def anthropicInstructions (request : AnthropicMessageRequest) : List Instruction :=
  (request.system.map systemInstruction).toList ++ request.messages.filterMap messageInstruction

theorem intercalate_empty_cons (s : String) (texts : List String) :
    "".intercalate (s :: texts) = s ++ "".intercalate texts := by
  cases texts with
  | nil => simp
  | cons s' texts => rw [String.intercalate_cons_cons, String.append_empty]

theorem anthropicSystemText_ok {content : AnthropicContent} {s : String} (h : anthropicSystemText content = .ok s) :
    s = (systemInstruction content).text := by
  cases content with
  | text t =>
    cases h
    rfl
  | blocks blocks =>
    have hfold : ∀ {blocks : List ContentBlock} {acc s : String},
        blocks.foldlM (fun text block =>
          match block with
          | .text part cacheControl => do
            validateCacheControl cacheControl
            return text ++ part
          | _ => throw (anthropicInvalid "system content must contain only text")) acc = .ok s →
          s = acc ++ "".intercalate (blocks.map blockText) := by
      intro blocks
      induction blocks with
      | nil =>
        intro acc s h
        cases h
        simp
      | cons block blocks ih =>
        intro acc s h
        rw [List.foldlM_cons] at h
        obtain ⟨acc', hacc, h⟩ := ok_bind h
        cases block with
        | text part cacheControl =>
          obtain ⟨_, -, hacc⟩ := ok_bind hacc
          cases hacc
          rw [ih h, List.map_cons, intercalate_empty_cons, String.append_assoc]
          rfl
        | _ => cases hacc
    exact (hfold h).trans (String.empty_append)

section
variable {X : Crates} {vision : Option VisionPolicy} {images images' : ImageBudget}

theorem anthropicBlocks_system {blocks : List ContentBlock} : ∀ {s s' : Blocks},
    blocks.foldlM (anthropicBlock X "system" vision) s = .ok s' →
      s' = { s with content := s.content ++ blocks.map fun b => .text (blockText b) } := by
  induction blocks with
  | nil =>
    intro s s' h
    cases h
    simp
  | cons block blocks ih =>
    intro s s' h
    rw [List.foldlM_cons] at h
    obtain ⟨s1, h1, h2⟩ := ok_bind h
    have hblock := anthropicBlock_ok h1
    cases block with
    | text part cacheControl =>
      rw [ih h2, hblock]
      simp [blockText]
    | _ => exact absurd hblock.1 (by decide)

theorem anthropicBlocks_results {role : String} {blocks : List ContentBlock} : ∀ {s s' : Blocks},
    blocks.foldlM (anthropicBlock X role vision) s = .ok s' →
      s.results.filterMap systemText = [] → s'.results.filterMap systemText = [] := by
  induction blocks with
  | nil =>
    intro s s' h hs
    cases h
    exact hs
  | cons block blocks ih =>
    intro s s' h hs
    rw [List.foldlM_cons] at h
    obtain ⟨s1, h1, h2⟩ := ok_bind h
    refine ih h2 ?_
    have hblock := anthropicBlock_ok h1
    cases block with
    | text part cacheControl => rw [hblock]; exact hs
    | toolUse id name input cacheControl => rw [hblock.2.2]; exact hs
    | toolResult id content isError cacheControl =>
      obtain ⟨-, -, c, i, rfl⟩ := hblock
      rw [List.filterMap_append, hs]
      rfl
    | image source =>
      obtain ⟨-, p, i, rfl⟩ := hblock
      exact hs
    | thinking thinking signature cacheControl => rw [hblock.2]; exact hs

theorem anthropicRole_system {role : String} {r : Role} (h : anthropicRole role = some r) :
    r = .system ↔ role = "system" := by
  unfold anthropicRole at h
  split at h <;> cases h <;> simp

theorem anthropicMessage_system {m : AnthropicMessage} {pending pending' : List String}
    {output : List ChatMessage} (h : anthropicMessage X vision m pending images = .ok (output, pending', images')) :
    output.filterMap systemText = (kept (messageInstruction m)).toList := by
  unfold anthropicMessage at h
  obtain ⟨role, hrole, h⟩ := okOr_bind h
  have hsystem := anthropicRole_system hrole
  by_cases hr : m.role = "system"
  · obtain rfl := hsystem.mpr hr
    cases hc : m.content with
    | text s =>
      rw [hc] at h
      cases h
      simp [messageInstruction, hr, hc, systemText, kept, Option.filter]
    | blocks blocks =>
      rw [hc] at h
      obtain ⟨s, hs, h⟩ := ok_bind h
      cases h
      rw [hr] at hs
      rw [anthropicBlocks_system hs]
      match blocks with
      | [] => simp [messageInstruction, hr, hc, Blocks.messages, lost, kept]
      | [b] =>
        simp [messageInstruction, hr, hc, Blocks.messages, Content.ofParts, systemText, kept, Option.filter]
      | b :: b' :: blocks =>
        simp [messageInstruction, hr, hc, Blocks.messages, Content.ofParts, systemText, kept_lost]
  · have hne : role ≠ .system := fun e => hr (hsystem.mp e)
    have hnone : messageInstruction m = none := if_neg hr
    rw [hnone]
    have hhead : ∀ {m : ChatMessage}, m.role = role → m.systemText = none :=
      fun e => systemText_of_role (by rw [e]; exact hne)
    cases hc : m.content with
    | text s =>
      rw [hc] at h
      cases h
      rw [List.filterMap_cons_none (hhead rfl)]
      rfl
    | blocks blocks =>
      rw [hc] at h
      obtain ⟨s, hs, h⟩ := ok_bind h
      cases h
      unfold Blocks.messages
      rw [List.filterMap_append, anthropicBlocks_results hs rfl]
      split
      · rfl
      · rw [List.filterMap_cons_none (hhead rfl)]
        rfl

theorem anthropicLoop_system {messages : List AnthropicMessage} : ∀ {pending : List String}
    {images : ImageBudget} {output : List ChatMessage}, anthropicLoop X vision messages pending images = .ok output →
      output.filterMap systemText = keptTexts (messages.filterMap messageInstruction) := by
  induction messages with
  | nil =>
    intro pending images output h
    unfold anthropicLoop at h
    split at h
    · cases h
      rfl
    · cases h
  | cons m messages ih =>
    intro pending images output h
    obtain ⟨⟨output1, pending1, images1⟩, h1, h⟩ := ok_bind h
    obtain ⟨output2, h2, h⟩ := ok_bind h
    cases h
    rw [List.filterMap_append, anthropicMessage_system h1, ih h2, filterMap_toList, keptTexts_append, keptTexts_toList]

theorem systemMessage_system {system : Option AnthropicContent} {messages : List ChatMessage}
    (h : systemMessage system = .ok messages) :
    messages.filterMap systemText = keptTexts (system.map systemInstruction).toList := by
  cases system with
  | none =>
    cases h
    rfl
  | some content =>
    obtain ⟨s, hs, h⟩ := ok_bind h
    cases h
    rw [anthropicSystemText_ok hs]
    cases content <;> rfl

end

/-! ## The rewritten request -/

section
variable {anthropicRequest : String → Option AnthropicMessageRequest} {X : Crates}
  {bytes servedModel : String} {profile : GatewayProfile} {r : GenerationRequest}

theorem rewriteResponses_instructions (h : rewriteResponsesRequestWithProfile X bytes servedModel profile = .ok r) :
    ∃ object messages, X.fromStr bytes = some (.object object) ∧
      r.body.get "messages" = some (.array (messages.map toValue)) ∧
      (Leads ((responseInstructions object).map (·.text)) messages ↔
        ∀ i ∈ responseInstructions object, i.whole = true) := by
  obtain ⟨object, messages, hobject, hmessages, hbody⟩ := rewriteResponses_ok h
  refine ⟨object, _, hobject, hbody, leads_iff ?_⟩
  rw [List.filterMap_append, instructionMessage_system, responseMessages_system hmessages,
    ← fieldInstruction_kept, ← keptTexts_append]
  rfl

theorem rewriteAnthropic_instructions
    (h : rewriteAnthropicRequestWithProfile anthropicRequest X bytes servedModel profile = .ok r) :
    ∃ request messages, anthropicRequest bytes = some request ∧
      r.body.get "messages" = some (.array (messages.map toValue)) ∧
      (Leads ((anthropicInstructions request).map (·.text)) messages ↔
        ∀ i ∈ anthropicInstructions request, i.whole = true) := by
  obtain ⟨request, system, messages, hrequest, hsystem, hmessages, hbody⟩ := rewriteAnthropic_ok h
  refine ⟨request, _, hrequest, hbody, leads_iff ?_⟩
  rw [List.filterMap_append, systemMessage_system hsystem, anthropicLoop_system hmessages, ← keptTexts_append]
  rfl

end

/-- The instructions of an accepted request lead its messages exactly when each of them came in a shape
that is kept: a text, or one part. -/
theorem instructions_lead_iff (anthropicRequest : String → Option AnthropicMessageRequest) (X : Crates)
    (bytes servedModel : String) (profile : GatewayProfile) :
    (∀ r, rewriteResponsesRequestWithProfile X bytes servedModel profile = .ok r →
      ∃ object messages, X.fromStr bytes = some (.object object) ∧
        r.body.get "messages" = some (.array (messages.map toValue)) ∧
        (Leads ((responseInstructions object).map (·.text)) messages ↔
          ∀ i ∈ responseInstructions object, i.whole = true)) ∧
    (∀ r, rewriteAnthropicRequestWithProfile anthropicRequest X bytes servedModel profile = .ok r →
      ∃ request messages, anthropicRequest bytes = some request ∧
        r.body.get "messages" = some (.array (messages.map toValue)) ∧
        (Leads ((anthropicInstructions request).map (·.text)) messages ↔
          ∀ i ∈ anthropicInstructions request, i.whole = true)) :=
  ⟨fun _ h => rewriteResponses_instructions h, fun _ h => rewriteAnthropic_instructions h⟩

/-! ## Requests with a developer or system message -/

def cratesOf (bytes : String) (request : Value) : Crates where
  fromStr t := if t = bytes then some request else none
  toText _ := "null"
  decode _ := none
  encode _ := ""
  dimensions _ _ := none
  sha256 _ := "e3b0c44298fc1c149afbf4c8996fb92427ae41e4649b934ca495991b7852b855"
  isWhitespace c := c.isWhitespace

theorem cratesOf_fromStr (bytes : String) (request : Value) : (cratesOf bytes request).fromStr bytes = some request :=
  if_pos rfl

theorem cratesOf_fromStr_of_ne {bytes t : String} (h : t ≠ bytes) (request : Value) :
    (cratesOf bytes request).fromStr t = none := if_neg h

def inputText (text : String) : Value := .object [("type", .string "input_text"), ("text", .string text)]

def messageItem (role : String) (content : Value) : Value :=
  .object [("type", .string "message"), ("role", .string role), ("content", content)]

def inputFields (items : List Value) : Fields := [("model", .string "m"), ("input", .array items)]

theorem inputFields_envelope {X : Crates} {bytes : String} {items : List Value}
    (hsize : bytes.utf8ByteSize ≤ maxCompletionBodyBytes) (hread : X.fromStr bytes = some (.object (inputFields items))) :
    ResponsesEnvelope X bytes (inputFields items) := by
  refine ⟨hsize, hread, ?_, ⟨_, rfl⟩, ⟨_, rfl⟩, ⟨_, rfl⟩⟩
  simp [inputFields, Fields.get, validateResponseOptions, refuse, Fields.keys, responseKeys, bind, Except.bind]

theorem inputFields_instructions (items : List Value) : instructionMessage (inputFields items) = [] := by
  simp [instructionMessage, inputFields, Fields.get]

def developerFields (content : Value) : Fields :=
  inputFields [messageItem "developer" content, messageItem "user" (.string "Hello")]

theorem responseInputItem_user (X : Crates) (vision : Option VisionPolicy) (text : String) :
    responseInputItem X (messageItem "user" (.string text)) vision {} =
      .ok ({ role := .user, content := .text text }, {}) := by
  simp [responseInputItem, responseMessage, messageItem, Value.field, Value.get, Fields.get, Value.asStr, okOr,
    responseRole, responseContent, bind, Except.bind, pure, Except.pure]

theorem developerFields_messages (X : Crates) {content : Value} {c : Content}
    (h : responseContent X content "developer" none {} = .ok (c, {})) :
    responseMessages X (Fields.get (developerFields content) "input") none =
      .ok [{ role := .system, content := c }, { role := .user, content := .text "Hello" }] := by
  have hcontent : (messageItem "developer" content).field "content" = content := by
    simp [messageItem, Value.field, Value.get, Fields.get]
  have hdeveloper : responseInputItem X (messageItem "developer" content) none {} =
      .ok ({ role := .system, content := c }, {}) := by
    have hmessage : responseMessage X (messageItem "developer" content) none {} =
        .ok ({ role := .system, content := c }, {}) := by
      unfold responseMessage
      rw [hcontent]
      simp [messageItem, Value.field, Value.get, Fields.get, Value.asStr, okOr, responseRole, h, bind, Except.bind,
        pure, Except.pure]
    have htype : ((messageItem "developer" content).field "type").asStr = some "message" := by
      simp [messageItem, Value.field, Value.get, Fields.get, Value.asStr]
    unfold responseInputItem
    rw [htype]
    exact hmessage
  simp [responseMessages, developerFields, inputFields, Fields.get, okOr, Value.asStr, Value.asArray, responseItems,
    hdeveloper, responseInputItem_user, appendResponse, bind, Except.bind, pure, Except.pure]

theorem developerFields_accepted {bytes : String} (hsize : bytes.utf8ByteSize ≤ maxCompletionBodyBytes)
    {content : Value} {c : Content}
    (h : responseContent (cratesOf bytes (.object (developerFields content))) content "developer" none {} =
      .ok (c, {})) :
    ∃ r, rewriteResponsesRequestWithProfile (cratesOf bytes (.object (developerFields content))) bytes "m" {} =
        .ok r ∧ r.body.get "messages" = some (.array ((mergeSystemMessages
          [{ role := .system, content := c }, { role := .user, content := .text "Hello" }]).map toValue)) := by
  obtain ⟨r, hr, hbody⟩ := @rewriteResponses_accepts _ bytes "m" {} _ _ (inputFields_envelope hsize (cratesOf_fromStr ..))
    (developerFields_messages _ h) (by simp)
  rw [inputFields_instructions] at hbody
  exact ⟨r, hr, hbody⟩

def twoPartContent : Value := .array [inputText "Be brief. ", inputText "Cite files."]

def twoPartBody : String :=
  "\x7b\"model\":\"m\",\"input\":[\x7b\"type\":\"message\",\"role\":\"developer\",\"content\":[" ++
    "\x7b\"type\":\"input_text\",\"text\":\"Be brief. \"\x7d," ++
    "\x7b\"type\":\"input_text\",\"text\":\"Cite files.\"\x7d]\x7d," ++
    "\x7b\"type\":\"message\",\"role\":\"user\",\"content\":\"Hello\"\x7d]\x7d"

/-- A developer message of two parts is accepted, and nothing of it reaches the engine. -/
theorem developer_parts_lost :
    responseInstructions (developerFields twoPartContent) = [⟨"Be brief. Cite files.", false⟩] ∧
      ∃ r messages, rewriteResponsesRequestWithProfile
          (cratesOf twoPartBody (.object (developerFields twoPartContent))) twoPartBody "m" {} = .ok r ∧
        messages = [({ role := .user, content := .text "Hello" } : ChatMessage)] ∧
        r.body.get "messages" = some (.array (messages.map toValue)) ∧
        ¬ Leads ["Be brief. Cite files."] messages := by
  have hinstructions : responseInstructions (developerFields twoPartContent) = [⟨"Be brief. Cite files.", false⟩] := by
    simp [responseInstructions, developerFields, inputFields, Fields.get, Value.asArray, itemInstruction, messageItem,
      Value.fieldIs, Value.field, Value.get, Value.asStr, contentInstruction, twoPartContent, partText, inputText,
      lost]
  have hcontent : ∀ X : Crates, responseContent X twoPartContent "developer" none {} =
      .ok (.parts [.text "Be brief. ", .text "Cite files."], {}) := by
    intro X
    simp [twoPartContent, responseContent, Value.asStr, Value.asArray, okOr, responseParts, responsePart, inputText,
      Value.field, Value.get, Fields.get, Content.ofParts, bind, Except.bind, pure, Except.pure]
  obtain ⟨r, hr, hbody⟩ := @developerFields_accepted twoPartBody (by decide +kernel) _ _ (hcontent _)
  refine ⟨hinstructions, r, _, hr, rfl, hbody, ?_⟩
  have hiff := @leads_iff [{ role := .system, content := .parts [.text "Be brief. ", .text "Cite files."] },
    { role := .user, content := .text "Hello" }] [⟨"Be brief. Cite files.", false⟩] rfl
  intro hleads
  exact absurd (hiff.mp hleads _ (List.mem_singleton_self _)) (by decide)

def briefBody : String :=
  "\x7b\"model\":\"m\",\"input\":[\x7b\"type\":\"message\",\"role\":\"developer\",\"content\":\"Be brief.\"\x7d," ++
    "\x7b\"type\":\"message\",\"role\":\"user\",\"content\":\"Hello\"\x7d]\x7d"

def briefRequest : AnthropicMessageRequest where
  model := "m"
  maxTokens := 16
  system := some (.text "Be brief.")
  messages := [⟨"system", .blocks [.text "Cite files." none]⟩, ⟨"user", .text "Hello"⟩]

def briefAnthropicBody : String :=
  "\x7b\"model\":\"m\",\"max_tokens\":16,\"system\":\"Be brief.\",\"messages\":[" ++
    "\x7b\"role\":\"system\",\"content\":[\x7b\"type\":\"text\",\"text\":\"Cite files.\"\x7d]\x7d," ++
    "\x7b\"role\":\"user\",\"content\":\"Hello\"\x7d]\x7d"

def readsOne (bytes : String) (request : AnthropicMessageRequest) (t : String) : Option AnthropicMessageRequest :=
  if t = bytes then some request else none

theorem readsOne_self (bytes : String) (request : AnthropicMessageRequest) :
    readsOne bytes request bytes = some request := if_pos rfl

theorem briefRequest_accepted {bytes : String} (hsize : bytes.utf8ByteSize ≤ maxCompletionBodyBytes) (X : Crates) :
    ∃ r, rewriteAnthropicRequestWithProfile (readsOne bytes briefRequest) X bytes "m" {} = .ok r := by
  refine ⟨?_, ?_⟩
  rotate_left
  · unfold rewriteAnthropicRequestWithProfile
    rw [decide_eq_false (Nat.not_lt.mpr hsize), readsOne_self]
    rfl

theorem instructions_lead_in_requests : (∃ r messages, rewriteResponsesRequestWithProfile
        (cratesOf briefBody (.object (developerFields (.string "Be brief.")))) briefBody "m" {} = .ok r ∧
      r.body.get "messages" = some (.array (messages.map toValue)) ∧ Leads ["Be brief."] messages) ∧
    (∃ r messages, rewriteAnthropicRequestWithProfile (readsOne briefAnthropicBody briefRequest)
        (cratesOf briefAnthropicBody .null) briefAnthropicBody "m" {} = .ok r ∧
      r.body.get "messages" = some (.array (messages.map toValue)) ∧
      Leads ["Be brief.", "Cite files."] messages) := by
  constructor
  · obtain ⟨r, hr, -⟩ := @developerFields_accepted briefBody (by decide +kernel) (.string "Be brief.")
      (.text "Be brief.") rfl
    obtain ⟨object, messages, hread, hbody, hleads⟩ := (instructions_lead_iff (fun _ => none) _ _ _ _).1 r hr
    rw [cratesOf_fromStr] at hread
    cases hread
    have hinstructions : responseInstructions (developerFields (.string "Be brief.")) = [⟨"Be brief.", true⟩] := by
      simp [responseInstructions, developerFields, inputFields, Fields.get, Value.asArray, itemInstruction, messageItem,
        Value.fieldIs, Value.field, Value.get, Value.asStr, contentInstruction]
    rw [hinstructions] at hleads
    exact ⟨r, messages, hr, hbody, hleads.mpr (by simp)⟩
  · obtain ⟨r, hr⟩ := @briefRequest_accepted briefAnthropicBody (by decide +kernel) (cratesOf briefAnthropicBody .null)
    obtain ⟨request, messages, hread, hbody, hleads⟩ := (instructions_lead_iff _ _ _ _ _).2 r hr
    rw [readsOne_self] at hread
    cases hread
    exact ⟨r, messages, hr, hbody, hleads.mpr (by decide)⟩

end Sparkplane.Gateway
