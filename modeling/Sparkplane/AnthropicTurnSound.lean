import Sparkplane.ToolOrderSound
import Sparkplane.TurnSound

/-!
# An Anthropic turn comes back

The content of a reply, sent again as an assistant message, with a result for
each of its calls: the signature of the reasoning is the one the gateway made,
and every call finds its result.
-/

namespace Sparkplane.Gateway

open AnthropicEncoder hiding id

variable {s : Blocks}

def ReplyBlock.toContent : ReplyBlock → ContentBlock
  | .thinking t signature => .thinking t signature none
  | .text s => .text s none
  | .toolUse id name input => .toolUse id name input none

/-- `sha2` with `{:x}`. -/
def Crates.RendersDigests (X : Crates) : Prop :=
  ∀ s, (X.sha256 s).utf8ByteSize = 64 ∧ (X.sha256 s).toList.all isAsciiHexdigit = true

section
variable {X : Crates} (hX : X.RendersDigests)
include hX

theorem validLocalReasoningSignature_self (reasoning : String) (omitted : Bool) :
    validLocalReasoningSignature X (if omitted then "" else reasoning) (localReasoningSignature X reasoning) = true := by
  unfold validLocalReasoningSignature localReasoningSignature
  by_cases h : (if omitted then "" else reasoning) = ""
  · rw [h, stripPre_append]
    simpa using hX reasoning
  · have hkept : omitted = false := by
      cases omitted
      · rfl
      · simp at h
    rw [hkept] at h ⊢
    simp at h
    simp [h]

end

/-! ## The assistant message -/

section
variable {X : Crates} {vision : Option VisionPolicy}

theorem anthropicBlock_tools {tools : List ReplyBlock} {calls : List ChatToolCall}
    (htools : List.Forall₂ (fun b (c : ChatToolCall) => c.id ≠ "" ∧ c.name ≠ "" ∧
      ∃ v, b = .toolUse c.id c.name v ∧ c.arguments = X.toText v) tools calls)
    (hdistinct : (s.pending ++ calls.map (·.id)).Nodup) :
    (tools.map ReplyBlock.toContent).foldlM (anthropicBlock X "assistant" vision) s =
      .ok { s with pending := s.pending ++ calls.map (·.id), calls := s.calls ++ calls } := by
  induction htools generalizing s with
  | nil => simp [pure, Except.pure]
  | @cons b c tools calls hb _ ih =>
    obtain ⟨hid, hname, v, rfl, hv⟩ := hb
    have hfresh : c.id ∉ s.pending := by
      intro hmem
      exact (List.nodup_append.mp hdistinct).2.2 _ hmem _ (by simp) rfl
    have hstep : anthropicBlock X "assistant" vision s (ReplyBlock.toContent (.toolUse c.id c.name v)) =
        .ok { s with pending := s.pending ++ [c.id], calls := s.calls ++ [c] } := by
      have hc : c = ⟨c.id, c.name, X.toText v⟩ := by rw [← hv]
      rw [hc]
      simp [ReplyBlock.toContent, anthropicBlock, validateCacheControl, refuse, hid, hname, hfresh, bind, Except.bind,
        pure, Except.pure]
    rw [List.map_cons, List.foldlM_cons, hstep]
    have hrest := ih (s := { s with pending := s.pending ++ [c.id], calls := s.calls ++ [c] })
      (by simpa using hdistinct)
    simpa [bind, Except.bind] using hrest

def AnthropicEncoder.returned (X : Crates) (e : AnthropicEncoder) : List ChatToolCall :=
  (toolValues e.tools).map fun tool =>
    ⟨tool.callId, tool.name, X.toText ((X.fromStr tool.arguments).getD (.object []))⟩

def AnthropicEncoder.visible (e : AnthropicEncoder) : String :=
  if e.reasoningIndex.isSome then (if e.omitReasoning then "" else e.reasoning) else ""

structure AnthropicEncoder.Returns (X : Crates) (e : AnthropicEncoder) : Prop where
  digests : X.RendersDigests
  named : ∀ tool ∈ toolValues e.tools, tool.callId ≠ "" ∧ tool.name ≠ ""
  distinct : ((toolValues e.tools).map (·.callId)).Nodup

variable {e : AnthropicEncoder}

theorem anthropicBlocks_content (h : e.Returns X) (images : ImageBudget) :
    ((e.finalContent X).map ReplyBlock.toContent).foldlM (anthropicBlock X "assistant" vision)
        { pending := [], images := images } =
      .ok {
        content := if e.textIndex.isSome then [.text e.text] else []
        reasoning := e.visible
        calls := e.returned X
        pending := (e.returned X).map (·.id)
        images := images } := by
  have hthinking : ∀ s : Blocks, anthropicBlock X "assistant" vision s
      (.thinking (if e.omitReasoning then "" else e.reasoning) (localReasoningSignature X e.reasoning) none) =
      .ok { s with reasoning := s.reasoning ++ if e.omitReasoning then "" else e.reasoning } := by
    intro s
    have hvalid := validLocalReasoningSignature_self h.digests e.reasoning e.omitReasoning
    simp [anthropicBlock, validateCacheControl, refuse, hvalid, bind, Except.bind, pure, Except.pure]
  have hcalls : List.Forall₂ (fun b (c : ChatToolCall) => c.id ≠ "" ∧ c.name ≠ "" ∧
      ∃ v, b = .toolUse c.id c.name v ∧ c.arguments = X.toText v)
      ((toolValues e.tools).map (finalTool X)) (e.returned X) := by
    unfold returned
    rw [List.forall₂_map_left_iff, List.forall₂_map_right_iff, List.forall₂_same]
    intro tool ht
    exact ⟨(h.named tool ht).1, (h.named tool ht).2, _, rfl, rfl⟩
  have hids : (e.returned X).map (·.id) = (toolValues e.tools).map (·.callId) := by
    unfold returned
    rw [List.map_map]
    rfl
  have htools : ∀ s : Blocks, s.pending = [] → s.calls = [] →
      (((toolValues e.tools).map (finalTool X)).map ReplyBlock.toContent).foldlM
        (anthropicBlock X "assistant" vision) s =
      .ok { s with pending := (e.returned X).map (·.id), calls := e.returned X } := by
    intro s hp hc
    rw [anthropicBlock_tools hcalls (by rw [hp, hids]; exact h.distinct), hp, hc]
    rfl
  have hreasoned : ∀ s : Blocks, ((if e.reasoningIndex.isSome then
      [ReplyBlock.thinking (if e.omitReasoning then "" else e.reasoning) (localReasoningSignature X e.reasoning)]
      else []).map ReplyBlock.toContent).foldlM (anthropicBlock X "assistant" vision) s =
      .ok { s with reasoning := s.reasoning ++ e.visible } := by
    intro s
    unfold visible
    cases e.reasoningIndex with
    | none => simp [pure, Except.pure]
    | some i => simp [ReplyBlock.toContent, hthinking, bind, Except.bind, pure, Except.pure]
  have htext : ∀ s : Blocks, ((if e.textIndex.isSome then [ReplyBlock.text e.text] else []).map
      ReplyBlock.toContent).foldlM (anthropicBlock X "assistant" vision) s =
      .ok { s with content := s.content ++ if e.textIndex.isSome then [.text e.text] else [] } := by
    intro s
    cases e.textIndex with
    | none => simp [pure, Except.pure]
    | some i => rfl
  unfold finalContent
  rw [List.map_append, List.foldlM_append, List.map_append, List.foldlM_append, hreasoned]
  show (_ >>= fun s => _) = _
  rw [ok_bind_eq, htext, ok_bind_eq, htools _ rfl rfl]
  simp

/-! ## Its results -/

structure ToolResult where
  id : String
  content : ToolResultContent
  isError : Bool
  cacheControl : Option CacheControl

def ToolResult.toContent (r : ToolResult) : ContentBlock := .toolResult r.id r.content r.isError r.cacheControl

def ToolResultBlock.Plain : ToolResultBlock → Prop
  | .text _ cacheControl => validateCacheControl cacheControl = .ok ()
  | .image _ => False

/-- A result of texts; an image is subject to the vision policy and the images so far. -/
def ToolResult.Plain (r : ToolResult) : Prop :=
  validateCacheControl r.cacheControl = .ok () ∧
    match r.content with
    | .text _ => True
    | .blocks blocks => ∀ b ∈ blocks, b.Plain

theorem resultBlocks_plain {blocks : List ToolResultBlock} (h : ∀ b ∈ blocks, b.Plain) : ∀ s : ResultParts,
    ∃ s' : ResultParts, blocks.foldlM (resultBlock X vision) s = .ok s' ∧ s'.images = s.images := by
  induction blocks with
  | nil =>
    intro s
    exact ⟨s, rfl, rfl⟩
  | cons b blocks ih =>
    intro s
    rw [List.forall_mem_cons] at h
    cases b with
    | text part cacheControl =>
      have hvalid : validateCacheControl cacheControl = .ok () := h.1
      obtain ⟨s', hs', himages⟩ := ih h.2 { s with text := s.text ++ part, content := s.content ++ [.text part] }
      refine ⟨s', ?_, himages⟩
      rw [List.foldlM_cons, resultBlock, hvalid]
      exact hs'
    | image source => exact h.1.elim

theorem ToolResult.Plain.content {r : ToolResult} (h : r.Plain) (images : ImageBudget) :
    ∃ c, anthropicToolResultContent X r.content vision images = .ok (c, images) := by
  obtain ⟨id, content, isError, cacheControl⟩ := r
  cases content with
  | text text => exact ⟨_, rfl⟩
  | blocks blocks =>
    obtain ⟨s, hs, himages⟩ := resultBlocks_plain (X := X) h.2 { images := images }
    refine ⟨if s.multimodal then .parts s.content else .text s.text, ?_⟩
    rw [anthropicToolResultContent, hs, ok_bind_eq, himages]
    rfl

theorem anthropicBlock_results {results : List ToolResult} (hplain : ∀ r ∈ results, r.Plain) : ∀ {s : Blocks},
    (results.map (·.id)).Perm s.pending →
      ∃ tools : List ChatMessage, List.Forall₂ (fun (r : ToolResult) (m : ChatMessage) => m.role = .tool ∧
          m.toolCallId = some r.id) results tools ∧
        (results.map ToolResult.toContent).foldlM (anthropicBlock X "user" vision) s =
          .ok { s with pending := [], results := s.results ++ tools } := by
  induction results with
  | nil =>
    intro s hp
    have hnil : s.pending = [] := List.nil_perm.mp hp
    exact ⟨[], .nil, by rw [← hnil, List.append_nil]; rfl⟩
  | cons r results ih =>
    intro s hp
    rw [List.forall_mem_cons] at hplain
    rw [List.map_cons] at hp
    have hmem : r.id ∈ s.pending := hp.mem_iff.mp List.mem_cons_self
    have hrest : (results.map (·.id)).Perm (s.pending.erase r.id) :=
      (List.perm_cons_erase hmem).symm.trans hp.symm |>.symm.cons_inv
    have hstep : ∃ m : ChatMessage, (m.role = .tool ∧ m.toolCallId = some r.id) ∧
        anthropicBlock X "user" vision s r.toContent =
          .ok { s with pending := s.pending.erase r.id, results := s.results ++ [m] } := by
      obtain ⟨c, hc⟩ := hplain.1.content (X := X) s.images
      refine ⟨{ role := .tool, toolCallId := some r.id, content := if r.isError then c.markError else c },
        ⟨rfl, rfl⟩, ?_⟩
      rw [ToolResult.toContent, anthropicBlock, hplain.1.1, ok_bind_eq, hc]
      simp [refuse, hmem, bind, Except.bind, pure, Except.pure]
    obtain ⟨m, hm, hstep⟩ := hstep
    obtain ⟨tools, htools, hfold⟩ :=
      ih hplain.2 (s := { s with pending := s.pending.erase r.id, results := s.results ++ [m] }) hrest
    refine ⟨m :: tools, .cons hm htools, ?_⟩
    rw [List.map_cons, List.foldlM_cons, hstep, ok_bind_eq, hfold]
    simp

/-! ## The conversation -/

theorem anthropicLoop_append {before : List AnthropicMessage} : ∀ {pending : List String} {images : ImageBudget}
    {out : List ChatMessage}, anthropicLoop X vision before pending images = .ok out →
      ∃ images', ∀ {after : List AnthropicMessage} {out' : List ChatMessage},
        anthropicLoop X vision after [] images' = .ok out' →
          anthropicLoop X vision (before ++ after) pending images = .ok (out ++ out') := by
  induction before with
  | nil =>
    intro pending images out h
    unfold anthropicLoop at h
    split at h
    next hp =>
      cases h
      rw [List.isEmpty_iff.mp hp]
      exact ⟨images, fun h => h⟩
    next => cases h
  | cons m before ih =>
    intro pending images out h
    obtain ⟨⟨out1, pending1, images1⟩, h1, h⟩ := ok_bind h
    obtain ⟨out2, h2, h⟩ := ok_bind h
    cases h
    obtain ⟨images', hrest⟩ := ih h2
    refine ⟨images', fun {after out'} hafter => ?_⟩
    rw [List.cons_append, anthropicLoop, h1, ok_bind_eq]
    show (anthropicLoop X vision (before ++ after) pending1 images1 >>= _) = _
    rw [hrest hafter, ok_bind_eq, List.append_assoc]
    rfl

/-- What a turn is when it is sent again and says something. -/
structure HoldsReply (X : Crates) (e : AnthropicEncoder) (a : ChatMessage) : Prop where
  role : a.role = .assistant
  text : a.content.assistantText = some e.text
  reasoning : a.reasoningContent.getD "" = if e.omitReasoning then "" else e.reasoning
  calls : List.Forall₂ (fun (tool : AnthropicToolCall) (c : ChatToolCall) => c.id = tool.callId ∧ c.name = tool.name ∧
    ∃ v, X.fromStr tool.arguments = some v ∧ c.arguments = X.toText v) (toolValues e.tools) (a.toolCalls.getD [])

theorem anthropicMessage_blocks {role : String} {r : Role} {blocks : List ContentBlock} {pending : List String}
    {images : ImageBudget} (hr : anthropicRole role = some r)
    (h : blocks.foldlM (anthropicBlock X role vision) { pending := pending, images := images } = .ok s) :
    anthropicMessage X vision ⟨role, .blocks blocks⟩ pending images = .ok (s.messages r, s.pending, s.images) := by
  rw [anthropicMessage, hr, okOr, ok_bind_eq]
  show (List.foldlM (anthropicBlock X role vision) _ blocks >>= _) = _
  rw [h]
  rfl

theorem Blocks.messages_said (role : Role) (s : Blocks) : s.messages role = (if s.said then [{
      role := role
      content := if s.content.isEmpty then .null else .ofParts s.content
      toolCalls := if s.calls.isEmpty then none else some s.calls
      reasoningContent := if s.reasoning.isEmpty then none else some s.reasoning }] else []) ++ s.results := by
  unfold Blocks.messages Blocks.said
  cases s.content.isEmpty && s.calls.isEmpty && s.reasoning.isEmpty <;> rfl

theorem AnthropicEncoder.Of.silent {t : Turn} (h : e.Of t) :
    (e.textIndex = none → e.text = "") ∧ (e.reasoningIndex = none → e.reasoning = "") := by
  have hbody : ∀ {s : Source}, (t.get? s).map (·.index) = none → t.body s = "" := by
    intro s hs
    rw [Turn.body, Option.map_eq_none_iff.mp hs]
    rfl
  exact ⟨fun hi => h.kept.text.trans (hbody (h.kept.textIndex ▸ hi)),
    fun hi => h.kept.reasoning.trans (hbody (h.kept.reasoningIndex ▸ hi))⟩

theorem anthropicMessage_content {t : Turn} (hof : e.Of t) (h : e.Returns X)
    (hparsed : ∀ tool ∈ toolValues e.tools, (X.fromStr tool.arguments).isSome) (images : ImageBudget) :
    ∃ assistants, anthropicMessage X vision ⟨"assistant", .blocks ((e.finalContent X).map ReplyBlock.toContent)⟩ []
        images = .ok (assistants, (e.returned X).map (·.id), images) ∧
      if ((e.finalContent X).map ReplyBlock.toContent).any ContentBlock.speaks then
        ∃ a, assistants = [a] ∧ HoldsReply X e a
      else assistants = [] := by
  have hblocks := @anthropicBlocks_content X vision e h images
  have hstart : Regrouped "assistant" [] { pending := [], images := images } :=
    ⟨by simp, by simp, by simp, .nil _, by simp⟩
  have hsaid := (anthropicBlocks_run hblocks hstart).2.2
  refine ⟨_, anthropicMessage_blocks rfl hblocks, ?_⟩
  rw [Blocks.messages_said, hsaid]
  split
  next hspeaks =>
    rw [hspeaks]
    refine ⟨_, rfl, rfl, ?_, ?_, ?_⟩
    · cases hi : e.textIndex with
      | none => simp [Content.assistantText, hof.silent.1 hi]
      | some i => simp [Content.ofParts, Content.assistantText]
    · have hvisible : e.visible = if e.omitReasoning then "" else e.reasoning := by
        unfold visible
        cases hi : e.reasoningIndex with
        | none => simp [hof.silent.2 hi]
        | some i => rfl
      rw [← hvisible]
      by_cases hv : e.visible = "" <;> simp [hv]
    · have hcalls : (if (e.returned X).isEmpty then none else some (e.returned X)).getD [] = e.returned X := by
        cases e.returned X <;> rfl
      rw [hcalls, returned, List.forall₂_map_right_iff, List.forall₂_same]
      intro tool ht
      obtain ⟨v, hv⟩ := Option.isSome_iff_exists.mp (hparsed tool ht)
      exact ⟨rfl, rfl, v, hv, by rw [hv]; rfl⟩
  next hsilent =>
    rw [Bool.not_eq_true] at hsilent
    rw [hsilent]
    rfl

/-- The content of a reply and the results of its calls are accepted after any accepted conversation. What
comes back is one message that holds the turn, unless the content is at most reasoning without text. -/
theorem anthropic_turn_returns (hX : X.RendersDigests) {id model : String} {omitReasoning : Bool}
    {events : List GenerationEvent} {e : AnthropicEncoder}
    (hrun : (create id model omitReasoning).run X (events ++ [.done]) = .ok e)
    (hdistinct : ((toolValues e.tools).map (·.callId)).Nodup) {before : List AnthropicMessage}
    {out : List ChatMessage} (hbefore : anthropicMessages X before vision = .ok out) {results : List ToolResult}
    (hplain : ∀ r ∈ results, r.Plain)
    (hresults : (results.map (·.id)).Perm ((toolValues e.tools).map (·.callId))) :
    e.Of (Turn.of (events ++ [.done])) ∧ e.omitReasoning = omitReasoning ∧
    ∃ assistants tools : List ChatMessage,
      anthropicMessages X (before ++ [⟨"assistant", .blocks ((e.finalContent X).map ReplyBlock.toContent)⟩,
        ⟨"user", .blocks (results.map ToolResult.toContent)⟩]) vision = .ok (out ++ (assistants ++ tools)) ∧
      List.Forall₂ (fun (r : ToolResult) (m : ChatMessage) => m.role = .tool ∧ m.toolCallId = some r.id) results tools ∧
      if ((e.finalContent X).map ReplyBlock.toContent).any ContentBlock.speaks then
        ∃ a, assistants = [a] ∧ HoldsReply X e a
      else assistants = [] := by
  have hof := (of_create id model omitReasoning).run hrun
  refine ⟨hof, run_omit hrun, ?_⟩
  obtain ⟨e₁, -, hdone⟩ := run_done hrun
  obtain ⟨hgood, he⟩ := done_ok hdone
  have hgood : ∀ tool ∈ toolValues e.tools, tool.callId ≠ "" ∧ tool.name ≠ "" ∧ (X.fromStr tool.arguments).isSome := by
    rw [he]
    exact hgood
  have hreturns : e.Returns X := ⟨hX, fun tool ht => ⟨(hgood tool ht).1, (hgood tool ht).2.1⟩, hdistinct⟩
  obtain ⟨images, happend⟩ := anthropicLoop_append hbefore
  obtain ⟨assistants, hassistant, hheld⟩ :=
    @anthropicMessage_content X vision e _ hof hreturns (fun tool ht => (hgood tool ht).2.2) images
  have hpending : (results.map (·.id)).Perm ((e.returned X).map (·.id)) := by
    rw [returned, List.map_map]
    exact hresults
  obtain ⟨tools, htools, hfold⟩ := anthropicBlock_results hplain
    (s := { pending := (e.returned X).map (·.id), images := images }) hpending
  refine ⟨assistants, tools, ?_, htools, hheld⟩
  apply happend
  rw [anthropicLoop, hassistant, ok_bind_eq]
  show (anthropicLoop X vision _ _ _ >>= _) = _
  have huser : anthropicMessage X vision ⟨"user", .blocks (results.map ToolResult.toContent)⟩
      ((e.returned X).map (·.id)) images = .ok (tools, [], images) := anthropicMessage_blocks rfl hfold
  have hlast : anthropicLoop X vision [⟨"user", .blocks (results.map ToolResult.toContent)⟩]
      ((e.returned X).map (·.id)) images = .ok tools := by
    rw [anthropicLoop, huser, ok_bind_eq]
    show Except.ok (tools ++ []) = _
    rw [List.append_nil]
  rw [hlast]
  rfl

end

/-! ## A turn of omitted reasoning and a turn with a call -/

def hmCrates : Crates :=
  { cratesOf "\x7b\x7d" (.object []) with
    toText := fun _ => "\x7b\x7d"
    sha256 := fun _ => "db11db1e5c34b2293bf231f83b206b4b3d4fad6b063c63d8ce8a1e8913067d24" }

theorem hmCrates_digests : hmCrates.RendersDigests := by
  have hdigest : (hmCrates.sha256 "").utf8ByteSize = 64 ∧ (hmCrates.sha256 "").toList.all isAsciiHexdigit = true := by
    decide +kernel
  exact fun _ => hdigest

/-- Reasoning that is omitted is done, its block is accepted, and no assistant message comes back. -/
theorem omitted_turn_lost : ∃ e, (create "u" "m" true).run hmCrates ([.reasoningDelta "Hm"] ++ [.done]) = .ok e ∧
      e.finalContent hmCrates = [.thinking "" (localReasoningSignature hmCrates "Hm")] ∧
      anthropicMessages hmCrates ([⟨"user", .text "Add"⟩] ++
        [⟨"assistant", .blocks ((e.finalContent hmCrates).map ReplyBlock.toContent)⟩, ⟨"user", .blocks []⟩]) none =
          .ok [{ role := .user, content := .text "Add" }] := by
  have hrun : ∃ e, (create "u" "m" true).run hmCrates ([.reasoningDelta "Hm"] ++ [.done]) = .ok e ∧
      e.finalContent hmCrates = [.thinking "" (localReasoningSignature hmCrates "Hm")] := ⟨_, rfl, rfl⟩
  obtain ⟨e, he, hcontent⟩ := hrun
  refine ⟨e, he, hcontent, ?_⟩
  have hvalid := validLocalReasoningSignature_self hmCrates_digests "Hm" true
  have hblock : anthropicMessage hmCrates none ⟨"assistant", .blocks ((e.finalContent hmCrates).map ReplyBlock.toContent)⟩
      [] {} = .ok ([], [], {}) := by
    rw [hcontent]
    refine anthropicMessage_blocks rfl (s := { pending := [], images := {} }) ?_
    simp at hvalid
    simp [ReplyBlock.toContent, anthropicBlock, validateCacheControl, refuse, hvalid, bind, Except.bind, pure,
      Except.pure]
  have hlast : anthropicLoop hmCrates none [⟨"assistant", .blocks ((e.finalContent hmCrates).map ReplyBlock.toContent)⟩,
      ⟨"user", .blocks []⟩] [] {} = .ok [] := by
    rw [anthropicLoop, hblock]
    rfl
  rw [List.singleton_append, anthropicMessages, anthropicLoop]
  show (anthropicLoop hmCrates none _ [] {} >>= _) = _
  rw [hlast]
  rfl

theorem call_turn_returns : ∃ e assistants tools,
    (create "u" "m" false).run hmCrates ([.reasoningDelta "Hm", .textDelta "Adding",
        .toolCallDelta 0 (some "t1") (some "add") "\x7b\x7d"] ++ [.done]) = .ok e ∧
      anthropicMessages hmCrates ([⟨"user", .text "Add"⟩] ++
        [⟨"assistant", .blocks ((e.finalContent hmCrates).map ReplyBlock.toContent)⟩,
          ⟨"user", .blocks [.toolResult "t1" (.text "4") false none]⟩]) none =
          .ok ([{ role := .user, content := .text "Add" }] ++ (assistants ++ tools)) ∧
      ∃ a, assistants = [a] ∧ HoldsReply hmCrates e a := by
  have hrun : ∃ e, (create "u" "m" false).run hmCrates ([.reasoningDelta "Hm", .textDelta "Adding",
        .toolCallDelta 0 (some "t1") (some "add") "\x7b\x7d"] ++ [.done]) = .ok e ∧
      (toolValues e.tools).map (·.callId) = ["t1"] ∧
      ((e.finalContent hmCrates).map ReplyBlock.toContent).any ContentBlock.speaks = true := ⟨_, rfl, rfl, rfl⟩
  obtain ⟨e, he, hcalls, hspeaks⟩ := hrun
  obtain ⟨-, -, assistants, tools, hmessages, -, hheld⟩ := @anthropic_turn_returns hmCrates none hmCrates_digests _ _ _ _
    e he (by rw [hcalls]; decide) [⟨"user", .text "Add"⟩] _ rfl [⟨"t1", .text "4", false, none⟩]
    (by simp [ToolResult.Plain, validateCacheControl, refuse]) (by rw [hcalls]; exact .refl _)
  rw [if_pos hspeaks] at hheld
  exact ⟨e, assistants, tools, he, hmessages, hheld⟩

end Sparkplane.Gateway
