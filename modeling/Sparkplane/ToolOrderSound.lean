import Sparkplane.Exchange
import Sparkplane.InstructionSound

/-!
# Tool calls and their results

An Anthropic message of blocks is written out as its content and then its
results. So results stay next to their calls exactly when nothing that is said
comes between: neither in the message of the results nor in one before it.
-/

namespace Sparkplane.Gateway

open ChatMessage

variable {s s' : Blocks} {b : ContentBlock} {bytes : String}

def ChatMessage.callIds (m : ChatMessage) : List String := (m.toolCalls.getD []).map (·.id)

def toolExchange : Exchange ChatMessage String := ⟨callIds, toolCallId⟩

theorem toolExchange_calls {m : ChatMessage} {calls : List ChatToolCall}
    (h : m.toolCalls = if calls.isEmpty then none else some calls) :
    toolExchange.calls m = calls.map (·.id) := by
  show (m.toolCalls.getD []).map (·.id) = calls.map (·.id)
  rw [h]
  cases calls <;> rfl

/-! ## The request -/

def AnthropicMessage.blocks (m : AnthropicMessage) : List ContentBlock :=
  match m.content with
  | .text s => [.text s none]
  | .blocks blocks => blocks

def ContentBlock.waits (pending : List String) : ContentBlock → List String
  | .toolUse id _ _ _ => pending ++ [id]
  | .toolResult id _ _ _ => pending.erase id
  | _ => pending

def AnthropicMessage.waits (m : AnthropicMessage) (pending : List String) : List String :=
  m.blocks.foldl ContentBlock.waits pending

def ContentBlock.speaks : ContentBlock → Bool
  | .toolResult _ _ _ _ => false
  | .thinking t _ _ => !t.isEmpty
  | _ => true

def AnthropicMessage.speaks (m : AnthropicMessage) : Bool := m.role ≠ "system" && m.blocks.any ContentBlock.speaks

def AnswersFirst : List String → List AnthropicMessage → Prop
  | _, [] => True
  | pending, m :: messages => (m.speaks = true → pending = []) ∧ AnswersFirst (m.waits pending) messages

/-! ## One message -/

def Blocks.said (s : Blocks) : Bool := !(s.content.isEmpty && s.calls.isEmpty && s.reasoning.isEmpty)

structure Regrouped (role : String) (pending : List String) (s : Blocks) : Prop where
  calls : s.calls ≠ [] → role = "assistant"
  results : s.results ≠ [] → role = "user"
  nodup : (pending ++ s.calls.map (·.id)).Nodup
  tracks : toolExchange.Tracks (pending ++ s.calls.map (·.id)) s.results s.pending
  tools : ∀ m ∈ s.results, m.role = .tool ∧ m.toolCallId ≠ none ∧ m.callIds = []

section
variable {X : Crates} {vision : Option VisionPolicy} {role : String} {pending : List String}

theorem Regrouped.block (hs : Regrouped role pending s)
    (h : anthropicBlock X role vision s b = .ok s') : Regrouped role pending s' := by
  have hb := anthropicBlock_ok h
  cases b with
  | text part cacheControl =>
    subst hb
    exact ⟨hs.calls, hs.results, hs.nodup, hs.tracks, hs.tools⟩
  | toolUse id name input cacheControl =>
    obtain ⟨hrole, hid, rfl⟩ := hb
    -- an assistant message has no results, so all its calls wait
    have hresults : s.results = [] := by
      by_contra hne
      rw [hs.results hne] at hrole
      exact absurd hrole (by decide)
    have hpending : s.pending = pending ++ s.calls.map (·.id) := by
      have ht := hs.tracks
      rwa [hresults, Exchange.tracks_nil] at ht
    refine ⟨fun _ => hrole, hs.results, ?_, ?_, hs.tools⟩
    · rw [List.map_append, ← List.append_assoc, ← hpending]
      exact List.nodup_append_comm.mpr (List.nodup_cons.mpr ⟨hid, hpending ▸ hs.nodup⟩)
    · rw [List.map_append, ← List.append_assoc, ← hpending]
      simp only [hresults]
      exact .nil _
  | toolResult id content isError cacheControl =>
    obtain ⟨hrole, hid, c, images, rfl⟩ := hb
    refine ⟨hs.calls, fun _ => hrole, hs.nodup, hs.tracks.append (.answers rfl rfl hid (.nil _)), ?_⟩
    intro m hm
    rcases List.mem_append.mp hm with hm | hm
    · exact hs.tools m hm
    · rw [List.mem_singleton.mp hm]
      exact ⟨rfl, by simp, rfl⟩
  | image source =>
    obtain ⟨-, p, images, rfl⟩ := hb
    exact ⟨hs.calls, hs.results, hs.nodup, hs.tracks, hs.tools⟩
  | thinking thinking signature cacheControl =>
    obtain ⟨-, rfl⟩ := hb
    exact ⟨hs.calls, hs.results, hs.nodup, hs.tracks, hs.tools⟩

theorem anthropicBlock_pending (h : anthropicBlock X role vision s b = .ok s') : s'.pending = b.waits s.pending := by
  have hb := anthropicBlock_ok h
  cases b with
  | text part cacheControl => rw [hb]; rfl
  | toolUse id name input cacheControl => rw [hb.2.2]; rfl
  | toolResult id content isError cacheControl => obtain ⟨-, -, c, images, rfl⟩ := hb; rfl
  | image source => obtain ⟨-, p, images, rfl⟩ := hb; rfl
  | thinking thinking signature cacheControl => rw [hb.2]; rfl

theorem anthropicBlock_said (h : anthropicBlock X role vision s b = .ok s') : s'.said = (s.said || b.speaks) := by
  have hb := anthropicBlock_ok h
  cases b with
  | text part cacheControl => rw [hb]; simp [Blocks.said, ContentBlock.speaks]
  | toolUse id name input cacheControl => rw [hb.2.2]; simp [Blocks.said, ContentBlock.speaks]
  | toolResult id content isError cacheControl =>
    obtain ⟨-, -, c, images, rfl⟩ := hb
    simp [Blocks.said, ContentBlock.speaks]
  | image source =>
    obtain ⟨-, p, images, rfl⟩ := hb
    simp [Blocks.said, ContentBlock.speaks]
  | thinking thinking signature cacheControl =>
    rw [hb.2]
    have hreasoning : (s.reasoning ++ thinking).isEmpty = (s.reasoning.isEmpty && thinking.isEmpty) := by
      rw [Bool.eq_iff_iff]
      simp
    simp only [Blocks.said, ContentBlock.speaks, hreasoning, ← Bool.not_and, Bool.and_assoc]

theorem anthropicBlocks_run {blocks : List ContentBlock} : ∀ {s s' : Blocks},
    blocks.foldlM (anthropicBlock X role vision) s = .ok s' → Regrouped role pending s →
      Regrouped role pending s' ∧ s'.pending = blocks.foldl ContentBlock.waits s.pending ∧
        s'.said = (s.said || blocks.any ContentBlock.speaks) := by
  induction blocks with
  | nil =>
    intro s s' h hs
    cases h
    exact ⟨hs, rfl, by simp⟩
  | cons b blocks ih =>
    intro s s' h hs
    rw [List.foldlM_cons] at h
    obtain ⟨s1, h1, h2⟩ := ok_bind h
    obtain ⟨hs', hpending, hsaid⟩ := ih h2 (hs.block h1)
    refine ⟨hs', ?_, ?_⟩
    · rw [hpending, anthropicBlock_pending h1]
      rfl
    · rw [hsaid, anthropicBlock_said h1, List.any_cons, Bool.or_assoc]

variable {images images' : ImageBudget} {m : AnthropicMessage} {pending' : List String} {output : List ChatMessage}

structure Segment (m : AnthropicMessage) (pending pending' : List String) (head results : List ChatMessage) :
    Prop where
  tracks : toolExchange.Tracks pending (head ++ results) pending'
  one : head.length ≤ 1
  heads : ∀ c ∈ head, c.role ≠ .tool ∧ c.toolCallId = none ∧
    (c.callIds ≠ [] → c.role = .assistant ∧ m.role = "assistant") ∧ (c.role = .system ↔ m.role = "system")
  tools : ∀ c ∈ results, c.role = .tool ∧ c.toolCallId ≠ none ∧ c.callIds = []
  user : results ≠ [] → m.role = "user"
  speaks : head.isEmpty = !m.blocks.any ContentBlock.speaks
  waits : pending' = m.waits pending

theorem anthropicRole_tool {role : String} {r : Role} (h : anthropicRole role = some r) :
    r ≠ .tool ∧ (role = "assistant" → r = .assistant) := by
  unfold anthropicRole at h
  split at h <;> cases h <;> simp

theorem anthropicMessage_segment (h : anthropicMessage X vision m pending images = .ok (output, pending', images'))
    (hn : pending.Nodup) : ∃ head results, output = head ++ results ∧ Segment m pending pending' head results := by
  unfold anthropicMessage at h
  obtain ⟨role, hrole, h⟩ := okOr_bind h
  obtain ⟨htool, hassistant⟩ := anthropicRole_tool hrole
  have hsystem := anthropicRole_system hrole
  cases hc : m.content with
  | text s =>
    rw [hc] at h
    cases h
    refine ⟨[{ role := role, content := .text s }], [], rfl, ?_, by simp, ?_, by simp, by simp, ?_, ?_⟩
    · exact .calls rfl (by simpa [toolExchange, callIds] using hn) (by simpa [toolExchange, callIds] using .nil _)
    · simp [htool, hsystem, callIds]
    · simp [AnthropicMessage.blocks, hc, ContentBlock.speaks]
    · simp [AnthropicMessage.waits, AnthropicMessage.blocks, hc, ContentBlock.waits]
  | blocks blocks =>
    rw [hc] at h
    obtain ⟨s, hs, h⟩ := ok_bind h
    cases h
    have hblocks : m.blocks = blocks := by rw [AnthropicMessage.blocks, hc]
    have hstart : Regrouped m.role pending { pending := pending, images := images } :=
      ⟨by simp, by simp, by simpa using hn, by simpa using .nil _, by simp⟩
    obtain ⟨hr, hpending, hsaid⟩ := anthropicBlocks_run hs hstart
    have hwaits : s.pending = m.waits pending := by rw [AnthropicMessage.waits, hblocks, hpending]
    have hspeaks : s.said = m.blocks.any ContentBlock.speaks := by rw [hsaid, hblocks]; rfl
    have hempty : (s.content.isEmpty && s.calls.isEmpty && s.reasoning.isEmpty) =
        !m.blocks.any ContentBlock.speaks := by
      rw [← hspeaks, Blocks.said, Bool.not_not]
    unfold Blocks.messages
    split
    next hsilent =>
      have hcalls : s.calls = [] := by
        simp only [Bool.and_eq_true, List.isEmpty_iff] at hsilent
        exact hsilent.1.2
      refine ⟨[], s.results, rfl, ?_, by simp, by simp, hr.tools, hr.results, ?_, hwaits⟩
      · simpa [hcalls] using hr.tracks
      · rw [← hempty, hsilent]
        rfl
    next hloud =>
      refine ⟨[_], s.results, rfl, ?_, by simp, ?_, hr.tools, hr.results, ?_, hwaits⟩
      · refine .calls rfl ?_ ?_
        · rw [@toolExchange_calls _ s.calls rfl]
          exact hr.nodup
        · rw [@toolExchange_calls _ s.calls rfl]
          exact hr.tracks
      · intro c hc
        rw [List.mem_singleton.mp hc]
        refine ⟨htool, rfl, ?_, hsystem⟩
        intro hne
        have hrole := hr.calls fun hcalls => hne (by simp [callIds, hcalls])
        exact ⟨hassistant hrole, hrole⟩
      · rw [← hempty, Bool.eq_false_iff.mpr hloud]
        rfl

end

def ChatMessage.native (m : ChatMessage) : Bool := m.role ≠ .system

def ChatMessage.Proper (m : ChatMessage) : Prop :=
  (m.role = .tool ↔ m.toolCallId ≠ none) ∧ (m.callIds ≠ [] → m.role = .assistant)

namespace Segment
variable {m : AnthropicMessage} {pending pending' : List String} {head results : List ChatMessage}
  (h : Segment m pending pending' head results)
include h

theorem native_results : results.filter native = results := by
  rw [List.filter_eq_self]
  intro c hc
  simp [native, (h.tools c hc).1]

theorem answers : ∀ c ∈ results, toolExchange.answer c ≠ none := fun c hc => (h.tools c hc).2.1

theorem proper : ∀ c ∈ head ++ results, c.Proper := by
  intro c hc
  rcases List.mem_append.mp hc with hc | hc
  · obtain ⟨hrole, hid, hcalls, -⟩ := h.heads c hc
    exact ⟨by simp [hrole, hid], fun hne => (hcalls hne).1⟩
  · obtain ⟨hrole, hid, hcalls⟩ := h.tools c hc
    exact ⟨by simp [hrole, hid], fun hne => absurd hcalls hne⟩

theorem prompt_iff (rest : List ChatMessage) : toolExchange.Prompt pending ((head ++ results).filter native ++ rest) ↔
      (m.speaks = true → pending = []) ∧ toolExchange.Prompt pending' rest := by
  rw [List.filter_append, h.native_results]
  have hspeaks := h.speaks
  have htracks := h.tracks
  have hone := h.one
  match head with
  | [] =>
    have hsilent : m.speaks = false := by
      have hnone : m.blocks.any ContentBlock.speaks = false := by simpa using hspeaks
      rw [AnthropicMessage.speaks, hnone, Bool.and_false]
    rw [hsilent]
    simpa using Exchange.Tracks.prompt_append htracks h.answers
  | [c] =>
    have hany : m.blocks.any ContentBlock.speaks = true := by simpa using hspeaks
    obtain ⟨-, hid, hcalls, hsystem⟩ := h.heads c List.mem_cons_self
    have hafter : toolExchange.Tracks (pending ++ c.callIds) results pending' :=
      ((Exchange.tracks_cons hid).mp htracks).2
    by_cases hc : c.role = .system
    · -- a system message has no calls and no results
      have hm : m.role = "system" := hsystem.mp hc
      have hnocalls : c.callIds = [] := by
        by_contra hne
        rw [(hcalls hne).1] at hc
        cases hc
      have hnoresults : results = [] := by
        by_contra hne
        rw [h.user hne] at hm
        exact absurd hm (by decide)
      rw [hnocalls, hnoresults, List.append_nil, Exchange.tracks_nil] at hafter
      rw [List.filter_cons_of_neg (by simp [native, hc]), hnoresults, hafter]
      simp [AnthropicMessage.speaks, hm]
    · have hm : m.speaks = true := by
        have hne : m.role ≠ "system" := fun e => hc (hsystem.mpr e)
        simp [AnthropicMessage.speaks, hne, hany]
      rw [List.filter_cons_of_pos (by simp [native, hc]), List.filter_nil, List.singleton_append,
        List.cons_append, Exchange.prompt_cons hid, hm]
      constructor
      · rintro ⟨rfl, hp⟩
        exact ⟨fun _ => rfl, (Exchange.Tracks.prompt_append hafter h.answers).mp hp⟩
      · rintro ⟨he, hp⟩
        obtain rfl := he rfl
        exact ⟨rfl, (Exchange.Tracks.prompt_append hafter h.answers).mpr hp⟩
  | _ :: _ :: _ => simp at hone

theorem results_first (hfirst : m.speaks = true → pending = []) (hm : m.role = "user") :
    (head ++ results).Pairwise fun x y => y.role = .tool → x.role = .tool := by
  have hspeaks := h.speaks
  have htracks := h.tracks
  have hone := h.one
  match head with
  | [] =>
    rw [List.nil_append]
    refine List.Pairwise.imp_of_mem ?_ (List.pairwise_of_forall fun _ _ => trivial)
    intro x y hx _ _ _
    exact (h.tools x hx).1
  | [c] =>
    have hany : m.blocks.any ContentBlock.speaks = true := by simpa using hspeaks
    obtain rfl : pending = [] := hfirst (by simp [AnthropicMessage.speaks, hm, hany])
    obtain ⟨-, hid, hcalls, -⟩ := h.heads c List.mem_cons_self
    have hnocalls : c.callIds = [] := by
      by_contra hne
      rw [(hcalls hne).2] at hm
      exact absurd hm (by decide)
    have hafter : toolExchange.Tracks ([] ++ c.callIds) results pending' :=
      ((Exchange.tracks_cons hid).mp htracks).2
    have hnoresults : results = [] := by
      match results with
      | [] => rfl
      | r :: _ =>
        cases hafter with
        | answers _ _ hi => simp [hnocalls] at hi
        | calls ha => exact absurd ha (h.answers r List.mem_cons_self)
    rw [hnoresults]
    exact List.pairwise_singleton ..
  | _ :: _ :: _ => simp at hone

end Segment

/-! ## The conversation -/

def RewrittenTo (X : Crates) (vision : Option VisionPolicy) (m : AnthropicMessage) (segment : List ChatMessage) :
    Prop :=
  ∃ pending images pending' images', anthropicMessage X vision m pending images = .ok (segment, pending', images')

def AnthropicMessage.resultsFirst (m : AnthropicMessage) : Prop :=
  m.role = "user" ∧ m.blocks.Pairwise fun b b' =>
    match b, b' with
    | .text _ _, .toolResult _ _ _ _ => False
    | .image _, .toolResult _ _ _ _ => False
    | _, _ => True

section
variable {X : Crates} {vision : Option VisionPolicy}

theorem anthropicLoop_segments {messages : List AnthropicMessage} : ∀ {pending : List String}
    {images : ImageBudget} {output : List ChatMessage},
    anthropicLoop X vision messages pending images = .ok output → pending.Nodup →
      ∃ segments, output = segments.flatten ∧ List.Forall₂ (RewrittenTo X vision) messages segments ∧
        toolExchange.Tracks pending output [] ∧ (∀ c ∈ output, c.Proper) ∧
        (toolExchange.Prompt pending (output.filter native) ↔ AnswersFirst pending messages) ∧
        (AnswersFirst pending messages → List.Forall₂ (fun m segment => m.resultsFirst →
          segment.Pairwise fun x y => y.role = .tool → x.role = .tool) messages segments) := by
  induction messages with
  | nil =>
    intro pending images output h hn
    unfold anthropicLoop at h
    split at h
    next hp =>
      cases h
      obtain rfl := List.isEmpty_iff.mp hp
      exact ⟨[], rfl, .nil, .nil _, by simp, ⟨fun _ => trivial, fun _ => .nil _⟩, fun _ => .nil⟩
    next => cases h
  | cons m messages ih =>
    intro pending images output h hn
    obtain ⟨⟨segment, pending1, images1⟩, h1, h⟩ := ok_bind h
    obtain ⟨output1, h2, h⟩ := ok_bind h
    cases h
    obtain ⟨head, results, rfl, hseg⟩ := anthropicMessage_segment h1 hn
    obtain ⟨segments, rfl, hrewritten, htracks, hproper, hprompt, hfirst⟩ := ih h2 (hseg.tracks.nodup hn)
    refine ⟨(head ++ results) :: segments, rfl, .cons ⟨_, _, _, _, h1⟩ hrewritten, hseg.tracks.append htracks,
      ?_, ?_, ?_⟩
    · intro c hc
      exact (List.mem_append.mp hc).elim (hseg.proper c) (hproper c)
    · rw [List.filter_append, hseg.prompt_iff, hprompt, hseg.waits]
      rfl
    · rintro ⟨hm, hmessages⟩
      refine .cons (fun hr => hseg.results_first hm hr.1) (hfirst ?_)
      rwa [hseg.waits]

theorem systemMessage_native {system : Option AnthropicContent} {messages : List ChatMessage}
    (h : systemMessage system = .ok messages) : messages.filter native = [] := by
  cases system with
  | none =>
    cases h
    rfl
  | some content =>
    obtain ⟨s, -, h⟩ := ok_bind h
    cases h
    rfl

end

theorem mergeSystemMessages_lead (messages : List ChatMessage) :
    ∃ lead : List ChatMessage, (∀ c ∈ lead, c.role = .system ∧ c.toolCallId = none ∧ c.callIds = []) ∧
      mergeSystemMessages messages = lead ++ messages.filter native := by
  rw [mergeSystemMessages_eq]
  dsimp only
  split
  · exact ⟨[], by simp, rfl⟩
  · exact ⟨[_], by simp [callIds], rfl⟩

structure ToolsInOrder (request : List AnthropicMessage) (segments : List (List ChatMessage))
    (messages : List ChatMessage) : Prop where
  tools : ∀ m ∈ messages, m.role = .tool ↔ m.toolCallId ≠ none
  matched : (messages.flatMap callIds).Perm (messages.filterMap toolCallId)
  near : ∀ front t back, messages = front ++ t :: back → t.role = .tool →
    ∃ id front' a between, t.toolCallId = some id ∧ front = front' ++ a :: between ∧ a.role = .assistant ∧
      id ∈ a.callIds ∧ ∀ m ∈ between, m.role = .tool
  first : List.Forall₂ (fun m segment => m.resultsFirst →
    segment.Pairwise fun x y => y.role = .tool → x.role = .tool) request segments

theorem near_iff_tools {messages : List ChatMessage} (h : ∀ m ∈ messages, m.Proper) :
    toolExchange.Near messages ↔ ∀ front t back, messages = front ++ t :: back → t.role = .tool →
      ∃ id front' a between, t.toolCallId = some id ∧ front = front' ++ a :: between ∧ a.role = .assistant ∧
        id ∈ a.callIds ∧ ∀ m ∈ between, m.role = .tool := by
  constructor
  · intro hnear front t back he ht
    obtain ⟨id, hid⟩ := Option.ne_none_iff_exists'.mp ((h t (by simp [he])).1.mp ht)
    obtain ⟨front', a, between, rfl, ha, hc, hb⟩ := hnear front t back id he hid
    refine ⟨id, front', a, between, hid, rfl, (h a (by simp [he])).2 ?_, hc, ?_⟩
    · exact fun hnil => by simp [toolExchange, hnil] at hc
    · exact fun m hm => (h m (by simp [he, hm])).1.mpr (hb m hm)
  · intro htools front t back id he hid
    have ht : t.role = .tool := (h t (by simp [he])).1.mpr (by rw [show t.toolCallId = some id from hid]; simp)
    obtain ⟨id', front', a, between, hid', rfl, ha, hc, hb⟩ := htools front t back he ht
    rw [show t.toolCallId = some id from hid] at hid'
    cases hid'
    refine ⟨front', a, between, rfl, ?_, hc, fun m hm => (h m (by simp [he, hm])).1.mp (hb m hm)⟩
    by_contra hne
    rw [(h a (by simp [he])).1.mpr hne] at ha
    cases ha

theorem toolsInOrder_iff {request : List AnthropicMessage} {segments : List (List ChatMessage)}
    {messages : List ChatMessage} (htracks : toolExchange.Tracks [] messages []) (hproper : ∀ m ∈ messages, m.Proper)
    (hfirst : toolExchange.Prompt [] messages → List.Forall₂ (fun m segment => m.resultsFirst →
      segment.Pairwise fun x y => y.role = .tool → x.role = .tool) request segments) :
    ToolsInOrder request segments messages ↔ toolExchange.Prompt [] messages := by
  rw [← htracks.near_iff, near_iff_tools hproper]
  refine ⟨fun h => h.near, fun h => ⟨fun m hm => (hproper m hm).1, htracks.perm, h, hfirst ?_⟩⟩
  rwa [← htracks.near_iff, near_iff_tools hproper]

/-- The results of an accepted conversation stay with their calls exactly when nothing is said while a call
waits. -/
theorem tools_in_order_iff {anthropicRequest : String → Option AnthropicMessageRequest} {X : Crates}
    {bytes servedModel : String} {profile : GatewayProfile} {r : GenerationRequest}
    (h : rewriteAnthropicRequestWithProfile anthropicRequest X bytes servedModel profile = .ok r) :
    ∃ request segments lead, anthropicRequest bytes = some request ∧
      List.Forall₂ (RewrittenTo X profile.vision) request.messages segments ∧ (∀ c ∈ lead, c.role = .system) ∧
      r.body.get "messages" =
        some (.array ((lead ++ segments.flatten.filter native).map toValue)) ∧
      (ToolsInOrder request.messages segments (lead ++ segments.flatten.filter native) ↔
        AnswersFirst [] request.messages) := by
  obtain ⟨request, system, messages, hrequest, hsystem, hmessages, hbody⟩ := rewriteAnthropic_ok h
  obtain ⟨segments, rfl, hrewritten, htracks, hproper, hprompt, hfirst⟩ :=
    anthropicLoop_segments hmessages List.nodup_nil
  obtain ⟨lead, hlead, hmerge⟩ := mergeSystemMessages_lead (system ++ segments.flatten)
  rw [List.filter_append, systemMessage_native hsystem, List.nil_append] at hmerge
  rw [hmerge] at hbody
  have hneutral : ∀ c ∈ lead, toolExchange.answer c = none ∧ toolExchange.calls c = [] := fun c hc => (hlead c hc).2
  have hprompt' := (Exchange.prompt_lead hneutral).trans hprompt
  refine ⟨request, segments, lead, hrequest, hrewritten, fun c hc => (hlead c hc).1, hbody, ?_⟩
  rw [toolsInOrder_iff ?_ ?_ fun hp => hfirst (hprompt'.mp hp), hprompt']
  · refine (Exchange.tracks_lead hneutral List.nodup_nil).append (htracks.filter ?_)
    intro c hc hsystem
    have hrole : c.role = .system := by simpa [native] using hsystem
    refine ⟨?_, ?_⟩
    · by_contra hne
      rw [(hproper c hc).1.mpr hne] at hrole
      cases hrole
    · by_contra hne
      rw [(hproper c hc).2 hne] at hrole
      cases hrole
  · intro c hc
    rcases List.mem_append.mp hc with hc | hc
    · obtain ⟨hrole, hid, hcalls⟩ := hlead c hc
      exact ⟨by simp [hrole, hid], fun hne => absurd hcalls hne⟩
    · exact hproper c (List.mem_filter.mp hc).1

/-! ## A conversation with one call -/

def addCall : AnthropicMessage := ⟨"assistant", .blocks [.toolUse "t1" "add" (.object []) none]⟩

def addResult : ContentBlock := .toolResult "t1" (.text "4") false none

def addRequest (last : List ContentBlock) : AnthropicMessageRequest where
  model := "m"
  maxTokens := 16
  messages := [⟨"user", .text "Add"⟩, addCall, ⟨"user", .blocks last⟩]

def addCrates (bytes : String) : Crates := { cratesOf bytes .null with toText := fun _ => "\x7b\x7d" }

def addTexts : String :=
  "\x7b\"model\":\"m\",\"max_tokens\":16,\"messages\":[\x7b\"role\":\"user\",\"content\":\"Add\"\x7d," ++
    "\x7b\"role\":\"assistant\",\"content\":[\x7b\"type\":\"tool_use\",\"id\":\"t1\",\"name\":\"add\"," ++
    "\"input\":\x7b\x7d\x7d]\x7d,\x7b\"role\":\"user\",\"content\":[" ++
    "\x7b\"type\":\"tool_result\",\"tool_use_id\":\"t1\",\"content\":\"4\"\x7d"

def addThenSayBody : String := addTexts ++ ",\x7b\"type\":\"text\",\"text\":\"Go on\"\x7d]\x7d]\x7d"

def addBody : String := addTexts ++ "]\x7d]\x7d"

theorem addRequest_accepted (hsize : bytes.utf8ByteSize ≤ maxCompletionBodyBytes)
    {last : List ContentBlock} {messages : List ChatMessage}
    (h : anthropicMessages (addCrates bytes) (addRequest last).messages none = .ok messages) :
    ∃ r, rewriteAnthropicRequestWithProfile (readsOne bytes (addRequest last)) (addCrates bytes) bytes "m" {} =
      .ok r ∧ r.body.get "messages" = some (.array ((mergeSystemMessages messages).map toValue)) := by
  have haccepted : ∃ r, rewriteAnthropicRequestWithProfile (readsOne bytes (addRequest last)) (addCrates bytes)
      bytes "m" {} = .ok r := by
    refine ⟨?_, ?_⟩
    rotate_left
    · unfold rewriteAnthropicRequestWithProfile
      rw [decide_eq_false (Nat.not_lt.mpr hsize), readsOne_self]
      simp only [refuse, okOr, bind, Except.bind, h]
      rfl
  obtain ⟨r, hr⟩ := haccepted
  obtain ⟨request, system, messages', hread, hsystem, hmessages, hbody⟩ := rewriteAnthropic_ok hr
  rw [readsOne_self] at hread
  cases hread
  cases hsystem
  rw [h] at hmessages
  cases hmessages
  exact ⟨r, hr, hbody⟩

/-- The result comes before the text in the request, and after it in the conversation. -/
theorem result_after_text :
    ∃ r messages, rewriteAnthropicRequestWithProfile (readsOne addThenSayBody (addRequest [addResult, .text "Go on" none]))
        (addCrates addThenSayBody) addThenSayBody "m" {} = .ok r ∧
      r.body.get "messages" = some (.array (messages.map toValue)) ∧
      messages = [{ role := .user, content := .text "Add" },
        { role := .assistant, content := .null, toolCalls := some [⟨"t1", "add", "\x7b\x7d"⟩] },
        { role := .user, content := .text "Go on" },
        { role := .tool, content := .text "4", toolCallId := some "t1" }] ∧
      ∀ segments, ¬ ToolsInOrder (addRequest [addResult, .text "Go on" none]).messages segments messages := by
  obtain ⟨r, hr, hbody⟩ := @addRequest_accepted addThenSayBody (by decide +kernel) [addResult, .text "Go on" none] _ rfl
  refine ⟨r, _, hr, hbody, rfl, ?_⟩
  intro segments horder
  obtain ⟨id, front', a, between, -, hfront, ha, -, hb⟩ := horder.near [{ role := .user, content := .text "Add" },
      { role := .assistant, content := .null, toolCalls := some [⟨"t1", "add", "\x7b\x7d"⟩] },
      { role := .user, content := .text "Go on" }] _ [] rfl rfl
  have hlast := congrArg List.getLast? hfront
  rw [List.getLast?_append_cons, List.getLast?_cons (a := a)] at hlast
  cases hbetween : between.getLast? with
  | none =>
    rw [hbetween] at hlast
    cases hlast
    cases ha
  | some b =>
    rw [hbetween] at hlast
    cases hlast
    exact absurd (hb _ (List.mem_of_getLast? hbetween)) (by decide)

theorem result_with_call :
    ∃ r request segments lead, rewriteAnthropicRequestWithProfile (readsOne addBody (addRequest [addResult]))
        (addCrates addBody) addBody "m" {} = .ok r ∧ request = addRequest [addResult] ∧
      r.body.get "messages" =
        some (.array ((lead ++ segments.flatten.filter native).map toValue)) ∧
      ToolsInOrder request.messages segments (lead ++ segments.flatten.filter native) := by
  obtain ⟨r, hr, -⟩ := @addRequest_accepted addBody (by decide +kernel) [addResult] _ rfl
  obtain ⟨request, segments, lead, hread, -, -, hbody, horder⟩ := tools_in_order_iff hr
  rw [readsOne_self] at hread
  cases hread
  refine ⟨r, _, segments, lead, hr, rfl, hbody, horder.mpr ?_⟩
  simp [addRequest, addCall, addResult, AnswersFirst, AnthropicMessage.speaks, AnthropicMessage.waits,
    AnthropicMessage.blocks, ContentBlock.speaks, ContentBlock.waits]

end Sparkplane.Gateway
