import Sparkplane.Turn

/-!
# Encoders keep the turn

Each encoder's record of the reasoning, the text and the calls is the turn of
the events it accepted. A turn that is done has fewer pieces than there are
indices, since every call has arguments and the output is bounded.
-/

namespace Sparkplane.Gateway

/-! ## What both encoders keep -/

structure Kept where
  reasoning : String
  reasoningIndex : Option Nat
  text : String
  textIndex : Option Nat
  nextIndex : Nat
  outputBytes : Nat

structure Kept.Of (k : Kept) (t : Turn) : Prop where
  reasoning : k.reasoning = t.body .reasoning
  reasoningIndex : k.reasoningIndex = (t.get? .reasoning).map (·.index)
  text : k.text = t.body .text
  textIndex : k.textIndex = (t.get? .text).map (·.index)
  next : k.nextIndex = satU32 t.rows.length
  bytes : k.outputBytes = t.bytes
  bound : t.bytes ≤ maxCompletionBodyBytes

namespace Kept.Of
variable {k : Kept} {t : Turn} (h : k.Of t) {text : String}
include h

theorem bound_say {callId name : Option String} {s : Source}
    (hb : k.outputBytes + text.utf8ByteSize ≤ maxCompletionBodyBytes) :
    (t.say s callId name text).bytes ≤ maxCompletionBodyBytes := by
  rw [Turn.bytes_say, ← h.bytes]
  exact hb

theorem next_say (s : Source) (callId name : Option String) (text : String) :
    satU32 (t.say s callId name text).rows.length =
      if (t.get? s).isNone then succU32 k.nextIndex else k.nextIndex := by
  rw [Turn.length_say, h.next]
  split
  · rw [succU32_satU32]
  · rfl

theorem piece_index (s : Source) (callId name : Option String) :
    (t.piece s callId name).index = ((t.get? s).map (·.index)).getD k.nextIndex := by
  rw [Turn.piece_index, h.next]

theorem say_reasoning (hb : k.outputBytes + text.utf8ByteSize ≤ maxCompletionBodyBytes) :
    Kept.Of { k with
      reasoning := k.reasoning ++ text
      reasoningIndex := some (k.reasoningIndex.getD k.nextIndex)
      nextIndex := if k.reasoningIndex.isNone then succU32 k.nextIndex else k.nextIndex
      outputBytes := k.outputBytes + text.utf8ByteSize } (t.say .reasoning none none text) where
  reasoning := by rw [Turn.body_say, if_pos rfl, ← h.reasoning]
  reasoningIndex := by
    rw [Turn.get?_say, if_pos rfl, h.reasoningIndex, ← h.piece_index .reasoning none none]
    rfl
  text := by simp [Turn.body_say, h.text]
  textIndex := by rw [Turn.get?_say_of_ne (by decide), ← h.textIndex]
  next := by rw [h.next_say .reasoning, h.reasoningIndex, Option.isNone_map]
  bytes := by rw [Turn.bytes_say, ← h.bytes]
  bound := h.bound_say hb

theorem say_text (hb : k.outputBytes + text.utf8ByteSize ≤ maxCompletionBodyBytes) :
    Kept.Of { k with
      text := k.text ++ text
      textIndex := some (k.textIndex.getD k.nextIndex)
      nextIndex := if k.textIndex.isNone then succU32 k.nextIndex else k.nextIndex
      outputBytes := k.outputBytes + text.utf8ByteSize } (t.say .text none none text) where
  reasoning := by simp [Turn.body_say, h.reasoning]
  reasoningIndex := by rw [Turn.get?_say_of_ne (by decide), ← h.reasoningIndex]
  text := by rw [Turn.body_say, if_pos rfl, ← h.text]
  textIndex := by
    rw [Turn.get?_say, if_pos rfl, h.textIndex, ← h.piece_index .text none none]
    rfl
  next := by rw [h.next_say .text, h.textIndex, Option.isNone_map]
  bytes := by rw [Turn.bytes_say, ← h.bytes]
  bound := h.bound_say hb

theorem say_tool (i : UInt32) (callId name : Option String)
    (hb : k.outputBytes + text.utf8ByteSize ≤ maxCompletionBodyBytes) :
    Kept.Of { k with
      nextIndex := if (t.get? (.tool i)).isNone then succU32 k.nextIndex else k.nextIndex
      outputBytes := k.outputBytes + text.utf8ByteSize } (t.say (.tool i) callId name text) where
  reasoning := by simp [Turn.body_say, h.reasoning]
  reasoningIndex := by rw [Turn.get?_say_of_ne (by simp), ← h.reasoningIndex]
  text := by simp [Turn.body_say, h.text]
  textIndex := by rw [Turn.get?_say_of_ne (by simp), ← h.textIndex]
  next := by rw [h.next_say (.tool i)]
  bytes := by rw [Turn.bytes_say, ← h.bytes]
  bound := h.bound_say hb

theorem sign : k.Of (t.step .done) := by
  have hget : ∀ s, (t.step .done).get? s = (t.get? s).map Piece.sign := fun s => Table.get?_update ..
  have hbytes : (t.step .done).bytes = t.bytes := by
    refine Table.total_congr fun s => ?_
    rw [hget]
    cases t.get? s <;> rfl
  have hlength : (t.step .done).rows.length = t.rows.length := by simp [Turn.step, Table.update]
  have hbody : ∀ s, (t.step .done).body s = t.body s := by
    intro s
    rw [Turn.body, hget, Option.map_map]
    rfl
  refine ⟨?_, ?_, ?_, ?_, ?_, ?_, ?_⟩
  · rw [hbody, h.reasoning]
  · rw [hget, Option.map_map, h.reasoningIndex]
    rfl
  · rw [hbody, h.text]
  · rw [hget, Option.map_map, h.textIndex]
    rfl
  · rw [hlength, h.next]
  · rw [hbytes, h.bytes]
  · rw [hbytes]
    exact h.bound

end Kept.Of

def Source.toolIndex : Source → Option UInt32
  | .tool i => some i
  | _ => none

@[simp] theorem Source.toolIndex_tool (i : UInt32) : (Source.tool i).toolIndex = some i := rfl

@[simp] theorem Source.toolIndex_reasoning : Source.reasoning.toolIndex = none := rfl

@[simp] theorem Source.toolIndex_text : Source.text.toolIndex = none := rfl

theorem Source.toolIndex_inj {i : UInt32} {s1 s2 : Source} (h1 : s1.toolIndex = some i) (h2 : s2.toolIndex = some i) :
    s1 = s2 := by
  cases s1 <;> cases h1
  cases s2 <;> cases h2
  rfl

theorem mem_toolValues {ρ : Type} {tools : Table UInt32 ρ} {v : ρ} :
    v ∈ toolValues tools ↔ ∃ i, tools.get? i = some v := by
  unfold toolValues
  rw [((Table.sorted_perm _ _).map Prod.snd).mem_iff]
  simp only [List.mem_map, Prod.exists, Table.get?_eq_some, exists_eq_right]

/-! ## Anthropic -/

namespace AnthropicEncoder

def kept (e : AnthropicEncoder) : Kept :=
  ⟨e.reasoning, e.reasoningIndex, e.text, e.textIndex, e.nextIndex, e.outputBytes⟩

def call (p : Piece) : AnthropicToolCall := ⟨p.callId, p.name, p.body, some p.index⟩

structure Of (e : AnthropicEncoder) (t : Turn) : Prop where
  kept : e.kept.Of t
  tools : Table.Projects Source.toolIndex call t e.tools

variable {X : Crates} {e e' : AnthropicEncoder} {t : Turn} {text : String} {event : GenerationEvent}
  {events : List GenerationEvent}

theorem of_create (id model : String) (omitReasoning : Bool) : (create id model omitReasoning).Of .empty :=
  ⟨⟨rfl, rfl, rfl, rfl, rfl, rfl, Nat.zero_le _⟩, rfl⟩

theorem Of.textDelta (h : e.Of t) (he : e.textDelta text = .ok e') : e'.Of (t.say .text none none text) := by
  obtain ⟨hb, rfl⟩ := textDelta_ok he
  exact ⟨h.kept.say_text hb, h.tools.upsert_none (k := Source.text) rfl _⟩

theorem Of.reasoningDelta (h : e.Of t) (he : e.reasoningDelta text = .ok e') :
    e'.Of (t.say .reasoning none none text) := by
  obtain ⟨hb, rfl⟩ := reasoningDelta_ok he
  exact ⟨h.kept.say_reasoning hb, h.tools.upsert_none (k := Source.reasoning) rfl _⟩

theorem Of.tool (h : e.Of t) (i : UInt32) : e.tools.get? i = (t.get? (.tool i)).map call :=
  h.tools.get? Source.toolIndex_inj rfl

theorem Of.toolDelta {i : UInt32} {callId name : Option String} (h : e.Of t)
    (he : e.toolDelta i callId name text = .ok e') : e'.Of (t.say (.tool i) callId name text) := by
  obtain ⟨hb, rfl⟩ := toolDelta_ok he
  have htool := h.tool i
  have hcall : (⟨callId.getD ((e.tools.get? i).getD {}).callId, name.getD ((e.tools.get? i).getD {}).name,
      ((e.tools.get? i).getD {}).arguments ++ text,
      some (((e.tools.get? i).getD {}).blockIndex.getD e.nextIndex)⟩ : AnthropicToolCall) =
      call ((t.piece (.tool i) callId name).grow callId name text) := by
    have hnext : e.nextIndex = satU32 t.rows.length := h.kept.next
    rw [htool, hnext]
    unfold Turn.piece
    cases t.get? (.tool i) <;> simp [call, Piece.grow]
  have hfresh : ((e.tools.get? i).getD {}).blockIndex.isNone = (t.get? (.tool i)).isNone := by
    rw [htool]
    cases t.get? (.tool i) <;> rfl
  rw [hcall, hfresh]
  exact ⟨h.kept.say_tool i callId name hb, h.tools.upsert Source.toolIndex_inj (k := .tool i) rfl _⟩

theorem Of.done (h : e.Of t) (he : e.done X = .ok e') : e'.Of (t.step .done) := by
  obtain ⟨-, rfl⟩ := done_ok he
  exact ⟨h.kept.sign, h.tools.update fun _ _ => rfl⟩

theorem Of.accept (h : e.Of t) (he : e.accept X event = .ok e') : e'.Of (t.step event) := by
  cases event with
  | reasoningDelta text => exact h.reasoningDelta he
  | textDelta text => exact h.textDelta he
  | toolCallDelta i callId name arguments => exact h.toolDelta he
  | finished reason =>
    cases he
    exact ⟨h.kept, h.tools⟩
  | usage prompt completion =>
    cases he
    exact ⟨h.kept, h.tools⟩
  | done => exact h.done he

theorem Of.run (h : e.Of t) (he : e.run X events = .ok e') : e'.Of (events.foldl Turn.step t) := by
  induction events generalizing e t with
  | nil =>
    cases he
    exact h
  | cons event events ih =>
    unfold AnthropicEncoder.run at he
    rw [List.foldlM_cons] at he
    obtain ⟨e₁, h1, he⟩ := ok_bind he
    exact ih (h.accept h1) he

theorem accept_omit (h : e.accept X event = .ok e') : e'.omitReasoning = e.omitReasoning := by
  cases event with
  | reasoningDelta text => obtain ⟨-, rfl⟩ := reasoningDelta_ok h; rfl
  | textDelta text => obtain ⟨-, rfl⟩ := textDelta_ok h; rfl
  | toolCallDelta i callId name arguments => obtain ⟨-, rfl⟩ := toolDelta_ok h; rfl
  | finished reason => cases h; rfl
  | usage prompt completion => cases h; rfl
  | done => obtain ⟨-, rfl⟩ := done_ok h; rfl

theorem run_omit (h : e.run X events = .ok e') : e'.omitReasoning = e.omitReasoning := by
  induction events generalizing e with
  | nil => cases h; rfl
  | cons event events ih =>
    unfold AnthropicEncoder.run at h
    rw [List.foldlM_cons] at h
    obtain ⟨e₁, h1, h⟩ := ok_bind h
    rw [ih h, accept_omit h1]

theorem run_done (h : e.run X (events ++ [.done]) = .ok e') : ∃ e₁, e.run X events = .ok e₁ ∧ e₁.done X = .ok e' := by
  unfold AnthropicEncoder.run at h
  rw [List.foldlM_append] at h
  obtain ⟨e₁, h1, h⟩ := ok_bind h
  obtain ⟨e2, h2, h⟩ := ok_bind h
  cases h
  exact ⟨e₁, h1, h2⟩

end AnthropicEncoder

/-! ## Responses -/

namespace ResponsesEncoder

def kept (e : ResponsesEncoder) : Kept :=
  ⟨e.reasoning, e.reasoningIndex, e.text, e.textIndex, e.nextIndex, e.outputBytes⟩

def call (p : Piece) : ToolCall := ⟨p.callId, p.name, p.body, true, some p.index⟩

structure Of (e : ResponsesEncoder) (t : Turn) : Prop where
  kept : e.kept.Of t
  tools : Table.Projects Source.toolIndex call t e.tools

structure Queues (e e' : ResponsesEncoder) : Prop where
  kept : e'.kept = e.kept
  tools : e'.tools = e.tools
  ulid : e'.ulid = e.ulid
  custom : e'.customTools = e.customTools

variable {X : Crates} {clock : Nat → Int} {e e' e₁ : ResponsesEncoder} {t : Turn} {text : String}
  {event : GenerationEvent} {events : List GenerationEvent}

theorem Queues.refl (e : ResponsesEncoder) : e.Queues e := ⟨rfl, rfl, rfl, rfl⟩

theorem Queues.trans (h : e.Queues e₁) (h' : e₁.Queues e') : e.Queues e' :=
  ⟨h'.kept.trans h.kept, h'.tools.trans h.tools, h'.ulid.trans h.ulid, h'.custom.trans h.custom⟩

theorem queues_event (e : ResponsesEncoder) (name : String) (fields : Fields) : e.Queues (e.event name fields) :=
  ⟨rfl, rfl, rfl, rfl⟩

theorem queues_push (e : ResponsesEncoder) (name status : String) : e.Queues (e.push X clock name status) :=
  ⟨rfl, rfl, rfl, rfl⟩

theorem queues_ite (b : Bool) (h : e.Queues e') : e.Queues (if b then e' else e) := by
  cases b
  · exact .refl e
  · exact h

theorem Of.queues (h : e.Of t) (hq : e.Queues e') : e'.Of t := ⟨hq.kept ▸ h.kept, hq.tools ▸ h.tools⟩

theorem reserveOutput_ok {n : Nat} (h : e.reserveOutput n = .ok e') :
    e.outputBytes + n ≤ maxCompletionBodyBytes ∧ e' = { e with outputBytes := e.outputBytes + n } := by
  obtain ⟨hb, h⟩ := refuse_bind h
  cases h
  exact ⟨by simpa using hb, rfl⟩

theorem Of.textDelta (h : e.Of t) (he : e.textDelta text = .ok e') : e'.Of (t.say .text none none text) := by
  obtain ⟨e₁, h1, he⟩ := ok_bind he
  obtain ⟨hb, rfl⟩ := reserveOutput_ok h1
  have hsaid : Of { e with
      text := e.text ++ text
      textIndex := some (e.textIndex.getD e.nextIndex)
      nextIndex := if e.textIndex.isNone then succU32 e.nextIndex else e.nextIndex
      outputBytes := e.outputBytes + text.utf8ByteSize } (t.say .text none none text) :=
    ⟨h.kept.say_text hb, h.tools.upsert_none (k := Source.text) rfl _⟩
  cases he
  refine hsaid.queues ?_
  obtain ⟨_, _, _, _, _, _, textIndex, _⟩ := e
  cases textIndex <;> exact ⟨rfl, rfl, rfl, rfl⟩

theorem Of.reasoningDelta (h : e.Of t) (he : e.reasoningDelta text = .ok e') :
    e'.Of (t.say .reasoning none none text) := by
  obtain ⟨e₁, h1, he⟩ := ok_bind he
  obtain ⟨hb, rfl⟩ := reserveOutput_ok h1
  have hsaid : Of { e with
      reasoning := e.reasoning ++ text
      reasoningIndex := some (e.reasoningIndex.getD e.nextIndex)
      nextIndex := if e.reasoningIndex.isNone then succU32 e.nextIndex else e.nextIndex
      outputBytes := e.outputBytes + text.utf8ByteSize } (t.say .reasoning none none text) :=
    ⟨h.kept.say_reasoning hb, h.tools.upsert_none (k := Source.reasoning) rfl _⟩
  cases he
  refine hsaid.queues ?_
  obtain ⟨_, _, _, _, reasoningIndex, _⟩ := e
  cases reasoningIndex <;> exact ⟨rfl, rfl, rfl, rfl⟩

theorem Of.tool (h : e.Of t) (i : UInt32) : e.tools.get? i = (t.get? (.tool i)).map call :=
  h.tools.get? Source.toolIndex_inj rfl

theorem Of.toolDelta {i : UInt32} {callId name : Option String} (h : e.Of t)
    (he : e.toolDelta i callId name text = .ok e') : e'.Of (t.say (.tool i) callId name text) := by
  obtain ⟨e₁, h1, he⟩ := ok_bind he
  obtain ⟨hb, rfl⟩ := reserveOutput_ok h1
  have hsaid : Of { e with
      tools := e.tools.upsert i (call ((t.piece (.tool i) callId name).grow callId name text))
      nextIndex := if (t.get? (.tool i)).isNone then succU32 e.nextIndex else e.nextIndex
      outputBytes := e.outputBytes + text.utf8ByteSize } (t.say (.tool i) callId name text) :=
    ⟨h.kept.say_tool i callId name hb, h.tools.upsert Source.toolIndex_inj (k := .tool i) rfl _⟩
  have htool := h.tool i
  have hnext : e.nextIndex = satU32 t.rows.length := h.kept.next
  have hcall : (⟨callId.getD ((e.tools.get? i).getD {}).callId, name.getD ((e.tools.get? i).getD {}).name,
      ((e.tools.get? i).getD {}).arguments ++ text, true,
      some (((e.tools.get? i).getD {}).outputIndex.getD e.nextIndex)⟩ : ToolCall) =
      call ((t.piece (.tool i) callId name).grow callId name text) := by
    rw [htool, hnext]
    unfold Turn.piece
    cases t.get? (.tool i) <;> simp [call, Piece.grow]
  have hfresh : ((e.tools.get? i).getD {}).outputIndex.isNone = (t.get? (.tool i)).isNone := by
    rw [htool]
    cases t.get? (.tool i) <;> rfl
  rw [← hcall, ← hfresh] at hsaid
  cases he
  refine hsaid.queues ?_
  exact (queues_ite _ (queues_event ..)).trans (queues_ite _ (queues_event ..))

theorem queues_finish (e : ResponsesEncoder) (tools : List ToolCall) :
    e.Queues (tools.foldl (finishTool X) e.finishReasoning.finishText) := by
  have hreasoning : e.Queues e.finishReasoning := by
    unfold finishReasoning
    split
    · exact .refl e
    · exact ⟨rfl, rfl, rfl, rfl⟩
  have htext : ∀ e : ResponsesEncoder, e.Queues e.finishText := by
    intro e
    unfold finishText
    split
    · exact .refl e
    · exact ⟨rfl, rfl, rfl, rfl⟩
  have htool : ∀ (e : ResponsesEncoder) (tool : ToolCall), e.Queues (e.finishTool X tool) := by
    intro e tool
    unfold finishTool
    split
    · exact .refl e
    · dsimp only
      split <;> exact ⟨rfl, rfl, rfl, rfl⟩
  have htools : ∀ (tools : List ToolCall) (e : ResponsesEncoder), e.Queues (tools.foldl (finishTool X) e) := by
    intro tools
    induction tools with
    | nil => exact fun e => .refl e
    | cons tool tools ih => exact fun e => (htool e tool).trans (ih _)
  exact (hreasoning.trans (htext _)).trans (htools _ _)

theorem done_ok (h : e.done X clock = .ok e') :
    (∀ tool ∈ toolValues e.tools, tool.callId ≠ "" ∧ tool.name ≠ "" ∧ (X.fromStr tool.arguments).isSome) ∧
      e.Queues e' := by
  obtain ⟨hgood, h⟩ := refuse_bind h
  obtain ⟨-, h⟩ := refuse_bind h
  refine ⟨?_, ?_⟩
  · intro tool ht
    have := List.any_eq_false.mp hgood tool ht
    simpa [Option.isSome_iff_ne_none, and_assoc] using this
  · cases h
    split <;> exact (queues_finish e _).trans (queues_push ..)

theorem of_new (ulid model : String) (customTools : List String) : (new X clock ulid model customTools).Of .empty :=
  ⟨⟨rfl, rfl, rfl, rfl, rfl, rfl, Nat.zero_le _⟩, rfl⟩

theorem Of.done (h : e.Of t) (he : e.done X clock = .ok e') : e'.Of (t.step .done) :=
  Of.queues ⟨h.kept.sign, h.tools.update fun _ _ => rfl⟩ (done_ok he).2

theorem Of.accept (h : e.Of t) (he : e.accept X clock event = .ok e') : e'.Of (t.step event) := by
  cases event with
  | reasoningDelta text => exact h.reasoningDelta he
  | textDelta text => exact h.textDelta he
  | toolCallDelta i callId name arguments => exact h.toolDelta he
  | finished reason =>
    cases he
    exact ⟨h.kept, h.tools⟩
  | usage prompt completion =>
    cases he
    exact ⟨h.kept, h.tools⟩
  | done => exact h.done he

theorem Of.run (h : e.Of t) (he : e.run X clock events = .ok e') : e'.Of (events.foldl Turn.step t) := by
  induction events generalizing e t with
  | nil =>
    cases he
    exact h
  | cons event events ih =>
    unfold ResponsesEncoder.run at he
    rw [List.foldlM_cons] at he
    obtain ⟨e₁, h1, he⟩ := ok_bind he
    exact ih (h.accept h1) he

end ResponsesEncoder

namespace ResponsesEncoder
variable {X : Crates} {clock : Nat → Int} {e e' : ResponsesEncoder} {event : GenerationEvent} {events : List GenerationEvent}

theorem accept_custom (h : e.accept X clock event = .ok e') : e'.customTools = e.customTools := by
  cases event with
  | reasoningDelta text =>
    obtain ⟨e₁, h1, h⟩ := ok_bind h
    obtain ⟨-, rfl⟩ := reserveOutput_ok h1
    cases h
    obtain ⟨_, _, _, _, reasoningIndex, _⟩ := e
    cases reasoningIndex <;> rfl
  | textDelta text =>
    obtain ⟨e₁, h1, h⟩ := ok_bind h
    obtain ⟨-, rfl⟩ := reserveOutput_ok h1
    cases h
    obtain ⟨_, _, _, _, _, _, textIndex, _⟩ := e
    cases textIndex <;> rfl
  | toolCallDelta i callId name arguments =>
    obtain ⟨e₁, h1, h⟩ := ok_bind h
    obtain ⟨-, rfl⟩ := reserveOutput_ok h1
    cases h
    exact ((queues_ite _ (queues_event ..)).trans (queues_ite _ (queues_event ..))).custom
  | finished reason => cases h; rfl
  | usage prompt completion => cases h; rfl
  | done => exact (done_ok h).2.custom

theorem run_custom (h : e.run X clock events = .ok e') : e'.customTools = e.customTools := by
  induction events generalizing e with
  | nil => cases h; rfl
  | cons event events ih =>
    unfold ResponsesEncoder.run at h
    rw [List.foldlM_cons] at h
    obtain ⟨e₁, h1, h⟩ := ok_bind h
    rw [ih h, accept_custom h1]

theorem run_done (h : e.run X clock (events ++ [.done]) = .ok e') :
    ∃ e₁, e.run X clock events = .ok e₁ ∧ e₁.done X clock = .ok e' := by
  unfold ResponsesEncoder.run at h
  rw [List.foldlM_append] at h
  obtain ⟨e₁, h1, h⟩ := ok_bind h
  obtain ⟨e2, h2, h⟩ := ok_bind h
  cases h
  exact ⟨e₁, h1, h2⟩

end ResponsesEncoder

/-! ## Turns that are done -/

namespace Turn
variable {t : Turn}

theorem others_length (t : Turn) : (t.rows.filter fun r => r.1.toolIndex.isNone).length ≤ 2 := by
  have hnodup : ((t.rows.filter fun r => r.1.toolIndex.isNone).map Prod.fst).Nodup :=
    (List.filter_sublist.map Prod.fst).nodup t.nodup
  have hsub : (t.rows.filter fun r => r.1.toolIndex.isNone).map Prod.fst ⊆ [.reasoning, .text] := by
    intro s hs
    obtain ⟨r, hr, rfl⟩ := List.mem_map.mp hs
    have hr := (List.mem_filter.mp hr).2
    cases hs : r.1 with
    | tool i => simp [hs, Source.toolIndex] at hr
    | _ => simp
  have := (hnodup.subperm hsub).length_le
  simpa using this

theorem rows_perm (rows : List (Source × Piece)) : ((rows.filter fun r => r.1 = .reasoning) ++
    (rows.filter fun r => r.1 = .text) ++ rows.filter fun r => r.1.toolIndex.isSome).Perm rows := by
  induction rows with
  | nil => exact .refl _
  | cons r rows ih =>
    obtain ⟨s, p⟩ := r
    cases s with
    | reasoning => simpa using ih
    | text =>
      have hmiddle := @List.perm_middle _ (Source.text, p) (rows.filter fun r => r.1 = .reasoning)
        ((rows.filter fun r => r.1 = .text) ++ rows.filter fun r => r.1.toolIndex.isSome)
      simpa using hmiddle.trans (.cons _ (by simpa using ih))
    | tool i =>
      simpa [List.filter_cons] using List.perm_middle.trans (.cons (Source.tool i, p) ih)

theorem length_le (h : ∀ i p, t.get? (.tool i) = some p → p.body ≠ "") : t.rows.length ≤ t.bytes + 2 := by
  have hcalls : ∀ rows : List (Source × Piece), (∀ r ∈ rows, r.1.toolIndex.isSome → r.2.body ≠ "") →
      (rows.filter fun r => r.1.toolIndex.isSome).length ≤ (rows.map fun r => r.2.body.utf8ByteSize).sum := by
    intro rows
    induction rows with
    | nil => simp
    | cons r rows ih =>
      intro hr
      have ih := ih fun r' hr' => hr r' (List.mem_cons_of_mem _ hr')
      rw [List.map_cons, List.sum_cons]
      cases hs : r.1.toolIndex.isSome with
      | false =>
        rw [List.filter_cons_of_neg (by simp [hs])]
        omega
      | true =>
        have hpos : 0 < r.2.body.utf8ByteSize := by
          have := hr r List.mem_cons_self hs
          rw [Nat.pos_iff_ne_zero, ne_eq, String.utf8ByteSize_eq_zero_iff]
          exact this
        rw [List.filter_cons_of_pos (p := fun r : Source × Piece => r.1.toolIndex.isSome) hs, List.length_cons]
        omega
  have htools := hcalls t.rows fun r hr hs => by
    obtain ⟨s, p⟩ := r
    cases s with
    | tool i => exact h i p (Table.get?_eq_some.mpr hr)
    | _ => cases hs
  have hbytes : t.bytes = (t.rows.map fun r => r.2.body.utf8ByteSize).sum := by
    unfold bytes Table.total Table.select
    rw [List.filter_eq_self.mpr fun _ _ => rfl]
  have hsplit : t.rows.length = (t.rows.filter fun r => r.1.toolIndex.isNone).length +
      (t.rows.filter fun r => r.1.toolIndex.isSome).length := by
    rw [List.length_eq_length_filter_add fun r : Source × Piece => r.1.toolIndex.isNone]
    congr 2
    refine List.filter_congr fun r _ => ?_
    cases r.1.toolIndex <;> rfl
  have := t.others_length
  omega

theorem length_lt (h : ∀ i p, t.get? (.tool i) = some p → p.body ≠ "") (hb : t.bytes ≤ maxCompletionBodyBytes) :
    t.rows.length < 2 ^ 32 := by
  have := length_le h
  unfold maxCompletionBodyBytes at hb
  omega

theorem Numbered.sorted (h : t.Numbered) (hlt : t.rows.length < 2 ^ 32) :
    t.rows.Pairwise fun a b => a.2.index < b.2.index := by
  rw [← List.pairwise_map (f := fun r : Source × Piece => r.2.index) (R := (· < ·)), h, List.pairwise_map]
  refine List.Pairwise.imp_of_mem ?_ List.pairwise_lt_range
  intro a b ha hb hab
  rw [List.mem_range] at ha hb
  unfold satU32
  omega

end Turn

section
variable {X : Crates} (hX : X.fromStr "" = none) {t : Turn}
include hX

theorem AnthropicEncoder.Of.length_lt {e e' : AnthropicEncoder} (h : e.Of t) (hd : e.done X = .ok e') :
    t.rows.length < 2 ^ 32 := by
  refine Turn.length_lt ?_ h.kept.bound
  intro i p hp hbody
  have hmem : call p ∈ toolValues e.tools := mem_toolValues.mpr ⟨i, by rw [h.tool, hp]; rfl⟩
  have hparsed := ((done_ok hd).1 _ hmem).2.2
  simp [call, hbody, hX] at hparsed

theorem ResponsesEncoder.Of.length_lt {clock : Nat → Int} {e e' : ResponsesEncoder} (h : e.Of t)
    (hd : e.done X clock = .ok e') : t.rows.length < 2 ^ 32 := by
  refine Turn.length_lt ?_ h.kept.bound
  intro i p hp hbody
  have hmem : call p ∈ toolValues e.tools := mem_toolValues.mpr ⟨i, by rw [h.tool, hp]; rfl⟩
  have hparsed := ((done_ok hd).1 _ hmem).2.2
  simp [call, hbody, hX] at hparsed

end

end Sparkplane.Gateway
