import Sparkplane.AnthropicTurnSound

/-!
# The stream and the document

A client that reads the stream puts each block together under its index. The
encoder's document is made of the same turn another way: by kind, and the
calls by the engine's index with the ids and names they ended with.
-/

namespace Sparkplane.Gateway

open AnthropicEncoder hiding id

variable {s : Source} {callId name : Option String} {text : String} {events : List GenerationEvent}
variable {b : ReplyBlock}

/-! ## Reassembly -/

/-- A block as far as it was received; the input of a call is still text. -/
inductive StreamBlock where
  | thinking (thinking signature : String)
  | text (text : String)
  | toolUse (id name json : String)

def ReplyBlock.started : ReplyBlock → StreamBlock
  | .thinking t signature => .thinking t signature
  | .text s => .text s
  | .toolUse id name _ => .toolUse id name ""

def StreamBlock.take : BlockDelta → StreamBlock → StreamBlock
  | .text s, .text t => .text (t ++ s)
  | .thinking s, .thinking t signature => .thinking (t ++ s) signature
  | .signature s, .thinking t _ => .thinking t s
  | .inputJson s, .toolUse id name json => .toolUse id name (json ++ s)
  | _, b => b

def StreamBlock.finish (X : Crates) : StreamBlock → ReplyBlock
  | .thinking t signature => .thinking t signature
  | .text s => .text s
  | .toolUse id name json => .toolUse id name ((X.fromStr json).getD (.object []))

structure Reassembly where
  blocks : Table Nat StreamBlock := .empty
  stopReason : Option String := none
  usage : Nat × Nat := (0, 0)

open Reassembly

namespace Reassembly

def step (r : Reassembly) : AnthropicStreamEvent → Reassembly
  | .blockStart index block => { r with blocks := r.blocks.upsert index block.started }
  | .blockDelta index delta => { r with blocks := r.blocks.modify index (·.take delta) }
  | .messageDelta stopReason usage => { r with stopReason := some stopReason, usage := usage }
  | .messageStart _ _ | .blockStop _ | .messageStop => r

def of (events : List AnthropicStreamEvent) : Reassembly := events.foldl step {}

def content (X : Crates) (r : Reassembly) : List ReplyBlock := (r.blocks.sorted id).map fun b => b.2.finish X

theorem of_append (events events' : List AnthropicStreamEvent) :
    of (events ++ events') = events'.foldl step (of events) := List.foldl_append ..

theorem blocks_said (events : List AnthropicStreamEvent) (starts : Bool) (i j : Nat) (start : ReplyBlock)
    (delta : Option BlockDelta) :
    (of (events ++ (if starts then [.blockStart i start] else []) ++ (delta.map (.blockDelta j)).toList)).blocks =
      (if starts then (of events).blocks.upsert i start.started else (of events).blocks).modify j
        fun b => delta.elim b (StreamBlock.take · b) := by
  rw [of_append, of_append]
  cases delta with
  | none =>
    rw [Table.modify_eq_self (f := fun b => Option.elim none b (StreamBlock.take · b)) fun _ _ => rfl]
    cases starts <;> rfl
  | some d => cases starts <;> rfl

theorem stopped (r : Reassembly) (reasoningIndex : Option Nat) (signature : String) (indices : List Nat) :
    (indices.flatMap fun index =>
      (if reasoningIndex = some index then [AnthropicStreamEvent.blockDelta index (.signature signature)] else []) ++
        [.blockStop index]).foldl step r =
      match reasoningIndex with
      | some i => if i ∈ indices then { r with blocks := r.blocks.modify i (·.take (.signature signature)) } else r
      | none => r := by
  have htwice : ∀ (blocks : Table Nat StreamBlock) (i : Nat),
      (blocks.modify i (·.take (.signature signature))).modify i (·.take (.signature signature)) =
        blocks.modify i (·.take (.signature signature)) := by
    intro blocks i
    rw [Table.modify_modify]
    congr 1
    funext b
    cases b <;> rfl
  induction indices generalizing r with
  | nil => cases reasoningIndex <;> rfl
  | cons index indices ih =>
    rw [List.flatMap_cons, List.foldl_append, ih]
    cases reasoningIndex with
    | none => rfl
    | some i =>
      by_cases hi : i = index
      · subst hi
        by_cases hmem : i ∈ indices <;> simp [hmem, step, htwice]
      · simp [hi, step]

end Reassembly

/-! ## The turn as it is streamed -/

def Piece.shown (X : Crates) (omitReasoning : Bool) : Source → Piece → StreamBlock
  | .reasoning, p => .thinking (if omitReasoning then "" else p.body) ((p.signed.map (localReasoningSignature X)).getD "")
  | .text, p => .text p.body
  | .tool _, p => .toolUse p.firstId p.firstName p.body

def Streams (X : Crates) (omitReasoning : Bool) (t : Turn) (blocks : Table Nat StreamBlock) : Prop :=
  Table.Rekeys Piece.index (Piece.shown X omitReasoning) t blocks

section
variable {X : Crates} {omitReasoning : Bool} {t : Turn} {blocks : Table Nat StreamBlock}

theorem Streams.fresh (h : Streams X omitReasoning t blocks) (hn : t.Numbered) (hlt : t.rows.length + 1 < 2 ^ 32) :
    satU32 t.rows.length ∉ blocks.keys := by
  rw [h.mem_keys]
  rintro ⟨r, hr, hi⟩
  have hmem : r.2.index ∈ (List.range t.rows.length).map satU32 := hn ▸ List.mem_map_of_mem hr
  obtain ⟨n, hnlt, hn⟩ := List.mem_map.mp hmem
  rw [List.mem_range] at hnlt
  rw [← hn] at hi
  unfold satU32 at hi
  omega

theorem Streams.say (h : Streams X omitReasoning t blocks) (hn : t.Numbered)
    (hlt : (t.say s callId name text).rows.length < 2 ^ 32)
    {start : StreamBlock} {f : StreamBlock → StreamBlock}
    (hstart : t.get? s = none → f start = ((t.piece s callId name).grow callId name text).shown X omitReasoning s)
    (hgrow : ∀ p : Piece, t.get? s = some p →
      f (p.shown X omitReasoning s) = (p.grow callId name text).shown X omitReasoning s) :
    Streams X omitReasoning (t.say s callId name text)
      ((if (t.get? s).isNone then blocks.upsert (satU32 t.rows.length) start else blocks).modify
        (t.piece s callId name).index f) := by
  unfold Turn.say
  cases hs : t.get? s with
  | none =>
    rw [Turn.length_say, hs] at hlt
    have hfresh := h.fresh hn hlt
    have hindex : (t.piece s callId name).index = satU32 t.rows.length := by rw [Turn.piece_of_none hs]
    show Table.Rekeys _ _ _ ((blocks.upsert _ _).modify _ _)
    rw [hindex, Table.modify_upsert hfresh, hstart hs, ← hindex]
    exact h.add (r := (t.piece s callId name).grow callId name text) (Table.get?_eq_none.mp hs) (hindex ▸ hfresh)
  | some p =>
    rw [Turn.piece_of_some hs]
    exact h.write (r := p.grow callId name text) hs rfl (hgrow p hs)

theorem Streams.sign (h : Streams X omitReasoning t blocks) : Streams X omitReasoning (t.step .done)
      (match t.get? .reasoning with
        | some p => blocks.modify p.index (·.take (.signature (localReasoningSignature X p.body)))
        | none => blocks) := by
  cases hs : t.get? .reasoning with
  | none =>
    show blocks.rows = (t.rows.map _).map _
    rw [h, List.map_map]
    refine List.map_congr_left fun x hx => ?_
    obtain ⟨s, p⟩ := x
    cases s with
    | reasoning => rw [Table.get?_eq_some.mpr hx] at hs; cases hs
    | _ => rfl
  | some p =>
    show (blocks.rows.map _) = (t.rows.map _).map _
    rw [h, List.map_map, List.map_map]
    refine List.map_congr_left fun x hx => ?_
    obtain ⟨s, q⟩ := x
    have hne : s ≠ .reasoning → q.index ≠ p.index :=
      fun hs' hi => hs' (h.key_inj hx (Table.get?_eq_some.mp hs) hi)
    cases s with
    | reasoning =>
      rw [Table.get?_eq_some.mpr hx] at hs
      cases hs
      simp [Piece.shown, Piece.sign, StreamBlock.take]
    | text => simp [Piece.shown, Piece.sign, hne]
    | tool i => simp [Piece.shown, Piece.sign, hne]

theorem Streams.said {events : List AnthropicStreamEvent} (h : Streams X omitReasoning t (of events).blocks)
    (hn : t.Numbered)
    (hlt : (t.say s callId name text).rows.length < 2 ^ 32) {start : ReplyBlock} (delta : Option BlockDelta)
    (hstart : t.get? s = none → delta.elim start.started (StreamBlock.take · start.started) =
      ((t.piece s callId name).grow callId name text).shown X omitReasoning s)
    (hgrow : ∀ p : Piece, t.get? s = some p →
      delta.elim (p.shown X omitReasoning s) (StreamBlock.take · (p.shown X omitReasoning s)) =
        (p.grow callId name text).shown X omitReasoning s)
    {starts : Bool} {i j : Nat} (hstarts : starts = (t.get? s).isNone)
    (hi : t.get? s = none → i = satU32 t.rows.length) (hj : j = (t.piece s callId name).index) :
    Streams X omitReasoning (t.say s callId name text) (of (events ++
      (if starts then [.blockStart i start] else []) ++ (delta.map (.blockDelta j)).toList)).blocks := by
  have hsaid := h.say hn hlt (f := fun b => delta.elim b (StreamBlock.take · b)) hstart hgrow
  rw [blocks_said, hstarts, hj]
  cases hs : t.get? s with
  | none => rwa [hi hs, ← hs]
  | some p => simpa [hs] using hsaid

namespace AnthropicEncoder
variable {e e' : AnthropicEncoder}

section
variable (h : Streams X e.omitReasoning t (of e.pending).blocks) (hof : e.Of t) (hn : t.Numbered)
include h hof hn

theorem streams_text (he : e.textDelta text = .ok e') (hlt : (t.say .text none none text).rows.length < 2 ^ 32) :
    Streams X e'.omitReasoning (t.say .text none none text) (of e'.pending).blocks := by
  obtain ⟨-, rfl⟩ := textDelta_ok he
  have hindex : e.textIndex = (t.get? .text).map (·.index) := hof.kept.textIndex
  refine h.said hn hlt (some (.text text)) ?_ (fun p _ => rfl) (by rw [hindex, Option.isNone_map])
    (fun _ => hof.kept.next) ?_
  · intro hs
    rw [Turn.piece_of_none hs]
    rfl
  · rw [hof.kept.piece_index, hindex]
    rfl

theorem streams_reasoning (he : e.reasoningDelta text = .ok e')
    (hlt : (t.say .reasoning none none text).rows.length < 2 ^ 32) :
    Streams X e'.omitReasoning (t.say .reasoning none none text) (of e'.pending).blocks := by
  obtain ⟨-, rfl⟩ := reasoningDelta_ok he
  have hindex : e.reasoningIndex = (t.get? .reasoning).map (·.index) := hof.kept.reasoningIndex
  have hdelta : (if e.omitReasoning then [] else
      [AnthropicStreamEvent.blockDelta (e.reasoningIndex.getD e.nextIndex) (.thinking text)]) =
      ((if e.omitReasoning then none else some (BlockDelta.thinking text)).map
        (.blockDelta (e.reasoningIndex.getD e.nextIndex))).toList := by
    cases e.omitReasoning <;> rfl
  show Streams _ _ _ (of (_ ++ if e.omitReasoning then [] else _)).blocks
  rw [hdelta]
  refine h.said hn hlt _ ?_ ?_ (by rw [hindex, Option.isNone_map]) (fun _ => hof.kept.next) ?_
  · intro hs
    rw [Turn.piece_of_none hs]
    cases e.omitReasoning <;> rfl
  · intro p _
    cases e.omitReasoning <;> rfl
  · rw [hof.kept.piece_index, hindex]
    rfl

theorem streams_tool {i : UInt32} {arguments : String} (he : e.toolDelta i callId name arguments = .ok e')
    (hlt : (t.say (.tool i) callId name arguments).rows.length < 2 ^ 32) :
    Streams X e'.omitReasoning (t.say (.tool i) callId name arguments) (of e'.pending).blocks := by
  obtain ⟨-, rfl⟩ := toolDelta_ok he
  have htool : ((e.tools.get? i).getD {}).blockIndex = (t.get? (.tool i)).map (·.index) := by
    rw [hof.tool]
    cases t.get? (.tool i) <;> rfl
  have hdelta : ∀ j, (if arguments.isEmpty then [] else [AnthropicStreamEvent.blockDelta j (.inputJson arguments)]) =
      ((if arguments.isEmpty then none else some (BlockDelta.inputJson arguments)).map (.blockDelta j)).toList := by
    intro j
    cases arguments.isEmpty <;> rfl
  show Streams _ _ _ (of (_ ++ if arguments.isEmpty then [] else _)).blocks
  rw [hdelta]
  refine h.said hn hlt _ ?_ ?_ (by rw [htool, Option.isNone_map]) ?_ ?_
  · intro hs
    have hnone : e.tools.get? i = none := by
      rw [hof.tool, hs]
      rfl
    rw [Turn.piece_of_none hs, hnone]
    by_cases ha : arguments = "" <;>
      simp [ha, ReplyBlock.started, StreamBlock.take, Piece.shown, Piece.grow]
  · intro p _
    by_cases ha : arguments = "" <;> simp [ha, StreamBlock.take, Piece.shown, Piece.grow]
  · intro hs
    rw [htool, hs]
    exact hof.kept.next
  · rw [hof.kept.piece_index, htool]
    rfl

omit hn in
theorem streams_done (he : e.done X = .ok e') : Streams X e'.omitReasoning (t.step .done) (of e'.pending).blocks := by
  obtain ⟨-, rfl⟩ := done_ok he
  have hsigned := h.sign
  have hindex : e.reasoningIndex = (t.get? .reasoning).map (·.index) := hof.kept.reasoningIndex
  have hreasoning : e.reasoning = t.body .reasoning := hof.kept.reasoning
  show Streams _ _ _ (of (_ ++ _ ++ _)).blocks
  rw [of_append, of_append, Reassembly.stopped]
  cases hs : t.get? .reasoning with
  | none =>
    rw [hs] at hindex hsigned
    rw [hindex]
    exact hsigned
  | some p =>
    rw [hs] at hindex hsigned
    have hmem : p.index ∈ e.indices := by
      rw [indices, (List.perm_insertionSort _ _).mem_iff, hindex]
      simp
    have hbody : t.body .reasoning = p.body := by rw [Turn.body, hs]; rfl
    rw [hindex, hreasoning, hbody]
    show Streams _ _ _ (List.foldl step (if p.index ∈ e.indices then _ else _) _).blocks
    rw [if_pos hmem]
    exact hsigned

theorem streams_accept {event : GenerationEvent} (he : e.accept X event = .ok e')
    (hlt : (t.step event).rows.length < 2 ^ 32) :
    Streams X e'.omitReasoning (t.step event) (of e'.pending).blocks := by
  cases event with
  | reasoningDelta text => exact streams_reasoning h hof hn he hlt
  | textDelta text => exact streams_text h hof hn he hlt
  | toolCallDelta i callId name arguments => exact streams_tool h hof hn he hlt
  | finished reason =>
    cases he
    exact h
  | usage prompt completion =>
    cases he
    exact h
  | done => exact streams_done h hof he

theorem streams_run (he : e.run X events = .ok e') (hlt : (events.foldl Turn.step t).rows.length < 2 ^ 32) :
    Streams X e'.omitReasoning (events.foldl Turn.step t) (of e'.pending).blocks := by
  induction events generalizing e t with
  | nil =>
    cases he
    exact h
  | cons event events ih =>
    unfold run at he
    rw [List.foldlM_cons] at he
    obtain ⟨e1, h1, he⟩ := ok_bind he
    -- a turn that has room for its indices had it before
    have hroom : (t.step event).rows.length < 2 ^ 32 := Nat.lt_of_le_of_lt (Turn.length_le_run events) hlt
    exact ih (streams_accept h hof hn h1 hroom) (hof.accept h1) (hn.step event) he hlt

end

end AnthropicEncoder

end

/-! ## Both renderings of a turn -/

def Source.kind : Source → Nat
  | .reasoning => 0
  | .text => 1
  | .tool _ => 2

def ReplyBlock.kind : ReplyBlock → Nat
  | .thinking _ _ => 0
  | .text _ => 1
  | .toolUse _ _ _ => 2

def Piece.input (X : Crates) (p : Piece) : Value := (X.fromStr p.body).getD (.object [])

def Piece.streamed (X : Crates) (omitReasoning : Bool) : Source → Piece → ReplyBlock
  | .reasoning, p => .thinking (if omitReasoning then "" else p.body) (localReasoningSignature X p.body)
  | .text, p => .text p.body
  | .tool _, p => .toolUse p.firstId p.firstName (p.input X)

def Turn.tools (t : Turn) : List (UInt32 × Piece) := t.rows.filterMap fun r => r.1.toolIndex.map fun i => (i, r.2)

/-- The reasoning came first, then the text, then the calls; and the calls as they were announced, in the order
in which they appeared, are the calls as they ended, in the order of the engine's indices. -/
structure Turn.InOrder (X : Crates) (t : Turn) : Prop where
  kinds : t.rows.Pairwise fun a b => a.1.kind ≤ b.1.kind
  calls : t.tools.map (fun c => (c.2.firstId, c.2.firstName, c.2.input X)) =
    (t.tools.insertionSort fun a b => a.1.toNat ≤ b.1.toNat).map fun c => (c.2.callId, c.2.name, c.2.input X)

section
variable {X : Crates} {t : Turn}

theorem ReplyBlock.toValue_inj {b' : ReplyBlock} (h : b.toValue = b'.toValue) : b = b' := by
  cases b <;> cases b' <;> simp_all [ReplyBlock.toValue]

theorem Piece.streamed_kind (omitReasoning : Bool) (s : Source) (p : Piece) :
    (p.streamed X omitReasoning s).kind = s.kind := by
  cases s <;> rfl

theorem Turn.streamed_tools (omitReasoning : Bool) (rows : List (Source × Piece)) :
    (rows.filter fun r => r.1.toolIndex.isSome).map (fun r => r.2.streamed X omitReasoning r.1) =
      (rows.filterMap fun r => r.1.toolIndex.map fun i => (i, r.2)).map
        fun c => .toolUse c.2.firstId c.2.firstName (c.2.input X) := by
  induction rows with
  | nil => rfl
  | cons r rows ih =>
    obtain ⟨s, p⟩ := r
    cases s with
    | tool i => exact congrArg (List.cons _) ih
    | _ => exact ih

theorem Turn.rows_eq {rows : List (Source × Piece)} (h : rows.Pairwise fun a b => a.1.kind ≤ b.1.kind) :
    (rows.filter fun r => r.1 = .reasoning) ++ (rows.filter fun r => r.1 = .text) ++
      (rows.filter fun r => r.1.toolIndex.isSome) = rows := by
  induction rows with
  | nil => rfl
  | cons r rows ih =>
    rw [List.pairwise_cons] at h
    have ih := ih h.2
    obtain ⟨s, p⟩ := r
    have hnone : ∀ s', s'.kind < s.kind → (rows.filter fun r => r.1 = s') = [] := by
      intro s' hs'
      rw [List.filter_eq_nil_iff]
      intro r hr e
      have := h.1 r hr
      simp only [decide_eq_true_eq] at e
      rw [e] at this
      exact absurd hs' (Nat.not_lt.mpr this)
    cases s with
    | reasoning => simpa using ih
    | text =>
      rw [hnone .reasoning (by decide)] at ih
      simpa [hnone .reasoning (by decide)] using ih
    | tool i =>
      have hreasoning := hnone .reasoning (Nat.zero_lt_two)
      have htext := hnone .text (Nat.one_lt_two)
      rw [hreasoning, htext] at ih
      simp only [List.filter_cons, hreasoning, htext]
      exact congrArg (List.cons _) ih

variable {e : AnthropicEncoder}

theorem content_streamed (h : Streams X e.omitReasoning (t.step .done) (of e.pending).blocks)
    (hn : t.Numbered) (hlt : t.rows.length < 2 ^ 32) :
    (of e.pending).content X = t.rows.map fun r => r.2.streamed X e.omitReasoning r.1 := by
  have hrows : (of e.pending).blocks.rows = t.rows.map fun r => (r.2.index, r.2.sign.shown X e.omitReasoning r.1) := by
    rw [h]
    exact List.map_map
  have hsorted : (of e.pending).blocks.rows.Pairwise fun a b => id a.1 < id b.1 := by
    rw [hrows, List.pairwise_map]
    exact hn.sorted hlt
  unfold content Table.sorted
  rw [List.insertionSort_eq_of_perm (f := fun b : Nat × StreamBlock => id b.1) (.refl _) hsorted, hrows, List.map_map]
  refine List.map_congr_left fun r _ => ?_
  obtain ⟨s, p⟩ := r
  cases s <;> rfl

theorem content_final (h : e.Of t) : e.finalContent X =
    (t.rows.filter fun r => r.1 = .reasoning).map (fun r => r.2.streamed X e.omitReasoning r.1) ++
      (t.rows.filter fun r => r.1 = .text).map (fun r => r.2.streamed X e.omitReasoning r.1) ++
      (t.tools.insertionSort fun a b => a.1.toNat ≤ b.1.toNat).map
        fun c => .toolUse c.2.callId c.2.name (c.2.input X) := by
  have hreasoning : e.reasoning = t.body .reasoning := h.kept.reasoning
  have hreasoningIndex : e.reasoningIndex = (t.get? .reasoning).map (·.index) := h.kept.reasoningIndex
  have htext : e.text = t.body .text := h.kept.text
  have htextIndex : e.textIndex = (t.get? .text).map (·.index) := h.kept.textIndex
  have hrows : e.tools.rows = t.tools.map fun c => (c.1, call c.2) := by
    rw [h.tools, Turn.tools, List.map_filterMap]
    congr 1
    funext r
    cases r.1.toolIndex <;> rfl
  unfold finalContent
  rw [hreasoningIndex, htextIndex, hreasoning, htext, Table.filter_rows_eq, Table.filter_rows_eq]
  congr 1
  · congr 1
    · unfold Turn.body
      cases t.get? .reasoning <;> rfl
    · unfold Turn.body
      cases t.get? .text <;> rfl
  · have hsort : (e.tools.rows.insertionSort fun a b => a.1.toNat ≤ b.1.toNat) =
        (t.tools.insertionSort fun a b => a.1.toNat ≤ b.1.toNat).map fun c => (c.1, call c.2) := by
      rw [hrows]
      symm
      apply List.map_insertionSort
      exact fun _ _ _ _ => Iff.rfl
    unfold toolValues Table.sorted
    rw [hsort, List.map_map, List.map_map]
    rfl

theorem pairwise_kinds {reasoning text tools : List ReplyBlock} (hr : ∀ b ∈ reasoning, b.kind = 0)
    (ht : ∀ b ∈ text, b.kind = 1) (hc : ∀ b ∈ tools, b.kind = 2) :
    (reasoning ++ text ++ tools).Pairwise fun a b => a.kind ≤ b.kind := by
  have hall : ∀ {n : Nat} {blocks : List ReplyBlock}, (∀ b ∈ blocks, b.kind = n) →
      blocks.Pairwise fun a b => a.kind ≤ b.kind := by
    intro n blocks h
    refine List.pairwise_of_forall_mem_list fun a ha b hb => ?_
    rw [h a ha, h b hb]
  rw [List.pairwise_append, List.pairwise_append]
  refine ⟨⟨hall hr, hall ht, ?_⟩, hall hc, ?_⟩
  · intro a ha b hb
    rw [hr a ha, ht b hb]
    exact Nat.zero_le 1
  · intro a ha b hb
    rw [hc b hb]
    rcases List.mem_append.mp ha with ha | ha
    · rw [hr a ha]
      exact Nat.zero_le 2
    · rw [ht a ha]
      exact Nat.le_succ 1

theorem filtered_kind {omitReasoning : Bool}
    (hb : b ∈ (t.rows.filter fun r => r.1 = s).map fun r => r.2.streamed X omitReasoning r.1) : b.kind = s.kind := by
  obtain ⟨r, hr, rfl⟩ := List.mem_map.mp hb
  rw [Piece.streamed_kind, of_decide_eq_true (List.mem_filter.mp hr).2]

theorem content_agrees_iff (h : e.Of t) :
    e.finalContent X = t.rows.map (fun r => r.2.streamed X e.omitReasoning r.1) ↔ t.InOrder X := by
  rw [content_final h]
  have hcalls : t.tools.map (fun c => ReplyBlock.toolUse c.2.firstId c.2.firstName (c.2.input X)) =
      (t.tools.insertionSort fun a b => a.1.toNat ≤ b.1.toNat).map
        (fun c => .toolUse c.2.callId c.2.name (c.2.input X)) ↔
      t.tools.map (fun c => (c.2.firstId, c.2.firstName, c.2.input X)) =
        (t.tools.insertionSort fun a b => a.1.toNat ≤ b.1.toNat).map
          fun c => (c.2.callId, c.2.name, c.2.input X) := by
    have hinj : ∀ x y : String × String × Value,
        ReplyBlock.toolUse x.1 x.2.1 x.2.2 = .toolUse y.1 y.2.1 y.2.2 → x = y := by
      rintro ⟨_, _, _⟩ ⟨_, _, _⟩ h
      cases h
      rfl
    rw [← List.map_inj_right hinj, List.map_map, List.map_map]
    rfl
  constructor
  · intro heq
    have hkinds : t.rows.Pairwise fun a b => a.1.kind ≤ b.1.kind := by
      have hsorted : (t.rows.map fun r => r.2.streamed X e.omitReasoning r.1).Pairwise
          fun a b => a.kind ≤ b.kind := by
        rw [← heq]
        refine pairwise_kinds ?_ ?_ ?_
        · exact fun b hb => filtered_kind hb
        · exact fun b hb => filtered_kind hb
        · intro b hb
          obtain ⟨c, -, rfl⟩ := List.mem_map.mp hb
          rfl
      rw [List.pairwise_map] at hsorted
      simpa only [Piece.streamed_kind] using hsorted
    refine ⟨hkinds, hcalls.mp ?_⟩
    have hstream : t.rows.map (fun r => r.2.streamed X e.omitReasoning r.1) =
        (t.rows.filter fun r => r.1 = .reasoning).map (fun r => r.2.streamed X e.omitReasoning r.1) ++
          (t.rows.filter fun r => r.1 = .text).map (fun r => r.2.streamed X e.omitReasoning r.1) ++
          t.tools.map fun c => .toolUse c.2.firstId c.2.firstName (c.2.input X) := by
      rw [Turn.tools, ← Turn.streamed_tools e.omitReasoning, ← List.map_append, ← List.map_append, Turn.rows_eq hkinds]
    rw [hstream] at heq
    exact (List.append_cancel_left heq).symm
  · intro hin
    rw [← hcalls.mpr hin.calls, Turn.tools, ← Turn.streamed_tools e.omitReasoning, ← List.map_append,
      ← List.map_append, Turn.rows_eq hin.kinds]

/-- The blocks put together from the stream, the stop reason and the usage are those of the document if and only
if the turn appeared in the document's order. -/
theorem stream_agrees_iff (hX : X.fromStr "" = none) {id model : String} {omitReasoning : Bool}
    {events : List GenerationEvent}
    (hrun : (create id model omitReasoning).run X (events ++ [.done]) = .ok e) :
    ((e.finalDocument X).get "content" =
        some (.array (((of e.pending).content X).map ReplyBlock.toValue)) ∧
      (e.finalDocument X).get "stop_reason" = (of e.pending).stopReason.map .string ∧
      (e.finalDocument X).get "usage" = some (usageValue (of e.pending).usage)) ↔
      (Turn.of events).InOrder X := by
  obtain ⟨e₁, hrun₁, hdone⟩ := run_done hrun
  have hof : e₁.Of (Turn.of events) := (of_create id model omitReasoning).run hrun₁
  have hlt : (Turn.of events).rows.length < 2 ^ 32 := hof.length_lt hX hdone
  have hstreams := streams_run (X := X) (e := .create id model omitReasoning) (t := .empty) rfl
    (of_create id model omitReasoning) rfl hrun₁ hlt
  have hended : Streams X e.omitReasoning ((Turn.of events).step .done) (of e.pending).blocks :=
    streams_done hstreams hof hdone
  have hcontent := content_streamed hended (Turn.numbered_of events) hlt
  have hkept : e.Of (Turn.of events) := by
    obtain ⟨-, rfl⟩ := done_ok hdone
    exact ⟨hof.kept, hof.tools⟩
  have hend : (of e.pending).stopReason = some (anthropicStopReason e.finishReason) ∧
      (of e.pending).usage = e.usage := by
    obtain ⟨-, rfl⟩ := done_ok hdone
    show (of (_ ++ [_, _])).stopReason = _ ∧ (of (_ ++ [_, _])).usage = _
    rw [of_append]
    exact ⟨rfl, rfl⟩
  rw [← content_agrees_iff hkept, ← hcontent, hend.1, hend.2]
  refine ⟨fun h => ?_, fun h => ⟨?_, rfl, rfl⟩⟩
  · have hvalues := Value.array.inj (Option.some.inj h.1)
    exact (List.map_inj_right fun _ _ => ReplyBlock.toValue_inj).mp hvalues
  · rw [← h]
    rfl

end

/-- Text before reasoning is streamed in that order and documented in the other. -/
theorem text_before_reasoning : ∃ e,
    (create "u" "m" false).run hmCrates ([.textDelta "Hi", .reasoningDelta "Hm"] ++ [.done]) = .ok e ∧
      e.finalContent hmCrates = [.thinking "Hm" (localReasoningSignature hmCrates "Hm"), .text "Hi"] ∧
      (of e.pending).content hmCrates = [.text "Hi", .thinking "Hm" (localReasoningSignature hmCrates "Hm")] ∧
      (e.finalDocument hmCrates).get "content" ≠
        some (.array (((of e.pending).content hmCrates).map ReplyBlock.toValue)) := by
  refine ⟨_, rfl, rfl, rfl, fun h => ?_⟩
  have hvalues := (List.map_inj_right fun _ _ => ReplyBlock.toValue_inj).mp (Value.array.inj (Option.some.inj h))
  cases congrArg (List.map ReplyBlock.kind) hvalues

theorem reasoning_text_call_agrees : ∃ e,
    (create "u" "m" false).run hmCrates ([.reasoningDelta "Hm", .textDelta "Adding",
        .toolCallDelta 0 (some "t1") (some "add") "\x7b\x7d"] ++ [.done]) = .ok e ∧
      (e.finalDocument hmCrates).get "content" =
        some (.array (((of e.pending).content hmCrates).map ReplyBlock.toValue)) := by
  have hrun : ∃ e, (create "u" "m" false).run hmCrates ([.reasoningDelta "Hm", .textDelta "Adding",
        .toolCallDelta 0 (some "t1") (some "add") "\x7b\x7d"] ++ [.done]) = .ok e := ⟨_, rfl⟩
  obtain ⟨e, he⟩ := hrun
  have hkinds : (Turn.of [.reasoningDelta "Hm", .textDelta "Adding",
      .toolCallDelta 0 (some "t1") (some "add") "\x7b\x7d"]).rows.map (·.1.kind) = [0, 1, 2] := rfl
  have hin : (Turn.of [.reasoningDelta "Hm", .textDelta "Adding",
      .toolCallDelta 0 (some "t1") (some "add") "\x7b\x7d"]).InOrder hmCrates := by
    refine ⟨?_, rfl⟩
    rw [← List.pairwise_map (f := fun r : Source × Piece => r.1.kind) (R := (· ≤ ·)), hkinds]
    decide
  exact ⟨e, he, ((stream_agrees_iff (by decide +kernel) he).mpr hin).1⟩

end Sparkplane.Gateway
