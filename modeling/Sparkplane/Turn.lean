import Sparkplane.Encoders

/-!
# A turn

What an assistant says in one turn, apart from any protocol: its pieces in the
order in which they appeared. A piece is the reasoning, the text or a call
under the engine's index. Both encoders keep a turn, and nothing else of the
events; `index` is the place they give to a piece.
-/

namespace Sparkplane.Gateway

inductive Source where
  | reasoning
  | text
  | tool (index : UInt32)
  deriving DecidableEq

/-- `firstId` and `firstName` are what was said with the first delta of a call,
`signed` what the piece held when the turn was last done. -/
structure Piece where
  index : Nat
  firstId : String := ""
  firstName : String := ""
  callId : String := ""
  name : String := ""
  body : String := ""
  signed : Option String := none

abbrev Turn := Table Source Piece

/-- The place of the next piece. -/
def satU32 (n : Nat) : Nat := min n (2 ^ 32 - 1)

theorem succU32_satU32 (n : Nat) : succU32 (satU32 n) = satU32 (n + 1) := by
  unfold succU32 satU32
  omega

def Piece.grow (p : Piece) (callId name : Option String) (body : String) : Piece :=
  { p with callId := callId.getD p.callId, name := name.getD p.name, body := p.body ++ body }

def Piece.sign (p : Piece) : Piece := { p with signed := some p.body }

namespace Turn

def piece (t : Turn) (s : Source) (callId name : Option String) : Piece :=
  (t.get? s).getD { index := satU32 t.rows.length, firstId := callId.getD "", firstName := name.getD "" }

def say (t : Turn) (s : Source) (callId name : Option String) (body : String) : Turn :=
  t.upsert s ((t.piece s callId name).grow callId name body)

def step (t : Turn) : GenerationEvent → Turn
  | .reasoningDelta text => t.say .reasoning none none text
  | .textDelta text => t.say .text none none text
  | .toolCallDelta index callId name arguments => t.say (.tool index) callId name arguments
  | .usage _ _ | .finished _ => t
  | .done => t.update fun _ p => p.sign

def of (events : List GenerationEvent) : Turn := events.foldl step .empty

theorem of_append (events : List GenerationEvent) (event : GenerationEvent) :
    of (events ++ [event]) = (of events).step event := by
  unfold of
  rw [List.foldl_append]
  rfl

def body (t : Turn) (s : Source) : String := ((t.get? s).map (·.body)).getD ""

def bytes (t : Turn) : Nat := t.total (fun _ _ => true) (·.body.utf8ByteSize)

def Numbered (t : Turn) : Prop := t.rows.map (·.2.index) = (List.range t.rows.length).map satU32

section
variable {t : Turn} {s : Source} {callId name : Option String} {text : String}

theorem get?_say (s' : Source) : (t.say s callId name text).get? s' =
    if s' = s then some ((t.piece s callId name).grow callId name text) else t.get? s' := Table.get?_upsert ..

theorem get?_say_of_ne {s' : Source} (h : s' ≠ s) : (t.say s callId name text).get? s' = t.get? s' := by
  rw [get?_say, if_neg h]

theorem piece_of_some {p : Piece} (h : t.get? s = some p) : t.piece s callId name = p := by
  rw [piece, h]
  rfl

theorem piece_of_none (h : t.get? s = none) : t.piece s callId name =
    { index := satU32 t.rows.length, firstId := callId.getD "", firstName := name.getD "" } := by
  rw [piece, h]
  rfl

theorem piece_index : (t.piece s callId name).index = ((t.get? s).map (·.index)).getD (satU32 t.rows.length) := by
  unfold piece
  cases t.get? s <;> rfl

theorem body_say (s' : Source) : (t.say s callId name text).body s' =
    if s' = s then t.body s ++ text else t.body s' := by
  unfold body
  rw [get?_say]
  by_cases h : s' = s
  · subst h
    simp only [if_true, Option.map_some, Option.getD_some]
    unfold piece
    cases t.get? s' <;> rfl
  · simp [h]

theorem bytes_say : (t.say s callId name text).bytes = t.bytes + text.utf8ByteSize := by
  refine Table.total_upsert t s ?_ ?_
  · intro h
    rw [piece_of_none h]
    simp [Piece.grow]
  · intro p h
    rw [piece_of_some h]
    simp [Piece.grow]

theorem length_say : (t.say s callId name text).rows.length =
    if (t.get? s).isNone then t.rows.length + 1 else t.rows.length := by
  unfold say
  rw [Table.length_upsert]
  cases h : t.get? s with
  | none => rw [if_neg (Table.get?_eq_none.mp h)]; rfl
  | some p => rw [if_pos (Table.mem_keys_of_get? h)]; rfl

theorem Numbered.say (h : t.Numbered) : (t.say s callId name text).Numbered := by
  unfold Numbered at h ⊢
  cases hs : t.get? s with
  | none =>
    have hrows : (t.say s callId name text).rows = t.rows ++ [(s, (t.piece s callId name).grow callId name text)] :=
      Table.upsert_rows (Table.get?_eq_none.mp hs) _
    rw [hrows, List.map_append, h, List.length_append, List.length_singleton, List.range_succ, List.map_append,
      piece_of_none hs]
    rfl
  | some p =>
    have hrows : (t.say s callId name text).rows = t.rows.map fun x =>
        (x.1, if x.1 = s then (t.piece s callId name).grow callId name text else x.2) :=
      Table.upsert_rows_of_mem (Table.mem_keys_of_get? hs) _
    rw [hrows, List.map_map, List.length_map, ← h]
    refine List.map_congr_left fun x hx => ?_
    by_cases e : x.1 = s
    · have hp : x.2 = p := Option.some.inj ((Table.get?_eq_some.mpr (e ▸ hx)).symm.trans hs)
      simp [e, piece_of_some hs, Piece.grow, hp]
    · simp [e]

theorem Numbered.sign (h : t.Numbered) : Numbered (t.update fun _ p => p.sign) := by
  unfold Numbered at h ⊢
  unfold Table.update
  simp only [List.map_map, List.length_map]
  rw [← h]
  rfl

theorem Numbered.step (h : t.Numbered) (event : GenerationEvent) : (t.step event).Numbered := by
  cases event with
  | reasoningDelta text => exact h.say
  | textDelta text => exact h.say
  | toolCallDelta index callId name arguments => exact h.say
  | finished reason => exact h
  | usage prompt completion => exact h
  | done => exact h.sign

theorem numbered_of (events : List GenerationEvent) : (of events).Numbered := by
  have hrun : ∀ {events : List GenerationEvent} {t : Turn}, t.Numbered → (events.foldl step t).Numbered := by
    intro events
    induction events with
    | nil => exact id
    | cons event events ih => exact fun h => ih (h.step event)
  exact hrun rfl

theorem length_le_say : t.rows.length ≤ (t.say s callId name text).rows.length := by
  rw [length_say]
  split <;> omega

theorem length_le_step (event : GenerationEvent) : t.rows.length ≤ (t.step event).rows.length := by
  cases event with
  | finished reason => exact Nat.le_refl _
  | usage prompt completion => exact Nat.le_refl _
  | done => exact Nat.le_of_eq (List.length_map _).symm
  | _ => exact length_le_say

theorem length_le_run (events : List GenerationEvent) : t.rows.length ≤ (events.foldl step t).rows.length := by
  induction events generalizing t with
  | nil => exact Nat.le_refl _
  | cons event events ih => exact Nat.le_trans (length_le_step event) ih

end

end Turn

end Sparkplane.Gateway
