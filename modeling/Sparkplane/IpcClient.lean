import Mathlib.Data.List.Basic

/-!
# Calls on one connection

`Client::call` sends its request and takes the next response of the stream. A
future that is dropped in between leaves its response there, and no one looks at
`request_id` afterwards.
-/

namespace Sparkplane.Ipc

variable {π β : Type}

abbrev Ulid := Nat

structure Request (π : Type) where
  requestId : Ulid
  content : π

structure Response (β : Type) where
  requestId : Ulid
  outcome : β

/-- A future of `Client::call`: its options, what `Ulid::new` draws, what the server makes of the
request, and whether the future is dropped once the request is sent. -/
structure Call (π β : Type) where
  requestId : Option Ulid
  fresh : Ulid
  content : π
  outcome : β
  dropped : Bool

def buildRequest (c : Call π β) : Request π := ⟨c.requestId.getD c.fresh, c.content⟩

/-- The responses that no call has read, the oldest first. -/
abbrev Client (β : Type) := List (Response β)

def Client.call (client : Client β) (c : Call π β) : Option (Response β) × Client β :=
  -- the server answers in order, with the request's id
  let unread := client ++ [⟨(buildRequest c).requestId, c.outcome⟩]
  if c.dropped then (none, unread) else (unread.head?, unread.tail)

def returns : Client β → List (Call π β) → List (Call π β × Option (Response β))
  | _, [] => []
  | client, c :: calls => (c, (client.call c).1) :: returns (client.call c).2 calls

def sentIds (calls : List (Call π β)) : List Ulid := calls.map fun c => (buildRequest c).requestId

def awaited (calls : List (Call π β)) : List (Call π β) := calls.filter fun c => !c.dropped

def OwnResponses (client : Client β) (calls : List (Call π β)) : Prop :=
  ∀ c r, (c, some r) ∈ returns client calls → r.requestId = (buildRequest c).requestId

theorem ownResponses_iff_sent (client : Client β) (calls : List (Call π β)) :
    OwnResponses client calls ↔ sentIds (awaited calls) <+: client.map Response.requestId ++ sentIds calls := by
  induction calls generalizing client with
  | nil => simp [OwnResponses, returns, sentIds, awaited]
  | cons c calls ih =>
    have hsplit : OwnResponses client (c :: calls) ↔
        (∀ r, (client.call c).1 = some r → r.requestId = (buildRequest c).requestId) ∧
          OwnResponses (client.call c).2 calls := by
      simp only [OwnResponses, returns, List.mem_cons, Prod.mk.injEq]
      constructor
      · intro h
        exact ⟨fun r hr => h c r (.inl ⟨rfl, hr.symm⟩), fun d r hd => h d r (.inr hd)⟩
      · intro h d r hd
        rcases hd with ⟨rfl, hr⟩ | hd
        · exact h.1 r hr.symm
        · exact h.2 d r hd
    rw [hsplit, ih]
    by_cases hdrop : c.dropped = true
    · simp [Client.call, hdrop, awaited, sentIds]
    · cases client with
      | nil => simp [Client.call, hdrop, awaited, sentIds]
      | cons r client => simp [Client.call, hdrop, awaited, sentIds, List.cons_prefix_cons, eq_comm]

theorem own_responses_iff (calls : List (Call π β)) :
    OwnResponses [] calls ↔ sentIds (awaited calls) <+: sentIds calls := by
  rw [ownResponses_iff_sent, List.map_nil, List.nil_append]

def firstDropped : List (Call Unit Unit) := [⟨some 1, 0, (), (), true⟩, ⟨some 2, 0, (), (), false⟩]

theorem dropped_response_returned :
    ∃ c r, (c, some r) ∈ returns [] firstDropped ∧ r.requestId = 1 ∧ (buildRequest c).requestId = 2 :=
  ⟨_, _, .tail _ (.head _), rfl, rfl⟩

end Sparkplane.Ipc
