import CognitiveRuntime.Data.Fallible
import Mathlib.Data.List.AList

/-!
# The run store

The in-memory store of compiled runs behind the hosted tools: a dict of
records and a list of their ids from the least to the most recently
used. Expired records leave at every call. When the bound is exceeded,
the least recently used run of the principal that holds the most runs
leaves.

The clock and the source of run ids are read by the caller of each
operation here, and a clock reading is any value that can be compared
and added to. An operation that would raise out of the two structures
disagreeing returns that error.
-/

namespace CognitiveRuntime

open Fallible

/-- `RunNotFoundError`. -/
structure RunNotFoundError where
  message : String
  path : String
  deriving DecidableEq

/-- What the structures raise when they disagree. -/
inductive StoreFault
  /-- A dict has no such key. -/
  | keyError (key : String)
  /-- `max` of nothing, or `remove` of an absent value. -/
  | valueError
  /-- `next` on an exhausted iterator. -/
  | stopIteration
  deriving DecidableEq

structure RunRecord (Time Payload : Type) where
  runId : String
  principal : String
  createdAt : Time
  expiresAt : Time
  payload : Payload
  resourceUri : String

/-- The settings of a store. -/
structure StoreSettings (Time : Type) where
  maxEntries : Nat
  ttlSeconds : Time

/-- `_items` and `_order`. -/
structure RunStore (Time Payload : Type) where
  items : AList fun _ : String => RunRecord Time Payload
  order : List String

namespace RunStore

variable {Time Payload : Type}

def empty : RunStore Time Payload where
  items := ∅
  order := []

/-- The record under an id. -/
def itemAt (s : RunStore Time Payload) (rid : String) :
    Except StoreFault (RunRecord Time Payload) :=
  require (s.items.lookup rid) (.keyError rid)

/-- Take an id out of both structures. -/
def discard (s : RunStore Time Payload) (rid : String) : RunStore Time Payload where
  items := s.items.erase rid
  order := s.order.erase rid

/-- Put a record under an id, as the most recently used. -/
def insert (s : RunStore Time Payload) (rid : String) (record : RunRecord Time Payload) :
    RunStore Time Payload where
  items := s.items.insert rid record
  order := s.order ++ [rid]

/-- The ids whose records have expired. -/
def expiredIds [LE Time] [DecidableLE Time] (s : RunStore Time Payload) (now : Time) :
    List String :=
  (s.items.entries.filter fun entry => entry.2.expiresAt ≤ now).map Sigma.fst

/-- `_evict_locked`. -/
def evict [LE Time] [DecidableLE Time] (s : RunStore Time Payload) (now : Time) :
    RunStore Time Payload :=
  (s.expiredIds now).foldl discard s

/-- `_capacity_victim_locked`. The second scan reads the keys the first
one has read. -/
def capacityVictim (s : RunStore Time Payload) : Except StoreFault String := do
  let records ← s.order.mapM s.itemAt
  let owners := records.map RunRecord.principal
  let most ← require (owners.map fun p => owners.count p).max? .valueError
  require (s.order.find? fun rid =>
    (s.items.lookup rid).any fun record => decide (owners.count record.principal = most))
    .stopIteration

/-- The loop of `create`, one turn for each step of the count: a turn
takes an id out of the order, so its length is enough. -/
def makeRoom (maxEntries : Nat) : Nat → RunStore Time Payload →
    Except StoreFault (RunStore Time Payload)
  | 0, s => .ok s
  | turns + 1, s =>
      if maxEntries < s.order.length then do
        let old ← s.capacityVictim
        makeRoom maxEntries turns (s.discard old)
      else .ok s

variable [LE Time] [DecidableLE Time]

/-- The record `create` stores. -/
def newRecord [Add Time] (settings : StoreSettings Time) (principal : String)
    (payload : Payload) (rid : String) (now : Time) : RunRecord Time Payload where
  runId := rid
  principal := principal
  createdAt := now
  expiresAt := now + settings.ttlSeconds
  payload := payload
  resourceUri := "l9://runs/" ++ rid

/-- The store with the new record in it, before room is made. -/
def inserted [Add Time] (settings : StoreSettings Time) (s : RunStore Time Payload)
    (principal : String) (payload : Payload) (rid : String) (now : Time) :
    RunStore Time Payload :=
  (s.evict now).insert rid (newRecord settings principal payload rid now)

/-- `create`, with the id that was drawn. -/
def create [Add Time] (settings : StoreSettings Time) (s : RunStore Time Payload)
    (principal : String) (payload : Payload) (rid : String) (now : Time) :
    Except StoreFault (RunStore Time Payload × RunRecord Time Payload) := do
  let full := s.inserted settings principal payload rid now
  let bounded ← makeRoom settings.maxEntries full.order.length full
  .ok (bounded, newRecord settings principal payload rid now)

/-- `get`. -/
def get (s : RunStore Time Payload) (rid principal : String) (now : Time) :
    Except StoreFault (RunStore Time Payload × Option (RunRecord Time Payload)) :=
  let live := s.evict now
  match live.items.lookup rid with
  | none => .ok (live, none)
  | some record =>
      if record.principal ≠ principal then .ok (live, none)
      else if rid ∈ live.order then
        .ok ({ live with order := live.order.erase rid ++ [rid] }, some record)
      else .error .valueError

/-- `require`. -/
def requireRun (s : RunStore Time Payload) (rid principal : String) (now : Time) :
    Except StoreFault
      (RunStore Time Payload × Except RunNotFoundError (RunRecord Time Payload)) := do
  let (s, record) ← s.get rid principal now
  .ok (s, require record { message := "run not found", path := rid })

/-- `list_for_principal`. -/
def listForPrincipal (s : RunStore Time Payload) (principal : String) (now : Time) :
    Except StoreFault (RunStore Time Payload × List (RunRecord Time Payload)) := do
  let live := s.evict now
  let records ← live.order.mapM live.itemAt
  .ok (live, records.filter fun record => record.principal = principal)

end RunStore

/-! ## Histories -/

/-- A call, with the clock reading it takes and the id it draws. -/
inductive StoreCall (Time Payload : Type)
  | create (principal : String) (payload : Payload) (rid : String) (now : Time)
  | get (rid principal : String) (now : Time)
  | require (rid principal : String) (now : Time)
  | list (principal : String) (now : Time)

/-- What a call returns or raises to its caller. -/
inductive StoreReply (Time Payload : Type)
  | created (record : RunRecord Time Payload)
  | fetched (record : Option (RunRecord Time Payload))
  | required (outcome : Except RunNotFoundError (RunRecord Time Payload))
  | listed (records : List (RunRecord Time Payload))

section Histories

variable {Time Payload : Type} [LE Time] [DecidableLE Time] [Add Time]

def RunStore.step (settings : StoreSettings Time) (s : RunStore Time Payload) :
    StoreCall Time Payload → Except StoreFault (RunStore Time Payload × StoreReply Time Payload)
  | .create principal payload rid now => do
      let (s, record) ← s.create settings principal payload rid now
      .ok (s, .created record)
  | .get rid principal now => do
      let (s, record) ← s.get rid principal now
      .ok (s, .fetched record)
  | .require rid principal now => do
      let (s, outcome) ← s.requireRun rid principal now
      .ok (s, .required outcome)
  | .list principal now => do
      let (s, records) ← s.listForPrincipal principal now
      .ok (s, .listed records)

/-- Calls made one after the other, with their replies. -/
def RunStore.run (settings : StoreSettings Time) :
    List (StoreCall Time Payload) → RunStore Time Payload →
      Except StoreFault (RunStore Time Payload × List (StoreReply Time Payload))
  | [], s => .ok (s, [])
  | call :: rest, s => do
      let (s, reply) ← s.step settings call
      let (s, replies) ← RunStore.run settings rest s
      .ok (s, reply :: replies)

end Histories

end CognitiveRuntime
