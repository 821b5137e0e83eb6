import Hick.Endpoint.Withdrawal
import Hick.Lib.EvictingQueue
import Hick.Lib.Runs
import Hick.Query.State

/-!
# The event queue of the driver (hick-mio/src/event.rs, hick-mio/src/discovery.rs:63-300)

Every signal of the driver goes through one queue.
-/

namespace Hick
open Octets Wire EvictingQueue Runs

structure LookupHandle where
  key : Nat
  generation : UInt64
  deriving DecidableEq

structure ServiceEntry where
  instance_ : Name
  host : Name
  port : UInt16
  ipv4 : List Ipv4Addr
  ipv6 : List Ipv6Addr
  txt : List Bytes
  deriving DecidableEq

inductive Event where
  | service (handle : ServiceHandle) (update : ServiceUpdate)
  | queryAnswer (handle : QueryHandle) (answer : CollectedAnswer)
  | queryTerminal (handle : QueryHandle) (update : QueryUpdate)
  | lookup (handle : LookupHandle) (entry : ServiceEntry)
  | lookupDone (handle : LookupHandle)
  deriving DecidableEq

structure AnswerKey where
  handle : QueryHandle
  rtype : ResourceType
  rclass : ResourceClass
  rdataKey : Bytes
  deriving DecidableEq

inductive Slot where
  | answer (key : AnswerKey) (generation : UInt64)
  | terminal (event : Event)
  deriving DecidableEq

structure LiveAnswer where
  generation : UInt64
  answer : CollectedAnswer
  deriving DecidableEq

structure EventQueue where
  queue : List Slot
  live : AList fun _ : AnswerKey => LiveAnswer
  order : List AnswerKey
  dropped : UInt64
  nextGeneration : UInt64

namespace EventQueue

def answerCapacity : Nat := 1024

def new : EventQueue := ⟨[], ∅, [], 0, 0⟩

def keyOf (handle : QueryHandle) (answer : CollectedAnswer) : AnswerKey :=
  ⟨handle, answer.rtype, answer.rclass, answer.key⟩

def evictOldest (q : EventQueue) : EventQueue :=
  if answerCapacity ≤ q.live.keys.length then
    match q.order with
    | victim :: order =>
      { q with
        order := order
        live := q.live.erase victim
        dropped := saturatingSucc64 q.dropped }
    | [] => q
  else q

def pushAnswer (q : EventQueue) (handle : QueryHandle) (answer : CollectedAnswer) : EventQueue :=
  let key := keyOf handle answer
  match q.live.lookup key with
  | some existing => { q with live := q.live.insert key { existing with answer := answer } }
  | none =>
    let q := q.evictOldest
    let generation := q.nextGeneration
    { q with
      nextGeneration := generation + 1
      order := q.order ++ [key]
      queue := q.queue ++ [.answer key generation]
      live := q.live.insert key ⟨generation, answer⟩ }

def pushTerminal (q : EventQueue) (event : Event) : EventQueue :=
  { q with queue := q.queue ++ [.terminal event] }

def popFrom (q : EventQueue) : List Slot → Option Event × EventQueue
  | [] => (none, { q with queue := [] })
  | .terminal event :: rest => (some event, { q with queue := rest })
  | .answer key generation :: rest =>
    match q.live.lookup key with
    | some live =>
      let removed := q.live.erase key
      if live.generation = generation then
        (some (.queryAnswer key.handle live.answer),
          { q with
            queue := rest
            order := q.order.tail
            live := removed })
      else popFrom { q with live := removed.insert key live } rest
    | none => popFrom q rest

def pop (q : EventQueue) : Option Event × EventQueue := q.popFrom q.queue

def recordDropped (q : EventQueue) (n : UInt64) : EventQueue :=
  { q with dropped := if q.dropped.toNat + n.toNat < 2 ^ 64 then q.dropped + n else -1 }

def physicalLen (q : EventQueue) : Nat := q.queue.length

def isCurrent (q : EventQueue) : Slot → Bool
  | .answer key generation => (q.live.lookup key).any fun live => live.generation = generation
  | .terminal _ => true

def compact (q : EventQueue) : EventQueue := { q with queue := q.queue.filter q.isCurrent }

inductive Call where
  | pushAnswer (handle : QueryHandle) (answer : CollectedAnswer)
  | pushTerminal (event : Event)
  | pop
  | compact

def next (q : EventQueue) : Call → EventQueue
  | .pushAnswer handle answer => q.pushAnswer handle answer
  | .pushTerminal event => q.pushTerminal event
  | .pop => q.pop.2
  | .compact => q.compact

/-- A push needs room for one more slot: the length of the queue is a `usize`. -/
def fits (q : EventQueue) : Call → Prop
  | .pushAnswer _ _ | .pushTerminal _ => q.physicalLen + 1 < 2 ^ 64
  | .pop | .compact => True

def machine : Machine EventQueue Call where
  start q := q = new
  admits := fits
  next := next

end EventQueue
end Hick
