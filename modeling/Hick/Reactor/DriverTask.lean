import Hick.Lib.Runs
import Hick.Transmit

/-!
# The driver task and its channels (hick-reactor/src/driver/mod.rs:2706-2990)

The driver takes packets from the receive tasks and commands from the handles of the endpoint, makes
a pass, and parks on both channels and a timer.
-/

/-!
## A receive task (hick-reactor/src/driver/mod.rs:3057-3104, 3208-3395)

Each bound family has a task of its own that reads its socket and hands the datagrams to the driver.
A transient error is retried, a permanent one ends the task.
-/

namespace Hick

namespace Reactor

inductive RecvOutcome where
  | datagram
  | wouldBlock
  | unusable
  | transient
  | permanent
deriving DecidableEq

/-- Where a task stands: it waits for the socket, waits out a backoff, waits for room in the channel
to the driver, or has ended, on a permanent error or with the driver. -/
inductive TaskStatus where
  | receiving
  | backingOff
  | sending
  | failed
  | stopped
deriving DecidableEq

structure RecvTask where
  status : TaskStatus
  transientStreak : Nat
  deaf : Bool
deriving DecidableEq

def deafAfterConsecutiveTransientRecvErrors : Nat := 256

def saturatingSuccU32 (n : Nat) : Nat := min (n + 1) 4294967295

namespace RecvTask

def spawned : RecvTask := ⟨.receiving, 0, false⟩

def ended (t : RecvTask) : Bool := t.status == .failed || t.status == .stopped

def receive (t : RecvTask) : RecvOutcome → RecvTask
  | .datagram => { t with status := .sending, transientStreak := 0, deaf := false }
  | .wouldBlock => t
  | .unusable => t
  | .transient =>
    let streak := saturatingSuccU32 t.transientStreak
    { t with
      status := .backingOff
      transientStreak := streak
      deaf := t.deaf || decide (deafAfterConsecutiveTransientRecvErrors ≤ streak) }
  | .permanent => { t with status := .failed, deaf := true }

/-- What the flag of a task stands for, `n` being the transient errors since its last datagram. -/
structure Reports (t : RecvTask) (n : Nat) : Prop where
  streak : t.transientStreak = min n 4294967295
  flag : t.deaf = true ↔
    t.status = .failed ∨ deafAfterConsecutiveTransientRecvErrors ≤ n

theorem spawned_reports : spawned.Reports 0 where
  streak := rfl
  flag := by simp [spawned, deafAfterConsecutiveTransientRecvErrors]

def countTransient (n : Nat) : RecvOutcome → Nat
  | .datagram => 0
  | .transient => n + 1
  | _ => n

theorem Reports.receive (t : RecvTask) (n : Nat) (h : t.Reports n) (hrunning : t.status ≠ .failed)
    (o : RecvOutcome) : (t.receive o).Reports (countTransient n o) := by
  cases o with
  | datagram =>
    constructor
    · rfl
    · simp [RecvTask.receive, countTransient, deafAfterConsecutiveTransientRecvErrors]
  | wouldBlock => exact h
  | unusable => exact h
  | transient =>
    have hstreak : saturatingSuccU32 t.transientStreak = min (n + 1) 4294967295 := by
      rw [saturatingSuccU32, h.streak]
      omega
    constructor
    · exact hstreak
    · have hflag := h.flag
      simp only [RecvTask.receive, countTransient, hstreak, Bool.or_eq_true, decide_eq_true_eq,
        deafAfterConsecutiveTransientRecvErrors] at hflag ⊢
      constructor
      · intro hor
        right
        cases hor with
        | inl hdeaf =>
          cases hflag.mp hdeaf with
          | inl hfailed => exact absurd hfailed hrunning
          | inr hlong => omega
        | inr hlong => omega
      · intro hor
        right
        cases hor with
        | inl hfailed => cases hfailed
        | inr hlong => omega
  | permanent =>
    constructor
    · exact h.streak
    · simp [RecvTask.receive]

theorem Reports.move (t : RecvTask) (n : Nat) (h : t.Reports n) (status : TaskStatus)
    (hwas : t.status ≠ .failed) (hnext : status ≠ .failed) :
    ({ t with status := status } : RecvTask).Reports n where
  streak := h.streak
  flag := by
    have hflag := h.flag
    simp only [hwas, hnext, false_or] at hflag ⊢
    exact hflag

end RecvTask

end Reactor

end Hick

/-! ## The driver task and its channels -/

namespace Hick
open Runs

namespace Reactor

/-- What a registration comes to: its caller has the handle, the endpoint refused it, or the caller
was gone when the reply was sent. -/
inductive Registration where
  | replied
  | refused
  | abandoned
deriving DecidableEq

/-- A command of a handle: those that bear on which services there are, and the rest. -/
inductive Command (H : Type) where
  | registerService (h : H) (outcome : Registration)
  | unregisterService (h : H)
  | other
deriving DecidableEq

/-- Where the driver stands: at the top of its loop, in the awaits of a pass, in the `select!`, or
past the loop. -/
inductive Phase where
  | top
  | pass
  | parked
  | left
deriving DecidableEq

/-- `packets` are those buffered in the channel of the receive tasks, `commands` those buffered in
the other. `answered` lists the commands that were handled. -/
structure DriverTask (H : Type) where
  tasks : Family → Option RecvTask
  packets : Nat
  commands : List (Command H)
  senders : Nat
  phase : Phase
  services : List H
  withdrawn : List H
  answered : List (Command H)

def packetCapacity : Nat := 64

def commandDrainBudget : Nat := 8

namespace DriverTask
variable {H : Type} [DecidableEq H]

def withdraw (d : DriverTask H) (picks : H → Bool) : DriverTask H :=
  { d with
    services := d.services.filter fun h => !picks h
    withdrawn := d.withdrawn ++ d.services.filter picks }

def handleCommand (d : DriverTask H) (c : Command H) : DriverTask H :=
  let d := { d with answered := d.answered ++ [c] }
  match c with
  | .registerService h .replied => { d with services := d.services ++ [h] }
  | .registerService _ .refused => d
  | .registerService h .abandoned =>
    ({ d with services := d.services ++ [h] } : DriverTask H).withdraw (· == h)
  | .unregisterService h => d.withdraw (· == h)
  | .other => d

def leave (d : DriverTask H) : DriverTask H :=
  { d.withdraw fun _ => true with phase := .left }

def recvEnded (d : DriverTask H) : Bool :=
  (d.tasks .v4).all RecvTask.ended && (d.tasks .v6).all RecvTask.ended

def drainCommands : Nat → DriverTask H → DriverTask H
  | 0, d => { d with phase := .top }
  | fuel + 1, d =>
    match d.commands with
    | c :: rest => drainCommands fuel ({ d with commands := rest }.handleCommand c)
    | [] => if d.senders = 0 then d.leave else { d with phase := .top }

def endPass (d : DriverTask H) (causes : List H) (morePending : Bool) : DriverTask H :=
  let d := d.withdraw fun h => causes.contains h
  if morePending then drainCommands commandDrainBudget d else { d with phase := .parked }

/-- One poll of the `select_biased!`, whose arms are asked in their order: commands, packets, and the
timer. A closed channel is ready. -/
def wake (d : DriverTask H) (timer : Bool) : DriverTask H :=
  match d.commands with
  | c :: rest => { { d with commands := rest }.handleCommand c with phase := .top }
  | [] =>
    if d.senders = 0 then d.leave
    else if 0 < d.packets then { d with packets := d.packets - 1, phase := .top }
    else if d.recvEnded then d.leave
    else if timer then { d with phase := .top }
    else d

end DriverTask

inductive TaskCall (H : Type) where
  | receive (f : Family) (o : RecvOutcome)
  | retry (f : Family)
  | deliver (f : Family)
  | shutdown (f : Family)
  | send (c : Command H)
  | cloneSender
  | dropSender
  | startPass
  | endPass (causes : List H) (morePending : Bool)
  | wake (timer : Bool)

namespace DriverTask
variable {H : Type} [DecidableEq H]

def hasStatus (d : DriverTask H) (f : Family) (status : TaskStatus) : Prop :=
  ∃ t, d.tasks f = some t ∧ t.status = status

def updateTask (d : DriverTask H) (f : Family) (change : RecvTask → RecvTask) : DriverTask H :=
  { d with tasks := Function.update d.tasks f ((d.tasks f).map change) }

def Admits (d : DriverTask H) : TaskCall H → Prop
  | .receive f _ => d.hasStatus f .receiving
  | .retry f => d.hasStatus f .backingOff
  | .deliver f => d.hasStatus f .sending ∧ d.packets < packetCapacity ∧ d.phase ≠ .left
  | .shutdown f => d.phase = .left ∧ ∃ t, d.tasks f = some t ∧ t.ended = false
  | .send _ => 0 < d.senders
  | .cloneSender => 0 < d.senders
  | .dropSender => 0 < d.senders
  | .startPass => d.phase = .top
  | .endPass _ _ => d.phase = .pass
  | .wake _ => d.phase = .parked

def next (d : DriverTask H) : TaskCall H → DriverTask H
  | .receive f o => d.updateTask f (·.receive o)
  | .retry f => d.updateTask f ({ · with status := .receiving })
  | .deliver f =>
    { d.updateTask f ({ · with status := .receiving }) with packets := d.packets + 1 }
  | .shutdown f => d.updateTask f ({ · with status := .stopped })
  | .send c => { d with commands := d.commands ++ [c] }
  | .cloneSender => { d with senders := d.senders + 1 }
  | .dropSender => { d with senders := d.senders - 1 }
  | .startPass => { d with packets := 0, phase := .pass }
  | .endPass causes morePending => d.endPass causes morePending
  | .wake timer => d.wake timer

structure Spawned (d : DriverTask H) : Prop where
  tasks : ∀ f t, d.tasks f = some t → t = RecvTask.spawned
  bound : ∃ f t, d.tasks f = some t
  packets : d.packets = 0
  commands : d.commands = []
  senders : d.senders = 1
  phase : d.phase = .top
  services : d.services = []
  withdrawn : d.withdrawn = []
  answered : d.answered = []

def machine : Machine (DriverTask H) (TaskCall H) where
  start := Spawned
  admits := Admits
  next := next

def Hears (d : DriverTask H) : Prop := ∃ f t, d.tasks f = some t ∧ t.ended = false

end DriverTask

end Reactor

end Hick
