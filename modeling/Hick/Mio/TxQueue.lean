import Hick.Mio.EventQueue

/-!
# The transmit queue of the driver (hick-mio/src/driver.rs:1078-1130, 1560-1768)

Every sender carries a sequence, and the queue is the senders by ascending sequence. A sender is
given a fresh sequence when it joins and at each turn it is offered.
-/

namespace Hick
open Runs

def maxSendCreditsPerDrain : Nat := 64

structure TxQueue where
  nextSeq : UInt64
  deriving DecidableEq

namespace TxQueue

def new : TxQueue := ⟨0⟩

def join (q : TxQueue) : UInt64 × TxQueue := (q.nextSeq, ⟨saturatingSucc64 q.nextSeq⟩)

end TxQueue

structure TxSchedule where
  len : Nat
  visited : Nat
  credits : Nat
  capped : Bool
  deriving DecidableEq

namespace TxSchedule

def new (len credits : Nat) : TxSchedule := ⟨len, 0, credits, false⟩

def nextSlot (s : TxSchedule) : Option (Nat × Nat) :=
  if s.credits = 0 ∨ s.len ≤ s.visited then none
  else
    let remaining := s.len - s.visited
    some (s.visited, min (max (s.credits / max remaining 1) 1) s.credits)

def charge (s : TxSchedule) (spent : Nat) (capped : Bool) : TxSchedule :=
  { s with
    credits := s.credits - spent
    visited := s.visited + 1
    capped := s.capped || capped }

def leftWorkBehind (s : TxSchedule) : Bool := s.credits == 0 || s.capped

end TxSchedule

section
variable {T σ : Type}

namespace TxQueue

/-- The loop of `serve`, over the senders of the queue that are left. `visit` is given the sender,
its quantum and its fresh sequence, and says what was spent and whether the quantum cut it off. -/
def serveFrom (visit : σ → T → Nat → UInt64 → σ × Nat × Bool) :
    List (UInt64 × T) → TxSchedule → TxQueue → σ → σ × TxQueue × TxSchedule
  | [], sched, q, s => (s, q, sched)
  | (_, slot) :: rest, sched, q, s =>
    match sched.nextSlot with
    | none => (s, q, sched)
    | some (_, quantum) =>
      let (seq, q) := q.join
      let (s, spent, capped) := visit s slot quantum seq
      serveFrom visit rest (sched.charge spent capped) q s

def sorted (queue : List (UInt64 × T)) : List (UInt64 × T) :=
  queue.mergeSort fun a b => decide (a.1 ≤ b.1)

def serve (q : TxQueue) (queue : List (UInt64 × T)) (credits : Nat)
    (visit : σ → T → Nat → UInt64 → σ × Nat × Bool) (s : σ) : σ × TxQueue × Bool :=
  let (s, q, sched) := serveFrom visit (sorted queue) (TxSchedule.new queue.length credits) q s
  (s, q, sched.leftWorkBehind)

theorem serveFrom_keeps (P : σ → Prop) (visit : σ → T → Nat → UInt64 → σ × Nat × Bool)
    (hvisit : ∀ s slot quantum seq, P s → P (visit s slot quantum seq).1)
    (queue : List (UInt64 × T)) (sched : TxSchedule) (q : TxQueue) (s : σ) (h : P s) :
    P (serveFrom visit queue sched q s).1 := by
  induction queue generalizing sched q s with
  | nil => exact h
  | cons entry rest ih =>
    rw [serveFrom]
    cases sched.nextSlot with
    | none => exact h
    | some slot => exact ih _ _ _ (hvisit s entry.2 slot.2 q.join.1 h)

end TxQueue

structure Turn (T : Type) where
  sender : T
  quantum : Nat
  spent : Nat
  capped : Bool

/-- The senders with their sequences: the `tx_seq` of the services and queries of the driver. -/
structure Senders (T : Type) where
  queue : TxQueue
  live : List (UInt64 × T)

inductive TxCall (T : Type) where
  | join (sender : T)
  | leave (sender : T)
  /-- A tick lists the senders in the order `listed`; a sender that is offered a quantum spends
  what `spend` says, and may be cut off. -/
  | tick (listed : List (UInt64 × T)) (spend : T → Nat → Nat × Bool)

namespace Senders
variable [DecidableEq T]

def reseat (sender : T) (seq : UInt64) (live : List (UInt64 × T)) : List (UInt64 × T) :=
  live.map fun e => if e.2 = sender then (seq, e.2) else e

def visit (spend : T → Nat → Nat × Bool) (s : List (UInt64 × T) × List (Turn T)) (sender : T)
    (quantum : Nat) (seq : UInt64) : (List (UInt64 × T) × List (Turn T)) × Nat × Bool :=
  let (spent, capped) := spend sender quantum
  ((reseat sender seq s.1, s.2 ++ [⟨sender, quantum, spent, capped⟩]), spent, capped)

def serveTick (s : Senders T) (listed : List (UInt64 × T)) (spend : T → Nat → Nat × Bool) :
    (List (UInt64 × T) × List (Turn T)) × TxQueue × Bool :=
  s.queue.serve listed maxSendCreditsPerDrain (visit spend) (s.live, [])

def next (s : Senders T) : TxCall T → Senders T
  | .join sender => ⟨s.queue.join.2, s.live ++ [(s.queue.join.1, sender)]⟩
  | .leave sender => { s with live := s.live.filter fun e => e.2 ≠ sender }
  | .tick listed spend => ⟨(s.serveTick listed spend).2.1, (s.serveTick listed spend).1.1⟩

/-- A sender joins once; a tick lists every sender, in any order; a visit spends at most its
quantum. -/
def admits (s : Senders T) : TxCall T → Prop
  | .join sender => sender ∉ s.live.map Prod.snd
  | .leave _ => True
  | .tick listed spend => listed.Perm s.live ∧ ∀ sender quantum, (spend sender quantum).1 ≤ quantum

def machine : Machine (Senders T) (TxCall T) where
  start s := s = ⟨.new, []⟩
  admits := admits
  next := next

def turns (tr : Transition (Senders T) (TxCall T)) : List (Turn T) :=
  match tr.call with
  | .tick listed spend => (tr.pre.serveTick listed spend).1.2
  | _ => []

def leftWork (tr : Transition (Senders T) (TxCall T)) : Bool :=
  match tr.call with
  | .tick listed spend => (tr.pre.serveTick listed spend).2.2
  | _ => false

def isTick (tr : Transition (Senders T) (TxCall T)) : Bool :=
  match tr.call with
  | .tick _ _ => true
  | _ => false

def offered (tr : Transition (Senders T) (TxCall T)) (sender : T) : Prop :=
  sender ∈ (turns tr).map Turn.sender

def ahead (seq : UInt64) (live : List (UInt64 × T)) : Nat :=
  (live.filter fun e => decide (e.1 < seq)).length

theorem share_leaves (credits remaining spent : Nat) (hr : 0 < remaining) (hc : 0 < credits)
    (hspent : spent ≤ min (max (credits / max remaining 1) 1) credits) :
    spent ≤ credits ∧ min (remaining - 1) (credits - 1) ≤ credits - spent := by
  have hmax : max remaining 1 = remaining := Nat.max_eq_left hr
  rw [hmax] at hspent
  have hle : spent ≤ credits := le_trans hspent (Nat.min_le_right _ _)
  refine ⟨hle, ?_⟩
  have hshare : spent ≤ max (credits / remaining) 1 := le_trans hspent (Nat.min_le_left _ _)
  by_cases hmany : credits / remaining ≤ 1
  · rw [Nat.max_eq_right hmany] at hshare
    omega
  · have hone : 1 ≤ credits / remaining := by omega
    rw [Nat.max_eq_left hone] at hshare
    have hdiv := Nat.div_mul_le_self credits remaining
    -- the other senders keep at least one credit each
    have hrest : credits / remaining * remaining =
        credits / remaining + credits / remaining * (remaining - 1) := by
      obtain ⟨r, rfl⟩ := Nat.exists_eq_succ_of_ne_zero (Nat.pos_iff_ne_zero.mp hr)
      rw [Nat.succ_sub_one, Nat.mul_succ, Nat.add_comm]
    have hkeep : remaining - 1 ≤ credits / remaining * (remaining - 1) :=
      Nat.le_mul_of_pos_left _ hone
    omega

/-- What the loop does: it offers their turns to the first `k` senders, and stops at the end of the
queue or of the budget. -/
structure Walk (spend : T → Nat → Nat × Bool) (rest : List (UInt64 × T)) (sched : TxSchedule)
    (taken : List (Turn T)) (sched' : TxSchedule) : Prop where
  senders : taken.map Turn.sender = (rest.take taken.length).map Prod.snd
  few : taken.length ≤ rest.length
  many : min rest.length sched.credits ≤ taken.length
  spent : (taken.map Turn.spent).sum + sched'.credits = sched.credits
  shares : ∀ turn ∈ taken, 0 < turn.quantum ∧ spend turn.sender turn.quantum =
    (turn.spent, turn.capped)
  capped : sched'.capped = (sched.capped || taken.any Turn.capped)
  stops : sched'.credits = 0 ∨ taken.length = rest.length

theorem serveFrom_walk (spend : T → Nat → Nat × Bool)
    (hspend : ∀ sender quantum, (spend sender quantum).1 ≤ quantum) (rest : List (UInt64 × T))
    (sched : TxSchedule) (hlen : sched.len - sched.visited = rest.length) (q : TxQueue)
    (s : List (UInt64 × T) × List (Turn T)) :
    ∃ taken, (TxQueue.serveFrom (visit spend) rest sched q s).1.2 = s.2 ++ taken ∧
      Walk spend rest sched taken (TxQueue.serveFrom (visit spend) rest sched q s).2.2 := by
  induction rest generalizing sched q s with
  | nil =>
    refine ⟨[], (List.append_nil _).symm, rfl, Nat.le_refl 0, ?_, ?_, nofun, ?_, Or.inr rfl⟩
    · simp
    · simp [TxQueue.serveFrom]
    · simp [TxQueue.serveFrom]
  | cons entry rest ih =>
    obtain ⟨seq, sender⟩ := entry
    rw [List.length_cons] at hlen
    rw [TxQueue.serveFrom]
    by_cases hbroke : sched.credits = 0
    · have hstop : sched.nextSlot = none := by rw [TxSchedule.nextSlot, if_pos (Or.inl hbroke)]
      rw [hstop]
      refine ⟨[], (List.append_nil _).symm, rfl, Nat.zero_le _, ?_, ?_, nofun, ?_, Or.inl hbroke⟩
      · rw [hbroke, Nat.min_zero, List.length_nil]
      · simp
      · simp
    · have hnext : sched.nextSlot = some (sched.visited,
          min (max (sched.credits / max (rest.length + 1) 1) 1) sched.credits) := by
        rw [TxSchedule.nextSlot, if_neg (by omega), hlen]
      rw [hnext]
      simp only [visit, TxQueue.join]
      generalize hquantum :
        min (max (sched.credits / max (rest.length + 1) 1) 1) sched.credits = quantum
      have hspent := hspend sender quantum
      obtain ⟨hle, hleaves⟩ := share_leaves sched.credits (rest.length + 1) (spend sender quantum).1
        (Nat.succ_pos _) (Nat.pos_of_ne_zero hbroke) (by rw [hquantum]; exact hspent)
      obtain ⟨taken, hturns, hwalk⟩ := ih
        (sched.charge (spend sender quantum).1 (spend sender quantum).2)
        (by rw [TxSchedule.charge]; simp only; omega) ⟨saturatingSucc64 q.nextSeq⟩
        (reseat sender q.nextSeq s.1,
          s.2 ++ [⟨sender, quantum, (spend sender quantum).1, (spend sender quantum).2⟩])
      refine ⟨⟨sender, quantum, (spend sender quantum).1, (spend sender quantum).2⟩ :: taken, ?_, ?_⟩
      · rw [hturns, List.append_assoc]
        rfl
      · have hfew := hwalk.few
        have hmany : min rest.length (sched.credits - (spend sender quantum).1) ≤ taken.length :=
          hwalk.many
        have hsum := hwalk.spent
        have hcharged : (sched.charge (spend sender quantum).1 (spend sender quantum).2).credits =
          sched.credits - (spend sender quantum).1 := rfl
        rw [hcharged] at hsum
        refine ⟨?_, ?_, ?_, ?_, ?_, ?_, ?_⟩
        · rw [List.map_cons, List.length_cons, List.take_succ_cons, List.map_cons, hwalk.senders]
        · rw [List.length_cons, List.length_cons]
          omega
        · rw [List.length_cons, List.length_cons]
          omega
        · rw [List.map_cons, List.sum_cons]
          simp only
          omega
        · intro turn hturn
          rcases List.mem_cons.mp hturn with rfl | hrest
          · refine ⟨?_, rfl⟩
            rw [← hquantum]
            simp only
            omega
          · exact hwalk.shares turn hrest
        · rw [hwalk.capped, List.any_cons, ← Bool.or_assoc]
          rfl
        · rw [List.length_cons, List.length_cons]
          rcases hwalk.stops with hbroke' | hend
          · exact Or.inl hbroke'
          · exact Or.inr (congrArg (· + 1) hend)

end Senders
end
end Hick
