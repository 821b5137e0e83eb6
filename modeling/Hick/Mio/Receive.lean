import Hick.Lib.Runs
import Hick.Lib.Unfolding
import Hick.Transmit

/-!
# Receiving on two sockets (hick-mio/src/socket.rs:80-110, 211-239, 836-846, 1060-1075, 1467-1736,
hick-mio/src/driver.rs:249, 514, 619-672)

An edge is told once. What it announced is kept as a flag until the kernel says that there is
nothing more, and a socket whose reads fail is left alone for a round and comes back in the next.
-/

namespace Hick
open Runs Unfolding

def Family.other : Family → Family
  | v4 => v6
  | v6 => v4

namespace Mio

def maxDiscardedPerRecv : Nat := 64

def maxRecvErrorsPerRound : Nat := 4

def recvBudget : Nat := 64

def saturatingSuccU32 (n : Nat) : Nat := min (n + 1) 4294967295

/-- How a read ends: with a datagram, or with an error of one of these kinds. -/
inductive ReadOutcome where
  | datagram
  | wouldBlock
  | interrupted
  | unusable
  | transient
  | permanent
  deriving DecidableEq

structure BoundSocket where
  readable : Bool
  recvErrorStreak : Nat
  recvErrorRounds : Nat
  recvDead : Bool
  deriving DecidableEq

namespace BoundSocket

def new : BoundSocket := ⟨false, 0, 0, false⟩

def recvSelectable (b : BoundSocket) : Bool :=
  b.readable && !b.recvDead && decide (b.recvErrorStreak < maxRecvErrorsPerRound)

def noteRecvProgress (b : BoundSocket) : BoundSocket :=
  { b with
    recvErrorStreak := 0
    recvErrorRounds := 0 }

def stopReading (b : BoundSocket) : BoundSocket :=
  { b with readable := false }.noteRecvProgress

def answered (b : BoundSocket) : ReadOutcome → BoundSocket
  | .datagram => b.noteRecvProgress
  | .wouldBlock => b.stopReading
  | .interrupted | .unusable => b
  | .permanent =>
    { b with
      recvDead := true
      readable := false
      recvErrorStreak := 0
      recvErrorRounds := 0 }
  | .transient => { b with recvErrorStreak := saturatingSuccU32 b.recvErrorStreak }

def beginRecvRound (b : BoundSocket) : BoundSocket :=
  if b.recvDead then b
  else
    { b with
      recvErrorRounds :=
        if maxRecvErrorsPerRound ≤ b.recvErrorStreak then saturatingSuccU32 b.recvErrorRounds
        else b.recvErrorRounds
      recvErrorStreak := 0 }

end BoundSocket

structure Sockets where
  v4 : Option BoundSocket
  v6 : Option BoundSocket
  recvRotor : Family
  deriving DecidableEq

inductive RecvStep where
  | datagram
  | retry
  | idle
  deriving DecidableEq

namespace Sockets

def new (v4 v6 : Bool) : Sockets :=
  ⟨if v4 then some .new else none, if v6 then some .new else none, .v4⟩

def get (s : Sockets) : Family → Option BoundSocket
  | .v4 => s.v4
  | .v6 => s.v6

def modify (s : Sockets) (f : Family) (g : BoundSocket → BoundSocket) : Sockets :=
  match f with
  | .v4 => { s with v4 := s.v4.map g }
  | .v6 => { s with v6 := s.v6.map g }

def families (s : Sockets) : List BoundSocket := s.v4.toList ++ s.v6.toList

def noteReadiness (s : Sockets) (f : Family) : Sockets :=
  s.modify f fun b => { b with readable := true }

def hasReadable (s : Sockets) : Bool := s.families.any BoundSocket.recvSelectable

def beginRecvRound (s : Sockets) : Sockets :=
  { s with
    v4 := s.v4.map BoundSocket.beginRecvRound
    v6 := s.v6.map BoundSocket.beginRecvRound }

def recvErrorBackoffLevel (s : Sockets) : Nat :=
  ((s.families.filter fun b => decide (maxRecvErrorsPerRound ≤ b.recvErrorStreak)).map
    fun b => saturatingSuccU32 b.recvErrorRounds).max?.getD 0

def selectable (s : Sockets) (f : Family) : Bool := (s.get f).any BoundSocket.recvSelectable

def pick (s : Sockets) : Option Family :=
  if s.selectable s.recvRotor then some s.recvRotor
  else if s.selectable s.recvRotor.other then some s.recvRotor.other
  else none

def recvOnce (s : Sockets) (answer : ReadOutcome) (discarded : Nat) : Sockets × Nat × RecvStep :=
  match s.pick with
  | none => (s, discarded, .idle)
  | some family =>
    let s := { s with recvRotor := family.other }.modify family fun b => b.answered answer
    match answer with
    | .datagram => (s, discarded, .datagram)
    | .wouldBlock | .permanent => (s, discarded, .retry)
    | .interrupted | .unusable | .transient =>
      (s, discarded + 1, if maxDiscardedPerRecv ≤ discarded + 1 then .idle else .retry)

end Sockets

/-- The loops of `drain_recv`: how many datagrams it may still take, what it discarded since the
last one, and how the reads to come are answered. -/
structure Drain where
  sockets : Sockets
  left : Nat
  discarded : Nat
  answers : Nat → ReadOutcome

structure Read where
  sockets : Sockets
  family : Family
  outcome : ReadOutcome
  deriving DecidableEq

namespace Drain

def step (d : Drain) : Option (Read × Drain) :=
  if d.left = 0 then none
  else
    match d.sockets.pick with
    | none => none
    | some family =>
      let answer := d.answers 0
      let (sockets, discarded, result) := d.sockets.recvOnce answer d.discarded
      some (⟨d.sockets, family, answer⟩,
        { sockets := sockets
          left :=
            match result with
            | .datagram => d.left - 1
            | .retry => d.left
            | .idle => 0
          discarded :=
            match result with
            | .datagram => 0
            | .retry | .idle => discarded
          answers := fun n => d.answers (n + 1) })

end Drain

def ReadOutcome.clears : ReadOutcome → Bool
  | wouldBlock | permanent => true
  | datagram | interrupted | unusable | transient => false

def ReadOutcome.discards : ReadOutcome → Bool
  | interrupted | unusable | transient => true
  | datagram | wouldBlock | permanent => false

namespace Sockets

def readable (s : Sockets) (f : Family) : Bool := (s.get f).any BoundSocket.readable

def readableCount (s : Sockets) : Nat := (s.readable .v4).toNat + (s.readable .v6).toNat

variable (s : Sockets) (f : Family)

theorem get_modify (f h : Family) (g : BoundSocket → BoundSocket) :
    (s.modify f g).get h = if h = f then (s.get h).map g else s.get h := by
  cases f <;> cases h <;> rfl

theorem modify_rotor (g : BoundSocket → BoundSocket) :
    (s.modify f g).recvRotor = s.recvRotor := by
  cases f <;> rfl

def after (s : Sockets) (f : Family) (answer : ReadOutcome) : Sockets :=
  { s with recvRotor := f.other }.modify f fun b => b.answered answer

theorem get_after (f h : Family) (answer : ReadOutcome) :
    (s.after f answer).get h = if h = f then (s.get h).map (fun b => b.answered answer)
      else s.get h := by
  unfold after
  rw [get_modify]
  cases h <;> rfl

theorem after_rotor (answer : ReadOutcome) :
    (s.after f answer).recvRotor = f.other := by
  unfold after
  rw [modify_rotor]

theorem pick_selectable (h : s.pick = some f) :
    s.selectable f = true := by
  unfold pick at h
  split at h
  · cases h
    assumption
  · split at h
    · cases h
      assumption
    · cases h

theorem pick_preferred (h : s.pick = some f)
    (hpreferred : s.selectable s.recvRotor = true) : f = s.recvRotor := by
  unfold pick at h
  rw [if_pos hpreferred] at h
  cases h
  rfl

theorem pick_exists (h : s.selectable f = true) :
    ∃ g, s.pick = some g := by
  unfold pick
  by_cases hpreferred : s.selectable s.recvRotor = true
  · rw [if_pos hpreferred]
    exact ⟨_, rfl⟩
  · rw [if_neg hpreferred]
    have hother : s.recvRotor.other = f := by
      cases f <;> cases hrotor : s.recvRotor
      · rw [hrotor] at hpreferred
        exact absurd h hpreferred
      · rfl
      · rfl
      · rw [hrotor] at hpreferred
        exact absurd h hpreferred
    rw [hother, if_pos h]
    exact ⟨_, rfl⟩

theorem selectable_socket (h : s.selectable f = true) :
    ∃ b, s.get f = some b ∧ b.readable = true ∧ b.recvDead = false ∧
      b.recvErrorStreak < maxRecvErrorsPerRound := by
  unfold selectable at h
  obtain ⟨b, hget, hselectable⟩ := (Option.any_eq_true _ _).mp h
  unfold BoundSocket.recvSelectable at hselectable
  rw [Bool.and_eq_true, Bool.and_eq_true, Bool.not_eq_true', decide_eq_true_eq] at hselectable
  exact ⟨b, hget, hselectable.1.1, hselectable.1.2, hselectable.2⟩

theorem selectable_readable (h : s.selectable f = true) :
    s.readable f = true := by
  obtain ⟨b, hget, hreadable, -, -⟩ := s.selectable_socket f h
  unfold readable
  rw [hget]
  exact hreadable

theorem readable_after (f h : Family) (answer : ReadOutcome) :
    (s.after f answer).readable h =
      if h = f ∧ answer.clears = true then false else s.readable h := by
  unfold readable
  rw [get_after]
  by_cases hsame : h = f
  · rw [if_pos hsame]
    cases s.get h with
    | none => cases answer <;> simp
    | some b => cases answer <;> simp [hsame, ReadOutcome.clears, BoundSocket.answered,
        BoundSocket.noteRecvProgress, BoundSocket.stopReading]
  · rw [if_neg hsame, if_neg (fun hand => hsame hand.1)]

theorem readableCount_kept (answer : ReadOutcome)
    (h : answer.clears = false) : (s.after f answer).readableCount = s.readableCount := by
  unfold readableCount
  rw [readable_after, readable_after, h]
  simp

theorem readableCount_cleared (answer : ReadOutcome)
    (h : answer.clears = true) (hreadable : s.readable f = true) :
    (s.after f answer).readableCount + 1 = s.readableCount := by
  unfold readableCount
  rw [readable_after, readable_after, h]
  cases f with
  | v4 =>
    rw [hreadable]
    simp [Nat.add_comm]
  | v6 =>
    rw [hreadable]
    simp

theorem readableCount_le : s.readableCount ≤ 2 := by
  unfold readableCount
  cases s.readable .v4 <;> cases s.readable .v6 <;> decide

end Sockets

namespace Drain

theorem step_some (d d' : Drain) (r : Read) (h : d.step = some (r, d')) :
    d.left ≠ 0 ∧ r.sockets = d.sockets ∧ d.sockets.pick = some r.family ∧
    d'.sockets = d.sockets.after r.family r.outcome ∧
    (r.outcome = .datagram ∧ d'.left = d.left - 1 ∧ d'.discarded = 0 ∨
      r.outcome.clears = true ∧ d'.left = d.left ∧ d'.discarded = d.discarded ∨
      r.outcome.discards = true ∧ d'.discarded = d.discarded + 1 ∧
        (d'.left = 0 ∧ maxDiscardedPerRecv ≤ d.discarded + 1 ∨
          d'.left = d.left ∧ d.discarded + 1 < maxDiscardedPerRecv)) := by
  unfold step at h
  split at h
  · cases h
  · rename_i hleft
    cases hpick : d.sockets.pick with
    | none =>
      rw [hpick] at h
      cases h
    | some family =>
      rw [hpick] at h
      dsimp only at h
      unfold Sockets.recvOnce at h
      rw [hpick] at h
      cases hanswer : d.answers 0 with
      | datagram =>
        rw [hanswer] at h
        cases h
        exact ⟨hleft, rfl, rfl, rfl, Or.inl ⟨rfl, rfl, rfl⟩⟩
      | wouldBlock =>
        rw [hanswer] at h
        cases h
        exact ⟨hleft, rfl, rfl, rfl, Or.inr (Or.inl ⟨rfl, rfl, rfl⟩)⟩
      | permanent =>
        rw [hanswer] at h
        cases h
        exact ⟨hleft, rfl, rfl, rfl, Or.inr (Or.inl ⟨rfl, rfl, rfl⟩)⟩
      | interrupted | unusable | transient =>
        rw [hanswer] at h
        by_cases hspent : maxDiscardedPerRecv ≤ d.discarded + 1
        · rw [if_pos hspent] at h
          cases h
          exact ⟨hleft, rfl, rfl, rfl, Or.inr (Or.inr ⟨rfl, rfl, Or.inl ⟨rfl, hspent⟩⟩)⟩
        · rw [if_neg hspent] at h
          cases h
          exact ⟨hleft, rfl, rfl, rfl,
            Or.inr (Or.inr ⟨rfl, rfl, Or.inr ⟨rfl, Nat.not_le.mp hspent⟩⟩)⟩

theorem clears_not_discards (answer : ReadOutcome) (h : answer.clears = true) :
    answer.discards = false ∧ answer ≠ .datagram := by
  cases answer with
  | wouldBlock => exact ⟨rfl, nofun⟩
  | permanent => exact ⟨rfl, nofun⟩
  | datagram => cases h
  | interrupted => cases h
  | unusable => cases h
  | transient => cases h

theorem discards_not_clears (answer : ReadOutcome) (h : answer.discards = true) :
    answer.clears = false ∧ answer ≠ .datagram := by
  cases answer with
  | wouldBlock => cases h
  | permanent => cases h
  | datagram => cases h
  | interrupted => exact ⟨rfl, nofun⟩
  | unusable => exact ⟨rfl, nofun⟩
  | transient => exact ⟨rfl, nofun⟩

def size (d : Drain) : Nat :=
  d.left * (maxDiscardedPerRecv + 1) + (maxDiscardedPerRecv - d.discarded) +
    d.sockets.readableCount

theorem step_shrinks (d d' : Drain) (r : Read) (h : d.step = some (r, d')) :
    d'.size < d.size := by
  obtain ⟨hleft, -, hpick, hsockets, hresult⟩ := d.step_some d' r h
  have hreadable := d.sockets.selectable_readable r.family (d.sockets.pick_selectable _ hpick)
  unfold size
  unfold maxDiscardedPerRecv at hresult ⊢
  rw [hsockets]
  rcases hresult with ⟨houtcome, hless, hnone⟩ | ⟨hclears, hsame, hkept⟩ |
    ⟨hdiscards, hmore, ⟨hspent, -⟩ | ⟨hsame, hroom⟩⟩
  · rw [houtcome, Sockets.readableCount_kept _ _ _ rfl, hless, hnone]
    omega
  · have hcount := Sockets.readableCount_cleared _ _ _ hclears hreadable
    rw [hsame, hkept]
    omega
  · rw [Sockets.readableCount_kept _ _ _ (discards_not_clears _ hdiscards).1, hmore, hspent]
    omega
  · rw [Sockets.readableCount_kept _ _ _ (discards_not_clears _ hdiscards).1, hmore, hsame]
    omega

def walk : Walk Drain Read where
  step := step
  size := size
  shrinks := fun d r d' h => d.step_shrinks d' r h

end Drain

def drainOf (s : Sockets) (answers : Nat → ReadOutcome) : Drain := ⟨s, recvBudget, 0, answers⟩

def Sockets.drainRecv (s : Sockets) (answers : Nat → ReadOutcome) : Sockets :=
  (Drain.walk.final (drainOf s answers)).sockets

def Sockets.reads (s : Sockets) (answers : Nat → ReadOutcome) : List Read :=
  Drain.walk.items (drainOf s answers)

inductive ReceiveCall where
  | edge (f : Family)
  | tick (answers : Nat → ReadOutcome)

namespace Sockets

def next (s : Sockets) : ReceiveCall → Sockets
  | .edge f => s.noteReadiness f
  | .tick answers => s.beginRecvRound.drainRecv answers

def machine : Machine Sockets ReceiveCall where
  start s := ∃ v4 v6, s = new v4 v6
  admits _ _ := True
  next := next

def readsBy (t : Transition Sockets ReceiveCall) : List Read :=
  match t.call with
  | .edge _ => []
  | .tick answers => t.pre.beginRecvRound.reads answers

def readsIn (ts : List (Transition Sockets ReceiveCall)) : List Read := ts.flatMap readsBy

end Sockets

namespace Drain

theorem stretch_bound (d : Drain) (mid after : List (Drain × Read))
    (h : walk.trace d = mid ++ after) (hnone : ∀ v ∈ mid, v.2.outcome ≠ .datagram) :
    (d.left = 0 ∨ d.discarded < maxDiscardedPerRecv) →
      mid.countP (fun v => v.2.outcome.discards) + d.discarded ≤
          max d.discarded maxDiscardedPerRecv ∧
        mid.length ≤ mid.countP (fun v => v.2.outcome.discards) + d.sockets.readableCount := by
  induction mid generalizing d with
  | nil =>
    intro _
    refine ⟨?_, Nat.zero_le _⟩
    rw [List.countP_nil, Nat.zero_add]
    exact Nat.le_max_left _ _
  | cons v mid ih =>
    intro hstart
    cases hstep : walk.step d with
    | none =>
      rw [walk.trace_none d hstep] at h
      cases h
    | some found =>
      obtain ⟨r, d'⟩ := found
      rw [walk.trace_some d d' r hstep, List.cons_append, List.cons.injEq] at h
      obtain ⟨rfl, hrest⟩ := h
      obtain ⟨hleft, -, hpick, hsockets, hresult⟩ := d.step_some d' r hstep
      have hreadable := d.sockets.selectable_readable r.family (d.sockets.pick_selectable _ hpick)
      have hroom := hstart.resolve_left hleft
      have hmore := ih d' hrest fun u hu => hnone u (List.mem_cons_of_mem _ hu)
      have hnot : r.outcome ≠ .datagram := hnone (d, r) List.mem_cons_self
      rw [List.countP_cons, List.length_cons]
      rcases hresult with ⟨houtcome, -, -⟩ | ⟨hclears, hsame, hkept⟩ |
        ⟨hdiscards, hcount, ⟨hspent, -⟩ | ⟨hsame, hless⟩⟩
      · exact absurd houtcome hnot
      · obtain ⟨hfew, hlength⟩ := hmore (Or.inr (by rw [hkept]; exact hroom))
        have hflags := Sockets.readableCount_cleared _ _ _ hclears hreadable
        rw [← hsockets] at hflags
        rw [hkept] at hfew
        simp only [(clears_not_discards _ hclears).1, Bool.false_eq_true, if_false]
        omega
      · obtain ⟨hfew, hlength⟩ := hmore (Or.inl hspent)
        have hdone : walk.trace d' = [] := by
          apply walk.trace_none
          exact if_pos hspent
        rw [hdone] at hrest
        have hmid : mid = [] := (List.append_eq_nil_iff.mp hrest.symm).1
        rw [hmid]
        simp only [hdiscards, if_true, List.countP_nil, List.length_nil]
        omega
      · obtain ⟨hfew, hlength⟩ := hmore (Or.inr (by rw [hcount]; exact hless))
        have hflags := Sockets.readableCount_kept d.sockets r.family _
          (discards_not_clears _ hdiscards).1
        rw [← hsockets] at hflags
        rw [hcount] at hfew
        simp only [hdiscards, if_true]
        omega

theorem step_room (d d' : Drain) (r : Read) (hroom : d.left = 0 ∨ d.discarded < maxDiscardedPerRecv)
    (h : d.step = some (r, d')) : d'.left = 0 ∨ d'.discarded < maxDiscardedPerRecv := by
  obtain ⟨hleft, -, -, -, hresult⟩ := d.step_some d' r h
  rcases hresult with ⟨-, -, hnone⟩ | ⟨-, -, hkept⟩ | ⟨-, hmore, ⟨hspent, -⟩ | ⟨-, hless⟩⟩
  · rw [hnone]
    exact Or.inr (by decide)
  · rw [hkept]
    exact Or.inr (hroom.resolve_left hleft)
  · exact Or.inl hspent
  · rw [hmore]
    exact Or.inr hless

theorem datagrams_bound (d : Drain) :
    (walk.trace d).countP (fun v => decide (v.2.outcome = .datagram)) ≤ d.left := by
  induction d using walk.induction with
  | stop d h =>
    rw [walk.trace_none d h]
    exact Nat.zero_le _
  | go d r d' h ih =>
    rw [walk.trace_some d d' r h, List.countP_cons]
    obtain ⟨hleft, -, -, -, hresult⟩ := d.step_some d' r h
    rcases hresult with ⟨houtcome, hless, -⟩ | ⟨hclears, hsame, -⟩ |
      ⟨hdiscards, -, ⟨hspent, -⟩ | ⟨hsame, -⟩⟩
    · rw [if_pos (decide_eq_true houtcome)]
      omega
    · rw [if_neg (by simpa using (clears_not_discards _ hclears).2)]
      omega
    · rw [if_neg (by simpa using (discards_not_clears _ hdiscards).2)]
      omega
    · rw [if_neg (by simpa using (discards_not_clears _ hdiscards).2)]
      omega

def streak (d : Drain) (f : Family) : Nat :=
  match d.sockets.get f with
  | some b => b.recvErrorStreak
  | none => 0

theorem stretch_transients (d : Drain) (f : Family) (mid after : List (Drain × Read))
    (h : walk.trace d = mid ++ after)
    (hnone : ∀ v ∈ mid, v.2.family = f → v.2.outcome ≠ .datagram ∧ v.2.outcome.clears = false) :
    mid.countP (fun v => decide (v.2.family = f) && decide (v.2.outcome = .transient)) +
        d.streak f ≤ max (d.streak f) maxRecvErrorsPerRound := by
  induction mid generalizing d with
  | nil =>
    rw [List.countP_nil, Nat.zero_add]
    exact Nat.le_max_left _ _
  | cons v mid ih =>
    cases hstep : walk.step d with
    | none =>
      rw [walk.trace_none d hstep] at h
      cases h
    | some found =>
      obtain ⟨r, d'⟩ := found
      rw [walk.trace_some d d' r hstep, List.cons_append, List.cons.injEq] at h
      obtain ⟨rfl, hrest⟩ := h
      obtain ⟨-, -, hpick, hsockets, -⟩ := d.step_some d' r hstep
      have hmore := ih d' hrest fun u hu => hnone u (List.mem_cons_of_mem _ hu)
      have hthis := hnone (d, r) List.mem_cons_self
      dsimp only at hthis
      rw [List.countP_cons]
      by_cases hfamily : r.family = f
      · obtain ⟨b, hget, -, -, hfew⟩ :=
          d.sockets.selectable_socket _ (d.sockets.pick_selectable _ hpick)
        obtain ⟨hdatagram, hclears⟩ := hthis hfamily
        rw [hfamily] at hget
        have hbefore : d.streak f = b.recvErrorStreak := by
          unfold streak
          rw [hget]
        have hafter : d'.streak f = (b.answered r.outcome).recvErrorStreak := by
          unfold streak
          rw [hsockets, Sockets.get_after, hfamily, if_pos rfl, hget]
          rfl
        unfold maxRecvErrorsPerRound at hfew hmore ⊢
        rw [hafter] at hmore
        rw [hbefore]
        cases houtcome : r.outcome with
        | datagram => exact absurd houtcome hdatagram
        | wouldBlock =>
          rw [houtcome] at hclears
          cases hclears
        | permanent =>
          rw [houtcome] at hclears
          cases hclears
        | interrupted =>
          rw [houtcome] at hmore
          simp only [BoundSocket.answered] at hmore
          simp only [hfamily, reduceCtorEq, decide_true, decide_false, Bool.and_false,
            Bool.false_eq_true, if_false]
          omega
        | unusable =>
          rw [houtcome] at hmore
          simp only [BoundSocket.answered] at hmore
          simp only [hfamily, reduceCtorEq, decide_true, decide_false, Bool.and_false,
            Bool.false_eq_true, if_false]
          omega
        | transient =>
          rw [houtcome] at hmore
          simp only [BoundSocket.answered, saturatingSuccU32] at hmore
          simp only [hfamily, decide_true, Bool.and_true, if_true]
          omega
      · have hkept : d'.streak f = d.streak f := by
          unfold streak
          rw [hsockets, Sockets.get_after, if_neg (fun heq => hfamily heq.symm)]
        rw [hkept] at hmore
        simp only [hfamily, decide_false, Bool.false_and, Bool.false_eq_true, if_false]
        exact hmore

theorem flag_kept (d : Drain) (f : Family) (hreadable : d.sockets.readable f = true)
    (hnone : ∀ v ∈ walk.trace d, v.2.family = f → v.2.outcome.clears = false) :
    (walk.final d).sockets.readable f = true := by
  induction d using walk.induction with
  | stop d h =>
    rw [walk.final_none d h]
    exact hreadable
  | go d r d' h ih =>
    rw [walk.trace_some d d' r h] at hnone
    rw [walk.final_some d d' r h]
    obtain ⟨-, -, -, hsockets, -⟩ := d.step_some d' r h
    apply ih
    · rw [hsockets, Sockets.readable_after, if_neg, hreadable]
      rintro ⟨heq, hclears⟩
      rw [hnone (d, r) List.mem_cons_self heq.symm] at hclears
      cases hclears
    · exact fun v hv => hnone v (List.mem_cons_of_mem _ hv)

theorem trace_rotor (d : Drain) :
    ((walk.trace d).map Prod.snd).IsChain (fun r r' => r'.sockets.recvRotor = r.family.other) ∧
    (∀ r ∈ ((walk.trace d).map Prod.snd).head?, r.sockets.recvRotor = d.sockets.recvRotor) ∧
    (((walk.trace d).map Prod.snd).getLast? = none →
      (walk.final d).sockets.recvRotor = d.sockets.recvRotor) ∧
    ∀ r ∈ ((walk.trace d).map Prod.snd).getLast?,
      (walk.final d).sockets.recvRotor = r.family.other := by
  induction d using walk.induction with
  | stop d h =>
    rw [walk.trace_none d h, walk.final_none d h]
    exact ⟨List.IsChain.nil, fun r hr => absurd hr.symm (Option.some_ne_none r), fun _ => rfl,
      fun r hr => absurd hr.symm (Option.some_ne_none r)⟩
  | go d r d' h ih =>
    obtain ⟨-, hbefore, -, hsockets, -⟩ := d.step_some d' r h
    obtain ⟨hchain, hhead, hempty, hlast⟩ := ih
    have hrotor : d'.sockets.recvRotor = r.family.other := by
      rw [hsockets, Sockets.after_rotor]
    rw [walk.trace_some d d' r h, walk.final_some d d' r h, List.map_cons, List.isChain_cons,
      List.head?_cons, List.getLast?_cons]
    refine ⟨⟨?_, hchain⟩, ?_, fun hgone => absurd hgone (Option.some_ne_none _), ?_⟩
    · intro r' hr'
      rw [hhead r' hr', hrotor]
    · intro r' hr'
      cases hr'
      rw [hbefore]
    · intro r' hr'
      cases hgone : ((walk.trace d').map Prod.snd).getLast? with
      | none =>
        rw [hgone] at hr'
        cases hr'
        exact (hempty hgone).trans hrotor
      | some u =>
        rw [hgone] at hr'
        cases hr'
        exact hlast u hgone

theorem read_soon (d : Drain) (f : Family) (hleft : 1 < d.left) (hroom : d.discarded = 0)
    (h : d.sockets.selectable f = true) :
    ∃ r ∈ ((walk.trace d).map Prod.snd).take 2, r.family = f := by
  have hstep : ∀ d : Drain, d.left ≠ 0 → d.sockets.selectable f = true →
      ∃ r d', d.step = some (r, d') := by
    intro d hleft hf
    obtain ⟨g, hpick⟩ := d.sockets.pick_exists f hf
    unfold step
    rw [if_neg hleft, hpick]
    exact ⟨_, _, rfl⟩
  obtain ⟨r, d', hfirst⟩ := hstep d (by omega) h
  obtain ⟨-, -, hpick, hsockets, hresult⟩ := d.step_some d' r hfirst
  rw [walk.trace_some d d' r hfirst, List.map_cons, List.take_succ_cons]
  by_cases hfamily : r.family = f
  · exact ⟨r, List.mem_cons_self, hfamily⟩
  · have hrotor : d'.sockets.recvRotor = f := by
      rw [hsockets, Sockets.after_rotor]
      cases f <;> cases hr : r.family
      · exact absurd hr hfamily
      · rfl
      · rfl
      · exact absurd hr hfamily
    have hstill : d'.sockets.selectable f = true := by
      unfold Sockets.selectable at h ⊢
      rw [hsockets, Sockets.get_after, if_neg (fun heq => hfamily heq.symm)]
      exact h
    have hleft' : d'.left ≠ 0 := by
      unfold maxDiscardedPerRecv at hresult
      omega
    obtain ⟨r', d'', hsecond⟩ := hstep d' hleft' hstill
    obtain ⟨-, -, hpick', -, -⟩ := d'.step_some d'' r' hsecond
    have hpreferred : d'.sockets.selectable d'.sockets.recvRotor = true := by
      rw [hrotor]
      exact hstill
    rw [walk.trace_some d' d'' r' hsecond, List.map_cons, List.take_succ_cons]
    refine ⟨r', List.mem_cons_of_mem _ List.mem_cons_self, ?_⟩
    rw [d'.sockets.pick_preferred _ hpick' hpreferred, hrotor]

end Drain

namespace Sockets

variable (s : Sockets)

theorem mem_families (f : Family) (b : BoundSocket) (h : s.get f = some b) :
    b ∈ s.families := by
  unfold families
  cases f with
  | v4 =>
    change s.v4 = some b at h
    rw [h]
    exact List.mem_cons_self
  | v6 =>
    change s.v6 = some b at h
    rw [h]
    exact List.mem_append_right _ (List.mem_singleton_self b)

theorem level_pos (b : BoundSocket) (hmem : b ∈ s.families)
    (hspent : maxRecvErrorsPerRound ≤ b.recvErrorStreak) : 0 < s.recvErrorBackoffLevel := by
  have hlevel : saturatingSuccU32 b.recvErrorRounds ∈
      (s.families.filter fun b => decide (maxRecvErrorsPerRound ≤ b.recvErrorStreak)).map
        fun b => saturatingSuccU32 b.recvErrorRounds :=
    List.mem_map_of_mem (List.mem_filter.mpr ⟨hmem, decide_eq_true hspent⟩)
  unfold recvErrorBackoffLevel
  generalize (s.families.filter fun b => decide (maxRecvErrorsPerRound ≤ b.recvErrorStreak)).map
    (fun b => saturatingSuccU32 b.recvErrorRounds) = levels at hlevel
  cases hmax : levels.max? with
  | none =>
    rw [List.max?_eq_none_iff] at hmax
    rw [hmax] at hlevel
    cases hlevel
  | some m =>
    have hle := (List.max?_eq_some_iff.mp hmax).2 _ hlevel
    rw [Option.getD_some]
    unfold saturatingSuccU32 at hle
    omega

theorem covered (f : Family) (b : BoundSocket) (h : s.get f = some b)
    (hreadable : b.readable = true) (hlive : b.recvDead = false) :
    s.hasReadable = true ∨ 0 < s.recvErrorBackoffLevel := by
  by_cases hfew : b.recvErrorStreak < maxRecvErrorsPerRound
  · left
    unfold hasReadable
    rw [List.any_eq_true]
    refine ⟨b, s.mem_families f b h, ?_⟩
    unfold BoundSocket.recvSelectable
    rw [hreadable, hlive, decide_eq_true hfew]
    rfl
  · exact Or.inr (s.level_pos b (s.mem_families f b h) (Nat.not_lt.mp hfew))

theorem get_beginRecvRound (f : Family) :
    s.beginRecvRound.get f = (s.get f).map BoundSocket.beginRecvRound := by
  cases f <;> rfl

theorem selectable_again (f : Family) (b : BoundSocket) (h : s.get f = some b)
    (hreadable : b.readable = true) (hlive : b.recvDead = false) :
    s.beginRecvRound.selectable f = true := by
  unfold selectable
  rw [get_beginRecvRound, h]
  unfold BoundSocket.beginRecvRound
  rw [Option.map_some, if_neg (by rw [hlive]; decide)]
  unfold BoundSocket.recvSelectable
  rw [Option.any_some]
  dsimp only
  rw [hreadable, hlive]
  rfl

theorem readable_beginRecvRound (f : Family) :
    s.beginRecvRound.readable f = s.readable f := by
  unfold readable
  rw [get_beginRecvRound]
  cases s.get f with
  | none => rfl
  | some b =>
    rw [Option.map_some, Option.any_some, Option.any_some]
    unfold BoundSocket.beginRecvRound
    split <;> rfl

theorem cleared_by (call : ReceiveCall) (f : Family) (h : s.readable f = true)
    (hgone : (s.next call).readable f = false) :
    ∃ r ∈ readsBy (machine.transition s call), r.family = f ∧ r.outcome.clears = true := by
  cases call with
  | edge g =>
    exfalso
    have hkept : (s.noteReadiness g).readable f = true := by
      unfold noteReadiness readable at *
      rw [get_modify]
      split
      · cases hget : s.get f with
        | none =>
          rw [hget] at h
          cases h
        | some b => rfl
      · exact h
    change (s.noteReadiness g).readable f = false at hgone
    rw [hkept] at hgone
    cases hgone
  | tick answers =>
    by_contra hnone
    push Not at hnone
    have hkept := (drainOf s.beginRecvRound answers).flag_kept f
      ((s.readable_beginRecvRound f).trans h) (by
        intro v hv hfamily
        exact Bool.eq_false_iff.mpr (hnone v.2 (List.mem_map_of_mem hv) hfamily))
    change (Drain.walk.final (drainOf s.beginRecvRound answers)).sockets.readable f = false at hgone
    rw [hkept] at hgone
    cases hgone

theorem rotor_run (ts : List (Transition Sockets ReceiveCall)) (s : Sockets)
    (run : Run machine ts s) :
    (readsIn ts).IsChain (fun r r' => r'.sockets.recvRotor = r.family.other) ∧
      ∀ r ∈ (readsIn ts).getLast?, s.recvRotor = r.family.other := by
  induction run with
  | start s h =>
    exact ⟨List.IsChain.nil, fun r hr => absurd hr.symm (Option.some_ne_none r)⟩
  | step ts s call run h ih =>
    obtain ⟨hchain, hlast⟩ := ih
    rw [readsIn, List.flatMap_append, List.flatMap_singleton]
    cases call with
    | edge f =>
      have hnone : readsBy (machine.transition s (.edge f)) = [] := rfl
      rw [hnone, List.append_nil]
      refine ⟨hchain, ?_⟩
      intro r hr
      exact (s.modify_rotor f _).trans (hlast r hr)
    | tick answers =>
      obtain ⟨hchain', hhead, hempty, hlast'⟩ :=
        (drainOf s.beginRecvRound answers).trace_rotor
      change ((readsIn ts) ++ (Drain.walk.trace (drainOf s.beginRecvRound answers)).map
        Prod.snd).IsChain _ ∧ ∀ r ∈ ((readsIn ts) ++ (Drain.walk.trace
          (drainOf s.beginRecvRound answers)).map Prod.snd).getLast?, _
      constructor
      · rw [List.isChain_append]
        refine ⟨hchain, hchain', ?_⟩
        intro r hr r' hr'
        rw [hhead r' hr']
        exact hlast r hr
      · intro r hr
        rw [List.getLast?_append] at hr
        cases hgone : ((Drain.walk.trace (drainOf s.beginRecvRound answers)).map
            Prod.snd).getLast? with
        | none =>
          rw [hgone] at hr
          exact (hempty hgone).trans (hlast r hr)
        | some last =>
          rw [hgone] at hr
          cases hr
          exact hlast' _ hgone

theorem reads_picked (answers : Nat → ReadOutcome) (r : Read)
    (h : r ∈ s.reads answers) : r.sockets.pick = some r.family := by
  obtain ⟨v, hv, rfl⟩ := List.mem_map.mp h
  obtain ⟨-, d', hstep⟩ := Drain.walk.trace_invariant (fun _ => True) (fun _ _ _ _ _ => trivial)
    (drainOf s answers) trivial v hv
  obtain ⟨-, hbefore, hpick, -, -⟩ := v.1.step_some d' v.2 hstep
  rw [hbefore]
  exact hpick

theorem reads_stretch (answers : Nat → ReadOutcome) (before mid after : List Read)
    (h : s.reads answers = before ++ mid ++ after) :
    ∃ (d : Drain) (mid' after' : List (Drain × Read)), Drain.walk.trace d = mid' ++ after' ∧
      mid'.map Prod.snd = mid ∧ (d.left = 0 ∨ d.discarded < maxDiscardedPerRecv) := by
  unfold reads Walk.items at h
  rw [List.append_assoc] at h
  obtain ⟨first, rest, htrace, -, hrest⟩ := List.map_eq_append_iff.mp h
  obtain ⟨mid', after', rfl, hmid, -⟩ := List.map_eq_append_iff.mp hrest
  obtain ⟨d, hroom, hd⟩ := Drain.walk.trace_after
    (fun d => d.left = 0 ∨ d.discarded < maxDiscardedPerRecv)
    (fun d r d' hroom hstep => d.step_room d' r hroom hstep) (drainOf s answers)
    (Or.inr (Nat.zero_lt_succ _)) first _ htrace
  exact ⟨d, mid', after', hd, hmid, hroom⟩

/-- Over every sequence of edges and ticks, however the reads are answered. Only a read that would
block or that fails for good clears a flag. A family with something to read asks for a read or for a
wakeup, and the next tick reads it at once. -/
theorem receive_never_goes_deaf (v4 v6 : Bool) (calls : List ReceiveCall) :
    let ts := machine.trace (new v4 v6) calls
    let s := machine.play (new v4 v6) calls
    (∀ t ∈ ts, ∀ f, t.pre.readable f = true → t.post.readable f = false →
      ∃ r ∈ readsBy t, r.family = f ∧ (r.outcome = .wouldBlock ∨ r.outcome = .permanent)) ∧
    (∀ f b, s.get f = some b → b.readable = true → b.recvDead = false →
      (s.hasReadable = true ∨ 0 < s.recvErrorBackoffLevel) ∧
      ∀ answers, ∃ r ∈ (s.beginRecvRound.reads answers).take 2, r.family = f) ∧
    ((readsIn ts).IsChain fun r r' =>
      r'.sockets.selectable .v4 = true → r'.sockets.selectable .v6 = true →
        r'.family = r.family.other) ∧
    (∀ t ∈ ts, ∀ f before mid after, readsBy t = before ++ mid ++ after →
      (∀ r ∈ mid, r.family = f → r.outcome ≠ .datagram ∧ r.outcome.clears = false) →
      mid.countP (fun r => decide (r.family = f) && decide (r.outcome = .transient)) ≤ 4) ∧
    ∀ t ∈ ts, (readsBy t).countP (fun r => decide (r.outcome = .datagram)) ≤ 64 ∧
      ∀ before mid after, readsBy t = before ++ mid ++ after →
        (∀ r ∈ mid, r.outcome ≠ .datagram) →
        mid.countP (fun r => r.outcome.discards) ≤ 64 ∧
          mid.length ≤ mid.countP (fun r => r.outcome.discards) + 2 := by
  intro ts s
  have hadmitted : ∀ (s : Sockets) (calls : List ReceiveCall), machine.Admitted s calls := by
    intro s calls
    induction calls generalizing s with
    | nil => exact trivial
    | cons call calls ih => exact ⟨trivial, ih _⟩
  have run := Run.play machine [] (new v4 v6) (.start _ ⟨v4, v6, rfl⟩) calls (hadmitted _ calls)
  rw [List.nil_append] at run
  have hticks : ∀ t ∈ ts, readsBy t = [] ∨ ∃ answers, readsBy t =
      t.pre.beginRecvRound.reads answers := by
    intro t _
    obtain ⟨pre, call, post⟩ := t
    cases call with
    | edge f => exact Or.inl rfl
    | tick answers => exact Or.inr ⟨answers, rfl⟩
  refine ⟨?_, ?_, ?_, ?_, ?_⟩
  · intro t ht f hreadable hgone
    obtain ⟨htransition, -⟩ := run.mem machine ts s t ht
    rw [htransition] at hgone
    obtain ⟨r, hr, hfamily, hclears⟩ := t.pre.cleared_by t.call f hreadable hgone
    rw [← htransition] at hr
    refine ⟨r, hr, hfamily, ?_⟩
    cases houtcome : r.outcome with
    | wouldBlock => exact Or.inl rfl
    | permanent => exact Or.inr rfl
    | datagram => rw [houtcome] at hclears; cases hclears
    | interrupted => rw [houtcome] at hclears; cases hclears
    | unusable => rw [houtcome] at hclears; cases hclears
    | transient => rw [houtcome] at hclears; cases hclears
  · intro f b hget hreadable hlive
    refine ⟨s.covered f b hget hreadable hlive, ?_⟩
    intro answers
    exact (drainOf s.beginRecvRound answers).read_soon f (Nat.lt_of_sub_eq_succ rfl) rfl
      (s.selectable_again f b hget hreadable hlive)
  · refine (rotor_run ts s run).1.imp_of_mem_imp ?_
    intro r r' _ hr' hrotor hv4 hv6
    obtain ⟨t, ht, hmem⟩ := List.mem_flatMap.mp hr'
    rcases hticks t ht with hempty | ⟨answers, hanswers⟩
    · rw [hempty] at hmem
      cases hmem
    · rw [hanswers] at hmem
      have hpick := reads_picked _ answers r' hmem
      have hpreferred : r'.sockets.selectable r'.sockets.recvRotor = true := by
        cases r'.sockets.recvRotor with
        | v4 => exact hv4
        | v6 => exact hv6
      rw [r'.sockets.pick_preferred _ hpick hpreferred, hrotor]
  · intro t ht f before mid after hreads hnone
    rcases hticks t ht with hempty | ⟨answers, hanswers⟩
    · rw [hempty] at hreads
      have hmid : mid = [] :=
        (List.append_eq_nil_iff.mp (List.append_eq_nil_iff.mp hreads.symm).1).2
      rw [hmid]
      exact Nat.zero_le _
    · rw [hanswers] at hreads
      obtain ⟨d, mid', after', htrace, rfl, -⟩ := reads_stretch _ answers before mid after hreads
      have hfew := d.stretch_transients f mid' after' htrace fun v hv =>
        hnone v.2 (List.mem_map_of_mem hv)
      unfold maxRecvErrorsPerRound at hfew
      rw [List.countP_map]
      change mid'.countP (fun v => decide (v.2.family = f) && decide (v.2.outcome = .transient)) ≤ 4
      omega
  · intro t ht
    rcases hticks t ht with hempty | ⟨answers, hanswers⟩
    · rw [hempty]
      refine ⟨Nat.zero_le _, ?_⟩
      intro before mid after hreads _
      have hmid : mid = [] :=
        (List.append_eq_nil_iff.mp (List.append_eq_nil_iff.mp hreads.symm).1).2
      rw [hmid]
      exact ⟨Nat.zero_le _, Nat.zero_le _⟩
    · rw [hanswers]
      constructor
      · have hfew := (drainOf t.pre.beginRecvRound answers).datagrams_bound
        unfold reads Walk.items
        rw [List.countP_map]
        exact hfew
      · intro before mid after hreads hnone
        obtain ⟨d, mid', after', htrace, rfl, hroom⟩ :=
          reads_stretch _ answers before mid after hreads
        obtain ⟨hfew, hlength⟩ := d.stretch_bound mid' after' htrace
          (fun v hv => hnone v.2 (List.mem_map_of_mem hv)) hroom
        have hflags := d.sockets.readableCount_le
        have hcount : (mid'.map Prod.snd).countP (fun r => r.outcome.discards) =
            mid'.countP (fun v => v.2.outcome.discards) := List.countP_map
        unfold maxDiscardedPerRecv at hfew
        rw [hcount, List.length_map]
        omega

end Sockets
end Mio
end Hick
