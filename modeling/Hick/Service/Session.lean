import Mathlib
import Hick.Lib.Runs
import Hick.Service.Confirm

/-!
# A service driven by its host

The driver owns the clock and the sockets. A session is a service with what the driver's
contract speaks of: the clock, the instant of the last transmit poll, and whether the service
is being withdrawn. Floods and names in use come from the endpoint and are arbitrary here, and
so is the order of the calls.
-/

namespace Hick
open Octets Wire Respond

structure Session (I R : Type) (EV : Type → Type) where
  service : Service I R EV
  withdrawing : Bool
  clock : I
  polledAt : I

inductive Call (I : Type) where
  | event (event : ServiceEvent) (flood : ConflictFlood I)
  | timeout (flood : ConflictFlood I) (taken : NamesInUse)
  | poll (flood : ConflictFlood I) (buf : Bytes)
  | outcome (v4 v6 : FamilyAttempt I)
  | update
  | withdraw

structure Timed (I : Type) where
  now : I
  call : Call I

/-- A confirm: the token it settles, the instant it is timed from, what was delivered. -/
structure Confirmed (I : Type) where
  token : AwaitingConfirm
  anchor : I
  delivery : TransmitDelivery

namespace Service
variable {I R : Type} {EV : Type → Type} [Instant I] [SeedableRng R] [Pool EV]

/-- The transmit poll of a service that is not being withdrawn
(endpoint/service.rs:699-719). -/
def pollDeferred (s : Service I R EV) (now : I) (flood : ConflictFlood I) (buf : Bytes) :
    Service I R EV × Except TransmitError (Option Sent) :=
  (s.deferFirstProbeUnderFlood now flood).pollTransmit now buf

end Service

namespace Session
variable {I R : Type} {EV : Type → Type} [Instant I] [SeedableRng R] [Pool EV]

def serve (s : Service I R EV) (now : I) : Call I → Service I R EV
  | .event event flood => (s.handleEvent event now flood).1
  | .timeout flood taken => (s.handleTimeout now flood taken).1
  | .poll flood buf => (s.pollDeferred now flood buf).1
  | .outcome v4 v6 => (s.noteTransmitOutcome now v4 v6).1
  | .update => s.poll.1
  | .withdraw => s.quiesceForWithdrawal

def heeds (s : Session I R EV) : Call I → Bool
  | .outcome .. | .update => true
  | _ => !s.withdrawing

def served (s : Session I R EV) (e : Timed I) : Service I R EV :=
  if s.heeds e.call then serve s.service e.now e.call else s.service

def next (s : Session I R EV) (e : Timed I) : Session I R EV where
  service := (s.served e).takeRenameGoodbyeHandoff.1
  withdrawing := s.withdrawing || match e.call with
    | .withdraw => true
    | _ => false
  clock := e.now
  polledAt := match e.call with
    | .poll .. => e.now
    | _ => s.polledAt

/-- The driver's contract: its clock does not run back, and it reports an acceptance at an
instant between the poll and the report. -/
def admits (s : Session I R EV) (e : Timed I) : Prop :=
  s.clock ≤ e.now ∧ match e.call with
    | .outcome v4 v6 => v4.Within s.polledAt e.now ∧ v6.Within s.polledAt e.now
    | _ => True

instance (s : Session I R EV) (e : Timed I) : Decidable (s.admits e) := by
  unfold admits
  cases e.call <;> infer_instance

def Registered (probe : Bool) (s : Session I R EV) : Prop :=
  ∃ records now seed reAnnounce flood, Registrable records ∧
    s = ⟨Service.tryNew records now seed probe reAnnounce flood, false, now, now⟩

def machine (probe : Bool) : Runs.Machine (Session I R EV) (Timed I) where
  start := Registered probe
  admits := admits
  next := next

def sent (s : Session I R EV) (e : Timed I) : Option Sent :=
  match e.call with
  | .poll flood buf =>
    if s.withdrawing then none else sentOf (s.service.pollDeferred e.now flood buf).2
  | _ => none

def confirm (s : Session I R EV) (e : Timed I) : Option (Confirmed I) :=
  match e.call with
  | .outcome v4 v6 => s.service.awaitingConfirm.map fun token =>
    ⟨token, FamilyAttempt.anchor v4 v6 e.now, FamilyAttempt.project v4 v6⟩
  | _ => none

omit [SeedableRng R] [Pool EV] in
theorem anchor_bounds (s : Session I R EV) (now : I) (v4 v6 : FamilyAttempt I)
    (h : s.admits ⟨now, .outcome v4 v6⟩) (hp : s.polledAt ≤ s.clock) :
    s.polledAt ≤ FamilyAttempt.anchor v4 v6 now ∧ FamilyAttempt.anchor v4 v6 now ≤ now := by
  obtain ⟨hclock, hat⟩ := h
  rcases FamilyAttempt.anchor_mem v4 v6 now with h4 | h6 | hnow
  · exact hat.1 _ h4
  · exact hat.2 _ h6
  · rw [hnow]
    exact ⟨le_trans hp hclock, le_refl _⟩

inductive StepEffect (s : Session I R EV) (e : Timed I) : Core I → Prop
  | idle (hsent : s.sent e = none) (hconfirm : s.confirm e = none)
    (htimeout : ∀ flood taken, e.call = .timeout flood taken → s.withdrawing = true) :
    StepEffect s e s.service.core
  | event (event : ServiceEvent) (flood : ConflictFlood I) (he : e.call = .event event flood)
    (hw : s.withdrawing = false) (c : Core I) (h : EventEffect s.service.core event e.now c) :
    StepEffect s e c
  | timeout (flood : ConflictFlood I) (taken : NamesInUse) (he : e.call = .timeout flood taken)
    (hw : s.withdrawing = false) (c : Core I) (h : TimeoutEffect s.service.core e.now flood c) :
    StepEffect s e c
  | poll (flood : ConflictFlood I) (buf : Bytes) (he : e.call = .poll flood buf)
    (hw : s.withdrawing = false) (c₁ c : Core I) (sent : Option Sent)
    (hdefer : DeferEffect s.service.core e.now flood c₁) (h : PollEffect c₁ e.now buf c sent)
    (hsent : s.sent e = sent) :
    StepEffect s e c
  | confirm (v4 v6 : FamilyAttempt I) (he : e.call = .outcome v4 v6) (kind : AwaitingConfirm)
    (hk : s.service.awaitingConfirm = some kind) (c : Core I)
    (h : ConfirmEffect { s.service.core with awaitingConfirm := none }
      (FamilyAttempt.anchor v4 v6 e.now) (FamilyAttempt.project v4 v6)
      (s.service.roundDone (FamilyAttempt.project v4 v6)) kind c) :
    StepEffect s e c
  | withdraw (he : e.call = .withdraw) (hw : s.withdrawing = false) :
    StepEffect s e s.service.core.quiesced

theorem next_effect (s : Session I R EV) (e : Timed I) :
    StepEffect s e (s.next e).service.core := by
  obtain ⟨now, call⟩ := e
  have hheld : ∀ call : Call I, s.heeds call = false →
      (s.next ⟨now, call⟩).service.core = s.service.core := by
    intro call h
    simp only [next, served, h, Bool.false_eq_true, if_false]
    rfl
  have hserved : ∀ call : Call I, s.heeds call = true →
      (s.next ⟨now, call⟩).service.core = (serve s.service now call).core := by
    intro call h
    simp only [next, served, h, if_true]
    rfl
  -- a service being withdrawn settles what is in flight and nothing else
  cases call with
  | outcome v4 v6 =>
    rw [hserved _ rfl]
    rcases s.service.noteTransmitOutcome_effect now v4 v6 with ⟨hnone, hsame⟩ | ⟨kind, hk, heff⟩
    · have hcore : (serve s.service now (.outcome v4 v6)).core = s.service.core := by
        change (s.service.noteTransmitOutcome now v4 v6).1.core = s.service.core
        rw [hsame]
      rw [hcore]
      exact .idle rfl (by simp only [confirm, hnone, Option.map_none]) fun _ _ h => by cases h
    · exact .confirm v4 v6 rfl kind hk _ heff
  | update =>
    rw [hserved _ rfl, show (serve s.service now .update).core = s.service.core from
      s.service.poll_core]
    exact .idle rfl rfl fun _ _ h => by cases h
  | event event flood =>
    by_cases hw : s.withdrawing = true
    · rw [hheld _ (by simp only [heeds, hw, Bool.not_true])]
      exact .idle rfl rfl fun _ _ h => by cases h
    · have hw' := Bool.eq_false_iff.mpr hw
      rw [hserved _ (by simp only [heeds, hw', Bool.not_false])]
      exact .event event flood rfl hw' _ (s.service.handleEvent_effect event now flood)
  | timeout flood taken =>
    by_cases hw : s.withdrawing = true
    · rw [hheld _ (by simp only [heeds, hw, Bool.not_true])]
      exact .idle rfl rfl fun _ _ _ => hw
    · have hw' := Bool.eq_false_iff.mpr hw
      rw [hserved _ (by simp only [heeds, hw', Bool.not_false])]
      exact .timeout flood taken rfl hw' _ (s.service.handleTimeout_effect now flood taken)
  | poll flood buf =>
    by_cases hw : s.withdrawing = true
    · rw [hheld _ (by simp only [heeds, hw, Bool.not_true])]
      exact .idle (by simp only [sent, hw, if_true]) rfl fun _ _ h => by cases h
    · have hw' := Bool.eq_false_iff.mpr hw
      rw [hserved _ (by simp only [heeds, hw', Bool.not_false])]
      refine .poll flood buf rfl hw' _ _ _ (s.service.deferFirstProbe_effect now flood)
        ((s.service.deferFirstProbeUnderFlood now flood).pollTransmit_effect now buf) ?_
      simp only [sent, hw', Bool.false_eq_true, if_false]
      rfl
  | withdraw =>
    by_cases hw : s.withdrawing = true
    · rw [hheld _ (by simp only [heeds, hw, Bool.not_true])]
      exact .idle rfl rfl fun _ _ h => by cases h
    · have hw' := Bool.eq_false_iff.mpr hw
      rw [hserved _ (by simp only [heeds, hw', Bool.not_false])]
      exact .withdraw rfl hw'

theorem sent_polled (s : Session I R EV) (e : Timed I) (d : Sent) (hd : s.sent e = some d) :
    s.withdrawing = false ∧ ∃ flood buf c₁, DeferEffect s.service.core e.now flood c₁ ∧
      PollEffect c₁ e.now buf (s.next e).service.core (some d) := by
  have heff := s.next_effect e
  generalize (s.next e).service.core = c' at heff ⊢
  cases heff with
  | poll flood buf he hw c₁ _ sent hdefer heff hsent =>
    rw [hsent] at hd
    subst hd
    exact ⟨hw, flood, buf, c₁, hdefer, heff⟩
  | idle hsent hconfirm htimeout =>
    rw [hsent] at hd
    cases hd
  | event event flood he hw _ heff =>
    simp only [sent, he] at hd
    cases hd
  | timeout flood taken he hw _ heff =>
    simp only [sent, he] at hd
    cases hd
  | confirm v4 v6 he kind hk _ heff =>
    simp only [sent, he] at hd
    cases hd
  | withdraw he hw =>
    simp only [sent, he] at hd
    cases hd

instance (probe : Bool) (s : Session I R EV) (e : Timed I) :
    Decidable ((machine probe).admits s e) := inferInstanceAs (Decidable (s.admits e))

omit [SeedableRng R] [Pool EV] in
theorem sent_any (s : Session I R EV) (e : Timed I) (p : Sent → Bool)
    (h : (s.sent e).any p = true) : ∃ d, s.sent e = some d ∧ p d = true := by
  cases hs : s.sent e with
  | none =>
    rw [hs] at h
    cases h
  | some d =>
    rw [hs] at h
    exact ⟨d, rfl, h⟩

def printerAt (probe : Bool) (now : Uptime) : Session Uptime ZeroRng Slab :=
  ⟨Service.tryNew ServiceRecords.printer now [] probe true .new, false, now, now⟩

theorem printerAt_registered (probe : Bool) (now : Uptime) :
    Registered probe (printerAt probe now) := by
  refine ⟨ServiceRecords.printer, now, [], true, .new, ?_, rfl⟩
  exact ⟨by decide +kernel, by decide, by decide +kernel⟩

def timer (now : Uptime) : Timed Uptime := ⟨now, .timeout .new ⟨[]⟩⟩

def pollAt (now : Uptime) : Timed Uptime := ⟨now, .poll .new (List.replicate 512 0)⟩

def acceptedAt (now : Uptime) : Timed Uptime := ⟨now, .outcome (.accepted now) .noSocket⟩

def hearsProbe (now : Uptime) (theirs : ServiceRecords) : Timed Uptime :=
  match writeProbe theirs (List.replicate 512 0) with
  | .ok (msg, _) =>
    ⟨now, .event (.probeProposal ⟨multicastDst, ⟨msg.octets, msg.header⟩, ⟨0⟩⟩) .new⟩
  | .error _ => ⟨now, .update⟩

def hearsSrv (now : Uptime) (theirs : ServiceRecords) : Timed Uptime :=
  match writeAnnounce theirs (List.replicate 512 0) with
  | .ok (msg, _) =>
    let srv := (MessageReader.answers ⟨msg.octets, msg.header⟩).findSome? fun r =>
      match r with
      | .ok ref => if ref.rtype = .srv then some ref else none
      | .error _ => none
    match srv with
    | some ref => ⟨now, .event (.probeConflict ⟨multicastDst, ref, ⟨0⟩, .unmatched, .instance_⟩) .new⟩
    | none => ⟨now, .update⟩
  | .error _ => ⟨now, .update⟩

/-- Timers, polls and confirms of a printer that probes at `t₀`, `t₁` and `t₂` and is due to
announce at `t₃`. -/
def probing (t₀ t₁ t₂ t₃ : Uptime) : List (Timed Uptime) :=
  [timer t₀, timer t₀, pollAt t₀, acceptedAt t₀, timer t₁, pollAt t₁, acceptedAt t₁,
    timer t₂, pollAt t₂, acceptedAt t₂, timer t₃, timer t₃]

end Session
end Hick
