import Hick.Service.Aside
import Hick.Service.RespondSpec

/-!
# What a drain leaves (service/mod.rs:5091-5484, 2619-2660, endpoint/service.rs:463-470, 699-719)

A driver polls a service and confirms each datagram until a poll answers `Ok(None)`. It then parks
until the deadline of the service.
-/

set_option linter.unusedSectionVars false

namespace Hick
open Octets Wire Respond Runs

namespace Pending

/-- "slot 1 is `Some` only if slot 0 is" (service/mod.rs:2664-2668). -/
def Packed (p : Pending) : Prop := p.first = none → p.second = none

theorem empty_packed : empty.Packed := fun _ => rfl

theorem push_packed (p : Pending) (kind : PendingTransmitKind) : (p.push kind).Packed := by
  obtain ⟨first, second⟩ := p
  intro hnone
  cases first with
  | none => cases hnone
  | some k =>
    cases second with
    | none => cases hnone
    | some k' => cases hnone

theorem pop_packed (p : Pending) (h : p.Packed) : p.pop.Packed := by
  obtain ⟨first, second⟩ := p
  cases first with
  | none => exact h
  | some k => exact fun _ => rfl

theorem isEmpty_of_peek (p : Pending) (h : p.Packed) (hpeek : p.peek = none) :
    p.isEmpty = true := by
  obtain ⟨first, second⟩ := p
  rw [peek] at hpeek
  subst hpeek
  rw [show second = none from h rfl]
  rfl

end Pending

section
variable {I : Type} [Instant I]

theorem due_earliest (a b : Option I) (now : I) :
    due (earliest a b) now = (due a now || due b now) := by
  cases a with
  | none => rfl
  | some a =>
    cases b with
    | none => simp [earliest, due]
    | some b => simp [earliest, due]

def Core.allKnown (c : Core I) (now : I) : Bool :=
  (unsuppressed c.records (c.suppresses now) false).isEmpty

/-- A response that the known answers empty has another entry of the queue behind it, and nothing
wakes the driver for that entry. -/
structure Core.Strands (c : Core I) (now : I) : Prop where
  head : c.pendingTransmits.peek = some .response
  behind : c.pendingTransmits.second.isSome = true
  known : c.allKnown now = true
  settled : c.latched = false
  replies : c.pendingLegacy.length ≤ 1
  lifecycle : due c.lifecycleDeadline now = false
  response : due c.responseDeadline now = false

end

theorem filtered_isEmpty (records : ServiceRecords) (buf : Bytes)
    (hintMatches : ResourceType → Bytes → Bool) (msg : Message) (emitted : EmittedRecords)
    (h : writeAnnounceFiltered records buf hintMatches = .ok (msg, emitted)) :
    emitted.isEmpty = (unsuppressed records hintMatches false).isEmpty := by
  obtain ⟨hemitted, -⟩ :=
    writeAnnounceFiltered_spec records _ (fun _ hmem => hmem) buf hintMatches msg emitted h
  rw [hemitted]
  rfl

namespace Service
variable {I R : Type} {EV : Type → Type} [Instant I] [SeedableRng R] [Pool EV]

structure Drained (s : Service I R EV) (now : I) : Prop where
  queue : s.pendingTransmits.isEmpty = true
  replies : s.pendingLegacy = []
  enumeration : due s.metaResponseDeadline now = false

def Seen (s : Service I R EV) (now : I) : Prop := ∃ t, s.lastNow = some t ∧ t ≤ now

variable (s : Service I R EV) (now : I)

theorem Seen.due (h : s.Seen now) :
    due s.lastNow now = true := by
  obtain ⟨t, ht, hle⟩ := h
  exact (due_iff _ _).mpr ⟨t, ht, hle⟩

theorem Seen.along (s s' : Service I R EV) (now later : I) (h : s.Seen now)
    (hkept : s'.lastNow = s.lastNow) (hle : now ≤ later) : s'.Seen later := by
  obtain ⟨t, ht, hbefore⟩ := h
  exact ⟨t, hkept.trans ht, le_trans hbefore hle⟩

theorem pollTimeout_urgent (h : s.Seen now)
    (hurgent : s.pendingLegacy ≠ [] ∨ s.core.latched = true) :
    due s.pollTimeout now = true := by
  unfold pollTimeout
  split
  · exact h.due
  · rename_i hreplies
    split
    · exact h.due
    · rename_i hlatched
      cases hurgent with
      | inl howed =>
        exfalso
        cases hl : s.pendingLegacy with
        | nil => exact howed hl
        | cons reply rest =>
          rw [hl] at hreplies
          exact hreplies rfl
      | inr hl => exact absurd hl hlatched

theorem pollTimeout_deadlines (h : s.Seen now)
    (hreplies : s.pendingLegacy = []) (hlatched : s.core.latched = false) :
    due s.pollTimeout now = (s.startupParked || (due s.lifecycleDeadline now ||
      (due s.responseDeadline now || due s.metaResponseDeadline now))) := by
  have hnone : ¬(!s.pendingLegacy.isEmpty) = true := by
    rw [hreplies]
    exact Bool.false_ne_true
  have hsettled : ¬s.conflictClassifiedUnresolved = true := by
    rw [show s.conflictClassifiedUnresolved = s.core.latched from rfl, hlatched]
    exact Bool.false_ne_true
  unfold pollTimeout
  rw [if_neg hnone, if_neg hsettled]
  cases hparked : s.startupParked with
  | true =>
    rw [if_pos rfl]
    exact h.due
  | false => rw [if_neg Bool.false_ne_true, due_earliest, due_earliest, Bool.false_or]

theorem pollMeta_none (buf : Bytes)
    (h : (s.pollMeta now buf).2 = none) :
    (s.pollMeta now buf).1.core = s.core ∧
      due (s.pollMeta now buf).1.metaResponseDeadline now = false := by
  unfold pollMeta at h ⊢
  cases hdue : s.metaResponseDeadline with
  | none =>
    constructor
    · rfl
    · dsimp only
      rw [hdue]
      rfl
  | some deadline =>
    rw [hdue] at h
    dsimp only at h ⊢
    split
    · rename_i hlater
      constructor
      · rfl
      · rw [hdue]
        exact decide_eq_false (not_le.mpr hlater)
    · rename_i hnow
      rw [if_neg hnow] at h
      split
      · exact ⟨rfl, rfl⟩
      · rename_i hasked
        rw [if_neg hasked] at h
        split
        · exact ⟨rfl, rfl⟩
        · rename_i metaName hname
          rw [hname] at h
          dsimp only at h
          split
          · exact ⟨rfl, rfl⟩
          · rename_i msg hmsg
            rw [hmsg] at h
            cases h

/-- The reply at the head has not been sent: it waits for a latched conflict, or did not fit. -/
def replied (s : Service I R EV) : Service I R EV :=
  { s with
    pendingLegacy := if s.conflictClassifiedUnresolved then s.pendingLegacy
      else s.pendingLegacy.tail }

theorem pollLegacy_none (buf : Bytes) (h : (s.pollLegacy buf).2 = none) :
    (s.pollLegacy buf).1 = s.replied := by
  unfold pollLegacy at h
  unfold pollLegacy replied
  cases howed : s.pendingLegacy with
  | nil =>
    dsimp only
    rw [List.tail_nil, ite_self, ← howed]
  | cons legacy rest =>
    rw [howed] at h
    dsimp only at h ⊢
    split
    · rw [← howed]
    · rename_i hsettled
      rw [if_neg hsettled] at h
      split
      · rfl
      · rename_i msg token hmsg
        rw [hmsg] at h
        cases h

theorem pollQueue_none (buf : Bytes)
    (h : (s.pollQueue now buf).2 = .ok none) :
    ((s.pollQueue now buf).1 = s ∧
        (s.pendingTransmits.peek = none ∨ s.core.latched = true)) ∨
      (s.pollQueue now buf).1 = { s with
        pendingTransmits := s.pendingTransmits.pop
        kas := s.kas.drop
        questionerSrcs := [] } ∧
      s.pendingTransmits.peek = some .response ∧ s.core.latched = false ∧
      s.core.allKnown now = true := by
  unfold pollQueue at h ⊢
  dsimp only at h ⊢
  cases hpeek : s.pendingTransmits.peek with
  | none => exact Or.inl ⟨rfl, Or.inl rfl⟩
  | some kind =>
    rw [hpeek] at h
    dsimp only at h ⊢
    split
    · rename_i hlatched
      exact Or.inl ⟨rfl, Or.inr hlatched⟩
    · rename_i hsettled
      rw [if_neg hsettled] at h
      cases kind with
      | probe =>
        exfalso
        dsimp only at h
        split at h
        · cases h
        · cases h
      | announcement =>
        exfalso
        dsimp only at h
        split at h
        · cases h
        · cases h
      | response =>
        dsimp only at h ⊢
        split
        · rename_i e he
          rw [he] at h
          cases h
        · rename_i msg emitted he
          rw [he] at h
          dsimp only at h
          have hempty := filtered_isEmpty s.records buf (s.suppresses now) msg emitted he
          split
          · rename_i hnone
            rw [hnone] at hempty
            exact Or.inr ⟨rfl, rfl, Bool.eq_false_iff.mpr hsettled, hempty.symm⟩
          · rename_i hsome
            rw [if_neg hsome] at h
            cases h

theorem emptied_strands (hreplies : s.pendingLegacy = [])
    (henumeration : due s.metaResponseDeadline now = false)
    (hpeek : s.pendingTransmits.peek = some .response) (hsettled : s.core.latched = false)
    (hknown : s.core.allKnown now = true) :
    (({ s with
        pendingTransmits := s.pendingTransmits.pop
        kas := s.kas.drop
        questionerSrcs := [] } : Service I R EV).Drained now ∨
      (({ s with
          pendingTransmits := s.pendingTransmits.pop
          kas := s.kas.drop
          questionerSrcs := [] } : Service I R EV).startupParked ||
        (due s.lifecycleDeadline now || (due s.responseDeadline now ||
          due s.metaResponseDeadline now))) = true) ↔
      s.pendingLegacy ≠ [] ∨ ¬s.core.Strands now := by
  have hpop : s.pendingTransmits.pop = ⟨s.pendingTransmits.second, none⟩ := by
    rw [Pending.peek] at hpeek
    rw [Pending.pop, hpeek]
    rfl
  cases hsecond : s.pendingTransmits.second with
  | none =>
    rw [hsecond] at hpop
    constructor
    · intro _
      apply Or.inr
      intro hs
      have hbehind := hs.behind
      rw [show s.core.pendingTransmits.second = none from hsecond] at hbehind
      cases hbehind
    · intro _
      refine Or.inl ⟨?_, hreplies, henumeration⟩
      rw [hpop]
      rfl
  | some kind =>
    rw [hsecond] at hpop
    have hawake : ({ s with
        pendingTransmits := s.pendingTransmits.pop
        kas := s.kas.drop
        questionerSrcs := [] } : Service I R EV).startupParked = false := by
      unfold startupParked
      dsimp only
      rw [hpop, show Pending.isEmpty ⟨some kind, none⟩ = false from rfl, Bool.and_false]
      rfl
    rw [hawake, henumeration, Bool.or_false, Bool.false_or]
    constructor
    · intro h
      apply Or.inr
      intro hs
      cases h with
      | inl hdrained =>
        have hqueue := hdrained.queue
        rw [hpop] at hqueue
        cases hqueue
      | inr hdue =>
        rw [show due s.lifecycleDeadline now = false from hs.lifecycle,
          show due s.responseDeadline now = false from hs.response] at hdue
        cases hdue
    · intro h
      apply Or.inr
      cases h with
      | inl howed => exact absurd hreplies howed
      | inr hnot =>
        by_contra hcalm
        rw [Bool.or_eq_true, not_or, Bool.not_eq_true, Bool.not_eq_true] at hcalm
        apply hnot
        constructor
        · exact hpeek
        · rw [show s.core.pendingTransmits.second = some kind from hsecond]
          rfl
        · exact hknown
        · exact hsettled
        · rw [show s.core.pendingLegacy = [] from hreplies]
          exact Nat.zero_le 1
        · exact hcalm.1
        · exact hcalm.2

/-- What the rest of a poll that answers with nothing comes to, where `s` has had its replies
polled. -/
theorem pollQueue_strands (buf : Bytes)
    (hpacked : s.pendingTransmits.Packed) (hseen : s.Seen now)
    (henumeration : due s.metaResponseDeadline now = false)
    (h : (s.pollQueue now buf).2 = .ok none) :
    ((s.pollQueue now buf).1.Drained now ∨ due (s.pollQueue now buf).1.pollTimeout now = true) ↔
      s.pendingLegacy ≠ [] ∨ ¬s.core.Strands now := by
  have hurgent := (s.pollQueue now buf).1.pollTimeout_urgent now
  have hcalm := (s.pollQueue now buf).1.pollTimeout_deadlines now
  cases s.pollQueue_none now buf h with
  | inl hsame =>
    obtain ⟨heq, hstop⟩ := hsame
    rw [heq] at hurgent ⊢
    have hnot : ¬s.core.Strands now := by
      intro hs
      cases hstop with
      | inl hpeek => exact Option.some_ne_none _ (hs.head.symm.trans hpeek)
      | inr hlatched => exact Bool.false_ne_true (hs.settled.symm.trans hlatched)
    constructor
    · intro _
      exact Or.inr hnot
    · intro _
      by_cases hreplies : s.pendingLegacy = []
      · cases hstop with
        | inl hpeek =>
          exact Or.inl ⟨s.pendingTransmits.isEmpty_of_peek hpacked hpeek, hreplies, henumeration⟩
        | inr hlatched => exact Or.inr (hurgent hseen (Or.inr hlatched))
      · exact Or.inr (hurgent hseen (Or.inl hreplies))
  | inr hemptied =>
    obtain ⟨heq, hpeek, hsettled, hknown⟩ := hemptied
    rw [heq] at hurgent hcalm ⊢
    by_cases hreplies : s.pendingLegacy = []
    · rw [hcalm hseen hreplies hsettled]
      exact s.emptied_strands now hreplies henumeration hpeek hsettled hknown
    · exact ⟨fun _ => Or.inl hreplies, fun _ => Or.inr (hurgent hseen (Or.inl hreplies))⟩

theorem replied_strands :
    s.replied.pendingLegacy ≠ [] ∨ ¬s.replied.core.Strands now ↔ ¬s.core.Strands now := by
  unfold replied
  dsimp only
  cases hlatched : s.conflictClassifiedUnresolved with
  | true =>
    constructor
    · intro _ hs
      exact Bool.false_ne_true (hs.settled.symm.trans hlatched)
    · intro _
      apply Or.inr
      intro hs
      exact Bool.false_ne_true (hs.settled.symm.trans hlatched)
  | false =>
    rw [if_neg Bool.false_ne_true]
    constructor
    · intro h hs
      have htail : s.pendingLegacy.tail = [] := by
        rw [← List.length_eq_zero_iff, List.length_tail]
        have hreplies : s.pendingLegacy.length ≤ 1 := hs.replies
        omega
      cases h with
      | inl howed => exact howed htail
      | inr hnot =>
        apply hnot
        refine ⟨hs.head, hs.behind, hs.known, hs.settled, ?_, hs.lifecycle, hs.response⟩
        show s.pendingLegacy.tail.length ≤ 1
        rw [htail]
        exact Nat.zero_le 1
    · intro hnot
      by_cases htail : s.pendingLegacy.tail = []
      · apply Or.inr
        intro hs
        apply hnot
        refine ⟨hs.head, hs.behind, hs.known, hs.settled, ?_, hs.lifecycle, hs.response⟩
        show s.pendingLegacy.length ≤ 1
        rw [← List.length_eq_zero_iff, List.length_tail] at htail
        omega
      · exact Or.inl htail

theorem pollTransmit_none (buf : Bytes)
    (htoken : s.awaitingConfirm = none) (hpacked : s.pendingTransmits.Packed) (hseen : s.Seen now)
    (h : (s.pollTransmit now buf).2 = .ok none) :
    ((s.pollTransmit now buf).1.Drained now ∨ due (s.pollTransmit now buf).1.pollTimeout now = true) ↔
      ¬s.core.Strands now := by
  unfold pollTransmit at h ⊢
  have hnotoken : ¬s.awaitingConfirm.isSome = true := by
    rw [htoken]
    exact Bool.false_ne_true
  rw [if_neg hnotoken] at h ⊢
  have hseen₁ : (s.pollMeta now buf).1.Seen now :=
    hseen.along _ _ now now (s.pollMeta_lastNow now buf) (le_refl now)
  have hmeta := s.pollMeta_none now buf
  generalize s.pollMeta now buf = polled at *
  obtain ⟨s₁, _ | sent⟩ := polled
  · obtain ⟨hcore, henumeration⟩ := hmeta rfl
    have hpacked₁ : s₁.pendingTransmits.Packed := by
      rw [show s₁.pendingTransmits = s.pendingTransmits from congrArg Core.pendingTransmits hcore]
      exact hpacked
    rw [← hcore]
    clear hcore hmeta
    have hlegacy := s₁.pollLegacy_none buf
    dsimp only at h ⊢
    generalize s₁.pollLegacy buf = replied at *
    obtain ⟨s₂, _ | sent⟩ := replied
    · have heq := hlegacy rfl
      dsimp only at heq h ⊢
      rw [heq] at h ⊢
      rw [s₁.replied.pollQueue_strands now buf hpacked₁ hseen₁ henumeration h]
      exact s₁.replied_strands now
    · cases h
  · cases h

theorem deferFirstProbe_strands (flood : ConflictFlood I) :
    (s.deferFirstProbeUnderFlood now flood).core.Strands now ↔ s.core.Strands now := by
  have heff := s.deferFirstProbe_effect now flood
  generalize (s.deferFirstProbeUnderFlood now flood).core = c at heff ⊢
  cases heff with
  | none => exact Iff.rfl
  | dropped hw hp deadline =>
    have hsecond : s.core.pendingTransmits.pop.second = none := by
      rw [Pending.peek] at hp
      rw [Pending.pop, hp]
      rfl
    constructor
    · intro hs
      have hbehind := hs.behind
      rw [show _ = none from hsecond] at hbehind
      cases hbehind
    · intro hs
      have hhead := hs.head
      rw [hp] at hhead
      cases hhead

theorem pollDeferred_none (flood : ConflictFlood I) (buf : Bytes)
    (htoken : s.awaitingConfirm = none) (hpacked : s.pendingTransmits.Packed) (hseen : s.Seen now)
    (h : (s.pollDeferred now flood buf).2 = .ok none) :
    ((s.pollDeferred now flood buf).1.Drained now ∨
        due (s.pollDeferred now flood buf).1.pollTimeout now = true) ↔ ¬s.core.Strands now := by
  rw [← s.deferFirstProbe_strands now flood]
  unfold pollDeferred at h ⊢
  have heff := s.deferFirstProbe_effect now flood
  have hkept : (s.deferFirstProbeUnderFlood now flood).core.awaitingConfirm = none ∧
      (s.deferFirstProbeUnderFlood now flood).core.pendingTransmits.Packed := by
    generalize (s.deferFirstProbeUnderFlood now flood).core = c at heff
    cases heff with
    | none => exact ⟨htoken, hpacked⟩
    | dropped hw hp deadline => exact ⟨htoken, s.pendingTransmits.pop_packed hpacked⟩
  have hseen' : (s.deferFirstProbeUnderFlood now flood).Seen now :=
    hseen.along _ _ now now (congrArg Prod.fst (s.deferFirstProbe_aside now flood)) (le_refl now)
  exact pollTransmit_none _ now buf hkept.1 hkept.2 hseen' h

end Service

namespace Session
variable {I R : Type} {EV : Type → Type} [Instant I] [SeedableRng R] [Pool EV]

/-- `poll_service_timeout` (endpoint/service.rs:463-470). -/
def pollTimeout (s : Session I R EV) : Option I :=
  if s.withdrawing then none else s.service.pollTimeout

/-- What `poll_service_transmit` answers (endpoint/service.rs:699-719). -/
def answer (s : Session I R EV) (now : I) (flood : ConflictFlood I) (buf : Bytes) :
    Except TransmitError (Option Sent) :=
  if s.withdrawing then .ok none else (s.service.pollDeferred now flood buf).2

/-- The driver confirms what is in flight and polls, all at `now`, and stands before the first poll
that answers `Ok(None)`. -/
inductive Drain (now : I) : Session I R EV → Session I R EV → Prop
  | last (s : Session I R EV) (htoken : s.service.awaitingConfirm = none) : Drain now s s
  | confirm (s s' : Session I R EV) (v4 v6 : FamilyAttempt I)
    (htoken : s.service.awaitingConfirm ≠ none) (hadmits : s.admits ⟨now, .outcome v4 v6⟩)
    (rest : Drain now (s.next ⟨now, .outcome v4 v6⟩) s') : Drain now s s'
  | poll (s s' : Session I R EV) (flood : ConflictFlood I) (buf : Bytes)
    (hmore : s.answer now flood buf ≠ .ok none)
    (rest : Drain now (s.next ⟨now, .poll flood buf⟩) s') : Drain now s s'

structure Poised (s : Session I R EV) : Prop where
  seen : s.service.Seen s.clock
  packed : s.service.pendingTransmits.Packed
  withdrawn : s.withdrawing = true → s.service.pendingTransmits = .empty ∧
    s.service.pendingLegacy = [] ∧ s.service.metaResponseDeadline = none

theorem poised_start (probe : Bool) (s : Session I R EV) (h : Registered probe s) : Poised s := by
  obtain ⟨records, now, seed, reAnnounce, flood, -, rfl⟩ := h
  constructor
  · exact ⟨now, rfl, le_refl now⟩
  · exact Pending.empty_packed
  · intro hw
    cases hw

theorem served_seen (s : Session I R EV) (e : Timed I) (h : s.service.Seen s.clock)
    (hadmits : s.admits e) : (s.served e).Seen e.now := by
  have hclock := hadmits.1
  unfold served
  split
  · unfold serve
    cases e.call with
    | event event flood =>
      exact ⟨e.now, s.service.handleEvent_lastNow event e.now flood, le_refl e.now⟩
    | timeout flood taken =>
      exact ⟨e.now, s.service.handleTimeout_lastNow e.now flood taken, le_refl e.now⟩
    | poll flood buf =>
      have hdefer := congrArg Prod.fst (s.service.deferFirstProbe_aside e.now flood)
      exact h.along _ _ _ _ (((s.service.deferFirstProbeUnderFlood e.now flood).pollTransmit_lastNow
        e.now buf).trans hdefer) hclock
    | outcome v4 v6 =>
      exact h.along _ _ _ _
        (congrArg Prod.fst (s.service.noteTransmitOutcome_aside e.now v4 v6)) hclock
    | update => exact h.along _ _ _ _ (congrArg Prod.fst s.service.poll_aside) hclock
    | withdraw => exact h.along _ _ _ _ rfl hclock
  · exact h.along _ _ _ _ rfl hclock

theorem next_packed (s : Session I R EV) (e : Timed I) (h : s.service.pendingTransmits.Packed) :
    (s.next e).service.pendingTransmits.Packed := by
  have hcore : s.service.core.pendingTransmits.Packed := h
  have heff := s.next_effect e
  show (s.next e).service.core.pendingTransmits.Packed
  generalize (s.next e).service.core = c at heff ⊢
  cases heff with
  | idle hsent hconfirm htimeout => exact hcore
  | event event flood he hw c heff =>
    cases heff with
    | restarted hs deadline => exact Pending.empty_packed
    | _ => exact hcore
  | timeout flood taken he hw c heff =>
    cases heff with
    | waited hd hl => exact Pending.empty_packed
    | renamed hd name hname deadline => exact Pending.empty_packed
    | gaveUp hd => exact Pending.empty_packed
    | ticked hl c hticks =>
      induction hticks with
      | refl => exact hcore
      | tail _ hmove ih =>
        cases hmove with
        | queueProbe n hs hn hdue pending hp d =>
          cases hp with
          | inl hsame => rw [hsame]; exact ih
          | inr hpush => rw [hpush]; exact Pending.push_packed _ _
        | queueAnnouncement hs hdue pending hp d =>
          cases hp with
          | inl hsame => rw [hsame]; exact ih
          | inr hpush => rw [hpush]; exact Pending.push_packed _ _
        | queueResponse hfired => exact Pending.push_packed _ _
        | _ => exact ih
  | poll flood buf he hw c₁ c sent hdefer heff hsent =>
    have hdeferred : c₁.pendingTransmits.Packed := by
      cases hdefer with
      | none => exact hcore
      | dropped hw hp deadline => exact Pending.pop_packed _ hcore
    cases heff with
    | silent legacy ho => exact hdeferred
    | metaReply => exact hdeferred
    | legacyReply => exact hdeferred
    | _ => exact Pending.pop_packed _ hdeferred
  | confirm v4 v6 he kind hk c heff => cases heff <;> exact hcore
  | withdraw he hw => exact Pending.empty_packed

theorem next_withdrawn (s : Session I R EV) (e : Timed I)
    (h : s.withdrawing = true → s.service.pendingTransmits = .empty ∧
      s.service.pendingLegacy = [] ∧ s.service.metaResponseDeadline = none) :
    (s.next e).withdrawing = true → (s.next e).service.pendingTransmits = .empty ∧
      (s.next e).service.pendingLegacy = [] ∧ (s.next e).service.metaResponseDeadline = none := by
  obtain ⟨now, call⟩ := e
  intro hnext
  by_cases hw : s.withdrawing = true
  · obtain ⟨hqueue, hreplies, henumeration⟩ := h hw
    have hheld : ∀ call : Call I, s.heeds call = false →
        (s.next ⟨now, call⟩).service.pendingTransmits = .empty ∧
          (s.next ⟨now, call⟩).service.pendingLegacy = [] ∧
          (s.next ⟨now, call⟩).service.metaResponseDeadline = none := by
      intro call hheeds
      simp only [next, served, hheeds, Bool.false_eq_true, if_false]
      exact ⟨hqueue, hreplies, henumeration⟩
    cases call with
    | outcome v4 v6 =>
      have haside := congrArg Prod.snd (s.service.noteTransmitOutcome_aside now v4 v6)
      have hmeta : (s.service.noteTransmitOutcome now v4 v6).1.metaResponseDeadline = none :=
        haside.trans henumeration
      have hkept : (s.service.noteTransmitOutcome now v4 v6).1.core.pendingTransmits = .empty ∧
          (s.service.noteTransmitOutcome now v4 v6).1.core.pendingLegacy = [] := by
        cases s.service.noteTransmitOutcome_effect now v4 v6 with
        | inl hidle =>
          rw [hidle.2]
          exact ⟨hqueue, hreplies⟩
        | inr hsettled =>
          obtain ⟨kind, -, heff⟩ := hsettled
          generalize (s.service.noteTransmitOutcome now v4 v6).1.core = c at heff
          cases heff <;> exact ⟨hqueue, hreplies⟩
      exact ⟨hkept.1, hkept.2, hmeta⟩
    | update =>
      have hcore := s.service.poll_core
      have hmeta : s.service.poll.1.metaResponseDeadline = none :=
        (congrArg Prod.snd s.service.poll_aside).trans henumeration
      exact ⟨(congrArg Core.pendingTransmits hcore).trans hqueue,
        (congrArg Core.pendingLegacy hcore).trans hreplies, hmeta⟩
    | _ => exact hheld _ (by simp only [heeds, hw, Bool.not_true])
  · have hw' : s.withdrawing = false := Bool.eq_false_iff.mpr hw
    cases call with
    | withdraw =>
      simp only [next, served, heeds, hw', Bool.not_false, if_true]
      exact ⟨rfl, rfl, rfl⟩
    | _ =>
      simp only [next, hw', Bool.or_false] at hnext
      cases hnext

theorem poised_run (probe : Bool) (ts : List (Transition (Session I R EV) (Timed I)))
    (s : Session I R EV) (run : Run (machine probe) ts s) : Poised s := by
  induction run with
  | start s hstart => exact poised_start probe s hstart
  | step ts s e run hadmits ih =>
    exact ⟨served_seen s e ih.seen hadmits, next_packed s e ih.packed,
      next_withdrawn s e ih.withdrawn⟩

theorem Drain.reached (probe : Bool) (now : I) (s s' : Session I R EV) (h : Drain now s s')
    (ts : List (Transition (Session I R EV) (Timed I))) (run : Run (machine probe) ts s)
    (hclock : s.clock ≤ now) :
    (∃ ts', Run (machine probe) ts' s') ∧ s'.clock ≤ now ∧ s'.service.awaitingConfirm = none := by
  induction h generalizing ts with
  | last s htoken => exact ⟨⟨ts, run⟩, hclock, htoken⟩
  | confirm s s' v4 v6 htoken hadmits rest ih =>
    exact ih _ (run.step ts s ⟨now, .outcome v4 v6⟩ hadmits) (le_refl now)
  | poll s s' flood buf hmore rest ih =>
    exact ih _ (run.step ts s ⟨now, .poll flood buf⟩ ⟨hclock, trivial⟩) (le_refl now)

/-- Of a service that a driver drains at `now`, in whatever state it finds it, the first poll that
answers `Ok(None)` leaves nothing that would go out at `now`, or a deadline that has come, if and
only if it is not made where the known answers empty a response that another entry stands behind. -/
theorem drain_leaves_nothing_or_deadline_iff (probe : Bool)
    (ts : List (Transition (Session I R EV) (Timed I))) (s : Session I R EV)
    (run : Run (machine probe) ts s) (now : I) (hclock : s.clock ≤ now) (s' : Session I R EV)
    (hdrain : Drain now s s') (flood : ConflictFlood I) (buf : Bytes)
    (hnone : s'.answer now flood buf = .ok none) :
    ((s'.next ⟨now, .poll flood buf⟩).service.Drained now ∨
        due (s'.next ⟨now, .poll flood buf⟩).pollTimeout now = true) ↔
      ¬s'.service.core.Strands now := by
  obtain ⟨⟨ts', run'⟩, hclock', htoken⟩ := hdrain.reached probe now s s' ts run hclock
  have hpoised := poised_run probe ts' s' run'
  have hseen : s'.service.Seen now := hpoised.seen.along _ _ _ _ rfl hclock'
  cases hw : s'.withdrawing with
  | true =>
    obtain ⟨hqueue, hreplies, henumeration⟩ := hpoised.withdrawn hw
    have hnext : (s'.next ⟨now, .poll flood buf⟩).service =
        s'.service.takeRenameGoodbyeHandoff.1 := by
      simp only [next, served, heeds, hw, Bool.not_true, Bool.false_eq_true, if_false]
    constructor
    · intro _ hs
      have hhead := hs.head
      rw [show s'.service.core.pendingTransmits = .empty from hqueue] at hhead
      cases hhead
    · intro _
      rw [hnext]
      refine Or.inl ⟨?_, hreplies, ?_⟩
      · show s'.service.pendingTransmits.isEmpty = true
        rw [hqueue]
        rfl
      · show due s'.service.metaResponseDeadline now = false
        rw [henumeration]
        rfl
  | false =>
    have hnext : (s'.next ⟨now, .poll flood buf⟩).service =
        (s'.service.pollDeferred now flood buf).1.takeRenameGoodbyeHandoff.1 := by
      simp only [next, served, heeds, hw, Bool.not_false, if_true]
      rfl
    have htimeout : (s'.next ⟨now, .poll flood buf⟩).pollTimeout =
        (s'.service.pollDeferred now flood buf).1.pollTimeout := by
      unfold pollTimeout
      rw [hnext, show (s'.next ⟨now, .poll flood buf⟩).withdrawing = false by
        simp only [next, hw, Bool.or_false]]
      rfl
    have hdrained : (s'.next ⟨now, .poll flood buf⟩).service.Drained now ↔
        (s'.service.pollDeferred now flood buf).1.Drained now := by
      rw [hnext]
      constructor
      · intro h
        exact ⟨h.queue, h.replies, h.enumeration⟩
      · intro h
        exact ⟨h.queue, h.replies, h.enumeration⟩
    rw [htimeout, hdrained]
    have hanswer : (s'.service.pollDeferred now flood buf).2 = .ok none := by
      rw [answer, hw, if_neg Bool.false_ne_true] at hnone
      exact hnone
    exact s'.service.pollDeferred_none now flood buf htoken hpoised.packed hseen hanswer

theorem answer_eq_none (a : Except TransmitError (Option Sent))
    (h : a.toOption.map Option.isNone = some true) : a = .ok none := by
  cases a with
  | error e => cases h
  | ok sent =>
    cases sent with
    | none => rfl
    | some d => cases h

theorem answer_ne_none (a : Except TransmitError (Option Sent))
    (h : a.toOption.map Option.isNone = some false) : a ≠ .ok none := by
  intro heq
  rw [heq] at h
  cases h

def announcingPrinter : Session Uptime ZeroRng Slab := (printerAt false 0).next (timer 0)

theorem announcing_printer_is_drained :
    ((announcingPrinter.next (pollAt 0)).next (acceptedAt 0)).next (pollAt 0) |>.service.Drained 0 := by
  have hrun : Run (machine false) _ announcingPrinter :=
    (Run.start _ (printerAt_registered false 0)).step _ _ (timer 0) (by decide +kernel)
  have hdrain : Drain 0 announcingPrinter
      ((announcingPrinter.next (pollAt 0)).next (acceptedAt 0)) := by
    apply Drain.poll _ _ .new (List.replicate 512 0) (answer_ne_none _ (by decide +kernel))
    apply Drain.confirm _ _ (.accepted 0) .noSocket
    · exact Option.isSome_iff_ne_none.mp (by decide +kernel)
    · decide +kernel
    · exact Drain.last _ (Option.isNone_iff_eq_none.mp (by decide +kernel))
  have h := drain_leaves_nothing_or_deadline_iff false _ _ hrun 0 (by decide +kernel) _ hdrain .new
    (List.replicate 512 0) (answer_eq_none _ (by decide +kernel))
  cases h.mpr (fun hs => absurd hs.behind (by decide +kernel)) with
  | inl hdrained => exact hdrained
  | inr hdue => exact absurd hdue (by decide +kernel)

def asker : SocketAddr := .v4 ⟨[10, 0, 0, 9], rfl⟩ mdnsPort

/-- A host asks for the printers and lists what it knows of this one, which is everything. -/
def asksForKnown (now : Uptime) : List (Timed Uptime) :=
  match encode Header.new (List.replicate 512 0)
      (MessageBuilder.pushQuestion ServiceRecords.printer.serviceType .ptr .in_ false),
    writeAnnounce ServiceRecords.printer (List.replicate 512 0) with
  | .ok (query, _), .ok (msg, _) =>
    ((MessageReader.questions ⟨query.octets, query.header⟩).filterMap fun q =>
      match q with
      | .ok q => some ⟨now, .event (.question ⟨q, asker, 0, false⟩) .new⟩
      | .error _ => none) ++
    (MessageReader.answers ⟨msg.octets, msg.header⟩).filterMap fun r =>
      match r with
      | .ok ref => some ⟨now, .event (.knownAnswer ⟨asker, ref⟩) .new⟩
      | .error _ => none
  | _, _ => []

/-- The printer announces itself at 0 and is asked at 950 ms. Its timer is called at 970 ms, when the
response is due, and at 1 s, when the second announcement is. -/
def behindResponse : List (Timed Uptime) :=
  [timer 0, pollAt 0, acceptedAt 0] ++ asksForKnown 950000000 ++
    [timer 970000000, timer 1000000000]

def parked : Session Uptime ZeroRng Slab := (machine false).play (printerAt false 0) behindResponse

/-- A drain at 1 s ends with the announcement still queued, and the driver parks for a second. -/
theorem announcement_is_stranded :
    ∃ (ts : List (Transition (Session Uptime ZeroRng Slab) (Timed Uptime)))
      (s : Session Uptime ZeroRng Slab) (now : Uptime) (flood : ConflictFlood Uptime) (buf : Bytes),
      Run (machine false) ts s ∧ s.clock ≤ now ∧ Drain now s s ∧
        s.answer now flood buf = .ok none ∧
        (s.next ⟨now, .poll flood buf⟩).service.pendingTransmits.Holds .announcement ∧
        ¬((s.next ⟨now, .poll flood buf⟩).service.Drained now ∨
          due (s.next ⟨now, .poll flood buf⟩).pollTimeout now = true) := by
  have hrun : Run (machine false) _ _ :=
    (Run.start _ (printerAt_registered false 0)).play _ _ _ behindResponse (by decide +kernel)
  have hstate : parked.clock ≤ 1000000000 ∧ parked.service.awaitingConfirm.isNone = true ∧
      (parked.answer 1000000000 .new (List.replicate 512 0)).toOption.map Option.isNone =
        some true ∧
      (parked.next (pollAt 1000000000)).service.pendingTransmits = ⟨some .announcement, none⟩ ∧
      due (parked.next (pollAt 1000000000)).pollTimeout 1000000000 = false := by decide +kernel
  obtain ⟨hclock, htoken, hanswer, hqueue, hdue⟩ := hstate
  refine ⟨_, parked, 1000000000, .new, List.replicate 512 0, hrun, hclock,
    Drain.last _ (Option.isNone_iff_eq_none.mp htoken), answer_eq_none _ hanswer, ?_, ?_⟩
  · rw [show (parked.next ⟨1000000000, .poll .new (List.replicate 512 0)⟩).service.pendingTransmits =
      ⟨some .announcement, none⟩ from hqueue]
    exact Or.inl rfl
  · intro h
    cases h with
    | inl hdrained =>
      have hempty := hdrained.queue
      rw [show (parked.next ⟨1000000000, .poll .new (List.replicate 512 0)⟩).service.pendingTransmits =
        ⟨some .announcement, none⟩ from hqueue] at hempty
      cases hempty
    | inr hcome => exact Bool.false_ne_true (hdue.symm.trans hcome)

end Session

end Hick
