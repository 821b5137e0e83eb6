import Mathlib
import Hick.Service.Events
import Hick.Service.Poll
import Hick.Service.Timeout

/-!
# What the operations of a service can do

The fields that decide what a service sends, and when, are its core.
-/

set_option linter.unusedSectionVars false

namespace Hick
open Octets Wire Respond

structure Core (I : Type) where
  state : ServiceState
  records : ServiceRecords
  lifecycleDeadline : Option I
  responseDeadline : Option I
  pendingTransmits : Pending
  kas : KasRing I
  questionerSrcs : List SocketAddr
  probeOnWire : Bool
  tiebreakLost : Bool
  probeDefeated : Bool
  goodbye : GoodbyeOwnership
  awaitingConfirm : Option AwaitingConfirm
  pendingLegacy : List LegacyResp
  sequenceStartedAt : I

namespace Core
variable {I : Type} [Instant I]

def latched (c : Core I) : Bool := c.probeDefeated || c.tiebreakLost

def startupParked (c : Core I) : Bool :=
  c.lifecycleDeadline.isNone && c.pendingTransmits.isEmpty && c.awaitingConfirm.isNone &&
    !c.probeOnWire && c.state.inStartup

def restarted (c : Core I) (now : I) (deadline : Option I)
    (renamedFrom : Option ServiceRecords) : Core I :=
  { c with
    state := .init
    lifecycleDeadline := deadline
    responseDeadline := none
    pendingTransmits := .empty
    kas := .empty
    questionerSrcs := []
    probeOnWire := false
    tiebreakLost := false
    probeDefeated := false
    awaitingConfirm := c.awaitingConfirm.map (·.demoted renamedFrom)
    pendingLegacy := []
    sequenceStartedAt := now }

def spent (c : Core I) : Core I :=
  { c with
    tiebreakLost := false
    probeDefeated := false }

def givenUp (c : Core I) : Core I :=
  { c with
    state := .conflicting
    lifecycleDeadline := none
    responseDeadline := none
    pendingTransmits := .empty
    kas := .empty
    questionerSrcs := []
    goodbye := c.goodbye.resetInstance
    awaitingConfirm := c.awaitingConfirm.map (·.demoted (some c.records))
    pendingLegacy := [] }

def quiesced (c : Core I) : Core I :=
  { c with
    lifecycleDeadline := none
    responseDeadline := none
    pendingTransmits := .empty
    kas := .empty
    questionerSrcs := []
    pendingLegacy := [] }

def suppresses (c : Core I) (now : I) (rtype : ResourceType) (rdata : Bytes) : Bool :=
  c.questionerSrcs.length ≤ 1 && c.kas.covers now rtype rdata

end Core

namespace Service
variable {I R : Type} {EV : Type → Type} [Instant I] [SeedableRng R] [Pool EV]

def core (s : Service I R EV) : Core I where
  state := s.state
  records := s.records
  lifecycleDeadline := s.lifecycleDeadline
  responseDeadline := s.responseDeadline
  pendingTransmits := s.pendingTransmits
  kas := s.kas
  questionerSrcs := s.questionerSrcs
  probeOnWire := s.probeOnWire
  tiebreakLost := s.tiebreakLost
  probeDefeated := s.probeDefeated
  goodbye := s.goodbye
  awaitingConfirm := s.awaitingConfirm
  pendingLegacy := s.pendingLegacy
  sequenceStartedAt := s.sequenceStartedAt

@[simp] theorem notify_core (s : Service I R EV) (update : ServiceUpdate) :
    (s.notify update).core = s.core := by
  unfold notify
  split <;> rfl

theorem poll_core (s : Service I R EV) : s.poll.1.core = s.core := by
  unfold poll
  split
  · rfl
  · split <;> rfl

theorem floodEligible_core (s : Service I R EV) (datagram : DatagramId) :
    (s.floodEligible datagram).1.core = s.core := by
  unfold floodEligible
  split
  · split <;> rfl
  · rfl

end Service

/-- A name still being probed for, or one whose first announcement has not been sent. -/
def Core.tentative {I : Type} (c : Core I) : Bool :=
  match c.state with
  | .init | .probing _ => true
  | .announcing n => n == 0 && c.awaitingConfirm.isNone
  | _ => false

/-- The hint a known answer leaves: from a host that asked, of one of our rrsets, with at least
half our TTL, until its own TTL runs out. -/
structure HintFrom {I : Type} [Instant I] (c : Core I) (ka : KnownAnswer) (now : I)
    (hint : KasHint I) : Prop where
  asked : ka.src ∈ c.questionerSrcs
  rclass : ka.record.rclass = .in_
  halfTtl : c.records.ttlSecs.toNat ≤ ka.record.ttl.toNat * 2
  expires : checkedAddDuration now (Duration.fromSecs ka.record.ttl.toNat) = some hint.expiresAt
  rdata : ∃ canonical, ka.record.canonicalRdataFolded = .ok canonical ∧
    hint.rdataHash = hashRdata canonical
  owner : ∃ owner, emittedOwnerName c.records ka.record.rtype = some owner ∧
    namesMatchRecord owner ka.record = true
  rtype : hint.rtype = ka.record.rtype

inductive EventEffect {I : Type} [Instant I] (c : Core I) (event : ServiceEvent) (now : I) :
    Core I → Prop
  | quiet : EventEffect c event now c
  | lost (h : c.tentative = true) :
    EventEffect c event now { c with tiebreakLost := true }
  | defeated (h : c.tentative = true) (hw : c.probeOnWire = true) :
    EventEffect c event now { c with probeDefeated := true }
  | owed (h : c.state.isPublished = true) (legacy : LegacyResp)
    (hport : legacy.dst.port ≠ mdnsPort) :
    EventEffect c event now { c with pendingLegacy := c.pendingLegacy ++ [legacy] }
  | asked (h : c.state.isPublished = true) (sq : ServiceQuestion) (he : event = .question sq)
    (due : I) :
    EventEffect c event now
      { c with
        responseDeadline := some (Service.sooner c.responseDeadline due)
        questionerSrcs := Service.noteSource c.questionerSrcs sq.src }
  | known (ka : KnownAnswer) (he : event = .knownAnswer ka) (hint : KasHint I)
    (h : HintFrom c ka now hint) :
    EventEffect c event now { c with kas := c.kas.store hint }
  | restarted (h : c.state.isPublished = true) (deadline : Option I) :
    EventEffect c event now (c.restarted now deadline none)

namespace Service
variable {I R : Type} {EV : Type → Type} [Instant I] [SeedableRng R] [Pool EV]

variable (s : Service I R EV) (event : ServiceEvent)

theorem isPreauthoritative_tentative (h : s.isPreauthoritative = true) :
    s.core.tentative = true := by
  have hstate : s.core.state = s.state := rfl
  unfold isPreauthoritative at h
  unfold Core.tentative
  rw [hstate]
  cases hs : s.state with
  | init => rfl
  | probing n => rfl
  | announcing n =>
    rw [hs] at h
    obtain ⟨hfirst, hnone⟩ := Bool.and_eq_true_iff.mp h
    exact Bool.and_eq_true_iff.mpr ⟨(Bool.and_eq_true_iff.mp hfirst).1, hnone⟩
  | _ =>
    rw [hs] at h
    cases h

theorem receive_core (now : I) :
    (s.receive event now).core = s.core := by
  unfold receive
  split
  · rw [floodEligible_core]
    rfl
  · rfl

theorem handlePreauthoritativeConflict_effect (pc : ProbeConflict) (now : I)
    (h : s.core.tentative = true) :
    EventEffect s.core event now (s.handlePreauthoritativeConflict pc).core := by
  unfold handlePreauthoritativeConflict
  split
  · exact .quiet
  · rename_i hw
    have hw' : s.probeOnWire = true := by simpa using hw
    cases pc.history with
    | relinquished => exact .lost h
    | unmatched => exact .defeated h hw'

theorem contestProbed_effect (pc : ProbeConflict)
    (now : I) (flood : ConflictFlood I) (h : s.core.tentative = true) :
    EventEffect s.core event now (s.contestProbed pc now flood).1.core := by
  have hcore := s.floodEligible_core pc.datagram
  have heff := (s.floodEligible pc.datagram).1.handlePreauthoritativeConflict_effect event pc now
    (by rw [hcore]; exact h)
  rw [hcore] at heff
  exact heff

theorem contestProposed_effect (pp : ProbeProposal)
    (now : I) (flood : ConflictFlood I) (h : s.core.tentative = true) :
    EventEffect s.core event now (s.contestProposed pp now flood).1.core := by
  unfold contestProposed handleProbeProposal
  cases adjudicate pp s.records with
  | peerWins => exact .lost h
  | weHold => exact .quiet
  | abandoned => exact .quiet

theorem contestPublished_effect (pc : ProbeConflict)
    (now : I) (flood : ConflictFlood I) (h : s.core.state.isPublished = true) :
    EventEffect s.core event now (s.contestPublished pc now flood).1.core := by
  unfold contestPublished
  split
  · exact .quiet
  · split
    · exact .quiet
    · split
      · exact .quiet
      · exact .restarted h _

theorem handleQuestion_frame (sq : ServiceQuestion) (now : I) :
    s.handleQuestion sq now = { s with
      rng := (s.handleQuestion sq now).rng
      responseDeadline := (s.handleQuestion sq now).responseDeadline
      questionerSrcs := (s.handleQuestion sq now).questionerSrcs
      pendingLegacy := (s.handleQuestion sq now).pendingLegacy
      metaResponseDeadline := (s.handleQuestion sq now).metaResponseDeadline
      metaQuestionerSrcs := (s.handleQuestion sq now).metaQuestionerSrcs
      metaKnownAnswered := (s.handleQuestion sq now).metaKnownAnswered } := by
  unfold handleQuestion
  split
  · unfold handleMetaQuestion
    split
    · split
      · split
        · rfl
        · dsimp only
          split <;> rfl
      · rfl
    · dsimp only
      split <;> rfl
  · split
    · unfold handleLegacyQuestion
      split
      · split
        · rfl
        · dsimp only
          split <;> rfl
      · rfl
    · unfold handleMulticastQuestion
      dsimp only
      split <;> rfl

theorem handleQuestion_effect (sq : ServiceQuestion) (now : I)
    (h : s.core.state.isPublished = true) :
    EventEffect s.core (.question sq) now (s.handleQuestion sq now).core := by
  unfold handleQuestion
  split
  · unfold handleMetaQuestion
    split
    · rename_i hport
      split
      · split
        · exact .quiet
        · dsimp only
          split
          · exact .quiet
          · exact .owed h _ hport
      · exact .quiet
    · dsimp only
      split
      · exact .quiet
      · exact .quiet
  · split
    · rename_i hport
      unfold handleLegacyQuestion
      split
      · split
        · exact .quiet
        · dsimp only
          split
          · exact .quiet
          · exact .owed h _ hport
      · exact .quiet
    · unfold handleMulticastQuestion
      dsimp only
      split
      · exact .quiet
      · exact .asked h sq rfl _

theorem kasHintOf_from (ka : KnownAnswer) (now : I) (hint : KasHint I)
    (h : s.kasHintOf ka now = some hint) : HintFrom s.core ka now hint := by
  unfold kasHintOf at h
  split at h
  · cases h
  · rename_i hg
    simp only [Bool.or_eq_true, not_or, Bool.not_eq_true, Bool.not_eq_false', bne_eq_false_iff_eq]
      at hg
    obtain ⟨⟨⟨-, hsrc⟩, hclass⟩, hhalf⟩ := hg
    split at h
    · cases h
    · rename_i expiresAt hexp
      split at h
      · cases h
      · rename_i canonical hcanon
        split at h
        · cases h
        · rename_i owner howner
          split at h
          · cases h
          · rename_i hmatch
            cases h
            exact
              { asked := List.contains_iff_mem.mp hsrc
                rclass := hclass
                halfTtl := (halfTtl_iff _ _).mp hhalf
                expires := hexp
                rdata := ⟨canonical, hcanon, rfl⟩
                owner := ⟨owner, howner, by simpa using hmatch⟩
                rtype := rfl }

theorem handleKnownAnswer_effect (ka : KnownAnswer) (now : I) :
    EventEffect s.core (.knownAnswer ka) now (s.handleKnownAnswer ka now).core := by
  unfold handleKnownAnswer
  split
  · unfold handleMetaKnownAnswer
    split
    · split
      · exact .quiet
      · exact .quiet
    · exact .quiet
  · split
    · rename_i hint hh
      exact .known ka rfl hint (s.kasHintOf_from ka now hint hh)
    · exact .quiet

theorem handleHostConflict_effect (hc : HostConflict)
    (now : I) (flood : ConflictFlood I) :
    EventEffect s.core event now (s.handleHostConflict hc now flood).1.core := by
  unfold handleHostConflict
  split
  · exact .quiet
  · rw [notify_core, floodEligible_core]
    exact .quiet

theorem dispatchEvent_effect (now : I)
    (flood : ConflictFlood I) :
    EventEffect s.core event now (s.dispatchEvent event now flood).1.core := by
  unfold dispatchEvent
  cases event with
  | probeConflict pc =>
    dsimp only
    split
    · rename_i h
      exact s.contestProbed_effect _ pc now flood (s.isPreauthoritative_tentative h)
    · split
      · rename_i h
        exact s.contestPublished_effect _ pc now flood h
      · exact .quiet
  | probeProposal pp =>
    dsimp only
    split
    · rename_i h
      exact s.contestProposed_effect _ pp now flood (s.isPreauthoritative_tentative h)
    · exact .quiet
  | question sq =>
    dsimp only
    split
    · rename_i h
      exact s.handleQuestion_effect sq now h
    · exact .quiet
  | knownAnswer ka => exact s.handleKnownAnswer_effect ka now
  | hostConflict hc => exact s.handleHostConflict_effect _ hc now flood

theorem handleEvent_effect (now : I)
    (flood : ConflictFlood I) :
    EventEffect s.core event now (s.handleEvent event now flood).1.core := by
  have hrec := s.receive_core event now
  have hdisp := (s.receive event now).dispatchEvent_effect event now flood
  rw [hrec] at hdisp
  unfold handleEvent
  dsimp only
  split
  · rw [hrec]
    exact .quiet
  · rw [hrec]
    exact .quiet
  · rw [hrec]
    exact .quiet
  · exact hdisp

end Service
end Hick
