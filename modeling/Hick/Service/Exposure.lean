import Mathlib
import Hick.Service.Flight

/-!
# The ledger is what was delivered (service/mod.rs:551-811, 1966-2345)

Every confirm is logged with the datagram it settles.
-/

/-!
## Confirms from a replaced probe cycle (service/mod.rs:2138-2345, 3008-3071)

A restart of the probe cycle leaves the datagram in flight to its confirm. The confirm is
worth the records the datagram carried, and nothing else.
-/

namespace Hick
open Octets Wire Respond Runs

namespace Service
variable {I R : Type} {EV : Type → Type} [Instant I] [SeedableRng R] [Pool EV]

def credited (s : Service I R EV) (goodbye : GoodbyeOwnership) : Service I R EV :=
  { s with
    awaitingConfirm := none
    goodbye := goodbye }

omit [Instant I] [SeedableRng R] [Pool EV] in
theorem settleStale_none (s : Service I R EV) (delivery : TransmitDelivery) :
    s.settleStale .none delivery = s := by
  unfold settleStale
  split <;> rfl

omit [Instant I] [SeedableRng R] [Pool EV] in
theorem settleStale_sameName (s : Service I R EV) (e : EmittedRecords) (cls : SendClass)
    (delivery : TransmitDelivery) :
    s.settleStale (.sameName e cls) delivery =
      { s with goodbye := s.goodbye.credited e delivery cls } := by
  unfold settleStale GoodbyeOwnership.credited
  cases delivery.anyDelivered <;> rfl

theorem noteTransmitOutcome_stale (s : Service I R EV) (now : I) (v4 v6 : FamilyAttempt I)
    (kind : AwaitingConfirm) (hk : s.awaitingConfirm = some kind) (hlive : kind.live = false)
    (hname : kind.underOldName = false) :
    ∃ goodbye, (s.noteTransmitOutcome now v4 v6).1 = s.credited goodbye ∧
      ∀ e cls, kind.emitted = some (e, cls) →
        goodbye = s.goodbye.credited e (FamilyAttempt.project v4 v6) cls := by
  unfold noteTransmitOutcome
  rw [hk]
  dsimp only
  cases kind with
  | probe => cases hlive
  | announcement e => cases hlive
  | response e cls => cases hlive
  | metaResponse => exact ⟨s.goodbye, rfl, nofun⟩
  | stale fact records =>
    cases records with
    | none =>
      refine ⟨s.goodbye, ?_, nofun⟩
      exact settleStale_none _ _
    | sameName e cls =>
      refine ⟨_, settleStale_sameName _ e cls _, ?_⟩
      rintro _ _ ⟨⟩
      rfl
    | oldName old e cls => cases hname

end Service

theorem GoodbyeOwnership.has_credited (g : GoodbyeOwnership) (e : EmittedRecords)
    (delivery : TransmitDelivery) (cls : SendClass) (m : Bool) (k : RecordKind) (f : Family) :
    (((g.credited e delivery cls).side m).has k f = true) ↔ (g.side m).has k f = true ∨
      (SendClass.counts cls m = true ∧ e.names k = true ∧ f.pick delivery.deliveredOn = true) := by
  unfold credited
  by_cases hd : delivery.anyDelivered = true
  · rw [if_pos hd, GoodbyeOwnership.has_recordEmitted]
  · rw [if_neg hd]
    have hnone : f.pick delivery.deliveredOn ≠ true := fun hf =>
      hd (delivery.anyDelivered_iff.mpr ⟨f, hf⟩)
    simp [hnone]

namespace Session
variable {I R : Type} {EV : Type → Type} [Instant I] [SeedableRng R] [Pool EV]

/-- After any run: a confirm with nothing in flight changes nothing; and a confirm of a datagram
from a replaced probe cycle changes only the ledger, which then owes every record the datagram
carried, under the name it was sent under, to the families that took it. -/
theorem stale_confirm_is_inert (probe : Bool)
    (ts : List (Transition (Session I R EV) (Timed I))) (s : Session I R EV)
    (run : Run (machine probe) ts s) (e : Timed I) (v4 v6 : FamilyAttempt I)
    (he : e.call = .outcome v4 v6) :
    ((trail ts).flight = none → (s.next e).service = s.service) ∧
      ∀ fl, (trail ts).flight = some fl → fl.generation ≠ (trail ts).generation →
        (∃ goodbye, (s.next e).service = s.service.credited goodbye) ∧
          ∀ k, fl.sent.message.Carries fl.records k →
            (s.next e).service.withdrawalSnapshot.records = fl.records ∧
              ∀ f : Family, f.pick (FamilyAttempt.project v4 v6).deliveredOn = true →
                (f.pick (s.next e).service.withdrawalSnapshot.owned).names k = true ∧
                  (fl.sent.transmit.dst = multicastDst →
                    (f.pick (s.next e).service.withdrawalSnapshot.multicast).names k = true) := by
  have htracked := tracked_run probe ts s run
  -- the endpoint finds no goodbye to drain
  have hnext : (s.next e).service =
      { (s.service.noteTransmitOutcome e.now v4 v6).1 with renameGoodbyeHandoff := none } := by
    have hserved : s.served e = (s.service.noteTransmitOutcome e.now v4 v6).1 := by
      simp only [served, he, heeds, if_true, serve]
    change (s.served e).takeRenameGoodbyeHandoff.1 = _
    rw [hserved]
    rfl
  have hdrain : ∀ s₁ : Service I R EV, s₁.renameGoodbyeHandoff = none →
      ({ s₁ with renameGoodbyeHandoff := none } : Service I R EV) = s₁ := fun s₁ h =>
    congrArg (fun handoff => ({ s₁ with renameGoodbyeHandoff := handoff } : Service I R EV)) h.symm
  have htoken := htracked.token
  unfold Trail.Matches at htoken
  cases hk : s.service.awaitingConfirm with
  | none =>
    have hk' : s.service.core.awaitingConfirm = none := hk
    rw [hk'] at htoken
    refine ⟨fun _ => ?_, fun fl hfl => ?_⟩
    · have hsame : (s.service.noteTransmitOutcome e.now v4 v6).1 = s.service := by
        unfold Service.noteTransmitOutcome
        rw [hk]
      rw [hnext, hsame]
      exact hdrain _ htracked.drained
    · rw [htoken] at hfl
      cases hfl
  | some kind =>
    have hk' : s.service.core.awaitingConfirm = some kind := hk
    rw [hk'] at htoken
    obtain ⟨fl', hfl', hu⟩ := htoken
    refine ⟨fun hnone => ?_, fun fl hfl hgen => ?_⟩
    · rw [hnone] at hfl'
      cases hfl'
    rw [hfl'] at hfl
    cases hfl
    have hlive : kind.live = false := by
      cases hl : kind.live with
      | false => rfl
      | true => exact absurd (hu.generation hl) hgen
    obtain ⟨goodbye, hout, hcredit⟩ :=
      s.service.noteTransmitOutcome_stale e.now v4 v6 kind hk hlive hu.named
    have hservice : (s.next e).service = s.service.credited goodbye := by
      rw [hnext, hout]
      exact hdrain _ htracked.drained
    refine ⟨⟨goodbye, hservice⟩, fun k hcarries => ?_⟩
    rw [hservice]
    have hdesc := hu.described
    unfold Sent.DescribedBy at hdesc
    cases hemit : kind.emitted with
    | none =>
      rw [hemit] at hdesc
      exact absurd hcarries (hdesc k)
    | some pair =>
      obtain ⟨emitted, cls⟩ := pair
      rw [hemit] at hdesc
      obtain ⟨-, hrec⟩ := hu.bears (by rw [hemit]; exact Option.some_ne_none _)
      refine ⟨hrec.symm, fun f hf => ?_⟩
      have hhas : ∀ m, GoodbyeOwnership.SendClass.counts cls m = true → (goodbye.side m).has k f = true := by
        intro m hm
        rw [hcredit emitted cls hemit, GoodbyeOwnership.has_credited]
        exact .inr ⟨hm, (hdesc.1 k).mp hcarries, hf⟩
      have hall := hhas false rfl
      refine ⟨by cases f <;> exact hall, fun hdst => ?_⟩
      have hmulti := hhas true (by rw [hdesc.2.mpr hdst]; rfl)
      cases f <;> exact hmulti

/-- The printer, registered without probing, announces, and hears a peer under its name before
its announcement is confirmed. -/
def reverted : List (Timed Uptime) :=
  [timer 0, pollAt 0, hearsSrv 10 { ServiceRecords.printer with port := 9100 }]

theorem printer_owes_its_stale_announcement :
    ∃ fl, (trail ((machine false).trace (printerAt false 0) reverted)).flight = some fl ∧
      fl.generation ≠ (trail ((machine false).trace (printerAt false 0) reverted)).generation ∧
      ∃ goodbye, (((machine false).play (printerAt false 0) reverted).next
          (acceptedAt 20)).service =
        ((machine false).play (printerAt false 0) reverted).service.credited goodbye := by
  have hrun : Run (machine false) _ _ := (Run.start _ (printerAt_registered false 0)).play _ _ _
    reverted (by decide +kernel)
  have hflight : (trail ((machine false).trace (printerAt false 0) reverted)).flight.any
      (fun fl => decide (fl.generation ≠
        (trail ((machine false).trace (printerAt false 0) reverted)).generation)) = true := by
    decide +kernel
  cases hfl : (trail ((machine false).trace (printerAt false 0) reverted)).flight with
  | none =>
    rw [hfl] at hflight
    cases hflight
  | some fl =>
    rw [hfl] at hflight
    have hgen := of_decide_eq_true hflight
    exact ⟨fl, rfl, hgen,
      ((stale_confirm_is_inert false _ _ hrun (acceptedAt 20) _ _ rfl).2 fl hfl hgen).1⟩

end Session
end Hick

/-! ## The ledger is what was delivered -/

namespace Hick
open Octets Wire Respond Runs

structure Settled where
  flight : Flight
  delivery : TransmitDelivery

/-- The datagram put `k` on family `f`; with `onlyMulticast`, by a multicast send. -/
structure Settled.Exposes (x : Settled) (onlyMulticast : Bool) (k : RecordKind) (f : Family) :
    Prop where
  carried : x.flight.sent.message.Carries x.flight.records k
  delivered : f.pick x.delivery.deliveredOn = true
  multicast : onlyMulticast = true → x.flight.sent.transmit.dst = multicastDst

structure History where
  trail : Trail
  settled : List Settled

def History.Exposed (h : History) (onlyMulticast : Bool) (k : RecordKind) (f : Family) : Prop :=
  ∃ x ∈ h.settled, x.Exposes onlyMulticast k f ∧
    (k.isInstance = true → x.flight.epoch = h.trail.epoch)

structure History.Ledger (h : History) (goodbye : GoodbyeOwnership) : Prop where
  exact_ : ∀ m k f, (goodbye.side m).has k f = true ↔ h.Exposed m k f
  /-- No settled record was sent under a name the service has yet to take. -/
  past : ∀ x ∈ h.settled, ∀ k, x.flight.sent.message.Carries x.flight.records k →
    x.flight.epoch ≤ h.trail.epoch

section
variable {I : Type} [Instant I]

theorem ConfirmEffect.goodbye (c c' : Core I) (anchor : I) (delivery : TransmitDelivery)
    (advances : Bool) (kind : AwaitingConfirm) (hname : kind.underOldName = false)
    (heff : ConfirmEffect c anchor delivery advances kind c') :
    (kind.emitted = none → c'.goodbye = c.goodbye) ∧
      ∀ e cls, kind.emitted = some (e, cls) → c'.goodbye = c.goodbye.credited e delivery cls := by
  cases heff with
  | metaReply => exact ⟨fun _ => rfl, nofun⟩
  | probeElsewhere hs => exact ⟨fun _ => rfl, nofun⟩
  | probeHeld n hs ha => exact ⟨fun _ => rfl, nofun⟩
  | probeAdvanced n hs ha hd hn deadline => exact ⟨fun _ => rfl, nofun⟩
  | probeSettled n hs ha hd hn deadline hsettle => exact ⟨fun _ => rfl, nofun⟩
  | announced emitted state deadline hp hkeep hlost =>
    refine ⟨nofun, ?_⟩
    rintro _ _ ⟨⟩
    rfl
  | responded emitted cls =>
    refine ⟨nofun, ?_⟩
    rintro _ _ ⟨⟩
    rfl
  | staleEmpty fact => exact ⟨fun _ => rfl, nofun⟩
  | staleSame fact emitted cls =>
    refine ⟨nofun, ?_⟩
    rintro _ _ ⟨⟩
    rfl
  | staleOld fact records emitted cls => cases hname

theorem TickMove.goodbye (now : I) (flood : ConflictFlood I) (fired : Bool) (c c' : Core I)
    (h : TickMove now flood fired c c') : c'.goodbye = c.goodbye := by
  cases h <;> rfl

theorem Ticks.goodbye (now : I) (flood : ConflictFlood I) (fired : Bool) (c c' : Core I)
    (h : Ticks now flood fired c c') : c'.goodbye = c.goodbye := by
  induction h with
  | refl => rfl
  | @tail mid last _ hmove ih => exact (hmove.goodbye now flood fired mid last).trans ih

theorem EventEffect.goodbye (c c' : Core I) (event : ServiceEvent) (now : I)
    (h : EventEffect c event now c') : c'.goodbye = c.goodbye := by
  cases h <;> rfl

theorem DeferEffect.goodbye (c c' : Core I) (now : I) (flood : ConflictFlood I)
    (h : DeferEffect c now flood c') : c'.goodbye = c.goodbye := by
  cases h <;> rfl

theorem PollEffect.goodbye (c c' : Core I) (now : I) (buf : Bytes) (sent : Option Sent)
    (h : PollEffect c now buf c' sent) : c'.goodbye = c.goodbye := by
  cases h <;> rfl

theorem TimeoutEffect.goodbye (c c' : Core I) (now : I) (flood : ConflictFlood I)
    (h : TimeoutEffect c now flood c') :
    (c.probeDefeated = false → c'.goodbye = c.goodbye) ∧
      (c.probeDefeated = true → c'.goodbye = c.goodbye.resetInstance) := by
  cases h with
  | waited hd hl => exact ⟨fun _ => rfl, fun hd' => absurd (hd.symm.trans hd') nofun⟩
  | renamed hd name hname deadline =>
    exact ⟨fun hd' => absurd (hd'.symm.trans hd) nofun, fun _ => rfl⟩
  | gaveUp hd => exact ⟨fun hd' => absurd (hd'.symm.trans hd) nofun, fun _ => rfl⟩
  | ticked hl _ hticks =>
    refine ⟨fun _ => hticks.goodbye _ _ _ _ _, fun hd => ?_⟩
    rw [c.latched_false hl] at hd
    cases hd

end

theorem History.Ledger.given_up (h : History) (goodbye : GoodbyeOwnership)
    (hl : h.Ledger goodbye) (generation : Nat) (flight : Option Flight) :
    History.Ledger ⟨⟨generation, h.trail.epoch + 1, flight⟩, h.settled⟩
      goodbye.resetInstance where
  exact_ m k f := by
    rw [GoodbyeOwnership.has_resetInstance, hl.exact_]
    constructor
    · rintro ⟨hk, x, hx, hexp, -⟩
      refine ⟨x, hx, hexp, fun hk' => ?_⟩
      rw [hk] at hk'
      cases hk'
    · rintro ⟨x, hx, hexp, hepoch⟩
      -- every settled record is older than the name to come
      have hk : k.isInstance = false := by
        cases hk : k.isInstance with
        | false => rfl
        | true =>
          have hle := hl.past x hx k hexp.carried
          have heq : x.flight.epoch = h.trail.epoch + 1 := hepoch hk
          omega
      refine ⟨hk, x, hx, hexp, fun hk' => ?_⟩
      rw [hk] at hk'
      cases hk'
  past x hx k hc := Nat.le_succ_of_le (hl.past x hx k hc)

theorem History.Ledger.settled (h : History) (goodbye : GoodbyeOwnership) (c : Core I)
    [Instant I] (hl : h.Ledger goodbye) (fl : Flight) (kind : AwaitingConfirm)
    (hu : fl.Under h.trail c kind) (delivery : TransmitDelivery) (goodbye' : GoodbyeOwnership)
    (hnone : kind.emitted = none → goodbye' = goodbye)
    (hsome : ∀ e cls, kind.emitted = some (e, cls) → goodbye' = goodbye.credited e delivery cls)
    (generation : Nat) (flight : Option Flight) :
    History.Ledger ⟨⟨generation, h.trail.epoch, flight⟩, h.settled ++ [⟨fl, delivery⟩]⟩
      goodbye' := by
  have hdesc := hu.described
  unfold Sent.DescribedBy at hdesc
  have hsplit : ∀ m k f,
      History.Exposed ⟨⟨generation, h.trail.epoch, flight⟩, h.settled ++ [⟨fl, delivery⟩]⟩ m k f ↔
        h.Exposed m k f ∨ (Settled.Exposes ⟨fl, delivery⟩ m k f ∧
          (k.isInstance = true → fl.epoch = h.trail.epoch)) := by
    intro m k f
    simp only [History.Exposed, List.mem_append, List.mem_singleton, or_and_right, exists_or,
      exists_eq_left]
  cases hemit : kind.emitted with
  | none =>
    rw [hemit] at hdesc
    rw [hnone hemit]
    refine ⟨fun m k f => ?_, fun x hx k hc => ?_⟩
    · rw [hsplit, hl.exact_]
      exact ⟨.inl, fun hx => hx.resolve_right fun hx => hdesc k hx.1.carried⟩
    · rcases List.mem_append.mp hx with hx | hx
      · exact hl.past x hx k hc
      · rw [List.mem_singleton] at hx
        subst hx
        exact absurd hc (hdesc k)
  | some pair =>
    obtain ⟨e, cls⟩ := pair
    rw [hemit] at hdesc
    obtain ⟨hlists, hclass⟩ := hdesc
    obtain ⟨hepoch, -⟩ := hu.bears (by rw [hemit]; exact Option.some_ne_none _)
    rw [hsome e cls hemit]
    refine ⟨fun m k f => ?_, fun x hx k hc => ?_⟩
    · rw [hsplit, GoodbyeOwnership.has_credited, hl.exact_]
      refine or_congr Iff.rfl ?_
      have hcounts : GoodbyeOwnership.SendClass.counts cls m = true ↔
          (m = true → fl.sent.transmit.dst = multicastDst) := by
        rw [← hclass]
        cases m <;> cases cls <;> simp [GoodbyeOwnership.SendClass.counts]
      constructor
      · rintro ⟨hc, hk, hf⟩
        exact ⟨⟨(hlists k).mpr hk, hf, hcounts.mp hc⟩, fun _ => hepoch⟩
      · rintro ⟨⟨hk, hf, hm⟩, -⟩
        exact ⟨hcounts.mpr hm, (hlists k).mp hk, hf⟩
    · rcases List.mem_append.mp hx with hx | hx
      · exact hl.past x hx k hc
      · rw [List.mem_singleton] at hx
        subst hx
        exact le_of_eq hepoch

namespace Session
variable {I R : Type} {EV : Type → Type} [Instant I] [SeedableRng R] [Pool EV]

def noteSettled (h : History) (s : Session I R EV) (e : Timed I) : List Settled :=
  match s.confirm e, h.trail.flight with
  | some r, some fl => h.settled ++ [⟨fl, r.delivery⟩]
  | _, _ => h.settled

def noteHistory (h : History) (t : Transition (Session I R EV) (Timed I)) : History where
  trail := noteTrail h.trail t
  settled := noteSettled h t.pre t.call

def history (ts : List (Transition (Session I R EV) (Timed I))) : History :=
  summary noteHistory ⟨⟨0, 0, none⟩, []⟩ ts

theorem ledger_step (h : History) (s : Session I R EV) (e : Timed I) (ht : Tracked h.trail s)
    (hl : h.Ledger s.service.goodbye) :
    (noteHistory h ⟨s, e, s.next e⟩).Ledger (s.next e).service.goodbye := by
  change History.Ledger ⟨⟨_, if s.givesNameUp e then h.trail.epoch + 1 else h.trail.epoch, _⟩,
    noteSettled h s e⟩ (s.next e).service.core.goodbye
  generalize (if s.restarts e then h.trail.generation + 1 else h.trail.generation) = generation
  generalize noteFlight h.trail s e = flight
  have hquiet : s.confirm e = none → noteSettled h s e = h.settled := by
    intro hc
    simp only [noteSettled, hc]
  have heff := s.next_effect e
  generalize (s.next e).service.core = c' at heff ⊢
  cases heff with
  | idle hsent hconfirm htimeout =>
    have hf : s.givesNameUp e = false := by
      unfold givesNameUp timerFires
      split
      · rename_i flood taken hcall
        rw [htimeout flood taken hcall]
        rfl
      · rfl
    rw [hquiet hconfirm, hf]
    exact ⟨hl.exact_, hl.past⟩
  | event event flood he hw _ heff =>
    rw [hquiet (by simp only [Session.confirm, he]), heff.goodbye _ _ event e.now]
    simp only [givesNameUp, timerFires, he, Bool.false_and, Bool.false_eq_true, if_false]
    exact ⟨hl.exact_, hl.past⟩
  | timeout flood taken he hw _ heff =>
    rw [hquiet (by simp only [Session.confirm, he])]
    obtain ⟨hkeep, hreset⟩ := heff.goodbye _ _ e.now flood
    simp only [givesNameUp, timerFires, he, hw, Bool.not_false, Bool.true_and]
    cases hd : s.service.probeDefeated with
    | false =>
      rw [hkeep hd]
      exact ⟨hl.exact_, hl.past⟩
    | true =>
      rw [hreset hd]
      exact hl.given_up h _ generation flight
  | poll flood buf he hw c₁ _ sent hdefer heff hsent =>
    rw [hquiet (by simp only [Session.confirm, he]), heff.goodbye c₁ _ e.now buf sent,
      hdefer.goodbye _ c₁ e.now flood]
    simp only [givesNameUp, timerFires, he, Bool.false_and, Bool.false_eq_true, if_false]
    exact ⟨hl.exact_, hl.past⟩
  | confirm v4 v6 he kind hk _ heff =>
    have htoken := ht.token
    unfold Trail.Matches at htoken
    have hk' : s.service.core.awaitingConfirm = some kind := hk
    rw [hk'] at htoken
    obtain ⟨fl, hfl, hu⟩ := htoken
    have hsettled : noteSettled h s e =
        h.settled ++ [⟨fl, FamilyAttempt.project v4 v6⟩] := by
      simp only [noteSettled, Session.confirm, he, hk, Option.map_some, hfl]
    obtain ⟨hnone, hsome⟩ := heff.goodbye _ _ _ _ _ kind hu.named
    rw [hsettled]
    simp only [givesNameUp, timerFires, he, Bool.false_and, Bool.false_eq_true, if_false]
    exact hl.settled h _ _ fl kind hu _ _ hnone hsome generation flight
  | withdraw he hw =>
    rw [hquiet (by simp only [Session.confirm, he])]
    simp only [givesNameUp, timerFires, he, Bool.false_and, Bool.false_eq_true, if_false]
    exact ⟨hl.exact_, hl.past⟩

theorem history_run (probe : Bool) (ts : List (Transition (Session I R EV) (Timed I)))
    (s : Session I R EV) (run : Run (machine probe) ts s) :
    Tracked (history ts).trail s ∧ (history ts).Ledger s.service.goodbye := by
  refine run.invariant (machine probe) noteHistory ⟨⟨0, 0, none⟩, []⟩
    (fun h s => Tracked h.trail s ∧ h.Ledger s.service.goodbye) (fun _ => True) ?_ ?_ ts s
    fun _ _ => trivial
  · intro s hs
    refine ⟨tracked_start probe s hs, ?_⟩
    obtain ⟨records, now, seed, reAnnounce, flood, -, rfl⟩ := hs
    refine ⟨fun m k f => ?_, fun x hx => absurd hx List.not_mem_nil⟩
    have hempty : ((GoodbyeOwnership.default.side m).has k f) = false := by
      cases m <;> exact RecordExposure.default_has k f
    change ((GoodbyeOwnership.default.side m).has k f = true) ↔ _
    rw [hempty]
    constructor
    · exact nofun
    · rintro ⟨x, hx, -⟩
      exact absurd hx List.not_mem_nil
  · rintro h s e ⟨ht, hl⟩ - -
    exact ⟨tracked_step h.trail s e ht, ledger_step h s e ht hl⟩

theorem poll_keeps_ledger (s : Session I R EV) (now : I) (flood : ConflictFlood I) (buf : Bytes) :
    (s.next ⟨now, .poll flood buf⟩).service.goodbye = s.service.goodbye := by
  have heff := s.next_effect ⟨now, .poll flood buf⟩
  change (s.next ⟨now, .poll flood buf⟩).service.core.goodbye = s.service.core.goodbye
  generalize (s.next ⟨now, .poll flood buf⟩).service.core = c' at heff ⊢
  cases heff with
  | idle hsent hconfirm htimeout => rfl
  | event event flood' he hw _ heff => cases he
  | timeout flood' taken he hw _ heff => cases he
  | poll flood' buf' he hw c₁ _ sent hdefer heff hsent =>
    rw [heff.goodbye c₁ _ now buf' sent, hdefer.goodbye _ c₁ now flood']
  | confirm v4 v6 he kind hk _ heff => cases he
  | withdraw he hw => cases he

theorem outcome_keeps_ledger (g : Trail) (s : Session I R EV) (ht : Tracked g s) (now : I)
    (v4 v6 : FamilyAttempt I) (hd : (FamilyAttempt.project v4 v6).anyDelivered = false) :
    (s.next ⟨now, .outcome v4 v6⟩).service.goodbye = s.service.goodbye := by
  have heff := s.next_effect ⟨now, .outcome v4 v6⟩
  change (s.next ⟨now, .outcome v4 v6⟩).service.core.goodbye = s.service.core.goodbye
  generalize (s.next ⟨now, .outcome v4 v6⟩).service.core = c' at heff ⊢
  cases heff with
  | idle hsent hconfirm htimeout => rfl
  | event event flood he hw _ heff => cases he
  | timeout flood taken he hw _ heff => cases he
  | poll flood buf he hw c₁ _ sent hdefer heff hsent => cases he
  | confirm v4' v6' he kind hk _ heff =>
    cases he
    have htoken := ht.token
    unfold Trail.Matches at htoken
    have hk' : s.service.core.awaitingConfirm = some kind := hk
    rw [hk'] at htoken
    obtain ⟨fl, -, hu⟩ := htoken
    obtain ⟨hnone, hsome⟩ := heff.goodbye _ _ _ _ _ kind hu.named
    cases hemit : kind.emitted with
    | none => exact hnone hemit
    | some pair =>
      rw [hsome pair.1 pair.2 hemit, GoodbyeOwnership.credited, hd, if_neg Bool.false_ne_true]
  | withdraw he hw => cases he

theorem outcome_spends_token (g : Trail) (s : Session I R EV) (ht : Tracked g s) (now : I)
    (v4 v6 : FamilyAttempt I) :
    (s.next ⟨now, .outcome v4 v6⟩).service.awaitingConfirm = none := by
  have heff := s.next_effect ⟨now, .outcome v4 v6⟩
  change (s.next ⟨now, .outcome v4 v6⟩).service.core.awaitingConfirm = none
  cases hk : s.service.awaitingConfirm with
  | none =>
    change (s.service.noteTransmitOutcome now v4 v6).1.awaitingConfirm = none
    unfold Service.noteTransmitOutcome
    rw [hk]
    exact hk
  | some kind =>
    generalize (s.next ⟨now, .outcome v4 v6⟩).service.core = c' at heff ⊢
    cases heff with
    | idle hsent hconfirm htimeout =>
      simp only [Session.confirm, hk, Option.map_some, reduceCtorEq] at hconfirm
    | event event flood he hw _ heff => cases he
    | timeout flood taken he hw _ heff => cases he
    | poll flood buf he hw c₁ _ sent hdefer heff hsent => cases he
    | confirm v4' v6' he kind' hk' _ heff =>
      exact (ht.standing.confirm _ c' _ _ _ kind' heff).2.1
    | withdraw he hw => cases he

theorem repeated_keeps_ledger (s : Session I R EV) (now : I) (v4 v6 : FamilyAttempt I)
    (h : s.service.awaitingConfirm = none) :
    (s.next ⟨now, .outcome v4 v6⟩).service.goodbye = s.service.goodbye := by
  change (s.service.noteTransmitOutcome now v4 v6).1.goodbye = s.service.goodbye
  unfold Service.noteTransmitOutcome
  rw [h]

theorem settled_mono (ts us : List (Transition (Session I R EV) (Timed I))) {x : Settled}
    (hx : x ∈ (history ts).settled) : x ∈ (history (ts ++ us)).settled := by
  induction us using List.reverseRecOn with
  | nil => rwa [List.append_nil]
  | append_singleton us t ih =>
    rw [← List.append_assoc, history, summary_snoc]
    change x ∈ noteSettled (history (ts ++ us)) t.pre t.call
    unfold noteSettled
    split
    · exact List.mem_append_left _ ih
    · exact ih

/-- After any run a record is in the ledger for a family exactly if some confirmed datagram carried
it and was delivered there: of those sent since the service last gave its name up, for a record of
the instance name, and of all for a host address. -/
theorem ledger_is_what_was_delivered (probe : Bool)
    (ts : List (Transition (Session I R EV) (Timed I))) (s : Session I R EV)
    (run : Run (machine probe) ts s) :
    (∀ m k f, (s.service.goodbye.side m).has k f = true ↔
      ∃ x ∈ (history ts).settled, x.Exposes m k f ∧
        (k.isInstance = true → x.flight.epoch = (history ts).trail.epoch)) ∧
      (∀ now flood buf,
        (s.next ⟨now, .poll flood buf⟩).service.goodbye = s.service.goodbye) ∧
      (∀ now v4 v6, (FamilyAttempt.project v4 v6).anyDelivered = false →
        (s.next ⟨now, .outcome v4 v6⟩).service.goodbye = s.service.goodbye) ∧
      ∀ now v4 v6 now' v4' v6',
        ((s.next ⟨now, .outcome v4 v6⟩).next ⟨now', .outcome v4' v6'⟩).service.goodbye =
          (s.next ⟨now, .outcome v4 v6⟩).service.goodbye := by
  obtain ⟨ht, hl⟩ := history_run probe ts s run
  refine ⟨hl.exact_, ?_, ?_, ?_⟩
  · intro now flood buf
    exact s.poll_keeps_ledger now flood buf
  · intro now v4 v6 hd
    exact outcome_keeps_ledger _ s ht now v4 v6 hd
  · intro now v4 v6 now' v4' v6'
    have hspent := outcome_spends_token _ s ht now v4 v6
    exact (s.next ⟨now, .outcome v4 v6⟩).repeated_keeps_ledger now' v4' v6' hspent

theorem printer_owns_what_it_announced :
    (history ((machine false).trace (printerAt false 0) [timer 0, pollAt 0, acceptedAt 0])).Exposed
        true .srv .v4 ∧
      ¬(history ((machine false).trace (printerAt false 0)
        [timer 0, pollAt 0, acceptedAt 0])).Exposed false .srv .v6 := by
  obtain ⟨hadmitted, hsrv, hnone⟩ :
      (machine false).Admitted (printerAt false 0) [timer 0, pollAt 0, acceptedAt 0] ∧
      (((machine false).play (printerAt false 0)
        [timer 0, pollAt 0, acceptedAt 0]).service.goodbye.side true).has .srv .v4 = true ∧
      (((machine false).play (printerAt false 0)
        [timer 0, pollAt 0, acceptedAt 0]).service.goodbye.side false).has .srv .v6 = false := by
    decide +kernel
  have hrun : Run (machine false) _ _ := (Run.start _ (printerAt_registered false 0)).play _ _ _
    [timer 0, pollAt 0, acceptedAt 0] hadmitted
  obtain ⟨hlaw, -⟩ := ledger_is_what_was_delivered false _ _ hrun
  exact ⟨(hlaw true .srv .v4).mp hsrv,
    fun h => Bool.false_ne_true (hnone.symm.trans ((hlaw false .srv .v6).mpr h))⟩

def crampedRecords : ServiceRecords :=
  ServiceRecords.printer.setInstance
    ⟨List.replicate 63 112 ++ dot :: ServiceRecords.printer.serviceType.text,
      by decide +kernel, by decide +kernel⟩

def cramped : Session Uptime ZeroRng Slab :=
  ⟨Service.tryNew crampedRecords 0 [] false true .new, false, 0, 0⟩

def crampedAnnounces : List (Timed Uptime) := [timer 0, pollAt 0, acceptedAt 0]

def crampedIsDefeated : List (Timed Uptime) :=
  [hearsSrv 10 { crampedRecords with port := 9100 }, timer 20, timer 250000020, timer 500000020,
    pollAt 500000020, acceptedAt 500000020,
    hearsSrv 500000030 { crampedRecords with port := 9100 }, timer 500000040]

/-- A service that finds no name to take keeps its name, but what it sent under that name is no
longer in its ledger. -/
theorem cramped_printer_gives_up_its_ledger :
    ∃ (ts : List (Transition (Session Uptime ZeroRng Slab) (Timed Uptime)))
      (s : Session Uptime ZeroRng Slab), Run (machine false) ts s ∧
      ¬∀ m k f, (s.service.goodbye.side m).has k f = true ↔
        ∃ x ∈ (history ts).settled, x.Exposes m k f ∧ (k.isInstance = true →
          x.flight.records.instanceName.sameOwner s.service.records.instanceName = true) := by
  have hstart : Registered false cramped :=
    ⟨crampedRecords, 0, [], true, .new,
      ⟨by decide +kernel, by decide, by decide +kernel⟩, rfl⟩
  obtain ⟨hannounces, hhas⟩ : (machine false).Admitted cramped crampedAnnounces ∧
      (((machine false).play cramped crampedAnnounces).service.goodbye.side false).has .srv .v4 =
        true := by
    decide +kernel
  have hmid : Run (machine false) _ _ := (Run.start _ hstart).play _ _ _ crampedAnnounces hannounces
  -- the run to its end is evaluated once, for all that is read off it
  obtain ⟨hdefeated, hsame, hname, hgone⟩ :
      (machine false).Admitted ((machine false).play cramped crampedAnnounces) crampedIsDefeated ∧
      (history ([] ++ (machine false).trace cramped crampedAnnounces ++
        (machine false).trace ((machine false).play cramped crampedAnnounces)
          crampedIsDefeated)).settled.all (fun x =>
        x.flight.records.instanceName.sameOwner crampedRecords.instanceName) = true ∧
      ((machine false).play ((machine false).play cramped crampedAnnounces)
        crampedIsDefeated).service.records.instanceName = crampedRecords.instanceName ∧
      (((machine false).play ((machine false).play cramped crampedAnnounces)
        crampedIsDefeated).service.goodbye.side false).has .srv .v4 = false := by
    decide +kernel
  have hend : Run (machine false) _ _ := hmid.play _ _ _ crampedIsDefeated hdefeated
  refine ⟨_, _, hend, fun hlaw => ?_⟩
  -- the announcement put its SRV record in the ledger
  obtain ⟨x, hx, hexp, -⟩ := ((history_run false _ _ hmid).2.exact_ false .srv .v4).mp hhas
  have hx' := settled_mono _ ((machine false).trace
    ((machine false).play cramped crampedAnnounces) crampedIsDefeated) hx
  have hin := (hlaw false .srv .v4).mpr ⟨x, hx', hexp, fun _ => by
    rw [hname]
    exact List.all_eq_true.mp hsame x hx'⟩
  exact Bool.false_ne_true (hgone.symm.trans hin)

end Session
end Hick
