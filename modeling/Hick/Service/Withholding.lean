import Mathlib
import Hick.Service.Flight

/-!
# Withholding after a conflict (service/mod.rs:3403-3431, 4589-4664, 5164-5278)

A conflict is latched when its datagram is classified and spent by the next timer call. Between the
two nothing of the service's own leaves.
-/

namespace Hick
open Octets Wire Respond Runs

section
variable {I : Type} [Instant I]

structure Core.Quiet (c : Core I) : Prop where
  state : c.state = .init
  pending : c.pendingTransmits = .empty
  legacy : c.pendingLegacy = []
  response : c.responseDeadline = none

def Core.Withholds (c : Core I) : Prop := c.latched = true ∨ c.Quiet

omit [Instant I] in
theorem Core.Quiet.restarted (c : Core I) (now : I) (deadline : Option I)
    (renamedFrom : Option ServiceRecords) : (c.restarted now deadline renamedFrom).Quiet :=
  ⟨rfl, rfl, rfl, rfl⟩

theorem Core.Withholds.event (c c' : Core I) (event : ServiceEvent) (now : I)
    (h : c.Withholds) (heff : EventEffect c event now c') : c'.Withholds := by
  have hunpublished : c.Quiet → c.state.isPublished ≠ true := by
    intro hq hp
    rw [hq.state] at hp
    cases hp
  cases heff with
  | quiet => exact h
  | lost hs => exact .inl (by rw [Core.latched, Bool.or_eq_true]; exact .inr rfl)
  | defeated hs hw => exact .inl (by rw [Core.latched, Bool.or_eq_true]; exact .inl rfl)
  | owed hs legacy hport => exact h.imp id fun hq => absurd hs (hunpublished hq)
  | asked hs sq he due => exact h.imp id fun hq => absurd hs (hunpublished hq)
  | known ka he hint hh => exact h.imp id fun hq => ⟨hq.state, hq.pending, hq.legacy, hq.response⟩
  | restarted hs deadline => exact .inr (.restarted c now deadline none)

omit [Instant I] in
theorem Core.Owed.of_nil (c : Core I) (legacy : List LegacyResp) (h : c.Owed legacy)
    (hnil : c.pendingLegacy = []) : legacy = [] := by
  rcases h with rfl | rfl
  · exact hnil
  · rw [hnil]
    rfl

theorem Core.Withholds.poll (c c₁ c' : Core I) (now : I) (flood : ConflictFlood I) (buf : Bytes)
    (sent : Option Sent) (h : c.Withholds) (hdefer : DeferEffect c now flood c₁)
    (heff : PollEffect c₁ now buf c' sent) :
    c'.Withholds ∧ ∀ d, sent = some d →
      d.transmit.dst = multicastDst ∧ d.message.OnlyEnumerates c.records := by
  have h₁ : c₁.Withholds ∧ c₁.records = c.records := by
    cases hdefer with
    | none => exact ⟨h, rfl⟩
    | dropped hw hp deadline =>
      refine ⟨.inl ?_, rfl⟩
      rcases h with h | h
      · exact h
      · rw [h.pending] at hp
        cases hp
  obtain ⟨h₁, hrec⟩ := h₁
  rw [← hrec]
  have hempty : ∀ kind, c₁.latched = false → c₁.pendingTransmits.peek ≠ some kind := by
    intro kind hl hp
    rcases h₁ with h₁ | h₁
    · rw [hl] at h₁
      cases h₁
    · rw [h₁.pending] at hp
      cases hp
  cases heff with
  | silent legacy ho =>
    refine ⟨h₁.imp id fun hq => ?_, nofun⟩
    exact ⟨hq.state, hq.pending, ho.of_nil c₁ _ hq.legacy, hq.response⟩
  | metaReply ht metaName hm msg he =>
    refine ⟨h₁.imp id fun hq => ⟨hq.state, hq.pending, hq.legacy, hq.response⟩, ?_⟩
    rintro d ⟨⟩
    exact ⟨rfl, metaResponse_enumerates c₁.records metaName hm buf msg he⟩
  | legacyReply ht hl legacy rest ho msg token he =>
    rcases h₁ with h₁ | h₁
    · rw [hl] at h₁
      cases h₁
    · rw [h₁.legacy] at ho
      cases ho
  | probe ht hl legacy ho hp msg he => exact absurd hp (hempty _ hl)
  | announcement ht hl legacy ho hp msg nsec he => exact absurd hp (hempty _ hl)
  | response ht hl legacy ho hp msg emitted he hne => exact absurd hp (hempty _ hl)
  | drained ht hl legacy ho hp msg emitted he hne => exact absurd hp (hempty _ hl)

theorem Core.Withholds.confirm (c c' : Core I) (anchor : I) (delivery : TransmitDelivery)
    (advances : Bool) (kind : AwaitingConfirm) (h : c.Withholds)
    (heff : ConfirmEffect { c with awaitingConfirm := none } anchor delivery advances kind c') :
    c'.Withholds := by
  have hsame : ∀ c₂ : Core I, c₂.latched = c.latched → c₂.state = c.state →
      c₂.pendingTransmits = c.pendingTransmits → c₂.pendingLegacy = c.pendingLegacy →
      c₂.responseDeadline = c.responseDeadline → c₂.Withholds := by
    intro c₂ hl hs hp hg hr
    rcases h with h | h
    · exact .inl (hl.trans h)
    · exact .inr ⟨hs.trans h.state, hp.trans h.pending, hg.trans h.legacy, hr.trans h.response⟩
  have hphase : ∀ n, c.state = .probing n → c.latched = true := by
    intro n hn
    rcases h with h | h
    · exact h
    · rw [h.state] at hn
      cases hn
  cases heff with
  | metaReply => exact hsame _ rfl rfl rfl rfl rfl
  | probeElsewhere hs => exact hsame _ rfl rfl rfl rfl rfl
  | probeHeld n hs ha => exact hsame _ rfl rfl rfl rfl rfl
  | probeAdvanced n hs ha hd hn deadline => exact .inl (hphase n hs)
  | probeSettled n hs ha hd hn deadline hsettle => exact .inl (hphase n hs)
  | announced emitted state deadline hp hkeep hlost =>
    rcases h with h | h
    · exact .inl h
    · obtain ⟨rfl, rfl⟩ := hkeep (by rw [h.state]; rfl)
      exact hsame _ rfl rfl rfl rfl rfl
  | responded emitted cls => exact hsame _ rfl rfl rfl rfl rfl
  | staleEmpty fact => exact hsame _ rfl rfl rfl rfl rfl
  | staleSame fact emitted cls => exact hsame _ rfl rfl rfl rfl rfl
  | staleOld fact records emitted cls => exact hsame _ rfl rfl rfl rfl rfl

/-- The service of a loss spent at `t` has not begun its new cycle, and will not within the
second. -/
structure Core.Deferred (c : Core I) (t : I) : Prop where
  state : c.state = .init
  unsent : c.probeOnWire = false
  kept : c.probeDefeated = false
  pending : ¬c.pendingTransmits.Holds .probe
  token : c.awaitingConfirm ≠ some .probe
  until_ : ∃ u d, checkedAddDuration t tiebreakDeferWait = some u ∧
    c.lifecycleDeadline = some d ∧ u ≤ d

theorem demoted_ne_probe (renamedFrom : Option ServiceRecords) (kind : AwaitingConfirm) :
    kind.demoted renamedFrom ≠ .probe := by
  cases kind <;> exact nofun

theorem Core.Deferred.restarted (c : Core I) (t now u d : I)
    (renamedFrom : Option ServiceRecords)
    (hu : checkedAddDuration t tiebreakDeferWait = some u) (hle : u ≤ d) :
    (c.restarted now (some d) renamedFrom).Deferred t where
  state := rfl
  unsent := rfl
  kept := rfl
  pending := Pending.empty_holds _
  token h := by
    obtain ⟨kind, -, hk⟩ := Option.map_eq_some_iff.mp h
    exact demoted_ne_probe _ _ hk
  until_ := ⟨u, d, hu, rfl, hle⟩

theorem Core.Deferred.frame (c c' : Core I) (t : I) (h : c.Deferred t)
    (hs : c'.state = c.state) (hw : c'.probeOnWire = c.probeOnWire)
    (hd : c'.probeDefeated = c.probeDefeated)
    (hp : c'.pendingTransmits.Holds .probe → c.pendingTransmits.Holds .probe)
    (ht : c'.awaitingConfirm = some .probe → c.awaitingConfirm = some .probe)
    (hl : c'.lifecycleDeadline = c.lifecycleDeadline) : c'.Deferred t where
  state := hs.trans h.state
  unsent := hw.trans h.unsent
  kept := hd.trans h.kept
  pending hc := h.pending (hp hc)
  token hc := h.token (ht hc)
  until_ := by
    rw [hl]
    exact h.until_

/-- A second has gone by since `t`, or the service is still waiting. -/
def Waits (c : Core I) (t now : I) : Prop := Elapsed t tiebreakDeferWait now ∨ c.Deferred t

theorem Waits.mono (c : Core I) (t a b : I) (h : Waits c t a) (hab : a ≤ b) : Waits c t b :=
  h.imp (fun h => h.mono _ _ _ _ hab) id

theorem Waits.of_due (c c' : Core I) (t now : I) (h : Waits c t now)
    (hdue : due c.lifecycleDeadline now = true) : Waits c' t now := by
  rcases h with h | h
  · exact .inl h
  · obtain ⟨u, d, hu, hd, hle⟩ := h.until_
    obtain ⟨d', hd', hnow⟩ := (due_iff _ _).mp hdue
    rw [hd] at hd'
    cases hd'
    exact .inl ⟨u, hu, le_trans hle hnow⟩

theorem Waits.tickMove (c c' : Core I) (t now : I) (flood : ConflictFlood I) (fired : Bool)
    (h : Waits c t now) (hmove : TickMove now flood fired c c') : Waits c' t now := by
  cases hmove with
  | takeResponse hf => exact h.imp id fun h => h.frame c _ t rfl rfl rfl id id rfl
  | rearm base hp =>
    refine h.imp id fun h => ?_
    obtain ⟨u, d, -, hd, -⟩ := h.until_
    simp only [Core.startupParked, hd, Option.isNone_some, Bool.false_and,
      Bool.false_eq_true] at hp
  | hold floor hw hs hdue hf => exact h.of_due c _ t now hdue
  | park hw hs hdue => exact h.of_due c _ t now hdue
  | startProbing hs hdue d => exact h.of_due c _ t now hdue
  | closeSettling n hs hn hdue d => exact h.of_due c _ t now hdue
  | queueProbe n hs hn hdue pending hp d => exact h.of_due c _ t now hdue
  | queueAnnouncement hs hdue pending hp d => exact h.of_due c _ t now hdue
  | queueResponse hf =>
    refine h.imp id fun h => h.frame c _ t rfl rfl rfl (fun hc => ?_) id rfl
    exact (Pending.push_holds _ _ _ hc).resolve_right fun h => by cases h

theorem Waits.ticks (c c' : Core I) (t now : I) (flood : ConflictFlood I) (fired : Bool)
    (h : Waits c t now) (hticks : Ticks now flood fired c c') : Waits c' t now := by
  induction hticks with
  | refl => exact h
  | @tail mid last _ hmove ih => exact ih.tickMove mid last t now flood fired hmove

theorem Waits.event (c c' : Core I) (t now : I) (event : ServiceEvent) (h : Waits c t now)
    (heff : EventEffect c event now c') : Waits c' t now := by
  have hunpublished : c.Deferred t → c.state.isPublished ≠ true := by
    intro hq hp
    rw [hq.state] at hp
    cases hp
  refine h.imp id fun h => ?_
  cases heff with
  | quiet => exact h
  | lost hs => exact h.frame c _ t rfl rfl rfl id id rfl
  | defeated hs hw =>
    rw [h.unsent] at hw
    cases hw
  | owed hs legacy hport => exact absurd hs (hunpublished h)
  | asked hs sq he due => exact absurd hs (hunpublished h)
  | known ka he hint hh => exact h.frame c _ t rfl rfl rfl id id rfl
  | restarted hs deadline => exact absurd hs (hunpublished h)

theorem encodeLegacy_token (records : ServiceRecords) (legacy : LegacyResp) (buf : Bytes)
    (msg : Message) (token : AwaitingConfirm)
    (h : Service.encodeLegacy records legacy buf = .ok (msg, token)) : token ≠ .probe := by
  unfold Service.encodeLegacy at h
  split at h
  · split at h <;> cases h
    exact nofun
  · split at h <;> cases h
    exact nofun

theorem Waits.poll (c c₁ c' : Core I) (t now : I) (flood : ConflictFlood I) (buf : Bytes)
    (sent : Option Sent) (h : Waits c t now) (hdefer : DeferEffect c now flood c₁)
    (heff : PollEffect c₁ now buf c' sent) :
    Waits c' t now ∧ ∀ d, sent = some d → d.message.header.flags.isResponse = false →
      Elapsed t tiebreakDeferWait now := by
  rcases h with h | h
  · exact ⟨.inl h, fun _ _ _ => h⟩
  have h₁ : c₁.Deferred t := by
    cases hdefer with
    | none => exact h
    | dropped hw hp deadline => exact absurd (Pending.peek_holds _ _ hp) h.pending
  refine ⟨.inr ?_, fun d hd hq => ?_⟩
  · cases heff with
    | silent legacy ho => exact h₁.frame c₁ _ t rfl rfl rfl id id rfl
    | metaReply ht metaName hm msg he => exact h₁.frame c₁ _ t rfl rfl rfl id nofun rfl
    | legacyReply ht hl legacy rest ho msg token he =>
      refine h₁.frame c₁ _ t rfl rfl rfl id (fun hc => ?_) rfl
      have htoken := encodeLegacy_token c₁.records legacy buf msg token he
      exact absurd (Option.some.inj hc) htoken
    | probe ht hl legacy ho hp msg he => exact absurd (Pending.peek_holds _ _ hp) h₁.pending
    | announcement ht hl legacy ho hp msg nsec he =>
      exact h₁.frame c₁ _ t rfl rfl rfl (Pending.pop_holds _ _) nofun rfl
    | response ht hl legacy ho hp msg emitted he hne =>
      exact h₁.frame c₁ _ t rfl rfl rfl (Pending.pop_holds _ _) nofun rfl
    | drained ht hl legacy ho hp msg emitted he hne =>
      exact h₁.frame c₁ _ t rfl rfl rfl (Pending.pop_holds _ _) id rfl
  · subst hd
    have hp := (heff.query _ _ _ _ _ hq).2
    exact absurd (Pending.peek_holds _ _ hp) h₁.pending

theorem Waits.confirm (c c' : Core I) (t now anchor : I) (delivery : TransmitDelivery)
    (advances : Bool) (kind : AwaitingConfirm) (h : Waits c t now)
    (hk : c.awaitingConfirm = some kind)
    (heff : ConfirmEffect { c with awaitingConfirm := none } anchor delivery advances kind c') :
    Waits c' t now := by
  refine h.imp id fun h => ?_
  have hne : kind ≠ .probe := by
    rintro rfl
    exact h.token hk
  cases heff with
  | metaReply => exact h.frame c _ t rfl rfl rfl id nofun rfl
  | probeElsewhere hs => exact absurd rfl hne
  | probeHeld n hs ha => exact absurd rfl hne
  | probeAdvanced n hs ha hd hn deadline => exact absurd rfl hne
  | probeSettled n hs ha hd hn deadline hsettle => exact absurd rfl hne
  | announced emitted state deadline hp hkeep hlost =>
    obtain ⟨rfl, rfl⟩ := hkeep (by
      change c.state.isPublished = false
      rw [h.state]
      rfl)
    exact h.frame c _ t rfl rfl rfl id nofun rfl
  | responded emitted cls => exact h.frame c _ t rfl rfl rfl id nofun rfl
  | staleEmpty fact => exact h.frame c _ t rfl rfl rfl id nofun rfl
  | staleSame fact emitted cls => exact h.frame c _ t rfl rfl rfl id nofun rfl
  | staleOld fact records emitted cls => exact h.frame c _ t rfl rfl rfl id nofun rfl

theorem underFlood_some (now : I) (flood : ConflictFlood I) (v : I)
    (h : flood.inForce now = true → ∃ f, floorFrom now now flood = some f) :
    ∃ e, underFlood now now (some v) flood = some e ∧ v ≤ e := by
  unfold underFlood
  cases hf : flood.inForce now with
  | false => exact ⟨v, rfl, le_refl v⟩
  | true =>
    obtain ⟨f, hfloor⟩ := h hf
    rw [hfloor]
    exact ⟨raiseTo f (some v), rfl, le_max_left _ _⟩

theorem Waits.timeout [LawfulInstant I] (c c' : Core I) (t now : I) (flood : ConflictFlood I)
    (h : Waits c t now) (ht : t ≤ now)
    (hfair : c.probeDefeated = false → c.tiebreakLost = true →
      (∃ u, checkedAddDuration now tiebreakDeferWait = some u) ∧
        (flood.inForce now = true → ∃ f, floorFrom now now flood = some f))
    (heff : TimeoutEffect c now flood c') : Waits c' t now := by
  rcases h with h | h
  · exact .inl h
  cases heff with
  | waited hd hl =>
    obtain ⟨⟨v, hv⟩, hfloor⟩ := hfair hd hl
    obtain ⟨u, d, hu, -, -⟩ := h.until_
    have huv : u ≤ v := LawfulInstant.add_mono _ _ _ _ _ _ ht (le_refl _) hu hv
    obtain ⟨e, he, hve⟩ := underFlood_some now flood v hfloor
    rw [hv, he]
    exact .inr (.restarted c t now u e none hu (le_trans huv hve))
  | renamed hd name hname deadline =>
    rw [h.kept] at hd
    cases hd
  | gaveUp hd =>
    rw [h.kept] at hd
    cases hd
  | ticked hl _ hticks =>
    refine Waits.ticks _ _ t now flood _ ?_ hticks
    exact .inr (h.frame c _ t rfl rfl rfl id id rfl)

end
end Hick

namespace Hick
open Octets Wire Respond Runs

namespace Session
variable {I R : Type} {EV : Type → Type} [Instant I] [SeedableRng R] [Pool EV]

def conflictOpen (ts : List (Transition (Session I R EV) (Timed I))) : Bool :=
  summary (fun latched t =>
    t.post.service.core.latched || (latched && !t.pre.timerFires t.call)) false ts

def spendsLoss (s : Session I R EV) (e : Timed I) : Bool :=
  s.timerFires e && !s.service.probeDefeated && s.service.tiebreakLost

def lossesSpent (ts : List (Transition (Session I R EV) (Timed I))) : List I :=
  summary (fun losses t =>
    if t.pre.spendsLoss t.call then losses ++ [t.call.now] else losses) [] ts

/-- A loss is spent only where the clock can tell the wait it starts: the second itself and,
under a flood, the flood's floor. -/
def WaitsOnClock (t : Transition (Session I R EV) (Timed I)) : Prop :=
  t.pre.spendsLoss t.call = true → ∀ flood taken, t.call.call = .timeout flood taken →
    (∃ u, checkedAddDuration t.call.now tiebreakDeferWait = some u) ∧
      (flood.inForce t.call.now = true →
        ∃ f, floorFrom t.call.now t.call.now flood = some f)

theorem withholds_step (latched : Bool) (s : Session I R EV) (e : Timed I)
    (h : latched = true → s.service.core.Withholds)
    (hl : ((s.next e).service.core.latched || (latched && !s.timerFires e)) = true) :
    (s.next e).service.core.Withholds := by
  rw [Bool.or_eq_true] at hl
  rcases hl with hl | hl
  · exact .inl hl
  obtain ⟨hlatched, hfires⟩ := Bool.and_eq_true_iff.mp hl
  have hpre := h hlatched
  have heff := s.next_effect e
  generalize (s.next e).service.core = c' at heff ⊢
  cases heff with
  | idle hsent hconfirm htimeout => exact hpre
  | event event flood he hw _ heff => exact hpre.event _ _ event e.now heff
  | timeout flood taken he hw _ heff =>
    simp only [timerFires, he, hw, Bool.not_false, Bool.not_true, Bool.false_eq_true] at hfires
  | poll flood buf he hw c₁ _ sent hdefer heff hsent =>
    exact (hpre.poll _ c₁ _ e.now flood buf sent hdefer heff).1
  | confirm v4 v6 he kind hk _ heff => exact hpre.confirm _ _ _ _ _ kind heff
  | withdraw he hw =>
    exact hpre.imp id fun hq => ⟨hq.state, rfl, rfl, rfl⟩

theorem withholds_run (probe : Bool) (ts : List (Transition (Session I R EV) (Timed I)))
    (s : Session I R EV) (run : Run (machine probe) ts s) (h : conflictOpen ts = true) :
    s.service.core.Withholds :=
  run.invariant (machine probe) _ false
    (fun latched s => latched = true → s.service.core.Withholds) (fun _ => True)
    (fun _ _ h => by cases h)
    (fun latched s e hs _ _ => withholds_step latched s e hs) ts s (fun _ _ => trivial) h

theorem losses_step [LawfulInstant I] (probe : Bool) (losses : List I) (s : Session I R EV)
    (e : Timed I)
    (h : ∀ t ∈ losses, t ≤ s.clock ∧ (s.withdrawing = true ∨ Waits s.service.core t s.clock))
    (ha : s.admits e) (hfair : WaitsOnClock ((machine probe).transition s e)) :
    ∀ t ∈ (if s.spendsLoss e then losses ++ [e.now] else losses), t ≤ (s.next e).clock ∧
      ((s.next e).withdrawing = true ∨ Waits (s.next e).service.core t (s.next e).clock) := by
  have hclock : s.clock ≤ e.now := ha.1
  have hwithdrawn : s.withdrawing = true → (s.next e).withdrawing = true := by
    intro hw
    simp only [next, hw, Bool.true_or]
  have heff := s.next_effect e
  -- the losses spent before this call
  have hold : ∀ t ∈ losses, t ≤ (s.next e).clock ∧
      ((s.next e).withdrawing = true ∨ Waits (s.next e).service.core t (s.next e).clock) := by
    intro t ht
    obtain ⟨hpast, hwait⟩ := h t ht
    refine ⟨le_trans hpast hclock, ?_⟩
    rcases hwait with hw | hwait
    · exact .inl (hwithdrawn hw)
    have hmono := hwait.mono _ _ _ _ hclock
    change (s.next e).withdrawing = true ∨ Waits (s.next e).service.core t e.now
    generalize (s.next e).service.core = c' at heff ⊢
    cases heff with
    | idle hsent hconfirm htimeout => exact .inr hmono
    | event event flood he hw _ heff => exact .inr (hmono.event _ _ _ _ event heff)
    | timeout flood taken he hw _ heff =>
      refine .inr (hmono.timeout _ _ _ _ flood (le_trans hpast hclock) (fun hd hl => ?_) heff)
      refine hfair ?_ flood taken he
      change s.service.probeDefeated = false at hd
      change s.service.tiebreakLost = true at hl
      simp only [Machine.transition, spendsLoss, timerFires, he, hw, hd, hl, Bool.not_false,
        Bool.and_self]
    | poll flood buf he hw c₁ _ sent hdefer heff hsent =>
      exact .inr (hmono.poll _ c₁ _ _ _ flood buf sent hdefer heff).1
    | confirm v4 v6 he kind hk _ heff => exact .inr (hmono.confirm _ _ _ _ _ _ _ kind hk heff)
    | withdraw he hw => exact .inl (by simp only [next, he, Bool.or_true])
  intro t ht
  by_cases hspends : s.spendsLoss e = true
  · rw [if_pos hspends] at ht
    rcases List.mem_append.mp ht with ht | ht
    · exact hold t ht
    · -- the loss spent by this very call
      rw [List.mem_singleton] at ht
      subst ht
      refine ⟨le_refl _, .inr ?_⟩
      have hloss := hspends
      simp only [spendsLoss, timerFires, Bool.and_eq_true, Bool.not_eq_true'] at hloss
      obtain ⟨⟨hfires, hd⟩, hl⟩ := hloss
      change Waits (s.next e).service.core e.now e.now
      generalize (s.next e).service.core = c' at heff ⊢
      cases heff with
      | timeout flood taken he hw _ heff =>
        obtain ⟨⟨u, hu⟩, hfloor⟩ := hfair hspends flood taken he
        cases heff with
        | waited hd' hl' =>
          change checkedAddDuration e.now tiebreakDeferWait = some u at hu
          obtain ⟨d, hdl, hle⟩ := underFlood_some e.now flood u hfloor
          rw [hu, hdl]
          exact .inr (.restarted _ _ _ u d none hu hle)
        | renamed hd' name hname deadline =>
          change s.service.probeDefeated = true at hd'
          rw [hd] at hd'
          cases hd'
        | gaveUp hd' =>
          change s.service.probeDefeated = true at hd'
          rw [hd] at hd'
          cases hd'
        | ticked hl' _ hticks =>
          change (s.service.probeDefeated || s.service.tiebreakLost) = false at hl'
          rw [hl, Bool.or_true] at hl'
          cases hl'
      | idle hsent hconfirm htimeout =>
        cases hcall : e.call with
        | timeout flood taken =>
          simp only [hcall, htimeout flood taken hcall, Bool.not_true, Bool.false_eq_true] at hfires
        | event event flood => simp only [hcall, Bool.false_eq_true] at hfires
        | poll flood buf => simp only [hcall, Bool.false_eq_true] at hfires
        | outcome v4 v6 => simp only [hcall, Bool.false_eq_true] at hfires
        | update => simp only [hcall, Bool.false_eq_true] at hfires
        | withdraw => simp only [hcall, Bool.false_eq_true] at hfires
      | event event flood he hw _ heff => simp only [he, Bool.false_eq_true] at hfires
      | poll flood buf he hw c₁ _ sent hdefer heff hsent =>
        simp only [he, Bool.false_eq_true] at hfires
      | confirm v4 v6 he kind hk _ heff => simp only [he, Bool.false_eq_true] at hfires
      | withdraw he hw => simp only [he, Bool.false_eq_true] at hfires
  · rw [if_neg hspends] at ht
    exact hold t ht

theorem losses_run [LawfulInstant I] (probe : Bool)
    (ts : List (Transition (Session I R EV) (Timed I))) (s : Session I R EV)
    (run : Run (machine probe) ts s) (hfair : ∀ t ∈ ts, WaitsOnClock t) :
    ∀ t ∈ lossesSpent ts, t ≤ s.clock ∧ (s.withdrawing = true ∨ Waits s.service.core t s.clock) :=
  run.invariant (machine probe) _ []
    (fun losses s => ∀ t ∈ losses, t ≤ s.clock ∧
      (s.withdrawing = true ∨ Waits s.service.core t s.clock)) WaitsOnClock
    (fun _ _ _ ht => absurd ht List.not_mem_nil)
    (fun losses s e hs ha hf => losses_step probe losses s e hs ha hf) ts s hfair

/-- After any run: while a conflict is open a poll sends at most the enumeration of the service
type, by multicast; and where every spent loss has its wait on the clock, no probe leaves within
a second of one, under whatever name. -/
theorem conflicts_withhold [LawfulInstant I] (probe : Bool)
    (ts : List (Transition (Session I R EV) (Timed I))) (s : Session I R EV)
    (run : Run (machine probe) ts s) (e : Timed I) (ha : s.admits e) (d : Sent)
    (hd : s.sent e = some d) :
    (conflictOpen ts = true →
        d.transmit.dst = multicastDst ∧ d.message.OnlyEnumerates s.service.records) ∧
      ((∀ t ∈ ts, WaitsOnClock t) → d.message.header.flags.isResponse = false →
        ∀ t ∈ lossesSpent ts, Elapsed t tiebreakDeferWait e.now) := by
  obtain ⟨hw, flood, buf, c₁, hdefer, heff⟩ := s.sent_polled e d hd
  refine ⟨fun hopen => ?_, fun hfair hq t ht => ?_⟩
  · exact ((withholds_run probe ts s run hopen).poll _ c₁ _ e.now flood buf _ hdefer
      heff).2 d rfl
  · obtain ⟨-, hwait⟩ := losses_run probe ts s run hfair t ht
    rcases hwait with hw' | hwait
    · rw [hw] at hw'
      cases hw'
    · exact ((hwait.mono _ _ _ _ ha.1).poll _ c₁ _ t e.now flood buf _ hdefer heff).2 d rfl hq

/-- A printer registered at `t₀` hears a later proposal, spends its loss at `t₁` and fires its
timer twice at `t₂`. -/
def losing (t₀ t₁ t₂ : Uptime) : List (Timed Uptime) :=
  [timer t₀, hearsProbe t₀ { ServiceRecords.printer with port := 9100 }, timer t₁, timer t₂,
    timer t₂]

omit [SeedableRng R] [Pool EV] in
theorem waitsOnClock_of_plain (t : Transition (Session Uptime R EV) (Timed Uptime))
    (h : t.pre.spendsLoss t.call = true →
      (checkedAddDuration t.call.now tiebreakDeferWait).isSome = true ∧
        ∀ flood taken, t.call.call = .timeout flood taken → flood.inForce t.call.now = false) :
    WaitsOnClock t := by
  intro hs flood taken he
  obtain ⟨hsome, hplain⟩ := h hs
  refine ⟨Option.isSome_iff_exists.mp hsome, fun hf => ?_⟩
  rw [hplain flood taken he] at hf
  cases hf

def unflooded (e : Timed Uptime) : Bool :=
  match e.call with
  | .timeout flood _ => !flood.inForce e.now
  | _ => true

theorem printer_waits_a_second :
    ∃ d, ((machine true).play (printerAt true 0) (losing 0 10 1000000010)).sent
        (pollAt 1000000010) = some d ∧ d.message.header.flags.isResponse = false ∧
      ∀ t ∈ lossesSpent ((machine true).trace (printerAt true 0) (losing 0 10 1000000010)),
        Elapsed t tiebreakDeferWait 1000000010 := by
  have hrun : Run (machine true) _ _ := (Run.start _ (printerAt_registered true 0)).play _ _ _
    (losing 0 10 1000000010) (by decide +kernel)
  have hsent : (((machine true).play (printerAt true 0) (losing 0 10 1000000010)).sent
      (pollAt 1000000010)).any (fun d => !d.message.header.flags.isResponse) = true := by
    decide +kernel
  obtain ⟨d, hd, hq⟩ := sent_any _ _ _ hsent
  have hq' : d.message.header.flags.isResponse = false := by simpa using hq
  have hall : ∀ t ∈ (machine true).trace (printerAt true 0) (losing 0 10 1000000010),
      WaitsOnClock t := by
    have hplain : ((machine true).trace (printerAt true 0) (losing 0 10 1000000010)).all (fun t =>
        (checkedAddDuration t.call.now tiebreakDeferWait).isSome && unflooded t.call) = true := by
      decide +kernel
    intro t ht
    refine waitsOnClock_of_plain t fun _ => ?_
    obtain ⟨hsome, hflood⟩ := Bool.and_eq_true_iff.mp (List.all_eq_true.mp hplain t ht)
    refine ⟨hsome, fun flood taken he => ?_⟩
    unfold unflooded at hflood
    rw [he] at hflood
    exact Bool.not_eq_true' _ ▸ hflood
  exact ⟨d, hd, hq', (conflicts_withhold true _ _ hrun (pollAt 1000000010) (by decide +kernel) d
    hd).2 hall hq'⟩

/-- Less than a second before the clock ends the wait is left out, and the printer probes at
the very instant its loss is spent. -/
theorem late_printer_probes_at_once :
    ∃ (ts : List (Transition (Session Uptime ZeroRng Slab) (Timed Uptime)))
      (s : Session Uptime ZeroRng Slab) (e : Timed Uptime) (d : Sent) (t : Uptime),
      Run (machine true) ts s ∧ s.admits e ∧ s.sent e = some d ∧
        d.message.header.flags.isResponse = false ∧ t ∈ lossesSpent ts ∧
        ¬Elapsed t tiebreakDeferWait e.now := by
  have hrun : Run (machine true) _ _ :=
    (Run.start _ (printerAt_registered true lateUptime)).play _ _ _
      (losing lateUptime lateUptime lateUptime ++ [timer lateUptime]) (by decide +kernel)
  have hsent : (((machine true).play (printerAt true lateUptime)
      (losing lateUptime lateUptime lateUptime ++ [timer lateUptime])).sent
        (pollAt lateUptime)).any (fun d => !d.message.header.flags.isResponse) = true := by
    decide +kernel
  obtain ⟨d, hd, hq⟩ := sent_any _ _ _ hsent
  refine ⟨_, _, pollAt lateUptime, d, lateUptime, hrun, by decide +kernel, hd, by simpa using hq,
    by decide +kernel, ?_⟩
  rintro ⟨u, hu, -⟩
  have hnone : checkedAddDuration lateUptime tiebreakDeferWait = none := by decide +kernel
  rw [hnone] at hu
  cases hu

end Session
end Hick
