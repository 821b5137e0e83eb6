import Mathlib
import Hick.Service.Datagrams
import Hick.Service.Session

/-!
# Probe before claim (service/mod.rs:1881-1965, 3008-3071, 4909-5012, 5091-5484)

Each advance of the probe phase since the cycle last began is logged with the confirm that made it.
-/

set_option linter.unusedSectionVars false

namespace Hick
open Octets Wire Respond Runs

structure Advance (I : Type) where
  index : UInt8
  reached : UInt8
  confirm : Option (Confirmed I)

section
variable {I : Type} [Instant I]

/-- The advance was made at `anchor`, on the confirm of probe `n`, which some family took. -/
def Advance.MadeAt (a : Advance I) (n : Nat) (anchor : I) : Prop :=
  a.index.toNat = n ∧ a.reached.toNat = n + 1 ∧
    ∃ c, a.confirm = some c ∧ c.token = .probe ∧ c.anchor = anchor ∧
      c.delivery.anyDelivered = true

/-- The phase went from probe 0 to probe 1, to probe 2 and past it, and a probe interval has
gone by since. -/
def ClaimEarned (log : List (Advance I)) (now : I) : Prop :=
  ∃ a b c t₀ t₁ t₂, log = [a, b, c] ∧ a.MadeAt 0 t₀ ∧ b.MadeAt 1 t₁ ∧ c.MadeAt 2 t₂ ∧
    Elapsed t₂ probeInterval now

def noteAdvance (log : List (Advance I)) (pre post : ServiceState)
    (confirm : Option (Confirmed I)) : List (Advance I) :=
  match pre, post with
  | _, .init => []
  | .probing n, .probing m => if n = m then log else log ++ [⟨n, m, confirm⟩]
  | _, _ => log

inductive Probed : List (Advance I) → Nat → Prop
  | none : Probed [] 0
  | advance (log : List (Advance I)) (n : Nat) (h : Probed log n) (a : Advance I) (anchor : I)
    (ha : a.MadeAt n anchor) : Probed (log ++ [a]) (n + 1)

variable (log : List (Advance I)) (c c' : Core I) (now polledAt : I) (flood : ConflictFlood I)

theorem Probed.three (h : Probed log 3) :
    ∃ a b c t₀ t₁ t₂, log = [a, b, c] ∧ a.MadeAt 0 t₀ ∧ b.MadeAt 1 t₁ ∧ c.MadeAt 2 t₂ := by
  cases h with
  | advance log _ h c t₂ hc =>
    cases h with
    | advance log _ h b t₁ hb =>
      cases h with
      | advance log _ h a t₀ ha =>
        cases h with
        | none => exact ⟨a, b, c, t₀, t₁, t₂, rfl, ha, hb, hc⟩

theorem Probed.index_lt (n : Nat) (h : Probed log n) (a : Advance I)
    (ha : a ∈ log) : a.index.toNat < n := by
  induction h with
  | none => exact absurd ha List.not_mem_nil
  | advance log n _ b anchor hb ih =>
    rcases List.mem_append.mp ha with ha | ha
    · exact Nat.lt_succ_of_lt (ih ha)
    · rw [List.mem_singleton] at ha
      rw [ha, hb.1]
      exact Nat.lt_succ_self n

theorem Advance.MadeAt.unique (a : Advance I) (n : Nat) (t u : I) (ht : a.MadeAt n t)
    (hu : a.MadeAt n u) : t = u := by
  obtain ⟨-, -, c, hc, -, rfl, -⟩ := ht
  obtain ⟨-, -, c', hc', -, rfl, -⟩ := hu
  rw [Option.some.inj (hc.symm.trans hc')]

theorem ClaimEarned.mono (a b : I) (h : ClaimEarned log a)
    (hab : a ≤ b) : ClaimEarned log b := by
  obtain ⟨x, y, z, t₀, t₁, t₂, hlog, hx, hy, hz, helapsed⟩ := h
  exact ⟨x, y, z, t₀, t₁, t₂, hlog, hx, hy, hz, helapsed.mono _ _ _ _ hab⟩

theorem ClaimEarned.third_onClock (now : I) (h : ClaimEarned log now) :
    ((log[2]?.bind Advance.confirm).any fun r =>
      (checkedAddDuration r.anchor probeInterval).isSome) = true := by
  obtain ⟨x, y, z, t₀, t₁, t₂, rfl, hx, hy, ⟨-, -, r, hr, -, rfl, -⟩, u, hu, -⟩ := h
  change (z.confirm.any fun r => (checkedAddDuration r.anchor probeInterval).isSome) = true
  rw [hr]
  change (checkedAddDuration r.anchor probeInterval).isSome = true
  rw [hu]
  rfl

theorem ClaimEarned.later [LawfulInstant I] (log : List (Advance I)) (now anchor d : I)
    (h : ClaimEarned log now)
    (hpast : ∀ a ∈ log, ∀ n t, a.MadeAt n t → t ≤ anchor)
    (hd : checkedAddDuration anchor probeInterval = some d) : ClaimEarned log d := by
  obtain ⟨x, y, z, t₀, t₁, t₂, rfl, hx, hy, hz, u, hu, -⟩ := h
  have hle : t₂ ≤ anchor := hpast z (by simp) 2 t₂ hz
  exact ⟨x, y, z, t₀, t₁, t₂, rfl, hx, hy, hz, u, hu,
    LawfulInstant.add_mono _ _ _ _ _ _ hle (le_refl _) hu hd⟩

def PhaseEarned (log : List (Advance I)) (now : I) : ServiceState → Prop
  | .init => log = []
  | .probing n => n.toNat ≤ 3 ∧ Probed log n.toNat
  | .announcing _ | .established => ClaimEarned log now
  | .conflicting => True

theorem PhaseEarned.mono (a b : I) (state : ServiceState)
    (h : PhaseEarned log a state) (hab : a ≤ b) : PhaseEarned log b state := by
  cases state with
  | init => exact h
  | probing n => exact h
  | announcing n => exact ClaimEarned.mono log a b h hab
  | established => exact ClaimEarned.mono log a b h hab
  | conflicting => trivial

theorem PhaseEarned.published (now : I) (state : ServiceState)
    (h : PhaseEarned log now state) (hp : state.isPublished = true) : ClaimEarned log now := by
  cases state with
  | announcing n => exact h
  | established => exact h
  | init => cases hp
  | probing n => cases hp
  | conflicting => cases hp

theorem PhaseEarned.of_published (now : I) (state : ServiceState)
    (h : ClaimEarned log now) (hp : state.isPublished = true) : PhaseEarned log now state := by
  cases state with
  | announcing n => exact h
  | established => exact h
  | init => cases hp
  | probing n => cases hp
  | conflicting => cases hp

def Core.HasClaims (c : Core I) : Prop :=
  (∃ kind, c.pendingTransmits.Holds kind ∧ kind ≠ .probe) ∨ c.responseDeadline ≠ none ∨
    c.pendingLegacy ≠ []

structure CycleInv (log : List (Advance I)) (c : Core I) (clock polledAt : I) : Prop where
  polled : polledAt ≤ clock
  phase : PhaseEarned log clock c.state
  /-- While the window after the third probe is open, nothing is due before it closes. -/
  window : c.state = .probing 3 →
    (∃ now, ClaimEarned log now) ∧ ∀ d, c.lifecycleDeadline = some d → ClaimEarned log d
  onWire : ∀ n, c.state = .probing n → n ≠ 0 → c.probeOnWire = true
  past : ∀ a ∈ log, ∀ n t, a.MadeAt n t →
    t ≤ clock ∧ (c.awaitingConfirm ≠ none → t ≤ polledAt)
  queued : c.HasClaims → c.state.isPublished = true

theorem CycleInv.tick_clock (c : Core I) (clock polledAt now : I)
    (h : CycleInv log c clock polledAt) (hnow : clock ≤ now) : CycleInv log c now polledAt where
  polled := le_trans h.polled hnow
  phase := h.phase.mono _ _ _ _ hnow
  window := h.window
  onWire := h.onWire
  past a ha n t ht := ⟨le_trans (h.past a ha n t ht).1 hnow, (h.past a ha n t ht).2⟩
  queued := h.queued

theorem CycleInv.poll_clock (c : Core I) (clock polledAt now : I)
    (h : CycleInv log c clock polledAt) (hnow : clock ≤ now) : CycleInv log c now now where
  polled := le_refl _
  phase := h.phase.mono _ _ _ _ hnow
  window := h.window
  onWire := h.onWire
  past a ha n t ht := ⟨le_trans (h.past a ha n t ht).1 hnow,
    fun _ => le_trans (h.past a ha n t ht).1 hnow⟩
  queued := h.queued

theorem CycleInv.same_phase (clock polledAt : I)
    (h : CycleInv log c clock polledAt) (hs : c'.state = c.state)
    (hd : c'.lifecycleDeadline = c.lifecycleDeadline)
    (hw : c.probeOnWire = true → c'.probeOnWire = true)
    (ht : (c'.awaitingConfirm ≠ none → c.awaitingConfirm ≠ none) ∨ clock = polledAt)
    (hq : c'.HasClaims → c.HasClaims) : CycleInv log c' clock polledAt where
  polled := h.polled
  phase := by
    rw [hs]
    exact h.phase
  window := by
    rw [hs, hd]
    exact h.window
  onWire n := by
    rw [hs]
    exact fun hn hne => hw (h.onWire n hn hne)
  past a ha n t hm := by
    refine ⟨(h.past a ha n t hm).1, fun hc => ?_⟩
    rcases ht with ht | rfl
    · exact (h.past a ha n t hm).2 (ht hc)
    · exact (h.past a ha n t hm).1
  queued hc := by
    rw [hs]
    exact h.queued (hq hc)

theorem CycleInv.restarted (clock polledAt : I)
    (h : CycleInv log c clock polledAt) (hs : c'.state = .init)
    (hp : c'.pendingTransmits = .empty) (hr : c'.responseDeadline = none)
    (hl : c'.pendingLegacy = []) : CycleInv [] c' clock polledAt where
  polled := h.polled
  phase := by
    rw [hs]
    rfl
  window hs' := by
    rw [hs] at hs'
    cases hs'
  onWire n hn := by
    rw [hs] at hn
    cases hn
  past a ha := absurd ha List.not_mem_nil
  queued := by
    rintro (⟨kind, hk, -⟩ | hne | hne)
    · rw [hp] at hk
      exact absurd hk (Pending.empty_holds kind)
    · exact absurd hr hne
    · exact absurd hl hne

theorem noteAdvance_same (state : ServiceState)
    (confirm : Option (Confirmed I)) (h : state = .init → log = []) :
    noteAdvance log state state confirm = log := by
  unfold noteAdvance
  cases state with
  | init => exact (h rfl).symm
  | probing n => exact if_pos rfl
  | announcing n => rfl
  | established => rfl
  | conflicting => rfl

theorem noteAdvance_init (pre : ServiceState)
    (confirm : Option (Confirmed I)) : noteAdvance log pre .init confirm = [] := by
  unfold noteAdvance
  split
  · rfl
  · rename_i h
    cases h
  · rename_i h _
    exact absurd rfl (h)

theorem noteAdvance_unprobed (pre post : ServiceState)
    (confirm : Option (Confirmed I)) (hi : post ≠ .init) (hp : ∀ n, pre ≠ .probing n) :
    noteAdvance log pre post confirm = log := by
  unfold noteAdvance
  split
  · exact absurd rfl hi
  · exact absurd rfl (hp _)
  · rfl

theorem noteAdvance_moved (n m : UInt8) (h : n ≠ m)
    (confirm : Option (Confirmed I)) :
    noteAdvance log (.probing n) (.probing m) confirm = log ++ [⟨n, m, confirm⟩] := if_neg h

structure Ticked (pre post : ServiceState) : Prop where
  init : post = .init → pre = .init
  probing : ∀ m, post = .probing m → pre = .probing m ∨ pre = .init
  published : pre.isPublished = true → post.isPublished = true

theorem Ticked.refl (state : ServiceState) : Ticked state state :=
  ⟨id, fun _ h => .inl h, id⟩

theorem Ticked.trans (a b c : ServiceState) (h : Ticked a b) (h' : Ticked b c) : Ticked a c where
  init hc := h.init (h'.init hc)
  probing m hm := by
    rcases h'.probing m hm with hb | hb
    · exact h.probing m hb
    · exact .inr (h.init hb)
  published hp := h'.published (h.published hp)

theorem noteAdvance_ticked (pre post : ServiceState)
    (confirm : Option (Confirmed I)) (h : Ticked pre post) (hlog : pre = .init → log = []) :
    noteAdvance log pre post confirm = log := by
  cases post with
  | init => rw [noteAdvance_init, hlog (h.init rfl)]
  | probing m =>
    rcases h.probing m rfl with rfl | rfl
    · exact noteAdvance_same log _ confirm nofun
    · exact noteAdvance_unprobed log _ _ confirm nofun nofun
  | announcing n => cases pre <;> rfl
  | established => cases pre <;> rfl
  | conflicting => cases pre <;> rfl

theorem TickMove.ticked (now : I) (flood : ConflictFlood I) (fired : Bool) (c c' : Core I)
    (h : TickMove now flood fired c c') : Ticked c.state c'.state := by
  cases h with
  | startProbing hs hdue d =>
    rw [hs]
    exact ⟨nofun, fun _ _ => .inr rfl, nofun⟩
  | closeSettling n hs hn hdue d =>
    rw [hs]
    exact ⟨nofun, nofun, nofun⟩
  | takeResponse h => exact .refl _
  | rearm base h => exact .refl _
  | hold floor hw hs hdue hf => exact .refl _
  | park hw hs hdue => exact .refl _
  | queueProbe n hs hn hdue pending hp d => exact .refl _
  | queueAnnouncement hs hdue pending hp d => exact .refl _
  | queueResponse h => exact .refl _

theorem CycleInv.settling_onWire (c : Core I) (clock polledAt : I)
    (h : CycleInv log c clock polledAt) (hw : c.probeOnWire = false) : c.state ≠ .probing 3 := by
  intro hs
  rw [h.onWire 3 hs (by decide)] at hw
  cases hw

theorem CycleInv.rearmed (clock polledAt : I)
    (h : CycleInv log c clock polledAt) (hw : c.state ≠ .probing 3) (hs : c'.state = c.state)
    (hp : c'.probeOnWire = c.probeOnWire) (ht : c'.awaitingConfirm = c.awaitingConfirm)
    (hq : c'.HasClaims → c.HasClaims ∨ c.state.isPublished = true) :
    CycleInv log c' clock polledAt where
  polled := h.polled
  phase := by
    rw [hs]
    exact h.phase
  window hs' := absurd (hs ▸ hs') hw
  onWire n := by
    rw [hs, hp]
    exact h.onWire n
  past := by
    rw [ht]
    exact h.past
  queued hc := by
    rw [hs]
    rcases hq hc with hc | hc
    · exact h.queued hc
    · exact hc

theorem Core.HasClaims.of_pending (h : c'.HasClaims)
    (hr : c'.responseDeadline = c.responseDeadline) (hl : c'.pendingLegacy = c.pendingLegacy)
    (kind : PendingTransmitKind)
    (hp : c'.pendingTransmits = c.pendingTransmits ∨
      c'.pendingTransmits = c.pendingTransmits.push kind) :
    c.HasClaims ∨ kind ≠ .probe := by
  rcases h with ⟨k, hk, hne⟩ | hne | hne
  · rcases hp with hp | hp
    · rw [hp] at hk
      exact .inl (.inl ⟨k, hk, hne⟩)
    · rw [hp] at hk
      rcases Pending.push_holds _ _ _ hk with hk | rfl
      · exact .inl (.inl ⟨k, hk, hne⟩)
      · exact .inr hne
  · exact .inl (.inr (.inl (hr ▸ hne)))
  · exact .inl (.inr (.inr (hl ▸ hne)))

theorem CycleInv.tickMove (fired : Bool) (h : CycleInv log c now polledAt)
    (hfired : fired = true → c.state.isPublished = true)
    (hmove : TickMove now flood fired c c') : CycleInv log c' now polledAt := by
  cases hmove with
  | takeResponse hf =>
    refine h.same_phase log _ _ _ _ rfl rfl id (.inl id) fun hc => ?_
    rcases hc with hc | hne | hne
    · exact .inl hc
    · exact absurd rfl hne
    · exact .inr (.inr hne)
  | rearm base hp =>
    have hw : c.probeOnWire = false := by
      simp only [Core.startupParked, Bool.and_eq_true, Bool.not_eq_true'] at hp
      exact hp.1.2
    exact h.rearmed _ _ _ _ _ (h.settling_onWire _ _ _ _ hw) rfl rfl rfl .inl
  | hold floor hw hs hdue hf =>
    exact h.rearmed _ _ _ _ _ (h.settling_onWire _ _ _ _ hw) rfl rfl rfl .inl
  | park hw hs hdue =>
    exact h.rearmed _ _ _ _ _ (h.settling_onWire _ _ _ _ hw) rfl rfl rfl .inl
  | startProbing hs hdue d =>
    have hlog : log = [] := by
      have hphase := h.phase
      rw [hs] at hphase
      exact hphase
    refine ⟨h.polled, ?_, nofun, ?_, h.past, fun hc => ?_⟩
    · rw [hlog]
      exact ⟨by decide, .none⟩
    · rintro n hn hne
      cases hn
      exact absurd rfl hne
    · have hpub := h.queued hc
      rw [hs] at hpub
      cases hpub
  | closeSettling n hs hn hdue d =>
    have hthree : n = 3 := by
      have hphase := h.phase
      rw [hs] at hphase
      exact UInt8.toNat_inj.mp (Nat.le_antisymm hphase.1 (UInt8.le_iff_toNat_le.mp hn))
    subst hthree
    obtain ⟨dl, hdl, hle⟩ := (due_iff _ _).mp hdue
    exact ⟨h.polled, ((h.window hs).2 dl hdl).mono _ _ _ hle, nofun, nofun, h.past, fun _ => rfl⟩
  | queueProbe n hs hn hdue pending hp d =>
    have hw : c.state ≠ .probing 3 := by
      rw [hs]
      rintro h3
      cases h3
      exact absurd hn (by decide)
    refine h.rearmed _ _ _ _ _ hw rfl rfl rfl fun hc => ?_
    rcases Core.HasClaims.of_pending c _ hc rfl rfl .probe hp with hc | hne
    · exact .inl hc
    · exact absurd rfl hne
  | queueAnnouncement hs hdue pending hp d =>
    have hw : c.state ≠ .probing 3 := by
      intro h3
      rw [h3] at hs
      cases hs
    exact h.rearmed _ _ _ _ _ hw rfl rfl rfl fun _ => .inr hs
  | queueResponse hf =>
    have hpub := hfired hf
    have hw : c.state ≠ .probing 3 := by
      intro h3
      rw [h3] at hpub
      cases hpub
    exact h.rearmed _ _ _ _ _ hw rfl rfl rfl fun _ => .inr hpub

theorem CycleInv.ticks (fired : Bool) (h : CycleInv log c now polledAt)
    (hfired : fired = true → c.state.isPublished = true) (hticks : Ticks now flood fired c c') :
    CycleInv log c' now polledAt ∧ Ticked c.state c'.state := by
  induction hticks with
  | refl => exact ⟨h, .refl _⟩
  | @tail mid last _ hmove ih =>
    obtain ⟨hinv, hticked⟩ := ih
    refine ⟨hinv.tickMove _ _ _ _ _ _ _ (fun hf => hticked.published (hfired hf)) hmove, ?_⟩
    exact hticked.trans _ _ _ (hmove.ticked now flood fired mid last)

theorem CycleInv.timeout (h : CycleInv log c now polledAt)
    (heff : TimeoutEffect c now flood c') :
    CycleInv (noteAdvance log c.state c'.state none) c' now polledAt := by
  cases heff with
  | waited hd hl =>
    rw [show (c.restarted now _ none).state = .init from rfl, noteAdvance_init]
    exact h.restarted _ _ _ _ _ rfl rfl rfl rfl
  | renamed hd name hname deadline =>
    dsimp only
    rw [show (c.restarted now deadline _).state = .init from rfl, noteAdvance_init]
    exact h.restarted _ _ _ _ _ rfl rfl rfl rfl
  | gaveUp hd =>
    refine ⟨h.polled, trivial, nofun, nofun, ?_, ?_⟩
    · intro a ha n t hm
      have hlog : noteAdvance log c.state (c.spent.givenUp).state none = log := by
        change noteAdvance log c.state .conflicting none = log
        cases c.state <;> rfl
      rw [hlog] at ha
      refine ⟨(h.past a ha n t hm).1, fun hne => (h.past a ha n t hm).2 fun hnone => ?_⟩
      apply hne
      change c.awaitingConfirm.map _ = none
      rw [hnone]
      rfl
    · rintro (⟨kind, hk, -⟩ | hne | hne)
      · exact absurd hk (Pending.empty_holds kind)
      · exact absurd rfl hne
      · exact absurd rfl hne
  | ticked hl _ hticks =>
    have hexp : CycleInv log { c with kas := c.kas.expire now } now polledAt :=
      h.same_phase _ _ _ _ _ rfl rfl id (.inl id) id
    have hfired : due c.responseDeadline now = true → c.state.isPublished = true := by
      intro hdue
      obtain ⟨d, hd, -⟩ := (due_iff _ _).mp hdue
      refine h.queued (.inr (.inl ?_))
      rw [hd]
      exact nofun
    obtain ⟨hinv, hticked⟩ := hexp.ticks _ _ _ _ _ _ _ hfired hticks
    have hlog : noteAdvance log c.state c'.state none = log := by
      refine noteAdvance_ticked _ _ _ _ hticked fun hs => ?_
      have hphase := h.phase
      rw [hs] at hphase
      exact hphase
    rw [hlog]
    exact hinv

theorem CycleInv.event (event : ServiceEvent) (h : CycleInv log c now polledAt)
    (heff : EventEffect c event now c') :
    CycleInv (noteAdvance log c.state c'.state none) c' now polledAt := by
  have hlog : noteAdvance log c.state c.state none = log := by
    refine noteAdvance_same _ _ _ fun hs => ?_
    have hphase := h.phase
    rw [hs] at hphase
    exact hphase
  cases heff with
  | quiet =>
    rw [hlog]
    exact h
  | lost hs =>
    rw [hlog]
    exact h.same_phase _ _ _ _ _ rfl rfl id (.inl id) id
  | defeated hs hw =>
    rw [hlog]
    exact h.same_phase _ _ _ _ _ rfl rfl id (.inl id) id
  | owed hs legacy hport =>
    rw [hlog]
    have hw : c.state ≠ .probing 3 := by
      intro h3
      rw [h3] at hs
      cases hs
    exact h.rearmed _ _ _ _ _ hw rfl rfl rfl fun _ => .inr hs
  | asked hs sq he due =>
    rw [hlog]
    have hw : c.state ≠ .probing 3 := by
      intro h3
      rw [h3] at hs
      cases hs
    exact h.rearmed _ _ _ _ _ hw rfl rfl rfl fun _ => .inr hs
  | known ka he hint hh =>
    rw [hlog]
    exact h.same_phase _ _ _ _ _ rfl rfl id (.inl id) id
  | restarted hs deadline =>
    rw [show (c.restarted now deadline none).state = .init from rfl, noteAdvance_init]
    exact h.restarted _ _ _ _ _ rfl rfl rfl rfl

theorem CycleInv.deferred (h : CycleInv log c now polledAt)
    (heff : DeferEffect c now flood c') :
    CycleInv log c' now polledAt ∧ c'.state = c.state := by
  cases heff with
  | none => exact ⟨h, rfl⟩
  | dropped hw hp deadline =>
    refine ⟨?_, rfl⟩
    refine h.rearmed _ _ _ _ _ (h.settling_onWire _ _ _ _ hw) rfl rfl rfl fun hc => .inl ?_
    rcases hc with ⟨k, hk, hne⟩ | hc
    · exact .inl ⟨k, Pending.pop_holds _ _ hk, hne⟩
    · exact .inr hc

theorem Core.HasClaims.of_drained (h : c'.HasClaims)
    (hr : c'.responseDeadline = c.responseDeadline)
    (hl : c'.pendingLegacy ≠ [] → c.pendingLegacy ≠ [])
    (hp : c'.pendingTransmits = c.pendingTransmits ∨
      c'.pendingTransmits = c.pendingTransmits.pop) : c.HasClaims := by
  rcases h with ⟨k, hk, hne⟩ | hne | hne
  · rcases hp with hp | hp
    · exact .inl ⟨k, hp ▸ hk, hne⟩
    · rw [hp] at hk
      exact .inl ⟨k, Pending.pop_holds _ _ hk, hne⟩
  · exact .inr (.inl (hr ▸ hne))
  · exact .inr (.inr (hl hne))

theorem Core.Owed.nonempty (c : Core I) (legacy : List LegacyResp) (h : c.Owed legacy)
    (hne : legacy ≠ []) : c.pendingLegacy ≠ [] := by
  rcases h with rfl | rfl
  · exact hne
  · intro hnil
    rw [hnil] at hne
    exact hne rfl

theorem CycleInv.poll (now : I) (buf : Bytes)
    (sent : Option Sent) (h : CycleInv log c now now) (heff : PollEffect c now buf c' sent) :
    CycleInv log c' now now ∧ c'.state = c.state := by
  cases heff with
  | silent legacy ho =>
    refine ⟨h.same_phase _ _ _ _ _ rfl rfl id (.inr rfl) fun hc => ?_, rfl⟩
    exact hc.of_drained c _ rfl (ho.nonempty c _) (.inl rfl)
  | metaReply ht metaName hm msg he =>
    exact ⟨h.same_phase _ _ _ _ _ rfl rfl id (.inr rfl) id, rfl⟩
  | legacyReply ht hl legacy rest ho msg token he =>
    refine ⟨h.same_phase _ _ _ _ _ rfl rfl id (.inr rfl) fun hc => ?_, rfl⟩
    refine hc.of_drained c _ rfl (fun _ => ?_) (.inl rfl)
    rw [ho]
    exact List.cons_ne_nil _ _
  | probe ht hl legacy ho hp msg he =>
    refine ⟨h.same_phase _ _ _ _ _ rfl rfl id (.inr rfl) fun hc => ?_, rfl⟩
    exact hc.of_drained c _ rfl (ho.nonempty c _) (.inr rfl)
  | announcement ht hl legacy ho hp msg nsec he =>
    refine ⟨h.same_phase _ _ _ _ _ rfl rfl id (.inr rfl) fun hc => ?_, rfl⟩
    exact hc.of_drained c _ rfl (ho.nonempty c _) (.inr rfl)
  | response ht hl legacy ho hp msg emitted he hne =>
    refine ⟨h.same_phase _ _ _ _ _ rfl rfl id (.inr rfl) fun hc => ?_, rfl⟩
    exact hc.of_drained c _ rfl (ho.nonempty c _) (.inr rfl)
  | drained ht hl legacy ho hp msg emitted he hne =>
    refine ⟨h.same_phase _ _ _ _ _ rfl rfl id (.inr rfl) fun hc => ?_, rfl⟩
    exact hc.of_drained c _ rfl (ho.nonempty c _) (.inr rfl)

theorem PollEffect.claims (now : I) (buf : Bytes) (d : Sent)
    (heff : PollEffect c now buf c' (some d)) (hclaim : d.message.ClaimsUnique) :
    c.HasClaims := by
  cases heff with
  | metaReply ht metaName hm msg he =>
    have honly := metaResponse_enumerates c.records metaName hm buf msg he
    exact absurd hclaim (OnlyEnumerates.no_claim c.records msg honly)
  | legacyReply ht hl legacy rest ho msg token he =>
    refine .inr (.inr ?_)
    rw [ho]
    exact List.cons_ne_nil _ _
  | probe ht hl legacy ho hp msg he =>
    have hresp : msg.header.flags.isResponse = true := hclaim.1
    rw [(probe_asserts_nothing c.records buf msg he).1] at hresp
    cases hresp
  | announcement ht hl legacy ho hp msg nsec he =>
    exact .inl ⟨.announcement, Pending.peek_holds _ _ hp, nofun⟩
  | response ht hl legacy ho hp msg emitted he hne =>
    exact .inl ⟨.response, Pending.peek_holds _ _ hp, nofun⟩

theorem encodeLegacy_responds (records : ServiceRecords) (legacy : LegacyResp) (buf : Bytes)
    (msg : Message) (token : AwaitingConfirm)
    (h : Service.encodeLegacy records legacy buf = .ok (msg, token)) :
    msg.header.flags.isResponse = true := by
  have hown : ∀ n ∈ ownNames records, n ∈ legacy.name :: ownNames records :=
    fun _ h => List.mem_cons_of_mem _ h
  unfold Service.encodeLegacy at h
  split at h
  · split at h
    · cases h
    · rename_i he
      cases h
      have hspec := writeLegacyMetaResponse_spec records _ hown legacy.queryId legacy.name
        List.mem_cons_self legacy.qtype legacy.qclass buf _ he
      rw [hspec.flags]
      exact (by decide : responseHeader.flags.isResponse = true)
  · split at h
    · cases h
    · rename_i he
      cases h
      have hspec := (writeLegacyResponse_spec records _ hown legacy.queryId legacy.name
        List.mem_cons_self legacy.qtype legacy.qclass buf _ _ he).2
      rw [hspec.flags]
      exact (by decide : responseHeader.flags.isResponse = true)

theorem PollEffect.query (now : I) (buf : Bytes) (d : Sent)
    (heff : PollEffect c now buf c' (some d)) (hq : d.message.header.flags.isResponse = false) :
    c.latched = false ∧ c.pendingTransmits.peek = some .probe := by
  have hown : ∀ n ∈ ownNames c.records, n ∈ ownNames c.records := fun _ h => h
  cases heff with
  | metaReply ht metaName hm msg he =>
    have hspec := writeMetaResponse_spec c.records (metaName :: ownNames c.records)
      (fun _ h => List.mem_cons_of_mem _ h) metaName List.mem_cons_self buf msg he
    have hresp : msg.header.flags.isResponse = true := by
      rw [hspec.flags]
      decide
    exact absurd hq (by rw [Sent.stamped, hresp]; exact Bool.noConfusion)
  | legacyReply ht hl legacy rest ho msg token he =>
    have hresp := encodeLegacy_responds c.records legacy buf msg token he
    exact absurd hq (by rw [Sent.stamped, hresp]; exact Bool.noConfusion)
  | probe ht hl legacy ho hp msg he => exact ⟨hl, hp⟩
  | announcement ht hl legacy ho hp msg nsec he =>
    have hspec := writeAnnounce_spec c.records _ hown buf msg nsec he
    have hresp : msg.header.flags.isResponse = true := by
      rw [hspec.flags]
      decide
    exact absurd hq (by rw [Sent.stamped, hresp]; exact Bool.noConfusion)
  | response ht hl legacy ho hp msg emitted he hne =>
    have hspec := (writeAnnounceFiltered_spec c.records _ hown buf _ msg emitted he).2
    have hresp : msg.header.flags.isResponse = true := by
      rw [hspec.flags]
      decide
    exact absurd hq (by rw [Sent.stamped, hresp]; exact Bool.noConfusion)

def WindowOnClock (c : Core I) (advances : Bool) (confirm : Option (Confirmed I)) : Prop :=
  ∀ r n, confirm = some r → r.token = .probe → c.state = .probing n → 2 ≤ n →
    advances = true → checkedAddDuration r.anchor probeInterval ≠ none

theorem CycleInv.settling [LawfulInstant I] (log : List (Advance I)) (c : Core I)
    (now polledAt anchor settled d : I) (hpolled : polledAt ≤ now) (hprobed : Probed log 3)
    (hold : ∀ a ∈ log, ∀ m t, a.MadeAt m t → t ≤ anchor ∧
      (m = 2 → ∃ u, checkedAddDuration t probeInterval = some u))
    (hhi : anchor ≤ now) (hadd : checkedAddDuration anchor probeInterval = some settled)
    (hle : settled ≤ d) (hs : c.state = .probing 3) (hw : c.probeOnWire = true)
    (hd : c.lifecycleDeadline = some d) (ht : c.awaitingConfirm = none)
    (hq : ¬c.HasClaims) : CycleInv log c now polledAt := by
  have hearned : ∀ e, settled ≤ e → ClaimEarned log e := by
    intro e hse
    obtain ⟨x, y, z, t₀, t₁, t₂, rfl, hx, hy, hz⟩ := hprobed.three
    obtain ⟨hzle, hzadd⟩ := hold z (by simp) 2 t₂ hz
    obtain ⟨u, hu⟩ := hzadd rfl
    exact ⟨x, y, z, t₀, t₁, t₂, rfl, hx, hy, hz, u, hu,
      le_trans (LawfulInstant.add_mono _ _ _ _ _ _ hzle (le_refl _) hu hadd) hse⟩
  refine ⟨hpolled, ?_, fun _ => ⟨⟨settled, hearned _ (le_refl _)⟩, ?_⟩, fun _ _ _ => hw, ?_,
    fun hc => absurd hc hq⟩
  · rw [hs]
    exact ⟨by decide, hprobed⟩
  · intro e he
    rw [hd] at he
    cases he
    exact hearned _ hle
  · intro a ha m t hm
    exact ⟨le_trans (hold a ha m t hm).1 hhi, fun hne => absurd ht hne⟩

theorem CycleInv.confirm [LawfulInstant I] (log : List (Advance I)) (c c' : Core I)
    (now polledAt anchor : I) (delivery : TransmitDelivery) (advances : Bool)
    (kind : AwaitingConfirm) (h : CycleInv log c now polledAt)
    (hk : c.awaitingConfirm = some kind) (hlo : polledAt ≤ anchor) (hhi : anchor ≤ now)
    (hfair : WindowOnClock c advances (some ⟨kind, anchor, delivery⟩))
    (heff : ConfirmEffect { c with awaitingConfirm := none } anchor delivery advances kind c') :
    CycleInv (noteAdvance log c.state c'.state (some ⟨kind, anchor, delivery⟩)) c' now
      polledAt := by
  have hlog : ∀ x, noteAdvance log c.state c.state x = log := by
    intro x
    refine noteAdvance_same _ _ _ fun hs => ?_
    have hphase := h.phase
    rw [hs] at hphase
    exact hphase
  -- with the token in flight every logged advance is older than the last poll
  have hpast : ∀ a ∈ log, ∀ n t, a.MadeAt n t → t ≤ anchor := fun a ha n t ht =>
    le_trans ((h.past a ha n t ht).2 (by rw [hk]; exact nofun)) hlo
  have hnone : CycleInv log { c with awaitingConfirm := none } now polledAt :=
    h.same_phase _ _ _ _ _ rfl rfl id (.inl fun hne => absurd rfl hne) id
  cases heff with
  | metaReply =>
    rw [hlog]
    exact hnone
  | probeElsewhere hs =>
    rw [hlog]
    exact hnone.same_phase _ _ _ _ _ rfl rfl
      (fun hw => by rw [Bool.or_eq_true]; exact .inl hw) (.inl id) id
  | probeHeld n hs ha =>
    rw [hlog]
    refine ⟨h.polled, h.phase, fun h3 => ⟨(h.window h3).1, fun d hd => ?_⟩, fun m hm hne => ?_,
      hnone.past, h.queued⟩
    · obtain ⟨t, ht⟩ := (h.window h3).1
      exact ht.later _ _ _ _ hpast hd
    · rw [Bool.or_eq_true]
      exact .inl (h.onWire m hm hne)
  | probeAdvanced n hs ha hd hn deadline =>
    have hs' : c.state = .probing n := hs
    have hphase := h.phase
    rw [hs'] at hphase
    have hlt : n.toNat < 2 := UInt8.lt_iff_toNat_lt.mp hn
    have hsucc : (n + 1).toNat = n.toNat + 1 := by
      rw [UInt8.toNat_add]
      exact Nat.mod_eq_of_lt (by change n.toNat + 1 < 256; omega)
    have hne : n ≠ n + 1 := fun heq => by
      have hnat := congrArg UInt8.toNat heq
      omega
    have hmade : Advance.MadeAt ⟨n, n + 1, some ⟨.probe, anchor, delivery⟩⟩ n.toNat anchor :=
      ⟨rfl, hsucc, _, rfl, rfl, rfl, hd⟩
    have hlog' : noteAdvance log c.state (.probing (n + 1)) (some ⟨.probe, anchor, delivery⟩) =
        log ++ [⟨n, n + 1, some ⟨.probe, anchor, delivery⟩⟩] := by
      rw [hs']
      exact noteAdvance_moved _ _ _ hne _
    rw [hlog']
    refine ⟨h.polled, ?_, fun h3 => ?_, fun _ _ _ => rfl, ?_, fun hc => ?_⟩
    · refine ⟨by omega, ?_⟩
      rw [hsucc]
      exact hphase.2.advance _ _ _ anchor hmade
    · have hthree := congrArg UInt8.toNat (ServiceState.probing.inj h3)
      rw [hsucc] at hthree
      change n.toNat + 1 = 3 at hthree
      omega
    · intro a ha' m t ht
      refine ⟨?_, fun hne' => absurd rfl hne'⟩
      rcases List.mem_append.mp ha' with ha' | ha'
      · exact (h.past a ha' m t ht).1
      · rw [List.mem_singleton] at ha'
        subst ha'
        obtain ⟨-, -, r, hr, -, rfl, -⟩ := ht
        cases hr
        exact hhi
    · have hpub := h.queued hc
      rw [hs'] at hpub
      cases hpub
  | probeSettled n hs ha hd hn deadline hsettle =>
    have hs' : c.state = .probing n := hs
    have hphase := h.phase
    rw [hs'] at hphase
    have hge : 2 ≤ n.toNat := UInt8.le_iff_toNat_le.mp hn
    obtain ⟨settled, hadd⟩ : ∃ u, checkedAddDuration anchor probeInterval = some u :=
      Option.ne_none_iff_exists'.mp (hfair _ n rfl rfl hs' hn ha)
    obtain ⟨dl, rfl, hle⟩ := hsettle settled hadd
    have hdone : ∀ log', Probed log' 3 → (∀ a ∈ log', ∀ m t, a.MadeAt m t → t ≤ anchor ∧
        (m = 2 → ∃ u, checkedAddDuration t probeInterval = some u)) →
        CycleInv log' ({ c with
          awaitingConfirm := none
          state := .probing 3
          probeOnWire := true
          lifecycleDeadline := some dl } : Core I) now polledAt := by
      intro log' hprobed hold
      refine CycleInv.settling log' _ now polledAt anchor settled dl h.polled hprobed hold hhi hadd
        hle rfl rfl rfl rfl fun hc => ?_
      have hpub := h.queued hc
      rw [hs'] at hpub
      cases hpub
    rcases Nat.lt_or_ge n.toNat 3 with hlt | hge3
    · -- the third probe
      have htwo : n = 2 := UInt8.toNat_inj.mp (by change n.toNat = 2; omega)
      subst htwo
      have hmade : Advance.MadeAt ⟨2, 3, some ⟨.probe, anchor, delivery⟩⟩ 2 anchor :=
        ⟨rfl, rfl, _, rfl, rfl, rfl, hd⟩
      have hlog' : noteAdvance log c.state (.probing 3) (some ⟨.probe, anchor, delivery⟩) =
          log ++ [⟨2, 3, some ⟨.probe, anchor, delivery⟩⟩] := by
        rw [hs']
        exact noteAdvance_moved _ 2 3 (by decide) _
      rw [hlog']
      refine hdone _ (hphase.2.advance _ _ _ anchor hmade) ?_
      intro a ha' m t ht
      rcases List.mem_append.mp ha' with ha' | ha'
      · refine ⟨hpast a ha' m t ht, fun hm => ?_⟩
        obtain ⟨hi, -⟩ := ht
        subst hm
        -- an older advance is of an earlier probe
        have hlt2 : a.index.toNat < 2 := hphase.2.index_lt _ _ a ha'
        omega
      · rw [List.mem_singleton] at ha'
        subst ha'
        obtain ⟨-, -, r, hr, -, rfl, -⟩ := ht
        cases hr
        exact ⟨le_refl _, fun _ => ⟨settled, hadd⟩⟩
    · -- a fourth probe, queued before the third was confirmed
      have hthree : n = 3 := UInt8.toNat_inj.mp (Nat.le_antisymm hphase.1 hge3)
      subst hthree
      have hlog' : noteAdvance log c.state (.probing 3) (some ⟨.probe, anchor, delivery⟩) =
          log := by
        rw [hs']
        exact noteAdvance_same _ _ _ nofun
      rw [hlog']
      refine hdone _ hphase.2 ?_
      intro a ha' m t ht
      refine ⟨hpast a ha' m t ht, fun hm => ?_⟩
      subst hm
      obtain ⟨t', x, y, z, t₀, t₁, t₂, rfl, hx, hy, hz, u, hu, -⟩ := (h.window hs').1
      have hat : a = z := by
        simp only [List.mem_cons, List.not_mem_nil, or_false] at ha'
        rcases ha' with rfl | rfl | rfl
        · exact absurd (hx.1.symm.trans ht.1) (by decide)
        · exact absurd (hy.1.symm.trans ht.1) (by decide)
        · rfl
      subst hat
      rw [ht.unique _ _ _ t₂ hz]
      exact ⟨u, hu⟩
  | announced emitted state deadline hp hkeep hlost =>
    by_cases hpub : c.state.isPublished = true
    · have hlog' : noteAdvance log c.state state (some ⟨.announcement emitted, anchor, delivery⟩) =
          log := by
        refine noteAdvance_unprobed _ _ _ _ ?_ ?_
        · rintro rfl
          cases hp hpub
        · intro n hn
          rw [hn] at hpub
          cases hpub
      rw [hlog']
      have hearned := h.phase.published _ _ _ hpub
      refine ⟨h.polled, PhaseEarned.of_published _ _ _ hearned (hp hpub), fun h3 => ?_, fun n hn => ?_,
        hnone.past, fun _ => hp hpub⟩
      · have hpub' : state.isPublished = true := hp hpub
        cases h3
        cases hpub'
      · have hpub' : state.isPublished = true := hp hpub
        cases hn
        cases hpub'
    · obtain ⟨rfl, rfl⟩ := hkeep (Bool.eq_false_iff.mpr hpub)
      rw [hlog]
      exact hnone.same_phase _ _ _ _ _ rfl rfl id (.inl id) id
  | responded emitted cls =>
    rw [hlog]
    exact hnone.same_phase _ _ _ _ _ rfl rfl id (.inl id) id
  | staleEmpty fact =>
    rw [hlog]
    exact hnone
  | staleSame fact emitted cls =>
    rw [hlog]
    exact hnone.same_phase _ _ _ _ _ rfl rfl id (.inl id) id
  | staleOld fact records emitted cls =>
    rw [hlog]
    exact hnone.same_phase _ _ _ _ _ rfl rfl id (.inl id) id

end
end Hick

namespace Hick
open Octets Wire Respond Runs

namespace Session
variable {I R : Type} {EV : Type → Type} [Instant I] [SeedableRng R] [Pool EV]

def probeLog (ts : List (Transition (Session I R EV) (Timed I))) : List (Advance I) :=
  summary (fun log t => noteAdvance log t.pre.service.state t.post.service.state
    (t.pre.confirm t.call)) [] ts

def SettlesOnClock (t : Transition (Session I R EV) (Timed I)) : Prop :=
  ∀ r, t.pre.confirm t.call = some r →
    WindowOnClock t.pre.service.core (t.pre.service.roundDone r.delivery) (some r)

theorem cycle_start (s : Session I R EV) (h : Registered true s) :
    CycleInv [] s.service.core s.clock s.polledAt := by
  obtain ⟨records, now, seed, reAnnounce, flood, -, rfl⟩ := h
  refine ⟨le_refl _, rfl, nofun, nofun, fun a ha => absurd ha List.not_mem_nil, ?_⟩
  rintro (⟨kind, hk, -⟩ | hne | hne)
  · exact absurd hk (Pending.empty_holds kind)
  · exact absurd rfl hne
  · exact absurd rfl hne

theorem cycle_step [LawfulInstant I] (log : List (Advance I)) (s : Session I R EV) (e : Timed I)
    (h : CycleInv log s.service.core s.clock s.polledAt) (ha : s.admits e)
    (hfair : SettlesOnClock ((machine true).transition s e)) :
    CycleInv (noteAdvance log s.service.state (s.next e).service.state (s.confirm e))
      (s.next e).service.core (s.next e).clock (s.next e).polledAt := by
  have hclock : s.clock ≤ e.now := ha.1
  have htick := h.tick_clock _ _ _ _ _ hclock
  have hsame : noteAdvance log s.service.core.state s.service.core.state (s.confirm e) = log := by
    refine noteAdvance_same _ _ _ fun hs => ?_
    have hphase := h.phase
    rw [hs] at hphase
    exact hphase
  change CycleInv (noteAdvance log s.service.core.state (s.next e).service.core.state
    (s.confirm e)) (s.next e).service.core e.now (s.next e).polledAt
  have heff := s.next_effect e
  generalize (s.next e).service.core = c' at heff ⊢
  -- only a poll moves the instant of the last poll
  have hpolled : ∀ log' : List (Advance I), CycleInv log' c' e.now s.polledAt →
      CycleInv log' c' e.now (s.next e).polledAt := by
    intro log' hinv
    cases hcall : e.call with
    | poll flood buf =>
      rw [show (s.next e).polledAt = e.now by simp only [next, hcall]]
      exact hinv.poll_clock _ _ _ _ _ (le_refl _)
    | event event flood => simpa only [next, hcall] using hinv
    | timeout flood taken => simpa only [next, hcall] using hinv
    | outcome v4 v6 => simpa only [next, hcall] using hinv
    | update => simpa only [next, hcall] using hinv
    | withdraw => simpa only [next, hcall] using hinv
  cases heff with
  | idle hsent hconfirm htimeout =>
    rw [hsame]
    exact hpolled _ htick
  | event event flood he hw _ heff =>
    have hnone : s.confirm e = none := by simp only [confirm, he]
    rw [hnone]
    exact hpolled _ (htick.event _ _ _ _ _ event heff)
  | timeout flood taken he hw _ heff =>
    have hnone : s.confirm e = none := by simp only [confirm, he]
    rw [hnone]
    exact hpolled _ (htick.timeout _ _ _ _ _ flood heff)
  | poll flood buf he hw c₁ _ sent hdefer heff hsent =>
    obtain ⟨hdef, hs₁⟩ := (h.poll_clock _ _ _ _ _ hclock).deferred _ _ _ _ _ flood hdefer
    obtain ⟨hinv, hs₂⟩ := hdef.poll _ _ _ _ buf sent heff
    rw [hs₂, hs₁, hsame, show (s.next e).polledAt = e.now by simp only [next, he]]
    exact hinv
  | confirm v4 v6 he kind hk _ heff =>
    have hsome : s.confirm e =
        some ⟨kind, FamilyAttempt.anchor v4 v6 e.now, FamilyAttempt.project v4 v6⟩ := by
      simp only [Session.confirm, he, hk, Option.map_some]
    have hat := s.anchor_bounds e.now v4 v6 (he ▸ ha) h.polled
    rw [hsome]
    exact hpolled _ (htick.confirm _ _ _ _ _ _ _ _ _ hk hat.1 hat.2 (hfair _ hsome) heff)
  | withdraw he hw =>
    rw [show s.service.core.quiesced.state = s.service.core.state from rfl, hsame]
    refine hpolled _ ⟨htick.polled, htick.phase, fun hs => ⟨(htick.window hs).1, fun _ h => by cases h⟩,
      htick.onWire, htick.past, ?_⟩
    rintro (⟨kind, hk, -⟩ | hne | hne)
    · exact absurd hk (Pending.empty_holds kind)
    · exact absurd rfl hne
    · exact absurd rfl hne

theorem lost_round_holds_phase (s : Session I R EV) (e : Timed I) (r : Confirmed I)
    (h : s.confirm e = some r) (hd : r.delivery.anyDelivered = false) :
    (s.next e).service.state = s.service.state := by
  change (s.next e).service.core.state = s.service.core.state
  have heff := s.next_effect e
  generalize (s.next e).service.core = c' at heff ⊢
  cases heff with
  | idle hsent hconfirm htimeout => rfl
  | event event flood he hw _ heff =>
    simp only [confirm, he] at h
    cases h
  | timeout flood taken he hw _ heff =>
    simp only [confirm, he] at h
    cases h
  | poll flood buf he hw c₁ _ sent hdefer heff hsent =>
    simp only [confirm, he] at h
    cases h
  | confirm v4 v6 he kind hk _ heff =>
    simp only [Session.confirm, he, hk, Option.map_some, Option.some.injEq] at h
    subst h
    have hadv : s.service.roundDone (FamilyAttempt.project v4 v6) = false := by
      cases hdone : s.service.roundDone (FamilyAttempt.project v4 v6) with
      | false => rfl
      | true =>
        have hany := classifyAdvance_advances _ _ hdone
        rw [hd] at hany
        cases hany
    cases heff with
    | metaReply => rfl
    | probeElsewhere hs => rfl
    | probeHeld n hs hno => rfl
    | probeAdvanced n hs hyes hany hn deadline =>
      rw [hadv] at hyes
      cases hyes
    | probeSettled n hs hyes hany hn deadline hsettle =>
      rw [hadv] at hyes
      cases hyes
    | announced emitted state deadline hp hkeep hlost => exact hlost hd
    | responded emitted cls => rfl
    | staleEmpty fact => rfl
    | staleSame fact emitted cls => rfl
    | staleOld fact records emitted cls => rfl
  | withdraw he hw => rfl

theorem cycle_run [LawfulInstant I] (ts : List (Transition (Session I R EV) (Timed I)))
    (s : Session I R EV) (run : Run (machine true) ts s) (hfair : ∀ t ∈ ts, SettlesOnClock t) :
    CycleInv (probeLog ts) s.service.core s.clock s.polledAt :=
  run.invariant (machine true) _ [] (fun log s => CycleInv log s.service.core s.clock s.polledAt)
    SettlesOnClock cycle_start (fun log s e => cycle_step log s e) ts s hfair

/-- After any run of a service that probes, in which no settling window ends off the clock: a
datagram that claims a unique record leaves only once three probes in a row were each taken by
some family and the last is a probe interval old; and a round that no family took leaves the
phase where it was. -/
theorem claims_follow_three_probes [LawfulInstant I]
    (ts : List (Transition (Session I R EV) (Timed I))) (s : Session I R EV)
    (run : Run (machine true) ts s) (hfair : ∀ t ∈ ts, SettlesOnClock t) (e : Timed I)
    (ha : s.admits e) :
    (∀ d, s.sent e = some d → d.message.ClaimsUnique → ClaimEarned (probeLog ts) e.now) ∧
      ∀ r, s.confirm e = some r → r.delivery.anyDelivered = false →
        (s.next e).service.state = s.service.state := by
  refine ⟨fun d hd hclaim => ?_, fun r hr => s.lost_round_holds_phase e r hr⟩
  have hinv := (cycle_run ts s run hfair).poll_clock _ _ _ _ e.now ha.1
  obtain ⟨-, flood, buf, c₁, hdefer, heff⟩ := s.sent_polled e d hd
  obtain ⟨hdef, -⟩ := hinv.deferred _ _ _ _ _ flood hdefer
  exact hdef.phase.published _ _ _ (hdef.queued (heff.claims _ _ _ _ _ hclaim))

theorem settlesOnClock_of_anchor (t : Transition (Session I R EV) (Timed I))
    (h : ((t.pre.confirm t.call).all fun r =>
      (checkedAddDuration r.anchor probeInterval).isSome) = true) : SettlesOnClock t := by
  rintro r hr r' n hr' - - - - hnone
  cases hr'
  rw [hr] at h
  have hsome : (checkedAddDuration r.anchor probeInterval).isSome = true := h
  rw [hnone] at hsome
  cases hsome

theorem printer_announces_when_earned :
    ∃ d, ((machine true).play (printerAt true 0) (probing 0 250000000 500000000 750000000)).sent
        (pollAt 750000000) = some d ∧ d.message.ClaimsUnique ∧
      ClaimEarned (probeLog ((machine true).trace (printerAt true 0)
        (probing 0 250000000 500000000 750000000))) 750000000 := by
  have hrun : Run (machine true) _ _ := (Run.start _ (printerAt_registered true 0)).play _ _ _
    (probing 0 250000000 500000000 750000000) (by decide +kernel)
  have hsent : (((machine true).play (printerAt true 0)
      (probing 0 250000000 500000000 750000000)).sent (pollAt 750000000)).any
        (fun d => decide d.message.ClaimsUnique) = true := by decide +kernel
  obtain ⟨d, hd, hclaim⟩ := sent_any _ _ _ hsent
  have hclaim' : d.message.ClaimsUnique := of_decide_eq_true hclaim
  refine ⟨d, hd, hclaim', ?_⟩
  have hfair : ∀ t ∈ (machine true).trace (printerAt true 0)
      (probing 0 250000000 500000000 750000000), SettlesOnClock t := by
    have hall : ((machine true).trace (printerAt true 0)
        (probing 0 250000000 500000000 750000000)).all (fun t =>
          (t.pre.confirm t.call).all fun r =>
            (checkedAddDuration r.anchor probeInterval).isSome) = true := by decide +kernel
    exact fun t ht => settlesOnClock_of_anchor t (List.all_eq_true.mp hall t ht)
  exact (claims_follow_three_probes _ _ hrun hfair (pollAt 750000000) (by decide +kernel)).1 d hd
    hclaim'

def lateUptime : Uptime := 18446744073109551615

/-- Less than a probe interval before the clock ends, the window after the third probe is left
out, and the printer claims its records at once. -/
theorem late_printer_claims_early :
    ∃ (ts : List (Transition (Session Uptime ZeroRng Slab) (Timed Uptime)))
      (s : Session Uptime ZeroRng Slab) (e : Timed Uptime) (d : Sent),
      Run (machine true) ts s ∧ s.admits e ∧ s.sent e = some d ∧ d.message.ClaimsUnique ∧
        ¬ClaimEarned (probeLog ts) e.now := by
  have hrun : Run (machine true) _ _ :=
    (Run.start _ (printerAt_registered true lateUptime)).play _ _ _
      (probing lateUptime (lateUptime + 250000000) (lateUptime + 500000000)
        (lateUptime + 500000000)) (by decide +kernel)
  have hsent : (((machine true).play (printerAt true lateUptime)
      (probing lateUptime (lateUptime + 250000000) (lateUptime + 500000000)
        (lateUptime + 500000000))).sent (pollAt (lateUptime + 500000000))).any
        (fun d => decide d.message.ClaimsUnique) = true := by decide +kernel
  obtain ⟨d, hd, hclaim⟩ := sent_any _ _ _ hsent
  refine ⟨_, _, pollAt (lateUptime + 500000000), d, hrun, by decide +kernel, hd,
    of_decide_eq_true hclaim, ?_⟩
  -- a probe interval after the third advance is off the clock
  exact fun h => absurd (ClaimEarned.third_onClock _ _ h) (by decide +kernel)

end Session
end Hick
