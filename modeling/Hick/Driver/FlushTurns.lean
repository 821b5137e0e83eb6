import Hick.Driver.Flush

/-!
# What a flush does (hick-reactor/src/driver/mod.rs:2946-2990,
hick-compio/src/driver/mod.rs:1883-1918)

A pass of the flush gives up no service twice, and ends with nothing left, past the backstop, or
with a sleep.
-/

set_option linter.unusedSectionVars false

namespace Hick
open Octets Wire Respond Runs

section
variable {C I G R : Type} {SR EV : Type → Type} [Instant I] [SeedSource G] [SeedableRng R]
  [Pool SR] [Pool EV]

def Declines (before after : Option Bool) : Prop :=
  after = before ∨ before = some false ∧ after = some true ∨ before = some true ∧ after = none

theorem Declines.stays_gone {before after : Option Bool} (h : Declines before after)
    (hgone : before ≠ some false) : after ≠ some false := by
  rcases h with heq | ⟨heq, -⟩ | ⟨-, heq⟩
  · rw [heq]
    exact hgone
  · exact absurd heq hgone
  · rw [heq]
    exact nofun

namespace Endpoint

def Dwindles (e e' : Endpoint I G R SR EV) : Prop :=
  Rostered e' ∧ ∀ handle, Declines (e.standing handle) (e'.standing handle)

theorem begins_zero (handle : ServiceHandle) (es : List (Endpoint I G R SR EV))
    (e : Endpoint I G R SR EV) (he : Rostered e) (hchain : (e :: es).IsChain Dwindles)
    (hgone : e.standing handle ≠ some false) : begins handle (e :: es) = 0 := by
  induction es generalizing e with
  | nil => rfl
  | cons e' rest ih =>
    obtain ⟨⟨hrostered, hdeclines⟩, hrest⟩ := List.isChain_cons_cons.mp hchain
    have hnext := (hdeclines handle).stays_gone hgone
    have hfewer : ¬e.farewells handle < e'.farewells handle := by
      rw [he.farewells, hrostered.farewells]
      rcases hdeclines handle with heq | ⟨heq, -⟩ | ⟨-, heq⟩
      · rw [heq]
        exact Nat.lt_irrefl _
      · exact absurd heq hgone
      · rw [heq]
        exact Nat.not_lt_zero _
    rw [begins, if_neg hfewer, ih e' hrostered hrest hnext]

theorem begins_one (handle : ServiceHandle) (es : List (Endpoint I G R SR EV))
    (e : Endpoint I G R SR EV) (he : Rostered e) (hchain : (e :: es).IsChain Dwindles)
    (hstays : e.standing handle = some false) (hgone : ∃ x ∈ es, x.standing handle ≠ some false) :
    begins handle (e :: es) = 1 := by
  induction es generalizing e with
  | nil =>
    obtain ⟨x, hx, -⟩ := hgone
    cases hx
  | cons e' rest ih =>
    obtain ⟨⟨hrostered, hdeclines⟩, hrest⟩ := List.isChain_cons_cons.mp hchain
    have hzero : e.farewells handle = 0 := by
      rw [he.farewells, hstays]
      rfl
    rcases hdeclines handle with heq | ⟨-, heq⟩ | ⟨heq, -⟩
    · have hsame : e'.standing handle = some false := heq.trans hstays
      have hnone : e'.farewells handle = 0 := by
        rw [hrostered.farewells, hsame]
        rfl
      have hlater : ∃ x ∈ rest, x.standing handle ≠ some false := by
        obtain ⟨x, hx, hne⟩ := hgone
        cases List.mem_cons.mp hx with
        | inl hfirst =>
          rw [hfirst] at hne
          exact absurd hsame hne
        | inr hin => exact ⟨x, hin, hne⟩
      rw [begins, hzero, hnone, if_neg (Nat.lt_irrefl 0), ih e' hrostered hrest hsame hlater]
    · have hone : e'.farewells handle = 1 := by
        rw [hrostered.farewells, heq]
        rfl
      rw [begins, hzero, hone, if_pos Nat.zero_lt_one,
        begins_zero handle rest e' hrostered hrest (by rw [heq]; exact nofun)]
    · rw [hstays] at heq
      cases heq

end Endpoint

namespace GoodbyeInput
variable {B : Type} [LawfulPool SR]

theorem round_unmoved (g : GoodbyeInput I) (n : Nat) (e : Endpoint I G R SR EV)
    (hu : e.HandlesUnique) : Endpoint.Unmoved e (g.round n e).1 := by
  have hpolled := Endpoint.next_unmoved e hu ⟨g.now n, .withdrawalTransmit g.scratch⟩ trivial
  unfold round
  change Endpoint.Unmoved e (e.pollWithdrawalTransmit (g.now n) g.scratch).1 at hpolled
  cases hpoll : e.pollWithdrawalTransmit (g.now n) g.scratch with
  | mk e' sent =>
    rw [hpoll] at hpolled
    cases sent with
    | none => exact hpolled
    | some round =>
      have hnoted := Endpoint.next_unmoved e' (hpolled.keeps.unique hu)
        ⟨g.fannedOutAt n, .withdrawalResult round.token (g.v4 n) (g.v6 n)⟩ trivial
      exact hpolled.trans hnoted

theorem pumpFrom_unmoved (g : GoodbyeInput I) (rules : PumpBudget I B) (fuel n : Nat) (budget : B)
    (e : Endpoint I G R SR EV) (hu : e.HandlesUnique)
    (r : GoodbyesPumped (Endpoint I G R SR EV) B) (h : pumpFrom g rules fuel n budget e = some r) :
    Endpoint.Unmoved e r.endpoint := by
  induction fuel generalizing n budget e r with
  | zero => cases h
  | succ fuel ih =>
    have hround := g.round_unmoved n e hu
    rw [pumpFrom] at h
    split at h
    · cases hsent : g.round n e with
      | mk e' sent =>
        rw [hsent] at h hround
        cases sent with
        | none =>
          cases h
          exact hround
        | some token =>
          obtain ⟨rest, hrest, hr⟩ := Option.map_eq_some_iff.mp h
          rw [← hr]
          exact hround.trans (ih (n + 1) _ e' (hround.keeps.unique hu) rest hrest)
    · cases h
      exact .rfl'

end GoodbyeInput

namespace Hosted
variable {rules : Retiring C} {d : Hosted C I G R SR EV}

theorem Mirrors.beginEach [LawfulPool SR] (h : Mirrors rules d) (handles : List ServiceHandle)
    (now : I) :
    Mirrors rules (handles.foldl (fun d j => d.beginServiceWithdrawal rules j now) d) ∧
      ∀ j, (handles.foldl (fun d j => d.beginServiceWithdrawal rules j now) d).endpoint.standing j =
        if j ∈ handles then (d.endpoint.standing j).map fun _ => true
        else d.endpoint.standing j := by
  induction handles generalizing d with
  | nil =>
    refine ⟨h, fun j => ?_⟩
    rw [if_neg List.not_mem_nil]
    rfl
  | cons handle rest ih =>
    have hfirst := h.beginServiceWithdrawal handle now
    obtain ⟨hmirrors, hstanding⟩ := ih hfirst
    refine ⟨hmirrors, fun j => ?_⟩
    rw [List.foldl_cons, hstanding, h.begin_standing handle now j]
    by_cases hj : j = handle
    · rw [if_pos hj, if_pos (List.mem_cons.mpr (.inl hj)), Option.map_map]
      split
      · rfl
      · rfl
    · have hmem : j ∈ handle :: rest ↔ j ∈ rest := by
        rw [List.mem_cons]
        exact or_iff_right hj
      simp only [if_neg hj, hmem]

theorem declines_of_begin (standing : Option Bool) (p : Prop) [Decidable p] :
    Declines standing (if p then standing.map fun _ => true else standing) := by
  split
  · cases standing with
    | none => exact .inl rfl
    | some leaving =>
      cases leaving with
      | true => exact .inl rfl
      | false => exact .inr (.inl ⟨rfl, rfl⟩)
  · exact .inl rfl

theorem Mirrors.drained_dwindles [ReleasingPool SR] (h : Mirrors rules d) (now : I) :
    Endpoint.Dwindles d.endpoint (d.drainCompletedWithdrawals now).endpoint := by
  have hdeparted := Endpoint.drainCompletedWithdrawals_departed d.endpoint h.rostered now
  refine ⟨hdeparted.rostered, fun j => ?_⟩
  change Declines (d.endpoint.standing j) ((d.endpoint.drainCompletedWithdrawals now).1.standing j)
  rw [hdeparted.standing]
  split
  · rename_i hj
    exact .inr (.inr ⟨hdeparted.leaving j hj, rfl⟩)
  · exact .inl rfl

end Hosted

section
variable [MeasuredInstant I]

theorem nextWithdrawalDeadline_some (e : Endpoint I G R SR EV) (next : I)
    (h : e.nextWithdrawalDeadline = some next) :
    (∃ tw ∈ e.withdrawals, tw.2.deadline = next) ∧ ∀ tw ∈ e.withdrawals, next ≤ tw.2.deadline := by
  unfold Endpoint.nextWithdrawalDeadline at h
  obtain ⟨hmem, hleast⟩ := List.min?_eq_some_iff.mp h
  obtain ⟨tw, htw, hdeadline⟩ := List.mem_map.mp hmem
  exact ⟨⟨tw, htw, hdeadline⟩, fun tw' htw' => hleast _ (List.mem_map_of_mem htw')⟩

theorem nextWithdrawalDeadline_none (e : Endpoint I G R SR EV)
    (h : e.nextWithdrawalDeadline = none) :
    e.withdrawals = [] := by
  unfold Endpoint.nextWithdrawalDeadline at h
  exact List.map_eq_nil_iff.mp (List.min?_eq_none_iff.mp h)

namespace FlushTurn
variable (turn : FlushTurn C I G R SR EV) (backstop now : I)

theorem prompt_iff (hle : now ≤ turn.parkedAt)
    (hended : turn.ended = turn.hosted.flushEnd backstop now) :
    turn.Prompt backstop ↔
      ∀ dur, turn.ended = .sleeps dur → 0 < dur → turn.parkedAt = now := by
  unfold Prompt
  constructor
  · intro h dur hdur hpos
    obtain ⟨hback, hitems⟩ := h dur hdur hpos
    rw [hended] at hdur
    unfold Hosted.flushEnd at hdur
    split at hdur
    · cases hdur
    · rename_i next hnext
      split at hdur
      · cases hdur
      · cases hdur
        rw [min_saturating] at hback hitems hpos
        obtain ⟨⟨tw, htw, hattained⟩, -⟩ := nextWithdrawalDeadline_some _ next hnext
        have hlimit := (saturating_pos _ now).mp hpos
        apply (slept_iff now turn.parkedAt (min next backstop) hlimit hle).mp
        rcases min_choice next backstop with heq | heq
        · have hitem := hitems tw htw
          rw [hattained] at hitem
          rw [heq] at hitem ⊢
          exact hitem
        · rw [heq] at hback ⊢
          exact hback
  · intro h dur hdur hpos
    have hparked := h dur hdur hpos
    rw [hended] at hdur
    unfold Hosted.flushEnd at hdur
    split at hdur
    · cases hdur
    · rename_i next hnext
      split at hdur
      · cases hdur
      · cases hdur
        rw [min_saturating] at hpos ⊢
        obtain ⟨-, hleast⟩ := nextWithdrawalDeadline_some _ next hnext
        have hlimit := (saturating_pos _ now).mp hpos
        have hmet := (slept_iff now turn.parkedAt (min next backstop) hlimit hle).mpr hparked
        refine ⟨hmet.mono _ _ _ _ (min_le_right next backstop), fun tw htw => ?_⟩
        exact hmet.mono _ _ _ _ (le_trans (min_le_left next backstop) (hleast tw htw))

theorem endsRight (hle : now ≤ turn.parkedAt)
    (hended : turn.ended = turn.hosted.flushEnd backstop now) : turn.EndsRight backstop := by
  constructor
  · intro hsettled
    rw [hended] at hsettled
    unfold Hosted.flushEnd at hsettled
    split at hsettled
    · rename_i hnone
      exact nextWithdrawalDeadline_none _ hnone
    · split at hsettled
      · cases hsettled
      · cases hsettled
  · intro hback
    rw [hended] at hback
    unfold Hosted.flushEnd at hback
    split at hback
    · cases hback
    · split at hback
      · rename_i hpast
        exact le_trans hpast hle
      · cases hback

end FlushTurn

/-- What every pass of a flush does, where its sleep is measured at `now`. -/
structure Passes (rules : Retiring C) (p : FlushPass I) (backstop : I) (d : Hosted C I G R SR EV)
    (turn : FlushTurn C I G R SR EV) (now : I) : Prop where
  mirrors : Hosted.Mirrors rules turn.hosted
  chain : (d.endpoint :: turn.endpoints).IsChain Endpoint.Dwindles
  started : p.clock 0 ≤ now
  measured : now ≤ turn.parkedAt
  ended : turn.ended = turn.hosted.flushEnd backstop now

variable [ReleasingPool SR]

theorem Reactor.flushPass_passes (p : FlushPass I) (backstop : I)
    (d : Hosted Reactor.ServiceCtx I G R SR EV) (h : Hosted.Mirrors Reactor.retiring d)
    (turn : FlushTurn Reactor.ServiceCtx I G R SR EV)
    (hpass : Reactor.flushPass p backstop d = some turn) :
    Passes Reactor.retiring p backstop d turn (p.clock 0) := by
  obtain ⟨w, hpump, hturn⟩ := Option.map_eq_some_iff.mp hpass
  have hunmoved := GoodbyeInput.pumpFrom_unmoved _ _ _ _ _ _ h.rostered.unique w hpump
  have hpumped : Hosted.Mirrors Reactor.retiring { d with endpoint := w.endpoint } :=
    h.unmoved _ hunmoved fun _ => rfl
  have hdwindles : Endpoint.Dwindles d.endpoint w.endpoint :=
    ⟨hpumped.rostered, fun j => .inl (hunmoved.standing j)⟩
  have hdrained := hpumped.drained_dwindles (p.clock 0)
  have hstays : ∀ e : Endpoint I G R SR EV, e.Rostered → Endpoint.Dwindles e e :=
    fun e he => ⟨he, fun _ => .inl rfl⟩
  rw [← hturn]
  exact {
    mirrors := hpumped.drainCompletedWithdrawals (p.clock 0)
    chain := .cons_cons hdwindles (.cons_cons hdrained
      (.cons_cons (hstays _ hdrained.1) (.singleton _)))
    started := le_refl _
    measured := p.timely (Nat.zero_le _)
    ended := rfl }

theorem Compio.sweep_standing (d : Hosted Compio.ServiceCtx I G R SR EV)
    (h : Hosted.Mirrors Compio.retiring d) (now : I) :
    Hosted.Mirrors Compio.retiring (Compio.sweepCancelledServices d now) ∧
      Endpoint.Dwindles d.endpoint (Compio.sweepCancelledServices d now).endpoint := by
  obtain ⟨hmirrors, hstanding⟩ := h.beginEach
    ((d.services.entries.filter fun e => e.2.cancelled && !e.2.errored).map (·.1)) now
  refine ⟨hmirrors, hmirrors.rostered, fun j => ?_⟩
  have hj := Hosted.declines_of_begin (d.endpoint.standing j)
    (j ∈ (d.services.entries.filter fun e => e.2.cancelled && !e.2.errored).map (·.1))
  rw [← hstanding] at hj
  exact hj

theorem Compio.flushPass_passes (p : FlushPass I) (backstop : I)
    (d : Hosted Compio.ServiceCtx I G R SR EV) (h : Hosted.Mirrors Compio.retiring d)
    (turn : FlushTurn Compio.ServiceCtx I G R SR EV)
    (hpass : Compio.flushPass p backstop d = some turn) :
    Passes Compio.retiring p backstop d turn turn.parkedAt := by
  obtain ⟨w, hpump, hturn⟩ := Option.map_eq_some_iff.mp hpass
  have hunmoved := GoodbyeInput.pumpFrom_unmoved _ _ _ _ _ _ h.rostered.unique w hpump
  have hpumped : Hosted.Mirrors Compio.retiring { d with endpoint := w.endpoint } :=
    h.unmoved _ hunmoved fun _ => rfl
  have hdwindles : Endpoint.Dwindles d.endpoint w.endpoint :=
    ⟨hpumped.rostered, fun j => .inl (hunmoved.standing j)⟩
  have hdrained := hpumped.drained_dwindles (p.clock w.polled.length)
  obtain ⟨hswept, hsweeps⟩ := Compio.sweep_standing _
    (hpumped.drainCompletedWithdrawals (p.clock w.polled.length)) (p.clock w.polled.length)
  rw [← hturn]
  exact {
    mirrors := hswept
    chain := .cons_cons hdwindles (.cons_cons hdrained (.cons_cons hsweeps (.singleton _)))
    started := p.timely (Nat.zero_le _)
    measured := le_refl _
    ended := rfl }

theorem Compio.sweep_leaves_none (d : Hosted Compio.ServiceCtx I G R SR EV)
    (h : Hosted.Mirrors Compio.retiring d) (now : I)
    (hgone : ∀ j c, d.services.lookup j = some c → c.cancelled = true) (j : ServiceHandle) :
    (Compio.sweepCancelledServices d now).endpoint.standing j ≠ some false := by
  intro hstays
  have hstanding := (h.beginEach
    ((d.services.entries.filter fun e => e.2.cancelled && !e.2.errored).map (·.1)) now).2 j
  change (Compio.sweepCancelledServices d now).endpoint.standing j = _ at hstanding
  rw [hstays] at hstanding
  split at hstanding
  · cases hstands : d.endpoint.standing j with
    | none =>
      rw [hstands] at hstanding
      cases hstanding
    | some leaving =>
      rw [hstands] at hstanding
      cases hstanding
  · rename_i hnot
    apply hnot
    rw [← h.contexts j] at hstanding
    obtain ⟨c, hc, herr⟩ := Option.map_eq_some_iff.mp hstanding.symm
    have hmem := AList.mem_lookup_iff.mp (Option.mem_def.mpr hc)
    apply List.mem_map.mpr
    refine ⟨⟨j, c⟩, List.mem_filter.mpr ⟨hmem, ?_⟩, rfl⟩
    have hflag : c.errored = false := herr
    dsimp only
    rw [hgone j c hc, hflag]
    rfl

end
end

end Hick
