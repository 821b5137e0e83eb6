import Hick.Endpoint.Items
import Hick.Endpoint.Renames
import Hick.Routing.Verdicts

/-!
# No name is held twice (endpoint/service.rs:196-372, 512-603, 650-663)

A name is stored in a route and in its service, changes inside a timer call, and is kept for a while
by the goodbye of a service that found no other.
-/

set_option linter.unusedSectionVars false

namespace Hick
open Octets Wire Respond Runs

theorem Service.handleTimeout_name {I R : Type} {EV : Type → Type} [Instant I] [SeedableRng R]
    [Pool EV] (s : Service I R EV) (now : I) (flood : ConflictFlood I) (taken : NamesInUse) :
    (s.handleTimeout now flood taken).1.records.instanceName = s.records.instanceName ∨
      s.probeDefeated = true ∧
        taken.holds (s.handleTimeout now flood taken).1.records.instanceName = false := by
  cases hd : s.probeDefeated with
  | false =>
    have heffect := s.handleTimeout_effect now flood taken
    have hcore : (s.handleTimeout now flood taken).1.core.records = s.core.records := by
      generalize (s.handleTimeout now flood taken).1.core = c at heffect
      have hd' : s.core.probeDefeated = false := hd
      cases heffect with
      | waited _ hl => rfl
      | renamed hd _ _ _ =>
        rw [hd'] at hd
        cases hd
      | gaveUp hd =>
        rw [hd'] at hd
        cases hd
      | ticked hl _ hticks =>
        have hkept := ticks_records _ _ _ _ _ hticks
        exact hkept
    exact .inl (congrArg ServiceRecords.instanceName hcore)
  | true =>
    have hspent := s.handleTimeout_defeated now flood taken hd
    cases hchosen : (chooseName s.records.instanceName taken (taken.len + 1) s.renameAttempt).1 with
    | none =>
      rw [hchosen] at hspent
      exact .inl (congrArg ServiceRecords.instanceName hspent.2)
    | some name =>
      rw [hchosen] at hspent
      obtain ⟨i, -, -, hfree, -⟩ := (chooseName_iff _ _ _ _ _).mp hchosen
      have hname := congrArg ServiceRecords.instanceName hspent.2
      refine .inr ⟨rfl, ?_⟩
      rw [hname]
      exact hfree

namespace Endpoint
variable {I G R : Type} {SR EV : Type → Type} [Instant I] [SeedSource G] [SeedableRng R]
  [Pool SR] [Pool EV]

variable (e : Endpoint I G R SR EV)

theorem ItemMove.identity (c : HostCall I) (token : WithdrawalToken)
    (w w' : WithdrawalItem I) (h : ItemMove e c token w w') :
    w'.records.instanceName = w.records.instanceName ∧ w'.holds = w.holds ∧
      w'.leftBy = w.leftBy := by
  obtain ⟨hrecords, hrest⟩ := h.records e c token w w'
  refine ⟨?_, hrest⟩
  rcases hrecords with hsame | ⟨keep, hsame⟩
  · rw [hsame]
  · rw [hsame]
    rfl

variable [LawfulPool SR]

theorem RouteMove.name (c : HostCall I) (key : Nat)
    (r r' : Route I R EV) (hm : Mirrors r) (h : RouteMove e c key r r') :
    r'.handle = r.handle ∧ (r'.name.labels = r.name.labels ∨
      (∃ handle, c.call = .serviceTimeout handle ∧ e.serviceKey handle = some key) ∧
        ¬e.InUse key r'.name) := by
  cases h with
  | kept => exact ⟨rfl, .inl rfl⟩
  | event event hc => exact ⟨rfl, .inl rfl⟩
  | timeout handle hc hkey hw =>
    refine ⟨Route.mirrorName_handle _, ?_⟩
    have hname := r.proto.handleTimeout_name c.now e.flood (e.renameScratch key r)
    generalize (r.proto.handleTimeout c.now e.flood (e.renameScratch key r)).1 = proto at hname
    have hlabels : (Route.mirrorName { r with proto := proto }).handedOver.name.labels =
        proto.records.instanceName.labels := mirrorName_labels { r with proto := proto }
    rcases hname with hsame | ⟨hdefeated, hfree⟩
    · refine .inl (hlabels.trans ?_)
      rw [hsame, hm.name]
    · refine .inr ⟨⟨handle, hc, hkey⟩, ?_⟩
      have hscratch : e.renameScratch key r = e.namesInUse key := if_pos hdefeated
      rw [← namesInUse_holds, holds_congr _ _ _ hlabels, ← hscratch, hfree]
      exact Bool.false_ne_true
  | polled handle buf hc hkey hw => exact ⟨rfl, .inl rfl⟩
  | confirmed handle v4 v6 hc hkey => exact ⟨rfl, .inl rfl⟩
  | updated handle hc hkey => exact ⟨rfl, .inl rfl⟩
  | drained hc => exact ⟨rfl, .inl rfl⟩
  | withdrawn hc r₁ hr =>
    rcases hr with rfl | rfl
    · exact ⟨rfl, .inl rfl⟩
    · exact ⟨rfl, .inl rfl⟩

theorem next_fills_free (c : HostCall I) (key : Nat) (r : Route I R EV)
    (hvacant : e.route key = none) (h : (e.next c).route key = some r) :
    e.nameTaken r.name = false ∧ r.name = r.proto.records.instanceName ∧
      ∀ j, j ≠ key → (e.next c).route j = e.route j := by
  obtain ⟨records, hcall, hchecks, -⟩ := e.next_fills c key r hvacant h
  obtain ⟨now, call⟩ := c
  dsimp only at hcall
  subst hcall
  change (e.tryRegisterService records now).1.route key = some r at h
  change _ ∧ _ ∧ ∀ j, j ≠ key → (e.tryRegisterService records now).1.route j = e.route j
  unfold tryRegisterService at h ⊢
  have hfree : e.nameTaken records.instanceName = false := by
    unfold registerChecks at hchecks
    split at hchecks
    · cases hchecks
    · split at hchecks
      · cases hchecks
      · split at hchecks
        · cases hchecks
        · split at hchecks
          · cases hchecks
          · rename_i hname
            exact Bool.eq_false_iff.mpr hname
  rw [hchecks] at h ⊢
  dsimp only at h ⊢
  cases hins : Pool.insert e.services
      (e.newRoute records now (SeedSource.fillBytes e.rng 32).1) with
  | none =>
    rw [hins] at h
    have hsame : e.route key = some r := h
    rw [hvacant] at hsame
    cases hsame
  | some filled =>
    obtain ⟨k, services⟩ := filled
    obtain ⟨-, hget⟩ := LawfulPool.get_insert _ services _ k hins
    rw [hins] at h
    have hr : Pool.get services key = some r := h
    rw [hget key] at hr
    by_cases hk : key = k
    · rw [if_pos hk] at hr
      cases hr
      refine ⟨hfree, rfl, ?_⟩
      intro j hj
      change Pool.get services j = e.route j
      rw [hget j, if_neg (fun heq => hj (heq.trans hk.symm))]
      rfl
    · rw [if_neg hk] at hr
      have hsame : e.route key = some r := hr
      rw [hvacant] at hsame
      cases hsame

/-- No two routes have one name, a goodbye that keeps its name is left by the one service that still
has it, and a route has the name of its service. -/
structure NamesApart (e : Endpoint I G R SR EV) : Prop where
  routes : ∀ j k r s, e.route j = some r → e.route k = some s →
    r.name.labels = s.name.labels → j = k
  items : ∀ key r, e.route key = some r → ∀ tw ∈ e.withdrawals, tw.2.holds = true →
    tw.2.records.instanceName.labels = r.name.labels → tw.2.leftBy = r.handle
  mirrored : ∀ key r, e.route key = some r → Mirrors r

theorem nameTaken_route (name : Name) (h : e.nameTaken name = false)
    (key : Nat) (r : Route I R EV) (hr : e.route key = some r) : r.name.labels ≠ name.labels := by
  intro hsame
  have hroutes := (Bool.or_eq_false_iff.mp h).1
  rw [List.any_eq_false] at hroutes
  exact hroutes (key, r) ((e.mem_routes key r).mpr hr) ((Name.sameOwner_iff _ _).mpr hsame)

theorem nameTaken_item (name : Name) (h : e.nameTaken name = false)
    (tw : WithdrawalToken × WithdrawalItem I) (htw : tw ∈ e.withdrawals)
    (hholds : tw.2.holds = true) : tw.2.records.instanceName.labels ≠ name.labels := by
  intro hsame
  have hitems := (Bool.or_eq_false_iff.mp h).2
  rw [List.any_eq_false] at hitems
  apply hitems tw htw
  rw [hholds, Bool.true_and]
  exact (Name.sameOwner_iff _ _).mpr hsame

theorem not_inUse_route (key j : Nat) (name : Name)
    (h : ¬e.InUse key name) (r : Route I R EV) (hj : j ≠ key) (hr : e.route j = some r) :
    r.name.labels ≠ name.labels := fun hsame => h (.inl ⟨j, r, hj, hr, hsame⟩)

theorem not_inUse_item (key : Nat) (name : Name)
    (h : ¬e.InUse key name) (tw : WithdrawalToken × WithdrawalItem I) (htw : tw ∈ e.withdrawals)
    (hholds : tw.2.holds = true) : tw.2.records.instanceName.labels ≠ name.labels := by
  intro hsame
  have hkeeps := (Bool.and_eq_true _ _).mp hholds
  exact h (.inr ⟨tw, htw, Option.isNone_iff_eq_none.mp hkeeps.1, hkeeps.2, hsame⟩)

theorem next_routes_apart (h : e.NamesApart) (c : HostCall I)
    (j k : Nat) (r s : Route I R EV) (hr : (e.next c).route j = some r)
    (hs : (e.next c).route k = some s) (hname : r.name.labels = s.name.labels) : j = k := by
  by_contra hjk
  cases hj : e.route j with
  | none =>
    obtain ⟨hfree, -, hothers⟩ := e.next_fills_free c j r hj hr
    rw [hothers k (Ne.symm hjk)] at hs
    exact e.nameTaken_route r.name hfree k s hs hname.symm
  | some r₀ =>
    cases hk : e.route k with
    | none =>
      obtain ⟨hfree, -, hothers⟩ := e.next_fills_free c k s hk hs
      rw [hothers j hjk] at hr
      exact e.nameTaken_route s.name hfree j r hr hname
    | some s₀ =>
      obtain ⟨r', hr', hmoveR⟩ := (e.next_moves c j r₀ hj).resolve_right fun hgone => by
        rw [hgone.1] at hr
        cases hr
      obtain ⟨s', hs', hmoveS⟩ := (e.next_moves c k s₀ hk).resolve_right fun hgone => by
        rw [hgone.1] at hs
        cases hs
      rw [hr] at hr'
      cases hr'
      rw [hs] at hs'
      cases hs'
      obtain ⟨-, hr⟩ := hmoveR.name e c j r₀ r (h.mirrored j r₀ hj)
      obtain ⟨-, hs⟩ := hmoveS.name e c k s₀ s (h.mirrored k s₀ hk)
      -- the timer of one handle renames one route at most
      rcases hr with hr | ⟨⟨handle, hcall, hkeyR⟩, hfree⟩
      · rcases hs with hs | ⟨-, hfree⟩
        · exact hjk (h.routes j k r₀ s₀ hj hk (hr.symm.trans (hname.trans hs)))
        · exact e.not_inUse_route k j s.name hfree r₀ hjk hj (hr.symm.trans hname)
      · rcases hs with hs | ⟨⟨handle', hcall', hkeyS⟩, -⟩
        · exact e.not_inUse_route j k r.name hfree s₀ (Ne.symm hjk) hk (hs.symm.trans hname.symm)
        · rw [hcall] at hcall'
          cases hcall'
          rw [hkeyR] at hkeyS
          cases hkeyS
          exact hjk rfl

theorem next_items_apart (h : e.NamesApart) (c : HostCall I)
    (key : Nat) (r : Route I R EV) (hr : (e.next c).route key = some r)
    (tw : WithdrawalToken × WithdrawalItem I) (htw : tw ∈ (e.next c).withdrawals)
    (hholds : tw.2.holds = true) (hname : tw.2.records.instanceName.labels = r.name.labels) :
    tw.2.leftBy = r.handle := by
  rcases e.next_items c tw htw with ⟨w, hw, hmove⟩ | hnew
  · obtain ⟨hinstance, hheld, hleft⟩ := hmove.identity
    rw [hheld] at hholds
    rw [hinstance] at hname
    rw [hleft]
    cases hkey : e.route key with
    | none =>
      obtain ⟨hfree, -, -⟩ := e.next_fills_free c key r hkey hr
      exact absurd hname (e.nameTaken_item r.name hfree (tw.1, w) hw hholds)
    | some r₀ =>
      obtain ⟨r', hr', hmoved⟩ := (e.next_moves c key r₀ hkey).resolve_right fun hgone => by
        rw [hgone.1] at hr
        cases hr
      rw [hr] at hr'
      cases hr'
      obtain ⟨hhandle, hsame | ⟨-, hfree⟩⟩ := hmoved.name e c key r₀ r (h.mirrored key r₀ hkey)
      · rw [hhandle]
        exact h.items key r₀ hkey (tw.1, w) hw hholds (hname.trans hsame)
      · exact absurd hname (e.not_inUse_item key r.name hfree (tw.1, w) hw hholds)
  · obtain ⟨token, item⟩ := tw
    dsimp only at hholds hname hnew ⊢
    cases hnew with
    | handedOff k s old hs hbefore served hserved handoff hoff =>
      have hkeeps : s.name.sameOwner handoff.records.instanceName = true := hholds
      have hsame : s.name.labels = r.name.labels :=
        ((Name.sameOwner_iff _ _).mp hkeeps).trans hname
      have hkk := e.next_routes_apart h c k key s r hs hr hsame
      subst hkk
      rw [hs] at hr
      cases hr
      rfl
    | departed handle hc k old hbefore snapshot hsnap => cases hholds

/-- In every run no two routes have one name, only the goodbye of a service that gave up keeps a
name that a route has, and that is its own, and the routes have the names of their services. -/
theorem names_are_apart (e : Endpoint I G R SR EV) (h : Reachable machine e) : e.NamesApart := by
  apply Reachable.invariant machine NamesApart _ _ e h
  · intro e hfresh
    obtain ⟨config, rng, rfl⟩ := hfresh
    have hvacant : ∀ key r, (tryNew config rng : Endpoint I G R SR EV).route key ≠ some r := by
      intro key r hr
      rw [tryNew_route] at hr
      cases hr
    exact ⟨fun j _ r _ hr _ _ => absurd hr (hvacant j r),
      fun key r hr => absurd hr (hvacant key r), fun key r hr => absurd hr (hvacant key r)⟩
  · intro e c hinv _
    refine ⟨e.next_routes_apart hinv c, fun key r hr tw htw hholds hname =>
      e.next_items_apart hinv c key r hr tw htw hholds hname, ?_⟩
    apply e.next_routes Mirrors c _ _ hinv.mirrored
    · intro key r r' hmirrors hmove
      exact hmirrors.moved e c key r r' hmove
    · intro records seed
      exact ⟨rfl, rfl⟩

def longInstance : Name :=
  ⟨List.replicate 63 97 ++ [46, 95, 112, 46, 108, 111, 99, 97, 108], by decide, by decide⟩

def longPrinter : ServiceRecords := ServiceRecords.printer.setInstance longInstance

def hostCall (t : Timed Uptime) : Option (HostCall Uptime) :=
  match t.call with
  | .timeout _ _ => some ⟨t.now, .serviceTimeout ⟨0⟩⟩
  | .poll _ buf => some ⟨t.now, .serviceTransmit ⟨0⟩ buf⟩
  | .outcome v4 v6 => some ⟨t.now, .serviceOutcome ⟨0⟩ v4 v6⟩
  | .event event _ => some ⟨t.now, .event 0 event⟩
  | _ => none

def outnumbered : List (HostCall Uptime) :=
  let rival := { longPrinter with port := 9100 }
  ⟨0, .register longPrinter⟩ ::
    [Session.timer 0, Session.pollAt 0, Session.acceptedAt 0, Session.hearsSrv 0 rival,
      Session.timer 0, Session.timer 0, Session.pollAt 0, Session.acceptedAt 0,
      Session.hearsSrv 0 rival, Session.timer 0].filterMap hostCall

def outnumberedAt : Endpoint Uptime ZeroRng ZeroRng Slab Slab :=
  machine.play (tryNew ⟨false, true, 0⟩ ⟨⟩) outnumbered

theorem outnumbered_left :
    machine.Admitted (tryNew ⟨false, true, 0⟩ ⟨⟩ : Endpoint Uptime ZeroRng ZeroRng Slab Slab)
        outnumbered ∧
      (outnumberedAt.route 0).map (fun r => (r.withdrawing, r.name)) = some (false, longInstance) ∧
      outnumberedAt.withdrawals.any (fun tw =>
        tw.2.holds && longInstance.sameOwner tw.2.records.instanceName) = true := by
  decide +kernel

theorem outnumbered_reachable : Reachable machine outnumberedAt := by
  have hstart : Run machine [] (tryNew ⟨false, true, 0⟩ ⟨⟩ :
      Endpoint Uptime ZeroRng ZeroRng Slab Slab) := Run.start _ ⟨_, _, rfl⟩
  exact ⟨_, hstart.play machine [] _ outnumbered outnumbered_left.1⟩

theorem outnumbered_names_are_apart : outnumberedAt.NamesApart :=
  names_are_apart outnumberedAt outnumbered_reachable

/-- The printer that gave up still has the name its goodbye keeps. -/
theorem goodbye_keeps_a_name_in_use :
    ¬∀ e : Endpoint Uptime ZeroRng ZeroRng Slab Slab, Reachable machine e →
      ∀ key r, e.route key = some r → r.withdrawing = false → ∀ tw ∈ e.withdrawals,
        tw.2.holds = true → r.name.sameOwner tw.2.records.instanceName = false := by
  intro hapart
  obtain ⟨-, hroute, hitem⟩ := outnumbered_left
  obtain ⟨r, hr, hfacts⟩ := Option.map_eq_some_iff.mp hroute
  rw [Prod.mk.injEq] at hfacts
  obtain ⟨tw, htw, hkept⟩ := List.any_eq_true.mp hitem
  rw [Bool.and_eq_true] at hkept
  have hother := hapart outnumberedAt outnumbered_reachable 0 r hr hfacts.1 tw htw hkept.1
  rw [hfacts.2, hkept.2] at hother
  cases hother

end Endpoint
end Hick
