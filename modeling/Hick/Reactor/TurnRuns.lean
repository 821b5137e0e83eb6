import Hick.Reactor.Turns
import Hick.Lib.Runs

/-!
# Passes one after another (hick-reactor/src/driver/mod.rs:1100-1122, 2767-2944)

Between two passes the other stages of the driver may insert and remove entries of its maps.
-/

set_option linter.unusedSectionVars false

namespace Hick
open RoundRobin Runs

namespace Reactor

section
variable {I SH QH : Type} [Instant I] [DecidableEq SH] [DecidableEq QH]

def DriverState.liveServices (s : DriverState SH QH) : List SH :=
  s.services.liveHandles serviceProducer.live

def DriverState.liveQueries (s : DriverState SH QH) : List QH :=
  s.queries.liveHandles queryProducer.live

def DriverState.serviceRing (s : DriverState SH QH) : List SH :=
  s.services.ring serviceProducer.live s.svcResume

def DriverState.queryRing (s : DriverState SH QH) : List QH :=
  s.queries.ring queryProducer.live s.queryResume

variable (p : PassInput I) (r r' : Drained I SH QH)

theorem drainServiceTransmits_turn (h : drainServiceTransmits p r = some r')
    (hfixed : ∀ x ∈ r.driver.liveServices, x ∈ r'.driver.liveServices) :
    ∃ k, Served serviceProducer r.driver.services r.driver.svcResume k
        (r'.servicesPolled.map Prod.fst) r'.driver.services r'.driver.svcResume ∧
      (r'.morePending = false → k = r.driver.serviceRing.length ∧ r.morePending = false) ∧
      (r.tally.Fresh → r.driver.serviceRing ≠ [] → 0 < k) := by
  obtain ⟨d, hd, hr'⟩ := Option.bind_eq_some_iff.mp h
  cases hr'
  obtain ⟨hkept, -⟩ := drainClass_kept serviceProducer p _ _ _ d hd
  have hsame := hkept.same serviceProducer.live _ _ (fun x slot hx =>
    (d.producers.mem_ring serviceProducer.live 0 x).mp
      (hfixed x ((r.driver.services.mem_ring serviceProducer.live 0 x).mpr ⟨slot, hx⟩)))
  obtain ⟨k, hserved, hall, hsome⟩ := drainClass_served serviceProducer p
    _ _ _ d hd ⟨hkept.1, hsame⟩
  refine ⟨k, hserved, fun hmore => ?_, hsome⟩
  obtain ⟨hbefore, hnow⟩ := Bool.or_eq_false_iff.mp hmore
  exact ⟨hall hnow, hbefore⟩

theorem drainServiceTransmits_queries (h : drainServiceTransmits p r = some r') :
    r'.driver.queries = r.driver.queries ∧ r'.driver.queryResume = r.driver.queryResume ∧
      r'.queriesPolled = r.queriesPolled ∧ r'.driver.queriesFirst = r.driver.queriesFirst := by
  obtain ⟨d, hd, hr'⟩ := Option.bind_eq_some_iff.mp h
  cases hr'
  exact ⟨rfl, rfl, rfl, rfl⟩

theorem drainQueryTransmits_turn (h : drainQueryTransmits p r = some r')
    (hfixed : ∀ x ∈ r.driver.liveQueries, x ∈ r'.driver.liveQueries) :
    ∃ k, Served queryProducer r.driver.queries r.driver.queryResume k
        (r'.queriesPolled.map Prod.fst) r'.driver.queries r'.driver.queryResume ∧
      (r'.morePending = false → k = r.driver.queryRing.length ∧ r.morePending = false) ∧
      (r.tally.Fresh → r.driver.queryRing ≠ [] → 0 < k) := by
  obtain ⟨d, hd, hr'⟩ := Option.bind_eq_some_iff.mp h
  cases hr'
  obtain ⟨hkept, hgiven⟩ := drainClass_kept queryProducer p _ _ _ d hd
  -- a retired query was live, and is live no more
  have hretired : d.retired = [] := by
    apply List.eq_nil_iff_forall_not_mem.mpr
    intro x hx
    have hlive := hfixed x ((r.driver.queries.mem_ring queryProducer.live 0 x).mpr (hgiven x hx))
    obtain ⟨slot, hslot⟩ := ((d.producers.removeAll fun y => d.retired.contains y).mem_ring
      queryProducer.live 0 x).mp hlive
    obtain ⟨c, hentry, -⟩ := ListedMap.liveAt_some queryProducer.live _ slot x hslot
    have hin := List.mem_of_getElem? hentry
    have hkeeps := (List.mem_filter.mp hin).2
    simp only [Bool.not_eq_true', List.contains_eq_mem, decide_eq_false_iff_not] at hkeeps
    exact hkeeps hx
  have hleft : (d.producers.removeAll fun y => d.retired.contains y) = d.producers := by
    apply ListedMap.removeAll_none
    intro e he
    rw [hretired]
    rfl
  change ∀ x ∈ r.driver.liveQueries,
    x ∈ (d.producers.removeAll fun y => d.retired.contains y).liveHandles queryProducer.live at hfixed
  rw [hleft] at hfixed
  have hsame := hkept.same queryProducer.live _ _ (fun x slot hx =>
    (d.producers.mem_ring queryProducer.live 0 x).mp
      (hfixed x ((r.driver.queries.mem_ring queryProducer.live 0 x).mpr ⟨slot, hx⟩)))
  obtain ⟨k, hserved, hall, hsome⟩ := drainClass_served queryProducer p
    _ _ _ d hd ⟨hkept.1, hsame⟩
  refine ⟨k, ?_, fun hmore => ?_, hsome⟩
  · change Served queryProducer _ _ k _ (d.producers.removeAll fun y => d.retired.contains y) _
    rw [hleft]
    exact hserved
  · obtain ⟨hbefore, hnow⟩ := Bool.or_eq_false_iff.mp hmore
    exact ⟨hall hnow, hbefore⟩

theorem drainQueryTransmits_services (h : drainQueryTransmits p r = some r') :
    r'.driver.services = r.driver.services ∧ r'.driver.svcResume = r.driver.svcResume ∧
      r'.servicesPolled = r.servicesPolled ∧ r'.driver.queriesFirst = r.driver.queriesFirst := by
  obtain ⟨d, hd, hr'⟩ := Option.bind_eq_some_iff.mp h
  cases hr'
  exact ⟨rfl, rfl, rfl, rfl⟩

def serviceTurn (s : DriverState SH QH) (r : Drained I SH QH) : Turn SH :=
  ⟨s.serviceRing, r.servicesPolled.length, !s.queriesFirst, r.morePending⟩

def queryTurn (s : DriverState SH QH) (r : Drained I SH QH) : Turn QH :=
  ⟨s.queryRing, r.queriesPolled.length, s.queriesFirst, r.morePending⟩

/-- A pass that is this turn of a class: it polled the members of the turn and leaves the class as
the turn does. -/
structure Takes {H : Type} (t : Turn H) (polled ring : List H) (first : Bool) : Prop where
  sound : t.Sound
  polled : polled = t.members
  ring : ring = t.after
  first : first = t.nextFirst

theorem Served.takes {H C : Type} (producer : Producer C) (m m' : ListedMap H C)
    (cursor cursor' k : Nat) (log : List (H × Nat)) (first first' cut : Bool)
    (h : Served producer m cursor k (log.map Prod.fst) m' cursor')
    (hall : cut = false → k = (m.ring producer.live cursor).length)
    (hsome : first = true → m.ring producer.live cursor ≠ [] → 0 < k)
    (hfirst : first' = if cut then !first else first) :
    Takes ⟨m.ring producer.live cursor, log.length, first, cut⟩ (log.map Prod.fst)
      (m'.ring producer.live cursor') first' := by
  have hk : log.length = k := by
    rw [← List.length_map Prod.fst, h.polled, List.length_take]
    exact Nat.min_eq_left h.within
  rw [hk]
  exact {
    sound := ⟨h.within, hall, hsome⟩
    polled := h.polled
    ring := h.turned
    first := hfirst }

theorem drainTransmits_takes (s : DriverState SH QH) (r : Drained I SH QH)
    (h : drainTransmits p s = some r)
    (hservices : ∀ x ∈ s.liveServices, x ∈ r.driver.liveServices)
    (hqueries : ∀ x ∈ s.liveQueries, x ∈ r.driver.liveQueries) :
    Takes (serviceTurn s r) (r.servicesPolled.map Prod.fst) r.driver.serviceRing
        (!r.driver.queriesFirst) ∧
      Takes (queryTurn s r) (r.queriesPolled.map Prod.fst) r.driver.queryRing
        r.driver.queriesFirst := by
  obtain ⟨last, hlast, hr⟩ := Option.bind_eq_some_iff.mp h
  cases hr
  have hfresh : (Tally.open_ p).Fresh := Tally.open_fresh p
  cases hfirst : s.queriesFirst with
  | true =>
    simp only [drainClasses, hfirst, if_true] at hlast
    obtain ⟨mid, hmid, hlast⟩ := Option.bind_eq_some_iff.mp hlast
    obtain ⟨hq, hqr, hqp, hqf⟩ := drainServiceTransmits_queries p mid last hlast
    obtain ⟨hs, hsr, hsp, hsf⟩ := drainQueryTransmits_services p _ mid hmid
    obtain ⟨k, hk, hkall, hksome⟩ := drainQueryTransmits_turn p _ mid hmid (by
      intro x hx
      have hlater := hqueries x hx
      rw [DriverState.liveQueries] at hlater ⊢
      rw [← hq]
      exact hlater)
    obtain ⟨j, hj, hjall, hjsome⟩ := drainServiceTransmits_turn p mid last hlast (by
      intro x hx
      apply hservices x
      rw [DriverState.liveServices] at hx ⊢
      rw [hs] at hx
      exact hx)
    rw [hs, hsr] at hj
    rw [← hq, ← hqr, ← hqp] at hk
    constructor
    · apply Served.takes serviceProducer _ _ _ _ j last.servicesPolled _ _ _ hj
      · intro hcut
        rw [(hjall hcut).1, DriverState.serviceRing, hs, hsr]
      · intro hgoes
        rw [hfirst] at hgoes
        cases hgoes
      · simp only [hqf, hsf, hfirst]
        cases last.morePending <;> rfl
    · apply Served.takes queryProducer _ _ _ _ k last.queriesPolled _ _ _ hk
      · intro hcut
        exact (hkall (hjall hcut).2).1
      · intro _ hring
        exact hksome hfresh hring
      · simp only [hqf, hsf, hfirst]
  | false =>
    simp only [drainClasses, hfirst, Bool.false_eq_true, if_false] at hlast
    obtain ⟨mid, hmid, hlast⟩ := Option.bind_eq_some_iff.mp hlast
    obtain ⟨hs, hsr, hsp, hsf⟩ := drainQueryTransmits_services p mid last hlast
    obtain ⟨hq, hqr, hqp, hqf⟩ := drainServiceTransmits_queries p _ mid hmid
    obtain ⟨k, hk, hkall, hksome⟩ := drainServiceTransmits_turn p _ mid hmid (by
      intro x hx
      have hlater := hservices x hx
      rw [DriverState.liveServices] at hlater ⊢
      rw [← hs]
      exact hlater)
    obtain ⟨j, hj, hjall, hjsome⟩ := drainQueryTransmits_turn p mid last hlast (by
      intro x hx
      apply hqueries x
      rw [DriverState.liveQueries] at hx ⊢
      rw [hq] at hx
      exact hx)
    rw [hq, hqr] at hj
    rw [← hs, ← hsr, ← hsp] at hk
    constructor
    · apply Served.takes serviceProducer _ _ _ _ k last.servicesPolled _ _ _ hk
      · intro hcut
        exact (hkall (hjall hcut).2).1
      · intro _ hring
        exact hksome hfresh hring
      · simp only [hqf, hsf, hfirst]
        cases last.morePending <;> rfl
    · apply Served.takes queryProducer _ _ _ _ j last.queriesPolled _ _ _ hj
      · intro hcut
        rw [(hjall hcut).1, DriverState.queryRing, hq, hqr]
      · intro hgoes
        rw [hfirst] at hgoes
        cases hgoes
      · simp only [hqf, hsf, hfirst]

/-- What moves the driver: a pass, and whatever the other stages do to its maps in between. -/
inductive DriverCall (I SH QH : Type) where
  | pass (p : PassInput I)
  | settle (services : ListedMap SH ServiceCtx) (queries : ListedMap QH QueryCtx)

def DriverState.next (s : DriverState SH QH) : DriverCall I SH QH → DriverState SH QH
  | .pass p => ((drainTransmits p s).map Drained.driver).getD s
  | .settle services queries => { s with services := services, queries := queries }

def machine : Machine (DriverState SH QH) (DriverCall I SH QH) where
  start _ := True
  admits s c :=
    match c with
    | .pass p => (drainTransmits p s).isSome = true
    | .settle _ _ => True
  next := DriverState.next

abbrev Step (I SH QH : Type) := Transition (DriverState SH QH) (DriverCall I SH QH)

namespace Step

def report (t : Step I SH QH) : Option (Drained I SH QH) :=
  match t.call with
  | .pass p => drainTransmits p t.pre
  | .settle _ _ => none

def isPass (t : Step I SH QH) : Bool := t.report.isSome

def wasCut (t : Step I SH QH) : Prop := ∀ r, t.report = some r → r.morePending = true

def servicesPolled (t : Step I SH QH) : List SH :=
  (t.report.map fun r => r.servicesPolled.map Prod.fst).getD []

def queriesPolled (t : Step I SH QH) : List QH :=
  (t.report.map fun r => r.queriesPolled.map Prod.fst).getD []

structure Fixed (services : Finset SH) (queries : Finset QH) (t : Step I SH QH) : Prop where
  servicesBefore : t.pre.liveServices.toFinset = services
  servicesAfter : t.post.liveServices.toFinset = services
  queriesBefore : t.pre.liveQueries.toFinset = queries
  queriesAfter : t.post.liveQueries.toFinset = queries

def KeepsPlace (t : Step I SH QH) : Prop :=
  t.isPass = false →
    t.post.serviceRing = t.pre.serviceRing ∧ t.post.queryRing = t.pre.queryRing

end Step

/-- The turns of a class with these live producers are fair: each is polled in any `2 * n` passes
in a row, and none that was polled is polled again before one that was skipped. -/
structure FairTurns {H : Type} (live : Finset H) (polled : Step I SH QH → List H)
    (ts : List (Step I SH QH)) : Prop where
  within (before window after : List (Step I SH QH)) (h : ts = before ++ (window ++ after))
    (hlong : 2 * live.card ≤ window.countP Step.isPass) (x : H) (hx : x ∈ live) :
    ∃ t ∈ window, x ∈ polled t
  order (before mid after : List (Step I SH QH)) (t u : Step I SH QH)
    (h : ts = before ++ (t :: (mid ++ [u]) ++ after)) (x y : H) (hx : x ∈ live)
    (hskipped : x ∉ polled t) (hserved : y ∈ polled t) (hwaits : ∀ v ∈ mid, x ∉ polled v)
    (pre post : List H) (hagain : polled u = pre ++ y :: post) : x ∈ pre

structure ClassView (I SH QH H : Type) where
  ring : DriverState SH QH → List H
  first : DriverState SH QH → Bool
  polled : Step I SH QH → List H
  turn : DriverState SH QH → Drained I SH QH → Turn H

def serviceView : ClassView I SH QH SH where
  ring := DriverState.serviceRing
  first s := !s.queriesFirst
  polled := Step.servicesPolled
  turn := serviceTurn

def queryView : ClassView I SH QH QH where
  ring := DriverState.queryRing
  first := DriverState.queriesFirst
  polled := Step.queriesPolled
  turn := queryTurn

namespace ClassView
variable {H : Type} (view : ClassView I SH QH H)

def turnOf (t : Step I SH QH) : Option (Turn H) := t.report.map (view.turn t.pre)

structure Turns (live : Finset H) (t : Step I SH QH) : Prop where
  turned : ∀ u, view.turnOf t = some u →
    u.ring = view.ring t.pre ∧ u.first = view.first t.pre ∧
      Takes u (view.polled t) (view.ring t.post) (view.first t.post)
  idle : view.turnOf t = none →
    view.polled t = [] ∧ view.ring t.post = view.ring t.pre ∧
      view.first t.post = view.first t.pre
  nodup : (view.ring t.pre).Nodup
  live : ∀ x, x ∈ view.ring t.pre ↔ x ∈ live

theorem turns_chain (live : Finset H) (ts : List (Step I SH QH))
    (hchain : ts.IsChain fun t u => t.post = u.pre) (hturns : ∀ t ∈ ts, view.Turns live t) :
    (ts.filterMap view.turnOf).IsChain Turn.Follows ∧
      ∀ u ∈ (ts.filterMap view.turnOf).head?, ∀ t ∈ ts.head?,
        u.ring = view.ring t.pre ∧ u.first = view.first t.pre := by
  induction ts with
  | nil => exact ⟨List.IsChain.nil, nofun⟩
  | cons t ts ih =>
    have ht := hturns t (List.mem_cons_self ..)
    have hlater := hchain.tail
    obtain ⟨hrest, hhead⟩ := ih hlater fun u hu => hturns u (List.mem_cons_of_mem _ hu)
    -- what the next turn begins with is what this step leaves
    have hnext : ∀ u ∈ (ts.filterMap view.turnOf).head?,
        u.ring = view.ring t.post ∧ u.first = view.first t.post := by
      intro u hu
      cases ts with
      | nil => cases hu
      | cons v ts =>
        obtain ⟨hring, hfirst⟩ := hhead u hu v rfl
        rw [(List.isChain_cons_cons.mp hchain).1]
        exact ⟨hring, hfirst⟩
    cases hturn : view.turnOf t with
    | none =>
      rw [List.filterMap_cons_none hturn]
      refine ⟨hrest, fun u hu w hw => ?_⟩
      cases hw
      obtain ⟨-, hring, hfirst⟩ := ht.idle hturn
      obtain ⟨hur, huf⟩ := hnext u hu
      exact ⟨hur.trans hring, huf.trans hfirst⟩
    | some u =>
      rw [List.filterMap_cons_some hturn]
      obtain ⟨hring, hfirst, htakes⟩ := ht.turned u hturn
      constructor
      · apply List.isChain_cons.mpr
        refine ⟨fun v hv => ?_, hrest⟩
        obtain ⟨hvr, hvf⟩ := hnext v hv
        exact ⟨hvr.trans htakes.ring, hvf.trans htakes.first⟩
      · intro v hv w hw
        cases hv
        cases hw
        exact ⟨hring, hfirst⟩

theorem length_turns (ts : List (Step I SH QH)) :
    (ts.filterMap view.turnOf).length = ts.countP Step.isPass := by
  induction ts with
  | nil => rfl
  | cons t ts ih =>
    rw [List.countP_cons, ← ih]
    cases hreport : t.report with
    | none =>
      have hturn : view.turnOf t = none := by rw [turnOf, hreport]; rfl
      rw [List.filterMap_cons_none hturn]
      simp [Step.isPass, hreport]
    | some r =>
      have hturn : view.turnOf t = some (view.turn t.pre r) := by rw [turnOf, hreport]; rfl
      rw [List.filterMap_cons_some hturn]
      simp [Step.isPass, hreport]

theorem turn_mem (live : Finset H) (ts : List (Step I SH QH))
    (hturns : ∀ t ∈ ts, view.Turns live t) (u : Turn H) (hu : u ∈ ts.filterMap view.turnOf) :
    ∃ t ∈ ts, u.ring = view.ring t.pre ∧ u.Sound ∧ view.polled t = u.members := by
  obtain ⟨t, ht, hturn⟩ := List.mem_filterMap.mp hu
  obtain ⟨hring, -, htakes⟩ := (hturns t ht).turned u hturn
  exact ⟨t, ht, hring, htakes.sound, htakes.polled⟩

theorem fair (live : Finset H) [DecidableEq H] (ts : List (Step I SH QH))
    (hchain : ts.IsChain fun t u => t.post = u.pre) (hturns : ∀ t ∈ ts, view.Turns live t) :
    FairTurns live view.polled ts := by
  obtain ⟨hfollows, -⟩ := view.turns_chain live ts hchain hturns
  have hsound : ∀ u ∈ ts.filterMap view.turnOf, u.Sound := by
    intro u hu
    obtain ⟨_, -, -, hu', -⟩ := view.turn_mem live ts hturns u hu
    exact hu'
  constructor
  · intro before window after hts hlong x hx
    rw [← view.length_turns window] at hlong
    have hwindow : ∀ t ∈ window, view.Turns live t := by
      intro t ht
      apply hturns t
      rw [hts]
      exact List.mem_append_right _ (List.mem_append_left _ ht)
    rw [hts, List.filterMap_append, List.filterMap_append] at hfollows
    have hpart := hfollows.right_of_append.left_of_append
    cases hlist : window.filterMap view.turnOf with
    | nil =>
      rw [hlist] at hlong
      have hcard := Finset.card_pos.mpr ⟨x, hx⟩
      simp only [List.length_nil] at hlong
      omega
    | cons u us =>
      have hin : ∀ v ∈ u :: us, v ∈ window.filterMap view.turnOf := by
        intro v hv
        rw [hlist]
        exact hv
      obtain ⟨t, ht, hring, -, -⟩ := view.turn_mem live window hwindow u (hin u (List.mem_cons_self ..))
      have hlive := (hwindow t ht).live
      have hcard : u.ring.length = live.card := by
        rw [← List.toFinset_card_of_nodup (by rw [hring]; exact (hwindow t ht).nodup)]
        congr 1
        ext y
        rw [List.mem_toFinset, hring, hlive]
      rw [hlist] at hpart hlong
      obtain ⟨v, hv, hxv⟩ := served_within x u us hpart
        (fun v hv => by
          obtain ⟨_, -, -, hs, -⟩ := view.turn_mem live window hwindow v (hin v hv)
          exact hs)
        (by rw [hring, hlive]; exact hx) (by rw [hcard]; exact hlong)
      obtain ⟨w, hw, -, -, hpolled⟩ := view.turn_mem live window hwindow v (hin v hv)
      exact ⟨w, hw, by rw [hpolled]; exact hxv⟩
  · intro before mid after t u hts x y hx hskipped hserved hwaits pre post hagain
    have hmem : ∀ v ∈ t :: (mid ++ [u]), view.Turns live v := by
      intro v hv
      apply hturns v
      rw [hts]
      exact List.mem_append_right _ (List.mem_append_left _ hv)
    have ht := hmem t (List.mem_cons_self ..)
    have hu := hmem u (List.mem_cons_of_mem _ (List.mem_append_right _ (List.mem_singleton.mpr rfl)))
    -- a step that polls is a pass
    cases htt : view.turnOf t with
    | none =>
      rw [(ht.idle htt).1] at hserved
      cases hserved
    | some a =>
      cases huu : view.turnOf u with
      | none =>
        rw [(hu.idle huu).1] at hagain
        cases pre with
        | nil => cases hagain
        | cons _ _ => cases hagain
      | some b =>
        obtain ⟨haring, -, hta⟩ := ht.turned a htt
        obtain ⟨-, -, hub⟩ := hu.turned b huu
        rw [hts, List.filterMap_append, List.filterMap_append, List.filterMap_cons_some htt,
          List.filterMap_append, List.filterMap_cons_some huu, List.filterMap_nil] at hfollows
        have hpart := hfollows.right_of_append.left_of_append
        have hxa : x ∈ a.ring := by
          rw [haring]
          exact (ht.live x).mpr hx
        rw [hta.polled] at hskipped hserved
        have hya : y ∈ a.ring := List.mem_of_mem_take hserved
        have hbehind := turn_puts_behind a.served a.ring x y (by rw [haring]; exact ht.nodup) hxa
          hskipped hserved
        rw [hub.polled] at hagain
        apply served_in_order x y (mid.filterMap view.turnOf) a b hpart _ hxa hya hbehind _ pre post
          hagain
        · intro v hv
          cases List.mem_append.mp hv with
          | inl hmid =>
            obtain ⟨_, -, -, hs, -⟩ := view.turn_mem live mid
              (fun w hw => hmem w (List.mem_cons_of_mem _ (List.mem_append_left _ hw))) v hmid
            exact hs
          | inr hlast =>
            rw [List.mem_singleton.mp hlast]
            exact hub.sound
        · intro v hv
          obtain ⟨w, hw, -, -, hpolled⟩ := view.turn_mem live mid
            (fun w hw => hmem w (List.mem_cons_of_mem _ (List.mem_append_left _ hw))) v hv
          rw [← hpolled]
          exact hwaits w hw

end ClassView

theorem report_some (t : Step I SH QH) (r : Drained I SH QH) (hcall : t.report = some r) :
    ∃ p, t.call = .pass p ∧ drainTransmits p t.pre = some r := by
  unfold Step.report at hcall
  split at hcall
  · rename_i p hp
    exact ⟨p, hp, hcall⟩
  · cases hcall

theorem report_none (ts : List (Step I SH QH)) (s : DriverState SH QH) (run : Run machine ts s)
    (t : Step I SH QH) (ht : t ∈ ts) (hreport : t.report = none) :
    t.post.queriesFirst = t.pre.queriesFirst := by
  obtain ⟨htrans, hadmits⟩ := run.mem machine ts s t ht
  rw [htrans] at hreport ⊢
  cases hcall : t.call with
  | pass p =>
    rw [hcall] at hadmits hreport
    obtain ⟨r, hr⟩ := Option.isSome_iff_exists.mp hadmits
    change drainTransmits p t.pre = none at hreport
    rw [hr] at hreport
    cases hreport
  | settle services queries => rfl

theorem report_post (ts : List (Step I SH QH)) (s : DriverState SH QH) (run : Run machine ts s)
    (t : Step I SH QH) (ht : t ∈ ts) (r : Drained I SH QH) (hreport : t.report = some r) :
    t.post = r.driver := by
  obtain ⟨htrans, -⟩ := run.mem machine ts s t ht
  obtain ⟨p, hcall, hr⟩ := report_some t r hreport
  have hpost : t.post = t.pre.next t.call := congrArg Transition.post htrans
  rw [hpost, hcall, DriverState.next, hr]
  rfl

theorem step_takes (services : Finset SH) (queries : Finset QH) (ts : List (Step I SH QH))
    (s : DriverState SH QH) (run : Run machine ts s) (t : Step I SH QH) (ht : t ∈ ts)
    (hfixed : Step.Fixed services queries t) (r : Drained I SH QH) (hreport : t.report = some r) :
    Takes (serviceTurn t.pre r) (r.servicesPolled.map Prod.fst) t.post.serviceRing
        (!t.post.queriesFirst) ∧
      Takes (queryTurn t.pre r) (r.queriesPolled.map Prod.fst) t.post.queryRing
        t.post.queriesFirst := by
  obtain ⟨p, -, hr⟩ := report_some t r hreport
  have hpost := report_post ts s run t ht r hreport
  have htakes := drainTransmits_takes p t.pre r hr
    (by
      intro x hx
      rw [← hpost, ← List.mem_toFinset, hfixed.servicesAfter, ← hfixed.servicesBefore,
        List.mem_toFinset]
      exact hx)
    (by
      intro x hx
      rw [← hpost, ← List.mem_toFinset, hfixed.queriesAfter, ← hfixed.queriesBefore,
        List.mem_toFinset]
      exact hx)
  rw [← hpost] at htakes
  exact htakes

theorem step_service_turns (services : Finset SH) (queries : Finset QH) (ts : List (Step I SH QH))
    (s : DriverState SH QH) (run : Run machine ts s) (t : Step I SH QH) (ht : t ∈ ts)
    (hfixed : Step.Fixed services queries t) (hplace : Step.KeepsPlace t) :
    (serviceView : ClassView I SH QH SH).Turns services t where
  turned u hu := by
    obtain ⟨r, hreport, hturn⟩ := Option.map_eq_some_iff.mp hu
    have htakes := (step_takes services queries ts s run t ht hfixed r hreport).1
    cases hturn
    refine ⟨rfl, rfl, ?_⟩
    have hpolled : Step.servicesPolled t = r.servicesPolled.map Prod.fst := by
      rw [Step.servicesPolled, hreport]
      rfl
    change Takes _ (Step.servicesPolled t) _ _
    rw [hpolled]
    exact htakes
  idle hnone := by
    have hreport : Step.report t = none := Option.map_eq_none_iff.mp hnone
    have hpolled : Step.servicesPolled t = [] := by
      rw [Step.servicesPolled, hreport]
      rfl
    have hpass : Step.isPass t = false := by rw [Step.isPass, hreport]; rfl
    exact ⟨hpolled, (hplace hpass).1, congrArg not (report_none ts s run t ht hreport)⟩
  nodup := ListedMap.ring_nodup serviceProducer.live t.pre.services _
  live x := by
    rw [← hfixed.servicesBefore, List.mem_toFinset]
    change x ∈ t.pre.services.ring serviceProducer.live _ ↔ x ∈ t.pre.services.ring serviceProducer.live _
    rw [ListedMap.mem_ring, ListedMap.mem_ring]

theorem step_query_turns (services : Finset SH) (queries : Finset QH) (ts : List (Step I SH QH))
    (s : DriverState SH QH) (run : Run machine ts s) (t : Step I SH QH) (ht : t ∈ ts)
    (hfixed : Step.Fixed services queries t) (hplace : Step.KeepsPlace t) :
    (queryView : ClassView I SH QH QH).Turns queries t where
  turned u hu := by
    obtain ⟨r, hreport, hturn⟩ := Option.map_eq_some_iff.mp hu
    have htakes := (step_takes services queries ts s run t ht hfixed r hreport).2
    cases hturn
    refine ⟨rfl, rfl, ?_⟩
    have hpolled : Step.queriesPolled t = r.queriesPolled.map Prod.fst := by
      rw [Step.queriesPolled, hreport]
      rfl
    change Takes _ (Step.queriesPolled t) _ _
    rw [hpolled]
    exact htakes
  idle hnone := by
    have hreport : Step.report t = none := Option.map_eq_none_iff.mp hnone
    have hpolled : Step.queriesPolled t = [] := by
      rw [Step.queriesPolled, hreport]
      rfl
    have hpass : Step.isPass t = false := by rw [Step.isPass, hreport]; rfl
    exact ⟨hpolled, (hplace hpass).2, report_none ts s run t ht hreport⟩
  nodup := ListedMap.ring_nodup queryProducer.live t.pre.queries _
  live x := by
    rw [← hfixed.queriesBefore, List.mem_toFinset]
    change x ∈ t.pre.queries.ring queryProducer.live _ ↔ x ∈ t.pre.queries.ring queryProducer.live _
    rw [ListedMap.mem_ring, ListedMap.mem_ring]

/-- In every run with fixed live producers that keep their places from one pass to the next, the
turns are fair, whatever the producers have to send and whatever their fan-outs cost. -/
theorem turns_are_fair (services : Finset SH) (queries : Finset QH) (ts : List (Step I SH QH))
    (s : DriverState SH QH) (run : Run machine ts s)
    (hfixed : ∀ t ∈ ts, Step.Fixed services queries t) (hplace : ∀ t ∈ ts, Step.KeepsPlace t) :
    FairTurns services Step.servicesPolled ts ∧ FairTurns queries Step.queriesPolled ts := by
  obtain ⟨hchain, -⟩ := run.chain machine ts s
  constructor
  · exact serviceView.fair services ts hchain fun t ht =>
      step_service_turns services queries ts s run t ht (hfixed t ht) (hplace t ht)
  · exact queryView.fair queries ts hchain fun t ht =>
      step_query_turns services queries ts s run t ht (hfixed t ht) (hplace t ht)

end

def liveCtx : ServiceCtx := ⟨false, false, 0⟩

def leavingCtx : ServiceCtx := ⟨true, true, 0⟩

def afterLeaving (leaving : List Nat) (h : (leaving ++ [10, 20]).Nodup) :
    ListedMap Nat ServiceCtx where
  entries := leaving.map (fun k => (k, leavingCtx)) ++ [(10, liveCtx), (20, liveCtx)]
  distinct := by
    rw [List.map_append, List.map_map]
    have hkeys : leaving.map (Prod.fst ∘ fun k => (k, leavingCtx)) = leaving := by
      conv_rhs => rw [← List.map_id leaving]
      rfl
    rw [hkeys]
    exact h

def noQueries : ListedMap Nat QueryCtx := ⟨[], List.nodup_nil⟩

/-- A pass in which the first fan-out takes 260 ms of a family that does not accept. -/
def slowPass (start : Nat) (leaving : Nat) : DriverCall Uptime Nat Nat :=
  .pass {
    start := Fin.ofNat _ (start * 1000000)
    clock := fun n =>
      if n ≤ leaving + 1 then Fin.ofNat _ (start * 1000000)
      else Fin.ofNat _ ((start + 260) * 1000000)
    answer := fun _ => .datagram 1 false
    pollsPerHandle := 2 }

def threeLeaving : DriverState Nat Nat :=
  ⟨afterLeaving [1, 2, 3] (by decide), noQueries, 0, 0, false⟩

def oneByOne : List (DriverCall Uptime Nat Nat) :=
  [slowPass 0 3, .settle (afterLeaving [2, 3] (by decide)) noQueries,
    slowPass 300 2, .settle (afterLeaving [3] (by decide)) noQueries,
    slowPass 600 1, .settle (afterLeaving [] (by decide)) noQueries,
    slowPass 900 0]

instance (s : DriverState Nat Nat) (c : DriverCall Uptime Nat Nat) :
    Decidable (machine.admits s c) :=
  match c with
  | .pass p => inferInstanceAs (Decidable ((drainTransmits p s).isSome = true))
  | .settle _ _ => isTrue trivial

theorem fixed_iff (services queries : Finset Nat) (t : Step Uptime Nat Nat) :
    Step.Fixed services queries t ↔
      (t.pre.liveServices.toFinset = services ∧ t.post.liveServices.toFinset = services) ∧
        t.pre.liveQueries.toFinset = queries ∧ t.post.liveQueries.toFinset = queries := by
  constructor
  · intro h
    exact ⟨⟨h.servicesBefore, h.servicesAfter⟩, h.queriesBefore, h.queriesAfter⟩
  · intro h
    exact ⟨h.1.1, h.1.2, h.2.1, h.2.2⟩

/-- Every pass of this run is cut short and polls the first service; the second, live all the
while, is polled in none of twice as many passes as there are live services. -/
theorem leaving_services_starve_a_live_one :
    ¬ ∀ (services queries : Finset Nat) (ts : List (Step Uptime Nat Nat)) (s : DriverState Nat Nat),
      Run machine ts s → (∀ t ∈ ts, Step.Fixed services queries t) →
        (∀ t ∈ ts, Step.wasCut t) →
          FairTurns services Step.servicesPolled ts ∧ FairTurns queries Step.queriesPolled ts := by
  intro hall
  have run : Run machine (machine.trace threeLeaving oneByOne) (machine.play threeLeaving oneByOne) :=
    Run.play machine [] threeLeaving (.start _ trivial) oneByOne (by decide)
  have hpolled : ∀ t ∈ machine.trace threeLeaving oneByOne, 20 ∉ Step.servicesPolled t := by
    decide
  obtain ⟨hservices, -⟩ := hall {10, 20} ∅ _ _ run
    (by
      intro t ht
      rw [fixed_iff]
      revert t
      decide)
    (by
      intro t ht r hr
      have hcut : ∀ t ∈ machine.trace threeLeaving oneByOne,
          (Step.report t).all (fun r => r.morePending) = true := by decide
      have ht := hcut t ht
      rw [hr] at ht
      exact ht)
  obtain ⟨t, ht, hin⟩ := hservices.within [] (machine.trace threeLeaving oneByOne) []
    (by rw [List.append_nil]; rfl) (by decide) 20 (by decide)
  exact hpolled t ht hin

theorem two_services_take_turns :
    FairTurns {10, 20} Step.servicesPolled
        (machine.trace ⟨afterLeaving [] (by decide), noQueries, 0, 0, false⟩
          [slowPass 0 0, slowPass 300 0, slowPass 600 0, slowPass 900 0]) ∧
      FairTurns ∅ Step.queriesPolled
        (machine.trace ⟨afterLeaving [] (by decide), noQueries, 0, 0, false⟩
          [slowPass 0 0, slowPass 300 0, slowPass 600 0, slowPass 900 0]) := by
  apply turns_are_fair {10, 20} ∅ _ _
    (Run.play machine [] ⟨afterLeaving [] (by decide), noQueries, 0, 0, false⟩ (.start _ trivial)
      [slowPass 0 0, slowPass 300 0, slowPass 600 0, slowPass 900 0] (by decide))
  · intro t ht
    rw [fixed_iff]
    revert t
    decide
  · intro t ht hpass
    have hall : ∀ t ∈ machine.trace ⟨afterLeaving [] (by decide), noQueries, 0, 0, false⟩
        [slowPass 0 0, slowPass 300 0, slowPass 600 0, slowPass 900 0],
          Step.isPass t = true := by decide
    rw [hall t ht] at hpass
    cases hpass

end Reactor

end Hick
