import Hick.Engine.SlotStory

/-!
# Slots and routes (hick-smoltcp/src/engine/mod.rs:1486-1555, 1640-2452)

A slot that still has its route is there exactly as long as the endpoint has a route for its
handle. Each call keeps that together with the story of every slot.
-/

set_option linter.unusedSectionVars false

namespace Hick
open Octets Wire Respond Since Runs

namespace Engine
variable {I G R : Type} {SR EV : Type → Type} [Instant I] [SeedSource G] [SeedableRng R]
  [Pool SR] [Pool EV]

def Unfreed (e : Engine I G R SR EV) (h : ServiceHandle) : Prop :=
  ∃ s, e.services.lookup h = some s ∧ s.routeFreed = false

structure Sound (e : Engine I G R SR EV) : Prop where
  story : ∀ h, Story h (e.services.lookup h) e.marks
  paired : ∀ h, e.Unfreed h ↔ e.endpoint.Has h
  unique : e.endpoint.HandlesUnique
  minted : ∀ h s, e.services.lookup h = some s →
    h.raw < e.endpoint.nextServiceHandle ∨ e.endpoint.nextServiceHandle = lastServiceHandle.raw

theorem live_iff (e : Engine I G R SR EV) (h : ServiceHandle) :
    e.live h = true ↔ ∃ s, e.services.lookup h = some s ∧ s.errored = false := by
  unfold live
  rw [Option.any_eq_true]
  simp only [Bool.not_eq_true']

def Told (e : Engine I G R SR EV) : Prop := ∀ h, Story h (e.services.lookup h) e.marks

theorem Told.of_slot {e : Engine I G R SR EV} (h : Told e) (e' : Engine I G R SR EV)
    (handle : ServiceHandle) (slot : Option (ServiceSlot I))
    (hlookup : ∀ j, e'.services.lookup j = if j = handle then slot else e.services.lookup j)
    (ms : List SlotMark) (hmarks : e'.marks = e.marks ++ ms) (hms : ∀ m ∈ ms, m.handle = handle)
    (hstory : Story handle slot e'.marks) : Told e' := by
  intro j
  rw [hlookup]
  split
  · rename_i hj
    rw [hj]
    exact hstory
  · rename_i hj
    rw [hmarks]
    have hother : ∀ (ms marks : List SlotMark), (∀ m ∈ ms, m.handle = handle) →
        Story j (e.services.lookup j) marks → Story j (e.services.lookup j) (marks ++ ms) := by
      intro ms
      induction ms with
      | nil =>
        intro marks _ hst
        rw [List.append_nil]
        exact hst
      | cons m rest ih =>
        intro marks hall hst
        rw [List.append_cons]
        apply ih _ fun m' hm' => hall m' (List.mem_cons_of_mem _ hm')
        apply hst.other m
        rw [hall m List.mem_cons_self]
        exact fun heq => hj heq.symm
    exact hother ms e.marks hms (h j)

theorem Sound.of_slot {e : Engine I G R SR EV} (h : Sound e) (e' : Engine I G R SR EV)
    (handle : ServiceHandle) (s s' : ServiceSlot I) (hs : e.services.lookup handle = some s)
    (hroute : s'.routeFreed = s.routeFreed)
    (hlookup : ∀ j, e'.services.lookup j =
      if j = handle then some s' else e.services.lookup j)
    (hendpoint : e'.endpoint = e.endpoint) (ms : List SlotMark)
    (hmarks : e'.marks = e.marks ++ ms) (hms : ∀ m ∈ ms, m.handle = handle)
    (hstory : Story handle (some s') e'.marks) : Sound e' where
  story := Told.of_slot h.story e' handle (some s') hlookup ms hmarks hms hstory
  paired j := by
    rw [hendpoint, ← h.paired j]
    unfold Unfreed
    rw [hlookup]
    split
    · rename_i hj
      subst hj
      simp only [Option.some.injEq, exists_eq_left', hs, hroute]
    · exact Iff.rfl
  unique := by
    rw [hendpoint]
    exact h.unique
  minted j t ht := by
    rw [hendpoint]
    rw [hlookup] at ht
    split at ht
    · rename_i hj
      rw [hj]
      exact h.minted handle s hs
    · exact h.minted j t ht

theorem Sound.of_removed {e : Engine I G R SR EV} (h : Sound e) (e' : Engine I G R SR EV)
    (handle : ServiceHandle) (s : ServiceSlot I) (hs : e.services.lookup handle = some s)
    (hfreed : s.routeFreed = true)
    (hlookup : ∀ j, e'.services.lookup j = if j = handle then none else e.services.lookup j)
    (hendpoint : e'.endpoint = e.endpoint) (ms : List SlotMark)
    (hmarks : e'.marks = e.marks ++ ms) (hms : ∀ m ∈ ms, m.handle = handle)
    (hstory : Story (I := I) handle none e'.marks) : Sound e' where
  story := Told.of_slot h.story e' handle none hlookup ms hmarks hms hstory
  paired j := by
    rw [hendpoint, ← h.paired j]
    unfold Unfreed
    rw [hlookup]
    split
    · rename_i hj
      subst hj
      simp [hs, hfreed]
    · exact Iff.rfl
  unique := by
    rw [hendpoint]
    exact h.unique
  minted j t ht := by
    rw [hendpoint]
    rw [hlookup] at ht
    split at ht
    · cases ht
    · exact h.minted j t ht

theorem Sound.of_endpoint {e e' : Engine I G R SR EV} (h : Sound e)
    (hkeeps : Endpoint.Keeps e.endpoint e'.endpoint) (hservices : e'.services = e.services)
    (hmarks : e'.marks = e.marks) : Sound e' where
  story j := by
    rw [hservices, hmarks]
    exact h.story j
  paired j := by
    rw [hkeeps.has, ← h.paired j]
    unfold Unfreed
    rw [hservices]
  unique := hkeeps.unique h.unique
  minted j s hs := by
    rw [hservices] at hs
    rw [hkeeps.next]
    exact h.minted j s hs

theorem Sound.driven {e : Engine I G R SR EV} (h : Sound e) (handle : ServiceHandle)
    (hlive : e.live handle = true) (m : SlotMark) (hm : m.Drives handle) : Sound (e.mark m) := by
  obtain ⟨s, hs, herr⟩ := (e.live_iff handle).mp hlive
  have hhandle : m.handle = handle := by
    rcases hm with rfl | rfl <;> rfl
  apply h.of_slot (e.mark m) handle s s hs rfl _ rfl [m] rfl
  · intro m' hm'
    rw [List.mem_singleton.mp hm']
    exact hhandle
  · have hst := h.story handle
    rw [hs] at hst
    exact hst.driven herr m hm
  · intro j
    change e.services.lookup j = _
    split
    · rename_i hj
      rw [hj, hs]
    · rfl

theorem Sound.called {e : Engine I G R SR EV} (h : Sound e) (handle : ServiceHandle)
    (hlive : e.live handle = true) (endpoint : Endpoint I G R SR EV)
    (hkeeps : Endpoint.Keeps e.endpoint endpoint) :
    Sound ({ e with endpoint := endpoint }.mark (.polled handle)) := by
  have hmoved : Sound { e with endpoint := endpoint } := h.of_endpoint hkeeps rfl rfl
  exact hmoved.driven handle hlive _ (.inl rfl)

theorem updateSlot_lookup (e : Engine I G R SR EV) (handle : ServiceHandle)
    (f : ServiceSlot I → ServiceSlot I) (s : ServiceSlot I)
    (hs : e.services.lookup handle = some s) (j : ServiceHandle) :
    (e.updateSlot handle f).services.lookup j =
      if j = handle then some (f s) else e.services.lookup j := by
  change (Assoc.modify f handle e.services).lookup j = _
  rw [Assoc.lookup_modify]
  split
  · rename_i hj
    rw [hj, hs, Option.map_some]
  · rfl

theorem Sound.gated {e : Engine I G R SR EV} (h : Sound e) (handle : ServiceHandle)
    (hlive : e.live handle = true) (gate : FamilyWireGate I) :
    Sound (e.updateSlot handle fun s => { s with wireGate := gate }) := by
  obtain ⟨s, hs, -⟩ := (e.live_iff handle).mp hlive
  have hst := h.story handle
  rw [hs] at hst
  exact h.of_slot _ handle s { s with wireGate := gate } hs rfl
    (e.updateSlot_lookup handle (fun s => { s with wireGate := gate }) s hs) rfl []
    (List.append_nil _).symm nofun (hst.gated gate)

theorem Sound.told {e : Engine I G R SR EV} (h : Sound e) (handle : ServiceHandle)
    (hlive : e.live handle = true) (u : ServiceUpdate) (hu : u.isTerminal = false) :
    Sound (e.queue handle u) := by
  obtain ⟨s, hs, herr⟩ := (e.live_iff handle).mp hlive
  have hst := h.story handle
  rw [hs] at hst
  apply h.of_slot (e.queue handle u) handle s (s.pushUpdate u) hs (s.pushUpdate_routeFreed u)
    (e.updateSlot_lookup handle (fun s => s.pushUpdate u) s hs) rfl [.queued handle u] rfl
  · intro m hm
    rw [List.mem_singleton.mp hm]
    rfl
  · exact hst.told herr u hu

theorem Sound.ended {e : Engine I G R SR EV} (h : Sound e) (handle : ServiceHandle)
    (hlive : e.live handle = true) (u : ServiceUpdate) :
    Sound ((e.queue handle u).giveUp handle) := by
  obtain ⟨s, hs, herr⟩ := (e.live_iff handle).mp hlive
  have hst := h.story handle
  rw [hs] at hst
  have hqueue := e.updateSlot_lookup handle (fun s => s.pushUpdate u) s hs
  have hself : (e.queue handle u).services.lookup handle = some (s.pushUpdate u) := by
    change (e.updateSlot handle fun s => s.pushUpdate u).services.lookup handle = _
    rw [hqueue, if_pos rfl]
  have hboth := (e.queue handle u).updateSlot_lookup handle
    (fun s => { s with errored := true }) _ hself
  apply h.of_slot ((e.queue handle u).giveUp handle) handle s
    { s.pushUpdate u with errored := true } hs (s.pushUpdate_routeFreed u) _ rfl [.queued handle u, .errored handle] (List.append_assoc _ _ _)
  · intro m hm
    simp only [List.mem_cons, List.not_mem_nil, or_false] at hm
    rcases hm with rfl | rfl <;> rfl
  · exact hst.ended herr u
  · intro j
    change (((e.queue handle u).updateSlot handle _).services.lookup j) = _
    rw [hboth]
    split
    · rfl
    · rename_i hj
      change (e.updateSlot handle fun s => s.pushUpdate u).services.lookup j = _
      rw [hqueue, if_neg hj]

theorem Sound.leaves {e : Engine I G R SR EV} (h : Sound e) (handle : ServiceHandle)
    (s : ServiceSlot I) (hs : e.services.lookup handle = some s) (hroute : s.routeFreed = false) :
    Sound (((e.mark (.left handle)).giveUp handle).updateSlot handle
      fun s => { s with callerGone := true }) := by
  have hst := h.story handle
  rw [hs] at hst
  have hgive := (e.mark (.left handle)).updateSlot_lookup handle
    (fun s => { s with errored := true }) s hs
  have hself : ((e.mark (.left handle)).giveUp handle).services.lookup handle =
      some { s with errored := true } := by
    change ((e.mark (.left handle)).updateSlot handle _).services.lookup handle = _
    rw [hgive, if_pos rfl]
  have hboth := ((e.mark (.left handle)).giveUp handle).updateSlot_lookup handle
    (fun s => { s with callerGone := true }) _ hself
  apply h.of_slot (((e.mark (.left handle)).giveUp handle).updateSlot handle
    fun s => { s with callerGone := true }) handle s
    { s with errored := true, callerGone := true } hs rfl _ rfl [.left handle, .errored handle] (List.append_assoc _ _ _)
  · intro m hm
    simp only [List.mem_cons, List.not_mem_nil, or_false] at hm
    rcases hm with rfl | rfl <;> rfl
  · exact hst.leaves hroute
  · intro j
    rw [hboth]
    split
    · rfl
    · rename_i hj
      change ((e.mark (.left handle)).updateSlot handle _).services.lookup j = _
      rw [hgive, if_neg hj]
      rfl

theorem Sound.reads {e : Engine I G R SR EV} (h : Sound e) (handle : ServiceHandle)
    (s : ServiceSlot I) (hs : e.services.lookup handle = some s) (u : ServiceUpdate)
    (rest : List ServiceUpdate) (hupdates : s.updates = u :: rest)
    (hkept : s.routeFreed = true → rest ≠ []) :
    Sound ((e.updateSlot handle fun s => { s with updates := rest }).mark
      (.delivered handle u)) := by
  have hst := h.story handle
  rw [hs] at hst
  apply h.of_slot ((e.updateSlot handle fun s => { s with updates := rest }).mark
    (.delivered handle u)) handle s { s with updates := rest } hs rfl
    (e.updateSlot_lookup handle (fun s => { s with updates := rest }) s hs) rfl
    [.delivered handle u] rfl
  · intro m hm
    rw [List.mem_singleton.mp hm]
    rfl
  · exact hst.reads u rest hupdates hkept

theorem removeSlot_lookup (e : Engine I G R SR EV) (handle j : ServiceHandle) :
    (e.removeSlot handle).services.lookup j =
      if j = handle then none else e.services.lookup j :=
  Assoc.lookup_erase handle j e.services

theorem Sound.pollServiceUpdate {e : Engine I G R SR EV} (h : Sound e) (handle : ServiceHandle) :
    Sound (e.pollServiceUpdate handle).1 := by
  unfold Engine.pollServiceUpdate
  cases hs : e.services.lookup handle with
  | none => exact h
  | some s =>
    dsimp only
    cases hupdates : s.updates with
    | nil => exact h
    | cons u rest =>
      dsimp only
      by_cases hlast : (s.routeFreed && rest.isEmpty) = true
      · rw [if_pos hlast]
        simp only [Bool.and_eq_true, List.isEmpty_iff] at hlast
        have hst := h.story handle
        rw [hs] at hst
        have hmodify := e.updateSlot_lookup handle (fun s => { s with updates := rest }) s hs
        apply h.of_removed (((e.updateSlot handle fun s => { s with updates := rest }).mark
          (.delivered handle u)).removeSlot handle) handle s hs hlast.1 _ rfl
          [.delivered handle u, .removed handle] (List.append_assoc _ _ _)
        · intro m hm
          simp only [List.mem_cons, List.not_mem_nil, or_false] at hm
          rcases hm with rfl | rfl <;> rfl
        · exact hst.reads_last u (by rw [hupdates, hlast.2])
        · intro j
          rw [removeSlot_lookup]
          split
          · rfl
          · rename_i hj
            change (e.updateSlot handle _).services.lookup j = _
            rw [hmodify, if_neg hj]
      · rw [if_neg hlast]
        apply h.reads handle s hs u rest hupdates
        intro hfreed hrest
        apply hlast
        rw [hfreed, hrest]
        rfl

section
variable [LawfulPool SR]

theorem beginServiceWithdrawal_sound {e : Engine I G R SR EV} (h : Sound e)
    (handle : ServiceHandle) (now : I) : Sound (e.beginServiceWithdrawal handle now) :=
  h.of_endpoint (e.endpoint.unregisterService_keeps handle now) rfl rfl

theorem Sound.unregisterService {e : Engine I G R SR EV} (h : Sound e) (handle : ServiceHandle)
    (now : I) : Sound (e.unregisterService handle now) := by
  unfold Engine.unregisterService
  cases hs : e.services.lookup handle with
  | none => exact h
  | some s =>
    dsimp only
    cases hfreed : s.routeFreed with
    | true =>
      rw [if_pos rfl]
      have hst := h.story handle
      rw [hs] at hst
      apply h.of_removed ((e.mark (.left handle)).removeSlot handle) handle s hs hfreed _ rfl
        [.left handle, .removed handle] (List.append_assoc _ _ _)
      · intro m hm
        simp only [List.mem_cons, List.not_mem_nil, or_false] at hm
        rcases hm with rfl | rfl <;> rfl
      · exact hst.leaves_removed
      · exact (e.mark (.left handle)).removeSlot_lookup handle
    | false =>
      rw [if_neg (by simp)]
      exact beginServiceWithdrawal_sound (h.leaves handle s hs hfreed) handle now

def Mintable (e : Engine I G R SR EV) : Prop :=
  e.endpoint.nextServiceHandle = lastServiceHandle.raw →
    e.services.lookup lastServiceHandle = none

theorem Sound.fresh {e : Engine I G R SR EV} (h : Sound e) (hmint : e.Mintable) :
    e.services.lookup ⟨e.endpoint.nextServiceHandle⟩ = none := by
  by_contra hne
  obtain ⟨s, hs⟩ := Option.ne_none_iff_exists'.mp hne
  rcases h.minted _ s hs with hlt | hlast
  · exact absurd hlt (UInt32.lt_irrefl _)
  · rw [hlast] at hs
    rw [hmint hlast] at hs
    cases hs

theorem Sound.registerService {e : Engine I G R SR EV} (h : Sound e) (hmint : e.Mintable)
    (records : ServiceRecords) (now : I) : Sound (e.registerService records now).1 := by
  unfold Engine.registerService
  cases hreg : e.endpoint.tryRegisterService records now with
  | mk endpoint outcome =>
    cases outcome with
    | error err =>
      obtain ⟨hat, hnext⟩ := Endpoint.tryRegisterService_error e.endpoint endpoint records now err hreg
      have hhas : ∀ j, endpoint.Has j ↔ e.endpoint.Has j := by
        intro j
        simp only [Endpoint.Has, hat]
      refine ⟨h.story, fun j => ?_, ?_, fun j s hs => ?_⟩
      · change e.Unfreed j ↔ endpoint.Has j
        rw [hhas, h.paired]
      · intro i j handle hi hj
        change endpoint.handleAt i = some handle at hi
        change endpoint.handleAt j = some handle at hj
        rw [hat] at hi hj
        exact h.unique i j handle hi hj
      · change j.raw < endpoint.nextServiceHandle ∨ endpoint.nextServiceHandle = _
        rcases hnext with hsame | hsucc
        · rw [hsame]
          exact h.minted j s hs
        · rw [hsucc]
          exact minted_succ _ _ (h.minted j s hs)
    | ok handle =>
      obtain ⟨hhandle, hnext, key, hvacant, hat⟩ :=
        Endpoint.tryRegisterService_ok e.endpoint endpoint records now handle hreg
      have hfree : e.services.lookup handle = none := by
        rw [hhandle]
        exact h.fresh hmint
      have hnot : ¬ e.endpoint.Has handle := by
        rw [← h.paired handle]
        intro hex
        obtain ⟨s, hs, -⟩ := hex
        rw [hfree] at hs
        cases hs
      have hlookup : ∀ j, (e.services.insert handle ServiceSlot.fresh).lookup j =
          if j = handle then some .fresh else e.services.lookup j := by
        intro j
        exact Assoc.lookup_insert handle j .fresh e.services
      constructor
      · apply Told.of_slot h.story _ handle (some .fresh) hlookup [.registered handle] rfl
        · intro m hm
          rw [List.mem_singleton.mp hm]
          rfl
        · have hst := h.story handle
          rw [hfree] at hst
          exact hst.registered
      · intro j
        change (∃ s, (e.services.insert handle ServiceSlot.fresh).lookup j = some s ∧ _) ↔
          ∃ k, endpoint.handleAt k = some j
        rw [hlookup]
        by_cases hj : j = handle
        · rw [if_pos hj]
          constructor
          · intro _
            exact ⟨key, by rw [hat, if_pos rfl, hj]⟩
          · exact fun _ => ⟨.fresh, rfl, rfl⟩
        · rw [if_neg hj]
          change e.Unfreed j ↔ _
          rw [h.paired j]
          constructor
          · intro hex
            obtain ⟨k, hk⟩ := hex
            refine ⟨k, ?_⟩
            rw [hat, if_neg, hk]
            intro heq
            rw [heq, hvacant] at hk
            cases hk
          · intro hex
            obtain ⟨k, hk⟩ := hex
            rw [hat] at hk
            split at hk
            · cases hk
              exact absurd rfl hj
            · exact ⟨k, hk⟩
      · exact h.unique.filled e.endpoint endpoint _ handle hat hnot
      · intro j s hs
        change j.raw < endpoint.nextServiceHandle ∨ endpoint.nextServiceHandle = _
        change (e.services.insert handle ServiceSlot.fresh).lookup j = some s at hs
        rw [hlookup] at hs
        rw [hnext]
        split at hs
        · rename_i hj
          rw [hj, hhandle]
          exact raw_lt_succ _
        · exact minted_succ _ _ (h.minted j s hs)

theorem fold_sound {α : Type} (f : Engine I G R SR EV → α → Engine I G R SR EV)
    (hf : ∀ e a, Sound e → Sound (f e a)) (as : List α) (e : Engine I G R SR EV) (h : Sound e) :
    Sound (as.foldl f e) := by
  induction as generalizing e with
  | nil => exact h
  | cons a rest ih => exact ih _ (hf e a h)

theorem Sound.fireTimeouts {e : Engine I G R SR EV} (h : Sound e) (now : I) :
    Sound (e.fireTimeouts now) := by
  apply fold_sound
  · intro d handle hd
    unfold fireTimeout
    split
    · rename_i hlive
      exact hd.called handle hlive _ (d.endpoint.handleServiceTimeout_keeps handle now)
    · exact hd
  · exact h.of_endpoint ⟨fun _ => rfl, rfl⟩ rfl rfl

theorem deliveries_keep (now : I) (ds : List (Nat × ServiceEvent)) (d : Endpoint I G R SR EV) :
    Endpoint.Keeps d (ds.foldl (fun endpoint delivery =>
      endpoint.dispatch delivery.1 delivery.2 now) d) := by
  induction ds generalizing d with
  | nil => exact .rfl'
  | cons delivery rest ih => exact (d.dispatch_keeps _ _ _).trans (ih _)

theorem handleOne_sound (now : I) (e : Engine I G R SR EV) (a : Arrival) (h : Sound e) :
    Sound (handleOne now e a) := by
  unfold handleOne
  dsimp only
  apply h.of_endpoint
  · split
    · exact deliveries_keep now a.deliveries e.endpoint
    · exact deliveries_keep now a.deliveries e.endpoint
  · split <;> rfl
  · split <;> rfl

theorem noteRename_eq (e : Engine I G R SR EV) (u : ServiceUpdate) :
    (e.noteRename u).endpoint = e.endpoint ∧ (e.noteRename u).services = e.services ∧
      (e.noteRename u).marks = e.marks := by
  cases u <;> exact ⟨rfl, rfl, rfl⟩

theorem drainUpdates_sound (now : I) (handle : ServiceHandle) (fuel : Nat)
    (e : Engine I G R SR EV) (h : Sound e) : Sound (drainUpdates now handle fuel e) := by
  induction fuel generalizing e with
  | zero => exact h
  | succ fuel ih =>
    unfold drainUpdates
    split
    · rename_i hlive
      have hkeeps := e.endpoint.pollService_keeps handle
      cases hpoll : e.endpoint.pollService handle with
      | mk endpoint update =>
        rw [hpoll] at hkeeps
        have hpolled := h.called handle hlive endpoint hkeeps
        cases update with
        | none => exact hpolled
        | some u =>
          dsimp only
          obtain ⟨hendpoint, hservices, hmarks⟩ := noteRename_eq
            ({ e with endpoint := endpoint }.mark (.polled handle)) u
          have hnoted : Sound (({ e with endpoint := endpoint }.mark (.polled handle)).noteRename
              u) := by
            refine hpolled.of_endpoint ?_ hservices hmarks
            rw [hendpoint]
            exact .rfl'
          have hstill : (({ e with endpoint := endpoint }.mark (.polled handle)).noteRename
              u).live handle = true := by
            unfold live
            rw [hservices]
            exact hlive
          split
          · exact beginServiceWithdrawal_sound (hnoted.ended handle hstill u) handle now
          · rename_i hgoes
            exact ih _ (hnoted.told handle hstill u (by simpa using hgoes))
    · exact h

theorem Sound.drainServiceUpdates {e : Engine I G R SR EV} (h : Sound e) (now : I) :
    Sound (e.drainServiceUpdates now) := by
  apply fold_sound _ _ _ _ h
  intro d handle hd
  exact drainUpdates_sound now handle _ d hd

theorem Sound.retireService {e : Engine I G R SR EV} (h : Sound e) (handle : ServiceHandle)
    (hlive : e.live handle = true) (now : I) : Sound (e.retireService handle now) :=
  beginServiceWithdrawal_sound (h.ended handle hlive .conflict) handle now

theorem pollTransmits_sound (now : I) (scratch : Bytes) (hs : List ServiceHandle)
    (e : Engine I G R SR EV) (h : Sound e) :
    Sound (pollTransmits now scratch hs e).1 ∧
      ∀ handle sent, (pollTransmits now scratch hs e).2 = some (handle, sent) →
        (pollTransmits now scratch hs e).1.live handle = true := by
  induction hs generalizing e with
  | nil => exact ⟨h, fun _ _ hsent => absurd hsent.symm (Option.some_ne_none _)⟩
  | cons handle rest ih =>
    unfold pollTransmits
    split
    · rename_i hlive
      have hkeeps := e.endpoint.pollServiceTransmit_keeps handle now scratch
      cases hpoll : e.endpoint.pollServiceTransmit handle now scratch with
      | mk endpoint outcome =>
        rw [hpoll] at hkeeps
        have hpolled := h.called handle hlive endpoint hkeeps
        cases outcome with
        | error err => exact ih _ (hpolled.retireService handle hlive now)
        | ok sent =>
          cases sent with
          | none => exact ih _ hpolled
          | some sent =>
            refine ⟨hpolled, ?_⟩
            intro handle' sent' heq
            cases heq
            exact hlive
    · exact ih _ h

theorem Sound.fanOut {e : Engine I G R SR EV} (h : Sound e) (handle : ServiceHandle)
    (hlive : e.live handle = true) (sent : Sent) (now : I) (pass : TxPass I) :
    Sound (e.fanOut handle sent now pass) := by
  unfold Engine.fanOut
  generalize e.tx.sendMulticast sent.message.octets (e.wireGate handle)
    sent.transmit.minFamilyGap pass.env = cast
  obtain ⟨results, gate, tx⟩ := cast
  dsimp only
  have htx : Sound { e with tx := tx } := h.of_endpoint .rfl' rfl rfl
  have hgated := htx.gated handle hlive gate
  have hstill : ({ e with tx := tx }.updateSlot handle fun slot =>
      { slot with wireGate := gate }).live handle = true := by
    obtain ⟨s, hs, herr⟩ := (e.live_iff handle).mp hlive
    rw [live_iff]
    refine ⟨{ s with wireGate := gate }, ?_, herr⟩
    have hlookup := updateSlot_lookup { e with tx := tx } handle
      (fun slot => { slot with wireGate := gate }) s hs handle
    rw [hlookup, if_pos rfl]
  have hsent := hgated.driven handle hstill _ (.inr rfl)
  generalize hd : ({ e with tx := tx }.updateSlot handle fun slot =>
    { slot with wireGate := gate }).mark (.transmitted handle) = d at hsent ⊢
  have hlive' : d.live handle = true := by
    rw [← hd]
    exact hstill
  have hkeeps := d.endpoint.noteServiceTransmitOutcome_keeps handle pass.fannedOutAt
    results.v4.attempt results.v6.attempt
  have hnoted : Sound (d.noteTransmitOutcome handle pass.fannedOutAt results.v4.attempt
      results.v6.attempt).1 := hsent.of_endpoint hkeeps rfl rfl
  split
  · exact hnoted.retireService handle hlive' now
  · exact hnoted

theorem Sound.transmit {e : Engine I G R SR EV} (h : Sound e) (handle : ServiceHandle)
    (hlive : e.live handle = true) (sent : Sent) (now : I) (pass : TxPass I) :
    Sound (e.transmit handle sent now pass) := by
  unfold Engine.transmit
  split
  · exact h.fanOut handle hlive sent now pass
  · have hsent := h.driven handle hlive _ (.inr rfl)
    exact hsent.of_endpoint (Endpoint.noteServiceTransmitOutcome_keeps _ _ _ _ _) rfl rfl

theorem txLoop_sound (now : I) (scratch : Bytes) (passes : List (TxPass I))
    (e e' : Engine I G R SR EV) (h : Sound e) (hloop : txLoop now scratch passes e = some e') :
    Sound e' := by
  induction passes generalizing e with
  | nil =>
    have hpoll := pollTransmits_sound now (scratch.take maxMdnsMessage) e.handles e h
    unfold txLoop pollOneTransmit at hloop
    split at hloop
    · rename_i d hd
      cases hloop
      rw [hd] at hpoll
      exact hpoll.1
    · cases hloop
  | cons pass rest ih =>
    have hpoll := pollTransmits_sound now (scratch.take maxMdnsMessage) e.handles e h
    unfold txLoop pollOneTransmit at hloop
    split at hloop
    · rename_i d handle sent hd
      rw [hd] at hpoll
      exact ih _ (hpoll.1.transmit handle (hpoll.2 handle sent rfl) sent now pass) hloop
    · rename_i d hd
      rw [hd] at hpoll
      have hquery : Sound (d.queryFanOut pass) := hpoll.1.of_endpoint .rfl' rfl rfl
      exact ih _ hquery hloop

theorem goodbyeLoop_sound (now : I) (scratch : Bytes) (passes : List (GoodbyePass I))
    (e e' : Engine I G R SR EV) (h : Sound e)
    (hloop : goodbyeLoop now scratch passes e = some e') : Sound e' := by
  induction passes generalizing e with
  | nil =>
    have hkeeps := Endpoint.pollWithdrawalLoop_keeps now scratch (e.endpoint.withdrawals.length + 1)
      e.endpoint
    unfold goodbyeLoop at hloop
    split at hloop
    · rename_i endpoint hd
      cases hloop
      unfold Endpoint.pollWithdrawalTransmit at hd
      rw [hd] at hkeeps
      exact h.of_endpoint hkeeps rfl rfl
    · cases hloop
  | cons pass rest ih =>
    have hkeeps := Endpoint.pollWithdrawalLoop_keeps now scratch (e.endpoint.withdrawals.length + 1)
      e.endpoint
    unfold goodbyeLoop at hloop
    split at hloop
    · cases hloop
    · rename_i endpoint round hd
      unfold Endpoint.pollWithdrawalTransmit at hd
      rw [hd] at hkeeps
      refine ih _ ?_ hloop
      exact h.of_endpoint (hkeeps.trans (endpoint.noteWithdrawalResult_keeps _ _ _ _)) rfl rfl

theorem collectSlot_told (e : Engine I G R SR EV) (h : Told e) (handle : ServiceHandle) :
    Told (e.collectSlot handle) ∧ (e.collectSlot handle).endpoint = e.endpoint ∧
      (∀ j, (e.collectSlot handle).Unfreed j ↔ e.Unfreed j ∧ j ≠ handle) ∧
      ∀ j s, (e.collectSlot handle).services.lookup j = some s →
        ∃ s', e.services.lookup j = some s' := by
  unfold collectSlot
  cases hs : e.services.lookup handle with
  | none =>
    refine ⟨h, rfl, fun j => ?_, fun j s hj => ⟨s, hj⟩⟩
    constructor
    · intro hex
      refine ⟨hex, fun hj => ?_⟩
      obtain ⟨s, hs', -⟩ := hex
      rw [hj, hs] at hs'
      cases hs'
    · exact fun hex => hex.1
  | some s =>
    have hst := h handle
    rw [hs] at hst
    dsimp only
    by_cases hgone : (s.updates.isEmpty || s.callerGone) = true
    · rw [if_pos hgone]
      have hlookup := e.removeSlot_lookup handle
      refine ⟨?_, rfl, fun j => ?_, fun j t hj => ?_⟩
      · apply Told.of_slot h _ handle none hlookup [.removed handle] rfl
        · intro m hm
          rw [List.mem_singleton.mp hm]
          rfl
        · apply hst.removed
          apply hst.nothing_waits
          simpa only [Bool.or_eq_true, List.isEmpty_iff] using hgone
      · unfold Unfreed
        rw [hlookup]
        by_cases hj : j = handle
        · simp [hj]
        · simp [hj]
      · rw [hlookup] at hj
        split at hj
        · cases hj
        · exact ⟨t, hj⟩
    · rw [if_neg hgone]
      simp only [Bool.or_eq_true, List.isEmpty_iff, not_or, Bool.not_eq_true] at hgone
      have hlookup := e.updateSlot_lookup handle (fun s => { s with routeFreed := true }) s hs
      refine ⟨?_, rfl, fun j => ?_, fun j t hj => ?_⟩
      · exact Told.of_slot h _ handle (some { s with routeFreed := true }) hlookup []
          (List.append_nil _).symm nofun (hst.routeGone hgone.1 hgone.2)
      · unfold Unfreed
        rw [hlookup]
        by_cases hj : j = handle
        · simp [hj]
        · simp [hj]
      · rw [hlookup] at hj
        split at hj
        · rename_i hjh
          exact ⟨s, hjh ▸ hs⟩
        · exact ⟨t, hj⟩

theorem collect_fold_told (hs : List ServiceHandle) (e : Engine I G R SR EV) (h : Told e) :
    Told (hs.foldl collectSlot e) ∧ (hs.foldl collectSlot e).endpoint = e.endpoint ∧
      (∀ j, (hs.foldl collectSlot e).Unfreed j ↔ e.Unfreed j ∧ j ∉ hs) ∧
      ∀ j s, (hs.foldl collectSlot e).services.lookup j = some s →
        ∃ s', e.services.lookup j = some s' := by
  induction hs generalizing e with
  | nil => exact ⟨h, rfl, fun j => by simp, fun j s hj => ⟨s, hj⟩⟩
  | cons handle rest ih =>
    obtain ⟨htold, hendpoint, hunfreed, hslots⟩ := collectSlot_told e h handle
    obtain ⟨htold', hendpoint', hunfreed', hslots'⟩ := ih _ htold
    rw [List.foldl_cons]
    refine ⟨htold', hendpoint'.trans hendpoint, fun j => ?_, fun j s hj => ?_⟩
    · rw [hunfreed', hunfreed, List.mem_cons, not_or, and_assoc]
    · obtain ⟨s', hs'⟩ := hslots' j s hj
      exact hslots j s' hs'

end

section
variable [ReleasingPool SR]

theorem Sound.drainWithdrawals {e : Engine I G R SR EV} (h : Sound e) (now : I) :
    Sound (e.drainWithdrawals now) := by
  have hdrained := e.endpoint.drainCompletedWithdrawals_drained h.unique now
  unfold Engine.drainWithdrawals
  generalize e.endpoint.drainCompletedWithdrawals now = st at hdrained ⊢
  obtain ⟨endpoint, completed⟩ := st
  dsimp only
  have htold : Told ({ e with endpoint := endpoint } : Engine I G R SR EV) := h.story
  obtain ⟨htold', hendpoint, hunfreed, hslots⟩ := collect_fold_told completed.reverse
    { e with endpoint := endpoint } htold
  refine ⟨htold', fun j => ?_, ?_, fun j s hs => ?_⟩
  · rw [hendpoint, hunfreed]
    change e.Unfreed j ∧ _ ↔ ∃ key, endpoint.handleAt key = some j
    rw [h.paired j, List.mem_reverse]
    constructor
    · intro hboth
      obtain ⟨⟨key, hkey⟩, hnot⟩ := hboth
      refine ⟨key, ?_⟩
      rw [hdrained.at_ key, hkey, Option.filter_some, if_pos (by simpa using hnot)]
    · intro hex
      obtain ⟨key, hkey⟩ := hex
      rw [hdrained.at_ key, Option.filter_eq_some_iff] at hkey
      exact ⟨⟨key, hkey.1⟩, by simpa using hkey.2⟩
  · rw [hendpoint]
    exact hdrained.unique h.unique
  · rw [hendpoint]
    obtain ⟨s', hs'⟩ := hslots j s hs
    change j.raw < endpoint.nextServiceHandle ∨ endpoint.nextServiceHandle = _
    rw [hdrained.next]
    exact h.minted j s' hs'

theorem Sound.pump {e e' : Engine I G R SR EV} (h : Sound e) (p : PumpCall I)
    (hpump : e.pump p = some e') : Sound e' := by
  unfold Engine.pump at hpump
  simp only [Option.bind_eq_bind, Option.bind_eq_some_iff, Option.pure_def,
    Option.some.injEq] at hpump
  obtain ⟨sent, htx, left, hgoodbyes, rfl⟩ := hpump
  have hfired := h.fireTimeouts p.now
  have hreceived := fold_sound _ (handleOne_sound p.now) (p.arrivals.take maxRxPerPump) _ hfired
  have hdrained := hreceived.drainServiceUpdates p.now
  have hsent := txLoop_sound p.now p.scratch p.passes _ sent hdrained htx
  have hagain := hsent.drainServiceUpdates p.now
  exact (goodbyeLoop_sound p.now p.scratch p.goodbyes _ left hagain hgoodbyes).drainWithdrawals
    p.now

end

end Engine
end Hick
