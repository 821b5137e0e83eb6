import Hick.Driver.FlushTurns
import Hick.Mio.ServiceStory

/-!
# The retirement of services (hick-mio/src/driver.rs:1019-1560,
hick-mio/src/driver/withdrawal.rs:135-271, hick-mio/src/endpoint.rs:600-705, 896-913)

Whatever the driver does, the contexts stand for the routes of the endpoint, and the flags of a
context tell how far the life of its service has come.
-/

set_option linter.unusedSectionVars false

namespace Hick
open Octets Wire Respond

namespace Mio

def ServiceCtx.flags {I : Type} (ctx : ServiceCtx I) : Bool × Bool :=
  (ctx.withdrawing, ctx.goodbyeBegun)

def Phase.flags : Phase → Option (Bool × Bool)
  | unborn | gone _ => none
  | live | told => some (false, false)
  | retired => some (true, false)
  | leaving _ => some (true, true)

namespace Phase

theorem of_live {p : Phase} (hnot : p ≠ .told) (h : p.flags = some (false, false)) : p = .live := by
  cases p with
  | live => rfl
  | told => exact absurd rfl hnot
  | unborn => cases h
  | retired => cases h
  | leaving own => cases h
  | gone own => cases h

theorem of_leaving {p : Phase} (h : p.flags.map Prod.snd = some true) :
    ∃ own, p = .leaving own := by
  cases p with
  | leaving own => exact ⟨own, rfl⟩
  | unborn => cases h
  | live => cases h
  | told => cases h
  | retired => cases h
  | gone own => cases h

theorem of_absent {p : Phase} (h : p.flags.map Prod.snd = none) :
    p = .unborn ∨ ∃ own, p = .gone own := by
  cases p with
  | unborn => exact .inl rfl
  | gone own => exact .inr ⟨own, rfl⟩
  | live => cases h
  | told => cases h
  | retired => cases h
  | leaving own => cases h

end Phase

namespace Services
variable {I G R : Type} {SR EV : Type → Type} [Instant I] [SeedSource G] [SeedableRng R]
  [Pool SR] [Pool EV]

def flags (s : Services I G R SR EV) (handle : ServiceHandle) : Option (Bool × Bool) :=
  (s.context handle).map ServiceCtx.flags

structure Kept (s : Services I G R SR EV) : Prop where
  rostered : s.hosted.endpoint.Rostered
  paired : ∀ h, (s.flags h).map Prod.snd = s.hosted.endpoint.standing h
  lived : ∀ h, ∃ p, Lived h s.marks p ∧ p ≠ .told ∧ s.flags h = p.flags
  closing : s.shuttingDown = true → ∀ h withdrawing, s.flags h ≠ some (withdrawing, false)

def Live (s : Services I G R SR EV) (handle : ServiceHandle) : Prop :=
  s.flags handle = some (false, false)

def Settled (s : Services I G R SR EV) : Prop := ∀ h, s.flags h ≠ some (true, false)

variable {s : Services I G R SR EV}

theorem Kept.mirrors (k : Kept s) : Hosted.Mirrors ServiceCtx.retiring s.hosted where
  rostered := k.rostered
  contexts h := by
    rw [← k.paired h]
    unfold flags
    rw [Option.map_map]
    rfl

theorem Kept.of_mirrors {s : Services I G R SR EV}
    (h : Hosted.Mirrors ServiceCtx.retiring s.hosted) (handle : ServiceHandle) :
    (s.flags handle).map Prod.snd = s.hosted.endpoint.standing handle := by
  rw [← h.contexts handle]
  unfold flags
  rw [Option.map_map]
  rfl

theorem Kept.live (k : Kept s) (handle : ServiceHandle) (ctx : ServiceCtx I)
    (hctx : s.context handle = some ctx) (hw : ctx.withdrawing = false) : s.Live handle := by
  obtain ⟨p, -, -, hflags⟩ := k.lived handle
  have hsome : s.flags handle = some (false, ctx.goodbyeBegun) := by
    unfold flags
    rw [hctx, Option.map_some, ServiceCtx.flags, hw]
  unfold Live
  rw [hflags] at hsome ⊢
  cases p with
  | live => rfl
  | told => rfl
  | unborn => cases hsome
  | retired => cases hsome
  | leaving own => cases hsome
  | gone own => cases hsome

theorem Kept.phase (k : Kept s) (handle : ServiceHandle) (hlive : s.Live handle) :
    Lived handle s.marks .live := by
  obtain ⟨p, hlived, hnot, hflags⟩ := k.lived handle
  rw [hlive] at hflags
  rw [Phase.of_live hnot hflags.symm] at hlived
  exact hlived

theorem flags_updateCtx (s : Services I G R SR EV) (handle : ServiceHandle)
    (f : ServiceCtx I → ServiceCtx I) (g : Bool × Bool → Bool × Bool)
    (hf : ∀ ctx, (f ctx).flags = g ctx.flags) (j : ServiceHandle) :
    (s.updateCtx handle f).flags j = if j = handle then (s.flags j).map g else s.flags j := by
  unfold flags
  rw [show (s.updateCtx handle f).context j = _ from
    Assoc.lookup_modify f handle j s.hosted.services]
  change Option.map _ (if j = handle then (s.context j).map f else s.context j) = _
  split
  · rw [Option.map_map, Option.map_map]
    congr 1
    exact funext hf
  · rfl

theorem flags_touch (s : Services I G R SR EV) (handle : ServiceHandle)
    (f : ServiceCtx I → ServiceCtx I) (hf : ∀ ctx, (f ctx).flags = ctx.flags)
    (j : ServiceHandle) : (s.updateCtx handle f).flags j = s.flags j := by
  rw [s.flags_updateCtx handle f id hf]
  split
  · exact congrFun Option.map_id _
  · rfl

theorem Kept.touch (k : Kept s) (handle : ServiceHandle) (f : ServiceCtx I → ServiceCtx I)
    (hf : ∀ ctx, (f ctx).flags = ctx.flags) : Kept (s.updateCtx handle f) where
  rostered := k.rostered
  paired h := by
    rw [s.flags_touch handle f hf]
    exact k.paired h
  lived h := by
    rw [s.flags_touch handle f hf]
    exact k.lived h
  closing hshut h := by
    rw [s.flags_touch handle f hf]
    exact k.closing hshut h

theorem Kept.drive (k : Kept s) (handle : ServiceHandle) (hlive : s.Live handle) (m : ServiceMark)
    (hm : Phase.live.Moves handle m .live) : Kept (s.mark m) where
  rostered := k.rostered
  paired := k.paired
  lived h := by
    by_cases hh : handle = h
    · subst hh
      exact ⟨.live, (k.phase handle hlive).moved _ _ _ _ hm, nofun, hlive⟩
    · obtain ⟨p, hp, hflags⟩ := k.lived h
      have hother : m.handle ≠ h := by
        cases hm with
        | _ => exact hh
      exact ⟨p, hp.other _ _ _ hother, hflags⟩
  closing := k.closing

theorem Kept.retire (k : Kept s) (handle : ServiceHandle) (hlive : s.Live handle)
    (update : ServiceUpdate) (hu : update.isTerminal = true) :
    Kept ((s.queue handle update).giveUp handle) := by
  have hflags : ∀ j, ((s.queue handle update).giveUp handle).flags j =
      if j = handle then some (true, false) else s.flags j := by
    intro j
    have hall := (s.queue handle update).flags_updateCtx handle .giveUp (fun f => (true, f.2))
      (fun _ => rfl) j
    refine Eq.trans hall ?_
    split
    · rename_i hj
      change Option.map _ (s.flags j) = _
      rw [hj, hlive]
      rfl
    · rfl
  constructor
  · exact k.rostered
  · intro h
    rw [hflags]
    split
    · rename_i hh
      have hbefore := k.paired h
      rw [hh, hlive] at hbefore
      rw [hh]
      exact hbefore
    · exact k.paired h
  · intro h
    rw [hflags]
    by_cases hh : h = handle
    · subst hh
      have hlived := k.phase h hlive
      refine ⟨.retired, (hlived.moved _ _ _ _ (.told update hu)).moved _ _ _ _ .retired, nofun, ?_⟩
      rw [if_pos rfl]
      rfl
    · obtain ⟨p, hp, hrest⟩ := k.lived h
      rw [if_neg hh]
      refine ⟨p, ?_, hrest⟩
      exact (hp.other _ _ (.queued handle update) (Ne.symm hh)).other _ _ (.retired handle)
        (Ne.symm hh)
  · intro hshut
    exact absurd hlive (k.closing hshut handle false)

section
variable [LawfulPool SR]

theorem Kept.withEndpoint (k : Kept s) (endpoint : Endpoint I G R SR EV)
    (hmoved : Endpoint.Unmoved s.hosted.endpoint endpoint) : Kept (s.withEndpoint endpoint) where
  rostered := hmoved.rostered k.rostered
  paired h := (k.paired h).trans (hmoved.standing h).symm
  lived := k.lived
  closing := k.closing

theorem Kept.idle (k : Kept s) (c : HostCall I) (h : Endpoint.Idle c.call) :
    Kept (s.withEndpoint (s.hosted.endpoint.next c)) :=
  k.withEndpoint _ (Endpoint.next_unmoved s.hosted.endpoint k.rostered.unique c h)

theorem begin_cases (s : Services I G R SR EV) (handle : ServiceHandle) (now : I) :
    (∃ withdrawing, s.flags handle = some (withdrawing, false)) ∧
        s.beginServiceWithdrawal handle now =
          { s with
            hosted := s.hosted.beginServiceWithdrawal ServiceCtx.retiring handle now }.mark
              (.begun handle) ∨
      (∀ withdrawing, s.flags handle ≠ some (withdrawing, false)) ∧
        s.beginServiceWithdrawal handle now = s := by
  unfold beginServiceWithdrawal flags
  cases hctx : s.context handle with
  | none => exact .inr ⟨nofun, rfl⟩
  | some ctx =>
    dsimp only
    rw [Option.map_some, ServiceCtx.flags]
    cases hbegun : ctx.goodbyeBegun with
    | true =>
      rw [if_pos rfl]
      refine .inr ⟨?_, rfl⟩
      intro withdrawing heq
      cases heq
    | false =>
      rw [if_neg Bool.false_ne_true]
      exact .inl ⟨⟨ctx.withdrawing, rfl⟩, rfl⟩

theorem flags_begin (s : Services I G R SR EV) (handle : ServiceHandle) (now : I)
    (j : ServiceHandle) :
    (s.beginServiceWithdrawal handle now).flags j =
      if j = handle then (s.flags j).map fun f => if f.2 then f else (true, true)
      else s.flags j := by
  rcases s.begin_cases handle now with ⟨⟨withdrawing, hflags⟩, hbegun⟩ | ⟨hflags, hsame⟩
  · rw [hbegun]
    have hlookup : (s.hosted.beginServiceWithdrawal ServiceCtx.retiring handle now).services.lookup
        j = if j = handle then (s.hosted.services.lookup j).map ServiceCtx.retiring.retire
          else s.hosted.services.lookup j := Hosted.lookup_begin s.hosted handle now j
    change Option.map ServiceCtx.flags
      ((s.hosted.beginServiceWithdrawal ServiceCtx.retiring handle now).services.lookup j) = _
    rw [hlookup]
    split
    · rename_i hj
      subst hj
      have hboth : Option.map ServiceCtx.flags ((s.context j).map ServiceCtx.retiring.retire) =
          (s.flags j).map fun _ => (true, true) := by
        unfold flags
        rw [Option.map_map, Option.map_map]
        rfl
      refine hboth.trans ?_
      rw [hflags]
      rfl
    · rfl
  · rw [hsame]
    split
    · rename_i hj
      subst hj
      cases hf : s.flags j with
      | none => rfl
      | some f =>
        obtain ⟨withdrawing, begun⟩ := f
        cases begun with
        | true => rfl
        | false => exact absurd hf (hflags withdrawing)
    · rfl

theorem Kept.beginServiceWithdrawal (k : Kept s) (handle : ServiceHandle) (now : I) :
    Kept (s.beginServiceWithdrawal handle now) := by
  have hflags := s.flags_begin handle now
  rcases s.begin_cases handle now with ⟨⟨withdrawing, hbefore⟩, hbegun⟩ | ⟨-, hsame⟩
  · rw [hbegun] at hflags ⊢
    have hmirrors := k.mirrors.beginServiceWithdrawal handle now
    constructor
    · exact hmirrors.rostered
    · intro h
      exact Kept.of_mirrors hmirrors h
    · intro h
      obtain ⟨p, hp, hnot, hphase⟩ := k.lived h
      rw [hflags h]
      by_cases hh : h = handle
      · subst hh
        rw [if_pos rfl, hbefore]
        rw [hbefore] at hphase
        cases p with
        | unborn => cases hphase
        | told => exact absurd rfl hnot
        | gone own => cases hphase
        | leaving own => cases hphase
        | live => exact ⟨.leaving false, hp.moved _ _ _ _ .quit, nofun, rfl⟩
        | retired => exact ⟨.leaving true, hp.moved _ _ _ _ .begun, nofun, rfl⟩
      · rw [if_neg hh]
        exact ⟨p, hp.other _ _ (.begun handle) (Ne.symm hh), hnot, hphase⟩
    · intro hshut
      exact absurd hbefore (k.closing hshut handle withdrawing)
  · rw [hsame]
    exact k

theorem Kept.beginEach (k : Kept s) (handles : List ServiceHandle) (now : ServiceHandle → I) :
    Kept (handles.foldl (fun s h => s.beginServiceWithdrawal h (now h)) s) ∧
      ∀ j, (handles.foldl (fun s h => s.beginServiceWithdrawal h (now h)) s).flags j =
        if j ∈ handles then (s.flags j).map fun f => if f.2 then f else (true, true)
        else s.flags j := by
  induction handles generalizing s with
  | nil =>
    refine ⟨k, fun j => ?_⟩
    rw [if_neg List.not_mem_nil]
    rfl
  | cons handle rest ih =>
    obtain ⟨hkept, hflags⟩ := ih (k.beginServiceWithdrawal handle (now handle))
    refine ⟨hkept, fun j => ?_⟩
    rw [List.foldl_cons, hflags, s.flags_begin handle (now handle) j]
    by_cases hj : j = handle
    · rw [if_pos hj, if_pos (List.mem_cons.mpr (.inl hj))]
      split
      · cases hf : s.flags j with
        | none => rfl
        | some f =>
          obtain ⟨withdrawing, begun⟩ := f
          cases begun with
          | true => rfl
          | false => rfl
      · rfl
    · have hmem : j ∈ handle :: rest ↔ j ∈ rest := by
        rw [List.mem_cons]
        exact or_iff_right hj
      simp only [if_neg hj, hmem]

end

def Fitting (s : Services I G R SR EV) : Prop :=
  ∀ h, ∃ p, Lived h s.marks p ∧ p ≠ .told ∧ s.flags h = p.flags

theorem flags_dropContext (s : Services I G R SR EV) (handle j : ServiceHandle) :
    (s.dropContext handle).flags j = if j = handle then none else s.flags j := by
  unfold dropContext
  cases hctx : s.context handle with
  | none =>
    dsimp only
    split
    · rename_i hj
      unfold flags
      rw [hj, hctx, Option.map_none]
    · rfl
  | some ctx =>
    change Option.map ServiceCtx.flags ((s.hosted.services.erase handle).lookup j) = _
    rw [Assoc.lookup_erase]
    split
    · rfl
    · rfl

theorem Fitting.dropContext (hfit : Fitting s) (handle : ServiceHandle)
    (hleft : s.flags handle = none ∨ s.flags handle = some (true, true)) :
    Fitting (s.dropContext handle) := by
  intro h
  obtain ⟨p, hp, hnot, hphase⟩ := hfit h
  rw [s.flags_dropContext handle h]
  cases hctx : s.context handle with
  | none =>
    have hsame : s.dropContext handle = s := by
      unfold Services.dropContext
      rw [hctx]
    rw [hsame]
    refine ⟨p, hp, hnot, ?_⟩
    split
    · rename_i hh
      rw [← hphase, hh]
      unfold flags
      rw [hctx, Option.map_none]
    · exact hphase
  | some ctx =>
    have hmarks : (s.dropContext handle).marks = s.marks ++ [.dropped handle] := by
      unfold Services.dropContext
      rw [hctx]
      rfl
    have hthere : s.flags handle ≠ none := by
      unfold flags
      rw [hctx]
      nofun
    have hboth := hleft.resolve_left hthere
    rw [hmarks]
    by_cases hh : h = handle
    · subst hh
      rw [if_pos rfl]
      rw [hboth] at hphase
      obtain ⟨own, rfl⟩ := Phase.of_leaving (congrArg (Option.map Prod.snd) hphase.symm)
      exact ⟨.gone own, hp.moved _ _ _ _ (.dropped own), nofun, rfl⟩
    · rw [if_neg hh]
      exact ⟨p, hp.other _ _ (.dropped handle) (Ne.symm hh), hnot, hphase⟩

theorem Fitting.dropEach (hfit : Fitting s) (gone : List ServiceHandle)
    (hleft : ∀ h ∈ gone, s.flags h = none ∨ s.flags h = some (true, true)) :
    Fitting (gone.foldl Services.dropContext s) ∧
      (∀ j, (gone.foldl Services.dropContext s).flags j = if j ∈ gone then none else s.flags j) ∧
      (gone.foldl Services.dropContext s).hosted.endpoint = s.hosted.endpoint ∧
      (gone.foldl Services.dropContext s).shuttingDown = s.shuttingDown := by
  induction gone generalizing s with
  | nil =>
    refine ⟨hfit, fun j => ?_, rfl, rfl⟩
    rw [if_neg List.not_mem_nil]
    rfl
  | cons handle rest ih =>
    have hframe : (s.dropContext handle).hosted.endpoint = s.hosted.endpoint ∧
        (s.dropContext handle).shuttingDown = s.shuttingDown := by
      unfold Services.dropContext
      split
      · exact ⟨rfl, rfl⟩
      · exact ⟨rfl, rfl⟩
    have hrest : ∀ h ∈ rest, (s.dropContext handle).flags h = none ∨
        (s.dropContext handle).flags h = some (true, true) := by
      intro h hh
      rw [flags_dropContext]
      split
      · exact .inl rfl
      · exact hleft h (List.mem_cons_of_mem _ hh)
    obtain ⟨hfits, hflags, hendpoint, hshut⟩ :=
      ih (hfit.dropContext handle (hleft handle List.mem_cons_self)) hrest
    refine ⟨hfits, fun j => ?_, hendpoint.trans hframe.1, hshut.trans hframe.2⟩
    rw [List.foldl_cons, hflags, flags_dropContext]
    by_cases hj : j = handle
    · rw [if_pos hj, if_pos (List.mem_cons.mpr (.inl hj)), ite_self]
    · have hmem : j ∈ handle :: rest ↔ j ∈ rest := by
        rw [List.mem_cons]
        exact or_iff_right hj
      simp only [if_neg hj, hmem]

theorem Kept.drainCompleted [ReleasingPool SR] (k : Kept s) (now : I) :
    Kept (s.drainCompleted now) ∧
      ∀ h, (s.drainCompleted now).flags h = none ∨ (s.drainCompleted now).flags h = s.flags h := by
  have hdeparted := Endpoint.drainCompletedWithdrawals_departed s.hosted.endpoint k.rostered now
  unfold Services.drainCompleted
  generalize s.hosted.endpoint.drainCompletedWithdrawals now = drained at hdeparted ⊢
  obtain ⟨endpoint, completed⟩ := drained
  dsimp only
  have hleft : ∀ h ∈ completed.reverse, (s.withEndpoint endpoint).flags h = none ∨
      (s.withEndpoint endpoint).flags h = some (true, true) := by
    intro h hh
    right
    have hstands := hdeparted.leaving h (List.mem_reverse.mp hh)
    rw [← k.paired h] at hstands
    change s.flags h = _
    obtain ⟨p, -, -, hphase⟩ := k.lived h
    rw [hphase] at hstands ⊢
    obtain ⟨own, rfl⟩ := Phase.of_leaving hstands
    rfl
  have hfit : Fitting (s.withEndpoint endpoint) := k.lived
  obtain ⟨hfits, hflags, hendpoint, hshut⟩ := hfit.dropEach completed.reverse hleft
  have hnarrow : ∀ h,
      (completed.reverse.foldl Services.dropContext (s.withEndpoint endpoint)).flags h = none ∨
        (completed.reverse.foldl Services.dropContext (s.withEndpoint endpoint)).flags h =
          s.flags h := by
    intro h
    rw [hflags]
    split
    · exact .inl rfl
    · exact .inr rfl
  refine ⟨⟨?_, ?_, hfits, ?_⟩, hnarrow⟩
  · rw [hendpoint]
    exact hdeparted.rostered
  · intro h
    rw [hflags, hendpoint]
    change _ = endpoint.standing h
    rw [hdeparted.standing, ← k.paired h]
    simp only [List.mem_reverse]
    split
    · rfl
    · rfl
  · intro hclosing h withdrawing
    rcases hnarrow h with hnone | hsame
    · rw [hnone]
      nofun
    · rw [hsame]
      exact k.closing (hshut.symm.trans hclosing) h withdrawing

section
variable [LawfulPool SR]

theorem Kept.registerService (k : Kept s) (hmint : s.hosted.endpoint.Mintable)
    (records : ServiceRecords) (now : I) : Kept (s.registerService records now).1 := by
  unfold Services.registerService
  split
  · exact k
  · rename_i hopen
    have hmirrors := k.mirrors.registerService hmint (.fresh s.txQueue.join.1) rfl records now
    dsimp only
    unfold Hosted.registerService at hmirrors ⊢
    cases hreg : s.hosted.endpoint.tryRegisterService records now with
    | mk endpoint outcome =>
      rw [hreg] at hmirrors
      cases outcome with
      | error err =>
        constructor
        · exact hmirrors.rostered
        · intro h
          exact Kept.of_mirrors (s := s.withEndpoint endpoint) hmirrors h
        · exact k.lived
        · exact k.closing
      | ok handle =>
        obtain ⟨-, hnone, -⟩ := Endpoint.registerOk_standing s.hosted.endpoint endpoint records now
          handle hreg k.rostered hmint
        have hflags : ∀ j, Option.map ServiceCtx.flags
            ((s.hosted.services.insert handle (ServiceCtx.fresh s.txQueue.join.1)).lookup j) =
              if j = handle then some (false, false) else s.flags j := by
          intro j
          rw [Assoc.lookup_insert]
          split
          · rfl
          · rfl
        constructor
        · exact hmirrors.rostered
        · intro h
          exact Kept.of_mirrors (s := { s with hosted := ⟨endpoint, _⟩ }) hmirrors h
        · intro h
          obtain ⟨p, hp, hnot, hphase⟩ := k.lived h
          have hfit : ∃ p', Lived h (s.marks ++ [.registered handle]) p' ∧ p' ≠ .told ∧
              (if h = handle then some (false, false) else s.flags h) = p'.flags := by
            by_cases hh : h = handle
            · subst hh
              rw [if_pos rfl]
              refine ⟨.live, ?_, nofun, rfl⟩
              rw [← k.paired h, hphase] at hnone
              rcases Phase.of_absent hnone with rfl | ⟨own, rfl⟩
              · exact hp.moved _ _ _ _ .born
              · exact hp.moved _ _ _ _ (.reborn own)
            · rw [if_neg hh]
              exact ⟨p, hp.other _ _ (.registered handle) (Ne.symm hh), hnot, hphase⟩
          obtain ⟨p', hp', hnot', hphase'⟩ := hfit
          exact ⟨p', hp', hnot', (hflags h).trans hphase'⟩
        · intro hshut
          exact absurd hshut hopen

theorem Kept.unregisterService (k : Kept s) (handle : ServiceHandle) (now : I) :
    Kept (s.unregisterService handle now) := by
  unfold Services.unregisterService
  cases hctx : s.context handle with
  | none => exact k
  | some ctx =>
    have hkept := k.beginServiceWithdrawal handle now
    have hleaving : (s.beginServiceWithdrawal handle now).flags handle = some (true, true) := by
      rw [flags_begin, if_pos rfl]
      obtain ⟨p, -, -, hphase⟩ := k.lived handle
      have hthere : s.flags handle ≠ none := by
        unfold flags
        rw [hctx]
        nofun
      rw [hphase] at hthere ⊢
      cases p with
      | unborn => exact absurd rfl hthere
      | gone own => exact absurd rfl hthere
      | live => rfl
      | told => rfl
      | retired => rfl
      | leaving own => rfl
    constructor
    · exact hkept.rostered
    · exact hkept.paired
    · intro h
      obtain ⟨p, hp, hnot, hphase⟩ := hkept.lived h
      by_cases hh : h = handle
      · subst hh
        rw [hleaving] at hphase
        obtain ⟨own, rfl⟩ := Phase.of_leaving (congrArg (Option.map Prod.snd) hphase.symm)
        exact ⟨.leaving own, hp.moved _ _ _ _ (.unregistered own), nofun, hleaving⟩
      · exact ⟨p, hp.other _ _ (.unregistered handle) (Ne.symm hh), hnot, hphase⟩
    · exact hkept.closing

end
end Services
end Mio
end Hick
