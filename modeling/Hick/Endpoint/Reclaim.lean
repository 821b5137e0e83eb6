import Hick.Endpoint.Names
import Hick.Endpoint.Titled

/-!
# What a full announcement leaves of the goodbyes for its name (endpoint/withdrawal.rs:583-634)

A service that announces a name in full supersedes the unique records that were given up under it.
-/

namespace Hick
open Octets Wire Respond Runs

namespace Respond.EmittedRecords

def ptrOwners (records : ServiceRecords) (e : EmittedRecords) : List Name :=
  (if e.ptr then [records.serviceType] else []) ++ if e.subtypes then records.subtypes else []

def Within (e other : EmittedRecords) : Prop := ∀ k, e.names k = true → other.names k = true

end Respond.EmittedRecords

open Respond.EmittedRecords

def publishes (serviceType : Name) (subtypes : List Name) (n : Name) : Bool :=
  n.sameOwner serviceType || subtypes.any fun kept => kept.sameOwner n

section
variable {I : Type}

/-- The PTR records of a half at names that a service of this type and with these subtypes does not
publish. -/
def WithdrawalItem.unpublished (w : WithdrawalItem I) (half : EmittedRecords) (serviceType : Name)
    (subtypes : List Name) : List Name :=
  (half.ptrOwners w.records).filter fun n => !publishes serviceType subtypes n

/-- What is left of an item where a service with this type and these subtypes has announced its
name. -/
structure Reclaimed (w : WithdrawalItem I) (serviceType : Name) (subtypes : List Name)
    (w' : WithdrawalItem I) : Prop where
  owned : ∀ f : Family, (f.pick w'.owned).ptrOwners w'.records =
    w.unpublished (f.pick w.owned) serviceType subtypes
  multicast : ∀ f : Family, (f.pick w'.multicast).ptrOwners w'.records =
    w.unpublished (f.pick w.multicast) serviceType subtypes
  onlyPtrs : ∀ (f : Family) (k : RecordKind), (f.pick w'.owned).names k = true ∨
    (f.pick w'.multicast).names k = true → k = .ptr ∨ k = .subtype
  debt : ∀ f : Family, f.pick w'.owed =
    if w.unpublished (f.pick w.owned) serviceType subtypes = [] then 0 else f.pick w.owed
  within : (∀ f : Family, (f.pick w.multicast).Within (f.pick w.owned)) →
    ∀ f : Family, (f.pick w'.multicast).Within (f.pick w'.owned)
  records : ∃ keep : Name → Bool, w'.records = w.records.retainSubtypes keep
  kept : w' = { w with
    records := w'.records
    owned := w'.owned
    multicast := w'.multicast
    owed := w'.owed }

namespace WithdrawalItem

variable (w : WithdrawalItem I)

theorem not_reclaimableFor (name : Name) :
    w.reclaimableFor name = false ↔ w.route.isSome = true ∨ w.holdsName = true ∨
      w.records.instanceName.labels ≠ name.labels := by
  unfold reclaimableFor
  rw [Bool.and_eq_false_iff, Bool.and_eq_false_iff, or_assoc, Bool.not_eq_false', ne_eq,
    ← Name.sameOwner_iff, Bool.not_eq_true]
  have hroute : w.route.isNone = false ↔ w.route.isSome = true := by
    cases w.route with
    | none => exact iff_of_false Bool.noConfusion Bool.noConfusion
    | some handle => exact iff_of_true rfl rfl
  rw [hroute]

theorem type_published (name serviceType : Name)
    (hitem : Registrable w.records) (hname : w.records.instanceName.labels = name.labels)
    (htype : serviceType.isParentOf name = true) :
    w.records.serviceType.labels = serviceType.labels := by
  obtain ⟨l, hl⟩ := (w.records.serviceType.isParentOf_iff _).mp hitem.parent
  obtain ⟨m, hm⟩ := (serviceType.isParentOf_iff _).mp htype
  rw [hname, hm] at hl
  exact (List.cons.inj hl).2.symm

theorem unpublished_eq (half : EmittedRecords) (serviceType : Name)
    (subtypes : List Name) (htype : w.records.serviceType.labels = serviceType.labels) :
    w.unpublished half serviceType subtypes =
      if half.subtypes then
        w.records.subtypes.filter fun sub => !subtypes.any fun kept => kept.sameOwner sub
      else [] := by
  have htypes : (if half.ptr then [w.records.serviceType] else []).filter
      (fun n => !publishes serviceType subtypes n) = [] := by
    rw [List.filter_eq_nil_iff]
    intro n hn
    split at hn
    · rw [List.mem_singleton.mp hn, publishes, (Name.sameOwner_iff _ _).mpr htype, Bool.true_or,
        Bool.not_true]
      exact Bool.false_ne_true
    · cases hn
  have hsubs : ∀ sub ∈ w.records.subtypes, (!publishes serviceType subtypes sub) =
      !subtypes.any fun kept => kept.sameOwner sub := by
    intro sub hsub
    have hne : sub.sameOwner serviceType = false := by
      rw [Bool.eq_false_iff]
      intro heq
      have hlabels := (Name.sameOwner_iff _ _).mp heq
      rw [← htype] at hlabels
      exact w.records.subtype_ne_type sub hsub hlabels
    rw [publishes, hne, Bool.false_or]
  unfold unpublished ptrOwners
  rw [List.filter_append, htypes, List.nil_append]
  split
  · exact List.filter_congr hsubs
  · rfl

theorem narrowed_ptrOwners (half : EmittedRecords) (serviceType : Name)
    (subtypes : List Name) (htype : w.records.serviceType.labels = serviceType.labels) :
    let records := w.records.retainSubtypes fun sub => !subtypes.any (·.sameOwner sub)
    let narrowed := half.keepOnlySharedPtrs (!w.records.serviceType.sameOwner serviceType)
      (!records.subtypes.isEmpty)
    narrowed.ptrOwners records = w.unpublished half serviceType subtypes ∧
      (narrowed.isEmpty = true ↔ w.unpublished half serviceType subtypes = []) := by
  intro records narrowed
  have hsame : w.records.serviceType.sameOwner serviceType = true :=
    (Name.sameOwner_iff _ _).mpr htype
  have hptr : narrowed.ptr = false := by
    show (half.ptr && !w.records.serviceType.sameOwner serviceType) = false
    rw [hsame, Bool.not_true, Bool.and_false]
  have hsubs : narrowed.subtypes = (half.subtypes && !records.subtypes.isEmpty) := rfl
  have hleft : records.subtypes =
      w.records.subtypes.filter fun sub => !subtypes.any fun kept => kept.sameOwner sub := rfl
  have hempty : narrowed.isEmpty = !narrowed.subtypes := by
    show (!narrowed.ptr && !false && !false && !narrowed.subtypes && true && true) = _
    rw [hptr, Bool.and_true, Bool.and_true]
    rfl
  rw [hempty, w.unpublished_eq half serviceType subtypes htype, ← hleft, ptrOwners, hptr, hsubs,
    if_neg Bool.false_ne_true, List.nil_append]
  cases half.subtypes with
  | false => exact ⟨rfl, iff_of_true rfl rfl⟩
  | true =>
    cases hrecords : records.subtypes with
    | nil => exact ⟨rfl, iff_of_true rfl rfl⟩
    | cons sub rest => exact ⟨rfl, iff_of_false Bool.false_ne_true (List.cons_ne_nil sub rest)⟩

theorem narrowed_names (e : EmittedRecords) (typePtr subtypes : Bool) (k : RecordKind) :
    (e.keepOnlySharedPtrs typePtr subtypes).names k = true ↔
      e.names k = true ∧ (k = .ptr ∧ typePtr = true ∨ k = .subtype ∧ subtypes = true) := by
  cases k with
  | ptr => simp [keepOnlySharedPtrs, EmittedRecords.names]
  | subtype => simp [keepOnlySharedPtrs, EmittedRecords.names]
  | _ => simp [keepOnlySharedPtrs, EmittedRecords.names, EmittedRecords.default]

theorem narrowed_within (e other : EmittedRecords) (typePtr subtypes : Bool) (h : e.Within other) :
    (e.keepOnlySharedPtrs typePtr subtypes).Within (other.keepOnlySharedPtrs typePtr subtypes) := by
  intro k hk
  rw [narrowed_names] at hk ⊢
  exact ⟨h k hk.1, hk.2⟩

theorem reclaim_of_reclaimable (name serviceType : Name)
    (subtypes : List Name) (hitem : Registrable w.records)
    (htype : serviceType.isParentOf name = true) (hscope : w.reclaimableFor name = true) :
    (w.reclaim name serviceType subtypes = none ↔ ∀ f : Family, f.pick w.owed = 0 ∨
      w.unpublished (f.pick w.owned) serviceType subtypes = []) ∧
    ∀ w' ∈ w.reclaim name serviceType subtypes, Reclaimed w serviceType subtypes w' := by
  have hname : w.records.instanceName.labels = name.labels := by
    rw [← Name.sameOwner_iff]
    exact (Bool.and_eq_true_iff.mp hscope).2
  have hlabels := w.type_published name serviceType hitem hname htype
  have hhalf := fun half => w.narrowed_ptrOwners half serviceType subtypes hlabels
  have hdebt : ∀ f : Family, f.pick (w.owed.zipWith (fun debt (half : EmittedRecords) =>
      if half.isEmpty then 0 else debt) (w.owned.map fun half => half.keepOnlySharedPtrs
        (!w.records.serviceType.sameOwner serviceType) (!(w.records.retainSubtypes fun sub =>
          !subtypes.any (·.sameOwner sub)).subtypes.isEmpty))) =
      if w.unpublished (f.pick w.owned) serviceType subtypes = [] then 0 else f.pick w.owed := by
    intro f
    rw [Family.pick_zipWith, Family.pick_map]
    exact if_congr (hhalf (f.pick w.owned)).2 rfl rfl
  unfold reclaim
  rw [hscope, Bool.not_true, if_neg Bool.false_ne_true]
  dsimp only
  generalize howed : PerFamily.zipWith (fun debt (half : EmittedRecords) =>
    if half.isEmpty then 0 else debt) w.owed _ = owed at hdebt ⊢
  constructor
  · constructor
    · intro hnone f
      have hzero : owed = .both 0 := by
        by_contra hne
        rw [if_neg hne] at hnone
        cases hnone
      have hf := hdebt f
      rw [hzero, Family.pick_both] at hf
      split at hf
      · rename_i hempty
        exact .inr hempty
      · exact .inl hf.symm
    · intro hall
      have hzero : ∀ f : Family, f.pick owed = 0 := by
        intro f
        rw [hdebt f]
        cases hall f with
        | inl hf => rw [hf, ite_self]
        | inr hf => rw [if_pos hf]
      rw [if_pos]
      have h4 := hzero .v4
      have h6 := hzero .v6
      obtain ⟨o4, o6⟩ := owed
      exact congrArg₂ PerFamily.mk h4 h6
  · intro w' hw'
    by_cases hzero : owed = .both 0
    · rw [if_pos hzero] at hw'
      cases hw'
    · rw [if_neg hzero] at hw'
      cases hw'
      constructor
      · intro f
        rw [Family.pick_map]
        exact (hhalf (f.pick w.owned)).1
      · intro f
        rw [Family.pick_map]
        exact (hhalf (f.pick w.multicast)).1
      · intro f k hk
        rw [Family.pick_map, Family.pick_map] at hk
        rw [narrowed_names, narrowed_names, ← or_and_right] at hk
        cases hk.2 with
        | inl h => exact .inl h.1
        | inr h => exact .inr h.1
      · exact hdebt
      · intro hwithin f
        rw [Family.pick_map, Family.pick_map]
        exact narrowed_within _ _ _ _ (hwithin f)
      · exact ⟨_, rfl⟩
      · rfl

end WithdrawalItem
end

namespace Endpoint
variable {I G R : Type} {SR EV : Type → Type} [Pool SR]

theorem reclaimDetachedGoodbyes_eq (e : Endpoint I G R SR EV) (handle : ServiceHandle)
    (name : Name) (key : Nat) (route : Route I R EV)
    (hroute : (e.routes.find? fun kr => kr.2.handle == handle) = some (key, route)) :
    e.reclaimDetachedGoodbyes handle name =
      { e with withdrawals := e.withdrawals.filterMap fun tw =>
          (tw.2.reclaim name route.serviceType route.subtypes).map fun item => (tw.1, item) } := by
  unfold reclaimDetachedGoodbyes
  split
  · rename_i hnone
    have hall : (e.withdrawals.filterMap fun tw =>
        (tw.2.reclaim name route.serviceType route.subtypes).map fun item => (tw.1, item)) =
        e.withdrawals := by
      rw [List.filterMap_congr (g := some), List.filterMap_some]
      intro tw htw
      have hscope : tw.2.reclaimableFor name = false := by
        rw [Bool.not_eq_true', List.any_eq_false] at hnone
        exact Bool.eq_false_iff.mpr (hnone tw htw)
      rw [WithdrawalItem.reclaim, hscope, Bool.not_false, if_pos rfl, Option.map_some]
    rw [hall]
  · rw [hroute]

/-- The endpoint as an announcement finds it: as it was, or with the confirm settled at a key. -/
inductive Announcing (e : Endpoint I G R SR EV) : Endpoint I G R SR EV → Prop
  | standing : Announcing e e
  | settled (key : Nat) (proto : Service I R EV) :
    Announcing e (e.updateRoute key fun route => Route.mirrorAddrs { route with proto := proto })

variable [Instant I] [SeedSource G] [SeedableRng R] [Pool EV] [LawfulPool SR]

omit [Instant I] [SeedSource G] [SeedableRng R] [Pool EV] in
theorem Announcing.same (e mid : Endpoint I G R SR EV) (h : Announcing e mid) :
    mid.withdrawals = e.withdrawals ∧ ∀ key route, mid.route key = some route →
      ∃ old, e.route key = some old ∧ old.name = route.name ∧
        old.serviceType = route.serviceType := by
  cases h with
  | standing => exact ⟨rfl, fun _ route hroute => ⟨route, hroute, rfl, rfl⟩⟩
  | settled k proto =>
    refine ⟨rfl, fun key route hroute => ?_⟩
    rw [route_updateRoute] at hroute
    split at hroute
    · obtain ⟨old, hold, rfl⟩ := Option.map_eq_some_iff.mp hroute
      exact ⟨old, hold, rfl, rfl⟩
    · exact ⟨route, hroute, rfl, rfl⟩

/-- A service that announces its name in full leaves every goodbye alone that belongs to a service,
keeps its name or is for another name, and leaves of every other the PTR records at the names it
does not publish. -/
theorem reclaim_narrows (e mid : Endpoint I G R SR EV) (h : Reachable machine e)
    (hmid : Announcing e mid) (handle : ServiceHandle) (key : Nat) (route : Route I R EV)
    (hroute : (mid.routes.find? fun kr => kr.2.handle == handle) = some (key, route)) :
    let left := fun w : WithdrawalItem I => w.reclaim route.name route.serviceType route.subtypes
    mid.reclaimDetachedGoodbyes handle route.name =
        { mid with withdrawals := mid.withdrawals.filterMap fun tw =>
            (left tw.2).map fun item => (tw.1, item) } ∧
      ∀ tw ∈ mid.withdrawals,
        (tw.2.route.isSome = true ∨ tw.2.holdsName = true ∨
            tw.2.records.instanceName.labels ≠ route.name.labels → left tw.2 = some tw.2) ∧
        (tw.2.route = none → tw.2.holdsName = false →
          tw.2.records.instanceName.labels = route.name.labels →
            (left tw.2 = none ↔ ∀ f : Family, f.pick tw.2.owed = 0 ∨
              tw.2.unpublished (f.pick tw.2.owned) route.serviceType route.subtypes = []) ∧
            ∀ w' ∈ left tw.2, Reclaimed tw.2 route.serviceType route.subtypes w') := by
  intro left
  refine ⟨mid.reclaimDetachedGoodbyes_eq handle route.name key route hroute, ?_⟩
  obtain ⟨hwithdrawals, hroutes⟩ := hmid.same e mid
  obtain ⟨old, hold, hname, htype⟩ := hroutes key route
    ((mid.mem_routes key route).mp (List.mem_of_find?_eq_some hroute))
  have hparent : route.serviceType.isParentOf route.name = true := by
    rw [← hname, ← htype]
    exact Titled.parent e h key old hold
  intro tw htw
  constructor
  · intro hout
    show tw.2.reclaim route.name route.serviceType route.subtypes = some tw.2
    rw [WithdrawalItem.reclaim, (tw.2.not_reclaimableFor route.name).mpr hout, Bool.not_false,
      if_pos rfl]
  · intro hdetached hfree hname
    have hscope : tw.2.reclaimableFor route.name = true := by
      rw [WithdrawalItem.reclaimableFor, hdetached, hfree, (Name.sameOwner_iff _ _).mpr hname]
      rfl
    exact tw.2.reclaim_of_reclaimable route.name route.serviceType route.subtypes
      ((e.titled_reachable h).items tw (hwithdrawals ▸ htw)) hparent hscope

def printerSubtype : Name :=
  ⟨[95, 120, 46, 95, 115, 117, 98, 46, 95, 112, 46, 108, 111, 99, 97, 108], by decide, by decide⟩

def subtypedPrinter : ServiceRecords :=
  { ServiceRecords.printer with
    subtypes := [printerSubtype]
    subtypesUnder := by
      intro n hn
      rw [List.mem_singleton.mp hn]
      exact ⟨[95, 120], by decide +kernel⟩ }

/-- The printer with a subtype announces, is defeated and renamed; a printer without the subtype
takes the name it has left, and its announcement is on its way. -/
def renamedBack : List (HostCall Uptime) :=
  let rival := { subtypedPrinter with port := 9100 }
  ⟨0, .register subtypedPrinter⟩ ::
    [Session.timer 0, Session.pollAt 0, Session.acceptedAt 0, Session.hearsSrv 0 rival,
      Session.timer 0, Session.timer 0, Session.pollAt 0, Session.acceptedAt 0,
      Session.hearsSrv 0 rival, Session.timer 0].filterMap hostCall ++
    [⟨0, .register ServiceRecords.printer⟩, ⟨0, .serviceTimeout ⟨1⟩⟩,
      ⟨0, .serviceTransmit ⟨1⟩ (List.replicate 512 0)⟩]

def renamedBackAt : Endpoint Uptime ZeroRng ZeroRng Slab Slab :=
  machine.play (tryNew ⟨false, true, 0⟩ ⟨⟩) renamedBack

/-- The confirm of that announcement, as it reaches the goodbyes. -/
def announcedBack : Endpoint Uptime ZeroRng ZeroRng Slab Slab :=
  match renamedBackAt.route 1 with
  | some r => renamedBackAt.updateRoute 1 fun route => Route.mirrorAddrs { route with
      proto := (r.proto.noteTransmitOutcome 0 (.accepted 0) (.accepted 0)).1 }
  | none => renamedBackAt

theorem announcedBack_announcing : Announcing renamedBackAt announcedBack := by
  unfold announcedBack
  split
  · exact .settled 1 _
  · exact .standing

theorem renamedBack_left :
    machine.Admitted (tryNew ⟨false, true, 0⟩ ⟨⟩ : Endpoint Uptime ZeroRng ZeroRng Slab Slab)
        renamedBack ∧
      (announcedBack.routes.find? fun kr => kr.2.handle == ⟨1⟩).map (fun kr =>
        (kr.2.proto.fullyAnnounced, kr.2.name, kr.2.serviceType, kr.2.subtypes)) =
          some (true, ServiceRecords.printerInstance, ServiceRecords.printerType, []) ∧
      announcedBack.withdrawals.map (fun tw => (tw.2.route, tw.2.holdsName,
        tw.2.records.instanceName, tw.2.owned.v4.ptrOwners tw.2.records, tw.2.owed.v4)) =
          [(none, false, ServiceRecords.printerInstance,
            [ServiceRecords.printerType, printerSubtype], 3)] := by
  decide +kernel

theorem renamedBack_reachable : Reachable machine renamedBackAt := by
  have hstart : Run machine [] (tryNew ⟨false, true, 0⟩ ⟨⟩ :
      Endpoint Uptime ZeroRng ZeroRng Slab Slab) := Run.start _ ⟨_, _, rfl⟩
  exact ⟨_, hstart.play machine [] _ renamedBack renamedBack_left.1⟩

theorem subtype_goodbye_stays :
    ∃ tw ∈ announcedBack.withdrawals, ∃ item ∈ tw.2.reclaim ServiceRecords.printerInstance
        ServiceRecords.printerType [],
      tw.2.owned.v4.ptrOwners tw.2.records = [ServiceRecords.printerType, printerSubtype] ∧
        item.owned.v4.ptrOwners item.records = [printerSubtype] ∧ item.owed.v4 = 3 := by
  obtain ⟨-, hfound, hitems⟩ := renamedBack_left
  obtain ⟨⟨key, route⟩, hroute, hdata⟩ := Option.map_eq_some_iff.mp hfound
  simp only [Prod.mk.injEq] at hdata
  obtain ⟨-, hname, htype, hsubs⟩ := hdata
  obtain ⟨-, hnarrows⟩ := reclaim_narrows renamedBackAt announcedBack renamedBack_reachable
    announcedBack_announcing ⟨1⟩ key route hroute
  rw [hname, htype, hsubs] at hnarrows
  obtain ⟨tw, rest, hlist, hfacts, -⟩ := List.map_eq_cons_iff.mp hitems
  have htw : tw ∈ announcedBack.withdrawals := by
    rw [hlist]
    exact List.mem_cons_self
  simp only [Prod.mk.injEq] at hfacts
  obtain ⟨hdetached, hfree, hinstance, howned, hdebt⟩ := hfacts
  obtain ⟨-, hscope⟩ := hnarrows tw htw
  obtain ⟨hgone, hleft⟩ := hscope hdetached hfree (by rw [hinstance])
  have hunpublished : tw.2.unpublished tw.2.owned.v4 ServiceRecords.printerType [] =
      [printerSubtype] := by
    rw [WithdrawalItem.unpublished, howned]
    decide +kernel
  refine ⟨tw, htw, ?_⟩
  cases hitem : tw.2.reclaim ServiceRecords.printerInstance ServiceRecords.printerType [] with
  | none =>
    rcases hgone.mp hitem .v4 with hpaid | hempty
    · rw [show Family.v4.pick tw.2.owed = tw.2.owed.v4 from rfl, hdebt] at hpaid
      cases hpaid
    · rw [show Family.v4.pick tw.2.owned = tw.2.owned.v4 from rfl, hunpublished] at hempty
      cases hempty
  | some item =>
    have hreclaimed := hleft item hitem
    refine ⟨item, rfl, howned, (hreclaimed.owned .v4).trans hunpublished, ?_⟩
    refine (hreclaimed.debt .v4).trans ?_
    rw [show Family.v4.pick tw.2.owned = tw.2.owned.v4 from rfl, hunpublished,
      if_neg (List.cons_ne_nil _ _)]
    exact hdebt

end Endpoint

end Hick
