import Hick.Endpoint.Items
import Hick.Routing.OwnEcho
import Hick.Service.Aside
import Hick.Service.WindowEnd

/-!
# Names stand under their service types (endpoint/service.rs:258-279, service/mod.rs:2302-2345)

Registration checks that a name stands directly under its type, and a rename replaces its first
label only.
-/

namespace Hick
open Octets Wire Respond Runs

theorem AwaitingConfirm.demoted_oldName (renamedFrom : Option ServiceRecords)
    (kind : AwaitingConfirm) (fact : StaleWireFact) (old : ServiceRecords)
    (emitted : EmittedRecords) (cls : SendClass)
    (h : kind.demoted renamedFrom = .stale fact (.oldName old emitted cls)) :
    renamedFrom = some old ∨ kind = .stale fact (.oldName old emitted cls) := by
  cases kind with
  | probe => cases h
  | announcement e =>
    cases renamedFrom with
    | none => cases h
    | some records =>
      cases h
      exact .inl rfl
  | response e c =>
    cases renamedFrom with
    | none => cases h
    | some records =>
      cases h
      exact .inl rfl
  | metaResponse => cases h
  | stale f records =>
    cases records with
    | none => cases h
    | sameName e c =>
      cases renamedFrom with
      | none => cases h
      | some records =>
        cases h
        exact .inl rfl
    | oldName records e c =>
      cases h
      exact .inr rfl

section
variable {I : Type}

structure Core.Titled (c : Core I) : Prop where
  records : Registrable c.records
  flight : ∀ fact old emitted cls,
    c.awaitingConfirm = some (.stale fact (.oldName old emitted cls)) → Registrable old

variable (c c' : Core I)

theorem Core.Titled.same (h : c.Titled) (hrecords : c'.records = c.records)
    (hflight : c'.awaitingConfirm = c.awaitingConfirm) : c'.Titled := by
  constructor
  · rw [hrecords]
    exact h.records
  · rw [hflight]
    exact h.flight

theorem Core.Titled.demoted (h : c.Titled) (hrecords : Registrable c'.records)
    (renamedFrom : Option ServiceRecords) (hfrom : ∀ old, renamedFrom = some old → Registrable old)
    (hflight : c'.awaitingConfirm = c.awaitingConfirm.map (·.demoted renamedFrom)) :
    c'.Titled := by
  refine ⟨hrecords, fun fact old emitted cls hk => ?_⟩
  rw [hflight] at hk
  obtain ⟨kind, hkind, hdemoted⟩ := Option.map_eq_some_iff.mp hk
  rcases kind.demoted_oldName renamedFrom fact old emitted cls hdemoted with hold | rfl
  · exact hfrom old hold
  · exact h.flight fact old emitted cls hkind

theorem Core.Titled.sending (h : c.Titled) (token : AwaitingConfirm)
    (hrecords : c'.records = c.records) (hflight : c'.awaitingConfirm = some token)
    (hname : token.underOldName = false) : c'.Titled := by
  constructor
  · rw [hrecords]
    exact h.records
  · intro fact old emitted cls hk
    rw [hflight] at hk
    cases hk
    cases hname

variable [Instant I]

theorem Core.Titled.event (event : ServiceEvent) (now : I) (h : c.Titled)
    (heff : EventEffect c event now c') : c'.Titled := by
  cases heff with
  | restarted hs deadline => exact h.demoted c _ h.records none (fun _ hold => by cases hold) rfl
  | quiet => exact h
  | lost _ => exact h.same c _ rfl rfl
  | defeated _ _ => exact h.same c _ rfl rfl
  | owed _ _ _ => exact h.same c _ rfl rfl
  | asked _ _ _ _ => exact h.same c _ rfl rfl
  | known _ _ _ _ => exact h.same c _ rfl rfl

theorem Core.Titled.ticks (now : I) (flood : ConflictFlood I) (fired : Bool) (c c' : Core I)
    (h : c.Titled) (hticks : Ticks now flood fired c c') : c'.Titled := by
  induction hticks with
  | refl => exact h
  | tail _ hmove ih => cases hmove <;> exact ih.same _ _ rfl rfl

theorem Core.Titled.timeout (now : I) (flood : ConflictFlood I) (h : c.Titled)
    (heff : TimeoutEffect c now flood c') : c'.Titled := by
  cases heff with
  | waited hd hl => exact h.demoted c _ h.records none (fun _ hold => by cases hold) rfl
  | renamed hd name hname deadline =>
    refine h.demoted c _ (Registrable.renamed _ name h.records hname) (some c.records) ?_ rfl
    rintro old ⟨rfl⟩
    exact h.records
  | gaveUp hd =>
    refine h.demoted c _ h.records (some c.records) ?_ rfl
    rintro old ⟨rfl⟩
    exact h.records
  | ticked hl _ hticks =>
    exact Core.Titled.ticks _ _ _ _ _ (h.same c { c with kas := c.kas.expire now } rfl rfl) hticks

theorem Core.Titled.defer (now : I) (flood : ConflictFlood I) (h : c.Titled)
    (heff : DeferEffect c now flood c') : c'.Titled := by
  cases heff with
  | none => exact h
  | dropped _ _ _ => exact h.same c _ rfl rfl

theorem Core.Titled.poll (now : I) (buf : Bytes) (sent : Option Sent)
    (h : c.Titled) (heff : PollEffect c now buf c' sent) : c'.Titled := by
  cases heff with
  | silent legacy ho => exact h.same c _ rfl rfl
  | metaReply ht metaName hm msg he => exact h.sending c _ .metaResponse rfl rfl rfl
  | legacyReply ht hl legacy rest ho msg token he =>
    refine h.sending c _ token rfl rfl ?_
    unfold Service.encodeLegacy at he
    split at he
    · split at he <;> cases he
      rfl
    · split at he <;> cases he
      rfl
  | probe ht hl legacy ho hp msg he => exact h.sending c _ .probe rfl rfl rfl
  | announcement ht hl legacy ho hp msg nsec he => exact h.sending c _ _ rfl rfl rfl
  | response ht hl legacy ho hp msg emitted he hne => exact h.sending c _ _ rfl rfl rfl
  | drained ht hl legacy ho hp msg emitted he hne => exact h.same c _ rfl rfl

end

namespace Service
variable {I R : Type} {EV : Type → Type}

/-- The records of the goodbye of a former name are titled too. -/
structure Titled (s : Service I R EV) : Prop where
  core : s.core.Titled
  handoff : ∀ h, s.renameGoodbyeHandoff = some h → Registrable h.records

variable (s : Service I R EV)

theorem Titled.handedOver (h : s.Titled) :
    s.takeRenameGoodbyeHandoff.1.Titled := ⟨h.core, fun _ hh => by cases hh⟩

theorem kept_handoff (s s' : Service I R EV) (h : s'.kept = s.kept) :
    s'.renameGoodbyeHandoff = s.renameGoodbyeHandoff :=
  congrArg (fun kept => kept.2.2.2.2) h

theorem Titled.rewound (s s' : Service I R EV) (h : s.Titled) (hrewound : s.Rewound s')
    (off : RenameGoodbyeHandoff) (hoff : s'.renameGoodbyeHandoff = some off) :
    Registrable off.records := by
  rcases hrewound.handoff off hoff with hold | hrecords
  · exact h.handoff off hold
  · rw [hrecords]
    exact h.core.records

theorem Titled.quiesced (h : s.Titled) : s.quiesceForWithdrawal.Titled :=
  ⟨h.core.same _ _ rfl rfl, h.handoff⟩

variable [Instant I] [SeedableRng R] [Pool EV]

theorem Titled.fresh (records : ServiceRecords) (now : I) (seed : Bytes) (probe reAnnounce : Bool)
    (flood : ConflictFlood I) (h : Registrable records) :
    (tryNew records now seed probe reAnnounce flood : Service I R EV).Titled :=
  ⟨⟨h, fun _ _ _ _ hk => by cases hk⟩, fun _ hh => by cases hh⟩

theorem Titled.event (h : s.Titled) (event : ServiceEvent) (now : I)
    (flood : ConflictFlood I) : (s.handleEvent event now flood).1.Titled := by
  refine ⟨h.core.event _ _ event now (s.handleEvent_effect event now flood), fun off hoff => ?_⟩
  rcases s.handleEvent_claimed event now flood with hsame | hrewound
  · rw [kept_handoff _ _ (congrArg Prod.fst hsame)] at hoff
    exact h.handoff off hoff
  · exact h.rewound s _ hrewound off hoff

theorem Titled.timeout (h : s.Titled) (now : I) (flood : ConflictFlood I)
    (taken : NamesInUse) : (s.handleTimeout now flood taken).1.Titled := by
  refine ⟨h.core.timeout _ _ now flood (s.handleTimeout_effect now flood taken),
    fun off hoff => ?_⟩
  rcases s.handleTimeout_kept now flood taken with hrewound | ⟨-, hkept⟩
  · exact h.rewound s _ hrewound off hoff
  · rw [kept_handoff _ _ hkept] at hoff
    exact h.handoff off hoff

theorem Titled.polled (h : s.Titled) (now : I) (flood : ConflictFlood I)
    (buf : Bytes) : (s.pollDeferred now flood buf).1.Titled := by
  constructor
  · have hdefer := h.core.defer _ _ now flood (s.deferFirstProbe_effect now flood)
    exact hdefer.poll _ _ now buf _
      ((s.deferFirstProbeUnderFlood now flood).pollTransmit_effect now buf)
  · rw [kept_handoff _ _ (s.pollDeferred_kept now flood buf)]
    exact h.handoff

theorem Titled.updated (h : s.Titled) : s.poll.1.Titled := by
  constructor
  · rw [poll_core]
    exact h.core
  · rw [kept_handoff _ _ (congrArg Prod.fst s.poll_claimed)]
    exact h.handoff

theorem Titled.confirmed (h : s.Titled) (now : I) (v4 v6 : FamilyAttempt I) :
    (s.noteTransmitOutcome now v4 v6).1.Titled := by
  constructor
  · rcases s.noteTransmitOutcome_effect now v4 v6 with ⟨-, hsame⟩ | ⟨kind, -, heff⟩
    · rw [hsame]
      exact h.core
    · constructor
      · have hrecords := s.noteTransmitOutcome_records now v4 v6
        change Registrable (s.noteTransmitOutcome now v4 v6).1.records
        rw [hrecords]
        exact h.core.records
      · intro fact old emitted cls hk
        generalize (s.noteTransmitOutcome now v4 v6).1.core = c' at heff hk
        cases heff <;> cases hk
  · intro off hoff
    rcases s.noteTransmitOutcome_handoff now v4 v6 off hoff with
      ⟨old, hold, hrecords⟩ | ⟨fact, emitted, cls, hk⟩
    · rw [hrecords]
      exact h.handoff old hold
    · exact h.core.flight fact off.records emitted cls hk

end Service

namespace Endpoint
variable {I G R : Type} {SR EV : Type → Type}

structure TitledRoute (r : Route I R EV) : Prop where
  proto : r.proto.Titled
  serviceType : r.serviceType = r.proto.records.serviceType

variable [Instant I] [Pool SR]

theorem ItemMove.registrable (e : Endpoint I G R SR EV) (c : HostCall I) (token : WithdrawalToken)
    (w w' : WithdrawalItem I) (h : ItemMove e c token w w') (hw : Registrable w.records) :
    Registrable w'.records := by
  rcases (h.records e c token w w').1 with hsame | ⟨keep, hsame⟩
  · rw [hsame]
    exact hw
  · rw [hsame]
    exact ⟨hw.ttl, hw.serviceType, hw.parent⟩

variable [SeedableRng R] [Pool EV]

theorem TitledRoute.moved (e : Endpoint I G R SR EV) (c : HostCall I) (key : Nat)
    (r r' : Route I R EV) (h : TitledRoute r) (hmove : RouteMove e c key r r') :
    TitledRoute r' := by
  cases hmove with
  | kept => exact h
  | event event hc =>
    exact ⟨h.proto.event r.proto event c.now e.flood, by
      rw [h.serviceType, Service.handleEvent_records]⟩
  | timeout handle hc hkey hw =>
    have htitled := h.proto.timeout r.proto c.now e.flood (e.renameScratch key r)
    have heff := r.proto.handleTimeout_effect c.now e.flood (e.renameScratch key r)
    generalize (r.proto.handleTimeout c.now e.flood (e.renameScratch key r)).1 = proto
      at htitled heff ⊢
    have htype : proto.core.records.serviceType = r.proto.core.records.serviceType := by
      generalize proto.core = c' at heff
      cases heff with
      | waited hd hl => rfl
      | renamed hd name hname deadline => rfl
      | gaveUp hd => rfl
      | ticked hl _ hticks => rw [ticks_records _ _ _ _ _ hticks]
    have hroute : (Route.mirrorName { r with proto := proto }).serviceType = r.serviceType := by
      unfold Route.mirrorName
      split <;> rfl
    constructor
    · rw [Route.handedOver, mirrorName_proto]
      exact htitled.handedOver proto
    · rw [Route.handedOver, mirrorName_proto]
      exact hroute.trans (h.serviceType.trans htype.symm)
  | polled handle buf hc hkey hw =>
    exact ⟨h.proto.polled r.proto c.now e.flood buf, by
      rw [h.serviceType, Service.pollDeferred_records]⟩
  | confirmed handle v4 v6 hc hkey =>
    refine ⟨(h.proto.confirmed r.proto c.now v4 v6).handedOver _, ?_⟩
    have hrecords := r.proto.noteTransmitOutcome_records c.now v4 v6
    exact h.serviceType.trans (congrArg ServiceRecords.serviceType hrecords.symm)
  | updated handle hc hkey =>
    exact ⟨h.proto.updated r.proto, by rw [h.serviceType, Service.poll_records]⟩
  | drained hc => exact ⟨h.proto.handedOver r.proto, h.serviceType⟩
  | withdrawn hc r' hr =>
    rcases hr with rfl | rfl
    · exact ⟨h.proto.quiesced _, h.serviceType⟩
    · exact ⟨(h.proto.handedOver r.proto).quiesced _, h.serviceType⟩

omit [Pool SR] in
theorem HandsOver.titled (e : Endpoint I G R SR EV) (c : HostCall I) (s s' : Service I R EV)
    (h : s.Titled) (hserved : HandsOver e c s s') : s'.Titled := by
  cases hserved with
  | untouched => exact h
  | timeout taken => exact h.timeout s c.now e.flood taken
  | confirmed v4 v6 => exact h.confirmed s c.now v4 v6

variable [SeedSource G]

/-- The services and the goodbyes of an endpoint have names that stand under their types. -/
structure Titled (e : Endpoint I G R SR EV) : Prop where
  routes : ∀ key r, e.route key = some r → TitledRoute r
  items : ∀ tw ∈ e.withdrawals, Registrable tw.2.records

theorem next_titled [LawfulPool SR] (e : Endpoint I G R SR EV) (c : HostCall I) (h : e.Titled) :
    (e.next c).Titled := by
  constructor
  · intro key r hr
    cases hbefore : e.route key with
    | none =>
      obtain ⟨records, hcall, -, seed, rfl⟩ := e.next_fills c key r hbefore hr
      have hregistered := e.fills_registered c key _ hbefore hr
      exact ⟨.fresh _ _ _ _ _ _ hregistered.registrable, rfl⟩
    | some old =>
      rcases e.next_moves c key old hbefore with ⟨r', hr', hmoved⟩ | ⟨hnone, -⟩
      · rw [hr] at hr'
        cases hr'
        exact (h.routes key old hbefore).moved e c key old r hmoved
      · rw [hnone] at hr
        cases hr
  · intro tw htw
    rcases e.next_items c tw htw with ⟨w, hw, hmove⟩ | hnew
    · exact hmove.registrable e c tw.1 w tw.2 (h.items (tw.1, w) hw)
    · obtain ⟨token, item⟩ := tw
      dsimp only at hnew ⊢
      cases hnew with
      | handedOff key r old hr hbefore s hserved handoff hoff =>
        exact (hserved.titled e c old.proto s (h.routes key old hbefore).proto).handoff handoff hoff
      | departed handle hc key old hbefore snapshot hsnap =>
        change Registrable snapshot.records
        rw [hsnap]
        exact (h.routes key old hbefore).proto.core.records

theorem titled_reachable [LawfulPool SR] (e : Endpoint I G R SR EV) (h : Reachable machine e) :
    e.Titled := by
  apply Reachable.invariant machine Titled _ _ e h
  · rintro e ⟨config, rng, rfl⟩
    constructor
    · intro key r hr
      rw [tryNew_route] at hr
      cases hr
    · intro tw htw
      cases htw
  · intro e c hinv _
    exact e.next_titled c hinv

theorem Titled.parent [LawfulPool SR] (e : Endpoint I G R SR EV) (h : Reachable machine e)
    (key : Nat) (r : Route I R EV) (hr : e.route key = some r) :
    r.serviceType.isParentOf r.name = true := by
  have htitled := (e.titled_reachable h).routes key r hr
  have hmirrors := mirrors_reachable e h key r hr
  obtain ⟨l, hl⟩ := (Name.isParentOf_iff _ _).mp htitled.proto.core.records.parent
  refine (Name.isParentOf_iff _ _).mpr ⟨l, ?_⟩
  rw [hmirrors.name, htitled.serviceType]
  exact hl

end Endpoint
end Hick
