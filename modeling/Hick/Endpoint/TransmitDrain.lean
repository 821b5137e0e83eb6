import Hick.Endpoint.Queries
import Hick.Endpoint.Run
import Hick.Lib.Dwindle
import Hick.Service.Aside

/-!
# Draining what is due (endpoint/service.rs:699-842, endpoint/query.rs:220-300)

A driver polls a producer and confirms each datagram it is handed, until there is none.
-/

set_option linter.unusedSectionVars false

namespace Hick
open Octets Wire Respond Dwindle

structure Offer (I : Type) where
  at_ : I
  buf : Bytes
  confirmedAt : I
  v4 : FamilyAttempt I
  v6 : FamilyAttempt I

namespace Pending

def len (p : Pending) : Nat := p.first.isSome.toNat + p.second.isSome.toNat

theorem len_pop (p : Pending) (kind : PendingTransmitKind) (h : p.peek = some kind) :
    p.pop.len + 1 = p.len := by
  obtain ⟨first, second⟩ := p
  rw [peek] at h
  subst h
  simp only [pop, len, Option.isSome_some, if_true, Option.isSome_none, Bool.toNat_true,
    Bool.toNat_false]
  omega

end Pending

def Core.backlog {I : Type} (c : Core I) : Nat := c.pendingLegacy.length + c.pendingTransmits.len

theorem ConfirmEffect.backlog {I : Type} [Instant I] {c c' : Core I} {anchor : I}
    {delivery : TransmitDelivery} {advances : Bool} {kind : AwaitingConfirm}
    (h : ConfirmEffect c anchor delivery advances kind c') : c'.backlog = c.backlog := by
  cases h <;> rfl

namespace Service
variable {I R : Type} {EV : Type → Type} [Instant I] [SeedableRng R] [Pool EV]

def backlog (s : Service I R EV) : Nat := s.metaResponseDeadline.isSome.toNat + s.core.backlog

variable (s : Service I R EV)

theorem pollMeta_due (now : I) (buf : Bytes) :
    (s.pollMeta now buf).1.backlog + (s.pollMeta now buf).2.isSome.toNat ≤ s.backlog := by
  unfold pollMeta
  cases hdue : s.metaResponseDeadline with
  | none => exact le_refl _
  | some due =>
    have hspent : ∀ token, ({ s with
        metaResponseDeadline := none
        metaQuestionerSrcs := []
        metaKnownAnswered := none
        awaitingConfirm := token } : Service I R EV).backlog + 1 = s.backlog := by
      intro token
      simp only [Service.backlog, hdue]
      show 0 + s.core.backlog + 1 = 1 + s.core.backlog
      omega
    have hkept := hspent s.awaitingConfirm
    dsimp only
    split
    · exact le_refl _
    · split
      · exact le_trans (Nat.le_succ _) (le_of_eq hkept)
      · split
        · exact le_trans (Nat.le_succ _) (le_of_eq hkept)
        · split
          · exact le_trans (Nat.le_succ _) (le_of_eq hkept)
          · exact le_of_eq (hspent (some .metaResponse))

theorem pollLegacy_due (buf : Bytes) :
    (s.pollLegacy buf).1.backlog + (s.pollLegacy buf).2.isSome.toNat ≤ s.backlog := by
  unfold pollLegacy
  cases hrest : s.pendingLegacy with
  | nil => exact le_refl _
  | cons legacy rest =>
    have hspent : ∀ token, ({ s with
        pendingLegacy := rest
        awaitingConfirm := token } : Service I R EV).backlog + 1 = s.backlog := by
      intro token
      show s.metaResponseDeadline.isSome.toNat + (rest.length + s.pendingTransmits.len) + 1 =
        s.metaResponseDeadline.isSome.toNat + (s.pendingLegacy.length + s.pendingTransmits.len)
      rw [hrest, List.length_cons]
      omega
    dsimp only
    split
    · exact le_refl _
    · split
      · exact le_trans (Nat.le_succ _) (le_of_eq (hspent s.awaitingConfirm))
      · exact le_of_eq (hspent _)

theorem pollQueue_due (now : I) (buf : Bytes) :
    (s.pollQueue now buf).1.backlog + (sentOf (s.pollQueue now buf).2).isSome.toNat ≤ s.backlog := by
  unfold pollQueue
  cases hpeek : s.pendingTransmits.peek with
  | none => exact le_refl _
  | some kind =>
    have hspent : ∀ kas srcs token, ({ s with
        pendingTransmits := s.pendingTransmits.pop
        kas := kas
        questionerSrcs := srcs
        awaitingConfirm := token } : Service I R EV).backlog + 1 = s.backlog := by
      intro kas srcs token
      have hpop := s.pendingTransmits.len_pop kind hpeek
      show s.metaResponseDeadline.isSome.toNat + (s.pendingLegacy.length +
        s.pendingTransmits.pop.len) + 1 = s.metaResponseDeadline.isSome.toNat +
          (s.pendingLegacy.length + s.pendingTransmits.len)
      omega
    dsimp only
    split
    · exact le_refl _
    · cases kind with
      | probe =>
        dsimp only
        split
        · exact le_refl _
        · exact le_of_eq (hspent s.kas s.questionerSrcs _)
      | announcement =>
        dsimp only
        split
        · exact le_refl _
        · exact le_of_eq (hspent s.kas s.questionerSrcs _)
      | response =>
        dsimp only
        split
        · exact le_refl _
        · split
          · exact le_trans (Nat.le_succ _) (le_of_eq (hspent s.kas.drop [] s.awaitingConfirm))
          · exact le_of_eq (hspent s.kas.drop [] _)

theorem pollTransmit_due (now : I) (buf : Bytes) :
    (s.pollTransmit now buf).1.backlog + (sentOf (s.pollTransmit now buf).2).isSome.toNat ≤ s.backlog := by
  unfold pollTransmit
  split
  · exact le_refl _
  · have hmeta := s.pollMeta_due now buf
    generalize s.pollMeta now buf = polled at *
    obtain ⟨s₁, _ | sent⟩ := polled
    · have hlegacy := s₁.pollLegacy_due buf
      dsimp only
      generalize s₁.pollLegacy buf = replied at *
      obtain ⟨s₂, _ | sent⟩ := replied
      · exact le_trans (s₂.pollQueue_due now buf) (le_trans hlegacy hmeta)
      · exact le_trans hlegacy hmeta
    · exact hmeta

theorem deferFirstProbe_due (now : I) (flood : ConflictFlood I) :
    (s.deferFirstProbeUnderFlood now flood).backlog ≤ s.backlog := by
  unfold deferFirstProbeUnderFlood
  split
  · exact le_refl _
  · rename_i h
    simp only [Bool.or_eq_true, not_or, Bool.not_eq_true, bne_eq_false_iff_eq] at h
    obtain ⟨⟨-, hpeek⟩, -⟩ := h
    have hpop := s.pendingTransmits.len_pop _ hpeek
    have hdropped : ∀ deadline, ({ s with
        pendingTransmits := s.pendingTransmits.pop
        lifecycleDeadline := deadline } : Service I R EV).backlog ≤ s.backlog := by
      intro deadline
      show s.metaResponseDeadline.isSome.toNat + (s.pendingLegacy.length +
        s.pendingTransmits.pop.len) ≤ s.metaResponseDeadline.isSome.toNat +
          (s.pendingLegacy.length + s.pendingTransmits.len)
      omega
    split
    · split
      · exact hdropped _
      · exact le_refl _
    · exact hdropped s.lifecycleDeadline

theorem noteTransmitOutcome_due (now : I) (v4 v6 : FamilyAttempt I) :
    (s.noteTransmitOutcome now v4 v6).1.backlog = s.backlog := by
  have hmeta : (s.noteTransmitOutcome now v4 v6).1.metaResponseDeadline = s.metaResponseDeadline :=
    congrArg Prod.snd (s.noteTransmitOutcome_aside now v4 v6)
  have hcore : (s.noteTransmitOutcome now v4 v6).1.core.backlog = s.core.backlog := by
    cases s.noteTransmitOutcome_effect now v4 v6 with
    | inl hidle => rw [hidle.2]
    | inr hsettled =>
      obtain ⟨kind, -, heffect⟩ := hsettled
      exact heffect.backlog
  rw [backlog, backlog, hmeta, hcore]

end Service

section
variable {P : Type → Type} [Pool P] {V : Type} (w : V → Nat)

def poolWeight (p : P V) : Nat :=
  ∑ key ∈ ((Pool.iter p).map Prod.fst).toFinset, ((Pool.get p key).map w).getD 0

variable [LawfulPool P]

theorem mem_keys_iff (p : P V) (key : Nat) :
    key ∈ ((Pool.iter p).map Prod.fst).toFinset ↔ (Pool.get p key).isSome = true := by
  rw [List.mem_toFinset, List.mem_map, Option.isSome_iff_exists]
  constructor
  · rintro ⟨⟨k, v⟩, hmem, rfl⟩
    exact ⟨v, (LawfulPool.mem_iter p k v).mp hmem⟩
  · rintro ⟨v, hv⟩
    exact ⟨(key, v), (LawfulPool.mem_iter p key v).mpr hv, rfl⟩

theorem poolWeight_update (p : P V) (key : Nat) (v : V) (f : V → V) (d : Nat)
    (hv : Pool.get p key = some v) (hd : w (f v) + d ≤ w v) :
    poolWeight w (Pool.update p key f) + d ≤ poolWeight w p := by
  have hget := LawfulPool.get_update p key
  have hkeys : ((Pool.iter (Pool.update p key f)).map Prod.fst).toFinset =
      ((Pool.iter p).map Prod.fst).toFinset := by
    ext j
    rw [mem_keys_iff, mem_keys_iff, hget]
    split
    · rw [Option.isSome_map]
    · exact Iff.rfl
  have hmem : key ∈ ((Pool.iter p).map Prod.fst).toFinset := by
    rw [mem_keys_iff, hv]
    rfl
  rw [poolWeight, poolWeight, hkeys, ← Finset.add_sum_erase _ _ hmem, ← Finset.add_sum_erase _ _ hmem]
  have hrest : ∑ j ∈ ((Pool.iter p).map Prod.fst).toFinset.erase key,
      ((Pool.get (Pool.update p key f) j).map w).getD 0 =
        ∑ j ∈ ((Pool.iter p).map Prod.fst).toFinset.erase key, ((Pool.get p j).map w).getD 0 := by
    apply Finset.sum_congr rfl
    intro j hj
    rw [hget, if_neg (Finset.ne_of_mem_erase hj)]
  rw [hrest, hget, if_pos rfl, hv]
  simp only [Option.map_some, Option.getD_some]
  omega

end

namespace Endpoint
variable {I G R : Type} {SR EV : Type → Type} [Instant I] [SeedSource G] [SeedableRng R]
  [Pool SR] [Pool EV]

def backlog (handle : ServiceHandle) (e : Endpoint I G R SR EV) : Nat :=
  poolWeight (fun route => if route.handle = handle then route.proto.backlog else 0) e.services

def offerService (handle : ServiceHandle) (o : Offer I) (e : Endpoint I G R SR EV) :
    Endpoint I G R SR EV × Bool :=
  match e.pollServiceTransmit handle o.at_ o.buf with
  | (e, .ok (some _)) => ((e.noteServiceTransmitOutcome handle o.confirmedAt o.v4 o.v6).1, true)
  | (e, _) => (e, false)

variable [LawfulPool SR]

variable (handle : ServiceHandle) (e : Endpoint I G R SR EV)

theorem due_updateRoute (key : Nat)
    (route : Route I R EV) (f : Route I R EV → Route I R EV) (d : Nat)
    (hroute : e.route key = some route) (hh : route.handle = handle)
    (hf : (f route).handle = route.handle) (hd : (f route).proto.backlog + d ≤ route.proto.backlog) :
    backlog handle (e.updateRoute key f) + d ≤ backlog handle e := by
  apply poolWeight_update _ e.services key route f d hroute
  rw [hf, if_pos hh, if_pos hh]
  exact hd

theorem pollServiceTransmit_due (now : I)
    (buf : Bytes) : backlog handle (e.pollServiceTransmit handle now buf).1 +
      (sentOf (e.pollServiceTransmit handle now buf).2).isSome.toNat ≤ backlog handle e := by
  rcases e.pollServiceTransmit_cases handle now buf with heq |
    ⟨key, route, -, hroute, hh, -, heq⟩
  · rw [heq]
    exact le_refl _
  · rw [heq]
    have hpoll := (route.proto.deferFirstProbeUnderFlood now e.flood).pollTransmit_due now buf
    exact due_updateRoute handle e key route _ _ hroute hh rfl
      (le_trans hpoll (route.proto.deferFirstProbe_due now e.flood))

theorem drainRenameGoodbye_due (key : Nat)
    (now : I) (route : Route I R EV) (hroute : e.route key = some route)
    (hh : route.handle = handle) : backlog handle (e.drainRenameGoodbye key now) ≤ backlog handle e := by
  unfold drainRenameGoodbye
  simp only [hroute]
  split
  · exact le_refl _
  · rename_i handoff _
    have htake := due_updateRoute handle e key route (fun route =>
      { route with proto := route.proto.takeRenameGoodbyeHandoff.1 }) 0 hroute hh rfl (le_refl _)
    unfold enqueueRenameWithdrawal
    dsimp only
    split
    · exact htake
    · exact htake

theorem reclaimDetachedGoodbyes_services (handle : ServiceHandle)
    (name : Name) : (e.reclaimDetachedGoodbyes handle name).services = e.services := by
  unfold reclaimDetachedGoodbyes
  split
  · rfl
  · split <;> rfl

theorem noteServiceTransmitOutcome_due (now : I)
    (v4 v6 : FamilyAttempt I) :
    backlog handle (e.noteServiceTransmitOutcome handle now v4 v6).1 ≤ backlog handle e := by
  rcases e.noteServiceTransmitOutcome_cases handle now v4 v6 with heq |
    ⟨key, route, mid, -, hroute, hh, hmid, heq⟩
  · rw [heq]
  · have hmirror : backlog handle mid ≤ backlog handle e :=
      hmid ▸ due_updateRoute handle e key route _ 0 hroute hh rfl
        (le_of_eq (route.proto.noteTransmitOutcome_due now v4 v6))
    obtain ⟨settled, hafter, hhost⟩ : ∃ r, mid.route key = some r ∧ r.handle = handle := by
      rw [hmid, route_updateRoute, if_pos rfl, hroute]
      exact ⟨_, rfl, hh⟩
    rw [heq]
    split
    · refine le_trans ?_ hmirror
      refine le_trans (drainRenameGoodbye_due handle _ key now settled ?_ hhost) ?_
      · show Pool.get (Endpoint.reclaimDetachedGoodbyes _ handle _).services key = _
        rw [reclaimDetachedGoodbyes_services]
        exact hafter
      · rw [backlog, reclaimDetachedGoodbyes_services]
        exact le_refl _
    · exact le_trans (drainRenameGoodbye_due handle _ key now settled hafter hhost) hmirror

theorem offerService_spends :
    Spends (offerService handle) (backlog handle : Endpoint I G R SR EV → Nat) := by
  intro o e
  have hpoll := pollServiceTransmit_due handle e o.at_ o.buf
  show backlog handle (e.offerService handle o).1 + (e.offerService handle o).2.toNat ≤ backlog handle e
  unfold offerService
  generalize e.pollServiceTransmit handle o.at_ o.buf = polled at *
  obtain ⟨e', outcome⟩ := polled
  match outcome with
  | .error _ => exact hpoll
  | .ok none => exact hpoll
  | .ok (some sent) =>
    have hnote := noteServiceTransmitOutcome_due handle e' o.confirmedAt o.v4 o.v6
    exact le_trans (Nat.add_le_add_right hnote 1) hpoll

end Endpoint

namespace Query
variable {I : Type} {AN EV : Type → Type} [Instant I] [Pool AN] [Pool EV]

theorem pollTransmit_pending (q : Query I AN EV) (now : I) (buf : Bytes) :
    (q.pollTransmit now buf).1.transmitPending.toNat +
        (sentOf (q.pollTransmit now buf).2).isSome.toNat ≤ q.transmitPending.toNat ∧
      (q.pollTransmit now buf).1.handle = q.handle := by
  unfold pollTransmit
  split
  · exact ⟨le_refl _, rfl⟩
  · rename_i hpending
    simp only [Bool.or_eq_true, not_or, Bool.not_eq_true, Bool.not_eq_false'] at hpending
    split
    · exact ⟨le_refl _, rfl⟩
    · split
      · exact ⟨le_refl _, rfl⟩
      · refine ⟨?_, rfl⟩
        rw [hpending.2]
        exact le_refl _

theorem noteTransmitOutcome_pending (q : Query I AN EV) (now : I) (v4 v6 : FamilyAttempt I) :
    (q.noteTransmitOutcome now v4 v6).1.transmitPending = q.transmitPending ∧
      (q.noteTransmitOutcome now v4 v6).1.handle = q.handle := by
  unfold noteTransmitOutcome
  split
  · exact ⟨rfl, rfl⟩
  · dsimp only
    split
    · exact ⟨rfl, rfl⟩
    · split <;> exact ⟨rfl, rfl⟩

end Query

namespace Queries
variable {I : Type} {QS AN EV : Type → Type} [Instant I] [Pool QS] [Pool AN] [Pool EV]

def backlog (handle : QueryHandle) (e : Queries I QS AN EV) : Nat :=
  poolWeight (fun q => if q.handle = handle then q.transmitPending.toNat else 0) e.queries

def offerQuery (handle : QueryHandle) (o : Offer I) (e : Queries I QS AN EV) :
    Queries I QS AN EV × Bool :=
  match e.pollQueryTransmit handle o.at_ o.buf with
  | (e, .ok (some _)) => ((e.noteQueryTransmitOutcome handle o.confirmedAt o.v4 o.v6).1, true)
  | (e, _) => (e, false)

variable [ReleasingPool QS]

theorem call_due {α : Type} (handle : QueryHandle) (e : Queries I QS AN EV) (absent : α)
    (f : Query I AN EV → Query I AN EV × α) (worth : α → Nat) (habsent : worth absent = 0)
    (hf : ∀ q, (f q).1.transmitPending.toNat + worth (f q).2 ≤ q.transmitPending.toNat ∧
      (f q).1.handle = q.handle) :
    backlog handle (e.call handle absent f).1 + worth (e.call handle absent f).2 ≤ backlog handle e := by
  unfold call
  cases hkey : e.queryKey handle with
  | none =>
    dsimp only
    rw [habsent]
    exact le_refl _
  | some key =>
    obtain ⟨q, hq, hh⟩ := e.queryKey_some handle key hkey
    simp only [hq]
    obtain ⟨hpending, hhandle⟩ := hf q
    apply poolWeight_update _ e.queries key q _ _ hq
    rw [hhandle, if_pos hh, if_pos hh]
    exact hpending

theorem offerQuery_spends (handle : QueryHandle) :
    Spends (offerQuery handle) (backlog handle : Queries I QS AN EV → Nat) := by
  intro o e
  have hpoll := call_due handle e (.ok none) (fun q => q.pollTransmit o.at_ o.buf)
    (fun outcome => (sentOf outcome).isSome.toNat) rfl fun q => q.pollTransmit_pending o.at_ o.buf
  change backlog handle (e.pollQueryTransmit handle o.at_ o.buf).1 +
    (sentOf (e.pollQueryTransmit handle o.at_ o.buf).2).isSome.toNat ≤ _ at hpoll
  show backlog handle (e.offerQuery handle o).1 + (e.offerQuery handle o).2.toNat ≤ backlog handle e
  unfold offerQuery
  generalize e.pollQueryTransmit handle o.at_ o.buf = polled at *
  obtain ⟨e', outcome⟩ := polled
  match outcome with
  | .error _ => exact hpoll
  | .ok none => exact hpoll
  | .ok (some sent) =>
    have hnote := call_due handle e' .nothing
      (fun q => q.noteTransmitOutcome o.confirmedAt o.v4 o.v6) (fun _ => 0) rfl fun q => by
        obtain ⟨hpending, hhandle⟩ := q.noteTransmitOutcome_pending o.confirmedAt o.v4 o.v6
        rw [hpending]
        exact ⟨le_refl _, hhandle⟩
    exact le_trans (Nat.add_le_add_right hnote 1) hpoll

end Queries

/-- Draining ends, from every state of the services and the queries, whatever is confirmed and at
whatever instants: a service hands out no more than its owed replies and its queued datagrams, and a
query no more than the question it has pending. -/
theorem transmit_drain_ends {I G R : Type} {SR EV QS AN EvQ : Type → Type} [Instant I]
    [SeedSource G] [SeedableRng R] [Pool SR] [Pool EV] [Pool QS] [Pool AN] [Pool EvQ]
    [LawfulPool SR] [ReleasingPool QS] (offers : ℕ → Offer I) :
    (∀ (e : Endpoint I G R SR EV) (handle : ServiceHandle),
      {n | yields (Endpoint.offerService handle) offers e n = true}.Finite ∧
        {n | yields (Endpoint.offerService handle) offers e n = true}.ncard ≤ Endpoint.backlog handle e) ∧
      ∀ (e : Queries I QS AN EvQ) (handle : QueryHandle),
        {n | yields (Queries.offerQuery handle) offers e n = true}.Finite ∧
          {n | yields (Queries.offerQuery handle) offers e n = true}.ncard ≤ Queries.backlog handle e :=
  ⟨fun e handle => (Endpoint.offerService_spends handle).finite _ _ offers e,
    fun e handle => (Queries.offerQuery_spends handle).finite _ _ offers e⟩

def probingPrinter : Endpoint Uptime ZeroRng ZeroRng Slab Slab :=
  (((Endpoint.tryNew ⟨true, true, 0⟩ ⟨⟩ : Endpoint Uptime ZeroRng ZeroRng Slab Slab).next
    ⟨0, .register ServiceRecords.printer⟩).next ⟨0, .serviceTimeout ⟨0⟩⟩).next
      ⟨0, .serviceTimeout ⟨0⟩⟩

def takenOffer : Offer Uptime := ⟨0, List.replicate 512 0, 0, .accepted 0, .noSocket⟩

theorem printer_drain_ends :
    yields (Endpoint.offerService ⟨0⟩) (fun _ => takenOffer) probingPrinter 0 = true ∧
      {n | yields (Endpoint.offerService ⟨0⟩) (fun _ => takenOffer) probingPrinter n =
        true}.ncard ≤ 1 := by
  have hdue : Endpoint.backlog ⟨0⟩ probingPrinter = 1 := by decide +kernel
  have hdrain := (@transmit_drain_ends Uptime ZeroRng ZeroRng Slab Slab Slab Slab Slab _ _ _ _ _ _ _
    _ _ _ fun _ => takenOffer).1 probingPrinter ⟨0⟩
  rw [hdue] at hdrain
  exact ⟨by decide +kernel, hdrain.2⟩

end Hick
