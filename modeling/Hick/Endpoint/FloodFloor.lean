import Hick.Endpoint.Moves
import Hick.Service.WindowEnd

/-!
# The flood's floor at the poll (service/mod.rs:3100-3170, 4862-4907, endpoint/service.rs:699-719)

While the flood is in force a poll takes a first probe off the queue before it looks at the queue.
-/

set_option linter.unusedSectionVars false

namespace Hick
open Octets Wire Respond Runs

theorem metaReply_responds (records : ServiceRecords) (metaName : Name) (buf : Bytes)
    (msg : Message) (h : writeMetaResponse records metaName buf = .ok (msg, ())) :
    msg.header.flags.isResponse = true := by
  have hspec := writeMetaResponse_spec records (metaName :: ownNames records)
    (fun _ h => List.mem_cons_of_mem _ h) metaName List.mem_cons_self buf msg h
  rw [hspec.flags]
  decide

theorem Pending.two_of_pop (p : Pending) (h : p.peek = some .probe)
    (hpop : p.pop.peek = some .probe) : p = ⟨some .probe, some .probe⟩ := by
  obtain ⟨first, second⟩ := p
  have hfirst : first = some .probe := h
  subst hfirst
  have hsecond : second = some .probe := hpop
  rw [hsecond]

namespace Service
variable {I R : Type} {EV : Type → Type} [Instant I] [SeedableRng R] [Pool EV]

def EnumerationGoes (s : Service I R EV) (now : I) (buf : Bytes) : Prop :=
  ∃ due metaName msg, s.metaResponseDeadline = some due ∧ due ≤ now ∧
    s.metaSuppressed now = false ∧ Name.tryFromStr dnsSdMetaQueryName = .ok metaName ∧
    writeMetaResponse s.records metaName buf = .ok (msg, ())

def LegacyGoes (s : Service I R EV) (buf : Bytes) : Prop :=
  ∃ legacy rest reply, s.pendingLegacy = legacy :: rest ∧
    encodeLegacy s.records legacy buf = .ok reply

def ProbeFits (s : Service I R EV) (buf : Bytes) : Prop :=
  ∃ msg, writeProbe s.records buf = .ok (msg, ())

variable (s : Service I R EV)

theorem pollMeta_goes (now : I) (buf : Bytes)
    (h : s.EnumerationGoes now buf) :
    ∃ msg, (s.pollMeta now buf).2 = some (Sent.stamped .metaResponse multicastDst msg) ∧
      msg.header.flags.isResponse = true := by
  obtain ⟨due, metaName, msg, hdue, hle, hsup, hname, hmsg⟩ := h
  refine ⟨msg, ?_, metaReply_responds s.records metaName buf msg hmsg⟩
  have hfits : writeMetaResponse { s with
      metaResponseDeadline := none
      metaQuestionerSrcs := []
      metaKnownAnswered := none }.records metaName buf = .ok (msg, ()) := hmsg
  unfold pollMeta
  simp only [hdue, if_neg (not_lt.mpr hle), hsup, Bool.false_eq_true, if_false, hname, hfits]
  rfl

theorem pollMeta_stays (now : I) (buf : Bytes)
    (h : ¬s.EnumerationGoes now buf) :
    (s.pollMeta now buf).2 = none ∧
      (s.pollMeta now buf).1.pendingLegacy = s.pendingLegacy ∧
      (s.pollMeta now buf).1.records = s.records ∧
      (s.pollMeta now buf).1.core = s.core := by
  rcases s.pollMeta_effect now buf with ⟨hnone, hcore⟩ | ⟨metaName, msg, hname, hmsg, hsent, -⟩
  · exact ⟨hnone, congrArg Core.pendingLegacy hcore, congrArg Core.records hcore, hcore⟩
  · exfalso
    apply h
    unfold pollMeta at hsent
    split at hsent
    · cases hsent
    · rename_i due hdue
      split at hsent
      · cases hsent
      · rename_i hle
        dsimp only at hsent
        split at hsent
        · cases hsent
        · rename_i hsup
          exact ⟨due, metaName, msg, hdue, not_lt.mp hle, Bool.eq_false_iff.mpr hsup, hname, hmsg⟩

theorem pollLegacy_goes (buf : Bytes)
    (hl : s.conflictClassifiedUnresolved = false) (h : s.LegacyGoes buf) :
    ∃ d, (s.pollLegacy buf).2 = some d ∧ d.message.header.flags.isResponse = true := by
  obtain ⟨legacy, rest, ⟨msg, token⟩, hrest, hreply⟩ := h
  refine ⟨Sent.stamped token legacy.dst msg, ?_,
    encodeLegacy_responds s.records legacy buf msg token hreply⟩
  unfold pollLegacy
  simp only [hrest, hl, Bool.false_eq_true, if_false, hreply]
  rfl

theorem pollLegacy_stays (buf : Bytes) (h : ¬s.LegacyGoes buf) :
    (s.pollLegacy buf).2 = none ∧ ∃ legacy, s.core.Owed legacy ∧
      (s.pollLegacy buf).1.core = { s.core with pendingLegacy := legacy } := by
  rcases s.pollLegacy_effect buf with hstays | ⟨legacy, rest, msg, token, -, hrest, hreply, -, -⟩
  · exact hstays
  · exact absurd ⟨legacy, rest, (msg, token), hrest, hreply⟩ h

/-- The flood is in force, no probe is out, and the floor under the first one lies ahead, on the
clock or past its end. -/
structure Floored (s : Service I R EV) (now : I) (flood : ConflictFlood I) : Prop where
  inForce : flood.inForce now = true
  unsent : s.probeOnWire = false
  ahead : ∀ floor, s.backoffFloor now flood = some floor → now < floor

/-- A second probe waits behind the first, and nothing else is due to be sent before it. -/
structure SecondProbeGoes (s : Service I R EV) (now : I) (buf : Bytes) : Prop where
  two : s.pendingTransmits = ⟨some .probe, some .probe⟩
  free : s.awaitingConfirm = none
  unlatched : s.conflictClassifiedUnresolved = false
  noEnumeration : ¬s.EnumerationGoes now buf
  noLegacy : ¬s.LegacyGoes buf
  fits : s.ProbeFits buf

theorem pollTransmit_probe (now : I) (buf : Bytes)
    (hfree : s.awaitingConfirm = none) (hl : s.conflictClassifiedUnresolved = false)
    (hmeta : ¬s.EnumerationGoes now buf) (hlegacy : ¬s.LegacyGoes buf) (hfits : s.ProbeFits buf)
    (hp : s.pendingTransmits.peek = some .probe) :
    ∃ d, sentOf (s.pollTransmit now buf).2 = some d ∧
      d.message.header.flags.isResponse = false := by
  obtain ⟨msg, hmsg⟩ := hfits
  have hidle : ¬s.awaitingConfirm.isSome = true := by
    rw [hfree]
    exact Bool.false_ne_true
  refine ⟨Sent.stamped .probe multicastDst msg, ?_,
    (probe_asserts_nothing s.records buf msg hmsg).1⟩
  unfold pollTransmit
  rw [if_neg hidle]
  obtain ⟨hnone, hpending, hrecords, hcore⟩ := s.pollMeta_stays now buf hmeta
  generalize s.pollMeta now buf = polled at hnone hpending hrecords hcore ⊢
  obtain ⟨s₁, sent⟩ := polled
  dsimp only at hnone hpending hrecords hcore
  subst hnone
  dsimp only
  have hlegacy₁ : ¬s₁.LegacyGoes buf := by
    unfold LegacyGoes
    rw [hpending, hrecords]
    exact hlegacy
  obtain ⟨hnone, legacy, -, hcore₂⟩ := s₁.pollLegacy_stays buf hlegacy₁
  generalize s₁.pollLegacy buf = polled at hnone hcore₂ ⊢
  obtain ⟨s₂, sent⟩ := polled
  dsimp only at hnone hcore₂
  subst hnone
  dsimp only
  rw [hcore] at hcore₂
  have hpeek₂ : s₂.pendingTransmits.peek = some .probe := by
    rw [show s₂.pendingTransmits = s.pendingTransmits from congrArg Core.pendingTransmits hcore₂]
    exact hp
  have hl₂ : s₂.conflictClassifiedUnresolved = false := by
    change s₂.core.latched = false
    rw [hcore₂]
    exact hl
  have hmsg₂ : writeProbe s₂.records buf = .ok (msg, ()) := by
    rw [show s₂.records = s.records from congrArg Core.records hcore₂]
    exact hmsg
  unfold pollQueue
  simp only [hpeek₂, hl₂, Bool.false_eq_true, if_false, hmsg₂]
  rfl

theorem pollTransmit_query (now : I) (buf : Bytes) (d : Sent)
    (hd : sentOf (s.pollTransmit now buf).2 = some d)
    (hquery : d.message.header.flags.isResponse = false) :
    s.awaitingConfirm = none ∧ s.conflictClassifiedUnresolved = false ∧
      s.pendingTransmits.peek = some .probe ∧ ¬s.EnumerationGoes now buf ∧ ¬s.LegacyGoes buf ∧
      s.ProbeFits buf := by
  have heff := s.pollTransmit_effect now buf
  rw [hd] at heff
  obtain ⟨hl, hp⟩ := heff.query _ _ _ _ _ hquery
  have hfree : s.awaitingConfirm = none := by
    by_contra hbusy
    unfold pollTransmit at hd
    rw [if_pos (Option.isSome_iff_ne_none.mpr hbusy)] at hd
    cases hd
  have hidle : ¬s.awaitingConfirm.isSome = true := by
    rw [hfree]
    exact Bool.false_ne_true
  have hmeta : ¬s.EnumerationGoes now buf := by
    intro hgoes
    obtain ⟨msg, hsent, hresp⟩ := s.pollMeta_goes now buf hgoes
    unfold pollTransmit at hd
    rw [if_neg hidle] at hd
    generalize s.pollMeta now buf = polled at hd hsent
    obtain ⟨s₁, sent⟩ := polled
    dsimp only at hsent
    rw [hsent] at hd
    rw [← Option.some.inj hd] at hquery
    exact absurd (hresp.symm.trans hquery) Bool.noConfusion
  refine ⟨hfree, hl, hp, hmeta, ?_, ?_⟩
  · intro hgoes
    unfold pollTransmit at hd
    rw [if_neg hidle] at hd
    obtain ⟨hnone, hpending, hrecords, hcore⟩ := s.pollMeta_stays now buf hmeta
    generalize s.pollMeta now buf = polled at hd hnone hpending hrecords hcore
    obtain ⟨s₁, sent⟩ := polled
    dsimp only at hnone hpending hrecords hcore
    subst hnone
    have hgoes₁ : s₁.LegacyGoes buf := by
      unfold LegacyGoes
      rw [hpending, hrecords]
      exact hgoes
    have hl₁ : s₁.conflictClassifiedUnresolved = false := by
      change s₁.core.latched = false
      rw [hcore]
      exact hl
    obtain ⟨d₁, hsent, hresp⟩ := s₁.pollLegacy_goes buf hl₁ hgoes₁
    dsimp only at hd
    generalize s₁.pollLegacy buf = polled at hd hsent
    obtain ⟨s₂, sent⟩ := polled
    dsimp only at hsent
    rw [hsent] at hd
    rw [← Option.some.inj hd] at hquery
    exact absurd (hresp.symm.trans hquery) Bool.noConfusion
  · generalize (s.pollTransmit now buf).1.core = c' at heff
    cases heff with
    | metaReply ht metaName hm msg he =>
      exact absurd ((metaReply_responds _ _ _ msg he).symm.trans hquery) Bool.noConfusion
    | legacyReply ht hl legacy rest ho msg token he =>
      exact absurd ((encodeLegacy_responds _ _ _ msg token he).symm.trans hquery)
        Bool.noConfusion
    | probe ht hl legacy ho hp msg he => exact ⟨msg, he⟩
    | announcement ht hl legacy ho hother msg nsec he =>
      rw [hp] at hother
      cases hother
    | response ht hl legacy ho hother msg emitted he hne =>
      rw [hp] at hother
      cases hother

theorem deferFirstProbe_floored (now : I) (flood : ConflictFlood I)
    (h : s.Floored now flood) (hfree : s.awaitingConfirm = none)
    (hp : s.pendingTransmits.peek = some .probe) :
    ∃ deadline, s.deferFirstProbeUnderFlood now flood =
      { s with
        pendingTransmits := s.pendingTransmits.pop
        lifecycleDeadline := deadline } := by
  unfold deferFirstProbeUnderFlood
  simp only [hfree, h.unsent, hp, h.inForce, Option.isSome_none, bne_self_eq_false, Bool.not_true,
    Bool.or_self, Bool.false_eq_true, if_false]
  cases hfloor : s.backoffFloor now flood with
  | none => exact ⟨s.lifecycleDeadline, rfl⟩
  | some floor => exact ⟨some floor, if_pos (h.ahead floor hfloor)⟩

theorem deferFirstProbe_other (now : I) (flood : ConflictFlood I)
    (h : s.awaitingConfirm ≠ none ∨ s.pendingTransmits.peek ≠ some .probe) :
    s.deferFirstProbeUnderFlood now flood = s := by
  unfold deferFirstProbeUnderFlood
  apply if_pos
  rcases h with h | h
  · simp [Option.isSome_iff_ne_none.mpr h]
  · simp [h]

theorem pollDeferred_floored (now : I) (flood : ConflictFlood I)
    (buf : Bytes) (h : s.Floored now flood) :
    (∃ d, sentOf (s.pollDeferred now flood buf).2 = some d ∧
        d.message.header.flags.isResponse = false) ↔ s.SecondProbeGoes now buf := by
  constructor
  · rintro ⟨d, hd, hquery⟩
    unfold pollDeferred at hd
    by_cases hfirst : s.awaitingConfirm = none ∧ s.pendingTransmits.peek = some .probe
    · obtain ⟨deadline, hdefer⟩ := s.deferFirstProbe_floored now flood h hfirst.1 hfirst.2
      rw [hdefer] at hd
      obtain ⟨hfree, hl, hp, hmeta, hlegacy, hfits⟩ := pollTransmit_query _ now buf d hd hquery
      refine ⟨?_, hfree, hl, hmeta, hlegacy, hfits⟩
      exact s.pendingTransmits.two_of_pop hfirst.2 hp
    · rw [s.deferFirstProbe_other now flood (not_and_or.mp hfirst)] at hd
      obtain ⟨hfree, -, hp, -⟩ := s.pollTransmit_query now buf d hd hquery
      exact absurd ⟨hfree, hp⟩ hfirst
  · intro hgoes
    obtain ⟨deadline, hdefer⟩ := s.deferFirstProbe_floored now flood h hgoes.free
      (by rw [hgoes.two]; rfl)
    unfold pollDeferred
    rw [hdefer]
    exact pollTransmit_probe _ now buf hgoes.free hgoes.unlatched hgoes.noEnumeration
      hgoes.noLegacy hgoes.fits (by rw [hgoes.two]; rfl)

end Service
namespace Endpoint
variable {I G R : Type} {SR EV : Type → Type} [Instant I] [SeedSource G] [SeedableRng R]
  [Pool SR] [Pool EV]

theorem pollServiceTransmit_sent (e : Endpoint I G R SR EV) (handle : ServiceHandle) (now : I)
    (buf : Bytes) (key : Nat) (r : Route I R EV) (hkey : e.serviceKey handle = some key)
    (hr : e.route key = some r) (hlive : r.withdrawing = false) :
    (e.pollServiceTransmit handle now buf).2 = (r.proto.pollDeferred now e.flood buf).2 := by
  have hidle : ¬r.withdrawing = true := by
    rw [hlive]
    exact Bool.false_ne_true
  unfold pollServiceTransmit
  simp only [hkey, hr]
  rw [if_neg hidle]
  rfl

variable [LawfulPool SR]

/-- In every run a poll of a service under the floor returns no probe, exactly when no second probe
waits behind the first and is next. -/
theorem flood_floor_iff (ts : List (Transition (Endpoint I G R SR EV) (HostCall I)))
    (e : Endpoint I G R SR EV)
    (run : Run machine ts e) (t : Transition (Endpoint I G R SR EV) (HostCall I)) (ht : t ∈ ts)
    (handle : ServiceHandle) (buf : Bytes) (hcall : t.call.call = .serviceTransmit handle buf)
    (key : Nat) (r : Route I R EV) (hkey : t.pre.serviceKey handle = some key)
    (hr : t.pre.route key = some r) (hlive : r.withdrawing = false)
    (hfloored : r.proto.Floored t.call.now t.pre.flood) :
    let polled := t.pre.pollServiceTransmit handle t.call.now buf
    t.post = polled.1 ∧
      ((∀ d, sentOf polled.2 = some d → d.message.header.flags.isResponse = true) ↔
        ¬r.proto.SecondProbeGoes t.call.now buf) := by
  intro polled
  obtain ⟨heq, -⟩ := run.mem machine ts e t ht
  have hnext : t.post = t.pre.next t.call := congrArg Transition.post heq
  constructor
  · rw [hnext]
    unfold next
    rw [hcall]
  · have hsent : polled.2 = (r.proto.pollDeferred t.call.now t.pre.flood buf).2 :=
      t.pre.pollServiceTransmit_sent handle t.call.now buf key r hkey hr hlive
    rw [hsent, ← r.proto.pollDeferred_floored t.call.now t.pre.flood buf hfloored]
    constructor
    · rintro hnone ⟨d, hd, hquery⟩
      rw [hnone d hd] at hquery
      cases hquery
    · intro hnone d hd
      by_contra hquery
      exact hnone ⟨d, hd, Bool.eq_false_iff.mpr hquery⟩

def secondInstance : Name :=
  ⟨[98, 46, 95, 112, 46, 108, 111, 99, 97, 108], by decide, by decide⟩

def secondPrinter : ServiceRecords := ServiceRecords.printer.setInstance secondInstance

def rivals (now : Uptime) : List (HostCall Uptime) :=
  (List.range 15).filterMap fun n =>
    match Session.heard (Session.hearsSrv now { secondPrinter with port := 9100 }) with
    | some (.probeConflict pc) =>
      some ⟨now, .event 1 (.probeConflict { pc with datagram := ⟨n.toUInt64⟩ })⟩
    | _ => none

/-- The second printer has sent a probe, and the first, whose timer ran at `times`, none, when the
rivals are heard. -/
def flooded (times : List Uptime) : List (HostCall Uptime) :=
  [⟨0, .register ServiceRecords.printer⟩, ⟨0, .register secondPrinter⟩,
    ⟨0, .serviceTimeout ⟨1⟩⟩, ⟨0, .serviceTimeout ⟨1⟩⟩,
    ⟨0, .serviceTransmit ⟨1⟩ (List.replicate 512 0)⟩,
    ⟨0, .serviceOutcome ⟨1⟩ (.accepted 0) .noSocket⟩] ++
  times.map (fun now => (⟨now, .serviceTimeout ⟨0⟩⟩ : HostCall Uptime)) ++ rivals 250000000

def floodedAt (times : List Uptime) : Endpoint Uptime ZeroRng ZeroRng Slab Slab :=
  machine.play (tryNew ⟨true, true, 0⟩ ⟨⟩) (flooded times)

def polls (times : List Uptime) : Transition (Endpoint Uptime ZeroRng ZeroRng Slab Slab)
    (HostCall Uptime) :=
  machine.transition (floodedAt times)
    ⟨250000000, .serviceTransmit ⟨0⟩ (List.replicate 512 0)⟩

/-- Each of the calls is admitted, the flood is in force, and the first printer's route has the
queue, under the flood's floor. -/
def Flooded (times : List Uptime) (queue : Pending) : Prop :=
  machine.Admitted (tryNew ⟨true, true, 0⟩ ⟨⟩ : Endpoint Uptime ZeroRng ZeroRng Slab Slab)
      (flooded times) ∧
    (polls times).pre.serviceKey ⟨0⟩ = some 0 ∧
    (polls times).pre.flood.inForce 250000000 = true ∧
    ((polls times).pre.route 0).map (fun r => (r.withdrawing, r.proto.probeOnWire,
      r.proto.backoffFloor 250000000 (polls times).pre.flood, r.proto.pendingTransmits)) =
        some (false, false, some 5250000000, queue)

instance (times : List Uptime) (queue : Pending) : Decidable (Flooded times queue) :=
  inferInstanceAs (Decidable (_ ∧ _ ∧ _ ∧ _))

theorem polls_run (times : List Uptime)
    (h : machine.Admitted (tryNew ⟨true, true, 0⟩ ⟨⟩ : Endpoint Uptime ZeroRng ZeroRng Slab Slab)
      (flooded times)) : ∃ ts e, Run machine ts e ∧ polls times ∈ ts := by
  have hstart : Run machine [] (tryNew ⟨true, true, 0⟩ ⟨⟩ :
      Endpoint Uptime ZeroRng ZeroRng Slab Slab) := Run.start _ ⟨_, _, rfl⟩
  have hplayed := hstart.play machine [] _ (flooded times) h
  exact ⟨_, _, hplayed.step _ _
    (⟨250000000, .serviceTransmit ⟨0⟩ (List.replicate 512 0)⟩ : HostCall Uptime) trivial,
    List.mem_append_right _ (List.mem_singleton.mpr rfl)⟩

theorem Flooded.route (times : List Uptime) (queue : Pending) (h : Flooded times queue) :
    ∃ r, (polls times).pre.route 0 = some r ∧ r.withdrawing = false ∧
      r.proto.Floored 250000000 (polls times).pre.flood ∧ r.proto.pendingTransmits = queue := by
  obtain ⟨-, -, hflood, hdata⟩ := h
  obtain ⟨r, hr, hfacts⟩ := Option.map_eq_some_iff.mp hdata
  simp only [Prod.mk.injEq] at hfacts
  obtain ⟨hlive, hwire, hfloor, hqueue⟩ := hfacts
  refine ⟨r, hr, hlive, ⟨hflood, hwire, ?_⟩, hqueue⟩
  intro floor h
  rw [hfloor] at h
  cases h
  decide

theorem one_probe_is_held_back :
    (sentOf ((polls [0, 0]).pre.pollServiceTransmit ⟨0⟩ 250000000
      (List.replicate 512 0)).2).all (fun d => d.message.header.flags.isResponse) = true := by
  have hflooded : Flooded [0, 0] ⟨some .probe, none⟩ := by decide +kernel
  obtain ⟨ts, e, run, hmem⟩ := polls_run [0, 0] hflooded.1
  obtain ⟨r, hr, hlive, hfloored, hqueue⟩ := hflooded.route
  have hiff := flood_floor_iff ts e run _ hmem ⟨0⟩ (List.replicate 512 0) rfl 0 r hflooded.2.1 hr
    hlive hfloored
  rw [Option.all_eq_true]
  refine hiff.2.mpr fun hgoes => ?_
  have htwo := hgoes.two
  rw [hqueue] at htwo
  cases htwo

/-- A printer whose timer queued two sends the second as the flood begins. -/
theorem second_probe_goes_out_under_the_flood :
    ∃ ts e, Run (machine : Machine (Endpoint Uptime ZeroRng ZeroRng Slab Slab)
        (HostCall Uptime)) ts e ∧
      ∃ t ∈ ts, ∃ buf r d, t.call.call = .serviceTransmit ⟨0⟩ buf ∧
        t.pre.serviceKey ⟨0⟩ = some 0 ∧ t.pre.route 0 = some r ∧ r.withdrawing = false ∧
        r.proto.Floored t.call.now t.pre.flood ∧
        sentOf (t.pre.pollServiceTransmit ⟨0⟩ t.call.now buf).2 = some d ∧
        d.message.header.flags.isResponse = false := by
  obtain ⟨hflooded, hsent⟩ : Flooded [0, 0, 250000000] ⟨some .probe, some .probe⟩ ∧
      (sentOf ((polls [0, 0, 250000000]).pre.pollServiceTransmit ⟨0⟩ 250000000
        (List.replicate 512 0)).2).map (fun d => d.message.header.flags.isResponse) =
          some false := by decide +kernel
  obtain ⟨ts, e, run, hmem⟩ := polls_run [0, 0, 250000000] hflooded.1
  obtain ⟨r, hr, hlive, hfloored, -⟩ := hflooded.route
  obtain ⟨d, hd, hquery⟩ := Option.map_eq_some_iff.mp hsent
  exact ⟨ts, e, run, _, hmem, _, r, d, rfl, hflooded.2.1, hr, hlive, hfloored, hd, hquery⟩

end Endpoint
end Hick
