import Mathlib
import Hick.Service.ProbeCycle

/-!
# What is in flight (service/mod.rs:2138-2345)

The commit token says what a confirm is worth.
-/

set_option linter.unusedSectionVars false

namespace Hick
open Octets Wire Respond Runs

namespace AwaitingConfirm

def live : AwaitingConfirm → Bool
  | probe | announcement _ | response .. => true
  | metaResponse | stale .. => false

def emitted : AwaitingConfirm → Option (EmittedRecords × SendClass)
  | announcement e => some (e, .multicast)
  | response e cls | stale _ (.sameName e cls) | stale _ (.oldName _ e cls) => some (e, cls)
  | probe | metaResponse | stale _ .none => none

def underOldName : AwaitingConfirm → Bool
  | stale _ (.oldName ..) => true
  | _ => false

variable (renamedFrom : Option ServiceRecords) (kind : AwaitingConfirm)

@[simp] theorem demoted_live :
    (kind.demoted renamedFrom).live = false := by
  cases kind <;> rfl

@[simp] theorem demoted_emitted :
    (kind.demoted renamedFrom).emitted = kind.emitted := by
  cases kind with
  | stale fact records =>
    cases records <;> cases renamedFrom <;> rfl
  | probe => rfl
  | metaResponse => rfl
  | announcement e => cases renamedFrom <;> rfl
  | response e cls => cases renamedFrom <;> rfl

theorem demoted_underOldName_none :
    (kind.demoted none).underOldName = kind.underOldName := by
  cases kind with
  | stale fact records => cases records <;> rfl
  | probe => rfl
  | metaResponse => rfl
  | announcement e => rfl
  | response e cls => rfl

theorem demoted_underOldName (h : kind.emitted = none) :
    (kind.demoted renamedFrom).underOldName = false := by
  cases kind with
  | stale fact records =>
    cases records with
    | none => rfl
    | sameName e cls => cases h
    | oldName old e cls => cases h
  | probe => rfl
  | metaResponse => rfl
  | announcement e => cases h
  | response e cls => cases h

end AwaitingConfirm

section
variable {I : Type} [Instant I]

structure Core.Standing (c : Core I) : Prop where
  registrable : Registrable c.records
  queued : c.HasClaims → c.state.isPublished = true
  oneShot : ∀ l ∈ c.pendingLegacy, l.dst.port ≠ mdnsPort
  /-- Records are in flight only from a time when no probe of this cycle had been taken. -/
  carrying : ∀ kind, c.awaitingConfirm = some kind → kind.emitted ≠ none →
    c.probeDefeated = false ∧ (c.state.inStartup = true → c.probeOnWire = false)

theorem ServiceState.published_not_startup (state : ServiceState) (h : state.isPublished = true) :
    state.inStartup = false := by
  cases state <;> first | rfl | cases h

variable (c c' : Core I)

theorem Core.Standing.frame (h : c.Standing) (hrec : c'.records = c.records)
    (hq : c'.HasClaims → c'.state.isPublished = true)
    (hl : ∀ l ∈ c'.pendingLegacy, l ∈ c.pendingLegacy)
    (ht : ∀ kind, c'.awaitingConfirm = some kind → kind.emitted ≠ none →
      c.awaitingConfirm = some kind)
    (hd : c'.probeDefeated = c.probeDefeated)
    (hw : c.awaitingConfirm ≠ none → c'.state.inStartup = true →
      c.state.inStartup = true ∧ c'.probeOnWire = c.probeOnWire) : c'.Standing where
  registrable := by
    rw [hrec]
    exact h.registrable
  queued := hq
  oneShot l hm := h.oneShot l (hl l hm)
  carrying kind hk he := by
    have hk' := ht kind hk he
    obtain ⟨hdef, hwire⟩ := h.carrying kind hk' he
    refine ⟨hd.trans hdef, fun hs => ?_⟩
    obtain ⟨hs', hsame⟩ := hw (by rw [hk']; exact nofun) hs
    rw [hsame]
    exact hwire hs'

theorem Core.Standing.restarted (c : Core I) (h : c.Standing) (now : I) (deadline : Option I)
    (renamedFrom : Option ServiceRecords) : (c.restarted now deadline renamedFrom).Standing where
  registrable := h.registrable
  queued := by
    rintro (⟨kind, hk, -⟩ | hne | hne)
    · exact absurd hk (Pending.empty_holds kind)
    · exact absurd rfl hne
    · exact absurd rfl hne
  oneShot l hl := absurd hl List.not_mem_nil
  carrying _ _ _ := ⟨rfl, fun _ => rfl⟩

theorem Core.Standing.event (event : ServiceEvent) (now : I) (h : c.Standing)
    (heff : EventEffect c event now c') : c'.Standing := by
  cases heff with
  | quiet => exact h
  | lost hs =>
    exact h.frame c _ rfl h.queued (fun _ => id) (fun _ hk _ => hk) rfl fun _ hs => ⟨hs, rfl⟩
  | defeated hs hw =>
    -- a token that bears records excludes a defeat
    refine ⟨h.registrable, h.queued, h.oneShot, fun kind hk he => ?_⟩
    obtain ⟨hdef, hwire⟩ := h.carrying kind hk he
    unfold Core.tentative at hs
    split at hs
    · rename_i hst
      rw [hwire (by rw [hst]; rfl)] at hw
      cases hw
    · rename_i n hst
      rw [hwire (by rw [hst]; rfl)] at hw
      cases hw
    · rename_i n hst
      have hk' : c.awaitingConfirm = some kind := hk
      rw [hk', Option.isNone_some, Bool.and_false] at hs
      cases hs
    · cases hs
  | owed hs legacy hport =>
    refine ⟨h.registrable, fun _ => hs, fun l hl => ?_, h.carrying⟩
    rcases List.mem_append.mp hl with hl | hl
    · exact h.oneShot l hl
    · rw [List.mem_singleton.mp hl]
      exact hport
  | asked hs sq he due =>
    exact h.frame c _ rfl (fun _ => hs) (fun _ => id) (fun _ hk _ => hk) rfl fun _ hs => ⟨hs, rfl⟩
  | known ka he hint hh =>
    exact h.frame c _ rfl h.queued (fun _ => id) (fun _ hk _ => hk) rfl fun _ hs => ⟨hs, rfl⟩
  | restarted hs deadline => exact h.restarted c now deadline none

theorem Core.Standing.tickMove (now : I) (flood : ConflictFlood I) (fired : Bool)
    (h : c.Standing) (hfired : fired = true → c.state.isPublished = true)
    (hmove : TickMove now flood fired c c') : c'.Standing := by
  cases hmove with
  | takeResponse hf =>
    refine h.frame c _ rfl (fun hc => h.queued ?_) (fun _ => id) (fun _ hk _ => hk) rfl
      fun _ hs => ⟨hs, rfl⟩
    rcases hc with hc | hne | hne
    · exact .inl hc
    · exact absurd rfl hne
    · exact .inr (.inr hne)
  | rearm base hp =>
    exact h.frame c _ rfl h.queued (fun _ => id) (fun _ hk _ => hk) rfl fun _ hs => ⟨hs, rfl⟩
  | hold floor hw hs hdue hf =>
    exact h.frame c _ rfl h.queued (fun _ => id) (fun _ hk _ => hk) rfl fun _ hs => ⟨hs, rfl⟩
  | park hw hs hdue =>
    exact h.frame c _ rfl h.queued (fun _ => id) (fun _ hk _ => hk) rfl fun _ hs => ⟨hs, rfl⟩
  | startProbing hs hdue d =>
    refine h.frame c _ rfl (fun hc => ?_) (fun _ => id) (fun _ hk _ => hk) rfl fun _ _ =>
      ⟨by rw [hs]; rfl, rfl⟩
    have hpub := h.queued hc
    rw [hs] at hpub
    cases hpub
  | closeSettling n hs hn hdue d =>
    exact h.frame c _ rfl (fun _ => rfl) (fun _ => id) (fun _ hk _ => hk) rfl fun _ hs' => by
      cases hs'
  | queueProbe n hs hn hdue pending hp d =>
    refine h.frame c _ rfl (fun hc => ?_) (fun _ => id) (fun _ hk _ => hk) rfl
      fun _ hs => ⟨hs, rfl⟩
    rcases Core.HasClaims.of_pending c _ hc rfl rfl .probe hp with hc | hne
    · exact h.queued hc
    · exact absurd rfl hne
  | queueAnnouncement hs hdue pending hp d =>
    exact h.frame c _ rfl (fun _ => hs) (fun _ => id) (fun _ hk _ => hk) rfl fun _ hs => ⟨hs, rfl⟩
  | queueResponse hf =>
    exact h.frame c _ rfl (fun _ => hfired hf) (fun _ => id) (fun _ hk _ => hk) rfl
      fun _ hs => ⟨hs, rfl⟩

theorem TickMove.keeps (now : I) (flood : ConflictFlood I) (fired : Bool) (c c' : Core I)
    (h : TickMove now flood fired c c') :
    c'.records = c.records ∧ c'.awaitingConfirm = c.awaitingConfirm := by
  cases h <;> exact ⟨rfl, rfl⟩

theorem Core.Standing.ticks (now : I) (flood : ConflictFlood I) (fired : Bool)
    (h : c.Standing) (hfired : fired = true → c.state.isPublished = true)
    (hticks : Ticks now flood fired c c') :
    c'.Standing ∧ Ticked c.state c'.state ∧ c'.records = c.records ∧
      c'.awaitingConfirm = c.awaitingConfirm := by
  induction hticks with
  | refl => exact ⟨h, .refl _, rfl, rfl⟩
  | @tail mid last _ hmove ih =>
    obtain ⟨hstand, hticked, hrec, htok⟩ := ih
    obtain ⟨hrec', htok'⟩ := hmove.keeps
    exact ⟨hstand.tickMove mid last now flood fired (fun hf => hticked.published (hfired hf)) hmove,
      hticked.trans _ _ _ (hmove.ticked now flood fired mid last), hrec'.trans hrec,
      htok'.trans htok⟩

theorem Core.Standing.fired (c : Core I) (h : c.Standing) (now : I)
    (hdue : due c.responseDeadline now = true) : c.state.isPublished = true := by
  obtain ⟨d, hd, -⟩ := (due_iff _ _).mp hdue
  refine h.queued (.inr (.inl ?_))
  rw [hd]
  exact nofun

theorem Core.Standing.givenUp (c : Core I) (h : c.Standing) : c.spent.givenUp.Standing where
  registrable := h.registrable
  queued := by
    rintro (⟨kind, hk, -⟩ | hne | hne)
    · exact absurd hk (Pending.empty_holds kind)
    · exact absurd rfl hne
    · exact absurd rfl hne
  oneShot l hl := absurd hl List.not_mem_nil
  carrying _ _ _ := ⟨rfl, nofun⟩

theorem Core.Standing.timeout (now : I) (flood : ConflictFlood I)
    (h : c.Standing) (heff : TimeoutEffect c now flood c') : c'.Standing := by
  cases heff with
  | waited hd hl => exact h.restarted c now _ none
  | renamed hd name hname deadline =>
    have hrestart := h.restarted c now deadline (some c.records)
    exact ⟨h.registrable.renamed c.records name hname, hrestart.queued, hrestart.oneShot,
      hrestart.carrying⟩
  | gaveUp hd => exact h.givenUp c
  | ticked hl _ hticks =>
    have hexp : Core.Standing { c with kas := c.kas.expire now } :=
      h.frame c _ rfl h.queued (fun _ => id) (fun _ hk _ => hk) rfl fun _ hs => ⟨hs, rfl⟩
    exact (hexp.ticks _ c' now flood _ (h.fired c now) hticks).1

theorem Core.Standing.deferred (now : I) (flood : ConflictFlood I)
    (h : c.Standing) (heff : DeferEffect c now flood c') :
    c'.Standing ∧ c'.records = c.records ∧ c'.state = c.state ∧
      c'.awaitingConfirm = c.awaitingConfirm := by
  cases heff with
  | none => exact ⟨h, rfl, rfl, rfl⟩
  | dropped hw hp deadline =>
    refine ⟨h.frame c _ rfl (fun hc => h.queued ?_) (fun _ => id) (fun _ hk _ => hk) rfl
      fun _ hs => ⟨hs, rfl⟩, rfl, rfl, rfl⟩
    rcases hc with ⟨k, hk, hne⟩ | hc
    · exact .inl ⟨k, Pending.pop_holds _ _ hk, hne⟩
    · exact .inr hc

theorem Core.latched_false (c : Core I) (h : c.latched = false) : c.probeDefeated = false :=
  (Bool.or_eq_false_iff.mp h).1

theorem Core.Owed.subset (c : Core I) (legacy : List LegacyResp) (h : c.Owed legacy) :
    ∀ l ∈ legacy, l ∈ c.pendingLegacy := by
  rcases h with rfl | rfl
  · exact fun _ => id
  · exact fun _ => List.mem_of_mem_tail

theorem Core.Standing.poll (now : I) (buf : Bytes) (sent : Option Sent)
    (h : c.Standing) (heff : PollEffect c now buf c' sent) :
    c'.Standing ∧ c'.records = c.records ∧ c'.state = c.state := by
  -- what stands among the answers is sent by a published service that has no conflict open
  have hanswer : c.latched = false → c.HasClaims →
      ∀ kind : AwaitingConfirm, kind.emitted ≠ none →
        c.probeDefeated = false ∧ (c.state.inStartup = true → c.probeOnWire = false) := by
    intro hl hc kind _
    refine ⟨c.latched_false hl, fun hs => ?_⟩
    rw [c.state.published_not_startup (h.queued hc)] at hs
    cases hs
  cases heff with
  | silent legacy ho =>
    refine ⟨h.frame c _ rfl (fun hc => h.queued ?_) (ho.subset c _) (fun _ hk _ => hk) rfl
      fun _ hs => ⟨hs, rfl⟩, rfl, rfl⟩
    exact hc.of_drained c _ rfl (ho.nonempty c _) (.inl rfl)
  | metaReply ht metaName hm msg he =>
    refine ⟨h.frame c _ rfl h.queued (fun _ => id) (fun kind hk he => ?_) rfl
      fun hne _ => absurd ht hne, rfl, rfl⟩
    cases hk
    exact absurd rfl he
  | legacyReply ht hl legacy rest ho msg token he =>
    have hne : c.pendingLegacy ≠ [] := by
      rw [ho]
      exact List.cons_ne_nil _ _
    refine ⟨⟨h.registrable, fun hc => h.queued ?_, fun l hm => ?_, fun kind _ hk => ?_⟩, rfl, rfl⟩
    · exact hc.of_drained c _ rfl (fun _ => hne) (.inl rfl)
    · exact h.oneShot l (by rw [ho]; exact List.mem_cons_of_mem _ hm)
    · exact hanswer hl (.inr (.inr hne)) kind hk
  | probe ht hl legacy ho hp msg he =>
    refine ⟨h.frame c _ rfl (fun hc => h.queued ?_) (ho.subset c _) (fun kind hk he => ?_) rfl
      fun hne _ => absurd ht hne, rfl, rfl⟩
    · exact hc.of_drained c _ rfl (ho.nonempty c _) (.inr rfl)
    · cases hk
      exact absurd rfl he
  | announcement ht hl legacy ho hp msg nsec he =>
    refine ⟨⟨h.registrable, fun hc => h.queued ?_, fun l hm => h.oneShot l (ho.subset c _ l hm),
      fun kind _ hk => ?_⟩, rfl, rfl⟩
    · exact hc.of_drained c _ rfl (ho.nonempty c _) (.inr rfl)
    · exact hanswer hl (.inl ⟨.announcement, Pending.peek_holds _ _ hp, nofun⟩) kind hk
  | response ht hl legacy ho hp msg emitted he hne =>
    refine ⟨⟨h.registrable, fun hc => h.queued ?_, fun l hm => h.oneShot l (ho.subset c _ l hm),
      fun kind _ hk => ?_⟩, rfl, rfl⟩
    · exact hc.of_drained c _ rfl (ho.nonempty c _) (.inr rfl)
    · exact hanswer hl (.inl ⟨.response, Pending.peek_holds _ _ hp, nofun⟩) kind hk
  | drained ht hl legacy ho hp msg emitted he hne =>
    refine ⟨h.frame c _ rfl (fun hc => h.queued ?_) (ho.subset c _) (fun _ hk _ => hk) rfl
      fun _ hs => ⟨hs, rfl⟩, rfl, rfl⟩
    exact hc.of_drained c _ rfl (ho.nonempty c _) (.inr rfl)

theorem Core.Standing.confirm (c c' : Core I) (anchor : I) (delivery : TransmitDelivery)
    (advances : Bool) (kind : AwaitingConfirm) (h : c.Standing)
    (heff : ConfirmEffect { c with awaitingConfirm := none } anchor delivery advances kind c') :
    c'.Standing ∧ c'.awaitingConfirm = none ∧ (c'.state = .init → c.state = .init) := by
  have hfree : ∀ c₂ : Core I, c₂.records = c.records → c₂.awaitingConfirm = none →
      c₂.pendingLegacy = c.pendingLegacy → (c₂.HasClaims → c₂.state.isPublished = true) →
      c₂.Standing := by
    intro c₂ hrec ht hl hq
    refine ⟨hrec ▸ h.registrable, hq, hl ▸ h.oneShot, fun k hk => ?_⟩
    rw [ht] at hk
    cases hk
  have hunpublished : ∀ n, c.state = .probing n → ¬c.HasClaims := by
    intro n hn hc
    have hpub := h.queued hc
    rw [hn] at hpub
    cases hpub
  cases heff with
  | metaReply => exact ⟨hfree _ rfl rfl rfl h.queued, rfl, id⟩
  | probeElsewhere hs => exact ⟨hfree _ rfl rfl rfl h.queued, rfl, id⟩
  | probeHeld n hs ha => exact ⟨hfree _ rfl rfl rfl h.queued, rfl, id⟩
  | probeAdvanced n hs ha hd hn deadline =>
    exact ⟨hfree _ rfl rfl rfl fun hc => absurd hc (hunpublished n hs), rfl, nofun⟩
  | probeSettled n hs ha hd hn deadline hsettle =>
    exact ⟨hfree _ rfl rfl rfl fun hc => absurd hc (hunpublished n hs), rfl, nofun⟩
  | announced emitted state deadline hp hkeep hlost =>
    refine ⟨hfree _ rfl rfl rfl fun hc => hp (h.queued hc), rfl, fun hs => ?_⟩
    cases hpub : c.state.isPublished with
    | true =>
      have hpub' : state.isPublished = true := hp hpub
      cases hs
      cases hpub'
    | false =>
      obtain ⟨rfl, -⟩ := hkeep hpub
      exact hs
  | responded emitted cls => exact ⟨hfree _ rfl rfl rfl h.queued, rfl, id⟩
  | staleEmpty fact => exact ⟨hfree _ rfl rfl rfl h.queued, rfl, id⟩
  | staleSame fact emitted cls => exact ⟨hfree _ rfl rfl rfl h.queued, rfl, id⟩
  | staleOld fact records emitted cls => exact ⟨hfree _ rfl rfl rfl h.queued, rfl, id⟩

/-- The token lists what the datagram carried under these records, and to whom it went. -/
def Sent.DescribedBy (d : Sent) (records : ServiceRecords) (kind : AwaitingConfirm) : Prop :=
  match kind.emitted with
  | none => ∀ k, ¬d.message.Carries records k
  | some (e, cls) => (∀ k, d.message.Carries records k ↔ e.names k = true) ∧
    (cls = .multicast ↔ d.transmit.dst = multicastDst)

theorem Sent.DescribedBy.congr (d : Sent) (records : ServiceRecords) (kind kind' : AwaitingConfirm)
    (h : d.DescribedBy records kind) (he : kind'.emitted = kind.emitted) :
    d.DescribedBy records kind' := by
  unfold DescribedBy at h ⊢
  rw [he]
  exact h

theorem legacyMeta_carries_nothing (records : ServiceRecords) (hreg : Registrable records)
    (queryId : UInt16) (name : Name) (qtype : ResourceType) (qclass : ResourceClass) (out : Bytes)
    (msg : Message)
    (h : writeLegacyMetaResponse records queryId name qtype qclass out = .ok (msg, ())) :
    ∀ k, ¬msg.Carries records k := by
  have hspec := writeLegacyMetaResponse_spec records (name :: ownNames records)
    (fun _ h => List.mem_cons_of_mem _ h) queryId name List.mem_cons_self qtype qclass out msg h
  rintro k ⟨r, hr, -, hk⟩
  rw [hspec.entries] at hr
  simp only [Contents.entries, metaContents, List.map_nil, List.map_cons, List.append_nil,
    List.mem_append, List.mem_singleton, reduceCtorEq, false_or, Entry.record.injEq] at hr
  rw [kindOf_metaEntry records hreg r (by rw [hr])] at hk
  cases hk

theorem encodeLegacy_described (records : ServiceRecords) (hreg : Registrable records)
    (legacy : LegacyResp) (hport : legacy.dst.port ≠ mdnsPort) (buf : Bytes) (msg : Message)
    (token : AwaitingConfirm) (h : Service.encodeLegacy records legacy buf = .ok (msg, token)) :
    token.underOldName = false ∧ token.live = !legacy.isMeta ∧
      (Sent.stamped token legacy.dst msg).DescribedBy records token := by
  unfold Service.encodeLegacy at h
  split at h
  · rename_i hm
    split at h
    · cases h
    · rename_i he
      cases h
      refine ⟨rfl, by rw [hm]; rfl, ?_⟩
      exact legacyMeta_carries_nothing records hreg _ _ _ _ buf msg he
  · rename_i hm
    split at h
    · cases h
    · rename_i emitted he
      cases h
      refine ⟨rfl, by rw [Bool.eq_false_iff.mpr hm]; rfl, ?_⟩
      obtain ⟨hemit, hspec⟩ := writeLegacyResponse_spec records (legacy.name :: ownNames records)
        (fun _ h => List.mem_cons_of_mem _ h) legacy.queryId legacy.name List.mem_cons_self
        legacy.qtype legacy.qclass buf msg emitted he
      refine ⟨fun k => ?_, nofun, fun hdst => ?_⟩
      · refine carries_iff_names records _ _ msg _ _ _ emitted ?_ hspec k
        rw [hemit]
        rfl
      · have hdst' : legacy.dst = multicastDst := hdst
        rw [hdst'] at hport
        exact absurd rfl hport

theorem PollEffect.stamps (now : I) (buf : Bytes) (d : Sent) (h : c.Standing)
    (heff : PollEffect c now buf c' (some d)) :
    ∃ kind, c'.awaitingConfirm = some kind ∧ kind.underOldName = false ∧
      d.DescribedBy c.records kind := by
  cases heff with
  | metaReply ht metaName hm msg he =>
    refine ⟨_, rfl, rfl, ?_⟩
    exact OnlyEnumerates.carries_nothing c.records h.registrable msg
      (metaResponse_enumerates c.records metaName hm buf msg he)
  | legacyReply ht hl legacy rest ho msg token he =>
    obtain ⟨hold, -, hdesc⟩ := encodeLegacy_described c.records h.registrable legacy
      (h.oneShot legacy (by rw [ho]; exact List.mem_cons_self)) buf msg token he
    exact ⟨token, rfl, hold, hdesc⟩
  | probe ht hl legacy ho hp msg he =>
    exact ⟨_, rfl, rfl, (probe_asserts_nothing c.records buf msg he).2⟩
  | announcement ht hl legacy ho hp msg nsec he =>
    have hspec := writeAnnounce_spec c.records _ (fun _ h => h) buf msg nsec he
    refine ⟨_, rfl, rfl, fun k => ?_, fun _ => rfl, fun _ => rfl⟩
    exact carries_iff_names c.records _ _ msg _ _ _ _ rfl hspec k
  | response ht hl legacy ho hp msg emitted he hne =>
    obtain ⟨hemit, hspec⟩ := writeAnnounceFiltered_spec c.records _ (fun _ h => h) buf _ msg
      emitted he
    refine ⟨_, rfl, rfl, fun k => ?_, fun _ => rfl, fun _ => rfl⟩
    refine carries_iff_names c.records _ _ msg _ _ _ emitted ?_ hspec k
    rw [hemit]
    rfl

theorem PollEffect.stamps_nothing (now : I) (buf : Bytes)
    (heff : PollEffect c now buf c' none) : c'.awaitingConfirm = c.awaitingConfirm := by
  cases heff with
  | silent legacy ho => rfl
  | drained ht hl legacy ho hp msg emitted he hne => rfl

end

structure Flight where
  generation : Nat
  epoch : Nat
  records : ServiceRecords
  sent : Sent

/-- How often the probe cycle was replaced, how often the name was given up, and what is in
flight. -/
structure Trail where
  generation : Nat
  epoch : Nat
  flight : Option Flight

section
variable {I : Type} [Instant I]

structure Flight.Under (fl : Flight) (g : Trail) (c : Core I) (kind : AwaitingConfirm) : Prop where
  generation : kind.live = true → fl.generation = g.generation
  named : kind.underOldName = false
  described : fl.sent.DescribedBy fl.records kind
  /-- Records in flight are those of the name the service still bears. -/
  bears : kind.emitted ≠ none → fl.epoch = g.epoch ∧ fl.records = c.records

def Trail.Matches (g : Trail) (c : Core I) : Prop :=
  match c.awaitingConfirm with
  | none => g.flight = none
  | some kind => ∃ fl, g.flight = some fl ∧ fl.Under g c kind

theorem Trail.Matches.same (g : Trail) (c c' : Core I) (h : g.Matches c)
    (ht : c'.awaitingConfirm = c.awaitingConfirm) (hr : c'.records = c.records) :
    g.Matches c' := by
  unfold Matches at h ⊢
  rw [ht]
  cases hk : c.awaitingConfirm with
  | none =>
    rw [hk] at h
    exact h
  | some kind =>
    rw [hk] at h
    obtain ⟨fl, hfl, hu⟩ := h
    exact ⟨fl, hfl, hu.generation, hu.named, hu.described, fun he => by
      rw [hr]
      exact hu.bears he⟩

theorem Trail.Matches.restarted (g : Trail) (c c' : Core I) (h : g.Matches c)
    (ht : c'.awaitingConfirm = c.awaitingConfirm.map (·.demoted none))
    (hr : c'.records = c.records) :
    Trail.Matches ⟨g.generation + 1, g.epoch, g.flight⟩ c' := by
  unfold Matches at h ⊢
  rw [ht]
  cases hk : c.awaitingConfirm with
  | none =>
    rw [hk] at h
    exact h
  | some kind =>
    rw [hk] at h
    obtain ⟨fl, hfl, hu⟩ := h
    refine ⟨fl, hfl, fun hl => ?_, ?_, ?_, fun he => ?_⟩
    · rw [AwaitingConfirm.demoted_live] at hl
      cases hl
    · rw [AwaitingConfirm.demoted_underOldName_none]
      exact hu.named
    · exact hu.described.congr _ _ _ _ (AwaitingConfirm.demoted_emitted none kind)
    · rw [AwaitingConfirm.demoted_emitted] at he
      rw [hr]
      exact hu.bears he

theorem Trail.Matches.renamed (g : Trail) (c c' : Core I) (h : g.Matches c) (hs : c.Standing)
    (hd : c.probeDefeated = true) (renamedFrom : Option ServiceRecords)
    (ht : c'.awaitingConfirm = c.awaitingConfirm.map (·.demoted renamedFrom)) :
    Trail.Matches ⟨g.generation + 1, g.epoch + 1, g.flight⟩ c' := by
  unfold Matches at h ⊢
  rw [ht]
  cases hk : c.awaitingConfirm with
  | none =>
    rw [hk] at h
    exact h
  | some kind =>
    rw [hk] at h
    obtain ⟨fl, hfl, hu⟩ := h
    have hbare : kind.emitted = none := by
      by_contra he
      rw [(hs.carrying kind hk he).1] at hd
      cases hd
    refine ⟨fl, hfl, fun hl => ?_, ?_, ?_, fun he => ?_⟩
    · rw [AwaitingConfirm.demoted_live] at hl
      cases hl
    · exact AwaitingConfirm.demoted_underOldName _ _ hbare
    · exact hu.described.congr _ _ _ _ (AwaitingConfirm.demoted_emitted _ kind)
    · rw [AwaitingConfirm.demoted_emitted] at he
      exact absurd hbare he

end

namespace Session
variable {I R : Type} {EV : Type → Type} [Instant I] [SeedableRng R] [Pool EV]

def timerFires (s : Session I R EV) (e : Timed I) : Bool :=
  match e.call with
  | .timeout .. => !s.withdrawing
  | _ => false

/-- The call replaces the probe cycle: it spends a conflict, or puts a published service back
to the start. -/
def restarts (s : Session I R EV) (e : Timed I) : Bool :=
  (s.timerFires e && s.service.core.latched) ||
    (decide (s.service.state ≠ .init) && decide ((s.next e).service.state = .init))

def givesNameUp (s : Session I R EV) (e : Timed I) : Bool :=
  s.timerFires e && s.service.probeDefeated

/-- What is in flight after a call: a datagram it sent, or what was before unless it is a
confirm. -/
def noteFlight (g : Trail) (s : Session I R EV) (e : Timed I) : Option Flight :=
  match s.sent e with
  | some d => some ⟨g.generation, g.epoch, s.service.records, d⟩
  | none => if (s.confirm e).isSome then none else g.flight

def noteTrail (g : Trail) (t : Transition (Session I R EV) (Timed I)) : Trail where
  generation := if t.pre.restarts t.call then g.generation + 1 else g.generation
  epoch := if t.pre.givesNameUp t.call then g.epoch + 1 else g.epoch
  flight := noteFlight g t.pre t.call

def trail (ts : List (Transition (Session I R EV) (Timed I))) : Trail :=
  summary noteTrail ⟨0, 0, none⟩ ts

structure Tracked (g : Trail) (s : Session I R EV) : Prop where
  standing : s.service.core.Standing
  token : g.Matches s.service.core
  drained : s.service.renameGoodbyeHandoff = none

theorem tracked_start (probe : Bool) (s : Session I R EV) (h : Registered probe s) :
    Tracked ⟨0, 0, none⟩ s := by
  obtain ⟨records, now, seed, reAnnounce, flood, hreg, rfl⟩ := h
  refine ⟨⟨hreg, ?_, fun l hl => absurd hl List.not_mem_nil,
    fun kind hk => absurd hk.symm (Option.some_ne_none kind)⟩, rfl, rfl⟩
  rintro (⟨kind, hk, -⟩ | hne | hne)
  · exact absurd hk (Pending.empty_holds kind)
  · exact absurd rfl hne
  · exact absurd rfl hne

theorem restarts_of_quiet (s : Session I R EV) (e : Timed I) (hf : s.timerFires e = false)
    (hs : (s.next e).service.core.state = .init → s.service.core.state = .init) :
    s.restarts e = false := by
  change (s.next e).service.state = .init → s.service.state = .init at hs
  simp only [restarts, hf, Bool.false_and, Bool.false_or, Bool.and_eq_false_iff,
    decide_eq_false_iff_not, not_not]
  by_cases h : s.service.state = .init
  · exact .inl h
  · exact .inr fun h' => h (hs h')

theorem standing_next (s : Session I R EV) (e : Timed I) (h : s.service.core.Standing) :
    (s.next e).service.core.Standing := by
  have heff := s.next_effect e
  generalize (s.next e).service.core = c' at heff ⊢
  cases heff with
  | idle hsent hconfirm htimeout => exact h
  | event event flood he hw _ heff => exact h.event _ _ event e.now heff
  | timeout flood taken he hw _ heff => exact h.timeout _ _ e.now flood heff
  | poll flood buf he hw c₁ _ sent hdefer heff hsent =>
    exact ((h.deferred _ c₁ e.now flood hdefer).1.poll c₁ _ e.now buf sent heff).1
  | confirm v4 v6 he kind hk _ heff => exact (h.confirm _ _ _ _ _ kind heff).1
  | withdraw he hw =>
    refine h.frame _ _ rfl ?_ (fun _ hl => absurd hl List.not_mem_nil) (fun _ hk _ => hk) rfl
      fun _ hs => ⟨hs, rfl⟩
    rintro (⟨kind, hk, -⟩ | hne | hne)
    · exact absurd hk (Pending.empty_holds kind)
    · exact absurd rfl hne
    · exact absurd rfl hne

theorem tracked_step (g : Trail) (s : Session I R EV) (e : Timed I) (h : Tracked g s) :
    Tracked (noteTrail g ⟨s, e, s.next e⟩) (s.next e) := by
  change Tracked ⟨if s.restarts e then g.generation + 1 else g.generation,
    if s.givesNameUp e then g.epoch + 1 else g.epoch, noteFlight g s e⟩ (s.next e)
  refine ⟨standing_next s e h.standing, ?_, rfl⟩
  · -- the call sends nothing and confirms nothing: the flight is as it was
    have hquiet : s.sent e = none → s.confirm e = none →
        noteFlight g s e = g.flight := by
      intro hsent hconfirm
      simp only [noteFlight, hsent, hconfirm, Option.isSome_none, Bool.false_eq_true, if_false]
    have hrestarts := s.restarts_of_quiet e
    have heff := s.next_effect e
    generalize hc' : (s.next e).service.core = c' at heff hrestarts ⊢
    cases heff with
    | idle hsent hconfirm htimeout =>
      have hf : s.timerFires e = false := by
        unfold timerFires
        split
        · rename_i flood taken hcall
          rw [htimeout flood taken hcall]
          rfl
        · rfl
      rw [hquiet hsent hconfirm, hrestarts hf id, givesNameUp, hf]
      exact h.token
    | event event flood he hw _ heff =>
      have hf : s.timerFires e = false := by simp only [timerFires, he]
      have hsent : s.sent e = none := by simp only [Session.sent, he]
      have hconfirm : s.confirm e = none := by simp only [Session.confirm, he]
      rw [hquiet hsent hconfirm, givesNameUp, hf, Bool.false_and, if_neg Bool.false_ne_true]
      cases heff with
      | restarted hs deadline =>
        have hinit : (s.next e).service.state = .init := congrArg Core.state hc'
        have hpub : s.service.state ≠ .init := by
          intro hs'
          change s.service.state.isPublished = true at hs
          rw [hs'] at hs
          cases hs
        have hr : s.restarts e = true := by
          simp only [restarts, hf, Bool.false_and, Bool.false_or, hpub, hinit, ne_eq, not_false_eq_true,
            decide_true, Bool.and_self]
        rw [hr, if_pos rfl]
        exact h.token.restarted g _ _ rfl rfl
      | quiet =>
        rw [hrestarts hf id]
        exact h.token
      | lost hs =>
        rw [hrestarts hf id]
        exact h.token.same g _ _ rfl rfl
      | defeated hs hw =>
        rw [hrestarts hf id]
        exact h.token.same g _ _ rfl rfl
      | owed hs legacy hport =>
        rw [hrestarts hf id]
        exact h.token.same g _ _ rfl rfl
      | asked hs sq he due =>
        rw [hrestarts hf id]
        exact h.token.same g _ _ rfl rfl
      | known ka he hint hh =>
        rw [hrestarts hf id]
        exact h.token.same g _ _ rfl rfl
    | timeout flood taken he hw _ heff =>
      have hf : s.timerFires e = true := by simp only [timerFires, he, hw, Bool.not_false]
      have hsent : s.sent e = none := by simp only [Session.sent, he]
      have hconfirm : s.confirm e = none := by simp only [Session.confirm, he]
      have hspends : s.service.core.latched = true → s.restarts e = true := by
        intro hl
        simp only [restarts, hf, hl, Bool.and_self, Bool.true_or]
      rw [hquiet hsent hconfirm, givesNameUp, hf, Bool.true_and]
      cases heff with
      | waited hd hl =>
        have hlatched : s.service.core.latched = true := by rw [Core.latched, hl, Bool.or_true]
        have hd' : s.service.probeDefeated = false := hd
        rw [hspends hlatched, hd', if_pos rfl, if_neg Bool.false_ne_true]
        exact h.token.restarted g _ _ rfl rfl
      | renamed hd name hname deadline =>
        have hlatched : s.service.core.latched = true := by rw [Core.latched, hd, Bool.true_or]
        have hd' : s.service.probeDefeated = true := hd
        rw [hspends hlatched, hd', if_pos rfl, if_pos rfl]
        exact h.token.renamed g _ _ h.standing hd (some s.service.core.records) rfl
      | gaveUp hd =>
        have hlatched : s.service.core.latched = true := by rw [Core.latched, hd, Bool.true_or]
        have hd' : s.service.probeDefeated = true := hd
        rw [hspends hlatched, hd', if_pos rfl, if_pos rfl]
        exact h.token.renamed g _ _ h.standing hd (some s.service.core.records) rfl
      | ticked hl _ hticks =>
        have hexp : Core.Standing { s.service.core with kas := s.service.core.kas.expire e.now } :=
          h.standing.frame _ _ rfl h.standing.queued (fun _ => id) (fun _ hk _ => hk) rfl
            fun _ hs => ⟨hs, rfl⟩
        obtain ⟨-, hticked, hrec, htok⟩ := hexp.ticks _ c' e.now flood _
          (h.standing.fired _ e.now) hticks
        have hd' : s.service.probeDefeated = false := Core.latched_false _ hl
        have hr : s.restarts e = false := by
          have hstate : (s.next e).service.state = c'.state := congrArg Core.state hc'
          simp only [restarts, hl, Bool.and_false, Bool.false_or, Bool.and_eq_false_iff,
            decide_eq_false_iff_not, not_not, hstate]
          by_cases hi : s.service.state = .init
          · exact .inl hi
          · exact .inr fun hc => hi (hticked.init hc)
        rw [hr, hd', if_neg Bool.false_ne_true, if_neg Bool.false_ne_true]
        exact h.token.same g _ _ htok hrec
    | poll flood buf he hw c₁ _ sent hdefer heff hsent =>
      have hf : s.timerFires e = false := by simp only [timerFires, he]
      have hconfirm : s.confirm e = none := by simp only [Session.confirm, he]
      obtain ⟨hstand, hrec, hstate, htok⟩ := h.standing.deferred _ c₁ e.now flood hdefer
      obtain ⟨-, hrec', hstate'⟩ := hstand.poll c₁ _ e.now buf sent heff
      rw [hrestarts hf fun hs => by rw [← hstate, ← hstate']; exact hs, givesNameUp, hf,
        Bool.false_and, if_neg Bool.false_ne_true]
      cases sent with
      | none =>
        rw [hquiet hsent hconfirm]
        exact h.token.same g _ _ (heff.stamps_nothing.trans htok) (hrec'.trans hrec)
      | some d =>
        obtain ⟨kind, hk, hnamed, hdesc⟩ := heff.stamps c₁ _ e.now buf d hstand
        have hflight : noteFlight g s e =
            some ⟨g.generation, g.epoch, s.service.records, d⟩ := by
          simp only [noteFlight, hsent]
        rw [hflight]
        unfold Trail.Matches
        rw [hk]
        refine ⟨_, rfl, fun _ => rfl, hnamed, ?_, fun _ => ⟨rfl, ?_⟩⟩
        · rw [hrec] at hdesc
          exact hdesc
        · exact (hrec'.trans hrec).symm
    | confirm v4 v6 he kind hk _ heff =>
      have hf : s.timerFires e = false := by simp only [timerFires, he]
      have hsent : s.sent e = none := by simp only [Session.sent, he]
      obtain ⟨-, hnone, hinit⟩ := h.standing.confirm _ _ _ _ _ kind heff
      rw [hrestarts hf hinit, givesNameUp, hf]
      have hflight : noteFlight g s e = none := by
        simp only [noteFlight, hsent, Session.confirm, he, hk, Option.map_some, Option.isSome_some,
          if_true]
      rw [hflight]
      unfold Trail.Matches
      rw [hnone]
    | withdraw he hw =>
      have hf : s.timerFires e = false := by simp only [timerFires, he]
      have hsent : s.sent e = none := by simp only [Session.sent, he]
      have hconfirm : s.confirm e = none := by simp only [Session.confirm, he]
      rw [hquiet hsent hconfirm, hrestarts hf id, givesNameUp, hf]
      exact h.token.same g _ _ rfl rfl

theorem tracked_run (probe : Bool) (ts : List (Transition (Session I R EV) (Timed I)))
    (s : Session I R EV) (run : Run (machine probe) ts s) : Tracked (trail ts) s :=
  run.invariant (machine probe) noteTrail ⟨0, 0, none⟩ Tracked (fun _ => True)
    (tracked_start probe) (fun g s e hs _ _ => tracked_step g s e hs) ts s fun _ _ => trivial

end Session
end Hick
