import Hick.Cache.Stats
import Hick.Endpoint.QueryStats
import Hick.Routing.Verdicts

/-!
# The statistics of an endpoint (endpoint/mod.rs:853-908, endpoint/receive.rs:119-321)

An endpoint with its counters, driven by its host: services, queries, datagrams and timers in any
order.
-/

set_option linter.unusedSectionVars false

/-!
## The counters of the services (endpoint/service.rs:89-1046, endpoint/withdrawal.rs:831-882)

A service is active from its registration until its route is freed, at the end of its withdrawal
or by force. The calls in between leave the number of routes alone.
-/

namespace Hick
open Octets Wire Respond Runs Noted

section
variable {I G R : Type} {SR EV : Type → Type} [Instant I] [SeedSource G] [SeedableRng R]
  [Pool SR] [Pool EV]

namespace Endpoint

def tryRegisterServiceNoted (e : Endpoint I G R SR EV) (records : ServiceRecords) (now : I) :
    Endpoint I G R SR EV × List ServiceNote :=
  let (e, result) := e.tryRegisterService records now
  (e, match result with
    | .ok _ => [.servicesRegistered, .incrServicesActive]
    | .error _ => [])

def freeRouteNoted (e : Endpoint I G R SR EV) (handle : ServiceHandle) :
    Endpoint I G R SR EV × List ServiceNote :=
  match e.serviceKey handle with
  | none => (e, [])
  | some key =>
    match Pool.tryRemove e.services key with
    | some (_, services) => ({ e with services := services }, [.decrServicesActive])
    | none => (e, [])

def drainTokenNoted (now : I) (st : Endpoint I G R SR EV × List ServiceHandle)
    (token : WithdrawalToken) : (Endpoint I G R SR EV × List ServiceHandle) × List ServiceNote :=
  let (e, out) := st
  match e.withdrawals.find? fun tw => tw.1 == token with
  | none => (st, [])
  | some (_, item) =>
    let e := { e with withdrawals := e.withdrawals.eraseP fun tw => tw.1 == token }
    let e := e.retainRelinquished item.records item.multicast now
    match item.route with
    | none => ((e, out), [])
    | some handle =>
      let (e, notes) := e.freeRouteNoted handle
      ((e, out ++ [handle]), notes)

def drainCompletedWithdrawalsNoted (e : Endpoint I G R SR EV) (now : I) :
    (Endpoint I G R SR EV × List ServiceHandle) × List ServiceNote :=
  let completed := (e.withdrawals.filter fun tw => tw.2.completed now).map (·.1)
  each (drainTokenNoted now) completed (e, [])

def forceRemoveServiceNoted (e : Endpoint I G R SR EV) (handle : ServiceHandle) (now : I) :
    Endpoint I G R SR EV × List ServiceNote :=
  let (e, removed) := e.forceRemoveService handle now
  (e, if removed then [.decrServicesActive] else [])

def nextNoted (e : Endpoint I G R SR EV) (c : HostCall I) :
    Endpoint I G R SR EV × List ServiceNote :=
  match c.call with
  | .register records => e.tryRegisterServiceNoted records c.now
  | .forceRemove handle => e.forceRemoveServiceNoted handle c.now
  | .drain =>
    let (st, notes) := e.drainCompletedWithdrawalsNoted c.now
    (st.1, notes)
  | _ => (e.next c, [])

variable (e : Endpoint I G R SR EV)

theorem freeRouteNoted_fst (handle : ServiceHandle) :
    (e.freeRouteNoted handle).1 = e.freeRoute handle := by
  unfold freeRouteNoted freeRoute
  cases e.serviceKey handle with
  | none => rfl
  | some key =>
    dsimp only
    cases Pool.tryRemove e.services key with
    | none => rfl
    | some _ => rfl

theorem drainTokenNoted_fst (now : I) (st : Endpoint I G R SR EV × List ServiceHandle)
    (token : WithdrawalToken) : (drainTokenNoted now st token).1 = drainToken now st token := by
  obtain ⟨e, out⟩ := st
  unfold drainTokenNoted drainToken
  dsimp only
  cases e.withdrawals.find? fun tw => tw.1 == token with
  | none => rfl
  | some tw =>
    obtain ⟨t, item⟩ := tw
    dsimp only
    cases item.route with
    | none => rfl
    | some handle =>
      dsimp only
      rw [freeRouteNoted_fst]

theorem drainCompletedWithdrawalsNoted_fst (now : I) :
    (e.drainCompletedWithdrawalsNoted now).1 = e.drainCompletedWithdrawals now := by
  unfold drainCompletedWithdrawalsNoted drainCompletedWithdrawals
  rw [each_fst]
  congr 1
  funext st token
  exact drainTokenNoted_fst now st token

theorem nextNoted_fst (c : HostCall I) :
    (e.nextNoted c).1 = e.next c := by
  obtain ⟨now, call⟩ := c
  cases call with
  | drain => exact congrArg Prod.fst (e.drainCompletedWithdrawalsNoted_fst now)
  | _ => rfl

variable [OrderedPool SR]

theorem routes_length (e e' : Endpoint I G R SR EV) (h : ∀ j, e'.handleAt j = e.handleAt j) :
    e'.routes.length = e.routes.length := by
  apply length_congr
  intro j
  have hsome : ∀ d : Endpoint I G R SR EV, (d.handleAt j).isSome = (Pool.get d.services j).isSome :=
    fun d => Option.isSome_map
  rw [← hsome e', ← hsome e, h]

theorem tryRegisterService_length (records : ServiceRecords) (now : I) :
    match (e.tryRegisterService records now).2 with
    | .ok _ => (e.tryRegisterService records now).1.routes.length = e.routes.length + 1
    | .error _ => (e.tryRegisterService records now).1.routes.length = e.routes.length := by
  unfold tryRegisterService
  cases e.registerChecks records with
  | error err => rfl
  | ok _ =>
    dsimp only
    cases hinsert : Pool.insert e.services
        (e.newRoute records now (SeedSource.fillBytes e.rng 32).1) with
    | none => rfl
    | some placed => exact (insert_perm _ placed.2 _ placed.1 hinsert).length_eq

variable [ReleasingPool SR]

theorem removed_length (key : Nat) (r : Route I R EV)
    (services : SR (Route I R EV)) (h : Pool.tryRemove e.services key = some (r, services))
    (r' : Route I R EV) (hr : e.route key = some r') :
    e.routes.length = (Pool.iter services).length + 1 :=
  (tryRemove_perm e.services services r' key hr r h).length_eq

end Endpoint

namespace ServiceTally
open Endpoint

structure Counts (st : ServiceTally) (e : Endpoint I G R SR EV) : Prop where
  active : st.active = e.routes.length
  within : st.active ≤ st.registered

variable (st : ServiceTally) (e : Endpoint I G R SR EV)

theorem Counts.same (e e' : Endpoint I G R SR EV) (h : Counts st e)
    (hlength : e'.routes.length = e.routes.length) : register.Leads Counts st (e', []) :=
  register.leads_nil Counts st e' ⟨h.active.trans hlength.symm, h.within⟩

variable [OrderedPool SR] [ReleasingPool SR]

theorem Counts.keeps (e e' : Endpoint I G R SR EV) (h : Counts st e)
    (hkeeps : Keeps e e') : register.Leads Counts st (e', []) :=
  h.same st e e' (routes_length e e' hkeeps.at_)

theorem Counts.freed (e e' : Endpoint I G R SR EV) (h : Counts st e)
    (hless : e.routes.length = e'.routes.length + 1) :
    register.Leads Counts st (e', [.decrServicesActive]) := by
  obtain ⟨hactive, hle⟩ := h
  refine ⟨⟨⟨fun _ => by omega, nofun⟩, trivial⟩, ?_, le_trans (Nat.sub_le _ 1) hle⟩
  show st.active - 1 = e'.routes.length
  omega

theorem Counts.registered (h : Counts st e)
    (records : ServiceRecords) (now : I) :
    register.Leads Counts st (e.tryRegisterServiceNoted records now) := by
  have hlength := e.tryRegisterService_length records now
  unfold tryRegisterServiceNoted
  dsimp only
  cases hresult : (e.tryRegisterService records now).2 with
  | ok handle =>
    rw [hresult] at hlength
    obtain ⟨hactive, hle⟩ := h
    refine ⟨⟨⟨nofun, nofun⟩, ⟨nofun, fun _ => Nat.lt_succ_of_le hle⟩, trivial⟩, ?_,
      Nat.succ_le_succ hle⟩
    show st.active + 1 = _
    rw [hactive]
    exact hlength.symm
  | error err =>
    rw [hresult] at hlength
    exact h.same st e _ hlength

theorem Counts.freeRoute (h : Counts st e)
    (handle : ServiceHandle) :
    register.Leads Counts st (e.freeRouteNoted handle) := by
  unfold freeRouteNoted
  cases hkey : e.serviceKey handle with
  | none => exact register.leads_nil Counts st e h
  | some key =>
    obtain ⟨r, hr, -⟩ := e.serviceKey_some handle key hkey
    dsimp only
    cases hremove : Pool.tryRemove e.services key with
    | none => exact register.leads_nil Counts st e h
    | some removed =>
      apply h.freed st e
      exact e.removed_length key removed.1 removed.2 hremove r hr

theorem Counts.drain (h : Counts st e) (now : I) :
    register.Leads (fun st d => Counts st d.1) st
      (e.drainCompletedWithdrawalsNoted now) := by
  apply register.leads_each (fun st d => Counts st d.1) _ _ _ st (e, []) h
  intro st d token hd
  obtain ⟨d, out⟩ := d
  unfold drainTokenNoted
  dsimp only
  cases d.withdrawals.find? fun tw => tw.1 == token with
  | none => exact register.leads_nil _ st (d, out) hd
  | some tw =>
    obtain ⟨t, item⟩ := tw
    dsimp only
    cases item.route with
    | none => exact register.leads_nil _ st _ ⟨hd.active, hd.within⟩
    | some handle =>
      have hsame : Counts st (Endpoint.retainRelinquished { d with
          withdrawals := d.withdrawals.eraseP fun tw => tw.1 == token } item.records
            item.multicast now) := ⟨hd.active, hd.within⟩
      exact Counts.freeRoute st _ hsame handle

theorem Counts.forceRemove (h : Counts st e)
    (handle : ServiceHandle) (now : I) :
    register.Leads Counts st (e.forceRemoveServiceNoted handle now) := by
  unfold forceRemoveServiceNoted forceRemoveService
  cases hkey : e.serviceKey handle with
  | none => exact register.leads_nil Counts st e h
  | some key =>
    obtain ⟨r, hr, -⟩ := e.serviceKey_some handle key hkey
    simp only [hr]
    have hretained : ∀ (dropped : List (WithdrawalToken × WithdrawalItem I))
        (d : Endpoint I G R SR EV), (dropped.foldl (fun d tw =>
          d.retainRelinquished tw.2.records tw.2.multicast now) d).routes = d.routes := by
      intro dropped
      induction dropped with
      | nil => exact fun d => rfl
      | cons tw rest ih => exact fun d => ih _
    cases hremove : Pool.tryRemove (e.retainRelinquished r.proto.withdrawalSnapshot.records
        r.proto.withdrawalSnapshot.multicast now).services key with
    | none =>
      exact h.same st e _ (congrArg List.length (hretained _ _))
    | some removed =>
      apply h.freed st e
      rw [hretained]
      exact e.removed_length key removed.1 removed.2 hremove r hr

theorem Counts.next (h : Counts st e)
    (c : HostCall I) : register.Leads Counts st (e.nextNoted c) := by
  obtain ⟨now, call⟩ := c
  cases call with
  | register records => exact h.registered st e records now
  | event key event => exact h.keeps st e _ (e.dispatch_keeps key event now)
  | serviceTimeout handle => exact h.keeps st e _ (e.handleServiceTimeout_keeps handle now)
  | serviceTransmit handle buf => exact h.keeps st e _ (e.pollServiceTransmit_keeps handle now buf)
  | serviceOutcome handle v4 v6 =>
    exact h.keeps st e _ (e.noteServiceTransmitOutcome_keeps handle now v4 v6)
  | serviceUpdate handle => exact h.keeps st e _ (e.pollService_keeps handle)
  | unregister handle => exact h.keeps st e _ (e.unregisterService_keeps handle now)
  | forceRemove handle => exact h.forceRemove st e handle now
  | withdrawalTransmit scratch => exact h.keeps st e _ (pollWithdrawalLoop_keeps now scratch _ e)
  | withdrawalResult token v4 v6 =>
    exact h.keeps st e _ (e.noteWithdrawalResult_keeps token now v4 v6)
  | drain => exact Counts.drain st e h now
  | timeout => exact h.keeps st e _ ⟨fun _ => rfl, rfl⟩

end ServiceTally
end
end Hick

/-! ## The statistics of an endpoint -/

namespace Hick
open Octets Wire Respond Runs Noted

namespace Wire.Flags

def opcodeMask : UInt16 := 0x7800
def rcodeMask : UInt16 := 0x000f

def opcode (f : Flags) : UInt16 := (f.bits &&& opcodeMask) >>> 11

def responseCode (f : Flags) : UInt16 := f.bits &&& rcodeMask

end Wire.Flags

inductive HandleError where
  | parse (err : ParseError)
  | invalidOpcode (opcode : UInt16)
  | invalidResponseCode (code : UInt16)

/-- One datagram; `matchesAdvertised` is what `src_matches_advertised` finds of its source. -/
structure Received where
  src : SocketAddr
  data : Bytes
  provenance : Provenance
  matchesAdvertised : Bool

namespace Wire.MessageReader

def sectionParseError (m : MessageReader) : Bool :=
  m.questions.any (fun q => !q.isOk) || (m.answers ++ m.additional).any (fun r => !r.isOk) ||
    m.authority.any fun r => !r.isOk

def wellFormed (m : MessageReader) : Bool :=
  (m.afterAuthority.bind (skipRecords m.message m.header.additionalCount.toNat)).isSome

theorem questionItems_broken (message : Bytes) (count cursor : Nat) :
    (questionItems message count cursor).any (fun q => !q.isOk) =
      (skipQuestions message count cursor).isNone := by
  induction count generalizing cursor with
  | zero => rfl
  | succ count ih =>
    rw [questionItems, skipQuestions]
    cases QuestionRef.tryParse message cursor with
    | error _ => rfl
    | ok parsed => exact ih parsed.2

theorem recordItems_broken (message : Bytes) (count cursor : Nat) :
    (recordItems message count cursor).any (fun r => !r.isOk) =
      (skipRecords message count cursor).isNone := by
  induction count generalizing cursor with
  | zero => rfl
  | succ count ih =>
    rw [recordItems, skipRecords]
    cases Ref.tryParse message cursor with
    | error _ => rfl
    | ok parsed => exact ih parsed.2

theorem sectionParseError_eq (m : MessageReader) : m.sectionParseError = !m.wellFormed := by
  unfold sectionParseError wellFormed
  rw [List.any_append]
  have hquestions : m.questions.any (fun q => !q.isOk) = m.afterQuestions.isNone :=
    questionItems_broken _ _ _
  rw [hquestions]
  unfold answers authority additional afterAuthority afterAnswers
  cases m.afterQuestions with
  | none => rfl
  | some afterQuestions =>
    rw [Option.bind_some, show m.recordsAt m.header.answerCount (some afterQuestions) =
      recordItems m.message m.header.answerCount.toNat afterQuestions from rfl, recordItems_broken]
    cases skipRecords m.message m.header.answerCount.toNat afterQuestions with
    | none => rfl
    | some afterAnswers =>
      rw [Option.bind_some, show m.recordsAt m.header.authorityCount (some afterAnswers) =
        recordItems m.message m.header.authorityCount.toNat afterAnswers from rfl,
        recordItems_broken]
      cases skipRecords m.message m.header.authorityCount.toNat afterAnswers with
      | none => simp
      | some afterAuthority =>
        rw [Option.bind_some, show m.recordsAt m.header.additionalCount (some afterAuthority) =
          recordItems m.message m.header.additionalCount.toNat afterAuthority from rfl,
          recordItems_broken]
        cases skipRecords m.message m.header.additionalCount.toNat afterAuthority <;> rfl

end Wire.MessageReader

structure CountedEndpoint (I G R : Type) (SR EV QS AN EvQ C : Type → Type) where
  services : Endpoint I G R SR EV
  queries : Queries I QS AN EvQ
  cache : Cache I C
  answerQuestions : Bool
  populateCache : Bool
  trustAdvertisedSrcAsSelf : Bool
  stats : Stats

inductive CountedCall (I : Type) where
  | host (call : EndpointCall I)
  | handle (rx : Received)
  | startQuery (spec : QuerySpec)
  | pollQuery (handle : QueryHandle)
  | queryTransmit (handle : QueryHandle) (buf : Bytes)
  | queryOutcome (handle : QueryHandle) (v4 v6 : FamilyAttempt I)
  | queryTimeout (handle : QueryHandle)
  | retireQuery (handle : QueryHandle)
  | cancelQuery (handle : QueryHandle)
  | sweepTerminatedQueries

structure CountedStep (I : Type) where
  now : I
  call : CountedCall I

section
variable {I G R : Type} {SR EV QS AN EvQ C : Type → Type} [Instant I] [SeedSource G]
  [SeedableRng R] [Pool SR] [Pool EV] [Pool QS] [Pool AN] [Pool EvQ] [Pool C]

namespace CountedEndpoint

def admitsOf (e : CountedEndpoint I G R SR EV QS AN EvQ C) (rx : Received)
    (reader : MessageReader) : Admits :=
  Admits.forDatagram rx.provenance (e.trustAdvertisedSrcAsSelf && rx.matchesAdvertised)
    e.answerQuestions (RouteEvents.untrustedResponse rx.src reader)

/-- `handle`, up to the iterator it hands back (receive.rs:119-576). -/
def handle (e : CountedEndpoint I G R SR EV QS AN EvQ C) (now : I) (rx : Received) :
    (CountedEndpoint I G R SR EV QS AN EvQ C × Except HandleError Admits) × Notes :=
  let received := [.packetsRx, .bytesRx rx.data.length]
  match MessageReader.tryParse rx.data with
  | .error err => ((e, .error (.parse err)), { receive := received ++ [.parseErrors] })
  | .ok reader =>
    let flags := reader.header.flags
    if flags.opcode ≠ 0 then
      ((e, .error (.invalidOpcode flags.opcode)), { receive := received ++ [.packetsDropped] })
    else if flags.responseCode ≠ 0 then
      ((e, .error (.invalidResponseCode flags.responseCode)),
        { receive := received ++ [.packetsDropped] })
    else
      let admits := e.admitsOf rx reader
      let inert := admits.allDenied
      let latched := if !inert && reader.sectionParseError then [.parseErrors] else []
      let dropped := if inert then [.packetsDropped] else []
      let (cache, cacheNotes) := e.cache.cachePassNoted now reader admits e.populateCache
      let (queries, queryNotes) := handledQueriesNoted now rx.src reader admits e.queries.queries
      (({ e with
          cache := cache
          queries := { e.queries with queries := queries } }, .ok admits),
        { receive := received ++ latched ++ dropped
          queries := queryNotes
          cache := cacheNotes })

def onQueries (e : CountedEndpoint I G R SR EV QS AN EvQ C)
    (x : Queries I QS AN EvQ × List QueryNote) :
    CountedEndpoint I G R SR EV QS AN EvQ C × Notes :=
  ({ e with queries := x.1 }, { queries := x.2 })

def noted (e : CountedEndpoint I G R SR EV QS AN EvQ C) (c : CountedStep I) :
    CountedEndpoint I G R SR EV QS AN EvQ C × Notes :=
  match c.call with
  | .host call =>
    let (services, serviceNotes) := e.services.nextNoted ⟨c.now, call⟩
    let (cache, cacheNotes) := match call with
      | .timeout => e.cache.sweepExpiredNoted c.now
      | _ => (e.cache, [])
    ({ e with
      services := services
      cache := cache }, { services := serviceNotes, cache := cacheNotes })
  | .handle rx =>
    let ((e, _), notes) := e.handle c.now rx
    (e, notes)
  | .startQuery spec => e.onQueries (e.queries.tryStartQueryNoted spec c.now)
  | .pollQuery handle => e.onQueries ((e.queries.pollQuery handle).1, [])
  | .queryTransmit handle buf => e.onQueries ((e.queries.pollQueryTransmit handle c.now buf).1, [])
  | .queryOutcome handle v4 v6 =>
    e.onQueries ((e.queries.noteQueryTransmitOutcome handle c.now v4 v6).1, [])
  | .queryTimeout handle => e.onQueries (e.queries.handleQueryTimeoutNoted handle c.now)
  | .retireQuery handle => e.onQueries (e.queries.retireQueryNoted handle)
  | .cancelQuery handle => e.onQueries (e.queries.cancelQueryNoted handle)
  | .sweepTerminatedQueries => e.onQueries (e.queries.sweepTerminatedQueries.1, [])

def next (e : CountedEndpoint I G R SR EV QS AN EvQ C) (c : CountedStep I) :
    CountedEndpoint I G R SR EV QS AN EvQ C :=
  let (e', notes) := e.noted c
  { e' with stats := e'.stats.after notes }

def Fresh (e : CountedEndpoint I G R SR EV QS AN EvQ C) : Prop :=
  e.services.Fresh ∧ e.queries.queries = Pool.new ∧ e.cache = Cache.new ∧ e.stats = .zero

def machine : Machine (CountedEndpoint I G R SR EV QS AN EvQ C) (CountedStep I) where
  start := Fresh
  admits _ _ := True
  next := next

/-- The datagram is rejected whole: for its opcode or its response code, or as nothing of it is
admitted. -/
def rejectedWhole (e : CountedEndpoint I G R SR EV QS AN EvQ C) (rx : Received) : Bool :=
  match MessageReader.tryParse rx.data with
  | .error _ => false
  | .ok reader => reader.header.flags.opcode != 0 || reader.header.flags.responseCode != 0 ||
      (e.admitsOf rx reader).allDenied

def malformed (rx : Received) : Bool :=
  match MessageReader.tryParse rx.data with
  | .error _ => true
  | .ok reader => !reader.wellFormed

theorem handle_receive (e : CountedEndpoint I G R SR EV QS AN EvQ C) (now : I) (rx : Received) :
    (e.handle now rx).2.receive = [.packetsRx, .bytesRx rx.data.length] ++
      (if e.rejectedWhole rx then [.packetsDropped]
      else if malformed rx then [.parseErrors] else []) := by
  unfold handle rejectedWhole malformed
  cases MessageReader.tryParse rx.data with
  | error err => rfl
  | ok reader =>
    dsimp only
    split
    · rename_i hopcode
      have hbad : (reader.header.flags.opcode != 0) = true := bne_iff_ne.mpr hopcode
      simp only [hbad, Bool.true_or, if_true]
    · rename_i hopcode
      have hquery : (reader.header.flags.opcode != 0) = false :=
        bne_eq_false_iff_eq.mpr (not_not.mp hopcode)
      split
      · rename_i hcode
        have hbad : (reader.header.flags.responseCode != 0) = true := bne_iff_ne.mpr hcode
        simp only [hquery, hbad, Bool.true_or, Bool.or_true, if_true]
      · rename_i hcode
        have hfine : (reader.header.flags.responseCode != 0) = false :=
          bne_eq_false_iff_eq.mpr (not_not.mp hcode)
        simp only [hquery, hfine, Bool.false_or, reader.sectionParseError_eq]
        by_cases hinert : (e.admitsOf rx reader).allDenied = true
        · simp [hinert]
        · by_cases hform : reader.wellFormed = true
          · simp [hinert, hform]
          · simp [hinert, hform]

/-- What the calls of a run note is tallied. -/
def tally (t : Tally)
    (tr : Transition (CountedEndpoint I G R SR EV QS AN EvQ C) (CountedStep I)) : Tally :=
  t.after (tr.pre.noted tr.call).2

def tallied (ts : List (Transition (CountedEndpoint I G R SR EV QS AN EvQ C) (CountedStep I))) :
    Tally :=
  summary tally .zero ts

/-- The tally is that of what there is, and the counters follow it modulo `2 ^ 64`. -/
structure Conserved (t : Tally) (e : CountedEndpoint I G R SR EV QS AN EvQ C) : Prop where
  queries : QueryTally.Books t.queries e.queries.queries
  services : ServiceTally.Counts t.services e.services
  cache : CacheStats.Sized e.stats.cache e.cache
  counted : e.stats.queries = t.queries.counted ∧ e.stats.services = t.services.counted

/-- What a call leaves agrees with what it notes. -/
structure Accounts (t : Tally) (e : CountedEndpoint I G R SR EV QS AN EvQ C)
    (x : CountedEndpoint I G R SR EV QS AN EvQ C × Notes) : Prop where
  stats : x.1.stats = e.stats
  queries : QueryTally.register.Leads (fun t (d : CountedEndpoint I G R SR EV QS AN EvQ C) =>
    QueryTally.Books t d.queries.queries) t.queries (x.1, x.2.queries)
  services : ServiceTally.register.Leads (fun t (d : CountedEndpoint I G R SR EV QS AN EvQ C) =>
    ServiceTally.Counts t d.services) t.services (x.1, x.2.services)
  cache : CacheStats.register.Leads (fun st (d : CountedEndpoint I G R SR EV QS AN EvQ C) =>
    CacheStats.Sized st d.cache) e.stats.cache (x.1, x.2.cache)

theorem Fresh.conserved [LawfulPool SR] [LawfulPool QS] [LawfulPool C]
    (e : CountedEndpoint I G R SR EV QS AN EvQ C) (h : e.Fresh) : Conserved .zero e := by
  obtain ⟨⟨config, rng, hservices⟩, hqueries, hcache, hstats⟩ := h
  refine ⟨?_, ⟨?_, Nat.le_refl 0⟩, ?_, ?_⟩
  · rw [hqueries]
    refine ⟨(census_new _).symm, ?_, Nat.le_refl 0, ?_⟩
    · rw [census_new]
      rfl
    · intro k q hq
      rw [get_new] at hq
      cases hq
  · rw [hservices]
    show 0 = (Pool.iter (Pool.new : SR (Route I R EV))).length
    rw [LawfulPool.iter_new]
    rfl
  · rw [hstats, hcache]
    show 0 = UInt64.ofNat (Pool.iter (Pool.new : C (CacheEntry I))).length
    rw [LawfulPool.iter_new]
    rfl
  · rw [hstats]
    exact ⟨rfl, rfl⟩

section
variable [OrderedPool SR] [ReleasingPool SR] [OrderedPool QS] [ReleasingPool QS] [LawfulPool AN]
  [LawfulPool EvQ] [OrderedPool C] [ReleasingPool C] [ReusingPool C] (t : Tally)
  (e : CountedEndpoint I G R SR EV QS AN EvQ C)

theorem Conserved.onQueries (h : Conserved t e) (x : Queries I QS AN EvQ × List QueryNote)
    (hx : QueryTally.register.Leads (fun t (d : Queries I QS AN EvQ) =>
      QueryTally.Books t d.queries) t.queries x) : Accounts t e (e.onQueries x) where
  stats := rfl
  queries := hx
  services := ServiceTally.register.leads_nil _ _ _ h.services
  cache := CacheStats.register.leads_nil _ _ _ h.cache

theorem Conserved.quiet {α : Type} (h : Conserved t e) (handle : QueryHandle) (absent : α)
    (f : Query I AN EvQ → Query I AN EvQ × α)
    (hf : QueryTally.Proper fun q => ((f q).1, [])) :
    Accounts t e (e.onQueries ((e.queries.call handle absent f).1, [])) := by
  apply h.onQueries t e
  have hsame : (e.queries.call handle absent f).1 =
      (e.queries.call handle ([] : List QueryNote) fun q => ((f q).1, [])).1 :=
    e.queries.call_fst handle absent [] f _ fun _ => rfl
  have hnotes : (e.queries.call handle ([] : List QueryNote) fun q => ((f q).1, [])).2 = [] := by
    rw [Queries.call_answer]
    cases e.queries.get? handle <;> rfl
  have hcall := h.queries.call t.queries e.queries handle _ hf
  rw [hsame]
  unfold Register.Leads at hcall ⊢
  rw [hnotes] at hcall
  exact hcall

theorem Conserved.handle (h : Conserved t e) (now : I) (rx : Received) :
    Accounts t e ((e.handle now rx).1.1, (e.handle now rx).2) := by
  have hidle : ∀ receive, Accounts t e (e, { receive := receive }) := fun receive =>
    ⟨rfl, QueryTally.register.leads_nil _ _ _ h.queries,
      ServiceTally.register.leads_nil _ _ _ h.services,
      CacheStats.register.leads_nil _ _ _ h.cache⟩
  unfold CountedEndpoint.handle
  cases MessageReader.tryParse rx.data with
  | error err => exact hidle _
  | ok reader =>
    dsimp only
    split
    · exact hidle _
    · split
      · exact hidle _
      · constructor
        · rfl
        · exact h.queries.handled t.queries e.queries.queries now rx.src reader _
        · exact ServiceTally.register.leads_nil _ _ _ h.services
        · exact CacheStats.Sized.cachePass e.stats.cache e.cache h.cache now reader _ _

theorem Conserved.noted (h : Conserved t e) (c : CountedStep I) : Accounts t e (e.noted c) := by
  obtain ⟨now, call⟩ := c
  cases call with
  | host call =>
    refine ⟨rfl, QueryTally.register.leads_nil _ _ _ h.queries,
      h.services.next t.services e.services ⟨now, call⟩, ?_⟩
    cases call with
    | timeout => exact CacheStats.Sized.sweepExpired e.stats.cache e.cache h.cache now
    | _ => exact CacheStats.register.leads_nil _ _ _ h.cache
  | handle rx => exact h.handle t e now rx
  | startQuery spec => exact h.onQueries t e _ (h.queries.start t.queries e.queries spec now)
  | pollQuery handle => exact h.quiet t e handle _ _ QueryTally.proper_pollQuery
  | queryTransmit handle buf =>
    exact h.quiet t e handle _ _ (QueryTally.proper_pollTransmit now buf)
  | queryOutcome handle v4 v6 =>
    exact h.quiet t e handle _ _ (QueryTally.proper_noteTransmitOutcome now v4 v6)
  | queryTimeout handle =>
    exact h.onQueries t e _
      (h.queries.call t.queries e.queries handle _ (QueryTally.proper_handleTimeout now))
  | retireQuery handle =>
    exact h.onQueries t e _ (h.queries.call t.queries e.queries handle _ QueryTally.proper_retire)
  | cancelQuery handle =>
    exact h.onQueries t e _ (h.queries.cancelQuery t.queries e.queries handle)
  | sweepTerminatedQueries =>
    exact h.onQueries t e _ (QueryTally.register.leads_nil _ _ _
      (h.queries.sweep t.queries e.queries))

theorem Conserved.next (h : Conserved t e) (c : CountedStep I) :
    Conserved (t.after (e.noted c).2) (e.next c) ∧
      ((t.after (e.noted c).2).Small → t.Small ∧ e.stats.NoUnderflow (e.noted c).2) := by
  obtain ⟨hstats, hqueries, hservices, hcache⟩ := h.noted t e c
  obtain ⟨hasked, hserved⟩ := h.counted
  have hstarted : t.queries.active ≤ t.queries.started := by
    rw [h.queries.active, h.queries.started]
    exact Nat.le_add_left _ _
  obtain ⟨hq, hqs⟩ := t.queries.counts _ hstarted hqueries.1
  obtain ⟨hs, hss⟩ := t.services.counts _ h.services.within hservices.1
  constructor
  · unfold CountedEndpoint.next
    refine ⟨hqueries.2, hservices.2, ?_, ?_, ?_⟩
    · dsimp only
      rw [hstats]
      exact hcache.2
    · dsimp only
      rw [hstats, Stats.after, hasked]
      exact hq
    · dsimp only
      rw [hstats, Stats.after, hserved]
      exact hs
  · rintro ⟨hfewq, hfews⟩
    obtain ⟨hsmallq, hfitsq⟩ := hqs hfewq
    obtain ⟨hsmalls, hfitss⟩ := hss hfews
    rw [Stats.NoUnderflow, hasked, hserved]
    exact ⟨⟨hsmallq, hsmalls⟩, hfitsq, hfitss⟩

theorem next_receive (h : Conserved t e) (now : I) (rx : Received) :
    let st := (e.next ⟨now, .handle rx⟩).stats.receive
    st.packetsDropped = e.stats.receive.packetsDropped + (if e.rejectedWhole rx then 1 else 0) ∧
      st.parseErrors = e.stats.receive.parseErrors +
        if malformed rx && !e.rejectedWhole rx then 1 else 0 := by
  have hstats : (e.handle now rx).1.1.stats = e.stats := (h.handle t e now rx).stats
  have hreceive : (e.next ⟨now, .handle rx⟩).stats.receive =
      ReceiveStats.register.after e.stats.receive (e.handle now rx).2.receive := by
    rw [← hstats]
    rfl
  dsimp only
  rw [hreceive, e.handle_receive now rx]
  cases e.rejectedWhole rx with
  | true => cases malformed rx <;> exact ⟨rfl, (UInt64.add_zero _).symm⟩
  | false =>
    cases malformed rx
    · exact ⟨(UInt64.add_zero _).symm, (UInt64.add_zero _).symm⟩
    · exact ⟨(UInt64.add_zero _).symm, rfl⟩

end

section
variable [OrderedPool SR] [ReleasingPool SR] [OrderedPool QS] [ReleasingPool QS] [LawfulPool AN]
  [LawfulPool EvQ] [OrderedPool C] [ReleasingPool C] [ReusingPool C]

theorem tallied_run
    (ts : List (Transition (CountedEndpoint I G R SR EV QS AN EvQ C) (CountedStep I)))
    (e : CountedEndpoint I G R SR EV QS AN EvQ C) (run : Run machine ts e) :
    Conserved (tallied ts) e ∧ ((tallied ts).Small → ∀ tr ∈ ts,
      tr.pre.stats.NoUnderflow (tr.pre.noted tr.call).2) := by
  induction run with
  | start s h => exact ⟨Fresh.conserved s h, fun _ tr htr => absurd htr List.not_mem_nil⟩
  | step ts s c run h ih =>
    obtain ⟨hconserved, hfits⟩ := ih
    obtain ⟨hnext, hsmall⟩ := hconserved.next _ s c
    rw [tallied, summary_snoc]
    refine ⟨hnext, fun hlast tr htr => ?_⟩
    obtain ⟨hbefore, hlastfits⟩ := hsmall hlast
    rcases List.mem_append.mp htr with hold | hnew
    · exact hfits hbefore tr hold
    · rw [List.mem_singleton.mp hnew]
      exact hlastfits

/-- In every run of an endpoint the gauges are the numbers of its routes, its live queries and its
cached records modulo `2 ^ 64`, every query that was started is done or active, and a datagram is
counted as dropped or as malformed just where it is rejected whole or malformed, and once. Where
fewer than `2 ^ 64` queries were started and services registered the gauges are exact, no gauge is
counted down at zero, and those that timed out are among the done. -/
theorem statistics_are_conserved
    (ts : List (Transition (CountedEndpoint I G R SR EV QS AN EvQ C) (CountedStep I)))
    (e : CountedEndpoint I G R SR EV QS AN EvQ C) (run : Run machine ts e) :
    let routes := e.services.routes.length
    let live := (Pool.iter e.queries.queries).countP fun kq => !kq.2.done
    e.stats.services.servicesActive = UInt64.ofNat routes ∧
      e.stats.queries.queriesActive = UInt64.ofNat live ∧
      e.stats.queries.queriesStarted =
        e.stats.queries.queriesDone + e.stats.queries.queriesActive ∧
      e.stats.cache.cacheSize = UInt64.ofNat (Pool.iter e.cache.entries).length ∧
      (∀ tr ∈ ts, ∀ now rx, tr.call = ⟨now, .handle rx⟩ →
        tr.post.stats.receive.packetsDropped =
            tr.pre.stats.receive.packetsDropped + (if tr.pre.rejectedWhole rx then 1 else 0) ∧
          tr.post.stats.receive.parseErrors = tr.pre.stats.receive.parseErrors +
            if malformed rx && !tr.pre.rejectedWhole rx then 1 else 0) ∧
      ((tallied ts).Small →
        e.stats.services.servicesActive.toNat = routes ∧
        e.stats.queries.queriesActive.toNat = live ∧
        e.stats.queries.queriesStarted.toNat =
          e.stats.queries.queriesDone.toNat + e.stats.queries.queriesActive.toNat ∧
        e.stats.queries.queriesTimeout ≤ e.stats.queries.queriesDone ∧
        ∀ tr ∈ ts, tr.pre.stats.NoUnderflow (tr.pre.noted tr.call).2) := by
  intro routes live
  obtain ⟨⟨⟨hlive, hstarted, htimeout, -⟩, ⟨hroutes, hregistered⟩, hcache, hasked, hserved⟩,
    hfits⟩ := tallied_run ts e run
  have hroutes : (tallied ts).services.active = routes := hroutes
  have hlive : (tallied ts).queries.active = live := hlive
  have hsum : (tallied ts).queries.started =
      (tallied ts).queries.done + (tallied ts).queries.active := by
    rw [hlive]
    exact hstarted
  rw [hasked, hserved]
  refine ⟨congrArg UInt64.ofNat hroutes, congrArg UInt64.ofNat hlive, ?_, hcache, ?_, ?_⟩
  · exact (congrArg UInt64.ofNat hsum).trans (UInt64.ofNat_add _ _)
  · intro tr htr now rx hcall
    obtain ⟨ht, -⟩ := run.mem machine ts e tr htr
    obtain ⟨us, hrun⟩ := run.reached machine ts e tr htr
    have hpost : tr.post = tr.pre.next ⟨now, .handle rx⟩ := by
      rw [← hcall]
      exact congrArg Transition.post ht
    rw [hpost]
    exact tr.pre.next_receive _ (tallied_run us tr.pre hrun).1 now rx
  · intro hsmall
    have ⟨hfew, hfews⟩ := hsmall
    have hexact : ∀ n m : Nat, n ≤ m → m < 2 ^ 64 → (UInt64.ofNat n).toNat = n := fun n m hle hlt =>
      UInt64.toNat_ofNat_of_lt' (lt_of_le_of_lt hle hlt)
    have hdone := hexact (tallied ts).queries.done _ (by omega) hfew
    have hactive := hexact (tallied ts).queries.active _ (by omega) hfew
    refine ⟨?_, hactive.trans hlive, ?_, ?_, hfits hsmall⟩
    · exact (hexact _ _ hregistered hfews).trans hroutes
    · show (UInt64.ofNat (tallied ts).queries.started).toNat =
        (UInt64.ofNat (tallied ts).queries.done).toNat +
          (UInt64.ofNat (tallied ts).queries.active).toNat
      rw [hdone, hactive, hexact _ _ (Nat.le_refl _) hfew, hsum]
    · show UInt64.ofNat (tallied ts).queries.timeout ≤ UInt64.ofNat (tallied ts).queries.done
      rw [UInt64.le_iff_toNat_le, hdone, hexact _ _ (by omega) hfew]
      exact htimeout

end
end CountedEndpoint
end

def justCounted : CountedEndpoint Uptime ZeroRng ZeroRng Slab Slab Slab Slab Slab Slab where
  services := .tryNew ⟨true, true, 0⟩ ⟨⟩
  queries := ⟨Pool.new, 0, 1⟩
  cache := .new
  answerQuestions := true
  populateCache := true
  trustAdvertisedSrcAsSelf := false
  stats := .zero

def busyCalls : List (CountedStep Uptime) :=
  [⟨0, .host (.register ServiceRecords.printer)⟩,
    ⟨0, .startQuery (QuerySpec.new ServiceRecords.printerHost .a)⟩, ⟨0, .retireQuery ⟨0⟩⟩,
    ⟨0, .cancelQuery ⟨0⟩⟩, ⟨0, .startQuery (QuerySpec.new ServiceRecords.printerHost .a)⟩,
    ⟨0, .handle ⟨multicastDst, [], .unknown, false⟩⟩, ⟨0, .host (.forceRemove ⟨0⟩)⟩]

namespace CountedEndpoint

theorem justCounted_run (es : List (CountedStep Uptime))
    (h : machine.Admitted justCounted es) :
    Run machine (machine.trace justCounted es) (machine.play justCounted es) :=
  (Run.start (m := machine) justCounted ⟨⟨⟨true, true, 0⟩, ⟨⟩, rfl⟩, rfl, rfl, rfl⟩).play _ _ _ es h

theorem statistics_are_conserved_busy :
    let e := machine.play justCounted busyCalls
    e.stats.services.servicesActive.toNat = e.services.routes.length ∧
      e.stats.queries.queriesTimeout ≤ e.stats.queries.queriesDone := by
  have run := justCounted_run busyCalls
    ⟨trivial, trivial, trivial, trivial, trivial, trivial, trivial, trivial⟩
  obtain ⟨-, -, -, -, -, hexact⟩ := statistics_are_conserved _ _ run
  obtain ⟨hservices, -, -, htimeout, -⟩ := hexact (by decide +kernel)
  exact ⟨hservices, htimeout⟩

/-! A query that timed out, and then `2 ^ 64 - 1` queries that are cancelled. -/

abbrev Plain := CountedEndpoint Uptime ZeroRng ZeroRng Slab Slab Slab Slab Slab Slab

abbrev printerSpec : QuerySpec := QuerySpec.new ServiceRecords.printerHost .a

theorem cancel_one (q : Query Uptime Slab Slab) (handle next : UInt32) (txid : UInt16)
    (h : q.handle = ⟨handle⟩) (hlive : q.done = false) :
    (⟨⟨[some q]⟩, next, txid⟩ : Queries Uptime Slab Slab Slab).cancelQueryNoted ⟨handle⟩ =
      (⟨⟨[none]⟩, next, txid⟩, [.queriesDone, .decrQueriesActive]) := by
  have hfound : (⟨⟨[some q]⟩, next, txid⟩ : Queries Uptime Slab Slab Slab).queryKey ⟨handle⟩ =
      some 0 := by
    simp [Queries.queryKey, Pool.iter, Slab.occupied, h]
  rw [Queries.cancelQueryNoted, hfound]
  show (_, if q.done then _ else _) = _
  rw [hlive]
  rfl

theorem cancelled_again (e : Plain) (handle : UInt32) (txid : UInt16)
    (h : e.queries = ⟨⟨[none]⟩, handle, txid⟩) :
    let e' := (e.next ⟨0, .startQuery printerSpec⟩).next ⟨0, .cancelQuery ⟨handle⟩⟩
    (∃ handle' txid', e'.queries = ⟨⟨[none]⟩, handle', txid'⟩) ∧
      e'.stats.queries.queriesDone = e.stats.queries.queriesDone + 1 ∧
      e'.stats.queries.queriesTimeout = e.stats.queries.queriesTimeout := by
  have hone := cancel_one ((⟨⟨[none]⟩, handle, txid⟩ : Queries Uptime Slab Slab Slab).started
    printerSpec 0) handle (saturatingSucc32 handle) (if txid + 1 = 0 then 1 else txid + 1) rfl rfl
  have hstart : e.queries.tryStartQueryNoted printerSpec 0 =
      (⟨⟨[some ((⟨⟨[none]⟩, handle, txid⟩ : Queries Uptime Slab Slab Slab).started printerSpec 0)]⟩,
        saturatingSucc32 handle, if txid + 1 = 0 then 1 else txid + 1⟩,
        [.queriesStarted, .incrQueriesActive]) := by
    rw [h]
    rfl
  intro e'
  let started := e.queries.tryStartQueryNoted printerSpec 0
  have he : e' = { e with
      queries := (started.1.cancelQueryNoted ⟨handle⟩).1
      stats := (e.stats.after { queries := started.2 }).after
        { queries := (started.1.cancelQueryNoted ⟨handle⟩).2 } } := rfl
  rw [he, show started = _ from hstart, hone]
  exact ⟨⟨_, _, rfl⟩, rfl, rfl⟩

theorem cancelled (n : Nat) : ∃ ts, ∃ e : Plain, Run machine ts e ∧
    (∃ handle txid, e.queries = ⟨⟨[none]⟩, handle, txid⟩) ∧
    e.stats.queries.queriesDone = UInt64.ofNat (n + 1) ∧ e.stats.queries.queriesTimeout = 1 := by
  induction n with
  | zero =>
    exact ⟨_, _, justCounted_run [⟨0, .startQuery printerSpec⟩, ⟨0, .retireQuery ⟨0⟩⟩,
      ⟨0, .cancelQuery ⟨0⟩⟩] ⟨trivial, trivial, trivial, trivial⟩, ⟨_, _, rfl⟩, rfl, rfl⟩
  | succ n ih =>
    obtain ⟨ts, e, run, ⟨handle, txid, h⟩, hdone, htimeout⟩ := ih
    obtain ⟨hidle, hdone', htimeout'⟩ := e.cancelled_again handle txid h
    have hagain := (run.step ts e ⟨0, .startQuery printerSpec⟩ trivial).step _ _
      (⟨0, .cancelQuery ⟨handle⟩⟩ : CountedStep Uptime) trivial
    refine ⟨_, _, hagain, hidle, hdone'.trans ?_, htimeout'.trans htimeout⟩
    rw [hdone, ← UInt64.ofNat_one, ← UInt64.ofNat_add]

/-- One query timed out and `2 ^ 64 - 1` were cancelled: none is counted as done. -/
theorem timeouts_outnumber_the_done : ¬ ∀ ts (e : Plain), Run machine ts e →
    e.stats.queries.queriesTimeout ≤ e.stats.queries.queriesDone := by
  intro h
  obtain ⟨ts, e, run, -, hdone, htimeout⟩ := cancelled (2 ^ 64 - 1)
  have hle := h ts e run
  rw [hdone, htimeout] at hle
  exact absurd hle (by decide)

end CountedEndpoint
end Hick
