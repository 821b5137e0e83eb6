import Hick.Mio.LookupSteps
import Hick.Routing.Scene

/-!
# The books through a tick (hick-mio/src/driver.rs:1078-1505)

A tick reads every query of a caller once, after it has received, fired the timers and drained the
transmits.
-/

set_option linter.unusedSectionVars false

namespace Hick
open Octets Wire

def Handed.query : Handed → Option QueryHandle
  | .service _ _ => none
  | .answer handle _ => some handle
  | .missed handle _ => some handle
  | .terminal handle _ _ => some handle

def about (handle : QueryHandle) (log : List Handed) : List Handed :=
  log.filter fun entry => decide (entry.query = some handle)

theorem about_append (handle : QueryHandle) (l l' : List Handed) :
    about handle (l ++ l') = about handle l ++ about handle l' := List.filter_append ..

theorem about_eq_nil (handle : QueryHandle) (l : List Handed)
    (h : ∀ entry ∈ l, entry.query ≠ some handle) : about handle l = [] := by
  rw [about, List.filter_eq_nil_iff]
  intro entry hentry
  simpa using h entry hentry

theorem about_eq_self (handle : QueryHandle) (l : List Handed)
    (h : ∀ entry ∈ l, entry.query = some handle) : about handle l = l := by
  rw [about, List.filter_eq_self]
  intro entry hentry
  simpa using h entry hentry

namespace Query
variable {I : Type} {AN EV : Type → Type} [Instant I] [Pool AN] [Pool EV]

theorem pollTransmit_error (q : Query I AN EV) (now : I) (buf : Bytes) (e : TransmitError)
    (h : (q.pollTransmit now buf).2 = .error e) :
    q.done = false ∧ (q.pollTransmit now buf).1 = q := by
  rw [pollTransmit] at h ⊢
  split at h
  · cases h
  · rename_i hlive
    split at h
    · cases h
    · rename_i hopen
      rw [if_neg hlive, if_neg hopen]
      simp only [Bool.or_eq_true, Bool.not_eq_true', not_or, Bool.not_eq_true] at hlive
      split at h
      · exact ⟨hlive.1, rfl⟩
      · cases h

theorem noteTransmitOutcome_retires (q : Query I AN EV) (now : I) (v4 v6 : FamilyAttempt I)
    (h : (q.noteTransmitOutcome now v4 v6).2.retireProducer = true) :
    (q.noteTransmitOutcome now v4 v6).1.done = false := by
  cases hdone : q.done with
  | true =>
    have hquiet : (q.noteTransmitOutcome now v4 v6).2.retireProducer = false := by
      rw [noteTransmitOutcome]
      split
      · rfl
      · simp only [hdone, if_true]
        rfl
    rw [hquiet] at h
    cases h
  | false =>
    by_cases hawaits : q.Awaits
    · rw [q.noteTransmitOutcome_heard now v4 v6 hawaits]
      exact hdone
    · rw [q.noteTransmitOutcome_unheard now v4 v6 hawaits]
      exact hdone

theorem retire_ends (q : Query I AN EV) :
    q.retire.done = true ∧ q.retire.terminalEmitted = q.terminalEmitted := by
  rw [retire, terminate]
  cases hdone : q.done with
  | true => exact ⟨hdone, rfl⟩
  | false => exact ⟨rfl, rfl⟩

end Query

namespace Mdns
section
variable {I : Type} {QS AN EV LK : Type → Type} [Instant I] [Pool QS] [Pool AN] [Pool EV] [Pool LK]
variable [ReleasingPool QS] [LawfulPool AN]

structure Settles (m m' : Mdns I QS AN EV LK) : Prop where
  endpoint : Queries.Along Query.Settled m.endpoint m'.endpoint
  queries : ∀ h, Option.Rel SameEntry (m.queries.lookup h) (m'.queries.lookup h)
  lookups : m'.lookups = m.lookups
  clock : Later m.clock m'.clock

theorem Settles.moves (m m' : Mdns I QS AN EV LK) (h : Settles m m') : Moves m m' :=
  ⟨Queries.Along.settled _ _ h.endpoint, h.queries, h.lookups, h.clock⟩

variable (m : Mdns I QS AN EV LK)

theorem Settles.refl : Settles m m :=
  ⟨Queries.Along.refl _ Query.Settled.refl _,
    fun _ => Queries.rel_refl SameEntry (fun _ => ⟨rfl, rfl⟩) _, rfl, .refl _⟩

theorem Settles.trans (a b c : Mdns I QS AN EV LK) (h : Settles a b) (h' : Settles b c) :
    Settles a c :=
  ⟨Queries.Along.trans _ Query.Settled.trans _ _ _ h.endpoint h'.endpoint,
    ((h.moves a b).trans a b c (h'.moves b c)).queries, by rw [h'.lookups, h.lookups],
    h.clock.trans _ _ _ h'.clock⟩

theorem Settles.of_endpoint (e : Queries I QS AN EV)
    (h : Queries.Along Query.Settled m.endpoint e) : Settles m { m with endpoint := e } :=
  ⟨h, fun _ => Queries.rel_refl SameEntry (fun _ => ⟨rfl, rfl⟩) _, rfl, .refl _⟩

theorem settles_now : Settles m m.now.2 :=
  ⟨Queries.Along.refl _ Query.Settled.refl _,
    fun _ => Queries.rel_refl SameEntry (fun _ => ⟨rfl, rfl⟩) _, rfl, later_succ _⟩

theorem settles_modify (handle : QueryHandle)
    (f : QueryCtx I → QueryCtx I) (hf : ∀ ctx, SameEntry ctx (f ctx)) :
    Settles m { m with queries := m.queries.modify f handle } := by
  refine ⟨Queries.Along.refl _ Query.Settled.refl _, fun k => ?_, rfl, .refl _⟩
  simp only
  rw [Assoc.lookup_modify]
  split
  · cases m.queries.lookup k with
    | none => exact .none
    | some ctx => exact .some (hf ctx)
  · exact Queries.rel_refl SameEntry (fun _ => ⟨rfl, rfl⟩) _

theorem Settles.query (m m' : Mdns I QS AN EV LK) (h : Settles m m') (hd : m.endpoint.Distinct)
    (k : QueryHandle) (q : Query I AN EV) (hq : m.endpoint.get? k = some q) :
    ∃ p, m'.endpoint.get? k = some p ∧ q.Settled p := by
  have hk := (h.endpoint.2 hd).2 k
  rw [hq] at hk
  generalize m'.endpoint.get? k = x at *
  cases hk with
  | some hs => exact ⟨_, rfl, hs⟩

/-- What a drain that began with the books of `m` has done: each query it has retired has ended,
and its caller was told so, with nothing read before. -/
structure Drains (m : Mdns I QS AN EV LK) (d : Draining I QS AN EV LK) : Prop where
  settles : Settles m d.mdns
  ended : ∀ h, h ∈ d.retired → ∃ q, d.mdns.endpoint.get? h = some q ∧ q.done = true
  here : ∀ h, h ∈ d.retired → h ∈ m.queries
  told : ∀ h, h ∈ d.retired → (m.callerSeq h).isSome = true →
    ∃ update, about h d.handed = [.terminal h update (m.acceptedOf h)]
  silent : ∀ h, h ∉ d.retired ∨ m.callerSeq h = none → about h d.handed = []

theorem Drains.settle (m m' : Mdns I QS AN EV LK) (d : Draining I QS AN EV LK) (h : Drains m d)
    (hb : m.endpoint.Distinct) (hs : Settles d.mdns m') :
    Drains m { d with mdns := m' } := by
  refine ⟨h.settles.trans _ _ _ hs, fun k hk => ?_, h.here, h.told, h.silent⟩
  obtain ⟨q, hq, hdone⟩ := h.ended k hk
  obtain ⟨p, hp, hqp⟩ := hs.query _ _ (h.settles.endpoint.2 hb).1 k q hq
  refine ⟨p, hp, ?_⟩
  rcases hqp.evolves.window with ⟨hsame, -⟩ | hend
  · rw [hsame, hdone]
  · exact hend

theorem Settles.acceptedOf (m m' : Mdns I QS AN EV LK) (h : Settles m m')
    (hd : m.endpoint.Distinct) (k : QueryHandle) (q : Query I AN EV)
    (hq : m.endpoint.get? k = some q) : m'.acceptedOf k = m.acceptedOf k := by
  obtain ⟨p, hp, hqp⟩ := h.query m m' hd k q hq
  rw [m.acceptedOf_eq k q hq, m'.acceptedOf_eq k p hp, hqp.nextSeq]

theorem owned_iff_callerSeq (m m' : Mdns I QS AN EV LK) (h : Settles m m') (handle : QueryHandle)
    (hmem : handle ∈ m.queries) :
    ((m'.queries.lookup handle).any fun ctx => ctx.owner.isSome) = true ↔
      m.callerSeq handle = none := by
  obtain ⟨ctx, hctx⟩ := (Assoc.mem_iff handle _).mp hmem
  have hk := h.queries handle
  rw [callerSeq]
  rw [hctx] at hk ⊢
  generalize m'.queries.lookup handle = x at *
  cases hk with
  | some hsame =>
    simp only [Option.any_some, Option.bind_some]
    rw [hsame.1]
    cases ctx.owner with
    | none => simp
    | some owner => simp

theorem retireInDrain_drains (slots : Nat → Option (LookupCtx I))
    (hb : m.Books slots) (d : Draining I QS AN EV LK) (h : Drains m d) (handle : QueryHandle)
    (hmem : handle ∈ m.queries)
    (hlive : ∀ q, d.mdns.endpoint.get? handle = some q → q.done = false) :
    Drains m (retireInDrain d handle) := by
  obtain ⟨q₀, hq₀⟩ := Option.isSome_iff_exists.mp ((hb.shared handle).mpr hmem)
  have hb' := hb.moves m d.mdns slots (h.settles.moves _ _)
  obtain ⟨q, hq, -⟩ := h.settles.query m d.mdns hb.distinct handle q₀ hq₀
  have hnew : handle ∉ d.retired := by
    intro hin
    obtain ⟨p, hp, hdone⟩ := h.ended handle hin
    rw [hlive p hp] at hdone
    cases hdone
  have hsilent : q.terminalEmitted = false := by
    cases he : q.terminalEmitted with
    | false => rfl
    | true =>
      have := (hb'.numbered handle q hq).ended (.inl he)
      rw [hlive q hq] at this
      cases this
  -- the retired query, and what it says of its end
  have hretire := d.mdns.endpoint.along_retireQuery handle
  obtain ⟨hd1, hget1⟩ := d.mdns.endpoint.call_get? hb'.distinct handle ()
    (fun q => (q.retire, ())) fun q => q.retire_settled.evolves.handle
  have hq1 : (d.mdns.endpoint.retireQuery handle).get? handle = some q.retire := by
    rw [show (d.mdns.endpoint.retireQuery handle).get? handle = _ from hget1 handle, if_pos rfl, hq,
      Option.map_some]
  obtain ⟨update, hupdate⟩ := q.retire.pollQuery_ended q.retire_ends.1
    (by rw [q.retire_ends.2, hsilent])
  have hpoll := (d.mdns.endpoint.retireQuery handle).along_pollQuery handle
  obtain ⟨-, hget2⟩ := (d.mdns.endpoint.retireQuery handle).call_get? hd1 handle none
    Query.pollQuery fun q => q.pollQuery_handle
  have hanswer := (d.mdns.endpoint.retireQuery handle).call_answer handle none Query.pollQuery
  rw [hq1] at hanswer
  simp only [Option.map_some, Option.getD_some] at hanswer
  rw [hupdate] at hanswer
  have hq2 : ((d.mdns.endpoint.retireQuery handle).pollQuery handle).1.get? handle =
      some q.retire.pollQuery.1 := by
    rw [show ((d.mdns.endpoint.retireQuery handle).pollQuery handle).1.get? handle = _ from
      hget2 handle, if_pos rfl, hq1, Option.map_some]
  have hsettles : Settles d.mdns { d.mdns with
      endpoint := ((d.mdns.endpoint.retireQuery handle).pollQuery handle).1 } :=
    .of_endpoint _ _ (Queries.Along.trans _ Query.Settled.trans _ _ _ hretire hpoll)
  have hdone : q.retire.pollQuery.1.done = true := by
    rcases q.retire.pollQuery_settled.evolves.window with ⟨hsame, -⟩ | hend
    · rw [hsame, q.retire_ends.1]
    · exact hend
  have haccepted : d.mdns.acceptedOf handle = m.acceptedOf handle :=
    h.settles.acceptedOf m d.mdns hb.distinct handle q₀ hq₀
  have howned := owned_iff_callerSeq m d.mdns h.settles handle hmem
  have hbase := h.settle m _ d hb.distinct hsettles
  have heq : retireInDrain d handle =
      { mdns := { d.mdns with
          endpoint := ((d.mdns.endpoint.retireQuery handle).pollQuery handle).1 }
        retired := d.retired ++ [handle]
        handed := if ((d.mdns.queries.lookup handle).any fun ctx => ctx.owner.isSome) = true
          then d.handed
          else d.handed ++ [.terminal handle update (m.acceptedOf handle)] } := by
    rw [retireInDrain]
    simp only [haccepted]
    rw [show (d.mdns.endpoint.retireQuery handle).pollQuery handle =
      (((d.mdns.endpoint.retireQuery handle).pollQuery handle).1, some update) from
        Prod.ext rfl hanswer]
  rw [heq]
  refine ⟨hbase.settles, fun k hk => ?_, fun k hk => ?_, fun k hk hcaller => ?_, fun k hk => ?_⟩
  · rcases List.mem_append.mp hk with hold | hk
    · exact hbase.ended k hold
    · rw [List.mem_singleton.mp hk]
      exact ⟨_, hq2, hdone⟩
  · rcases List.mem_append.mp hk with hold | hk
    · exact h.here k hold
    · rw [List.mem_singleton.mp hk]
      exact hmem
  · by_cases hsame : k = handle
    · rw [hsame] at hcaller ⊢
      have hnot : ¬((d.mdns.queries.lookup handle).any fun ctx => ctx.owner.isSome) = true := by
        rw [howned]
        intro hnone
        rw [hnone] at hcaller
        cases hcaller
      refine ⟨update, ?_⟩
      rw [if_neg hnot, about_append, h.silent handle (.inl hnew), List.nil_append]
      exact about_eq_self handle _ fun entry hentry => by rw [List.mem_singleton.mp hentry]; rfl
    · have hold : k ∈ d.retired := by
        rcases List.mem_append.mp hk with hold | hk
        · exact hold
        · exact absurd (List.mem_singleton.mp hk) hsame
      obtain ⟨u, hu⟩ := h.told k hold hcaller
      refine ⟨u, ?_⟩
      split
      · exact hu
      · rw [about_append, hu, about_eq_nil k [_], List.append_nil]
        intro entry hentry hquery
        rw [List.mem_singleton.mp hentry] at hquery
        exact hsame (Option.some.inj hquery).symm
  · have hbefore : k ∉ d.retired ∨ m.callerSeq k = none := by
      rcases hk with hk | hk
      · exact .inl fun hold => hk (List.mem_append_left _ hold)
      · exact .inr hk
    split
    · exact h.silent k hbefore
    · rename_i hnot
      rw [about_append, h.silent k hbefore, List.nil_append]
      apply about_eq_nil
      intro entry hentry hquery
      rw [List.mem_singleton.mp hentry] at hquery
      obtain rfl : handle = k := Option.some.inj hquery
      rcases hk with hk | hk
      · exact hk (List.mem_append_right _ (List.mem_singleton.mpr rfl))
      · exact hnot (howned.mpr hk)

theorem offerQuestion_spec (hd : m.endpoint.Distinct)
    (handle : QueryHandle) (sent : Sent) (fates : PerFamily (SocketFate I)) :
    Settles m (m.offerQuestion handle sent fates).1 ∧
      ((m.offerQuestion handle sent fates).2.retireProducer = true → ∀ q,
        (m.offerQuestion handle sent fates).1.endpoint.get? handle = some q → q.done = false) := by
  have hsend : Settles m (m.sendQuestion handle sent fates).1 :=
    settles_modify m handle _ fun _ => ⟨rfl, rfl⟩
  have hsame : (m.sendQuestion handle sent fates).1.endpoint = m.endpoint := rfl
  rw [offerQuestion]
  generalize m.sendQuestion handle sent fates = sentOff at *
  obtain ⟨m', v4, v6⟩ := sentOff
  simp only [now] at hsend hsame ⊢
  rw [← hsame] at hd
  have hnote := m'.endpoint.along_noteQueryTransmitOutcome handle (m'.clock 0) v4 v6
  have hanswer := m'.endpoint.call_answer handle .nothing fun q =>
    q.noteTransmitOutcome (m'.clock 0) v4 v6
  obtain ⟨-, hget⟩ := m'.endpoint.call_get? hd handle .nothing
    (fun q => q.noteTransmitOutcome (m'.clock 0) v4 v6)
    fun q => (q.noteTransmitOutcome_settled _ _ _).evolves.handle
  have hgot := hget handle
  rw [if_pos rfl] at hgot
  refine ⟨hsend.trans _ _ _ ((settles_now m').trans _ _ _ (.of_endpoint m'.now.2 _ hnote)),
    fun hretires q hq => ?_⟩
  change (m'.endpoint.noteQueryTransmitOutcome handle (m'.clock 0) v4 v6).2 = _ at hanswer
  rw [hanswer] at hretires
  replace hq := hgot.symm.trans hq
  cases hp : m'.endpoint.get? handle with
  | none =>
    rw [hp] at hq
    cases hq
  | some p =>
    rw [hp] at hq hretires
    cases hq
    exact Query.noteTransmitOutcome_retires p _ _ _ hretires

def afterOffer (t : TickInput I) (handle : QueryHandle) (left spent : Nat)
    (d : Draining I QS AN EV LK) (offered : Mdns I QS AN EV LK × TransmitConfirm) :
    Draining I QS AN EV LK × Nat × Bool :=
  if offered.2.retireProducer then
    (retireInDrain { d with mdns := offered.1 } handle, spent + 1, false)
  else queryTurn t handle left (spent + 1) { d with mdns := offered.1 }

theorem queryTurn_drains (t : TickInput I) (handle : QueryHandle) (m : Mdns I QS AN EV LK)
    (slots : Nat → Option (LookupCtx I)) (hb : m.Books slots) (hmem : handle ∈ m.queries)
    (left spent : Nat) (d : Draining I QS AN EV LK) (h : Drains m d) :
    Drains m (queryTurn t handle left spent d).1 := by
  induction left generalizing spent d with
  | zero => exact h
  | succ left ih =>
    obtain ⟨q₀, hq₀⟩ := Option.isSome_iff_exists.mp ((hb.shared handle).mpr hmem)
    have hb' := hb.moves m d.mdns slots (h.settles.moves _ _)
    obtain ⟨q, hq, -⟩ := h.settles.query m d.mdns hb.distinct handle q₀ hq₀
    have hnow := settles_now d.mdns
    have hpoll := d.mdns.endpoint.along_pollQueryTransmit handle (d.mdns.clock 0) t.sendBuf
    have hanswer := d.mdns.endpoint.call_answer handle (.ok none) fun q =>
      q.pollTransmit (d.mdns.clock 0) t.sendBuf
    obtain ⟨hd1, hget1⟩ := d.mdns.endpoint.call_get? hb'.distinct handle (.ok none)
      (fun q => q.pollTransmit (d.mdns.clock 0) t.sendBuf)
      fun q => (q.pollTransmit_settled _ _).evolves.handle
    rw [hq] at hanswer
    simp only [Option.map_some, Option.getD_some] at hanswer
    have hq1 := hget1 handle
    rw [if_pos rfl, hq, Option.map_some] at hq1
    change (d.mdns.endpoint.pollQueryTransmit handle (d.mdns.clock 0) t.sendBuf).2 = _ at hanswer
    change (d.mdns.endpoint.pollQueryTransmit handle (d.mdns.clock 0) t.sendBuf).1.Distinct at hd1
    change (d.mdns.endpoint.pollQueryTransmit handle (d.mdns.clock 0) t.sendBuf).1.get? handle =
      _ at hq1
    rw [queryTurn]
    simp only [now]
    generalize d.mdns.endpoint.pollQueryTransmit handle (d.mdns.clock 0) t.sendBuf = polled at *
    obtain ⟨e1, result⟩ := polled
    simp only at hpoll hanswer hd1 hq1
    have hs1 : Settles d.mdns { d.mdns.now.2 with endpoint := e1 } :=
      hnow.trans _ _ _ (.of_endpoint _ _ hpoll)
    have hdrains1 := h.settle m _ d hb.distinct hs1
    obtain e | _ | sent := result
    · simp only
      apply retireInDrain_drains m slots hb _ hdrains1 handle hmem
      intro p hp
      obtain ⟨hlive, hsame⟩ := q.pollTransmit_error _ _ e hanswer.symm
      rw [hsame] at hq1
      obtain rfl : p = q := Option.some.inj (hp.symm.trans hq1)
      exact hlive
    · exact hdrains1
    · obtain ⟨hoffer, hretires⟩ := offerQuestion_spec { d.mdns.now.2 with endpoint := e1 } hd1
        handle sent (t.sockets handle spent)
      change m.Drains (afterOffer t handle left spent d
        (offerQuestion { d.mdns.now.2 with endpoint := e1 } handle sent
          (t.sockets handle spent))).1
      generalize offerQuestion { d.mdns.now.2 with endpoint := e1 } handle sent
        (t.sockets handle spent) = offered at *
      obtain ⟨m', confirm⟩ := offered
      have hdrains2 := h.settle m _ d hb.distinct (hs1.trans _ _ _ hoffer)
      dsimp only [afterOffer]
      split
      · rename_i hretire
        exact retireInDrain_drains m slots hb _ hdrains2 handle hmem (hretires hretire)
      · exact ih (spent + 1) _ hdrains2

def drainRun (t : TickInput I) (m : Mdns I QS AN EV LK) : Draining I QS AN EV LK :=
  (m.txQueue.serve (txScratch t m) maxSendCreditsPerDrain (drainVisit t) ⟨m, [], []⟩).1

theorem drainRun_drains (t : TickInput I) (m : Mdns I QS AN EV LK)
    (slots : Nat → Option (LookupCtx I)) (hb : m.Books slots) : Drains m (drainRun t m) := by
  have hstart : Drains m ⟨m, [], []⟩ := ⟨.refl m, nofun, nofun, nofun, fun _ _ => rfl⟩
  refine TxQueue.serveFrom_keeps (Drains m) (drainVisit t) (fun d slot quantum seq hd => ?_) _ _ _ _ hstart
  cases slot with
  | service handle =>
    have hnone : ∀ k, about k ((t.serviceTurn handle quantum).1.map (.service handle)) = [] := by
      intro k
      apply about_eq_nil
      intro entry hentry
      obtain ⟨update, -, rfl⟩ := List.mem_map.mp hentry
      exact nofun
    refine ⟨hd.settles, hd.ended, hd.here, fun k hk hcaller => ?_, fun k hk => ?_⟩
    · obtain ⟨update, hu⟩ := hd.told k hk hcaller
      refine ⟨update, ?_⟩
      simp only [drainVisit]
      rw [about_append, hu, hnone, List.append_nil]
    · simp only [drainVisit]
      rw [about_append, hd.silent k hk, hnone, List.append_nil]
  | query handle =>
    rw [drainVisit]
    cases hctx : d.mdns.queries.lookup handle with
    | none => exact hd
    | some ctx =>
      have hmem : handle ∈ m.queries :=
        ((hd.settles.moves _ _).mem m d.mdns handle).mp ((Assoc.mem_iff _ _).mpr ⟨ctx, hctx⟩)
      have hseat := hd.settle m _ d hb.distinct
        (settles_modify d.mdns handle (fun ctx => { ctx with txSeq := seq }) fun _ => ⟨rfl, rfl⟩)
      exact queryTurn_drains t handle m slots hb hmem quantum 0 _ hseat

theorem callerSeq_drops (handles : List QueryHandle) (m : Mdns I QS AN EV LK) (k : QueryHandle) :
    (handles.foldl dropQuery m).callerSeq k = if k ∈ handles then none else m.callerSeq k := by
  induction handles generalizing m with
  | nil => simp
  | cons handle rest ih =>
    rw [List.foldl_cons, ih, callerSeq_drop]
    by_cases hk : k = handle
    · simp [hk]
    · simp [hk]

theorem drops_rest (handles : List QueryHandle) (m : Mdns I QS AN EV LK) :
    (handles.foldl dropQuery m).endpoint.nextQueryHandle = m.endpoint.nextQueryHandle ∧
      (handles.foldl dropQuery m).lookups = m.lookups ∧
      (handles.foldl dropQuery m).clock = m.clock := by
  induction handles generalizing m with
  | nil => exact ⟨rfl, rfl, rfl⟩
  | cons handle rest ih =>
    obtain ⟨hnext, hl, hc⟩ := ih (m.dropQuery handle)
    refine ⟨?_, hl, hc⟩
    rw [List.foldl_cons, hnext]
    exact cancelQuery_next m.endpoint handle

structure DrainSpec (t : TickInput I) (m m' : Mdns I QS AN EV LK) (handed : List Handed)
    (slots : Nat → Option (LookupCtx I)) : Prop where
  books : m'.Books slots
  handed : handed = (drainRun t m).handed
  callers : ∀ h, m'.callerSeq h = if h ∈ (drainRun t m).retired then none else m.callerSeq h
  next : m'.endpoint.nextQueryHandle = m.endpoint.nextQueryHandle
  lookups : m'.lookups = m.lookups
  clock : Later m.clock m'.clock

theorem drainTransmits_spec (t : TickInput I) (m : Mdns I QS AN EV LK)
    (slots : Nat → Option (LookupCtx I)) (hb : m.Books slots) :
    DrainSpec t m (m.drainTransmits t).1 (m.drainTransmits t).2 slots := by
  have hdrains := drainRun_drains t m slots hb
  have hbooks := Books.drops (drainRun t m).retired (drainRun t m).mdns slots
    (hb.moves m _ slots (hdrains.settles.moves _ _))
  obtain ⟨hnext, hl, hc⟩ := drops_rest (drainRun t m).retired (drainRun t m).mdns
  have hcallers : ∀ h, ((drainRun t m).retired.foldl dropQuery (drainRun t m).mdns).callerSeq h =
      if h ∈ (drainRun t m).retired then none else m.callerSeq h := by
    intro h
    rw [callerSeq_drops, (hdrains.settles.moves _ _).callerSeq m _ h]
  have hspec : ∀ m' : Mdns I QS AN EV LK, m'.endpoint =
      ((drainRun t m).retired.foldl dropQuery (drainRun t m).mdns).endpoint →
      m'.queries = ((drainRun t m).retired.foldl dropQuery (drainRun t m).mdns).queries →
      m'.lookups = ((drainRun t m).retired.foldl dropQuery (drainRun t m).mdns).lookups →
      m'.clock = ((drainRun t m).retired.foldl dropQuery (drainRun t m).mdns).clock →
      DrainSpec t m m' (drainRun t m).handed slots := by
    intro m' he hq hl' hc'
    refine ⟨?_, rfl, fun h => ?_, ?_, by rw [hl', hl, hdrains.settles.lookups], ?_⟩
    · have hmoves : Moves ((drainRun t m).retired.foldl dropQuery (drainRun t m).mdns) m' := by
        refine ⟨?_, fun h => ?_, hl', by rw [hc']; exact .refl _⟩
        · rw [he]
          exact Queries.Along.refl _ Query.Evolves.refl _
        · rw [hq]
          exact Queries.rel_refl SameEntry (fun _ => ⟨rfl, rfl⟩) _
      exact hbooks.moves _ m' slots hmoves
    · rw [callerSeq, hq]
      exact hcallers h
    · rw [he, hnext, (hdrains.settles.moves _ _).endpoint.1]
    · rw [hc', hc]
      exact hdrains.settles.clock
  rw [drainTransmits]
  by_cases hempty : (txScratch t m).isEmpty = true
  · have hrun : drainRun t m = ⟨m, [], []⟩ := by
      rw [drainRun, List.isEmpty_iff.mp hempty]
      simp only [TxQueue.serve, TxQueue.sorted, List.mergeSort_nil, TxQueue.serveFrom]
    rw [if_pos hempty]
    rw [hrun] at hspec
    exact hspec _ rfl rfl rfl rfl
  · rw [if_neg hempty]
    exact hspec _ rfl rfl rfl rfl

end

section
variable {I : Type} {QS AN EV LK : Type → Type} [Instant I] [Pool QS] [Pool AN] [Pool EV] [Pool LK]

/-- What is handed on when the answers of a query are read from `n` up to `n'`: those the core
still has, and the count of those it has dropped. -/
def Reads (handle : QueryHandle) (n : UInt64) (said : List Handed) (n' : UInt64) : Prop :=
  said = [] ∧ n' = n ∨
    ∃ (answers : List CollectedAnswer) (dropped : UInt64),
      said = answers.map (.answer handle) ++ [.missed handle dropped] ∧ n ≤ n' ∧
      (n' < Query.lastAnswerSeq → n.toNat + answers.length + dropped.toNat = n'.toNat ∧
        (answers.map CollectedAnswer.seq).Nodup ∧ ∀ a ∈ answers, n ≤ a.seq ∧ a.seq < n')

/-- What the updates hand on about a query that had been read up to `before`. -/
def Passed (handle : QueryHandle) (before after : Option UInt64) (said : List Handed)
    (gone : Prop) : Prop :=
  match before with
  | none => after = none ∧ said = [] ∧ ¬gone
  | some n => ∃ n' read, Reads handle n read n' ∧ after = some n' ∧
      (¬gone ∧ said = read ∨ gone ∧ ∃ update, said = read ++ [.terminal handle update n'])

theorem Reads.query (handle : QueryHandle) (n n' : UInt64) (said : List Handed)
    (h : Reads handle n said n') : ∀ entry ∈ said, entry.query = some handle := by
  intro entry hentry
  rcases h with ⟨rfl, -⟩ | ⟨answers, dropped, rfl, -⟩
  · cases hentry
  · rcases List.mem_append.mp hentry with hin | hin
    · obtain ⟨a, -, rfl⟩ := List.mem_map.mp hin
      rfl
    · rw [List.mem_singleton.mp hin]
      rfl

variable [ReleasingPool QS] [OrderedPool AN]

variable (m : Mdns I QS AN EV LK)

theorem unread_spec (handle : QueryHandle)
    (q : Query I AN EV) (hq : m.endpoint.get? handle = some q) (hn : q.Numbered)
    (hleft : q.nextSeq < Query.lastAnswerSeq) (hread : m.lastSeqOf handle ≤ q.nextSeq) :
    (m.lastSeqOf handle).toNat + (m.unread handle).length + (m.missed handle).toNat =
        q.nextSeq.toNat ∧ ((m.unread handle).map CollectedAnswer.seq).Nodup ∧
      ∀ a ∈ m.unread handle, m.lastSeqOf handle ≤ a.seq ∧ a.seq < q.nextSeq := by
  have hfresh : m.unread handle = ((Pool.iter q.answers).map Prod.snd).filter fun a =>
      decide (m.lastSeqOf handle ≤ a.seq) := by
    simp only [unread, Queries.collectedAnswers, hq]
  obtain ⟨hnodup, hbounds, hlen⟩ := hn.unread q hleft _ hread (m.unread handle) hfresh
  have hlt := q.nextSeq.toNat_lt
  refine ⟨?_, hnodup, hbounds⟩
  rw [missed, m.acceptedOf_eq handle q hq, saturatingSub64_toNat, saturatingSub64_toNat,
    UInt64.toNat_ofNat', Nat.mod_eq_of_lt (by omega)]
  omega

theorem callerSeq_markRead (handle k : QueryHandle) :
    (m.markRead handle).callerSeq k =
      if k = handle then (m.callerSeq k).map fun _ => m.acceptedOf handle else m.callerSeq k := by
  simp only [callerSeq, markRead]
  rw [Assoc.lookup_modify]
  split
  · cases m.queries.lookup k with
    | none => rfl
    | some ctx =>
      simp only [Option.map_some, Option.bind_some]
      split
      · rfl
      · rfl
  · rfl

theorem updateQuery_read (m m1 : Mdns I QS AN EV LK) (handle : QueryHandle) (ctx : QueryCtx I)
    (hctx : m.queries.lookup handle = some ctx) (howner : ctx.owner = none) (read : List Handed)
    (accepted : UInt64) (haccepted : m.acceptedOf handle = accepted)
    (heq : (if m.lastSeqOf handle < accepted then
        (m.markRead handle, (m.unread handle).map (Handed.answer handle) ++
          [.missed handle (m.missed handle)])
      else (m, [])) = (m1, read)) :
    m.updateQuery handle = match m1.endpoint.pollQuery handle with
      | (endpoint, some update) => ({ m1 with endpoint := endpoint },
          read ++ [.terminal handle update accepted], true)
      | (endpoint, none) => ({ m1 with endpoint := endpoint }, read, false) := by
  cases hpoll : m1.endpoint.pollQuery handle with
  | mk endpoint update =>
    cases update <;> simp only [updateQuery, hctx, howner, Option.isSome_none, Bool.false_eq_true,
      if_false, haccepted, heq, hpoll]

theorem updateQuery_spec (slots : Nat → Option (LookupCtx I)) (hb : m.Books slots)
    (handle : QueryHandle) :
    (m.updateQuery handle).1.Books slots ∧
      (m.updateQuery handle).1.endpoint.nextQueryHandle = m.endpoint.nextQueryHandle ∧
      (m.updateQuery handle).1.lookups = m.lookups ∧
      (m.updateQuery handle).1.clock = m.clock ∧
      (∀ k, k ≠ handle → (m.updateQuery handle).1.callerSeq k = m.callerSeq k) ∧
      (∀ entry ∈ (m.updateQuery handle).2.1, entry.query = some handle) ∧
      Passed handle (m.callerSeq handle) ((m.updateQuery handle).1.callerSeq handle)
        (m.updateQuery handle).2.1 ((m.updateQuery handle).2.2 = true) := by
  cases hctx : m.queries.lookup handle with
  | none =>
    have hnone : m.callerSeq handle = none := by rw [callerSeq, hctx, Option.bind_none]
    have hsame : m.updateQuery handle = (m, [], false) := by simp only [updateQuery, hctx]
    rw [hsame]
    refine ⟨hb, rfl, rfl, rfl, fun _ _ => rfl, List.forall_mem_nil _, ?_⟩
    rw [hnone]
    exact ⟨rfl, rfl, Bool.false_ne_true⟩
  | some ctx =>
    by_cases howner : ctx.owner = none
    · have hcaller : m.callerSeq handle = some ctx.lastSeq := by
        rw [callerSeq, hctx, Option.bind_some, if_pos howner]
      have hmem : handle ∈ m.queries := (Assoc.mem_iff _ _).mpr ⟨ctx, hctx⟩
      obtain ⟨q, hq⟩ := Option.isSome_iff_exists.mp ((hb.shared handle).mpr hmem)
      have hlast : m.lastSeqOf handle = ctx.lastSeq := by
        rw [lastSeqOf, hctx, Option.map_some, Option.getD_some]
      have hread : m.lastSeqOf handle ≤ q.nextSeq := by
        rw [hlast]
        exact hb.read handle ctx q hctx hq
      have haccepted := m.acceptedOf_eq handle q hq
      -- what is read before the query is asked for its end
      have hfirst : ∃ m1 read, (if m.lastSeqOf handle < m.acceptedOf handle then
            (m.markRead handle, (m.unread handle).map (Handed.answer handle) ++
              [.missed handle (m.missed handle)])
          else (m, [])) = (m1, read) ∧ Reads handle ctx.lastSeq read q.nextSeq ∧
          m1.Books slots ∧ m1.endpoint = m.endpoint ∧ m1.lookups = m.lookups ∧
          m1.clock = m.clock ∧ m1.callerSeq handle = some q.nextSeq ∧
          ∀ k, k ≠ handle → m1.callerSeq k = m.callerSeq k := by
        by_cases hless : m.lastSeqOf handle < m.acceptedOf handle
        · rw [if_pos hless]
          have hspec := fun hleft =>
            m.unread_spec handle q hq (hb.numbered handle q hq) hleft hread
          rw [hlast] at hspec hread
          refine ⟨_, _, rfl, .inr ⟨_, _, rfl, hread, hspec⟩, hb.markRead m slots handle, rfl, rfl,
            rfl, ?_, fun k hk => ?_⟩
          · rw [callerSeq_markRead, if_pos rfl, hcaller, Option.map_some, haccepted]
          · rw [callerSeq_markRead, if_neg hk]
        · rw [if_neg hless]
          rw [hlast] at hless hread
          rw [haccepted] at hless
          have hsame : q.nextSeq = ctx.lastSeq := UInt64.le_antisymm (UInt64.not_lt.mp hless) hread
          refine ⟨m, [], rfl, .inl ⟨rfl, hsame⟩, hb, rfl, rfl, rfl, ?_, fun _ _ => rfl⟩
          rw [hcaller, hsame]
      obtain ⟨m1, read, heq, hreads, hb1, he1, hl1, hc1, hseq1, hother⟩ := hfirst
      have hpoll := m1.endpoint.along_pollQuery handle
      rw [haccepted] at heq
      rw [updateQuery_read m m1 handle ctx hctx howner read _ haccepted heq]
      generalize m1.endpoint.pollQuery handle = polled at *
      obtain ⟨e', result⟩ := polled
      have hmoves := (Settles.of_endpoint m1 e' hpoll).moves _ _
      have hb2 := hb1.moves m1 _ slots hmoves
      have hnext : e'.nextQueryHandle = m.endpoint.nextQueryHandle := by
        rw [← he1]
        exact hpoll.1
      rw [hcaller]
      cases result with
      | none =>
        refine ⟨hb2, hnext, hl1, hc1, hother, hreads.query handle _ _ read, ?_⟩
        exact ⟨q.nextSeq, read, hreads, hseq1, .inl ⟨Bool.false_ne_true, rfl⟩⟩
      | some update =>
        refine ⟨hb2, hnext, hl1, hc1, hother, fun entry hentry => ?_, ?_⟩
        · rcases List.mem_append.mp hentry with hin | hin
          · exact hreads.query handle _ _ read entry hin
          · rw [List.mem_singleton.mp hin]
            rfl
        · exact ⟨q.nextSeq, read, hreads, hseq1, .inr ⟨rfl, update, rfl⟩⟩
    · have hnone : m.callerSeq handle = none := by
        rw [callerSeq, hctx, Option.bind_some, if_neg howner]
      have hsome : ctx.owner.isSome = true := Option.isSome_iff_ne_none.mpr howner
      have hsame : m.updateQuery handle = (m, [], false) := by
        simp only [updateQuery, hctx, hsome, if_true]
      rw [hsame]
      refine ⟨hb, rfl, rfl, rfl, fun _ _ => rfl, List.forall_mem_nil _, ?_⟩
      rw [hnone]
      exact ⟨rfl, rfl, Bool.false_ne_true⟩

theorem Passed.congr (handle : QueryHandle) (before after : Option UInt64) (said : List Handed)
    (gone gone' : Prop) (hiff : gone ↔ gone') (h : Passed handle before after said gone) :
    Passed handle before after said gone' := by
  cases before with
  | none => exact ⟨h.1, h.2.1, fun hgone => h.2.2 (hiff.mpr hgone)⟩
  | some n =>
    obtain ⟨n', read, hreads, hafter, hsaid⟩ := h
    exact ⟨n', read, hreads, hafter, hsaid.imp (And.imp_left (mt hiff.mpr))
      (And.imp_left hiff.mp)⟩

theorem updateQueries_spec (handles : List QueryHandle) (hn : handles.Nodup)
    (m : Mdns I QS AN EV LK) (slots : Nat → Option (LookupCtx I)) (hb : m.Books slots) :
    (updateQueries handles m).1.Books slots ∧
      (updateQueries handles m).1.endpoint.nextQueryHandle = m.endpoint.nextQueryHandle ∧
      (updateQueries handles m).1.lookups = m.lookups ∧
      (updateQueries handles m).1.clock = m.clock ∧
      (∀ k, k ∉ handles → (updateQueries handles m).1.callerSeq k = m.callerSeq k ∧
        about k (updateQueries handles m).2.2 = [] ∧ k ∉ (updateQueries handles m).2.1) ∧
      ∀ k, k ∈ handles → Passed k (m.callerSeq k) ((updateQueries handles m).1.callerSeq k)
        (about k (updateQueries handles m).2.2) (k ∈ (updateQueries handles m).2.1) := by
  induction handles generalizing m with
  | nil => exact ⟨hb, rfl, rfl, rfl, fun _ _ => ⟨rfl, rfl, nofun⟩, nofun⟩
  | cons handle rest ih =>
    obtain ⟨hnot, hrest⟩ := List.nodup_cons.mp hn
    obtain ⟨hb1, hnext1, hl1, hc1, hother, hsaid, hpassed⟩ := m.updateQuery_spec slots hb handle
    obtain ⟨hb2, hnext2, hl2, hc2, hout, hin⟩ := ih hrest (m.updateQuery handle).1 hb1
    rw [updateQueries]
    generalize m.updateQuery handle = updated at *
    obtain ⟨m1, said, isOver⟩ := updated
    simp only at *
    generalize updateQueries rest m1 = updates at *
    obtain ⟨m2, retired, more⟩ := updates
    simp only at *
    have hmem : ∀ k, k ≠ handle →
        (k ∈ (if isOver = true then handle :: retired else retired) ↔ k ∈ retired) := by
      intro k hk
      split
      · rw [List.mem_cons]
        exact or_iff_right hk
      · exact Iff.rfl
    have hnone : ∀ k, k ≠ handle → about k said = [] := by
      intro k hk
      apply about_eq_nil
      intro entry hentry hquery
      rw [hsaid entry hentry] at hquery
      exact hk (Option.some.inj hquery).symm
    refine ⟨hb2, hnext2.trans hnext1, hl2.trans hl1, hc2.trans hc1, fun k hk => ?_, fun k hk => ?_⟩
    · rw [List.mem_cons, not_or] at hk
      obtain ⟨hseq, hquiet, hstay⟩ := hout k hk.2
      refine ⟨hseq.trans (hother k hk.1), ?_, fun hin' => hstay ((hmem k hk.1).mp hin')⟩
      rw [about_append, hnone k hk.1, hquiet, List.append_nil]
    · by_cases hsame : k = handle
      · subst hsame
        obtain ⟨hseq, hquiet, hstay⟩ := hout k hnot
        rw [about_append, about_eq_self k said hsaid, hquiet, List.append_nil, hseq]
        refine hpassed.congr k _ _ said _ _ ?_
        split
        · rename_i hover
          exact ⟨fun _ => List.mem_cons_self, fun _ => hover⟩
        · rename_i hover
          exact ⟨fun h => absurd h hover, fun h => absurd h hstay⟩
      · have hk' : k ∈ rest := by
          rcases List.mem_cons.mp hk with h | h
          · exact absurd h hsame
          · exact h
        rw [about_append, hnone k hsame, List.nil_append, ← hother k hsame]
        exact (hin k hk').congr k _ _ _ _ _ (hmem k hsame).symm

def Report (handle : QueryHandle) (before after : Option UInt64) (said : List Handed) : Prop :=
  match before with
  | none => after = none ∧ said = []
  | some n => ∃ n' read, Reads handle n read n' ∧
      (after = some n' ∧ said = read ∨
        after = none ∧ ∃ update, said = read ++ [.terminal handle update n'])

theorem pushUpdates_spec (t : TickInput I) (m : Mdns I QS AN EV LK)
    (slots : Nat → Option (LookupCtx I)) (hb : m.Books slots) :
    (m.pushUpdates t).1.Books slots ∧
      (m.pushUpdates t).1.endpoint.nextQueryHandle = m.endpoint.nextQueryHandle ∧
      (m.pushUpdates t).1.lookups = m.lookups ∧ (m.pushUpdates t).1.clock = m.clock ∧
      ∀ k, Report k (m.callerSeq k) ((m.pushUpdates t).1.callerSeq k)
        (about k (m.pushUpdates t).2) := by
  have hperm := t.updateOrder.handles_perm m.queries.keys
  obtain ⟨hb1, hnext, hl, hc, hout, hin⟩ := updateQueries_spec
    (t.updateOrder.handles m.queries.keys) (hperm.nodup_iff.mpr m.queries.keys_nodup) m slots hb
  rw [pushUpdates]
  generalize updateQueries (t.updateOrder.handles m.queries.keys) m = updates at *
  obtain ⟨m1, retired, handed⟩ := updates
  simp only at *
  obtain ⟨hnext', hl', hc'⟩ := drops_rest retired m1
  refine ⟨hb1.drops retired m1 slots, hnext'.trans hnext, hl'.trans hl, hc'.trans hc, fun k => ?_⟩
  have hservices : about k (t.updates.map fun entry => Handed.service entry.1 entry.2) = [] := by
    apply about_eq_nil
    intro entry hentry
    obtain ⟨update, -, rfl⟩ := List.mem_map.mp hentry
    exact nofun
  rw [about_append, hservices, List.nil_append, callerSeq_drops]
  have hpassed : Passed k (m.callerSeq k) (m1.callerSeq k) (about k handed) (k ∈ retired) := by
    by_cases hk : k ∈ t.updateOrder.handles m.queries.keys
    · exact hin k hk
    · obtain ⟨hseq, hquiet, hstay⟩ := hout k hk
      have habsent : k ∉ m.queries := fun h => hk (hperm.mem_iff.mpr (AList.mem_keys.mp h))
      have hnone : m.callerSeq k = none := by
        rw [callerSeq, AList.lookup_eq_none.mpr habsent, Option.bind_none]
      rw [hnone] at hseq ⊢
      exact ⟨hseq, hquiet, hstay⟩
  cases hbefore : m.callerSeq k with
  | none =>
    rw [hbefore] at hpassed
    obtain ⟨hafter, hsaid, hstay⟩ := hpassed
    rw [if_neg hstay]
    exact ⟨hafter, hsaid⟩
  | some n =>
    rw [hbefore] at hpassed
    obtain ⟨n', read, hreads, hafter, ⟨hstay, hsaid⟩ | ⟨hgone, hsaid⟩⟩ := hpassed
    · rw [if_neg hstay]
      exact ⟨n', read, hreads, .inl ⟨hafter, hsaid⟩⟩
    · rw [if_pos hgone]
      exact ⟨n', read, hreads, .inr ⟨rfl, hsaid⟩⟩

theorem drainRecv_moves (datagrams : List (List Ref × List QuestionRef)) (m : Mdns I QS AN EV LK)
    (foldedAt : Option I) : Moves m (drainRecv datagrams m foldedAt).1 := by
  induction datagrams generalizing m foldedAt with
  | nil => exact .refl m
  | cons datagram rest ih =>
    obtain ⟨records, questions⟩ := datagram
    have hnow := (settles_now m).moves _ _
    have hone : Moves m.now.2 { m.now.2 with
        endpoint := m.now.2.endpoint.receive m.now.1 records questions } :=
      ⟨Queries.along_receive _ _ _ _, fun _ => Queries.rel_refl SameEntry (fun _ => ⟨rfl, rfl⟩) _,
        rfl, .refl _⟩
    exact hnow.trans _ _ _ (hone.trans _ _ _ (ih _ _))

theorem fireTimeouts_moves (at_ : I) : Moves m (m.fireTimeouts at_) := by
  have hall : ∀ (handles : List QueryHandle) (e : Queries I QS AN EV), Queries.Along Query.Settled e
      (handles.foldl (fun e handle => e.handleQueryTimeout handle at_) e) := by
    intro handles
    induction handles with
    | nil =>
      intro e
      exact Queries.Along.refl _ Query.Settled.refl e
    | cons handle rest ih =>
      intro e
      exact Queries.Along.trans _ Query.Settled.trans _ _ _ (e.along_handleQueryTimeout handle at_)
        (ih _)
  exact (Settles.of_endpoint m _ (hall m.queries.keys m.endpoint)).moves _ _

theorem sweep_moves (slots : Nat → Option (LookupCtx I))
    (hb : m.Books slots) : Moves m m.sweep := by
  refine ⟨Queries.Along.refl _ Query.Evolves.refl _, fun k => ?_, rfl, .refl _⟩
  have hsame : m.sweep.queries.lookup k = m.queries.lookup k := by
    simp only [sweep]
    rw [Assoc.lookup_retain]
    cases hk : m.queries.lookup k with
    | none => rfl
    | some ctx =>
      have hsome := (hb.shared k).mpr ((Assoc.mem_iff k _).mpr ⟨ctx, hk⟩)
      rw [Option.filter_some, if_pos]
      rw [Queries.queryAcceptedCount, Option.isSome_map]
      exact hsome
  rw [hsame]
  exact Queries.rel_refl SameEntry (fun _ => ⟨rfl, rfl⟩) _

def beforeDrain (t : TickInput I) (m : Mdns I QS AN EV LK) : Mdns I QS AN EV LK :=
  let (now, m) := m.now
  let (m, foldedAt) := drainRecv t.datagrams m none
  m.sweep.fireTimeouts ((foldedAt.map (max now)).getD now)

theorem beforeDrain_moves (t : TickInput I) (m : Mdns I QS AN EV LK)
    (slots : Nat → Option (LookupCtx I)) (hb : m.Books slots) : Moves m (beforeDrain t m) := by
  have hrecv := ((settles_now m).moves _ _).trans _ _ _ (drainRecv_moves t.datagrams m.now.2 none)
  have hsweep := hrecv.trans _ _ _ (sweep_moves _ slots (hb.moves m _ slots hrecv))
  exact hsweep.trans _ _ _ (fireTimeouts_moves _ _)

theorem tick_eq (t : TickInput I) (m : Mdns I QS AN EV LK) :
    tick t m =
      let drained := (beforeDrain t m).drainTransmits t
      let pushed := (drained.1.enqueue drained.2).pushUpdates t
      ((advanceLookups t.lookupOrder (pushed.1.enqueue pushed.2)).compactEvents,
        drained.2 ++ pushed.2) := rfl

theorem compactEvents_rest :
    m.compactEvents.endpoint = m.endpoint ∧ m.compactEvents.queries = m.queries ∧
      m.compactEvents.lookups = m.lookups ∧ m.compactEvents.clock = m.clock := by
  rw [compactEvents]
  split
  · exact ⟨rfl, rfl, rfl, rfl⟩
  · exact ⟨rfl, rfl, rfl, rfl⟩

def beforeLookups (t : TickInput I) (m : Mdns I QS AN EV LK) : Mdns I QS AN EV LK :=
  let drained := (beforeDrain t m).drainTransmits t
  let pushed := (drained.1.enqueue drained.2).pushUpdates t
  pushed.1.enqueue pushed.2

/-- What a tick hands on about a query of a caller: what it reads of it, or only its end, where
the drain has retired it. -/
def TickReport (t : TickInput I) (m : Mdns I QS AN EV LK) (handle : QueryHandle)
    (before after : Option UInt64) (said : List Handed) : Prop :=
  handle ∉ (drainRun t (beforeDrain t m)).retired ∧ Report handle before after said ∨
    handle ∈ (drainRun t (beforeDrain t m)).retired ∧ after = none ∧
      (before = none ∧ said = [] ∨ before.isSome = true ∧
        ∃ update, said = [.terminal handle update ((beforeDrain t m).acceptedOf handle)])

theorem beforeLookups_spec (t : TickInput I) (m : Mdns I QS AN EV LK)
    (slots : Nat → Option (LookupCtx I)) (hb : m.Books slots) :
    (beforeLookups t m).Books slots ∧
      (beforeLookups t m).endpoint.nextQueryHandle = m.endpoint.nextQueryHandle ∧
      (beforeLookups t m).lookups = m.lookups ∧ Later m.clock (beforeLookups t m).clock ∧
      ∀ k, TickReport t m k (m.callerSeq k) ((beforeLookups t m).callerSeq k)
        (about k (tick t m).2) := by
  have hbefore := beforeDrain_moves t m slots hb
  have hb1 := hb.moves m _ slots hbefore
  have hdrain := drainTransmits_spec t (beforeDrain t m) slots hb1
  have hdrains := drainRun_drains t (beforeDrain t m) slots hb1
  rw [tick_eq]
  simp only [beforeLookups]
  generalize (beforeDrain t m).drainTransmits t = drained at *
  obtain ⟨m2, said⟩ := drained
  simp only at hdrain ⊢
  have hb2 : (m2.enqueue said).Books slots :=
    hdrain.books.moves m2 _ slots ⟨Queries.Along.refl _ Query.Evolves.refl _,
      fun _ => Queries.rel_refl SameEntry (fun _ => ⟨rfl, rfl⟩) _, rfl, .refl _⟩
  obtain ⟨hb3, hnext, hl, hc, hreport⟩ := (m2.enqueue said).pushUpdates_spec t slots hb2
  have hsame : ∀ k, (m2.enqueue said).callerSeq k = m2.callerSeq k := fun k => rfl
  generalize (m2.enqueue said).pushUpdates t = pushed at *
  obtain ⟨m3, more⟩ := pushed
  simp only at *
  refine ⟨?_, ?_, ?_, ?_, fun k => ?_⟩
  · exact hb3.moves m3 _ slots ⟨Queries.Along.refl _ Query.Evolves.refl _,
      fun _ => Queries.rel_refl SameEntry (fun _ => ⟨rfl, rfl⟩) _, rfl, .refl _⟩
  · exact hnext.trans (hdrain.next.trans hbefore.endpoint.1)
  · exact hl.trans (hdrain.lookups.trans hbefore.lookups)
  · rw [show (m3.enqueue more).clock = m2.clock from hc]
    exact hbefore.clock.trans _ _ _ hdrain.clock
  · have hk := hreport k
    rw [hsame, hdrain.callers] at hk
    rw [about_append, hdrain.handed, show (m3.enqueue more).callerSeq k = m3.callerSeq k from rfl]
    have hcaller := hbefore.callerSeq m _ k
    by_cases hretired : k ∈ (drainRun t (beforeDrain t m)).retired
    · rw [if_pos hretired] at hk
      obtain ⟨hafter, hnone⟩ := hk
      rw [hnone, List.append_nil]
      refine .inr ⟨hretired, hafter, ?_⟩
      cases hbk : m.callerSeq k with
      | none => exact .inl ⟨rfl, hdrains.silent k (.inr (by rw [hcaller, hbk]))⟩
      | some n =>
        exact .inr ⟨rfl, hdrains.told k hretired (by rw [hcaller, hbk]; rfl)⟩
    · rw [if_neg hretired, hcaller] at hk
      rw [hdrains.silent k (.inl hretired), List.nil_append]
      exact .inl ⟨hretired, hk⟩

theorem tick_spec [LawfulPool EV] [MeasuredInstant I] [ReleasingPool LK] (t : TickInput I)
    (m : Mdns I QS AN EV LK)
    (hroom : (tick t m).1.endpoint.nextQueryHandle ≠ lastQueryHandle) (hb : m.Books m.table) :
    m.endpoint.nextQueryHandle ≤ (tick t m).1.endpoint.nextQueryHandle ∧
      (tick t m).1.Books (tick t m).1.table ∧
      ∀ k, TickReport t m k (m.callerSeq k) ((tick t m).1.callerSeq k) (about k (tick t m).2) := by
  obtain ⟨hb1, hnext, hl, hc, hreport⟩ := beforeLookups_spec t m m.table hb
  have htable : (beforeLookups t m).table = m.table := by rw [table, table, hl]
  have hturns := advanceLookups_carries t.lookupOrder (beforeLookups t m)
  obtain ⟨he, hq, hl', hc'⟩ := compactEvents_rest (advanceLookups t.lookupOrder (beforeLookups t m))
  have hpost : (tick t m).1 = (advanceLookups t.lookupOrder (beforeLookups t m)).compactEvents := rfl
  rw [hpost] at hroom ⊢
  rw [he] at hroom ⊢
  have hcompact := carries_same _ (advanceLookups t.lookupOrder (beforeLookups t m)).compactEvents he
    hq (by rw [hc']; exact .refl _) (advanceLookups t.lookupOrder (beforeLookups t m)).table
  obtain ⟨hb2, hcallers⟩ := hturns.kept hroom (by rw [htable]; exact hb1)
  obtain ⟨hb3, hcallers'⟩ := hcompact.kept (by rw [he]; exact hroom) hb2
  refine ⟨by rw [← hnext]; exact hturns.counted, ?_, fun k => ?_⟩
  · have htable' : (advanceLookups t.lookupOrder (beforeLookups t m)).compactEvents.table =
        (advanceLookups t.lookupOrder (beforeLookups t m)).table := by rw [table, table, hl']
    rw [htable']
    exact hb3
  · rw [hcallers', hcallers]
    exact hreport k

end
end Mdns
end Hick
