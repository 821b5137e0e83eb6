import Hick.Mio.LookupTurns

/-!
# A lookup from its start (hick-mio/src/discovery.rs:580-736, 900-1091, 1161-1341)

A caller opens a lookup in one of three ways.
-/

set_option linter.unusedSectionVars false

namespace Hick
open Octets Wire Runs

inductive Opening where
  | browse (param : QueryParam)
  | resolveHost (host : Name) (timeout : Duration)
  | resolveInstance (name : Name) (timeout : Duration)

namespace Opening

def maxEntries : Opening → Nat
  | .browse param => param.maxEntries
  | .resolveHost _ _ => 1
  | .resolveInstance _ _ => 1

/-- What a lookup is told at its opening. A host that is to be resolved stands for an instance of
the same name, with an SRV that points at itself and an empty TXT. -/
def seeds : Opening → List Found
  | .browse _ => []
  | .resolveHost host _ => [.srv (fold host) host 0, .txt (fold host) []]
  | .resolveInstance name _ => [.ptr name]

section
variable {I : Type} {QS AN EV LK : Type → Type} [Instant I] [Pool QS] [Pool AN] [Pool EV] [Pool LK]

def open_ (m : Mdns I QS AN EV LK) :
    Opening → Mdns I QS AN EV LK × Except StartQueryError LookupHandle
  | .browse param => m.browse param
  | .resolveHost host timeout => m.resolveHost host timeout
  | .resolveInstance name timeout => m.resolveInstance name timeout

end
end Opening

namespace Mdns
section
variable {I : Type} {QS AN EV LK : Type → Type} [Instant I] [Pool QS] [Pool AN] [Pool EV] [Pool LK]
variable [LawfulPool LK]

theorem getChecked_insert (m m' : Mdns I QS AN EV LK) (ctx : LookupCtx I) (handle : LookupHandle)
    (h : m.insertLookup ctx = some (handle, m')) :
    m'.getChecked handle = some { ctx with generation := handle.generation } := by
  rw [insertLookup, Option.map_eq_some_iff] at h
  obtain ⟨⟨key, slab⟩, hinsert, h⟩ := h
  cases h
  have hget := (LawfulPool.get_insert _ _ _ _ hinsert).2 key
  rw [if_pos rfl] at hget
  simp only [getChecked, hget, Option.filter_some]
  simp

theorem getChecked_set (m : Mdns I QS AN EV LK) (handle : LookupHandle) (ctx next : LookupCtx I)
    (h : m.getChecked handle = some ctx) (hgen : next.generation = ctx.generation) :
    (m.setLookup handle.key next).getChecked handle = some next := by
  rw [getChecked, Option.filter_eq_some_iff] at h ⊢
  obtain ⟨hget, hsame⟩ := h
  rw [decide_eq_true_eq] at hsame
  refine ⟨?_, by rw [hgen, hsame]; exact decide_eq_true rfl⟩
  simp only [setLookup]
  rw [LawfulPool.get_update, if_pos rfl, hget, Option.map_some]

theorem startSubquery_spec (m : Mdns I QS AN EV LK) (owner : LookupHandle) (spec : QuerySpec)
    (start : Start) (ctx : LookupCtx I) (h : m.getChecked owner = some ctx) :
    ∃ next, (m.startSubquery owner spec start.step).1.getChecked owner = some next ∧
      Launched ctx next [start] := by
  have hnone : Launched ctx ctx [start] :=
    ⟨rfl, Nat.le_add_right _ _, fun sub s hs => .inl hs, fun hheld => hheld⟩
  obtain ⟨hrest, -⟩ := m.startSubqueryInWindow_rest ctx spec
  simp only [startSubquery, h]
  generalize m.startSubqueryInWindow ctx spec = started at *
  obtain ⟨m', result⟩ := started
  have hsame : m'.getChecked owner = some ctx := by
    rw [show m' = _ from hrest]
    exact h
  match result with
  | .error e => exact ⟨ctx, hsame, hnone⟩
  | .ok none => exact ⟨ctx, hsame, hnone⟩
  | .ok (some sub) =>
    obtain ⟨name, step⟩ := start
    simp only [registerSubquery]
    refine ⟨_, getChecked_set _ owner ctx _ hsame rfl, ?_⟩
    apply Launched.one ctx _ name step [] sub
    exact ⟨rfl, Nat.le_refl _, fun other s hs => .inl hs, fun hheld => hheld⟩

theorem Launched.trans (a b c : LookupCtx I) (start : Start) (rest : List Start)
    (h : Launched a b [start]) (h' : Launched b c rest) : Launched a c (start :: rest) := by
  refine ⟨?_, ?_, fun sub step hs => ?_, fun hheld => h'.held (h.held hheld)⟩
  · have hb := h.only
    have hc := h'.only
    rw [hb] at hc
    exact hc
  · have := h.few
    have := h'.few
    simp only [List.length_cons, List.length_nil] at *
    omega
  · rcases h'.steps sub step hs with hold | ⟨s, hmem, hsame⟩
    · rcases h.steps sub step hold with hold | ⟨s, hmem, hsame⟩
      · exact .inl hold
      · rw [List.mem_singleton] at hmem
        exact .inr ⟨s, by rw [hmem]; exact List.mem_cons_self, hsame⟩
    · exact .inr ⟨s, List.mem_cons_of_mem _ hmem, hsame⟩

theorem launchAll_spec (owner : LookupHandle) (starts : List Start)
    (firstErr : Option StartQueryError) (m : Mdns I QS AN EV LK) (ctx : LookupCtx I)
    (h : m.getChecked owner = some ctx) :
    ∃ next, (launchAll owner starts firstErr m).1.getChecked owner = some next ∧
      Launched ctx next starts := by
  induction starts generalizing firstErr m ctx with
  | nil => exact ⟨ctx, h, ⟨rfl, Nat.le_refl _, fun sub s hs => .inl hs, fun hheld => hheld⟩⟩
  | cons start rest ih =>
    obtain ⟨next, hnext, hl⟩ := m.startSubquery_spec owner
      (QuerySpec.new start.name start.step.qtype) start ctx h
    obtain ⟨name, step⟩ := start
    simp only [launchAll]
    generalize m.startSubquery owner (QuerySpec.new name step.qtype) step = started at *
    obtain ⟨m', _ | u⟩ := started
    · obtain ⟨last, hlast, hl'⟩ := ih _ m' next hnext
      exact ⟨last, hlast, hl.trans ctx next last _ rest hl'⟩
    · obtain ⟨last, hlast, hl'⟩ := ih _ m' next hnext
      exact ⟨last, hlast, hl.trans ctx next last _ rest hl'⟩

theorem new_sound (param : QueryParam) (now : I) : (LookupCtx.new param now).Sound [] := by
  refine ⟨⟨?_, ?_, ?_⟩, ⟨?_, ?_, Nat.zero_le _, Nat.zero_le _, Nat.zero_le _, Nat.le_refl _⟩⟩
  · intro key p hp
    cases hp
  · intro hostKey
    rfl
  · intro key _
    exact ⟨rfl, rfl⟩
  · intro sub step hs
    cases hs
  · intro s hs
    cases hs

theorem new_told (param : QueryParam) (now : I) : (LookupCtx.new param now).Told [] := by
  refine ⟨rfl, ?_, ?_, List.nodup_nil⟩
  · intro key p hp
    cases hp
  · intro e he
    cases he

theorem seedHost_sound (param : QueryParam) (now : I) (host : Name) :
    ((LookupCtx.new param now).seedHost host).Sound
      [.srv (fold host) host 0, .txt (fold host) []] := by
  have hsrv : ∀ key, lastSrv [.srv (fold host) host 0, .txt (fold host) []] key =
      if fold host = key then some (host, 0) else none := by
    intro key
    by_cases h : fold host = key
    · simp [lastSrv, Found.srvAt, List.filterMap_cons, h]
    · simp [lastSrv, Found.srvAt, h]
  have htxt : ∀ key, lastTxt [.srv (fold host) host 0, .txt (fold host) []] key =
      if fold host = key then some [] else none := by
    intro key
    by_cases h : fold host = key
    · simp [lastTxt, Found.txtAt, h]
    · simp [lastTxt, Found.txtAt, h]
  have hlen : (AList.insert (fold host)
      ((PartialEntry.default.setSrv host 0).setTxt []) (∅ : Assoc Bytes PartialEntry)).keys.length =
        1 := rfl
  refine ⟨⟨?_, ?_, ?_⟩, ⟨?_, ?_, ?_, ?_, ?_, Nat.le_refl _⟩⟩
  · intro key p hp
    simp only [LookupCtx.seedHost, LookupCtx.askAddresses, LookupCtx.new] at hp
    rw [Assoc.lookup_insert] at hp
    split at hp
    · rename_i hkey
      cases hp
      subst hkey
      constructor
      · rw [hsrv, if_pos rfl]
        rfl
      · rw [hsrv, if_pos rfl]
        rfl
      · rw [hsrv, if_pos rfl]
        rfl
      · rw [hsrv, if_pos rfl]
        rfl
      · rw [htxt, if_pos rfl]
        rfl
      · rfl
      · rfl
      · exact ⟨host, rfl, .inr ⟨rfl, rfl⟩⟩
    · cases hp
  · intro hostKey
    rfl
  · intro key hkey
    simp only [LookupCtx.seedHost, LookupCtx.askAddresses, LookupCtx.new] at hkey
    rw [Assoc.lookup_insert] at hkey
    split at hkey
    · cases hkey
    · rename_i hne
      rw [hsrv, htxt, if_neg fun e => hne e.symm, if_neg fun e => hne e.symm]
      exact ⟨rfl, rfl⟩
  · intro sub step hs
    cases hs
  · intro s hs
    simp only [LookupCtx.seedHost, LookupCtx.askAddresses, LookupCtx.new, List.nil_append,
      List.mem_cons, List.not_mem_nil, or_false] at hs
    rcases hs with rfl | rfl
    · trivial
    · trivial
  · simp only [LookupCtx.seedHost, LookupCtx.askAddresses, LookupCtx.new, hlen]
    exact param.positive
  · simp only [LookupCtx.seedHost, LookupCtx.askAddresses, LookupCtx.new]
    exact param.positive
  · simp [LookupCtx.seedHost, LookupCtx.askAddresses, LookupCtx.new]

theorem seedHost_told (param : QueryParam) (now : I) (host : Name) :
    ((LookupCtx.new param now).seedHost host).Told [] := by
  refine ⟨rfl, ?_, ?_, List.nodup_nil⟩
  · intro key p hp
    simp only [LookupCtx.seedHost, LookupCtx.askAddresses, LookupCtx.new] at hp
    rw [Assoc.lookup_insert] at hp
    split at hp
    · cases hp
      constructor
      · intro hflag
        cases hflag
      · intro he
        obtain ⟨e, he, -⟩ := he
        cases he
    · cases hp
  · intro e he
    cases he

theorem startSeeded_spec (m m' : Mdns I QS AN EV LK) (ctx : LookupCtx I) (handle : LookupHandle)
    (heard : List Found) (hs : ctx.Sound heard) (ht : ctx.Told [])
    (h : m.startSeeded ctx = (m', .ok handle)) (next : LookupCtx I)
    (hnext : m'.getChecked handle = some next) :
    next.Sound heard ∧ next.Told [] ∧ next.maxEntries = ctx.maxEntries := by
  rw [startSeeded] at h
  cases hinsert : m.insertLookup ctx with
  | none =>
    rw [hinsert] at h
    cases h
  | some inserted =>
    obtain ⟨owner, m1⟩ := inserted
    have hget := getChecked_insert m m1 ctx owner hinsert
    rw [hinsert] at h
    simp only [launchPending, hget] at h
    obtain ⟨last, hlast, hl⟩ := launchAll_spec owner ctx.pending none
      (m1.setLookup owner.key { ctx with generation := owner.generation, pending := [] })
      { ctx with generation := owner.generation, pending := [] }
      (getChecked_set m1 owner _ { ctx with generation := owner.generation, pending := [] } hget rfl)
    generalize launchAll owner ctx.pending none
      (m1.setLookup owner.key { ctx with generation := owner.generation, pending := [] }) =
        launched at *
    obtain ⟨m2, _ | e⟩ := launched
    · cases h
      rw [hlast] at hnext
      cases hnext
      have hs' : LookupCtx.Sound { ctx with generation := handle.generation } heard :=
        ⟨⟨hs.sees.partials, hs.sees.cache, hs.sees.unheard⟩, ⟨hs.bounded.asked, hs.bounded.toAsk,
          hs.bounded.partials, hs.bounded.hosts, hs.bounded.starts, hs.bounded.held⟩⟩
      have ht' : LookupCtx.Told { ctx with generation := handle.generation } [] :=
        ⟨ht.idle, ht.marked, ht.known, ht.once⟩
      obtain ⟨hsound, hsame⟩ := Launched.sound { ctx with generation := handle.generation } next
        heard hs' hl
      exact ⟨hsound, ht'.same _ next [] hsame, hsame.maxEntries⟩
    · simp only [orCancelled] at h
      cases h

theorem opened (m m' : Mdns I QS AN EV LK) (opening : Opening) (handle : LookupHandle)
    (h : opening.open_ m = (m', .ok handle)) (ctx : LookupCtx I)
    (hctx : m'.getChecked handle = some ctx) :
    ctx.Sound opening.seeds ∧ ctx.Told [] ∧ ctx.maxEntries = opening.maxEntries := by
  cases opening with
  | resolveHost host timeout =>
    exact startSeeded_spec _ m' _ handle _ (seedHost_sound _ _ host) (seedHost_told _ _ host) h ctx
      hctx
  | resolveInstance name timeout =>
    have hnew := new_sound (((QueryParam.new name).withTimeout timeout).withMaxEntries 1) m.now.1
    have hsound : LookupCtx.Sound ((LookupCtx.new
        (((QueryParam.new name).withTimeout timeout).withMaxEntries 1) m.now.1).onPtr name)
        [.ptr name] :=
      ⟨hnew.sees.take _ [] (.ptr name) trivial, hnew.bounded.take _ (.ptr name)⟩
    have hsame := (LookupCtx.take_same (LookupCtx.new
      (((QueryParam.new name).withTimeout timeout).withMaxEntries 1) m.now.1) (.ptr name)).1
    have htold := (new_told (((QueryParam.new name).withTimeout timeout).withMaxEntries 1)
      m.now.1).same _ _ [] hsame
    exact startSeeded_spec _ m' _ handle _ hsound htold h ctx hctx
  | browse param =>
    simp only [Opening.open_, browse] at h
    cases hinsert : m.now.2.insertLookup (LookupCtx.new param m.now.1) with
    | none =>
      rw [hinsert] at h
      cases h
    | some inserted =>
      obtain ⟨owner, m1⟩ := inserted
      have hget := getChecked_insert _ m1 _ owner hinsert
      rw [hinsert] at h
      obtain ⟨last, hlast, hl⟩ := m1.startSubquery_spec owner
        ((QuerySpec.new param.service .ptr).withMaxAnswers param.maxEntries)
        ⟨param.service, .ptr⟩ _ hget
      simp only at h hlast
      generalize m1.startSubquery owner
        ((QuerySpec.new param.service .ptr).withMaxAnswers param.maxEntries) .ptr = started at *
      obtain ⟨m2, e | u⟩ := started
      · simp only [orCancelled] at h
        cases h
      · simp only [orCancelled] at h
        cases h
        rw [hlast] at hctx
        cases hctx
        have hnew := new_sound param m.now.1
        -- The first sub-query counts as one that is still to be started.
        have hs' : LookupCtx.Sound { LookupCtx.new param m.now.1 with
            generation := handle.generation
            pending := [⟨param.service, .ptr⟩] } [] := by
          refine ⟨⟨hnew.sees.partials, hnew.sees.cache, hnew.sees.unheard⟩, ⟨hnew.bounded.asked,
            ?_, hnew.bounded.partials, hnew.bounded.hosts, Nat.le_refl _, hnew.bounded.held⟩⟩
          intro s hs
          rw [List.mem_singleton] at hs
          rw [hs]
          trivial
        have ht := new_told param m.now.1
        have ht' : LookupCtx.Told { LookupCtx.new param m.now.1 with
            generation := handle.generation
            pending := [⟨param.service, .ptr⟩] } [] := ⟨ht.idle, ht.marked, ht.known, ht.once⟩
        obtain ⟨hsound, hsame⟩ := Launched.sound { LookupCtx.new param m.now.1 with
            generation := handle.generation
            pending := [⟨param.service, .ptr⟩] } ctx [] hs' hl
        exact ⟨hsound, ht'.same _ ctx [] hsame, hsame.maxEntries⟩

end
end Mdns

structure Watch (I : Type) where
  opening : Opening
  ctx : LookupCtx I
  heard : List Found
  told : List ServiceEntry

structure LookupTurn (I : Type) (QS AN EV LK : Type → Type) where
  order : HashOrder
  handle : LookupHandle
  driver : Mdns I QS AN EV LK

def entriesSince (before after : EventQueue) : List ServiceEntry :=
  (after.queue.drop before.queue.length).filterMap fun slot =>
    match slot with
    | .terminal (.lookup _ entry) => some entry
    | _ => none

namespace Watch
variable {I : Type} [Instant I]

def turn {QS AN EV LK : Type → Type} [Pool QS] [Pool AN] [Pool EV] [Pool LK] (w : Watch I)
    (t : LookupTurn I QS AN EV LK) : Watch I :=
  let (driver, ctx, _) := Mdns.advanceOne t.order t.handle t.driver w.ctx
  { w with
    ctx := ctx
    heard := w.heard ++ Mdns.turnHeard t.order t.driver w.ctx
    told := w.told ++ entriesSince t.driver.events driver.events }

def machine (I : Type) (QS AN EV LK : Type → Type) [Instant I] [Pool QS] [Pool AN] [Pool EV]
    [Pool LK] : Machine (Watch I) (LookupTurn I QS AN EV LK) where
  start w := (∃ (m m' : Mdns I QS AN EV LK) (handle : LookupHandle),
    w.opening.open_ m = (m', .ok handle) ∧ m'.getChecked handle = some w.ctx) ∧
      w.heard = w.opening.seeds ∧ w.told = []
  admits _ _ := True
  next := turn

structure Kept (w : Watch I) : Prop where
  sound : w.ctx.Sound w.heard
  told : w.ctx.Told w.told
  maxEntries : w.ctx.maxEntries = w.opening.maxEntries

/-- What one turn tells: what is complete and was not told of, where the window is open. -/
structure TellsOnce {QS AN EV LK : Type → Type} [Pool QS] [Pool AN] [Pool EV] [Pool LK]
    (w next : Watch I) (t : LookupTurn I QS AN EV LK) : Prop where
  shut : ¬Mdns.OpenTurn t.order t.driver w.ctx → next.told = w.told
  told : Mdns.OpenTurn t.order t.driver w.ctx → ∃ new, next.told = w.told ++ new ∧
    ∀ e, e ∈ new ↔ ∃ name, (∃ p, next.ctx.partials.lookup (fold name) = some p) ∧
      entryOf next.heard name = some e ∧ ∀ e' ∈ w.told, e'.instance_ ≠ name

section
variable {QS AN EV LK : Type → Type} [Pool QS] [Pool AN] [Pool EV] [Pool LK] [LawfulPool LK]
variable [MeasuredInstant I]

theorem entriesSince_append (before after : EventQueue) (handle : LookupHandle)
    (new : List ServiceEntry)
    (h : after.queue = before.queue ++ new.map fun e => Slot.terminal (.lookup handle e)) :
    entriesSince before after = new := by
  rw [entriesSince, h, List.drop_left, List.filterMap_map]
  exact List.filterMap_some

theorem turn_kept (w : Watch I) (h : w.Kept) (t : LookupTurn I QS AN EV LK) :
    (w.turn t).Kept ∧ w.TellsOnce (w.turn t) t := by
  obtain ⟨new, hqueue, hsound, htold, hmax, hshut, hopen⟩ :=
    Mdns.advanceOne_spec t.order t.handle t.driver w.ctx w.heard w.told h.sound h.told
  have hnew : (w.turn t).told = w.told ++ new := by
    simp only [turn]
    rw [entriesSince_append _ _ _ _ hqueue]
  refine ⟨⟨hsound, ?_, hmax.trans h.maxEntries⟩, ⟨fun hclosed => ?_, fun hall => ?_⟩⟩
  · rw [hnew]
    exact htold
  · rw [hnew, hshut hclosed, List.append_nil]
  · exact ⟨new, hnew, hopen hall⟩

theorem run_kept (ts : List (Transition (Watch I) (LookupTurn I QS AN EV LK))) (w : Watch I)
    (run : Run (machine I QS AN EV LK) ts w) : w.Kept := by
  refine Reachable.invariant (machine I QS AN EV LK) Kept (fun w hw => ?_) (fun w t h _ => ?_) w
    ⟨ts, run⟩
  · obtain ⟨⟨m, m', handle, hopen, hctx⟩, hheard, htold⟩ := hw
    obtain ⟨hs, ht, hmax⟩ := Mdns.opened m m' w.opening handle hopen w.ctx hctx
    exact ⟨by rw [hheard]; exact hs, by rw [htold]; exact ht, hmax⟩
  · exact (turn_kept w h t).1

/-- The entries of a lookup, over every run of its turns: each instance has the addresses of the
host of its last SRV, the caller is told of each complete instance once, with what was heard last
and only what was heard for its host, and the lookup keeps to its bounds. -/
theorem lookup_entries_are_sound (ts : List (Transition (Watch I) (LookupTurn I QS AN EV LK)))
    (w : Watch I) (run : Run (machine I QS AN EV LK) ts w) :
    (∀ key p, w.ctx.partials.lookup key = some p →
      p.hostKey = (lastSrv w.heard key).map (fun target => fold target.1) ∧
        ⟨p.ipv4, p.ipv6⟩ = (p.hostKey.bind w.ctx.hostAddrs.lookup).getD HostAddrs.default) ∧
      (∀ hostKey, (w.ctx.hostAddrs.lookup hostKey).getD HostAddrs.default =
        ⟨knownV4 w.heard hostKey, knownV6 w.heard hostKey⟩) ∧
      (w.told.map ServiceEntry.instance_).Nodup ∧
      (∀ t ∈ ts, t.pre.TellsOnce t.post t.call) ∧
      w.ctx.partials.keys.length ≤ w.opening.maxEntries ∧
      w.ctx.hostsQueried.card ≤ w.opening.maxEntries ∧
      w.ctx.launched ≤ 1 + 4 * w.opening.maxEntries ∧
      w.ctx.subqueries.keys.length ≤ 1 + 4 * w.opening.maxEntries := by
  have h := run_kept ts w run
  have hfew := h.sound.bounded.starts
  have hpartials := h.sound.bounded.partials
  have hhosts := h.sound.bounded.hosts
  have hheld := h.sound.bounded.held
  rw [h.maxEntries] at hpartials hhosts
  refine ⟨fun key p hp => ?_, h.sound.sees.cache, h.told.once, fun t ht => ?_, hpartials, hhosts,
    by omega, by omega⟩
  · have hm := h.sound.sees.partials key p hp
    refine ⟨hm.hostKey, ?_⟩
    have h4 := hm.ipv4
    have h6 := hm.ipv6
    cases hk : p.hostKey with
    | none =>
      rw [hk] at h4 h6
      rw [h4, h6]
      rfl
    | some hostKey =>
      rw [hk] at h4 h6
      rw [h4, h6, Option.bind_some, h.sound.sees.cache hostKey]
      rfl
  · obtain ⟨before, run'⟩ := run.reached _ ts w t ht
    obtain ⟨hnext, -⟩ := run.mem _ ts w t ht
    rw [hnext]
    exact (turn_kept t.pre (run_kept before t.pre run') t.call).2

end

def emptyDriver : Mdns Uptime Slab Slab Slab Slab where
  endpoint := ⟨Pool.new, 0, 1⟩
  queries := ∅
  lookups := ⟨Pool.new, 0⟩
  events := EventQueue.new
  txQueue := TxQueue.new
  workPending := false
  clock n := Fin.ofNat _ n

def hostOpening : Opening := .resolveHost ServiceRecords.printerHost (Duration.fromSecs 1)

def hostDriver : Mdns Uptime Slab Slab Slab Slab := (hostOpening.open_ emptyDriver).1

def hostWatch : Watch Uptime where
  opening := hostOpening
  ctx := (hostDriver.getChecked ⟨0, 0⟩).getD (LookupCtx.new (QueryParam.new ServiceRecords.printerHost) 0)
  heard := hostOpening.seeds
  told := []

/-- Both sub-queries have collected an address of the host, which the second does not read. -/
def hostTurn : LookupTurn Uptime Slab Slab Slab Slab where
  order := HashOrder.listed
  handle := ⟨0, 0⟩
  driver := { hostDriver with
    endpoint := hostDriver.endpoint.mapAll fun q => q.store ⟨.a, .in_, [192, 0, 2, 1], none, 0⟩ }

theorem host_is_resolved :
    ((hostWatch.turn hostTurn).turn hostTurn).told.map ServiceEntry.instance_ = [ServiceRecords.printerHost] ∧
      (((hostWatch.turn hostTurn).turn hostTurn).told.map ServiceEntry.instance_).Nodup := by
  have run : Run (machine Uptime Slab Slab Slab Slab) _ _ :=
    Run.step _ _ hostTurn (Run.step [] hostWatch hostTurn
      (Run.start hostWatch ⟨⟨emptyDriver, hostDriver, ⟨0, 0⟩, rfl, rfl⟩, rfl, rfl⟩) trivial) trivial
  exact ⟨by decide +kernel, (lookup_entries_are_sound _ _ run).2.2.1⟩

end Watch
end Hick
