import Hick.Mio.TickBooks

/-!
# The runs of a driver (hick-mio/src/driver.rs, endpoint.rs:60-185, 723-790, discovery.rs:900-996)

The caller starts and cancels queries and lookups, and takes events; the driver ticks.
-/

namespace Hick
open Octets Wire Runs

structure DriverRun (I : Type) (QS AN EV LK : Type → Type) where
  mdns : Mdns I QS AN EV LK
  /-- What has become of the queries and services, oldest first. -/
  handed : List Handed
  /-- The queries that the caller has started, and those it has cancelled. -/
  started : List QueryHandle
  cancelled : List QueryHandle
  /-- What has become of the lookups, oldest first. -/
  told : List Event
  /-- The lookups that the caller has opened, and those it has cancelled while they ran. -/
  opened : List LookupHandle
  abandoned : List LookupHandle

inductive DriverCall (I : Type) where
  | tick (t : TickInput I)
  | startQuery (spec : QuerySpec)
  | cancelQuery (handle : QueryHandle)
  | openLookup (opening : Opening)
  | cancelLookup (handle : LookupHandle)
  | nextEvent

def eventsSince (before after : EventQueue) : List Event :=
  (after.queue.drop before.queue.length).filterMap fun slot =>
    match slot with
    | .terminal event => some event
    | .answer _ _ => none

namespace DriverRun
variable {I : Type} {QS AN EV LK : Type → Type} [Instant I] [Pool QS] [Pool AN] [Pool EV] [Pool LK]

def lookupEvents (t : TickInput I) (m : Mdns I QS AN EV LK) : List Event :=
  let m := Mdns.beforeLookups t m
  eventsSince m.events (Mdns.advanceLookups t.lookupOrder m).events

def next (s : DriverRun I QS AN EV LK) : DriverCall I → DriverRun I QS AN EV LK
  | .tick t => { s with
      mdns := (s.mdns.tick t).1
      handed := s.handed ++ (s.mdns.tick t).2
      told := s.told ++ lookupEvents t s.mdns }
  | .startQuery spec => { s with
      mdns := (s.mdns.startQuery spec).1
      started := s.started ++ (s.mdns.startQuery spec).2.toOption.toList }
  | .cancelQuery handle => { s with
      mdns := s.mdns.cancelQuery handle
      cancelled := s.cancelled ++ [handle] }
  | .openLookup opening => { s with
      mdns := (opening.open_ s.mdns).1
      opened := s.opened ++ (opening.open_ s.mdns).2.toOption.toList }
  | .cancelLookup handle => { s with
      mdns := s.mdns.cancelLookup handle
      abandoned := if (s.mdns.getChecked handle).isSome then s.abandoned ++ [handle]
        else s.abandoned }
  | .nextEvent => { s with mdns := s.mdns.nextEvent.2 }

structure Starts (s : DriverRun I QS AN EV LK) : Prop where
  endpoint : s.mdns.endpoint.queries = Pool.new ∧ s.mdns.endpoint.nextQueryHandle = 0
  queries : s.mdns.queries = ∅
  lookups : s.mdns.lookups = ⟨Pool.new, 0⟩
  events : s.mdns.events = EventQueue.new
  clock : Monotone s.mdns.clock
  nothing : s.handed = [] ∧ s.started = [] ∧ s.cancelled = [] ∧ s.told = [] ∧ s.opened = [] ∧
    s.abandoned = []

def machine (I : Type) (QS AN EV LK : Type → Type) [Instant I] [Pool QS] [Pool AN] [Pool EV]
    [Pool LK] : Machine (DriverRun I QS AN EV LK) (DriverCall I) where
  start := Starts
  admits _ _ := True
  next := next

def HandlesLeft (tr : Transition (DriverRun I QS AN EV LK) (DriverCall I)) : Prop :=
  tr.post.mdns.endpoint.nextQueryHandle ≠ lastQueryHandle

end DriverRun

namespace Mdns
section
variable {I : Type} {QS AN EV LK : Type → Type} [Instant I] [Pool QS] [Pool AN] [Pool EV] [Pool LK]
variable [ReleasingPool QS] [LawfulPool AN] [LawfulPool EV]

omit [LawfulPool AN] [LawfulPool EV] in
theorem Books.empty [LawfulPool LK] (m : Mdns I QS AN EV LK)
    (he : m.endpoint.queries = Pool.new) (hq : m.queries = ∅) (hl : m.lookups.slab = Pool.new)
    (hc : Monotone m.clock) : m.Books m.table := by
  have hget : ∀ k, Pool.get m.endpoint.queries k = none := by
    intro k
    rw [he, get_new]
  have hnone : ∀ h, m.endpoint.get? h = none := by
    intro h
    cases hk : m.endpoint.queryKey h with
    | none => simp only [Queries.get?, hk, Option.bind_none]
    | some key =>
      obtain ⟨q, hq', -⟩ := m.endpoint.queryKey_some h key hk
      rw [hget] at hq'
      cases hq'
  have hslots : ∀ key, m.table key = none := by
    intro key
    rw [table, hl, get_new]
  have hlookup : ∀ h, m.queries.lookup h = none := by
    intro h
    rw [hq]
    rfl
  refine ⟨fun k j q p hk => ?_, fun h => ?_, fun h hmem => ?_, fun h q hh => ?_,
    fun h ctx q hctx => ?_, fun h ctx owner hctx => ?_, fun key lookup h hslot => ?_,
    fun key lookup h q hslot => ?_, hc, fun key lookup n hslot => ?_⟩
  · rw [hget] at hk
    cases hk
  · rw [hnone, Assoc.mem_iff, hlookup]
    simp
  · rw [Assoc.mem_iff, hlookup] at hmem
    obtain ⟨ctx, hctx⟩ := hmem
    cases hctx
  · rw [hnone] at hh
    cases hh
  · rw [hlookup] at hctx
    cases hctx
  · rw [hlookup] at hctx
    cases hctx
  · rw [hslots] at hslot
    cases hslot
  · rw [hslots] at hslot
    cases hslot
  · rw [hslots] at hslot
    cases hslot

structure StartSpec (m m' : Mdns I QS AN EV LK) (result : Except StartQueryError QueryHandle) :
    Prop where
  next : m'.endpoint.nextQueryHandle = saturatingSucc32 m.endpoint.nextQueryHandle
  rest : m'.lookups = m.lookups ∧ m'.events = m.events
  kept : m'.endpoint.nextQueryHandle ≠ lastQueryHandle → m.Books m.table → m'.Books m.table ∧
    ((∃ e, result = .error e) ∧ (∀ k, m'.callerSeq k = m.callerSeq k) ∨
      result = .ok ⟨m.endpoint.nextQueryHandle⟩ ∧ ∀ k, m'.callerSeq k =
        if k = ⟨m.endpoint.nextQueryHandle⟩ then some 0 else m.callerSeq k)

theorem startQuery_spec (m : Mdns I QS AN EV LK) (spec : QuerySpec) :
    StartSpec m (m.startQuery spec).1 (m.startQuery spec).2 := by
  have hnext := tryStartQuery_next m.endpoint spec (m.clock 0)
  simp only [startQuery, now]
  generalize hstart : m.endpoint.tryStartQuery spec (m.clock 0) = started at *
  obtain ⟨e', e | handle⟩ := started
  · refine ⟨hnext, ⟨rfl, rfl⟩, fun hroom hb => ?_⟩
    obtain ⟨hb', hsame⟩ :=
      ((m.tryStartQuery_refused spec e' e hstart).carries m _ m.table).kept hroom hb
    exact ⟨hb', .inl ⟨⟨e, rfl⟩, hsame⟩⟩
  · refine ⟨hnext, ⟨rfl, rfl⟩, fun hroom hb => ?_⟩
    obtain ⟨hd', -, ⟨hbad, -⟩ | ⟨hok, hget⟩⟩ :=
      tryStartQuery_spec _ hb.distinct (hb.fresh m _).1 _ _ e' _ hstart
    · cases hbad
    · cases hok
      have hj : Joins m { m with
          endpoint := e'
          queries := m.queries.insert ⟨m.endpoint.nextQueryHandle⟩
            ⟨0, none, m.txQueue.join.1, FamilyWireGate.new⟩
          txQueue := m.txQueue.join.2
          workPending := true
          clock := fun n => m.clock (n + 1) } ⟨m.endpoint.nextQueryHandle⟩
          ⟨0, none, m.txQueue.join.1, FamilyWireGate.new⟩ (m.endpoint.started spec (m.clock 0)) :=
        ⟨rfl, hnext, hd', hget, fun k => Assoc.lookup_insert _ k _ _,
          (started_numbered m.endpoint spec _).1, rfl, later_succ _⟩
      refine ⟨hb.joins m _ m.table m.table _ _ _ hj hroom
        (fun key lookup hl => ⟨lookup, hl, rfl, fun k hk => hk⟩) (fun _ h => by cases h)
        (fun key lookup hl => ⟨lookup, hl, rfl, rfl, rfl, fun k hk => .inl hk⟩),
        .inr ⟨rfl, fun k => ?_⟩⟩
      rw [hj.callerSeq]
      rfl

omit [LawfulPool EV] in
theorem cancelQuery_spec (m : Mdns I QS AN EV LK) (handle : QueryHandle)
    (slots : Nat → Option (LookupCtx I)) :
    (m.cancelQuery handle).endpoint.nextQueryHandle = m.endpoint.nextQueryHandle ∧
      (m.cancelQuery handle).lookups = m.lookups ∧ (m.cancelQuery handle).events = m.events ∧
      (m.Books slots → (m.cancelQuery handle).Books slots) ∧
      ∀ k, (m.cancelQuery handle).callerSeq k = if k = handle then none else m.callerSeq k := by
  rw [cancelQuery]
  split
  · rename_i howned
    refine ⟨rfl, rfl, rfl, id, fun k => ?_⟩
    split
    · rename_i hk
      rw [hk, callerSeq]
      cases hctx : m.queries.lookup handle with
      | none => rfl
      | some ctx =>
        rw [hctx, Option.any_some] at howned
        rw [Option.bind_some, if_neg (Option.isSome_iff_ne_none.mp howned)]
    · rfl
  · exact ⟨cancelQuery_next _ _, rfl, rfl, fun hb => hb.drop m slots handle,
      fun k => callerSeq_drop m handle k⟩

end
end Mdns
end Hick
