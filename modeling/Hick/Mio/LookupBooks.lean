import Hick.Mio.DriverBooks
import Hick.Mio.LookupWatch

/-!
# The books through the lookups (hick-mio/src/discovery.rs:765-1414)

Whatever a lookup does, it does to its own sub-queries: the books are kept, and the queries of the
callers stay where they are, read as far as they were.
-/

set_option linter.unusedSectionVars false

namespace Hick
open Octets Wire

theorem ne_last_of_le (a b : UInt32) (h : a ≤ b) (hb : b ≠ lastQueryHandle) :
    a ≠ lastQueryHandle := by
  rintro rfl
  apply hb
  rw [UInt32.le_iff_toNat_le] at h
  have := b.toNat_lt
  apply UInt32.toNat_inj.mp
  simp only [lastQueryHandle, UInt32.toNat_ofNat] at h ⊢
  omega

namespace Mdns
section
variable {I : Type} {QS AN EV LK : Type → Type} [Instant I] [Pool QS] [Pool AN] [Pool EV] [Pool LK]

def callerSeq (m : Mdns I QS AN EV LK) (handle : QueryHandle) : Option UInt64 :=
  (m.queries.lookup handle).bind fun ctx => if ctx.owner = none then some ctx.lastSeq else none

def table (m : Mdns I QS AN EV LK) : Nat → Option (LookupCtx I) := Pool.get m.lookups.slab

/-- Between two states, unless the handles have run out, the books are kept and the queries of the
callers are the same. -/
structure Carries (m m' : Mdns I QS AN EV LK) (slots slots' : Nat → Option (LookupCtx I)) :
    Prop where
  counted : m.endpoint.nextQueryHandle ≤ m'.endpoint.nextQueryHandle
  kept : m'.endpoint.nextQueryHandle ≠ lastQueryHandle → m.Books slots →
    m'.Books slots' ∧ ∀ h, m'.callerSeq h = m.callerSeq h

variable (m : Mdns I QS AN EV LK) (slots : Nat → Option (LookupCtx I))

theorem Carries.refl :
    Carries m m slots slots :=
  ⟨UInt32.le_refl _, fun _ h => ⟨h, fun _ => rfl⟩⟩

theorem Carries.trans (a b c : Mdns I QS AN EV LK) (s t u : Nat → Option (LookupCtx I))
    (h : Carries a b s t) (h' : Carries b c t u) : Carries a c s u := by
  refine ⟨UInt32.le_trans h.counted h'.counted, fun hroom hb => ?_⟩
  obtain ⟨hb', hsame⟩ := h.kept (ne_last_of_le _ _ h'.counted hroom) hb
  obtain ⟨hb'', hsame'⟩ := h'.kept hroom hb'
  exact ⟨hb'', fun k => by rw [hsame', hsame]⟩

theorem Moves.callerSeq (m m' : Mdns I QS AN EV LK) (h : Moves m m') (k : QueryHandle) :
    m'.callerSeq k = m.callerSeq k := by
  rw [Mdns.callerSeq, Mdns.callerSeq]
  have hk := h.queries k
  generalize m.queries.lookup k = x at *
  generalize m'.queries.lookup k = y at *
  cases hk with
  | none => rfl
  | some hs =>
    simp only [Option.bind_some]
    rw [hs.1, hs.2]

variable [ReleasingPool QS] [LawfulPool AN]

theorem Moves.carries (m m' : Mdns I QS AN EV LK) (h : Moves m m')
    (slots : Nat → Option (LookupCtx I)) : Carries m m' slots slots := by
  refine ⟨?_, fun _ hb => ⟨hb.moves m m' slots h, h.callerSeq m m'⟩⟩
  rw [h.endpoint.1]
  exact UInt32.le_refl _

theorem Books.callerSeq_sub (h : m.Books slots) (key : Nat) (ctx : LookupCtx I)
    (hslot : slots key = some ctx)
    (sub : QueryHandle) (hsub : sub ∈ ctx.subqueries) : m.callerSeq sub = none := by
  rw [callerSeq]
  cases hctx : m.queries.lookup sub with
  | none => rfl
  | some entry =>
    have howner := (h.subs key ctx sub hslot hsub).2 entry hctx
    simp [howner]

theorem callerSeq_drop (handle k : QueryHandle) :
    (m.dropQuery handle).callerSeq k = if k = handle then none else m.callerSeq k := by
  simp only [callerSeq, dropQuery, Assoc.lookup_erase]
  split
  · rfl
  · rfl

theorem Books.carries_drop (key : Nat)
    (ctx : LookupCtx I) (hslot : slots key = some ctx) (sub : QueryHandle)
    (hsub : sub ∈ ctx.subqueries) : Carries m (m.dropQuery sub) slots slots := by
  refine ⟨?_, fun _ hb => ⟨hb.drop m slots sub, fun k => ?_⟩⟩
  · simp only [dropQuery, cancelQuery_next]
    exact UInt32.le_refl _
  · rw [callerSeq_drop]
    split
    · rename_i hk
      rw [hk, hb.callerSeq_sub m slots key ctx hslot sub hsub]
    · rfl

theorem carries_takeAnswers (key : Nat)
    (ctx : LookupCtx I) (hslot : slots key = some ctx) (sub : QueryHandle)
    (hsub : sub ∈ ctx.subqueries) : Carries m (m.takeAnswers sub).1 slots slots := by
  rw [takeAnswers]
  split
  · refine ⟨UInt32.le_refl _, fun _ hb => ?_⟩
    have hb' := hb.markRead m slots sub
    refine ⟨⟨hb'.distinct, hb'.shared, hb'.issued, hb'.numbered, hb'.read, hb'.owned, hb'.subs,
      hb'.window, hb'.clock, hb'.boundless⟩, fun k => ?_⟩
    show (m.markRead sub).callerSeq k = m.callerSeq k
    by_cases hk : k = sub
    · rw [hk, hb.callerSeq_sub m slots key ctx hslot sub hsub,
        hb'.callerSeq_sub _ slots key ctx hslot sub hsub]
    · simp only [callerSeq, markRead]
      rw [Assoc.lookup_modify, if_neg hk]
  · exact .refl m slots

theorem Books.replace (h : m.Books slots) (key : Nat) (ctx next : LookupCtx I)
    (hslot : slots key = some ctx)
    (hgeneration : next.generation = ctx.generation) (hdeadline : next.deadline = ctx.deadline)
    (htimeout : next.timeout = ctx.timeout)
    (hfewer : ∀ sub, sub ∈ next.subqueries → sub ∈ ctx.subqueries)
    (hall : ∀ sub, sub ∈ ctx.subqueries → sub ∈ m.queries → sub ∈ next.subqueries) :
    m.Books (Function.update slots key (some next)) := by
  have hfrom : ∀ j lookup, Function.update slots key (some next) j = some lookup →
      ∃ old, slots j = some old ∧ lookup.generation = old.generation ∧
        lookup.deadline = old.deadline ∧ lookup.timeout = old.timeout ∧
        ∀ sub, sub ∈ lookup.subqueries → sub ∈ old.subqueries := by
    intro j lookup hj
    by_cases hjk : j = key
    · subst hjk
      rw [Function.update_self] at hj
      cases hj
      exact ⟨ctx, hslot, hgeneration, hdeadline, htimeout, hfewer⟩
    · rw [Function.update_of_ne hjk] at hj
      exact ⟨lookup, hj, rfl, rfl, rfl, fun sub hs => hs⟩
  refine ⟨h.distinct, h.shared, h.issued, h.numbered, h.read, fun k entry owner hentry howner => ?_,
    fun j lookup k hj hk => ?_, fun j lookup k q hj hk hq => ?_, h.clock,
    fun j lookup n hj hnone => ?_⟩
  · obtain ⟨lookup, hl, hgen, hk⟩ := h.owned k entry owner hentry howner
    by_cases hjk : owner.key = key
    · rw [hjk, hslot] at hl
      cases hl
      refine ⟨next, by rw [hjk, Function.update_self], by rw [hgeneration, hgen], ?_⟩
      exact hall k hk ((Assoc.mem_iff k _).mpr ⟨entry, hentry⟩)
    · exact ⟨lookup, by rw [Function.update_of_ne hjk, hl], hgen, hk⟩
  · obtain ⟨old, hold, hgen, -, -, hsubs⟩ := hfrom j lookup hj
    rw [hgen]
    exact h.subs j old k hold (hsubs k hk)
  · obtain ⟨old, hold, -, hd, -, hsubs⟩ := hfrom j lookup hj
    rw [hd]
    exact h.window j old k q hold (hsubs k hk) hq
  · obtain ⟨old, hold, -, hd, ht, -⟩ := hfrom j lookup hj
    rw [ht]
    exact h.boundless j old n hold (by rw [← hd, hnone])

theorem Books.vacate (h : m.Books slots) (key : Nat) (ctx : LookupCtx I)
    (hslot : slots key = some ctx)
    (hgone : ∀ sub, sub ∈ ctx.subqueries → sub ∉ m.queries) :
    m.Books (Function.update slots key none) := by
  have hfrom : ∀ j lookup, Function.update slots key none j = some lookup →
      slots j = some lookup := by
    intro j lookup hj
    by_cases hjk : j = key
    · rw [hjk, Function.update_self] at hj
      cases hj
    · rw [Function.update_of_ne hjk] at hj
      exact hj
  refine ⟨h.distinct, h.shared, h.issued, h.numbered, h.read, fun k entry owner hentry howner => ?_,
    fun j lookup k hj hk => h.subs j lookup k (hfrom j lookup hj) hk,
    fun j lookup k q hj hk hq => h.window j lookup k q (hfrom j lookup hj) hk hq, h.clock,
    fun j lookup n hj hnone => h.boundless j lookup n (hfrom j lookup hj) hnone⟩
  obtain ⟨lookup, hl, hgen, hk⟩ := h.owned k entry owner hentry howner
  refine ⟨lookup, ?_, hgen, hk⟩
  rw [Function.update_of_ne, hl]
  intro hjk
  rw [hjk, hslot] at hl
  cases hl
  exact hgone k hk ((Assoc.mem_iff k _).mpr ⟨entry, hentry⟩)

theorem Books.occupy (h : m.Books slots) (key : Nat) (ctx : LookupCtx I) (hslot : slots key = none)
    (hsubs : ctx.subqueries = ∅)
    (hboundless : ∀ n, ctx.deadline = none → checkedAddDuration (m.clock n) ctx.timeout = none) :
    m.Books (Function.update slots key (some ctx)) := by
  have hnone : ∀ sub, sub ∉ ctx.subqueries := by
    intro sub hsub
    rw [hsubs] at hsub
    exact AList.notMem_empty sub hsub
  have hfrom : ∀ j lookup, Function.update slots key (some ctx) j = some lookup →
      slots j = some lookup ∨ lookup = ctx := by
    intro j lookup hj
    by_cases hjk : j = key
    · rw [hjk, Function.update_self] at hj
      cases hj
      exact .inr rfl
    · rw [Function.update_of_ne hjk] at hj
      exact .inl hj
  refine ⟨h.distinct, h.shared, h.issued, h.numbered, h.read, fun k entry owner hentry howner => ?_,
    fun j lookup k hj hk => ?_, fun j lookup k q hj hk hq => ?_, h.clock,
    fun j lookup n hj hd => ?_⟩
  · obtain ⟨lookup, hl, hgen, hk⟩ := h.owned k entry owner hentry howner
    refine ⟨lookup, ?_, hgen, hk⟩
    rw [Function.update_of_ne, hl]
    intro hjk
    rw [hjk, hslot] at hl
    cases hl
  · rcases hfrom j lookup hj with hold | rfl
    · exact h.subs j lookup k hold hk
    · exact absurd hk (hnone k)
  · rcases hfrom j lookup hj with hold | rfl
    · exact h.window j lookup k q hold hk hq
    · exact absurd hk (hnone k)
  · rcases hfrom j lookup hj with hold | rfl
    · exact h.boundless j lookup n hold hd
    · exact hboundless n hd

theorem Books.fresh (h : m.Books slots) :
    m.endpoint.Fresh ∧ ⟨m.endpoint.nextQueryHandle⟩ ∉ m.queries := by
  have hnot : ⟨m.endpoint.nextQueryHandle⟩ ∉ m.queries := by
    intro hmem
    exact absurd (h.issued _ hmem) (Nat.lt_irrefl _)
  refine ⟨?_, hnot⟩
  rw [Queries.Fresh, ← Option.not_isSome_iff_eq_none]
  intro hsome
  exact hnot ((h.shared _).mp hsome)

structure Joins (m m' : Mdns I QS AN EV LK) (sub : QueryHandle) (entry : QueryCtx I)
    (q : Query I AN EV) : Prop where
  handle : sub = ⟨m.endpoint.nextQueryHandle⟩
  next : m'.endpoint.nextQueryHandle = saturatingSucc32 m.endpoint.nextQueryHandle
  distinct : m'.endpoint.Distinct
  endpoint : ∀ h, m'.endpoint.get? h = if h = sub then some q else m.endpoint.get? h
  queries : ∀ h, m'.queries.lookup h = if h = sub then some entry else m.queries.lookup h
  numbered : q.Numbered
  unread : entry.lastSeq = 0
  clock : Later m.clock m'.clock

theorem Joins.mem (m m' : Mdns I QS AN EV LK) (sub : QueryHandle) (entry : QueryCtx I)
    (q : Query I AN EV) (h : Joins m m' sub entry q) (k : QueryHandle) :
    k ∈ m'.queries ↔ k = sub ∨ k ∈ m.queries := by
  rw [Assoc.mem_iff, Assoc.mem_iff, h.queries]
  by_cases hk : k = sub
  · simp [hk]
  · simp [hk]

theorem Books.joins (m m' : Mdns I QS AN EV LK) (slots slots' : Nat → Option (LookupCtx I))
    (h : m.Books slots) (sub : QueryHandle) (entry : QueryCtx I) (q : Query I AN EV)
    (hj : Joins m m' sub entry q) (hroom : m'.endpoint.nextQueryHandle ≠ lastQueryHandle)
    (hslots : ∀ key lookup, slots key = some lookup → ∃ lookup', slots' key = some lookup' ∧
      lookup'.generation = lookup.generation ∧
      ∀ k, k ∈ lookup.subqueries → k ∈ lookup'.subqueries)
    (howned : ∀ owner, entry.owner = some owner → ∃ lookup, slots' owner.key = some lookup ∧
      lookup.generation = owner.generation ∧ sub ∈ lookup.subqueries)
    (hback : ∀ key lookup', slots' key = some lookup' → ∃ lookup, slots key = some lookup ∧
      lookup'.generation = lookup.generation ∧ lookup'.deadline = lookup.deadline ∧
      lookup'.timeout = lookup.timeout ∧ ∀ k, k ∈ lookup'.subqueries → k ∈ lookup.subqueries ∨
        k = sub ∧ entry.owner = some ⟨key, lookup'.generation⟩ ∧
          (q.done = true ∨ q.timeoutDeadline = lookup'.deadline)) : m'.Books slots' := by
  rw [hj.next] at hroom
  have hlt := saturatingSucc32_lt _ hroom
  have hnew : ∀ k : QueryHandle, k.raw.toNat < m.endpoint.nextQueryHandle.toNat → k ≠ sub := by
    intro k hk hsame
    rw [hsame, hj.handle] at hk
    exact Nat.lt_irrefl _ hk
  refine ⟨hj.distinct, fun k => ?_, fun k hk => ?_, fun k p hp => ?_, fun k ctx p hctx hp => ?_,
    fun k ctx owner hctx howner => ?_, fun key lookup k hslot hsub => ?_,
    fun key lookup k p hslot hsub hp => ?_, hj.clock.monotone _ _ h.clock,
    fun key lookup n hslot hnone => ?_⟩
  · rw [hj.mem, hj.endpoint, ← h.shared k]
    by_cases hk : k = sub
    · simp [hk]
    · simp [hk]
  · rw [hj.next]
    rcases (hj.mem m m' sub entry q k).mp hk with rfl | hold
    · rw [hj.handle]
      exact hlt
    · exact lt_trans (h.issued k hold) hlt
  · rw [hj.endpoint] at hp
    split at hp
    · cases hp
      exact hj.numbered
    · exact h.numbered k p hp
  · rw [hj.queries] at hctx
    rw [hj.endpoint] at hp
    split at hctx
    · cases hctx
      rw [hj.unread]
      exact UInt64.le_iff_toNat_le.mpr (Nat.zero_le _)
    · rename_i hne
      rw [if_neg hne] at hp
      exact h.read k ctx p hctx hp
  · rw [hj.queries] at hctx
    split at hctx
    · rename_i hk
      cases hctx
      rw [hk]
      exact howned owner howner
    · obtain ⟨lookup, hl, hgen, hk⟩ := h.owned k ctx owner hctx howner
      obtain ⟨lookup', hl', hgen', hkeep⟩ := hslots _ lookup hl
      exact ⟨lookup', hl', by rw [hgen', hgen], hkeep k hk⟩
  · obtain ⟨old, hold, hgen, -, -, hfrom⟩ := hback key lookup hslot
    rcases hfrom k hsub with hk | ⟨rfl, howner, -⟩
    · obtain ⟨hissued, hown⟩ := h.subs key old k hold hk
      refine ⟨by rw [hj.next]; exact lt_trans hissued hlt, fun ctx hctx => ?_⟩
      rw [hj.queries, if_neg (hnew k hissued)] at hctx
      rw [hgen]
      exact hown ctx hctx
    · refine ⟨by rw [hj.next, hj.handle]; exact hlt, fun ctx hctx => ?_⟩
      rw [hj.queries, if_pos rfl] at hctx
      cases hctx
      exact howner
  · obtain ⟨old, hold, -, hdeadline, -, hfrom⟩ := hback key lookup hslot
    rw [hj.endpoint] at hp
    rcases hfrom k hsub with hk | ⟨rfl, -, hwindow⟩
    · rw [if_neg (hnew k (h.subs key old k hold hk).1)] at hp
      rw [hdeadline]
      exact h.window key old k p hold hk hp
    · rw [if_pos rfl] at hp
      cases hp
      exact hwindow
  · obtain ⟨old, hold, -, hdeadline, htimeout, -⟩ := hback key lookup hslot
    obtain ⟨j, hclock⟩ := hj.clock
    rw [hclock, htimeout]
    exact h.boundless key old (n + j) hold (by rw [← hdeadline, hnone])

theorem Joins.callerSeq (m m' : Mdns I QS AN EV LK) (sub : QueryHandle) (entry : QueryCtx I)
    (q : Query I AN EV) (h : Joins m m' sub entry q) (k : QueryHandle) :
    m'.callerSeq k = if k = sub then (if entry.owner = none then some entry.lastSeq else none)
      else m.callerSeq k := by
  rw [Mdns.callerSeq, h.queries]
  split
  · rfl
  · rfl

variable [LawfulPool EV]

theorem budget_deadline [MeasuredInstant I] (ctx : LookupCtx I) (at_ : I) (left : Duration)
    (h : budget ctx at_ = some left)
    (hboundless : ctx.deadline = none → checkedAddDuration at_ ctx.timeout = none) :
    checkedAddDuration at_ left = ctx.deadline := by
  rw [budget] at h
  cases hd : ctx.deadline with
  | none =>
    rw [hd] at h
    cases h
    exact hboundless hd
  | some deadline =>
    rw [hd] at h
    simp only at h
    by_cases hpast : at_ ≤ deadline
    · obtain ⟨g, hg, hsum⟩ := MeasuredInstant.since_of_le at_ deadline hpast
      rw [hg] at h
      simp only at h
      split at h
      · cases h
      · cases h
        exact hsum
    · rw [MeasuredInstant.since_of_lt at_ deadline (not_le.mp hpast)] at h
      cases h

structure Refused (m m' : Mdns I QS AN EV LK) : Prop where
  counted : m.endpoint.nextQueryHandle ≤ m'.endpoint.nextQueryHandle
  distinct : m.endpoint.Distinct → m.endpoint.Fresh → m'.endpoint.Distinct ∧
    ∀ h, m'.endpoint.get? h = m.endpoint.get? h
  queries : m'.queries = m.queries
  lookups : m'.lookups = m.lookups
  clock : Later m.clock m'.clock

theorem Refused.carries (m m' : Mdns I QS AN EV LK) (h : Refused m m')
    (slots : Nat → Option (LookupCtx I)) : Carries m m' slots slots := by
  refine ⟨h.counted, fun _ hb => ⟨?_, fun k => ?_⟩⟩
  · obtain ⟨hd, hget⟩ := h.distinct hb.distinct (hb.fresh m slots).1
    refine ⟨hd, fun k => ?_, fun k hk => ?_, fun k q hq => ?_, fun k ctx q hctx hq => ?_,
      fun k ctx owner hctx howner => ?_, fun key lookup k hslot hsub => ?_,
      fun key lookup k q hslot hsub hq => ?_, h.clock.monotone _ _ hb.clock,
      fun key lookup n hslot hnone => ?_⟩
    · rw [hget, h.queries]
      exact hb.shared k
    · rw [h.queries] at hk
      exact lt_of_lt_of_le (hb.issued k hk) (UInt32.le_iff_toNat_le.mp h.counted)
    · rw [hget] at hq
      exact hb.numbered k q hq
    · rw [h.queries] at hctx
      rw [hget] at hq
      exact hb.read k ctx q hctx hq
    · rw [h.queries] at hctx
      exact hb.owned k ctx owner hctx howner
    · rw [h.queries]
      obtain ⟨hissued, hown⟩ := hb.subs key lookup k hslot hsub
      exact ⟨lt_of_lt_of_le hissued (UInt32.le_iff_toNat_le.mp h.counted), hown⟩
    · rw [hget] at hq
      exact hb.window key lookup k q hslot hsub hq
    · obtain ⟨j, hclock⟩ := h.clock
      rw [hclock]
      exact hb.boundless key lookup (n + j) hslot hnone
  · rw [callerSeq, callerSeq, h.queries]

theorem later_succ (c : Nat → I) : Later c fun n => c (n + 1) := ⟨1, rfl⟩

theorem tryStartQuery_refused (m : Mdns I QS AN EV LK) (spec : QuerySpec)
    (e' : Queries I QS AN EV) (e : StartQueryError)
    (hstart : m.endpoint.tryStartQuery spec (m.clock 0) = (e', .error e)) :
    Refused m { m with
      endpoint := e'
      clock := fun n => m.clock (n + 1) } := by
  have hnext := tryStartQuery_next m.endpoint spec (m.clock 0)
  rw [hstart] at hnext
  refine ⟨?_, fun hd hfresh => ?_, rfl, rfl, later_succ _⟩
  · rw [show e'.nextQueryHandle = _ from hnext]
    exact saturatingSucc32_le _
  · obtain ⟨hd', -, ⟨-, hget⟩ | ⟨hok, -⟩⟩ := tryStartQuery_spec _ hd hfresh _ _ e' _ hstart
    · exact ⟨hd', hget⟩
    · cases hok

theorem startSubqueryInWindow_refused (m m' : Mdns I QS AN EV LK) (ctx : LookupCtx I)
    (spec : QuerySpec) (result : Except StartQueryError (Option QueryHandle))
    (h : m.startSubqueryInWindow ctx spec = (m', result)) (hnot : ∀ sub, result ≠ .ok (some sub)) :
    Refused m m' := by
  simp only [startSubqueryInWindow, now] at h
  cases hbudget : budget ctx (m.clock 0) with
  | none =>
    rw [hbudget] at h
    cases h
    exact ⟨UInt32.le_refl _, fun hd _ => ⟨hd, fun _ => rfl⟩, rfl, rfl, later_succ _⟩
  | some left =>
    rw [hbudget] at h
    simp only at h
    generalize hstart : m.endpoint.tryStartQuery (spec.withTimeout left) (m.clock 0) = started at *
    obtain ⟨e', e | sub⟩ := started
    · cases h
      exact m.tryStartQuery_refused _ e' e hstart
    · cases h
      exact absurd rfl (hnot sub)

theorem startSubqueryInWindow_joins [MeasuredInstant I] (m m' : Mdns I QS AN EV LK)
    (ctx : LookupCtx I) (spec : QuerySpec) (sub : QueryHandle) (hd : m.endpoint.Distinct)
    (hfresh : m.endpoint.Fresh)
    (h : m.startSubqueryInWindow ctx spec = (m', .ok (some sub)))
    (hboundless : ctx.deadline = none → checkedAddDuration (m.clock 0) ctx.timeout = none)
    (owner : LookupHandle) (step : Step) :
    ∃ entry q, entry.owner = some owner ∧ q.timeoutDeadline = ctx.deadline ∧
      Joins m (m'.registerSubquery ctx owner sub step).1 sub entry q := by
  simp only [startSubqueryInWindow, now] at h
  cases hbudget : budget ctx (m.clock 0) with
  | none =>
    rw [hbudget] at h
    cases h
  | some left =>
    rw [hbudget] at h
    simp only at h
    generalize hstart : m.endpoint.tryStartQuery (spec.withTimeout left) (m.clock 0) = started at h
    obtain ⟨e', e | placed⟩ := started
    · cases h
    · cases h
      obtain ⟨hd', hnext, ⟨hbad, -⟩ | ⟨hok, hget⟩⟩ :=
        tryStartQuery_spec _ hd hfresh _ _ e' _ hstart
      · cases hbad
      · cases hok
        obtain ⟨hnumbered, -, hwindow⟩ :=
          started_numbered m.endpoint (spec.withTimeout left) (m.clock 0)
        refine ⟨⟨0, some owner, m.txQueue.join.1, FamilyWireGate.new⟩,
          m.endpoint.started (spec.withTimeout left) (m.clock 0), rfl, ?_, rfl, hnext, hd', hget,
          fun k => Assoc.lookup_insert _ k _ _, hnumbered, rfl, later_succ _⟩
        rw [hwindow]
        exact budget_deadline ctx _ left hbudget hboundless

theorem carries_launch [MeasuredInstant I] (m m' : Mdns I QS AN EV LK)
    (slots : Nat → Option (LookupCtx I)) (key : Nat) (ctx : LookupCtx I)
    (hslot : slots key = some ctx) (spec : QuerySpec) (sub : QueryHandle)
    (h : m.startSubqueryInWindow ctx spec = (m', .ok (some sub))) (step : Step) :
    Carries m (m'.registerSubquery ctx ⟨key, ctx.generation⟩ sub step).1 slots
      (Function.update slots key
        (some (m'.registerSubquery ctx ⟨key, ctx.generation⟩ sub step).2)) := by
  have hcounted : m'.endpoint.nextQueryHandle = saturatingSucc32 m.endpoint.nextQueryHandle := by
    simp only [startSubqueryInWindow, now] at h
    cases hbudget : budget ctx (m.clock 0) with
    | none =>
      rw [hbudget] at h
      cases h
    | some left =>
      rw [hbudget] at h
      simp only at h
      have hnext := tryStartQuery_next m.endpoint (spec.withTimeout left) (m.clock 0)
      generalize m.endpoint.tryStartQuery (spec.withTimeout left) (m.clock 0) = started at *
      obtain ⟨e', e | placed⟩ := started
      · cases h
      · cases h
        exact hnext
  refine ⟨?_, fun hroom hb => ?_⟩
  · show m.endpoint.nextQueryHandle ≤ m'.endpoint.nextQueryHandle
    rw [hcounted]
    exact saturatingSucc32_le _
  · obtain ⟨hfresh, hnot⟩ := hb.fresh m slots
    obtain ⟨entry, q, howner, hwindow, hj⟩ := startSubqueryInWindow_joins m m' ctx spec sub
      hb.distinct hfresh h (hb.boundless key ctx 0 hslot) ⟨key, ctx.generation⟩ step
    refine ⟨hb.joins m _ slots _ sub entry q hj hroom (fun j lookup hl => ?_) (fun owner ho => ?_)
      (fun j lookup hl => ?_), fun k => ?_⟩
    · by_cases hjk : j = key
      · rw [hjk, hslot] at hl
        cases hl
        refine ⟨(m'.registerSubquery ctx ⟨key, ctx.generation⟩ sub step).2,
          by rw [hjk, Function.update_self], rfl, fun k hk => ?_⟩
        exact (AList.mem_insert _).mpr (.inr hk)
      · exact ⟨lookup, by rw [Function.update_of_ne hjk, hl], rfl, fun k hk => hk⟩
    · rw [howner] at ho
      cases ho
      exact ⟨(m'.registerSubquery ctx ⟨key, ctx.generation⟩ sub step).2, Function.update_self ..,
        rfl, (AList.mem_insert _).mpr (.inl rfl)⟩
    · by_cases hjk : j = key
      · rw [hjk, Function.update_self] at hl
        cases hl
        refine ⟨ctx, by rw [hjk, hslot], rfl, rfl, rfl, fun k hk => ?_⟩
        rcases (AList.mem_insert _).mp hk with hk | hk
        · exact .inr ⟨hk, by rw [howner, hjk]; rfl, .inr hwindow⟩
        · exact .inl hk
      · rw [Function.update_of_ne hjk] at hl
        exact ⟨lookup, hl, rfl, rfl, rfl, fun k hk => .inl hk⟩
    · rw [hj.callerSeq, howner]
      split
      · rename_i hk
        rw [hk, hj.handle, callerSeq, AList.lookup_eq_none.mpr hnot]
        rfl
      · rfl

end
end Mdns
end Hick
