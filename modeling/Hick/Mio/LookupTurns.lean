import Hick.Mio.LookupEntries

/-!
# The turns of a lookup (hick-mio/src/discovery.rs:723-796, 985-1091, 1161-1341)

A turn feeds a lookup, starts what it asks for and tells of what is complete.
-/

set_option linter.unusedSectionVars false

namespace Hick
open Octets Wire Runs

namespace Mdns
section
variable {I : Type} {QS AN EV LK : Type → Type} [Instant I] [Pool QS] [Pool AN] [Pool EV] [Pool LK]

theorem takeAnswers_rest (m : Mdns I QS AN EV LK) (sub : QueryHandle) :
    (m.takeAnswers sub).1.events.queue = m.events.queue ∧
      (m.takeAnswers sub).1.clock = m.clock := by
  rw [takeAnswers]
  simp only
  split
  · exact ⟨rfl, rfl⟩
  · exact ⟨rfl, rfl⟩

theorem endSubquery_rest (m : Mdns I QS AN EV LK) (sub : QueryHandle) :
    (m.endSubquery sub).1.events = m.events ∧ (m.endSubquery sub).1.clock = m.clock := by
  rw [endSubquery]
  split
  · exact ⟨rfl, rfl⟩
  · exact ⟨rfl, rfl⟩

def walkHeard : List QueryHandle → Mdns I QS AN EV LK → LookupCtx I → List Found
  | [], _, _ => []
  | sub :: rest, m, ctx =>
    match ctx.subqueries.lookup sub with
    | none => walkHeard rest m ctx
    | some step =>
      let (m, answers) := m.takeAnswers sub
      let ctx := answers.foldl (fun ctx answer => ctx.feed step answer) ctx
      answers.filterMap (Found.read step) ++
        (match m.endSubquery sub with
        | (m, true) => walkHeard rest m { ctx with subqueries := ctx.subqueries.erase sub }
        | (m, false) => walkHeard rest m ctx)

theorem erase_sound (ctx : LookupCtx I) (heard : List Found) (h : ctx.Sound heard)
    (subqueries : Assoc QueryHandle Step)
    (hsub : ∀ sub step, subqueries.lookup sub = some step →
      ctx.subqueries.lookup sub = some step)
    (hlen : subqueries.keys.length ≤ ctx.subqueries.keys.length) :
    LookupCtx.Sound { ctx with subqueries := subqueries } heard :=
  ⟨⟨h.sees.partials, h.sees.cache, h.sees.unheard⟩,
    ⟨fun sub step hs => h.bounded.asked sub step (hsub sub step hs), h.bounded.toAsk,
      h.bounded.partials, h.bounded.hosts, h.bounded.starts, le_trans hlen h.bounded.held⟩⟩

theorem walk_sound (subs : List QueryHandle) (m : Mdns I QS AN EV LK) (ctx : LookupCtx I)
    (heard : List Found) (h : ctx.Sound heard) :
    (walk subs m ctx).2.Sound (heard ++ walkHeard subs m ctx) ∧ ctx.Same (walk subs m ctx).2 ∧
      (walk subs m ctx).1.events.queue = m.events.queue ∧
      (walk subs m ctx).1.clock = m.clock := by
  induction subs generalizing m ctx heard with
  | nil =>
    rw [walk, walkHeard, List.append_nil]
    exact ⟨h, LookupCtx.Same.refl ctx, rfl, rfl⟩
  | cons sub rest ih =>
    cases hstep : ctx.subqueries.lookup sub with
    | none =>
      simp only [walk, walkHeard, hstep]
      exact ih m ctx heard h
    | some step =>
      obtain ⟨hsound, hsame, hsubs⟩ := h.feedAll (m.takeAnswers sub).2 step ctx heard
        (h.bounded.asked sub step hstep)
      obtain ⟨hqueue, hclock⟩ := m.takeAnswers_rest sub
      obtain ⟨hevents, hclock'⟩ := (m.takeAnswers sub).1.endSubquery_rest sub
      simp only [walk, walkHeard, hstep]
      generalize (m.takeAnswers sub).2.foldl (fun ctx answer => ctx.feed step answer) ctx = fed at *
      generalize hend : (m.takeAnswers sub).1.endSubquery sub = ended at *
      obtain ⟨m', gone⟩ := ended
      rw [← List.append_assoc]
      cases gone with
      | false =>
        simp only at hevents hclock' ⊢
        obtain ⟨hsound', hsame', hqueue', hclock''⟩ := ih m' fed _ hsound
        exact ⟨hsound', hsame.trans ctx fed _ hsame', by rw [hqueue', hevents, hqueue],
          by rw [hclock'', hclock', hclock]⟩
      | true =>
        simp only at hevents hclock' ⊢
        have herased := erase_sound fed _ hsound (fed.subqueries.erase sub) (fun other s hs => by
          rw [Assoc.lookup_erase] at hs
          split at hs
          · cases hs
          · exact hs) (Assoc.length_keys_erase_le sub _)
        obtain ⟨hsound', hsame', hqueue', hclock''⟩ := ih m' _ _ herased
        refine ⟨hsound', hsame.trans ctx fed _ ?_, by rw [hqueue', hevents, hqueue],
          by rw [hclock'', hclock', hclock]⟩
        exact ⟨hsame'.generation, hsame'.deadline, hsame'.timeout, hsame'.maxEntries,
          hsame'.emitted, hsame'.ready, hsame'.keeps, hsame'.found⟩

theorem budget_eq_none [MeasuredInstant I] (ctx : LookupCtx I) (at_ : I) :
    budget ctx at_ = none ↔ ctx.isExpired at_ = true := by
  rw [budget, LookupCtx.isExpired]
  cases hd : ctx.deadline with
  | none => simp
  | some deadline =>
    simp only [Option.any_some, decide_eq_true_eq]
    by_cases hpast : at_ ≤ deadline
    · obtain ⟨g, hg, hsum⟩ := MeasuredInstant.since_of_le at_ deadline hpast
      obtain ⟨u, hu⟩ := MeasuredInstant.add_part at_ deadline 0 g (Nat.zero_le g) hsum
      simp only [hg]
      by_cases hzero : g = 0
      · rw [if_pos hzero]
        subst hzero
        refine ⟨fun _ => ?_, fun _ => rfl⟩
        obtain ⟨z, hz, hself⟩ := MeasuredInstant.since_of_le at_ at_ (le_refl at_)
        obtain ⟨v, hv⟩ := MeasuredInstant.add_part at_ at_ 0 z (Nat.zero_le z) hself
        have hle := LawfulInstant.add_mono at_ at_ v at_ 0 z (le_refl at_) (Nat.zero_le z) hv hself
        rw [hsum] at hv
        cases hv
        exact hle
      · rw [if_neg hzero]
        refine ⟨nofun, fun hle => ?_⟩
        have hsame : at_ = deadline := le_antisymm hpast hle
        subst hsame
        have hu' : u = at_ :=
          le_antisymm (LawfulInstant.add_mono at_ at_ u at_ 0 g (le_refl at_) (Nat.zero_le g)
            hu hsum) (LawfulInstant.le_add at_ u 0 hu)
        rw [hu'] at hu
        exact absurd (MeasuredInstant.add_inj at_ at_ g 0 hsum hu) hzero
    · have hlt : deadline < at_ := not_le.mp hpast
      rw [MeasuredInstant.since_of_lt at_ deadline hlt]
      exact ⟨fun _ => le_of_lt hlt, fun _ => rfl⟩

theorem startSubqueryInWindow_rest (m : Mdns I QS AN EV LK) (ctx : LookupCtx I) (spec : QuerySpec) :
    (m.startSubqueryInWindow ctx spec).1 = { m with
      endpoint := (m.startSubqueryInWindow ctx spec).1.endpoint
      clock := fun n => m.clock (n + 1) } ∧
    ((m.startSubqueryInWindow ctx spec).2 = .ok none ↔ budget ctx (m.clock 0) = none) := by
  simp only [startSubqueryInWindow, now]
  cases budget ctx (m.clock 0) with
  | none => exact ⟨rfl, fun _ => rfl, fun _ => rfl⟩
  | some budget =>
    simp only
    generalize m.endpoint.tryStartQuery (spec.withTimeout budget) (m.clock 0) = started
    obtain ⟨endpoint, _ | sub⟩ := started
    · exact ⟨rfl, nofun, nofun⟩
    · exact ⟨rfl, nofun, nofun⟩

structure Launched (ctx next : LookupCtx I) (starts : List Start) : Prop where
  only : next = { ctx with subqueries := next.subqueries, launched := next.launched }
  few : next.launched ≤ ctx.launched + starts.length
  steps : ∀ sub step, next.subqueries.lookup sub = some step →
    ctx.subqueries.lookup sub = some step ∨ ∃ s ∈ starts, s.step = step
  held : ctx.subqueries.keys.length ≤ ctx.launched → next.subqueries.keys.length ≤ next.launched

theorem Launched.one (ctx next : LookupCtx I) (name : Name) (step : Step) (rest : List Start)
    (sub : QueryHandle)
    (h : Launched { ctx with
      subqueries := ctx.subqueries.insert sub step
      launched := ctx.launched + 1 } next rest) : Launched ctx next (⟨name, step⟩ :: rest) := by
  refine ⟨h.only, ?_, fun other s hs => ?_, fun hheld => h.held ?_⟩
  · have := h.few
    simp only [List.length_cons] at this ⊢
    omega
  · rcases h.steps other s hs with hold | ⟨start, hstart, hsame⟩
    · rw [Assoc.lookup_insert] at hold
      split at hold
      · cases hold
        exact .inr ⟨⟨name, step⟩, List.mem_cons_self, rfl⟩
      · exact .inl hold
    · exact .inr ⟨start, List.mem_cons_of_mem _ hstart, hsame⟩
  · have := Assoc.length_keys_insert_le sub step ctx.subqueries
    simp only
    omega

theorem Launched.skip (ctx next : LookupCtx I) (start : Start) (rest : List Start)
    (h : Launched ctx next rest) : Launched ctx next (start :: rest) := by
  refine ⟨h.only, ?_, fun sub step hs => ?_, h.held⟩
  · have := h.few
    rw [List.length_cons]
    omega
  · rcases h.steps sub step hs with hold | ⟨s, hmem, hsame⟩
    · exact .inl hold
    · exact .inr ⟨s, List.mem_cons_of_mem _ hmem, hsame⟩

theorem launch_spec (owner : LookupHandle) (starts : List Start) (m : Mdns I QS AN EV LK)
    (ctx : LookupCtx I) :
    Launched ctx (launch owner starts m ctx).2.1 starts ∧
      (launch owner starts m ctx).1.events = m.events ∧
      ((launch owner starts m ctx).2.2 = false →
        (∀ i < starts.length, (budget ctx (m.clock i)).isSome = true) ∧
          (launch owner starts m ctx).1.clock = fun n => m.clock (n + starts.length)) ∧
      ((launch owner starts m ctx).2.2 = true →
        ∃ i < starts.length, budget ctx (m.clock i) = none) := by
  induction starts generalizing m ctx with
  | nil =>
    refine ⟨⟨rfl, Nat.le_refl _, fun sub step hs => .inl hs, fun hheld => hheld⟩, rfl,
      fun _ => ⟨?_, rfl⟩, nofun⟩
    intro i hi
    exact absurd hi (Nat.not_lt_zero i)
  | cons start rest ih =>
    obtain ⟨name, step⟩ := start
    obtain ⟨hrest, hshut⟩ := m.startSubqueryInWindow_rest ctx (QuerySpec.new name step.qtype)
    simp only [launch]
    generalize hstart : m.startSubqueryInWindow ctx (QuerySpec.new name step.qtype) = started at *
    obtain ⟨m', result⟩ := started
    simp only at hrest hshut
    have hevents : m'.events = m.events := by rw [hrest]
    have hclock : m'.clock = fun n => m.clock (n + 1) := by rw [hrest]
    have hopen : result ≠ .ok none →
        (∀ i < rest.length, (budget ctx (m'.clock i)).isSome = true) →
        ∀ i < rest.length + 1, (budget ctx (m.clock i)).isSome = true := by
      intro hres hall i hi
      cases i with
      | zero =>
        cases hb : budget ctx (m.clock 0) with
        | none => exact absurd (hshut.mpr hb) hres
        | some b => rfl
      | succ i =>
        have := hall i (by omega)
        rw [hclock] at this
        exact this
    have hclocks : ∀ c : Nat → I, (c = fun n => m'.clock (n + rest.length)) →
        c = fun n => m.clock (n + (rest.length + 1)) := by
      intro c hc
      rw [hc, hclock]
      funext n
      rw [show n + (rest.length + 1) = n + rest.length + 1 by omega]
    match result, hshut, hopen with
    | .error e, hshut, hopen =>
      obtain ⟨hl, hev, hok, hbad⟩ := ih m' ctx
      refine ⟨hl.skip ctx _ _ rest, by rw [hev, hevents], fun hfalse => ?_, fun htrue => ?_⟩
      · obtain ⟨hall, hcl⟩ := hok hfalse
        exact ⟨hopen nofun hall, hclocks _ hcl⟩
      · obtain ⟨i, hi, hnone⟩ := hbad htrue
        rw [hclock] at hnone
        exact ⟨i + 1, by rw [List.length_cons]; omega, hnone⟩
    | .ok none, hshut, hopen =>
      refine ⟨⟨rfl, Nat.le_add_right _ _, fun sub s hs => .inl hs, fun hheld => hheld⟩, hevents,
        nofun, fun _ => ?_⟩
      exact ⟨0, by rw [List.length_cons]; omega, hshut.mp rfl⟩
    | .ok (some sub), hshut, hopen =>
      simp only [registerSubquery]
      obtain ⟨hl, hev, hok, hbad⟩ := ih { m' with
        queries := m'.queries.insert sub ⟨0, some owner, m'.txQueue.join.1, FamilyWireGate.new⟩
        txQueue := m'.txQueue.join.2
        workPending := true } { ctx with
          subqueries := ctx.subqueries.insert sub step
          launched := ctx.launched + 1 }
      refine ⟨hl.one ctx _ name step rest sub, by rw [hev, hevents], fun hfalse => ?_,
        fun htrue => ?_⟩
      · obtain ⟨hall, hcl⟩ := hok hfalse
        exact ⟨hopen nofun hall, hclocks _ hcl⟩
      · obtain ⟨i, hi, hnone⟩ := hbad htrue
        simp only [hclock] at hnone
        exact ⟨i + 1, by rw [List.length_cons]; omega, hnone⟩

theorem Launched.sound (ctx next : LookupCtx I) (heard : List Found) (h : ctx.Sound heard)
    (hl : Launched { ctx with pending := [] } next ctx.pending) :
    next.Sound heard ∧ ctx.Same next := by
  have honly := hl.only
  have hpartials : next.partials = ctx.partials := by rw [honly]
  have hhosts : next.hostsQueried = ctx.hostsQueried := by rw [honly]
  have hmax : next.maxEntries = ctx.maxEntries := by rw [honly]
  have hpending : next.pending = [] := by rw [honly]
  have hcache : next.hostAddrs = ctx.hostAddrs := by rw [honly]
  refine ⟨⟨⟨?_, ?_, ?_⟩, ⟨?_, ?_, ?_, ?_, ?_, hl.held h.bounded.held⟩⟩,
    ⟨?_, ?_, ?_, ?_, ?_, ?_, ?_, ?_⟩⟩
  · rw [hpartials]
    exact h.sees.partials
  · rw [hcache]
    exact h.sees.cache
  · rw [hpartials]
    exact h.sees.unheard
  · intro sub step hs
    rw [hpartials]
    rcases hl.steps sub step hs with hold | ⟨start, hstart, hsame⟩
    · exact h.bounded.asked sub step hold
    · rw [← hsame]
      exact h.bounded.toAsk start hstart
  · intro s hs
    rw [hpending] at hs
    cases hs
  · rw [hpartials, hmax]
    exact h.bounded.partials
  · rw [hhosts, hmax]
    exact h.bounded.hosts
  · have hfew : next.launched ≤ ctx.launched + ctx.pending.length := hl.few
    have := h.bounded.starts
    rw [hpartials, hhosts, hpending, List.length_nil]
    omega
  · rw [honly]
  · rw [honly]
  · rw [honly]
  · exact hmax
  · rw [honly]
  · rw [honly]
  · intro key p hp
    rw [← hpartials] at hp
    exact ⟨p, hp, rfl, rfl⟩
  · intro key p hp _
    rw [hpartials] at hp
    exact ⟨p, hp⟩

def retained (m : Mdns I QS AN EV LK) (ctx : LookupCtx I) : LookupCtx I :=
  { ctx with subqueries := ctx.subqueries.retain fun sub _ => decide (sub ∈ m.queries) }

def walked (order : HashOrder) (m : Mdns I QS AN EV LK) (ctx : LookupCtx I) :
    Mdns I QS AN EV LK × LookupCtx I :=
  walk (order.handles (retained m ctx).subqueries.keys) m.now.2 (retained m ctx)

def turnHeard (order : HashOrder) (m : Mdns I QS AN EV LK) (ctx : LookupCtx I) : List Found :=
  if ctx.isExpired (m.clock 0) then []
  else walkHeard (order.handles (retained m ctx).subqueries.keys) m.now.2 (retained m ctx)

/-- The window is open at every reading of the turn that comes before the caller is told: the first
one, one for each launch, and the last. -/
def OpenTurn (order : HashOrder) (m : Mdns I QS AN EV LK) (ctx : LookupCtx I) : Prop :=
  ∀ i < (walked order m ctx).2.pending.length + 2, ctx.isExpired (m.clock i) = false

theorem isExpired_same (ctx next : LookupCtx I) (h : ctx.Same next) (at_ : I) :
    next.isExpired at_ = ctx.isExpired at_ := by
  rw [LookupCtx.isExpired, LookupCtx.isExpired, h.deadline]

theorem budget_same (ctx next : LookupCtx I) (h : ctx.Same next) (at_ : I) :
    budget next at_ = budget ctx at_ := by
  rw [budget, budget, h.deadline, h.timeout]

theorem advanceOpen_expired (order : HashOrder) (handle : LookupHandle) (m : Mdns I QS AN EV LK)
    (ctx : LookupCtx I) (h : ctx.isExpired (m.clock 0) = true) :
    advanceOpen order handle m ctx = (m.now.2, ctx, false) := by
  simp only [advanceOpen, now, h, if_true]

theorem advanceOpen_open (order : HashOrder) (handle : LookupHandle) (m : Mdns I QS AN EV LK)
    (ctx : LookupCtx I) (h : ¬ctx.isExpired (m.clock 0) = true) :
    advanceOpen order handle m ctx =
      match launch handle (walked order m ctx).2.pending (walked order m ctx).1
          { (walked order m ctx).2 with pending := [] } with
      | (m, ctx, true) => (m, ctx, false)
      | (m, ctx, false) => (m.now.2, ctx, !ctx.isExpired m.now.1) := by
  simp only [advanceOpen, now, h]
  rfl

theorem advanceOpen_spec [MeasuredInstant I] (order : HashOrder) (handle : LookupHandle)
    (m : Mdns I QS AN EV LK) (ctx : LookupCtx I) (heard : List Found) (h : ctx.Sound heard) :
    (advanceOpen order handle m ctx).2.1.Sound (heard ++ turnHeard order m ctx) ∧
      ctx.Same (advanceOpen order handle m ctx).2.1 ∧
      (advanceOpen order handle m ctx).1.events.queue = m.events.queue ∧
      ((advanceOpen order handle m ctx).2.2 = true ↔ OpenTurn order m ctx) := by
  rw [turnHeard]
  by_cases hexpired : ctx.isExpired (m.clock 0) = true
  · rw [advanceOpen_expired order handle m ctx hexpired, if_pos hexpired, List.append_nil]
    refine ⟨h, LookupCtx.Same.refl ctx, rfl, fun hno => absurd hno Bool.false_ne_true,
      fun hall => ?_⟩
    have := hall 0 (by omega)
    rw [hexpired] at this
    cases this
  · rw [if_neg hexpired]
    have hretained : (retained m ctx).Sound heard := erase_sound ctx heard h _ (fun sub step hs => by
      rw [Assoc.lookup_retain, Option.filter_eq_some_iff] at hs
      exact hs.1) (Assoc.length_keys_retain_le _ _)
    obtain ⟨hsound, hsame, hqueue, hclock⟩ := walk_sound
      (order.handles (retained m ctx).subqueries.keys) m.now.2 (retained m ctx) heard hretained
    have hsame' : ctx.Same (walked order m ctx).2 :=
      ⟨hsame.generation, hsame.deadline, hsame.timeout, hsame.maxEntries, hsame.emitted,
        hsame.ready, hsame.keeps, hsame.found⟩
    obtain ⟨hl, hevents, hok, hbad⟩ := launch_spec handle (walked order m ctx).2.pending
      (walked order m ctx).1 { (walked order m ctx).2 with pending := [] }
    obtain ⟨hsound', hsame''⟩ := Launched.sound (walked order m ctx).2 _ _ hsound hl
    have hreading : ∀ i, (walked order m ctx).1.clock i = m.clock (i + 1) := by
      intro i
      rw [walked, hclock]
      rfl
    have hbudget : ∀ i, budget { (walked order m ctx).2 with pending := [] }
        ((walked order m ctx).1.clock i) = budget ctx (m.clock (i + 1)) := by
      intro i
      rw [hreading]
      exact budget_same ctx (walked order m ctx).2 hsame' _
    rw [advanceOpen_open order handle m ctx hexpired]
    generalize launch handle (walked order m ctx).2.pending (walked order m ctx).1
      { (walked order m ctx).2 with pending := [] } = launched at *
    obtain ⟨m', next, shut⟩ := launched
    have hfinal := hsame'.trans ctx _ _ hsame''
    have hqueue' : m'.events.queue = m.events.queue := by
      rw [show m'.events = (walked order m ctx).1.events from hevents]
      exact hqueue
    cases shut with
    | true =>
      refine ⟨hsound', hfinal, hqueue', fun hno => absurd hno Bool.false_ne_true,
        fun hall => ?_⟩
      obtain ⟨i, hi, hnone⟩ := hbad rfl
      rw [hbudget, budget_eq_none, hall (i + 1) (by omega)] at hnone
      cases hnone
    | false =>
      obtain ⟨hbudgets, hclock'⟩ := hok rfl
      have hlast : m'.now.1 = m.clock ((walked order m ctx).2.pending.length + 1) := by
        rw [show m'.now.1 = m'.clock 0 from rfl, show m'.clock = _ from hclock']
        simp only [Nat.zero_add]
        rw [hreading]
      refine ⟨hsound', hfinal, hqueue', ?_⟩
      simp only [hlast, Bool.not_eq_true']
      rw [isExpired_same ctx next hfinal]
      constructor
      · intro hend i hi
        cases i with
        | zero => exact Bool.eq_false_iff.mpr hexpired
        | succ i =>
          by_cases hsome : i < (walked order m ctx).2.pending.length
          · have hb := hbudgets i hsome
            rw [hbudget] at hb
            cases he : ctx.isExpired (m.clock (i + 1)) with
            | false => rfl
            | true =>
              rw [(budget_eq_none ctx _).mpr he] at hb
              cases hb
          · rw [show i = (walked order m ctx).2.pending.length by omega]
            exact hend
      · intro hall
        exact hall _ (by omega)

end
end Mdns

namespace PartialEntry

theorem takeComplete_first (p : PartialEntry) :
    p.takeComplete.1 = { p with emitted := p.emitted || p.takeComplete.2.isSome } := by
  rw [takeComplete]
  split
  · simp
  · split
    · simp
    · split
      · simp
      · simp

end PartialEntry

namespace LookupCtx
section
variable {I : Type} [Instant I]

theorem Mirrors.takeComplete (p : PartialEntry) (heard : List Found) (key : Bytes)
    (h : Mirrors p heard key) :
    ∃ name, fold name = key ∧
      p.takeComplete.2 = if p.emitted then none else entryOf heard name := by
  obtain ⟨name, hname, hnamed⟩ := h.named
  refine ⟨name, hname, ?_⟩
  rw [PartialEntry.takeComplete, entryOf, hname]
  cases hflag : p.emitted with
  | true => rfl
  | false =>
    rw [h.hasSrv, h.txt]
    have h4 := h.ipv4
    have h6 := h.ipv6
    rw [h.hostKey] at h4 h6
    cases hsrv : lastSrv heard key with
    | none => rfl
    | some target =>
      obtain ⟨host, port⟩ := target
      rw [hsrv] at h4 h6
      simp only [Option.map_some, Option.getD_some] at h4 h6
      cases htxt : lastTxt heard key with
      | none => rfl
      | some txt =>
        have hhost : p.host = some host := by rw [h.host, hsrv]; rfl
        have hport : p.port = port := by rw [h.port, hsrv]; rfl
        have hinstance : p.instance_.getD host = name := by
          rcases hnamed with hnamed | ⟨hnone, hseeded⟩
          · rw [hnamed]
            rfl
          · rw [hhost] at hseeded
            cases hseeded
            rw [hnone]
            rfl
        simp only [hhost, hport, hinstance, h4, h6, Option.isSome_some, Bool.not_true,
          Bool.false_or, Option.isNone_some, Bool.false_eq_true, if_false, Bool.and_eq_true,
          List.isEmpty_iff, Option.getD_some]
        split
        · rfl
        · rfl

theorem collectReady_spec (keys : List Bytes) (hn : keys.Nodup) (ctx : LookupCtx I) :
    (ctx.collectReady keys).ready = ctx.ready ++
        keys.filterMap (fun key => (ctx.partials.lookup key).bind fun p => p.takeComplete.2) ∧
      (∀ key, (ctx.collectReady keys).partials.lookup key =
        (ctx.partials.lookup key).map fun p =>
          if key ∈ keys then p.takeComplete.1 else p) ∧
      (ctx.collectReady keys).partials.keys.length = ctx.partials.keys.length ∧
      ctx.collectReady keys = { ctx with
        partials := (ctx.collectReady keys).partials
        emitted := (ctx.collectReady keys).emitted
        ready := (ctx.collectReady keys).ready } := by
  induction keys generalizing ctx with
  | nil =>
    rw [collectReady, List.filterMap_nil, List.append_nil]
    refine ⟨rfl, fun key => ?_, rfl, rfl⟩
    simp
  | cons key rest ih =>
    obtain ⟨hnot, hrest⟩ := List.nodup_cons.mp hn
    -- The first key changes nothing that the others look at.
    have hskip : (∀ p, ctx.partials.lookup key = some p → p.takeComplete.2 = none) →
        ctx.collectReady (key :: rest) = ctx.collectReady rest := by
      intro hnone
      rw [collectReady]
      cases hp : ctx.partials.lookup key with
      | none => rfl
      | some p =>
        have := hnone p hp
        simp only
        cases htake : p.takeComplete with
        | mk q entry =>
          rw [htake] at this
          simp only at this
          rw [this]
    by_cases hnone : ∀ p, ctx.partials.lookup key = some p → p.takeComplete.2 = none
    · obtain ⟨hready, hlookup, hlen, honly⟩ := ih hrest ctx
      rw [hskip hnone]
      refine ⟨?_, fun j => ?_, hlen, honly⟩
      · rw [hready, List.filterMap_cons]
        cases hp : ctx.partials.lookup key with
        | none => rfl
        | some p => rw [Option.bind_some, hnone p hp]
      · rw [hlookup]
        cases hj : ctx.partials.lookup j with
        | none => rfl
        | some p =>
          simp only [Option.map_some, List.mem_cons]
          by_cases hjk : j = key
          · subst hjk
            have hfirst := p.takeComplete_first
            rw [hnone p hj] at hfirst
            rw [if_neg hnot, if_pos (.inl rfl), hfirst]
            simp
          · simp [hjk]
    · push Not at hnone
      obtain ⟨p, hp, hsome⟩ := hnone
      obtain ⟨entry, hentry⟩ := Option.ne_none_iff_exists'.mp hsome
      have hstep : ctx.collectReady (key :: rest) = collectReady rest { ctx with
          partials := ctx.partials.insert key p.takeComplete.1
          emitted := ctx.emitted + 1
          ready := ctx.ready ++ [entry] } := by
        rw [collectReady, hp]
        simp only
        cases htake : p.takeComplete with
        | mk q found =>
          rw [htake] at hentry
          simp only at hentry
          rw [hentry]
      obtain ⟨hready, hlookup, hlen, honly⟩ := ih hrest { ctx with
          partials := ctx.partials.insert key p.takeComplete.1
          emitted := ctx.emitted + 1
          ready := ctx.ready ++ [entry] }
      rw [hstep]
      refine ⟨?_, fun j => ?_, ?_, honly⟩
      · rw [hready, List.filterMap_cons, hp, Option.bind_some, hentry, List.append_assoc,
          List.singleton_append]
        refine congrArg (fun l => ctx.ready ++ entry :: l) ?_
        refine List.filterMap_congr fun j hj => ?_
        rw [Assoc.lookup_insert, if_neg]
        rintro rfl
        exact hnot hj
      · rw [hlookup, Assoc.lookup_insert]
        by_cases hjk : j = key
        · subst hjk
          rw [if_pos rfl, hp, Option.map_some, Option.map_some, if_neg hnot,
            if_pos List.mem_cons_self]
        · simp [hjk]
      · rw [hlen, Assoc.length_keys_insert, if_pos ((Assoc.mem_iff _ _).mpr ⟨p, hp⟩)]

theorem entryOf_instance (heard : List Found) (name : Name) (e : ServiceEntry)
    (h : entryOf heard name = some e) : e.instance_ = name := by
  rw [entryOf] at h
  cases hsrv : lastSrv heard (fold name) with
  | none =>
    rw [hsrv] at h
    cases h
  | some target =>
    cases htxt : lastTxt heard (fold name) with
    | none =>
      rw [hsrv, htxt] at h
      cases h
    | some txt =>
      simp only [hsrv, htxt] at h
      split at h
      · cases h
      · cases h
        rfl

/-- The instances that a lookup has marked are those the caller was told of, once each. -/
structure Told (ctx : LookupCtx I) (told : List ServiceEntry) : Prop where
  idle : ctx.ready = []
  marked : ∀ key p, ctx.partials.lookup key = some p →
    (p.emitted = true ↔ ∃ e ∈ told, fold e.instance_ = key)
  known : ∀ e ∈ told, ∃ p, ctx.partials.lookup (fold e.instance_) = some p
  once : (told.map ServiceEntry.instance_).Nodup

theorem Told.same (ctx next : LookupCtx I) (told : List ServiceEntry) (h : ctx.Told told)
    (hs : ctx.Same next) : next.Told told := by
  refine ⟨by rw [hs.ready, h.idle], fun key p hp => ?_, fun e he => ?_, h.once⟩
  · cases hold : ctx.partials.lookup key with
    | some q =>
      obtain ⟨p', hp', -, hflag⟩ := hs.keeps key q hold
      rw [hp] at hp'
      cases hp'
      rw [hflag]
      exact h.marked key q hold
    | none =>
      constructor
      · intro hflag
        obtain ⟨q, hq⟩ := hs.found key p hp hflag
        rw [hold] at hq
        cases hq
      · intro he
        obtain ⟨e, he, hkey⟩ := he
        obtain ⟨q, hq⟩ := h.known e he
        rw [hkey, hold] at hq
        cases hq
  · obtain ⟨p, hp⟩ := h.known e he
    obtain ⟨q, hq, -⟩ := hs.keeps _ p hp
    exact ⟨q, hq⟩

theorem mem_ready (ctx : LookupCtx I) (heard : List Found) (told : List ServiceEntry)
    (hs : ctx.Sound heard) (ht : ctx.Told told) (keys : List Bytes)
    (hkeys : ∀ key, key ∈ keys ↔ key ∈ ctx.partials.keys) (e : ServiceEntry) :
    e ∈ keys.filterMap (fun key => (ctx.partials.lookup key).bind fun p => p.takeComplete.2) ↔
      ∃ name, (∃ p, ctx.partials.lookup (fold name) = some p) ∧ entryOf heard name = some e ∧
        ∀ e' ∈ told, e'.instance_ ≠ name := by
  rw [List.mem_filterMap]
  constructor
  · rintro ⟨key, -, he⟩
    rw [Option.bind_eq_some_iff] at he
    obtain ⟨p, hp, he⟩ := he
    obtain ⟨name, hname, htake⟩ := (hs.sees.partials key p hp).takeComplete p heard key
    rw [he] at htake
    have hmarked := ht.marked key p hp
    split at htake
    · cases htake
    · rename_i hflag
      refine ⟨name, ⟨p, by rw [hname]; exact hp⟩, htake.symm, fun e' he' hsame => hflag ?_⟩
      exact hmarked.mpr ⟨e', he', by rw [hsame, hname]⟩
  · rintro ⟨name, ⟨p, hp⟩, he, hfresh⟩
    have hmem : fold name ∈ ctx.partials := (Assoc.mem_iff _ _).mpr ⟨p, hp⟩
    refine ⟨fold name, (hkeys _).mpr (AList.mem_keys.mp hmem), ?_⟩
    obtain ⟨name', hname, htake⟩ := (hs.sees.partials _ p hp).takeComplete p heard _
    rw [fold_inj name' name hname] at htake
    rw [hp, Option.bind_some, htake, if_neg, he]
    intro hflag
    obtain ⟨e', he', hsame⟩ := (ht.marked _ p hp).mp hflag
    exact hfresh e' he' (fold_inj _ _ hsame)

theorem Told.collect (ctx : LookupCtx I) (heard : List Found) (told : List ServiceEntry)
    (hs : ctx.Sound heard) (ht : ctx.Told told) (keys : List Bytes)
    (hperm : keys.Perm ctx.partials.keys) :
    LookupCtx.Told { ctx.collectReady keys with ready := [] }
        (told ++ (ctx.collectReady keys).ready) ∧
      LookupCtx.Sound { ctx.collectReady keys with ready := [] } heard ∧
      ∀ e, e ∈ (ctx.collectReady keys).ready ↔
        ∃ name, (∃ p, (ctx.collectReady keys).partials.lookup (fold name) = some p) ∧
          entryOf heard name = some e ∧ ∀ e' ∈ told, e'.instance_ ≠ name := by
  have hn : keys.Nodup := hperm.nodup_iff.mpr ctx.partials.keys_nodup
  have hkeys : ∀ key, key ∈ keys ↔ key ∈ ctx.partials.keys := fun key => hperm.mem_iff
  obtain ⟨hready, hlookup, hlen, honly⟩ := ctx.collectReady_spec keys hn
  rw [ht.idle, List.nil_append] at hready
  have hmem := ctx.mem_ready heard told hs ht keys hkeys
  have hlookup' : ∀ key, (ctx.collectReady keys).partials.lookup key =
      (ctx.partials.lookup key).map fun p => p.takeComplete.1 := by
    intro key
    rw [hlookup]
    cases hp : ctx.partials.lookup key with
    | none => rfl
    | some p =>
      have hin : key ∈ keys :=
        (hkeys key).mpr (AList.mem_keys.mp ((Assoc.mem_iff _ _).mpr ⟨p, hp⟩))
      rw [Option.map_some, Option.map_some, if_pos hin]
  have hold : ∀ key, (∃ p, (ctx.collectReady keys).partials.lookup key = some p) ↔
      ∃ p, ctx.partials.lookup key = some p := by
    intro key
    rw [hlookup']
    cases ctx.partials.lookup key <;> simp
  have hnames : ∀ key p, ctx.partials.lookup key = some p →
      ∃ q, (ctx.collectReady keys).partials.lookup key = some q ∧ q.instance_ = p.instance_ := by
    intro key p hp
    refine ⟨p.takeComplete.1, by rw [hlookup', hp, Option.map_some], ?_⟩
    rw [PartialEntry.takeComplete_first]
  have hkeeps : ctx.subqueries = (ctx.collectReady keys).subqueries ∧
      ctx.pending = (ctx.collectReady keys).pending ∧
      ctx.hostAddrs = (ctx.collectReady keys).hostAddrs ∧
      ctx.hostsQueried = (ctx.collectReady keys).hostsQueried ∧
      ctx.maxEntries = (ctx.collectReady keys).maxEntries ∧
      ctx.launched = (ctx.collectReady keys).launched := by
    rw [honly]
    exact ⟨rfl, rfl, rfl, rfl, rfl, rfl⟩
  obtain ⟨hsubs, hpending, hcache, hhosts, hmax, hlaunched⟩ := hkeeps
  refine ⟨⟨rfl, ?_, ?_, ?_⟩, ⟨⟨?_, ?_, ?_⟩, ⟨?_, ?_, ?_, ?_, ?_, ?_⟩⟩, ?_⟩
  · intro key p hp
    simp only at hp
    rw [hlookup', Option.map_eq_some_iff] at hp
    obtain ⟨q, hq, rfl⟩ := hp
    obtain ⟨name, hname, htake⟩ := (hs.sees.partials key q hq).takeComplete q heard key
    rw [PartialEntry.takeComplete_first]
    simp only [Bool.or_eq_true, List.mem_append]
    rw [ht.marked key q hq]
    constructor
    · rintro (⟨e, he, hkey⟩ | hsome)
      · exact ⟨e, .inl he, hkey⟩
      · obtain ⟨e, he⟩ := Option.isSome_iff_exists.mp hsome
        refine ⟨e, .inr ?_, ?_⟩
        · rw [hready, List.mem_filterMap]
          exact ⟨key, (hkeys key).mpr (AList.mem_keys.mp ((Assoc.mem_iff _ _).mpr ⟨q, hq⟩)),
            by rw [hq]; exact he⟩
        · rw [he] at htake
          split at htake
          · cases htake
          · rw [entryOf_instance heard name e htake.symm, hname]
    · rintro ⟨e, he | he, hkey⟩
      · exact .inl ⟨e, he, hkey⟩
      · rw [hready] at he
        obtain ⟨name', -, hentry, hfresh⟩ := (hmem e).mp he
        have hsame : name' = name := by
          rw [entryOf_instance heard name' e hentry, ← hname] at hkey
          exact fold_inj _ _ hkey
        rw [htake]
        split
        · rename_i hflag
          exact .inl ((ht.marked key q hq).mp hflag)
        · rw [← hsame, hentry]
          exact .inr rfl
  · intro e he
    rcases List.mem_append.mp he with he | he
    · obtain ⟨p, hp⟩ := ht.known e he
      exact (hold _).mpr ⟨p, hp⟩
    · rw [hready] at he
      obtain ⟨name, hp, hentry, -⟩ := (hmem e).mp he
      rw [entryOf_instance heard name e hentry]
      exact (hold _).mpr hp
  · rw [List.map_append, List.nodup_append]
    refine ⟨ht.once, ?_, ?_⟩
    · rw [hready, List.map_filterMap]
      refine hn.filterMap ?_
      intro a b name ha hb
      have hfrom : ∀ key, name ∈ Option.map ServiceEntry.instance_
          ((ctx.partials.lookup key).bind fun p => p.takeComplete.2) → fold name = key := by
        intro key hk
        rw [Option.mem_def, Option.map_eq_some_iff] at hk
        obtain ⟨e, he, rfl⟩ := hk
        rw [Option.bind_eq_some_iff] at he
        obtain ⟨p, hp, he⟩ := he
        obtain ⟨name, hname, htake⟩ := (hs.sees.partials key p hp).takeComplete p heard key
        rw [he] at htake
        split at htake
        · cases htake
        · rw [entryOf_instance heard name e htake.symm, hname]
      rw [← hfrom a ha, ← hfrom b hb]
    · intro a ha b hb
      rw [List.mem_map] at ha hb
      obtain ⟨e, he, rfl⟩ := ha
      obtain ⟨e', he', rfl⟩ := hb
      rw [hready] at he'
      obtain ⟨name, -, hentry, hfresh⟩ := (hmem e').mp he'
      rw [entryOf_instance heard name e' hentry]
      exact hfresh e he
  · intro key p hp
    simp only at hp
    rw [hlookup', Option.map_eq_some_iff] at hp
    obtain ⟨q, hq, rfl⟩ := hp
    have hm := hs.sees.partials key q hq
    rw [PartialEntry.takeComplete_first]
    exact ⟨hm.hasSrv, hm.host, hm.hostKey, hm.port, hm.txt, hm.ipv4, hm.ipv6, hm.named⟩
  · rw [← hcache]
    exact hs.sees.cache
  · intro key hkey
    refine hs.sees.unheard key ?_
    simp only at hkey
    rw [hlookup', Option.map_eq_none_iff] at hkey
    exact hkey
  · intro sub step hsub
    simp only at hsub
    rw [← hsubs] at hsub
    exact Step.Tracked.keep ctx.partials _ hnames step (hs.bounded.asked sub step hsub)
  · intro s hmem'
    simp only at hmem'
    rw [← hpending] at hmem'
    exact Step.Tracked.keep ctx.partials _ hnames s.step (hs.bounded.toAsk s hmem')
  · simp only
    rw [hlen, ← hmax]
    exact hs.bounded.partials
  · simp only
    rw [← hhosts, ← hmax]
    exact hs.bounded.hosts
  · simp only
    rw [hlen, ← hhosts, ← hpending, ← hlaunched]
    exact hs.bounded.starts
  · simp only
    rw [← hsubs, ← hlaunched]
    exact hs.bounded.held
  · intro e
    rw [hready, hmem]
    refine exists_congr fun name => and_congr_left fun _ => (hold _).symm

end
end LookupCtx
namespace Mdns
section
variable {I : Type} {QS AN EV LK : Type → Type} [Instant I] [Pool QS] [Pool AN] [Pool EV] [Pool LK]

theorem foldl_pushTerminal (handle : LookupHandle) (entries : List ServiceEntry) (q : EventQueue) :
    (entries.foldl (fun events entry => events.pushTerminal (.lookup handle entry)) q).queue =
      q.queue ++ entries.map fun e => Slot.terminal (.lookup handle e) := by
  induction entries generalizing q with
  | nil => rw [List.foldl_nil, List.map_nil, List.append_nil]
  | cons e rest ih =>
    rw [List.foldl_cons, ih, EventQueue.pushTerminal, List.map_cons, List.append_assoc,
      List.singleton_append]

theorem advanceOne_spec [MeasuredInstant I] (order : HashOrder) (handle : LookupHandle)
    (m : Mdns I QS AN EV LK) (ctx : LookupCtx I) (heard : List Found) (told : List ServiceEntry)
    (hs : ctx.Sound heard) (ht : ctx.Told told) :
    ∃ new, (advanceOne order handle m ctx).1.events.queue =
        m.events.queue ++ new.map (fun e => Slot.terminal (.lookup handle e)) ∧
      (advanceOne order handle m ctx).2.1.Sound (heard ++ turnHeard order m ctx) ∧
      (advanceOne order handle m ctx).2.1.Told (told ++ new) ∧
      (advanceOne order handle m ctx).2.1.maxEntries = ctx.maxEntries ∧
      (¬OpenTurn order m ctx → new = []) ∧
      (OpenTurn order m ctx → ∀ e, e ∈ new ↔ ∃ name,
        (∃ p, (advanceOne order handle m ctx).2.1.partials.lookup (fold name) = some p) ∧
          entryOf (heard ++ turnHeard order m ctx) name = some e ∧
          ∀ e' ∈ told, e'.instance_ ≠ name) := by
  obtain ⟨hsound, hsame, hqueue, hopen⟩ := advanceOpen_spec order handle m ctx heard hs
  simp only [advanceOne]
  generalize advanceOpen order handle m ctx = opened at *
  obtain ⟨m', next, isOpen⟩ := opened
  have htold := ht.same ctx next told hsame
  cases isOpen with
  | false =>
    refine ⟨[], ?_, hsound, ?_, hsame.maxEntries, fun _ => rfl, fun hall => ?_⟩
    · rw [List.map_nil, List.append_nil]
      exact hqueue
    · rw [List.append_nil]
      exact htold
    · cases hopen.mpr hall
  | true =>
    obtain ⟨htold', hsound', hmem⟩ := LookupCtx.Told.collect next _ told hsound htold
      (order.keys next.partials.keys) (order.keys_perm _)
    refine ⟨(next.collectReady (order.keys next.partials.keys)).ready, ?_, hsound', htold', ?_,
      fun hclosed => absurd (hopen.mp rfl) hclosed, fun _ => hmem⟩
    · simp only [tellReady, now]
      rw [foldl_pushTerminal, show m'.events.queue = m.events.queue from hqueue]
    · have honly := (next.collectReady_spec (order.keys next.partials.keys)
        ((order.keys_perm _).nodup_iff.mpr next.partials.keys_nodup)).2.2.2
      simp only [tellReady]
      rw [honly]
      exact hsame.maxEntries

end
end Mdns
end Hick
