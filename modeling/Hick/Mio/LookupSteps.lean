import Hick.Mio.LookupBooks

/-!
# What the operations of the lookups carry (hick-mio/src/discovery.rs:900-1414)

Each operation on the lookups carries the books from the slots before it to the slots after it.
-/

set_option linter.unusedSectionVars false

namespace Hick
open Octets Wire

namespace LookupCtx
variable {I : Type} [Instant I]

structure Stays (ctx next : LookupCtx I) : Prop where
  generation : next.generation = ctx.generation
  deadline : next.deadline = ctx.deadline
  timeout : next.timeout = ctx.timeout
  maxEntries : next.maxEntries = ctx.maxEntries

theorem Stays.refl (ctx : LookupCtx I) : ctx.Stays ctx := ⟨rfl, rfl, rfl, rfl⟩

theorem Stays.trans (a b c : LookupCtx I) (h : a.Stays b) (h' : b.Stays c) : a.Stays c :=
  ⟨by rw [h'.generation, h.generation], by rw [h'.deadline, h.deadline],
    by rw [h'.timeout, h.timeout], by rw [h'.maxEntries, h.maxEntries]⟩

theorem Same.stays (ctx next : LookupCtx I) (h : ctx.Same next) : ctx.Stays next :=
  ⟨h.generation, h.deadline, h.timeout, h.maxEntries⟩

theorem feedAll_stays (answers : List CollectedAnswer) (step : Step) (ctx : LookupCtx I) :
    ctx.Stays (answers.foldl (fun ctx answer => ctx.feed step answer) ctx) ∧
      (answers.foldl (fun ctx answer => ctx.feed step answer) ctx).subqueries =
        ctx.subqueries := by
  induction answers generalizing ctx with
  | nil => exact ⟨.refl ctx, rfl⟩
  | cons answer rest ih =>
    rw [List.foldl_cons, feed_read]
    cases Found.read step answer with
    | none => exact ih ctx
    | some f =>
      obtain ⟨hsame, hsubs, -⟩ := ctx.take_same f
      obtain ⟨hstays, hrest⟩ := ih (ctx.take f)
      exact ⟨(Same.stays ctx _ hsame).trans ctx _ _ hstays, by rw [hrest, hsubs]⟩

end LookupCtx

def Opening.timeout : Opening → Duration
  | .browse param => param.timeout
  | .resolveHost _ timeout => timeout
  | .resolveInstance _ timeout => timeout

namespace Mdns
section
variable {I : Type} {QS AN EV LK : Type → Type} [Instant I] [Pool QS] [Pool AN] [Pool EV] [Pool LK]
variable [ReleasingPool QS] [LawfulPool AN] [LawfulPool EV] [MeasuredInstant I]

/-- What is done to the lookup in a slot carries the books, leaves the table to the caller and
keeps the lookup the same one. -/
structure Turns (m m' : Mdns I QS AN EV LK) (slots : Nat → Option (LookupCtx I)) (key : Nat)
    (ctx next : LookupCtx I) : Prop where
  carries : Carries m m' slots (Function.update slots key (some next))
  stays : ctx.Stays next
  lookups : m'.lookups = m.lookups
  clock : Later m.clock m'.clock

theorem Turns.trans (a b c : Mdns I QS AN EV LK) (slots : Nat → Option (LookupCtx I)) (key : Nat)
    (x y z : LookupCtx I) (h : Turns a b slots key x y)
    (h' : Turns b c (Function.update slots key (some y)) key y z) : Turns a c slots key x z := by
  have hcarries := h'.carries
  rw [Function.update_idem] at hcarries
  exact ⟨h.carries.trans a b c _ _ _ hcarries, h.stays.trans x y z h'.stays,
    by rw [h'.lookups, h.lookups], h.clock.trans _ _ _ h'.clock⟩

variable (m : Mdns I QS AN EV LK) (slots : Nat → Option (LookupCtx I))

theorem Turns.refl (key : Nat)
    (ctx : LookupCtx I) (hslot : slots key = some ctx) : Turns m m slots key ctx ctx := by
  refine ⟨?_, .refl ctx, rfl, .refl _⟩
  rw [← hslot, Function.update_eq_self]
  exact .refl m slots

theorem Turns.replace (key : Nat)
    (ctx next : LookupCtx I) (hslot : slots key = some ctx) (hstays : ctx.Stays next)
    (hfewer : ∀ sub, sub ∈ next.subqueries → sub ∈ ctx.subqueries)
    (hall : ∀ sub, sub ∈ ctx.subqueries → sub ∈ m.queries → sub ∈ next.subqueries) :
    Turns m m slots key ctx next := by
  refine ⟨⟨UInt32.le_refl _, fun _ hb => ⟨?_, fun _ => rfl⟩⟩, hstays, rfl, .refl _⟩
  exact hb.replace m slots key ctx next hslot hstays.generation hstays.deadline hstays.timeout
    hfewer hall

theorem Turns.drive (m m' : Mdns I QS AN EV LK) (slots : Nat → Option (LookupCtx I)) (key : Nat)
    (ctx : LookupCtx I) (hslot : slots key = some ctx) (h : Carries m m' slots slots)
    (hlookups : m'.lookups = m.lookups) (hclock : Later m.clock m'.clock) :
    Turns m m' slots key ctx ctx := by
  refine ⟨?_, .refl ctx, hlookups, hclock⟩
  rw [← hslot, Function.update_eq_self]
  exact h

theorem Moves.of_endpoint (e : Queries I QS AN EV)
    (h : Queries.Along Query.Settled m.endpoint e) : Moves m { m with endpoint := e } :=
  ⟨Queries.Along.settled _ _ h, fun _ => Queries.rel_refl SameEntry (fun _ => ⟨rfl, rfl⟩) _, rfl,
    .refl _⟩

theorem takeAnswers_lookups (sub : QueryHandle) :
    (m.takeAnswers sub).1.lookups = m.lookups := by
  rw [takeAnswers]
  split
  · rfl
  · rfl

theorem endSubquery_turns (key : Nat)
    (ctx : LookupCtx I) (hslot : slots key = some ctx) (sub : QueryHandle)
    (hsub : sub ∈ ctx.subqueries) :
    Turns m (m.endSubquery sub).1 slots key ctx ctx ∧
      ((m.endSubquery sub).2 = true → sub ∉ (m.endSubquery sub).1.queries) := by
  have hmoves := Moves.of_endpoint m _ (m.endpoint.along_pollQuery sub)
  rw [endSubquery]
  generalize m.endpoint.pollQuery sub = polled at *
  obtain ⟨e, _ | update⟩ := polled
  · exact ⟨.drive m _ slots key ctx hslot (hmoves.carries m _ slots) rfl (.refl _),
      fun h => by cases h⟩
  · have hdrop := Books.carries_drop { m with endpoint := e } slots key ctx hslot sub hsub
    refine ⟨.drive m _ slots key ctx hslot ((hmoves.carries m _ slots).trans _ _ _ _ _ _ hdrop) rfl
      (.refl _), fun _ => ?_⟩
    intro hmem
    exact (AList.mem_erase.mp hmem).1 rfl

theorem walk_turns (subs : List QueryHandle) (m : Mdns I QS AN EV LK)
    (slots : Nat → Option (LookupCtx I)) (key : Nat) (ctx : LookupCtx I)
    (hslot : slots key = some ctx) :
    Turns m (walk subs m ctx).1 slots key ctx (walk subs m ctx).2 := by
  induction subs generalizing m slots ctx with
  | nil => exact .refl m slots key ctx hslot
  | cons sub rest ih =>
    cases hstep : ctx.subqueries.lookup sub with
    | none =>
      simp only [walk, hstep]
      exact ih m slots ctx hslot
    | some step =>
      have hsub : sub ∈ ctx.subqueries := (Assoc.mem_iff sub _).mpr ⟨step, hstep⟩
      have htake : Turns m (m.takeAnswers sub).1 slots key ctx ctx :=
        .drive m _ slots key ctx hslot (carries_takeAnswers m slots key ctx hslot sub hsub)
          (m.takeAnswers_lookups sub) (by rw [(m.takeAnswers_rest sub).2]; exact .refl _)
      obtain ⟨hstays, hsubs⟩ := LookupCtx.feedAll_stays (m.takeAnswers sub).2 step ctx
      simp only [walk, hstep]
      generalize (m.takeAnswers sub).2.foldl (fun ctx answer => ctx.feed step answer) ctx = fed at *
      have hfeed : Turns (m.takeAnswers sub).1 (m.takeAnswers sub).1
          (Function.update slots key (some ctx)) key ctx fed := by
        apply Turns.replace _ _ key ctx fed (Function.update_self ..) hstays
        · intro k hk
          rw [← hsubs]
          exact hk
        · intro k hk _
          rw [hsubs]
          exact hk
      have hsub' : sub ∈ fed.subqueries := by rw [hsubs]; exact hsub
      have hfed := htake.trans _ _ _ slots key ctx ctx fed hfeed
      obtain ⟨hend, hgone⟩ := (m.takeAnswers sub).1.endSubquery_turns
        (Function.update slots key (some fed)) key fed (Function.update_self ..) sub hsub'
      have hended := hfed.trans _ _ _ slots key ctx fed fed hend
      generalize (m.takeAnswers sub).1.endSubquery sub = ended at *
      obtain ⟨m', over_⟩ := ended
      cases over_ with
      | false =>
        exact hended.trans _ _ _ slots key ctx fed _ (ih m' _ fed (Function.update_self ..))
      | true =>
        have herase : Turns m' m' (Function.update slots key (some fed)) key fed
            { fed with subqueries := fed.subqueries.erase sub } := by
          have hstays' : fed.Stays { fed with subqueries := fed.subqueries.erase sub } :=
            ⟨rfl, rfl, rfl, rfl⟩
          apply Turns.replace _ _ key fed _ (Function.update_self ..) hstays'
          · intro k hk
            exact (AList.mem_erase.mp hk).2
          · intro k hk hmem
            refine AList.mem_erase.mpr ⟨?_, hk⟩
            rintro rfl
            exact hgone rfl hmem
        have herased := hended.trans _ _ _ slots key ctx fed _ herase
        exact herased.trans _ _ _ slots key ctx _ _ (ih m' _ _ (Function.update_self ..))

theorem launch_turns (starts : List Start) (m : Mdns I QS AN EV LK)
    (slots : Nat → Option (LookupCtx I)) (key : Nat) (ctx : LookupCtx I)
    (hslot : slots key = some ctx) :
    Turns m (launch ⟨key, ctx.generation⟩ starts m ctx).1 slots key ctx
      (launch ⟨key, ctx.generation⟩ starts m ctx).2.1 := by
  induction starts generalizing m slots ctx with
  | nil => exact .refl m slots key ctx hslot
  | cons start rest ih =>
    obtain ⟨name, step⟩ := start
    simp only [launch]
    generalize hstart : m.startSubqueryInWindow ctx (QuerySpec.new name step.qtype) = started
    obtain ⟨m', e | _ | sub⟩ := started
    · have hr := startSubqueryInWindow_refused m m' ctx _ _ hstart fun _ h => by cases h
      have hdrive := Turns.drive m m' slots key ctx hslot (hr.carries m m' slots) hr.lookups hr.clock
      exact hdrive.trans _ _ _ slots key ctx ctx _ (ih m' _ ctx (Function.update_self ..))
    · have hr := startSubqueryInWindow_refused m m' ctx _ _ hstart fun _ h => by cases h
      exact .drive m m' slots key ctx hslot (hr.carries m m' slots) hr.lookups hr.clock
    · have hl := carries_launch m m' slots key ctx hslot _ sub hstart step
      have hrest := (m.startSubqueryInWindow_rest ctx (QuerySpec.new name step.qtype)).1
      rw [hstart] at hrest
      have hone : Turns m (m'.registerSubquery ctx ⟨key, ctx.generation⟩ sub step).1 slots key ctx
          (m'.registerSubquery ctx ⟨key, ctx.generation⟩ sub step).2 := by
        refine ⟨hl, ⟨rfl, rfl, rfl, rfl⟩, ?_, ?_⟩
        · rw [show m' = _ from hrest]
          rfl
        · rw [show m' = _ from hrest]
          exact later_succ _
      exact hone.trans _ _ _ slots key ctx _ _
        (ih _ _ (m'.registerSubquery ctx ⟨key, ctx.generation⟩ sub step).2
          (Function.update_self ..))

theorem later_now : Moves m m.now.2 :=
  ⟨.refl _ Query.Evolves.refl _, fun _ => Queries.rel_refl SameEntry (fun _ => ⟨rfl, rfl⟩) _, rfl,
    later_succ _⟩

theorem advanceOpen_turns (order : HashOrder) (m : Mdns I QS AN EV LK)
    (slots : Nat → Option (LookupCtx I)) (key : Nat) (ctx : LookupCtx I)
    (hslot : slots key = some ctx) :
    Turns m (advanceOpen order ⟨key, ctx.generation⟩ m ctx).1 slots key ctx
      (advanceOpen order ⟨key, ctx.generation⟩ m ctx).2.1 := by
  have hnow : Turns m m.now.2 slots key ctx ctx :=
    .drive m _ slots key ctx hslot ((later_now m).carries m _ slots) rfl (later_succ _)
  by_cases hexpired : ctx.isExpired (m.clock 0) = true
  · rw [advanceOpen_expired order _ m ctx hexpired]
    exact hnow
  · have hstays : ctx.Stays (retained m ctx) := ⟨rfl, rfl, rfl, rfl⟩
    have hretain : Turns m.now.2 m.now.2 (Function.update slots key (some ctx)) key ctx
        (retained m ctx) := by
      apply Turns.replace _ _ key ctx _ (Function.update_self ..) hstays
      · intro k hk
        obtain ⟨step, hk⟩ := (Assoc.mem_iff k _).mp hk
        rw [retained, Assoc.lookup_retain, Option.filter_eq_some_iff] at hk
        exact (Assoc.mem_iff k _).mpr ⟨step, hk.1⟩
      · intro k hk hmem
        obtain ⟨step, hk⟩ := (Assoc.mem_iff k _).mp hk
        refine (Assoc.mem_iff k _).mpr ⟨step, ?_⟩
        rw [retained, Assoc.lookup_retain, hk, Option.filter_some]
        exact if_pos (decide_eq_true hmem)
    have hretained := hnow.trans _ _ _ slots key ctx ctx _ hretain
    have hwalk := hretained.trans _ _ _ slots key ctx _ _ (walk_turns
      (order.handles (retained m ctx).subqueries.keys) m.now.2 _ key (retained m ctx)
      (Function.update_self ..))
    rw [advanceOpen_open order _ m ctx hexpired]
    change Turns m (walked order m ctx).1 slots key ctx (walked order m ctx).2 at hwalk
    generalize walked order m ctx = fed at *
    obtain ⟨m', fed⟩ := fed
    have hgen : fed.generation = ctx.generation := hwalk.stays.generation
    have hstays' : fed.Stays { fed with pending := [] } := ⟨rfl, rfl, rfl, rfl⟩
    have hcleared := hwalk.trans _ _ _ slots key ctx _ _ (Turns.replace m' _ key fed
      { fed with pending := [] } (Function.update_self ..) hstays' (fun _ hk => hk) fun _ hk _ => hk)
    have hlaunch := hcleared.trans _ _ _ slots key ctx _ _ (launch_turns fed.pending m' _ key
      { fed with pending := [] } (Function.update_self ..))
    simp only [hgen] at hlaunch ⊢
    generalize launch ⟨key, ctx.generation⟩ fed.pending m' { fed with
      generation := ctx.generation
      pending := [] } = launched at *
    obtain ⟨m'', next, shut⟩ := launched
    cases shut with
    | true => exact hlaunch
    | false =>
      exact hlaunch.trans _ _ _ slots key ctx next next (.drive m'' _ _ key next
        (Function.update_self ..) ((later_now m'').carries m'' _ _) rfl (later_succ _))

theorem carries_same (m m' : Mdns I QS AN EV LK) (he : m'.endpoint = m.endpoint)
    (hq : m'.queries = m.queries) (hc : Later m.clock m'.clock)
    (slots : Nat → Option (LookupCtx I)) : Carries m m' slots slots := by
  refine ⟨?_, fun _ hb => ⟨⟨?_, ?_, ?_, ?_, ?_, ?_, ?_, ?_, ?_, ?_⟩, ?_⟩⟩
  · rw [he]
    exact UInt32.le_refl _
  · rw [he]
    exact hb.distinct
  · rw [he, hq]
    exact hb.shared
  · rw [he, hq]
    exact hb.issued
  · rw [he]
    exact hb.numbered
  · rw [he, hq]
    exact hb.read
  · rw [hq]
    exact hb.owned
  · rw [he, hq]
    exact hb.subs
  · rw [he]
    exact hb.window
  · exact hc.monotone _ _ hb.clock
  · intro key lookup n hslot hnone
    obtain ⟨k, hk⟩ := hc
    rw [hk]
    exact hb.boundless key lookup (n + k) hslot hnone
  · intro h
    rw [callerSeq, callerSeq, hq]

theorem tellReady_turns (order : HashOrder) (m : Mdns I QS AN EV LK)
    (slots : Nat → Option (LookupCtx I)) (key : Nat) (ctx : LookupCtx I)
    (hslot : slots key = some ctx) (handle : LookupHandle) :
    Turns m (tellReady order handle m ctx).1 slots key ctx (tellReady order handle m ctx).2 := by
  have honly := (ctx.collectReady_spec (order.keys ctx.partials.keys)
    ((order.keys_perm _).nodup_iff.mpr ctx.partials.keys_nodup)).2.2.2
  have hsubs : (ctx.collectReady (order.keys ctx.partials.keys)).subqueries = ctx.subqueries := by
    rw [honly]
  have hstays : ctx.Stays (tellReady order handle m ctx).2 := by
    simp only [tellReady]
    rw [honly]
    exact ⟨rfl, rfl, rfl, rfl⟩
  have hdrive : Turns m (tellReady order handle m ctx).1 slots key ctx ctx :=
    .drive m _ slots key ctx hslot
      (carries_same m (tellReady order handle m ctx).1 rfl rfl (.refl _) slots) rfl (.refl _)
  refine hdrive.trans _ _ _ slots key ctx ctx _ ?_
  apply Turns.replace _ _ key ctx _ (Function.update_self ..) hstays
  · intro k hk
    simp only [tellReady] at hk
    rw [← hsubs]
    exact hk
  · intro k hk _
    simp only [tellReady]
    rw [hsubs]
    exact hk

theorem advanceOne_turns (order : HashOrder) (m : Mdns I QS AN EV LK)
    (slots : Nat → Option (LookupCtx I)) (key : Nat) (ctx : LookupCtx I)
    (hslot : slots key = some ctx) :
    Turns m (advanceOne order ⟨key, ctx.generation⟩ m ctx).1 slots key ctx
      (advanceOne order ⟨key, ctx.generation⟩ m ctx).2.1 := by
  have hopen := advanceOpen_turns order m slots key ctx hslot
  rw [advanceOne]
  generalize advanceOpen order ⟨key, ctx.generation⟩ m ctx = opened at *
  obtain ⟨m', next, isOpen⟩ := opened
  cases isOpen with
  | false => exact hopen
  | true =>
    have htell := hopen.trans _ _ _ slots key ctx next _
      (tellReady_turns order m' _ key next (Function.update_self ..) ⟨key, ctx.generation⟩)
    simp only
    generalize tellReady order ⟨key, ctx.generation⟩ m' next = told at *
    obtain ⟨m'', last⟩ := told
    exact htell.trans _ _ _ slots key ctx last last (.drive m'' _ _ key last
      (Function.update_self ..) ((later_now m'').carries m'' _ _) rfl (later_succ _))

variable [ReleasingPool LK]

theorem table_setLookup (key : Nat) (ctx next : LookupCtx I)
    (h : m.table key = some ctx) :
    (m.setLookup key next).table = Function.update m.table key (some next) := by
  funext j
  simp only [table, setLookup]
  rw [LawfulPool.get_update]
  by_cases hj : j = key
  · rw [if_pos hj, hj, Function.update_self, show Pool.get m.lookups.slab key = some ctx from h,
      Option.map_some]
  · rw [if_neg hj, Function.update_of_ne hj]

theorem Turns.settle (m m' : Mdns I QS AN EV LK) (key : Nat) (ctx next : LookupCtx I)
    (h : Turns m m' m.table key ctx next) (hslot : m.table key = some ctx) :
    Carries m (m'.setLookup key next) m.table (m'.setLookup key next).table ∧
      (m'.setLookup key next).table = Function.update m.table key (some next) := by
  have htable : m'.table = m.table := by rw [table, table, h.lookups]
  have hset := m'.table_setLookup key ctx next (by rw [htable, hslot])
  rw [hset, htable]
  have hseat := carries_same m' (m'.setLookup key next) rfl rfl (.refl _)
    (Function.update m.table key (some next))
  exact ⟨h.carries.trans _ _ _ _ _ _ hseat, rfl⟩

theorem advanceSlots_carries (order : Nat → HashOrder) (keys : List Nat) (m : Mdns I QS AN EV LK)
    (finished : List LookupHandle) :
    Carries m (advanceSlots order keys m finished).1 m.table
      (advanceSlots order keys m finished).1.table := by
  induction keys generalizing m finished with
  | nil => exact .refl m _
  | cons key rest ih =>
    cases hslot : m.table key with
    | none =>
      have hskip : advanceSlots order (key :: rest) m finished =
          advanceSlots order rest m finished := by
        rw [advanceSlots, show Pool.get m.lookups.slab key = none from hslot]
      rw [hskip]
      exact ih m finished
    | some ctx =>
      have hturn := advanceOne_turns (order key) m m.table key ctx hslot
      rw [advanceSlots, show Pool.get m.lookups.slab key = some ctx from hslot]
      simp only
      generalize advanceOne (order key) ⟨key, ctx.generation⟩ m ctx = advanced at *
      obtain ⟨m', next, isOver⟩ := advanced
      have hset := (hturn.settle m m' key ctx next hslot).1
      cases isOver with
      | true => exact hset.trans _ _ _ _ _ _ (ih _ _)
      | false => exact hset.trans _ _ _ _ _ _ (ih _ _)

theorem cancelSubqueries_carries (key : Nat) (ctx : LookupCtx I) (hslot : slots key = some ctx) :
    Carries m (m.cancelSubqueries ctx) slots slots ∧
      (m.cancelSubqueries ctx).lookups = m.lookups ∧ (m.cancelSubqueries ctx).clock = m.clock ∧
      (m.cancelSubqueries ctx).events = m.events ∧
      ∀ sub, sub ∈ ctx.subqueries → sub ∉ (m.cancelSubqueries ctx).queries := by
  have hall : ∀ (subs : List QueryHandle) (m : Mdns I QS AN EV LK),
      (∀ sub ∈ subs, sub ∈ ctx.subqueries) → Carries m (subs.foldl dropQuery m) slots slots ∧
        (subs.foldl dropQuery m).lookups = m.lookups ∧ (subs.foldl dropQuery m).clock = m.clock ∧
        (subs.foldl dropQuery m).events = m.events ∧
        ∀ sub, sub ∈ subs ∨ sub ∉ m.queries → sub ∉ (subs.foldl dropQuery m).queries := by
    intro subs
    induction subs with
    | nil =>
      intro m _
      refine ⟨.refl m slots, rfl, rfl, rfl, fun sub hsub => ?_⟩
      rcases hsub with hsub | hsub
      · cases hsub
      · exact hsub
    | cons first rest ih =>
      intro m hmem
      have hdrop := Books.carries_drop m slots key ctx hslot first (hmem first List.mem_cons_self)
      obtain ⟨hrest, hl, hc, he, hgone⟩ := ih (m.dropQuery first) fun sub hsub =>
        hmem sub (List.mem_cons_of_mem _ hsub)
      refine ⟨hdrop.trans _ _ _ _ _ _ hrest, hl, hc, he, fun sub hsub => hgone sub ?_⟩
      by_cases hsame : sub = first
      · exact .inr fun hin => (AList.mem_erase.mp hin).1 hsame
      · rcases hsub with hsub | hsub
        · rcases List.mem_cons.mp hsub with h | h
          · exact absurd h hsame
          · exact .inl h
        · exact .inr fun hin => hsub (AList.mem_erase.mp hin).2
  obtain ⟨hcarries, hl, hc, he, hgone⟩ := hall ctx.subqueries.keys m fun sub hsub =>
    AList.mem_keys.mpr hsub
  exact ⟨hcarries, hl, hc, he, fun sub hsub => hgone sub (.inl (AList.mem_keys.mp hsub))⟩

theorem cancelLookup_spec (handle : LookupHandle) :
    Carries m (m.cancelLookup handle) m.table (m.cancelLookup handle).table ∧
      (m.cancelLookup handle).clock = m.clock ∧ (m.cancelLookup handle).events = m.events ∧
      (m.getChecked handle = none → m.cancelLookup handle = m) ∧
      (∀ ctx, m.getChecked handle = some ctx →
        (m.cancelLookup handle).table = Function.update m.table handle.key none ∧
        (m.cancelLookup handle).lookups.nextGeneration = m.lookups.nextGeneration) := by
  cases hchecked : m.getChecked handle with
  | none =>
    have hsame : m.cancelLookup handle = m := by simp only [cancelLookup, removeChecked, hchecked]
    rw [hsame]
    exact ⟨.refl m _, rfl, rfl, fun _ => rfl, fun _ h => by cases h⟩
  | some ctx =>
    have hget : m.table handle.key = some ctx := by
      rw [getChecked, Option.filter_eq_some_iff] at hchecked
      exact hchecked.1
    obtain ⟨slab, hremove⟩ := ReleasingPool.tryRemove_of_get m.lookups.slab ctx handle.key hget
    have hcancel : m.cancelLookup handle =
        ({ m with lookups := { m.lookups with slab := slab } } : Mdns I QS AN EV LK).cancelSubqueries
          ctx := by
      simp only [cancelLookup, removeChecked, hchecked, hremove, Option.map_some]
    obtain ⟨hcarries, hl, hc, he, hgone⟩ := cancelSubqueries_carries
      ({ m with lookups := { m.lookups with slab := slab } } : Mdns I QS AN EV LK) m.table
      handle.key ctx hget
    have htable : (m.cancelLookup handle).table = Function.update m.table handle.key none := by
      funext j
      rw [hcancel, table, hl]
      simp only
      rw [LawfulPool.get_tryRemove _ _ _ _ hremove]
      by_cases hj : j = handle.key
      · rw [if_pos hj, hj, Function.update_self]
      · rw [if_neg hj, Function.update_of_ne hj]
        rfl
    refine ⟨?_, by rw [hcancel, hc], by rw [hcancel, he], (fun h => by cases h),
      fun found hfound => ⟨htable, by rw [hcancel, hl]⟩⟩
    rw [htable, hcancel]
    have hbefore := (carries_same m ({ m with lookups := { m.lookups with slab := slab } } :
      Mdns I QS AN EV LK) rfl rfl (.refl _) m.table).trans _ _ _ _ _ _ hcarries
    refine ⟨hbefore.counted, fun hroom hb => ?_⟩
    obtain ⟨hb', hsame⟩ := hbefore.kept hroom hb
    exact ⟨hb'.vacate _ m.table handle.key ctx hget hgone, hsame⟩

theorem retireLookup_carries (handle : LookupHandle) :
    Carries m (m.retireLookup handle) m.table (m.retireLookup handle).table :=
  (m.cancelLookup_spec handle).1.trans _ _ _ _ _ _
    (carries_same (m.cancelLookup handle) (m.retireLookup handle) rfl rfl (.refl _) _)

theorem retireLookups_carry (handles : List LookupHandle) (m : Mdns I QS AN EV LK) :
    Carries m (handles.foldl retireLookup m) m.table (handles.foldl retireLookup m).table := by
  induction handles generalizing m with
  | nil => exact .refl m _
  | cons handle rest ih =>
    exact (m.retireLookup_carries handle).trans _ _ _ _ _ _ (ih _)

theorem advanceLookups_carries (order : Nat → HashOrder) (m : Mdns I QS AN EV LK) :
    Carries m (advanceLookups order m) m.table (advanceLookups order m).table := by
  have hslots := advanceSlots_carries order ((Pool.iter m.lookups.slab).map Prod.fst) m []
  rw [advanceLookups]
  generalize advanceSlots order ((Pool.iter m.lookups.slab).map Prod.fst) m [] = advanced at *
  obtain ⟨m', finished⟩ := advanced
  exact hslots.trans _ _ _ _ _ _ (retireLookups_carry finished m')

theorem add_none_later (t u : I) (d : Duration) (hle : t ≤ u) (h : checkedAddDuration t d = none) :
    checkedAddDuration u d = none := by
  cases hu : checkedAddDuration u d with
  | none => rfl
  | some v =>
    obtain ⟨g, -, hg⟩ := MeasuredInstant.since_of_le t u hle
    have hsum := MeasuredInstant.add_add t u v g d hg hu
    obtain ⟨w, hw⟩ := MeasuredInstant.add_part t v d (g + d) (Nat.le_add_left d g) hsum
    rw [h] at hw
    cases hw

structure Seated (m m' : Mdns I QS AN EV LK) (handle : LookupHandle) (ctx : LookupCtx I) :
    Prop where
  vacant : m.table handle.key = none
  table : m'.table =
    Function.update m.table handle.key (some { ctx with generation := handle.generation })
  generation : handle.generation = m.lookups.nextGeneration
  next : m'.lookups.nextGeneration = m.lookups.nextGeneration + 1
  rest : m'.endpoint = m.endpoint ∧ m'.queries = m.queries ∧ m'.events = m.events

theorem insertLookup_seated (m m' : Mdns I QS AN EV LK) (handle : LookupHandle) (ctx : LookupCtx I)
    (h : m.insertLookup ctx = some (handle, m')) : Seated m m' handle ctx ∧ m'.clock = m.clock := by
  rw [insertLookup, Option.map_eq_some_iff] at h
  obtain ⟨⟨key, slab⟩, hinsert, h⟩ := h
  cases h
  obtain ⟨hvacant, hget⟩ := LawfulPool.get_insert _ _ _ _ hinsert
  refine ⟨⟨hvacant, ?_, rfl, rfl, rfl, rfl, rfl⟩, rfl⟩
  funext j
  simp only [Mdns.table]
  rw [hget]
  by_cases hj : j = key
  · rw [if_pos hj, hj, Function.update_self]
  · rw [if_neg hj, Function.update_of_ne hj]

theorem Seated.carries (m m' : Mdns I QS AN EV LK) (handle : LookupHandle) (ctx : LookupCtx I)
    (h : Seated m m' handle ctx) (hclock : m'.clock = fun n => m.clock (n + 1))
    (hsubs : ctx.subqueries = ∅)
    (hdeadline : ctx.deadline = checkedAddDuration (m.clock 0) ctx.timeout) :
    Carries m m' m.table m'.table := by
  have hsame := carries_same m m' h.rest.1 h.rest.2.1 (by rw [hclock]; exact later_succ _) m.table
  refine ⟨hsame.counted, fun hroom hb => ?_⟩
  obtain ⟨hb', hcallers⟩ := hsame.kept hroom hb
  refine ⟨?_, hcallers⟩
  rw [h.table]
  refine hb'.occupy m' m.table handle.key { ctx with generation := handle.generation } h.vacant
    hsubs fun n hnone => ?_
  rw [hclock]
  apply add_none_later (m.clock 0) _ _ (hb.clock (Nat.zero_le _))
  rw [← hdeadline]
  exact hnone

theorem getChecked_table (handle : LookupHandle) (ctx : LookupCtx I)
    (h : m.getChecked handle = some ctx) :
    m.table handle.key = some ctx ∧ ctx.generation = handle.generation := by
  rw [getChecked, Option.filter_eq_some_iff] at h
  exact ⟨h.1, of_decide_eq_true h.2⟩

/-- What a call does for one lookup: it carries the books, and the other slots stay as they are. -/
structure Serves (m m' : Mdns I QS AN EV LK) (key : Nat) : Prop where
  carries : Carries m m' m.table m'.table
  table : ∃ seat, m'.table = Function.update m.table key seat ∧
    ∀ ctx, m.table key = some ctx → ∃ next, seat = some next ∧ ctx.Stays next
  rest : m'.lookups.nextGeneration = m.lookups.nextGeneration ∧ m'.events = m.events
  clock : Later m.clock m'.clock

theorem Serves.refl (key : Nat) : Serves m m key := by
  refine ⟨.refl m _, ⟨m.table key, (Function.update_eq_self key m.table).symm, fun ctx h => ?_⟩,
    ⟨rfl, rfl⟩, .refl _⟩
  exact ⟨ctx, h, .refl ctx⟩

theorem Serves.trans (a b c : Mdns I QS AN EV LK) (key : Nat) (h : Serves a b key)
    (h' : Serves b c key) : Serves a c key := by
  obtain ⟨seat, htable, hseat⟩ := h.table
  obtain ⟨seat', htable', hseat'⟩ := h'.table
  refine ⟨h.carries.trans _ _ _ _ _ _ h'.carries, ⟨seat', ?_, fun ctx hctx => ?_⟩, ?_,
    h.clock.trans _ _ _ h'.clock⟩
  · rw [htable', htable, Function.update_idem]
  · obtain ⟨next, rfl, hstays⟩ := hseat ctx hctx
    obtain ⟨last, hlast, hstays'⟩ := hseat' next (by rw [htable, Function.update_self])
    exact ⟨last, hlast, hstays.trans ctx next last hstays'⟩
  · rw [h'.rest.1, h'.rest.2]
    exact h.rest

theorem Turns.serves (m m' : Mdns I QS AN EV LK) (key : Nat) (ctx next : LookupCtx I)
    (h : Turns m m' m.table key ctx next) (hslot : m.table key = some ctx)
    (hevents : m'.events = m.events) : Serves m (m'.setLookup key next) key := by
  obtain ⟨hcarries, htable⟩ := h.settle m m' key ctx next hslot
  refine ⟨hcarries, ⟨some next, htable, fun other hother => ?_⟩, ⟨?_, hevents⟩, h.clock⟩
  · rw [hslot] at hother
    cases hother
    exact ⟨next, rfl, h.stays⟩
  · show m'.lookups.nextGeneration = m.lookups.nextGeneration
    rw [h.lookups]

theorem Refused.serves (m m' : Mdns I QS AN EV LK) (h : Refused m m')
    (hevents : m'.events = m.events)
    (key : Nat) : Serves m m' key := by
  have htable : m'.table = m.table := by rw [table, table, h.lookups]
  refine ⟨?_, ⟨m.table key, ?_, fun ctx hctx => ⟨ctx, hctx, .refl ctx⟩⟩, ⟨by rw [h.lookups], hevents⟩,
    h.clock⟩
  · rw [htable]
    exact h.carries m m' m.table
  · rw [htable, Function.update_eq_self]

theorem startSubquery_serves (owner : LookupHandle) (spec : QuerySpec)
    (step : Step) : Serves m (m.startSubquery owner spec step).1 owner.key := by
  cases hchecked : m.getChecked owner with
  | none =>
    simp only [startSubquery, hchecked]
    exact .refl m _
  | some ctx =>
    obtain ⟨hslot, hgen⟩ := m.getChecked_table owner ctx hchecked
    have hrest := (m.startSubqueryInWindow_rest ctx spec).1
    simp only [startSubquery, hchecked]
    generalize hstart : m.startSubqueryInWindow ctx spec = started at *
    obtain ⟨m', result⟩ := started
    have hevents : m'.events = m.events := by rw [show m' = _ from hrest]
    obtain e | _ | sub := result
    · exact (startSubqueryInWindow_refused m m' ctx _ _ hstart fun _ h => by cases h).serves m m'
        hevents owner.key
    · exact (startSubqueryInWindow_refused m m' ctx _ _ hstart fun _ h => by cases h).serves m m'
        hevents owner.key
    · have hl := carries_launch m m' m.table owner.key ctx hslot spec sub hstart step
      rw [hgen] at hl
      have hone : Turns m (m'.registerSubquery ctx owner sub step).1 m.table owner.key ctx
          (m'.registerSubquery ctx owner sub step).2 := by
        refine ⟨hl, ⟨rfl, rfl, rfl, rfl⟩, ?_, ?_⟩
        · rw [show m' = _ from hrest]
          rfl
        · rw [show m' = _ from hrest]
          exact later_succ _
      exact hone.serves m _ owner.key ctx _ hslot hevents

theorem launchAll_serves (owner : LookupHandle) (starts : List Start)
    (firstErr : Option StartQueryError) (m : Mdns I QS AN EV LK) :
    Serves m (launchAll owner starts firstErr m).1 owner.key := by
  induction starts generalizing m firstErr with
  | nil => exact .refl m _
  | cons start rest ih =>
    obtain ⟨name, step⟩ := start
    have hone := m.startSubquery_serves owner (QuerySpec.new name step.qtype) step
    simp only [launchAll]
    generalize m.startSubquery owner (QuerySpec.new name step.qtype) step = started at *
    obtain ⟨m', _ | u⟩ := started
    · exact hone.trans _ _ _ _ (ih _ m')
    · exact hone.trans _ _ _ _ (ih _ m')

theorem launchPending_serves (owner : LookupHandle) :
    Serves m (m.launchPending owner).1 owner.key := by
  cases hchecked : m.getChecked owner with
  | none =>
    simp only [launchPending, hchecked]
    exact .refl m _
  | some ctx =>
    obtain ⟨hslot, -⟩ := m.getChecked_table owner ctx hchecked
    have hstays : ctx.Stays { ctx with pending := [] } := ⟨rfl, rfl, rfl, rfl⟩
    have hclear := (Turns.replace m m.table owner.key ctx _ hslot hstays (fun _ h => h)
      fun _ h _ => h).serves m m owner.key ctx _ hslot rfl
    have hall := launchAll_serves owner ctx.pending none
      (m.setLookup owner.key { ctx with pending := [] })
    simp only [launchPending, hchecked]
    generalize launchAll owner ctx.pending none
      (m.setLookup owner.key { ctx with pending := [] }) = launched at *
    obtain ⟨m', _ | e⟩ := launched
    · exact hclear.trans _ _ _ _ hall
    · exact hclear.trans _ _ _ _ hall

/-- What comes of an opening: the caller has the handle of a lookup in a slot that was vacant, or
nothing is left of it. -/
structure Opens (m m' : Mdns I QS AN EV LK) (timeout : Duration)
    (result : Except StartQueryError LookupHandle) : Prop where
  carries : Carries m m' m.table m'.table
  clock : Later m.clock m'.clock
  events : m'.events = m.events
  generation : m'.lookups.nextGeneration = m.lookups.nextGeneration + 1 ∨
    m'.lookups.nextGeneration = m.lookups.nextGeneration ∧ ∀ handle, result ≠ .ok handle
  refused : ∀ e, result = .error e → m'.table = m.table
  opened : ∀ handle, result = .ok handle → m.table handle.key = none ∧
    handle.generation = m.lookups.nextGeneration ∧
    ∃ ctx, m'.table = Function.update m.table handle.key (some ctx) ∧
      ctx.generation = handle.generation ∧ ctx.deadline = checkedAddDuration (m.clock 0) timeout

theorem Seated.opens (m m1 : Mdns I QS AN EV LK) (handle : LookupHandle) (ctx : LookupCtx I)
    (h : Seated m m1 handle ctx) (hclock : m1.clock = fun n => m.clock (n + 1))
    (hsubs : ctx.subqueries = ∅) (timeout : Duration) (htimeout : ctx.timeout = timeout)
    (hdeadline : ctx.deadline = checkedAddDuration (m.clock 0) timeout)
    (served : Mdns I QS AN EV LK × Except StartQueryError Unit)
    (hserves : Serves m1 served.1 handle.key) :
    Opens m (orCancelled handle served).1 timeout (orCancelled handle served).2 := by
  have hseat := h.carries m m1 handle ctx hclock hsubs (by rw [htimeout]; exact hdeadline)
  have hlater : Later m.clock m1.clock := by
    rw [hclock]
    exact later_succ _
  obtain ⟨seat, htable, hkeeps⟩ := hserves.table
  obtain ⟨last, rfl, hstays⟩ := hkeeps { ctx with generation := handle.generation }
    (by rw [h.table, Function.update_self])
  rw [h.table, Function.update_idem] at htable
  obtain ⟨m', e | u⟩ := served
  · obtain ⟨hcarries, hc, he, -, hleft⟩ := cancelLookup_spec m' handle
    have hchecked : m'.getChecked handle = some last := by
      rw [getChecked, show Pool.get m'.lookups.slab handle.key = some last by
        rw [show Pool.get m'.lookups.slab handle.key = m'.table handle.key from rfl, htable,
          Function.update_self], Option.filter_some,
        if_pos (decide_eq_true hstays.generation)]
    obtain ⟨hback, hgen⟩ := hleft last hchecked
    refine ⟨hseat.trans _ _ _ _ _ _ (hserves.carries.trans _ _ _ _ _ _ hcarries), ?_, ?_, ?_, ?_,
      fun _ h => by cases h⟩
    · rw [show (orCancelled handle (m', .error e)).1.clock = m'.clock from hc]
      exact hlater.trans _ _ _ hserves.clock
    · rw [show (orCancelled handle (m', .error e)).1.events = m'.events from he, hserves.rest.2,
        h.rest.2.2]
    · exact .inl (by
        rw [show (orCancelled handle (m', .error e)).1.lookups.nextGeneration = _ from hgen,
          hserves.rest.1, h.next])
    · intro e' _
      rw [show (orCancelled handle (m', .error e)).1.table = _ from hback, htable,
        Function.update_idem, ← h.vacant, Function.update_eq_self]
  · refine ⟨hseat.trans _ _ _ _ _ _ hserves.carries, hlater.trans _ _ _ hserves.clock, ?_, ?_,
      (fun _ h => by cases h), ?_⟩
    · rw [show (orCancelled handle (m', .ok u)).1.events = m'.events from rfl, hserves.rest.2,
        h.rest.2.2]
    · exact .inl (by
        rw [show (orCancelled handle (m', .ok u)).1.lookups = m'.lookups from rfl, hserves.rest.1,
          h.next])
    · intro other hother
      cases hother
      exact ⟨h.vacant, h.generation, last, htable, hstays.generation,
        by rw [hstays.deadline]; exact hdeadline⟩

theorem Opens.full (m m' : Mdns I QS AN EV LK) (hm : m' = m.now.2) (timeout : Duration) :
    Opens m m' timeout (.error .storageFull) := by
  subst hm
  exact ⟨(later_now m).carries m _ _, later_succ _, rfl, .inr ⟨rfl, nofun⟩, fun _ _ => rfl, nofun⟩

theorem startSeeded_opens (ctx : LookupCtx I) (hsubs : ctx.subqueries = ∅)
    (timeout : Duration) (htimeout : ctx.timeout = timeout)
    (hdeadline : ctx.deadline = checkedAddDuration (m.clock 0) timeout) :
    Opens m (m.now.2.startSeeded ctx).1 timeout (m.now.2.startSeeded ctx).2 := by
  rw [startSeeded]
  cases hinsert : m.now.2.insertLookup ctx with
  | none => exact .full m _ rfl timeout
  | some inserted =>
    obtain ⟨handle, m1⟩ := inserted
    obtain ⟨hseat, hclock⟩ := insertLookup_seated m.now.2 m1 handle ctx hinsert
    have hseat' : Seated m m1 handle ctx :=
      ⟨hseat.vacant, hseat.table, hseat.generation, hseat.next, hseat.rest⟩
    exact hseat'.opens m m1 handle ctx hclock hsubs timeout htimeout hdeadline _
      (m1.launchPending_serves handle)

theorem open_opens (opening : Opening) :
    Opens m (opening.open_ m).1 opening.timeout (opening.open_ m).2 := by
  cases opening with
  | resolveHost host timeout =>
    exact startSeeded_opens m ((LookupCtx.new
      (((QueryParam.new host).withTimeout timeout).withMaxEntries 1) m.now.1).seedHost host) rfl
      timeout rfl rfl
  | resolveInstance name timeout =>
    have hsame := (LookupCtx.take_same (LookupCtx.new
      (((QueryParam.new name).withTimeout timeout).withMaxEntries 1) m.now.1) (.ptr name))
    exact startSeeded_opens m ((LookupCtx.new
      (((QueryParam.new name).withTimeout timeout).withMaxEntries 1) m.now.1).onPtr name) hsame.2.1
      timeout hsame.1.timeout hsame.1.deadline
  | browse param =>
    simp only [Opening.open_, browse]
    cases hinsert : m.now.2.insertLookup (LookupCtx.new param m.now.1) with
    | none =>
      simp only
      exact .full m _ rfl param.timeout
    | some inserted =>
      obtain ⟨handle, m1⟩ := inserted
      obtain ⟨hseat, hclock⟩ := insertLookup_seated m.now.2 m1 handle _ hinsert
      have hseat' : Seated m m1 handle (LookupCtx.new param m.now.1) :=
        ⟨hseat.vacant, hseat.table, hseat.generation, hseat.next, hseat.rest⟩
      simp only
      exact hseat'.opens m m1 handle _ hclock rfl param.timeout rfl rfl _
        (m1.startSubquery_serves handle _ .ptr)

end
end Mdns
end Hick
