import Hick.Mio.DriverRun

/-!
# A round of the lookups (hick-mio/src/discovery.rs:1161-1414)

A tick gives every lookup one turn and then retires those that have finished.
-/

set_option linter.unusedSectionVars false

namespace Hick
open Octets Wire

namespace Mdns
section
variable {I : Type} {QS AN EV LK : Type → Type} [Instant I] [Pool QS] [Pool AN] [Pool EV] [Pool LK]

theorem walk_rest (subs : List QueryHandle) (m : Mdns I QS AN EV LK) (ctx : LookupCtx I) :
    (walk subs m ctx).1.events.queue = m.events.queue ∧ (walk subs m ctx).1.clock = m.clock := by
  induction subs generalizing m ctx with
  | nil => exact ⟨rfl, rfl⟩
  | cons sub rest ih =>
    cases hstep : ctx.subqueries.lookup sub with
    | none =>
      simp only [walk, hstep]
      exact ih m ctx
    | some step =>
      obtain ⟨hqueue, hclock⟩ := m.takeAnswers_rest sub
      obtain ⟨hevents, hclock'⟩ := (m.takeAnswers sub).1.endSubquery_rest sub
      simp only [walk, hstep]
      generalize (m.takeAnswers sub).2.foldl (fun ctx answer => ctx.feed step answer) ctx = fed
      generalize (m.takeAnswers sub).1.endSubquery sub = ended at *
      obtain ⟨m', gone⟩ := ended
      have hsame : m'.events.queue = m.events.queue ∧ m'.clock = m.clock := by
        rw [show m'.events = _ from hevents, show m'.clock = _ from hclock']
        exact ⟨hqueue, hclock⟩
      cases gone with
      | false =>
        obtain ⟨hq, hc⟩ := ih m' fed
        exact ⟨hq.trans hsame.1, hc.trans hsame.2⟩
      | true =>
        obtain ⟨hq, hc⟩ := ih m' { fed with subqueries := fed.subqueries.erase sub }
        exact ⟨hq.trans hsame.1, hc.trans hsame.2⟩

variable [ReleasingPool QS] [LawfulPool AN] [LawfulPool EV] [MeasuredInstant I]

theorem walked_stays (order : HashOrder) (m : Mdns I QS AN EV LK) (ctx : LookupCtx I) :
    ctx.Stays (walked order m ctx).2 := by
  have hwalk := (walk_turns (order.handles (retained m ctx).subqueries.keys) m.now.2
    (fun _ => some (retained m ctx)) 0 (retained m ctx) rfl).stays
  exact ⟨hwalk.generation, hwalk.deadline, hwalk.timeout, hwalk.maxEntries⟩

theorem advanceOpen_rest (order : HashOrder) (handle : LookupHandle) (m : Mdns I QS AN EV LK)
    (ctx : LookupCtx I) :
    (advanceOpen order handle m ctx).1.events.queue = m.events.queue ∧
      ((advanceOpen order handle m ctx).2.2 = true → OpenTurn order m ctx) := by
  by_cases hexpired : ctx.isExpired (m.clock 0) = true
  · rw [advanceOpen_expired order handle m ctx hexpired]
    exact ⟨rfl, fun hno => absurd hno Bool.false_ne_true⟩
  · obtain ⟨hqueue, hclock⟩ := walk_rest (order.handles (retained m ctx).subqueries.keys) m.now.2
      (retained m ctx)
    change (walked order m ctx).1.events.queue = m.events.queue at hqueue
    change (walked order m ctx).1.clock = fun n => m.clock (n + 1) at hclock
    have hstays := walked_stays order m ctx
    obtain ⟨hl, hevents, hok, -⟩ := launch_spec handle (walked order m ctx).2.pending
      (walked order m ctx).1 { (walked order m ctx).2 with pending := [] }
    rw [advanceOpen_open order handle m ctx hexpired]
    generalize hlaunch : launch handle (walked order m ctx).2.pending (walked order m ctx).1
      { (walked order m ctx).2 with pending := [] } = launched at *
    obtain ⟨m', next, shut⟩ := launched
    have hsame : m'.events.queue = m.events.queue := by
      rw [show m'.events = _ from hevents, hqueue]
    cases shut with
    | true => exact ⟨hsame, fun hno => absurd hno Bool.false_ne_true⟩
    | false =>
      refine ⟨hsame, fun hlast i hi => ?_⟩
      obtain ⟨hbudgets, hclock'⟩ := hok rfl
      have hdeadline : next.deadline = ctx.deadline :=
        (congrArg LookupCtx.deadline hl.only).trans hstays.deadline
      have hexpires : ∀ at_, next.isExpired at_ = ctx.isExpired at_ := by
        intro at_
        rw [LookupCtx.isExpired, LookupCtx.isExpired, hdeadline]
      have hmiddle : ∀ j < (walked order m ctx).2.pending.length,
          ctx.isExpired (m.clock (j + 1)) = false := by
        intro j hj
        have hsome := hbudgets j hj
        rw [hclock] at hsome
        cases he : ctx.isExpired (m.clock (j + 1)) with
        | false => rfl
        | true =>
          have hnone := (budget_eq_none ({ (walked order m ctx).2 with pending := [] } :
            LookupCtx I) (m.clock (j + 1))).mpr (by
              rw [LookupCtx.isExpired]
              simp only
              rw [hstays.deadline]
              exact he)
          rw [hnone] at hsome
          cases hsome
      by_cases hfirst : i = 0
      · rw [hfirst]
        exact Bool.not_eq_true _ ▸ hexpired
      · by_cases hend : i = (walked order m ctx).2.pending.length + 1
        · simp only [now, Bool.not_eq_true'] at hlast
          rw [hexpires, show m'.clock = _ from hclock', hclock] at hlast
          rw [hend, ← hlast]
          congr 2
          omega
        · obtain ⟨j, rfl⟩ := Nat.exists_eq_succ_of_ne_zero hfirst
          exact hmiddle j (by omega)

theorem advanceOne_tells (order : HashOrder) (handle : LookupHandle) (m : Mdns I QS AN EV LK)
    (ctx : LookupCtx I) :
    ∃ entries : List ServiceEntry, (advanceOne order handle m ctx).1.events.queue =
        m.events.queue ++ entries.map (fun e => Slot.terminal (.lookup handle e)) ∧
      (¬OpenTurn order m ctx → entries = []) ∧
      (ctx.isExpired (m.clock 0) = true → (advanceOne order handle m ctx).2.2 = true) := by
  obtain ⟨hqueue, hopen⟩ := advanceOpen_rest order handle m ctx
  have hshut : ctx.isExpired (m.clock 0) = true →
      (advanceOpen order handle m ctx).2.2 = false := by
    intro hexpired
    simp only [advanceOpen, now, hexpired, if_true]
  rw [advanceOne]
  generalize advanceOpen order handle m ctx = opened at *
  obtain ⟨m', next, isOpen⟩ := opened
  cases isOpen with
  | false =>
    refine ⟨[], ?_, fun _ => rfl, fun _ => rfl⟩
    rw [List.map_nil, List.append_nil]
    exact hqueue
  | true =>
    refine ⟨(next.collectReady (order.keys next.partials.keys)).ready, ?_,
      fun hclosed => absurd (hopen rfl) hclosed, fun hexpired => ?_⟩
    · simp only [tellReady, now]
      rw [foldl_pushTerminal, show m'.events.queue = m.events.queue from hqueue]
    · cases hshut hexpired


variable [ReleasingPool LK]

def Seats (slots : Nat → Option (LookupCtx I)) (handle : LookupHandle) : Prop :=
  ∃ ctx, slots handle.key = some ctx ∧ ctx.generation = handle.generation

/-- A walk over the slots `keys`: each lookup stays in its slot, and is told of and found finished
under its own handle. -/
structure Round (m m' : Mdns I QS AN EV LK) (keys : List Nat) (said : List Event)
    (finished : List LookupHandle) : Prop where
  queue : m'.events.queue = m.events.queue ++ said.map Slot.terminal
  table : ∀ key, Option.Rel LookupCtx.Stays (m.table key) (m'.table key)
  generation : m'.lookups.nextGeneration = m.lookups.nextGeneration
  clock : Later m.clock m'.clock
  told : ∀ event ∈ said, ∃ handle entry, event = .lookup handle entry ∧ handle.key ∈ keys ∧
    Seats m.table handle
  ended : ∀ handle ∈ finished, handle.key ∈ keys ∧ Seats m.table handle
  once : finished.Nodup
  expired : Monotone m.clock → ∀ handle, handle.key ∈ keys → ∀ ctx,
    m.table handle.key = some ctx → ctx.generation = handle.generation →
    ctx.isExpired (m.clock 0) = true → handle ∈ finished

theorem rel_stays_refl (slots : Nat → Option (LookupCtx I)) (key : Nat) :
    Option.Rel LookupCtx.Stays (slots key) (slots key) :=
  Queries.rel_refl _ LookupCtx.Stays.refl _

theorem Seats.back (slots slots' : Nat → Option (LookupCtx I)) (handle : LookupHandle)
    (h : Seats slots' handle)
    (hrel : Option.Rel LookupCtx.Stays (slots handle.key) (slots' handle.key)) :
    Seats slots handle := by
  obtain ⟨ctx', hslot, hgen⟩ := h
  rw [hslot] at hrel
  rw [Seats]
  generalize slots handle.key = found at *
  cases hrel with
  | some hstays => exact ⟨_, rfl, by rw [← hgen, hstays.generation]⟩

theorem Seats.ahead (slots slots' : Nat → Option (LookupCtx I)) (handle : LookupHandle)
    (h : Seats slots handle)
    (hrel : Option.Rel LookupCtx.Stays (slots handle.key) (slots' handle.key)) :
    Seats slots' handle := by
  obtain ⟨ctx, hslot, hgen⟩ := h
  rw [hslot] at hrel
  rw [Seats]
  generalize slots' handle.key = found at *
  cases hrel with
  | some hstays => exact ⟨_, rfl, by rw [hstays.generation, hgen]⟩

theorem isExpired_later (ctx : LookupCtx I) (t u : I) (hle : t ≤ u) (h : ctx.isExpired t = true) :
    ctx.isExpired u = true := by
  rw [LookupCtx.isExpired] at h ⊢
  cases hd : ctx.deadline with
  | none =>
    rw [hd] at h
    exact h
  | some deadline =>
    rw [hd] at h
    simp only [Option.any_some, decide_eq_true_eq] at h ⊢
    exact le_trans h hle

theorem advanceSlots_round (order : Nat → HashOrder) (keys : List Nat) (hn : keys.Nodup)
    (m : Mdns I QS AN EV LK) (before : List LookupHandle) :
    ∃ said finished, (advanceSlots order keys m before).2 = before ++ finished ∧
      Round m (advanceSlots order keys m before).1 keys said finished := by
  induction keys generalizing m before with
  | nil =>
    refine ⟨[], [], (List.append_nil _).symm, (List.append_nil _).symm, rel_stays_refl _, rfl,
      .refl _, fun _ h => absurd h List.not_mem_nil, fun _ h => absurd h List.not_mem_nil,
      List.nodup_nil, fun _ _ hkey => ?_⟩
    cases hkey
  | cons key rest ih =>
    obtain ⟨hnot, hrest⟩ := List.nodup_cons.mp hn
    cases hslot : m.table key with
    | none =>
      have hskip : advanceSlots order (key :: rest) m before = advanceSlots order rest m before := by
        rw [advanceSlots, show Pool.get m.lookups.slab key = none from hslot]
      obtain ⟨said, finished, hmore, hr⟩ := ih hrest m before
      rw [hskip]
      refine ⟨said, finished, hmore, hr.queue, hr.table, hr.generation, hr.clock,
        fun event hevent => ?_, fun handle hhandle => ?_, hr.once, fun hclock handle hkey => ?_⟩
      · obtain ⟨handle, entry, he, hkey, hseat⟩ := hr.told event hevent
        exact ⟨handle, entry, he, List.mem_cons_of_mem _ hkey, hseat⟩
      · obtain ⟨hkey, hseat⟩ := hr.ended handle hhandle
        exact ⟨List.mem_cons_of_mem _ hkey, hseat⟩
      · intro ctx hctx
        rcases List.mem_cons.mp hkey with hsame | hkey
        · rw [hsame, hslot] at hctx
          cases hctx
        · exact hr.expired hclock handle hkey ctx hctx
    | some ctx =>
      have hturn := advanceOne_turns (order key) m m.table key ctx hslot
      obtain ⟨entries, hqueue, -, hexpired⟩ := advanceOne_tells (order key) ⟨key, ctx.generation⟩ m ctx
      rw [advanceSlots, show Pool.get m.lookups.slab key = some ctx from hslot]
      simp only
      generalize advanceOne (order key) ⟨key, ctx.generation⟩ m ctx = advanced at *
      obtain ⟨m1, next, isOver⟩ := advanced
      have htable := (hturn.settle m m1 key ctx next hslot).2
      have hstays : ctx.Stays next := hturn.stays
      have hothers : ∀ j, j ≠ key → (m1.setLookup key next).table j = m.table j := by
        intro j hj
        rw [htable, Function.update_of_ne hj]
      have hall : ∀ j, Option.Rel LookupCtx.Stays (m.table j) ((m1.setLookup key next).table j) := by
        intro j
        by_cases hj : j = key
        · rw [hj, hslot, htable, Function.update_self]
          exact .some hstays
        · rw [hothers j hj]
          exact rel_stays_refl _ _
      have hlater : Later m.clock (m1.setLookup key next).clock := hturn.clock
      have hsaid : (m1.setLookup key next).events.queue = m.events.queue ++
          (entries.map (Event.lookup ⟨key, ctx.generation⟩)).map Slot.terminal := by
        rw [List.map_map]
        exact hqueue
      have hown : Seats m.table ⟨key, ctx.generation⟩ := ⟨ctx, hslot, rfl⟩
      -- the rest of the walk, from the slots as this turn leaves them
      have hjoin : ∀ (found : List LookupHandle),
          found = (if isOver = true then [⟨key, ctx.generation⟩] else []) →
          ∃ said finished, (advanceSlots order rest (m1.setLookup key next) (before ++ found)).2 =
              before ++ finished ∧
            Round m (advanceSlots order rest (m1.setLookup key next) (before ++ found)).1
              (key :: rest) said finished := by
        intro found hfound
        have hone : ∀ handle ∈ found, handle = ⟨key, ctx.generation⟩ := by
          intro handle hhandle
          rw [hfound] at hhandle
          split at hhandle
          · exact List.mem_singleton.mp hhandle
          · cases hhandle
        obtain ⟨said, finished, hmore, hr⟩ := ih hrest (m1.setLookup key next) (before ++ found)
        refine ⟨entries.map (.lookup ⟨key, ctx.generation⟩) ++ said, found ++ finished, ?_, ?_, ?_,
          ?_, hlater.trans _ _ _ hr.clock, ?_, ?_, ?_, ?_⟩
        · rw [hmore, List.append_assoc]
        · rw [hr.queue, hsaid, List.map_append, List.append_assoc]
        · intro j
          have h1 := hall j
          have h2 := hr.table j
          generalize m.table j = x at *
          generalize (m1.setLookup key next).table j = y at *
          generalize (advanceSlots order rest (m1.setLookup key next) (before ++ found)).1.table j =
            z at *
          cases h1 with
          | none =>
            cases h2 with
            | none => exact .none
          | some hs =>
            cases h2 with
            | some hs' => exact .some (hs.trans _ _ _ hs')
        · rw [hr.generation]
          show m1.lookups.nextGeneration = m.lookups.nextGeneration
          rw [show m1.lookups = m.lookups from hturn.lookups]
        · intro event hevent
          rcases List.mem_append.mp hevent with hin | hin
          · obtain ⟨entry, -, rfl⟩ := List.mem_map.mp hin
            exact ⟨_, entry, rfl, List.mem_cons_self, hown⟩
          · obtain ⟨handle, entry, he, hkey, hseat⟩ := hr.told event hin
            exact ⟨handle, entry, he, List.mem_cons_of_mem _ hkey, hseat.back _ _ _ (hall _)⟩
        · intro handle hhandle
          rcases List.mem_append.mp hhandle with hin | hin
          · rw [hone handle hin]
            exact ⟨List.mem_cons_self, hown⟩
          · obtain ⟨hkey, hseat⟩ := hr.ended handle hin
            exact ⟨List.mem_cons_of_mem _ hkey, hseat.back _ _ _ (hall _)⟩
        · rw [List.nodup_append]
          refine ⟨?_, hr.once, fun a ha b hb hab => ?_⟩
          · rw [hfound]
            split
            · exact List.nodup_singleton _
            · exact List.nodup_nil
          · have hkey := (hr.ended b hb).1
            rw [← hab, hone a ha] at hkey
            exact hnot hkey
        · intro hclock handle hkey other hother hgen hpast
          by_cases hsame : handle.key = key
          · rw [hsame, hslot] at hother
            cases hother
            have heq : handle = ⟨key, ctx.generation⟩ := by
              rw [← hsame, hgen]
            apply List.mem_append_left
            rw [hfound, show isOver = true from hexpired hpast, if_pos rfl, heq]
            exact List.mem_singleton_self _
          · have hkey' : handle.key ∈ rest := by
              rcases List.mem_cons.mp hkey with h | h
              · exact absurd h hsame
              · exact h
            apply List.mem_append_right
            obtain ⟨k, hk⟩ := hlater
            refine hr.expired (Later.monotone _ _ ⟨k, hk⟩ hclock) handle hkey' other ?_ hgen ?_
            · rw [hothers _ hsame, hother]
            · rw [hk]
              exact isExpired_later other _ _ (hclock (Nat.zero_le _)) hpast
      cases isOver with
      | true => exact hjoin _ rfl
      | false =>
        have hnone := hjoin [] rfl
        rw [List.append_nil] at hnone
        exact hnone


theorem retireLookups_round (handles : List LookupHandle) (hn : handles.Nodup)
    (m : Mdns I QS AN EV LK) (hlive : ∀ handle ∈ handles, Seats m.table handle) :
    (handles.foldl retireLookup m).events.queue =
        m.events.queue ++ (handles.map Event.lookupDone).map Slot.terminal ∧
      (handles.foldl retireLookup m).lookups.nextGeneration = m.lookups.nextGeneration ∧
      (handles.foldl retireLookup m).clock = m.clock ∧
      (∀ key, (∀ handle ∈ handles, handle.key ≠ key) →
        (handles.foldl retireLookup m).table key = m.table key) ∧
      ∀ handle ∈ handles, (handles.foldl retireLookup m).table handle.key = none := by
  induction handles generalizing m with
  | nil => exact ⟨(List.append_nil _).symm, rfl, rfl, fun _ _ => rfl, nofun⟩
  | cons first rest ih =>
    obtain ⟨hnot, hrest⟩ := List.nodup_cons.mp hn
    obtain ⟨ctx, hslot, hgen⟩ := hlive first List.mem_cons_self
    have hchecked : m.getChecked first = some ctx := by
      rw [getChecked, show Pool.get m.lookups.slab first.key = some ctx from hslot,
        Option.filter_some, if_pos (decide_eq_true hgen)]
    obtain ⟨-, hclock, hevents, -, hleft⟩ := m.cancelLookup_spec first
    obtain ⟨htable, hnext⟩ := hleft ctx hchecked
    change (m.retireLookup first).table = _ at htable
    have hkeys : ∀ handle ∈ rest, handle.key ≠ first.key := by
      intro handle hhandle hsame
      obtain ⟨other, hother, hgen'⟩ := hlive handle (List.mem_cons_of_mem _ hhandle)
      rw [hsame, hslot] at hother
      cases hother
      have heq : handle = first := by
        cases handle
        cases first
        simp only at hsame hgen hgen'
        rw [hsame, ← hgen', hgen]
      rw [heq] at hhandle
      exact hnot hhandle
    obtain ⟨hqueue, hgens, hclocks, hkept, hgone⟩ := ih hrest (m.retireLookup first) fun h hh => by
      rw [Seats, htable, Function.update_of_ne (hkeys h hh)]
      exact hlive h (List.mem_cons_of_mem _ hh)
    rw [List.foldl_cons]
    refine ⟨?_, hgens.trans hnext, hclocks.trans hclock, fun key hkey => ?_, fun handle hhandle => ?_⟩
    · rw [hqueue]
      show ((m.cancelLookup first).events.pushTerminal _).queue ++ _ = _
      rw [hevents, EventQueue.pushTerminal, List.append_assoc]
      rfl
    · rw [hkept key fun h hh => hkey h (List.mem_cons_of_mem _ hh), htable,
        Function.update_of_ne (hkey first List.mem_cons_self).symm]
    · rcases List.mem_cons.mp hhandle with rfl | hin
      · rw [hkept _ hkeys, htable, Function.update_self]
      · exact hgone handle hin

/-- What a tick does with the lookups: it tells of their entries, and then of the lookups that have
finished, which are gone. -/
structure Rounds (m m' : Mdns I QS AN EV LK) (told : List Event) (finished : List LookupHandle) :
    Prop where
  queue : m'.events.queue =
    m.events.queue ++ (told ++ finished.map Event.lookupDone).map Slot.terminal
  told : ∀ event ∈ told, ∃ handle entry, event = .lookup handle entry ∧ Seats m.table handle
  ended : ∀ handle ∈ finished, Seats m.table handle ∧ m'.table handle.key = none
  once : finished.Nodup
  others : ∀ key, (∀ handle ∈ finished, handle.key ≠ key) →
    Option.Rel LookupCtx.Stays (m.table key) (m'.table key)
  generation : m'.lookups.nextGeneration = m.lookups.nextGeneration
  clock : Later m.clock m'.clock
  expired : Monotone m.clock → ∀ handle ctx, m.table handle.key = some ctx →
    ctx.generation = handle.generation → ctx.isExpired (m.clock 0) = true → handle ∈ finished

theorem advanceLookups_rounds [OrderedPool LK] (order : Nat → HashOrder) (m : Mdns I QS AN EV LK) :
    ∃ told finished, Rounds m (advanceLookups order m) told finished := by
  have hkeys : ((Pool.iter m.lookups.slab).map Prod.fst).Nodup := by
    have hordered := OrderedPool.ordered m.lookups.slab
    rw [List.nodup_map_iff_inj_on]
    · intro a ha b hb hab
      have ha' := (LawfulPool.mem_iter m.lookups.slab a.1 a.2).mp ha
      have hb' := (LawfulPool.mem_iter m.lookups.slab b.1 b.2).mp hb
      rw [hab, hb'] at ha'
      exact Prod.ext hab (Option.some.inj ha').symm
    · exact hordered.imp fun hlt heq => by
        rw [heq] at hlt
        exact Nat.lt_irrefl _ hlt
  obtain ⟨told, finished, hmore, hr⟩ := advanceSlots_round order _ hkeys m []
  rw [advanceLookups]
  generalize advanceSlots order ((Pool.iter m.lookups.slab).map Prod.fst) m [] = advanced at *
  obtain ⟨m1, ended⟩ := advanced
  rw [List.nil_append] at hmore
  simp only at hmore hr ⊢
  subst hmore
  obtain ⟨hqueue, hgens, hclock, hkept, hgone⟩ := retireLookups_round ended hr.once m1
    fun handle hhandle => (hr.ended handle hhandle).2.ahead _ _ _ (hr.table _)
  refine ⟨told, ended, ?_, fun event hevent => ?_, fun handle hhandle => ?_, hr.once,
    fun key hkey => ?_, hgens.trans hr.generation, ?_, fun hmono handle ctx hctx hgen hpast => ?_⟩
  · rw [hqueue, hr.queue, List.map_append, List.append_assoc]
  · obtain ⟨handle, entry, he, -, hseat⟩ := hr.told event hevent
    exact ⟨handle, entry, he, hseat⟩
  · exact ⟨(hr.ended handle hhandle).2, hgone handle hhandle⟩
  · rw [hkept key hkey]
    exact hr.table key
  · rw [hclock]
    exact hr.clock
  · refine hr.expired hmono handle ?_ ctx hctx hgen hpast
    rw [List.mem_map]
    exact ⟨(handle.key, ctx), (LawfulPool.mem_iter _ _ _).mpr hctx, rfl⟩

end
end Mdns
end Hick
