import Hick.Routing.Reading

/-!
# Routing to the end (endpoint/route.rs:808-1447)

What a half-routed datagram still calls for is read off the cursors.
-/

set_option linter.unusedSectionVars false

namespace Hick
open Octets Wire Drain

section
variable {I G R : Type} {SR QS EV AN EvQ : Type → Type} [Instant I] [SeedSource G]
  [SeedableRng R] [Pool SR] [Pool QS] [Pool EV] [Pool AN] [Pool EvQ]

namespace Endpoint

def history (e : Endpoint I G R SR EV) (now : I) (family : Family) (r : Ref)
    (sect : RecordSection) : ConflictHistory :=
  if e.relinquishedAsserts r now family sect then .relinquished else .unmatched

end Endpoint

namespace RouteEvents

def scene (s : RouteEvents I G R SR QS EV AN EvQ) : Scene I AN EvQ where
  src := s.src
  reader := s.reader
  now := s.now
  datagram := s.datagram
  admits := s.admits
  table := s.endpoint.table
  queries := Pool.iter s.queries
  history := s.endpoint.history s.now (Family.of s.src)

theorem scene_dispatch [OrderedPool SR] (s : RouteEvents I G R SR QS EV AN EvQ) (key : Nat)
    (event : ServiceEvent) : (s.dispatch key event).scene = s.scene := by
  have hhistory : (s.endpoint.dispatch key event s.now).history s.now (Family.of s.src) =
      s.endpoint.history s.now (Family.of s.src) := by
    funext r sect
    rw [Endpoint.history, Endpoint.history, Endpoint.relinquishedAsserts_dispatch]
  rw [scene, scene, Scene.mk.injEq]
  exact ⟨rfl, rfl, rfl, rfl, rfl, s.endpoint.table_dispatch key event s.now, rfl, hhistory⟩

def recordAt (reader : MessageReader) : RecordSlot → Option (Except ParseError Ref)
  | .answer i => reader.answers[i]?
  | .authority i => reader.authority[i]?
  | .additional i => reader.additional[i]?

/-- The iterator routes this scene, and the history it keeps is that of the slot it keeps it
for. -/
structure Routes (sc : Scene I AN EvQ) (s : RouteEvents I G R SR QS EV AN EvQ) : Prop where
  scene : s.scene = sc
  response : s.isResponse = sc.isResponse
  kept : ∀ slot history, s.relinquishedScreen = some (slot, history) →
    ∀ r, recordAt s.reader slot = some (.ok r) → history = sc.history r slot.sect

variable (sc : Scene I AN EvQ) (s : RouteEvents I G R SR QS EV AN EvQ)
  (event : Ref → RouteView → Option ServiceEvent)

theorem Routes.same (s t : RouteEvents I G R SR QS EV AN EvQ)
    (h : Routes sc s) (hscene : t.scene = s.scene) (hresponse : t.isResponse = s.isResponse)
    (hreader : t.reader = s.reader) (hscreen : t.relinquishedScreen = s.relinquishedScreen) :
    Routes sc t := by
  refine ⟨hscene.trans h.scene, hresponse.trans h.response, ?_⟩
  rw [hscreen, hreader]
  exact h.kept

theorem Routes.dispatched [OrderedPool SR] (sc : Scene I AN EvQ)
    (s : RouteEvents I G R SR QS EV AN EvQ) (h : Routes sc s) (key : Nat) (event : ServiceEvent) :
    Routes sc (s.dispatch key event) :=
  h.same sc s _ (s.scene_dispatch key event) rfl rfl rfl

theorem Routes.reader (h : Routes sc s) : s.reader = sc.reader := by
  rw [← h.scene]
  rfl

theorem Routes.src (h : Routes sc s) : s.src = sc.src := by
  rw [← h.scene]
  rfl

theorem Routes.admits (h : Routes sc s) : s.admits = sc.admits := by
  rw [← h.scene]
  rfl

theorem Routes.table [OrderedPool SR] (h : Routes sc s) :
    sc.table.Pairwise fun a b => a.1 < b.1 := by
  rw [← h.scene]
  exact s.endpoint.table_ordered

def leftQuestions (sc : Scene I AN EvQ) (s : RouteEvents I G R SR QS EV AN EvQ) :
    List RouteOutput :=
  if sc.readsQuestions then
    Scene.resume (fun q => sc.services (sc.asked q) s.serviceCursor) sc.questionOutputs
      (sc.reader.questions.drop s.questionIdx)
  else []

def leftRecord (sc : Scene I AN EvQ) (event : Ref → RouteView → Option ServiceEvent)
    (serviceDone : Bool) (serviceCursor queryCursor : Option Nat) (r : Ref) : List RouteOutput :=
  Scene.positive r ((if serviceDone then [] else sc.services (event r) (serviceCursor.getD 0)) ++
    sc.audience r (queryCursor.getD 0))

def leftAnswers (sc : Scene I AN EvQ) (s : RouteEvents I G R SR QS EV AN EvQ) :
    List RouteOutput :=
  Scene.resume (leftRecord sc sc.answered s.answerServiceDone s.answerServiceCursor
    s.answerQueryCursor) sc.answerOutputs (sc.reader.answers.drop s.answerIdx)

def leftProposals (sc : Scene I AN EvQ) (s : RouteEvents I G R SR QS EV AN EvQ) :
    List RouteOutput :=
  if !sc.isResponse && sc.readsAuthority then
    sc.services (proposalOf sc.src sc.reader sc.datagram) (s.proposalServiceCursor.getD 0)
  else []

def authorityEvent (sc : Scene I AN EvQ) (r : Ref) : RouteView → Option ServiceEvent :=
  if sc.isResponse then sc.contested .authority r else sc.proposed r

def leftAuthority (sc : Scene I AN EvQ) (s : RouteEvents I G R SR QS EV AN EvQ) :
    List RouteOutput :=
  if sc.readsAuthority then
    Scene.resume
      (fun r => Scene.positive r (sc.services (authorityEvent sc r)
        (s.authorityServiceCursor.getD 0)))
      sc.authorityOutputs (sc.reader.authority.drop s.authorityIdx)
  else []

def leftAdditional (sc : Scene I AN EvQ) (s : RouteEvents I G R SR QS EV AN EvQ) :
    List RouteOutput :=
  if sc.isResponse then
    Scene.resume (leftRecord sc (sc.contested .additional) s.additionalServiceDone
      s.additionalServiceCursor s.additionalQueryCursor) sc.additionalOutputs
      (sc.reader.additional.drop s.additionalIdx)
  else []

def leftFrom (sc : Scene I AN EvQ) (s : RouteEvents I G R SR QS EV AN EvQ) :
    RouteSection → List RouteOutput
  | .done => []
  | .additional => leftAdditional sc s
  | .authority => leftAuthority sc s ++ leftAdditional sc s
  | .authorityProposals => leftProposals sc s ++ (leftAuthority sc s ++ leftAdditional sc s)
  | .answers =>
    leftAnswers sc s ++ (leftProposals sc s ++ (leftAuthority sc s ++ leftAdditional sc s))
  | .questions =>
    leftQuestions sc s ++ (leftAnswers sc s ++
      (leftProposals sc s ++ (leftAuthority sc s ++ leftAdditional sc s)))

def left (sc : Scene I AN EvQ) (s : RouteEvents I G R SR QS EV AN EvQ) : List RouteOutput :=
  leftFrom sc s s.sect

def fanOutLeft (sc : Scene I AN EvQ) (serviceDone : Bool) (serviceCursor queryCursor : Option Nat) :
    Nat × Nat :=
  if serviceDone then (0, ahead (queryCursor.getD 0) sc.queries)
  else (1, ahead (serviceCursor.getD 0) sc.table)

def distance (sc : Scene I AN EvQ) (s : RouteEvents I G R SR QS EV AN EvQ) :
    Nat × Nat × Nat × Nat :=
  match s.sect with
  | .questions =>
    (5, sc.reader.questions.length - s.questionIdx, 0, ahead s.serviceCursor sc.table)
  | .answers => (4, sc.reader.answers.length - s.answerIdx,
      fanOutLeft sc s.answerServiceDone s.answerServiceCursor s.answerQueryCursor)
  | .authorityProposals => (3, 0, 0, ahead (s.proposalServiceCursor.getD 0) sc.table)
  | .authority => (2, sc.reader.authority.length - s.authorityIdx, 0,
      ahead (s.authorityServiceCursor.getD 0) sc.table)
  | .additional => (1, sc.reader.additional.length - s.additionalIdx,
      fanOutLeft sc s.additionalServiceDone s.additionalServiceCursor s.additionalQueryCursor)
  | .done => (0, 0, 0, 0)

def Nearer : Nat × Nat × Nat × Nat → Nat × Nat × Nat × Nat → Prop :=
  Prod.Lex (· < ·) (Prod.Lex (· < ·) (Prod.Lex (· < ·) (· < ·)))

theorem nearer_wellFounded : WellFounded Nearer :=
  WellFounded.prod_lex wellFounded_lt
    (WellFounded.prod_lex wellFounded_lt (WellFounded.prod_lex wellFounded_lt wellFounded_lt))

def change (now : I) (e : Endpoint I G R SR EV) : RouteOutput → Endpoint I G R SR EV
  | .service key event => e.dispatch key event now
  | .toQuery _ _ => e
  | .failed _ => e

abbrev Keeps (sc : Scene I AN EvQ) (s : RouteEvents I G R SR QS EV AN EvQ) :
    RouteMove I G R SR QS EV AN EvQ → Prop :=
  Follows (Routes sc) (left sc) RouteEvents.endpoint (change sc.now) (distance sc) Nearer s

theorem services_some (hordered : sc.table.Pairwise fun a b => a.1 < b.1)
    (event : RouteView → Option ServiceEvent) (start key : Nat) (ev : ServiceEvent)
    (h : scan event start sc.table = some (key, ev)) :
    sc.services event start = .service key ev :: sc.services event (key + 1) ∧
      ahead (key + 1) sc.table < ahead start sc.table := by
  obtain ⟨hhits, hahead⟩ := scan_some event start key ev sc.table hordered h
  rw [Scene.services, Scene.services, hhits]
  exact ⟨rfl, hahead⟩

theorem services_none (event : RouteView → Option ServiceEvent) (start : Nat)
    (h : scan event start sc.table = none) : sc.services event start = [] := by
  rw [Scene.services, scan_none event start sc.table h]
  rfl

theorem audience_some (hordered : sc.queries.Pairwise fun a b => a.1 < b.1)
    (hheard : (sc.isResponse && sc.admits.observation) = true) (r : Ref) (start key : Nat)
    (handle : QueryHandle) (h : scan (heardBy sc.now r) start sc.queries = some (key, handle)) :
    sc.audience r start = .toQuery handle r :: sc.audience r (key + 1) ∧
      ahead (key + 1) sc.queries < ahead start sc.queries := by
  obtain ⟨hhits, hahead⟩ := scan_some (heardBy sc.now r) start key handle sc.queries hordered h
  rw [Scene.audience, Scene.audience, if_pos hheard, if_pos hheard, hhits]
  exact ⟨rfl, hahead⟩

theorem audience_none (r : Ref) (start : Nat)
    (h : scan (heardBy sc.now r) start sc.queries = none) : sc.audience r start = [] := by
  rw [Scene.audience, scan_none (heardBy sc.now r) start sc.queries h]
  split <;> rfl

structure Searched (sc : Scene I AN EvQ) (s : RouteEvents I G R SR QS EV AN EvQ)
    (event : RouteView → Option ServiceEvent) (start : Nat)
    (result : Option (Nat × ServiceEvent) × RouteEvents I G R SR QS EV AN EvQ) : Prop where
  found : result.1 = scan event start sc.table
  only : ∃ screen, result.2 = { s with relinquishedScreen := screen }
  routes : Routes sc result.2

theorem Searched.nothing (h : Routes sc s) (event : RouteView → Option ServiceEvent) (start : Nat)
    (hevent : ∀ v, event v = none) : Searched sc s event start (none, s) := by
  refine ⟨?_, ⟨s.relinquishedScreen, rfl⟩, h⟩
  cases hscan : scan event start sc.table with
  | none => rfl
  | some found =>
    obtain ⟨key, ev⟩ := found
    obtain ⟨-, v, -, hsome⟩ := scan_mem event start key ev sc.table hscan
    rw [hevent v] at hsome
    cases hsome

theorem relinquishedScreens_spec (h : Routes sc s) (r : Ref) (slot : RecordSlot)
    (hr : recordAt s.reader slot = some (.ok r)) :
    (s.relinquishedScreens r slot).1 = sc.history r slot.sect ∧
      (∃ screen, (s.relinquishedScreens r slot).2 = { s with relinquishedScreen := screen }) ∧
      Routes sc (s.relinquishedScreens r slot).2 := by
  have hfresh : s.endpoint.history s.now (Family.of s.src) r slot.sect =
      sc.history r slot.sect := by
    rw [← h.scene]
    rfl
  have hlooked : Routes sc { s with
      relinquishedScreen := some (slot, sc.history r slot.sect) } := by
    refine ⟨h.scene, h.response, ?_⟩
    intro slot' history heq r' hr'
    obtain ⟨rfl, rfl⟩ := Prod.mk.inj (Option.some.inj heq)
    have hsame : r' = r := Except.ok.inj (Option.some.inj (hr'.symm.trans hr))
    rw [hsame]
  rw [Endpoint.history] at hfresh
  rw [relinquishedScreens]
  simp only [hfresh]
  cases hscreen : s.relinquishedScreen with
  | none => exact ⟨rfl, ⟨_, rfl⟩, hlooked⟩
  | some kept =>
    obtain ⟨cached, answer⟩ := kept
    simp only
    split
    · rename_i hcached
      subst hcached
      exact ⟨h.kept cached answer hscreen r hr, ⟨s.relinquishedScreen, rfl⟩, h⟩
    · exact ⟨rfl, ⟨_, rfl⟩, hlooked⟩

theorem nextServiceConflict_spec (h : Routes sc s) (hadmits : s.admits.adjudication = true)
    (r : Ref) (start : Nat)
    (slot : RecordSlot) (hr : recordAt s.reader slot = some (.ok r)) :
    Searched sc s (sc.contested slot.sect r) start
      (s.nextServiceConflict r start .authoritativeResponse slot) := by
  have hadmits' : sc.admits.adjudication = true := by
    rw [← h.scene]
    exact hadmits
  rw [nextServiceConflict]
  by_cases hclass : r.rclass = .in_
  · rw [if_neg (not_not.mpr hclass)]
    obtain ⟨hhistory, hscreen, hroutes⟩ := relinquishedScreens_spec sc s h r slot hr
    generalize hlook : s.relinquishedScreens r slot = looked at hhistory hscreen hroutes
    obtain ⟨history, s'⟩ := looked
    obtain ⟨screen, hs'⟩ := hscreen
    simp only at hhistory hs' hroutes ⊢
    refine ⟨?_, ⟨screen, hs'⟩, hroutes⟩
    have hevent : sc.contested slot.sect r =
        conflictOf s'.src r .authoritativeResponse s'.datagram history := by
      funext v
      rw [Scene.contested, if_pos ⟨hclass, hadmits'⟩, hhistory, ← hroutes.scene]
      rfl
    rw [hevent, ← hroutes.scene]
    rfl
  · rw [if_pos hclass]
    apply Searched.nothing sc s h
    intro v
    rw [Scene.contested, if_neg fun hboth => hclass hboth.1]

theorem nextHostConflict_spec (h : Routes sc s) (r : Ref) (start i : Nat)
    (hr : recordAt s.reader (.authority i) = some (.ok r)) :
    Searched sc s (sc.proposed r) start
      (s.nextHostConflict r start .tentativeProbe (.authority i)) := by
  rw [nextHostConflict]
  by_cases hclass : r.rclass = .in_
  · rw [if_neg (not_not.mpr hclass)]
    obtain ⟨hhistory, hscreen, hroutes⟩ := relinquishedScreens_spec sc s h r (.authority i) hr
    generalize hlook : s.relinquishedScreens r (.authority i) = looked at hhistory hscreen hroutes
    obtain ⟨history, s'⟩ := looked
    obtain ⟨screen, hs'⟩ := hscreen
    simp only at hhistory hs' hroutes ⊢
    have hhistory' : history = sc.history r .authority := hhistory
    by_cases hours : history = .relinquished
    · rw [if_pos hours]
      have hnothing : Searched sc s' (sc.proposed r) start (none, s') := by
        apply Searched.nothing sc s' hroutes
        intro v
        rw [Scene.proposed, if_neg]
        rintro ⟨-, hother⟩
        exact hother (hhistory'.symm.trans hours)
      exact ⟨hnothing.found, ⟨screen, hs'⟩, hroutes⟩
    · rw [if_neg hours]
      refine ⟨?_, ⟨screen, hs'⟩, hroutes⟩
      have hevent : sc.proposed r = hostConflictOf r .tentativeProbe s'.datagram := by
        funext v
        rw [Scene.proposed, if_pos ⟨hclass, hhistory' ▸ hours⟩, ← hroutes.scene]
        rfl
      rw [hevent, ← hroutes.scene]
      rfl
  · rw [if_pos hclass]
    apply Searched.nothing sc s h
    intro v
    rw [Scene.proposed, if_neg fun hboth => hclass hboth.1]

theorem nearer_section (a b : Nat) (x y : Nat × Nat × Nat) (h : a < b) : Nearer (a, x) (b, y) :=
  Prod.Lex.left _ _ h

theorem nearer_item (a i j : Nat) (x y : Nat × Nat) (h : i < j) : Nearer (a, i, x) (a, j, y) :=
  Prod.Lex.right _ (Prod.Lex.left _ _ h)

theorem nearer_fanOut (a i : Nat) (x y : Nat × Nat)
    (h : Prod.Lex (· < ·) (· < ·) x y) : Nearer (a, i, x) (a, i, y) :=
  Prod.Lex.right _ (Prod.Lex.right _ h)

theorem items_left {α : Type} (items : List α) (i : Nat) (a : α) (h : items[i]? = some a) :
    items.length - (i + 1) < items.length - i := by
  obtain ⟨hlt, -⟩ := List.getElem?_eq_some_iff.mp h
  omega

theorem leftRecord_goodbye (done : Bool) (cursor queryCursor : Option Nat) (r : Ref)
    (h : r.ttl = 0) :
    leftRecord sc event done cursor queryCursor r = [] := by
  rw [leftRecord, Scene.positive, if_pos h]

theorem leftRecord_service (hordered : sc.table.Pairwise fun a b => a.1 < b.1)
    (event : Ref → RouteView → Option ServiceEvent) (cursor queryCursor : Option Nat) (r : Ref)
    (hr : r.ttl ≠ 0) (key : Nat) (ev : ServiceEvent)
    (h : scan (event r) (cursor.getD 0) sc.table = some (key, ev)) :
    leftRecord sc event false cursor queryCursor r =
        .service key ev :: leftRecord sc event false (some (key + 1)) queryCursor r ∧
      Prod.Lex (· < ·) (· < ·) (fanOutLeft sc false (some (key + 1)) queryCursor)
        (fanOutLeft sc false cursor queryCursor) := by
  obtain ⟨hleft, hahead⟩ := services_some sc hordered (event r) (cursor.getD 0) key ev h
  constructor
  · rw [leftRecord, leftRecord, Scene.positive, Scene.positive, if_neg hr, if_neg hr,
      if_neg Bool.false_ne_true, if_neg Bool.false_ne_true, hleft]
    rfl
  · exact Prod.Lex.right _ hahead

def ServicesDone (sc : Scene I AN EvQ) (event : Ref → RouteView → Option ServiceEvent)
    (done : Bool) (cursor : Option Nat) (r : Ref) : Prop :=
  done = true ∨ scan (event r) (cursor.getD 0) sc.table = none

theorem leftRecord_services_done (done : Bool) (cursor queryCursor : Option Nat)
    (r : Ref) (hr : r.ttl ≠ 0) (h : ServicesDone sc event done cursor r) :
    leftRecord sc event done cursor queryCursor r = sc.audience r (queryCursor.getD 0) := by
  rw [leftRecord, Scene.positive, if_neg hr]
  rcases h with rfl | hnone
  · rfl
  · rw [services_none sc (event r) (cursor.getD 0) hnone, ite_self]
    rfl

theorem leftRecord_query (hordered : sc.queries.Pairwise fun a b => a.1 < b.1)
    (hheard : (sc.isResponse && sc.admits.observation) = true)
    (event : Ref → RouteView → Option ServiceEvent) (done : Bool) (cursor queryCursor : Option Nat)
    (r : Ref) (hr : r.ttl ≠ 0) (hdone : ServicesDone sc event done cursor r) (key : Nat)
    (handle : QueryHandle)
    (h : scan (heardBy sc.now r) (queryCursor.getD 0) sc.queries = some (key, handle)) :
    leftRecord sc event done cursor queryCursor r =
        .toQuery handle r :: leftRecord sc event true cursor (some (key + 1)) r ∧
      Prod.Lex (· < ·) (· < ·) (fanOutLeft sc true cursor (some (key + 1)))
        (fanOutLeft sc done cursor queryCursor) := by
  obtain ⟨hleft, hahead⟩ := audience_some sc hordered hheard r (queryCursor.getD 0) key handle h
  constructor
  · rw [leftRecord_services_done sc event done cursor queryCursor r hr hdone,
      leftRecord_services_done sc event true cursor (some (key + 1)) r hr (Or.inl rfl), hleft]
    rfl
  · cases done with
    | true => exact Prod.Lex.right _ hahead
    | false => exact Prod.Lex.left _ _ Nat.zero_lt_one

theorem leftRecord_none (done : Bool) (cursor queryCursor : Option Nat) (r : Ref) (hr : r.ttl ≠ 0)
    (hdone : ServicesDone sc event done cursor r)
    (h : (sc.isResponse && sc.admits.observation) = true →
      scan (heardBy sc.now r) (queryCursor.getD 0) sc.queries = none) :
    leftRecord sc event done cursor queryCursor r = [] := by
  rw [leftRecord_services_done sc event done cursor queryCursor r hr hdone]
  cases hheard : sc.isResponse && sc.admits.observation with
  | true => exact audience_none sc r _ (h hheard)
  | false =>
    rw [Scene.audience, hheard]
    rfl

theorem nextAnswerService_spec (h : Routes sc s) (r : Ref)
    (hr : sc.reader.answers[s.answerIdx]? = some (.ok r)) :
    Searched sc s (sc.answered r) (s.answerServiceCursor.getD 0) (s.nextAnswerService r) := by
  have hreader := h.reader sc s
  have hadmits := h.admits sc s
  rw [nextAnswerService, h.response]
  cases hresponse : sc.isResponse with
  | true =>
    have hevent : sc.answered r = sc.contested .answer r := by
      funext v
      rw [Scene.answered, hresponse, if_pos rfl]
    rw [if_pos rfl, hevent]
    split
    · rename_i hadjudicates
      apply nextServiceConflict_spec sc s h hadjudicates r _ (.answer s.answerIdx)
      rw [recordAt, hreader]
      exact hr
    · rename_i hdenied
      apply Searched.nothing sc s h
      intro v
      rw [Scene.contested, if_neg]
      rintro ⟨-, hadjudicates⟩
      exact hdenied (hadmits ▸ hadjudicates)
  | false =>
    have hevent : sc.answered r = fun v =>
        if sc.admits.quieting then knownAnswerOf sc.src r v else none := by
      funext v
      rw [Scene.answered, hresponse, if_neg Bool.false_ne_true]
    rw [if_neg Bool.false_ne_true, hadmits, hevent]
    cases sc.admits.quieting with
    | true =>
      refine ⟨?_, ⟨s.relinquishedScreen, rfl⟩, h⟩
      rw [← h.scene]
      rfl
    | false =>
      apply Searched.nothing sc s h
      intro v
      rfl

theorem left_answers (h : s.sect = .answers) :
    left sc s = leftAnswers sc s ++ leftFrom sc s .authorityProposals := by
  rw [left, h]
  rfl

theorem leftAnswers_ok (r : Ref)
    (hr : sc.reader.answers[s.answerIdx]? = some (.ok r)) : leftAnswers sc s =
      leftRecord sc sc.answered s.answerServiceDone s.answerServiceCursor s.answerQueryCursor r ++
        Scene.walk sc.answerOutputs (sc.reader.answers.drop (s.answerIdx + 1)) :=
  Scene.resume_ok _ _ _ _ r hr

theorem distance_answers (h : s.sect = .answers) : distance sc s =
    (4, sc.reader.answers.length - s.answerIdx,
      fanOutLeft sc s.answerServiceDone s.answerServiceCursor s.answerQueryCursor) := by
  rw [distance, h]

theorem nextAnswer_keeps (h : Routes sc s) (hsect : s.sect = .answers) (r : Ref)
    (hr : sc.reader.answers[s.answerIdx]? = some (.ok r))
    (hnone : leftRecord sc sc.answered s.answerServiceDone s.answerServiceCursor
      s.answerQueryCursor r = []) : Keeps sc s (.quiet s.nextAnswer) := by
  refine ⟨h.same sc s _ rfl rfl rfl rfl, ?_, ?_, rfl⟩
  · rw [distance_answers sc s hsect, distance_answers sc s.nextAnswer hsect]
    exact nearer_item _ _ _ _ _ (items_left _ _ _ hr)
  · have hwalk : leftAnswers sc s.nextAnswer =
        Scene.walk sc.answerOutputs (sc.reader.answers.drop (s.answerIdx + 1)) :=
      Scene.resume_self sc.answerOutputs _
    rw [left_answers sc s hsect, left_answers sc s.nextAnswer hsect, leftAnswers_ok sc s r hr,
      hnone, hwalk]
    rfl

theorem answerQueriesStep_eq (h : Routes sc s) (r : Ref) :
    s.answerQueriesStep r =
      if sc.isResponse && sc.admits.observation then
        match scan (heardBy sc.now r) (s.answerQueryCursor.getD 0) sc.queries with
        | some (key, handle) => .yield_ (.toQuery handle r) { s with
            answerServiceDone := true
            answerQueryCursor := some (key + 1) }
        | none => .quiet s.nextAnswer
      else .quiet s.nextAnswer := by
  rw [← h.response, ← h.scene]
  rfl

theorem answerQueriesStep_keeps [OrderedPool QS] (sc : Scene I AN EvQ)
    (s : RouteEvents I G R SR QS EV AN EvQ) (h : Routes sc s) (hsect : s.sect = .answers) (r : Ref)
    (hr : sc.reader.answers[s.answerIdx]? = some (.ok r)) (httl : r.ttl ≠ 0)
    (hdone : ServicesDone sc sc.answered s.answerServiceDone s.answerServiceCursor r) :
    Keeps sc s (s.answerQueriesStep r) := by
  have hqueries : Pool.iter s.queries = sc.queries := by
    rw [← h.scene]
    rfl
  have hordered : sc.queries.Pairwise fun a b => a.1 < b.1 := by
    rw [← hqueries]
    exact OrderedPool.ordered s.queries
  have hstep := answerQueriesStep_eq sc s h r
  have hnext (hnone : (sc.isResponse && sc.admits.observation) = true →
      scan (heardBy sc.now r) (s.answerQueryCursor.getD 0) sc.queries = none) :
      Keeps sc s (.quiet s.nextAnswer) :=
    nextAnswer_keeps sc s h hsect r hr
      (leftRecord_none sc sc.answered _ _ _ r httl hdone hnone)
  rw [hstep]
  cases hheard : sc.isResponse && sc.admits.observation with
  | false =>
    rw [if_neg Bool.false_ne_true]
    apply hnext
    intro hyes
    rw [hheard] at hyes
    cases hyes
  | true =>
    rw [if_pos rfl]
    cases hscan : scan (heardBy sc.now r) (s.answerQueryCursor.getD 0) sc.queries with
    | none => exact hnext fun _ => hscan
    | some found =>
      obtain ⟨key, handle⟩ := found
      obtain ⟨hleft, hnear⟩ := leftRecord_query sc hordered hheard sc.answered s.answerServiceDone
        s.answerServiceCursor s.answerQueryCursor r httl hdone key handle hscan
      refine ⟨h.same sc s _ rfl rfl rfl rfl, ?_, ?_, rfl⟩
      · rw [distance_answers sc s hsect, distance_answers sc _ (by exact hsect)]
        exact nearer_fanOut _ _ _ _ hnear
      · rw [left_answers sc s hsect, left_answers sc _ (by exact hsect), leftAnswers_ok sc s r hr,
          leftAnswers_ok sc _ r (by exact hr), hleft]
        rfl

theorem answersStep_keeps [OrderedPool SR] [OrderedPool QS] (sc : Scene I AN EvQ)
    (s : RouteEvents I G R SR QS EV AN EvQ) (h : Routes sc s) (hsect : s.sect = .answers) :
    Keeps sc s s.answersStep := by
  have hreader := h.reader sc s
  have hordered := h.table sc s
  -- the section is left once nothing of it is left
  have hleave (hitem : sc.reader.answers[s.answerIdx]? = none) :
      Keeps sc s (.quiet { s with sect := .authorityProposals }) := by
    refine ⟨h.same sc s _ rfl rfl rfl rfl, ?_, ?_, rfl⟩
    · rw [distance_answers sc s hsect]
      exact nearer_section _ _ _ _ (by decide)
    · have hnone : leftAnswers sc s = [] := Scene.resume_end _ _ _ _ hitem
      rw [left_answers sc s hsect, hnone]
      rfl
  rw [answersStep]
  simp only
  split
  · rename_i hpast
    rw [hreader] at hpast
    apply hleave
    apply getElem?_past _ _ _ _ hpast
    exact recordsAt_length _ _ _
  · cases hitem : s.reader.answers[s.answerIdx]? with
    | none =>
      rw [hreader] at hitem
      exact hleave hitem
    | some item =>
      rw [hreader] at hitem
      cases item with
      | error e =>
        refine ⟨h.same sc s _ rfl rfl rfl rfl, ?_, ?_, rfl⟩
        · rw [distance_answers sc s hsect]
          exact nearer_section _ _ _ _ (by decide)
        · have hfailed : leftAnswers sc s = [.failed e] := Scene.resume_error _ _ _ _ e hitem
          rw [left_answers sc s hsect, hfailed]
          rfl
      | ok r =>
        simp only
        split
        · rename_i httl
          exact nextAnswer_keeps sc s h hsect r hitem (leftRecord_goodbye sc _ _ _ _ r httl)
        · rename_i httl
          cases hdone : s.answerServiceDone with
          | true =>
            rw [if_pos rfl]
            exact answerQueriesStep_keeps sc s h hsect r hitem httl (Or.inl hdone)
          | false =>
            rw [if_neg Bool.false_ne_true]
            have hsearched := nextAnswerService_spec sc s h r hitem
            generalize s.nextAnswerService r = looked at hsearched ⊢
            obtain ⟨found, s'⟩ := looked
            obtain ⟨hfound, ⟨screen, hs'⟩, hroutes⟩ := hsearched
            simp only at hfound hs' hroutes
            subst hs'
            cases found with
            | none =>
              exact answerQueriesStep_keeps sc _ hroutes hsect r hitem httl
                (Or.inr hfound.symm)
            | some service =>
              obtain ⟨key, ev⟩ := service
              obtain ⟨hleft, hnear⟩ := leftRecord_service sc hordered sc.answered
                s.answerServiceCursor s.answerQueryCursor r httl key ev hfound.symm
              have hmoved : Routes sc { s with
                  relinquishedScreen := screen
                  answerServiceCursor := some (key + 1) } :=
                hroutes.same sc _ _ rfl rfl rfl rfl
              refine ⟨hmoved.dispatched sc _ key ev, ?_, ?_, ?_⟩
              · rw [distance_answers sc s hsect, distance_answers sc _ (by exact hsect), hdone]
                exact nearer_fanOut _ _ _ _ hnear
              · rw [left_answers sc s hsect, left_answers sc _ (by exact hsect),
                  leftAnswers_ok sc s r hitem, leftAnswers_ok sc _ r (by exact hitem), hdone, hleft]
                rfl
              · rw [← h.scene]
                rfl

theorem nextAdditionalService_spec (h : Routes sc s) (r : Ref)
    (hr : sc.reader.additional[s.additionalIdx]? = some (.ok r)) :
    Searched sc s (sc.contested .additional r) (s.additionalServiceCursor.getD 0)
      (s.nextAdditionalService r) := by
  have hreader := h.reader sc s
  have hadmits := h.admits sc s
  rw [nextAdditionalService]
  split
  · rename_i hadjudicates
    apply nextServiceConflict_spec sc s h hadjudicates r _ (.additional s.additionalIdx)
    rw [recordAt, hreader]
    exact hr
  · rename_i hdenied
    apply Searched.nothing sc s h
    intro v
    rw [Scene.contested, if_neg]
    rintro ⟨-, hadjudicates⟩
    exact hdenied (hadmits ▸ hadjudicates)

theorem left_additional (h : s.sect = .additional) : left sc s = leftAdditional sc s := by
  rw [left, h]
  rfl

theorem leftAdditional_ok (r : Ref)
    (hresponse : sc.isResponse = true)
    (hr : sc.reader.additional[s.additionalIdx]? = some (.ok r)) : leftAdditional sc s =
      leftRecord sc (sc.contested .additional) s.additionalServiceDone s.additionalServiceCursor
        s.additionalQueryCursor r ++
        Scene.walk sc.additionalOutputs (sc.reader.additional.drop (s.additionalIdx + 1)) := by
  rw [leftAdditional, if_pos hresponse]
  exact Scene.resume_ok _ _ _ _ r hr

theorem distance_additional (h : s.sect = .additional) : distance sc s =
      (1, sc.reader.additional.length - s.additionalIdx, fanOutLeft sc s.additionalServiceDone
        s.additionalServiceCursor s.additionalQueryCursor) := by
  rw [distance, h]

theorem nextAdditional_keeps (h : Routes sc s) (hsect : s.sect = .additional)
    (hresponse : sc.isResponse = true) (r : Ref)
    (hr : sc.reader.additional[s.additionalIdx]? = some (.ok r))
    (hnone : leftRecord sc (sc.contested .additional) s.additionalServiceDone
      s.additionalServiceCursor s.additionalQueryCursor r = []) :
    Keeps sc s (.quiet s.nextAdditional) := by
  refine ⟨h.same sc s _ rfl rfl rfl rfl, ?_, ?_, rfl⟩
  · rw [distance_additional sc s hsect, distance_additional sc s.nextAdditional hsect]
    exact nearer_item _ _ _ _ _ (items_left _ _ _ hr)
  · have hwalk : leftAdditional sc s.nextAdditional =
        Scene.walk sc.additionalOutputs (sc.reader.additional.drop (s.additionalIdx + 1)) := by
      rw [leftAdditional, if_pos hresponse]
      exact Scene.resume_self sc.additionalOutputs _
    rw [left_additional sc s hsect, left_additional sc s.nextAdditional hsect,
      leftAdditional_ok sc s r hresponse hr, hnone, hwalk]
    rfl

theorem additionalQueriesStep_eq (h : Routes sc s) (hresponse : sc.isResponse = true) (r : Ref) :
    s.additionalQueriesStep r =
      if sc.isResponse && sc.admits.observation then
        match scan (heardBy sc.now r) (s.additionalQueryCursor.getD 0) sc.queries with
        | some (key, handle) => .yield_ (.toQuery handle r) { s with
            additionalServiceDone := true
            additionalQueryCursor := some (key + 1) }
        | none => .quiet s.nextAdditional
      else .quiet s.nextAdditional := by
  rw [hresponse, Bool.true_and, ← h.scene]
  rfl

theorem additionalQueriesStep_keeps [OrderedPool QS] (sc : Scene I AN EvQ)
    (s : RouteEvents I G R SR QS EV AN EvQ) (h : Routes sc s) (hsect : s.sect = .additional)
    (hresponse : sc.isResponse = true) (r : Ref)
    (hr : sc.reader.additional[s.additionalIdx]? = some (.ok r)) (httl : r.ttl ≠ 0)
    (hdone : ServicesDone sc (sc.contested .additional) s.additionalServiceDone
      s.additionalServiceCursor r) : Keeps sc s (s.additionalQueriesStep r) := by
  have hordered : sc.queries.Pairwise fun a b => a.1 < b.1 := by
    rw [← h.scene]
    exact OrderedPool.ordered s.queries
  have hstep := additionalQueriesStep_eq sc s h hresponse r
  have hnext (hnone : (sc.isResponse && sc.admits.observation) = true →
      scan (heardBy sc.now r) (s.additionalQueryCursor.getD 0) sc.queries = none) :
      Keeps sc s (.quiet s.nextAdditional) :=
    nextAdditional_keeps sc s h hsect hresponse r hr
      (leftRecord_none sc (sc.contested .additional) _ _ _ r httl hdone hnone)
  rw [hstep]
  cases hheard : sc.isResponse && sc.admits.observation with
  | false =>
    rw [if_neg Bool.false_ne_true]
    apply hnext
    intro hyes
    rw [hheard] at hyes
    cases hyes
  | true =>
    rw [if_pos rfl]
    cases hscan : scan (heardBy sc.now r) (s.additionalQueryCursor.getD 0) sc.queries with
    | none => exact hnext fun _ => hscan
    | some found =>
      obtain ⟨key, handle⟩ := found
      obtain ⟨hleft, hnear⟩ := leftRecord_query sc hordered hheard (sc.contested .additional)
        s.additionalServiceDone s.additionalServiceCursor s.additionalQueryCursor r httl hdone key
        handle hscan
      refine ⟨h.same sc s _ rfl rfl rfl rfl, ?_, ?_, rfl⟩
      · rw [distance_additional sc s hsect, distance_additional sc _ (by exact hsect)]
        exact nearer_fanOut _ _ _ _ hnear
      · rw [left_additional sc s hsect, left_additional sc _ (by exact hsect),
          leftAdditional_ok sc s r hresponse hr, leftAdditional_ok sc _ r hresponse (by exact hr),
          hleft]
        rfl

theorem additionalStep_keeps [OrderedPool SR] [OrderedPool QS] (sc : Scene I AN EvQ)
    (s : RouteEvents I G R SR QS EV AN EvQ) (h : Routes sc s) (hsect : s.sect = .additional) :
    Keeps sc s s.additionalStep := by
  have hreader := h.reader sc s
  have hordered := h.table sc s
  have hleave (hnone : leftAdditional sc s = []) : Keeps sc s (.quiet { s with sect := .done }) := by
    refine ⟨h.same sc s _ rfl rfl rfl rfl, ?_, ?_, rfl⟩
    · rw [distance_additional sc s hsect]
      exact nearer_section _ _ _ _ (by decide)
    · rw [left_additional sc s hsect, hnone]
      rfl
  rw [additionalStep]
  simp only
  split
  · rename_i hquery
    rw [h.response, Bool.not_eq_true'] at hquery
    apply hleave
    rw [leftAdditional, hquery, if_neg Bool.false_ne_true]
  · rename_i hanswer
    have hresponse : sc.isResponse = true := by
      rw [h.response, Bool.not_eq_true', Bool.not_eq_false] at hanswer
      exact hanswer
    have hend (hitem : sc.reader.additional[s.additionalIdx]? = none) :
        leftAdditional sc s = [] := by
      rw [leftAdditional, if_pos hresponse]
      exact Scene.resume_end _ _ _ _ hitem
    split
    · rename_i hpast
      rw [hreader] at hpast
      apply hleave
      apply hend
      apply getElem?_past _ _ _ _ hpast
      exact recordsAt_length _ _ _
    · cases hitem : s.reader.additional[s.additionalIdx]? with
      | none =>
        rw [hreader] at hitem
        exact hleave (hend hitem)
      | some item =>
        rw [hreader] at hitem
        cases item with
        | error e =>
          refine ⟨h.same sc s _ rfl rfl rfl rfl, ?_, ?_, rfl⟩
          · rw [distance_additional sc s hsect]
            exact nearer_section _ _ _ _ (by decide)
          · have hfailed : leftAdditional sc s = [.failed e] := by
              rw [leftAdditional, if_pos hresponse]
              exact Scene.resume_error _ _ _ _ e hitem
            rw [left_additional sc s hsect, hfailed]
            rfl
        | ok r =>
          simp only
          split
          · rename_i httl
            exact nextAdditional_keeps sc s h hsect hresponse r hitem
              (leftRecord_goodbye sc _ _ _ _ r httl)
          · rename_i httl
            cases hdone : s.additionalServiceDone with
            | true =>
              rw [if_pos rfl]
              exact additionalQueriesStep_keeps sc s h hsect hresponse r hitem httl (Or.inl hdone)
            | false =>
              rw [if_neg Bool.false_ne_true]
              have hsearched := nextAdditionalService_spec sc s h r hitem
              generalize s.nextAdditionalService r = looked at hsearched ⊢
              obtain ⟨found, s'⟩ := looked
              obtain ⟨hfound, ⟨screen, hs'⟩, hroutes⟩ := hsearched
              simp only at hfound hs' hroutes
              subst hs'
              cases found with
              | none =>
                exact additionalQueriesStep_keeps sc _ hroutes hsect hresponse r hitem httl
                  (Or.inr hfound.symm)
              | some service =>
                obtain ⟨key, ev⟩ := service
                obtain ⟨hleft, hnear⟩ := leftRecord_service sc hordered (sc.contested .additional)
                  s.additionalServiceCursor s.additionalQueryCursor r httl key ev hfound.symm
                have hmoved : Routes sc { s with
                    relinquishedScreen := screen
                    additionalServiceCursor := some (key + 1) } :=
                  hroutes.same sc _ _ rfl rfl rfl rfl
                refine ⟨hmoved.dispatched sc _ key ev, ?_, ?_, ?_⟩
                · rw [distance_additional sc s hsect, distance_additional sc _ (by exact hsect),
                    hdone]
                  exact nearer_fanOut _ _ _ _ hnear
                · rw [left_additional sc s hsect, left_additional sc _ (by exact hsect),
                    leftAdditional_ok sc s r hresponse hitem,
                    leftAdditional_ok sc _ r hresponse (by exact hitem), hdone, hleft]
                  rfl
                · rw [← h.scene]
                  rfl

theorem left_proposals (h : s.sect = .authorityProposals) :
    left sc s = leftProposals sc s ++ leftFrom sc s .authority := by
  rw [left, h]
  rfl

theorem proposalsStep_keeps [OrderedPool SR] (sc : Scene I AN EvQ)
    (s : RouteEvents I G R SR QS EV AN EvQ) (h : Routes sc s)
    (hsect : s.sect = .authorityProposals) : Keeps sc s s.proposalsStep := by
  have hordered := h.table sc s
  have hsrc := h.src sc s
  have hadmits := h.admits sc s
  have hdistance : distance sc s =
      (3, 0, 0, ahead (s.proposalServiceCursor.getD 0) sc.table) := by
    rw [distance, hsect]
  have hleave (hnone : leftProposals sc s = []) :
      Keeps sc s (.quiet { s with sect := .authority }) := by
    refine ⟨h.same sc s _ rfl rfl rfl rfl, ?_, ?_, rfl⟩
    · rw [hdistance]
      exact nearer_section _ _ _ _ (by decide)
    · rw [left_proposals sc s hsect, hnone]
      rfl
  have hgate (hshut : (!sc.isResponse && sc.readsAuthority) = false) : leftProposals sc s = [] := by
    rw [leftProposals, hshut, if_neg Bool.false_ne_true]
  rw [proposalsStep]
  split
  · rename_i hnot
    apply hleave
    apply hgate
    rw [h.response, hsrc] at hnot
    rw [Scene.readsAuthority]
    cases hresponse : sc.isResponse with
    | true => rfl
    | false =>
      rw [hresponse, Bool.false_or, bne_iff_ne] at hnot
      rw [beq_false_of_ne hnot]
      rfl
  · rename_i hpeer
    split
    · rename_i hdenied
      apply hleave
      apply hgate
      rw [hadmits, Bool.not_eq_true'] at hdenied
      rw [Scene.readsAuthority, hdenied, Bool.and_false, Bool.and_false]
    · rename_i hadjudicates
      have hopen : (!sc.isResponse && sc.readsAuthority) = true := by
        rw [h.response, hsrc] at hpeer
        rw [hadmits] at hadjudicates
        simp only [Bool.or_eq_true, bne_iff_ne, ne_eq, not_or, not_not, Bool.not_eq_true] at hpeer
        simp only [Bool.not_eq_true', Bool.not_eq_false] at hadjudicates
        rw [Scene.readsAuthority, hpeer.1, hpeer.2, hadjudicates]
        rfl
      have hscan : scan (proposalOf s.src s.reader s.datagram) (s.proposalServiceCursor.getD 0)
          s.endpoint.table = scan (proposalOf sc.src sc.reader sc.datagram)
            (s.proposalServiceCursor.getD 0) sc.table := by
        rw [← h.scene]
        rfl
      rw [hscan]
      cases hfound : scan (proposalOf sc.src sc.reader sc.datagram)
          (s.proposalServiceCursor.getD 0) sc.table with
      | none =>
        apply hleave
        rw [leftProposals, if_pos hopen]
        exact services_none sc _ _ hfound
      | some service =>
        obtain ⟨key, ev⟩ := service
        obtain ⟨hleft, hahead⟩ := services_some sc hordered _ _ key ev hfound
        have hmoved : Routes sc { s with proposalServiceCursor := some (key + 1) } :=
          h.same sc s _ rfl rfl rfl rfl
        refine ⟨hmoved.dispatched sc _ key ev, ?_, ?_, ?_⟩
        · rw [hdistance]
          have hthere : distance sc (({ s with proposalServiceCursor := some (key + 1) } :
              RouteEvents I G R SR QS EV AN EvQ).dispatch key ev) =
              (3, 0, 0, ahead (key + 1) sc.table) := by
            rw [distance]
            simp only [dispatch, hsect]
            rfl
          rw [hthere]
          exact nearer_fanOut _ _ _ _ (Prod.Lex.right _ hahead)
        · rw [left_proposals sc s hsect, left_proposals sc _ (by exact hsect), leftProposals,
            leftProposals, if_pos hopen, if_pos hopen, hleft]
          rfl
        · rw [← h.scene]
          rfl

theorem left_authority (h : s.sect = .authority) :
    left sc s = leftAuthority sc s ++ leftAdditional sc s := by
  rw [left, h]
  rfl

theorem distance_authority (h : s.sect = .authority) : distance sc s =
    (2, sc.reader.authority.length - s.authorityIdx, 0,
      ahead (s.authorityServiceCursor.getD 0) sc.table) := by
  rw [distance, h]

theorem leftAuthority_ok (r : Ref)
    (hopen : sc.readsAuthority = true)
    (hr : sc.reader.authority[s.authorityIdx]? = some (.ok r)) : leftAuthority sc s =
      Scene.positive r (sc.services (authorityEvent sc r) (s.authorityServiceCursor.getD 0)) ++
        Scene.walk sc.authorityOutputs (sc.reader.authority.drop (s.authorityIdx + 1)) := by
  rw [leftAuthority, if_pos hopen]
  exact Scene.resume_ok _ _ _ _ r hr

theorem nextAuthority_keeps (h : Routes sc s) (hsect : s.sect = .authority)
    (hopen : sc.readsAuthority = true) (r : Ref)
    (hr : sc.reader.authority[s.authorityIdx]? = some (.ok r))
    (hnone : Scene.positive r (sc.services (authorityEvent sc r)
      (s.authorityServiceCursor.getD 0)) = []) : Keeps sc s (.quiet s.nextAuthority) := by
  refine ⟨h.same sc s _ rfl rfl rfl rfl, ?_, ?_, rfl⟩
  · rw [distance_authority sc s hsect, distance_authority sc s.nextAuthority hsect]
    exact nearer_item _ _ _ _ _ (items_left _ _ _ hr)
  · have hwalk : leftAuthority sc s.nextAuthority =
        Scene.walk sc.authorityOutputs (sc.reader.authority.drop (s.authorityIdx + 1)) := by
      rw [leftAuthority, if_pos hopen]
      exact Scene.resume_self sc.authorityOutputs _
    rw [left_authority sc s hsect, left_authority sc s.nextAuthority hsect,
      leftAuthority_ok sc s r hopen hr, hnone, hwalk]
    rfl

theorem authoritySearch_spec (h : Routes sc s) (hadjudicates : s.admits.adjudication = true)
    (r : Ref)
    (hr : sc.reader.authority[s.authorityIdx]? = some (.ok r)) :
    Searched sc s (authorityEvent sc r) (s.authorityServiceCursor.getD 0)
      (if s.isResponse then
        s.nextServiceConflict r (s.authorityServiceCursor.getD 0) .authoritativeResponse
          (.authority s.authorityIdx)
      else s.nextHostConflict r (s.authorityServiceCursor.getD 0) .tentativeProbe
        (.authority s.authorityIdx)) := by
  have hslot : recordAt s.reader (.authority s.authorityIdx) = some (.ok r) := by
    have hreader := h.reader sc s
    rw [recordAt, hreader]
    exact hr
  rw [authorityEvent, h.response]
  cases sc.isResponse with
  | true =>
    exact nextServiceConflict_spec sc s h hadjudicates r _ (.authority s.authorityIdx) hslot
  | false => exact nextHostConflict_spec sc s h r _ s.authorityIdx hslot

theorem authorityStep_keeps [OrderedPool SR] (sc : Scene I AN EvQ)
    (s : RouteEvents I G R SR QS EV AN EvQ) (h : Routes sc s) (hsect : s.sect = .authority) :
    Keeps sc s s.authorityStep := by
  have hreader := h.reader sc s
  have hordered := h.table sc s
  have hsrc := h.src sc s
  have hadmits := h.admits sc s
  have hleave (hnone : leftAuthority sc s = []) :
      Keeps sc s (.quiet { s with sect := .additional }) := by
    refine ⟨h.same sc s _ rfl rfl rfl rfl, ?_, ?_, rfl⟩
    · rw [distance_authority sc s hsect]
      exact nearer_section _ _ _ _ (by decide)
    · rw [left_authority sc s hsect, hnone]
      rfl
  rw [authorityStep]
  simp only
  split
  · rename_i hport
    rw [hsrc] at hport
    apply hleave
    rw [leftAuthority, Scene.readsAuthority, beq_false_of_ne hport, Bool.false_and,
      if_neg Bool.false_ne_true]
  · rename_i hport
    split
    · rename_i hdenied
      rw [hadmits, Bool.not_eq_true'] at hdenied
      apply hleave
      rw [leftAuthority, Scene.readsAuthority, hdenied, Bool.and_false, if_neg Bool.false_ne_true]
    · rename_i hadjudicates
      have hadjudicates' : s.admits.adjudication = true := by simpa using hadjudicates
      have hopen : sc.readsAuthority = true := by
        rw [hsrc, ne_eq, not_not] at hport
        rw [Scene.readsAuthority, hport, ← hadmits, hadjudicates']
        rfl
      have hend (hitem : sc.reader.authority[s.authorityIdx]? = none) :
          leftAuthority sc s = [] := by
        rw [leftAuthority, if_pos hopen]
        exact Scene.resume_end _ _ _ _ hitem
      split
      · rename_i hpast
        rw [hreader] at hpast
        apply hleave
        apply hend
        apply getElem?_past _ _ _ _ hpast
        exact recordsAt_length _ _ _
      · cases hitem : s.reader.authority[s.authorityIdx]? with
        | none =>
          rw [hreader] at hitem
          exact hleave (hend hitem)
        | some item =>
          rw [hreader] at hitem
          cases item with
          | error e =>
            refine ⟨h.same sc s _ rfl rfl rfl rfl, ?_, ?_, rfl⟩
            · rw [distance_authority sc s hsect]
              exact nearer_section _ _ _ _ (by decide)
            · have hfailed : leftAuthority sc s = [.failed e] := by
                rw [leftAuthority, if_pos hopen]
                exact Scene.resume_error _ _ _ _ e hitem
              -- what follows cannot be found, and nothing is left of it
              have hnothing : leftAdditional sc s = [] := by
                rw [leftAdditional, additional_of_error sc.reader _ e hitem, List.drop_nil]
                exact ite_self _
              rw [left_authority sc s hsect, hfailed, hnothing]
              rfl
          | ok r =>
            simp only
            split
            · rename_i httl
              apply nextAuthority_keeps sc s h hsect hopen r hitem
              rw [Scene.positive, if_pos httl]
            · rename_i httl
              have hsearched := authoritySearch_spec sc s h hadjudicates' r hitem
              generalize (if s.isResponse then
                s.nextServiceConflict r (s.authorityServiceCursor.getD 0) .authoritativeResponse
                  (.authority s.authorityIdx)
                else s.nextHostConflict r (s.authorityServiceCursor.getD 0) .tentativeProbe
                  (.authority s.authorityIdx)) = looked at hsearched ⊢
              obtain ⟨found, s'⟩ := looked
              obtain ⟨hfound, ⟨screen, hs'⟩, hroutes⟩ := hsearched
              simp only at hfound hs' hroutes
              subst hs'
              cases found with
              | none =>
                apply nextAuthority_keeps sc _ hroutes hsect hopen r hitem
                rw [Scene.positive, if_neg httl]
                exact services_none sc _ _ hfound.symm
              | some service =>
                obtain ⟨key, ev⟩ := service
                obtain ⟨hleft, hahead⟩ := services_some sc hordered _ _ key ev hfound.symm
                have hmoved : Routes sc { s with
                    relinquishedScreen := screen
                    authorityServiceCursor := some (key + 1) } :=
                  hroutes.same sc _ _ rfl rfl rfl rfl
                refine ⟨hmoved.dispatched sc _ key ev, ?_, ?_, ?_⟩
                · rw [distance_authority sc s hsect, distance_authority sc _ (by exact hsect)]
                  exact nearer_fanOut _ _ _ _ (Prod.Lex.right _ hahead)
                · rw [left_authority sc s hsect, left_authority sc _ (by exact hsect),
                    leftAuthority_ok sc s r hopen hitem,
                    leftAuthority_ok sc _ r hopen (by exact hitem), Scene.positive,
                    Scene.positive, if_neg httl, if_neg httl, hleft]
                  rfl
                · rw [← h.scene]
                  rfl

theorem left_questions (h : s.sect = .questions) :
    left sc s = leftQuestions sc s ++ leftFrom sc s .answers := by
  rw [left, h]
  rfl

theorem distance_questions (h : s.sect = .questions) : distance sc s =
      (5, sc.reader.questions.length - s.questionIdx, 0, ahead s.serviceCursor sc.table) := by
  rw [distance, h]

theorem leftQuestions_ok (q : QuestionRef) (hopen : sc.readsQuestions = true)
    (hq : sc.reader.questions[s.questionIdx]? = some (.ok q)) : leftQuestions sc s =
      sc.services (sc.asked q) s.serviceCursor ++
        Scene.walk sc.questionOutputs (sc.reader.questions.drop (s.questionIdx + 1)) := by
  rw [leftQuestions, if_pos hopen]
  exact Scene.resume_ok _ _ _ _ q hq

theorem asked_event (q : QuestionRef) (v : RouteView) (ev : ServiceEvent)
    (h : sc.asked q v = some ev) : ev = .question
      { question := q
        src := sc.src
        queryId := sc.reader.header.id
        truncated := sc.reader.header.flags.isTruncated } := by
  rw [Scene.asked] at h
  split at h
  · cases h
  · obtain ⟨-, hsome⟩ := Option.ite_none_right_eq_some.mp h
    exact (Option.some.inj hsome).symm

theorem questionsStep_keeps [OrderedPool SR] (sc : Scene I AN EvQ)
    (s : RouteEvents I G R SR QS EV AN EvQ) (h : Routes sc s) (hsect : s.sect = .questions) :
    Keeps sc s s.questionsStep := by
  have hreader := h.reader sc s
  have hordered := h.table sc s
  have hsrc := h.src sc s
  have hadmits := h.admits sc s
  have hleave (hnone : leftQuestions sc s = []) :
      Keeps sc s (.quiet { s with sect := .answers }) := by
    refine ⟨h.same sc s _ rfl rfl rfl rfl, ?_, ?_, rfl⟩
    · rw [distance_questions sc s hsect]
      exact nearer_section _ _ _ _ (by decide)
    · rw [left_questions sc s hsect, hnone]
      rfl
  have hgate (hshut : sc.readsQuestions = false) : leftQuestions sc s = [] := by
    rw [leftQuestions, hshut, if_neg Bool.false_ne_true]
  rw [questionsStep]
  simp only
  split
  · rename_i hanswers
    rw [hadmits] at hanswers
    apply hleave
    apply hgate
    rw [Scene.readsQuestions, hanswers]
  · rename_i hanswers
    rw [hadmits] at hanswers
    split
    · rename_i hnoProbe
      rw [hadmits, h.response, hreader, hsrc, Bool.and_eq_true, beq_iff_eq] at hnoProbe
      apply hleave
      apply hgate
      rw [Scene.readsQuestions, hnoProbe.1]
      exact (Bool.not_eq_true' _).mp hnoProbe.2
    · rename_i hmayProbe
      rw [hadmits, h.response, hreader, hsrc] at hmayProbe
      have hopen : sc.readsQuestions = true := by
        rw [Scene.readsQuestions]
        cases hmode : sc.admits.answering with
        | all => rfl
        | none => exact absurd hmode hanswers
        | defenceOnly =>
          rw [hmode] at hmayProbe
          simp only [beq_self_eq_true, Bool.true_and, Bool.not_eq_true', Bool.not_eq_false]
            at hmayProbe
          exact hmayProbe
      have hend (hitem : sc.reader.questions[s.questionIdx]? = none) :
          leftQuestions sc s = [] := by
        rw [leftQuestions, if_pos hopen]
        exact Scene.resume_end _ _ _ _ hitem
      split
      · rename_i hpast
        rw [hreader] at hpast
        apply hleave
        apply hend
        apply getElem?_past _ _ _ _ hpast
        exact questionItems_length _ _ _
      · cases hitem : s.reader.questions[s.questionIdx]? with
        | none =>
          rw [hreader] at hitem
          exact hleave (hend hitem)
        | some item =>
          rw [hreader] at hitem
          cases item with
          | error e =>
            refine ⟨h.same sc s _ rfl rfl rfl rfl, ?_, ?_, rfl⟩
            · rw [distance_questions sc s hsect]
              exact nearer_section _ _ _ _ (by decide)
            · have hfailed : leftQuestions sc s = [.failed e] := by
                rw [leftQuestions, if_pos hopen]
                exact Scene.resume_error _ _ _ _ e hitem
              rw [left_questions sc s hsect, hfailed]
              rfl
          | ok q =>
            have hmode : sc.admits.answering =
                if (s.admits.answering == .defenceOnly) = true then .defenceOnly else .all := by
              rw [hadmits]
              cases hmode : sc.admits.answering with
              | all => rfl
              | defenceOnly => rfl
              | none => exact absurd hmode hanswers
            have hloop := questionLoop_scan sc q (s.admits.answering == .defenceOnly) hmode
              s.serviceCursor sc.table none nofun
            have htable : questionLoop s.reader q (s.admits.answering == .defenceOnly)
                s.serviceCursor none s.endpoint.table =
                  (scan (sc.asked q) s.serviceCursor sc.table).map Prod.fst := by
              rw [← hloop, ← h.scene]
              rfl
            simp only [htable]
            cases hfound : scan (sc.asked q) s.serviceCursor sc.table with
            | none =>
              refine ⟨h.same sc s _ rfl rfl rfl rfl, ?_, ?_, rfl⟩
              · rw [distance_questions sc s hsect, distance_questions sc _ (by exact hsect)]
                exact nearer_item _ _ _ _ _ (items_left _ _ _ hitem)
              · have hwalk : leftQuestions sc { s with
                    questionIdx := s.questionIdx + 1
                    serviceCursor := 0 } = Scene.walk sc.questionOutputs
                      (sc.reader.questions.drop (s.questionIdx + 1)) := by
                  rw [leftQuestions, if_pos hopen]
                  exact Scene.resume_self sc.questionOutputs _
                rw [left_questions sc s hsect, left_questions sc _ (by exact hsect),
                  leftQuestions_ok sc s q hopen hitem, services_none sc _ _ hfound, hwalk]
                rfl
            | some service =>
              obtain ⟨key, ev⟩ := service
              obtain ⟨hleft, hahead⟩ := services_some sc hordered _ _ key ev hfound
              obtain ⟨-, v, -, hasked⟩ := scan_mem _ _ key ev _ hfound
              have hevent := asked_event sc q v ev hasked
              have hmoved : Routes sc { s with serviceCursor := key + 1 } :=
                h.same sc s _ rfl rfl rfl rfl
              refine ⟨hmoved.dispatched sc _ key _, ?_, ?_, ?_⟩
              · rw [distance_questions sc s hsect, distance_questions sc _ (by exact hsect)]
                exact nearer_fanOut _ _ _ _ (Prod.Lex.right _ hahead)
              · rw [left_questions sc s hsect, left_questions sc _ (by exact hsect),
                  leftQuestions_ok sc s q hopen hitem,
                  leftQuestions_ok sc _ q hopen (by exact hitem), hleft, hevent, ← h.scene]
                rfl
              · rw [← h.scene]
                rfl

theorem step_keeps [OrderedPool SR] [OrderedPool QS] (sc : Scene I AN EvQ)
    (s : RouteEvents I G R SR QS EV AN EvQ) (h : Routes sc s) : Keeps sc s s.step := by
  rw [step]
  cases hsect : s.sect with
  | questions => exact questionsStep_keeps sc s h hsect
  | answers => exact answersStep_keeps sc s h hsect
  | authorityProposals => exact proposalsStep_keeps sc s h hsect
  | authority => exact authorityStep_keeps sc s h hsect
  | additional => exact additionalStep_keeps sc s h hsect
  | done =>
    show left sc s = []
    rw [left, hsect]
    rfl

theorem routes_new (endpoint : Endpoint I G R SR EV) (queries : QS (Query I AN EvQ))
    (src : SocketAddr) (reader : MessageReader) (now : I) (datagram : DatagramId)
    (admits : Admits) : Routes (new endpoint queries src reader now datagram admits).scene
      (new endpoint queries src reader now datagram admits) :=
  ⟨rfl, rfl, nofun⟩

theorem leftQuestions_start (hidx : s.questionIdx = 0) (hcursor : s.serviceCursor = 0) :
    leftQuestions sc s = sc.questionsPart := by
  rw [leftQuestions, Scene.questionsPart, hidx, hcursor, List.drop_zero]
  split
  · exact Scene.resume_self sc.questionOutputs _
  · rfl

theorem leftAnswers_start (hidx : s.answerIdx = 0) (hdone : s.answerServiceDone = false)
    (hservice : s.answerServiceCursor = none) (hquery : s.answerQueryCursor = none) :
    leftAnswers sc s = sc.answersPart := by
  rw [leftAnswers, Scene.answersPart, hidx, hdone, hservice, hquery, List.drop_zero]
  exact Scene.resume_self sc.answerOutputs _

theorem leftAuthority_start (hidx : s.authorityIdx = 0)
    (hcursor : s.authorityServiceCursor = none) :
    leftAuthority sc s = sc.authorityPart := by
  rw [leftAuthority, Scene.authorityPart, hidx, hcursor, List.drop_zero]
  split
  · exact Scene.resume_self sc.authorityOutputs _
  · rfl

theorem leftAdditional_start (hidx : s.additionalIdx = 0) (hdone : s.additionalServiceDone = false)
    (hservice : s.additionalServiceCursor = none) (hquery : s.additionalQueryCursor = none) :
    leftAdditional sc s = sc.additionalPart := by
  rw [leftAdditional, Scene.additionalPart, hidx, hdone, hservice, hquery, List.drop_zero]
  split
  · exact Scene.resume_self sc.additionalOutputs _
  · rfl

theorem left_new (endpoint : Endpoint I G R SR EV)
    (queries : QS (Query I AN EvQ)) (src : SocketAddr) (reader : MessageReader) (now : I)
    (datagram : DatagramId) (admits : Admits) (hadmits : sc.admits = admits) :
    left sc (new endpoint queries src reader now datagram admits) = sc.routed := by
  rw [Scene.routed, hadmits]
  cases hinert : admits.allDenied with
  | true =>
    have hsect : (new endpoint queries src reader now datagram admits).sect = .done := by
      rw [new, hinert]
      rfl
    rw [left, hsect, if_pos rfl]
    rfl
  | false =>
    have hsect : (new endpoint queries src reader now datagram admits).sect = .questions := by
      rw [new, hinert]
      rfl
    have hproposals : leftProposals sc (new endpoint queries src reader now datagram admits) =
        sc.proposalsPart := rfl
    rw [left, hsect, if_neg Bool.false_ne_true]
    rw [leftFrom, leftQuestions_start sc _ rfl rfl, leftAnswers_start sc _ rfl rfl rfl rfl,
      hproposals, leftAuthority_start sc _ rfl rfl, leftAdditional_start sc _ rfl rfl rfl rfl]
    simp only [List.append_assoc]

theorem new_drains [OrderedPool SR] [OrderedPool QS] (endpoint : Endpoint I G R SR EV)
    (queries : QS (Query I AN EvQ)) (src : SocketAddr) (reader : MessageReader) (now : I)
    (datagram : DatagramId) (admits : Admits) (sc : Scene I AN EvQ)
    (hsc : (new endpoint queries src reader now datagram admits).scene = sc) :
    ∃ t, Drains step (new endpoint queries src reader now datagram admits) sc.routed t ∧
      t.step = .stop ∧ t.endpoint = sc.routed.foldl (change now) endpoint := by
  have hroutes : Routes sc (new endpoint queries src reader now datagram admits) := by
    rw [← hsc]
    exact routes_new endpoint queries src reader now datagram admits
  have hleft := left_new sc endpoint queries src reader now datagram admits (by rw [← hsc]; rfl)
  obtain ⟨t, hdrains, hstop, hend⟩ := drains step (Routes sc) (left sc) RouteEvents.endpoint
    (change sc.now) (distance sc) Nearer nearer_wellFounded (step_keeps sc) _ hroutes
  have hnow : sc.now = now := by
    rw [← hsc]
    rfl
  rw [hleft] at hdrains hend
  rw [hnow] at hend
  exact ⟨t, hdrains, hstop, hend⟩

end RouteEvents
end
end Hick
