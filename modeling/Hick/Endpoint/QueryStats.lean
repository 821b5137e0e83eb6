import Hick.Census
import Hick.Endpoint.QueryMoves
import Hick.Stats

/-!
# The counters of the queries (query/mod.rs:617-709, endpoint/query.rs, endpoint/receive.rs:541-575)

A query that is started is active until it ends or is cancelled, and is counted as done then, once.
-/

set_option linter.unusedSectionVars false

namespace Hick
open Octets Wire Noted

namespace Query
variable {I : Type} {AN EV : Type → Type} [Instant I] [Pool AN] [Pool EV]

def terminateNoted (q : Query I AN EV) (update : QueryUpdate) : Query I AN EV × List QueryNote :=
  if q.done then (q, [])
  else
    let timeouts := match update with
      | .timeout => [.queriesTimeout]
      | .done => []
    (q.terminate update, timeouts ++ [.queriesDone, .decrQueriesActive])

def handleTimeoutNoted (q : Query I AN EV) (now : I) : Query I AN EV × List QueryNote :=
  if q.done then (q, [])
  else if q.callerWindowShut now then q.terminateNoted .timeout
  else
    match q.nextDeadline with
    | none => (q, [])
    | some due =>
      if now < due then (q, [])
      else if maxRetries < q.retryCount then q.terminateNoted .timeout
      else ({ q with
        transmitPending := true
        nextDeadline := none }, [])

def retireNoted (q : Query I AN EV) : Query I AN EV × List QueryNote := q.terminateNoted .timeout

def noteDuplicateQuestionNoted (q : Query I AN EV) (now : I) : Query I AN EV × List QueryNote :=
  if q.done || q.awaitingSendConfirm then (q, [])
  else if q.callerWindowShut now then (q, [])
  else if !(q.transmitPending || q.nextDeadline.any fun d => decide (d ≤ now)) then (q, [])
  else
    let q := { q with
      transmitPending := false
      retryCount := q.retryCount + 1
      partialSendStreak := 0
      partialRounds := .both .default }
    if maxRetries < q.retryCount then q.terminateNoted .timeout
    else ({ q with nextDeadline := Hick.nextDeadline now q.retryCount }, [])

/-- What the notes of a call say of its query: nothing where the query goes on or had ended, its
end where it ends. -/
inductive Tells (q q' : Query I AN EV) : List QueryNote → Prop
  | same (h : q'.done = q.done) : Tells q q' []
  | ended (h : q.done = false) (h' : q'.done = true) :
    Tells q q' [.queriesTimeout, .queriesDone, .decrQueriesActive]

variable (q : Query I AN EV)

theorem terminateNoted_fst (update : QueryUpdate) :
    (q.terminateNoted update).1 = q.terminate update := by
  unfold terminateNoted terminate
  cases hdone : q.done with
  | true => rfl
  | false => rfl

theorem terminateNoted_tells (q q' : Query I AN EV) (h : q'.done = q.done) :
    Tells q (q'.terminateNoted .timeout).1 (q'.terminateNoted .timeout).2 := by
  rw [terminateNoted]
  cases hdone : q'.done with
  | true => exact .same h
  | false =>
    refine .ended (h ▸ hdone) ?_
    show (q'.terminate .timeout).done = true
    rw [q'.terminate_of_live hdone]

theorem handleTimeoutNoted_fst (now : I) :
    (q.handleTimeoutNoted now).1 = q.handleTimeout now := by
  rw [handleTimeoutNoted, handleTimeout]
  split
  · rfl
  · split
    · exact q.terminateNoted_fst .timeout
    · cases q.nextDeadline with
      | none => rfl
      | some due =>
        dsimp only
        split
        · rfl
        · split
          · exact q.terminateNoted_fst .timeout
          · rfl

theorem handleTimeoutNoted_tells (now : I) :
    Tells q (q.handleTimeoutNoted now).1 (q.handleTimeoutNoted now).2 := by
  rw [handleTimeoutNoted]
  split
  · exact .same rfl
  · split
    · exact q.terminateNoted_tells q rfl
    · split
      · exact .same rfl
      · split
        · exact .same rfl
        · split
          · exact q.terminateNoted_tells q rfl
          · exact .same rfl

theorem noteDuplicateQuestionNoted_fst (now : I) :
    (q.noteDuplicateQuestionNoted now).1 = (q.noteDuplicateQuestion now).1 := by
  rw [noteDuplicateQuestionNoted, noteDuplicateQuestion]
  split
  · rfl
  · split
    · rfl
    · split
      · rfl
      · dsimp only
        split
        · exact terminateNoted_fst _ .timeout
        · rfl

theorem noteDuplicateQuestionNoted_tells (now : I) :
    Tells q (q.noteDuplicateQuestionNoted now).1 (q.noteDuplicateQuestionNoted now).2 := by
  rw [noteDuplicateQuestionNoted]
  split
  · exact .same rfl
  · split
    · exact .same rfl
    · split
      · exact .same rfl
      · dsimp only
        split
        · exact q.terminateNoted_tells _ rfl
        · exact .same rfl

theorem hear_done (now : I) (r : Ref) : (q.hear now r).done = q.done := by
  obtain ⟨answers, nextSeq, honly⟩ := q.hear_only now r
  rw [honly]

theorem pollTransmit_done (now : I) (buf : Bytes) :
    (q.pollTransmit now buf).1.done = q.done := by
  have heffect := q.pollTransmit_effect now buf
  generalize (q.pollTransmit now buf).1 = p at heffect ⊢
  generalize sentOf (q.pollTransmit now buf).2 = sent at heffect
  cases heffect with
  | nothing => rfl
  | asks _ _ _ _ => rfl

theorem noteTransmitOutcome_done (now : I) (v4 v6 : FamilyAttempt I) :
    (q.noteTransmitOutcome now v4 v6).1.done = q.done := by
  by_cases hawaits : q.Awaits
  · rw [q.noteTransmitOutcome_heard now v4 v6 hawaits]
  · rw [q.noteTransmitOutcome_unheard now v4 v6 hawaits]

end Query

section
variable {I : Type} {QS AN EV : Type → Type} [Instant I] [Pool QS] [Pool AN] [Pool EV]

def noteEach (f : Query I AN EV → Query I AN EV × List QueryNote) (queries : QS (Query I AN EV)) :
    QS (Query I AN EV) × List QueryNote :=
  each (fun p (kq : Nat × Query I AN EV) => (Pool.update p kq.1 fun q => (f q).1,
    ((Pool.get p kq.1).map fun q => (f q).2).getD [])) (Pool.iter queries) queries

def hearRecordsNoted (now : I) : List (Except ParseError Ref) → QS (Query I AN EV) →
    QS (Query I AN EV) × List QueryNote
  | [], queries => (queries, [])
  | .error _ :: _, queries => (queries, [])
  | .ok r :: rest, queries =>
    andThen (noteEach (fun q => (q.hear now r, [])) queries) (hearRecordsNoted now rest)

def suppressQuestionNoted (now : I) (question : QuestionRef) (queries : QS (Query I AN EV)) :
    QS (Query I AN EV) × List QueryNote :=
  if question.unicastResponse || question.qclass != .in_ then (queries, [])
  else
    noteEach (fun q =>
      if q.done then (q, [])
      else if q.sameQuestion question then q.noteDuplicateQuestionNoted now
      else (q, [])) queries

def suppressQuestionsNoted (now : I) : List (Except ParseError QuestionRef) →
    QS (Query I AN EV) → QS (Query I AN EV) × List QueryNote
  | [], queries => (queries, [])
  | .error _ :: _, queries => (queries, [])
  | .ok q :: rest, queries =>
    andThen (suppressQuestionNoted now q queries) (suppressQuestionsNoted now rest)

/-- The queries as `handle` leaves them, and what it notes of them (receive.rs:338-576). -/
def handledQueriesNoted (now : I) (src : SocketAddr) (reader : MessageReader) (admits : Admits)
    (queries : QS (Query I AN EV)) : QS (Query I AN EV) × List QueryNote :=
  let heard := if admits.observation && reader.header.flags.isResponse then
      hearRecordsNoted now (reader.answers ++ reader.additional) queries
    else (queries, [])
  andThen heard fun queries =>
    if admits.quieting && !reader.header.flags.isResponse && src.port == mdnsPort &&
        reader.header.answerCount == 0 && !reader.header.flags.isTruncated then
      suppressQuestionsNoted now reader.questions queries
    else (queries, [])

namespace Queries

def tryStartQueryNoted (e : Queries I QS AN EV) (spec : QuerySpec) (now : I) :
    Queries I QS AN EV × List QueryNote :=
  let (e, result) := e.tryStartQuery spec now
  (e, match result with
    | .ok _ => [.queriesStarted, .incrQueriesActive]
    | .error _ => [])

def handleQueryTimeoutNoted (e : Queries I QS AN EV) (handle : QueryHandle) (now : I) :
    Queries I QS AN EV × List QueryNote := e.call handle [] fun q => q.handleTimeoutNoted now

def retireQueryNoted (e : Queries I QS AN EV) (handle : QueryHandle) :
    Queries I QS AN EV × List QueryNote := e.call handle [] Query.retireNoted

def cancelQueryNoted (e : Queries I QS AN EV) (handle : QueryHandle) :
    Queries I QS AN EV × List QueryNote :=
  match e.queryKey handle with
  | none => (e, [])
  | some key =>
    let notes := match Pool.get e.queries key with
      | some q => if q.done then [] else [.queriesDone, .decrQueriesActive]
      | none => []
    match Pool.tryRemove e.queries key with
    | some (_, queries) => ({ e with queries := queries }, notes)
    | none => (e, notes)

def removeKeys (keys : List Nat) (queries : QS (Query I AN EV)) : QS (Query I AN EV) :=
  keys.foldl (fun queries key =>
    match Pool.tryRemove queries key with
    | some (_, queries) => queries
    | none => queries) queries

def sweepTerminatedQueries (e : Queries I QS AN EV) : Queries I QS AN EV × Nat :=
  let toRemove := ((Pool.iter e.queries).filter fun kq => kq.2.terminalEmitted).map (·.1)
  ({ e with queries := removeKeys toRemove e.queries }, toRemove.length)

end Queries

theorem noteEach_fst (f : Query I AN EV → Query I AN EV × List QueryNote)
    (queries : QS (Query I AN EV)) : (noteEach f queries).1 =
      (Pool.iter queries).foldl (fun p kq => Pool.update p kq.1 fun q => (f q).1) queries :=
  each_fst _ _ _

theorem hearRecordsNoted_fst (now : I) (records : List (Except ParseError Ref))
    (queries : QS (Query I AN EV)) :
    (hearRecordsNoted now records queries).1 = hearRecords now records queries := by
  induction records generalizing queries with
  | nil => rfl
  | cons record rest ih =>
    cases record with
    | error _ => rfl
    | ok r =>
      rw [hearRecordsNoted, andThen, ih, noteEach_fst]
      rfl

theorem suppressQuestionNoted_fst (now : I) (question : QuestionRef)
    (queries : QS (Query I AN EV)) :
    (suppressQuestionNoted now question queries).1 = suppressQuestion now question queries := by
  unfold suppressQuestionNoted suppressQuestion
  split
  · rfl
  · rw [noteEach_fst]
    congr 1
    funext p kq
    congr 1
    funext q
    split
    · rfl
    · split
      · exact q.noteDuplicateQuestionNoted_fst now
      · rfl

theorem suppressQuestionsNoted_fst (now : I) (questions : List (Except ParseError QuestionRef))
    (queries : QS (Query I AN EV)) :
    (suppressQuestionsNoted now questions queries).1 = suppressQuestions now questions queries := by
  induction questions generalizing queries with
  | nil => rfl
  | cons question rest ih =>
    cases question with
    | error _ => rfl
    | ok q =>
      rw [suppressQuestionsNoted, andThen, ih, suppressQuestionNoted_fst]
      rfl

theorem handledQueriesNoted_fst (now : I) (src : SocketAddr) (reader : MessageReader)
    (admits : Admits) (queries : QS (Query I AN EV)) :
    (handledQueriesNoted now src reader admits queries).1 =
      handledQueries now src reader admits queries := by
  have hheard : (if admits.observation && reader.header.flags.isResponse then
      hearRecordsNoted now (reader.answers ++ reader.additional) queries
      else (queries, [])).1 = eagerPass now reader admits queries := by
    unfold eagerPass
    split
    · exact hearRecordsNoted_fst now _ queries
    · rfl
  unfold handledQueriesNoted handledQueries andThen
  dsimp only
  rw [hheard]
  split
  · exact suppressQuestionsNoted_fst now _ _
  · rfl

namespace Queries

theorem call_fst {α β : Type} (e : Queries I QS AN EV) (handle : QueryHandle) (a : α) (b : β)
    (f : Query I AN EV → Query I AN EV × α) (g : Query I AN EV → Query I AN EV × β)
    (h : ∀ q, (f q).1 = (g q).1) : (e.call handle a f).1 = (e.call handle b g).1 := by
  unfold call
  split
  · rfl
  · split
    · rfl
    · simp only [h]

theorem tryStartQueryNoted_fst (e : Queries I QS AN EV) (spec : QuerySpec) (now : I) :
    (e.tryStartQueryNoted spec now).1 = (e.tryStartQuery spec now).1 := rfl

theorem handleQueryTimeoutNoted_fst (e : Queries I QS AN EV) (handle : QueryHandle) (now : I) :
    (e.handleQueryTimeoutNoted handle now).1 = e.handleQueryTimeout handle now :=
  e.call_fst handle _ _ _ _ fun q => q.handleTimeoutNoted_fst now

theorem retireQueryNoted_fst (e : Queries I QS AN EV) (handle : QueryHandle) :
    (e.retireQueryNoted handle).1 = e.retireQuery handle :=
  e.call_fst handle _ _ _ _ fun q => q.terminateNoted_fst .timeout

theorem cancelQueryNoted_fst (e : Queries I QS AN EV) (handle : QueryHandle) :
    (e.cancelQueryNoted handle).1 = e.cancelQuery handle := by
  unfold cancelQueryNoted cancelQuery
  cases e.queryKey handle with
  | none => rfl
  | some key =>
    dsimp only
    cases Pool.tryRemove e.queries key with
    | none => rfl
    | some _ => rfl

end Queries

def Query.live (q : Query I AN EV) : Bool := !q.done

namespace QueryTally

/-- The counts agree with the queries: as many are active as are live, all that were started are
done or active, and those that timed out are among the done. -/
structure Books (st : QueryTally) (queries : QS (Query I AN EV)) : Prop where
  active : st.active = Pool.census queries Query.live
  started : st.started = st.done + Pool.census queries Query.live
  timeout : st.timeout ≤ st.done
  numbered : ∀ k q, Pool.get queries k = some q → q.Numbered

variable [OrderedPool QS] [ReleasingPool QS]

variable (st : QueryTally) (queries queries' : QS (Query I AN EV)) (e : Queries I QS AN EV)

theorem Books.congr (h : Books st queries)
    (hlive : Pool.census queries' Query.live = Pool.census queries Query.live)
    (hnumbered : ∀ k q, Pool.get queries' k = some q → q.Numbered) : Books st queries' := by
  constructor
  · rw [hlive]
    exact h.active
  · rw [hlive]
    exact h.started
  · exact h.timeout
  · exact hnumbered

theorem Books.ended (h : Books st queries)
    (hlive : Pool.census queries Query.live = Pool.census queries' Query.live + 1)
    (hnumbered : ∀ k q, Pool.get queries' k = some q → q.Numbered) :
    register.Leads Books st (queries', [.queriesDone, .decrQueriesActive]) ∧
      register.Leads Books st (queries', [.queriesTimeout, .queriesDone, .decrQueriesActive]) := by
  obtain ⟨hactive, hstarted, htimeout, -⟩ := h
  have hpositive : 0 < st.active := by omega
  have hless : st.active - 1 = Pool.census queries' Query.live := by omega
  have hdone : st.started = st.done + 1 + Pool.census queries' Query.live := by omega
  constructor
  · refine ⟨⟨⟨nofun, nofun⟩, ⟨fun _ => hpositive, nofun⟩, trivial⟩, hless, hdone, ?_, hnumbered⟩
    exact Nat.le_succ_of_le htimeout
  · refine ⟨⟨⟨nofun, nofun⟩, ⟨nofun, nofun⟩, ⟨fun _ => hpositive, nofun⟩, trivial⟩, hless, hdone,
      ?_, hnumbered⟩
    exact Nat.succ_le_succ htimeout

theorem Books.replace (h : Books st queries) (q q' : Query I AN EV) (k : Nat)
    (hq : Pool.get queries k = some q)
    (hget : ∀ j, Pool.get queries' j = if j = k then some q' else Pool.get queries j)
    (notes : List QueryNote) (htells : q.Tells q' notes) (hnumbered : q.Numbered → q'.Numbered) :
    register.Leads Books st (queries', notes) := by
  have hcensus := census_replace queries queries' q q' k hq hget Query.live
  have hall : ∀ j p, Pool.get queries' j = some p → p.Numbered := by
    intro j p hp
    rw [hget] at hp
    split at hp
    · cases hp
      exact hnumbered (h.numbered k q hq)
    · exact h.numbered j p hp
  cases htells with
  | same hdone =>
    have hsame : q'.live = q.live := by rw [Query.live, Query.live, hdone]
    rw [hsame] at hcensus
    exact register.leads_nil Books st queries' (h.congr _ _ _ (by omega) hall)
  | ended hlive hdone =>
    have hbefore : q.live.toNat = 1 := by rw [Query.live, hlive]; rfl
    have hafter : q'.live.toNat = 0 := by rw [Query.live, hdone]; rfl
    exact (h.ended _ _ _ (by omega) hall).2

structure Proper (f : Query I AN EV → Query I AN EV × List QueryNote) : Prop where
  tells (q : Query I AN EV) : q.Tells (f q).1 (f q).2
  numbered (q : Query I AN EV) : q.Numbered → (f q).1.Numbered

theorem Books.noteEach (queries : QS (Query I AN EV)) (h : Books st queries)
    (f : Query I AN EV → Query I AN EV × List QueryNote) (hf : Proper f) :
    register.Leads Books st (noteEach f queries) := by
  apply register.leads_each Books _ _ _ st queries h
  intro st p kq hp
  have hget := LawfulPool.get_update p kq.1
  cases hq : Pool.get p kq.1 with
  | none =>
    -- there is no query under the key any more
    have hsame : ∀ j, Pool.get (Pool.update p kq.1 fun q => (f q).1) j = Pool.get p j := by
      intro j
      rw [hget]
      by_cases hj : j = kq.1
      · rw [if_pos hj, hj, hq, Option.map_none]
      · rw [if_neg hj]
    apply register.leads_nil Books st
    apply hp.congr _ _ _ (census_congr _ _ hsame _)
    intro k q hk
    rw [hsame] at hk
    exact hp.numbered k q hk
  | some q =>
    apply hp.replace st p _ q (f q).1 kq.1 hq
    · intro j
      rw [hget]
      by_cases hj : j = kq.1
      · rw [if_pos hj, if_pos hj, hj, hq, Option.map_some]
      · rw [if_neg hj, if_neg hj]
    · exact hf.tells q
    · exact hf.numbered q

theorem Books.call (h : Books st e.queries)
    (handle : QueryHandle) (f : Query I AN EV → Query I AN EV × List QueryNote) (hf : Proper f) :
    register.Leads (fun st e => Books st e.queries) st (e.call handle [] f) := by
  cases hkey : e.queryKey handle with
  | none =>
    have hidle : e.call handle [] f = (e, []) := by simp only [Queries.call, hkey]
    rw [hidle]
    exact register.leads_nil _ st e h
  | some key =>
    obtain ⟨q, hq, -⟩ := e.queryKey_some handle key hkey
    have hcall : e.call handle [] f =
        ({ e with queries := Pool.update e.queries key fun _ => (f q).1 }, (f q).2) := by
      simp only [Queries.call, hkey, hq]
    rw [hcall]
    apply h.replace st e.queries _ q (f q).1 key hq
    · intro j
      rw [LawfulPool.get_update]
      by_cases hj : j = key
      · rw [if_pos hj, if_pos hj, hj, hq, Option.map_some]
      · rw [if_neg hj, if_neg hj]
    · exact hf.tells q
    · exact hf.numbered q

theorem Books.remove (h : Books st queries) (q p : Query I AN EV) (k : Nat)
    (hq : Pool.get queries k = some q)
    (hremove : Pool.tryRemove queries k = some (p, queries')) :
    (q.done = true → Books st queries') ∧
      (q.done = false → register.Leads Books st
        (queries', [.queriesDone, .decrQueriesActive])) := by
  have hcensus := census_tryRemove queries queries' q p k hq hremove Query.live
  have hall : ∀ j r, Pool.get queries' j = some r → r.Numbered := by
    intro j r hr
    rw [LawfulPool.get_tryRemove _ _ _ _ hremove] at hr
    split at hr
    · cases hr
    · exact h.numbered j r hr
  constructor
  · intro hdone
    have hended : q.live.toNat = 0 := by rw [Query.live, hdone]; rfl
    exact h.congr _ _ _ (by omega) hall
  · intro hdone
    have hgoes : q.live.toNat = 1 := by rw [Query.live, hdone]; rfl
    exact (h.ended _ _ _ (by omega) hall).1

theorem Books.cancelQuery (h : Books st e.queries)
    (handle : QueryHandle) :
    register.Leads (fun st e => Books st e.queries) st (e.cancelQueryNoted handle) := by
  unfold Queries.cancelQueryNoted
  cases hkey : e.queryKey handle with
  | none => exact register.leads_nil _ st e h
  | some key =>
    obtain ⟨q, hq, -⟩ := e.queryKey_some handle key hkey
    obtain ⟨queries, hremove⟩ := ReleasingPool.tryRemove_of_get e.queries q key hq
    obtain ⟨hended, hgoes⟩ := h.remove st e.queries queries q q key hq hremove
    dsimp only
    rw [hq, hremove]
    dsimp only
    cases hdone : q.done with
    | true => exact register.leads_nil _ st _ (hended hdone)
    | false => exact hgoes hdone

theorem Books.removeKeys (keys : List Nat) (queries : QS (Query I AN EV))
    (h : Books st queries)
    (hdone : ∀ key ∈ keys, ∀ q, Pool.get queries key = some q → q.done = true) :
    Books st (Queries.removeKeys keys queries) := by
  induction keys generalizing queries with
  | nil => exact h
  | cons key rest ih =>
    rw [Queries.removeKeys, List.foldl_cons]
    cases hremove : Pool.tryRemove queries key with
    | none => exact ih queries h fun k hk => hdone k (List.mem_cons_of_mem _ hk)
    | some removed =>
      obtain ⟨p, queries'⟩ := removed
      have hget := LawfulPool.get_tryRemove _ _ _ _ hremove
      apply ih queries'
      · cases hq : Pool.get queries key with
        | none =>
          have hsame : ∀ j, Pool.get queries' j = Pool.get queries j := by
            intro j
            rw [hget]
            split
            · rename_i hj
              rw [hj, hq]
            · rfl
          apply h.congr _ _ _ (census_congr _ _ hsame _)
          intro k q hk
          rw [hsame] at hk
          exact h.numbered k q hk
        | some q =>
          exact (h.remove st queries queries' q p key hq hremove).1
            (hdone key List.mem_cons_self q hq)
      · intro k hk q hq
        rw [hget] at hq
        split at hq
        · cases hq
        · exact hdone k (List.mem_cons_of_mem _ hk) q hq

theorem Books.sweep (h : Books st e.queries) :
    Books st e.sweepTerminatedQueries.1.queries := by
  apply h.removeKeys st _ e.queries
  intro key hkey q hq
  obtain ⟨⟨k, p⟩, hmem, rfl⟩ := List.mem_map.mp hkey
  obtain ⟨hiter, hemitted⟩ := List.mem_filter.mp hmem
  have hp := (LawfulPool.mem_iter _ k p).mp hiter
  have hsame : p = q := Option.some.inj (hp.symm.trans hq)
  rw [← hsame]
  exact (h.numbered k p hp).ended (.inl hemitted)

variable [LawfulPool AN] [LawfulPool EV]

theorem Books.start (h : Books st e.queries)
    (spec : QuerySpec) (now : I) :
    register.Leads (fun st e => Books st e.queries) st (e.tryStartQueryNoted spec now) := by
  unfold Queries.tryStartQueryNoted
  cases hinsert : Pool.insert e.queries (e.started spec now) with
  | none =>
    rw [e.tryStartQuery_full spec now hinsert]
    exact register.leads_nil _ st _ h
  | some placed =>
    obtain ⟨key, queries⟩ := placed
    have hcensus := census_insert _ _ _ _ hinsert Query.live
    have hlive : (e.started spec now).live.toNat = 1 := by
      rw [Query.live, Queries.started]
      cases spec.maxAnswers <;> rfl
    rw [hlive] at hcensus
    rw [e.tryStartQuery_placed spec now key queries hinsert]
    obtain ⟨hactive, hstarted, htimeout, hnumbered⟩ := h
    have hroom : st.active < st.started + 1 := by omega
    refine ⟨⟨⟨by rintro ⟨⟩, by rintro ⟨⟩⟩, ⟨by rintro ⟨⟩, fun _ => hroom⟩, trivial⟩, ?_, ?_,
      htimeout, ?_⟩
    · show st.active + 1 = _
      rw [hcensus, hactive]
    · show st.started + 1 = st.done + _
      rw [hcensus, hstarted]
      omega
    · intro k q hq
      rw [(LawfulPool.get_insert _ _ _ _ hinsert).2] at hq
      split at hq
      · cases hq
        exact (started_numbered e spec now).1
      · exact hnumbered k q hq

theorem proper_pollQuery : Proper fun q : Query I AN EV => (q.pollQuery.1, []) where
  tells q := .same (QueryRun.pollQuery_only q).2.1
  numbered q hq := (q.pollQuery_settled.evolves.numbered hq).1

theorem proper_pollTransmit (now : I) (buf : Bytes) :
    Proper fun q : Query I AN EV => ((q.pollTransmit now buf).1, []) where
  tells q := .same (q.pollTransmit_done now buf)
  numbered q hq := ((q.pollTransmit_settled now buf).evolves.numbered hq).1

theorem proper_noteTransmitOutcome (now : I) (v4 v6 : FamilyAttempt I) :
    Proper fun q : Query I AN EV => ((q.noteTransmitOutcome now v4 v6).1, []) where
  tells q := .same (q.noteTransmitOutcome_done now v4 v6)
  numbered q hq := ((q.noteTransmitOutcome_settled now v4 v6).evolves.numbered hq).1

theorem proper_handleTimeout (now : I) :
    Proper fun q : Query I AN EV => q.handleTimeoutNoted now where
  tells q := q.handleTimeoutNoted_tells now
  numbered q hq := by
    rw [q.handleTimeoutNoted_fst now]
    exact ((q.handleTimeout_settled now).evolves.numbered hq).1

theorem proper_retire : Proper (Query.retireNoted : Query I AN EV → _) where
  tells q := q.terminateNoted_tells q rfl
  numbered q hq := by
    rw [Query.retireNoted, q.terminateNoted_fst .timeout]
    exact (q.retire_settled.evolves.numbered hq).1

theorem proper_duplicate (now : I) (question : QuestionRef) :
    Proper fun q : Query I AN EV =>
      if q.done then (q, [])
      else if q.sameQuestion question then q.noteDuplicateQuestionNoted now
      else (q, []) := by
  constructor
  · intro q
    split
    · exact .same rfl
    · split
      · exact q.noteDuplicateQuestionNoted_tells now
      · exact .same rfl
  · intro q hq
    split
    · exact hq
    · split
      · rw [q.noteDuplicateQuestionNoted_fst now]
        exact ((q.noteDuplicateQuestion_settled now).evolves.numbered hq).1
      · exact hq

theorem proper_hear (now : I) (r : Ref) :
    Proper fun q : Query I AN EV => (q.hear now r, []) where
  tells q := .same (q.hear_done now r)
  numbered q hq := ((q.hear_evolves now r).numbered hq).1

theorem Books.hear (now : I) (records : List (Except ParseError Ref)) (st : QueryTally)
    (queries : QS (Query I AN EV)) (h : Books st queries) :
    register.Leads Books st (hearRecordsNoted now records queries) := by
  induction records generalizing st queries with
  | nil => exact register.leads_nil Books st queries h
  | cons record rest ih =>
    cases record with
    | error _ => exact register.leads_nil Books st queries h
    | ok r =>
      exact register.leads_andThen Books Books st _ _
        (h.noteEach st queries _ (proper_hear now r)) ih

theorem Books.suppress (now : I) (questions : List (Except ParseError QuestionRef))
    (st : QueryTally) (queries : QS (Query I AN EV)) (h : Books st queries) :
    register.Leads Books st (suppressQuestionsNoted now questions queries) := by
  induction questions generalizing st queries with
  | nil => exact register.leads_nil Books st queries h
  | cons question rest ih =>
    cases question with
    | error _ => exact register.leads_nil Books st queries h
    | ok q =>
      have hone : register.Leads Books st (suppressQuestionNoted now q queries) := by
        unfold suppressQuestionNoted
        split
        · exact register.leads_nil Books st queries h
        · exact h.noteEach st queries _ (proper_duplicate now q)
      exact register.leads_andThen Books Books st _ _ hone ih

theorem Books.handled (queries : QS (Query I AN EV)) (h : Books st queries)
    (now : I) (src : SocketAddr) (reader : MessageReader) (admits : Admits) :
    register.Leads Books st (handledQueriesNoted now src reader admits queries) := by
  unfold handledQueriesNoted
  apply register.leads_andThen Books Books st
  · split
    · exact Books.hear now _ st queries h
    · exact register.leads_nil Books st queries h
  · intro st queries h
    split
    · exact Books.suppress now _ st queries h
    · exact register.leads_nil Books st queries h

end QueryTally
end
end Hick
