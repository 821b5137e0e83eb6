import Hick.Query.Spacing

/-!
# What a query collects (query/mod.rs:437-698, endpoint/query.rs:132-184, receive.rs:380-424)

The answers of a query are a function of the records it has heard, in the order of their arrival.
-/

set_option linter.unusedSectionVars false

namespace Hick
open Octets Wire Runs

section
variable {I : Type} {AN EV : Type → Type} [Instant I] [Pool AN] [Pool EV]

namespace Query

def take (q : Query I AN EV) (r : Ref) : Query I AN EV :=
  if namesMatchRecord q.qname r && q.accepts r then q.collect r else q

def answersTo (q : Query I AN EV) (records : List Ref) : AN CollectedAnswer :=
  (records.foldl take q).answers

structure Agrees (q p : Query I AN EV) : Prop where
  qname : q.qname = p.qname
  qtype : q.qtype = p.qtype
  qclass : q.qclass = p.qclass
  maxAnswers : q.maxAnswers = p.maxAnswers
  answers : q.answers = p.answers
  nextSeq : q.nextSeq = p.nextSeq

theorem Agrees.refl (q : Query I AN EV) : q.Agrees q := ⟨rfl, rfl, rfl, rfl, rfl, rfl⟩

theorem Agrees.store (q p : Query I AN EV) (h : q.Agrees p) (answer : CollectedAnswer) :
    (q.store answer).Agrees (p.store answer) := by
  simp only [Query.store, h.answers, h.maxAnswers, h.nextSeq]
  split
  · exact h
  · split
    · exact h
    · generalize (if p.maxAnswers ≤ (Pool.iter p.answers).length ∨
        vacantKey p.answers answer = none then evictOldest p.answers else p.answers) = room
      cases Pool.insert room answer with
      | none => exact ⟨h.qname, h.qtype, h.qclass, rfl, rfl, rfl⟩
      | some stored => exact ⟨h.qname, h.qtype, h.qclass, rfl, rfl, rfl⟩

theorem Agrees.collect (q p : Query I AN EV) (h : q.Agrees p) (r : Ref) :
    (q.collect r).Agrees (p.collect r) := by
  simp only [Query.collect, h.qtype, h.qclass, h.nextSeq]
  split
  · exact h
  · split
    · exact h
    · split
      · exact h
      · cases r.canonicalRdata with
        | error _ => exact h
        | ok owned =>
          cases r.canonicalRdataFolded with
          | error _ => exact h
          | ok folded => exact h.store q p _

theorem Agrees.take (q p : Query I AN EV) (h : q.Agrees p) (r : Ref) :
    (q.take r).Agrees (p.take r) := by
  have hsame : (namesMatchRecord q.qname r && q.accepts r) =
      (namesMatchRecord p.qname r && p.accepts r) := by
    simp only [accepts, h.qname, h.qtype, h.qclass]
  rw [Query.take, Query.take, hsame]
  cases namesMatchRecord p.qname r && p.accepts r with
  | true => exact h.collect q p r
  | false => exact h

def Hears (q : Query I AN EV) (now : I) : Prop :=
  q.done = false ∧ q.terminalEmitted = false ∧ q.callerWindowShut now = false

theorem hear_open (q : Query I AN EV) (now : I) (r : Ref) (h : q.Hears now) :
    q.hear now r = q.take r := by
  obtain ⟨hdone, hemitted, hopen⟩ := h
  simp [hear, take, handleEvent, hdone, hemitted, hopen]

theorem hear_shut (q : Query I AN EV) (now : I) (r : Ref)
    (h : q.done = true ∨ q.callerWindowShut now = true) : q.hear now r = q := by
  have hevent : q.handleEvent (.answer r) now = q := by
    rw [handleEvent]
    split
    · rfl
    · rename_i hlive
      rcases h with h | h
      · exact absurd h hlive
      · rw [if_pos h]
  rw [hear]
  split
  · rfl
  · split
    · exact hevent
    · rfl

theorem hear_hears (q : Query I AN EV) (now : I) (r : Ref) (h : q.Hears now) :
    (q.hear now r).Hears now := by
  obtain ⟨answers, nextSeq, heq⟩ := q.hear_only now r
  rw [heq]
  exact h

theorem records_open (records : List Ref) (q : Query I AN EV) (now : I) (h : q.Hears now) :
    records.foldl (fun q r => q.hear now r) q = records.foldl take q := by
  induction records generalizing q with
  | nil => rfl
  | cons r rest ih =>
    rw [List.foldl_cons, List.foldl_cons, ih _ (q.hear_hears now r h), q.hear_open now r h]

theorem records_shut (records : List Ref) (q : Query I AN EV) (now : I)
    (h : q.done = true ∨ q.callerWindowShut now = true) :
    records.foldl (fun q r => q.hear now r) q = q := by
  induction records with
  | nil => rfl
  | cons r rest ih => rw [List.foldl_cons, q.hear_shut now r h, ih]

theorem Agrees.records (records : List Ref) (q p : Query I AN EV) (h : q.Agrees p) :
    (records.foldl Query.take q).Agrees (records.foldl Query.take p) := by
  induction records generalizing q p with
  | nil => exact h
  | cons r rest ih => exact ih _ _ (h.take q p r)

/-- How the end of a query stands: no update waits before it, and its window stands until it. -/
structure Ends (deadline : I) (q : Query I AN EV) : Prop where
  quiet : q.done = false → Pool.iter q.pendingUpdates = []
  unsaid : q.done = false → q.terminalEmitted = false
  window : q.done = false → q.timeoutDeadline = some deadline

theorem Ends.shut_iff (deadline : I) (q : Query I AN EV) (h : Ends deadline q)
    (hdone : q.done = false) (now : I) : q.callerWindowShut now = true ↔ deadline ≤ now := by
  simp [callerWindowShut, h.window hdone]

theorem Ends.hears_iff (deadline : I) (q : Query I AN EV) (h : Ends deadline q)
    (hdone : q.done = false) (now : I) : q.Hears now ↔ now < deadline := by
  rw [Hears, and_iff_right hdone, and_iff_right (h.unsaid hdone), ← Bool.not_eq_true,
    h.shut_iff deadline q hdone, not_le]

theorem Ends.poll (deadline : I) (q : Query I AN EV) (h : Ends deadline q) :
    q.pollQuery.2.isSome = (q.done && !q.terminalEmitted) ∧
      q.pollQuery.1.terminalEmitted = (q.done || q.terminalEmitted) := by
  have hquiet : q.done = false → q.poll = (q, none) := by
    intro hdone
    rw [Query.poll, h.quiet hdone]
  have hkept : q.poll.1.done = q.done ∧ q.poll.1.terminalEmitted = q.terminalEmitted := by
    rw [Query.poll]
    split
    · exact ⟨rfl, rfl⟩
    · split <;> exact ⟨rfl, rfl⟩
  rw [pollQuery]
  cases hemitted : q.terminalEmitted with
  | true => simp [hemitted]
  | false =>
    cases hdone : q.done with
    | false =>
      rw [hquiet hdone]
      simp [hdone, hemitted]
    | true =>
      rw [hdone, hemitted] at hkept
      revert hkept
      rcases q.poll with ⟨q', _ | update⟩
      · intro hkept
        have hdone' : q'.done = true := hkept.1
        simp [hdone']
      · intro _
        simp

end Query

namespace QueryRun

def heardBy (deadline : I) (e : QueryStep I) : List Ref :=
  match e.call with
  | .records records => if e.now < deadline then records else []
  | _ => []

def recordsBefore (deadline : I) (es : List (QueryStep I)) : List Ref :=
  es.flatMap (heardBy deadline)

def recordsWhileLive (deadline : I) (ts : List (Transition (QueryRun I AN EV) (QueryStep I))) :
    List Ref :=
  ts.flatMap fun tr => if tr.pre.query.done then [] else heardBy deadline tr.call

def tells (tr : Transition (QueryRun I AN EV) (QueryStep I)) : Bool :=
  match tr.call.call with
  | .update => tr.pre.query.pollQuery.2.isSome
  | _ => false

theorem started_ends [LawfulPool EV] (q₀ : Query I AN EV) (hstart : Started q₀) (deadline : I)
    (h : q₀.timeoutDeadline = some deadline) : q₀.Ends deadline ∧ q₀.done = false := by
  obtain ⟨handle, qname, qtype, qclass, txid, unicast, deadline', max, rfl⟩ := hstart
  exact ⟨⟨fun _ => LawfulPool.iter_new, fun _ => rfl, fun _ => h⟩, rfl⟩

/-- What a call that brings no records and polls for no update does to the end of a query. -/
inductive EndEffect (q q' : Query I AN EV) : Prop
  | goes (hagrees : q'.Agrees q) (hdone : q'.done = q.done)
    (hupdates : q'.pendingUpdates = q.pendingUpdates)
    (hemitted : q'.terminalEmitted = q.terminalEmitted)
    (hwindow : q'.timeoutDeadline = q.timeoutDeadline)
  | ends (hagrees : q'.Agrees q) (hlive : q.done = false) (hdone : q'.done = true)
    (hemitted : q'.terminalEmitted = q.terminalEmitted)

theorem EndEffect.same (q : Query I AN EV) : EndEffect q q := .goes (.refl q) rfl rfl rfl rfl

theorem terminate_ends (q q' : Query I AN EV) (hagrees : q'.Agrees q) (hlive : q.done = false)
    (hlive' : q'.done = false) (hemitted : q'.terminalEmitted = q.terminalEmitted)
    (u : QueryUpdate) : EndEffect q (q'.terminate u) := by
  rw [Query.terminate_of_live q' hlive']
  exact .ends ⟨hagrees.qname, hagrees.qtype, hagrees.qclass, hagrees.maxAnswers, hagrees.answers,
    hagrees.nextSeq⟩ hlive rfl hemitted

theorem serve_end (q : Query I AN EV) (now : I) (call : QueryCall I)
    (hrecords : ∀ records, call ≠ .records records) (hupdate : call ≠ .update) :
    EndEffect q (serve q now call) := by
  cases call with
  | records records => exact absurd rfl (hrecords records)
  | update => exact absurd rfl hupdate
  | retire =>
    show EndEffect q (q.terminate .timeout)
    cases hdone : q.done with
    | true =>
      have hidle : q.terminate .timeout = q := by rw [Query.terminate, if_pos hdone]
      rw [hidle]
      exact .same q
    | false => exact terminate_ends q q (.refl q) hdone hdone rfl _
  | timeout =>
    have heffect := q.handleTimeout_effect now
    show EndEffect q (q.handleTimeout now)
    generalize q.handleTimeout now = q' at heffect ⊢
    cases heffect with
    | idle _ => exact .same q
    | window hdone _ => exact terminate_ends q q (.refl q) hdone hdone rfl _
    | budget _ hdone _ _ _ _ => exact terminate_ends q q (.refl q) hdone hdone rfl _
    | arm _ _ _ _ _ _ => exact .goes ⟨rfl, rfl, rfl, rfl, rfl, rfl⟩ rfl rfl rfl rfl
  | transmit buf =>
    have heffect := q.pollTransmit_effect now buf
    show EndEffect q (q.pollTransmit now buf).1
    generalize (q.pollTransmit now buf).1 = q' at heffect ⊢
    generalize sentOf (q.pollTransmit now buf).2 = sent at heffect
    cases heffect with
    | nothing => exact .same q
    | asks _ _ _ _ => exact .goes ⟨rfl, rfl, rfl, rfl, rfl, rfl⟩ rfl rfl rfl rfl
  | outcome v4 v6 =>
    show EndEffect q (q.noteTransmitOutcome now v4 v6).1
    by_cases hawaits : q.Awaits
    · rw [q.noteTransmitOutcome_heard now v4 v6 hawaits]
      exact .goes ⟨rfl, rfl, rfl, rfl, rfl, rfl⟩ rfl rfl rfl rfl
    · rw [q.noteTransmitOutcome_unheard now v4 v6 hawaits]
      exact .goes ⟨rfl, rfl, rfl, rfl, rfl, rfl⟩ rfl rfl rfl rfl
  | duplicate =>
    show EndEffect q (q.noteDuplicateQuestion now).1
    by_cases hspends : q.Suppresses now
    · rw [q.noteDuplicateQuestion_suppresses now hspends]
      by_cases hspent : maxRetries < q.retryCount + 1
      · rw [if_pos hspent]
        exact terminate_ends q { q with
          transmitPending := false
          retryCount := q.retryCount + 1
          partialSendStreak := 0
          partialRounds := .both .default } ⟨rfl, rfl, rfl, rfl, rfl, rfl⟩ hspends.1 hspends.1
            rfl .timeout
      · rw [if_neg hspent]
        exact .goes ⟨rfl, rfl, rfl, rfl, rfl, rfl⟩ rfl rfl rfl rfl
    · rw [q.noteDuplicateQuestion_idle now hspends]
      exact .same q

theorem pollQuery_only (q : Query I AN EV) :
    q.pollQuery.1.Agrees q ∧ q.pollQuery.1.done = q.done ∧
      q.pollQuery.1.timeoutDeadline = q.timeoutDeadline := by
  have hpoll : q.poll.1.Agrees q ∧ q.poll.1.done = q.done ∧
      q.poll.1.timeoutDeadline = q.timeoutDeadline := by
    rw [Query.poll]
    split
    · exact ⟨.refl q, rfl, rfl⟩
    · split
      · exact ⟨⟨rfl, rfl, rfl, rfl, rfl, rfl⟩, rfl, rfl⟩
      · exact ⟨.refl q, rfl, rfl⟩
  rw [Query.pollQuery]
  split
  · exact ⟨.refl q, rfl, rfl⟩
  · revert hpoll
    rcases q.poll with ⟨q', _ | update⟩
    · intro hpoll
      simp only
      split
      · exact ⟨⟨hpoll.1.qname, hpoll.1.qtype, hpoll.1.qclass, hpoll.1.maxAnswers,
          hpoll.1.answers, hpoll.1.nextSeq⟩, hpoll.2⟩
      · exact hpoll
    · intro hpoll
      exact ⟨⟨hpoll.1.qname, hpoll.1.qtype, hpoll.1.qclass, hpoll.1.maxAnswers,
        hpoll.1.answers, hpoll.1.nextSeq⟩, hpoll.2⟩

theorem records_only (records : List Ref) (q : Query I AN EV) (now : I) :
    ∃ answers nextSeq, records.foldl (fun q r => q.hear now r) q = { q with
      answers := answers
      nextSeq := nextSeq } := by
  induction records generalizing q with
  | nil => exact ⟨q.answers, q.nextSeq, rfl⟩
  | cons r rest ih =>
    obtain ⟨answers, nextSeq, heq⟩ := q.hear_only now r
    obtain ⟨answers', nextSeq', heq'⟩ := ih (q.hear now r)
    refine ⟨answers', nextSeq', ?_⟩
    rw [List.foldl_cons, heq', heq]

theorem next_ends (s : QueryRun I AN EV) (e : QueryStep I) (deadline : I)
    (h : s.query.Ends deadline) : (s.next e).query.Ends deadline := by
  obtain ⟨now, call⟩ := e
  by_cases hrecords : ∃ records, call = .records records
  · obtain ⟨records, rfl⟩ := hrecords
    obtain ⟨answers, nextSeq, heq⟩ := records_only records s.query now
    show Query.Ends deadline (records.foldl (fun q r => q.hear now r) s.query)
    rw [heq]
    exact ⟨h.quiet, h.unsaid, h.window⟩
  · by_cases hupdate : call = .update
    · subst hupdate
      show Query.Ends deadline s.query.pollQuery.1
      cases hdone : s.query.done with
      | true =>
        have hpost : s.query.pollQuery.1.done = true := by
          rw [(pollQuery_only s.query).2.1, hdone]
        refine ⟨?_, ?_, ?_⟩
        all_goals
          intro hlive
          rw [hpost] at hlive
          cases hlive
      | false =>
        have hidle : s.query.pollQuery = (s.query, none) := by
          simp [Query.pollQuery, Query.poll, h.unsaid hdone, h.quiet hdone, hdone]
        rw [hidle]
        exact h
    · have heffect := serve_end s.query now call (fun records hr => hrecords ⟨records, hr⟩) hupdate
      show Query.Ends deadline (serve s.query now call)
      cases heffect with
      | goes hagrees hdone hupdates hemitted hwindow =>
        constructor
        · rw [hdone, hupdates]
          exact h.quiet
        · rw [hdone, hemitted]
          exact h.unsaid
        · rw [hdone, hwindow]
          exact h.window
      | ends hagrees hlive hdone hemitted =>
        refine ⟨?_, ?_, ?_⟩
        all_goals
          intro hgoes
          rw [hdone] at hgoes
          cases hgoes

theorem next_answers (s : QueryRun I AN EV) (e : QueryStep I) (deadline : I)
    (h : s.query.Ends deadline) : (s.next e).query.Agrees
      ((if s.query.done then [] else heardBy deadline e).foldl Query.take s.query) := by
  obtain ⟨now, call⟩ := e
  by_cases hrecords : ∃ records, call = .records records
  · obtain ⟨records, rfl⟩ := hrecords
    show Query.Agrees (records.foldl (fun q r => q.hear now r) s.query) _
    cases hdone : s.query.done with
    | true =>
      rw [Query.records_shut records s.query now (Or.inl hdone)]
      exact .refl s.query
    | false =>
      by_cases hopen : now < deadline
      · rw [Query.records_open records s.query now ((h.hears_iff deadline _ hdone now).mpr hopen)]
        simp only [heardBy, hopen, if_true, Bool.false_eq_true, if_false]
        exact .refl _
      · have hshut := (h.shut_iff deadline _ hdone now).mpr (not_lt.mp hopen)
        rw [Query.records_shut records s.query now (Or.inr hshut)]
        simp only [heardBy, hopen, Bool.false_eq_true, if_false]
        exact .refl _
  · have hnone : heardBy deadline ⟨now, call⟩ = [] := by
      cases call with
      | records records => exact absurd ⟨records, rfl⟩ hrecords
      | duplicate => rfl
      | timeout => rfl
      | transmit _ => rfl
      | outcome _ _ => rfl
      | update => rfl
      | retire => rfl
    rw [hnone, ite_self, List.foldl_nil]
    by_cases hupdate : call = .update
    · subst hupdate
      exact (pollQuery_only s.query).1
    · have heffect := serve_end s.query now call (fun records hr => hrecords ⟨records, hr⟩) hupdate
      cases heffect with
      | goes hagrees _ _ _ _ => exact hagrees
      | ends hagrees _ _ _ => exact hagrees

theorem next_done (s : QueryRun I AN EV) (e : QueryStep I) (h : s.query.done = true) :
    (s.next e).query.done = true ∧ (s.next e).query.answers = s.query.answers := by
  obtain ⟨now, call⟩ := e
  by_cases hrecords : ∃ records, call = .records records
  · obtain ⟨records, rfl⟩ := hrecords
    show (records.foldl (fun q r => q.hear now r) s.query).done = true ∧
      (records.foldl (fun q r => q.hear now r) s.query).answers = s.query.answers
    rw [Query.records_shut records s.query now (Or.inl h)]
    exact ⟨h, rfl⟩
  · by_cases hupdate : call = .update
    · subst hupdate
      obtain ⟨hagrees, hdone, -⟩ := pollQuery_only s.query
      exact ⟨hdone.trans h, hagrees.answers⟩
    · have heffect := serve_end s.query now call (fun records hr => hrecords ⟨records, hr⟩) hupdate
      cases heffect with
      | goes hagrees hdone _ _ _ => exact ⟨hdone.trans h, hagrees.answers⟩
      | ends hagrees hlive _ _ =>
        rw [h] at hlive
        cases hlive

theorem play_done (q₀ : Query I AN EV) (es : List (QueryStep I)) (s : QueryRun I AN EV)
    (h : s.query.done = true) : ((machine q₀).play s es).query.done = true ∧
      ((machine q₀).play s es).query.answers = s.query.answers := by
  induction es generalizing s with
  | nil => exact ⟨h, rfl⟩
  | cons e rest ih =>
    obtain ⟨hdone, hsame⟩ := next_done s e h
    obtain ⟨hlast, hanswers⟩ := ih (s.next e) hdone
    exact ⟨hlast, hanswers.trans hsame⟩

theorem collected_run [LawfulPool EV] (q₀ : Query I AN EV) (hstart : Started q₀) (deadline : I)
    (hd : q₀.timeoutDeadline = some deadline)
    (ts : List (Transition (QueryRun I AN EV) (QueryStep I))) (s : QueryRun I AN EV)
    (run : Run (machine q₀) ts s) :
    s.query.Agrees ((recordsWhileLive deadline ts).foldl Query.take q₀) ∧
      s.query.Ends deadline := by
  have hsummary : recordsWhileLive deadline ts = summary (fun g tr =>
      g ++ if tr.pre.query.done then [] else heardBy deadline tr.call) [] ts :=
    List.flatMap_eq_foldl
  rw [hsummary]
  apply run.invariant (machine q₀) _ []
    (fun g s => s.query.Agrees (g.foldl Query.take q₀) ∧ s.query.Ends deadline) (fun _ => True)
  · rintro s rfl
    exact ⟨.refl _, (started_ends _ hstart deadline hd).1⟩
  · intro g s e h _ _
    refine ⟨?_, next_ends s e deadline h.2⟩
    rw [List.foldl_append]
    have hnext := next_answers s e deadline h.2
    have hpast := h.1.records (if s.query.done then [] else heardBy deadline e)
    exact ⟨hnext.qname.trans hpast.qname, hnext.qtype.trans hpast.qtype,
      hnext.qclass.trans hpast.qclass, hnext.maxAnswers.trans hpast.maxAnswers,
      hnext.answers.trans hpast.answers, hnext.nextSeq.trans hpast.nextSeq⟩
  · intro _ _
    trivial

theorem heard_run (q₀ : Query I AN EV) (hstart : q₀.done = false) (deadline : I)
    (ts : List (Transition (QueryRun I AN EV) (QueryStep I))) (s : QueryRun I AN EV)
    (run : Run (machine q₀) ts s)
    (hgoes : ∀ tr ∈ ts, tr.call.now < deadline → tr.post.query.done = false) :
    recordsWhileLive deadline ts = recordsBefore deadline (ts.map Transition.call) ∧
      (s.query.done = true → deadline ≤ s.clock) := by
  induction run with
  | start s h =>
    obtain rfl := h
    refine ⟨rfl, ?_⟩
    intro hdone
    rw [hstart] at hdone
    cases hdone
  | step ts s e run hclock ih =>
    obtain ⟨hsame, hlate⟩ := ih fun tr htr => hgoes tr (List.mem_append_left _ htr)
    constructor
    · rw [recordsWhileLive, List.flatMap_append, List.map_append, recordsBefore,
        List.flatMap_append]
      apply congrArg₂ _ hsame
      simp only [List.flatMap_singleton, List.map_cons, List.map_nil]
      show (if s.query.done then [] else heardBy deadline e) = heardBy deadline e
      cases hdone : s.query.done with
      | false => rfl
      | true =>
        -- past the deadline there is nothing to hear
        have hpast : ¬ e.now < deadline := not_lt.mpr (le_trans (hlate hdone) hclock)
        rw [heardBy]
        cases e.call with
        | records records => simp [hpast]
        | duplicate => rfl
        | timeout => rfl
        | transmit _ => rfl
        | outcome _ _ => rfl
        | update => rfl
        | retire => rfl
    · intro hdone
      by_contra hearly
      have hlive := hgoes ((machine q₀).transition s e)
        (List.mem_append_right _ (List.mem_singleton.mpr rfl)) (not_le.mp hearly)
      have hpost : (s.next e).query.done = false := hlive
      have hdone' : (s.next e).query.done = true := hdone
      rw [hpost] at hdone'
      cases hdone'

def asksAtEnd (tr : Transition (QueryRun I AN EV) (QueryStep I)) : Bool :=
  match tr.call.call with
  | .update => tr.pre.query.done
  | _ => false

theorem next_tells (s : QueryRun I AN EV) (e : QueryStep I) (deadline : I)
    (h : s.query.Ends deadline) (q₀ : Query I AN EV) :
    tells ((machine q₀).transition s e) =
        (asksAtEnd ((machine q₀).transition s e) && !s.query.terminalEmitted) ∧
      (s.next e).query.terminalEmitted =
        (s.query.terminalEmitted || asksAtEnd ((machine q₀).transition s e)) := by
  obtain ⟨now, call⟩ := e
  by_cases hrecords : ∃ records, call = .records records
  · obtain ⟨records, rfl⟩ := hrecords
    obtain ⟨answers, nextSeq, heq⟩ := records_only records s.query now
    refine ⟨rfl, ?_⟩
    show (records.foldl (fun q r => q.hear now r) s.query).terminalEmitted = _
    rw [heq]
    exact (Bool.or_false _).symm
  · by_cases hupdate : call = .update
    · subst hupdate
      obtain ⟨hsome, hemitted⟩ := h.poll
      refine ⟨hsome, ?_⟩
      show s.query.pollQuery.1.terminalEmitted = (s.query.terminalEmitted || s.query.done)
      rw [hemitted, Bool.or_comm]
    · have hsilent : tells ((machine q₀).transition s ⟨now, call⟩) = false ∧
          asksAtEnd ((machine q₀).transition s ⟨now, call⟩) = false := by
        cases call with
        | update => exact absurd rfl hupdate
        | records _ => exact ⟨rfl, rfl⟩
        | duplicate => exact ⟨rfl, rfl⟩
        | timeout => exact ⟨rfl, rfl⟩
        | transmit _ => exact ⟨rfl, rfl⟩
        | outcome _ _ => exact ⟨rfl, rfl⟩
        | retire => exact ⟨rfl, rfl⟩
      rw [hsilent.1, hsilent.2, Bool.or_false, Bool.false_and]
      refine ⟨rfl, ?_⟩
      have heffect := serve_end s.query now call (fun records hr => hrecords ⟨records, hr⟩) hupdate
      cases heffect with
      | goes _ _ _ hemitted _ => exact hemitted
      | ends _ _ _ hemitted => exact hemitted

theorem tells_run [LawfulPool EV] (q₀ : Query I AN EV) (hstart : Started q₀) (deadline : I)
    (hd : q₀.timeoutDeadline = some deadline)
    (ts : List (Transition (QueryRun I AN EV) (QueryStep I))) (s : QueryRun I AN EV)
    (run : Run (machine q₀) ts s) :
    ts.countP tells = (ts.any asksAtEnd).toNat ∧ s.query.terminalEmitted = ts.any asksAtEnd := by
  induction run with
  | start s h =>
    obtain rfl := h
    refine ⟨rfl, ?_⟩
    have hends := started_ends _ hstart deadline hd
    exact hends.1.unsaid hends.2
  | step ts s e run _ ih =>
    obtain ⟨hcount, hemitted⟩ := ih
    have hends := (collected_run q₀ hstart deadline hd ts s run).2
    obtain ⟨htells, hnext⟩ := next_tells s e deadline hends q₀
    rw [List.countP_append, List.any_append, List.countP_singleton, List.any_cons, List.any_nil,
      Bool.or_false, htells, hcount]
    refine ⟨?_, ?_⟩
    · rw [hemitted]
      cases ts.any asksAtEnd <;> cases asksAtEnd ((machine q₀).transition s e) <;> rfl
    · show (s.next e).query.terminalEmitted = _
      rw [hnext, hemitted]

/-- Over every run of a query with a deadline. The answers are those collected in order from the
records that were processed strictly before the deadline while the query was still going; these are
all the records processed strictly before the deadline when no call made before it has ended the
query, whatever else was called in between. -/
theorem query_answers [LawfulPool EV] (q₀ : Query I AN EV) (hstart : Started q₀) (deadline : I)
    (hd : q₀.timeoutDeadline = some deadline)
    (ts : List (Transition (QueryRun I AN EV) (QueryStep I))) (s : QueryRun I AN EV)
    (run : Run (machine q₀) ts s) :
    s.query.answers = q₀.answersTo (recordsWhileLive deadline ts) ∧
    ((∀ tr ∈ ts, tr.call.now < deadline → tr.post.query.done = false) →
      s.query.answers = q₀.answersTo (recordsBefore deadline (ts.map Transition.call))) ∧
    (s.query.done = true → ∀ es, ((machine q₀).play s es).query.done = true ∧
      ((machine q₀).play s es).query.answers = s.query.answers) ∧
    ts.countP tells = (if ts.any asksAtEnd then 1 else 0) ∧
    (∀ e sent, s.asked e = some sent → e.now < deadline) := by
  obtain ⟨hagrees, hends⟩ := collected_run q₀ hstart deadline hd ts s run
  have hlive := (started_ends q₀ hstart deadline hd).2
  refine ⟨hagrees.answers, ?_, ?_, ?_, ?_⟩
  · intro hgoes
    rw [← (heard_run q₀ hlive deadline ts s run hgoes).1]
    exact hagrees.answers
  · intro hdone es
    exact play_done q₀ es s hdone
  · rw [(tells_run q₀ hstart deadline hd ts s run).1]
    cases ts.any asksAtEnd <;> rfl
  · intro e sent hasked
    obtain ⟨hdone, -, hopen⟩ := asked_pending s e sent hasked
    by_contra hlate
    rw [(hends.shut_iff deadline _ hdone e.now).mpr (not_lt.mp hlate)] at hopen
    cases hopen

end QueryRun
end

namespace QueryRun

def addressQuery : Query Uptime Slab Slab :=
  (Query.tryNew ⟨1⟩ ServiceRecords.printerHost .a .in_ 7 false (some 300000000000)).setMaxAnswers
    256

def addressAnswer : Ref where
  message := [1, 104, 5, 108, 111, 99, 97, 108, 0, 10, 0, 0, 1]
  name := ⟨[1, 104, 5, 108, 111, 99, 97, 108, 0, 10, 0, 0, 1], 0⟩
  rtype := .a
  rclass := .in_
  cacheFlush := true
  ttl := 120
  rdataStart := 9
  rdataLen := 4

def eightSuppressed : List (QueryStep Uptime) :=
  [⟨0, .duplicate⟩, ⟨1000000000, .duplicate⟩, ⟨3000000000, .duplicate⟩, ⟨7000000000, .duplicate⟩,
    ⟨15000000000, .duplicate⟩, ⟨31000000000, .duplicate⟩, ⟨63000000000, .duplicate⟩,
    ⟨123000000000, .duplicate⟩]

def answeredLate : List (QueryStep Uptime) :=
  [⟨299999999999, .records [addressAnswer]⟩, ⟨300000000000, .records [addressAnswer]⟩,
    ⟨300000000000, .timeout⟩, ⟨300000000000, .update⟩, ⟨300000000000, .update⟩]

instance (q₀ : Query Uptime Slab Slab) (s : QueryRun Uptime Slab Slab) (e : QueryStep Uptime) :
    Decidable ((machine q₀).admits s e) := by
  unfold machine
  infer_instance

theorem address_run (es : List (QueryStep Uptime))
    (h : (machine addressQuery).Admitted ⟨addressQuery, 0⟩ es) :
    Run (machine addressQuery) ((machine addressQuery).trace ⟨addressQuery, 0⟩ es)
      ((machine addressQuery).play ⟨addressQuery, 0⟩ es) := by
  have hplay := Run.play (machine addressQuery) [] ⟨addressQuery, 0⟩ (.start _ rfl) es h
  rw [List.nil_append] at hplay
  exact hplay

theorem query_answers_address :
    ((machine addressQuery).trace ⟨addressQuery, 0⟩ answeredLate).countP tells = 1 := by
  rw [(query_answers addressQuery ⟨_, _, _, _, _, _, _, _, rfl⟩ 300000000000 rfl _ _
    (address_run answeredLate (by decide +kernel))).2.2.2.1]
  decide +kernel

/-- At 183 s the ninth suppressed slot ends the query: an answer of that instant is collected
before it and lost after it. -/
theorem spent_budget_depends_on_order :
    ¬ ∀ es : List (QueryStep Uptime), (machine addressQuery).Admitted ⟨addressQuery, 0⟩ es →
      (∀ e ∈ es, e.call ≠ .retire) →
      ((machine addressQuery).play ⟨addressQuery, 0⟩ es).query.answers =
        addressQuery.answersTo (recordsBefore 300000000000 es) := by
  intro h
  have hlost := h
    (eightSuppressed ++ [⟨183000000000, .duplicate⟩, ⟨183000000000, .records [addressAnswer]⟩])
    (by decide +kernel) (by
      intro e he
      simp only [eightSuppressed, List.cons_append, List.nil_append, List.mem_cons,
        List.not_mem_nil, or_false] at he
      rcases he with rfl | rfl | rfl | rfl | rfl | rfl | rfl | rfl | rfl | rfl <;> nofun)
  have hcount := congrArg (fun answers => (Pool.iter answers).length) hlost
  revert hcount
  decide +kernel

end QueryRun
end Hick
