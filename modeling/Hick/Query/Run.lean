import Hick.Lib.Runs
import Hick.Query.State
import Hick.Service.Moves

/-!
# A query driven by its endpoint

The calls a query receives, each at an instant of the driver's clock.
-/

namespace Hick
open Octets Wire Runs

inductive QueryCall (I : Type) where
  | records (records : List Ref)
  | duplicate
  | timeout
  | transmit (buf : Bytes)
  | outcome (v4 v6 : FamilyAttempt I)
  | update
  | retire

structure QueryRun (I : Type) (AN EV : Type → Type) where
  query : Query I AN EV
  clock : I

structure QueryStep (I : Type) where
  now : I
  call : QueryCall I

namespace QueryRun
variable {I : Type} {AN EV : Type → Type} [Instant I] [Pool AN] [Pool EV]

def serve (q : Query I AN EV) (now : I) : QueryCall I → Query I AN EV
  | .records records => records.foldl (fun q r => q.hear now r) q
  | .duplicate => (q.noteDuplicateQuestion now).1
  | .timeout => q.handleTimeout now
  | .transmit buf => (q.pollTransmit now buf).1
  | .outcome v4 v6 => (q.noteTransmitOutcome now v4 v6).1
  | .update => q.pollQuery.1
  | .retire => q.retire

def next (s : QueryRun I AN EV) (e : QueryStep I) : QueryRun I AN EV :=
  ⟨serve s.query e.now e.call, e.now⟩

def machine (q₀ : Query I AN EV) : Machine (QueryRun I AN EV) (QueryStep I) where
  start s := s.query = q₀
  admits s e := s.clock ≤ e.now
  next := next

/-- A query as `try_start_query` makes it (endpoint/query.rs:44-92). -/
def Started (q : Query I AN EV) : Prop :=
  ∃ handle qname qtype qclass txid unicastResponse timeoutDeadline max,
    q = (Query.tryNew handle qname qtype qclass txid unicastResponse timeoutDeadline).setMaxAnswers
      max

def asked (s : QueryRun I AN EV) (e : QueryStep I) : Option Sent :=
  match e.call with
  | .transmit buf => sentOf (s.query.pollTransmit e.now buf).2
  | _ => none

end QueryRun

def answerOf (seq : UInt64) (r : Ref) : Option CollectedAnswer :=
  match r.canonicalRdata, r.canonicalRdataFolded with
  | .ok owned, .ok folded => some
      { rtype := r.rtype
        rclass := r.rclass
        rdata := owned
        rdataKey := if folded = owned then none else some folded
        seq := seq }
  | _, _ => none

namespace Query
variable {I : Type} {AN EV : Type → Type}

section
variable [Pool AN]

/-- Whether an answer is among those that are held, but for its number. -/
def known (q : Query I AN EV) (answer : CollectedAnswer) : Bool :=
  (Pool.iter q.answers).any fun (_, existing) => existing.rtype == answer.rtype &&
    existing.rclass == answer.rclass && existing.key == answer.key

def room (q : Query I AN EV) (answer : CollectedAnswer) : AN CollectedAnswer :=
  if q.maxAnswers ≤ (Pool.iter q.answers).length ∨ vacantKey q.answers answer = none then
    evictOldest q.answers
  else q.answers

/-- What is left of a query that is to store an answer: itself, itself with room that the pool does
not give, or itself with the answer. -/
inductive Stored (q : Query I AN EV) (answer : CollectedAnswer) : Query I AN EV → Prop
  | same : Stored q answer q
  | refused (hnew : q.known answer = false) (hmax : q.maxAnswers ≠ 0)
    (hinsert : Pool.insert (q.room answer) answer = none) :
    Stored q answer { q with answers := q.room answer }
  | taken (hnew : q.known answer = false) (hmax : q.maxAnswers ≠ 0) (key : Nat)
    (answers : AN CollectedAnswer)
    (hinsert : Pool.insert (q.room answer) answer = some (key, answers)) :
    Stored q answer { q with
      answers := answers
      nextSeq := saturatingSucc64 q.nextSeq }

theorem store_stored (q : Query I AN EV) (answer : CollectedAnswer) :
    q.Stored answer (q.store answer) := by
  unfold store
  split
  · exact .same
  · rename_i hnew
    split
    · exact .same
    · rename_i hmax
      have hnew : q.known answer = false := Bool.not_eq_true _ ▸ hnew
      dsimp only
      split
      · rename_i hinsert
        exact .taken hnew hmax _ _ hinsert
      · rename_i hinsert
        exact .refused hnew hmax hinsert

theorem hear_stored [Instant I] (q : Query I AN EV) (now : I) (r : Ref) :
    q.hear now r = q ∨
      ∃ answer, answerOf q.nextSeq r = some answer ∧ q.Stored answer (q.hear now r) := by
  rw [hear]
  split
  · exact .inl rfl
  · split
    · rw [handleEvent]
      split
      · exact .inl rfl
      · split
        · exact .inl rfl
        · simp only [collect]
          split
          · exact .inl rfl
          · split
            · exact .inl rfl
            · split
              · exact .inl rfl
              · unfold answerOf
                cases r.canonicalRdata with
                | error _ => exact .inl rfl
                | ok owned =>
                  cases r.canonicalRdataFolded with
                  | error _ => exact .inl rfl
                  | ok folded => exact .inr ⟨_, rfl, q.store_stored _⟩
    · exact .inl rfl

theorem hear_only [Instant I] (q : Query I AN EV) (now : I) (r : Ref) :
    ∃ answers nextSeq, q.hear now r = { q with
      answers := answers
      nextSeq := nextSeq } := by
  rcases q.hear_stored now r with heq | ⟨answer, -, hstored⟩
  · exact ⟨q.answers, q.nextSeq, heq⟩
  · generalize q.hear now r = p at hstored
    cases hstored with
    | same => exact ⟨q.answers, q.nextSeq, rfl⟩
    | refused _ _ _ => exact ⟨_, q.nextSeq, rfl⟩
    | taken _ _ _ answers _ => exact ⟨answers, _, rfl⟩

end

def Awaits (q : Query I AN EV) : Prop := q.awaitingSendConfirm = true ∧ q.done = false

instance (q : Query I AN EV) : Decidable q.Awaits := by
  unfold Awaits
  infer_instance

def advance (q : Query I AN EV) (v4 v6 : FamilyAttempt I) : PhaseAdvance :=
  (classifyAdvance q.partialRounds (FamilyAttempt.project v4 v6)).1

def scheduledSecs (q : Query I AN EV) (v4 v6 : FamilyAttempt I) : Nat :=
  retrySecs
    (match q.advance v4 v6 with
    | .delivered | .failed => q.retryCount + 1
    | .covered | .excused | .partial_ => q.retryCount + 1 + q.partialSendStreak)

theorem terminate_of_live [Pool EV] (q : Query I AN EV) (h : q.done = false) (u : QueryUpdate) :
    q.terminate u = { q with
      done := true
      transmitPending := false
      pendingUpdates :=
        match Pool.insert q.pendingUpdates u with
        | some (_, updates) => updates
        | none => q.pendingUpdates
      nextDeadline := none
      timeoutDeadline := none } := by
  rw [terminate, h]
  rfl

section
variable [Instant I]

def Suppresses (q : Query I AN EV) (now : I) : Prop :=
  q.done = false ∧ q.awaitingSendConfirm = false ∧ q.callerWindowShut now = false ∧
    (q.transmitPending = true ∨ ∃ d, q.nextDeadline = some d ∧ d ≤ now)

variable (q : Query I AN EV)

theorem noteTransmitOutcome_heard (now : I) (v4 v6 : FamilyAttempt I)
    (h : q.Awaits) :
    (q.noteTransmitOutcome now v4 v6).1 = { q with
      awaitingSendConfirm := false
      partialRounds := (classifyAdvance q.partialRounds (FamilyAttempt.project v4 v6)).2
      retryCount := if (q.advance v4 v6).advances then q.retryCount + 1 else q.retryCount
      partialSendStreak :=
        match q.advance v4 v6 with
        | .delivered => 0
        | .failed => q.partialSendStreak
        | .covered | .excused | .partial_ => q.partialSendStreak + 1
      nextDeadline := checkedAddDuration (FamilyAttempt.anchor v4 v6 now)
        (Duration.fromSecs (q.scheduledSecs v4 v6)) } := by
  obtain ⟨hawaiting, hdone⟩ := h
  rw [scheduledSecs]
  cases hround : q.advance v4 v6 <;>
    (have hadvance := hround
     rw [advance] at hadvance
     simp [noteTransmitOutcome, hawaiting, hdone, hadvance, Hick.nextDeadline,
       PhaseAdvance.advances])

theorem noteTransmitOutcome_unheard (now : I) (v4 v6 : FamilyAttempt I)
    (h : ¬ q.Awaits) :
    (q.noteTransmitOutcome now v4 v6).1 = { q with awaitingSendConfirm := false } := by
  rw [Awaits, not_and_or, Bool.not_eq_true, Bool.not_eq_false] at h
  rw [noteTransmitOutcome]
  cases hawaiting : q.awaitingSendConfirm with
  | false =>
    cases q
    simp only at hawaiting
    subst hawaiting
    rfl
  | true =>
    have hdone : q.done = true := by
      rcases h with h | h
      · rw [hawaiting] at h
        cases h
      · exact h
    simp only [hdone, Bool.not_true, Bool.false_eq_true, if_false, if_true]

inductive TransmitEffect (q : Query I AN EV) (now : I) : Query I AN EV → Option Sent → Prop
  | nothing : TransmitEffect q now q none
  | asks (sent : Sent) (hdone : q.done = false) (hpending : q.transmitPending = true)
    (hopen : q.callerWindowShut now = false) : TransmitEffect q now { q with
      transmitPending := false
      awaitingSendConfirm := true } (some sent)

theorem pollTransmit_effect (now : I) (buf : Bytes) :
    TransmitEffect q now (q.pollTransmit now buf).1 (sentOf (q.pollTransmit now buf).2) := by
  rw [pollTransmit]
  split
  · exact .nothing
  · rename_i hlive
    split
    · exact .nothing
    · rename_i hopen
      simp only [Bool.or_eq_true, Bool.not_eq_true', not_or, Bool.not_eq_true,
        Bool.not_eq_false] at hlive hopen
      split
      · exact .nothing
      · exact .asks _ hlive.1 hlive.2 hopen

variable [Pool EV]

theorem noteDuplicateQuestion_suppresses (now : I) (h : q.Suppresses now) :
    q.noteDuplicateQuestion now =
      (if maxRetries < q.retryCount + 1 then
        ({ q with
          transmitPending := false
          retryCount := q.retryCount + 1
          partialSendStreak := 0
          partialRounds := .both .default }).terminate .timeout
      else { q with
        transmitPending := false
        retryCount := q.retryCount + 1
        partialSendStreak := 0
        partialRounds := .both .default
        nextDeadline := Hick.nextDeadline now (q.retryCount + 1) }, true) := by
  obtain ⟨hdone, hawaiting, hopen, himminent⟩ := h
  have hdue : (q.transmitPending || q.nextDeadline.any fun d => decide (d ≤ now)) = true := by
    rw [Bool.or_eq_true]
    rcases himminent with h | ⟨d, hd, hle⟩
    · exact Or.inl h
    · exact Or.inr (by simp [hd, hle])
  simp only [noteDuplicateQuestion, hdone, hawaiting, hopen, hdue, Bool.or_false,
    Bool.false_eq_true, if_false, Bool.not_true]
  split <;> rfl

theorem noteDuplicateQuestion_idle (now : I) (h : ¬ q.Suppresses now) :
    q.noteDuplicateQuestion now = (q, false) := by
  rw [noteDuplicateQuestion]
  split
  · rfl
  · rename_i hlive
    split
    · rfl
    · rename_i hopen
      split
      · rfl
      · rename_i hdue
        exfalso
        apply h
        simp only [Bool.or_eq_true, not_or, Bool.not_eq_true] at hlive
        simp only [Bool.not_eq_true] at hopen
        simp only [Bool.not_eq_true, Bool.not_eq_false', Bool.or_eq_true] at hdue
        refine ⟨hlive.1, hlive.2, hopen, ?_⟩
        rcases hdue with hdue | hdue
        · exact Or.inl hdue
        · obtain ⟨d, hd, hle⟩ := (Option.any_eq_true _ _).mp hdue
          exact Or.inr ⟨d, hd, by simpa using hle⟩

inductive TimeoutEffect (q : Query I AN EV) (now : I) : Query I AN EV → Prop
  | idle (h : q.done = true ∨ (q.callerWindowShut now = false ∧
      ∀ d, q.nextDeadline = some d → now < d)) : TimeoutEffect q now q
  | window (hdone : q.done = false) (h : q.callerWindowShut now = true) :
    TimeoutEffect q now (q.terminate .timeout)
  | budget (d : I) (hdone : q.done = false) (hopen : q.callerWindowShut now = false)
    (hd : q.nextDeadline = some d) (hdue : d ≤ now) (h : maxRetries < q.retryCount) :
    TimeoutEffect q now (q.terminate .timeout)
  | arm (d : I) (hdone : q.done = false) (hopen : q.callerWindowShut now = false)
    (hd : q.nextDeadline = some d) (hdue : d ≤ now) (h : q.retryCount ≤ maxRetries) :
    TimeoutEffect q now { q with
      transmitPending := true
      nextDeadline := none }

theorem handleTimeout_effect (now : I) :
    TimeoutEffect q now (q.handleTimeout now) := by
  rw [handleTimeout]
  split
  · rename_i hdone
    exact .idle (Or.inl hdone)
  · rename_i hlive
    have hdone : q.done = false := by simpa using hlive
    split
    · rename_i hshut
      exact .window hdone hshut
    · rename_i hnot
      have hopen : q.callerWindowShut now = false := by simpa using hnot
      split
      · rename_i hd
        refine .idle (Or.inr ⟨hopen, ?_⟩)
        intro d h
        rw [hd] at h
        cases h
      · rename_i d hd
        split
        · rename_i hlt
          refine .idle (Or.inr ⟨hopen, ?_⟩)
          intro d' h
          rw [hd] at h
          obtain rfl := Option.some.inj h
          exact hlt
        · rename_i hdue
          split
          · rename_i hspent
            exact .budget d hdone hopen hd (not_lt.mp hdue) hspent
          · rename_i hleft
            exact .arm d hdone hopen hd (not_lt.mp hdue) (Nat.le_of_not_lt hleft)

end
end Query
end Hick
