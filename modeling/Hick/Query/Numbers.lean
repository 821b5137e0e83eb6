import Hick.Query.Answers

/-!
# The numbers of the answers (query/mod.rs:437-597)

Every accepted answer is numbered with the count of those accepted before it.
-/

namespace Hick
open Octets Wire

namespace Query
variable {I : Type} {AN EV : Type → Type} [Instant I] [Pool AN] [Pool EV]

def lastAnswerSeq : UInt64 := 18446744073709551615

/-- As long as numbers are left, the answers that are kept have different ones, below the count of
the accepted ones; only a query that has ended has anything to tell of its end. -/
structure Numbered (q : Query I AN EV) : Prop where
  below : q.nextSeq < lastAnswerSeq → ∀ k a, Pool.get q.answers k = some a → a.seq < q.nextSeq
  distinct : q.nextSeq < lastAnswerSeq → ∀ k j a b, Pool.get q.answers k = some a →
    Pool.get q.answers j = some b → a.seq = b.seq → k = j
  ended : q.terminalEmitted = true ∨ Pool.iter q.pendingUpdates ≠ [] → q.done = true

/-- The query goes on under its handle and window, or has ended; its answers are still numbered. -/
structure Evolves (q p : Query I AN EV) : Prop where
  handle : p.handle = q.handle
  window : p.done = q.done ∧ p.timeoutDeadline = q.timeoutDeadline ∨ p.done = true
  numbered : q.Numbered → p.Numbered ∧ q.nextSeq ≤ p.nextSeq

omit [Instant I] in
theorem Evolves.refl (q : Query I AN EV) : q.Evolves q :=
  ⟨rfl, .inl ⟨rfl, rfl⟩, fun h => ⟨h, UInt64.le_refl _⟩⟩

omit [Instant I] in
theorem Evolves.trans (q p r : Query I AN EV) (h : q.Evolves p) (h' : p.Evolves r) :
    q.Evolves r := by
  refine ⟨by rw [h'.handle, h.handle], ?_, fun hq => ?_⟩
  · rcases h'.window with ⟨hdone', hwindow'⟩ | hdone'
    · rcases h.window with ⟨hdone, hwindow⟩ | hdone
      · exact .inl ⟨by rw [hdone', hdone], by rw [hwindow', hwindow]⟩
      · exact .inr (by rw [hdone', hdone])
    · exact .inr hdone'
  · obtain ⟨hp, hle⟩ := h.numbered hq
    obtain ⟨hr, hle'⟩ := h'.numbered hp
    exact ⟨hr, UInt64.le_trans hle hle'⟩

section
variable [LawfulPool AN]

theorem evictOldest_get (answers : AN CollectedAnswer) (k : Nat) (a : CollectedAnswer)
    (h : Pool.get (evictOldest answers) k = some a) : Pool.get answers k = some a := by
  rw [evictOldest] at h
  split at h
  · split at h
    · rename_i removed rest hremove
      rw [LawfulPool.get_tryRemove _ _ _ _ hremove] at h
      split at h
      · cases h
      · exact h
    · exact h
  · exact h

omit [Instant I] [Pool EV] in
theorem room_get (q : Query I AN EV) (answer : CollectedAnswer) (k : Nat) (a : CollectedAnswer)
    (h : Pool.get (q.room answer) k = some a) : Pool.get q.answers k = some a := by
  unfold room at h
  split at h
  · exact evictOldest_get q.answers k a h
  · exact h

omit [Instant I] in
theorem Stored.numbered (q p : Query I AN EV) (answer : CollectedAnswer) (hs : q.Stored answer p)
    (hseq : answer.seq = q.nextSeq) (h : q.Numbered) : p.Numbered ∧ q.nextSeq ≤ p.nextSeq := by
  cases hs with
  | same => exact ⟨h, UInt64.le_refl _⟩
  | refused _ _ _ =>
    refine ⟨⟨fun hleft k a ha => h.below hleft k a (q.room_get answer k a ha),
      fun hleft k j a b ha hb => ?_, h.ended⟩, UInt64.le_refl _⟩
    exact h.distinct hleft k j a b (q.room_get answer k a ha) (q.room_get answer j b hb)
  | taken _ _ key answers hinsert =>
    have hget := (LawfulPool.get_insert _ _ _ _ hinsert).2
    have hgrows := saturatingSucc64_le q.nextSeq
    have hbefore : saturatingSucc64 q.nextSeq < lastAnswerSeq → q.nextSeq < lastAnswerSeq :=
      UInt64.lt_of_le_of_lt hgrows
    refine ⟨⟨fun hleft k a ha => ?_, fun hleft k j a b ha hb hab => ?_, h.ended⟩, hgrows⟩
    · have hnext := saturatingSucc64_lt q.nextSeq (UInt64.ne_of_lt (hbefore hleft))
      simp only at ha ⊢
      rw [hget] at ha
      split at ha
      · cases ha
        rw [hseq]
        exact hnext
      · exact UInt64.lt_trans (h.below (hbefore hleft) k a (q.room_get answer k a ha)) hnext
    · have hold : ∀ i c, Pool.get (q.room answer) i = some c → c.seq ≠ answer.seq := by
        intro i c hc heq
        have hlt := h.below (hbefore hleft) i c (q.room_get answer i c hc)
        rw [heq, hseq] at hlt
        exact UInt64.lt_irrefl _ hlt
      simp only at ha hb
      rw [hget] at ha hb
      split at ha
      · rename_i hk
        split at hb
        · rename_i hj
          rw [hk, hj]
        · cases ha
          exact absurd hab.symm (hold j b hb)
      · split at hb
        · cases hb
          exact absurd hab (hold k a ha)
        · exact h.distinct (hbefore hleft) k j a b (q.room_get answer k a ha)
            (q.room_get answer j b hb) hab

theorem answerOf_seq (seq : UInt64) (r : Ref) (answer : CollectedAnswer)
    (h : answerOf seq r = some answer) : answer.seq = seq := by
  unfold answerOf at h
  split at h
  · cases h
    rfl
  · cases h

theorem hear_evolves (q : Query I AN EV) (now : I) (r : Ref) : q.Evolves (q.hear now r) := by
  obtain ⟨answers, nextSeq, honly⟩ := q.hear_only now r
  refine ⟨by rw [honly], .inl ⟨by rw [honly], by rw [honly]⟩, fun h => ?_⟩
  rcases q.hear_stored now r with heq | ⟨answer, hanswer, hstored⟩
  · rw [heq]
    exact ⟨h, UInt64.le_refl _⟩
  · exact hstored.numbered q _ answer (answerOf_seq _ r answer hanswer) h

theorem records_evolve (records : List Ref) (q : Query I AN EV) (now : I) :
    q.Evolves (records.foldl (fun q r => q.hear now r) q) := by
  induction records generalizing q with
  | nil => exact Evolves.refl q
  | cons r rest ih => exact (q.hear_evolves now r).trans q _ _ (ih (q.hear now r))

end

omit [Instant I] in
theorem Agrees.numbered (q p : Query I AN EV) (h : q.Agrees p) (hp : p.Numbered)
    (hended : q.terminalEmitted = true ∨ Pool.iter q.pendingUpdates ≠ [] → q.done = true) :
    q.Numbered := by
  refine ⟨?_, ?_, hended⟩
  · rw [h.answers, h.nextSeq]
    exact hp.below
  · rw [h.answers, h.nextSeq]
    exact hp.distinct

variable (q : Query I AN EV)

omit [Instant I] [Pool AN] in
theorem terminate_handle (u : QueryUpdate) :
    (q.terminate u).handle = q.handle := by
  rw [terminate]
  split
  · rfl
  · rfl

omit [Instant I] [Pool AN] in
theorem pollQuery_handle : q.pollQuery.1.handle = q.handle := by
  have hpoll : q.poll.1.handle = q.handle := by
    rw [poll]
    split
    · rfl
    · split
      · rfl
      · rfl
  rw [pollQuery]
  split
  · rfl
  · revert hpoll
    rcases q.poll with ⟨q', _ | update⟩
    · intro hpoll
      simp only
      split
      · exact hpoll
      · exact hpoll
    · intro hpoll
      exact hpoll

omit [Instant I] in
theorem pollQuery_live (h : q.Numbered) (hlive : q.done = false) :
    q.pollQuery = (q, none) := by
  have hidle : ¬(q.terminalEmitted = true ∨ Pool.iter q.pendingUpdates ≠ []) := by
    intro hend
    rw [h.ended hend] at hlive
    cases hlive
  rw [not_or, ne_eq, not_not, Bool.not_eq_true] at hidle
  simp only [pollQuery, poll, hidle.1, hidle.2, hlive, Bool.false_eq_true, if_false]

omit [Instant I] [Pool AN] in
theorem pollQuery_ended (hdone : q.done = true)
    (hsilent : q.terminalEmitted = false) : ∃ update, q.pollQuery.2 = some update := by
  have hpoll : q.poll.1.done = q.done := by
    rw [poll]
    split
    · rfl
    · split
      · rfl
      · rfl
  simp only [pollQuery, hsilent, Bool.false_eq_true, if_false]
  revert hpoll
  rcases q.poll with ⟨q', _ | update⟩
  · intro hpoll
    refine ⟨.timeout, ?_⟩
    simp only [show q'.done = true from hpoll.trans hdone, if_true]
  · intro _
    exact ⟨update, rfl⟩

structure Settled (q p : Query I AN EV) : Prop where
  evolves : q.Evolves p
  answers : p.answers = q.answers
  nextSeq : p.nextSeq = q.nextSeq

omit [Instant I] in
theorem Settled.refl : q.Settled q := ⟨Evolves.refl q, rfl, rfl⟩

omit [Instant I] in
theorem Settled.trans (q p r : Query I AN EV) (h : q.Settled p) (h' : p.Settled r) :
    q.Settled r :=
  ⟨h.evolves.trans q p r h'.evolves, by rw [h'.answers, h.answers], by rw [h'.nextSeq, h.nextSeq]⟩

omit [Instant I] in
theorem Settled.of_end (q p : Query I AN EV) (h : QueryRun.EndEffect q p)
    (hhandle : p.handle = q.handle) : q.Settled p := by
  have hagrees : p.Agrees q := by
    cases h with
    | goes hagrees _ _ _ _ => exact hagrees
    | ends hagrees _ _ _ => exact hagrees
  refine ⟨⟨hhandle, ?_, fun hq =>
    ⟨hagrees.numbered p q hq ?_, UInt64.le_of_eq hagrees.nextSeq.symm⟩⟩, hagrees.answers, hagrees.nextSeq⟩
  · cases h with
    | goes _ hdone _ _ hwindow => exact .inl ⟨hdone, hwindow⟩
    | ends _ _ hdone _ => exact .inr hdone
  · cases h with
    | goes _ hdone hupdates hemitted _ =>
      rw [hdone, hupdates, hemitted]
      exact hq.ended
    | ends _ _ hdone _ => exact fun _ => hdone

theorem pollQuery_settled : q.Settled q.pollQuery.1 := by
  obtain ⟨hagrees, hdone, hwindow⟩ := QueryRun.pollQuery_only q
  refine ⟨⟨q.pollQuery_handle, .inl ⟨hdone, hwindow⟩, fun hq =>
    ⟨hagrees.numbered _ q hq fun hend => ?_, UInt64.le_of_eq hagrees.nextSeq.symm⟩⟩,
    hagrees.answers, hagrees.nextSeq⟩
  rw [hdone]
  cases hlive : q.done with
  | true => rfl
  | false =>
    rw [q.pollQuery_live hq hlive, ← hlive] at *
    exact hq.ended hend

theorem retire_settled : q.Settled q.retire := by
  rw [retire]
  cases hdone : q.done with
  | true =>
    have hidle : q.terminate .timeout = q := by rw [terminate, if_pos hdone]
    rw [hidle]
    exact Settled.refl q
  | false =>
    exact .of_end q _ (QueryRun.terminate_ends q q (.refl q) hdone hdone rfl _)
      (q.terminate_handle _)

theorem handleTimeout_settled (now : I) : q.Settled (q.handleTimeout now) := by
  have hhandle : (q.handleTimeout now).handle = q.handle := by
    have heffect := q.handleTimeout_effect now
    generalize q.handleTimeout now = p at heffect ⊢
    cases heffect with
    | idle _ => rfl
    | window _ _ => exact q.terminate_handle _
    | budget _ _ _ _ _ _ => exact q.terminate_handle _
    | arm _ _ _ _ _ _ => rfl
  exact .of_end q _ (QueryRun.serve_end q now .timeout nofun nofun) hhandle

theorem pollTransmit_settled (now : I) (buf : Bytes) :
    q.Settled (q.pollTransmit now buf).1 := by
  have hhandle : (q.pollTransmit now buf).1.handle = q.handle := by
    have heffect := q.pollTransmit_effect now buf
    generalize (q.pollTransmit now buf).1 = p at heffect ⊢
    generalize sentOf (q.pollTransmit now buf).2 = sent at heffect
    cases heffect with
    | nothing => rfl
    | asks _ _ _ _ => rfl
  exact .of_end q _ (QueryRun.serve_end q now (.transmit buf) nofun nofun) hhandle

theorem noteTransmitOutcome_settled (now : I) (v4 v6 : FamilyAttempt I) :
    q.Settled (q.noteTransmitOutcome now v4 v6).1 := by
  have hhandle : (q.noteTransmitOutcome now v4 v6).1.handle = q.handle := by
    by_cases hawaits : q.Awaits
    · rw [q.noteTransmitOutcome_heard now v4 v6 hawaits]
    · rw [q.noteTransmitOutcome_unheard now v4 v6 hawaits]
  exact .of_end q _ (QueryRun.serve_end q now (.outcome v4 v6) nofun nofun) hhandle

theorem noteDuplicateQuestion_settled (now : I) :
    q.Settled (q.noteDuplicateQuestion now).1 := by
  have hhandle : (q.noteDuplicateQuestion now).1.handle = q.handle := by
    by_cases hspends : q.Suppresses now
    · rw [q.noteDuplicateQuestion_suppresses now hspends]
      split
      · exact terminate_handle _ _
      · rfl
    · rw [q.noteDuplicateQuestion_idle now hspends]
  exact .of_end q _ (QueryRun.serve_end q now .duplicate nofun nofun) hhandle

omit [Instant I] in
/-- The answers from the `n`-th on that are kept are numbered between `n` and the count of the
accepted ones. -/
theorem Numbered.unread [OrderedPool AN] (q : Query I AN EV) (hq : q.Numbered)
    (hleft : q.nextSeq < lastAnswerSeq) (n : UInt64) (hread : n ≤ q.nextSeq)
    (fresh : List CollectedAnswer)
    (hfresh : fresh = ((Pool.iter q.answers).map Prod.snd).filter fun a => decide (n ≤ a.seq)) :
    (fresh.map CollectedAnswer.seq).Nodup ∧ (∀ a ∈ fresh, n ≤ a.seq ∧ a.seq < q.nextSeq) ∧
      n.toNat + fresh.length ≤ q.nextSeq.toNat := by
  have hall : ((Pool.iter q.answers).map fun e => e.2.seq).Nodup := by
    have hordered := OrderedPool.ordered q.answers
    rw [List.Nodup, List.pairwise_map]
    refine hordered.imp_of_mem fun {a b} ha hb hlt hseq => ?_
    have hsame := hq.distinct hleft a.1 b.1 a.2 b.2 ((LawfulPool.mem_iter _ _ _).mp ha)
      ((LawfulPool.mem_iter _ _ _).mp hb) hseq
    omega
  have hseqs : (((Pool.iter q.answers).map Prod.snd).map CollectedAnswer.seq).Nodup := by
    rw [List.map_map]
    exact hall
  have hnodup : (fresh.map CollectedAnswer.seq).Nodup := by
    rw [hfresh]
    exact hseqs.sublist (List.filter_sublist.map _)
  have hbounds : ∀ a ∈ fresh, n ≤ a.seq ∧ a.seq < q.nextSeq := by
    intro a ha
    rw [hfresh, List.mem_filter, decide_eq_true_eq] at ha
    obtain ⟨⟨k, b⟩, hmem, rfl⟩ := List.mem_map.mp ha.1
    exact ⟨ha.2, hq.below hleft k b ((LawfulPool.mem_iter _ _ _).mp hmem)⟩
  have hsub : (fresh.map CollectedAnswer.seq).map UInt64.toNat ⊆
      List.range' n.toNat (q.nextSeq.toNat - n.toNat) := by
    intro seq hseq
    rw [List.map_map] at hseq
    obtain ⟨a, ha, rfl⟩ := List.mem_map.mp hseq
    obtain ⟨hlo, hhi⟩ := hbounds a ha
    rw [UInt64.le_iff_toNat_le] at hlo hread
    rw [UInt64.lt_iff_toNat_lt] at hhi
    rw [List.mem_range'_1]
    simp only [Function.comp_apply]
    omega
  have hlen := ((hnodup.map fun _ _ => UInt64.toNat_inj.mp).subperm hsub).length_le
  rw [List.length_map, List.length_map, List.length_range'] at hlen
  rw [UInt64.le_iff_toNat_le] at hread
  exact ⟨hnodup, hbounds, by omega⟩

end Query
end Hick
