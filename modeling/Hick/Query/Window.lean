import Hick.Query.Numbers

/-!
# The answers a query holds (query/mod.rs:437-597, 1129-1144)

Every answer that is accepted gets the next number.
-/

namespace Hick
open Octets Wire Runs

namespace Query

theorem oldest_cons (k : Nat) (a : CollectedAnswer) (rest : List (Nat × CollectedAnswer))
    (victim : Option (Nat × UInt64)) :
    oldest ((k, a) :: rest) victim = oldest rest (some
      (victim.elim (k, a.seq) fun prev => if prev.2 ≤ a.seq then prev else (k, a.seq))) := by
  cases victim <;> rfl

theorem oldest_least (entries : List (Nat × CollectedAnswer)) (victim : Option (Nat × UInt64))
    (hne : entries ≠ [] ∨ victim.isSome = true) :
    ∃ key seq, oldest entries victim = some (key, seq) ∧
      (victim = some (key, seq) ∨ ∃ a, (key, a) ∈ entries ∧ a.seq = seq) ∧
      (∀ v ∈ victim, seq ≤ v.2) ∧ ∀ entry ∈ entries, seq ≤ entry.2.seq := by
  induction entries generalizing victim with
  | nil =>
    obtain ⟨v, hv⟩ := Option.isSome_iff_exists.mp (hne.resolve_left fun h => h rfl)
    refine ⟨v.1, v.2, hv, .inl hv, ?_, fun entry h => absurd h List.not_mem_nil⟩
    intro u hu
    rw [hv] at hu
    obtain rfl := Option.some.inj hu
    exact UInt64.le_refl _
  | cons first rest ih =>
    obtain ⟨k, a⟩ := first
    rw [oldest_cons]
    clear hne
    obtain ⟨key, seq, hres, hfrom, hvictim, hall⟩ := ih
      (some (victim.elim (k, a.seq) fun prev => if prev.2 ≤ a.seq then prev else (k, a.seq)))
      (.inr rfl)
    have hbest := hvictim _ rfl
    refine ⟨key, seq, hres, ?_, ?_, ?_⟩
    · rcases hfrom with hfrom | ⟨b, hb, hseq⟩
      · rw [Option.some.injEq] at hfrom
        cases victim with
        | none =>
          rw [Prod.mk.injEq] at hfrom
          exact .inr ⟨a, by rw [← hfrom.1]; exact List.mem_cons_self, hfrom.2⟩
        | some prev =>
          dsimp only [Option.elim] at hfrom
          split at hfrom
          · rw [hfrom]
            exact .inl rfl
          · rw [Prod.mk.injEq] at hfrom
            exact .inr ⟨a, by rw [← hfrom.1]; exact List.mem_cons_self, hfrom.2⟩
      · exact .inr ⟨b, List.mem_cons_of_mem _ hb, hseq⟩
    · intro v hv
      rw [Option.mem_def.mp hv] at hbest
      dsimp only [Option.elim] at hbest
      split at hbest
      · exact hbest
      · rename_i hlt
        exact UInt64.le_trans hbest (UInt64.le_of_lt (UInt64.not_le.mp hlt))
    · intro entry hentry
      cases List.mem_cons.mp hentry with
      | inr hrest => exact hall entry hrest
      | inl hfirst =>
        rw [hfirst]
        dsimp only
        cases victim with
        | none => exact hbest
        | some prev =>
          dsimp only [Option.elim] at hbest
          split at hbest
          · rename_i hle
            exact UInt64.le_trans hbest hle
          · exact hbest

theorem evictOldest_perm {AN : Type → Type} [Pool AN] [OrderedPool AN] [ReleasingPool AN]
    (answers : AN CollectedAnswer) (w : List CollectedAnswer) (hperm : (Pool.held answers).Perm w)
    (hsorted : w.Pairwise fun a b => a.seq < b.seq) :
    (Pool.held (evictOldest answers)).Perm w.tail := by
  cases hiter : Pool.iter answers with
  | nil =>
    have hnil : Pool.held answers = [] := by rw [Pool.held, hiter, List.map_nil]
    rw [evictOldest, hiter, oldest, hnil]
    rw [hnil] at hperm
    rw [List.nil_perm.mp hperm]
    exact List.Perm.nil
  | cons first rest =>
    have hne : Pool.iter answers ≠ [] := by
      rw [hiter]
      exact List.cons_ne_nil _ _
    obtain ⟨key, seq, hres, hfrom, -, hleast⟩ :=
      oldest_least (Pool.iter answers) none (.inl hne)
    obtain ⟨a, ha, hseq⟩ := hfrom.resolve_left (fun h => by cases h)
    have hget := (LawfulPool.mem_iter answers key a).mp ha
    obtain ⟨rest', hremove⟩ := ReleasingPool.tryRemove_of_get answers a key hget
    have hgone := (tryRemove_perm answers rest' a key hget a hremove).map Prod.snd
    have hevict : evictOldest answers = rest' := by
      rw [evictOldest, hres]
      dsimp only
      rw [hremove]
    have hw : (a :: Pool.held rest').Perm w := hgone.symm.trans hperm
    rw [hevict]
    cases w with
    | nil => exact absurd hw.length_eq (Nat.succ_ne_zero _)
    | cons x tail =>
      have hx : a = x := by
        obtain ⟨hlater, -⟩ := List.pairwise_cons.mp hsorted
        cases List.mem_cons.mp (hw.mem_iff.mp List.mem_cons_self) with
        | inl heq => exact heq
        | inr htail =>
          exfalso
          obtain ⟨entry, hentry, heq⟩ := List.mem_map.mp (hperm.mem_iff.mpr List.mem_cons_self)
          have hle := hleast entry hentry
          have hlt := hlater a htail
          rw [← hseq, heq] at hle
          exact UInt64.lt_irrefl _ (UInt64.lt_of_lt_of_le hlt hle)
      subst hx
      exact List.Perm.cons_inv hw

end Query

def CollectedAnswer.identity (a : CollectedAnswer) : ResourceType × ResourceClass × Bytes :=
  (a.rtype, a.rclass, a.key)

namespace Query
section
variable {I : Type} {AN EV : Type → Type} [Pool AN]

/-- What is held after a record and was not before. -/
def gains (q p : Query I AN EV) (a : CollectedAnswer) : Bool :=
  decide (a ∉ Pool.held q.answers) && decide (a ∈ Pool.held p.answers)

/-- The answers that the records of a datagram add to the accepted ones. -/
def accepted [Instant I] (now : I) : List Ref → Query I AN EV → List CollectedAnswer
  | [], _ => []
  | r :: rest, q =>
    (answerOf q.nextSeq r).toList.filter (q.gains (q.hear now r)) ++
      accepted now rest (q.hear now r)

/-- The accepted answers are numbered from 0 on, and those held are the last of them: no two alike,
and no more than the limit. -/
structure Latest (q : Query I AN EV) (log : List CollectedAnswer) : Prop where
  numbers : log.map (·.seq.toNat) = List.range q.nextSeq.toNat
  window : ∃ w, w <:+ log ∧ (Pool.held q.answers).Perm w
  alike : (Pool.held q.answers).Pairwise fun a b => a.identity ≠ b.identity
  few : (Pool.held q.answers).length ≤ q.maxAnswers
  room : ∀ cap, Pool.Capacity AN CollectedAnswer cap → (Pool.held q.answers).length ≤ cap

variable (q : Query I AN EV)

theorem Latest.count (log : List CollectedAnswer) (h : q.Latest log) :
    log.length = q.nextSeq.toNat := by
  have hlen := congrArg List.length h.numbers
  rwa [List.length_map, List.length_range] at hlen

theorem Latest.sorted (log w : List CollectedAnswer) (h : q.Latest log)
    (hw : w <:+ log) : w.Pairwise fun a b => a.seq < b.seq := by
  have hlog : log.Pairwise fun a b => a.seq < b.seq := by
    simp only [UInt64.lt_iff_toNat_lt]
    rw [← List.pairwise_map (f := fun a : CollectedAnswer => a.seq.toNat), h.numbers]
    exact List.pairwise_lt_range
  exact hlog.sublist hw.sublist

theorem gains_self (l : List CollectedAnswer) : l.filter (q.gains q) = [] := by
  rw [List.filter_eq_nil_iff]
  intro a _
  simp [gains]

variable [OrderedPool AN] [ReleasingPool AN]

omit [OrderedPool AN] [ReleasingPool AN] in
theorem known_of_held (answer a : CollectedAnswer)
    (ha : a ∈ Pool.held q.answers) (heq : answer.identity = a.identity) :
    q.known answer = true := by
  obtain ⟨⟨key, old⟩, hentry, rfl⟩ := List.mem_map.mp ha
  rw [known, List.any_eq_true]
  refine ⟨(key, old), hentry, ?_⟩
  rw [CollectedAnswer.identity, CollectedAnswer.identity, Prod.mk.injEq, Prod.mk.injEq] at heq
  dsimp only at heq ⊢
  rw [heq.1, heq.2.1, heq.2.2, beq_self_eq_true, beq_self_eq_true, beq_self_eq_true]
  rfl

/-- Where an answer is to go: the end of the same list, with a place to spare. -/
theorem Latest.makes_room (log w : List CollectedAnswer) (h : q.Latest log)
    (hw : w <:+ log) (hperm : (Pool.held q.answers).Perm w) (answer : CollectedAnswer)
    (hmax : q.maxAnswers ≠ 0) :
    ∃ w', w' <:+ w ∧ w'.length < q.maxAnswers ∧ (Pool.held (q.room answer)).Perm w' := by
  have hlen : (Pool.iter q.answers).length = w.length := by
    rw [← hperm.length_eq, Pool.held, List.length_map]
  have hfew := h.few
  rw [hperm.length_eq] at hfew
  unfold Query.room
  split
  · refine ⟨w.tail, List.tail_suffix w, ?_,
      evictOldest_perm q.answers w hperm (h.sorted q log w hw)⟩
    rw [List.length_tail]
    omega
  · rename_i hcond
    rw [not_or, not_le] at hcond
    exact ⟨w, List.suffix_refl w, by omega, hperm⟩

theorem Stored.latest (q p : Query I AN EV) (answer : CollectedAnswer) (log : List CollectedAnswer)
    (hs : q.Stored answer p) (hseq : answer.seq = q.nextSeq) (h : q.Latest log)
    (hfew : (log ++ [answer].filter (q.gains p)).length < 2 ^ 64) :
    p.Latest (log ++ [answer].filter (q.gains p)) := by
  cases hs with
  | same =>
    rw [q.gains_self, List.append_nil]
    exact h
  | refused _ hmax _ =>
    obtain ⟨w, hw, hperm⟩ := h.window
    obtain ⟨w', hw', hlen, hperm'⟩ := h.makes_room q log w hw hperm answer hmax
    have hnone : [answer].filter (q.gains { q with answers := q.room answer }) = [] := by
      rw [List.filter_eq_nil_iff]
      intro a _ hgains
      obtain ⟨hout, hin⟩ := Bool.and_eq_true_iff.mp hgains
      exact of_decide_eq_true hout
        (hperm.mem_iff.mpr (hw'.subset (hperm'.mem_iff.mp (of_decide_eq_true hin))))
    have halike : w.Pairwise fun a b => a.identity ≠ b.identity :=
      (hperm.pairwise_iff fun hne => hne.symm).mp h.alike
    rw [hnone, List.append_nil]
    refine ⟨h.numbers, ⟨w', hw'.trans hw, hperm'⟩,
      (hperm'.pairwise_iff fun hne => hne.symm).mpr (halike.sublist hw'.sublist), ?_, ?_⟩
    · exact hperm'.length_eq.trans_le (Nat.le_of_lt hlen)
    · intro cap hcap
      have hheld := h.room cap hcap
      rw [hperm.length_eq] at hheld
      exact hperm'.length_eq.trans_le (le_trans hw'.length_le hheld)
  | taken hnew hmax key answers hinsert =>
    obtain ⟨w, hw, hperm⟩ := h.window
    obtain ⟨w', hw', hlen, hperm'⟩ := h.makes_room q log w hw hperm answer hmax
    have hunlike : ∀ a ∈ w, answer.identity ≠ a.identity := by
      intro a ha heq
      rw [q.known_of_held answer a (hperm.mem_iff.mpr ha) heq] at hnew
      cases hnew
    have halike : w.Pairwise fun a b => a.identity ≠ b.identity :=
      (hperm.pairwise_iff fun hne => hne.symm).mp h.alike
    have hput : (Pool.held answers).Perm (w' ++ [answer]) := by
      have hfirst : (Pool.held answers).Perm (answer :: Pool.held (q.room answer)) :=
        (insert_perm (q.room answer) answers answer key hinsert).map Prod.snd
      exact (hfirst.trans (hperm'.cons answer)).trans (List.perm_append_singleton answer w').symm
    have hone : [answer].filter (q.gains { q with
        answers := answers
        nextSeq := saturatingSucc64 q.nextSeq }) = [answer] := by
      rw [List.filter_eq_self]
      intro a ha
      rw [List.mem_singleton.mp ha]
      refine Bool.and_eq_true_iff.mpr ⟨decide_eq_true fun hheld => ?_, decide_eq_true ?_⟩
      · exact hunlike answer (hperm.mem_iff.mp hheld) rfl
      · exact hput.mem_iff.mpr (List.mem_append_right _ (List.mem_singleton_self answer))
    rw [hone] at hfew ⊢
    rw [List.length_append, List.length_singleton, h.count] at hfew
    refine ⟨?_, ⟨w' ++ [answer], ?_, hput⟩, ?_, ?_, fun cap hcap => hcap _ _ answer key hinsert⟩
    · have hnext : (saturatingSucc64 q.nextSeq).toNat = q.nextSeq.toNat + 1 := by
        rw [saturatingSucc64_toNat]
        omega
      rw [List.map_append, h.numbers, List.map_singleton, hseq, hnext, List.range_succ]
    · obtain ⟨front, rfl⟩ := hw'.trans hw
      exact ⟨front, (List.append_assoc front w' [answer]).symm⟩
    · rw [hput.pairwise_iff fun hne => hne.symm, List.pairwise_append]
      refine ⟨halike.sublist hw'.sublist, List.pairwise_singleton _ _, ?_⟩
      intro a ha b hb
      rw [List.mem_singleton.mp hb]
      exact (hunlike a (hw'.subset ha)).symm
    · show (Pool.held answers).length ≤ q.maxAnswers
      rw [hput.length_eq, List.length_append, List.length_singleton]
      exact hlen

theorem hear_latest [Instant I] (now : I) (r : Ref) (log more : List CollectedAnswer)
    (h : q.Latest log)
    (hmore : more = (answerOf q.nextSeq r).toList.filter (q.gains (q.hear now r)))
    (hfew : (log ++ more).length < 2 ^ 64) : (q.hear now r).Latest (log ++ more) := by
  subst hmore
  rcases q.hear_stored now r with heq | ⟨answer, hanswer, hstored⟩
  · rw [heq, q.gains_self, List.append_nil]
    exact h
  · rw [hanswer] at hfew ⊢
    exact hstored.latest q _ answer log (answerOf_seq _ r answer hanswer) h hfew

theorem records_latest [Instant I] (records : List Ref) (q : Query I AN EV) (now : I)
    (log : List CollectedAnswer) (h : q.Latest log)
    (hfew : (log ++ accepted now records q).length < 2 ^ 64) :
    (records.foldl (fun q r => q.hear now r) q).Latest (log ++ accepted now records q) := by
  induction records generalizing q log with
  | nil =>
    rw [accepted, List.append_nil]
    exact h
  | cons r rest ih =>
    rw [accepted, ← List.append_assoc] at hfew ⊢
    refine ih _ _ (q.hear_latest now r log _ h rfl ?_) hfew
    rw [List.length_append] at hfew
    omega

theorem countP_range (read n : Nat) :
    (List.range n).countP (fun seq => decide (read ≤ seq)) = n - read := by
  induction n with
  | zero => rw [List.range_zero, List.countP_nil, Nat.zero_sub]
  | succ n ih =>
    rw [List.range_succ, List.countP_append, ih, List.countP_singleton]
    by_cases hle : read ≤ n
    · rw [decide_eq_true hle, if_pos rfl]
      omega
    · rw [decide_eq_false hle, if_neg Bool.false_ne_true]
      omega

omit [OrderedPool AN] [ReleasingPool AN] in
theorem Latest.unseen (log w : List CollectedAnswer) (h : q.Latest log)
    (hw : w <:+ log) (hperm : (Pool.held q.answers).Perm w) (read : UInt64) :
    (log.filter fun a => decide (read ≤ a.seq) && decide (a ∉ Pool.held q.answers)).length +
      ((Pool.held q.answers).filter fun a => decide (read ≤ a.seq)).length =
        q.nextSeq.toNat - read.toNat := by
  have hall : log.countP (fun a => decide (read ≤ a.seq)) = q.nextSeq.toNat - read.toNat := by
    rw [← countP_range, ← h.numbers, List.countP_map]
    simp only [UInt64.le_iff_toNat_le]
    rfl
  have hsorted := h.sorted q log log (List.suffix_refl log)
  obtain ⟨front, rfl⟩ := hw
  have hfront : ∀ a ∈ front, (decide (read ≤ a.seq) && decide (a ∉ Pool.held q.answers)) = true ↔
      decide (read ≤ a.seq) = true := by
    intro a ha
    have hgone : a ∉ Pool.held q.answers := by
      intro hheld
      have hlt := (List.pairwise_append.mp hsorted).2.2 a ha a (hperm.mem_iff.mp hheld)
      exact UInt64.lt_irrefl _ hlt
    rw [decide_eq_true hgone, Bool.and_true]
  have hback : (w.countP fun a => decide (read ≤ a.seq) && decide (a ∉ Pool.held q.answers)) = 0 := by
    rw [List.countP_eq_zero]
    intro a ha hcount
    have hgone := of_decide_eq_true (Bool.and_eq_true_iff.mp hcount).2
    exact hgone (hperm.mem_iff.mpr ha)
  rw [← List.countP_eq_length_filter, ← List.countP_eq_length_filter, List.countP_append, hback,
    Nat.add_zero, List.countP_congr hfront, hperm.countP_eq, ← hall, List.countP_append]

omit [OrderedPool AN] [ReleasingPool AN] in
theorem Latest.agrees (q p : Query I AN EV) (log : List CollectedAnswer) (h : q.Latest log)
    (hsame : p.Agrees q) : p.Latest log where
  numbers := by
    rw [hsame.nextSeq]
    exact h.numbers
  window := by
    rw [hsame.answers]
    exact h.window
  alike := by
    rw [hsame.answers]
    exact h.alike
  few := by
    rw [hsame.answers, hsame.maxAnswers]
    exact h.few
  room := by
    rw [hsame.answers]
    exact h.room

omit [OrderedPool AN] [ReleasingPool AN] in
theorem hear_maxAnswers [Instant I] [Pool EV] (records : List Ref) (q : Query I AN EV) (now : I) :
    (records.foldl (fun q r => q.hear now r) q).maxAnswers = q.maxAnswers := by
  obtain ⟨answers, nextSeq, honly⟩ := QueryRun.records_only records q now
  rw [honly]

end
end Query

namespace QueryRun
section
variable {I : Type} {AN EV : Type → Type} [Instant I] [Pool AN] [Pool EV]

def acceptedBy (t : Transition (QueryRun I AN EV) (QueryStep I)) : List CollectedAnswer :=
  match t.call.call with
  | .records records => t.pre.query.accepted t.call.now records
  | _ => []

def acceptedIn (ts : List (Transition (QueryRun I AN EV) (QueryStep I))) : List CollectedAnswer :=
  ts.flatMap acceptedBy

variable [OrderedPool AN] [ReleasingPool AN]

theorem next_latest (q₀ : Query I AN EV) (s : QueryRun I AN EV) (e : QueryStep I)
    (log : List CollectedAnswer) (h : s.query.Latest log)
    (hfew : (log ++ acceptedBy ((machine q₀).transition s e)).length < 2 ^ 64) :
    (s.next e).query.Latest (log ++ acceptedBy ((machine q₀).transition s e)) ∧
      (s.next e).query.maxAnswers = s.query.maxAnswers := by
  obtain ⟨now, call⟩ := e
  by_cases hrecords : ∃ records, call = .records records
  · obtain ⟨records, rfl⟩ := hrecords
    exact ⟨s.query.records_latest records now log h hfew, Query.hear_maxAnswers records s.query now⟩
  · have hother : acceptedBy ((machine q₀).transition s ⟨now, call⟩) = [] := by
      show (match call with
        | .records records => s.query.accepted now records
        | _ => []) = []
      cases call with
      | records records => exact absurd ⟨records, rfl⟩ hrecords
      | _ => rfl
    have hagrees : (s.next ⟨now, call⟩).query.Agrees s.query := by
      by_cases hupdate : call = .update
      · rw [hupdate]
        exact (pollQuery_only s.query).1
      · have heffect := serve_end s.query now call (fun records hr => hrecords ⟨records, hr⟩) hupdate
        show (serve s.query now call).Agrees s.query
        cases heffect with
        | goes hagrees _ _ _ _ => exact hagrees
        | ends hagrees _ _ _ => exact hagrees
    rw [hother, List.append_nil]
    exact ⟨h.agrees _ _ log hagrees, hagrees.maxAnswers⟩

omit [Instant I] [ReleasingPool AN] in
theorem started_latest (q₀ : Query I AN EV) (hstart : Started q₀) : q₀.Latest [] := by
  obtain ⟨handle, qname, qtype, qclass, txid, unicast, deadline, max, rfl⟩ := hstart
  have hnone : Pool.held (Pool.new : AN CollectedAnswer) = [] := by
    rw [Pool.held, LawfulPool.iter_new, List.map_nil]
  constructor
  · rfl
  · refine ⟨[], List.suffix_refl [], ?_⟩
    show (Pool.held (Pool.new : AN CollectedAnswer)).Perm []
    rw [hnone]
  · show (Pool.held (Pool.new : AN CollectedAnswer)).Pairwise _
    rw [hnone]
    exact List.Pairwise.nil
  · show (Pool.held (Pool.new : AN CollectedAnswer)).length ≤ max
    rw [hnone]
    exact Nat.zero_le max
  · intro cap _
    show (Pool.held (Pool.new : AN CollectedAnswer)).length ≤ cap
    rw [hnone]
    exact Nat.zero_le cap

theorem latest_run (q₀ : Query I AN EV) (hstart : Started q₀)
    (ts : List (Transition (QueryRun I AN EV) (QueryStep I))) (s : QueryRun I AN EV)
    (run : Run (machine q₀) ts s) (hfew : (acceptedIn ts).length < 2 ^ 64) :
    s.query.Latest (acceptedIn ts) ∧ s.query.maxAnswers = q₀.maxAnswers := by
  induction run with
  | start s h =>
    obtain rfl := h
    exact ⟨started_latest _ hstart, rfl⟩
  | step ts s e run _ ih =>
    rw [acceptedIn, List.flatMap_append, List.flatMap_singleton] at hfew ⊢
    obtain ⟨hbefore, hmax⟩ := ih (by
      rw [List.length_append] at hfew
      exact Nat.lt_of_add_right_lt hfew)
    obtain ⟨hlatest, hsame⟩ := next_latest q₀ s e _ hbefore hfew
    exact ⟨hlatest, hsame.trans hmax⟩

/-- Over every run of a query that accepts fewer than 2^64 answers, whatever else is called. The
accepted answers are numbered from 0 in the order they were accepted in. -/
theorem held_answers_are_the_latest (q₀ : Query I AN EV) (hstart : Started q₀)
    (ts : List (Transition (QueryRun I AN EV) (QueryStep I))) (s : QueryRun I AN EV)
    (run : Run (machine q₀) ts s) (hfew : (acceptedIn ts).length < 2 ^ 64) :
    let held := Pool.held s.query.answers
    let count := s.query.nextSeq.toNat
    (acceptedIn ts).map (·.seq.toNat) = List.range count ∧
    held.Perm ((acceptedIn ts).drop (count - held.length)) ∧
    (held.map (·.seq.toNat)).Perm (List.range' (count - held.length) held.length) ∧
    held.Pairwise (fun a b => a.identity ≠ b.identity) ∧
    held.length ≤ q₀.maxAnswers ∧
    (∀ cap, Pool.Capacity AN CollectedAnswer cap → held.length ≤ cap) ∧
    ∀ read ≤ s.query.nextSeq,
      ((acceptedIn ts).filter fun a => decide (read ≤ a.seq) && decide (a ∉ held)).length +
        (held.filter fun a => decide (read ≤ a.seq)).length = count - read.toNat := by
  intro held count
  obtain ⟨h, hmax⟩ := latest_run q₀ hstart ts s run hfew
  obtain ⟨w, hw, hperm⟩ := h.window
  have hcount : (acceptedIn ts).length = count := h.count
  have hdrop : w = (acceptedIn ts).drop (count - held.length) := by
    rw [← hcount, show held.length = w.length from hperm.length_eq]
    exact List.suffix_iff_eq_drop.mp hw
  have hheld : held.length ≤ count := by
    rw [show held.length = w.length from hperm.length_eq, ← hcount]
    exact hw.length_le
  refine ⟨h.numbers, hdrop ▸ hperm, ?_, h.alike, hmax ▸ h.few, h.room, ?_⟩
  · have hseqs : w.map (·.seq.toNat) = List.range' (count - held.length) held.length := by
      rw [hdrop, List.map_drop, h.numbers, List.range_eq_range', List.drop_range', Nat.zero_add,
        Nat.mul_one, Nat.sub_sub_self hheld]
    rw [← hseqs]
    exact hperm.map _
  · intro read _
    exact h.unseen s.query _ w hw hperm read

end

def narrowQuery : Query Uptime Slab Slab :=
  (Query.tryNew ⟨1⟩ ServiceRecords.printerHost .a .in_ 7 false none).setMaxAnswers 1

def otherAddressAnswer : Ref :=
  { addressAnswer with
    message := [1, 104, 5, 108, 111, 99, 97, 108, 0, 10, 0, 0, 2]
    name := ⟨[1, 104, 5, 108, 111, 99, 97, 108, 0, 10, 0, 0, 2], 0⟩ }

def displacedAnswers : List (QueryStep Uptime) :=
  [⟨0, .records [addressAnswer, addressAnswer, otherAddressAnswer]⟩, ⟨1, .records [addressAnswer]⟩]

theorem displaced_answers_are_counted :
    let s := (machine narrowQuery).play ⟨narrowQuery, 0⟩ displacedAnswers
    s.query.nextSeq = 3 ∧ ((Pool.held s.query.answers).map (·.seq.toNat)).Perm [2] ∧
      (Pool.held s.query.answers).length ≤ 1 := by
  intro s
  have hrun := Run.play (machine narrowQuery) [] ⟨narrowQuery, 0⟩ (.start _ rfl) displacedAnswers
    (by decide +kernel)
  have hcount : s.query.nextSeq = 3 ∧ (Pool.held s.query.answers).length = 1 ∧
      (acceptedIn ((machine narrowQuery).trace ⟨narrowQuery, 0⟩ displacedAnswers)).length <
        2 ^ 64 := by decide +kernel
  obtain ⟨-, -, hseqs, -, hheld, -, -⟩ := held_answers_are_the_latest narrowQuery
    ⟨_, _, _, _, _, _, _, _, rfl⟩ _ s hrun hcount.2.2
  rw [hcount.1, hcount.2.1] at hseqs
  exact ⟨hcount.1, hseqs, hheld⟩

/-! ### Past the last number -/

def alternating (odd : Bool) : Ref := if odd then otherAddressAnswer else addressAnswer

def narrowAt (odd : Bool) (seq next : UInt64) : Query Uptime Slab Slab :=
  { narrowQuery with
    answers := ⟨[some ⟨.a, .in_, [10, 0, 0, if odd then 2 else 1], none, seq⟩]⟩
    nextSeq := next }

theorem narrowAt_hear (odd : Bool) (seq next : UInt64) :
    (narrowAt odd seq next).hear 0 (alternating !odd) =
      narrowAt (!odd) next (saturatingSucc64 next) := by
  cases odd <;> rfl

/-- Two addresses displace each other until there are no more numbers. -/
theorem last_number {P : Query Uptime Slab Slab → Prop} (hstart : P narrowQuery)
    (hstep : ∀ q odd, P q → P (q.hear 0 (alternating odd))) :
    ∃ odd, P (narrowAt odd Query.lastAnswerSeq Query.lastAnswerSeq) := by
  have hcount : ∀ n : Nat, n + 1 < 2 ^ 64 →
      ∃ odd, P (narrowAt odd (UInt64.ofNat n) (UInt64.ofNat (n + 1))) := by
    intro n
    induction n with
    | zero => exact fun _ => ⟨false, hstep narrowQuery false hstart⟩
    | succ n ih =>
      intro h
      obtain ⟨odd, hn⟩ := ih (Nat.lt_of_succ_lt h)
      have hnext := hstep _ (!odd) hn
      rw [narrowAt_hear, saturatingSucc64_ofNat (n + 1) h] at hnext
      exact ⟨!odd, hnext⟩
  obtain ⟨odd, hlast⟩ := hcount (2 ^ 64 - 2) (by decide)
  have hnext := hstep _ (!odd) hlast
  rw [narrowAt_hear] at hnext
  exact ⟨!odd, hnext⟩

/-- The answer accepted behind the last number is not below the count. -/
theorem numbers_run_out : ¬ ∀ ts s, Run (machine narrowQuery) ts s →
    ∀ a ∈ Pool.held s.query.answers, a.seq < s.query.nextSeq := by
  intro h
  obtain ⟨odd, ts, run⟩ := last_number (P := fun q => ∃ ts, Run (machine narrowQuery) ts ⟨q, 0⟩)
    ⟨[], .start _ rfl⟩ fun q odd ⟨ts, run⟩ =>
      ⟨_, run.step ts _ (⟨0, .records [alternating odd]⟩ : QueryStep Uptime) (Nat.le_refl 0)⟩
  exact UInt64.lt_irrefl _ (h ts _ run _ (List.mem_singleton_self _))

end QueryRun
end Hick
