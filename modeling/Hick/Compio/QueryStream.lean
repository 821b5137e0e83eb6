import Hick.Query.Numbers
import Hick.Query.Window

/-!
# Answers read where they are held (hick-compio/src/query.rs:65-152,
hick-compio/src/driver/mod.rs:405-431, 579-597, 659-672, 880-965)

The consumer of a query has no mailbox. Each poll reads on in the answers that the query holds, from
behind the last number it was given, and the driver's context of the query keeps that place.
-/

set_option linter.unusedSectionVars false

namespace Hick
open Wire Octets Runs

namespace Compio

namespace QueryStream

inductive QueryEvent where
  | answer (a : CollectedAnswer)
  | terminal (update : QueryUpdate)

structure QueryCtx where
  lastSeq : UInt64
  cancelled : Bool
  errored : Bool

inductive Polled where
  | event (e : QueryEvent)
  | ended
  | parked

def Polled.events : Polled → List QueryEvent
  | event e => [e]
  | ended | parked => []

inductive StreamCall (I : Type) where
  | records (records : List Ref)
  | duplicate
  | timeout
  | transmit (buf : Bytes)
  | outcome (v4 v6 : FamilyAttempt I)
  | next
  | drop
  | sweep

structure StreamStep (I : Type) where
  now : I
  call : StreamCall I

end QueryStream

/-- The query in the endpoint, its context in the driver and the handle of its consumer. -/
structure QueryStream (I : Type) (AN EV : Type → Type) where
  proto : Option (Query I AN EV)
  ctx : Option QueryStream.QueryCtx
  terminalDelivered : Bool
  dropped : Bool

namespace QueryStream
section
variable {I : Type} {AN EV : Type → Type} [Instant I] [Pool AN] [Pool EV]

def nextAnswerBySeq (answers : List CollectedAnswer) (last : UInt64) : Option CollectedAnswer :=
  (answers.filter fun a => decide (last ≤ a.seq)).argmin fun a => a.seq.toNat

def collectedAnswers (s : QueryStream I AN EV) : List CollectedAnswer :=
  match s.proto with
  | some q => Pool.held q.answers
  | none => []

def poll (s : QueryStream I AN EV) : QueryStream I AN EV × Polled :=
  if s.terminalDelivered then (s, .ended)
  else
    match s.ctx with
    | none => (s, .ended)
    | some ctx =>
      match nextAnswerBySeq s.collectedAnswers ctx.lastSeq with
      | some a =>
        ({ s with ctx := some { ctx with lastSeq := saturatingSucc64 a.seq } }, .event (.answer a))
      | none =>
        match s.proto.map Query.pollQuery with
        | some (_, some update) =>
          ({ s with
            proto := none
            ctx := none
            terminalDelivered := true }, .event (.terminal update))
        | some (q, none) =>
          if ctx.cancelled || ctx.errored then
            ({ s with
              proto := none
              ctx := none
              terminalDelivered := true }, .ended)
          else ({ s with proto := some q }, .parked)
        | none =>
          if ctx.cancelled || ctx.errored then
            ({ s with
              ctx := none
              terminalDelivered := true }, .ended)
          else (s, .parked)

def serve (s : QueryStream I AN EV) (now : I) (call : QueryCall I) : QueryStream I AN EV :=
  { s with proto := s.proto.map fun q => QueryRun.serve q now call }

def skipped (s : QueryStream I AN EV) : Bool :=
  match s.ctx with
  | some ctx => ctx.cancelled || ctx.errored
  | none => true

/-- The arm of `poll_one_transmit` for a query. A question that cannot be encoded ends it. -/
def transmit (s : QueryStream I AN EV) (now : I) (buf : Bytes) : QueryStream I AN EV :=
  if s.skipped then s
  else
    match s.proto with
    | none => s
    | some q =>
      match q.pollTransmit now buf with
      | (q, .error _) =>
        { s with
          proto := some q.retire
          ctx := s.ctx.map fun ctx => { ctx with errored := true } }
      | (q, .ok _) => { s with proto := some q }

def next (s : QueryStream I AN EV) (e : StreamStep I) : QueryStream I AN EV :=
  match e.call with
  | .records records => s.serve e.now (.records records)
  | .duplicate => s.serve e.now .duplicate
  | .timeout => if s.skipped then s else s.serve e.now .timeout
  | .transmit buf => s.transmit e.now buf
  | .outcome v4 v6 => s.serve e.now (.outcome v4 v6)
  | .next => s.poll.1
  | .drop =>
    { s with
      ctx := s.ctx.map fun ctx => { ctx with cancelled := true }
      dropped := true }
  | .sweep =>
    if s.ctx.any QueryCtx.cancelled then
      { s with
        proto := none
        ctx := none }
    else s

def machine (q₀ : Query I AN EV) : Machine (QueryStream I AN EV) (StreamStep I) where
  start s := s = ⟨some q₀, some ⟨0, false, false⟩, false, false⟩
  admits s e :=
    match e.call with
    | .next | .drop => s.dropped = false
    | _ => True
  next := next

abbrev Step (I : Type) (AN EV : Type → Type) := Transition (QueryStream I AN EV) (StreamStep I)

def acceptedBy (t : Step I AN EV) : List CollectedAnswer :=
  match t.call.call, t.pre.proto with
  | .records records, some q => q.accepted t.call.now records
  | _, _ => []

def evictedBy (t : Step I AN EV) : List CollectedAnswer :=
  match t.call.call with
  | .records _ => (t.pre.collectedAnswers ++ acceptedBy t).filter fun a =>
      decide (a ∉ t.post.collectedAnswers)
  | _ => []

def eventsBy (t : Step I AN EV) : List QueryEvent :=
  match t.call.call with
  | .next => t.pre.poll.2.events
  | _ => []

def acceptedIn (ts : List (Step I AN EV)) : List CollectedAnswer := ts.flatMap acceptedBy

end
end QueryStream
end Compio

namespace Query
section
variable {I : Type} {AN EV : Type → Type} [Instant I] [Pool AN] [Pool EV]

theorem held_iff [LawfulPool AN] (answers : AN CollectedAnswer) (a : CollectedAnswer) :
    a ∈ Pool.held answers ↔ ∃ k, Pool.get answers k = some a := by
  unfold Pool.held
  rw [List.mem_map]
  constructor
  · rintro ⟨⟨k, b⟩, hmem, rfl⟩
    exact ⟨k, (LawfulPool.mem_iter _ _ _).mp hmem⟩
  · rintro ⟨k, hget⟩
    exact ⟨(k, a), (LawfulPool.mem_iter _ _ _).mpr hget, rfl⟩

variable [LawfulPool AN]

theorem room_held (q : Query I AN EV) (answer a : CollectedAnswer)
    (h : a ∈ Pool.held (q.room answer)) : a ∈ Pool.held q.answers := by
  obtain ⟨k, hk⟩ := (held_iff _ _).mp h
  exact (held_iff _ _).mpr ⟨k, q.room_get answer k a hk⟩

theorem Stored.held (q p : Query I AN EV) (answer a : CollectedAnswer) (hs : q.Stored answer p)
    (h : a ∈ Pool.held p.answers) : a ∈ Pool.held q.answers ∨ a = answer := by
  cases hs with
  | same => exact Or.inl h
  | refused _ _ _ => exact Or.inl (q.room_held answer a h)
  | taken _ _ key answers hinsert =>
    obtain ⟨k, hk⟩ := (held_iff _ _).mp h
    rw [(LawfulPool.get_insert _ _ _ _ hinsert).2] at hk
    split at hk
    · exact Or.inr (Option.some.inj hk).symm
    · exact Or.inl (q.room_held answer a ((held_iff _ _).mpr ⟨k, hk⟩))

theorem records_held (records : List Ref) (q : Query I AN EV) (now : I) (a : CollectedAnswer)
    (h : a ∈ Pool.held (records.foldl (fun q r => q.hear now r) q).answers) :
    a ∈ Pool.held q.answers ∨ a ∈ q.accepted now records := by
  induction records generalizing q with
  | nil => exact Or.inl h
  | cons r rest ih =>
    rw [accepted, List.mem_append]
    rcases ih (q.hear now r) h with hheld | hnew
    · by_cases hold : a ∈ Pool.held q.answers
      · exact Or.inl hold
      · refine Or.inr (Or.inl ?_)
        have hgains : q.gains (q.hear now r) a = true :=
          Bool.and_eq_true_iff.mpr ⟨decide_eq_true hold, decide_eq_true hheld⟩
        rcases q.hear_stored now r with heq | ⟨answer, hanswer, hstored⟩
        · rw [heq] at hheld
          exact absurd hheld hold
        · rw [hanswer, (hstored.held q _ answer a hheld).resolve_left hold] at *
          exact List.mem_filter.mpr ⟨List.mem_singleton_self answer, hgains⟩
    · exact Or.inr (Or.inr hnew)

end
end Query

namespace Compio.QueryStream
section
variable {I : Type} {AN EV : Type → Type} [Instant I] [Pool AN] [Pool EV]

theorem nextAnswerBySeq_some (answers : List CollectedAnswer) (last : UInt64) (a : CollectedAnswer)
    (h : nextAnswerBySeq answers last = some a) :
    a ∈ answers ∧ last ≤ a.seq ∧ ∀ b ∈ answers, last ≤ b.seq → a.seq ≤ b.seq := by
  have hmem := List.argmin_mem h
  rw [List.mem_filter, decide_eq_true_eq] at hmem
  refine ⟨hmem.1, hmem.2, ?_⟩
  intro b hb hlast
  exact UInt64.le_iff_toNat_le.mpr (List.le_of_mem_argmin (f := fun a => a.seq.toNat)
    (List.mem_filter.mpr ⟨hb, decide_eq_true hlast⟩) h)

theorem nextAnswerBySeq_none (answers : List CollectedAnswer) (last : UInt64)
    (h : nextAnswerBySeq answers last = none) : ∀ a ∈ answers, a.seq < last := by
  have hnil := List.argmin_eq_none.mp h
  intro a ha
  by_contra hge
  have hmem : a ∈ answers.filter fun a => decide (last ≤ a.seq) :=
    List.mem_filter.mpr ⟨ha, decide_eq_true (UInt64.not_lt.mp hge)⟩
  rw [hnil] at hmem
  cases hmem

abbrev live (q : Query I AN EV) (ctx : QueryCtx) : QueryStream I AN EV :=
  ⟨some q, some ctx, false, ctx.cancelled⟩

theorem quiet (t : Step I AN EV) (h : ∀ records, t.call.call ≠ .records records) :
    acceptedBy t = [] ∧ evictedBy t = [] := by
  unfold acceptedBy evictedBy
  cases hcall : t.call.call with
  | records records => exact absurd hcall (h records)
  | _ => exact ⟨rfl, rfl⟩

theorem silent (t : Step I AN EV) (h : t.call.call ≠ .next) : eventsBy t = [] := by
  unfold eventsBy
  cases hcall : t.call.call with
  | next => exact absurd hcall h
  | _ => rfl

/-- How far the consumer of a query that is still there has read: it was given answers in the order
of their numbers, every answer behind its place that is held was given to it, and whatever was
accepted was given, is held or has given way. -/
structure Reads (q : Query I AN EV) (ctx : QueryCtx)
    (accepted evicted told : List CollectedAnswer) : Prop where
  latest : q.Latest accepted
  numbered : q.Numbered
  silent : q.terminalEmitted = false
  errored : ctx.errored = true → q.done = true
  place : ctx.lastSeq ≤ q.nextSeq
  sorted : told.Pairwise fun a b => a.seq < b.seq
  below : ∀ a ∈ told, a.seq < ctx.lastSeq
  sound : ∀ a ∈ told, a ∈ accepted
  passed : ∀ a ∈ Pool.held q.answers, a.seq < ctx.lastSeq → a ∈ told
  covered : ∀ a ∈ accepted, a ∈ told ∨ a ∈ Pool.held q.answers ∨ a ∈ evicted

/-- The life of a query: it is there, its end was told, or its handle is gone and it with it. -/
inductive Phase (s : QueryStream I AN EV) (accepted evicted : List CollectedAnswer)
    (events : List QueryEvent) : Prop
  | live (q : Query I AN EV) (ctx : QueryCtx) (told : List CollectedAnswer)
    (hstate : s = live q ctx)
    (hevents : events = told.map .answer) (hreads : Reads q ctx accepted evicted told)
  | ended (told : List CollectedAnswer) (update : QueryUpdate)
    (hstate : s = ⟨none, none, true, s.dropped⟩)
    (hevents : events = told.map .answer ++ [.terminal update])
    (hsorted : told.Pairwise fun a b => a.seq < b.seq) (hsound : ∀ a ∈ told, a ∈ accepted)
    (hcovered : ∀ a ∈ accepted, a ∈ told ∨ a ∈ evicted)
  | swept (told : List CollectedAnswer) (hstate : s = ⟨none, none, false, true⟩)
    (hevents : events = told.map .answer)
    (hsorted : told.Pairwise fun a b => a.seq < b.seq) (hsound : ∀ a ∈ told, a ∈ accepted)

section
variable [OrderedPool AN] [ReleasingPool AN]

variable (q : Query I AN EV)

theorem held_seq (log : List CollectedAnswer) (h : q.Latest log)
    (a b : CollectedAnswer) (ha : a ∈ Pool.held q.answers) (hb : b ∈ Pool.held q.answers)
    (heq : a.seq = b.seq) : a = b := by
  obtain ⟨w, hw, hperm⟩ := h.window
  have hnodup : (w.map CollectedAnswer.seq).Nodup := by
    rw [List.Nodup, List.pairwise_map]
    exact (h.sorted q log w hw).imp fun hlt => UInt64.ne_of_lt hlt
  exact List.inj_on_of_nodup_map hnodup (hperm.mem_iff.mp ha) (hperm.mem_iff.mp hb) heq

theorem held_below (log : List CollectedAnswer) (h : q.Latest log)
    (a : CollectedAnswer) (ha : a ∈ Pool.held q.answers) : a ∈ log ∧ a.seq < q.nextSeq := by
  obtain ⟨w, hw, hperm⟩ := h.window
  have hmem : a ∈ log := hw.subset (hperm.mem_iff.mp ha)
  have hseq : a.seq.toNat ∈ log.map (·.seq.toNat) := List.mem_map_of_mem hmem
  rw [h.numbers] at hseq
  exact ⟨hmem, UInt64.lt_iff_toNat_lt.mpr (List.mem_range.mp hseq)⟩

/-- What lies behind the number after `v`, where there is one. -/
theorem lt_saturatingSucc64 (v w b : UInt64) (h : v < w) : b < saturatingSucc64 v ↔ b ≤ v := by
  have hlt := w.toNat_lt
  rw [UInt64.lt_iff_toNat_lt] at h ⊢
  rw [UInt64.le_iff_toNat_le, saturatingSucc64_toNat]
  omega

theorem fresh_seq (q q' : Query I AN EV) (log fresh : List CollectedAnswer) (h : q.Latest log)
    (h' : q'.Latest (log ++ fresh)) (a : CollectedAnswer) (ha : a ∈ fresh) : q.nextSeq ≤ a.seq := by
  have hnumbers := h'.numbers
  rw [List.map_append, h.numbers] at hnumbers
  have hsorted : (List.range q.nextSeq.toNat ++ fresh.map (·.seq.toNat)).Nodup := by
    rw [hnumbers]
    exact List.nodup_range
  rw [UInt64.le_iff_toNat_le]
  by_contra hlt
  have hold : a.seq.toNat ∈ List.range q.nextSeq.toNat := List.mem_range.mpr (Nat.not_le.mp hlt)
  exact (List.nodup_append.mp hsorted).2.2 a.seq.toNat hold a.seq.toNat (List.mem_map_of_mem ha) rfl

theorem Reads.records (ctx : QueryCtx)
    (accepted evicted told more : List CollectedAnswer) (h : Reads q ctx accepted evicted told)
    (now : I) (records : List Ref)
    (hmore : more = (Pool.held q.answers ++ q.accepted now records).filter fun a =>
      decide (a ∉ Pool.held (records.foldl (fun q r => q.hear now r) q).answers))
    (hfew : (accepted ++ q.accepted now records).length < 2 ^ 64) :
    Reads (records.foldl (fun q r => q.hear now r) q) ctx (accepted ++ q.accepted now records)
      (evicted ++ more) told := by
  have hlatest := q.records_latest records now accepted h.latest hfew
  obtain ⟨hnumbered, hcount⟩ := (q.records_evolve records now).numbered h.numbered
  obtain ⟨answers, nextSeq, honly⟩ := QueryRun.records_only records q now
  refine ⟨hlatest, hnumbered, ?_, ?_, UInt64.le_trans h.place hcount, h.sorted, h.below, ?_, ?_, ?_⟩
  · rw [honly]
    exact h.silent
  · rw [honly]
    exact h.errored
  · intro a ha
    exact List.mem_append_left _ (h.sound a ha)
  · intro a ha hplace
    rcases q.records_held records now a ha with hold | hnew
    · exact h.passed a hold hplace
    · have hseq := fresh_seq q _ accepted _ h.latest hlatest a hnew
      exact absurd (UInt64.lt_of_lt_of_le hplace (UInt64.le_trans h.place hseq))
        (UInt64.lt_irrefl _)
  · intro a ha
    have hgone : a ∈ Pool.held q.answers ∨ a ∈ q.accepted now records →
        a ∈ Pool.held (records.foldl (fun q r => q.hear now r) q).answers ∨
          a ∈ evicted ++ more := by
      intro hthere
      by_cases hheld : a ∈ Pool.held (records.foldl (fun q r => q.hear now r) q).answers
      · exact Or.inl hheld
      · refine Or.inr (List.mem_append_right _ ?_)
        rw [hmore]
        exact List.mem_filter.mpr ⟨List.mem_append.mpr hthere, decide_eq_true hheld⟩
    rcases List.mem_append.mp ha with hold | hnew
    · rcases h.covered a hold with htold | hheld | hevicted
      · exact Or.inl htold
      · exact Or.inr (hgone (Or.inl hheld))
      · exact Or.inr (Or.inr (List.mem_append_left _ hevicted))
    · exact Or.inr (hgone (Or.inr hnew))

theorem Reads.other (q p : Query I AN EV) (ctx : QueryCtx)
    (accepted evicted told : List CollectedAnswer) (h : Reads q ctx accepted evicted told)
    (heffect : QueryRun.EndEffect q p) : Reads p ctx accepted evicted told := by
  have hagrees : p.Agrees q := by
    cases heffect with
    | goes hagrees _ _ _ _ => exact hagrees
    | ends hagrees _ _ _ => exact hagrees
  have hended : p.terminalEmitted = q.terminalEmitted ∧ (q.done = true → p.done = true) ∧
      (p.terminalEmitted = true ∨ Pool.iter p.pendingUpdates ≠ [] → p.done = true) := by
    cases heffect with
    | goes _ hdone hupdates hemitted _ =>
      refine ⟨hemitted, fun hq => hdone.trans hq, ?_⟩
      rw [hdone, hupdates, hemitted]
      exact h.numbered.ended
    | ends _ _ hdone hemitted => exact ⟨hemitted, fun _ => hdone, fun _ => hdone⟩
  refine ⟨h.latest.agrees q p accepted hagrees, hagrees.numbered p q h.numbered hended.2.2,
    hended.1.trans h.silent, fun herrored => hended.2.1 (h.errored herrored), ?_, h.sorted, h.below,
    h.sound, ?_, ?_⟩
  · rw [hagrees.nextSeq]
    exact h.place
  · rw [hagrees.answers]
    exact h.passed
  · rw [hagrees.answers]
    exact h.covered

theorem Reads.marked (ctx ctx' : QueryCtx)
    (accepted evicted told : List CollectedAnswer) (h : Reads q ctx accepted evicted told)
    (hplace : ctx'.lastSeq = ctx.lastSeq)
    (herrored : ctx'.errored = true → q.done = true) : Reads q ctx' accepted evicted told := by
  refine ⟨h.latest, h.numbered, h.silent, herrored, ?_, h.sorted, ?_, h.sound, ?_, h.covered⟩
  · rw [hplace]
    exact h.place
  · rw [hplace]
    exact h.below
  · rw [hplace]
    exact h.passed

theorem Reads.answer (ctx : QueryCtx)
    (accepted evicted told : List CollectedAnswer) (h : Reads q ctx accepted evicted told)
    (a : CollectedAnswer) (hnext : nextAnswerBySeq (Pool.held q.answers) ctx.lastSeq = some a) :
    Reads q { ctx with lastSeq := saturatingSucc64 a.seq } accepted evicted (told ++ [a]) := by
  obtain ⟨hheld, hplace, hleast⟩ := nextAnswerBySeq_some _ _ a hnext
  obtain ⟨hmem, hbound⟩ := held_below q accepted h.latest a hheld
  have hbehind := fun b => lt_saturatingSucc64 a.seq q.nextSeq b hbound
  refine ⟨h.latest, h.numbered, h.silent, h.errored, ?_, ?_, ?_, ?_, ?_, ?_⟩
  · exact UInt64.not_lt.mp fun hover =>
      UInt64.lt_irrefl _ (UInt64.lt_of_lt_of_le hbound ((hbehind _).mp hover))
  · rw [List.pairwise_append]
    refine ⟨h.sorted, List.pairwise_singleton _ _, ?_⟩
    intro b hb c hc
    rw [List.mem_singleton.mp hc]
    exact UInt64.lt_of_lt_of_le (h.below b hb) hplace
  · intro b hb
    refine (hbehind b.seq).mpr ?_
    rcases List.mem_append.mp hb with hold | hnew
    · exact UInt64.le_of_lt (UInt64.lt_of_lt_of_le (h.below b hold) hplace)
    · rw [List.mem_singleton.mp hnew]
      exact UInt64.le_refl _
  · intro b hb
    rcases List.mem_append.mp hb with hold | hnew
    · exact h.sound b hold
    · rw [List.mem_singleton.mp hnew]
      exact hmem
  · intro b hb hlt
    by_cases hpast : b.seq < ctx.lastSeq
    · exact List.mem_append_left _ (h.passed b hb hpast)
    · have hle := hleast b hb (UInt64.not_lt.mp hpast)
      rw [held_seq q accepted h.latest b a hb hheld
        (UInt64.le_antisymm ((hbehind b.seq).mp hlt) hle)]
      exact List.mem_append_right _ (List.mem_singleton_self a)
  · intro b hb
    rcases h.covered b hb with htold | hrest
    · exact Or.inl (List.mem_append_left _ htold)
    · exact Or.inr hrest

theorem poll_live (ctx : QueryCtx)
    (accepted evicted told : List CollectedAnswer) (h : Reads q ctx accepted evicted told)
    (hkept : ctx.cancelled = false) :
    (∃ a, nextAnswerBySeq (Pool.held q.answers) ctx.lastSeq = some a ∧
      (live q ctx).poll =
        (live q { ctx with lastSeq := saturatingSucc64 a.seq }, .event (.answer a))) ∨
    nextAnswerBySeq (Pool.held q.answers) ctx.lastSeq = none ∧
      ((q.done = true ∧ ∃ update,
        (live q ctx).poll = (⟨none, none, true, ctx.cancelled⟩, .event (.terminal update))) ∨
      (q.done = false ∧ (live q ctx).poll = (live q ctx, .parked))) := by
  unfold poll collectedAnswers live
  dsimp only
  rw [if_neg Bool.false_ne_true]
  cases nextAnswerBySeq (Pool.held q.answers) ctx.lastSeq with
  | some a => exact Or.inl ⟨a, rfl, rfl⟩
  | none =>
    refine Or.inr ⟨rfl, ?_⟩
    dsimp only [Option.map_some]
    cases hdone : q.done with
    | true =>
      obtain ⟨update, hupdate⟩ := q.pollQuery_ended hdone h.silent
      refine Or.inl ⟨rfl, update, ?_⟩
      rw [show q.pollQuery = (q.pollQuery.1, some update) from Prod.ext rfl hupdate]
    | false =>
      have hlive : ctx.errored = false := by
        by_contra herrored
        have hended := h.errored (Bool.not_eq_false _ ▸ herrored)
        rw [hdone] at hended
        cases hended
      refine Or.inr ⟨rfl, ?_⟩
      rw [q.pollQuery_live h.numbered hdone, hkept, hlive]
      rfl

theorem transmit_effect (ctx : QueryCtx) (now : I) (buf : Bytes) :
    ∃ p, (live q ctx).transmit now buf = live p ctx ∧ (p = q ∨ QueryRun.EndEffect q p) ∨
      (live q ctx).transmit now buf = live p.retire { ctx with errored := true } ∧
        QueryRun.EndEffect q p := by
  have heffect := QueryRun.serve_end q now (.transmit buf) nofun nofun
  change QueryRun.EndEffect q (q.pollTransmit now buf).1 at heffect
  unfold transmit
  split
  · exact ⟨q, Or.inl ⟨rfl, Or.inl rfl⟩⟩
  · dsimp only
    revert heffect
    rcases q.pollTransmit now buf with ⟨p, _ | _⟩
    · intro heffect
      exact ⟨p, Or.inr ⟨rfl, heffect⟩⟩
    · intro heffect
      exact ⟨p, Or.inl ⟨rfl, Or.inr heffect⟩⟩

theorem retire_done : q.retire.done = true := by
  unfold Query.retire Query.terminate
  split
  · assumption
  · rfl

theorem Reads.served (ctx : QueryCtx)
    (accepted evicted told : List CollectedAnswer) (h : Reads q ctx accepted evicted told) (now : I)
    (call : StreamCall I) (hnext : call ≠ .next) (hdrop : call ≠ .drop) (hsweep : call ≠ .sweep)
    (hrecords : ∀ records, call ≠ .records records) :
    ∃ p ctx', (live q ctx).next ⟨now, call⟩ = live p ctx' ∧ ctx'.cancelled = ctx.cancelled ∧
      ctx'.lastSeq = ctx.lastSeq ∧ p.answers = q.answers ∧ (q.done = true → p.done = true) ∧
      Reads p ctx' accepted evicted told := by
  have hserved : ∀ p, QueryRun.EndEffect q p → p.answers = q.answers ∧
      (q.done = true → p.done = true) := by
    intro p heffect
    cases heffect with
    | goes hagrees hdone _ _ _ => exact ⟨hagrees.answers, fun hq => hdone.trans hq⟩
    | ends hagrees _ hdone _ => exact ⟨hagrees.answers, fun _ => hdone⟩
  cases call with
  | next => exact absurd rfl hnext
  | drop => exact absurd rfl hdrop
  | sweep => exact absurd rfl hsweep
  | records records => exact absurd rfl (hrecords records)
  | duplicate =>
    have heffect := QueryRun.serve_end q now .duplicate nofun nofun
    exact ⟨_, ctx, rfl, rfl, rfl, (hserved _ heffect).1, (hserved _ heffect).2,
      h.other q _ ctx accepted evicted told heffect⟩
  | outcome v4 v6 =>
    have heffect := QueryRun.serve_end q now (.outcome v4 v6) nofun nofun
    exact ⟨_, ctx, rfl, rfl, rfl, (hserved _ heffect).1, (hserved _ heffect).2,
      h.other q _ ctx accepted evicted told heffect⟩
  | timeout =>
    unfold next
    dsimp only
    split
    · exact ⟨q, ctx, rfl, rfl, rfl, rfl, id, h⟩
    · have heffect := QueryRun.serve_end q now .timeout nofun nofun
      exact ⟨_, ctx, rfl, rfl, rfl, (hserved _ heffect).1, (hserved _ heffect).2,
        h.other q _ ctx accepted evicted told heffect⟩
  | transmit buf =>
    unfold next
    dsimp only
    obtain ⟨p, ⟨heq, hkept⟩ | ⟨heq, heffect⟩⟩ := transmit_effect q ctx now buf
    · refine ⟨p, ctx, heq, rfl, rfl, ?_⟩
      rcases hkept with rfl | heffect
      · exact ⟨rfl, id, h⟩
      · exact ⟨(hserved p heffect).1, (hserved p heffect).2,
          h.other q p ctx accepted evicted told heffect⟩
    · have hretire := QueryRun.serve_end p now .retire nofun nofun
      have hp := h.other q p ctx accepted evicted told heffect
      have hanswers : p.retire.answers = p.answers := by
        cases hretire with
        | goes hagrees _ _ _ _ => exact hagrees.answers
        | ends hagrees _ _ _ => exact hagrees.answers
      refine ⟨p.retire, { ctx with errored := true }, heq, rfl, rfl,
        hanswers.trans (hserved p heffect).1, fun _ => retire_done p, ?_⟩
      exact (hp.other p p.retire ctx accepted evicted told hretire).marked p.retire ctx _
        accepted evicted told rfl fun _ => retire_done p

theorem Phase.next (q₀ : Query I AN EV) (s : QueryStream I AN EV) (e : StreamStep I)
    (accepted evicted : List CollectedAnswer) (events : List QueryEvent)
    (h : Phase s accepted evicted events) (hadmits : (machine q₀).admits s e)
    (hfew : (accepted ++ acceptedBy ((machine q₀).transition s e)).length < 2 ^ 64) :
    Phase (s.next e) (accepted ++ acceptedBy ((machine q₀).transition s e))
      (evicted ++ evictedBy ((machine q₀).transition s e))
      (events ++ eventsBy ((machine q₀).transition s e)) := by
  obtain ⟨now, call⟩ := e
  cases h with
  | live q ctx told hstate hevents hreads =>
    subst hstate hevents
    by_cases hrecords : ∃ records, call = .records records
    · obtain ⟨records, rfl⟩ := hrecords
      rw [silent _ (fun h => by cases h), List.append_nil]
      exact .live _ ctx told rfl rfl
        (hreads.records q ctx accepted evicted told _ now records rfl hfew)
    · obtain ⟨hnone, hkeeps⟩ := quiet ((machine q₀).transition (QueryStream.live q ctx) ⟨now, call⟩)
        fun records hr => hrecords ⟨records, hr⟩
      rw [hnone, hkeeps, List.append_nil, List.append_nil]
      by_cases hnext : call = .next
      · subst hnext
        have hkept : ctx.cancelled = false := hadmits
        change Phase (QueryStream.live q ctx).poll.1 _ _
          (_ ++ (QueryStream.live q ctx).poll.2.events)
        rcases poll_live q ctx accepted evicted told hreads hkept with
          ⟨a, hnext, hpoll⟩ | ⟨hnext, ⟨hdone, update, hpoll⟩ | ⟨hlive, hpoll⟩⟩
        · rw [hpoll]
          refine .live q { ctx with lastSeq := saturatingSucc64 a.seq } (told ++ [a]) rfl ?_
            (hreads.answer q ctx accepted evicted told a hnext)
          rw [List.map_append, List.map_singleton]
          rfl
        · rw [hpoll]
          refine .ended told update rfl rfl hreads.sorted hreads.sound ?_
          intro a ha
          rcases hreads.covered a ha with htold | hheld | hevicted
          · exact Or.inl htold
          · exact Or.inl (hreads.passed a hheld (nextAnswerBySeq_none _ _ hnext a hheld))
          · exact Or.inr hevicted
        · rw [hpoll]
          exact .live q ctx told rfl (List.append_nil _) hreads
      · rw [silent _ hnext, List.append_nil]
        by_cases hdrop : call = .drop
        · subst hdrop
          exact .live q { ctx with cancelled := true } told rfl rfl
            (hreads.marked q ctx _ accepted evicted told rfl hreads.errored)
        · by_cases hsweep : call = .sweep
          · subst hsweep
            change Phase (if ctx.cancelled then _ else _) _ _ _
            cases hcancelled : ctx.cancelled with
            | true =>
              exact .swept told (by rw [if_pos rfl, ← hcancelled]) rfl hreads.sorted hreads.sound
            | false => exact .live q ctx told (by rw [QueryStream.live, hcancelled]; rfl) rfl hreads
          · obtain ⟨p, ctx', heq, -, -, -, -, hreads'⟩ := hreads.served q ctx accepted evicted told
              now call hnext hdrop hsweep fun records hr => hrecords ⟨records, hr⟩
            rw [heq]
            exact .live p ctx' told rfl rfl hreads'
  | ended told update hstate hevents hsorted hsound hcovered =>
    obtain ⟨proto, ctx, terminalDelivered, dropped⟩ := s
    cases hstate
    have hquiet : acceptedBy ((machine q₀).transition
          (⟨none, none, true, dropped⟩ : QueryStream I AN EV) ⟨now, call⟩) = [] ∧
        evictedBy ((machine q₀).transition
          (⟨none, none, true, dropped⟩ : QueryStream I AN EV) ⟨now, call⟩) = [] ∧
        eventsBy ((machine q₀).transition
          (⟨none, none, true, dropped⟩ : QueryStream I AN EV) ⟨now, call⟩) = [] := by
      cases call <;> exact ⟨rfl, rfl, rfl⟩
    rw [hquiet.1, hquiet.2.1, hquiet.2.2, List.append_nil, List.append_nil, List.append_nil]
    cases call <;> exact .ended told update rfl hevents hsorted hsound hcovered
  | swept told hstate hevents hsorted hsound =>
    subst hstate
    have hquiet : acceptedBy ((machine q₀).transition
          (⟨none, none, false, true⟩ : QueryStream I AN EV) ⟨now, call⟩) = [] ∧
        eventsBy ((machine q₀).transition
          (⟨none, none, false, true⟩ : QueryStream I AN EV) ⟨now, call⟩) = [] := by
      cases call <;> exact ⟨rfl, rfl⟩
    rw [hquiet.1, hquiet.2, List.append_nil, List.append_nil]
    cases call <;> exact .swept told rfl hevents hsorted hsound

theorem started_numbered [LawfulPool EV] (q₀ : Query I AN EV) (hstart : QueryRun.Started q₀) :
    q₀.Numbered := by
  obtain ⟨handle, qname, qtype, qclass, txid, unicast, deadline, max, rfl⟩ := hstart
  have hempty : ∀ k a, Pool.get (Pool.new : AN CollectedAnswer) k ≠ some a := by
    intro k a hget
    have hmem := (LawfulPool.mem_iter _ _ _).mpr hget
    rw [LawfulPool.iter_new] at hmem
    cases hmem
  refine ⟨fun _ k a h => absurd h (hempty k a), fun _ k j a b h => absurd h (hempty k a), ?_⟩
  rintro (hemitted | hpending)
  · cases hemitted
  · exact absurd LawfulPool.iter_new hpending

def unread (s : QueryStream I AN EV) : Nat :=
  match s.ctx with
  | some ctx => (s.collectedAnswers.filter fun a => decide (ctx.lastSeq ≤ a.seq)).length
  | none => 0

def polls (es : List (StreamStep I)) : Nat :=
  (es.filter fun e => match e.call with
    | .next => true
    | _ => false).length

end
end

end Compio.QueryStream
end Hick
