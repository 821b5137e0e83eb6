import Hick.Mio.EventQueueSpec
import Hick.Mio.TxQueue

/-!
# Every sender has its turn (hick-mio/src/driver.rs:1570-1640)

How many senders are ahead of one is a potential: whoever joins or has had its turn goes behind it,
so the number never grows, and a tick that does not come to it takes a whole budget of senders from
before it.
-/

namespace Hick
open Runs

namespace Senders
variable {T : Type} [DecidableEq T]

theorem reseat_senders (sender : T) (seq : UInt64) (live : List (UInt64 × T)) :
    (reseat sender seq live).map Prod.snd = live.map Prod.snd := by
  rw [reseat, List.map_map]
  apply List.map_congr_left
  intro e _
  rw [Function.comp_apply]
  split <;> rfl

theorem mem_reseat_other (sender : T) (seq : UInt64) (live : List (UInt64 × T))
    (e : UInt64 × T) (hother : e.2 ≠ sender) : e ∈ reseat sender seq live ↔ e ∈ live := by
  rw [reseat, List.mem_map]
  constructor
  · rintro ⟨e', hmem, heq⟩
    by_cases hs : e'.2 = sender
    · rw [if_pos hs] at heq
      rw [← heq] at hother
      exact absurd hs hother
    · rw [if_neg hs] at heq
      exact heq ▸ hmem
  · intro hmem
    exact ⟨e, hmem, if_neg hother⟩

theorem ahead_reseat (sender : T) (old seq b : UInt64) (live : List (UInt64 × T))
    (hsenders : (live.map Prod.snd).Nodup) (hmem : (old, sender) ∈ live) (hold : old < b)
    (hseq : b ≤ seq) : ahead b (reseat sender seq live) + 1 = ahead b live := by
  induction live with
  | nil => cases hmem
  | cons e rest ih =>
    rw [List.map_cons, List.nodup_cons] at hsenders
    obtain ⟨hout, hrest⟩ := hsenders
    have hbehind : ¬ seq < b := Std.not_lt.mpr hseq
    rcases List.mem_cons.mp hmem with rfl | hin
    · -- the others are other senders, and stay as they are
      have hsame : reseat sender seq rest = rest := by
        rw [reseat]
        conv_rhs => rw [← List.map_id rest]
        apply List.map_congr_left
        intro e' he'
        have hne : e'.2 ≠ sender := by
          intro heq
          exact hout (List.mem_map.mpr ⟨e', he', heq⟩)
        rw [if_neg hne]
        rfl
      rw [reseat] at hsame
      rw [reseat, List.map_cons, hsame, if_pos rfl, ahead, ahead,
        List.filter_cons_of_neg (by simpa using hbehind),
        List.filter_cons_of_pos (by simpa using hold), List.length_cons]
    · have hne : e.2 ≠ sender := by
        intro heq
        exact hout (List.mem_map.mpr ⟨(old, sender), hin, heq.symm⟩)
      have hcount := ih hrest hin
      rw [reseat, ahead, ahead] at hcount
      rw [reseat, List.map_cons, if_neg hne, ahead, ahead, List.filter_cons, List.filter_cons]
      split
      · rw [List.length_cons, List.length_cons, ← hcount]
      · exact hcount

structure Orderly (nextSeq : UInt64) (live : List (UInt64 × T)) : Prop where
  different : (live.map Prod.fst).Nodup
  given : ∀ e ∈ live, e.1 < nextSeq

theorem Orderly.reseat (nextSeq : UInt64) (live : List (UInt64 × T)) (h : Orderly nextSeq live)
    (hsenders : (live.map Prod.snd).Nodup) (hfresh : nextSeq ≠ 18446744073709551615) (sender : T) :
    Orderly (saturatingSucc64 nextSeq) (Senders.reseat sender nextSeq live) := by
  have hlater := saturatingSucc64_lt nextSeq hfresh
  have hgiven := h.given
  constructor
  · have hdifferent := h.different
    clear h
    induction live with
    | nil => exact List.nodup_nil
    | cons e rest ih =>
      rw [List.map_cons, List.nodup_cons] at hsenders hdifferent
      have hrest := ih hsenders.2 (fun e' he' => hgiven e' (List.mem_cons_of_mem _ he'))
        hdifferent.2
      rw [Senders.reseat, List.map_cons, List.map_cons, List.nodup_cons]
      refine ⟨?_, hrest⟩
      intro hmem
      obtain ⟨e', he', heq⟩ := List.mem_map.mp hmem
      obtain ⟨e₀, he₀, rfl⟩ := List.mem_map.mp he'
      have hlt := hgiven e₀ (List.mem_cons_of_mem _ he₀)
      have hlt' := hgiven e List.mem_cons_self
      by_cases hs₀ : e₀.2 = sender
      · by_cases hs : e.2 = sender
        · exact hsenders.1 (List.mem_map.mpr ⟨e₀, he₀, hs₀.trans hs.symm⟩)
        · rw [if_pos hs₀, if_neg hs] at heq
          rw [← heq] at hlt'
          exact Std.lt_irrefl hlt'
      · rw [if_neg hs₀] at heq
        by_cases hs : e.2 = sender
        · rw [if_pos hs] at heq
          rw [heq] at hlt
          exact Std.lt_irrefl hlt
        · rw [if_neg hs] at heq
          exact hdifferent.1 (List.mem_map.mpr ⟨e₀, he₀, heq⟩)
  · intro e he
    obtain ⟨e₀, he₀, rfl⟩ := List.mem_map.mp he
    split
    · exact hlater
    · exact Std.lt_trans (hgiven e₀ he₀) hlater

variable (s : Senders T) (spend : T → Nat → Nat × Bool)

theorem serveFrom_nextSeq (rest : List (UInt64 × T))
    (sched : TxSchedule) (q : TxQueue) (s : List (UInt64 × T) × List (Turn T)) :
    q.nextSeq ≤ (TxQueue.serveFrom (visit spend) rest sched q s).2.1.nextSeq := by
  induction rest generalizing sched q s with
  | nil => exact Std.le_refl _
  | cons entry rest ih =>
    obtain ⟨seq, sender⟩ := entry
    rw [TxQueue.serveFrom]
    cases sched.nextSlot with
    | none => exact Std.le_refl _
    | some slot =>
      simp only [visit, TxQueue.join]
      exact Std.le_trans (saturatingSucc64_le q.nextSeq) (ih _ _ _)

theorem serveFrom_live (rest : List (UInt64 × T))
    (sched : TxSchedule) (q : TxQueue) (s : List (UInt64 × T) × List (Turn T))
    (hsenders : (s.1.map Prod.snd).Nodup) (hrest : ∀ e ∈ rest, e ∈ s.1)
    (honce : (rest.map Prod.snd).Nodup)
    (hlast : (TxQueue.serveFrom (visit spend) rest sched q s).2.1.nextSeq < 18446744073709551615)
    (horderly : Orderly q.nextSeq s.1) :
    (TxQueue.serveFrom (visit spend) rest sched q s).1.1.map Prod.snd = s.1.map Prod.snd ∧
    Orderly (TxQueue.serveFrom (visit spend) rest sched q s).2.1.nextSeq
      (TxQueue.serveFrom (visit spend) rest sched q s).1.1 ∧
    ∃ taken, (TxQueue.serveFrom (visit spend) rest sched q s).1.2 = s.2 ++ taken ∧
      ∀ b v, (b, v) ∈ s.1 → v ∉ taken.map Turn.sender →
        (b, v) ∈ (TxQueue.serveFrom (visit spend) rest sched q s).1.1 ∧
        ((∀ e ∈ rest.take taken.length, e.1 < b) →
          ahead b (TxQueue.serveFrom (visit spend) rest sched q s).1.1 + taken.length =
            ahead b s.1) := by
  induction rest generalizing sched q s with
  | nil =>
    refine ⟨rfl, horderly, [], (List.append_nil _).symm, ?_⟩
    intro b v hmem _
    exact ⟨hmem, fun _ => rfl⟩
  | cons entry rest ih =>
    obtain ⟨old, sender⟩ := entry
    rw [TxQueue.serveFrom] at hlast ⊢
    cases hslot : sched.nextSlot with
    | none =>
      refine ⟨rfl, horderly, [], (List.append_nil _).symm, ?_⟩
      intro b v hmem _
      exact ⟨hmem, fun _ => rfl⟩
    | some slot =>
      obtain ⟨idx, quantum⟩ := slot
      rw [hslot] at hlast
      simp only [visit, TxQueue.join] at hlast ⊢
      rw [List.map_cons, List.nodup_cons] at honce
      have hfresh : q.nextSeq ≠ 18446744073709551615 := by
        intro htop
        have hgrows := serveFrom_nextSeq spend rest
          (sched.charge (spend sender quantum).1 (spend sender quantum).2)
          ⟨saturatingSucc64 q.nextSeq⟩ (reseat sender q.nextSeq s.1, s.2 ++
            [⟨sender, quantum, (spend sender quantum).1, (spend sender quantum).2⟩])
        have htop' : 18446744073709551615 ≤ saturatingSucc64 q.nextSeq := by
          rw [htop]
          decide
        exact absurd (Std.lt_of_le_of_lt (Std.le_trans htop' hgrows) hlast) Std.lt_irrefl
      have hin : (old, sender) ∈ s.1 := hrest _ List.mem_cons_self
      have hsame := reseat_senders sender q.nextSeq s.1
      obtain ⟨hlive, horder, taken, hturns, htaken⟩ := ih
        (sched.charge (spend sender quantum).1 (spend sender quantum).2)
        ⟨saturatingSucc64 q.nextSeq⟩ (reseat sender q.nextSeq s.1, s.2 ++
          [⟨sender, quantum, (spend sender quantum).1, (spend sender quantum).2⟩])
        (by rw [hsame]; exact hsenders)
        (by
          intro e he
          have hne : e.2 ≠ sender := by
            intro heq
            exact honce.1 (List.mem_map.mpr ⟨e, he, heq⟩)
          exact (mem_reseat_other sender q.nextSeq s.1 e hne).mpr
            (hrest e (List.mem_cons_of_mem _ he)))
        honce.2 hlast (horderly.reseat q.nextSeq s.1 hsenders hfresh sender)
      refine ⟨hlive.trans hsame, horder,
        ⟨sender, quantum, (spend sender quantum).1, (spend sender quantum).2⟩ :: taken, ?_, ?_⟩
      · rw [hturns, List.append_assoc]
        rfl
      · intro b v hmem hout
        rw [List.map_cons, List.mem_cons, not_or] at hout
        obtain ⟨hv, hout⟩ := hout
        have hstays : (b, v) ∈ reseat sender q.nextSeq s.1 :=
          (mem_reseat_other sender q.nextSeq s.1 (b, v) hv).mpr hmem
        obtain ⟨hstill, hcount⟩ := htaken b v hstays hout
        refine ⟨hstill, ?_⟩
        intro hbefore
        rw [List.length_cons, List.take_succ_cons] at hbefore
        have hpassed := ahead_reseat sender old q.nextSeq b s.1 hsenders hin
          (hbefore _ List.mem_cons_self) (Std.le_of_lt (horderly.given _ hmem))
        have hothers : _ + taken.length = ahead b (reseat sender q.nextSeq s.1) :=
          hcount fun e he => hbefore e (List.mem_cons_of_mem _ he)
        rw [List.length_cons, ← Nat.add_assoc, hothers]
        exact hpassed

structure Tidy (s : Senders T) : Prop where
  senders : (s.live.map Prod.snd).Nodup
  orderly : s.queue.nextSeq < 18446744073709551615 → Orderly s.queue.nextSeq s.live

omit [DecidableEq T] in
theorem sorted_perm (queue : List (UInt64 × T)) : (TxQueue.sorted queue).Perm queue :=
  List.mergeSort_perm queue _

omit [DecidableEq T] in
theorem sorted_ascending (queue : List (UInt64 × T)) :
    (TxQueue.sorted queue).Pairwise fun a b => a.1 ≤ b.1 := by
  have hsorted := @List.pairwise_mergeSort _ (fun a b : UInt64 × T => decide (a.1 ≤ b.1))
    (by
      intro a b c hab hbc
      exact decide_eq_true (Std.le_trans (of_decide_eq_true hab) (of_decide_eq_true hbc)))
    (by
      intro a b
      rcases Std.le_total (a := a.1) (b := b.1) with h | h
      · simp [h]
      · simp [h]) queue
  exact hsorted.imp fun h => of_decide_eq_true h

theorem serveTick_walk (listed : List (UInt64 × T)) (spend : T → Nat → Nat × Bool)
    (hspend : ∀ sender quantum, (spend sender quantum).1 ≤ quantum) :
    ∃ sched', Walk spend (TxQueue.sorted listed)
      (TxSchedule.new listed.length maxSendCreditsPerDrain) (s.serveTick listed spend).1.2 sched' ∧
      (s.serveTick listed spend).2.2 = sched'.leftWorkBehind := by
  have hlen : (TxSchedule.new listed.length maxSendCreditsPerDrain).len -
      (TxSchedule.new listed.length maxSendCreditsPerDrain).visited =
      (TxQueue.sorted listed).length := (sorted_perm listed).length_eq.symm
  obtain ⟨taken, hturns, hwalk⟩ := serveFrom_walk spend hspend (TxQueue.sorted listed) _ hlen s.queue
    (s.live, [])
  rw [List.nil_append] at hturns
  rw [← hturns] at hwalk
  exact ⟨_, hwalk, rfl⟩

theorem tick_budget (listed : List (UInt64 × T)) (spend : T → Nat → Nat × Bool)
    (h : s.admits (.tick listed spend)) :
    (((s.serveTick listed spend).1.2.map Turn.spent).sum ≤ maxSendCreditsPerDrain) ∧
    ((s.serveTick listed spend).2.2 = false →
      (∀ v ∈ s.live.map Prod.snd, v ∈ (s.serveTick listed spend).1.2.map Turn.sender) ∧
      ∀ turn ∈ (s.serveTick listed spend).1.2, turn.capped = false) := by
  obtain ⟨hperm, hspend⟩ := h
  obtain ⟨sched', hwalk, hleft⟩ := serveTick_walk s listed spend hspend
  have hsum : ((s.serveTick listed spend).1.2.map Turn.spent).sum + sched'.credits =
      maxSendCreditsPerDrain := hwalk.spent
  refine ⟨by omega, ?_⟩
  intro hdone
  rw [hleft, TxSchedule.leftWorkBehind, Bool.or_eq_false_iff, beq_eq_false_iff_ne] at hdone
  obtain ⟨hrich, huncapped⟩ := hdone
  constructor
  · intro v hv
    rcases hwalk.stops with hbroke | hall
    · exact absurd hbroke hrich
    · rw [hwalk.senders, hall, List.take_length]
      have hlisted := (sorted_perm listed).trans hperm
      exact (hlisted.map Prod.snd).mem_iff.mpr hv
  · intro turn hturn
    rw [hwalk.capped, Bool.or_eq_false_iff, List.any_eq_false] at huncapped
    exact Bool.eq_false_iff.mpr (huncapped.2 turn hturn)

theorem tick_ahead (htidy : Tidy s) (listed : List (UInt64 × T))
    (spend : T → Nat → Nat × Bool) (h : s.admits (.tick listed spend))
    (hlast : (s.next (.tick listed spend)).queue.nextSeq < 18446744073709551615) (b : UInt64) (v : T)
    (hmem : (b, v) ∈ s.live) (hout : v ∉ (s.serveTick listed spend).1.2.map Turn.sender) :
    (b, v) ∈ (s.next (.tick listed spend)).live ∧
      ahead b (s.next (.tick listed spend)).live + maxSendCreditsPerDrain ≤ ahead b s.live := by
  obtain ⟨hperm, hspend⟩ := h
  have hlisted := (sorted_perm listed).trans hperm
  have hunsaturated : s.queue.nextSeq < 18446744073709551615 :=
    Std.lt_of_le_of_lt (serveFrom_nextSeq spend _ _ s.queue _) hlast
  have horderly := htidy.orderly hunsaturated
  obtain ⟨sched', hwalk, -⟩ := serveTick_walk s listed spend hspend
  obtain ⟨-, -, taken, hturns, htaken⟩ := serveFrom_live spend (TxQueue.sorted listed)
    (TxSchedule.new listed.length maxSendCreditsPerDrain) s.queue (s.live, []) htidy.senders
    (fun e he => hlisted.mem_iff.mp he) ((hlisted.map Prod.snd).nodup_iff.mpr htidy.senders) hlast
    horderly
  rw [List.nil_append] at hturns
  have hsame : (s.serveTick listed spend).1.2 = taken := hturns
  rw [hsame] at hwalk hout
  obtain ⟨hstill, hcount⟩ := htaken b v hmem hout
  refine ⟨hstill, ?_⟩
  have hsorted : (b, v) ∈ TxQueue.sorted listed := hlisted.mem_iff.mpr hmem
  have hbehind : (b, v) ∈ (TxQueue.sorted listed).drop taken.length := by
    rw [← List.take_append_drop taken.length (TxQueue.sorted listed), List.mem_append] at hsorted
    rcases hsorted with hfront | hback
    · rw [hwalk.senders] at hout
      exact absurd (List.mem_map.mpr ⟨(b, v), hfront, rfl⟩) hout
    · exact hback
  have hbefore : ∀ e ∈ (TxQueue.sorted listed).take taken.length, e.1 < b := by
    intro e he
    have hascending := sorted_ascending listed
    rw [← List.take_append_drop taken.length (TxQueue.sorted listed),
      List.pairwise_append] at hascending
    have hle := hascending.2.2 e he (b, v) hbehind
    apply Std.lt_of_le_of_ne hle
    intro heq
    -- two senders do not have one sequence
    have hdifferent := (hlisted.map Prod.fst).nodup_iff.mpr horderly.different
    rw [← List.take_append_drop taken.length (TxQueue.sorted listed), List.map_append,
      List.nodup_append] at hdifferent
    exact hdifferent.2.2 e.1 (List.mem_map.mpr ⟨e, he, rfl⟩) b
      (List.mem_map.mpr ⟨(b, v), hbehind, rfl⟩) heq
  have hmany : min (TxQueue.sorted listed).length maxSendCreditsPerDrain ≤ taken.length := hwalk.many
  have hshort : taken.length < (TxQueue.sorted listed).length := by
    by_contra hlong
    rw [List.drop_eq_nil_of_le (Nat.le_of_not_lt hlong)] at hbehind
    cases hbehind
  have hmoved : ahead b (s.next (.tick listed spend)).live + taken.length = ahead b s.live :=
    hcount hbefore
  omega

theorem serveFrom_senders (rest : List (UInt64 × T))
    (sched : TxSchedule) (q : TxQueue) (s : List (UInt64 × T) × List (Turn T)) :
    (TxQueue.serveFrom (visit spend) rest sched q s).1.1.map Prod.snd = s.1.map Prod.snd := by
  induction rest generalizing sched q s with
  | nil => rfl
  | cons entry rest ih =>
    obtain ⟨old, sender⟩ := entry
    rw [TxQueue.serveFrom]
    cases sched.nextSlot with
    | none => rfl
    | some slot =>
      simp only [visit, TxQueue.join]
      rw [ih]
      exact reseat_senders sender q.nextSeq s.1

theorem next_nextSeq (c : TxCall T) :
    s.queue.nextSeq ≤ (s.next c).queue.nextSeq := by
  cases c with
  | join sender => exact saturatingSucc64_le s.queue.nextSeq
  | leave sender => exact Std.le_refl _
  | tick listed spend => exact serveFrom_nextSeq spend _ _ s.queue _

theorem play_nextSeq (cs : List (TxCall T)) :
    s.queue.nextSeq ≤ (machine.play s cs).queue.nextSeq := by
  induction cs generalizing s with
  | nil => exact Std.le_refl _
  | cons c cs ih => exact Std.le_trans (next_nextSeq s c) (ih (s.next c))

theorem next_tidy (c : TxCall T) (h : Tidy s) (hadmits : s.admits c) :
    Tidy (s.next c) := by
  constructor
  · have hsenders := h.senders
    cases c with
    | join sender =>
      rw [next, List.map_append]
      apply List.nodup_append.mpr
      refine ⟨hsenders, List.nodup_singleton sender, ?_⟩
      intro v hv u hu heq
      rw [List.mem_singleton.mp hu] at heq
      have hjoined : v = sender := heq
      exact hadmits (hjoined ▸ hv)
    | leave sender => exact hsenders.sublist (List.filter_sublist.map Prod.snd)
    | tick listed spend =>
      have hsame : (s.next (.tick listed spend)).live.map Prod.snd = s.live.map Prod.snd :=
        serveFrom_senders spend _ _ s.queue (s.live, [])
      rw [hsame]
      exact hsenders
  · intro hlast
    have horderly := h.orderly (Std.lt_of_le_of_lt (next_nextSeq s c) hlast)
    cases c with
    | join sender =>
      have hfresh : s.queue.nextSeq ≠ 18446744073709551615 := by
        intro htop
        have hlast' : saturatingSucc64 s.queue.nextSeq < 18446744073709551615 := hlast
        rw [htop] at hlast'
        exact absurd hlast' (by decide)
      have hlater := saturatingSucc64_lt s.queue.nextSeq hfresh
      constructor
      · rw [next, List.map_append]
        apply List.nodup_append.mpr
        refine ⟨horderly.different, List.nodup_singleton _, ?_⟩
        intro seq hseq seq' hseq' heq
        obtain ⟨e, he, rfl⟩ := List.mem_map.mp hseq
        have hlt := horderly.given e he
        rw [heq, List.mem_singleton.mp hseq'] at hlt
        exact Std.lt_irrefl hlt
      · intro e he
        rcases List.mem_append.mp he with hold | hnew
        · exact Std.lt_trans (horderly.given e hold) hlater
        · rw [List.mem_singleton.mp hnew]
          exact hlater
    | leave sender =>
      exact ⟨horderly.different.sublist (List.filter_sublist.map Prod.fst),
        fun e he => horderly.given e (List.mem_filter.mp he).1⟩
    | tick listed spend =>
      obtain ⟨hperm, hspend⟩ := hadmits
      have hlisted := (sorted_perm listed).trans hperm
      exact (serveFrom_live spend (TxQueue.sorted listed)
        (TxSchedule.new listed.length maxSendCreditsPerDrain) s.queue (s.live, []) h.senders
        (fun e he => hlisted.mem_iff.mp he) ((hlisted.map Prod.snd).nodup_iff.mpr h.senders) hlast
        horderly).2.1

theorem run_tidy (ts : List (Transition (Senders T) (TxCall T))) (s : Senders T)
    (run : Run machine ts s) : Tidy s := by
  apply Reachable.invariant machine Tidy _ _ s ⟨ts, run⟩
  · rintro s rfl
    exact ⟨List.nodup_nil, fun _ => ⟨List.nodup_nil, nofun⟩⟩
  · exact fun s c h hadmits => next_tidy s c h hadmits

theorem ahead_falls (htidy : Tidy s) (cs : List (TxCall T))
    (hadmitted : machine.Admitted s cs)
    (hlast : (machine.play s cs).queue.nextSeq < 18446744073709551615) (b : UInt64) (v : T)
    (hmem : (b, v) ∈ s.live) (hstays : ∀ c ∈ cs, c ≠ .leave v)
    (hwaits : ∀ tr ∈ machine.trace s cs, ¬ offered tr v) :
    ahead b (machine.play s cs).live +
      maxSendCreditsPerDrain * (machine.trace s cs).countP isTick ≤ ahead b s.live := by
  induction cs generalizing s with
  | nil => exact Nat.le_refl _
  | cons c cs ih =>
    obtain ⟨hadmits, hrest⟩ := hadmitted
    have hlast' : (machine.play (s.next c) cs).queue.nextSeq < 18446744073709551615 := hlast
    have hnext : (s.next c).queue.nextSeq < 18446744073709551615 :=
      Std.lt_of_le_of_lt (play_nextSeq (s.next c) cs) hlast'
    have horderly := htidy.orderly (Std.lt_of_le_of_lt (next_nextSeq s c) hnext)
    have hstays' : ∀ c' ∈ cs, c' ≠ .leave v := fun c' hc' => hstays c' (List.mem_cons_of_mem _ hc')
    have hwaits' : ∀ tr ∈ machine.trace (s.next c) cs, ¬ offered tr v :=
      fun tr htr => hwaits tr (List.mem_cons_of_mem _ htr)
    have htrace : machine.trace s (c :: cs) = machine.transition s c ::
      machine.trace (s.next c) cs := rfl
    have hplay : machine.play s (c :: cs) = machine.play (s.next c) cs := rfl
    rw [htrace, hplay, List.countP_cons]
    have hstep : (b, v) ∈ (s.next c).live ∧ ahead b (s.next c).live +
        maxSendCreditsPerDrain * (if isTick (machine.transition s c) then 1 else 0) ≤
          ahead b s.live := by
      cases c with
      | join sender =>
        refine ⟨List.mem_append_left _ hmem, ?_⟩
        have hbehind : ¬ s.queue.nextSeq < b :=
          Std.not_lt.mpr (Std.le_of_lt (horderly.given _ hmem))
        have hahead : ahead b (s.next (.join sender)).live = ahead b s.live := by
          rw [ahead, next, TxQueue.join, List.filter_append,
            List.filter_cons_of_neg (by simpa using hbehind), List.filter_nil, List.append_nil]
          rfl
        rw [hahead]
        exact Nat.le_refl _
      | leave sender =>
        have hother : v ≠ sender := by
          rintro rfl
          exact hstays _ List.mem_cons_self rfl
        refine ⟨List.mem_filter.mpr ⟨hmem, decide_eq_true hother⟩, ?_⟩
        have hfewer : ahead b (s.next (.leave sender)).live ≤ ahead b s.live :=
          (List.filter_sublist.filter _).length_le
        exact hfewer
      | tick listed spend =>
        have hout := hwaits _ (htrace ▸ List.mem_cons_self)
        have htick := tick_ahead s htidy listed spend hadmits hnext b v hmem hout
        exact htick
    obtain ⟨hstill, hfall⟩ := hstep
    have hothers := ih (s.next c) (next_tidy s c htidy hadmits) hrest hlast' hstill hstays' hwaits'
    rw [Nat.mul_add]
    omega

/-- Over every run, while there are sequences left to give: a sender that stays is offered its turn
within a tick for each 64 senders ahead of it, and one more. -/
theorem everyone_has_a_turn (ts : List (Transition (Senders T) (TxCall T))) (s : Senders T)
    (run : Run machine ts s) (cs : List (TxCall T)) (hadmitted : machine.Admitted s cs) :
    ((machine.play s cs).queue.nextSeq < 18446744073709551615 →
      ∀ b v, (b, v) ∈ s.live → (∀ c ∈ cs, c ≠ .leave v) →
        ahead b s.live / maxSendCreditsPerDrain + 1 ≤ (machine.trace s cs).countP isTick →
        ∃ tr ∈ machine.trace s cs, offered tr v) ∧
    ∀ tr ∈ ts, ((turns tr).map Turn.spent).sum ≤ maxSendCreditsPerDrain ∧
      (isTick tr = true → leftWork tr = false →
        (∀ v ∈ tr.pre.live.map Prod.snd, offered tr v) ∧
        ∀ turn ∈ turns tr, turn.capped = false) := by
  constructor
  · intro hlast b v hmem hstays hticks
    by_contra hnone
    have hwaits : ∀ tr ∈ machine.trace s cs, ¬ offered tr v := by
      intro tr htr hoffered
      exact hnone ⟨tr, htr, hoffered⟩
    have hfall := ahead_falls s (run_tidy ts s run) cs hadmitted hlast b v hmem hstays hwaits
    have hdiv := Nat.div_add_mod (ahead b s.live) maxSendCreditsPerDrain
    have hmod := Nat.mod_lt (ahead b s.live) (by decide : 0 < maxSendCreditsPerDrain)
    have hmul := Nat.mul_le_mul_left maxSendCreditsPerDrain hticks
    rw [Nat.mul_add, Nat.mul_one] at hmul
    omega
  · intro tr htr
    obtain ⟨-, hadmits⟩ := run.mem machine ts s tr htr
    rw [turns, isTick, leftWork]
    obtain ⟨pre, call, post⟩ := tr
    cases call with
    | join sender => exact ⟨Nat.zero_le _, nofun⟩
    | leave sender => exact ⟨Nat.zero_le _, nofun⟩
    | tick listed spend =>
      obtain ⟨hspent, hdone⟩ := tick_budget pre listed spend hadmits
      exact ⟨hspent, fun _ hleft => hdone hleft⟩

def sendOnce (_ : Nat) (quantum : Nat) : Nat × Bool := (min 1 quantum, false)

def twoSenders : List (TxCall Nat) := [.join 7, .join 3]

theorem two_senders_run : Run machine (machine.trace ⟨.new, []⟩ twoSenders)
    (⟨⟨2⟩, [(0, 7), (1, 3)]⟩ : Senders Nat) :=
  Run.play machine [] ⟨.new, []⟩ (.start _ rfl) twoSenders
    ⟨(by decide : 7 ∉ []), (by decide : 3 ∉ [7]), trivial⟩

theorem two_senders_sequences :
    (machine.play (⟨⟨2⟩, [(0, 7), (1, 3)]⟩ : Senders Nat)
      [.tick [(0, 7), (1, 3)] sendOnce]).queue.nextSeq = 4 := by
  have hsorted : TxQueue.sorted [((0 : UInt64), 7), (1, 3)] = [(0, 7), (1, 3)] :=
    List.mergeSort_of_pairwise (by decide)
  have hplay : (machine.play (⟨⟨2⟩, [(0, 7), (1, 3)]⟩ : Senders Nat)
      [.tick [(0, 7), (1, 3)] sendOnce]).queue.nextSeq =
      (TxQueue.serveFrom (visit sendOnce) (TxQueue.sorted [((0 : UInt64), 7), (1, 3)])
        (TxSchedule.new 2 maxSendCreditsPerDrain) ⟨2⟩ ([(0, 7), (1, 3)], [])).2.1.nextSeq := rfl
  rw [hplay, hsorted]
  decide +kernel

theorem two_senders_have_a_turn : ∃ tr ∈ machine.trace (⟨⟨2⟩, [(0, 7), (1, 3)]⟩ : Senders Nat)
    [.tick [(0, 7), (1, 3)] sendOnce], offered tr 3 :=
  (everyone_has_a_turn _ _ two_senders_run [.tick [(0, 7), (1, 3)] sendOnce]
    ⟨⟨List.Perm.refl _, fun _ quantum => Nat.min_le_right 1 quantum⟩, trivial⟩).1
    (by rw [two_senders_sequences]; decide) 1 3 (by decide) (by simp) (by decide)

def tied (n : Nat) : Senders Nat :=
  ⟨⟨18446744073709551615⟩, (List.range n).map fun v => (18446744073709551615, v)⟩

theorem last_sequence_reached : ∃ ts, Run machine ts (tied 0) := by
  have hcount : ∀ n : Nat, n < 2 ^ 64 →
      ∃ ts, Run machine ts (⟨⟨UInt64.ofNat n⟩, []⟩ : Senders Nat) := by
    intro n
    induction n with
    | zero =>
      intro _
      exact ⟨[], .start _ rfl⟩
    | succ n ih =>
      intro hn
      obtain ⟨ts, run⟩ := ih (by omega)
      have hjoined := run.step ts _ (.join 0) (by simp [machine, admits])
      have hleft := hjoined.step _ _ (TxCall.leave 0) trivial
      have hstate : machine.next (machine.next ⟨⟨UInt64.ofNat n⟩, []⟩ (.join 0)) (.leave 0) =
          (⟨⟨UInt64.ofNat (n + 1)⟩, []⟩ : Senders Nat) := by
        rw [← saturatingSucc64_ofNat n hn]
        rfl
      rw [hstate] at hleft
      exact ⟨_, hleft⟩
  exact hcount (2 ^ 64 - 1) (by decide)

theorem tied_reached (n : Nat) : ∃ ts, Run machine ts (tied n) := by
  induction n with
  | zero => exact last_sequence_reached
  | succ n ih =>
    obtain ⟨ts, run⟩ := ih
    have hjoined := run.step ts _ (.join n) (by simp [machine, admits, tied])
    have hstate : machine.next (tied n) (.join n) = tied (n + 1) := by
      simp [machine, next, tied, TxQueue.join, saturatingSucc64, List.range_succ]
    rw [hstate] at hjoined
    exact ⟨_, hjoined⟩

theorem serveFrom_tied (n : Nat) (spend : Nat → Nat → Nat × Bool) (rest : List (UInt64 × Nat))
    (sched : TxSchedule) (s : List (UInt64 × Nat) × List (Turn Nat)) (h : s.1 = (tied n).live) :
    (TxQueue.serveFrom (visit spend) rest sched (tied n).queue s).1.1 = (tied n).live ∧
      (TxQueue.serveFrom (visit spend) rest sched (tied n).queue s).2.1 = (tied n).queue := by
  induction rest generalizing sched s with
  | nil => exact ⟨h, rfl⟩
  | cons entry rest ih =>
    obtain ⟨old, sender⟩ := entry
    rw [TxQueue.serveFrom]
    cases sched.nextSlot with
    | none => exact ⟨h, rfl⟩
    | some slot =>
      have hreseat : reseat sender 18446744073709551615 s.1 = (tied n).live := by
        rw [h, reseat, tied, List.map_map]
        apply List.map_congr_left
        intro v _
        rw [Function.comp_apply]
        split <;> rfl
      exact ih _ _ hreseat

theorem tied_tick (n : Nat) (spend : Nat → Nat → Nat × Bool) :
    (tied n).next (.tick (tied n).live spend) = tied n := by
  obtain ⟨hlive, hqueue⟩ := serveFrom_tied n spend (TxQueue.sorted (tied n).live)
    (TxSchedule.new (tied n).live.length maxSendCreditsPerDrain) ((tied n).live, []) rfl
  rw [next, serveTick, TxQueue.serve, Senders.mk.injEq]
  exact ⟨hqueue, hlive⟩

theorem tied_sorted (n : Nat) : TxQueue.sorted (tied n).live = (tied n).live := by
  apply List.mergeSort_of_pairwise
  rw [tied, List.pairwise_map]
  apply List.Pairwise.imp _ List.pairwise_lt_range
  intro _ _ _
  rfl

theorem tied_waits : ¬ offered
    (machine.transition (tied 65) (.tick (tied 65).live sendOnce)) 64 := by
  have hspend : ∀ sender quantum, (sendOnce sender quantum).1 ≤ quantum :=
    fun _ quantum => Nat.min_le_right 1 quantum
  obtain ⟨sched', hwalk, -⟩ := serveTick_walk (tied 65) (tied 65).live sendOnce hspend
  have hsum := hwalk.spent
  have hone : ((tied 65).serveTick (tied 65).live sendOnce).1.2.map Turn.spent =
      ((tied 65).serveTick (tied 65).live sendOnce).1.2.map fun _ => 1 := by
    apply List.map_congr_left
    intro turn hturn
    obtain ⟨hquantum, hshare⟩ := hwalk.shares turn hturn
    have hspent : (sendOnce turn.sender turn.quantum).1 = turn.spent := congrArg Prod.fst hshare
    rw [← hspent]
    exact Nat.min_eq_left hquantum
  rw [hone, List.map_const', List.sum_replicate, smul_eq_mul, Nat.mul_one] at hsum
  intro hoffered
  have hmem : 64 ∈ ((tied 65).serveTick (tied 65).live sendOnce).1.2.map Turn.sender := hoffered
  rw [hwalk.senders, tied_sorted] at hmem
  generalize ((tied 65).serveTick (tied 65).live sendOnce).1.2.length = taken at hsum hmem
  rw [tied, List.map_take, List.map_map] at hmem
  obtain ⟨i, hi, hget⟩ := List.mem_take_iff_getElem.mp hmem
  have hcredits : (TxSchedule.new (tied 65).live.length maxSendCreditsPerDrain).credits = 64 := rfl
  have hi' := lt_of_lt_of_le hi (Nat.min_le_left _ _)
  rw [List.getElem_map, List.getElem_range, Function.comp_apply] at hget
  rw [hcredits] at hsum
  omega

/-- Once the sequences are used up, a sender may wait for ever. -/
theorem last_sequence_starves :
    ¬ ∀ (ts : List (Transition (Senders Nat) (TxCall Nat))) (s : Senders Nat), Run machine ts s →
      ∀ cs, machine.Admitted s cs → ∀ v ∈ s.live.map Prod.snd, (∀ c ∈ cs, c ≠ .leave v) →
        (s.live.length - 1) / maxSendCreditsPerDrain + 1 ≤ (machine.trace s cs).countP isTick →
        ∃ tr ∈ machine.trace s cs, offered tr v := by
  intro h
  obtain ⟨ts, run⟩ := tied_reached 65
  have hadmits : (tied 65).admits (.tick (tied 65).live sendOnce) :=
    ⟨List.Perm.refl _, fun _ quantum => Nat.min_le_right 1 quantum⟩
  have hsame : machine.next (tied 65) (.tick (tied 65).live sendOnce) = tied 65 :=
    tied_tick 65 sendOnce
  obtain ⟨tr, htr, hoffered⟩ := h ts (tied 65) run
    [.tick (tied 65).live sendOnce, .tick (tied 65).live sendOnce]
    ⟨hadmits, by rw [hsame]; exact hadmits, trivial⟩ 64
    (by decide +kernel) (by simp) (by decide +kernel)
  have hone : tr = machine.transition (tied 65) (.tick (tied 65).live sendOnce) := by
    rcases List.mem_cons.mp htr with rfl | htr
    · rfl
    · rw [hsame] at htr
      exact List.mem_singleton.mp htr
  rw [hone] at hoffered
  exact tied_waits hoffered

end Senders
end Hick
