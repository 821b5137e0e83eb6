import Hick.Compio.TransmitPump
import Hick.Lib.FrontScan
import Hick.Lib.Runs

/-!
# Whom the transmit pump reaches (hick-compio/src/driver/mod.rs:770-968, 1675-1770)

Every walk begins with the first service. A producer is polled in a pass exactly when one of the
walks that the budget admits finds nothing due in those listed before it.
-/

namespace Hick
open FrontScan Runs

namespace Compio

section
variable {H C : Type}

def due (answer : H → PollAnswer) (h : H) : Bool := answer h == .datagram

/-- A walk of a class reaches its live handles up to the first that has a datagram due. -/
structure Walks (producer : Producer C) (answer : H → PollAnswer) (slots : List Nat)
    (m : ListedMap H C) (w : Walk H C) : Prop where
  polled : w.polled = reached (due answer) (slots.filterMap (m.liveAt producer.live))
  drawn : w.drawn = (slots.filterMap (m.liveAt producer.live)).find? (due answer)
  shrinks : m.Shrinks producer.live w.producers

theorem walkSlots_walks (producer : Producer C) (answer : H → PollAnswer) (slots : List Nat)
    (m : ListedMap H C) (hnodup : slots.Nodup) :
    Walks producer answer slots m (walkSlots producer answer slots m) := by
  induction slots generalizing m with
  | nil => exact ⟨rfl, rfl, ListedMap.Shrinks.refl producer.live m⟩
  | cons slot slots ih =>
    obtain ⟨hnew, hnodup⟩ := List.nodup_cons.mp hnodup
    rw [walkSlots]
    cases hentry : m.entries[slot]? with
    | none =>
      have hlive : m.liveAt producer.live slot = none := by
        simp only [ListedMap.liveAt, hentry]
      have hrest := ih m hnodup
      exact {
        polled := by rw [List.filterMap_cons_none hlive]; exact hrest.polled
        drawn := by rw [List.filterMap_cons_none hlive]; exact hrest.drawn
        shrinks := hrest.shrinks }
    | some entry =>
      obtain ⟨h, c⟩ := entry
      have hlisted := ListedMap.liveAt_of_entry producer.live m slot h c hentry
      cases hlive : producer.live c with
      | false =>
        rw [hlive, if_neg Bool.false_ne_true] at hlisted
        have hrest := ih m hnodup
        simp only [hlive, Bool.false_eq_true, if_false]
        exact {
          polled := by rw [List.filterMap_cons_none hlisted]; exact hrest.polled
          drawn := by rw [List.filterMap_cons_none hlisted]; exact hrest.drawn
          shrinks := hrest.shrinks }
      | true =>
        rw [hlive, if_pos rfl] at hlisted
        -- what the poll leaves at this slot is not looked at again in this walk
        have hgoesOn (c' : C) (hidle : due answer h = false) :
            Walks producer answer (slot :: slots) m
              { walkSlots producer answer slots (m.modify slot fun _ => c') with
                polled := h ::
                  (walkSlots producer answer slots (m.modify slot fun _ => c')).polled } := by
          have hrest := ih (m.modify slot fun _ => c') hnodup
          have hothers : slots.filterMap ((m.modify slot fun _ => c').liveAt producer.live) =
              slots.filterMap (m.liveAt producer.live) := by
            apply List.filterMap_congr
            intro j hj
            apply ListedMap.liveAt_modify_of_ne
            intro heq
            rw [heq] at hnew
            exact hnew hj
          have hshrinks := m.shrinks_modify producer.live slot h c c' hentry hlive
          exact {
            polled := by
              rw [List.filterMap_cons_some hlisted, reached, hidle, if_neg Bool.false_ne_true,
                ← hothers, ← hrest.polled]
            drawn := by
              rw [List.filterMap_cons_some hlisted, List.find?_cons, hidle, ← hothers]
              exact hrest.drawn
            shrinks := hshrinks.trans producer.live _ _ _ hrest.shrinks }
        simp only [hlive, if_true]
        cases hanswer : answer h with
        | datagram =>
          have hdue : due answer h = true := by rw [due, hanswer]; rfl
          exact {
            polled := by rw [List.filterMap_cons_some hlisted, reached, hdue, if_pos rfl]
            drawn := by rw [List.filterMap_cons_some hlisted, List.find?_cons, hdue]
            shrinks := m.shrinks_modify producer.live slot h c _ hentry hlive }
        | nothing => exact hgoesOn (producer.answered c) (by rw [due, hanswer]; rfl)
        | unencodable => exact hgoesOn (producer.unencodable c) (by rw [due, hanswer]; rfl)

theorem walk_walks (producer : Producer C) (answer : H → PollAnswer) (m : ListedMap H C) :
    (walk producer answer m).polled = reached (due answer) (m.liveHandles producer.live) ∧
      (walk producer answer m).drawn = (m.liveHandles producer.live).find? (due answer) ∧
      m.Shrinks producer.live (walk producer answer m).producers := by
  have h := walkSlots_walks producer answer (List.range m.keys.length) m List.nodup_range
  rw [ListedMap.liveHandles_eq]
  exact ⟨h.polled, h.drawn, h.shrinks⟩

end

section
variable {I SH QH : Type}

def State.members (s : State SH QH) : List (SH ⊕ QH) :=
  (s.services.liveHandles serviceProducer.live).map .inl ++
    (s.queries.liveHandles queryProducer.live).map .inr

def PassInput.busy (p : PassInput I SH QH) (n : Nat) : SH ⊕ QH → Bool
  | .inl h => due (p.service n) h
  | .inr h => due (p.query n) h

structure State.Shrinks (s s' : State SH QH) : Prop where
  services : s.services.Shrinks serviceProducer.live s'.services
  queries : s.queries.Shrinks queryProducer.live s'.queries

theorem State.Shrinks.trans (a b c : State SH QH) (hab : a.Shrinks b) (hbc : b.Shrinks c) :
    a.Shrinks c :=
  ⟨hab.services.trans _ _ _ _ hbc.services, hab.queries.trans _ _ _ _ hbc.queries⟩

theorem State.Shrinks.between (a b c : State SH QH) (hab : a.Shrinks b) (hbc : b.Shrinks c)
    (hservices : c.services.liveHandles serviceProducer.live =
      a.services.liveHandles serviceProducer.live)
    (hqueries : c.queries.liveHandles queryProducer.live =
      a.queries.liveHandles queryProducer.live) :
    b.services.liveHandles serviceProducer.live = a.services.liveHandles serviceProducer.live ∧
      b.queries.liveHandles queryProducer.live = a.queries.liveHandles queryProducer.live :=
  ⟨hab.services.between _ _ _ _ hbc.services hservices,
    hab.queries.between _ _ _ _ hbc.queries hqueries⟩

variable (p : PassInput I SH QH)

theorem pollOneTransmit_scan (n : Nat) (s : State SH QH) :
    (pollOneTransmit p n s).polled = reached (p.busy n) s.members ∧
      (pollOneTransmit p n s).origin = s.members.find? (p.busy n) ∧
      s.Shrinks (pollOneTransmit p n s).state := by
  obtain ⟨hsp, hsd, hss⟩ := walk_walks serviceProducer (p.service n) s.services
  obtain ⟨hqp, hqd, hqs⟩ := walk_walks queryProducer (p.query n) s.queries
  have hsfind : ((s.services.liveHandles serviceProducer.live).map
      (Sum.inl : SH → SH ⊕ QH)).find? (p.busy n) =
        (walk serviceProducer (p.service n) s.services).drawn.map .inl := by
    rw [List.find?_map, hsd]
    rfl
  have hsreach : reached (p.busy n) ((s.services.liveHandles serviceProducer.live).map .inl) =
      (walk serviceProducer (p.service n) s.services).polled.map .inl := by
    rw [reached_map, hsp]
    rfl
  have hqfind : ((s.queries.liveHandles queryProducer.live).map
      (Sum.inr : QH → SH ⊕ QH)).find? (p.busy n) =
        (walk queryProducer (p.query n) s.queries).drawn.map .inr := by
    rw [List.find?_map, hqd]
    rfl
  have hqreach : reached (p.busy n) ((s.queries.liveHandles queryProducer.live).map .inr) =
      (walk queryProducer (p.query n) s.queries).polled.map .inr := by
    rw [reached_map, hqp]
    rfl
  rw [State.members, reached_append, List.find?_append, hsfind, hsreach, hqfind, hqreach]
  cases hdrawn : (walk serviceProducer (p.service n) s.services).drawn with
  | some h =>
    simp only [pollOneTransmit, hdrawn]
    exact ⟨rfl, rfl, ⟨hss, ListedMap.Shrinks.refl _ _⟩⟩
  | none =>
    simp only [pollOneTransmit, hdrawn]
    exact ⟨rfl, rfl, ⟨hss, hqs⟩⟩

variable [Instant I] [DecidableEq SH] [DecidableEq QH]

theorem updateHandle_shrinks {H C : Type} [DecidableEq H] (live : C → Bool) (m : ListedMap H C)
    (h : H) (f : C → C) (hf : ∀ c, live (f c) = true → live c = true) :
    m.Shrinks live (updateHandle m h f) := by
  unfold updateHandle
  split
  · rename_i slot _
    refine ⟨m.keys_modify slot f, fun j => ?_⟩
    by_cases hj : slot = j
    · subst hj
      cases hentry : m.entries[slot]? with
      | none =>
        right
        simp only [ListedMap.liveAt, ListedMap.entries_modify, hentry, Option.map_none, if_true]
      | some entry =>
        obtain ⟨k, c⟩ := entry
        have hnew : (m.modify slot f).entries[slot]? = some (k, f c) := by
          rw [ListedMap.entries_modify, if_pos rfl, hentry]
          rfl
        rw [ListedMap.liveAt_of_entry live _ slot k (f c) hnew,
          ListedMap.liveAt_of_entry live m slot k c hentry]
        cases hlive : live (f c) with
        | false => exact .inr rfl
        | true =>
          rw [hf c hlive]
          exact .inl rfl
    · exact .inl (m.liveAt_modify_of_ne live slot j f hj)
  · exact ListedMap.Shrinks.refl live m

theorem retireOrigin_shrinks (s : State SH QH) (o : SH ⊕ QH) : s.Shrinks (retireOrigin s o) := by
  cases o with
  | inl h =>
    refine ⟨updateHandle_shrinks _ s.services h _ ?_, ListedMap.Shrinks.refl _ _⟩
    intro c hc
    simp [serviceProducer] at hc
  | inr h =>
    refine ⟨ListedMap.Shrinks.refl _ _, updateHandle_shrinks _ s.queries h _ ?_⟩
    intro c hc
    simp [queryProducer] at hc

/-- The budget before the `n`-th walk, when there was a fan-out after each of those before it. -/
def PassInput.budgetAt (p : PassInput I SH QH) (n : Nat) : DrainBudget I where
  credits := maxTransmitCreditsPerPass - n
  deadline := (DrainBudget.new p.start).deadline
  started := decide (0 < n)

def PassInput.admits (p : PassInput I SH QH) (n : Nat) : Bool :=
  (p.budgetAt n).mayStartFanout (p.clock n)

omit [DecidableEq SH] [DecidableEq QH] in
theorem PassInput.admits_iff (n : Nat) :
    p.admits n = true ↔
      n < maxTransmitCreditsPerPass ∧ (n = 0 ∨ p.clock n < (DrainBudget.new p.start).deadline) := by
  have hadmits : p.admits n = (decide (0 < maxTransmitCreditsPerPass - n) &&
      (!decide (0 < n) || decide (p.clock n < (DrainBudget.new p.start).deadline))) := rfl
  rw [hadmits, Bool.and_eq_true, Bool.or_eq_true, Bool.not_eq_true', decide_eq_true_iff,
    decide_eq_false_iff_not, decide_eq_true_iff, Nat.sub_pos_iff_lt, Nat.pos_iff_ne_zero, not_not]

omit [DecidableEq SH] [DecidableEq QH] in
theorem PassInput.admits_down (hclock : Monotone p.clock) (n : Nat)
    (h : p.admits (n + 1) = true) : p.admits n = true := by
  obtain ⟨hcredits, htime⟩ := (p.admits_iff (n + 1)).mp h
  apply (p.admits_iff n).mpr
  refine ⟨by omega, ?_⟩
  cases htime with
  | inl hzero => cases hzero
  | inr hlt => exact .inr (lt_of_le_of_lt (hclock (Nat.le_succ n)) hlt)

omit [DecidableEq SH] [DecidableEq QH] in
theorem PassInput.budgetAt_charge (n : Nat) :
    (p.budgetAt n).charge = p.budgetAt (n + 1) := by
  simp only [DrainBudget.charge, budgetAt, DrainBudget.mk.injEq, true_and]
  constructor
  · omega
  · simp

theorem pumpFrom_shrinks (fuel n : Nat) (budget : DrainBudget I)
    (s : State SH QH) (r : Pumped I SH QH) (h : pumpFrom p fuel n budget s = some r) :
    s.Shrinks r.state := by
  induction fuel generalizing n budget s r with
  | zero => cases h
  | succ fuel ih =>
    obtain ⟨-, -, hwalk⟩ := pollOneTransmit_scan p n s
    rw [pumpFrom] at h
    split at h
    · dsimp only at h
      split at h
      · cases h
        exact hwalk
      · obtain ⟨rest, hrest, hr⟩ := Option.map_eq_some_iff.mp h
        rw [← hr]
        have hlater := ih _ _ _ rest hrest
        apply hwalk.trans s _ _
        split at hlater
        · exact (retireOrigin_shrinks _ _).trans _ _ _ hlater
        · exact hlater
    · cases h
      exact ⟨ListedMap.Shrinks.refl _ _, ListedMap.Shrinks.refl _ _⟩

def State.KeepsLive (s s' : State SH QH) : Prop :=
  s'.services.liveHandles serviceProducer.live = s.services.liveHandles serviceProducer.live ∧
    s'.queries.liveHandles queryProducer.live = s.queries.liveHandles queryProducer.live

theorem pumpFrom_scans (fuel n : Nat) (s : State SH QH)
    (r : Pumped I SH QH) (h : pumpFrom p fuel n (p.budgetAt n) s = some r)
    (hkeeps : s.KeepsLive r.state) :
    scans p.admits p.busy s.members fuel n = some r.polled := by
  induction fuel generalizing n s r with
  | zero => cases h
  | succ fuel ih =>
    obtain ⟨hpolled, horigin, hwalk⟩ := pollOneTransmit_scan p n s
    rw [pumpFrom] at h
    rw [scans]
    cases hadmits : p.admits n with
    | false =>
      rw [PassInput.admits] at hadmits
      rw [hadmits, if_neg Bool.false_ne_true] at h
      cases h
      rfl
    | true =>
      rw [PassInput.admits] at hadmits
      rw [hadmits, if_pos rfl] at h
      rw [if_pos rfl, ← horigin, ← hpolled]
      dsimp only at h
      split at h
      · rename_i hnone
        cases h
        rw [hnone]
      · rename_i origin hsome
        obtain ⟨rest, hrest, hr⟩ := Option.map_eq_some_iff.mp h
        rw [hsome]
        rw [PassInput.budgetAt_charge] at hrest
        -- the producers of the next walk are those of this one
        have hnext : s.Shrinks (if p.retireProducer n then
            retireOrigin (pollOneTransmit p n s).state origin
          else (pollOneTransmit p n s).state) := by
          split
          · exact hwalk.trans _ _ _ (retireOrigin_shrinks _ _)
          · exact hwalk
        have hlater := pumpFrom_shrinks p fuel (n + 1) _ _ rest hrest
        rw [← hr] at hkeeps ⊢
        obtain ⟨hsvc, hqry⟩ := hnext.between _ _ _ hlater hkeeps.1 hkeeps.2
        have hmembers : State.members (if p.retireProducer n then
            retireOrigin (pollOneTransmit p n s).state origin
          else (pollOneTransmit p n s).state) = s.members := by
          rw [State.members, State.members, hsvc, hqry]
        have hscans := ih (n + 1) _ rest hrest
          ⟨hkeeps.1.trans hsvc.symm, hkeeps.2.trans hqry.symm⟩
        rw [hmembers] at hscans
        simp only [hscans, Option.map_some]

def PassInput.Clears (p : PassInput I SH QH) (s : State SH QH) (x : SH ⊕ QH) : Prop :=
  ∃ n ahead later, s.members = ahead ++ x :: later ∧ n < maxTransmitCreditsPerPass ∧
    (n = 0 ∨ p.clock n < (DrainBudget.new p.start).deadline) ∧ ∀ y ∈ ahead, p.busy n y = false

theorem pumpTransmits_polls (s : State SH QH) (r : Pumped I SH QH)
    (hclock : Monotone p.clock) (h : pumpTransmits p s = some r) (hkeeps : s.KeepsLive r.state)
    (x : SH ⊕ QH) : x ∈ r.polled ↔ p.Clears s x := by
  have hbudget : DrainBudget.new p.start = p.budgetAt 0 := rfl
  rw [pumpTransmits, hbudget] at h
  have hscans := pumpFrom_scans p p.walks 0 s r h hkeeps
  rw [mem_scans p.admits p.busy s.members (p.admits_down hclock) x p.walks 0 r.polled hscans]
  constructor
  · intro hex
    obtain ⟨n, -, hadmits, hreached⟩ := hex
    obtain ⟨hcredits, htime⟩ := (p.admits_iff n).mp hadmits
    obtain ⟨ahead, later, hsplit, hidle⟩ := (mem_reached (p.busy n) s.members x).mp hreached
    exact ⟨n, ahead, later, hsplit, hcredits, htime, hidle⟩
  · intro hex
    obtain ⟨n, ahead, later, hsplit, hcredits, htime, hidle⟩ := hex
    exact ⟨n, Nat.zero_le n, (p.admits_iff n).mpr ⟨hcredits, htime⟩,
      (mem_reached (p.busy n) s.members x).mpr ⟨ahead, later, hsplit, hidle⟩⟩

/-- What moves the driver: a pass, and whatever the other stages do to its maps in between. -/
inductive DriverCall (I SH QH : Type) where
  | pass (p : PassInput I SH QH)
  | settle (services : ListedMap SH ServiceCtx) (queries : ListedMap QH QueryCtx)

def State.next (s : State SH QH) : DriverCall I SH QH → State SH QH
  | .pass p => ((pumpTransmits p s).map Pumped.state).getD s
  | .settle services queries => ⟨services, queries⟩

def machine : Machine (State SH QH) (DriverCall I SH QH) where
  start _ := True
  admits s c :=
    match c with
    | .pass p => (pumpTransmits p s).isSome = true ∧ Monotone p.clock
    | .settle _ _ => True
  next := State.next

abbrev Step (I SH QH : Type) := Transition (State SH QH) (DriverCall I SH QH)

namespace Step

def report (t : Step I SH QH) : Option (Pumped I SH QH) :=
  match t.call with
  | .pass p => pumpTransmits p t.pre
  | .settle _ _ => none

def isPass (t : Step I SH QH) : Bool := t.report.isSome

def wasCut (t : Step I SH QH) : Prop := ∀ r, t.report = some r → r.exhausted = true

def polled (t : Step I SH QH) : List (SH ⊕ QH) := (t.report.map Pumped.polled).getD []

def Fixed (live : Finset (SH ⊕ QH)) (t : Step I SH QH) : Prop :=
  t.pre.members.toFinset = live ∧ t.post.members.toFinset = live

/-- The step is a pass in which some walk that the budget admits finds nothing due ahead of the
producer. -/
def Clears (t : Step I SH QH) (x : SH ⊕ QH) : Prop :=
  match t.call with
  | .pass p => p.Clears t.pre x
  | .settle _ _ => False

end Step

/-- In any `n` passes in a row there is one of which this holds, for each live producer. -/
def Within (n : Nat) (live : Finset (SH ⊕ QH)) (served : Step I SH QH → SH ⊕ QH → Prop)
    (ts : List (Step I SH QH)) : Prop :=
  ∀ before window after, ts = before ++ (window ++ after) → n ≤ window.countP Step.isPass →
    ∀ x ∈ live, ∃ t ∈ window, served t x

theorem keepsLive_of_fixed (p : PassInput I SH QH) (s : State SH QH) (r : Pumped I SH QH)
    (live : Finset (SH ⊕ QH)) (h : pumpTransmits p s = some r)
    (hpre : s.members.toFinset = live) (hpost : r.state.members.toFinset = live) :
    s.KeepsLive r.state := by
  have hshrinks := pumpFrom_shrinks p p.walks 0 _ s r h
  have hmem (x : SH ⊕ QH) (hx : x ∈ s.members) : x ∈ r.state.members := by
    rw [← List.mem_toFinset, hpost, ← hpre, List.mem_toFinset]
    exact hx
  constructor
  · rw [ListedMap.liveHandles_eq, ListedMap.liveHandles_eq, hshrinks.services.1]
    apply List.filterMap_congr
    intro slot _
    apply hshrinks.services.same
    intro h slot hlive
    have hin : Sum.inl h ∈ s.members := List.mem_append_left _
      (List.mem_map_of_mem ((s.services.mem_ring _ 0 h).mpr ⟨slot, hlive⟩))
    cases List.mem_append.mp (hmem _ hin) with
    | inl hl =>
      obtain ⟨h', hh', heq⟩ := List.mem_map.mp hl
      cases heq
      exact (r.state.services.mem_ring _ 0 h).mp hh'
    | inr hr =>
      obtain ⟨_, -, heq⟩ := List.mem_map.mp hr
      cases heq
  · rw [ListedMap.liveHandles_eq, ListedMap.liveHandles_eq, hshrinks.queries.1]
    apply List.filterMap_congr
    intro slot _
    apply hshrinks.queries.same
    intro h slot hlive
    have hin : Sum.inr h ∈ s.members := List.mem_append_right _
      (List.mem_map_of_mem ((s.queries.mem_ring _ 0 h).mpr ⟨slot, hlive⟩))
    cases List.mem_append.mp (hmem _ hin) with
    | inl hl =>
      obtain ⟨_, -, heq⟩ := List.mem_map.mp hl
      cases heq
    | inr hr =>
      obtain ⟨h', hh', heq⟩ := List.mem_map.mp hr
      cases heq
      exact (r.state.queries.mem_ring _ 0 h).mp hh'

theorem step_polls (live : Finset (SH ⊕ QH)) (ts : List (Step I SH QH)) (s : State SH QH)
    (run : Run machine ts s) (t : Step I SH QH) (ht : t ∈ ts) (hfixed : Step.Fixed live t)
    (x : SH ⊕ QH) : x ∈ Step.polled t ↔ Step.Clears t x := by
  obtain ⟨htrans, hadmits⟩ := run.mem machine ts s t ht
  have hpost : t.post = t.pre.next t.call := congrArg Transition.post htrans
  unfold Step.polled Step.report Step.Clears
  cases hcall : t.call with
  | settle services queries => simp
  | pass p =>
    rw [hcall] at hadmits hpost
    obtain ⟨hsome, hclock⟩ := hadmits
    obtain ⟨r, hr⟩ := Option.isSome_iff_exists.mp hsome
    rw [State.next, hr] at hpost
    have hkeeps := keepsLive_of_fixed p t.pre r live hr hfixed.1 (by
      rw [← hfixed.2, hpost]
      rfl)
    simp only [hr, Option.map_some, Option.getD_some]
    exact pumpTransmits_polls p t.pre r hclock hr hkeeps x

/-- In every run with fixed live producers, each of them is polled in any `n` passes in a row
exactly when one of those passes clears what is listed before it. -/
theorem polled_within_iff (live : Finset (SH ⊕ QH)) (ts : List (Step I SH QH)) (s : State SH QH)
    (run : Run machine ts s) (hfixed : ∀ t ∈ ts, Step.Fixed live t) (n : Nat) :
    Within n live (fun t x => x ∈ Step.polled t) ts ↔ Within n live Step.Clears ts := by
  have hstep (before window after : List (Step I SH QH)) (hts : ts = before ++ (window ++ after))
      (t : Step I SH QH) (ht : t ∈ window) (x : SH ⊕ QH) :
      x ∈ Step.polled t ↔ Step.Clears t x := by
    have hin : t ∈ ts := by
      rw [hts]
      exact List.mem_append_right _ (List.mem_append_left _ ht)
    exact step_polls live ts s run t hin (hfixed t hin) x
  constructor
  · intro h before window after hts hlong x hx
    obtain ⟨t, ht, hpolled⟩ := h before window after hts hlong x hx
    exact ⟨t, ht, (hstep before window after hts t ht x).mp hpolled⟩
  · intro h before window after hts hlong x hx
    obtain ⟨t, ht, hclears⟩ := h before window after hts hlong x hx
    exact ⟨t, ht, (hstep before window after hts t ht x).mpr hclears⟩

end

/-- A clock that counts nanoseconds without a bound. -/
instance : Instant Nat where
  checkedAddDuration t d := some (t + d)
  checkedDurationSince t s := if s ≤ t then some (t - s) else none

def liveCtx : ServiceCtx := ⟨false, false, 0⟩

def threeServices : State Nat Nat :=
  ⟨⟨[(10, liveCtx), (20, liveCtx), (30, liveCtx)], by decide⟩, ⟨[], List.nodup_nil⟩⟩

/-- A pass in which one service has its probe due, and the fan-out of it takes 600 ms. -/
def slowInput (start : Nat) (who : Nat) : PassInput Nat Nat Nat where
  start := start
  clock n := if n = 0 then start else start + Duration.fromMillis 600
  service n h := if n = 0 ∧ h = who then .datagram else .nothing
  query _ _ := .nothing
  retireProducer _ := false
  walks := 2

theorem slowInput_clock (start who : Nat) : Monotone (slowInput start who).clock := by
  intro m n hmn
  simp only [slowInput]
  split
  · split
    · exact le_refl _
    · exact Nat.le_add_right _ _
  · split
    · omega
    · exact le_refl _

theorem slowInput_pass (start who : Nat) (polled : List (Nat ⊕ Nat))
    (hwalk : pollOneTransmit (slowInput start who) 0 threeServices =
      ⟨threeServices, polled, some (.inl who)⟩) :
    ∃ r, pumpTransmits (slowInput start who) threeServices = some r ∧ r.state = threeServices ∧
      r.polled = polled ∧ r.exhausted = true := by
  have hstart : (DrainBudget.new start).mayStartFanout start = true := rfl
  have hcut : (DrainBudget.new start).charge.mayStartFanout
      (start + Duration.fromMillis 600) = false := by
    have hlate : ¬ start + Duration.fromMillis 600 < start + drainPassBudget := by
      simp only [Duration.fromMillis, drainPassBudget]
      omega
    have htime : decide (start + Duration.fromMillis 600 <
        (DrainBudget.new start).charge.deadline) = false := decide_eq_false hlate
    rw [DrainBudget.mayStartFanout, htime]
    rfl
  refine ⟨⟨threeServices, (DrainBudget.new start).charge, 1, polled ++ [], true⟩, ?_, rfl,
    List.append_nil _, rfl⟩
  change pumpFrom (slowInput start who) 2 0 (DrainBudget.new start) threeServices = _
  rw [pumpFrom]
  change (if (DrainBudget.new start).mayStartFanout start then _ else _) = _
  rw [hstart, if_pos rfl, hwalk]
  change (pumpFrom (slowInput start who) 1 1 (DrainBudget.new start).charge threeServices).map _ = _
  rw [pumpFrom]
  change Option.map _ (if (DrainBudget.new start).charge.mayStartFanout
    (start + Duration.fromMillis 600) then _ else _) = _
  rw [hcut, if_neg Bool.false_ne_true]
  rfl

theorem two_take_turns (n : Nat) :
    ∃ ts : List (Step Nat Nat Nat), Run machine ts threeServices ∧
      ts.countP Step.isPass = 2 * n ∧
      ∀ t ∈ ts, Step.Fixed {.inl 10, .inl 20, .inl 30} t ∧ Step.wasCut t ∧
        .inl 30 ∉ Step.polled t := by
  induction n with
  | zero => exact ⟨[], .start _ trivial, rfl, nofun⟩
  | succ n ih =>
    obtain ⟨ts, run, hcount, hall⟩ := ih
    have hlive : threeServices.members.toFinset = {.inl 10, .inl 20, .inl 30} := by decide
    have hstep (start who : Nat) (polled : List (Nat ⊕ Nat))
        (hthird : (.inl 30 : Nat ⊕ Nat) ∉ polled)
        (hwalk : pollOneTransmit (slowInput start who) 0 threeServices =
          ⟨threeServices, polled, some (.inl who)⟩) (ts : List (Step Nat Nat Nat))
        (run : Run machine ts threeServices)
        (hall : ∀ t ∈ ts, Step.Fixed {.inl 10, .inl 20, .inl 30} t ∧ Step.wasCut t ∧
          .inl 30 ∉ Step.polled t) :
        ∃ t : Step Nat Nat Nat, Run machine (ts ++ [t]) threeServices ∧ Step.isPass t = true ∧
          ∀ u ∈ ts ++ [t], Step.Fixed {.inl 10, .inl 20, .inl 30} u ∧ Step.wasCut u ∧
            .inl 30 ∉ Step.polled u := by
      obtain ⟨r, hr, hstate, hpolled, hexhausted⟩ := slowInput_pass start who polled hwalk
      have hadmits : machine.admits threeServices (.pass (slowInput start who)) :=
        ⟨by rw [hr]; rfl, slowInput_clock start who⟩
      have hnext : machine.next threeServices (.pass (slowInput start who)) = threeServices := by
        change ((pumpTransmits (slowInput start who) threeServices).map Pumped.state).getD _ = _
        rw [hr]
        exact hstate
      have hreport : Step.report (machine.transition threeServices
          (.pass (slowInput start who))) = some r := hr
      have hrun := run.step ts threeServices (.pass (slowInput start who)) hadmits
      rw [hnext] at hrun
      refine ⟨_, hrun, by rw [Step.isPass, hreport]; rfl, fun u hu => ?_⟩
      cases List.mem_append.mp hu with
      | inl hold => exact hall u hold
      | inr hlast =>
        rw [List.mem_singleton.mp hlast]
        refine ⟨⟨hlive, ?_⟩, ?_, ?_⟩
        · change (machine.next threeServices (.pass (slowInput start who))).members.toFinset = _
          rw [hnext]
          exact hlive
        · intro r' hr'
          rw [hreport] at hr'
          cases hr'
          exact hexhausted
        · rw [Step.polled, hreport]
          change _ ∉ r.polled
          rw [hpolled]
          exact hthird
    obtain ⟨t, hrun, ht, hall⟩ := hstep (Duration.fromMillis (1200 * n)) 10 [.inl 10]
      (by simp) rfl ts run hall
    obtain ⟨u, hrun, hu, hall⟩ := hstep (Duration.fromMillis (1200 * n + 600)) 20
      [.inl 10, .inl 20] (by simp) rfl _ hrun hall
    refine ⟨_, hrun, ?_, hall⟩
    rw [List.countP_append, List.countP_append, hcount, List.countP_singleton,
      List.countP_singleton, ht, hu, if_pos rfl]
    omega

/-- No number of passes is enough for every live producer, however few they are. -/
theorem third_is_never_polled :
    ¬ ∃ bound : Nat → Nat, ∀ (live : Finset (Nat ⊕ Nat)) (ts : List (Step Nat Nat Nat))
      (s : State Nat Nat), Run machine ts s → (∀ t ∈ ts, Step.Fixed live t) →
        (∀ t ∈ ts, Step.wasCut t) →
          Within (bound live.card) live (fun t x => x ∈ Step.polled t) ts := by
  intro hex
  obtain ⟨bound, hbound⟩ := hex
  obtain ⟨ts, run, hcount, hall⟩ := two_take_turns (bound 3)
  have hwithin := hbound {.inl 10, .inl 20, .inl 30} ts threeServices run
    (fun t ht => (hall t ht).1) (fun t ht => (hall t ht).2.1)
  have hcard : ({.inl 10, .inl 20, .inl 30} : Finset (Nat ⊕ Nat)).card = 3 := by decide
  rw [hcard] at hwithin
  obtain ⟨t, ht, hpolled⟩ := hwithin [] ts [] (by simp) (by omega) (.inl 30) (by decide)
  exact (hall t ht).2.2 hpolled

theorem quiet_pass_polls_within :
    Within 1 {.inl 10, .inl 20, .inl 30} (fun t x => x ∈ Step.polled t)
        [machine.transition threeServices (.pass (slowInput 0 0))] ↔
      Within 1 {.inl 10, .inl 20, .inl 30} Step.Clears
        [machine.transition threeServices (.pass (slowInput 0 0))] := by
  apply polled_within_iff {.inl 10, .inl 20, .inl 30} _ _
    (.step [] threeServices (DriverCall.pass (slowInput 0 0)) (.start _ trivial)
      ⟨rfl, slowInput_clock 0 0⟩)
  intro t ht
  rw [List.mem_singleton.mp ht]
  exact ⟨by decide, by decide⟩

end Compio

end Hick
