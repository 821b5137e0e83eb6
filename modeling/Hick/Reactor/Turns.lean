import Hick.Reactor.TransmitDrain

/-!
# What the drain of a class serves (hick-reactor/src/driver/mod.rs:1126-1521)

The live handles of a class, listed from its cursor on, are a ring. A drain polls its first few
members and leaves the cursor where the ring opens after them.
-/

namespace Hick
open RoundRobin

namespace Reactor

section
variable {I C : Type} [Instant I]

def Tally.Fresh (t : Tally I) : Prop := t.budget.started = false ∧ 0 < t.budget.credits

theorem Tally.Fresh.mayStartFanout (t : Tally I) (h : t.Fresh) (p : PassInput I) :
    t.mayStartFanout p = true := by
  simp [Tally.mayStartFanout, DrainBudget.mayStartFanout, h.1, h.2]

theorem Tally.open_fresh (p : PassInput I) : (Tally.open_ p).Fresh := by
  constructor
  · rfl
  · show 0 < maxSendCreditsPerDrain
    decide

structure Polled (polls : Nat) (turn : HandlePolls I C) : Prop where
  more : polls ≤ turn.polls
  parked : ∀ servedHere, turn.ended = .cut servedHere → (servedHere = true ↔ 0 < turn.polls)
  asked : (∀ servedHere, turn.ended ≠ .cut servedHere) → 0 < turn.polls

theorem pollHandle_polled (producer : Producer C) (p : PassInput I)
    (fuel : Nat) (servedHere : Bool) (polls : Nat) (t : Tally I) (c : C) (turn : HandlePolls I C)
    (hserved : servedHere = true ↔ 0 < polls)
    (h : pollHandle p producer fuel servedHere polls t c = some turn) :
    Polled polls turn := by
  induction fuel generalizing servedHere polls t c with
  | zero => cases h
  | succ fuel ih =>
    simp only [pollHandle] at h
    split at h
    · split at h
      · split at h
        · cases h
          exact {
            more := Nat.le_succ polls
            parked := nofun
            asked := fun _ => Nat.succ_pos polls }
        · have hnext := ih true (polls + 1) _ _ (by simp) h
          exact {
            more := le_trans (Nat.le_succ polls) hnext.more
            parked := hnext.parked
            asked := hnext.asked }
      · cases h
        exact {
          more := Nat.le_succ polls
          parked := nofun
          asked := fun _ => Nat.succ_pos polls }
      · split at h
        · cases h
          exact {
            more := Nat.le_succ polls
            parked := nofun
            asked := fun _ => Nat.succ_pos polls }
        · cases h
          exact {
            more := Nat.le_succ polls
            parked := nofun
            asked := fun _ => Nat.succ_pos polls }
    · cases h
      exact {
        more := le_refl polls
        parked := by
          intro b hb
          cases hb
          exact hserved
        asked := fun hne => absurd rfl (hne servedHere) }

theorem pollHandle_asks (producer : Producer C) (p : PassInput I)
    (fuel : Nat) (t : Tally I) (c : C) (turn : HandlePolls I C) (hfresh : t.Fresh)
    (h : pollHandle p producer fuel false 0 t c = some turn) : 0 < turn.polls := by
  cases fuel with
  | zero => cases h
  | succ fuel =>
    simp only [pollHandle, hfresh.mayStartFanout t p, if_true] at h
    split at h
    · split at h
      · cases h
        exact Nat.succ_pos 0
      · exact (pollHandle_polled producer p fuel true 1 _ _ turn (by simp) h).more
    · cases h
      exact Nat.succ_pos 0
    · split at h
      · cases h
        exact Nat.succ_pos 0
      · cases h
        exact Nat.succ_pos 0

end

section
variable {I H C : Type} [Instant I]

def ClassDrain.names (d : ClassDrain I H C) : List H := d.polled.map Prod.fst

/-- Where the cursor is parked: nowhere new after every slot was visited, else on the first slot
that was not, or one past the last that was. -/
def Parked (done rest : List Nat) (d d' : ClassDrain I H C) : Prop :=
  (rest = [] ∧ d'.morePending = d.morePending ∧ d'.resume = d.resume) ∨
    (d'.morePending = true ∧
      ((∃ later, rest = d'.resume :: later) ∨
        ∃ earlier slot, done = earlier ++ [slot] ∧ d'.resume = slot + 1))

/-- What a drain of the slots `done ++ rest` does when it stops before `rest`. -/
structure Visits (producer : Producer C) (done rest : List Nat) (d d' : ClassDrain I H C) :
    Prop where
  polled : d'.names = d.names ++ done.filterMap (d.producers.liveAt producer.live)
  parked : Parked done rest d d'
  given : ∀ h ∈ d'.retired, h ∈ d.retired ∨ ∃ slot, d.producers.liveAt producer.live slot = some h
  kept : d.producers.Shrinks producer.live d'.producers

variable (producer : Producer C)

omit [Instant I] in
theorem Visits.cons (slot : Nat) (done rest : List Nat)
    (d m d' : ClassDrain I H C) (h : Visits producer done rest m d')
    (hmore : m.morePending = d.morePending) (hresume : m.resume = d.resume)
    (hnames : m.names = d.names ++ (d.producers.liveAt producer.live slot).toList)
    (hgiven : ∀ h ∈ m.retired, h ∈ d.retired ∨ d.producers.liveAt producer.live slot = some h)
    (hkept : d.producers.Shrinks producer.live m.producers)
    (hothers : ∀ j ∈ done, m.producers.liveAt producer.live j = d.producers.liveAt producer.live j) :
    Visits producer (slot :: done) rest d d' where
  polled := by
    rw [h.polled, hnames, List.append_assoc, List.filterMap_congr hothers]
    cases hlive : d.producers.liveAt producer.live slot with
    | none => simp [hlive]
    | some x => simp [hlive]
  parked := by
    cases h.parked with
    | inl hall =>
      obtain ⟨hrest, hm, hr⟩ := hall
      exact .inl ⟨hrest, hm.trans hmore, hr.trans hresume⟩
    | inr hcut =>
      obtain ⟨hm, hwhere⟩ := hcut
      refine .inr ⟨hm, ?_⟩
      cases hwhere with
      | inl hahead => exact .inl hahead
      | inr hpast =>
        obtain ⟨earlier, last, hdone, hr⟩ := hpast
        exact .inr ⟨slot :: earlier, last, by rw [hdone]; rfl, hr⟩
  given x hx := by
    cases h.given x hx with
    | inl hm =>
      cases hgiven x hm with
      | inl hd => exact .inl hd
      | inr hlive => exact .inr ⟨slot, hlive⟩
    | inr hlater =>
      obtain ⟨j, hlive⟩ := hlater
      exact .inr ⟨j, hkept.live producer.live _ _ j x hlive⟩
  kept := hkept.trans producer.live _ _ _ h.kept

omit [Instant I] in
theorem Visits.passes (slot : Nat) (done rest : List Nat) (d d' : ClassDrain I H C)
    (h : Visits producer done rest { d with tally := d.tally.read } d')
    (hlive : d.producers.liveAt producer.live slot = none) :
    Visits producer (slot :: done) rest d d' := by
  apply h.cons producer slot done rest d _ d' rfl rfl
  · rw [hlive]
    exact (List.append_nil _).symm
  · exact fun _ hx => .inl hx
  · exact ListedMap.Shrinks.refl producer.live d.producers
  · exact fun _ _ => rfl

theorem drainSlots_visits (p : PassInput I)
    (slots : List Nat) (d d' : ClassDrain I H C) (hnodup : slots.Nodup)
    (h : drainSlots p producer slots d = some d') :
    ∃ done rest, slots = done ++ rest ∧ Visits producer done rest d d' := by
  induction slots generalizing d with
  | nil =>
    cases h
    exact ⟨[], [], rfl, {
      polled := by simp
      parked := .inl ⟨rfl, rfl, rfl⟩
      given := fun _ hx => .inl hx
      kept := ListedMap.Shrinks.refl producer.live _ }⟩
  | cons slot slots ih =>
    obtain ⟨hnew, hnodup⟩ := List.nodup_cons.mp hnodup
    simp only [drainSlots] at h
    split at h
    · split at h
      · -- no entry is listed there
        rename_i hnone
        obtain ⟨done, rest, rfl, hvisits⟩ := ih _ hnodup h
        have hlive : d.producers.liveAt producer.live slot = none := by
          simp only [ListedMap.liveAt, hnone]
        exact ⟨slot :: done, rest, rfl, hvisits.passes producer slot done rest d d' hlive⟩
      · rename_i handle c hentry
        split at h
        · rename_i hlive
          obtain ⟨turn, hturn, h⟩ := Option.bind_eq_some_iff.mp h
          have hpolled := pollHandle_polled producer p _ false 0 _ c turn (by simp) hturn
          have hlisted := ListedMap.liveAt_of_entry producer.live d.producers slot handle c hentry
          rw [hlive, if_pos rfl] at hlisted
          -- the slot's own entry is the only one that its polls change
          have hothers : ∀ j ∈ slots,
              (d.producers.modify slot fun _ => turn.ctx).liveAt producer.live j =
                d.producers.liveAt producer.live j := by
            intro j hj
            apply ListedMap.liveAt_modify_of_ne
            intro heq
            rw [heq] at hnew
            exact hnew hj
          split at h
          · rename_i servedHere hended
            cases h
            have hkeeps := d.producers.shrinks_modify producer.live slot handle c turn.ctx hentry
              hlive
            have hserved := hpolled.parked servedHere hended
            cases servedHere with
            | true =>
              have hpos := hserved.mp rfl
              refine ⟨[slot], slots, rfl, {
                polled := ?_
                parked := .inr ⟨rfl, .inr ⟨[], slot, rfl, rfl⟩⟩
                given := fun _ hx => .inl hx
                kept := hkeeps }⟩
              simp [ClassDrain.names, hlisted, Nat.ne_of_gt hpos]
            | false =>
              have hzero : turn.polls = 0 := by
                by_contra hne
                cases hserved.mpr (Nat.pos_of_ne_zero hne)
              refine ⟨[], slot :: slots, rfl, {
                polled := ?_
                parked := .inr ⟨rfl, .inl ⟨slots, rfl⟩⟩
                given := fun _ hx => .inl hx
                kept := hkeeps }⟩
              simp [ClassDrain.names, hzero]
          · rename_i hended
            have hpos := hpolled.asked (fun b hb => by rw [hended] at hb; cases hb)
            obtain ⟨done, rest, rfl, hvisits⟩ := ih _ hnodup h
            refine ⟨slot :: done, rest, rfl, ?_⟩
            apply Visits.cons producer slot done rest d _ d' hvisits rfl rfl
            · rw [hlisted]
              simp [ClassDrain.names, Nat.ne_of_gt hpos]
            · exact fun _ hx => .inl hx
            · exact d.producers.shrinks_modify producer.live slot handle c turn.ctx hentry hlive
            · exact fun j hj => hothers j (List.mem_append_left _ hj)
          · rename_i hended
            have hpos := hpolled.asked (fun b hb => by rw [hended] at hb; cases hb)
            obtain ⟨done, rest, rfl, hvisits⟩ := ih _ hnodup h
            refine ⟨slot :: done, rest, rfl, ?_⟩
            apply Visits.cons producer slot done rest d _ d' hvisits rfl rfl
            · rw [hlisted]
              simp [ClassDrain.names, Nat.ne_of_gt hpos]
            · intro x hx
              cases List.mem_append.mp hx with
              | inl hold => exact .inl hold
              | inr hlast => exact .inr (by rw [List.mem_singleton.mp hlast, hlisted])
            · exact d.producers.shrinks_modify producer.live slot handle c turn.ctx hentry hlive
            · exact fun j hj => hothers j (List.mem_append_left _ hj)
        · rename_i hdead
          obtain ⟨done, rest, rfl, hvisits⟩ := ih _ hnodup h
          have hlive : d.producers.liveAt producer.live slot = none := by
            rw [ListedMap.liveAt_of_entry producer.live d.producers slot handle c hentry, if_neg hdead]
          exact ⟨slot :: done, rest, rfl, hvisits.passes producer slot done rest d d' hlive⟩
    · -- the budget was spent before this slot
      cases h
      exact ⟨[], slot :: slots, rfl, {
        polled := by simp [ClassDrain.names]
        parked := .inr ⟨rfl, .inl ⟨slots, rfl⟩⟩
        given := fun _ hx => .inl hx
        kept := ListedMap.Shrinks.refl producer.live d.producers }⟩

omit [Instant I] in
theorem Visits.names_length (done rest : List Nat)
    (d d' : ClassDrain I H C) (h : Visits producer done rest d d') :
    d.names.length ≤ d'.names.length := by
  rw [h.polled, List.length_append]
  exact Nat.le_add_right _ _

theorem drainSlots_serves (p : PassInput I)
    (slots : List Nat) (d d' : ClassDrain I H C) (hnodup : slots.Nodup) (hfresh : d.tally.Fresh)
    (hlive : slots.filterMap (d.producers.liveAt producer.live) ≠ [])
    (h : drainSlots p producer slots d = some d') : d.names.length < d'.names.length := by
  induction slots generalizing d with
  | nil => exact absurd rfl hlive
  | cons slot slots ih =>
    obtain ⟨hnew, hnodup⟩ := List.nodup_cons.mp hnodup
    simp only [drainSlots, hfresh.mayStartFanout d.tally p, if_true] at h
    split at h
    · rename_i hnone
      apply ih { d with tally := d.tally.read } hnodup hfresh _ h
      intro hempty
      apply hlive
      have hslot : d.producers.liveAt producer.live slot = none := by
        simp only [ListedMap.liveAt, hnone]
      rw [List.filterMap_cons_none hslot]
      exact hempty
    · rename_i handle c hentry
      split at h
      · obtain ⟨turn, hturn, h⟩ := Option.bind_eq_some_iff.mp h
        have hpos := pollHandle_asks producer p _ d.tally.read c turn hfresh hturn
        have hgrows (d₁ : ClassDrain I H C)
            (hd₁ : d₁.polled = d.polled ++ [(handle, turn.polls)]) :
            d.names.length < d₁.names.length := by
          simp [ClassDrain.names, hd₁]
        rw [if_neg (Nat.ne_of_gt hpos)] at h
        split at h
        · cases h
          exact hgrows _ rfl
        · obtain ⟨done, rest, -, hvisits⟩ := drainSlots_visits producer p slots _ d' hnodup h
          exact lt_of_lt_of_le (hgrows _ rfl) (hvisits.names_length producer done rest _ d')
        · obtain ⟨done, rest, -, hvisits⟩ := drainSlots_visits producer p slots _ d' hnodup h
          exact lt_of_lt_of_le (hgrows _ rfl) (hvisits.names_length producer done rest _ d')
      · rename_i hdead
        apply ih { d with tally := d.tally.read } hnodup hfresh _ h
        intro hempty
        apply hlive
        have hslot : d.producers.liveAt producer.live slot = none := by
          rw [ListedMap.liveAt_of_entry producer.live d.producers slot handle c hentry, if_neg hdead]
        rw [List.filterMap_cons_none hslot]
        exact hempty

/-- A drain of a class that retires no producer serves the first `k` of its ring, and leaves the
ring turned by them; all of it when the budget did not cut it short. -/
structure Served (producer : Producer C) (m : ListedMap H C) (cursor : Nat) (k : Nat)
    (polled : List H) (m' : ListedMap H C) (cursor' : Nat) : Prop where
  within : k ≤ (m.ring producer.live cursor).length
  polled : polled = (m.ring producer.live cursor).take k
  turned : m'.ring producer.live cursor' = turn k (m.ring producer.live cursor)

theorem drainClass_served (p : PassInput I)
    (m : ListedMap H C) (cursor : Nat) (t : Tally I) (d : ClassDrain I H C)
    (h : drainClass p producer m cursor t = some d)
    (hkept : d.producers.keys.length = m.keys.length ∧
      ∀ slot, d.producers.liveAt producer.live slot = m.liveAt producer.live slot) :
    ∃ k, Served producer m cursor k d.names d.producers d.resume ∧
      (d.morePending = false → k = (m.ring producer.live cursor).length) ∧
      (t.Fresh → m.ring producer.live cursor ≠ [] → 0 < k) := by
  obtain ⟨done, rest, hplaces, hvisits⟩ :=
    drainSlots_visits producer p _ _ d (places_nodup _ cursor) h
  have hsplit : m.ring producer.live cursor =
      done.filterMap (m.liveAt producer.live) ++ rest.filterMap (m.liveAt producer.live) := by
    rw [ListedMap.ring, hplaces, List.filterMap_append]
  have hpolled : d.names = done.filterMap (m.liveAt producer.live) := by
    have hall := hvisits.polled
    simpa [ClassDrain.names] using hall
  have hring (c : Nat) : d.producers.ring producer.live c = m.ring producer.live c := by
    rw [ListedMap.ring, ListedMap.ring, hkept.1]
    exact List.filterMap_congr fun slot _ => hkept.2 slot
  have hopens : m.ring producer.live d.resume =
      turn (done.filterMap (m.liveAt producer.live)).length (m.ring producer.live cursor) := by
    rw [hsplit, turn, List.drop_left, List.take_left]
    cases hvisits.parked with
    | inl hall =>
      obtain ⟨hrest, -, hresume⟩ := hall
      change d.resume = cursor at hresume
      rw [hresume, hsplit, hrest]
      simp
    | inr hcut =>
      cases hcut.2 with
      | inl hahead =>
        obtain ⟨later, hrest⟩ := hahead
        rw [hrest] at hplaces
        rw [ListedMap.ring, places_of_unreached _ cursor d.resume done later hplaces,
          List.filterMap_append, hrest]
      | inr hpast =>
        obtain ⟨earlier, slot, hdone, hresume⟩ := hpast
        rw [hdone] at hplaces
        rw [ListedMap.ring, hresume, places_of_served _ cursor slot earlier rest hplaces,
          List.filterMap_append, hdone]
  refine ⟨(done.filterMap (m.liveAt producer.live)).length, ?_, ?_, ?_⟩
  · exact {
      within := by rw [hsplit, List.length_append]; exact Nat.le_add_right _ _
      polled := by rw [hsplit, List.take_left, hpolled]
      turned := by rw [hring, hopens] }
  · intro hmore
    cases hvisits.parked with
    | inl hall => rw [hsplit, hall.1, List.filterMap_nil, List.append_nil]
    | inr hcut => rw [hcut.1] at hmore; cases hmore
  · intro hfresh hring
    have hgrows := drainSlots_serves producer p _ ⟨t, m, cursor, false, [], []⟩ d
      (places_nodup _ cursor) hfresh hring h
    rw [← hpolled]
    exact Nat.lt_of_le_of_lt (Nat.zero_le _) hgrows

theorem drainClass_kept (p : PassInput I)
    (m : ListedMap H C) (cursor : Nat) (t : Tally I) (d : ClassDrain I H C)
    (h : drainClass p producer m cursor t = some d) :
    m.Shrinks producer.live d.producers ∧
      ∀ x ∈ d.retired, ∃ slot, m.liveAt producer.live slot = some x := by
  obtain ⟨done, rest, -, hvisits⟩ :=
    drainSlots_visits producer p _ _ d (places_nodup _ cursor) h
  refine ⟨hvisits.kept, fun x hx => ?_⟩
  cases hvisits.given x hx with
  | inl hnone => cases hnone
  | inr hlive => exact hlive

end

end Reactor

end Hick
