import Hick.Engine.Slots
import Hick.Lib.Since

/-!
# The story of one slot (hick-smoltcp/src/engine/mod.rs:405-475, 1486-1555, 1978-2214, 2445-2452)

What was done for the service of a handle, and what its slot looks like, go together: whether the
slot is given up, which updates wait in it, and whether its host is still there.
-/

namespace Hick
open Octets Wire Respond Since

namespace ServiceSlot
variable {I : Type}

structure Bounded (s : ServiceSlot I) : Prop where
  length : s.updates.length ≤ maxServiceUpdates
  conflict : s.updates.count .conflict ≤ 1
  hostConflict : s.updates.count .hostConflict ≤ 1

def Calm (s : ServiceSlot I) : Prop := ∀ u ∈ s.updates, u.isTerminal = false

variable (s : ServiceSlot I) (update : ServiceUpdate)

theorem pushUpdate_errored :
    (s.pushUpdate update).errored = s.errored := by
  unfold pushUpdate
  split <;> rfl

theorem pushUpdate_routeFreed :
    (s.pushUpdate update).routeFreed = s.routeFreed := by
  unfold pushUpdate
  split <;> rfl

theorem pushUpdate_callerGone :
    (s.pushUpdate update).callerGone = s.callerGone := by
  unfold pushUpdate
  split <;> rfl

theorem mem_pushUpdate_self :
    update ∈ (s.pushUpdate update).updates := by
  unfold pushUpdate
  split
  · rename_i h
    simp only [Bool.and_eq_true, List.contains_iff_mem] at h
    exact h.2
  · exact List.mem_append_right _ (List.mem_singleton.mpr rfl)

theorem pushUpdate_updates (h : ¬ (update.isTerminal = true ∧ update ∈ s.updates)) :
    ∃ kept, (s.pushUpdate update).updates = kept ++ [update] ∧ kept.Sublist s.updates ∧
      (s.updates.length ≤ maxServiceUpdates → kept.length + 1 ≤ maxServiceUpdates) ∧
      ((∃ u ∈ s.updates, u.isTerminal = true) →
        ∀ v, v.isTerminal = false → kept.count v = s.updates.count v) := by
  have hcond : ¬ ((update.isTerminal && s.updates.contains update) = true) := by
    simpa only [Bool.and_eq_true, List.contains_iff_mem] using h
  unfold pushUpdate
  rw [if_neg hcond]
  by_cases hfull : maxServiceUpdates ≤ s.updates.length
  · cases hfind : s.updates.findIdx? ServiceUpdate.isTerminal with
    | some pos =>
      obtain ⟨hpos, hterminal, -⟩ := List.findIdx?_eq_some_iff_getElem.mp hfind
      refine ⟨s.updates.eraseIdx pos, ?_, List.eraseIdx_sublist _ _, ?_, ?_⟩
      · simp only [if_pos hfull]
      · intro hlen
        rw [List.length_eraseIdx_of_lt hpos]
        omega
      · intro _ v hv
        have hne : s.updates[pos] ≠ v := by
          intro heq
          rw [heq, hv] at hterminal
          cases hterminal
        rw [← (List.getElem_cons_eraseIdx_perm hpos).count_eq v, List.count_cons_of_ne hne]
    | none =>
      refine ⟨s.updates.tail, ?_, List.tail_sublist _, ?_, ?_⟩
      · simp only [if_pos hfull]
      · intro hlen
        rw [List.length_tail]
        unfold maxServiceUpdates at hfull hlen ⊢
        omega
      · intro hex
        obtain ⟨u, hu, hterminal⟩ := hex
        have hnone := List.findIdx?_eq_none_iff.mp hfind u hu
        rw [hterminal] at hnone
        cases hnone
  · refine ⟨s.updates, ?_, List.Sublist.refl _, ?_, ?_⟩
    · simp only [if_neg hfull]
    · intro _
      omega
    · exact fun _ _ _ => rfl

theorem pushUpdate_of_mem (h : update.isTerminal = true ∧ update ∈ s.updates) :
    s.pushUpdate update = s := by
  unfold pushUpdate
  rw [if_pos]
  simpa only [Bool.and_eq_true, List.contains_iff_mem] using h

theorem mem_pushUpdate (update v : ServiceUpdate)
    (h : v ∈ (s.pushUpdate update).updates) : v ∈ s.updates ∨ v = update := by
  by_cases hmem : update.isTerminal = true ∧ update ∈ s.updates
  · rw [s.pushUpdate_of_mem update hmem] at h
    exact .inl h
  · obtain ⟨kept, heq, hsub, -, -⟩ := s.pushUpdate_updates update hmem
    rw [heq] at h
    rcases List.mem_append.mp h with hold | hnew
    · exact .inl (hsub.subset hold)
    · exact .inr (List.mem_singleton.mp hnew)

theorem count_pushUpdate_le (update v : ServiceUpdate)
    (hv : v.isTerminal = true) (h : s.updates.count v ≤ 1) :
    (s.pushUpdate update).updates.count v ≤ 1 := by
  by_cases hmem : update.isTerminal = true ∧ update ∈ s.updates
  · rw [s.pushUpdate_of_mem update hmem]
    exact h
  · obtain ⟨kept, heq, hsub, -, -⟩ := s.pushUpdate_updates update hmem
    rw [heq, List.count_append]
    have hkept := hsub.count_le v
    by_cases hsame : v = update
    · subst hsame
      have hnone : s.updates.count v = 0 := List.count_eq_zero.mpr fun hin => hmem ⟨hv, hin⟩
      rw [List.count_singleton_self]
      omega
    · rw [List.count_singleton, if_neg (by simpa using fun e => hsame e.symm)]
      omega

theorem Bounded.pushUpdate {s : ServiceSlot I} (h : s.Bounded) (update : ServiceUpdate) :
    (s.pushUpdate update).Bounded := by
  refine ⟨?_, s.count_pushUpdate_le update _ rfl h.conflict,
    s.count_pushUpdate_le update _ rfl h.hostConflict⟩
  by_cases hmem : update.isTerminal = true ∧ update ∈ s.updates
  · rw [s.pushUpdate_of_mem update hmem]
    exact h.length
  · obtain ⟨kept, heq, -, hlen, -⟩ := s.pushUpdate_updates update hmem
    rw [heq, List.length_append, List.length_singleton]
    exact hlen h.length

theorem pushUpdate_evicts (update v : ServiceUpdate)
    (hv : v.isTerminal = false)
    (h : (s.pushUpdate update).updates.count v < s.updates.count v) : s.Calm := by
  by_contra hcalm
  unfold Calm at hcalm
  push Not at hcalm
  obtain ⟨u, hu, hterminal⟩ := hcalm
  by_cases hmem : update.isTerminal = true ∧ update ∈ s.updates
  · rw [s.pushUpdate_of_mem update hmem] at h
    omega
  · obtain ⟨kept, heq, -, -, hcount⟩ := s.pushUpdate_updates update hmem
    have hkept := hcount ⟨u, hu, by simpa using hterminal⟩ v hv
    rw [heq, List.count_append, hkept] at h
    omega

end ServiceSlot

namespace SlotMark

def handle : SlotMark → ServiceHandle
  | registered h | errored h | polled h | transmitted h | queued h _ | delivered h _ | left h
  | removed h => h

def Drives (h : ServiceHandle) (m : SlotMark) : Prop := m = .polled h ∨ m = .transmitted h

def Answers (h : ServiceHandle) (u : ServiceUpdate) (m : SlotMark) : Prop :=
  m = .delivered h u ∨ m = .left h

end SlotMark

open SlotMark

structure Story {I : Type} (h : ServiceHandle) (slot : Option (ServiceSlot I))
    (marks : List SlotMark) : Prop where
  freed : ∀ s, slot = some s → s.routeFreed = true → s.updates ≠ [] ∧ s.callerGone = false
  bounded : ∀ s, slot = some s → s.Bounded
  calm : ∀ s, slot = some s → s.errored = false → s.Calm ∧ s.callerGone = false
  shut : ∀ s, slot = some s →
    (s.errored = true ↔ Open (· = .errored h) (· = .registered h) marks)
  silent : Between (· = .errored h) (· = .registered h) (Drives h) marks
  waiting : ∀ u, u.isTerminal = true → (Open (· = .queued h u) (Answers h u) marks ↔
    ∃ s, slot = some s ∧ u ∈ s.updates ∧ s.callerGone = false)
  heard : ∀ u, u.isTerminal = true →
    Between (· = .queued h u) (Answers h u) (· = .removed h) marks

namespace Story
variable {I : Type} {h : ServiceHandle} {slot : Option (ServiceSlot I)} {marks : List SlotMark}

theorem nothing : Story (I := I) h none [] where
  freed := nofun
  bounded := nofun
  calm := nofun
  shut := nofun
  silent := between_nil _ _ _
  waiting u _ := by
    constructor
    · exact fun hopen => absurd hopen (not_open_nil _ _)
    · exact nofun
  heard u _ := between_nil _ _ _

theorem quiet (st : Story h slot marks) (m : SlotMark) (herr : m ≠ .errored h)
    (hreg : m ≠ .registered h) (hdrive : Drives h m → ∀ s, slot = some s → s.errored = false)
    (hslot : Drives h m → slot ≠ none)
    (hqueue : ∀ u, m ≠ .queued h u) (hans : ∀ u, ¬ Answers h u m) (hrem : m ≠ .removed h) :
    Story h slot (marks ++ [m]) where
  freed := st.freed
  bounded := st.bounded
  calm := st.calm
  shut s hs := by
    rw [st.shut s hs, open_snoc]
    simp only [herr, hreg, false_or, not_false_iff, and_true]
  silent := by
    rw [between_snoc]
    refine ⟨st.silent, fun hd hopen => ?_⟩
    obtain ⟨s, hs⟩ := Option.ne_none_iff_exists'.mp (hslot hd)
    have herrored := (st.shut s hs).mpr hopen
    rw [hdrive hd s hs] at herrored
    cases herrored
  waiting u hu := by
    rw [← st.waiting u hu, open_snoc]
    simp only [hqueue u, hans u, false_or, not_false_iff, and_true]
  heard u hu := by
    rw [between_snoc]
    exact ⟨st.heard u hu, fun h => absurd h hrem⟩

theorem other (st : Story h slot marks) (m : SlotMark) (hm : m.handle ≠ h) :
    Story h slot (marks ++ [m]) := by
  have hne : ∀ m' : SlotMark, m'.handle = h → m ≠ m' := by
    intro m' hm' heq
    exact hm (heq ▸ hm')
  have hdrive : ¬ Drives h m := by
    intro hd
    rcases hd with hd | hd
    · exact hne _ rfl hd
    · exact hne _ rfl hd
  refine st.quiet m (hne _ rfl) (hne _ rfl) (fun hd => absurd hd hdrive)
    (fun hd => absurd hd hdrive) (fun u => hne _ rfl) (fun u ha => ?_) (hne _ rfl)
  rcases ha with ha | ha
  · exact hne _ rfl ha
  · exact hne _ rfl ha

theorem driven {s : ServiceSlot I} (st : Story h (some s) marks) (hlive : s.errored = false)
    (m : SlotMark) (hm : Drives h m) : Story h (some s) (marks ++ [m]) := by
  have hlive' : ∀ s', some s = some s' → s'.errored = false := by
    intro s' hs
    cases hs
    exact hlive
  rcases hm with rfl | rfl
  · exact st.quiet _ nofun nofun (fun _ => hlive') nofun nofun (fun u => by simp [Answers]) nofun
  · exact st.quiet _ nofun nofun (fun _ => hlive') nofun nofun (fun u => by simp [Answers]) nofun

theorem reworked {s : ServiceSlot I} (st : Story h (some s) marks) (gate : FamilyWireGate I)
    (freed : Bool) (hfreed : freed = true → s.updates ≠ [] ∧ s.callerGone = false) :
    Story h (some { s with wireGate := gate, routeFreed := freed }) marks where
  freed := by
    intro s' hs
    cases hs
    exact hfreed
  bounded := by
    intro s' hs
    cases hs
    have hb := st.bounded s rfl
    exact ⟨hb.length, hb.conflict, hb.hostConflict⟩
  calm := by
    intro s' hs
    cases hs
    exact st.calm s rfl
  shut := by
    intro s' hs
    cases hs
    exact st.shut s rfl
  silent := st.silent
  waiting u hu := by
    rw [st.waiting u hu]
    simp only [Option.some.injEq, exists_eq_left']
  heard := st.heard

theorem gated {s : ServiceSlot I} (st : Story h (some s) marks) (gate : FamilyWireGate I) :
    Story h (some { s with wireGate := gate }) marks :=
  st.reworked gate s.routeFreed (st.freed s rfl)

theorem routeGone {s : ServiceSlot I} (st : Story h (some s) marks) (hupdates : s.updates ≠ [])
    (hhere : s.callerGone = false) : Story h (some { s with routeFreed := true }) marks :=
  st.reworked s.wireGate true fun _ => ⟨hupdates, hhere⟩

theorem registered (st : Story (I := I) h none marks) :
    Story (I := I) h (some .fresh) (marks ++ [.registered h]) where
  freed := by
    intro s hs hfreed
    cases hs
    cases hfreed
  bounded := by
    intro s hs
    cases hs
    exact ⟨Nat.zero_le _, Nat.zero_le _, Nat.zero_le _⟩
  calm := by
    intro s hs _
    cases hs
    exact ⟨nofun, rfl⟩
  shut := by
    intro s hs
    cases hs
    simp [open_snoc, ServiceSlot.fresh]
  silent := by
    rw [between_snoc]
    exact ⟨st.silent, fun hd => absurd hd (by simp [Drives])⟩
  waiting u hu := by
    have hnone := st.waiting u hu
    rw [open_snoc]
    simp [hnone, ServiceSlot.fresh]
  heard u hu := by
    rw [between_snoc]
    exact ⟨st.heard u hu, nofun⟩

theorem told {s : ServiceSlot I} (st : Story h (some s) marks) (hlive : s.errored = false)
    (u : ServiceUpdate) (hu : u.isTerminal = false) :
    Story h (some (s.pushUpdate u)) (marks ++ [.queued h u]) where
  freed := by
    intro s' hs hfreed
    cases hs
    rw [s.pushUpdate_routeFreed u] at hfreed
    rw [s.pushUpdate_callerGone u]
    exact ⟨List.ne_nil_of_mem (s.mem_pushUpdate_self u), (st.freed s rfl hfreed).2⟩
  bounded := by
    intro s' hs
    cases hs
    exact (st.bounded s rfl).pushUpdate u
  calm := by
    intro s' hs _
    cases hs
    obtain ⟨hcalm, hhere⟩ := st.calm s rfl hlive
    rw [s.pushUpdate_callerGone u]
    refine ⟨fun v hv => ?_, hhere⟩
    rcases s.mem_pushUpdate u v hv with hold | rfl
    · exact hcalm v hold
    · exact hu
  shut := by
    intro s' hs
    cases hs
    rw [s.pushUpdate_errored u, st.shut s rfl]
    simp [open_snoc]
  silent := by
    rw [between_snoc]
    exact ⟨st.silent, fun hd => absurd hd (by simp [Drives])⟩
  waiting v hv := by
    have hcalm := (st.calm s rfl hlive).1
    have hne : u ≠ v := by
      intro heq
      rw [heq, hv] at hu
      cases hu
    have hclosed : ¬ Open (· = .queued h v) (Answers h v) marks := by
      rw [st.waiting v hv]
      intro hex
      obtain ⟨s', hs, hmem, -⟩ := hex
      cases hs
      rw [hcalm v hmem] at hv
      cases hv
    constructor
    · intro hopen
      rw [open_snoc] at hopen
      simp [hne, hclosed] at hopen
    · intro hex
      obtain ⟨s', hs, hmem, -⟩ := hex
      cases hs
      rcases s.mem_pushUpdate u v hmem with hold | heq
      · rw [hcalm v hold] at hv
        cases hv
      · exact absurd heq.symm hne
  heard v hv := by
    rw [between_snoc]
    exact ⟨st.heard v hv, nofun⟩

theorem undriven (st : Story h slot marks) (m m' : SlotMark) (hm : ¬ Drives h m)
    (hm' : ¬ Drives h m') :
    Between (· = .errored h) (· = .registered h) (Drives h) (marks ++ [m] ++ [m']) := by
  rw [between_snoc, between_snoc]
  exact ⟨⟨st.silent, fun hd => absurd hd hm⟩, fun hd => absurd hd hm'⟩

theorem ended {s : ServiceSlot I} (st : Story h (some s) marks) (hlive : s.errored = false)
    (u : ServiceUpdate) :
    Story h (some { s.pushUpdate u with errored := true })
      (marks ++ [.queued h u] ++ [.errored h]) where
  freed := by
    intro s' hs hfreed
    cases hs
    have hfreed' : s.routeFreed = true := by
      rw [← s.pushUpdate_routeFreed u]
      exact hfreed
    refine ⟨List.ne_nil_of_mem (s.mem_pushUpdate_self u), ?_⟩
    show (s.pushUpdate u).callerGone = false
    rw [s.pushUpdate_callerGone u]
    exact (st.freed s rfl hfreed').2
  bounded := by
    intro s' hs
    cases hs
    have hb := (st.bounded s rfl).pushUpdate u
    exact ⟨hb.length, hb.conflict, hb.hostConflict⟩
  calm := by
    intro s' hs herr
    cases hs
    cases herr
  shut := by
    intro s' hs
    cases hs
    rw [open_snoc]
    exact ⟨fun _ => .inl rfl, fun _ => rfl⟩
  silent := st.undriven _ _ (by simp [Drives]) (by simp [Drives])
  waiting v hv := by
    obtain ⟨hcalm, hhere⟩ := st.calm s rfl hlive
    have hclosed : ¬ Open (· = .queued h v) (Answers h v) marks := by
      rw [st.waiting v hv]
      intro hex
      obtain ⟨s', hs, hmem, -⟩ := hex
      cases hs
      rw [hcalm v hmem] at hv
      cases hv
    have hopen : Open (· = .queued h v) (Answers h v) (marks ++ [.queued h u] ++ [.errored h]) ↔
        u = v := by
      rw [open_snoc, open_snoc]
      simp [hclosed, Answers]
    rw [hopen]
    constructor
    · intro heq
      subst heq
      refine ⟨_, rfl, s.mem_pushUpdate_self u, ?_⟩
      show (s.pushUpdate u).callerGone = false
      rw [s.pushUpdate_callerGone u]
      exact hhere
    · intro hex
      obtain ⟨s', hs, hmem, -⟩ := hex
      cases hs
      rcases s.mem_pushUpdate u v hmem with hold | heq
      · rw [hcalm v hold] at hv
        cases hv
      · exact heq.symm
  heard v hv := by
    rw [between_snoc, between_snoc]
    exact ⟨⟨st.heard v hv, nofun⟩, nofun⟩

theorem leaves {s : ServiceSlot I} (st : Story h (some s) marks) (hroute : s.routeFreed = false) :
    Story h (some { s with errored := true, callerGone := true })
      (marks ++ [.left h] ++ [.errored h]) where
  freed := by
    intro s' hs hfreed
    cases hs
    rw [show s.routeFreed = true from hfreed] at hroute
    cases hroute
  bounded := by
    intro s' hs
    cases hs
    have hb := st.bounded s rfl
    exact ⟨hb.length, hb.conflict, hb.hostConflict⟩
  calm := by
    intro s' hs herr
    cases hs
    cases herr
  shut := by
    intro s' hs
    cases hs
    rw [open_snoc]
    exact ⟨fun _ => .inl rfl, fun _ => rfl⟩
  silent := st.undriven _ _ (by simp [Drives]) (by simp [Drives])
  waiting v hv := by
    rw [open_snoc, open_snoc]
    simp [Answers]
  heard v hv := by
    rw [between_snoc, between_snoc]
    exact ⟨⟨st.heard v hv, nofun⟩, nofun⟩

theorem removed {s : ServiceSlot I} (st : Story h (some s) marks)
    (hnone : ∀ u, u.isTerminal = true → ¬ Open (· = .queued h u) (Answers h u) marks) :
    Story (I := I) h none (marks ++ [.removed h]) where
  freed := nofun
  bounded := nofun
  calm := nofun
  shut := nofun
  silent := by
    rw [between_snoc]
    exact ⟨st.silent, fun hd => absurd hd (by simp [Drives])⟩
  waiting u hu := by
    rw [open_snoc]
    simp [hnone u hu]
  heard u hu := by
    rw [between_snoc]
    exact ⟨st.heard u hu, fun _ => hnone u hu⟩

theorem nothing_waits {s : ServiceSlot I} (st : Story h (some s) marks)
    (hs : s.updates = [] ∨ s.callerGone = true) (u : ServiceUpdate) (hu : u.isTerminal = true) :
    ¬ Open (· = .queued h u) (Answers h u) marks := by
  rw [st.waiting u hu]
  intro hex
  obtain ⟨s', hs', hmem, hhere⟩ := hex
  cases hs'
  rcases hs with hempty | hgone
  · rw [hempty] at hmem
    cases hmem
  · rw [hgone] at hhere
    cases hhere

theorem leaves_removed {s : ServiceSlot I} (st : Story h (some s) marks) :
    Story (I := I) h none (marks ++ [.left h] ++ [.removed h]) where
  freed := nofun
  bounded := nofun
  calm := nofun
  shut := nofun
  silent := st.undriven _ _ (by simp [Drives]) (by simp [Drives])
  waiting u hu := by
    rw [open_snoc, open_snoc]
    simp [Answers]
  heard u hu := by
    rw [between_snoc, between_snoc, open_snoc]
    refine ⟨⟨st.heard u hu, nofun⟩, ?_⟩
    simp [Answers]

theorem reads {s : ServiceSlot I} (st : Story h (some s) marks) (u : ServiceUpdate)
    (rest : List ServiceUpdate) (hupdates : s.updates = u :: rest)
    (hkept : s.routeFreed = true → rest ≠ []) :
    Story h (some { s with updates := rest }) (marks ++ [.delivered h u]) where
  freed := by
    intro s' hs hfreed
    cases hs
    exact ⟨hkept hfreed, (st.freed s rfl hfreed).2⟩
  bounded := by
    intro s' hs
    cases hs
    have hb := st.bounded s rfl
    have hsub : rest.Sublist s.updates := by
      rw [hupdates]
      exact List.sublist_cons_self u rest
    exact ⟨le_trans hsub.length_le hb.length, le_trans (hsub.count_le _) hb.conflict,
      le_trans (hsub.count_le _) hb.hostConflict⟩
  calm := by
    intro s' hs herr
    cases hs
    obtain ⟨hcalm, hhere⟩ := st.calm s rfl herr
    refine ⟨fun v hv => hcalm v ?_, hhere⟩
    rw [hupdates]
    exact List.mem_cons_of_mem _ hv
  shut := by
    intro s' hs
    cases hs
    rw [show ({ s with updates := rest } : ServiceSlot I).errored = s.errored from rfl,
      st.shut s rfl]
    simp [open_snoc]
  silent := by
    rw [between_snoc]
    exact ⟨st.silent, fun hd => absurd hd (by simp [Drives])⟩
  waiting v hv := by
    have hb := st.bounded s rfl
    have hcount : s.updates.count v ≤ 1 := by
      cases v with
      | established => cases hv
      | renamed _ => cases hv
      | conflict => exact hb.conflict
      | hostConflict => exact hb.hostConflict
    have hclosed : Answers h v (.delivered h u) ↔ v = u := by
      simp [Answers, eq_comm]
    rw [open_snoc, st.waiting v hv, hclosed]
    simp only [reduceCtorEq, false_or, Option.some.injEq, exists_eq_left', hupdates,
      List.mem_cons]
    constructor
    · intro hopen
      obtain ⟨⟨hmem, hhere⟩, hne⟩ := hopen
      exact ⟨hmem.resolve_left hne, hhere⟩
    · intro hmem
      obtain ⟨hmem, hhere⟩ := hmem
      refine ⟨⟨.inr hmem, hhere⟩, ?_⟩
      intro heq
      subst heq
      rw [hupdates, List.count_cons_self] at hcount
      have hpos := List.count_pos_iff.mpr hmem
      omega
  heard v hv := by
    rw [between_snoc]
    exact ⟨st.heard v hv, fun h => by cases h⟩

theorem reads_last_closed {s : ServiceSlot I} (st : Story h (some s) marks) (u : ServiceUpdate)
    (hupdates : s.updates = [u]) (v : ServiceUpdate) (hv : v.isTerminal = true) :
    ¬ Open (· = .queued h v) (Answers h v) (marks ++ [.delivered h u]) := by
  rw [open_snoc, st.waiting v hv]
  intro hopen
  rcases hopen with heq | ⟨⟨s', hs, hmem, -⟩, hans⟩
  · cases heq
  · cases hs
    rw [hupdates, List.mem_singleton] at hmem
    rw [hmem] at hans
    exact hans (.inl rfl)

theorem reads_last {s : ServiceSlot I} (st : Story h (some s) marks) (u : ServiceUpdate)
    (hupdates : s.updates = [u]) :
    Story (I := I) h none (marks ++ [.delivered h u] ++ [.removed h]) where
  freed := nofun
  bounded := nofun
  calm := nofun
  shut := nofun
  silent := st.undriven _ _ (by simp [Drives]) (by simp [Drives])
  waiting v hv := by
    have hgone := reads_last_closed st u hupdates v hv
    rw [open_snoc]
    simp only [hgone, false_and, or_false, reduceCtorEq, exists_false]
  heard v hv := by
    rw [between_snoc, between_snoc]
    exact ⟨⟨st.heard v hv, nofun⟩, fun _ => reads_last_closed st u hupdates v hv⟩

end Story
end Hick
