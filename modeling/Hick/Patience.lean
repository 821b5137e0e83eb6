import Hick.Schedule

/-!
# Patience over a history of confirms (service/schedule.rs:207-296, 443-503)

What `classify_advance` answers, said of the confirms before and of what it answered to them: when a
family last carried the datagram, how often it has missed it, and whether it was given up on.
-/

namespace Hick
namespace Patience

structure Round where
  delivery : TransmitDelivery
  advance : PhaseAdvance

def fresh : PerFamily FamilyPatience := .both FamilyPatience.default

def patienceAfter (history : List TransmitDelivery) : PerFamily FamilyPatience :=
  history.foldl (fun patience delivery => (classifyAdvance patience delivery).2) fresh

def roundsFrom (patience : PerFamily FamilyPatience) : List TransmitDelivery → List Round
  | [] => []
  | delivery :: rest =>
    ⟨delivery, (classifyAdvance patience delivery).1⟩ ::
      roundsFrom (classifyAdvance patience delivery).2 rest

def rounds (history : List TransmitDelivery) : List Round := roundsFrom fresh history

theorem roundsFrom_append (patience : PerFamily FamilyPatience) (ds ds' : List TransmitDelivery) :
    roundsFrom patience (ds ++ ds') = roundsFrom patience ds ++
      roundsFrom (ds.foldl (fun p d => (classifyAdvance p d).2) patience) ds' := by
  induction ds generalizing patience with
  | nil => rfl
  | cons d ds ih => rw [List.cons_append, roundsFrom, ih, roundsFrom, List.cons_append]; rfl

variable (f : Family) (past : List Round) (history : List TransmitDelivery) (d : TransmitDelivery)
  (p : FamilyPatience) (r : Round)

theorem patienceAfter_snoc :
    patienceAfter (history ++ [d]) = (classifyAdvance (patienceAfter history) d).2 := by
  unfold patienceAfter
  rw [List.foldl_append]
  rfl

theorem rounds_snoc :
    rounds (history ++ [d]) =
      rounds history ++ [⟨d, (classifyAdvance (patienceAfter history) d).1⟩] := by
  unfold rounds
  rw [roundsFrom_append]
  rfl

def stretch (f : Family) (past : List Round) : List Round :=
  past.rtakeWhile fun r => !r.advance.advances && f.pick r.delivery.families != .unobligated

def Covers (f : Family) (past : List Round) : Prop :=
  ∃ r ∈ stretch f past, f.pick r.delivery.families = .delivered

def misses (f : Family) (past : List Round) : Nat :=
  ((stretch f past).filter fun r =>
    r.delivery.anyDelivered && f.pick r.delivery.families == .missed).length

/-- An excused advance passed over the family, which has missed every round since. -/
def PassedOver (f : Family) (past : List Round) : Prop :=
  ∃ before r after, past = before ++ r :: after ∧ r.advance = .excused ∧
    f.pick r.delivery.families = .missed ∧ ¬Covers f before ∧
    ∀ u ∈ after, f.pick u.delivery.families = .missed

def AllCovered (past : List Round) (d : TransmitDelivery) : Prop :=
  ∀ f : Family, f.pick d.families ≠ .unobligated → f.pick d.families = .delivered ∨ Covers f past

def Spent (f : Family) (past : List Round) : Prop := 2 ≤ misses f past ∨ PassedOver f past

theorem stretch_snoc :
    stretch f (past ++ [r]) =
      if r.advance.advances = false ∧ f.pick r.delivery.families ≠ .unobligated
      then stretch f past ++ [r] else [] := by
  unfold stretch
  rw [List.rtakeWhile_concat]
  simp only [Bool.and_eq_true, Bool.not_eq_true', bne_iff_ne, ne_eq]

theorem covers_snoc :
    Covers f (past ++ [r]) ↔ r.advance.advances = false ∧
      f.pick r.delivery.families ≠ .unobligated ∧
      (f.pick r.delivery.families = .delivered ∨ Covers f past) := by
  unfold Covers
  rw [stretch_snoc]
  by_cases hin : r.advance.advances = false ∧ f.pick r.delivery.families ≠ .unobligated
  · rw [if_pos hin]
    simp only [List.mem_append, List.mem_singleton, hin.1, hin.2, ne_eq, not_false_eq_true,
      true_and]
    constructor
    · intro h
      obtain ⟨u, hu | rfl, hdelivered⟩ := h
      · exact .inr ⟨u, hu, hdelivered⟩
      · exact .inl hdelivered
    · intro h
      rcases h with hdelivered | ⟨u, hu, hdelivered⟩
      · exact ⟨r, .inr rfl, hdelivered⟩
      · exact ⟨u, .inl hu, hdelivered⟩
  · rw [if_neg hin]
    constructor
    · intro h
      obtain ⟨u, hu, -⟩ := h
      cases hu
    · intro h
      exact absurd ⟨h.1, h.2.1⟩ hin

theorem misses_snoc :
    misses f (past ++ [r]) =
      if r.advance.advances = false ∧ f.pick r.delivery.families ≠ .unobligated then
        misses f past +
          if r.delivery.anyDelivered ∧ f.pick r.delivery.families = .missed then 1 else 0
      else 0 := by
  unfold misses
  rw [stretch_snoc]
  split
  · rw [List.filter_append, List.length_append, List.filter_singleton]
    by_cases hmissed : r.delivery.anyDelivered ∧ f.pick r.delivery.families = .missed
    · rw [if_pos hmissed, hmissed.1, hmissed.2]
      rfl
    · rw [if_neg hmissed]
      have hnot : (r.delivery.anyDelivered && f.pick r.delivery.families == .missed) = false := by
        rw [Bool.eq_false_iff]
        intro h
        rw [Bool.and_eq_true, beq_iff_eq] at h
        exact hmissed h
      rw [hnot]
      rfl
  · rfl

theorem passedOver_snoc :
    PassedOver f (past ++ [r]) ↔ f.pick r.delivery.families = .missed ∧
      (PassedOver f past ∨ r.advance = .excused ∧ ¬Covers f past) := by
  constructor
  · intro h
    obtain ⟨before, u, after, hpast, hexcused, hmissed, hcovers, hsince⟩ := h
    rcases List.eq_nil_or_concat' after with rfl | ⟨after', v, rfl⟩
    · obtain ⟨rfl, hlast⟩ := List.append_inj' hpast rfl
      obtain rfl := List.singleton_inj.mp hlast
      exact ⟨hmissed, .inr ⟨hexcused, hcovers⟩⟩
    · rw [← List.cons_append, ← List.append_assoc] at hpast
      obtain ⟨hbefore, hlast⟩ := List.append_inj' hpast rfl
      obtain rfl := List.singleton_inj.mp hlast
      refine ⟨hsince r (List.mem_append_right _ List.mem_cons_self), .inl ?_⟩
      exact ⟨before, u, after', hbefore, hexcused, hmissed, hcovers, fun w hw =>
        hsince w (List.mem_append_left _ hw)⟩
  · intro h
    obtain ⟨hmissed, ⟨before, u, after, hpast, hexcused, hu, hcovers, hsince⟩ |
      ⟨hexcused, hcovers⟩⟩ := h
    · refine ⟨before, u, after ++ [r], by rw [hpast, List.append_assoc]; rfl, hexcused, hu, hcovers,
        ?_⟩
      intro w hw
      rcases List.mem_append.mp hw with hold | hnew
      · exact hsince w hold
      · rw [List.mem_singleton.mp hnew]
        exact hmissed
    · exact ⟨past, r, [], rfl, hexcused, hmissed, hcovers, nofun⟩

theorem anyMissed_of_unobligated (f : Family)
    (h : f.pick d.families = .unobligated) (hany : d.anyDelivered = true) :
    d.anyMissed = false := by
  unfold TransmitDelivery.anyDelivered at hany
  unfold TransmitDelivery.anyMissed
  rw [Bool.or_eq_true, beq_iff_eq, beq_iff_eq] at hany
  cases f with
  | v4 =>
    have hself : d.families.v4 = .unobligated := h
    rw [hself] at hany ⊢
    rw [hany.resolve_left nofun]
    rfl
  | v6 =>
    have hself : d.families.v6 = .unobligated := h
    rw [hself] at hany ⊢
    rw [hany.resolve_right nofun]
    rfl

theorem anyDelivered_of_delivered (f : Family)
    (h : f.pick d.families = .delivered) : d.anyDelivered = true := by
  unfold TransmitDelivery.anyDelivered
  rw [Bool.or_eq_true, beq_iff_eq, beq_iff_eq]
  cases f with
  | v4 => exact .inl h
  | v6 => exact .inr h

theorem anyMissed_iff :
    d.anyMissed = true ↔ ∃ f : Family, f.pick d.families = .missed := by
  unfold TransmitDelivery.anyMissed
  rw [Bool.or_eq_true, beq_iff_eq, beq_iff_eq]
  constructor
  · intro h
    rcases h with h4 | h6
    · exact ⟨.v4, h4⟩
    · exact ⟨.v6, h6⟩
  · intro h
    obtain ⟨f, hf⟩ := h
    cases f with
    | v4 => exact .inl hf
    | v6 => exact .inr hf

theorem classifyAdvance_cases (patience : PerFamily FamilyPatience) (d : TransmitDelivery) :
    (d.anyDelivered = false ∧ classifyAdvance patience d =
        (.failed, patience.zipWith FamilyPatience.afterFailure d.families)) ∨
    d.anyDelivered = true ∧ ∃ advance,
      classifyAdvance patience d = (advance, if advance = .partial_
        then patience.zipWith FamilyPatience.afterRound d.families
        else (patience.zipWith FamilyPatience.afterRound d.families).map
          FamilyPatience.afterAdvance) ∧
      (advance = .delivered ∧ d.anyMissed = false ∨
        d.anyMissed = true ∧
          (advance = .covered ∧ (∀ f : Family,
              ((f.pick patience).afterRound (f.pick d.families)).covered = true) ∨
            ¬(∀ f : Family, ((f.pick patience).afterRound (f.pick d.families)).covered = true) ∧
              (advance = .excused ∧ (∀ f : Family,
                  (f.pick patience).waitsFor (f.pick d.families) = false) ∨
                advance = .partial_ ∧ ¬∀ f : Family,
                  (f.pick patience).waitsFor (f.pick d.families) = false))) := by
  have hboth : ∀ P : Family → Prop, (∀ f, P f) ↔ P .v4 ∧ P .v6 := by
    intro P
    constructor
    · exact fun h => ⟨h .v4, h .v6⟩
    · intro h f
      cases f with
      | v4 => exact h.1
      | v6 => exact h.2
  rw [hboth, hboth]
  unfold classifyAdvance
  cases hany : d.anyDelivered with
  | false => exact .inl ⟨rfl, rfl⟩
  | true =>
    right
    refine ⟨rfl, ?_⟩
    rw [Bool.not_true, if_neg Bool.false_ne_true]
    dsimp only
    cases hmissed : d.anyMissed with
    | false => exact ⟨.delivered, rfl, .inl ⟨rfl, rfl⟩⟩
    | true =>
      rw [Bool.not_true, if_neg Bool.false_ne_true]
      by_cases hcovered : ((patience.zipWith FamilyPatience.afterRound d.families).v4.covered &&
          (patience.zipWith FamilyPatience.afterRound d.families).v6.covered) = true
      · rw [if_pos hcovered]
        exact ⟨.covered, rfl, .inr ⟨rfl, .inl ⟨rfl, Bool.and_eq_true_iff.mp hcovered⟩⟩⟩
      · rw [if_neg hcovered]
        have hnot : ¬(((Family.v4.pick patience).afterRound
            (Family.v4.pick d.families)).covered = true ∧ ((Family.v6.pick patience).afterRound
            (Family.v6.pick d.families)).covered = true) := by
          intro h
          exact hcovered (Bool.and_eq_true_iff.mpr h)
        by_cases hwaits : (!((patience.zipWith FamilyPatience.waitsFor d.families).v4 ||
            (patience.zipWith FamilyPatience.waitsFor d.families).v6)) = true
        · rw [if_pos hwaits]
          rw [Bool.not_eq_true', Bool.or_eq_false_iff] at hwaits
          exact ⟨.excused, rfl, .inr ⟨rfl, .inr ⟨hnot, .inl ⟨rfl, hwaits⟩⟩⟩⟩
        · rw [if_neg hwaits]
          refine ⟨.partial_, rfl, .inr ⟨rfl, .inr ⟨hnot, .inr ⟨rfl, ?_⟩⟩⟩⟩
          intro h
          apply hwaits
          rw [Bool.not_eq_true', Bool.or_eq_false_iff]
          exact h

structure Standing (f : Family) (past : List Round) (p : FamilyPatience) : Prop where
  covered : p.covered = true ↔ Covers f past
  missed : ¬Covers f past → p.missed.toNat = min 255 (misses f past)
  stalled : p.stalled = true ↔ PassedOver f past

theorem Standing.fresh : Standing f [] FamilyPatience.default := by
  refine ⟨?_, fun _ => rfl, ?_⟩
  · constructor
    · intro h
      cases h
    · intro h
      obtain ⟨r, hr, -⟩ := h
      cases hr
  · constructor
    · intro h
      cases h
    · intro h
      obtain ⟨before, r, after, hpast, -⟩ := h
      cases before <;> cases hpast

theorem saturatingSucc8_toNat (v : UInt8) : (saturatingSucc8 v).toNat = min 255 (v.toNat + 1) := by
  have hlt := v.toNat_lt
  unfold saturatingSucc8
  by_cases hv : v = 255
  · rw [if_pos hv, hv]
    rfl
  · rw [if_neg hv, UInt8.toNat_add]
    have hne : v.toNat ≠ 255 := by
      intro h
      exact hv (UInt8.toNat_inj.mp h)
    rw [show (1 : UInt8).toNat = 1 from rfl]
    omega

theorem Standing.failed (h : Standing f past p) (hnone : r.delivery.anyDelivered = false)
    (hadvance : r.advance = .failed) :
    Standing f (past ++ [r]) (p.afterFailure (f.pick r.delivery.families)) := by
  have hstays : r.advance.advances = false := by rw [hadvance]; rfl
  cases hf : f.pick r.delivery.families with
  | unobligated =>
    refine ⟨?_, ?_, ?_⟩
    · rw [covers_snoc, hf]
      simp [FamilyPatience.afterFailure, FamilyPatience.default]
    · intro _
      rw [misses_snoc, hf, if_neg (fun hin => hin.2 rfl)]
      rfl
    · rw [passedOver_snoc, hf]
      simp [FamilyPatience.afterFailure, FamilyPatience.default]
  | delivered =>
    rw [anyDelivered_of_delivered r.delivery f hf] at hnone
    cases hnone
  | missed =>
    have hcovers : Covers f (past ++ [r]) ↔ Covers f past := by
      rw [covers_snoc, hf]
      simp [hstays]
    refine ⟨by rw [hcovers]; exact h.covered, ?_, ?_⟩
    · intro hnot
      rw [hcovers] at hnot
      rw [misses_snoc, hf, hnone, if_pos ⟨hstays, nofun⟩]
      exact h.missed hnot
    · rw [passedOver_snoc, hf, hadvance]
      simp only [reduceCtorEq, false_and, or_false, true_and]
      exact h.stalled

theorem Standing.held (h : Standing f past p) (hany : r.delivery.anyDelivered = true)
    (hmissed : r.delivery.anyMissed = true) (hadvance : r.advance = .partial_) :
    Standing f (past ++ [r]) (p.afterRound (f.pick r.delivery.families)) := by
  have hstays : r.advance.advances = false := by rw [hadvance]; rfl
  cases hf : f.pick r.delivery.families with
  | unobligated =>
    rw [anyMissed_of_unobligated r.delivery f hf hany] at hmissed
    cases hmissed
  | delivered =>
    have hcovers : Covers f (past ++ [r]) := by
      rw [covers_snoc, hf]
      exact ⟨hstays, nofun, .inl rfl⟩
    refine ⟨⟨fun _ => hcovers, fun _ => rfl⟩, fun hnot => absurd hcovers hnot, ?_⟩
    rw [passedOver_snoc, hf]
    simp [FamilyPatience.afterRound]
  | missed =>
    have hcovers : Covers f (past ++ [r]) ↔ Covers f past := by
      rw [covers_snoc, hf]
      simp [hstays]
    have hpassed : PassedOver f (past ++ [r]) ↔ PassedOver f past := by
      rw [passedOver_snoc, hf, hadvance]
      simp
    unfold FamilyPatience.afterRound
    by_cases hp : p.covered = true
    · simp only [hp, if_true]
      exact ⟨by rw [hcovers]; exact h.covered,
        fun hnot => absurd (hcovers.mpr (h.covered.mp hp)) hnot, by rw [hpassed]; exact h.stalled⟩
    · simp only [hp, if_false, Bool.false_eq_true]
      refine ⟨by rw [hcovers, ← h.covered]; simp [hp], ?_, by rw [hpassed]; exact h.stalled⟩
      intro hnot
      rw [hcovers] at hnot
      have hold := h.missed hnot
      rw [misses_snoc, hf, hany, if_pos ⟨hstays, nofun⟩, if_pos ⟨rfl, rfl⟩, saturatingSucc8_toNat,
        hold]
      omega

theorem Standing.advanced (h : Standing f past p) (hadvance : r.advance.advances = true)
    (hpassed : f.pick r.delivery.families = .missed → (r.advance = .excused ∨ Covers f past)) :
    Standing f (past ++ [r]) (p.afterRound (f.pick r.delivery.families)).afterAdvance := by
  have hnone : ¬Covers f (past ++ [r]) := by
    rw [covers_snoc, hadvance]
    exact fun hcovers => nomatch hcovers.1
  refine ⟨⟨nofun, fun hcovers => absurd hcovers hnone⟩, ?_, ?_⟩
  · intro _
    rw [misses_snoc, if_neg (fun hin => by rw [hadvance] at hin; cases hin.1)]
    rfl
  · rw [passedOver_snoc]
    cases hf : f.pick r.delivery.families with
    | unobligated => simp [FamilyPatience.afterRound, FamilyPatience.afterAdvance]
    | delivered => simp [FamilyPatience.afterRound, FamilyPatience.afterAdvance]
    | missed =>
      have hcovered : (p.afterRound .missed).covered = p.covered := by
        unfold FamilyPatience.afterRound
        dsimp only
        split <;> rfl
      have hstalled : (p.afterRound .missed).stalled = p.stalled := by
        unfold FamilyPatience.afterRound
        dsimp only
        split <;> rfl
      unfold FamilyPatience.afterAdvance
      rw [hcovered, hstalled, Bool.or_eq_true, Bool.not_eq_true', h.stalled, Bool.eq_false_iff,
        ne_eq, h.covered]
      simp only [true_and]
      constructor
      · intro hleft
        rcases hleft with hold | hnot
        · exact .inl hold
        · exact .inr ⟨(hpassed hf).resolve_right hnot, hnot⟩
      · intro hright
        exact hright.imp_right And.right

theorem waitsFor_iff (h : Standing f past p) (d : FamilyDelivery) :
    p.waitsFor d = false ↔ (d = .missed → ¬Covers f past → Spent f past) := by
  cases d with
  | unobligated => simp [FamilyPatience.waitsFor]
  | delivered => simp [FamilyPatience.waitsFor]
  | missed =>
    have hfew : p.missed < maxPartialRounds ↔ p.missed.toNat < 2 := UInt8.lt_iff_toNat_lt
    unfold FamilyPatience.waitsFor Spent
    rw [← h.covered, ← h.stalled]
    constructor
    · intro hwaits _ hnot
      rw [Bool.eq_false_iff.mpr hnot] at hwaits
      simp only [Bool.not_false, Bool.true_and, Bool.and_eq_false_iff, decide_eq_false_iff_not,
        Bool.not_eq_false'] at hwaits
      have hcount := h.missed (fun hcovers => hnot (h.covered.mpr hcovers))
      rcases hwaits with hmany | hstalled
      · rw [hfew] at hmany
        left
        omega
      · exact .inr hstalled
    · intro hspent
      cases hcovered : p.covered with
      | true => rfl
      | false =>
        have hnot : ¬p.covered = true := by rw [hcovered]; exact Bool.false_ne_true
        have hcount := h.missed (fun hcovers => hnot (h.covered.mpr hcovers))
        simp only [Bool.not_false, Bool.true_and, Bool.and_eq_false_iff, decide_eq_false_iff_not,
          Bool.not_eq_false']
        rcases hspent rfl hnot with hmany | hstalled
        · left
          rw [hfew]
          omega
        · exact .inr hstalled

theorem afterRound_covered (h : Standing f past p) (d : FamilyDelivery) :
    (p.afterRound d).covered = true ↔ (d ≠ .unobligated → d = .delivered ∨ Covers f past) := by
  cases d with
  | unobligated => simp [FamilyPatience.afterRound]
  | delivered => simp [FamilyPatience.afterRound]
  | missed =>
    rw [← h.covered]
    unfold FamilyPatience.afterRound
    dsimp only
    split <;> simp

theorem standing_of_history (f : Family) :
    Standing f (rounds history) (f.pick (patienceAfter history)) := by
  induction history using List.reverseRecOn with
  | nil =>
    rw [show f.pick (patienceAfter []) = FamilyPatience.default from
      Family.pick_both f FamilyPatience.default]
    exact Standing.fresh f
  | append_singleton history d ih =>
    rw [rounds_snoc, patienceAfter_snoc]
    rcases classifyAdvance_cases (patienceAfter history) d with
      ⟨hnone, hclass⟩ | ⟨hany, advance, hclass, hverdict⟩
    · rw [hclass]
      dsimp only
      rw [Family.pick_zipWith]
      exact ih.failed f _ _ ⟨d, .failed⟩ hnone rfl
    · rw [hclass]
      dsimp only
      rcases hverdict with ⟨hadvance, hmissed⟩ | ⟨hmissed, hrest⟩
      · rw [hadvance, if_neg nofun, Family.pick_map, Family.pick_zipWith]
        apply ih.advanced f _ _ ⟨d, .delivered⟩ rfl
        intro hf
        rw [(anyMissed_iff d).mpr ⟨f, hf⟩] at hmissed
        cases hmissed
      · rcases hrest with ⟨hadvance, hcovered⟩ | ⟨-, ⟨hadvance, -⟩ | ⟨hadvance, -⟩⟩
        · rw [hadvance, if_neg nofun, Family.pick_map, Family.pick_zipWith]
          apply ih.advanced f _ _ ⟨d, .covered⟩ rfl
          intro hf
          have hself := (afterRound_covered f _ _ ih _).mp (hcovered f)
          have hf' : f.pick d.families = .missed := hf
          rw [hf'] at hself
          exact .inr ((hself nofun).resolve_left nofun)
        · rw [hadvance, if_neg nofun, Family.pick_map, Family.pick_zipWith]
          exact ih.advanced f _ _ ⟨d, .excused⟩ rfl fun _ => .inl rfl
        · rw [hadvance, if_pos rfl, Family.pick_zipWith]
          exact ih.held f _ _ ⟨d, .partial_⟩ hany hmissed rfl

def AllSpent (past : List Round) (d : TransmitDelivery) : Prop :=
  ∀ f : Family, f.pick d.families = .missed → ¬Covers f past → Spent f past

theorem verdict_of_history :
    d.anyDelivered = false ∧ (classifyAdvance (patienceAfter history) d).1 = .failed ∨
    d.anyDelivered = true ∧ d.anyMissed = false ∧
      (classifyAdvance (patienceAfter history) d).1 = .delivered ∨
    d.anyDelivered = true ∧ d.anyMissed = true ∧ AllCovered (rounds history) d ∧
      (classifyAdvance (patienceAfter history) d).1 = .covered ∨
    d.anyDelivered = true ∧ d.anyMissed = true ∧ ¬AllCovered (rounds history) d ∧
      AllSpent (rounds history) d ∧
      (classifyAdvance (patienceAfter history) d).1 = .excused ∨
    d.anyDelivered = true ∧ d.anyMissed = true ∧ ¬AllCovered (rounds history) d ∧
      ¬AllSpent (rounds history) d ∧
      (classifyAdvance (patienceAfter history) d).1 = .partial_ := by
  have hcovered : (∀ f : Family, ((f.pick (patienceAfter history)).afterRound
      (f.pick d.families)).covered = true) ↔ AllCovered (rounds history) d :=
    forall_congr' fun f => afterRound_covered f _ _ (standing_of_history history f) _
  have hspent : (∀ f : Family, (f.pick (patienceAfter history)).waitsFor
      (f.pick d.families) = false) ↔ AllSpent (rounds history) d :=
    forall_congr' fun f => waitsFor_iff f _ _ (standing_of_history history f) _
  rcases classifyAdvance_cases (patienceAfter history) d with
    ⟨hnone, hclass⟩ | ⟨hany, advance, hclass, hverdict⟩
  · rw [hclass]
    exact .inl ⟨hnone, rfl⟩
  · rw [hclass]
    rw [hcovered, hspent] at hverdict
    right
    rcases hverdict with ⟨hadvance, hmissed⟩ | ⟨hmissed, ⟨hadvance, hall⟩ |
      ⟨hnot, ⟨hadvance, hall⟩ | ⟨hadvance, hsome⟩⟩⟩
    · exact .inl ⟨hany, hmissed, hadvance⟩
    · exact .inr (.inl ⟨hany, hmissed, hall, hadvance⟩)
    · exact .inr (.inr (.inl ⟨hany, hmissed, hnot, hall, hadvance⟩))
    · exact .inr (.inr (.inr ⟨hany, hmissed, hnot, hsome, hadvance⟩))

theorem silent_round (hnone : r.delivery.anyDelivered = false) (hadvance : r.advance = .failed) :
    (Covers f (past ++ [r]) → Covers f past) ∧ misses f (past ++ [r]) ≤ misses f past ∧
      (PassedOver f (past ++ [r]) → PassedOver f past) := by
  refine ⟨?_, ?_, ?_⟩
  · rw [covers_snoc]
    intro h
    rcases h.2.2 with hdelivered | hold
    · rw [anyDelivered_of_delivered r.delivery f hdelivered] at hnone
      cases hnone
    · exact hold
  · rw [misses_snoc, hnone]
    split
    · rw [if_neg (fun h => nomatch h.1)]
      exact le_refl _
    · exact Nat.zero_le _
  · rw [passedOver_snoc, hadvance]
    intro h
    exact h.2.resolve_right fun hexcused => nomatch hexcused.1

theorem silent_suffix (history silent : List TransmitDelivery)
    (h : ∀ d ∈ silent, d.anyDelivered = false) :
    (∀ r ∈ (rounds (history ++ silent)).drop (rounds history).length, r.advance = .failed) ∧
      (Covers f (rounds (history ++ silent)) → Covers f (rounds history)) ∧
      misses f (rounds (history ++ silent)) ≤ misses f (rounds history) ∧
      (PassedOver f (rounds (history ++ silent)) → PassedOver f (rounds history)) := by
  induction silent using List.reverseRecOn with
  | nil =>
    rw [List.append_nil, List.drop_length]
    exact ⟨nofun, id, le_refl _, id⟩
  | append_singleton silent d ih =>
    obtain ⟨hfailed, hcovers, hmisses, hpassed⟩ :=
      ih fun e he => h e (List.mem_append_left _ he)
    have hnone := h d (List.mem_append_right _ List.mem_cons_self)
    have hlast := (classifyAdvance_failed (patienceAfter (history ++ silent)) d).mpr hnone
    have hlen : (rounds history).length ≤ (rounds (history ++ silent)).length := by
      unfold rounds
      rw [roundsFrom_append, List.length_append]
      exact Nat.le_add_right _ _
    rw [← List.append_assoc, rounds_snoc, hlast, List.drop_append_of_le_length hlen]
    obtain ⟨hcovers', hmisses', hpassed'⟩ :=
      silent_round f (rounds (history ++ silent)) ⟨d, .failed⟩ hnone rfl
    refine ⟨?_, fun hc => hcovers (hcovers' hc), le_trans hmisses' hmisses,
      fun hp => hpassed (hpassed' hp)⟩
    intro r hr
    rcases List.mem_append.mp hr with hold | hnew
    · exact hfailed r hold
    · rw [List.mem_singleton.mp hnew]

/-- Every verdict is what the history says, and rounds in which nothing was delivered neither
advance the phase nor bring an excusal closer. -/
theorem classifyAdvance_follows_history (history : List TransmitDelivery) (d : TransmitDelivery) :
    ((classifyAdvance (patienceAfter history) d).1 = .failed ↔ d.anyDelivered = false) ∧
    ((classifyAdvance (patienceAfter history) d).1 = .delivered ↔
      d.anyDelivered = true ∧ d.anyMissed = false) ∧
    ((classifyAdvance (patienceAfter history) d).1 = .covered ↔
      d.anyDelivered = true ∧ d.anyMissed = true ∧ AllCovered (rounds history) d) ∧
    ((classifyAdvance (patienceAfter history) d).1 = .excused ↔
      d.anyDelivered = true ∧ d.anyMissed = true ∧ ¬AllCovered (rounds history) d ∧
        AllSpent (rounds history) d) ∧
    ((classifyAdvance (patienceAfter history) d).1 = .partial_ ↔
      d.anyDelivered = true ∧ d.anyMissed = true ∧ ¬AllCovered (rounds history) d ∧
        ¬AllSpent (rounds history) d) ∧
    ∀ silent, (∀ e ∈ silent, e.anyDelivered = false) →
      (∀ r ∈ (rounds (history ++ silent)).drop (rounds history).length,
        r.advance.advances = false) ∧
      (∀ f, misses f (rounds (history ++ silent)) ≤ misses f (rounds history) ∧
        (PassedOver f (rounds (history ++ silent)) → PassedOver f (rounds history))) ∧
      ((classifyAdvance (patienceAfter (history ++ silent)) d).1 = .excused →
        (classifyAdvance (patienceAfter history) d).1.advances = true) := by
  have hverdict := verdict_of_history history d
  refine ⟨?_, ?_, ?_, ?_, ?_, ?_⟩
  · exact classifyAdvance_failed _ d
  · rcases hverdict with h | h | h | h | h <;> simp [h]
  · rcases hverdict with h | h | h | h | h <;> simp [h]
  · rcases hverdict with h | h | h | h | h <;> simp [h]
  · rcases hverdict with h | h | h | h | h <;> simp [h]
  · intro silent hsilent
    refine ⟨?_, ?_, ?_⟩
    · intro r hr
      rw [(silent_suffix .v4 history silent hsilent).1 r hr]
      rfl
    · intro f
      exact (silent_suffix f history silent hsilent).2.2
    · intro hexcused
      -- an excusal after the silence: each family is spent before it or has carried the datagram
      rcases verdict_of_history (history ++ silent) d with h | h | h | h | h
      · rw [hexcused] at h
        cases h.2
      · rw [hexcused] at h
        cases h.2.2
      · rw [hexcused] at h
        cases h.2.2.2
      · obtain ⟨hany, hmissed, -, hspent, -⟩ := h
        have hbefore : AllSpent (rounds history) d := by
          intro f hf hnot
          obtain ⟨-, hcovers, hmisses, hpassed⟩ := silent_suffix f history silent hsilent
          rcases hspent f hf (fun hc => hnot (hcovers hc)) with hmany | hover
          · exact .inl (le_trans hmany hmisses)
          · exact .inr (hpassed hover)
        rcases hverdict with h' | h' | h' | h' | h'
        · rw [hany] at h'
          cases h'.1
        · rw [hmissed] at h'
          cases h'.2.1
        · rw [h'.2.2.2]
          rfl
        · rw [h'.2.2.2.2]
          rfl
        · exact absurd hbefore h'.2.2.2.1
      · rw [hexcused] at h
        cases h.2.2.2.2

end Patience
end Hick
