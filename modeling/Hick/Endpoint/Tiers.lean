import Mathlib
import Hick.Endpoint.Screen

/-!
# The screen answers for what was recorded

A set that was given up screens the records it put on the wire until its window closes.
-/

namespace Hick
open Octets LabelSeq Wire Respond

def Identity.Same (a b : Identity) : Prop :=
  a.rtype = b.rtype ∧ a.rdata = b.rdata ∧ a.owner.labels = b.owner.labels

theorem Identity.Same.refl (a : Identity) : a.Same a := ⟨rfl, rfl, rfl⟩

theorem Identity.Same.symm (a b : Identity) (h : a.Same b) : b.Same a :=
  ⟨h.1.symm, h.2.1.symm, h.2.2.symm⟩

theorem Identity.Same.trans (a b c : Identity) (h : a.Same b) (h' : b.Same c) : a.Same c :=
  ⟨h.1.trans h'.1, h.2.1.trans h'.2.1, h.2.2.trans h'.2.2⟩

theorem Identity.Same.matches_eq (a b : Identity) (h : a.Same b) (r : Ref) :
    a.matches r = b.matches r := by
  have howner : namesMatchRecord a.owner r = namesMatchRecord b.owner r := by
    rw [Bool.eq_iff_iff, namesMatchRecord_iff, namesMatchRecord_iff, OwnedBy.congr r _ _ h.2.2,
      ne_eq, ne_eq, ← Name.labels_eq_nil, ← Name.labels_eq_nil, h.2.2]
  unfold Identity.matches
  rw [howner, h.1, h.2.1]

theorem RelinquishedIdentity.same_iff {I : Type} (e : RelinquishedIdentity I) (i : Identity) :
    e.same i = true ↔ e.identity.Same i := by
  unfold RelinquishedIdentity.same Identity.Same
  rw [Bool.and_eq_true, Bool.and_eq_true, beq_iff_eq, beq_iff_eq, Name.sameOwner_iff, and_assoc]

theorem updateFirst_some {α : Type} (p : α → Bool) (g : α → α) (xs ys : List α)
    (h : updateFirst p g xs = some ys) :
    ∃ pre x post, xs = pre ++ x :: post ∧ p x = true ∧ ys = pre ++ g x :: post := by
  induction xs generalizing ys with
  | nil => cases h
  | cons x xs ih =>
    unfold updateFirst at h
    split at h
    · rename_i hp
      cases h
      exact ⟨[], x, xs, rfl, hp, rfl⟩
    · obtain ⟨zs, hz, rfl⟩ := Option.map_eq_some_iff.mp h
      obtain ⟨pre, y, post, hxs, hp, hzs⟩ := ih zs hz
      exact ⟨x :: pre, y, post, by rw [hxs]; rfl, hp, by rw [hzs]; rfl⟩

theorem updateFirst_none {α : Type} (p : α → Bool) (g : α → α) (xs : List α) :
    updateFirst p g xs = none ↔ ∀ x ∈ xs, p x = false := by
  induction xs with
  | nil => simp [updateFirst]
  | cons x xs ih =>
    unfold updateFirst
    cases hp : p x with
    | true => simp [hp]
    | false => simp [hp, ih]

section
variable {I : Type} [Instant I]

namespace RelinquishedIdentity

theorem expired_some (t now : I) : expired (some t) now = false ↔ now < t := by
  unfold expired
  rw [decide_eq_false_iff_not, not_le]

theorem expired_none (now : I) : expired none now = true := rfl

theorem expired_mono (slot : Option I) (now later : I) (h : now ≤ later)
    (hlive : expired slot later = false) : expired slot now = false := by
  cases slot with
  | none => cases hlive
  | some t =>
    rw [expired_some] at hlive ⊢
    exact lt_of_le_of_lt h hlive

theorem live_of_slot (e : RelinquishedIdentity I) (now : I) (f : Family)
    (h : expired (f.pick e.expiresAt) now = false) : e.live now = true := by
  unfold live
  cases f with
  | v4 =>
    rw [show e.expiresAt.v4 = Family.v4.pick e.expiresAt from rfl, h]
    rfl
  | v6 =>
    rw [show e.expiresAt.v6 = Family.v6.pick e.expiresAt from rfl, h, Bool.not_false,
      Bool.or_true]

theorem extend_expired (e : RelinquishedIdentity I) (on : PerFamily (Option I)) (f : Family)
    (now : I) : expired (f.pick (e.extend on).expiresAt) now =
      (expired (f.pick e.expiresAt) now && expired (f.pick on) now) := by
  unfold extend
  rw [Family.pick_zipWith]
  cases f.pick e.expiresAt with
  | none => rfl
  | some a =>
    cases f.pick on with
    | none => rw [expired_none, Bool.and_true]
    | some b =>
      unfold expired
      simp only [max_le_iff, Bool.decide_and]

end RelinquishedIdentity

namespace Screen
open RelinquishedIdentity

def Keeps (ids : List (RelinquishedIdentity I)) (now : I) (f : Family) (i : Identity) : Prop :=
  ∃ e ∈ ids, e.identity.Same i ∧ expired (f.pick e.expiresAt) now = false

def hasRoom (ids : List (RelinquishedIdentity I)) (i : Identity) : Bool :=
  (ids.any fun e => e.same i) || decide (ids.length < maxRelinquishedIdentities)

theorem keeps_append (xs ys : List (RelinquishedIdentity I)) (now : I) (f : Family)
    (i : Identity) : Keeps (xs ++ ys) now f i ↔ Keeps xs now f i ∨ Keeps ys now f i := by
  unfold Keeps
  simp only [List.mem_append, or_and_right, exists_or]

theorem keeps_cons (x : RelinquishedIdentity I) (ys : List (RelinquishedIdentity I)) (now : I)
    (f : Family) (i : Identity) : Keeps (x :: ys) now f i ↔
      (x.identity.Same i ∧ expired (f.pick x.expiresAt) now = false) ∨ Keeps ys now f i := by
  unfold Keeps
  simp only [List.mem_cons, or_and_right, exists_or, exists_eq_left]

variable (ids : List (RelinquishedIdentity I)) (on : PerFamily (Option I))

theorem recordIdentity_keeps (j : Identity) (now : I) (f : Family) (i : Identity) :
    Keeps (recordIdentity ids on j) now f i ↔ Keeps ids now f i ∨
      (hasRoom ids j = true ∧ j.Same i ∧ expired (f.pick on) now = false) := by
  unfold recordIdentity hasRoom
  cases hfind : updateFirst (fun e => e.same j) (fun e => e.extend on) ids with
  | some rows =>
    obtain ⟨pre, x, post, rfl, hsame, rfl⟩ := updateFirst_some _ _ _ _ hfind
    have hx := (x.same_iff j).mp hsame
    have hany : ((pre ++ x :: post).any fun e => e.same j) = true := by
      rw [List.any_append, List.any_cons, hsame, Bool.true_or, Bool.or_true]
    have hsame' : x.identity.Same i ↔ j.Same i :=
      ⟨fun h => (hx.symm _ _).trans _ _ _ h, fun h => hx.trans _ _ _ h⟩
    simp only [keeps_append, keeps_cons, hany, Bool.true_or, true_and, extend_expired,
      Bool.and_eq_false_iff]
    rw [show (x.extend on).identity = x.identity from rfl, hsame']
    tauto
  | none =>
    have hany : (ids.any fun e => e.same j) = false := by
      rw [List.any_eq_false]
      intro e he
      rw [(updateFirst_none _ _ _).mp hfind e he]
      exact Bool.false_ne_true
    rw [hany, Bool.false_or]
    by_cases hfull : maxRelinquishedIdentities ≤ ids.length
    · simp only [if_pos hfull, decide_eq_true_eq, not_lt.mpr hfull, false_and, or_false]
    · simp only [if_neg hfull, keeps_append, keeps_cons, decide_eq_true_eq, not_le.mp hfull,
        true_and]
      have hnil : ¬Keeps ([] : List (RelinquishedIdentity I)) now f i := by
        intro h
        obtain ⟨e, he, _⟩ := h
        cases he
      simp only [hnil, or_false]

def taken (on : PerFamily (Option I)) :
    List (RelinquishedIdentity I) → List Identity → List Identity
  | _, [] => []
  | ids, j :: js =>
    (if hasRoom ids j then [j] else []) ++ taken on (recordIdentity ids on j) js

theorem taken_subset (ids : List (RelinquishedIdentity I))
    (js : List Identity) (j : Identity) (h : j ∈ taken on ids js) : j ∈ js := by
  induction js generalizing ids with
  | nil => cases h
  | cons k js ih =>
    rw [taken, List.mem_append] at h
    rcases h with h | h
    · split at h
      · rw [List.mem_singleton.mp h]
        exact List.mem_cons_self ..
      · cases h
    · exact List.mem_cons_of_mem _ (ih _ h)

theorem fold_keeps (ids : List (RelinquishedIdentity I))
    (js : List Identity) (now : I) (f : Family) (i : Identity) :
    Keeps (js.foldl (fun ids j => recordIdentity ids on j) ids) now f i ↔
      Keeps ids now f i ∨
        (expired (f.pick on) now = false ∧ ∃ j ∈ taken on ids js, j.Same i) := by
  induction js generalizing ids with
  | nil => simp [taken]
  | cons k js ih =>
    rw [List.foldl_cons, ih, recordIdentity_keeps, taken]
    have hhead : (∃ j ∈ (if hasRoom ids k then [k] else []) ++
        taken on (recordIdentity ids on k) js, j.Same i) ↔
          (hasRoom ids k = true ∧ k.Same i) ∨
            ∃ j ∈ taken on (recordIdentity ids on k) js, j.Same i := by
      cases hasRoom ids k <;> simp
    rw [hhead]
    tauto

theorem filter_keeps (past now : I) (h : past ≤ now)
    (f : Family) (i : Identity) :
    Keeps (ids.filter fun e => e.live past) now f i ↔ Keeps ids now f i := by
  unfold Keeps
  simp only [List.mem_filter]
  constructor
  · intro hk
    obtain ⟨e, ⟨he, _⟩, hs, hl⟩ := hk
    exact ⟨e, he, hs, hl⟩
  · intro hk
    obtain ⟨e, he, hs, hl⟩ := hk
    exact ⟨e, ⟨he, e.live_of_slot past f (expired_mono _ past now h hl)⟩, hs, hl⟩

theorem recordIdentity_length (j : Identity) :
    ids.length ≤ (recordIdentity ids on j).length ∧
      (ids.length ≤ maxRelinquishedIdentities →
        (recordIdentity ids on j).length ≤ maxRelinquishedIdentities) ∧
      (hasRoom ids j = false → maxRelinquishedIdentities ≤ ids.length) := by
  unfold recordIdentity hasRoom
  cases hfind : updateFirst (fun e => e.same j) (fun e => e.extend on) ids with
  | some rows =>
    obtain ⟨pre, x, post, rfl, hsame, rfl⟩ := updateFirst_some _ _ _ _ hfind
    refine ⟨by simp, fun h => by simpa using h, fun h => ?_⟩
    rw [List.any_append, List.any_cons, hsame, Bool.true_or, Bool.or_true, Bool.true_or] at h
    cases h
  | none =>
    by_cases hfull : maxRelinquishedIdentities ≤ ids.length
    · simp only [if_pos hfull]
      exact ⟨le_refl _, fun h => h, fun _ => hfull⟩
    · simp only [if_neg hfull, List.length_append, List.length_singleton]
      refine ⟨by omega, fun _ => by omega, fun h => ?_⟩
      rw [Bool.or_eq_false_iff, decide_eq_false_iff_not] at h
      omega

theorem fold_length (ids : List (RelinquishedIdentity I))
    (js : List Identity) (h : ids.length ≤ maxRelinquishedIdentities) :
    ids.length ≤ (js.foldl (fun ids j => recordIdentity ids on j) ids).length ∧
      (js.foldl (fun ids j => recordIdentity ids on j) ids).length ≤ maxRelinquishedIdentities ∧
      ∀ j ∈ js, j ∈ taken on ids js ∨
        (js.foldl (fun ids j => recordIdentity ids on j) ids).length =
          maxRelinquishedIdentities := by
  induction js generalizing ids with
  | nil => exact ⟨le_refl _, h, fun j hj => by cases hj⟩
  | cons k js ih =>
    obtain ⟨hgrow, hcap, hfull⟩ := recordIdentity_length ids on k
    obtain ⟨hge, hle, hrest⟩ := ih (recordIdentity ids on k) (hcap h)
    rw [List.foldl_cons]
    refine ⟨by omega, hle, fun j hj => ?_⟩
    rw [taken, List.mem_append]
    rcases List.mem_cons.mp hj with rfl | hj
    · cases hroom : hasRoom ids j with
      | true => exact .inl (.inl (List.mem_singleton.mpr rfl))
      | false =>
        have := hfull hroom
        exact .inr (by omega)
    · rcases hrest j hj with hj | hj
      · exact .inl (.inr hj)
      · exact .inr hj

end Screen

namespace Screen
open RelinquishedIdentity

def RowKeeps (rows : List (Relinquished I)) (now : I) (f : Family) (i : Identity) : Prop :=
  ∃ row ∈ rows, now < row.expiresAt ∧
    ∃ j ∈ identities row.records (f.pick row.emitted), j.Same i

/-- The screen holds the identity for the family at `now`, in one tier or the other. -/
def Holds (s : Screen I) (now : I) (f : Family) (i : Identity) : Prop :=
  RowKeeps s.relinquished now f i ∨ Keeps s.relinquishedIdentities now f i

def liveRows (s : Screen I) (t : I) : List (Relinquished I) :=
  s.relinquished.filter fun row => decide (t < row.expiresAt)

def hasRow (s : Screen I) (set : RecordSet) (t : I) : Bool :=
  (s.liveRows t).any (fun row => row.records == set.records && row.emitted == set.emitted) ||
    decide ((s.liveRows t).length < maxRelinquishedRrsets)

/-- The identities of the set that are recorded when it is given up at `t`: all of them where
it has a row, else those that find room. -/
def recorded (s : Screen I) (set : RecordSet) (t expiresAt : I) (f : Family) : List Identity :=
  if s.hasRow set t then identities set.records (f.pick set.emitted)
  else
    let live := s.relinquishedIdentities.filter fun e => e.live t
    let js4 := identities set.records set.emitted.v4
    match f with
    | .v4 => taken ⟨some expiresAt, none⟩ live js4
    | .v6 =>
      taken ⟨none, some expiresAt⟩
        (js4.foldl (fun ids j => recordIdentity ids ⟨some expiresAt, none⟩ j) live)
        (identities set.records set.emitted.v6)

variable (s : Screen I)

theorem recorded_subset (set : RecordSet) (t expiresAt : I) (f : Family)
    (i : Identity) (h : i ∈ s.recorded set t expiresAt f) :
    i ∈ identities set.records (f.pick set.emitted) := by
  unfold recorded at h
  split at h
  · exact h
  · cases f with
    | v4 => exact taken_subset _ _ _ _ h
    | v6 => exact taken_subset _ _ _ _ h

theorem screensNothing (set : RecordSet) (h : screensSomething set.emitted = false) (f : Family) :
    identities set.records (f.pick set.emitted) = [] := by
  have hnone : ∀ e : EmittedRecords,
      (e.srv || e.txt || e.nsec || !e.a.isEmpty || !e.aaaa.isEmpty) = false →
        identities set.records e = [] := by
    intro e he
    simp only [Bool.or_eq_false_iff, Bool.not_eq_false', List.isEmpty_iff] at he
    obtain ⟨⟨⟨⟨hs, ht⟩, hn⟩, ha⟩, haaaa⟩ := he
    simp [identities, instanceCanonicalRtypes, instanceRtypeExposed, hs, ht, hn, ha, haaaa]
  simp only [screensSomething, Bool.or_eq_false_iff (x := _ || _ || _ || _ || _)] at h
  cases f with
  | v4 => exact hnone _ h.1
  | v6 => exact hnone _ h.2

/-- What `retain` does: nothing, or one more window, in a row or among the identities. -/
inductive Retained (s : Screen I) (retention : Duration) (set : RecordSet) (t : I) :
    Screen I → Prop
  | nothing (h : screensSomething set.emitted = false) : Retained s retention set t s
  | unrepresentable (h : checkedAddDuration t retention = none) : Retained s retention set t s
  | extended (expiresAt : I) (h : checkedAddDuration t retention = some expiresAt)
      (pre post : List (Relinquished I)) (row : Relinquished I)
      (hrows : s.liveRows t = pre ++ row :: post) (hrecords : row.records = set.records)
      (hemitted : row.emitted = set.emitted) :
      Retained s retention set t
        { s with
          relinquished := pre ++ { row with expiresAt := max row.expiresAt expiresAt } :: post }
  | spilled (expiresAt : I) (h : checkedAddDuration t retention = some expiresAt)
      (hrow : s.hasRow set t = false) :
      Retained s retention set t
        ({ s with relinquished := s.liveRows t }.retainIdentities set.records set.emitted t
          expiresAt)
  | row (expiresAt : I) (h : checkedAddDuration t retention = some expiresAt)
      (hroom : (s.liveRows t).length < maxRelinquishedRrsets) :
      Retained s retention set t
        { s with relinquished := s.liveRows t ++ [⟨set.records, set.emitted, expiresAt⟩] }

theorem retain_retained (retention : Duration) (set : RecordSet) (t : I) :
    Retained s retention set t (s.retain retention set.records set.emitted t) := by
  unfold retain
  cases hsome : screensSomething set.emitted with
  | false => exact .nothing hsome
  | true =>
    simp only [Bool.not_true, Bool.false_eq_true, if_false]
    cases hadd : checkedAddDuration t retention with
    | none => exact .unrepresentable hadd
    | some expiresAt =>
      simp only
      rw [show s.relinquished.filter (fun e => decide (t < e.expiresAt)) = s.liveRows t from rfl]
      cases hfind : updateFirst
          (fun e : Relinquished I => e.records == set.records && e.emitted == set.emitted)
          (fun e => { e with expiresAt := max e.expiresAt expiresAt }) (s.liveRows t) with
      | some rows =>
        obtain ⟨pre, row, post, hrows, hsame, rfl⟩ := updateFirst_some _ _ _ _ hfind
        rw [Bool.and_eq_true, beq_iff_eq, beq_iff_eq] at hsame
        exact .extended expiresAt hadd pre post row hrows hsame.1 hsame.2
      | none =>
        have hany : ((s.liveRows t).any fun row =>
            row.records == set.records && row.emitted == set.emitted) = false := by
          rw [List.any_eq_false]
          intro row hrow
          rw [(updateFirst_none _ _ _).mp hfind row hrow]
          exact Bool.false_ne_true
        by_cases hfull : maxRelinquishedRrsets ≤ (s.liveRows t).length
        · simp only [if_pos hfull]
          refine .spilled expiresAt hadd ?_
          unfold hasRow
          rw [hany, Bool.false_or, decide_eq_false_iff_not]
          exact not_lt.mpr hfull
        · simp only [if_neg hfull]
          exact .row expiresAt hadd (not_le.mp hfull)

theorem rowKeeps_append (xs ys : List (Relinquished I)) (now : I) (f : Family) (i : Identity) :
    RowKeeps (xs ++ ys) now f i ↔ RowKeeps xs now f i ∨ RowKeeps ys now f i := by
  unfold RowKeeps
  simp only [List.mem_append, or_and_right, exists_or]

theorem rowKeeps_cons (x : Relinquished I) (ys : List (Relinquished I)) (now : I) (f : Family)
    (i : Identity) : RowKeeps (x :: ys) now f i ↔
      (now < x.expiresAt ∧ ∃ j ∈ identities x.records (f.pick x.emitted), j.Same i) ∨
        RowKeeps ys now f i := by
  unfold RowKeeps
  simp only [List.mem_cons, or_and_right, exists_or, exists_eq_left]

theorem liveRows_keeps (past now : I) (h : past ≤ now) (f : Family)
    (i : Identity) : RowKeeps (s.liveRows past) now f i ↔ RowKeeps s.relinquished now f i := by
  unfold RowKeeps liveRows
  simp only [List.mem_filter, decide_eq_true_eq]
  constructor
  · intro hr
    obtain ⟨row, ⟨hrow, _⟩, hrest⟩ := hr
    exact ⟨row, hrow, hrest⟩
  · intro hr
    obtain ⟨row, hrow, hlt, hrest⟩ := hr
    exact ⟨row, ⟨hrow, lt_of_le_of_lt h hlt⟩, hlt, hrest⟩

theorem sweep_holds (past now : I) (h : past ≤ now) (f : Family) (i : Identity) :
    (s.sweep past).Holds now f i ↔ s.Holds now f i :=
  or_congr (liveRows_keeps s past now h f i) (filter_keeps s.relinquishedIdentities past now h f i)

theorem retainIdentities_keeps (set : RecordSet) (t expiresAt now : I)
    (hle : t ≤ now) (hrow : s.hasRow set t = false) (f : Family) (i : Identity) :
    Keeps ({ s with relinquished := s.liveRows t }.retainIdentities set.records set.emitted t
        expiresAt).relinquishedIdentities now f i ↔
      Keeps s.relinquishedIdentities now f i ∨
        (now < expiresAt ∧ ∃ j ∈ s.recorded set t expiresAt f, j.Same i) := by
  unfold retainIdentities
  simp only
  rw [fold_keeps, fold_keeps, filter_keeps _ t now hle]
  unfold recorded
  rw [hrow, if_neg Bool.false_ne_true]
  cases f with
  | v4 => simp only [Family.pick, expired_none, expired_some, Bool.true_eq_false, false_and, or_false]
  | v6 => simp only [Family.pick, expired_none, expired_some, Bool.true_eq_false, false_and, or_false]

theorem retain_holds (retention : Duration) (set : RecordSet) (t now : I)
    (hle : t ≤ now) (f : Family) (i : Identity) :
    (s.retain retention set.records set.emitted t).Holds now f i ↔ s.Holds now f i ∨
      ∃ expiresAt, checkedAddDuration t retention = some expiresAt ∧ now < expiresAt ∧
        ∃ j ∈ s.recorded set t expiresAt f, j.Same i := by
  have heff := retain_retained s retention set t
  generalize s.retain retention set.records set.emitted t = left at heff ⊢
  have hrecorded : ∀ expiresAt, s.hasRow set t = true →
      s.recorded set t expiresAt f = identities set.records (f.pick set.emitted) := by
    intro expiresAt h
    unfold recorded
    rw [h, if_pos rfl]
  have honly : ∀ expiresAt, checkedAddDuration t retention = some expiresAt →
      ((∃ u, checkedAddDuration t retention = some u ∧ now < u ∧
          ∃ j ∈ s.recorded set t u f, j.Same i) ↔
        (now < expiresAt ∧ ∃ j ∈ s.recorded set t expiresAt f, j.Same i)) := by
    intro expiresAt h
    simp only [h, Option.some.injEq, exists_eq_left']
  cases heff with
  | nothing h =>
    constructor
    · intro hh
      exact .inl hh
    · intro hh
      rcases hh with hh | ⟨u, _, _, j, hj, _⟩
      · exact hh
      · have := s.recorded_subset set t u f j hj
        rw [screensNothing set h f] at this
        cases this
  | unrepresentable h => simp [h]
  | extended expiresAt h pre post row hrows hrecords hemitted =>
    have hhas : s.hasRow set t = true := by
      unfold hasRow
      rw [hrows, List.any_append, List.any_cons, hrecords, hemitted, beq_self_eq_true,
        beq_self_eq_true, Bool.true_and, Bool.true_or, Bool.or_true, Bool.true_or]
    rw [honly expiresAt h, hrecorded expiresAt hhas]
    unfold Holds
    rw [← liveRows_keeps s t now hle, hrows]
    simp only [rowKeeps_append, rowKeeps_cons, hrecords, hemitted, lt_max_iff]
    generalize (∃ j ∈ identities set.records (f.pick set.emitted), j.Same i) = carried
    tauto
  | spilled expiresAt h hrow =>
    rw [honly expiresAt h]
    unfold Holds
    rw [retainIdentities_keeps s set t expiresAt now hle hrow,
      ← liveRows_keeps s t now hle, or_assoc]
    exact Iff.rfl
  | row expiresAt h hroom =>
    have hhas : s.hasRow set t = true := by
      unfold hasRow
      rw [decide_eq_true hroom, Bool.or_true]
    have hnil : ¬RowKeeps ([] : List (Relinquished I)) now f i := by
      intro hk
      obtain ⟨row, hmem, _⟩ := hk
      cases hmem
    rw [honly expiresAt h, hrecorded expiresAt hhas]
    unfold Holds
    rw [← liveRows_keeps s t now hle]
    simp only [rowKeeps_append, rowKeeps_cons, hnil, or_false]
    exact or_right_comm

structure WithinCapacity (s : Screen I) : Prop where
  rows : s.relinquished.length ≤ maxRelinquishedRrsets
  identities : s.relinquishedIdentities.length ≤ maxRelinquishedIdentities

theorem liveRows_length (t : I) :
    (s.liveRows t).length ≤ s.relinquished.length := List.length_filter_le _ _

theorem sweep_capacity (t : I) (h : s.WithinCapacity) :
    (s.sweep t).WithinCapacity :=
  ⟨le_trans (List.length_filter_le _ _) h.rows,
    le_trans (List.length_filter_le _ _) h.identities⟩

theorem retain_capacity (retention : Duration) (set : RecordSet) (t : I)
    (h : s.WithinCapacity) :
    (s.retain retention set.records set.emitted t).WithinCapacity ∧
      ∀ expiresAt, checkedAddDuration t retention = some expiresAt → ∀ (f : Family),
        ∀ i ∈ identities set.records (f.pick set.emitted),
          i ∈ s.recorded set t expiresAt f ∨
          ((s.retain retention set.records set.emitted t).relinquished.length =
              maxRelinquishedRrsets ∧
            (s.retain retention set.records set.emitted t).relinquishedIdentities.length =
              maxRelinquishedIdentities) := by
  have heff := retain_retained s retention set t
  generalize s.retain retention set.records set.emitted t = left at heff ⊢
  have hrecorded : s.hasRow set t = true → ∀ expiresAt (f : Family),
      ∀ i ∈ identities set.records (f.pick set.emitted), i ∈ s.recorded set t expiresAt f := by
    intro hrow expiresAt f i hi
    unfold recorded
    rw [hrow, if_pos rfl]
    exact hi
  have hlive := s.liveRows_length t
  have hrows := h.rows
  cases heff with
  | nothing hnone =>
    refine ⟨h, fun expiresAt _ f i hi => ?_⟩
    rw [screensNothing set hnone f] at hi
    cases hi
  | unrepresentable hadd =>
    refine ⟨h, fun expiresAt he => ?_⟩
    rw [hadd] at he
    cases he
  | extended expiresAt hadd pre post row hsplit hrecords hemitted =>
    have hhas : s.hasRow set t = true := by
      unfold hasRow
      rw [hsplit, List.any_append, List.any_cons, hrecords, hemitted, beq_self_eq_true,
        beq_self_eq_true, Bool.true_and, Bool.true_or, Bool.or_true, Bool.true_or]
    rw [hsplit] at hlive
    refine ⟨⟨?_, h.identities⟩, fun u _ f i hi => .inl (hrecorded hhas u f i hi)⟩
    simp only [List.length_append, List.length_cons] at hlive ⊢
    omega
  | spilled expiresAt hadd hrow =>
    have hfull : maxRelinquishedRrsets ≤ (s.liveRows t).length := by
      have hrow := hrow
      unfold hasRow at hrow
      rw [Bool.or_eq_false_iff, decide_eq_false_iff_not] at hrow
      exact not_lt.mp hrow.2
    have hids : (s.relinquishedIdentities.filter fun e => e.live t).length ≤
        maxRelinquishedIdentities := le_trans (List.length_filter_le _ _) h.identities
    obtain ⟨_, hcap4, htaken4⟩ := fold_length ⟨some expiresAt, none⟩ _
      (Hick.identities set.records set.emitted.v4) hids
    obtain ⟨hgrow6, hcap6, htaken6⟩ := fold_length ⟨none, some expiresAt⟩ _
      (Hick.identities set.records set.emitted.v6) hcap4
    refine ⟨⟨le_trans hlive hrows, hcap6⟩, fun u hu f i hi => ?_⟩
    rw [hadd] at hu
    cases hu
    unfold recorded
    rw [hrow, if_neg Bool.false_ne_true]
    cases f with
    | v4 =>
      rcases htaken4 i hi with hmem | hfour
      · exact .inl hmem
      · refine .inr ⟨?_, ?_⟩
        · exact le_antisymm (le_trans hlive hrows) hfull
        · exact le_antisymm hcap6 (by rw [← hfour]; exact hgrow6)
    | v6 =>
      rcases htaken6 i hi with hmem | hsix
      · exact .inl hmem
      · exact .inr ⟨le_antisymm (le_trans hlive hrows) hfull, hsix⟩
  | row expiresAt hadd hroom =>
    have hhas : s.hasRow set t = true := by
      unfold hasRow
      rw [decide_eq_true hroom, Bool.or_true]
    refine ⟨⟨?_, h.identities⟩, fun u _ f i hi => .inl (hrecorded hhas u f i hi)⟩
    simp only [List.length_append, List.length_singleton]
    omega

end Screen
end

end Hick
