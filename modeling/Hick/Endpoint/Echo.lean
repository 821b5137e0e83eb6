import Mathlib
import Hick.Endpoint.Tiers

/-!
# Echoes of what was given up

The screen over a run of relinquishments and sweeps, at any later instant.
-/

namespace Hick
open Octets LabelSeq Wire Respond

section
variable {I : Type} [Instant I]

theorem rows_assert (rows : List (Relinquished I)) (r : Ref) (now : I) (f : Family)
    (sect : RecordSection) :
    (rows.any fun e => decide (now < e.expiresAt) && asserts e.records e.emitted r f sect) = true ↔
      arrivesAsWritten r sect = true ∧ ∃ i, Screen.RowKeeps rows now f i ∧ i.matches r = true := by
  rw [List.any_eq_true]
  unfold Screen.RowKeeps
  constructor
  · intro h
    obtain ⟨row, hrow, hassert⟩ := h
    rw [Bool.and_eq_true, decide_eq_true_eq, asserts_iff] at hassert
    obtain ⟨hlt, harrives, i, hi, hm⟩ := hassert
    exact ⟨harrives, i, ⟨row, hrow, hlt, i, hi, .refl i⟩, hm⟩
  · intro h
    obtain ⟨harrives, i, ⟨row, hrow, hlt, j, hj, hs⟩, hm⟩ := h
    refine ⟨row, hrow, ?_⟩
    rw [Bool.and_eq_true, decide_eq_true_eq, asserts_iff]
    exact ⟨hlt, harrives, j, hj, by rw [hs.matches_eq]; exact hm⟩

theorem identities_assert (ids : List (RelinquishedIdentity I)) (r : Ref) (now : I) (f : Family)
    (sect : RecordSection) :
    (ids.any fun e => e.asserts r now f sect) = true ↔
      arrivesAsWritten r sect = true ∧ ∃ i, Screen.Keeps ids now f i ∧ i.matches r = true := by
  rw [List.any_eq_true]
  unfold Screen.Keeps RelinquishedIdentity.asserts
  constructor
  · intro h
    obtain ⟨e, he, hassert⟩ := h
    rw [Bool.and_eq_true, Bool.and_eq_true, Bool.not_eq_true'] at hassert
    exact ⟨hassert.1.2, e.identity, ⟨e, he, .refl _, hassert.1.1⟩, hassert.2⟩
  · intro h
    obtain ⟨harrives, i, ⟨e, he, hs, hlive⟩, hm⟩ := h
    refine ⟨e, he, ?_⟩
    rw [hlive, harrives, hs.matches_eq, hm]
    rfl

theorem relinquishedAsserts_iff (s : Screen I) (resident : List RecordSet) (r : Ref) (now : I)
    (f : Family) (sect : RecordSection) :
    s.relinquishedAsserts (resident.map fun w => (w.records, w.emitted)) r now f sect = true ↔
      arrivesAsWritten r sect = true ∧
        ((∃ w ∈ resident, ∃ i ∈ identities w.records (f.pick w.emitted), i.matches r = true) ∨
          ∃ i, s.Holds now f i ∧ i.matches r = true) := by
  unfold Screen.relinquishedAsserts
  have hresident : ((resident.map fun w => (w.records, w.emitted)).any fun w =>
        asserts w.1 w.2 r f sect) = true ↔ arrivesAsWritten r sect = true ∧
      ∃ w ∈ resident, ∃ i ∈ identities w.records (f.pick w.emitted), i.matches r = true := by
    simp only [List.any_map, List.any_eq_true, Function.comp_apply, asserts_iff]
    constructor
    · intro h
      obtain ⟨w, hw, harrives, hrest⟩ := h
      exact ⟨harrives, w, hw, hrest⟩
    · intro h
      obtain ⟨harrives, w, hw, hrest⟩ := h
      exact ⟨w, hw, harrives, hrest⟩
  rw [Bool.or_eq_true, Bool.or_eq_true, hresident, rows_assert, identities_assert, ← and_or_left,
    ← and_or_left, or_assoc]
  unfold Screen.Holds
  simp only [or_and_right, exists_or]

inductive ScreenCall (I : Type) where
  | relinquish (set : RecordSet) (t : I)
  | sweep (t : I)

def ScreenCall.instant : ScreenCall I → I
  | .relinquish _ t => t
  | .sweep t => t

namespace Screen

def call (retention : Duration) (s : Screen I) : ScreenCall I → Screen I
  | .relinquish set t => s.retain retention set.records set.emitted t
  | .sweep t => s.sweep t

def after (retention : Duration) (calls : List (ScreenCall I)) : Screen I :=
  calls.foldl (call retention) new

theorem after_snoc (retention : Duration) (calls : List (ScreenCall I)) (c : ScreenCall I) :
    after retention (calls ++ [c]) = call retention (after retention calls) c := by
  simp only [after, List.foldl_append, List.foldl_cons, List.foldl_nil]

/-- Among the calls, the set was given up with a window to `expiresAt`, and the identity was
recorded of it for the family. -/
def Recorded (retention : Duration) (calls : List (ScreenCall I)) (f : Family) (set : RecordSet)
    (expiresAt : I) (i : Identity) : Prop :=
  ∃ past t, past ++ [.relinquish set t] <+: calls ∧
    checkedAddDuration t retention = some expiresAt ∧
      i ∈ (after retention past).recorded set t expiresAt f

theorem recorded_snoc (retention : Duration) (calls : List (ScreenCall I)) (c : ScreenCall I)
    (f : Family) (set : RecordSet) (expiresAt : I) (i : Identity) :
    Recorded retention (calls ++ [c]) f set expiresAt i ↔
      Recorded retention calls f set expiresAt i ∨
        ∃ t, c = .relinquish set t ∧ checkedAddDuration t retention = some expiresAt ∧
          i ∈ (after retention calls).recorded set t expiresAt f := by
  unfold Recorded
  constructor
  · intro h
    obtain ⟨past, t, hprefix, hrest⟩ := h
    rcases List.prefix_concat_iff.mp hprefix with heq | hprefix
    · obtain ⟨rfl, hc⟩ := List.append_inj' heq rfl
      exact .inr ⟨t, (List.singleton_inj.mp hc).symm, hrest⟩
    · exact .inl ⟨past, t, hprefix, hrest⟩
  · intro h
    rcases h with ⟨past, t, hprefix, hrest⟩ | ⟨t, rfl, hrest⟩
    · exact ⟨past, t, hprefix.trans (List.prefix_append ..), hrest⟩
    · exact ⟨calls, t, List.prefix_refl _, hrest⟩

theorem after_holds (retention : Duration) (calls : List (ScreenCall I)) (now : I)
    (hnow : ∀ c ∈ calls, c.instant ≤ now) (f : Family) (i : Identity) :
    (after retention calls).Holds now f i ↔
      ∃ set expiresAt, now < expiresAt ∧
        ∃ j, Recorded retention calls f set expiresAt j ∧ j.Same i := by
  induction calls using List.reverseRecOn with
  | nil =>
    constructor
    · intro h
      rcases h with ⟨row, hrow, _⟩ | ⟨e, he, _⟩
      · cases hrow
      · cases he
    · intro h
      obtain ⟨set, expiresAt, _, j, ⟨past, t, hprefix, _⟩, _⟩ := h
      have := hprefix.length_le
      simp at this
  | append_singleton calls c ih =>
    have hpast := ih fun c' hc' => hnow c' (List.mem_append_left _ hc')
    have hc := hnow c (List.mem_append_right _ (List.mem_singleton.mpr rfl))
    rw [after_snoc]
    simp only [recorded_snoc]
    cases c with
    | sweep t =>
      rw [call, sweep_holds _ t now hc, hpast]
      simp only [reduceCtorEq, false_and, exists_false, or_false]
    | relinquish set t =>
      rw [call, retain_holds _ retention set t now hc, hpast]
      constructor
      · intro h
        rcases h with ⟨set', u, hu, j, hj, hs⟩ | ⟨u, hadd, hu, j, hj, hs⟩
        · exact ⟨set', u, hu, j, .inl hj, hs⟩
        · exact ⟨set, u, hu, j, .inr ⟨t, rfl, hadd, hj⟩, hs⟩
      · intro h
        obtain ⟨set', u, hu, j, hj | ⟨t', hcall, hadd, hj⟩, hs⟩ := h
        · exact .inl ⟨set', u, hu, j, hj, hs⟩
        · cases hcall
          exact .inr ⟨u, hadd, hu, j, hj, hs⟩

theorem after_capacity (retention : Duration) (calls : List (ScreenCall I)) :
    (after retention calls).WithinCapacity := by
  induction calls using List.reverseRecOn with
  | nil => exact ⟨Nat.zero_le _, Nat.zero_le _⟩
  | append_singleton calls c ih =>
    rw [after_snoc]
    cases c with
    | sweep t => exact sweep_capacity _ t ih
    | relinquish set t => exact (retain_capacity _ retention set t ih).1

def Full (s : Screen I) : Prop :=
  s.relinquished.length = maxRelinquishedRrsets ∧
    s.relinquishedIdentities.length = maxRelinquishedIdentities

end Screen

/-- For a record other than a PTR record, at a name other than the root, the screen answers exactly
when it arrives as a record that a resident set has carried on the same family, or one that was
recorded of a set given up within its window. -/
theorem screen_answers_for_what_was_recorded (retention : Duration) (calls : List (ScreenCall I))
    (now : I) (hnow : ∀ c ∈ calls, c.instant ≤ now) (resident : List RecordSet) (f : Family) :
    (∀ (r : Ref) (sect : RecordSection), r.rtype ≠ .ptr → r.name.labels ≠ [] →
      ((Screen.after retention calls).relinquishedAsserts
          (resident.map fun w => (w.records, w.emitted)) r now f sect = true ↔
        (∃ set ∈ resident, ∃ e ∈ set.carried f, ArrivesAs r sect e) ∨
        ∃ set expiresAt, now < expiresAt ∧ ∃ e ∈ set.carried f, ArrivesAs r sect e ∧
          Screen.Recorded retention calls f set expiresAt e.identity)) ∧
    ∀ past set t expiresAt, past ++ [.relinquish set t] <+: calls →
      checkedAddDuration t retention = some expiresAt →
        ∀ e ∈ set.carried f, e.data.rtype ≠ .ptr →
          Screen.Recorded retention calls f set expiresAt e.identity ∨
            (Screen.after retention (past ++ [.relinquish set t])).Full := by
  constructor
  · intro r sect hptr hroot
    have hnotptr : ∀ e : RecordEntry, ArrivesAs r sect e → e.data.rtype ≠ .ptr := by
      intro e h he
      exact hptr (h.rtype.trans he)
    have hone : ∀ set : RecordSet, ∀ e ∈ set.carried f, e.data.rtype ≠ .ptr →
        (ArrivesAs r sect e ↔ arrivesAsWritten r sect = true ∧ e.identity.matches r = true) :=
      fun set e he hne => arrivesAs_iff set f e he hne r sect hroot
    rw [relinquishedAsserts_iff]
    simp only [Screen.after_holds retention calls now hnow f]
    constructor
    · intro h
      obtain ⟨harrives, ⟨w, hw, i, hi, hm⟩ | ⟨i, ⟨set, u, hu, j, hj, hs⟩, hm⟩⟩ := h
      · obtain ⟨e, he, hne, rfl⟩ := (mem_identities w f i).mp hi
        exact .inl ⟨w, hw, e, he, (hone w e he hne).mpr ⟨harrives, hm⟩⟩
      · have hmem : j ∈ identities set.records (f.pick set.emitted) := by
          obtain ⟨past, t, _, _, hrec⟩ := hj
          exact Screen.recorded_subset _ _ _ _ _ _ hrec
        obtain ⟨e, he, hne, rfl⟩ := (mem_identities set f j).mp hmem
        have hme : e.identity.matches r = true := by
          rw [hs.matches_eq]
          exact hm
        exact .inr ⟨set, u, hu, e, he, (hone set e he hne).mpr ⟨harrives, hme⟩, hj⟩
    · intro h
      rcases h with ⟨w, hw, e, he, ha⟩ | ⟨set, u, hu, e, he, ha, hrec⟩
      · have hne := hnotptr e ha
        obtain ⟨harrives, hm⟩ := (hone w e he hne).mp ha
        exact ⟨harrives, .inl ⟨w, hw, e.identity, (mem_identities w f _).mpr ⟨e, he, hne, rfl⟩, hm⟩⟩
      · obtain ⟨harrives, hm⟩ := (hone set e he (hnotptr e ha)).mp ha
        exact ⟨harrives, .inr ⟨e.identity, ⟨set, u, hu, e.identity, hrec, .refl _⟩, hm⟩⟩
  · intro past set t expiresAt hprefix hadd e he hne
    have hmem := (mem_identities set f e.identity).mpr ⟨e, he, hne, rfl⟩
    obtain ⟨_, hlost⟩ := Screen.retain_capacity (Screen.after retention past) retention set t
      (Screen.after_capacity retention past)
    rcases hlost expiresAt hadd f e.identity hmem with hrec | hfull
    · exact .inl ⟨past, t, hprefix, hadd, hrec⟩
    · rw [Screen.after_snoc]
      exact .inr hfull

end

def printerLeft : RecordSet where
  records := .printer
  emitted := ⟨⟨true, true, true, [.new 10 0 0 1], [], false, true⟩, .default⟩
  txtFits := by
    intro _ _ s hs
    cases hs

def printerAddressEcho : Ref where
  message := [1, 104, 5, 108, 111, 99, 97, 108, 0, 10, 0, 0, 1]
  name := ⟨[1, 104, 5, 108, 111, 99, 97, 108, 0, 10, 0, 0, 1], 0⟩
  rtype := .a
  rclass := .in_
  cacheFlush := true
  ttl := 120
  rdataStart := 9
  rdataLen := 4

def printerPtrEcho : Ref where
  message := [2, 95, 112, 5, 108, 111, 99, 97, 108, 0, 1, 97, 192, 0]
  name := ⟨[2, 95, 112, 5, 108, 111, 99, 97, 108, 0, 1, 97, 192, 0], 0⟩
  rtype := .ptr
  rclass := .in_
  cacheFlush := false
  ttl := 120
  rdataStart := 10
  rdataLen := 4

def printerLeaves : List (ScreenCall Uptime) := [.relinquish printerLeft 0]

def printerRetention : Duration := Duration.fromSecs 10

theorem printer_address_is_screened :
    (∃ set expiresAt, (5 : Uptime) < expiresAt ∧ ∃ e ∈ RecordSet.carried set .v4,
      ArrivesAs printerAddressEcho .answer e ∧
        Screen.Recorded printerRetention printerLeaves .v4 set expiresAt e.identity) ∧
    (Screen.Recorded printerRetention printerLeaves .v4 printerLeft 10000000000
        (srvEntry .printer .answer 120 true).identity ∨
      (Screen.after printerRetention printerLeaves).Full) := by
  have h := screen_answers_for_what_was_recorded printerRetention printerLeaves 5 (by decide) [] .v4
  constructor
  · rcases (h.1 printerAddressEcho .answer (by decide) (by decide +kernel)).mp
        (by decide +kernel) with ⟨set, hset, _⟩ | hpast
    · cases hset
    · exact hpast
  · exact h.2 [] printerLeft 0 10000000000 (List.prefix_refl _) (by decide)
      (srvEntry .printer .answer 120 true) (by decide) (by decide)

/-- The PTR record of a set that is screened is not. -/
theorem printer_ptr_is_not_screened :
    ptrEntry .printer 120 ∈ printerLeft.carried .v4 ∧
      ArrivesAs printerPtrEcho .answer (ptrEntry .printer 120) ∧
      (Screen.after printerRetention printerLeaves).relinquished.length = 1 ∧
      (Screen.after printerRetention printerLeaves).relinquishedAsserts [] printerPtrEcho 5 .v4 .answer =
        false := by
  refine ⟨by decide, ⟨rfl, rfl, rfl, ?_, rfl, by decide +kernel⟩, by decide +kernel,
    by decide +kernel⟩
  exact ⟨[[95, 112], [108, 111, 99, 97, 108]], by decide +kernel, by decide +kernel⟩

end Hick
