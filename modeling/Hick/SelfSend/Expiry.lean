import Hick.SelfSend.Log

/-!
# The ledger invariant (hick-udp/src/selfsend.rs:1043-1578)

`admit` drops from the front alone, so the credits must stand in the order they expire.
-/

namespace Hick
open Octets Runs
namespace SelfSendTracker

structure WellKept (t : SelfSendTracker) : Prop where
  counted : t.Counted
  bytes_le : t.bytes ≤ maxSelfSendBytes
  length_le : t.entries.length ≤ maxSelfSendEntries
  classed : ∀ c ∈ t.entries, c.cls = .of c.body

theorem turnsBy_same (c d : Credit) (call : LogCall) (h : TurnsBy c d call) :
    d = { c with agedFrom := d.agedFrom } := by
  cases call <;> (simp only [TurnsBy] at h; subst h; rfl)

theorem passage_bodyBytes_le {Leaves : Credit → Prop} (call : LogCall) (l l' : List Credit)
    (h : Passage Leaves (fun c d => TurnsBy c d call) l l') : bodyBytes l' ≤ bodyBytes l := by
  apply h.sum_le
  intro c d hcd
  rw [turnsBy_same c d call hcd]

theorem bodyBytes_eraseIdx (xs : List Credit) (i : Nat) (c : Credit) (h : xs[i]? = some c) :
    bodyBytes (xs.eraseIdx i) + c.body.length = bodyBytes xs := by
  induction xs generalizing i with
  | nil => simp at h
  | cons x xs ih =>
    cases i with
    | zero =>
      simp only [List.getElem?_cons_zero, Option.some.injEq] at h
      subst h
      simp only [bodyBytes, List.eraseIdx_cons_zero, List.map_cons, List.sum_cons]
      omega
    | succ i =>
      have hrest := ih i (by simpa using h)
      simp only [bodyBytes, List.eraseIdx_cons_succ, List.map_cons, List.sum_cons] at hrest ⊢
      omega

theorem bodyBytes_anchored (openedAt : StdInstant) (xs : List Credit) :
    bodyBytes (xs.map (anchored openedAt)) = bodyBytes xs := by
  rw [bodyBytes, List.map_map]
  rfl

theorem apply_counted (grain : Duration) (t : SelfSendTracker) (h : t.Counted) (call : LogCall) :
    (call.apply grain t).Counted := by
  cases call with
  | record family body sent sweepNow clock =>
    rcases t.recordBy_cases h family body sent sweepNow clock with ⟨-, -, heq⟩ | ⟨-, heq⟩
    · show (t.recordBy family body sent sweepNow clock).Counted
      rw [heq]
      rfl
    · show (t.recordBy family body sent sweepNow clock).Counted
      rw [heq, sweptFor]
      split
      · rfl
      · exact h
  | seal_ sweepNow openedAt => exact (bodyBytes_anchored openedAt _).symm
  | openWindowAt openedAt =>
    show t.bytes = bodyBytes (t.entries.map (anchored openedAt))
    rw [bodyBytes_anchored]
    exact h
  | supersede => exact h
  | claim family body rx clock =>
    show ((t.claimBy grain family body rx clock).1).Counted
    rcases t.claimBy_cases grain family body rx clock with
      ⟨i, c, hstands, -, -, heq⟩ | ⟨-, ⟨-, heq⟩ | ⟨-, heq⟩⟩
    · have hbytes := bodyBytes_eraseIdx t.entries i c hstands.placed
      rw [Counted] at h
      rw [heq]
      show t.bytes - c.body.length = bodyBytes (t.entries.eraseIdx i)
      omega
    all_goals
      rw [heq]
      exact h

theorem apply_fits (grain : Duration) (t : SelfSendTracker) (h : WellKept t) (call : LogCall) :
    bodyBytes (call.apply grain t).entries ≤ maxSelfSendBytes ∧
      (call.apply grain t).entries.length ≤ maxSelfSendEntries := by
  have hbytes := h.bytes_le
  have hlength := h.length_le
  have hcounted := h.counted
  rw [Counted] at hcounted
  obtain ⟨kept, added, heq, hpass, hadded⟩ := t.apply_passes grain h.counted call
  have hle := passage_bodyBytes_le call t.entries kept hpass
  have hlen := hpass.length_le
  rcases hadded with rfl | ⟨family, body, sent, sweepNow, clock, rfl, rfl⟩
  · rw [List.append_nil] at heq
    rw [heq]
    omega
  · show bodyBytes (t.recordBy family body sent sweepNow clock).entries ≤ _ ∧
      (t.recordBy family body sent sweepNow clock).entries.length ≤ _
    rcases t.recordBy_cases h.counted family body sent sweepNow clock with
      ⟨-, ⟨hentries, hoctets⟩, hrec⟩ | ⟨-, hrec⟩
    · rw [hrec]
      simp only [bodyBytes_append, List.length_append]
      simp only [bodyBytes, creditOf, List.map_cons, List.map_nil, List.sum_cons, List.sum_nil,
        List.length_cons, List.length_nil] at hoctets ⊢
      omega
    · have hswept := t.sweptFor_passes sweepNow body.length
      have hsum : bodyBytes (t.sweptFor sweepNow body.length).entries ≤ bodyBytes t.entries := by
        apply hswept.sum_le
        intro c d hcd
        rw [hcd]
      have hcount := hswept.length_le
      rw [hrec]
      omega

theorem wellKept_new : WellKept .new where
  counted := rfl
  bytes_le := Nat.zero_le _
  length_le := Nat.zero_le _
  classed _ h := absurd h (List.not_mem_nil)

theorem wellKept_apply (grain : Duration) (t : SelfSendTracker) (h : WellKept t)
    (call : LogCall) : WellKept (call.apply grain t) := by
  have hcounted := apply_counted grain t h.counted call
  obtain ⟨hbytes, hlength⟩ := apply_fits grain t h call
  refine ⟨hcounted, by rw [hcounted]; exact hbytes, hlength, ?_⟩
  obtain ⟨kept, added, heq, hpass, hadded⟩ := t.apply_passes grain h.counted call
  have hkept : ∀ d ∈ kept, d.cls = .of d.body := by
    apply hpass.forall_mem (fun c => c.cls = .of c.body) (fun d => d.cls = .of d.body) h.classed
    intro c d hc hcd
    rw [turnsBy_same c d call hcd]
    exact hc
  intro c hc
  rw [heq, List.mem_append] at hc
  rcases hc with hc | hc
  · exact hkept c hc
  · rcases hadded with rfl | ⟨family, body, sent, sweepNow, clock, -, rfl⟩
    · cases hc
    · rw [List.mem_singleton.mp hc]
      rfl

/-- The anchor `a` runs out no later than `b`; an unsealed credit has not started to. -/
def NoLater : Option StdInstant → Option StdInstant → Prop
  | _, none => True
  | none, some _ => False
  | some a, some b => a ≤ b

def InExpiryOrder (entries : List Credit) : Prop :=
  ∃ (sealed_ unsealed : List Credit) (anchors : List StdInstant), entries = sealed_ ++ unsealed ∧
    sealed_.map Credit.agedFrom = anchors.map some ∧ anchors.Pairwise (· ≤ ·) ∧
    ∀ c ∈ unsealed, c.agedFrom = none

theorem pairwise_of_inExpiryOrder (entries : List Credit) (h : InExpiryOrder entries) :
    entries.Pairwise fun c d => NoLater c.agedFrom d.agedFrom := by
  obtain ⟨sealed_, unsealed, anchors, rfl, hanchors, hsorted, hunsealed⟩ := h
  have hlast (a : Option StdInstant) (d : Credit) (hd : d ∈ unsealed) : NoLater a d.agedFrom := by
    rw [hunsealed d hd]
    cases a <;> trivial
  rw [List.pairwise_append]
  refine ⟨?_, ?_, fun c _ d hd => hlast c.agedFrom d hd⟩
  · have hmapped : (sealed_.map Credit.agedFrom).Pairwise NoLater := by
      rw [hanchors, List.pairwise_map]
      exact hsorted
    exact List.pairwise_map.mp hmapped
  · exact List.pairwise_of_forall_mem_list fun c _ d hd => hlast c.agedFrom d hd

theorem inExpiryOrder_of_pairwise (entries : List Credit)
    (h : entries.Pairwise fun c d => NoLater c.agedFrom d.agedFrom) : InExpiryOrder entries := by
  induction entries with
  | nil =>
    refine ⟨[], [], [], rfl, rfl, .nil, ?_⟩
    intro c hc
    cases hc
  | cons c rest ih =>
    rw [List.pairwise_cons] at h
    cases hc : c.agedFrom with
    | none =>
      refine ⟨[], c :: rest, [], rfl, rfl, .nil, ?_⟩
      intro d hd
      rcases List.mem_cons.mp hd with rfl | hd
      · exact hc
      · have hle := h.1 d hd
        cases hd : d.agedFrom with
        | none => rfl
        | some a => rw [hc, hd] at hle; exact hle.elim
    | some a =>
      obtain ⟨sealed_, unsealed, anchors, heq, hanchors, hsorted, hunsealed⟩ := ih h.2
      refine ⟨c :: sealed_, unsealed, a :: anchors, by rw [heq]; rfl, ?_, ?_, hunsealed⟩
      · rw [List.map_cons, List.map_cons, hc, hanchors]
      · rw [List.pairwise_cons]
        refine ⟨?_, hsorted⟩
        intro b hb
        have hmem : some b ∈ sealed_.map Credit.agedFrom := by
          rw [hanchors]
          exact List.mem_map_of_mem hb
        obtain ⟨d, hd, hdb⟩ := List.mem_map.mp hmem
        have hle := h.1 d (by rw [heq]; exact List.mem_append_left _ hd)
        rw [hc, hdb] at hle
        exact hle

end SelfSendTracker

def LogCall.opened : LogCall → Option StdInstant
  | .seal_ _ openedAt | .openWindowAt openedAt => some openedAt
  | .record .. | .supersede | .claim .. => none

def openings (ts : List (Transition SelfSendTracker LogCall)) : List StdInstant :=
  summary (fun past t => past ++ t.call.opened.toList) [] ts

namespace SelfSendTracker

theorem turnsBy_iff (c d : Credit) (call : LogCall) :
    TurnsBy c d call ↔ d = match call.opened with
      | some openedAt => anchored openedAt c
      | none => c := by
  cases call <;> rfl

/-- Every anchor is an opening of the past, and openings in order leave the credits in order. -/
structure Aged (past : List StdInstant) (t : SelfSendTracker) : Prop where
  kept : WellKept t
  opened : ∀ c ∈ t.entries, ∀ a, c.agedFrom = some a → a ∈ past
  ordered : past.Pairwise (· ≤ ·) →
    t.entries.Pairwise fun c d => NoLater c.agedFrom d.agedFrom

theorem noLater_anchored (openedAt : StdInstant) (a b : Option StdInstant) (h : NoLater a b)
    (ha : ∀ x, a = some x → x ≤ openedAt) :
    NoLater (some (a.getD openedAt)) (some (b.getD openedAt)) := by
  cases a with
  | none =>
    cases b with
    | none => exact Nat.le_refl openedAt
    | some b => exact h.elim
  | some a =>
    cases b with
    | none => exact ha a rfl
    | some b => exact h

theorem aged_apply (grain : Duration) (past : List StdInstant) (t : SelfSendTracker)
    (h : Aged past t) (call : LogCall) :
    Aged (past ++ call.opened.toList) (call.apply grain t) := by
  obtain ⟨kept, added, heq, hpass, hadded⟩ := t.apply_passes grain h.kept.counted call
  have hunsealed : ∀ c ∈ added, c.agedFrom = none := by
    intro c hc
    rcases hadded with rfl | ⟨family, body, sent, sweepNow, clock, -, rfl⟩
    · cases hc
    · rw [List.mem_singleton.mp hc]
      rfl
  refine ⟨wellKept_apply grain t h.kept call, ?_, ?_⟩
  · have hkept : ∀ d ∈ kept, ∀ a, d.agedFrom = some a → a ∈ past ++ call.opened.toList := by
      apply hpass.forall_mem (fun c => ∀ a, c.agedFrom = some a → a ∈ past)
        (fun d => ∀ a, d.agedFrom = some a → a ∈ past ++ call.opened.toList) h.opened
      intro c d hc hcd a ha
      rw [turnsBy_iff] at hcd
      subst hcd
      cases ho : call.opened with
      | none =>
        rw [ho] at ha
        exact List.mem_append_left _ (hc a ha)
      | some openedAt =>
        rw [ho] at ha
        have hget : c.agedFrom.getD openedAt = a := by simpa [anchored] using ha
        cases hcd : c.agedFrom with
        | none =>
          rw [hcd] at hget
          rw [← hget]
          exact List.mem_append_right _ (List.mem_singleton.mpr rfl)
        | some b =>
          rw [hcd] at hget
          exact List.mem_append_left _ (hc a (by rw [hcd, ← hget]; rfl))
    intro c hc a ha
    rw [heq, List.mem_append] at hc
    rcases hc with hc | hc
    · exact hkept c hc a ha
    · rw [hunsealed c hc] at ha
      cases ha
  · intro hsorted
    rw [List.pairwise_append] at hsorted
    have hkept : kept.Pairwise fun c d => NoLater c.agedFrom d.agedFrom := by
      apply hpass.pairwise _ _ (h.ordered hsorted.1)
      intro c c' d d' hc _ hle hcd hcd'
      rw [turnsBy_iff] at hcd hcd'
      subst hcd hcd'
      cases ho : call.opened with
      | none => exact hle
      | some openedAt =>
        apply noLater_anchored openedAt _ _ hle
        intro a ha
        rw [ho] at hsorted
        exact hsorted.2.2 a (h.opened c hc a ha) openedAt (List.mem_singleton.mpr rfl)
    rw [heq, List.pairwise_append]
    refine ⟨hkept, ?_, ?_⟩
    · rcases hadded with rfl | ⟨family, body, sent, sweepNow, clock, -, rfl⟩
      · exact .nil
      · exact List.pairwise_singleton ..
    · intro c _ d hd
      rw [hunsealed d hd]
      cases c.agedFrom <;> trivial

theorem aged_run (grain : Duration) (ts : List (Transition SelfSendTracker LogCall))
    (t : SelfSendTracker) (run : Run (selfSendLog grain) ts t) : Aged (openings ts) t := by
  apply run.invariant (selfSendLog grain) _ [] Aged (fun _ => True)
  · rintro _ rfl
    refine ⟨wellKept_new, ?_, fun _ => .nil⟩
    intro c hc
    cases hc
  · intro past t call h _ _
    exact aged_apply grain past t h call
  · intro _ _
    trivial

theorem turnsBy_anchor (c d : Credit) (call : LogCall) (h : TurnsBy c d call) (a : StdInstant)
    (ha : c.agedFrom = some a) : d = c := by
  rw [turnsBy_iff] at h
  subst h
  cases call.opened with
  | none => rfl
  | some openedAt =>
    cases c
    simp only at ha
    subst ha
    rfl

/-- Over every sequence of calls on any readings: the credits stand in the order they expire as long
as no window opens before an earlier one, both caps hold and the octets are counted right. -/
theorem self_send_ledger (grain : Duration) (ts : List (Transition SelfSendTracker LogCall))
    (t : SelfSendTracker) (run : Run (selfSendLog grain) ts t) :
    ((openings ts).Pairwise (· ≤ ·) → InExpiryOrder t.entries) ∧
    (t.bytes = bodyBytes t.entries ∧ t.bytes ≤ maxSelfSendBytes ∧
      t.entries.length ≤ maxSelfSendEntries) ∧
    (∀ call, ∃ kept added, (call.apply grain t).entries = kept ++ added ∧
      Passage (fun c => t.LeavesBy grain c call) (fun c d => TurnsBy c d call) t.entries kept ∧
      (added = [] ∨ ∃ family body sent sweepNow clock,
        call = .record family body sent sweepNow clock ∧
        added = [t.creditOf family body sent])) ∧
    (∀ family body sent sweepNow clock,
      let swept := t.sweptFor sweepNow body.length
      let post := t.recordBy family body sent sweepNow clock
      (∃ n, n ≤ deadFronts clock 0 swept.entries ∧
        post.entries = swept.entries.drop n ++ [t.creditOf family body sent]) ∨
      (¬ Room (swept.entries.drop (deadFronts clock 0 swept.entries)) body.length ∧
        post = swept)) ∧
    (∀ call c d, TurnsBy c d call → ∀ a, c.agedFrom = some a → d = c) := by
  have haged := aged_run grain ts t run
  refine ⟨fun hsorted => inExpiryOrder_of_pairwise _ (haged.ordered hsorted),
    ⟨haged.kept.counted, haged.kept.bytes_le, haged.kept.length_le⟩,
    t.apply_passes grain haged.kept.counted, ?_, fun call c d => turnsBy_anchor c d call⟩
  intro family body sent sweepNow clock swept post
  rcases t.recordBy_cases haged.kept.counted family body sent sweepNow clock with
    ⟨hn, -, heq⟩ | ⟨hroom, heq⟩
  · exact Or.inl ⟨_, hn, congrArg entries heq⟩
  · exact Or.inr ⟨hroom, heq⟩

def windows (a b : StdInstant) : List LogCall :=
  [.record .v4 [7] ⟨0, 0⟩ 0 fun _ => 0, .openWindowAt a, .record .v4 [7] ⟨0, 0⟩ 0 fun _ => 0,
    .openWindowAt b]

theorem windows_run (a b : StdInstant) : Run (selfSendLog 0)
    ((selfSendLog 0).trace new (windows a b)) ((selfSendLog 0).play new (windows a b)) :=
  Run.play (selfSendLog 0) [] new (.start new rfl) (windows a b)
    ⟨trivial, trivial, trivial, trivial, trivial⟩

theorem self_send_ledger_windows :
    InExpiryOrder ((selfSendLog 0).play new (windows 5 10)).entries ∧
      bodyBytes ((selfSendLog 0).play new (windows 5 10)).entries = 2 := by
  obtain ⟨hordered, hcaps, -⟩ := self_send_ledger 0 _ _ (windows_run 5 10)
  exact ⟨hordered (by decide), hcaps.1.symm⟩

/-- On any readings whatever the order does not hold. -/
theorem expiry_order_needs_the_clock :
    ¬ ∀ ts t, Run (selfSendLog 0) ts t → InExpiryOrder t.entries := by
  intro h
  have horder := pairwise_of_inExpiryOrder _ (h _ _ (windows_run 10 5))
  have hanchors : ((selfSendLog 0).play new (windows 10 5)).entries =
      [⟨.v4, [7], 0, .assertion, ⟨0, 0⟩, some 10⟩, ⟨.v4, [7], 0, .assertion, ⟨0, 0⟩, some 5⟩] := rfl
  rw [hanchors, List.pairwise_cons] at horder
  have hle : 10 ≤ 5 := horder.1 _ (List.mem_singleton.mpr rfl)
  omega

end SelfSendTracker
end Hick
