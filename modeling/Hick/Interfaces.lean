import Hick.Lib.FirstLeast
import Hick.Transmit

/-!
# The default interface (hick-udp/src/interfaces.rs)

Links are ranked by tier and by the families they serve, in one walk that reads no more addresses
than it has to.
-/

namespace Hick
namespace Interfaces

/-! ### Tiers (interfaces.rs:382-457) -/

structure Flags where
  up : Bool
  running : Bool
  loopback : Bool
  pointToPoint : Bool
  multicast : Bool
  deriving DecidableEq, Repr

def qualifies (android : Bool) (index : UInt32) (flags : Flags) (requireRunning : Bool) : Bool :=
  if index = 0 then false
  else if !flags.up || (requireRunning && !flags.running) then false
  else if android && flags.pointToPoint then false
  else flags.multicast && !flags.loopback

def fallbackQualifies (index : UInt32) (flags : Flags) (requireRunning : Bool) : Bool :=
  index != 0 && flags.loopback && flags.up && (!requireRunning || flags.running)

def tier (android : Bool) (index : UInt32) (flags : Flags) : Option ℕ :=
  if qualifies android index flags true then some 0
  else if qualifies android index flags false then some 2
  else if fallbackQualifies index flags false then some 4
  else none

theorem tier_le (android : Bool) (index : UInt32) (flags : Flags) (t : ℕ)
    (h : tier android index flags = some t) : t ≤ 4 := by
  unfold tier at h
  split at h
  · cases h
    omega
  · split at h
    · cases h
      omega
    · split at h
      · cases h
        omega
      · cases h

/-! ### The walk (interfaces.rs:145-307) -/

def saturatingSuccU8 (t : ℕ) : ℕ := min (t + 1) 255

structure HeldFailure (E : Type) where
  bestRank : ℕ
  worstRank : ℕ
  certainlyServes : Bool
  error : E

structure Candidate (S : Type) where
  tierBase : ℕ
  index : UInt32
  subject : S

section
variable {S E : Type}

def ruledOutBy (held : HeldFailure E) (position : ℕ) (other : HeldFailure E) (rival : ℕ) :
    Bool :=
  rival != position && other.certainlyServes &&
    (decide (other.worstRank < held.bestRank) ||
      (other.worstRank == held.bestRank && decide (rival < position)))

def firstUnresolvedFailure (deferred : List (HeldFailure E)) (best : Option (ℕ × UInt32)) :
    Option ℕ :=
  (deferred.zipIdx.find? fun (held, position) =>
    let beatenByTheWinner := best.any fun (seen, _) => decide (seen < held.bestRank)
    let ruledOutByARival := deferred.zipIdx.any fun (other, rival) =>
      ruledOutBy held position other rival
    !beatenByTheWinner && !ruledOutByARival).map (·.2)

structure Reading (E : Type) where
  reachable : ℕ
  knownToServe : Bool
  failure : Option E

def outranked (best : Option (ℕ × UInt32)) (reachable : ℕ) : Bool :=
  best.any fun (seen, _) => decide (seen ≤ reachable)

def readFamilies (best : Option (ℕ × UInt32)) (tierBase : ℕ)
    (hasAddr : Family → Except E Bool) : List (Family × Bool) → Reading E → Option (Reading E)
  | [], r => some r
  | (family, wanted) :: families, r =>
    if outranked best r.reachable then none
    else if !wanted then readFamilies best tierBase hasAddr families r
    else
      match hasAddr family with
      | .ok true => readFamilies best tierBase hasAddr families { r with knownToServe := true }
      | .ok false =>
        readFamilies best tierBase hasAddr families
          { r with reachable := saturatingSuccU8 tierBase }
      | .error e =>
        readFamilies best tierBase hasAddr families { r with failure := r.failure.or (some e) }

/-- The best settled rank so far with its interface, and the failures held, in walk order. -/
structure Walk (E : Type) where
  best : Option (ℕ × UInt32)
  deferred : List (HeldFailure E)

def consider (wantV4 wantV6 : Bool) (hasAddr : S → Family → Except E Bool) (w : Walk E)
    (c : Candidate S) : Walk E :=
  match readFamilies w.best c.tierBase (hasAddr c.subject) [(.v4, wantV4), (.v6, wantV6)]
      ⟨c.tierBase, false, none⟩ with
  | none => w
  | some r =>
    if !r.knownToServe && r.failure.isNone && decide (c.tierBase < r.reachable) then w
    else
      let takesTheLead := w.best.all fun (seen, _) => decide (r.reachable < seen)
      match r.failure with
      | some e =>
        if takesTheLead then
          { w with deferred := w.deferred ++
              [⟨r.reachable, saturatingSuccU8 c.tierBase, r.knownToServe, e⟩] }
        else w
      | none => if takesTheLead then { w with best := some (r.reachable, c.index) } else w

def rankCandidates (candidates : List (Candidate S)) (wantV4 wantV6 : Bool)
    (hasAddr : S → Family → Except E Bool) : Except E (Option UInt32) :=
  let w := candidates.foldl (consider wantV4 wantV6 hasAddr) ⟨none, []⟩
  match (firstUnresolvedFailure w.deferred w.best).bind (w.deferred[·]?) with
  | some held => .error held.error
  | none => .ok (w.best.map (·.2))

def families (wantV4 wantV6 : Bool) : List (Family × Bool) := [(.v4, wantV4), (.v6, wantV6)]

/-- The plain rank of a link whose addresses are known: its tier, one more where a wanted family
is absent, none where families are wanted and all of them are absent. -/
def plainRank (wantV4 wantV6 : Bool) (tierBase : ℕ) (serves : Family → Bool) : Option ℕ :=
  if (families wantV4 wantV6).all fun (f, wanted) => !wanted || serves f then some tierBase
  else if (families wantV4 wantV6).any fun (f, wanted) => wanted && serves f then
    some (tierBase + 1)
  else none

def filled (fill : Bool) (read : Family → Except E Bool) (f : Family) : Bool :=
  match read f with
  | .ok b => b
  | .error _ => fill

def failureOf (wantV4 wantV6 : Bool) (read : Family → Except E Bool) : Option E :=
  (families wantV4 wantV6).findSome? fun (f, wanted) =>
    if wanted then
      match read f with
      | .ok _ => none
      | .error e => some e
    else none

/-- The best rank of a candidate with a failed read, reached where the failed reads say
"present". -/
def bestOf (wantV4 wantV6 : Bool) (tierBase : ℕ) (read : Family → Except E Bool) : ℕ :=
  if (families wantV4 wantV6).all fun (f, wanted) => !wanted || filled true read f then tierBase
  else tierBase + 1

def certainlyServes (wantV4 wantV6 : Bool) (read : Family → Except E Bool) : Bool :=
  (families wantV4 wantV6).any fun (f, wanted) => wanted && filled false read f

def settledRank (wantV4 wantV6 : Bool) (hasAddr : S → Family → Except E Bool)
    (c : Candidate S) : Option ℕ :=
  if (failureOf wantV4 wantV6 (hasAddr c.subject)).isSome then none
  else plainRank wantV4 wantV6 c.tierBase (filled true (hasAddr c.subject))

theorem outranked_mono (best : Option (ℕ × UInt32)) (j k : ℕ) (hjk : j ≤ k)
    (h : outranked best j = true) : outranked best k = true := by
  cases best with
  | none => cases h
  | some b =>
    have hle : b.1 ≤ j := of_decide_eq_true h
    exact decide_eq_true (hle.trans hjk)

theorem takes_the_lead (best : Option (ℕ × UInt32)) (k : ℕ) :
    (best.all fun (seen, _) => decide (k < seen)) = !outranked best k := by
  cases best with
  | none => rfl
  | some b =>
    unfold outranked
    simp only [Option.all_some, Option.any_some]
    rw [← decide_not]
    exact decide_eq_decide.mpr Nat.not_le.symm

def heldOf (wantV4 wantV6 : Bool) (hasAddr : S → Family → Except E Bool) (c : Candidate S)
    (e : E) : HeldFailure E where
  bestRank := bestOf wantV4 wantV6 c.tierBase (hasAddr c.subject)
  worstRank := c.tierBase + 1
  certainlyServes := certainlyServes wantV4 wantV6 (hasAddr c.subject)
  error := e

theorem consider_eq (wantV4 wantV6 : Bool) (hasAddr : S → Family → Except E Bool) (w : Walk E)
    (c : Candidate S) (ht : c.tierBase < 255) :
    consider wantV4 wantV6 hasAddr w c =
      if outranked w.best (bestOf wantV4 wantV6 c.tierBase (hasAddr c.subject)) then w
      else
        match failureOf wantV4 wantV6 (hasAddr c.subject) with
        | some e =>
          { w with deferred := w.deferred ++ [heldOf wantV4 wantV6 hasAddr c e] }
        | none =>
          match settledRank wantV4 wantV6 hasAddr c with
          | some k => { w with best := some (k, c.index) }
          | none => w := by
  have hsat : saturatingSuccU8 c.tierBase = c.tierBase + 1 := by
    unfold saturatingSuccU8
    omega
  have hmono := outranked_mono w.best c.tierBase (c.tierBase + 1) (Nat.le_succ _)
  unfold consider settledRank heldOf bestOf failureOf certainlyServes plainRank filled families
  simp only [takes_the_lead, hsat]
  generalize hasAddr c.subject = read
  -- the nine outcomes of the two reads, under every incumbent that tells them apart
  rcases h4 : read .v4 with e | _ | _ <;> rcases h6 : read .v6 with e' | _ | _ <;>
    cases wantV4 <;> cases wantV6 <;> cases hlow : outranked w.best c.tierBase <;>
      cases hhigh : outranked w.best (c.tierBase + 1) <;>
        simp [readFamilies, hsat, h4, h6, hlow, hhigh] at hmono ⊢

end

structure Completed where
  tierBase : ℕ
  index : UInt32
  serves : Family → Bool

section
variable {S E : Type} (wantV4 wantV6 : Bool) (hasAddr : S → Family → Except E Bool)

/-- `d` is `c` with an answer for every read, the one it gave where it gave one. -/
structure Completes (c : Candidate S) (d : Completed) : Prop where
  tierBase : d.tierBase = c.tierBase
  index : d.index = c.index
  serves : ∀ f b, hasAddr c.subject f = .ok b → d.serves f = b

def Completed.rank (d : Completed) : Option ℕ :=
  plainRank wantV4 wantV6 d.tierBase d.serves

def Wins (ds : List Completed) (p : ℕ) : Prop :=
  ∃ k, FirstLeast.At (ds.map (Completed.rank wantV4 wantV6)) p k

/-- The failed reads can be completed so that the link at position `p` wins. -/
def CanWin (cs : List (Candidate S)) (p : ℕ) : Prop :=
  ∃ ds, List.Forall₂ (Completes hasAddr) cs ds ∧ Wins wantV4 wantV6 ds p

def wants : Family → Bool
  | .v4 => wantV4
  | .v6 => wantV6

theorem all_families (serves : Family → Bool) :
    ((families wantV4 wantV6).all fun (f, wanted) => !wanted || serves f) = true ↔
      ∀ f, wants wantV4 wantV6 f = true → serves f = true := by
  have hfamilies : (∀ f, wants wantV4 wantV6 f = true → serves f = true) ↔
      (wantV4 = true → serves .v4 = true) ∧ (wantV6 = true → serves .v6 = true) := by
    refine ⟨fun h => ⟨h .v4, h .v6⟩, fun h f => ?_⟩
    cases f with
    | v4 => exact h.1
    | v6 => exact h.2
  rw [hfamilies]
  cases wantV4 <;> cases wantV6 <;> simp [families]

theorem any_families (serves : Family → Bool) :
    ((families wantV4 wantV6).any fun (f, wanted) => wanted && serves f) = true ↔
      ∃ f, wants wantV4 wantV6 f = true ∧ serves f = true := by
  have hfamilies : (∃ f, wants wantV4 wantV6 f = true ∧ serves f = true) ↔
      (wantV4 = true ∧ serves .v4 = true) ∨ (wantV6 = true ∧ serves .v6 = true) := by
    constructor
    · rintro ⟨f, h⟩
      cases f with
      | v4 => exact .inl h
      | v6 => exact .inr h
    · rintro (h | h)
      · exact ⟨.v4, h⟩
      · exact ⟨.v6, h⟩
  rw [hfamilies]
  cases wantV4 <;> cases wantV6 <;> simp [families]

theorem plainRank_congr (t : ℕ) (serves serves' : Family → Bool)
    (h : ∀ f, wants wantV4 wantV6 f = true → serves f = serves' f) :
    plainRank wantV4 wantV6 t serves = plainRank wantV4 wantV6 t serves' := by
  have hall : ((families wantV4 wantV6).all fun (f, wanted) => !wanted || serves f) =
      (families wantV4 wantV6).all fun (f, wanted) => !wanted || serves' f := by
    rw [Bool.eq_iff_iff, all_families, all_families]
    exact forall₂_congr fun f hf => by rw [h f hf]
  have hany : ((families wantV4 wantV6).any fun (f, wanted) => wanted && serves f) =
      (families wantV4 wantV6).any fun (f, wanted) => wanted && serves' f := by
    rw [Bool.eq_iff_iff, any_families, any_families]
    exact exists_congr fun f => and_congr_right fun hf => by rw [h f hf]
  unfold plainRank
  rw [hall, hany]

theorem failureOf_none (read : Family → Except E Bool) :
    failureOf wantV4 wantV6 read = none ↔
      ∀ f, wants wantV4 wantV6 f = true → ∃ b, read f = .ok b := by
  have hfamilies : (∀ f, wants wantV4 wantV6 f = true → ∃ b, read f = .ok b) ↔
      (wantV4 = true → ∃ b, read .v4 = .ok b) ∧ (wantV6 = true → ∃ b, read .v6 = .ok b) := by
    refine ⟨fun h => ⟨h .v4, h .v6⟩, fun h f => ?_⟩
    cases f with
    | v4 => exact h.1
    | v6 => exact h.2
  rw [hfamilies]
  unfold failureOf families
  cases wantV4 <;> cases wantV6 <;> cases h4 : read .v4 <;> cases h6 : read .v6 <;>
    simp [h4, h6]

theorem failureOf_some (read : Family → Except E Bool) (e : E)
    (h : failureOf wantV4 wantV6 read = some e) :
    ∃ f, wants wantV4 wantV6 f = true ∧ ∀ b, read f ≠ .ok b := by
  by_contra hnone
  push Not at hnone
  rw [(failureOf_none wantV4 wantV6 read).mpr hnone] at h
  cases h

variable (cs : List (Candidate S)) (best : Option (ℕ × UInt32)) (c : Candidate S)

theorem rank_settled (d : Completed) (hd : Completes hasAddr c d)
    (hread : failureOf wantV4 wantV6 (hasAddr c.subject) = none) :
    d.rank wantV4 wantV6 = settledRank wantV4 wantV6 hasAddr c := by
  unfold settledRank Completed.rank
  rw [hread, hd.tierBase]
  apply plainRank_congr
  intro f hf
  obtain ⟨b, hb⟩ := (failureOf_none wantV4 wantV6 _).mp hread f hf
  rw [hd.serves f b hb, filled, hb]

theorem bestOf_le (d : Completed) (hd : Completes hasAddr c d) (k : ℕ)
    (hk : d.rank wantV4 wantV6 = some k) :
    bestOf wantV4 wantV6 c.tierBase (hasAddr c.subject) ≤ k := by
  unfold Completed.rank plainRank at hk
  rw [hd.tierBase] at hk
  unfold bestOf
  split at hk
  · rename_i hall
    cases hk
    have hfilled : ((families wantV4 wantV6).all fun (f, wanted) =>
        !wanted || filled true (hasAddr c.subject) f) = true := by
      rw [all_families] at hall ⊢
      intro f hf
      cases hread : hasAddr c.subject f with
      | error e => rw [filled, hread]
      | ok b =>
        rw [filled, hread, ← hd.serves f b hread]
        exact hall f hf
    rw [hfilled]
    exact le_refl _
  · split at hk
    · cases hk
      split <;> omega
    · cases hk

theorem rank_serves (d : Completed) (hd : Completes hasAddr c d)
    (hserves : certainlyServes wantV4 wantV6 (hasAddr c.subject) = true) :
    ∃ k, d.rank wantV4 wantV6 = some k ∧ k ≤ c.tierBase + 1 := by
  unfold certainlyServes at hserves
  rw [any_families] at hserves
  obtain ⟨f, hf, hfilled⟩ := hserves
  have hany : ((families wantV4 wantV6).any fun (f, wanted) => wanted && d.serves f) = true := by
    rw [any_families]
    refine ⟨f, hf, ?_⟩
    unfold filled at hfilled
    split at hfilled
    · rename_i b hread
      rw [hd.serves f b hread, hfilled]
    · cases hfilled
  unfold Completed.rank plainRank
  rw [hany, hd.tierBase]
  split
  · exact ⟨_, rfl, Nat.le_succ _⟩
  · exact ⟨_, rfl, le_refl _⟩

def completedWith (fill : Bool) (c : Candidate S) : Completed :=
  ⟨c.tierBase, c.index, filled fill (hasAddr c.subject)⟩

theorem completedWith_completes (fill : Bool) (c : Candidate S) :
    Completes hasAddr c (completedWith hasAddr fill c) := by
  refine ⟨rfl, rfl, ?_⟩
  intro f b hread
  change filled fill (hasAddr c.subject) f = b
  rw [filled, hread]

theorem rank_present (e : E)
    (hfailed : failureOf wantV4 wantV6 (hasAddr c.subject) = some e) :
    (completedWith hasAddr true c).rank wantV4 wantV6 =
      some (bestOf wantV4 wantV6 c.tierBase (hasAddr c.subject)) := by
  obtain ⟨f, hf, hread⟩ := failureOf_some wantV4 wantV6 _ e hfailed
  have hany : ((families wantV4 wantV6).any fun (f, wanted) =>
      wanted && filled true (hasAddr c.subject) f) = true := by
    rw [any_families]
    refine ⟨f, hf, ?_⟩
    cases hr : hasAddr c.subject f with
    | error e => rw [filled, hr]
    | ok b => exact absurd hr (hread b)
  unfold Completed.rank plainRank bestOf completedWith
  rw [hany]
  split <;> rfl

theorem rank_absent (e : E)
    (hfailed : failureOf wantV4 wantV6 (hasAddr c.subject) = some e) :
    (completedWith hasAddr false c).rank wantV4 wantV6 =
      if certainlyServes wantV4 wantV6 (hasAddr c.subject) then some (c.tierBase + 1)
      else none := by
  obtain ⟨f, hf, hread⟩ := failureOf_some wantV4 wantV6 _ e hfailed
  have hall : ¬((families wantV4 wantV6).all fun (f, wanted) =>
      !wanted || filled false (hasAddr c.subject) f) = true := by
    rw [all_families]
    intro h
    have hfilled := h f hf
    cases hr : hasAddr c.subject f with
    | error e =>
      rw [filled, hr] at hfilled
      cases hfilled
    | ok b => exact absurd hr (hread b)
  unfold Completed.rank plainRank certainlyServes completedWith
  rw [if_neg hall]

/-- The candidate at `p` has a failed read and beats every settled rank, and every other candidate
that certainly serves, at its worst. -/
structure Contends (cs : List (Candidate S)) (p : ℕ) (c : Candidate S) (e : E) : Prop where
  here : cs[p]? = some c
  failed : failureOf wantV4 wantV6 (hasAddr c.subject) = some e
  settled : ∀ q c' k, cs[q]? = some c' → settledRank wantV4 wantV6 hasAddr c' = some k →
    bestOf wantV4 wantV6 c.tierBase (hasAddr c.subject) ≤ k ∧
      (q < p → bestOf wantV4 wantV6 c.tierBase (hasAddr c.subject) < k)
  rivals : ∀ q c', q ≠ p → cs[q]? = some c' →
    (failureOf wantV4 wantV6 (hasAddr c'.subject)).isSome = true →
    certainlyServes wantV4 wantV6 (hasAddr c'.subject) = true →
    bestOf wantV4 wantV6 c.tierBase (hasAddr c.subject) ≤ c'.tierBase + 1 ∧
      (q < p → bestOf wantV4 wantV6 c.tierBase (hasAddr c.subject) < c'.tierBase + 1)

/-- The completion that favours the candidate at `p`: its own failed reads say "present", all
others say "absent". -/
def favouring (p : ℕ) (cs : List (Candidate S)) : List Completed :=
  cs.mapIdx fun q c => completedWith hasAddr (decide (q = p)) c

theorem favouring_completes (p : ℕ) (cs : List (Candidate S)) :
    List.Forall₂ (Completes hasAddr) cs (favouring hasAddr p cs) := by
  rw [List.forall₂_iff_get]
  refine ⟨(List.length_mapIdx).symm, ?_⟩
  intro i hi hi'
  unfold favouring
  simp only [List.get_eq_getElem, List.getElem_mapIdx]
  exact completedWith_completes hasAddr _ _

theorem forall₂_at {α β : Type} (r : α → β → Prop) (xs : List α) (ys : List β)
    (h : List.Forall₂ r xs ys) (i : ℕ) :
    (∀ x, xs[i]? = some x → ∃ y, ys[i]? = some y ∧ r x y) ∧
      ∀ y, ys[i]? = some y → ∃ x, xs[i]? = some x ∧ r x y := by
  have hlen := h.length_eq
  have hget := (List.forall₂_iff_get.mp h).2 i
  constructor
  · intro x hx
    obtain ⟨hlt, rfl⟩ := List.getElem?_eq_some_iff.mp hx
    exact ⟨_, List.getElem?_eq_getElem (by omega), hget hlt (by omega)⟩
  · intro y hy
    obtain ⟨hlt, rfl⟩ := List.getElem?_eq_some_iff.mp hy
    exact ⟨_, List.getElem?_eq_getElem (by omega), hget (by omega) hlt⟩

theorem rank_at (ds : List Completed) (q : ℕ) (k : ℕ)
    (h : (ds.map (Completed.rank wantV4 wantV6))[q]? = some (some k)) :
    ∃ d, ds[q]? = some d ∧ d.rank wantV4 wantV6 = some k := by
  rw [List.getElem?_map] at h
  exact Option.map_eq_some_iff.mp h

theorem at_rank (ds : List Completed) (q : ℕ) (d : Completed) (k : ℕ) (hd : ds[q]? = some d)
    (hk : d.rank wantV4 wantV6 = some k) :
    (ds.map (Completed.rank wantV4 wantV6))[q]? = some (some k) := by
  rw [List.getElem?_map, hd, Option.map_some, hk]

theorem canWin_iff (p : ℕ) (c : Candidate S) (e : E)
    (hc : cs[p]? = some c) (hfailed : failureOf wantV4 wantV6 (hasAddr c.subject) = some e) :
    CanWin wantV4 wantV6 hasAddr cs p ↔ Contends wantV4 wantV6 hasAddr cs p c e := by
  constructor
  · rintro ⟨ds, hds, k, hat⟩
    obtain ⟨d, hd, hk⟩ := rank_at wantV4 wantV6 ds p k hat.here
    obtain ⟨d', hd', hcompletes⟩ := (forall₂_at _ cs ds hds p).1 c hc
    have hsame : d' = d := Option.some.inj (hd'.symm.trans hd)
    subst hsame
    have hbest := bestOf_le wantV4 wantV6 hasAddr c d' hcompletes k hk
    refine ⟨hc, hfailed, ?_, ?_⟩
    · intro q c' k' hc' hk'
      have hread : failureOf wantV4 wantV6 (hasAddr c'.subject) = none := by
        unfold settledRank at hk'
        split at hk'
        · cases hk'
        · rename_i hnone
          exact Option.not_isSome_iff_eq_none.mp hnone
      obtain ⟨dq, hdq, hq⟩ := (forall₂_at _ cs ds hds q).1 c' hc'
      have hrank := (rank_settled wantV4 wantV6 hasAddr c' dq hq hread).trans hk'
      have hin := at_rank wantV4 wantV6 ds q dq k' hdq hrank
      exact ⟨hbest.trans (hat.least q k' hin), fun hqp => lt_of_le_of_lt hbest
        (hat.first q k' hin hqp)⟩
    · intro q c' _ hc' _ hserves
      obtain ⟨dq, hdq, hq⟩ := (forall₂_at _ cs ds hds q).1 c' hc'
      obtain ⟨k', hk', hle⟩ := rank_serves wantV4 wantV6 hasAddr c' dq hq hserves
      have hin := at_rank wantV4 wantV6 ds q dq k' hdq hk'
      refine ⟨(hbest.trans (hat.least q k' hin)).trans hle, fun hqp => ?_⟩
      exact lt_of_lt_of_le (lt_of_le_of_lt hbest (hat.first q k' hin hqp)) hle
  · intro h
    refine ⟨favouring hasAddr p cs, favouring_completes hasAddr p cs,
      bestOf wantV4 wantV6 c.tierBase (hasAddr c.subject), ?_⟩
    have hfav : ∀ q c', cs[q]? = some c' → (favouring hasAddr p cs)[q]? =
        some (completedWith hasAddr (decide (q = p)) c') := by
      intro q c' hc'
      rw [favouring, List.getElem?_mapIdx, hc']
      rfl
    have hcases : ∀ q k', ((favouring hasAddr p cs).map
        (Completed.rank wantV4 wantV6))[q]? = some (some k') → ∃ c', cs[q]? = some c' ∧
          (completedWith hasAddr (decide (q = p)) c').rank wantV4 wantV6 = some k' := by
      intro q k' hq
      obtain ⟨d, hd, hk⟩ := rank_at wantV4 wantV6 _ q k' hq
      obtain ⟨c', hc', -⟩ := (forall₂_at _ cs _ (favouring_completes hasAddr p cs) q).2 d hd
      have hd' := hfav q c' hc'
      rw [hd] at hd'
      cases hd'
      exact ⟨c', hc', hk⟩
    have hwinner := rank_present wantV4 wantV6 hasAddr c e hfailed
    -- what any other rank of this completion is worth against the favoured candidate's
    have hothers : ∀ q k', ((favouring hasAddr p cs).map
        (Completed.rank wantV4 wantV6))[q]? = some (some k') →
          bestOf wantV4 wantV6 c.tierBase (hasAddr c.subject) ≤ k' ∧
            (q < p → bestOf wantV4 wantV6 c.tierBase (hasAddr c.subject) < k') := by
      intro q k' hq
      obtain ⟨c', hc', hk'⟩ := hcases q k' hq
      by_cases hqp : q = p
      · subst hqp
        have hsame : c' = c := Option.some.inj (hc'.symm.trans hc)
        subst hsame
        rw [decide_eq_true rfl, hwinner] at hk'
        cases hk'
        exact ⟨le_refl _, fun hlt => absurd hlt (lt_irrefl _)⟩
      · rw [decide_eq_false hqp] at hk'
        cases hread : failureOf wantV4 wantV6 (hasAddr c'.subject) with
        | none =>
          rw [rank_settled wantV4 wantV6 hasAddr c' _ (completedWith_completes hasAddr false c')
            hread] at hk'
          exact h.settled q c' k' hc' hk'
        | some e' =>
          rw [rank_absent wantV4 wantV6 hasAddr c' e' hread] at hk'
          split at hk'
          · rename_i hserves
            cases hk'
            exact h.rivals q c' hqp hc' (by rw [hread]; rfl) hserves
          · cases hk'
    constructor
    · apply at_rank wantV4 wantV6 _ p _ _ (hfav p c hc)
      rw [decide_eq_true rfl]
      exact hwinner
    · exact fun q k' hq => (hothers q k' hq).1
    · exact fun q k' hq hqp => (hothers q k' hq).2 hqp

def settledRanks (cs : List (Candidate S)) : List (Option ℕ) :=
  cs.map (settledRank wantV4 wantV6 hasAddr)

/-- The candidate at `p` has a failed read and beats every settled rank before it. -/
structure Leads (cs : List (Candidate S)) (p : ℕ) (c : Candidate S) (e : E) : Prop where
  here : cs[p]? = some c
  failed : failureOf wantV4 wantV6 (hasAddr c.subject) = some e
  ahead : ∀ q k, (settledRanks wantV4 wantV6 hasAddr cs)[q]? = some (some k) → q < p →
    bestOf wantV4 wantV6 c.tierBase (hasAddr c.subject) < k

def HeldAt (cs : List (Candidate S)) (p : ℕ) (held : HeldFailure E) : Prop :=
  ∃ c e, Leads wantV4 wantV6 hasAddr cs p c e ∧ held = heldOf wantV4 wantV6 hasAddr c e

def Incumbent (cs : List (Candidate S)) (best : Option (ℕ × UInt32)) : Prop :=
  (best = none ∧ FirstLeast.Bare (settledRanks wantV4 wantV6 hasAddr cs)) ∨
    ∃ p k c, cs[p]? = some c ∧ FirstLeast.At (settledRanks wantV4 wantV6 hasAddr cs) p k ∧
      best = some (k, c.index)

structure Scanned (cs : List (Candidate S)) (w : Walk E) : Prop where
  best : Incumbent wantV4 wantV6 hasAddr cs w.best
  held : ∃ ps : List ℕ, ps.Pairwise (· < ·) ∧
    List.Forall₂ (HeldAt wantV4 wantV6 hasAddr cs) ps w.deferred ∧
    ∀ p c e, Leads wantV4 wantV6 hasAddr cs p c e → p ∈ ps

theorem outranked_iff (h : Incumbent wantV4 wantV6 hasAddr cs best) (j : ℕ) :
    outranked best j = false ↔
      ∀ (q k : ℕ), (settledRanks wantV4 wantV6 hasAddr cs)[q]? = some (some k) → j < k := by
  rcases h with ⟨rfl, hbare⟩ | ⟨p, k, c, -, hat, rfl⟩
  · exact ⟨fun _ q k hq => absurd hq (hbare q k), fun _ => rfl⟩
  · have hout : outranked (some (k, c.index)) j = false ↔ j < k := by
      unfold outranked
      rw [Option.any_some, decide_eq_false_iff_not, Nat.not_le]
    rw [hout]
    exact ⟨fun hj q k' hq => lt_of_lt_of_le hj (hat.least q k' hq), fun h => h p k hat.here⟩

theorem settledRanks_snoc (x : Candidate S) :
    settledRanks wantV4 wantV6 hasAddr (cs ++ [x]) =
      settledRanks wantV4 wantV6 hasAddr cs ++ [settledRank wantV4 wantV6 hasAddr x] :=
  List.map_append

theorem Leads.snoc (x : Candidate S) (p : ℕ) (c : Candidate S) (e : E)
    (h : Leads wantV4 wantV6 hasAddr cs p c e) :
    Leads wantV4 wantV6 hasAddr (cs ++ [x]) p c e := by
  obtain ⟨hlt, -⟩ := List.getElem?_eq_some_iff.mp h.here
  refine ⟨FirstLeast.getElem?_init cs x c p h.here, h.failed, ?_⟩
  intro q k hq hqp
  rw [settledRanks_snoc] at hq
  rcases FirstLeast.getElem?_snoc _ _ _ q hq with ⟨-, hin⟩ | ⟨heq, -⟩
  · exact h.ahead q k hin hqp
  · rw [settledRanks, List.length_map] at heq
    omega

theorem leads_snoc (x : Candidate S) (p : ℕ) (c : Candidate S) (e : E)
    (h : Leads wantV4 wantV6 hasAddr (cs ++ [x]) p c e) :
    Leads wantV4 wantV6 hasAddr cs p c e ∨
      p = cs.length ∧ c = x ∧ ∀ (q k : ℕ), (settledRanks wantV4 wantV6 hasAddr cs)[q]? =
        some (some k) → bestOf wantV4 wantV6 x.tierBase (hasAddr x.subject) < k := by
  rcases FirstLeast.getElem?_snoc cs x c p h.here with ⟨-, hin⟩ | ⟨hp, hx⟩
  · refine .inl ⟨hin, h.failed, ?_⟩
    intro q k hq hqp
    refine h.ahead q k ?_ hqp
    rw [settledRanks_snoc]
    exact FirstLeast.getElem?_init _ _ _ q hq
  · subst hx
    refine .inr ⟨hp, rfl, ?_⟩
    intro q k hq
    obtain ⟨hlt, -⟩ := List.getElem?_eq_some_iff.mp hq
    rw [settledRanks, List.length_map] at hlt
    refine h.ahead q k ?_ (by omega)
    rw [settledRanks_snoc]
    exact FirstLeast.getElem?_init _ _ _ q hq

theorem Incumbent.snoc_keep (h : Incumbent wantV4 wantV6 hasAddr cs best) (x : Candidate S)
    (hx : ∀ k, settledRank wantV4 wantV6 hasAddr x = some k → outranked best k = true) :
    Incumbent wantV4 wantV6 hasAddr (cs ++ [x]) best := by
  unfold Incumbent
  rw [settledRanks_snoc]
  rcases h with ⟨rfl, hbare⟩ | ⟨p, k, c, hc, hat, rfl⟩
  · refine .inl ⟨rfl, ?_⟩
    cases hrank : settledRank wantV4 wantV6 hasAddr x with
    | none => exact hbare.snoc_none _
    | some k => cases hx k hrank
  · refine .inr ⟨p, k, c, FirstLeast.getElem?_init cs x c p hc, ?_, rfl⟩
    apply hat.snoc_keep _ _ _ (settledRank wantV4 wantV6 hasAddr x)
    intro l hl
    exact of_decide_eq_true (hx l hl)

theorem Incumbent.snoc_lead (h : Incumbent wantV4 wantV6 hasAddr cs best) (x : Candidate S) (k : ℕ)
    (hx : settledRank wantV4 wantV6 hasAddr x = some k) (hlead : outranked best k = false) :
    Incumbent wantV4 wantV6 hasAddr (cs ++ [x]) (some (k, x.index)) := by
  have hlen : (settledRanks wantV4 wantV6 hasAddr cs).length = cs.length := List.length_map _
  refine .inr ⟨cs.length, k, x, List.getElem?_concat_length, ?_, rfl⟩
  rw [settledRanks_snoc, hx]
  rcases h with ⟨rfl, hbare⟩ | ⟨p, l, c, hc, hat, rfl⟩
  · have hat := hbare.snoc_some _ k
    rw [hlen] at hat
    exact hat
  · have hlower : k < l := Nat.not_le.mp (of_decide_eq_false hlead)
    have hat' := hat.snoc_lower _ _ _ k hlower
    rw [hlen] at hat'
    exact hat'

theorem settledRank_best (k : ℕ)
    (h : settledRank wantV4 wantV6 hasAddr c = some k) :
    failureOf wantV4 wantV6 (hasAddr c.subject) = none ∧
      bestOf wantV4 wantV6 c.tierBase (hasAddr c.subject) = k := by
  unfold settledRank at h
  split at h
  · cases h
  · rename_i hnone
    refine ⟨Option.not_isSome_iff_eq_none.mp hnone, ?_⟩
    unfold plainRank at h
    unfold bestOf
    split at h
    · rename_i hall
      cases h
      rw [if_pos hall]
    · rename_i hall
      rw [if_neg hall]
      split at h
      · cases h
        rfl
      · cases h

theorem scanned_step (w : Walk E)
    (h : Scanned wantV4 wantV6 hasAddr cs w) (x : Candidate S) (ht : x.tierBase < 255) :
    Scanned wantV4 wantV6 hasAddr (cs ++ [x]) (consider wantV4 wantV6 hasAddr w x) := by
  obtain ⟨ps, hordered, hheld, hall⟩ := h.held
  have hheld' : List.Forall₂ (HeldAt wantV4 wantV6 hasAddr (cs ++ [x])) ps w.deferred := by
    refine hheld.imp ?_
    rintro p held ⟨c, e, hleads, rfl⟩
    exact ⟨c, e, hleads.snoc wantV4 wantV6 hasAddr cs x p c e, rfl⟩
  have hiff := outranked_iff wantV4 wantV6 hasAddr cs w.best h.best
    (bestOf wantV4 wantV6 x.tierBase (hasAddr x.subject))
  rw [consider_eq wantV4 wantV6 hasAddr w x ht]
  cases hout : outranked w.best (bestOf wantV4 wantV6 x.tierBase (hasAddr x.subject)) with
  | true =>
    rw [if_pos rfl]
    refine ⟨h.best.snoc_keep wantV4 wantV6 hasAddr cs w.best x ?_, ps, hordered, hheld', ?_⟩
    · intro k hk
      rw [← (settledRank_best wantV4 wantV6 hasAddr x k hk).2]
      exact hout
    · intro p c e hleads
      rcases leads_snoc wantV4 wantV6 hasAddr cs x p c e hleads with hold | ⟨-, -, hbeats⟩
      · exact hall p c e hold
      · rw [hiff.mpr hbeats] at hout
        cases hout
  | false =>
    rw [if_neg Bool.false_ne_true]
    have hbeats := hiff.mp hout
    cases hread : failureOf wantV4 wantV6 (hasAddr x.subject) with
    | some e =>
      have hnone : settledRank wantV4 wantV6 hasAddr x = none := by
        rw [settledRank, hread]
        rfl
      refine ⟨h.best.snoc_keep wantV4 wantV6 hasAddr cs w.best x ?_, ps ++ [cs.length], ?_, ?_,
        ?_⟩
      · intro k hk
        rw [hnone] at hk
        cases hk
      · rw [List.pairwise_append]
        refine ⟨hordered, List.pairwise_singleton _ _, ?_⟩
        intro p hp q hq
        rw [List.mem_singleton.mp hq]
        obtain ⟨i, hi⟩ := List.mem_iff_getElem?.mp hp
        obtain ⟨held, -, c, e', hleads, -⟩ := (forall₂_at _ ps _ hheld i).1 p hi
        exact (List.getElem?_eq_some_iff.mp hleads.here).1
      · refine List.rel_append hheld' (List.Forall₂.cons ?_ List.Forall₂.nil)
        refine ⟨x, e, ⟨List.getElem?_concat_length, hread, ?_⟩, rfl⟩
        intro q k hq hqp
        rw [settledRanks_snoc] at hq
        rcases FirstLeast.getElem?_snoc _ _ _ q hq with ⟨-, hin⟩ | ⟨heq, -⟩
        · exact hbeats q k hin
        · rw [settledRanks, List.length_map] at heq
          omega
      · intro p c e' hleads
        rcases leads_snoc wantV4 wantV6 hasAddr cs x p c e' hleads with hold | ⟨hp, -, -⟩
        · exact List.mem_append_left _ (hall p c e' hold)
        · rw [hp]
          exact List.mem_append_right _ (List.mem_singleton.mpr rfl)
    | none =>
      have hkept : ∀ p c e, Leads wantV4 wantV6 hasAddr (cs ++ [x]) p c e → p ∈ ps := by
        intro p c e hleads
        rcases leads_snoc wantV4 wantV6 hasAddr cs x p c e hleads with hold | ⟨-, hx, -⟩
        · exact hall p c e hold
        · have hfailed := hleads.failed
          rw [hx, hread] at hfailed
          cases hfailed
      cases hrank : settledRank wantV4 wantV6 hasAddr x with
      | some k =>
        rw [(settledRank_best wantV4 wantV6 hasAddr x k hrank).2] at hout
        exact ⟨h.best.snoc_lead wantV4 wantV6 hasAddr cs w.best x k hrank hout, ps, hordered,
          hheld', hkept⟩
      | none =>
        refine ⟨h.best.snoc_keep wantV4 wantV6 hasAddr cs w.best x ?_, ps, hordered, hheld',
          hkept⟩
        intro k hk
        rw [hrank] at hk
        cases hk

theorem scanned (ht : ∀ c ∈ cs, c.tierBase < 255) :
    Scanned wantV4 wantV6 hasAddr cs
      (cs.foldl (consider wantV4 wantV6 hasAddr) ⟨none, []⟩) := by
  induction cs using List.reverseRecOn with
  | nil =>
    refine ⟨.inl ⟨rfl, FirstLeast.bare_nil⟩, [], List.Pairwise.nil, List.Forall₂.nil, ?_⟩
    intro p c e hleads
    cases hleads.here
  | append_singleton cs x ih =>
    rw [List.foldl_append]
    refine scanned_step wantV4 wantV6 hasAddr cs _ (ih fun c hc => ?_) x (ht x ?_)
    · exact ht c (List.mem_append_left _ hc)
    · exact List.mem_append_right _ (List.mem_singleton.mpr rfl)

theorem firstUnresolvedFailure_spec (deferred : List (HeldFailure E))
    (best : Option (ℕ × UInt32)) (P : ℕ → Prop)
    (hP : ∀ i held, deferred[i]? = some held →
      (P i ↔ best.all (fun (seen, _) => !decide (seen < held.bestRank)) = true ∧
        ∀ j other, deferred[j]? = some other → ruledOutBy held i other j = false)) :
    (∃ i held, firstUnresolvedFailure deferred best = some i ∧ deferred[i]? = some held ∧ P i ∧
        ∀ j, j < i → ¬P j) ∨
      firstUnresolvedFailure deferred best = none ∧ ∀ i, i < deferred.length → ¬P i := by
  have htest : ∀ i (hi : i < deferred.length), P i ↔
      (!(best.any fun (seen, _) => decide (seen < deferred[i].bestRank)) &&
        !(deferred.zipIdx.any fun (other, rival) => ruledOutBy deferred[i] i other rival)) =
          true := by
    intro i hi
    rw [hP i _ (List.getElem?_eq_getElem hi), Bool.and_eq_true]
    refine and_congr ?_ ?_
    · cases best with
      | none => exact ⟨fun _ => rfl, fun _ => rfl⟩
      | some b => exact Iff.rfl
    · rw [Bool.not_eq_true', List.any_eq_false]
      constructor
      · rintro h ⟨other, rival⟩ hmem
        rw [List.mk_mem_zipIdx_iff_getElem?] at hmem
        exact Bool.eq_false_iff.mp (h rival other hmem)
      · intro h j other hj
        exact Bool.eq_false_iff.mpr (h (other, j) (List.mk_mem_zipIdx_iff_getElem?.mpr hj))
  unfold firstUnresolvedFailure
  cases hfound : deferred.zipIdx.find? (fun (held, position) =>
      !(best.any fun (seen, _) => decide (seen < held.bestRank)) &&
        !(deferred.zipIdx.any fun (other, rival) => ruledOutBy held position other rival)) with
  | some found =>
    obtain ⟨held, i⟩ := found
    rw [List.find?_eq_some_iff_getElem] at hfound
    obtain ⟨hunresolved, i, hn, hat, hearlier⟩ := hfound
    rw [List.length_zipIdx] at hn
    rw [List.getElem_zipIdx, Nat.zero_add] at hat
    cases hat
    refine .inl ⟨i, deferred[i], rfl, List.getElem?_eq_getElem hn, (htest i hn).mpr hunresolved, ?_⟩
    intro j hj hPj
    have hearlier' := hearlier j hj
    rw [List.getElem_zipIdx, Nat.zero_add] at hearlier'
    have htested := (htest j (by omega)).mp hPj
    dsimp only at hearlier'
    rw [htested] at hearlier'
    cases hearlier'
  | none =>
    refine .inr ⟨rfl, ?_⟩
    intro i hi hPi
    rw [List.find?_eq_none] at hfound
    exact hfound (deferred[i], i)
      (List.mk_mem_zipIdx_iff_getElem?.mpr (List.getElem?_eq_getElem hi)) ((htest i hi).mp hPi)

theorem ordered_at (ps : List ℕ) (h : ps.Pairwise (· < ·)) (i j p q : ℕ)
    (hp : ps[i]? = some p) (hq : ps[j]? = some q) : j < i ↔ q < p := by
  obtain ⟨hi, rfl⟩ := List.getElem?_eq_some_iff.mp hp
  obtain ⟨hj, rfl⟩ := List.getElem?_eq_some_iff.mp hq
  rw [List.pairwise_iff_getElem] at h
  refine ⟨fun hlt => h j i hj hi hlt, fun hlt => ?_⟩
  rcases lt_trichotomy j i with hji | hji | hji
  · exact hji
  · subst hji
    omega
  · have hgt := h i j hi hj hji
    omega

theorem bestOf_le_succ :
    bestOf wantV4 wantV6 c.tierBase (hasAddr c.subject) ≤ c.tierBase + 1 := by
  unfold bestOf
  split <;> omega

theorem unresolved_iff (hbest : Incumbent wantV4 wantV6 hasAddr cs best) (ps : List ℕ)
    (hordered : ps.Pairwise (· < ·)) (deferred : List (HeldFailure E))
    (hheld : List.Forall₂ (HeldAt wantV4 wantV6 hasAddr cs) ps deferred)
    (hall : ∀ p c e, Leads wantV4 wantV6 hasAddr cs p c e → p ∈ ps) (i p : ℕ)
    (hp : ps[i]? = some p) (c : Candidate S) (e : E)
    (hleads : Leads wantV4 wantV6 hasAddr cs p c e)
    (hi : deferred[i]? = some (heldOf wantV4 wantV6 hasAddr c e)) :
    (best.all (fun (seen, _) => !decide (seen < bestOf wantV4 wantV6 c.tierBase
          (hasAddr c.subject))) = true ∧
        ∀ j other, deferred[j]? = some other →
          ruledOutBy (heldOf wantV4 wantV6 hasAddr c e) i other j = false) ↔
      Contends wantV4 wantV6 hasAddr cs p c e := by
  constructor
  · rintro ⟨hwinner, hrivals⟩
    have hsettled : ∀ (q k : ℕ), (settledRanks wantV4 wantV6 hasAddr cs)[q]? = some (some k) →
        bestOf wantV4 wantV6 c.tierBase (hasAddr c.subject) ≤ k := by
      intro q k hq
      rcases hbest with ⟨-, hbare⟩ | ⟨p₀, k₀, c₀, -, hat, rfl⟩
      · exact absurd hq (hbare q k)
      · have hle : ¬k₀ < bestOf wantV4 wantV6 c.tierBase (hasAddr c.subject) := by
          simpa using hwinner
        exact (Nat.not_lt.mp hle).trans (hat.least q k hq)
    have hrank : ∀ (q : ℕ) (c' : Candidate S) (k : ℕ), cs[q]? = some c' →
        settledRank wantV4 wantV6 hasAddr c' = some k →
          (settledRanks wantV4 wantV6 hasAddr cs)[q]? = some (some k) := by
      intro q c' k hc' hk
      rw [settledRanks, List.getElem?_map, hc', Option.map_some, hk]
    refine ⟨hleads.here, hleads.failed, ?_, ?_⟩
    · intro q c' k hc' hk
      exact ⟨hsettled q k (hrank q c' k hc' hk), hleads.ahead q k (hrank q c' k hc' hk)⟩
    · intro q c' hqp hc' hfailed hserves
      obtain ⟨e', he'⟩ := Option.isSome_iff_exists.mp hfailed
      have hworst := bestOf_le_succ wantV4 wantV6 hasAddr c'
      by_cases hleads' : Leads wantV4 wantV6 hasAddr cs q c' e'
      · obtain ⟨j, hj⟩ := List.mem_iff_getElem?.mp (hall q c' e' hleads')
        obtain ⟨other, hother, c'', e'', hleads'', rfl⟩ := (forall₂_at _ ps _ hheld j).1 q hj
        have hsame : c'' = c' := Option.some.inj (hleads''.here.symm.trans hc')
        subst hsame
        have hij := ordered_at ps hordered i j p q hp hj
        have hne : j ≠ i := by
          intro hji
          subst hji
          exact hqp (Option.some.inj (hj.symm.trans hp))
        have hruled := hrivals j _ hother
        have hnot : ¬(c''.tierBase + 1 < bestOf wantV4 wantV6 c.tierBase (hasAddr c.subject) ∨
            c''.tierBase + 1 = bestOf wantV4 wantV6 c.tierBase (hasAddr c.subject) ∧ j < i) := by
          simpa [ruledOutBy, heldOf, hserves, hne] using hruled
        omega
      · -- a settled candidate ahead of the rival already beats it
        have hbeaten : ∃ (s k : ℕ), (settledRanks wantV4 wantV6 hasAddr cs)[s]? = some (some k) ∧
            s < q ∧ k ≤ bestOf wantV4 wantV6 c'.tierBase (hasAddr c'.subject) := by
          by_contra hnone
          push Not at hnone
          exact hleads' ⟨hc', he', fun s k hs hsq => hnone s k hs hsq⟩
        obtain ⟨s, k, hs, hsq, hk⟩ := hbeaten
        have hle := hsettled s k hs
        refine ⟨by omega, fun hlt => ?_⟩
        have hlow := hleads.ahead s k hs (by omega)
        omega
  · intro h
    constructor
    · rcases hbest with ⟨rfl, -⟩ | ⟨p₀, k₀, c₀, hc₀, hat, rfl⟩
      · rfl
      · have hin := hat.here
        rw [settledRanks, List.getElem?_map, hc₀, Option.map_some] at hin
        have hle := (h.settled p₀ c₀ k₀ hc₀ (Option.some.inj hin)).1
        simpa using hle
    · intro j other hother
      obtain ⟨q, hq, c', e', hleads', rfl⟩ := (forall₂_at _ ps _ hheld j).2 other hother
      have hij := ordered_at ps hordered i j p q hp hq
      by_cases hji : j = i
      · simp [ruledOutBy, hji]
      · cases hserves : certainlyServes wantV4 wantV6 (hasAddr c'.subject) with
        | false => simp [ruledOutBy, heldOf, hserves]
        | true =>
          have hqp : q ≠ p := by
            intro hqp
            subst hqp
            obtain ⟨hi', hat⟩ := List.getElem?_eq_some_iff.mp hp
            obtain ⟨hj', hat'⟩ := List.getElem?_eq_some_iff.mp hq
            have hnodup : ps.Nodup := hordered.imp Nat.ne_of_lt
            exact hji ((List.Nodup.getElem_inj_iff hnodup).mp (hat'.trans hat.symm))
          have hrival := h.rivals q c' hqp hleads'.here (by rw [hleads'.failed]; rfl) hserves
          have hnot : ¬(c'.tierBase + 1 < bestOf wantV4 wantV6 c.tierBase (hasAddr c.subject) ∨
              c'.tierBase + 1 = bestOf wantV4 wantV6 c.tierBase (hasAddr c.subject) ∧
                j < i) := by
            omega
          simpa [ruledOutBy, heldOf, hserves, hji] using hnot

theorem CanWin.leads (p : ℕ) (c : Candidate S) (e : E)
    (hc : cs[p]? = some c) (hfailed : failureOf wantV4 wantV6 (hasAddr c.subject) = some e)
    (h : CanWin wantV4 wantV6 hasAddr cs p) : Leads wantV4 wantV6 hasAddr cs p c e := by
  have hcontends := (canWin_iff wantV4 wantV6 hasAddr cs p c e hc hfailed).mp h
  refine ⟨hc, hfailed, ?_⟩
  intro q k hq hqp
  rw [settledRanks, List.getElem?_map] at hq
  obtain ⟨c', hc', hk⟩ := Option.map_eq_some_iff.mp hq
  exact (hcontends.settled q c' k hc' hk).2 hqp

theorem incumbent_wins (hbest : Incumbent wantV4 wantV6 hasAddr cs best)
    (hnone : ∀ p c, cs[p]? = some c →
      (failureOf wantV4 wantV6 (hasAddr c.subject)).isSome = true →
        ¬CanWin wantV4 wantV6 hasAddr cs p) :
    (best = none ∧ ∀ ds, List.Forall₂ (Completes hasAddr) cs ds →
        ∀ p, ¬Wins wantV4 wantV6 ds p) ∨
      ∃ p k c, cs[p]? = some c ∧ best = some (k, c.index) ∧
        ∀ ds, List.Forall₂ (Completes hasAddr) cs ds → Wins wantV4 wantV6 ds p := by
  -- whoever wins has a settled rank, and it is the rank of the completion
  have hwinner : ∀ ds, List.Forall₂ (Completes hasAddr) cs ds → ∀ p k,
      FirstLeast.At (ds.map (Completed.rank wantV4 wantV6)) p k →
        (settledRanks wantV4 wantV6 hasAddr cs)[p]? = some (some k) := by
    intro ds hds p k hat
    obtain ⟨d, hd, hk⟩ := rank_at wantV4 wantV6 ds p k hat.here
    obtain ⟨c, hc, hcompletes⟩ := (forall₂_at _ cs ds hds p).2 d hd
    cases hread : failureOf wantV4 wantV6 (hasAddr c.subject) with
    | some e => exact absurd ⟨ds, hds, k, hat⟩ (hnone p c hc (by rw [hread]; rfl))
    | none =>
      rw [settledRanks, List.getElem?_map, hc, Option.map_some,
        ← rank_settled wantV4 wantV6 hasAddr c d hcompletes hread, hk]
  have hsettled : ∀ ds, List.Forall₂ (Completes hasAddr) cs ds → ∀ (q k : ℕ),
      (settledRanks wantV4 wantV6 hasAddr cs)[q]? = some (some k) →
        (ds.map (Completed.rank wantV4 wantV6))[q]? = some (some k) := by
    intro ds hds q k hq
    rw [settledRanks, List.getElem?_map] at hq
    obtain ⟨c, hc, hk⟩ := Option.map_eq_some_iff.mp hq
    obtain ⟨d, hd, hcompletes⟩ := (forall₂_at _ cs ds hds q).1 c hc
    apply at_rank wantV4 wantV6 ds q d k hd
    rw [rank_settled wantV4 wantV6 hasAddr c d hcompletes
      (settledRank_best wantV4 wantV6 hasAddr c k hk).1]
    exact hk
  rcases hbest with ⟨hnobody, hbare⟩ | ⟨p, k, c, hc, hat, hbest⟩
  · refine .inl ⟨hnobody, ?_⟩
    rintro ds hds p ⟨k, hwins⟩
    exact hbare p k (hwinner ds hds p k hwins)
  · refine .inr ⟨p, k, c, hc, hbest, ?_⟩
    intro ds hds
    rcases FirstLeast.bare_or_at (ds.map (Completed.rank wantV4 wantV6)) with hbare | ⟨q, l, hl⟩
    · exact absurd (hsettled ds hds p k hat.here) (hbare p k)
    · have hq := hwinner ds hds q l hl
      have hatq : FirstLeast.At (settledRanks wantV4 wantV6 hasAddr cs) q l :=
        ⟨hq, fun r m hr => hl.least r m (hsettled ds hds r m hr),
          fun r m hr hrq => hl.first r m (hsettled ds hds r m hr) hrq⟩
      obtain ⟨hpq, hkl⟩ := hat.unique _ p q k l hatq
      rw [hpq]
      exact ⟨l, hl⟩

/-- The walk fails exactly where some completion of the failed reads lets a candidate with a
failed read win, and then with the failure of the first such candidate. Otherwise it returns the
candidate that the plain ranking picks in every completion, or none where it picks none. -/
theorem default_choice_is_exact (candidates : List (Candidate S))
    (htier : ∀ c ∈ candidates, c.tierBase < 255) :
    (∀ e, rankCandidates candidates wantV4 wantV6 hasAddr = .error e ↔
      ∃ p c, candidates[p]? = some c ∧
        failureOf wantV4 wantV6 (hasAddr c.subject) = some e ∧
        CanWin wantV4 wantV6 hasAddr candidates p ∧
        ∀ q c', q < p → candidates[q]? = some c' →
          (failureOf wantV4 wantV6 (hasAddr c'.subject)).isSome = true →
            ¬CanWin wantV4 wantV6 hasAddr candidates q) ∧
      ∀ result, rankCandidates candidates wantV4 wantV6 hasAddr = .ok result →
        (result = none ∧ ∀ ds, List.Forall₂ (Completes hasAddr) candidates ds →
            ∀ p, ¬Wins wantV4 wantV6 ds p) ∨
          ∃ p c, candidates[p]? = some c ∧ result = some c.index ∧
            ∀ ds, List.Forall₂ (Completes hasAddr) candidates ds → Wins wantV4 wantV6 ds p := by
  have hscanned := scanned wantV4 wantV6 hasAddr candidates htier
  unfold rankCandidates
  generalize candidates.foldl (consider wantV4 wantV6 hasAddr) ⟨none, []⟩ = w at hscanned ⊢
  dsimp only
  obtain ⟨hbest, ps, hordered, hheld, hall⟩ := hscanned
  have hspec := firstUnresolvedFailure_spec w.deferred w.best
    (fun i => ∃ p, ps[i]? = some p ∧ CanWin wantV4 wantV6 hasAddr candidates p) (by
      intro i held hi
      obtain ⟨p, hp, c, e, hleads, rfl⟩ := (forall₂_at _ ps _ hheld i).2 held hi
      have hwins : (∃ p, ps[i]? = some p ∧ CanWin wantV4 wantV6 hasAddr candidates p) ↔
          CanWin wantV4 wantV6 hasAddr candidates p := by
        refine ⟨?_, fun h => ⟨p, hp, h⟩⟩
        rintro ⟨p', hp', h⟩
        rw [hp] at hp'
        cases hp'
        exact h
      rw [hwins, canWin_iff wantV4 wantV6 hasAddr candidates p c e hleads.here hleads.failed]
      exact (unresolved_iff wantV4 wantV6 hasAddr candidates w.best hbest ps hordered w.deferred
        hheld hall i p hp c e hleads hi).symm)
  have hposition : ∀ (p : ℕ) (c : Candidate S) (e : E), candidates[p]? = some c →
      failureOf wantV4 wantV6 (hasAddr c.subject) = some e →
        CanWin wantV4 wantV6 hasAddr candidates p → ∃ i : ℕ, ps[i]? = some p := by
    intro p c e hc hfailed hwins
    exact List.mem_iff_getElem?.mp
      (hall p c e (hwins.leads wantV4 wantV6 hasAddr candidates p c e hc hfailed))
  rcases hspec with ⟨i, held, hfound, hi, ⟨p, hp, hwins⟩, hfirst⟩ | ⟨hfound, hnobody⟩
  · obtain ⟨p', hp', c, e, hleads, rfl⟩ := (forall₂_at _ ps _ hheld i).2 held hi
    rw [hp] at hp'
    cases hp'
    have hearlier : ∀ q c', q < p → candidates[q]? = some c' →
        (failureOf wantV4 wantV6 (hasAddr c'.subject)).isSome = true →
          ¬CanWin wantV4 wantV6 hasAddr candidates q := by
      intro q c' hqp hc' hfailed hcan
      obtain ⟨e', he'⟩ := Option.isSome_iff_exists.mp hfailed
      obtain ⟨j, hj⟩ := hposition q c' e' hc' he' hcan
      exact hfirst j ((ordered_at ps hordered i j p q hp hj).mpr hqp) ⟨q, hj, hcan⟩
    rw [hfound, Option.bind_some, hi]
    refine ⟨?_, fun result h => by cases h⟩
    intro e'
    constructor
    · intro h
      cases h
      exact ⟨p, c, hleads.here, hleads.failed, hwins, hearlier⟩
    · rintro ⟨q, c', hc', hfailed', hcan, hearlier'⟩
      have hsame : q = p := by
        rcases lt_trichotomy q p with hlt | heq | hgt
        · exact absurd hcan (hearlier q c' hlt hc' (by rw [hfailed']; rfl))
        · exact heq
        · exact absurd hwins (hearlier' p c hgt hleads.here (by rw [hleads.failed]; rfl))
      subst hsame
      rw [hleads.here] at hc'
      cases hc'
      rw [hleads.failed] at hfailed'
      cases hfailed'
      rfl
  · have hcannot : ∀ p c, candidates[p]? = some c →
        (failureOf wantV4 wantV6 (hasAddr c.subject)).isSome = true →
          ¬CanWin wantV4 wantV6 hasAddr candidates p := by
      intro p c hc hfailed hcan
      obtain ⟨e, he⟩ := Option.isSome_iff_exists.mp hfailed
      obtain ⟨i, hi⟩ := hposition p c e hc he hcan
      have hlen := hheld.length_eq
      have hlt := (List.getElem?_eq_some_iff.mp hi).1
      exact hnobody i (by omega) ⟨p, hi, hcan⟩
    rw [hfound, Option.bind_none]
    constructor
    · intro e
      constructor
      · intro h
        cases h
      · rintro ⟨p, c, hc, hfailed, hcan, -⟩
        exact absurd hcan (hcannot p c hc (by rw [hfailed]; rfl))
    · intro result h
      cases h
      rcases incumbent_wins wantV4 wantV6 hasAddr candidates w.best hbest hcannot with
        ⟨hnone, hnobody⟩ | ⟨p, k, c, hc, hsome, hwins⟩
      · exact .inl ⟨by rw [hnone]; rfl, hnobody⟩
      · exact .inr ⟨p, c, hc, by rw [hsome]; rfl, hwins⟩

end

def link (running : Bool) : Flags := ⟨true, running, false, false, true⟩

def unplugged : Candidate Nat := ⟨2, 3, 0⟩
def unread : Candidate Nat := ⟨0, 4, 1⟩

def reads : Nat → Family → Except String Bool
  | 1, .v6 => .error "permission denied"
  | _, _ => .ok true

theorem unread_link_fails_the_pick :
    (∃ p c, [unplugged, unread][p]? = some c ∧ CanWin true true reads [unplugged, unread] p) ∧
      ∃ p c, [unplugged][p]? = some c ∧ ∀ ds, List.Forall₂ (Completes reads) [unplugged] ds →
        Wins true true ds p := by
  have htier : unplugged.tierBase ≤ 4 := tier_le false 3 (link false) _ (by decide)
  have htier' : unread.tierBase ≤ 4 := tier_le false 4 (link true) _ (by decide)
  constructor
  · have hexact := default_choice_is_exact true true reads [unplugged, unread] (by
      intro c hc
      rcases List.mem_cons.mp hc with rfl | hc
      · omega
      · rw [List.mem_singleton.mp hc]
        omega)
    obtain ⟨p, c, hc, -, hcan, -⟩ := (hexact.1 "permission denied").mp rfl
    exact ⟨p, c, hc, hcan⟩
  · have hexact := default_choice_is_exact true true reads [unplugged] (by
      intro c hc
      rw [List.mem_singleton.mp hc]
      omega)
    rcases hexact.2 (some 3) rfl with ⟨hnone, -⟩ | ⟨p, c, hc, -, hwins⟩
    · cases hnone
    · exact ⟨p, c, hc, hwins⟩

/-- Where neither family is wanted a link is picked, though no link serves a wanted family. -/
theorem nothing_wanted_is_picked :
    tier false 3 (link false) = some unplugged.tierBase ∧
      rankCandidates [unplugged] false false reads = .ok (some 3) ∧
      ∀ ds, List.Forall₂ (Completes reads) [unplugged] ds → ∀ d ∈ ds,
        (families false false).any (fun (f, wanted) => wanted && d.serves f) = false := by
  exact ⟨by decide, rfl, fun ds _ d _ => rfl⟩

end Interfaces
end Hick
