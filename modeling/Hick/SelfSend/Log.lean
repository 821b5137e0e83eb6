import Hick.Lib.Passage
import Hick.Lib.Runs
import Hick.SelfSend.Tracker

/-!
# What the log keeps (hick-udp/src/selfsend.rs:1043-1819)

Losing a live credit would make the host read its own echo as a peer's.
-/

namespace Hick
open Octets Runs

inductive LogCall where
  | record (family : Family) (body : Bytes) (sent : ClockPair) (sweepNow : StdInstant)
    (clock : Nat → StdInstant)
  | seal_ (sweepNow openedAt : StdInstant)
  | openWindowAt (openedAt : StdInstant)
  | supersede
  | claim (family : Family) (body : Bytes) (rx : Option SystemTime) (clock : Nat → ClockPair)

def LogCall.apply (grain : Duration) (t : SelfSendTracker) : LogCall → SelfSendTracker
  | .record family body sent sweepNow clock => t.recordBy family body sent sweepNow clock
  | .seal_ sweepNow openedAt => t.seal_ sweepNow openedAt
  | .openWindowAt openedAt => t.openWindowAt openedAt
  | .supersede => t.supersede
  | .claim family body rx clock => (t.claimBy grain family body rx clock).1

def selfSendLog (grain : Duration) : Machine SelfSendTracker LogCall where
  start t := t = .new
  admits _ _ := True
  next t call := call.apply grain t

namespace SelfSendTracker

def deadFronts (clock : Nat → StdInstant) : Nat → List Credit → Nat
  | k, front :: rest =>
    if stillLive (clock k) front.agedFrom then 0 else deadFronts clock (k + 1) rest + 1
  | _, [] => 0

def Room (entries : List Credit) (len : Nat) : Prop :=
  entries.length < maxSelfSendEntries ∧ bodyBytes entries + len ≤ maxSelfSendBytes

theorem bodyBytes_append (xs ys : List Credit) :
    bodyBytes (xs ++ ys) = bodyBytes xs + bodyBytes ys := by
  simp only [bodyBytes, List.map_append, List.sum_append]

theorem bodyBytes_take_add_drop (n : Nat) (xs : List Credit) :
    bodyBytes (xs.take n) + bodyBytes (xs.drop n) = bodyBytes xs := by
  rw [← bodyBytes_append, List.take_append_drop]

theorem deadFronts_dead (clock : Nat → StdInstant) (k : Nat) (xs : List Credit) (i : Nat)
    (hi : i < deadFronts clock k xs) (c : Credit) (hc : xs[i]? = some c) :
    stillLive (clock (k + i)) c.agedFrom = false := by
  induction xs generalizing k i with
  | nil => simp at hc
  | cons front rest ih =>
    rw [deadFronts] at hi
    split at hi
    · omega
    · rename_i hdead
      cases i with
      | zero =>
        simp only [List.getElem?_cons_zero, Option.some.injEq] at hc
        subst hc
        simpa using hdead
      | succ i =>
        have hrest := ih (k + 1) i (by omega) (by simpa using hc)
        rwa [Nat.add_right_comm] at hrest

theorem admitLoop_spec (t : SelfSendTracker) (clock : Nat → StdInstant) (len k freed : Nat)
    (rest : List Credit) :
    match t.admitLoop clock len k freed rest with
    | some (reclaimable, freed') => ∃ n, n ≤ deadFronts clock k rest ∧ reclaimable = k + n ∧
        freed' = freed + bodyBytes (rest.take n) ∧ t.fits reclaimable freed' len = true
    | none => t.fits (k + deadFronts clock k rest)
        (freed + bodyBytes (rest.take (deadFronts clock k rest))) len = false := by
  induction rest generalizing k freed with
  | nil =>
    rw [admitLoop]
    by_cases hfits : t.fits k freed len = true
    · rw [if_pos hfits]
      exact ⟨0, Nat.zero_le _, rfl, rfl, hfits⟩
    · rw [if_neg hfits]
      simpa [deadFronts, bodyBytes] using hfits
  | cons front rest ih =>
    rw [admitLoop]
    by_cases hfits : t.fits k freed len = true
    · rw [if_pos hfits]
      exact ⟨0, Nat.zero_le _, rfl, rfl, hfits⟩
    · rw [if_neg hfits]
      by_cases hlive : stillLive (clock k) front.agedFrom = true
      · simp only [if_pos hlive, deadFronts]
        simpa [bodyBytes] using hfits
      · have hrest := ih (k + 1) (freed + front.body.length)
        have hdead : deadFronts clock k (front :: rest) = deadFronts clock (k + 1) rest + 1 := by
          rw [deadFronts, if_neg hlive]
        rw [if_neg hlive, hdead]
        revert hrest
        cases admitLoop t clock len (k + 1) (freed + front.body.length) rest with
        | none =>
          intro hrest
          have hbytes (n : Nat) : bodyBytes ((front :: rest).take (n + 1))
              = front.body.length + bodyBytes (rest.take n) := by simp [bodyBytes]
          simpa only [hbytes, Nat.add_assoc, Nat.add_comm 1] using hrest
        | some found =>
          intro hrest
          obtain ⟨n, hn, hk, hfreed, hfits⟩ := hrest
          have hbytes : bodyBytes ((front :: rest).take (n + 1))
              = front.body.length + bodyBytes (rest.take n) := by simp [bodyBytes]
          exact ⟨n + 1, by omega, by omega, by omega, hfits⟩

def Counted (t : SelfSendTracker) : Prop := t.bytes = bodyBytes t.entries

theorem fits_iff (t : SelfSendTracker) (h : t.Counted) (n len : Nat) :
    t.fits n (bodyBytes (t.entries.take n)) len = true ↔ Room (t.entries.drop n) len := by
  have hsum := bodyBytes_take_add_drop n t.entries
  rw [Counted] at h
  simp only [fits, Room, Bool.and_eq_true, decide_eq_true_eq, List.length_drop]
  have hbytes : t.bytes - bodyBytes (t.entries.take n) = bodyBytes (t.entries.drop n) := by omega
  rw [hbytes]

def dropped (t : SelfSendTracker) (clock : Nat → StdInstant) (len : Nat) : Nat :=
  ((t.admitLoop clock len 0 0 t.entries).map Prod.fst).getD 0

theorem recordBy_eq (t : SelfSendTracker) (family : Family) (body : Bytes) (sent : ClockPair)
    (sweepNow : StdInstant) (clock : Nat → StdInstant) :
    t.recordBy family body sent sweepNow clock =
      match (t.sweptFor sweepNow body.length).admitBody clock body.length with
      | some t =>
        { t with
          bytes := t.bytes + body.length
          entries := t.entries ++ [t.creditOf family body sent] }
      | none => t.sweptFor sweepNow body.length := rfl

/-- What `record` comes to: the credit is appended behind what is left of the log when the first
dead credits are gone, as many as it takes, or it finds no room even without all of them. -/
theorem recordBy_cases (t : SelfSendTracker) (h : t.Counted) (family : Family) (body : Bytes)
    (sent : ClockPair) (sweepNow : StdInstant) (clock : Nat → StdInstant) :
    let swept := t.sweptFor sweepNow body.length
    let dead := deadFronts clock 0 swept.entries
    let n := swept.dropped clock body.length
    (n ≤ dead ∧ Room (swept.entries.drop n) body.length ∧
      t.recordBy family body sent sweepNow clock =
        { t with
          entries := swept.entries.drop n ++ [t.creditOf family body sent]
          bytes := bodyBytes (swept.entries.drop n ++ [t.creditOf family body sent]) }) ∨
    (¬ Room (swept.entries.drop dead) body.length ∧
      t.recordBy family body sent sweepNow clock = swept) := by
  intro swept dead n
  have hkept : swept.Counted ∧ swept.generation = t.generation ∧
      swept.sealGeneration = t.sealGeneration := by
    show (t.sweptFor sweepNow body.length).Counted ∧ _
    simp only [swept, sweptFor]
    split
    · exact ⟨rfl, rfl, rfl⟩
    · exact ⟨h, rfl, rfl⟩
  obtain ⟨hcount, hgen, hseal⟩ := hkept
  have hspec := swept.admitLoop_spec clock body.length 0 0 swept.entries
  have hn : n = ((swept.admitLoop clock body.length 0 0 swept.entries).map Prod.fst).getD 0 := rfl
  rw [t.recordBy_eq family body sent sweepNow clock,
    show t.sweptFor sweepNow body.length = swept from rfl, admitBody]
  revert hspec hn
  cases swept.admitLoop clock body.length 0 0 swept.entries with
  | none =>
    intro hspec _
    refine Or.inr ⟨?_, rfl⟩
    intro hroom
    have hfits := (swept.fits_iff hcount dead body.length).mpr hroom
    simp only [Nat.zero_add] at hspec
    rw [hspec] at hfits
    cases hfits
  | some found =>
    intro hspec hn
    obtain ⟨reclaimable, freed⟩ := found
    obtain ⟨m, hm, hk, hfreed, hfits⟩ := hspec
    rw [Nat.zero_add] at hk hfreed
    subst hk hfreed
    have hreclaimable : n = reclaimable := hn
    rw [hreclaimable]
    have hroom := (swept.fits_iff hcount reclaimable body.length).mp hfits
    refine Or.inl ⟨hm, hroom, ?_⟩
    have hsum := bodyBytes_take_add_drop reclaimable swept.entries
    have hbytes : swept.bytes - bodyBytes (swept.entries.take reclaimable) + body.length =
        bodyBytes (swept.entries.drop reclaimable ++ [t.creditOf family body sent]) := by
      rw [Counted] at hcount
      simp only [bodyBytes_append]
      simp only [bodyBytes, creditOf, List.map_cons, List.map_nil, List.sum_cons,
        List.sum_nil] at hsum hcount ⊢
      omega
    simp only [Option.map_some, creditOf, hgen, hseal] at hbytes ⊢
    rw [hbytes]

/-- The credit at position `i` is for these octets and stands on the reading it is weighed on:
one reading is made for each credit that matches, from the `k`-th on. -/
structure Stands (grain : Duration) (family : Family) (body : Bytes) (rx : Option SystemTime)
    (clock : Nat → ClockPair) (k : Nat) (entries : List Credit) (i : Nat) (c : Credit) : Prop where
  placed : entries[i]? = some c
  same : matches_ family body c = true
  passes : passes grain rx (clock (k + (entries.take i).countP (matches_ family body))) c = true

section
variable (grain : Duration) (family : Family) (body : Bytes) (rx : Option SystemTime)
  (generation : UInt64) (clock : Nat → ClockPair)

theorem stands_zero (k : Nat) (c : Credit) (rest : List Credit) (d : Credit) :
    Stands grain family body rx clock k (c :: rest) 0 d ↔
      d = c ∧ matches_ family body c = true ∧ SelfSendTracker.passes grain rx (clock k) c = true := by
  constructor
  · intro h
    have hd : c = d := by simpa using h.placed
    subst hd
    exact ⟨rfl, h.same, by simpa using h.passes⟩
  · rintro ⟨rfl, hsame, hpasses⟩
    exact ⟨rfl, hsame, by simpa using hpasses⟩

theorem stands_succ (k : Nat) (c : Credit) (rest : List Credit) (i : Nat) (d : Credit) :
    Stands grain family body rx clock k (c :: rest) (i + 1) d ↔
      Stands grain family body rx clock
        (k + if matches_ family body c then 1 else 0) rest i d := by
  have hcount : k + ((c :: rest).take (i + 1)).countP (matches_ family body) =
      k + (if matches_ family body c then 1 else 0)
        + (rest.take i).countP (matches_ family body) := by
    rw [List.take_succ_cons, List.countP_cons]
    omega
  constructor
  · intro h
    have hp := h.passes
    rw [hcount] at hp
    exact ⟨by simpa using h.placed, h.same, hp⟩
  · intro h
    refine ⟨by simpa using h.placed, h.same, ?_⟩
    rw [hcount]
    exact h.passes

/-- What the scan of `entries` reports: the first current credit that stands, with its mode, or
else whether any credit stood, after `superseded` so far. -/
def Reports (entries : List Credit) (pos k : Nat) (superseded : Bool) :
    Option (Nat × MatchMode) × Bool → Prop
  | (some (p, mode), _) => ∃ i c, p = pos + i ∧
      Stands grain family body rx clock k entries i c ∧ isCurrent generation c = true ∧
      mode = evidenceMode rx c.sent (clock (k + (entries.take i).countP (matches_ family body))) ∧
      ∀ j d, j < i → Stands grain family body rx clock k entries j d →
        isCurrent generation d = false
  | (none, found) =>
      (∀ j d, Stands grain family body rx clock k entries j d → isCurrent generation d = false) ∧
      (found = true ↔
        superseded = true ∨ ∃ j d, Stands grain family body rx clock k entries j d)

theorem reports_cons (c : Credit) (rest : List Credit) (pos k : Nat) (superseded superseded' : Bool)
    (res : Option (Nat × MatchMode) × Bool)
    (hhead : ∀ d, Stands grain family body rx clock k (c :: rest) 0 d →
      isCurrent generation d = false)
    (hso : superseded' = true ↔ superseded = true ∨
      ∃ d, Stands grain family body rx clock k (c :: rest) 0 d)
    (h : Reports grain family body rx generation clock rest (pos + 1)
      (k + if matches_ family body c then 1 else 0) superseded' res) :
    Reports grain family body rx generation clock (c :: rest) pos k superseded res := by
  have hsucc (j : Nat) (d : Credit) := stands_succ grain family body rx clock k c rest j d
  have hearlier (P : Nat → Prop)
      (hrest : ∀ j d, P (j + 1) → Stands grain family body rx clock
        (k + if matches_ family body c then 1 else 0) rest j d → isCurrent generation d = false)
      (j : Nat) (d : Credit) (hj : P j)
      (h : Stands grain family body rx clock k (c :: rest) j d) :
      isCurrent generation d = false := by
    cases j with
    | zero => exact hhead d h
    | succ j => exact hrest j d hj ((hsucc j d).mp h)
  rcases res with ⟨_ | ⟨p, mode⟩, found⟩
  · obtain ⟨hnone, hfound⟩ := h
    constructor
    · intro j d
      exact hearlier (fun _ => True) (fun j d _ => hnone j d) j d trivial
    · rw [hfound, hso, or_assoc]
      apply or_congr_right
      constructor
      · rintro (⟨d, h⟩ | ⟨j, d, h⟩)
        · exact ⟨0, d, h⟩
        · exact ⟨j + 1, d, (hsucc j d).mpr h⟩
      · rintro ⟨j, d, h⟩
        cases j with
        | zero => exact Or.inl ⟨d, h⟩
        | succ j => exact Or.inr ⟨j, d, (hsucc j d).mp h⟩
  · obtain ⟨i, d, hp, hstands, hd, hmode, hfirst⟩ := h
    have hcount : k + ((c :: rest).take (i + 1)).countP (matches_ family body) =
        k + (if matches_ family body c then 1 else 0)
          + (rest.take i).countP (matches_ family body) := by
      rw [List.take_succ_cons, List.countP_cons]
      omega
    refine ⟨i + 1, d, by omega, (hsucc i d).mpr hstands, hd, ?_, ?_⟩
    · rw [hcount]
      exact hmode
    · intro j e hj
      exact hearlier (fun j => j < i + 1) (fun j e hj => hfirst j e (by omega)) j e hj

theorem scanClaim_reports (entries : List Credit) (pos k : Nat) (superseded : Bool) :
    Reports grain family body rx generation clock entries pos k superseded
      (scanClaim grain family body rx generation clock entries pos k superseded) := by
  induction entries generalizing pos k superseded with
  | nil =>
    have hnone (j : Nat) (d : Credit) : ¬ Stands grain family body rx clock k [] j d := by
      intro h
      have hp := h.placed
      simp at hp
    refine ⟨fun j d h => absurd h (hnone j d), Or.inl, ?_⟩
    rintro (h | ⟨j, d, h⟩)
    · exact h
    · exact absurd h (hnone j d)
  | cons c rest ih =>
    have hzero (d : Credit) := stands_zero grain family body rx clock k c rest d
    rw [scanClaim]
    -- the head is not for these octets, does not stand, is the match, or is superseded
    by_cases hsame : matches_ family body c = true
    · by_cases hpasses : SelfSendTracker.passes grain rx (clock k) c = true
      · by_cases hcurrent : isCurrent generation c = true
        · simp only [hsame, hpasses, hcurrent, Bool.not_true, Bool.false_eq_true, if_false,
            if_true]
          refine ⟨0, c, rfl, (hzero c).mpr ⟨rfl, hsame, hpasses⟩, hcurrent, by simp, ?_⟩
          intro j d hj
          omega
        · simp only [hsame, hpasses, hcurrent, Bool.not_true, Bool.false_eq_true, if_false]
          apply reports_cons grain family body rx generation clock c rest pos k superseded true
          · intro d hd
            rw [((hzero d).mp hd).1]
            simpa using hcurrent
          · exact ⟨fun _ => Or.inr ⟨c, (hzero c).mpr ⟨rfl, hsame, hpasses⟩⟩, fun _ => rfl⟩
          · rw [if_pos hsame]
            exact ih (pos + 1) (k + 1) true
      · simp only [hsame, hpasses, Bool.not_true, Bool.false_eq_true, Bool.not_false, if_false,
          if_true]
        have hnot (d : Credit) : ¬ Stands grain family body rx clock k (c :: rest) 0 d :=
          fun h => hpasses ((hzero d).mp h).2.2
        apply reports_cons grain family body rx generation clock c rest pos k superseded superseded
        · intro d hd
          exact absurd hd (hnot d)
        · simp only [hnot, exists_false, or_false]
        · rw [if_pos hsame]
          exact ih (pos + 1) (k + 1) superseded
    · simp only [hsame, Bool.not_false, if_true]
      have hnot (d : Credit) : ¬ Stands grain family body rx clock k (c :: rest) 0 d :=
        fun h => hsame ((hzero d).mp h).2.1
      apply reports_cons grain family body rx generation clock c rest pos k superseded superseded
      · intro d hd
        exact absurd hd (hnot d)
      · simp only [hnot, exists_false, or_false]
      · rw [if_neg hsame]
        exact ih (pos + 1) k superseded

end
theorem claimBy_cases (t : SelfSendTracker) (grain : Duration) (family : Family) (body : Bytes)
    (rx : Option SystemTime) (clock : Nat → ClockPair) :
    let stands := Stands grain family body rx clock 0 t.entries
    (∃ i c, stands i c ∧ isCurrent t.generation c = true ∧
      (∀ j d, j < i → stands j d → isCurrent t.generation d = false) ∧
      t.claimBy grain family body rx clock =
        ({ t with
          entries := t.entries.eraseIdx i
          bytes := t.bytes - c.body.length },
        .fromMode (evidenceMode rx c.sent
          (clock ((t.entries.take i).countP (matches_ family body)))))) ∨
    ((∀ j d, stands j d → isCurrent t.generation d = false) ∧
      (((∃ j d, stands j d) ∧ t.claimBy grain family body rx clock = (t, .superseded)) ∨
      ((¬ ∃ j d, stands j d) ∧ t.claimBy grain family body rx clock = (t, .noCredit)))) := by
  intro stands
  have hreports := scanClaim_reports grain family body rx t.generation clock t.entries 0 0 false
  rw [claimBy]
  revert hreports
  rcases scanClaim grain family body rx t.generation clock t.entries 0 0 false
    with ⟨_ | ⟨p, mode⟩, found⟩
  · rintro ⟨hnone, hfound⟩
    have hfound' : found = true ↔ ∃ j d, stands j d := by simpa using hfound
    refine Or.inr ⟨hnone, ?_⟩
    cases found with
    | true => exact Or.inl ⟨hfound'.mp rfl, rfl⟩
    | false => exact Or.inr ⟨fun h => absurd (hfound'.mpr h) (by decide), rfl⟩
  · rintro ⟨i, c, hp, hstands, hcurrent, hmode, hfirst⟩
    rw [Nat.zero_add] at hp hmode
    subst hp hmode
    refine Or.inl ⟨p, c, hstands, hcurrent, hfirst, ?_⟩
    have hplaced := hstands.placed
    simp only [hplaced, Option.map_some, Option.getD_some]

/-- Why a credit may leave: `record` and `seal` drop what is dead on a reading they make of it,
and `claim` takes a credit of its own tier, its own family and its own octets. -/
def LeavesBy (grain : Duration) (t : SelfSendTracker) (c : Credit) : LogCall → Prop
  | .record _ body _ sweepNow clock =>
      ((maxSelfSendEntries ≤ t.entries.length ∨ maxSelfSendBytes < t.bytes + body.length) ∧
        stillLive sweepNow c.agedFrom = false) ∨
      ∃ i, i < (t.sweptFor sweepNow body.length).dropped clock body.length ∧
        stillLive (clock i) c.agedFrom = false
  | .seal_ sweepNow _ => stillLive sweepNow c.agedFrom = false
  | .openWindowAt _ | .supersede => False
  | .claim family body rx clock =>
      (t.claimBy grain family body rx clock).2.isClaim = true ∧ c.family = family ∧
      c.body = body ∧ isCurrent t.generation c = true ∧
      ∃ k, SelfSendTracker.passes grain rx (clock k) c = true

def TurnsBy (c d : Credit) : LogCall → Prop
  | .seal_ _ openedAt | .openWindowAt openedAt => d = anchored openedAt c
  | .record .. | .supersede | .claim .. => d = c

theorem sweptFor_passes (t : SelfSendTracker) (sweepNow : StdInstant) (len : Nat) :
    Passage (fun c => (maxSelfSendEntries ≤ t.entries.length ∨
      maxSelfSendBytes < t.bytes + len) ∧ stillLive sweepNow c.agedFrom = false) Eq
      t.entries (t.sweptFor sweepNow len).entries := by
  simp only [sweptFor, Bool.or_eq_true, decide_eq_true_eq]
  by_cases hcap : maxSelfSendEntries ≤ t.entries.length ∨ maxSelfSendBytes < t.bytes + len
  · rw [if_pos hcap]
    exact .filter _ t.entries fun c _ hdead => ⟨hcap, hdead⟩
  · rw [if_neg hcap]
    exact .refl t.entries

theorem recordBy_passes (t : SelfSendTracker) (h : t.Counted) (family : Family) (body : Bytes)
    (sent : ClockPair) (sweepNow : StdInstant) (clock : Nat → StdInstant) :
    ∃ kept, Passage (fun c => t.LeavesBy 0 c (.record family body sent sweepNow clock)) Eq
        t.entries kept ∧
      ((t.recordBy family body sent sweepNow clock).entries = kept ∨
      (t.recordBy family body sent sweepNow clock).entries =
        kept ++ [t.creditOf family body sent]) := by
  have hswept : Passage (fun c => t.LeavesBy 0 c (.record family body sent sweepNow clock)) Eq
      t.entries (t.sweptFor sweepNow body.length).entries :=
    (t.sweptFor_passes sweepNow body.length).mono (fun c hc => Or.inl hc) fun _ _ => id
  rcases t.recordBy_cases h family body sent sweepNow clock with ⟨hn, -, heq⟩ | ⟨-, heq⟩
  · refine ⟨_, hswept.after (.drop _ _ ?_), Or.inr (congrArg entries heq)⟩
    intro c hc
    obtain ⟨i, hi, hget⟩ := List.getElem_of_mem hc
    have hlt := hi
    rw [List.length_take] at hlt
    rw [List.getElem_take] at hget
    have hdead := deadFronts_dead clock 0 (t.sweptFor sweepNow body.length).entries i (by omega) c
      (by rw [List.getElem?_eq_getElem (by omega), hget])
    rw [Nat.zero_add] at hdead
    exact Or.inr ⟨i, by omega, hdead⟩
  · exact ⟨_, hswept, Or.inl (congrArg entries heq)⟩

theorem apply_passes (grain : Duration) (t : SelfSendTracker) (h : t.Counted) (call : LogCall) :
    ∃ kept added, (call.apply grain t).entries = kept ++ added ∧
      Passage (fun c => t.LeavesBy grain c call) (fun c d => TurnsBy c d call) t.entries kept ∧
      (added = [] ∨ ∃ family body sent sweepNow clock,
        call = .record family body sent sweepNow clock ∧
        added = [t.creditOf family body sent]) := by
  cases call with
  | record family body sent sweepNow clock =>
    obtain ⟨kept, hpass, hpost⟩ := t.recordBy_passes h family body sent sweepNow clock
    have hpass' : Passage (fun c => t.LeavesBy grain c (.record family body sent sweepNow clock))
        (fun c d => TurnsBy c d (.record family body sent sweepNow clock)) t.entries kept :=
      hpass.mono (fun _ => id) fun _ _ => Eq.symm
    rcases hpost with hpost | hpost
    · exact ⟨kept, [], by rw [List.append_nil]; exact hpost, hpass', Or.inl rfl⟩
    · exact ⟨kept, _, hpost, hpass', Or.inr ⟨family, body, sent, sweepNow, clock, rfl, rfl⟩⟩
  | seal_ sweepNow openedAt =>
    have hsweep : Passage (fun c => t.LeavesBy grain c (.seal_ sweepNow openedAt)) Eq t.entries
        (t.reclaimExpiredSealed sweepNow).entries := .filter _ t.entries fun c _ hdead => hdead
    have hopen : Passage (fun c => t.LeavesBy grain c (.seal_ sweepNow openedAt))
        (fun c d => TurnsBy c d (.seal_ sweepNow openedAt))
        (t.reclaimExpiredSealed sweepNow).entries (t.seal_ sweepNow openedAt).entries :=
      .map (anchored openedAt) _ fun _ _ => rfl
    exact ⟨_, [], (List.append_nil _).symm, hsweep.after hopen, Or.inl rfl⟩
  | openWindowAt openedAt =>
    exact ⟨_, [], (List.append_nil _).symm, .map (anchored openedAt) _ fun _ _ => rfl,
      Or.inl rfl⟩
  | supersede =>
    refine ⟨t.entries, [], (List.append_nil _).symm, ?_, Or.inl rfl⟩
    exact (Passage.refl t.entries).mono (fun _ => id) fun _ _ => Eq.symm
  | claim family body rx clock =>
    rcases t.claimBy_cases grain family body rx clock with
      ⟨i, c, hstands, hcurrent, -, heq⟩ | ⟨-, ⟨-, heq⟩ | ⟨-, heq⟩⟩
    · refine ⟨t.entries.eraseIdx i, [], ?_, ?_, Or.inl rfl⟩
      · rw [List.append_nil]
        exact congrArg (fun r => r.1.entries) heq
      · refine (Passage.eraseIdx i t.entries ?_).mono (fun _ => id) fun _ _ => Eq.symm
        intro d hd
        rw [hstands.placed] at hd
        obtain rfl := Option.some.inj hd
        have hsame := hstands.same
        simp only [matches_, Bool.and_eq_true, beq_iff_eq] at hsame
        refine ⟨?_, hsame.1, hsame.2, hcurrent, _, hstands.passes⟩
        rw [heq]
        cases evidenceMode rx c.sent _ <;> rfl
    all_goals
      refine ⟨t.entries, [], ?_, ?_, Or.inl rfl⟩
      · rw [List.append_nil]
        exact congrArg (fun r => r.1.entries) heq
      · exact (Passage.refl t.entries).mono (fun _ => id) fun _ _ => Eq.symm

end SelfSendTracker
end Hick
