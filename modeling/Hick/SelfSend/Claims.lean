import Hick.Lib.Edits
import Hick.SelfSend.Expiry

/-!
# Take-once claims (hick-udp/src/selfsend.rs:1774-2018)

A credit answers one echo. Which credit a claim takes, and whether it finds one, is settled by the
credits of its family and octets alone.
-/

namespace Hick
open Octets Runs Edits
namespace SelfSendTracker

theorem advance_diff (x y : Int) (tolerance e : Nat) :
    (if x ≤ y then tolerance < (y - x).toNat - e + (e - (y - x).toNat)
      else tolerance < (x - y).toNat + e) ↔ (tolerance : Int) < |y - x - (e : Int)| := by
  rw [lt_abs]
  split <;> omega

theorem behind_le (x r : Int) (grain : Nat) (h : ¬ x ≤ r) :
    (x - r).toNat ≤ grain ↔ x - (grain : Int) ≤ r := by
  omega

theorem wallStepped_iff (sent now : ClockPair) :
    wallStepped sent now = true ↔
      (wallStepTolerance : Int) < |now.wall - sent.wall - ((now.mono - sent.mono : Nat) : Int)| := by
  have hdiff := advance_diff sent.wall now.wall wallStepTolerance (now.mono - sent.mono)
  rw [← hdiff, wallStepped]
  split
  · exact decide_eq_true_iff
  · exact decide_eq_true_iff

theorem passes_iff (grain : Duration) (rx : Option SystemTime) (now : ClockPair) (c : Credit) :
    passes grain rx now c = true ↔ stillLive now.mono c.agedFrom = true ∧
      (rx = none ∨ wallStepped c.sent now = true ∨ ∃ r, rx = some r ∧ c.sent.wall - grain ≤ r) := by
  rw [passes, Bool.and_eq_true]
  apply and_congr_right
  intro _
  cases rx with
  | none => simp [evidenceMode, referenceOrdered]
  | some r =>
    cases hstep : wallStepped c.sent now with
    | true => simp [evidenceMode, referenceOrdered, hstep]
    | false =>
      simp only [evidenceMode, hstep, referenceOrdered, Bool.false_eq_true, if_false,
        reduceCtorEq, Option.some.injEq, exists_eq_left', false_or]
      split
      · rename_i hle
        have hgrain : c.sent.wall - (grain : Int) ≤ r :=
          le_trans (Int.sub_le_self _ (Int.natCast_nonneg _)) hle
        simp only [hgrain]
      · rename_i hle
        exact decide_eq_true_iff.trans (behind_le c.sent.wall r grain hle)

theorem isCurrent_eq_false (generation : UInt64) (c : Credit) :
    isCurrent generation c = false ↔ c.generation ≠ generation ∧ c.cls = .assertion := by
  cases hc : c.cls <;> simp [isCurrent, hc]

theorem fromMode_isClaim (mode : MatchMode) : (SelfSendMatch.fromMode mode).isClaim = true := by
  cases mode <;> rfl

theorem fromMode_ne (mode : MatchMode) : SelfSendMatch.fromMode mode ≠ .superseded ∧
    SelfSendMatch.fromMode mode ≠ .noCredit := by
  cases mode <;> simp [SelfSendMatch.fromMode]

section
variable (t : SelfSendTracker) (grain : Duration) (family : Family) (body : Bytes)
  (rx : Option SystemTime) (clock : Nat → ClockPair)

theorem claimBy_isClaim_iff :
    (t.claimBy grain family body rx clock).2.isClaim = true ↔
      ∃ i c, Stands grain family body rx clock 0 t.entries i c ∧
        isCurrent t.generation c = true := by
  rcases t.claimBy_cases grain family body rx clock with
    ⟨i, c, hstands, hcurrent, -, heq⟩ | ⟨hnone, hanswer⟩
  · rw [heq]
    exact ⟨fun _ => ⟨i, c, hstands, hcurrent⟩, fun _ => fromMode_isClaim _⟩
  · have hfalse : (t.claimBy grain family body rx clock).2.isClaim = false := by
      rcases hanswer with ⟨-, heq⟩ | ⟨-, heq⟩ <;> (rw [heq]; rfl)
    rw [hfalse]
    constructor
    · intro h
      cases h
    · rintro ⟨i, c, hstands, hcurrent⟩
      rw [hnone i c hstands] at hcurrent
      cases hcurrent

theorem claimBy_superseded_iff :
    (t.claimBy grain family body rx clock).2 = .superseded ↔
      (∃ i c, Stands grain family body rx clock 0 t.entries i c) ∧
      ∀ i c, Stands grain family body rx clock 0 t.entries i c →
        c.generation ≠ t.generation ∧ c.cls = .assertion := by
  simp only [← isCurrent_eq_false]
  rcases t.claimBy_cases grain family body rx clock with
    ⟨i, c, hstands, hcurrent, -, heq⟩ | ⟨hnone, ⟨hsome, heq⟩ | ⟨hsome, heq⟩⟩
  · rw [heq]
    constructor
    · intro h
      exact absurd h (fromMode_ne _).1
    · rintro ⟨-, hall⟩
      rw [hall i c hstands] at hcurrent
      cases hcurrent
  · rw [heq]
    exact ⟨fun _ => ⟨hsome, hnone⟩, fun _ => rfl⟩
  · rw [heq]
    constructor
    · intro h
      cases h
    · intro h
      exact absurd h.1 hsome

theorem claimBy_noCredit_iff :
    (t.claimBy grain family body rx clock).2 = .noCredit ↔
      ¬ ∃ i c, Stands grain family body rx clock 0 t.entries i c := by
  rcases t.claimBy_cases grain family body rx clock with
    ⟨i, c, hstands, -, -, heq⟩ | ⟨-, ⟨hsome, heq⟩ | ⟨hsome, heq⟩⟩
  · rw [heq]
    constructor
    · intro h
      exact absurd h (fromMode_ne _).2
    · intro h
      exact absurd ⟨i, c, hstands⟩ h
  · rw [heq]
    constructor
    · intro h
      cases h
    · intro h
      exact absurd hsome h
  · rw [heq]
    exact ⟨fun _ => hsome, fun _ => rfl⟩

theorem claimBy_takes_first (i : Nat) (c : Credit)
    (hstands : Stands grain family body rx clock 0 t.entries i c)
    (hcurrent : isCurrent t.generation c = true)
    (hfirst : ∀ j d, j < i → Stands grain family body rx clock 0 t.entries j d →
      isCurrent t.generation d = false) :
    t.claimBy grain family body rx clock =
      ({ t with
        entries := t.entries.eraseIdx i
        bytes := t.bytes - c.body.length },
      .fromMode (evidenceMode rx c.sent
        (clock ((t.entries.take i).countP (matches_ family body))))) := by
  rcases t.claimBy_cases grain family body rx clock with
    ⟨j, d, hstands', hcurrent', hfirst', heq⟩ | ⟨hnone, -⟩
  · rcases Nat.lt_trichotomy i j with hlt | rfl | hlt
    · rw [hfirst' i c hlt hstands] at hcurrent
      cases hcurrent
    · have hplaced := hstands.placed
      rw [hstands'.placed] at hplaced
      obtain rfl := Option.some.inj hplaced
      exact heq
    · rw [hfirst j d hlt hstands'] at hcurrent'
      cases hcurrent'
  · rw [hnone i c hstands] at hcurrent
    cases hcurrent

theorem claimBy_consumes_nothing
    (h : (t.claimBy grain family body rx clock).2.isClaim = false) :
    (t.claimBy grain family body rx clock).1 = t := by
  rcases t.claimBy_cases grain family body rx clock with
    ⟨i, c, -, -, -, heq⟩ | ⟨-, ⟨-, heq⟩ | ⟨-, heq⟩⟩
  · rw [heq, fromMode_isClaim] at h
    cases h
  · rw [heq]
  · rw [heq]

theorem scanClaim_filter (generation : UInt64) (entries : List Credit) (pos pos' k : Nat)
    (superseded : Bool) :
    ((scanClaim grain family body rx generation clock entries pos k superseded).1.map Prod.snd,
      (scanClaim grain family body rx generation clock entries pos k superseded).2) =
    ((scanClaim grain family body rx generation clock (entries.filter (matches_ family body)) pos' k
        superseded).1.map Prod.snd,
      (scanClaim grain family body rx generation clock (entries.filter (matches_ family body)) pos' k
        superseded).2) := by
  induction entries generalizing pos pos' k superseded with
  | nil => rfl
  | cons c rest ih =>
    by_cases hsame : matches_ family body c = true
    · rw [List.filter_cons_of_pos hsame, scanClaim, scanClaim]
      simp only [hsame, Bool.not_true, Bool.false_eq_true, if_false]
      split
      · exact ih (pos + 1) (pos' + 1) (k + 1) superseded
      · split
        · rfl
        · exact ih (pos + 1) (pos' + 1) (k + 1) true
    · rw [List.filter_cons_of_neg hsame, scanClaim]
      simp only [hsame, Bool.not_false, if_true]
      exact ih (pos + 1) pos' k superseded

theorem claimBy_answer_congr (u : SelfSendTracker) (hgen : u.generation = t.generation)
    (h : u.entries.filter (matches_ family body) = t.entries.filter (matches_ family body)) :
    (u.claimBy grain family body rx clock).2 = (t.claimBy grain family body rx clock).2 := by
  have hanswer (v : SelfSendTracker) : (v.claimBy grain family body rx clock).2 =
      match ((scanClaim grain family body rx v.generation clock v.entries 0 0 false).1.map Prod.snd,
        (scanClaim grain family body rx v.generation clock v.entries 0 0 false).2) with
      | (some mode, _) => .fromMode mode
      | (none, true) => .superseded
      | (none, false) => .noCredit := by
    rw [claimBy]
    rcases scanClaim grain family body rx v.generation clock v.entries 0 0 false with
      ⟨_ | ⟨p, mode⟩, _ | _⟩ <;> rfl
  rw [hanswer u, hanswer t, scanClaim_filter _ _ _ _ _ _ u.entries 0 0,
    scanClaim_filter _ _ _ _ _ _ t.entries 0 0, h, hgen]

theorem claimBy_other_family (other : Family) (body' : Bytes) (h : other ≠ family) :
    (t.claimBy grain family body rx clock).1.generation = t.generation ∧
    (t.claimBy grain family body rx clock).1.entries.filter (matches_ other body') =
      t.entries.filter (matches_ other body') := by
  rcases t.claimBy_cases grain family body rx clock with
    ⟨i, c, hstands, -, -, heq⟩ | ⟨-, ⟨-, heq⟩ | ⟨-, heq⟩⟩
  · rw [heq]
    refine ⟨rfl, filter_eraseIdx _ _ _ ?_⟩
    intro d hd
    rw [hstands.placed] at hd
    obtain rfl := Option.some.inj hd
    have hsame := hstands.same
    simp only [matches_, Bool.and_eq_true, beq_iff_eq] at hsame
    simp [matches_, hsame.1, Ne.symm h]
  · rw [heq]
    exact ⟨rfl, rfl⟩
  · rw [heq]
    exact ⟨rfl, rfl⟩

theorem claimBy_after_other (other : Family) (body' : Bytes) (rx' : Option SystemTime)
    (clock' : Nat → ClockPair) (h : other ≠ family) :
    ((t.claimBy grain family body rx clock).1.claimBy grain other body' rx' clock').2 =
      (t.claimBy grain other body' rx' clock').2 := by
  obtain ⟨hgen, hsame⟩ := t.claimBy_other_family grain family body rx clock other body' h
  exact t.claimBy_answer_congr grain other body' rx' clock' _ hgen hsame

end

def copies (family : Family) (body : Bytes) (entries : List Credit) : Nat :=
  entries.countP (matches_ family body)

def isSend (family : Family) (body : Bytes) (tr : Transition SelfSendTracker LogCall) : Bool :=
  match tr.call with
  | .record f b _ _ _ => f == family && b == body
  | .seal_ .. | .openWindowAt _ | .supersede | .claim .. => false

def isTaken (grain : Duration) (family : Family) (body : Bytes)
    (tr : Transition SelfSendTracker LogCall) : Bool :=
  match tr.call with
  | .claim f b rx clock =>
    f == family && b == body && (tr.pre.claimBy grain f b rx clock).2.isClaim
  | .record .. | .seal_ .. | .openWindowAt _ | .supersede => false

theorem matches_iff (family : Family) (body : Bytes) (c : Credit) :
    matches_ family body c = true ↔ c.family = family ∧ c.body = body := by
  simp [matches_]

theorem copies_step (grain : Duration) (t : SelfSendTracker) (h : t.Counted) (call : LogCall)
    (family : Family) (body : Bytes) :
    copies family body (call.apply grain t).entries +
        (if isTaken grain family body ((selfSendLog grain).transition t call) then 1 else 0) ≤
      copies family body t.entries +
        (if isSend family body ((selfSendLog grain).transition t call) then 1 else 0) := by
  obtain ⟨kept, added, heq, hpass, hadded⟩ := t.apply_passes grain h call
  have hle : copies family body kept ≤ copies family body t.entries := by
    apply hpass.countP_le
    intro c d hcd hd
    rw [turnsBy_same c d call hcd] at hd
    exact hd
  rw [heq, copies, List.countP_append, ← copies, ← copies]
  rcases hadded with rfl | ⟨f, b, sent, sweepNow, clock, rfl, rfl⟩
  · have hnil : copies family body [] = 0 := rfl
    rw [hnil]
    by_cases htaken : isTaken grain family body ((selfSendLog grain).transition t call) = true
    · cases call with
      | claim f b rx clock =>
        simp only [isTaken, Machine.transition, Bool.and_eq_true, beq_iff_eq] at htaken
        obtain ⟨⟨rfl, rfl⟩, hclaim⟩ := htaken
        rcases t.claimBy_cases grain f b rx clock with
          ⟨i, c, hstands, hcurrent, hfirst, hresult⟩ | ⟨-, hresult⟩
        · have hkept : kept = t.entries.eraseIdx i := by
            rw [List.append_nil] at heq
            rw [← heq]
            exact congrArg (fun r => r.1.entries) hresult
          have hcount := countP_eraseIdx (matches_ f b) t.entries i c hstands.placed hstands.same
          rw [hkept, copies, copies]
          split <;> omega
        · rcases hresult with ⟨-, hresult⟩ | ⟨-, hresult⟩ <;>
            (rw [hresult] at hclaim; cases hclaim)
      | record _ _ _ _ _ => cases htaken
      | seal_ _ _ => cases htaken
      | openWindowAt _ => cases htaken
      | supersede => cases htaken
    · rw [if_neg htaken]
      omega
  · have hone : copies family body [t.creditOf f b sent] =
        if isSend family body
          ((selfSendLog grain).transition t (.record f b sent sweepNow clock)) then 1 else 0 := by
      rw [copies, List.countP_singleton]
      rfl
    have hnot : isTaken grain family body
        ((selfSendLog grain).transition t (.record f b sent sweepNow clock)) = false := rfl
    rw [hone, hnot]
    simp only [Bool.false_eq_true, if_false]
    omega

theorem claims_le_sends (grain : Duration) (family : Family) (body : Bytes)
    (ts : List (Transition SelfSendTracker LogCall)) (t : SelfSendTracker)
    (run : Run (selfSendLog grain) ts t) :
    ts.countP (isTaken grain family body) + copies family body t.entries ≤
      ts.countP (isSend family body) := by
  induction run with
  | start s h =>
    obtain rfl := h
    exact Nat.zero_le _
  | step ts s call run _ ih =>
    have hkept := (aged_run grain ts s run).kept
    have hstep := copies_step grain s hkept.counted call family body
    rw [List.countP_append, List.countP_append, List.countP_singleton, List.countP_singleton]
    show _ + _ + copies family body (call.apply grain s).entries ≤ _
    omega

theorem claimBy_of_mem (t : SelfSendTracker) (grain : Duration) (family : Family) (body : Bytes)
    (rx : Option SystemTime) (clock : Nat → ClockPair) (c : Credit) (hc : c ∈ t.entries)
    (hsame : c.family = family ∧ c.body = body) (hcurrent : isCurrent t.generation c = true)
    (hpasses : ∀ k, passes grain rx (clock k) c = true) :
    (t.claimBy grain family body rx clock).2.isClaim = true := by
  obtain ⟨i, hi, hget⟩ := List.getElem_of_mem hc
  rw [claimBy_isClaim_iff]
  refine ⟨i, c, ⟨?_, (matches_iff family body c).mpr hsame, hpasses _⟩, hcurrent⟩
  rw [List.getElem?_eq_getElem hi, hget]

theorem recordBy_keeps (t : SelfSendTracker) (h : t.Counted) (family : Family) (body : Bytes)
    (sent : ClockPair) (sweepNow : StdInstant) (clock : Nat → StdInstant) (c : Credit)
    (hc : c ∈ t.entries) (hopen : c.agedFrom = none) :
    c ∈ (t.recordBy family body sent sweepNow clock).entries := by
  obtain ⟨kept, hpass, hpost⟩ := t.recordBy_passes h family body sent sweepNow clock
  have hlive (now : StdInstant) : stillLive now c.agedFrom = true := by
    rw [hopen]
    rfl
  obtain ⟨d, hd, rfl⟩ := hpass.stays c hc (by
    rintro (⟨-, hdead⟩ | ⟨i, -, hdead⟩)
    · rw [hlive] at hdead
      cases hdead
    · rw [hlive] at hdead
      cases hdead)
  rcases hpost with hpost | hpost
  · rwa [hpost]
  · rw [hpost]
    exact List.mem_append_left _ hd

theorem recordBy_generation (t : SelfSendTracker) (h : t.Counted) (family : Family) (body : Bytes)
    (sent : ClockPair) (sweepNow : StdInstant) (clock : Nat → StdInstant) :
    (t.recordBy family body sent sweepNow clock).generation = t.generation := by
  rcases t.recordBy_cases h family body sent sweepNow clock with ⟨-, -, heq⟩ | ⟨-, heq⟩
  · rw [heq]
  · rw [heq, sweptFor]
    split <;> rfl

theorem both_claimed (t : SelfSendTracker) (grain : Duration) (body : Bytes) (f g : Family)
    (hfg : f ≠ g) (rx rx' : Option SystemTime) (clock clock' : Nat → ClockPair) (c d : Credit)
    (hc : c ∈ t.entries) (hd : d ∈ t.entries) (hcf : c.family = f ∧ c.body = body)
    (hdg : d.family = g ∧ d.body = body) (hcurrent : isCurrent t.generation c = true)
    (hcurrent' : isCurrent t.generation d = true)
    (hpasses : ∀ k, passes grain rx (clock k) c = true)
    (hpasses' : ∀ k, passes grain rx' (clock' k) d = true) :
    (t.claimBy grain f body rx clock).2.isClaim = true ∧
      ((t.claimBy grain f body rx clock).1.claimBy grain g body rx' clock').2.isClaim = true := by
  constructor
  · exact t.claimBy_of_mem grain f body rx clock c hc hcf hcurrent hpasses
  · rw [t.claimBy_after_other grain f body rx clock g body rx' clock' (Ne.symm hfg)]
    exact t.claimBy_of_mem grain g body rx' clock' d hd hdg hcurrent' hpasses'

/-- Over every interleaving of sends, seals, supersedes and claims: a claim takes a recorded send at
most once, and it takes the first credit of its family and octets that is of the current tier, live,
and not later than the receive stamp allows. -/
theorem self_send_claims (grain : Duration) (ts : List (Transition SelfSendTracker LogCall))
    (t : SelfSendTracker) (run : Run (selfSendLog grain) ts t) :
    (∀ family body, ts.countP (isTaken grain family body) ≤ ts.countP (isSend family body)) ∧
    (∀ rx now c, passes grain rx now c = true ↔ stillLive now.mono c.agedFrom = true ∧
      (rx = none ∨
        (wallStepTolerance : Int) <
          |now.wall - c.sent.wall - ((now.mono - c.sent.mono : Nat) : Int)| ∨
        ∃ r, rx = some r ∧ c.sent.wall - grain ≤ r)) ∧
    (∀ family body rx clock,
      let stands := Stands grain family body rx clock 0 t.entries
      let current := fun c : Credit => c.generation = t.generation ∨ c.cls = .question
      let claimed := t.claimBy grain family body rx clock
      (claimed.2.isClaim = true ↔ ∃ i c, stands i c ∧ current c) ∧
      (∀ i c, stands i c → current c → (∀ j d, j < i → stands j d → ¬ current d) →
        claimed.1 = { t with
          entries := t.entries.eraseIdx i
          bytes := t.bytes - c.body.length }) ∧
      (claimed.2 = .superseded ↔ (∃ i c, stands i c) ∧
        ∀ i c, stands i c → c.generation ≠ t.generation ∧ c.cls = .assertion) ∧
      (claimed.2.isClaim = false → claimed.1 = t) ∧
      (SelfSendClass.of body = .question → claimed.2 ≠ .superseded) ∧
      ∀ i c, t.entries[i]? = some c → matches_ family body c = true →
        stillLive (clock ((t.entries.take i).countP (matches_ family body))).mono c.agedFrom =
          true →
        wallStepped c.sent (clock ((t.entries.take i).countP (matches_ family body))) = true →
        claimed.2 ≠ .noCredit) ∧
    (∀ body sent sent' sweepNow sweepNow' sweep sweep',
      let once := t.recordBy .v4 body sent sweepNow sweep
      let twice := once.recordBy .v6 body sent' sweepNow' sweep'
      let c := t.creditOf .v4 body sent
      let d := once.creditOf .v6 body sent'
      c ∈ once.entries → d ∈ twice.entries → ∀ rx rx' clock clock',
      (∀ k, passes grain rx (clock k) c = true) → (∀ k, passes grain rx' (clock' k) d = true) →
      ((twice.claimBy grain .v4 body rx clock).2.isClaim = true ∧
        ((twice.claimBy grain .v4 body rx clock).1.claimBy grain .v6 body rx' clock').2.isClaim =
          true) ∧
      (twice.claimBy grain .v6 body rx' clock').2.isClaim = true ∧
        ((twice.claimBy grain .v6 body rx' clock').1.claimBy grain .v4 body rx clock).2.isClaim =
          true) := by
  have hkept := (aged_run grain ts t run).kept
  have hcurrent (c : Credit) : isCurrent t.generation c = true ↔
      c.generation = t.generation ∨ c.cls = .question := by
    simp [isCurrent]
  refine ⟨?_, ?_, ?_, ?_⟩
  · intro family body
    exact le_trans (Nat.le_add_right _ _) (claims_le_sends grain family body ts t run)
  · intro rx now c
    rw [passes_iff, wallStepped_iff]
  · intro family body rx clock stands current claimed
    refine ⟨?_, ?_, t.claimBy_superseded_iff grain family body rx clock,
      t.claimBy_consumes_nothing grain family body rx clock, ?_, ?_⟩
    · simp only [claimed, claimBy_isClaim_iff, hcurrent, stands, current]
    · intro i c hstands hc hfirst
      have htakes := t.claimBy_takes_first grain family body rx clock i c hstands
        ((hcurrent c).mpr hc) (fun j d hj hd => by
          have hnot : ¬ isCurrent t.generation d = true :=
            fun h => hfirst j d hj hd ((hcurrent d).mp h)
          simpa using hnot)
      exact congrArg Prod.fst htakes
    · intro hquestion hsuperseded
      obtain ⟨⟨i, c, hstands⟩, hall⟩ :=
        (t.claimBy_superseded_iff grain family body rx clock).mp hsuperseded
      have hclass := hkept.classed c (List.mem_of_getElem? hstands.placed)
      rw [((matches_iff family body c).mp hstands.same).2, hquestion, (hall i c hstands).2]
        at hclass
      cases hclass
    · intro i c hplaced hsame hlive hstep hnone
      rw [claimBy_noCredit_iff] at hnone
      apply hnone
      refine ⟨i, c, hplaced, hsame, ?_⟩
      rw [Nat.zero_add, passes_iff]
      exact ⟨hlive, Or.inr (Or.inl hstep)⟩
  · intro body sent sent' sweepNow sweepNow' sweep sweep' once twice c d hc hd rx rx' clock clock'
      hpasses hpasses'
    have honce : once.Counted :=
      apply_counted grain t hkept.counted (.record .v4 body sent sweepNow sweep)
    have hgen : once.generation = t.generation :=
      t.recordBy_generation hkept.counted .v4 body sent sweepNow sweep
    have hgen' : twice.generation = once.generation :=
      once.recordBy_generation honce .v6 body sent' sweepNow' sweep'
    have hc' := once.recordBy_keeps honce .v6 body sent' sweepNow' sweep' c hc rfl
    have hcc : isCurrent twice.generation c = true := by
      simp [isCurrent, hgen', hgen, c, creditOf]
    have hdc : isCurrent twice.generation d = true := by
      simp [isCurrent, hgen', d, creditOf]
    exact ⟨twice.both_claimed grain body .v4 .v6 (by decide) rx rx' clock clock' c d hc' hd
        ⟨rfl, rfl⟩ ⟨rfl, rfl⟩ hcc hdc hpasses hpasses',
      twice.both_claimed grain body .v6 .v4 (by decide) rx' rx clock' clock d c hd hc'
        ⟨rfl, rfl⟩ ⟨rfl, rfl⟩ hdc hcc hpasses' hpasses⟩

theorem self_send_claims_windows :
    let t := (selfSendLog 0).play new (windows 5 10)
    (t.claimBy 0 .v4 [7] none fun _ => ⟨0, 20⟩).2.isClaim = true ∧
      (t.claimBy 0 .v6 [7] none fun _ => ⟨0, 20⟩).1 = t := by
  obtain ⟨-, -, hclaims, -⟩ := self_send_claims 0 _ _ (windows_run 5 10)
  obtain ⟨hclaimed, -⟩ := hclaims .v4 [7] none fun _ => ⟨0, 20⟩
  obtain ⟨-, -, -, hkept, -⟩ := hclaims .v6 [7] none fun _ => ⟨0, 20⟩
  exact ⟨hclaimed.mpr ⟨0, _, ⟨rfl, rfl, rfl⟩, .inl rfl⟩, hkept rfl⟩

/-- A step back within the tolerance still hides an echo: sent at the wall's second 1000, the
clock put back 40 ms, received 1 ms later and claimed 2 ms after the send. -/
theorem small_step_hides_the_echo :
    ¬ ∀ (sent : ClockPair) (step : Int) (atReceipt atClaim : Duration), step ≠ 0 →
      atReceipt ≤ atClaim → atClaim ≤ selfSendTtl →
      ((SelfSendTracker.new.recordBy .v4 [] sent 0 fun _ => 0).claimBy 0 .v4 []
        (some (sent.wall + atReceipt + step))
        fun _ => ⟨sent.wall + atClaim + step, sent.mono + atClaim⟩).2 ≠ .noCredit := by
  intro h
  exact h ⟨1000000000000, 0⟩ (-40000000) 1000000 2000000 (by decide) (by decide) (by decide) rfl

end SelfSendTracker
end Hick
