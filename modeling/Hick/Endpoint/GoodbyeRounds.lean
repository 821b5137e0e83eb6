import Hick.Endpoint.Goodbye
import Hick.Endpoint.Tiers
import Hick.Lib.Dwindle

/-!
# How far a pump gets at one instant (endpoint/withdrawal.rs:319-495, 732-882)

A driver asks for a goodbye and confirms it, over and over at one instant, until there is none.
-/

set_option linter.unusedSectionVars false

namespace Hick
open Octets Wire Respond Dwindle

section
variable {I : Type} [Instant I]

def Saturated (now : I) : Prop :=
  ∀ t, checkedAddDuration now withdrawalRetryBackoff = some t → t ≤ now

namespace WithdrawalItem

/-- When the item has to be pumped or completed (`next_withdrawal_deadline`, receive.rs:654-660). -/
def deadline (w : WithdrawalItem I) : I := min w.nextAt w.ceilingAt

def passed (w : WithdrawalItem I) (retained : List IpAddr) (now : I) (scratch : Bytes) :
    WithdrawalItem I :=
  match w.selected now with
  | none => w
  | some isFinal => (w.round retained now scratch isFinal).1

/-- The item owes a round that is due before its ceiling, and the round has a message. -/
structure Offers (w : WithdrawalItem I) (retained : List IpAddr) (now : I) (scratch : Bytes) :
    Prop where
  selected : w.selected now = some false
  message : (w.round retained now scratch false).2.isSome = true

def roundsLeft (w : WithdrawalItem I) (stuck : Bool) (now : I) : Nat :=
  match w.selected now with
  | none => 0
  | some true => 1
  | some false => if stuck then 0 else 1 + w.owed.v4 + w.owed.v6

variable (w : WithdrawalItem I)

theorem selected_false (now : I) :
    w.selected now = some false ↔ w.paid = false ∧ w.nextAt ≤ now ∧ now < w.ceilingAt := by
  unfold selected
  constructor
  · intro h
    split at h
    · cases h
    · rename_i hpaid
      split at h
      · rename_i hdue
        exact ⟨Bool.eq_false_iff.mpr hpaid, hdue⟩
      · split at h
        · cases h
        · cases h
  · intro h
    rw [if_neg (by rw [h.1]; exact Bool.false_ne_true), if_pos h.2]

theorem spendDebt_le (debt : Nat) (send : WithdrawalSend) : (spendDebt debt send).1 ≤ debt := by
  unfold spendDebt
  split
  · omega
  · cases send with
    | sent => exact Nat.sub_le debt 1
    | retry => exact le_refl debt
    | writeOff => exact Nat.zero_le debt

theorem spendDebt_progress (debt : Nat) (send : WithdrawalSend)
    (h : (spendDebt debt send).2 = true) : (spendDebt debt send).1 + 1 = debt := by
  unfold spendDebt at h ⊢
  split at h
  · cases h
  · rename_i hdebt
    rw [if_neg hdebt]
    cases send with
    | sent => exact Nat.succ_pred_eq_of_pos (Nat.pos_of_ne_zero hdebt)
    | retry => cases h
    | writeOff => cases h

theorem noteResult_roundsLeft (now : I) (v4 v6 : FamilyAttempt I)
    (hopen : now < w.ceilingAt)
    (t : I) (ht : checkedAddDuration now withdrawalRetryBackoff = some t) (hlt : now < t) :
    (w.noteResult now v4 v6).roundsLeft false now < 1 + w.owed.v4 + w.owed.v6 := by
  have h4 := spendDebt_le w.owed.v4 (.project v4)
  have h6 := spendDebt_le w.owed.v6 (.project v6)
  have hceiling : (w.noteResult now v4 v6).ceilingAt = w.ceilingAt := rfl
  cases hselected : (w.noteResult now v4 v6).selected now with
  | none =>
    rw [roundsLeft, hselected]
    exact Nat.lt_of_lt_of_le Nat.zero_lt_one (by omega)
  | some isFinal =>
    obtain ⟨-, hwhen⟩ := selected_some _ now isFinal hselected
    cases hwhen with
    | inr hover =>
      exfalso
      rw [hceiling] at hover
      exact absurd hover.2.1 (not_le.mpr hopen)
    | inl hdue =>
      have hprogress : (spendDebt w.owed.v4 (.project v4)).2 = true ∨
          (spendDebt w.owed.v6 (.project v6)).2 = true := by
        by_contra hnone
        rw [not_or, Bool.not_eq_true, Bool.not_eq_true] at hnone
        have hnext : (w.noteResult now v4 v6).nextAt = min t w.ceilingAt := by
          unfold noteResult
          dsimp only
          rw [hnone.1, hnone.2, Bool.or_false, if_neg Bool.false_ne_true, ht, Option.getD_some]
        rw [hnext] at hdue
        exact absurd hdue.2.1 (not_le.mpr (lt_min hlt hopen))
      have howed : (w.noteResult now v4 v6).owed =
          ⟨(spendDebt w.owed.v4 (.project v4)).1, (spendDebt w.owed.v6 (.project v6)).1⟩ := rfl
      rw [roundsLeft, hselected, hdue.1, howed]
      show 1 + (spendDebt w.owed.v4 (.project v4)).1 + (spendDebt w.owed.v6 (.project v6)).1 < _
      cases hprogress with
      | inl h =>
        have := spendDebt_progress _ _ h
        omega
      | inr h =>
        have := spendDebt_progress _ _ h
        omega

theorem selected_after_final (now : I) (v4 v6 : FamilyAttempt I)
    (hceil : w.ceilingAt ≤ now) :
    ({ w with finalAttempt := true }.noteResult now v4 v6).selected now = none := by
  cases h : ({ w with finalAttempt := true }.noteResult now v4 v6).selected now with
  | none => rfl
  | some isFinal =>
    exfalso
    obtain ⟨-, hwhen⟩ := selected_some _ now isFinal h
    cases hwhen with
    | inl hdue => exact absurd hdue.2.2 (not_lt.mpr hceil)
    | inr hover => cases hover.2.2

theorem round_message (retained : List IpAddr) (now : I) (scratch : Bytes)
    (isFinal : Bool) : (w.round retained now scratch isFinal).2 =
      if w.hasSomething retained then (writeGoodbye w.records scratch w.outstanding.ptr
        w.outstanding.srv w.outstanding.txt w.outstanding.subtypes (w.withdrawnA retained)
        (w.withdrawnAaaa retained)).toOption.map Prod.fst
      else none := by
  have heff := w.round_rounded retained now scratch isFinal
  generalize w.round retained now scratch isFinal = done at heff ⊢
  cases heff with
  | nothing h => rw [h]; rfl
  | sent msg h hmsg => rw [h, hmsg]; rfl
  | unencodable err h herr => rw [h, herr]; rfl

theorem Offers.again (retained : List IpAddr) (now : I) (scratch : Bytes)
    (h : w.Offers retained now scratch) (hsaturated : Saturated now) :
    (w.noteResult now .wouldBlock .wouldBlock).Offers retained now scratch := by
  obtain ⟨howes, hdue, hopen⟩ := (w.selected_false now).mp h.selected
  have hretry : ∀ debt, spendDebt debt .retry = (debt, false) := by
    intro debt
    unfold spendDebt
    split
    · rename_i hzero
      rw [hzero]
    · rfl
  have hnote : ∃ t ≤ now, w.noteResult now .wouldBlock .wouldBlock = { w with nextAt := t } := by
    have h4 : spendDebt w.owed.v4 (.project (.wouldBlock : FamilyAttempt I)) =
        (w.owed.v4, false) := hretry _
    have h6 : spendDebt w.owed.v6 (.project (.wouldBlock : FamilyAttempt I)) =
        (w.owed.v6, false) := hretry _
    refine ⟨min ((checkedAddDuration now withdrawalRetryBackoff).getD now) w.ceilingAt, ?_, ?_⟩
    · apply min_le_of_left_le
      cases ht : checkedAddDuration now withdrawalRetryBackoff with
      | none => exact le_refl now
      | some t => exact hsaturated t ht
    · unfold noteResult
      rw [h4, h6]
      rfl
  obtain ⟨t, ht, heq⟩ := hnote
  rw [heq]
  constructor
  · exact (selected_false _ now).mpr ⟨howes, ht, hopen⟩
  · have hmessage := h.message
    rw [round_message] at hmessage ⊢
    exact hmessage

end WithdrawalItem
end

namespace Endpoint
variable {I G R : Type} {SR EV : Type → Type} [Instant I] [SeedSource G] [SeedableRng R]
  [Pool SR] [Pool EV]

/-- A goodbye is asked for and its attempts are confirmed, all at `now`; the flag says whether there
was one. -/
def pumpRound (now : I) (scratch : Bytes) (attempts : FamilyAttempt I × FamilyAttempt I)
    (e : Endpoint I G R SR EV) : Endpoint I G R SR EV × Bool :=
  match e.pollWithdrawalTransmit now scratch with
  | (e, none) => (e, false)
  | (e, some round) => (e.noteWithdrawalResult round.token now attempts.1 attempts.2, true)

inductive Scanned (retained : WithdrawalItem I → List IpAddr) (now : I) (scratch : Bytes)
    (ws : List (WithdrawalToken × WithdrawalItem I)) :
    List (WithdrawalToken × WithdrawalItem I) × Option WithdrawalTransmit → Prop
  | nothing (h : ∀ tw ∈ ws, (tw.2.passed (retained tw.2) now scratch).selected now = none) :
    Scanned retained now scratch ws
      (ws.map fun tw => (tw.1, tw.2.passed (retained tw.2) now scratch), none)
  | sent (pre rest : List (WithdrawalToken × WithdrawalItem I)) (round : WithdrawalTransmit)
    (w after : WithdrawalItem I) (isFinal : Bool) (msg : Message)
    (hws : ws = pre ++ (round.token, w) :: rest)
    (hpre : ∀ tw ∈ pre, (tw.2.passed (retained tw.2) now scratch).selected now = none)
    (hsilent : ∀ tw ∈ pre, ¬tw.2.Offers (retained tw.2) now scratch)
    (hselected : w.selected now = some isFinal)
    (hround : w.round (retained w) now scratch isFinal = (after, some msg)) :
    Scanned retained now scratch ws
      (pre.map (fun tw => (tw.1, tw.2.passed (retained tw.2) now scratch)) ++
        (round.token, after) :: rest, some round)

theorem scanWithdrawals_scanned (retained : WithdrawalItem I → List IpAddr) (now : I)
    (scratch : Bytes) (ws : List (WithdrawalToken × WithdrawalItem I)) :
    Scanned retained now scratch ws (scanWithdrawals retained now scratch ws) := by
  induction ws with
  | nil => exact Scanned.nothing fun tw htw => absurd htw List.not_mem_nil
  | cons tw rest ih =>
    obtain ⟨token, w⟩ := tw
    -- an item that is passed over stands before whatever the rest of the scan comes to
    have hskip : ∀ (after : WithdrawalItem I), w.passed (retained w) now scratch = after →
        after.selected now = none → ¬w.Offers (retained w) now scratch →
        Scanned retained now scratch ((token, w) :: rest)
          ((token, after) :: (scanWithdrawals retained now scratch rest).1,
            (scanWithdrawals retained now scratch rest).2) := by
      intro after hafter hnone hsilent
      generalize scanWithdrawals retained now scratch rest = scanned at ih
      cases ih with
      | nothing h =>
        have hall : ∀ tw ∈ (token, w) :: rest,
            (tw.2.passed (retained tw.2) now scratch).selected now = none := by
          intro tw htw
          cases List.mem_cons.mp htw with
          | inl heq => rw [heq, hafter]; exact hnone
          | inr hmem => exact h tw hmem
        have hscan := Scanned.nothing hall
        rw [List.map_cons, hafter] at hscan
        exact hscan
      | sent pre rest' round w' after' isFinal msg hws hpre hsil hselected hround =>
        have hall : ∀ tw ∈ (token, w) :: pre,
            (tw.2.passed (retained tw.2) now scratch).selected now = none := by
          intro tw htw
          cases List.mem_cons.mp htw with
          | inl heq => rw [heq, hafter]; exact hnone
          | inr hmem => exact hpre tw hmem
        have hquiet : ∀ tw ∈ (token, w) :: pre, ¬tw.2.Offers (retained tw.2) now scratch := by
          intro tw htw
          cases List.mem_cons.mp htw with
          | inl heq => rw [heq]; exact hsilent
          | inr hmem => exact hsil tw hmem
        have hcons : (token, w) :: rest =
            ((token, w) :: pre) ++ (round.token, w') :: rest' := by
          rw [hws]
          rfl
        have hscan := Scanned.sent ((token, w) :: pre) rest' round w' after' isFinal msg hcons hall
          hquiet hselected hround
        rw [List.map_cons, hafter] at hscan
        exact hscan
    rw [scanWithdrawals]
    cases hselected : w.selected now with
    | none =>
      apply hskip w
      · rw [WithdrawalItem.passed, hselected]
      · exact hselected
      · intro hoffers
        rw [hoffers.selected] at hselected
        cases hselected
    | some isFinal =>
      dsimp only
      cases hround : w.round (retained w) now scratch isFinal with
      | mk after message =>
        cases message with
        | none =>
          apply hskip after
          · rw [WithdrawalItem.passed, hselected]
            dsimp only
            rw [hround]
          · exact w.round_passed_over after _ now scratch isFinal hselected hround
          · intro hoffers
            rw [hoffers.selected] at hselected
            cases hselected
            have hmessage := hoffers.message
            rw [hround] at hmessage
            cases hmessage
        | some msg =>
          exact Scanned.sent [] rest ⟨multicastDst, msg.size, token, w.debt, msg⟩ w after isFinal
            msg rfl (fun tw htw => absurd htw List.not_mem_nil)
            (fun tw htw => absurd htw List.not_mem_nil) hselected hround

inductive Turned (now : I) (scratch : Bytes) (attempts : FamilyAttempt I × FamilyAttempt I)
    (e e' : Endpoint I G R SR EV) : Bool → Prop
  | nothing
    (hws : e'.withdrawals =
      e.withdrawals.map fun tw => (tw.1, tw.2.passed (e.retainedFor tw.2) now scratch))
    (h : ∀ tw ∈ e'.withdrawals, tw.2.selected now = none) :
    Turned now scratch attempts e e' false
  | sent (pre rest : List (WithdrawalToken × WithdrawalItem I)) (token : WithdrawalToken)
    (w after : WithdrawalItem I) (isFinal : Bool) (msg : Message)
    (hws : e.withdrawals = pre ++ (token, w) :: rest)
    (hws' : e'.withdrawals =
      pre.map (fun tw => (tw.1, tw.2.passed (e.retainedFor tw.2) now scratch)) ++
        (token, after.noteResult now attempts.1 attempts.2) :: rest)
    (hpre : ∀ tw ∈ pre, (tw.2.passed (e.retainedFor tw.2) now scratch).selected now = none)
    (hsilent : ∀ tw ∈ pre, ¬tw.2.Offers (e.retainedFor tw.2) now scratch)
    (hselected : w.selected now = some isFinal)
    (hround : w.round (e.retainedFor w) now scratch isFinal = (after, some msg)) :
    Turned now scratch attempts e e' true

theorem updateFirst_at {α : Type} (p : α → Bool) (f : α → α) (pre rest : List α) (x : α)
    (hpre : ∀ y ∈ pre, p y = false) (hx : p x = true) :
    updateFirst p f (pre ++ x :: rest) = some (pre ++ f x :: rest) := by
  induction pre with
  | nil => rw [List.nil_append, updateFirst, if_pos hx, List.nil_append]
  | cons y pre ih =>
    have hy : ¬p y = true := by
      rw [hpre y List.mem_cons_self]
      exact Bool.false_ne_true
    rw [List.cons_append, updateFirst, if_neg hy,
      ih fun z hz => hpre z (List.mem_cons_of_mem _ hz)]
    rfl

theorem pumpRound_turned (now : I) (scratch : Bytes)
    (attempts : FamilyAttempt I × FamilyAttempt I) (e : Endpoint I G R SR EV)
    (htokens : (e.withdrawals.map Prod.fst).Nodup) :
    Turned now scratch attempts e (pumpRound now scratch attempts e).1
        (pumpRound now scratch attempts e).2 ∧
      (pumpRound now scratch attempts e).1.retainedFor = e.retainedFor := by
  unfold pumpRound
  rw [pollWithdrawalTransmit_eq]
  have hscan := scanWithdrawals_scanned e.retainedFor now scratch e.withdrawals
  generalize scanWithdrawals e.retainedFor now scratch e.withdrawals = scanned at hscan ⊢
  cases hscan with
  | nothing h =>
    constructor
    · apply Turned.nothing rfl
      intro tw htw
      obtain ⟨old, hold, heq⟩ := List.mem_map.mp htw
      rw [← heq]
      exact h old hold
    · rfl
  | sent pre rest round w after isFinal msg hws hpre hsilent hselected hround =>
    have hfirst : ∀ tw ∈ pre.map fun tw => (tw.1, tw.2.passed (e.retainedFor tw.2) now scratch),
        (tw.1 == round.token) = false := by
      intro tw htw
      obtain ⟨old, hold, heq⟩ := List.mem_map.mp htw
      rw [hws, List.map_append, List.nodup_append] at htokens
      have hne := htokens.2.2 old.1 (List.mem_map_of_mem hold) round.token
        (List.mem_map_of_mem List.mem_cons_self)
      rw [← heq]
      exact beq_eq_false_iff_ne.mpr hne
    dsimp only
    rw [noteWithdrawalResult, updateFirst_at _ _ _ _ _ hfirst (beq_self_eq_true _)]
    constructor
    · exact Turned.sent pre rest round.token w after isFinal msg hws rfl hpre hsilent hselected
        hround
    · rfl

def Calm (e : Endpoint I G R SR EV) (now : I) (scratch : Bytes) : Prop :=
  ∀ tw ∈ e.withdrawals, ¬tw.2.Offers (e.retainedFor tw.2) now scratch

def roundsLeft (e : Endpoint I G R SR EV) (stuck : Bool) (now : I) : Nat :=
  (e.withdrawals.map fun tw => tw.2.roundsLeft stuck now).sum

theorem Turned.tokens (now : I) (scratch : Bytes) (attempts : FamilyAttempt I × FamilyAttempt I)
    (e e' : Endpoint I G R SR EV) (more : Bool) (h : Turned now scratch attempts e e' more) :
    e'.withdrawals.map Prod.fst = e.withdrawals.map Prod.fst := by
  cases h with
  | nothing hws h => rw [hws, List.map_map]; rfl
  | sent pre rest token w after isFinal msg hws hws' hpre hsilent hselected hround =>
    rw [hws, hws', List.map_append, List.map_append, List.map_cons, List.map_cons, List.map_map]
    rfl

theorem round_sent (w after : WithdrawalItem I) (retained : List IpAddr) (now : I)
    (scratch : Bytes) (isFinal : Bool) (msg : Message)
    (h : w.round retained now scratch isFinal = (after, some msg)) :
    after = if isFinal then { w with finalAttempt := true } else w := by
  have heff := w.round_rounded retained now scratch isFinal
  rw [h] at heff
  cases heff with
  | sent msg hsome hmsg => rfl

theorem confirmed_roundsLeft (w after : WithdrawalItem I) (retained : List IpAddr) (now : I)
    (scratch : Bytes) (attempts : FamilyAttempt I × FamilyAttempt I) (isFinal : Bool)
    (msg : Message) (stuck : Bool)
    (hclock : stuck = false → ¬Saturated now)
    (hcalm : stuck = true → ¬w.Offers retained now scratch)
    (hselected : w.selected now = some isFinal)
    (hround : w.round retained now scratch isFinal = (after, some msg)) :
    (after.noteResult now attempts.1 attempts.2).roundsLeft stuck now < w.roundsLeft stuck now := by
  obtain ⟨-, hwhen⟩ := w.selected_some now isFinal hselected
  have hafter := round_sent w after retained now scratch isFinal msg hround
  rw [WithdrawalItem.roundsLeft, WithdrawalItem.roundsLeft, hselected]
  cases isFinal with
  | true =>
    cases hwhen with
    | inl hdue => cases hdue.1
    | inr hover =>
      rw [hafter, if_pos rfl, w.selected_after_final now attempts.1 attempts.2 hover.2.1]
      exact Nat.zero_lt_one
  | false =>
    cases hwhen with
    | inr hover => cases hover.1
    | inl hdue =>
      rw [if_neg Bool.false_ne_true] at hafter
      subst hafter
      cases stuck with
      | true => exact absurd ⟨hselected, by rw [hround]; rfl⟩ (hcalm rfl)
      | false =>
        have hgoes := hclock rfl
        unfold Saturated at hgoes
        push Not at hgoes
        obtain ⟨t, ht, hlt⟩ := hgoes
        have hless := after.noteResult_roundsLeft now attempts.1 attempts.2 hdue.2.2 t ht hlt
        rw [WithdrawalItem.roundsLeft] at hless
        exact hless

theorem Turned.spends (now : I) (scratch : Bytes) (attempts : FamilyAttempt I × FamilyAttempt I)
    (e e' : Endpoint I G R SR EV) (stuck : Bool) (h : Turned now scratch attempts e e' true)
    (hclock : stuck = false → ¬Saturated now) (hcalm : stuck = true → e.Calm now scratch) :
    e'.roundsLeft stuck now < e.roundsLeft stuck now := by
  cases h with
  | sent pre rest token w after isFinal msg hws hws' hpre hsilent hselected hround =>
    have hless := confirmed_roundsLeft w after _ now scratch attempts isFinal msg stuck hclock
      (fun hs => hcalm hs (token, w) (by rw [hws]; exact List.mem_append_right _ List.mem_cons_self))
      hselected hround
    have hnone : ((pre.map fun tw =>
        (tw.1, tw.2.passed (e.retainedFor tw.2) now scratch)).map fun tw =>
          tw.2.roundsLeft stuck now).sum = 0 := by
      apply List.sum_eq_zero
      intro n hn
      rw [List.map_map] at hn
      obtain ⟨tw, htw, heq⟩ := List.mem_map.mp hn
      rw [← heq, Function.comp_apply, WithdrawalItem.roundsLeft, hpre tw htw]
    rw [roundsLeft, roundsLeft, hws, hws', List.map_append, List.map_append, List.sum_append,
      List.sum_append, List.map_cons, List.map_cons, List.sum_cons, List.sum_cons, hnone]
    dsimp only
    omega

theorem Turned.calm (now : I) (scratch : Bytes) (attempts : FamilyAttempt I × FamilyAttempt I)
    (e e' : Endpoint I G R SR EV) (h : Turned now scratch attempts e e' true)
    (hretained : e'.retainedFor = e.retainedFor) (hcalm : e.Calm now scratch) :
    e'.Calm now scratch := by
  cases h with
  | sent pre rest token w after isFinal msg hws hws' hpre hsilent hselected hround =>
    have hw := hcalm (token, w) (by rw [hws]; exact List.mem_append_right _ List.mem_cons_self)
    intro tw htw hoffers
    rw [hretained] at hoffers
    rw [hws', List.mem_append, List.mem_cons] at htw
    cases htw with
    | inl hmem =>
      obtain ⟨old, hold, heq⟩ := List.mem_map.mp hmem
      have hnone := hpre old hold
      rw [← heq] at hoffers
      rw [hoffers.selected] at hnone
      cases hnone
    | inr hmem =>
      cases hmem with
      | inr hlater =>
        apply hcalm tw _ hoffers
        rw [hws]
        exact List.mem_append_right _ (List.mem_cons_of_mem _ hlater)
      | inl heq =>
        subst heq
        cases isFinal with
        | false => exact hw ⟨hselected, by rw [hround]; rfl⟩
        | true =>
          obtain ⟨-, hwhen⟩ := w.selected_some now true hselected
          cases hwhen with
          | inl hdue => cases hdue.1
          | inr hover =>
            have hafter := round_sent w after _ now scratch true msg hround
            rw [if_pos rfl] at hafter
            have hnone := w.selected_after_final now attempts.1 attempts.2 hover.2.1
            have hselected' := hoffers.selected
            dsimp only at hselected'
            rw [hafter, hnone] at hselected'
            cases hselected'

theorem Turned.again (now : I) (scratch : Bytes) (e e' : Endpoint I G R SR EV) (more : Bool)
    (h : Turned now scratch (.wouldBlock, .wouldBlock) e e' more)
    (hretained : e'.retainedFor = e.retainedFor) (hsaturated : Saturated now)
    (hoffers : ¬e.Calm now scratch) : more = true ∧ ¬e'.Calm now scratch := by
  unfold Calm at hoffers
  push Not at hoffers
  obtain ⟨tw, htw, hoffers⟩ := hoffers
  cases h with
  | nothing hws h =>
    exfalso
    have hnone := h (tw.1, tw.2.passed (e.retainedFor tw.2) now scratch) (by
      rw [hws]
      exact List.mem_map_of_mem htw)
    obtain ⟨msg, hmsg⟩ := Option.isSome_iff_exists.mp hoffers.message
    have hsame := round_sent tw.2 _ _ now scratch false msg (Prod.ext rfl hmsg)
    rw [if_neg Bool.false_ne_true] at hsame
    rw [WithdrawalItem.passed, hoffers.selected] at hnone
    have hselected : tw.2.selected now = none :=
      (congrArg (fun w : WithdrawalItem I => w.selected now) hsame).symm.trans hnone
    rw [hoffers.selected] at hselected
    cases hselected
  | sent pre rest token w after isFinal msg hws hws' hpre hsilent hselected hround =>
    refine ⟨rfl, ?_⟩
    intro hcalm
    rw [hws, List.mem_append, List.mem_cons] at htw
    cases htw with
    | inl hmem => exact hsilent tw hmem hoffers
    | inr hmem =>
      cases hmem with
      | inr hlater =>
        apply hcalm tw
        · rw [hws']
          exact List.mem_append_right _ (List.mem_cons_of_mem _ hlater)
        · rw [hretained]
          exact hoffers
      | inl heq =>
        subst heq
        have hsel := hoffers.selected
        dsimp only at hsel
        rw [hselected] at hsel
        cases hsel
        have hafter := round_sent w after _ now scratch false msg hround
        rw [if_neg Bool.false_ne_true] at hafter
        subst hafter
        apply hcalm (token, after.noteResult now .wouldBlock .wouldBlock)
        · rw [hws']
          exact List.mem_append_right _ List.mem_cons_self
        · rw [hretained]
          exact hoffers.again after _ now scratch hsaturated

theorem freeRoute_withdrawals (e : Endpoint I G R SR EV) (handle : ServiceHandle) :
    (e.freeRoute handle).withdrawals = e.withdrawals := by
  unfold freeRoute
  split
  · rfl
  · split <;> rfl

theorem drainToken_withdrawals (now : I) (st : Endpoint I G R SR EV × List ServiceHandle)
    (token : WithdrawalToken) :
    (drainToken now st token).1.withdrawals = st.1.withdrawals.eraseP fun tw => tw.1 == token := by
  obtain ⟨e, out⟩ := st
  unfold drainToken
  dsimp only
  cases hfind : e.withdrawals.find? fun tw => tw.1 == token with
  | none =>
    rw [List.eraseP_of_forall_not]
    intro tw htw
    exact List.find?_eq_none.mp hfind tw htw
  | some tw =>
    obtain ⟨t, item⟩ := tw
    dsimp only
    cases item.route with
    | none => rfl
    | some handle => exact freeRoute_withdrawals _ handle

theorem not_mem_eraseP (ws : List (WithdrawalToken × WithdrawalItem I))
    (htokens : (ws.map Prod.fst).Nodup) (tw : WithdrawalToken × WithdrawalItem I)
    (h : tw ∈ ws.eraseP fun x => x.1 == tw.1) : False := by
  induction ws with
  | nil => cases h
  | cons x ws ih =>
    rw [List.map_cons, List.nodup_cons] at htokens
    rw [List.eraseP_cons] at h
    cases hx : x.1 == tw.1 with
    | true =>
      rw [hx, cond_true] at h
      apply htokens.1
      rw [beq_iff_eq.mp hx]
      exact List.mem_map_of_mem h
    | false =>
      rw [hx, cond_false] at h
      cases List.mem_cons.mp h with
      | inl heq =>
        rw [heq, beq_self_eq_true] at hx
        cases hx
      | inr hmem => exact ih htokens.2 hmem

theorem drainCompletedWithdrawals_left (e : Endpoint I G R SR EV) (now : I)
    (htokens : (e.withdrawals.map Prod.fst).Nodup) (tw : WithdrawalToken × WithdrawalItem I)
    (h : tw ∈ (e.drainCompletedWithdrawals now).1.withdrawals) :
    tw ∈ e.withdrawals ∧ tw.2.completed now = false := by
  have hfold : ∀ (tokens : List WithdrawalToken) (st : Endpoint I G R SR EV × List ServiceHandle),
      (st.1.withdrawals.map Prod.fst).Nodup →
        tw ∈ (tokens.foldl (drainToken now) st).1.withdrawals →
          tw ∈ st.1.withdrawals ∧ tw.1 ∉ tokens := by
    intro tokens
    induction tokens with
    | nil => exact fun st _ hmem => ⟨hmem, List.not_mem_nil⟩
    | cons token rest ih =>
      intro st hst hmem
      have hws := drainToken_withdrawals now st token
      have hst' : ((drainToken now st token).1.withdrawals.map Prod.fst).Nodup := by
        rw [hws]
        exact hst.sublist (List.eraseP_sublist.map _)
      obtain ⟨hin, hnot⟩ := ih _ hst' hmem
      rw [hws] at hin
      refine ⟨List.mem_of_mem_eraseP hin, ?_⟩
      intro hmem'
      cases List.mem_cons.mp hmem' with
      | inl heq =>
        subst heq
        exact not_mem_eraseP _ hst tw hin
      | inr hlater => exact hnot hlater
  obtain ⟨hmem, hnot⟩ := hfold _ (e, []) htokens h
  refine ⟨hmem, Bool.eq_false_iff.mpr ?_⟩
  intro hdone
  exact hnot (List.mem_map_of_mem (List.mem_filter.mpr ⟨hmem, hdone⟩))

theorem deadline_after (w : WithdrawalItem I) (now : I) (hselected : w.selected now = none)
    (hleft : w.completed now = false) : now < w.deadline := by
  unfold WithdrawalItem.completed at hleft
  rw [Bool.or_eq_false_iff] at hleft
  obtain ⟨howes, hopen⟩ := hleft
  unfold WithdrawalItem.selected at hselected
  rw [if_neg (by rw [howes]; exact Bool.false_ne_true)] at hselected
  split at hselected
  · cases hselected
  · rename_i hnotdue
    split at hselected
    · cases hselected
    · rename_i hnotfinal
      have hceiling : now < w.ceilingAt := by
        by_contra hover
        have hover' := not_lt.mp hover
        rw [decide_eq_true hover', Bool.true_and] at hopen
        exact hnotfinal ⟨hover', hopen⟩
      have hnext : now < w.nextAt := by
        by_contra hdue
        exact hnotdue ⟨not_lt.mp hdue, hceiling⟩
      exact lt_min hnext hceiling

theorem after_kept (now : I) (scratch : Bytes)
    (attempts : ℕ → FamilyAttempt I × FamilyAttempt I) (e : Endpoint I G R SR EV)
    (htokens : (e.withdrawals.map Prod.fst).Nodup) (n : ℕ) :
    ((after (pumpRound now scratch) attempts n e).withdrawals.map Prod.fst).Nodup := by
  induction n with
  | zero => exact htokens
  | succ n ih =>
    have hturn := (pumpRound_turned now scratch (attempts n) _ ih).1
    rw [after, hturn.tokens]
    exact ih

theorem drained_later (now : I) (scratch : Bytes)
    (attempts : FamilyAttempt I × FamilyAttempt I) (e : Endpoint I G R SR EV)
    (htokens : (e.withdrawals.map Prod.fst).Nodup)
    (hnone : (pumpRound now scratch attempts e).2 = false) :
    ∀ tw ∈ ((pumpRound now scratch attempts e).1.drainCompletedWithdrawals now).1.withdrawals,
      now < tw.2.deadline := by
  have hturn := (pumpRound_turned now scratch attempts e htokens).1
  have htokens' : ((pumpRound now scratch attempts e).1.withdrawals.map Prod.fst).Nodup := by
    rw [hturn.tokens]
    exact htokens
  intro tw htw
  obtain ⟨hmem, hleft⟩ := drainCompletedWithdrawals_left _ now htokens' tw htw
  rw [hnone] at hturn
  cases hturn with
  | nothing hws h => exact deadline_after tw.2 now (h tw hmem) hleft

theorem pump_goes_on (e : Endpoint I G R SR EV) (now : I) (scratch : Bytes)
    (htokens : (e.withdrawals.map Prod.fst).Nodup) (hclock : Saturated now)
    (hcalm : ¬e.Calm now scratch) (n : ℕ) :
    yields (pumpRound now scratch) (fun _ => (.wouldBlock, .wouldBlock)) e n = true := by
  apply goes_on (pumpRound now scratch)
    (fun e' : Endpoint I G R SR EV => (e'.withdrawals.map Prod.fst).Nodup ∧
      ¬e'.Calm now scratch) (.wouldBlock, .wouldBlock) _ e ⟨htokens, hcalm⟩
  intro e' he'
  obtain ⟨hturn, hretained⟩ := pumpRound_turned now scratch (.wouldBlock, .wouldBlock) e' he'.1
  obtain ⟨hmore, hagain⟩ := hturn.again now scratch e' _ _ hretained hclock he'.2
  refine ⟨hmore, ?_, hagain⟩
  rw [hturn.tokens]
  exact he'.1

/-- A pump that asks for goodbyes at `now` and confirms each with whatever attempts gets none after
finitely many, and then the drain leaves nothing that is due by `now`: this holds if and only if the
clock goes on from `now` by the retry backoff, or no round that is due before its ceiling has a
message. -/
theorem goodbye_pump_ends_iff (e : Endpoint I G R SR EV) (now : I) (scratch : Bytes)
    (htokens : (e.withdrawals.map Prod.fst).Nodup) :
    (∀ attempts : ℕ → FamilyAttempt I × FamilyAttempt I,
        (∃ n, yields (pumpRound now scratch) attempts e n = false) ∧
        ∀ n, yields (pumpRound now scratch) attempts e n = false →
          ∀ tw ∈ ((after (pumpRound now scratch) attempts (n + 1)
            e).drainCompletedWithdrawals now).1.withdrawals, now < tw.2.deadline) ↔
      ¬Saturated now ∨ e.Calm now scratch := by
  constructor
  · intro h
    by_contra hnot
    rw [not_or, not_not] at hnot
    obtain ⟨⟨n, hn⟩, -⟩ := h fun _ => (.wouldBlock, .wouldBlock)
    rw [pump_goes_on e now scratch htokens hnot.1 hnot.2 n] at hn
    cases hn
  · intro hcond attempts
    constructor
    · cases hcond with
      | inl hclock =>
        apply stops (pumpRound now scratch)
          (fun e' : Endpoint I G R SR EV => (e'.withdrawals.map Prod.fst).Nodup)
          (fun e' => e'.roundsLeft false now) _ attempts e htokens
        intro a e' he' hmore
        have hturn := (pumpRound_turned now scratch a e' he').1
        rw [hmore] at hturn
        constructor
        · rw [hturn.tokens]
          exact he'
        · exact hturn.spends now scratch a e' _ false (fun _ => hclock) (fun h => by cases h)
      | inr hcalm =>
        apply stops (pumpRound now scratch)
          (fun e' : Endpoint I G R SR EV => (e'.withdrawals.map Prod.fst).Nodup ∧
            e'.Calm now scratch)
          (fun e' => e'.roundsLeft true now) _ attempts e ⟨htokens, hcalm⟩
        intro a e' he' hmore
        obtain ⟨hturn, hretained⟩ := pumpRound_turned now scratch a e' he'.1
        rw [hmore] at hturn
        refine ⟨⟨?_, hturn.calm now scratch a e' _ hretained he'.2⟩, ?_⟩
        · rw [hturn.tokens]
          exact he'.1
        · exact hturn.spends now scratch a e' _ true (fun h => by cases h) (fun _ => he'.2)
    · intro n hn
      have hkept := after_kept now scratch attempts e htokens n
      exact drained_later now scratch (attempts n) _ hkept hn

/-- A printer whose instance both families carried leaves two seconds before this clock ends. -/
def lastGoodbye : WithdrawalItem Uptime where
  records := .printer
  owned := ⟨{ EmittedRecords.default with ptr := true }, { EmittedRecords.default with ptr := true }⟩
  multicast := ⟨.default, .default⟩
  owed := ⟨withdrawalSends, withdrawalSends⟩
  nextAt := 18446744071709551615
  ceilingAt := 18446744073709551615
  finalAttempt := false
  route := none
  holdsName := false
  leftBy := ⟨0⟩

def leavingLast : Endpoint Uptime ZeroRng ZeroRng Slab Slab :=
  { (Endpoint.tryNew ⟨true, true, 0⟩ ⟨⟩ : Endpoint Uptime ZeroRng ZeroRng Slab Slab) with
    withdrawals := [(⟨0⟩, lastGoodbye)] }

theorem last_goodbye_pump_ends :
    (leavingLast.withdrawals.map Prod.fst).Nodup ∧
      ∃ n, yields (pumpRound 18446744072709551615 (List.replicate 512 0))
        (fun _ => (.wouldBlock, .wouldBlock)) leavingLast n = false := by
  have htokens : (leavingLast.withdrawals.map Prod.fst).Nodup := by decide
  have hends := (goodbye_pump_ends_iff leavingLast 18446744072709551615 (List.replicate 512 0)
    htokens).mpr (.inl (by
      intro h
      exact absurd (h 18446744072729551615 (by decide +kernel)) (by decide)))
  exact ⟨htokens, (hends _).1⟩

/-- Ten milliseconds before the clock ends the pump does not: no family takes the round, and it is
due again at once. -/
theorem last_goodbye_never_ends :
    (leavingLast.withdrawals.map Prod.fst).Nodup ∧
      ¬∃ n, yields (pumpRound 18446744073699551615 (List.replicate 512 0))
        (fun _ => (.wouldBlock, .wouldBlock)) leavingLast n = false := by
  have htokens : (leavingLast.withdrawals.map Prod.fst).Nodup := by decide
  have hclock : Saturated (18446744073699551615 : Uptime) := by
    intro t ht
    have hnone : checkedAddDuration (18446744073699551615 : Uptime) withdrawalRetryBackoff =
        none := by decide +kernel
    rw [hnone] at ht
    cases ht
  have hcalm : ¬leavingLast.Calm 18446744073699551615 (List.replicate 512 0) := by
    intro hcalm
    apply hcalm (⟨0⟩, lastGoodbye) (List.mem_singleton.mpr rfl)
    constructor
    · decide
    · decide +kernel
  refine ⟨htokens, ?_⟩
  rintro ⟨n, hn⟩
  rw [pump_goes_on leavingLast _ _ htokens hclock hcalm n] at hn
  cases hn

end Endpoint

end Hick
