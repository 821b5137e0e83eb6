import Mathlib
import Hick.Service.State

/-!
# Withdrawal items (endpoint/mod.rs:54-442, endpoint/withdrawal.rs:972-1029)

An item is the goodbye of one name. Each address family owes its rounds on its own: a family
that carried nothing owes none.
-/

namespace Hick
open Octets Wire Respond

structure ServiceHandle where
  raw : UInt32
  deriving DecidableEq, Repr

structure WithdrawalToken where
  raw : UInt64
  deriving DecidableEq, Repr

def withdrawalSends : Nat := 3
def withdrawalInterval : Duration := Duration.fromMillis 250
def withdrawalRetryBackoff : Duration := Duration.fromMillis 20
def withdrawalCeiling : Duration := Duration.fromSecs 2

inductive WithdrawalSend where
  | sent
  | retry
  | writeOff
  deriving DecidableEq, Repr

def WithdrawalSend.project {I : Type} : FamilyAttempt I → WithdrawalSend
  | .accepted _ => .sent
  | .refused _ | .wouldBlock | .gateShut | .notAddressed => .retry
  | .noSocket => .writeOff

def spendDebt (debt : Nat) (send : WithdrawalSend) : Nat × Bool :=
  if debt = 0 then (0, false)
  else
    match send with
    | .sent => (debt - 1, true)
    | .retry => (debt, false)
    | .writeOff => (0, false)

/-- `leftBy` is ghost state: the service whose rename left a detached item, or the service
whose route an attached item holds. -/
structure WithdrawalItem (I : Type) where
  records : ServiceRecords
  owned : PerFamily EmittedRecords
  multicast : PerFamily EmittedRecords
  owed : PerFamily Nat
  nextAt : I
  ceilingAt : I
  finalAttempt : Bool
  route : Option ServiceHandle
  holdsName : Bool
  leftBy : ServiceHandle

def owedPerFamily (owned : PerFamily EmittedRecords) : PerFamily Nat :=
  owned.map fun e => if e.isEmpty then 0 else withdrawalSends

def unionOwed (owned : PerFamily EmittedRecords) (owed : PerFamily Nat) : EmittedRecords :=
  let add (out e : EmittedRecords) (debt : Nat) : EmittedRecords :=
    if debt = 0 then out else (out.mergeInstance e).mergeAddrs e
  add (add .default owned.v4 owed.v4) owned.v6 owed.v6

namespace WithdrawalItem
variable {I : Type}

def paid (w : WithdrawalItem I) : Bool := w.owed.v4 == 0 && w.owed.v6 == 0

def debt (w : WithdrawalItem I) : PerFamily Bool := w.owed.map (decide <| 0 < ·)

def outstanding (w : WithdrawalItem I) : EmittedRecords := unionOwed w.owned w.owed

def holds (w : WithdrawalItem I) : Bool := w.route.isNone && w.holdsName

def reclaimableFor (w : WithdrawalItem I) (name : Name) : Bool :=
  w.route.isNone && !w.holdsName && w.records.instanceName.sameOwner name

/-- What is left of an item once a service has announced its name in full: the PTR records at
names that service does not publish; nothing of one that owes no more (withdrawal.rs:600-633). -/
def reclaim (w : WithdrawalItem I) (name serviceType : Name) (subtypes : List Name) :
    Option (WithdrawalItem I) :=
  if !w.reclaimableFor name then some w
  else
    let typePtr := !w.records.serviceType.sameOwner serviceType
    let records := w.records.retainSubtypes fun sub => !subtypes.any (·.sameOwner sub)
    let subtypesLeft := !records.subtypes.isEmpty
    let owned := w.owned.map (·.keepOnlySharedPtrs typePtr subtypesLeft)
    let owed := w.owed.zipWith (fun debt half => if half.isEmpty then 0 else debt) owned
    if owed = .both 0 then none
    else some { w with
      records := records
      owned := owned
      owed := owed
      multicast := w.multicast.map (·.keepOnlySharedPtrs typePtr subtypesLeft) }

variable [Instant I]

/-- The scan of `poll_withdrawal_transmit`: the item is chosen, for its last attempt or not. -/
def selected (w : WithdrawalItem I) (now : I) : Option Bool :=
  if w.paid then none
  else if w.nextAt ≤ now ∧ now < w.ceilingAt then some false
  else if w.ceilingAt ≤ now ∧ w.finalAttempt = false then some true
  else none

def completed (w : WithdrawalItem I) (now : I) : Bool :=
  w.paid || (decide (w.ceilingAt ≤ now) && w.finalAttempt)

/-- `note_withdrawal_result`, on the item of the token (withdrawal.rs:732-786). -/
def noteResult (w : WithdrawalItem I) (now : I) (v4 v6 : FamilyAttempt I) : WithdrawalItem I :=
  let (owed4, progressed4) := spendDebt w.owed.v4 (.project v4)
  let (owed6, progressed6) := spendDebt w.owed.v6 (.project v6)
  let gap := if progressed4 || progressed6 then withdrawalInterval else withdrawalRetryBackoff
  { w with
    owed := ⟨owed4, owed6⟩
    nextAt := min ((checkedAddDuration now gap).getD now) w.ceilingAt }

def advanceAfterEncodeFailure (w : WithdrawalItem I) (now : I) (isFinal : Bool) :
    WithdrawalItem I :=
  if isFinal then { w with finalAttempt := true }
  else
    match checkedAddDuration now withdrawalRetryBackoff with
    | some t => if now < t then { w with nextAt := t } else { w with owed := .both 0 }
    | none => { w with owed := .both 0 }

end WithdrawalItem

end Hick
