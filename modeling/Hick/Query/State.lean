import Hick.Service.Poll

/-!
# A query (query/mod.rs, query/retry.rs, endpoint/query.rs)

A query asks its question on a schedule of its own, collects the answers that match, and ends at
the caller's deadline, when its retries are spent, or when the driver retires it.
-/

namespace Hick
open Octets Wire

/-! ### The retry schedule (query/retry.rs) -/

def initialSecs : Nat := 1
def minQueryGap : Duration := Duration.fromSecs initialSecs
def maxSecs : Nat := 60

def retrySecs (sends : Nat) : Nat := min (initialSecs * 2 ^ min (sends - 1) 6) maxSecs

section
variable {I : Type} [Instant I]

def nextDeadline (now : I) (sends : Nat) : Option I :=
  checkedAddDuration now (Duration.fromSecs (retrySecs sends))

end

def saturatingSucc64 (v : UInt64) : UInt64 := if v = 18446744073709551615 then v else v + 1

theorem saturatingSucc64_toNat (v : UInt64) :
    (saturatingSucc64 v).toNat = min (v.toNat + 1) (2 ^ 64 - 1) := by
  have hlt := v.toNat_lt
  rw [saturatingSucc64]
  split
  · rename_i htop
    rw [htop]
    rfl
  · rename_i htop
    have hne : v.toNat ≠ 2 ^ 64 - 1 := fun heq => htop (UInt64.toNat_inj.mp heq)
    have hone : (1 : UInt64).toNat = 1 := rfl
    rw [UInt64.toNat_add, hone]
    omega

theorem saturatingSucc64_le (v : UInt64) : v ≤ saturatingSucc64 v := by
  have hlt := v.toNat_lt
  rw [UInt64.le_iff_toNat_le, saturatingSucc64_toNat]
  omega

theorem saturatingSucc64_lt (v : UInt64) (h : v ≠ 18446744073709551615) :
    v < saturatingSucc64 v := by
  have hlt := v.toNat_lt
  have hne : v.toNat ≠ 2 ^ 64 - 1 := fun heq => h (UInt64.toNat_inj.mp heq)
  rw [UInt64.lt_iff_toNat_lt, saturatingSucc64_toNat]
  omega

theorem saturatingSucc64_ofNat (n : Nat) (h : n + 1 < 2 ^ 64) :
    saturatingSucc64 (UInt64.ofNat n) = UInt64.ofNat (n + 1) := by
  apply UInt64.toNat_inj.mp
  rw [saturatingSucc64_toNat, UInt64.toNat_ofNat', UInt64.toNat_ofNat']
  omega

def saturatingSub64 (v w : UInt64) : UInt64 := if v ≤ w then 0 else v - w

theorem saturatingSub64_toNat (v w : UInt64) :
    (saturatingSub64 v w).toNat = v.toNat - w.toNat := by
  rw [saturatingSub64]
  split
  · rename_i hle
    rw [UInt64.le_iff_toNat_le] at hle
    have hzero : (0 : UInt64).toNat = 0 := rfl
    omega
  · rename_i hlt
    exact UInt64.toNat_sub_of_le v w (UInt64.le_of_lt (UInt64.not_le.mp hlt))

structure QueryHandle where
  raw : UInt32
  deriving DecidableEq

inductive QueryUpdate where
  | timeout
  | done
  deriving DecidableEq

inductive QueryEvent where
  | answer (record : Ref)
  | truncated

structure CollectedAnswer where
  rtype : ResourceType
  rclass : ResourceClass
  rdata : Bytes
  rdataKey : Option Bytes
  seq : UInt64
  deriving DecidableEq

def CollectedAnswer.key (a : CollectedAnswer) : Bytes := a.rdataKey.getD a.rdata

def maxRetries : Nat := 8
def defaultMaxAnswers : Nat := 256

def vacantKey {P : Type → Type} [Pool P] {V : Type} (p : P V) (v : V) : Option Nat :=
  (Pool.insert p v).map Prod.fst

structure Query (I : Type) (AN EV : Type → Type) where
  handle : QueryHandle
  qname : Name
  qtype : ResourceType
  qclass : ResourceClass
  txid : UInt16
  retryCount : Nat
  nextDeadline : Option I
  answers : AN CollectedAnswer
  pendingUpdates : EV QueryUpdate
  done : Bool
  terminalEmitted : Bool
  maxAnswers : Nat
  nextSeq : UInt64
  transmitPending : Bool
  awaitingSendConfirm : Bool
  partialSendStreak : Nat
  partialRounds : PerFamily FamilyPatience
  unicastResponse : Bool
  timeoutDeadline : Option I

namespace Query
variable {I : Type} {AN EV : Type → Type} [Instant I] [Pool AN] [Pool EV]

def tryNew (handle : QueryHandle) (qname : Name) (qtype : ResourceType) (qclass : ResourceClass)
    (txid : UInt16) (unicastResponse : Bool) (timeoutDeadline : Option I) : Query I AN EV where
  handle := handle
  qname := qname
  qtype := qtype
  qclass := qclass
  txid := txid
  retryCount := 0
  nextDeadline := none
  answers := Pool.new
  pendingUpdates := Pool.new
  done := false
  terminalEmitted := false
  maxAnswers := defaultMaxAnswers
  nextSeq := 0
  transmitPending := true
  awaitingSendConfirm := false
  partialSendStreak := 0
  partialRounds := .both .default
  unicastResponse := unicastResponse
  timeoutDeadline := timeoutDeadline

def setMaxAnswers (q : Query I AN EV) (max : Nat) : Query I AN EV := { q with maxAnswers := max }

def callerWindowShut (q : Query I AN EV) (now : I) : Bool :=
  q.timeoutDeadline.any fun deadline => decide (deadline ≤ now)

/-! ### Collecting (mod.rs:437-597) -/

/-- The loop for the victim: the lowest sequence number, the first of them in the pool. -/
def oldest : List (Nat × CollectedAnswer) → Option (Nat × UInt64) → Option (Nat × UInt64)
  | [], victim => victim
  | (key, entry) :: rest, victim =>
    oldest rest (some
      (match victim with
      | some prev => if prev.2 ≤ entry.seq then prev else (key, entry.seq)
      | none => (key, entry.seq)))

def evictOldest (answers : AN CollectedAnswer) : AN CollectedAnswer :=
  match oldest (Pool.iter answers) none with
  | some (key, _) =>
    match Pool.tryRemove answers key with
    | some (_, answers) => answers
    | none => answers
  | none => answers

/-- The end of the answer arm: a new answer, past the oldest where there is no room. -/
def store (q : Query I AN EV) (answer : CollectedAnswer) : Query I AN EV :=
  if (Pool.iter q.answers).any fun (_, existing) => existing.rtype == answer.rtype &&
      existing.rclass == answer.rclass && existing.key == answer.key then q
  else if q.maxAnswers = 0 then q
  else
    let answers :=
      if q.maxAnswers ≤ (Pool.iter q.answers).length ∨ vacantKey q.answers answer = none then
        evictOldest q.answers
      else q.answers
    match Pool.insert answers answer with
    | some (_, answers) => { q with
        answers := answers
        nextSeq := saturatingSucc64 q.nextSeq }
    | none => { q with answers := answers }

def collect (q : Query I AN EV) (record : Ref) : Query I AN EV :=
  if record.ttl = 0 then q
  else if q.qtype ≠ .any ∧ record.rtype ≠ q.qtype then q
  else if q.qclass ≠ .any ∧ record.rclass ≠ q.qclass then q
  else
    match record.canonicalRdata with
    | .error _ => q
    | .ok owned =>
      match record.canonicalRdataFolded with
      | .error _ => q
      | .ok folded => q.store
          { rtype := record.rtype
            rclass := record.rclass
            rdata := owned
            rdataKey := if folded = owned then none else some folded
            seq := q.nextSeq }

def handleEvent (q : Query I AN EV) (event : QueryEvent) (now : I) : Query I AN EV :=
  if q.done then q
  else if q.callerWindowShut now then q
  else
    match event with
    | .answer record => q.collect record
    | .truncated => q

/-! ### Timers (mod.rs:599-709) -/

def terminate (q : Query I AN EV) (update : QueryUpdate) : Query I AN EV :=
  if q.done then q
  else
    { q with
      done := true
      transmitPending := false
      pendingUpdates :=
        match Pool.insert q.pendingUpdates update with
        | some (_, updates) => updates
        | none => q.pendingUpdates
      nextDeadline := none
      timeoutDeadline := none }

def handleTimeout (q : Query I AN EV) (now : I) : Query I AN EV :=
  if q.done then q
  else if q.callerWindowShut now then q.terminate .timeout
  else
    match q.nextDeadline with
    | none => q
    | some due =>
      if now < due then q
      else if maxRetries < q.retryCount then q.terminate .timeout
      else { q with
        transmitPending := true
        nextDeadline := none }

def retire (q : Query I AN EV) : Query I AN EV := q.terminate .timeout

/-! ### Asking (mod.rs:804-1092) -/

def pollTransmit (q : Query I AN EV) (now : I) (buf : Bytes) :
    Query I AN EV × Except TransmitError (Option Sent) :=
  if q.done || !q.transmitPending then (q, .ok none)
  else if q.callerWindowShut now then (q, .ok none)
  else
    match encode { Header.new with id := q.txid } buf
        (MessageBuilder.pushQuestion q.qname q.qtype q.qclass q.unicastResponse) with
    | .error _ => (q, .error (.bufferTooSmall
        (if buf.length < headerSize then ⟨headerSize, buf.length⟩ else ⟨0, 0⟩)))
    | .ok (msg, ()) =>
      ({ q with
        transmitPending := false
        awaitingSendConfirm := true },
        .ok (some
          { transmit :=
              { dst := multicastDst
                srcIp := none
                size := msg.size
                obligation := .sustained
                minFamilyGap := minQueryGap }
            message := msg }))

def noteTransmitOutcome (q : Query I AN EV) (now : I) (v4 v6 : FamilyAttempt I) :
    Query I AN EV × TransmitConfirm :=
  if !q.awaitingSendConfirm then (q, .nothing)
  else
    let q := { q with awaitingSendConfirm := false }
    let delivery := FamilyAttempt.project v4 v6
    let confirm : TransmitConfirm :=
      ⟨delivery.anyDelivered, !q.done && FamilyAttempt.undeliverable v4 v6⟩
    if q.done then (q, confirm)
    else
      let now := FamilyAttempt.anchor v4 v6 now
      let (advance, partialRounds) := classifyAdvance q.partialRounds delivery
      let q := { q with partialRounds := partialRounds }
      match advance with
      | .delivered =>
        ({ q with
          retryCount := q.retryCount + 1
          partialSendStreak := 0
          nextDeadline := Hick.nextDeadline now (q.retryCount + 1) }, confirm)
      | .covered | .excused =>
        ({ q with
          retryCount := q.retryCount + 1
          nextDeadline := Hick.nextDeadline now (q.retryCount + 1 + q.partialSendStreak)
          partialSendStreak := q.partialSendStreak + 1 }, confirm)
      | .partial_ =>
        ({ q with
          nextDeadline := Hick.nextDeadline now (q.retryCount + 1 + q.partialSendStreak)
          partialSendStreak := q.partialSendStreak + 1 }, confirm)
      | .failed =>
        ({ q with nextDeadline := Hick.nextDeadline now (q.retryCount + 1) }, confirm)

def noteDuplicateQuestion (q : Query I AN EV) (now : I) : Query I AN EV × Bool :=
  if q.done || q.awaitingSendConfirm then (q, false)
  else if q.callerWindowShut now then (q, false)
  else if !(q.transmitPending || q.nextDeadline.any fun d => decide (d ≤ now)) then (q, false)
  else
    let q := { q with
      transmitPending := false
      retryCount := q.retryCount + 1
      partialSendStreak := 0
      partialRounds := .both .default }
    if maxRetries < q.retryCount then (q.terminate .timeout, true)
    else ({ q with nextDeadline := Hick.nextDeadline now q.retryCount }, true)

/-! ### Updates (mod.rs:1095-1098, endpoint/query.rs:132-157) -/

def poll (q : Query I AN EV) : Query I AN EV × Option QueryUpdate :=
  match Pool.iter q.pendingUpdates with
  | [] => (q, none)
  | (key, _) :: _ =>
    match Pool.tryRemove q.pendingUpdates key with
    | some (update, updates) => ({ q with pendingUpdates := updates }, some update)
    | none => (q, none)

def pollQuery (q : Query I AN EV) : Query I AN EV × Option QueryUpdate :=
  if q.terminalEmitted then (q, none)
  else
    match q.poll with
    | (q, some update) => ({ q with terminalEmitted := true }, some update)
    | (q, none) =>
      if q.done then ({ q with terminalEmitted := true }, some .timeout) else (q, none)

/-! ### What a datagram brings (endpoint/receive.rs:380-424, 541-569) -/

def accepts (q : Query I AN EV) (r : Ref) : Bool :=
  (q.qtype == .any || q.qtype == r.rtype) && (q.qclass == .any || q.qclass == r.rclass)

def hear (q : Query I AN EV) (now : I) (r : Ref) : Query I AN EV :=
  if q.done || q.terminalEmitted then q
  else if namesMatchRecord q.qname r && q.accepts r then q.handleEvent (.answer r) now
  else q

def sameQuestion (q : Query I AN EV) (other : QuestionRef) : Bool :=
  q.qtype == other.qtype && q.qclass == other.qclass && namesMatch q.qname other.qname

end Query
end Hick
