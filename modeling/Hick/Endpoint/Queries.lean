import Hick.Query.State
import Hick.Service.Timeout

/-!
# The queries of an endpoint (endpoint/query.rs, config.rs:271-470)

An endpoint keeps its queries in a pool and names each by a handle of its own.
-/

set_option linter.unusedSectionVars false

namespace Hick
open Octets Wire

structure QuerySpec where
  qname : Name
  qtype : ResourceType
  qclass : ResourceClass
  unicastResponse : Bool
  timeout : Option Duration
  maxAnswers : Option Nat

namespace QuerySpec

def new (qname : Name) (qtype : ResourceType) : QuerySpec where
  qname := qname
  qtype := qtype
  qclass := .in_
  unicastResponse := false
  timeout := none
  maxAnswers := none

def withTimeout (s : QuerySpec) (v : Duration) : QuerySpec := { s with timeout := some v }

def withMaxAnswers (s : QuerySpec) (max : Nat) : QuerySpec := { s with maxAnswers := some max }

end QuerySpec

inductive StartQueryError where
  | storageFull
  deriving DecidableEq

structure Queries (I : Type) (QS AN EV : Type → Type) where
  queries : QS (Query I AN EV)
  nextQueryHandle : UInt32
  nextTxid : UInt16

namespace Queries
variable {I : Type} {QS AN EV : Type → Type} [Instant I] [Pool QS] [Pool AN] [Pool EV]

def tryStartQuery (e : Queries I QS AN EV) (spec : QuerySpec) (now : I) :
    Queries I QS AN EV × Except StartQueryError QueryHandle :=
  let handle : QueryHandle := ⟨e.nextQueryHandle⟩
  let nextRaw := e.nextTxid + 1
  let timeoutDeadline := spec.timeout.bind fun dur => checkedAddDuration now dur
  let q : Query I AN EV := Query.tryNew handle spec.qname spec.qtype spec.qclass e.nextTxid
    spec.unicastResponse timeoutDeadline
  let q := match spec.maxAnswers with
    | some m => q.setMaxAnswers m
    | none => q
  let e := { e with
    nextQueryHandle := saturatingSucc32 e.nextQueryHandle
    nextTxid := if nextRaw = 0 then 1 else nextRaw }
  match Pool.insert e.queries q with
  | some (_, queries) => ({ e with queries := queries }, .ok handle)
  | none => (e, .error .storageFull)

def queryKey (e : Queries I QS AN EV) (handle : QueryHandle) : Option Nat :=
  ((Pool.iter e.queries).find? fun entry => decide (entry.2.handle = handle)).map Prod.fst

def get? (e : Queries I QS AN EV) (handle : QueryHandle) : Option (Query I AN EV) :=
  (e.queryKey handle).bind fun key => Pool.get e.queries key

/-- A call on the query a handle names, answered with `absent` where there is none. -/
def call {α : Type} (e : Queries I QS AN EV) (handle : QueryHandle) (absent : α)
    (f : Query I AN EV → Query I AN EV × α) : Queries I QS AN EV × α :=
  match e.queryKey handle with
  | none => (e, absent)
  | some key =>
    match Pool.get e.queries key with
    | none => (e, absent)
    | some q => ({ e with queries := Pool.update e.queries key fun _ => (f q).1 }, (f q).2)

def pollQuery (e : Queries I QS AN EV) (handle : QueryHandle) :
    Queries I QS AN EV × Option QueryUpdate := e.call handle none Query.pollQuery

def pollQueryTransmit (e : Queries I QS AN EV) (handle : QueryHandle) (now : I) (buf : Bytes) :
    Queries I QS AN EV × Except TransmitError (Option Sent) :=
  e.call handle (.ok none) fun q => q.pollTransmit now buf

def noteQueryTransmitOutcome (e : Queries I QS AN EV) (handle : QueryHandle) (now : I)
    (v4 v6 : FamilyAttempt I) : Queries I QS AN EV × TransmitConfirm :=
  e.call handle .nothing fun q => q.noteTransmitOutcome now v4 v6

def handleQueryTimeout (e : Queries I QS AN EV) (handle : QueryHandle) (now : I) :
    Queries I QS AN EV := (e.call handle () fun q => (q.handleTimeout now, ())).1

def retireQuery (e : Queries I QS AN EV) (handle : QueryHandle) : Queries I QS AN EV :=
  (e.call handle () fun q => (q.retire, ())).1

def cancelQuery (e : Queries I QS AN EV) (handle : QueryHandle) : Queries I QS AN EV :=
  match e.queryKey handle with
  | none => e
  | some key =>
    match Pool.tryRemove e.queries key with
    | some (_, queries) => { e with queries := queries }
    | none => e

def collectedAnswers (e : Queries I QS AN EV) (handle : QueryHandle) : List CollectedAnswer :=
  match e.get? handle with
  | some q => (Pool.iter q.answers).map Prod.snd
  | none => []

def queryAcceptedCount (e : Queries I QS AN EV) (handle : QueryHandle) : Option UInt64 :=
  (e.get? handle).map Query.nextSeq

/-! ### What a datagram does to all of them (endpoint/receive.rs:362-424, 541-575) -/

def mapAll (e : Queries I QS AN EV) (f : Query I AN EV → Query I AN EV) : Queries I QS AN EV :=
  let keys := ((Pool.iter e.queries).map Prod.fst).dedup
  { e with queries := keys.foldl (fun queries key => Pool.update queries key f) e.queries }

def duplicate (now : I) (question : QuestionRef) (q : Query I AN EV) : Query I AN EV :=
  if q.done then q
  else if q.sameQuestion question then (q.noteDuplicateQuestion now).1 else q

def receive (e : Queries I QS AN EV) (now : I) (records : List Ref)
    (questions : List QuestionRef) : Queries I QS AN EV :=
  let e := records.foldl (fun e r => e.mapAll fun q => q.hear now r) e
  questions.foldl (fun e question => e.mapAll (duplicate now question)) e

section
variable [ReleasingPool QS]

variable (e : Queries I QS AN EV) (f : Query I AN EV → Query I AN EV)

theorem queryKey_some (handle : QueryHandle) (key : Nat)
    (h : e.queryKey handle = some key) :
    ∃ q, Pool.get e.queries key = some q ∧ q.handle = handle := by
  rw [queryKey, Option.map_eq_some_iff] at h
  obtain ⟨entry, hfind, hkey⟩ := h
  have hmem := List.mem_of_find?_eq_some hfind
  have hhandle := List.find?_some hfind
  rw [decide_eq_true_eq] at hhandle
  subst hkey
  exact ⟨entry.2, (LawfulPool.mem_iter _ _ _).mp hmem, hhandle⟩

theorem queryKey_none (handle : QueryHandle)
    (h : e.queryKey handle = none) (key : Nat) (q : Query I AN EV)
    (hq : Pool.get e.queries key = some q) : q.handle ≠ handle := by
  rw [queryKey, Option.map_eq_none_iff, List.find?_eq_none] at h
  have := h (key, q) ((LawfulPool.mem_iter _ _ _).mpr hq)
  simpa using this

theorem get?_handle (handle : QueryHandle) (q : Query I AN EV)
    (h : e.get? handle = some q) : q.handle = handle := by
  rw [get?, Option.bind_eq_some_iff] at h
  obtain ⟨key, hkey, hq⟩ := h
  obtain ⟨q', hq', hhandle⟩ := e.queryKey_some handle key hkey
  rw [hq] at hq'
  cases hq'
  exact hhandle

def Distinct (e : Queries I QS AN EV) : Prop :=
  ∀ k j q p, Pool.get e.queries k = some q → Pool.get e.queries j = some p →
    q.handle = p.handle → k = j

theorem get?_of_get (hd : e.Distinct) (key : Nat) (q : Query I AN EV)
    (h : Pool.get e.queries key = some q) : e.queryKey q.handle = some key := by
  cases hkey : e.queryKey q.handle with
  | none => exact absurd rfl (e.queryKey_none q.handle hkey key q h)
  | some j =>
    obtain ⟨p, hp, hhandle⟩ := e.queryKey_some q.handle j hkey
    rw [hd j key p q hp h hhandle]

theorem get?_eq_some (hd : e.Distinct) (handle : QueryHandle)
    (q : Query I AN EV) :
    e.get? handle = some q ↔ q.handle = handle ∧ ∃ key, Pool.get e.queries key = some q := by
  constructor
  · intro h
    refine ⟨e.get?_handle handle q h, ?_⟩
    rw [get?, Option.bind_eq_some_iff] at h
    obtain ⟨key, -, hq⟩ := h
    exact ⟨key, hq⟩
  · rintro ⟨rfl, key, hq⟩
    rw [get?, e.get?_of_get hd key q hq]
    exact hq

theorem call_get? {α : Type} (e : Queries I QS AN EV) (hd : e.Distinct) (handle : QueryHandle)
    (absent : α) (f : Query I AN EV → Query I AN EV × α) (hf : ∀ q, (f q).1.handle = q.handle) :
    (e.call handle absent f).1.Distinct ∧ ∀ h, (e.call handle absent f).1.get? h =
      if h = handle then (e.get? h).map fun q => (f q).1 else e.get? h := by
  cases hkey : e.queryKey handle with
  | none =>
    have hcall : e.call handle absent f = (e, absent) := by simp only [call, hkey]
    have hnone : e.get? handle = none := by simp only [get?, hkey, Option.bind_none]
    rw [hcall]
    refine ⟨hd, fun h => ?_⟩
    split
    · rename_i heq
      rw [heq, hnone, Option.map_none]
    · rfl
  | some key =>
    obtain ⟨q, hq, hhandle⟩ := e.queryKey_some handle key hkey
    have hcall : e.call handle absent f =
        ({ e with queries := Pool.update e.queries key fun _ => (f q).1 }, (f q).2) := by
      simp only [call, hkey, hq]
    have hget : ∀ j, Pool.get (Pool.update e.queries key fun _ => (f q).1) j =
        if j = key then some (f q).1 else Pool.get e.queries j := by
      intro j
      rw [LawfulPool.get_update]
      split
      · rename_i heq
        rw [heq, hq, Option.map_some]
      · rfl
    rw [hcall]
    have hd' : Distinct { e with queries := Pool.update e.queries key fun _ => (f q).1 } := by
      intro k j a b ha hb hab
      rw [hget] at ha hb
      split at ha
      · rename_i hk
        split at hb
        · rename_i hj
          rw [hk, hj]
        · cases ha
          rw [hk]
          exact hd key j q b hq hb (by rw [← hf q]; exact hab)
      · split at hb
        · rename_i hj
          cases hb
          rw [hj]
          exact hd k key a q ha hq (by rw [← hf q]; exact hab)
        · exact hd k j a b ha hb hab
    refine ⟨hd', fun h => Option.ext fun p => ?_⟩
    rw [get?_eq_some _ hd']
    simp only [hget]
    split
    · rename_i heq
      rw [heq, (e.get?_eq_some hd handle q).mpr ⟨hhandle, key, hq⟩, Option.map_some,
        Option.some.injEq]
      constructor
      · rintro ⟨hp, j, hj⟩
        split at hj
        · exact Option.some.inj hj
        · rename_i hne
          exact absurd (hd j key p q hj hq (by rw [hp, hhandle])) hne
      · intro hp
        exact ⟨by rw [← hp, hf, hhandle], key, by rw [if_pos rfl, hp]⟩
    · rename_i hne
      rw [e.get?_eq_some hd]
      refine and_congr_right fun hp => exists_congr fun j => ?_
      split
      · rename_i hj
        constructor
        · intro hp'
          cases hp'
          exact absurd (by rw [← hp, hf, hhandle]) hne
        · intro hp'
          rw [hj, hq] at hp'
          cases hp'
          exact absurd (by rw [← hp, hhandle]) hne
      · exact Iff.rfl

theorem call_answer {α : Type} (e : Queries I QS AN EV) (handle : QueryHandle) (absent : α)
    (f : Query I AN EV → Query I AN EV × α) :
    (e.call handle absent f).2 = ((e.get? handle).map fun q => (f q).2).getD absent := by
  rw [call, get?]
  cases e.queryKey handle with
  | none => rfl
  | some key =>
    simp only [Option.bind_some]
    cases Pool.get e.queries key <;> rfl

theorem cancelQuery_get? (hd : e.Distinct) (handle : QueryHandle) :
    (e.cancelQuery handle).Distinct ∧
      ∀ h, (e.cancelQuery handle).get? h = if h = handle then none else e.get? h := by
  cases hkey : e.queryKey handle with
  | none =>
    have hcancel : e.cancelQuery handle = e := by simp only [cancelQuery, hkey]
    have hnone : e.get? handle = none := by simp only [get?, hkey, Option.bind_none]
    rw [hcancel]
    refine ⟨hd, fun h => ?_⟩
    split
    · rename_i heq
      rw [heq, hnone]
    · rfl
  | some key =>
    obtain ⟨q, hq, hhandle⟩ := e.queryKey_some handle key hkey
    obtain ⟨queries, hremove⟩ := ReleasingPool.tryRemove_of_get e.queries q key hq
    have hcancel : e.cancelQuery handle = { e with queries := queries } := by
      simp only [cancelQuery, hkey, hremove]
    have hget := LawfulPool.get_tryRemove e.queries queries q key hremove
    rw [hcancel]
    have hd' : Distinct { e with queries := queries } := by
      intro k j a b ha hb hab
      rw [hget] at ha hb
      split at ha
      · cases ha
      · split at hb
        · cases hb
        · exact hd k j a b ha hb hab
    refine ⟨hd', fun h => Option.ext fun p => ?_⟩
    rw [get?_eq_some _ hd']
    simp only [hget]
    split
    · rename_i heq
      constructor
      · rintro ⟨hp, j, hj⟩
        split at hj
        · cases hj
        · rename_i hne
          exact absurd (hd j key p q hj hq (by rw [hp, heq, hhandle])) hne
      · intro hp
        cases hp
    · rename_i hne
      rw [e.get?_eq_some hd]
      refine and_congr_right fun hp => exists_congr fun j => ?_
      split
      · rename_i hj
        constructor
        · intro hp'
          cases hp'
        · intro hp'
          rw [hj, hq] at hp'
          cases hp'
          exact absurd (by rw [← hp, hhandle]) hne
      · exact Iff.rfl

def Fresh (e : Queries I QS AN EV) : Prop := e.get? ⟨e.nextQueryHandle⟩ = none

def started (e : Queries I QS AN EV) (spec : QuerySpec) (now : I) : Query I AN EV :=
  let q : Query I AN EV := Query.tryNew ⟨e.nextQueryHandle⟩ spec.qname spec.qtype spec.qclass
    e.nextTxid spec.unicastResponse (spec.timeout.bind fun dur => checkedAddDuration now dur)
  match spec.maxAnswers with
  | some m => q.setMaxAnswers m
  | none => q

@[simp] theorem started_handle (spec : QuerySpec) (now : I) :
    (e.started spec now).handle = ⟨e.nextQueryHandle⟩ := by
  rw [started]
  cases spec.maxAnswers <;> rfl

theorem tryStartQuery_full (spec : QuerySpec) (now : I)
    (h : Pool.insert e.queries (e.started spec now) = none) : e.tryStartQuery spec now =
      ({ e with
        nextQueryHandle := saturatingSucc32 e.nextQueryHandle
        nextTxid := if e.nextTxid + 1 = 0 then 1 else e.nextTxid + 1 },
        .error .storageFull) := by
  rw [started] at h
  simp only [tryStartQuery, h]

theorem tryStartQuery_placed (spec : QuerySpec) (now : I) (key : Nat)
    (queries : QS (Query I AN EV))
    (h : Pool.insert e.queries (e.started spec now) = some (key, queries)) :
    e.tryStartQuery spec now =
      ({ e with
        queries := queries
        nextQueryHandle := saturatingSucc32 e.nextQueryHandle
        nextTxid := if e.nextTxid + 1 = 0 then 1 else e.nextTxid + 1 },
        .ok ⟨e.nextQueryHandle⟩) := by
  rw [started] at h
  simp only [tryStartQuery, h]

theorem tryStartQuery_get? (hd : e.Distinct) (hfresh : e.Fresh)
    (spec : QuerySpec) (now : I) :
    (e.tryStartQuery spec now).1.Distinct ∧
      (e.tryStartQuery spec now).1.nextQueryHandle = saturatingSucc32 e.nextQueryHandle ∧
      ((e.tryStartQuery spec now).2 = .error .storageFull ∧
          (∀ h, (e.tryStartQuery spec now).1.get? h = e.get? h) ∨
        (e.tryStartQuery spec now).2 = .ok ⟨e.nextQueryHandle⟩ ∧
          ∀ h, (e.tryStartQuery spec now).1.get? h =
            if h = ⟨e.nextQueryHandle⟩ then some (e.started spec now) else e.get? h) := by
  cases hinsert : Pool.insert e.queries (e.started spec now) with
  | none =>
    rw [e.tryStartQuery_full spec now hinsert]
    exact ⟨hd, rfl, .inl ⟨rfl, fun h => rfl⟩⟩
  | some placed =>
    obtain ⟨key, queries⟩ := placed
    obtain ⟨hvacant, hget⟩ := LawfulPool.get_insert _ _ _ _ hinsert
    have hnew : ∀ j q, Pool.get e.queries j = some q → q.handle ≠ ⟨e.nextQueryHandle⟩ := by
      intro j q hq hhandle
      have := (e.get?_eq_some hd ⟨e.nextQueryHandle⟩ q).mpr ⟨hhandle, j, hq⟩
      rw [hfresh] at this
      cases this
    rw [e.tryStartQuery_placed spec now key queries hinsert]
    have hd' : Distinct { e with
        queries := queries
        nextQueryHandle := saturatingSucc32 e.nextQueryHandle
        nextTxid := if e.nextTxid + 1 = 0 then 1 else e.nextTxid + 1 } := by
      intro k j a b ha hb hab
      rw [hget] at ha hb
      split at ha
      · rename_i hk
        split at hb
        · rename_i hj
          rw [hk, hj]
        · cases ha
          exact absurd (by rw [← hab, started_handle]) (hnew j b hb)
      · split at hb
        · cases hb
          exact absurd (by rw [hab, started_handle]) (hnew k a ha)
        · exact hd k j a b ha hb hab
    refine ⟨hd', rfl, .inr ⟨rfl, fun h => Option.ext fun p => ?_⟩⟩
    rw [get?_eq_some _ hd']
    simp only [hget]
    split
    · rename_i heq
      rw [heq, Option.some.injEq]
      constructor
      · rintro ⟨hp, j, hj⟩
        split at hj
        · exact Option.some.inj hj
        · exact absurd hp (hnew j p hj)
      · intro hp
        exact ⟨by rw [← hp, started_handle], key, by rw [if_pos rfl, hp]⟩
    · rename_i hne
      rw [e.get?_eq_some hd]
      refine and_congr_right fun hp => exists_congr fun j => ?_
      split
      · rename_i hj
        rw [hj, hvacant]
        constructor
        · intro hp'
          cases hp'
          exact absurd (by rw [← hp, started_handle]) hne
        · intro hp'
          cases hp'
      · exact Iff.rfl

theorem get_foldl_update (keys : List Nat) (hn : keys.Nodup)
    (p : QS (Query I AN EV)) (k : Nat) :
    Pool.get (keys.foldl (fun queries key => Pool.update queries key f) p) k =
      if k ∈ keys then (Pool.get p k).map f else Pool.get p k := by
  induction keys generalizing p with
  | nil => rfl
  | cons key rest ih =>
    obtain ⟨hnot, hrest⟩ := List.nodup_cons.mp hn
    rw [List.foldl_cons, ih hrest, LawfulPool.get_update]
    by_cases hk : k = key
    · subst hk
      simp [hnot]
    · simp [hk]

theorem get_mapAll (e : Queries I QS AN EV) (k : Nat) :
    Pool.get (e.mapAll f).queries k = (Pool.get e.queries k).map f := by
  rw [mapAll]
  simp only
  rw [get_foldl_update f _ (List.nodup_dedup _)]
  split
  · rfl
  · rename_i hnot
    rw [List.mem_dedup, List.mem_map] at hnot
    cases hget : Pool.get e.queries k with
    | none => rfl
    | some q => exact absurd ⟨(k, q), (LawfulPool.mem_iter _ _ _).mpr hget, rfl⟩ hnot

theorem mapAll_get? (hf : ∀ q, (f q).handle = q.handle)
    (e : Queries I QS AN EV) (hd : e.Distinct) :
    (e.mapAll f).Distinct ∧ ∀ h, (e.mapAll f).get? h = (e.get? h).map f := by
  have hd' : (e.mapAll f).Distinct := by
    intro k j a b ha hb hab
    rw [get_mapAll, Option.map_eq_some_iff] at ha hb
    obtain ⟨q, hq, hqa⟩ := ha
    obtain ⟨p, hp, hpb⟩ := hb
    exact hd k j q p hq hp (by rw [← hf q, ← hf p, hqa, hpb]; exact hab)
  refine ⟨hd', fun h => Option.ext fun p => ?_⟩
  rw [get?_eq_some _ hd', Option.map_eq_some_iff]
  constructor
  · rintro ⟨hp, key, hkey⟩
    rw [get_mapAll, Option.map_eq_some_iff] at hkey
    obtain ⟨q, hq, hqp⟩ := hkey
    exact ⟨q, (e.get?_eq_some hd h q).mpr ⟨by rw [← hf q, hqp, hp], key, hq⟩, hqp⟩
  · rintro ⟨q, hq, hqp⟩
    obtain ⟨hhandle, key, hkey⟩ := (e.get?_eq_some hd h q).mp hq
    exact ⟨by rw [← hqp, hf, hhandle], key, by rw [get_mapAll, hkey, Option.map_some, hqp]⟩

end

end Queries
end Hick
