import Hick.Cache.Runs
import Hick.Stats

/-!
# The counters of the cache (cache.rs:195-436)

The size of the cache is written down at the end of an insert and of a sweep that removed something.
-/

namespace Hick
open Octets Wire Noted

/-- `insert` fails at capacity: a pool that has just given a value up takes another. -/
class ReusingPool (P : Type → Type) [Pool P] : Prop where
  insert_of_tryRemove {V : Type} (p p' : P V) (v w : V) (k : Nat)
    (h : Pool.tryRemove p k = some (v, p')) : (Pool.insert p' w).isSome = true

instance : ReusingPool Slab where
  insert_of_tryRemove _ _ _ _ _ _ := rfl

section
variable {I : Type} [Instant I] {P : Type → Type} [Pool P]

namespace Cache

def evictSoonestNoted (entries : P (CacheEntry I)) : P (CacheEntry I) × List CacheNote :=
  match soonest (Pool.iter entries) none with
  | some (key, _) =>
    match Pool.tryRemove entries key with
    | some (_, entries) => (entries, [.cacheEvictions])
    | none => (entries, [.cacheEvictions])
  | none => (entries, [])

def boundedInsertNoted (c : Cache I P) (entry : CacheEntry I) :
    (Cache I P × Option Nat) × List CacheNote :=
  let (entries, proactive) :=
    if c.maxEntries ≤ (Pool.iter c.entries).length then evictSoonestNoted c.entries
    else (c.entries, [])
  match Pool.insert entries entry with
  | some (k, entries) => (({ c with entries := entries }, some k), proactive)
  | none =>
    let (entries, reactive) := evictSoonestNoted entries
    match Pool.insert entries entry with
    | some (k, entries) => (({ c with entries := entries }, some k), proactive ++ reactive)
    | none => (({ c with entries := entries }, none), proactive ++ reactive)

def tryInsertNoted (c : Cache I P) (key : RecordKey) (ttl : Duration) (now : I)
    (cacheFlush : Bool) : Cache I P × List CacheNote :=
  if c.maxEntries = 0 then (c, [])
  else if ttl = 0 then (c.goodbye key now, [])
  else
    let c := if cacheFlush then c.flush key now else c
    let expiresAt := (checkedAddDuration now ttl).getD now
    match c.find key with
    | some (k, _) =>
      let c := { c with entries := Pool.update c.entries k fun e => { e with
        expiresAt := expiresAt
        receivedAt := now } }
      (c, [.cacheRefreshes, .setCacheSize (Pool.iter c.entries).length])
    | none =>
      let ((c, inserted), evicted) := c.boundedInsertNoted ⟨key, expiresAt, now⟩
      (c, match inserted with
        | some _ => evicted ++ [.cacheInserts, .setCacheSize (Pool.iter c.entries).length]
        | none => evicted)

def sweepExpiredNoted (c : Cache I P) (now : I) : Cache I P × List CacheNote :=
  let (c, removed) := c.sweepExpired now
  (c, if 0 < removed then
      [.cacheExpirations removed, .setCacheSize (Pool.iter c.entries).length]
    else [])

def observeNoted (now : I) (st : Cache I P × List (Name × ResourceType × ResourceClass))
    (o : Observation) :
    (Cache I P × List (Name × ResourceType × ResourceClass)) × List CacheNote :=
  let doFlush := o.flushes st.2
  let (c, notes) := st.1.tryInsertNoted o.key (Duration.fromSecs o.ttl.toNat) now doFlush
  ((c, if doFlush then st.2 ++ [o.rrset] else st.2), notes)

def observeRecordsNoted (now : I) : List (Except ParseError Ref) →
    Cache I P × List (Name × ResourceType × ResourceClass) →
      (Cache I P × List (Name × ResourceType × ResourceClass)) × List CacheNote
  | [], st => (st, [])
  | .error _ :: _, st => (st, [])
  | .ok r :: rest, st =>
    match Observation.of r with
    | none => observeRecordsNoted now rest st
    | some o => andThen (observeNoted now st o) (observeRecordsNoted now rest)

def cachePassNoted (c : Cache I P) (now : I) (reader : MessageReader) (admits : Admits)
    (populateCache : Bool) : Cache I P × List CacheNote :=
  if admits.observation then
    if !populateCache || !reader.header.flags.isResponse then (c, [])
    else
      let (st, notes) := observeRecordsNoted now (reader.answers ++ reader.additional) (c, [])
      (st.1, notes)
  else (c, [])

theorem evictSoonestNoted_fst (entries : P (CacheEntry I)) :
    (evictSoonestNoted entries).1 = evictSoonest entries := by
  unfold evictSoonestNoted evictSoonest
  cases soonest (Pool.iter entries) none with
  | none => rfl
  | some found =>
    dsimp only
    cases Pool.tryRemove entries found.1 with
    | none => rfl
    | some _ => rfl

theorem boundedInsertNoted_fst (c : Cache I P) (entry : CacheEntry I) :
    (c.boundedInsertNoted entry).1 = c.boundedInsert entry := by
  have hroom : (if c.maxEntries ≤ (Pool.iter c.entries).length then evictSoonestNoted c.entries
      else (c.entries, [])).1 =
        if c.maxEntries ≤ (Pool.iter c.entries).length then evictSoonest c.entries
        else c.entries := by
    split
    · exact evictSoonestNoted_fst c.entries
    · rfl
  unfold boundedInsertNoted boundedInsert
  dsimp only
  rw [← hroom]
  generalize (if c.maxEntries ≤ (Pool.iter c.entries).length then evictSoonestNoted c.entries
    else (c.entries, [])) = room
  obtain ⟨entries, proactive⟩ := room
  dsimp only
  cases Pool.insert entries entry with
  | some _ => rfl
  | none =>
    dsimp only
    rw [evictSoonestNoted_fst]
    cases Pool.insert (evictSoonest entries) entry with
    | some _ => rfl
    | none => rfl

theorem tryInsertNoted_fst (c : Cache I P) (key : RecordKey) (ttl : Duration) (now : I)
    (cacheFlush : Bool) :
    (c.tryInsertNoted key ttl now cacheFlush).1 = (c.tryInsert key ttl now cacheFlush).1 := by
  unfold tryInsertNoted tryInsert
  split
  · rfl
  · split
    · rfl
    · dsimp only
      generalize (if cacheFlush = true then c.flush key now else c) = c
      cases c.find key with
      | some _ => rfl
      | none => exact congrArg Prod.fst (c.boundedInsertNoted_fst _)

theorem sweepExpiredNoted_fst (c : Cache I P) (now : I) :
    (c.sweepExpiredNoted now).1 = (c.sweepExpired now).1 := rfl

theorem observeRecordsNoted_fst (now : I) (records : List (Except ParseError Ref))
    (st : Cache I P × List (Name × ResourceType × ResourceClass)) :
    (observeRecordsNoted now records st).1 = observeRecords now records st := by
  induction records generalizing st with
  | nil => rfl
  | cons record rest ih =>
    cases record with
    | error _ => rfl
    | ok r =>
      unfold observeRecordsNoted observeRecords
      cases Observation.of r with
      | none => exact ih st
      | some o =>
        have hone : (observeNoted now st o).1 = observe now st o := by
          unfold observeNoted observe
          dsimp only
          rw [tryInsertNoted_fst]
        dsimp only
        rw [andThen, hone]
        exact ih _

theorem cachePassNoted_fst (c : Cache I P) (now : I) (reader : MessageReader) (admits : Admits)
    (populateCache : Bool) :
    (c.cachePassNoted now reader admits populateCache).1 =
      c.cachePass now reader admits populateCache := by
  unfold cachePassNoted cachePass
  split
  · split
    · rfl
    · dsimp only
      rw [observeRecordsNoted_fst]
  · rfl

end Cache

namespace CacheStats

def Sized (st : CacheStats) (c : Cache I P) : Prop :=
  st.cacheSize = UInt64.ofNat (Pool.iter c.entries).length

theorem fits (st : CacheStats) (notes : List CacheNote) : register.Fits st notes := by
  induction notes generalizing st with
  | nil => trivial
  | cons n rest ih => exact ⟨trivial, ih _⟩

omit [Instant I] in
theorem sized_set (st : CacheStats) (c : Cache I P) (notes : List CacheNote) :
    register.Leads Sized st (c, notes ++ [.setCacheSize (Pool.iter c.entries).length]) := by
  refine ⟨fits _ _, ?_⟩
  rw [register.after_append]
  rfl

theorem after_evictions (st : CacheStats) (notes : List CacheNote)
    (h : ∀ n ∈ notes, n = .cacheEvictions) :
    (register.after st notes).cacheSize = st.cacheSize := by
  induction notes generalizing st with
  | nil => rfl
  | cons n rest ih =>
    obtain ⟨hn, hrest⟩ := List.forall_mem_cons.mp h
    rw [hn]
    exact ih _ hrest

theorem evictSoonestNoted_notes (entries : P (CacheEntry I)) :
    ∀ n ∈ (Cache.evictSoonestNoted entries).2, n = .cacheEvictions := by
  intro n hn
  unfold Cache.evictSoonestNoted at hn
  split at hn
  · split at hn
    · exact List.mem_singleton.mp hn
    · exact List.mem_singleton.mp hn
  · cases hn

section
variable [ReusingPool P]

theorem evictSoonestNoted_room (entries : P (CacheEntry I)) (e : CacheEntry I)
    (h : Pool.insert (Cache.evictSoonestNoted entries).1 e = none) :
    (Cache.evictSoonestNoted entries).1 = entries := by
  unfold Cache.evictSoonestNoted at h ⊢
  cases hfound : Cache.soonest (Pool.iter entries) none with
  | none => rfl
  | some found =>
    rw [hfound] at h
    dsimp only at h ⊢
    cases hremove : Pool.tryRemove entries found.1 with
    | none => rfl
    | some removed =>
      obtain ⟨v, left⟩ := removed
      rw [hremove] at h
      have hroom := ReusingPool.insert_of_tryRemove entries left v e found.1 hremove
      dsimp only at h
      rw [h] at hroom
      cases hroom

theorem boundedInsertNoted_notes (c : Cache I P) (e : CacheEntry I) :
    (∀ n ∈ (c.boundedInsertNoted e).2, n = .cacheEvictions) ∧
      ((c.boundedInsertNoted e).1.2 = none → (c.boundedInsertNoted e).1.1 = c) := by
  unfold Cache.boundedInsertNoted
  have hproactive : ∃ room, (if c.maxEntries ≤ (Pool.iter c.entries).length then
        Cache.evictSoonestNoted c.entries else (c.entries, [])) = room ∧
      (∀ n ∈ room.2, n = .cacheEvictions) ∧
      (Pool.insert room.1 e = none → room.1 = c.entries) := by
    refine ⟨_, rfl, ?_⟩
    split
    · exact ⟨evictSoonestNoted_notes c.entries, evictSoonestNoted_room c.entries e⟩
    · exact ⟨nofun, fun _ => rfl⟩
  obtain ⟨⟨entries, proactive⟩, hroom, hnotes, hfull⟩ := hproactive
  rw [hroom]
  dsimp only at hnotes hfull ⊢
  cases hinsert : Pool.insert entries e with
  | some _ => exact ⟨hnotes, nofun⟩
  | none =>
    have hall : ∀ n ∈ proactive ++ (Cache.evictSoonestNoted entries).2, n = .cacheEvictions := by
      intro n hn
      rcases List.mem_append.mp hn with hfirst | hsecond
      · exact hnotes n hfirst
      · exact evictSoonestNoted_notes entries n hsecond
    dsimp only
    cases hagain : Pool.insert (Cache.evictSoonestNoted entries).1 e with
    | some _ => exact ⟨hall, nofun⟩
    | none =>
      refine ⟨hall, fun _ => ?_⟩
      dsimp only
      rw [evictSoonestNoted_room entries e hagain, hfull hinsert]

section
variable [OrderedPool P] [ReleasingPool P]

theorem Sized.tryInsert (st : CacheStats) (c : Cache I P) (h : Sized st c) (key : RecordKey)
    (ttl : Duration) (now : I) (cacheFlush : Bool) :
    register.Leads Sized st (c.tryInsertNoted key ttl now cacheFlush) := by
  unfold Cache.tryInsertNoted
  split
  · exact register.leads_nil Sized st c h
  · split
    · apply register.leads_nil Sized st
      unfold Sized
      rw [(c.goodbye_size key now).2]
      exact h
    · have hflushed : ∃ flushed, (if cacheFlush = true then c.flush key now else c) = flushed ∧
          Sized st flushed := by
        refine ⟨_, rfl, ?_⟩
        split
        · unfold Sized
          rw [c.length_flush key now]
          exact h
        · exact h
      obtain ⟨flushed, hc, hsized⟩ := hflushed
      rw [hc]
      dsimp only
      cases flushed.find key with
      | some found => exact sized_set st _ [.cacheRefreshes]
      | none =>
        generalize (⟨key, (checkedAddDuration now ttl).getD now, now⟩ : CacheEntry I) = e
        obtain ⟨hnotes, hrefused⟩ := boundedInsertNoted_notes flushed e
        dsimp only
        cases hinserted : (flushed.boundedInsertNoted e).1.2 with
        | some k =>
          dsimp only
          rw [show ∀ n : CacheNote, (flushed.boundedInsertNoted e).2 ++ [.cacheInserts, n] =
            ((flushed.boundedInsertNoted e).2 ++ [.cacheInserts]) ++ [n] by
              intro n
              rw [List.append_assoc, List.singleton_append]]
          exact sized_set st _ _
        | none =>
          refine ⟨fits _ _, ?_⟩
          dsimp only
          rw [hrefused hinserted]
          unfold Sized
          rw [after_evictions st _ hnotes]
          exact hsized

theorem Sized.cachePass (st : CacheStats) (c : Cache I P) (h : Sized st c) (now : I)
    (reader : MessageReader) (admits : Admits) (populateCache : Bool) :
    register.Leads Sized st (c.cachePassNoted now reader admits populateCache) := by
  have hrecords : ∀ (records : List (Except ParseError Ref)) (st : CacheStats)
      (s : Cache I P × List (Name × ResourceType × ResourceClass)), Sized st s.1 →
      register.Leads (fun st s => Sized st s.1) st (Cache.observeRecordsNoted now records s) := by
    intro records
    induction records with
    | nil =>
      intro st s hs
      exact register.leads_nil _ st s hs
    | cons record rest ih =>
      intro st s hs
      cases record with
      | error _ => exact register.leads_nil _ st s hs
      | ok r =>
        unfold Cache.observeRecordsNoted
        cases Observation.of r with
        | none => exact ih st s hs
        | some o =>
          have hone : register.Leads
              (fun st (s : Cache I P × List (Name × ResourceType × ResourceClass)) => Sized st s.1)
              st (Cache.observeNoted now s o) :=
            Sized.tryInsert st s.1 hs o.key (Duration.fromSecs o.ttl.toNat) now (o.flushes s.2)
          exact register.leads_andThen _ _ st (Cache.observeNoted now s o) _ hone ih
  unfold Cache.cachePassNoted
  split
  · split
    · exact register.leads_nil Sized st c h
    · exact hrecords _ st (c, []) h
  · exact register.leads_nil Sized st c h

end
end

omit [Instant I] in
theorem removeAll_count (keys : List Nat) (st : P (CacheEntry I) × Nat)
    (h : (Cache.removeAll keys st).2 = st.2) : (Cache.removeAll keys st).1 = st.1 := by
  have hgrows : ∀ (keys : List Nat) (st : P (CacheEntry I) × Nat),
      st.2 ≤ (Cache.removeAll keys st).2 := by
    intro keys
    induction keys with
    | nil => exact fun st => Nat.le_refl _
    | cons key rest ih =>
      intro st
      rw [Cache.removeAll, List.foldl_cons]
      cases Pool.tryRemove st.1 key with
      | none => exact ih st
      | some removed => exact le_trans (Nat.le_succ _) (ih (removed.2, st.2 + 1))
  induction keys generalizing st with
  | nil => rfl
  | cons key rest ih =>
    rw [Cache.removeAll, List.foldl_cons] at h ⊢
    cases hremove : Pool.tryRemove st.1 key with
    | none =>
      rw [hremove] at h
      exact ih st h
    | some removed =>
      rw [hremove] at h
      have hle := hgrows rest (removed.2, st.2 + 1)
      dsimp only at h hle
      rw [Cache.removeAll, h] at hle
      omega

theorem Sized.sweepExpired (st : CacheStats) (c : Cache I P) (h : Sized st c) (now : I) :
    register.Leads Sized st (c.sweepExpiredNoted now) := by
  unfold Cache.sweepExpiredNoted
  dsimp only
  split
  · exact sized_set st _ [.cacheExpirations _]
  · rename_i hnone
    have hzero : (c.sweepExpired now).2 = 0 := by omega
    have hsame : (c.sweepExpired now).1 = c := by
      unfold Cache.sweepExpired at hzero ⊢
      dsimp only at hzero ⊢
      rw [removeAll_count _ _ hzero]
    rw [hsame]
    exact register.leads_nil Sized st c h

end CacheStats
end
end Hick
