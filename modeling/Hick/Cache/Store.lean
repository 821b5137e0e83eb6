import Hick.Routing.Reading

/-!
# The passive cache (cache.rs)

A record is cached under its name, type, class and folded rdata.
-/

set_option linter.unusedSectionVars false

namespace Hick
open Octets Wire

structure RecordKey where
  name : Name
  rtype : ResourceType
  rclass : ResourceClass
  rdata : Bytes
  deriving DecidableEq

namespace RecordKey

def sameSet (a b : RecordKey) : Bool :=
  a.rtype == b.rtype && a.rclass == b.rclass && a.name.text == b.name.text

def same (a b : RecordKey) : Bool := a.sameSet b && a.rdata == b.rdata

theorem same_iff (a b : RecordKey) : a.same b = true ↔ a = b := by
  unfold same sameSet
  simp only [Bool.and_eq_true, beq_iff_eq]
  constructor
  · intro h
    obtain ⟨⟨⟨htype, hclass⟩, hname⟩, hrdata⟩ := h
    cases a
    cases b
    cases htype
    cases hclass
    cases hrdata
    cases Name.ext_text _ _ hname
    rfl
  · intro h
    rw [h]
    exact ⟨⟨⟨rfl, rfl⟩, rfl⟩, rfl⟩

end RecordKey

structure CacheEntry (I : Type) where
  key : RecordKey
  expiresAt : I
  receivedAt : I
  deriving DecidableEq

structure Cache (I : Type) (P : Type → Type) where
  entries : P (CacheEntry I)
  maxEntries : Nat

def defaultMaxEntries : Nat := 1024
def oneSecond : Duration := Duration.fromSecs 1

section
variable {I : Type} [Instant I]

namespace CacheEntry

def recent (e : CacheEntry I) (now : I) : Bool :=
  match checkedDurationSince now e.receivedAt with
  | some age => decide (age < oneSecond)
  | none => true

def expireAt (deadline : I) (e : CacheEntry I) : CacheEntry I := { e with expiresAt := deadline }

def flushedBy (e : CacheEntry I) (key : RecordKey) (now deadline : I) : Bool :=
  e.key.sameSet key && !(e.recent now || e.key.rdata == key.rdata) &&
    decide (deadline < e.expiresAt)

def withdrawn (now : I) (e : CacheEntry I) : CacheEntry I :=
  match checkedAddDuration now oneSecond with
  | some deadline => e.expireAt (min e.expiresAt deadline)
  | none => e

def flushed (key : RecordKey) (now : I) (e : CacheEntry I) : CacheEntry I :=
  match checkedAddDuration now oneSecond with
  | some deadline => if e.flushedBy key now deadline then e.expireAt deadline else e
  | none => e

theorem flushed_key (key : RecordKey) (now : I) (e : CacheEntry I) :
    (e.flushed key now).key = e.key := by
  unfold flushed
  cases checkedAddDuration now oneSecond with
  | none => rfl
  | some deadline =>
    dsimp only
    split <;> rfl

end CacheEntry

namespace Cache
variable {P : Type → Type} [Pool P]

def new : Cache I P := ⟨Pool.new, defaultMaxEntries⟩

def find (c : Cache I P) (key : RecordKey) : Option (Nat × CacheEntry I) :=
  (Pool.iter c.entries).find? fun ke => ke.2.key.same key

/-- A goodbye: the record has one second left, if it had more (cache.rs:223-243). -/
def goodbye (c : Cache I P) (key : RecordKey) (now : I) : Cache I P :=
  match checkedAddDuration now oneSecond with
  | none => c
  | some deadline =>
    match c.find key with
    | none => c
    | some (k, e) =>
      if deadline < e.expiresAt then
        { c with entries := Pool.update c.entries k (CacheEntry.expireAt deadline) }
      else c

/-- A cache-flush: the other records of the set have one second left (cache.rs:260-293). -/
def flush (c : Cache I P) (key : RecordKey) (now : I) : Cache I P :=
  match checkedAddDuration now oneSecond with
  | none => c
  | some deadline =>
    let toClamp := ((Pool.iter c.entries).filter fun ke => ke.2.flushedBy key now deadline).map (·.1)
    { c with entries := toClamp.foldl (fun entries k =>
        Pool.update entries k (CacheEntry.expireAt deadline)) c.entries }

/-- The loop for the victim: the entry that expires first, the first of them in the pool. -/
def soonest : List (Nat × CacheEntry I) → Option (Nat × I) → Option (Nat × I)
  | [], victim => victim
  | (key, e) :: rest, victim =>
    soonest rest (some
      (match victim with
      | some prev => if prev.2 ≤ e.expiresAt then prev else (key, e.expiresAt)
      | none => (key, e.expiresAt)))

def evictSoonest (entries : P (CacheEntry I)) : P (CacheEntry I) :=
  match soonest (Pool.iter entries) none with
  | some (key, _) =>
    match Pool.tryRemove entries key with
    | some (_, entries) => entries
    | none => entries
  | none => entries

def boundedInsert (c : Cache I P) (entry : CacheEntry I) : Cache I P × Option Nat :=
  let entries :=
    if c.maxEntries ≤ (Pool.iter c.entries).length then evictSoonest c.entries else c.entries
  match Pool.insert entries entry with
  | some (k, entries) => ({ c with entries := entries }, some k)
  | none =>
    let entries := evictSoonest entries
    match Pool.insert entries entry with
    | some (k, entries) => ({ c with entries := entries }, some k)
    | none => ({ c with entries := entries }, none)

/-- `try_insert`: the key of a record that is cached now; `none` in front is the pool's error. -/
def tryInsert (c : Cache I P) (key : RecordKey) (ttl : Duration) (now : I) (cacheFlush : Bool) :
    Cache I P × Option (Option Nat) :=
  if c.maxEntries = 0 then (c, some none)
  else if ttl = 0 then (c.goodbye key now, some none)
  else
    let c := if cacheFlush then c.flush key now else c
    let expiresAt := (checkedAddDuration now ttl).getD now
    match c.find key with
    | some (k, _) =>
      ({ c with entries := Pool.update c.entries k fun e => { e with
          expiresAt := expiresAt
          receivedAt := now } }, some (some k))
    | none =>
      let (c, inserted) := c.boundedInsert ⟨key, expiresAt, now⟩
      (c, inserted.map some)

def entry (c : Cache I P) (key : RecordKey) : Option (CacheEntry I) := (c.find key).map Prod.snd

def Distinct (c : Cache I P) : Prop :=
  ∀ k j a b, Pool.get c.entries k = some a → Pool.get c.entries j = some b → a.key = b.key → k = j

section
variable [OrderedPool P]

variable (c : Cache I P)

theorem find_some (key : RecordKey) (k : Nat) (e : CacheEntry I)
    (h : c.find key = some (k, e)) : Pool.get c.entries k = some e ∧ e.key = key := by
  unfold find at h
  have hsame := List.find?_some h
  exact ⟨(LawfulPool.mem_iter _ k e).mp (List.mem_of_find?_eq_some h),
    (RecordKey.same_iff _ _).mp hsame⟩

theorem find_eq_some (h : c.Distinct) (key : RecordKey) (k : Nat)
    (e : CacheEntry I) :
    c.find key = some (k, e) ↔ Pool.get c.entries k = some e ∧ e.key = key := by
  constructor
  · exact c.find_some key k e
  · intro hcached
    obtain ⟨hget, hkey⟩ := hcached
    cases hfind : c.find key with
    | none =>
      have hnone := List.find?_eq_none.mp hfind (k, e) ((LawfulPool.mem_iter _ k e).mpr hget)
      exact absurd ((RecordKey.same_iff _ _).mpr hkey) hnone
    | some found =>
      obtain ⟨j, f⟩ := found
      obtain ⟨hmem, hsame⟩ := c.find_some key j f hfind
      obtain rfl := h k j e f hget hmem (hkey.trans hsame.symm)
      rw [hget] at hmem
      cases hmem
      rfl

theorem entry_eq_some (h : c.Distinct) (key : RecordKey) (e : CacheEntry I) :
    c.entry key = some e ↔ e.key = key ∧ ∃ k, Pool.get c.entries k = some e := by
  unfold entry
  rw [Option.map_eq_some_iff]
  constructor
  · intro hentry
    obtain ⟨⟨k, f⟩, hfind, rfl⟩ := hentry
    obtain ⟨hget, hkey⟩ := (c.find_eq_some h key k f).mp hfind
    exact ⟨hkey, k, hget⟩
  · intro hcached
    obtain ⟨hkey, k, hget⟩ := hcached
    exact ⟨(k, e), (c.find_eq_some h key k e).mpr ⟨hget, hkey⟩, rfl⟩

theorem entry_map (c c' : Cache I P) (h : c.Distinct) (g : CacheEntry I → CacheEntry I)
    (hkey : ∀ e, (g e).key = e.key)
    (hget : ∀ j, Pool.get c'.entries j = (Pool.get c.entries j).map g) :
    c'.Distinct ∧ ∀ y, c'.entry y = (c.entry y).map g := by
  have hdistinct : c'.Distinct := by
    intro k j a b ha hb hab
    rw [hget] at ha hb
    obtain ⟨a₀, ha₀, rfl⟩ := Option.map_eq_some_iff.mp ha
    obtain ⟨b₀, hb₀, rfl⟩ := Option.map_eq_some_iff.mp hb
    rw [hkey, hkey] at hab
    exact h k j a₀ b₀ ha₀ hb₀ hab
  refine ⟨hdistinct, ?_⟩
  intro y
  apply Option.ext
  intro e
  rw [c'.entry_eq_some hdistinct, Option.map_eq_some_iff]
  constructor
  · intro hcached
    obtain ⟨hy, k, he⟩ := hcached
    rw [hget] at he
    obtain ⟨e₀, he₀, rfl⟩ := Option.map_eq_some_iff.mp he
    exact ⟨e₀, (c.entry_eq_some h y e₀).mpr ⟨(hkey e₀).symm.trans hy, k, he₀⟩, rfl⟩
  · intro hcached
    obtain ⟨e₀, he₀, rfl⟩ := hcached
    obtain ⟨hy, k, hk⟩ := (c.entry_eq_some h y e₀).mp he₀
    exact ⟨(hkey e₀).trans hy, k, by rw [hget, hk, Option.map_some]⟩

theorem length_update (entries : P (CacheEntry I)) (k : Nat) (f : CacheEntry I → CacheEntry I) :
    (Pool.iter (Pool.update entries k f)).length = (Pool.iter entries).length := by
  rw [iter_update, List.length_map]

theorem update_get (h : c.Distinct) (key : RecordKey) (k : Nat)
    (e : CacheEntry I) (hfind : c.find key = some (k, e)) (f : CacheEntry I → CacheEntry I)
    (j : Nat) :
    Pool.get (Pool.update c.entries k f) j =
      (Pool.get c.entries j).map fun e => if e.key = key then f e else e := by
  obtain ⟨hk, he⟩ := c.find_some key k e hfind
  rw [LawfulPool.get_update]
  by_cases hj : j = k
  · rw [if_pos hj, hj, hk, Option.map_some, Option.map_some, if_pos he]
  · rw [if_neg hj]
    cases hother : Pool.get c.entries j with
    | none => rfl
    | some other =>
      have hne : other.key ≠ key := by
        intro hsame
        exact hj (h j k other e hother hk (hsame.trans he.symm))
      rw [Option.map_some, if_neg hne]

theorem update_entry (h : c.Distinct) (key : RecordKey) (k : Nat)
    (e : CacheEntry I) (hfind : c.find key = some (k, e)) (f : CacheEntry I → CacheEntry I)
    (hkey : ∀ e, (f e).key = e.key) :
    let c' : Cache I P := { c with entries := Pool.update c.entries k f }
    c'.Distinct ∧ ∀ y, c'.entry y = if y = key then some (f e) else c.entry y := by
  intro c'
  obtain ⟨hk, he⟩ := c.find_some key k e hfind
  obtain ⟨hdistinct, hentry⟩ := c.entry_map c' h _ (by
    intro e
    split
    · exact hkey e
    · rfl) (c.update_get h key k e hfind f)
  refine ⟨hdistinct, ?_⟩
  intro y
  rw [hentry]
  by_cases hy : y = key
  · rw [if_pos hy, hy, (c.entry_eq_some h key e).mpr ⟨he, k, hk⟩, Option.map_some, if_pos he]
  · rw [if_neg hy]
    cases hother : c.entry y with
    | none => rfl
    | some other =>
      have hkey' := ((c.entry_eq_some h y other).mp hother).1
      rw [Option.map_some, if_neg (by rw [hkey']; exact hy)]

theorem goodbye_entry (h : c.Distinct) (key : RecordKey) (now : I) :
    (c.goodbye key now).Distinct ∧ (c.goodbye key now).maxEntries = c.maxEntries ∧
      (Pool.iter (c.goodbye key now).entries).length = (Pool.iter c.entries).length ∧
      ∀ y, (c.goodbye key now).entry y =
        if y = key then (c.entry y).map (CacheEntry.withdrawn now) else c.entry y := by
  have hidle : ∀ g : CacheEntry I → CacheEntry I, (∀ e ∈ c.entry key, g e = e) →
      c.Distinct ∧ c.maxEntries = c.maxEntries ∧
        (Pool.iter c.entries).length = (Pool.iter c.entries).length ∧
        ∀ y, c.entry y = if y = key then (c.entry y).map g else c.entry y := by
    intro g hg
    refine ⟨h, rfl, rfl, ?_⟩
    intro y
    split
    · rename_i hy
      cases hentry : c.entry y with
      | none => rfl
      | some e =>
        rw [hy] at hentry
        rw [Option.map_some, hg e hentry]
    · rfl
  unfold goodbye
  cases hadd : checkedAddDuration now oneSecond with
  | none =>
    apply hidle
    intro e _
    rw [CacheEntry.withdrawn, hadd]
  | some deadline =>
    have hwithdrawn : ∀ e : CacheEntry I, e.withdrawn now =
        e.expireAt (min e.expiresAt deadline) := by
      intro e
      rw [CacheEntry.withdrawn, hadd]
    dsimp only
    cases hfind : c.find key with
    | none =>
      apply hidle
      intro e he
      rw [entry, hfind] at he
      cases he
    | some found =>
      obtain ⟨k, e⟩ := found
      have hentry : c.entry key = some e := by rw [entry, hfind, Option.map_some]
      dsimp only
      by_cases hlt : deadline < e.expiresAt
      · rw [if_pos hlt]
        obtain ⟨hdistinct, hupdated⟩ := c.update_entry h key k e hfind
          (CacheEntry.expireAt deadline) fun _ => rfl
        refine ⟨hdistinct, rfl, length_update c.entries k _, ?_⟩
        intro y
        rw [hupdated]
        by_cases hy : y = key
        · rw [if_pos hy, if_pos hy, hy, hentry, Option.map_some, hwithdrawn,
            min_eq_right (le_of_lt hlt)]
        · rw [if_neg hy, if_neg hy]
      · rw [if_neg hlt]
        apply hidle
        intro f hf
        rw [hentry] at hf
        cases hf
        rw [hwithdrawn, min_eq_left (not_lt.mp hlt)]
        rfl

theorem get_expireAll (deadline : I) (keys : List Nat) (entries : P (CacheEntry I)) (j : Nat) :
    Pool.get (keys.foldl (fun entries k =>
        Pool.update entries k (CacheEntry.expireAt deadline)) entries) j =
      if j ∈ keys then (Pool.get entries j).map (CacheEntry.expireAt deadline)
      else Pool.get entries j := by
  induction keys generalizing entries with
  | nil => rw [List.foldl_nil, if_neg List.not_mem_nil]
  | cons k rest ih =>
    rw [List.foldl_cons, ih, LawfulPool.get_update]
    by_cases hj : j = k
    · have htwice : ((Pool.get entries j).map (CacheEntry.expireAt deadline)).map
          (CacheEntry.expireAt deadline) = (Pool.get entries j).map (CacheEntry.expireAt deadline) := by
        rw [Option.map_map]
        rfl
      rw [if_pos hj, if_pos (List.mem_cons.mpr (.inl hj)), htwice, ite_self]
    · rw [if_neg hj]
      simp only [List.mem_cons, hj, false_or]

theorem length_expireAll (deadline : I) (keys : List Nat) (entries : P (CacheEntry I)) :
    (Pool.iter (keys.foldl (fun entries k =>
      Pool.update entries k (CacheEntry.expireAt deadline)) entries)).length =
        (Pool.iter entries).length := by
  induction keys generalizing entries with
  | nil => rfl
  | cons k rest ih => rw [List.foldl_cons, ih, length_update]

theorem flush_get (key : RecordKey) (now : I) (j : Nat) :
    Pool.get (c.flush key now).entries j =
      (Pool.get c.entries j).map (CacheEntry.flushed key now) := by
  unfold flush CacheEntry.flushed
  cases checkedAddDuration now oneSecond with
  | none => exact Option.map_id'.symm
  | some deadline =>
    dsimp only
    have hclamped : j ∈ ((Pool.iter c.entries).filter fun ke =>
        ke.2.flushedBy key now deadline).map (·.1) ↔
          ∃ e, Pool.get c.entries j = some e ∧ e.flushedBy key now deadline = true := by
      rw [List.mem_map]
      constructor
      · intro hmem
        obtain ⟨⟨k, e⟩, hke, rfl⟩ := hmem
        obtain ⟨hiter, hflushed⟩ := List.mem_filter.mp hke
        exact ⟨e, (LawfulPool.mem_iter _ k e).mp hiter, hflushed⟩
      · intro hmem
        obtain ⟨e, hget, hflushed⟩ := hmem
        exact ⟨(j, e), List.mem_filter.mpr ⟨(LawfulPool.mem_iter _ j e).mpr hget, hflushed⟩, rfl⟩
    rw [get_expireAll]
    cases hget : Pool.get c.entries j with
    | none => rw [Option.map_none, Option.map_none, ite_self]
    | some e =>
      have hj : j ∈ ((Pool.iter c.entries).filter fun ke =>
          ke.2.flushedBy key now deadline).map (·.1) ↔ e.flushedBy key now deadline = true := by
        rw [hclamped]
        constructor
        · intro hex
          obtain ⟨f, hf, hflushed⟩ := hex
          rw [hget] at hf
          cases hf
          exact hflushed
        · exact fun hflushed => ⟨e, hget, hflushed⟩
      rw [Option.map_some, Option.map_some]
      by_cases hflushed : e.flushedBy key now deadline = true
      · rw [if_pos (hj.mpr hflushed), if_pos hflushed]
      · rw [if_neg fun hmem => hflushed (hj.mp hmem), if_neg hflushed]

theorem length_flush (key : RecordKey) (now : I) :
    (Pool.iter (c.flush key now).entries).length = (Pool.iter c.entries).length := by
  unfold flush
  cases checkedAddDuration now oneSecond with
  | none => rfl
  | some deadline => exact length_expireAll deadline _ c.entries

theorem flush_maxEntries (key : RecordKey) (now : I) :
    (c.flush key now).maxEntries = c.maxEntries := by
  unfold flush
  cases checkedAddDuration now oneSecond <;> rfl

theorem flush_entry (h : c.Distinct) (key : RecordKey) (now : I) :
    (c.flush key now).Distinct ∧ (c.flush key now).maxEntries = c.maxEntries ∧
      (Pool.iter (c.flush key now).entries).length = (Pool.iter c.entries).length ∧
      ∀ y, (c.flush key now).entry y = (c.entry y).map (CacheEntry.flushed key now) := by
  obtain ⟨hdistinct, hentry⟩ := c.entry_map (c.flush key now) h (CacheEntry.flushed key now)
    (CacheEntry.flushed_key key now) (c.flush_get key now)
  exact ⟨hdistinct, c.flush_maxEntries key now, c.length_flush key now, hentry⟩

theorem boundedInsert_entry (h : c.Distinct) (e : CacheEntry I)
    (hnew : c.entry e.key = none) (hroom : (Pool.iter c.entries).length < c.maxEntries)
    (haccepts : ∀ v, (Pool.insert c.entries v).isSome = true) :
    (c.boundedInsert e).1.Distinct ∧ (c.boundedInsert e).1.maxEntries = c.maxEntries ∧
      (Pool.iter (c.boundedInsert e).1.entries).length = (Pool.iter c.entries).length + 1 ∧
      ∀ y, (c.boundedInsert e).1.entry y = if y = e.key then some e else c.entry y := by
  obtain ⟨⟨k, entries⟩, hinsert⟩ := Option.isSome_iff_exists.mp (haccepts e)
  have hstored : c.boundedInsert e = ({ c with entries := entries }, some k) := by
    unfold boundedInsert
    dsimp only
    rw [if_neg (not_le.mpr hroom), hinsert]
  obtain ⟨hvacant, hget⟩ := LawfulPool.get_insert _ _ _ _ hinsert
  have hother : ∀ j f, Pool.get c.entries j = some f → f.key ≠ e.key := by
    intro j f hf hkey
    have hcached := (c.entry_eq_some h e.key f).mpr ⟨hkey, j, hf⟩
    rw [hnew] at hcached
    cases hcached
  have hdistinct : ({ c with entries := entries } : Cache I P).Distinct := by
    intro i j a b ha hb hab
    dsimp only at ha hb
    rw [hget] at ha hb
    split at ha
    · rename_i hi
      split at hb
      · rename_i hj
        rw [hi, hj]
      · cases ha
        exact absurd hab.symm (hother j b hb)
    · split at hb
      · cases hb
        exact absurd hab (hother i a ha)
      · exact h i j a b ha hb hab
  rw [hstored]
  refine ⟨hdistinct, rfl, ?_, ?_⟩
  · rw [(insert_perm _ _ _ _ hinsert).length_eq, List.length_cons]
  · intro y
    apply Option.ext
    intro f
    rw [Cache.entry_eq_some _ hdistinct]
    dsimp only
    by_cases hy : y = e.key
    · rw [if_pos hy, Option.some.injEq]
      constructor
      · intro hcached
        obtain ⟨hkey, j, hj⟩ := hcached
        rw [hget] at hj
        split at hj
        · exact Option.some.inj hj
        · exact absurd (hkey.trans hy) (hother j f hj)
      · intro hf
        rw [← hf]
        exact ⟨hy.symm, k, by rw [hget, if_pos rfl]⟩
    · rw [if_neg hy, c.entry_eq_some h]
      constructor
      · intro hcached
        obtain ⟨hkey, j, hj⟩ := hcached
        rw [hget] at hj
        split at hj
        · cases hj
          exact absurd hkey.symm hy
        · exact ⟨hkey, j, hj⟩
      · intro hcached
        obtain ⟨hkey, j, hj⟩ := hcached
        refine ⟨hkey, j, ?_⟩
        rw [hget, if_neg]
        · exact hj
        · intro hjk
          rw [hjk, hvacant] at hj
          cases hj

def leaves (key : RecordKey) (ttl : Duration) (now : I) (cacheFlush : Bool)
    (y : RecordKey) (cached : Option (CacheEntry I)) : Option (CacheEntry I) :=
  if ttl = 0 then if y = key then cached.map (CacheEntry.withdrawn now) else cached
  else if y = key then some ⟨key, (checkedAddDuration now ttl).getD now, now⟩
  else if cacheFlush then cached.map (CacheEntry.flushed key now)
  else cached

theorem tryInsert_entry (h : c.Distinct) (key : RecordKey) (ttl : Duration)
    (now : I) (cacheFlush : Bool) (hlen : (Pool.iter c.entries).length ≤ c.maxEntries)
    (hroom : ttl ≠ 0 → c.entry key = none → (Pool.iter c.entries).length < c.maxEntries ∧
      ∀ (entries : P (CacheEntry I)) (v : CacheEntry I),
        (Pool.iter entries).length = (Pool.iter c.entries).length →
          (Pool.insert entries v).isSome = true) :
    let c' := (c.tryInsert key ttl now cacheFlush).1
    c'.Distinct ∧ c'.maxEntries = c.maxEntries ∧
      (Pool.iter c'.entries).length = (Pool.iter c.entries).length +
        (if ttl ≠ 0 ∧ c.entry key = none then 1 else 0) ∧
      ∀ y, c'.entry y = leaves key ttl now cacheFlush y (c.entry y) := by
  unfold tryInsert
  by_cases hmax : c.maxEntries = 0
  · rw [if_pos hmax]
    rw [hmax] at hlen
    have hnone : ∀ y, c.entry y = none := by
      intro y
      rw [entry, find, List.eq_nil_of_length_eq_zero (Nat.le_zero.mp hlen)]
      rfl
    have httl : ttl = 0 := by
      by_contra hpositive
      have hlt := (hroom hpositive (hnone key)).1
      omega
    refine ⟨h, rfl, ?_, ?_⟩
    · rw [if_neg fun hnew => hnew.1 httl]
      rfl
    · intro y
      rw [hnone, leaves, if_pos httl, Option.map_none, ite_self]
  · rw [if_neg hmax]
    by_cases httl : ttl = 0
    · rw [if_pos httl]
      obtain ⟨hdistinct, hmax', hlength, hentry⟩ := c.goodbye_entry h key now
      refine ⟨hdistinct, hmax', ?_, ?_⟩
      · rw [if_neg fun hnew => hnew.1 httl]
        exact hlength
      · intro y
        rw [leaves, if_pos httl]
        exact hentry y
    · rw [if_neg httl]
      have hflushed : ∃ c₁ : Cache I P, (if cacheFlush then c.flush key now else c) = c₁ ∧
          c₁.Distinct ∧ c₁.maxEntries = c.maxEntries ∧
          (Pool.iter c₁.entries).length = (Pool.iter c.entries).length ∧
          ∀ y, c₁.entry y =
            if cacheFlush then (c.entry y).map (CacheEntry.flushed key now) else c.entry y := by
        refine ⟨_, rfl, ?_⟩
        cases cacheFlush with
        | false => exact ⟨h, rfl, rfl, fun y => rfl⟩
        | true => exact c.flush_entry h key now
      obtain ⟨c₁, hc₁, hdistinct, hmax₁, hlength, hentry⟩ := hflushed
      have hleaves : ∀ y, y ≠ key → c₁.entry y = leaves key ttl now cacheFlush y (c.entry y) := by
        intro y hy
        rw [leaves, if_neg httl, if_neg hy]
        exact hentry y
      have hself : leaves key ttl now cacheFlush key (c.entry key) =
          some ⟨key, (checkedAddDuration now ttl).getD now, now⟩ := by
        rw [leaves, if_neg httl, if_pos rfl]
      have hcached : c₁.entry key = none ↔ c.entry key = none := by
        rw [hentry]
        split
        · exact Option.map_eq_none_iff
        · exact Iff.rfl
      dsimp only
      rw [hc₁]
      cases hfind : c₁.find key with
      | some found =>
        obtain ⟨k, e⟩ := found
        have hold : c.entry key ≠ none := by
          intro hnone
          have hnone' := hcached.mpr hnone
          rw [entry, hfind] at hnone'
          cases hnone'
        obtain ⟨hdistinct', hentry'⟩ := c₁.update_entry hdistinct key k e hfind
          (fun e => { e with
            expiresAt := (checkedAddDuration now ttl).getD now
            receivedAt := now }) fun _ => rfl
        refine ⟨hdistinct', hmax₁, ?_, ?_⟩
        · rw [if_neg fun hnew => hold hnew.2, length_update, hlength]
          rfl
        · intro y
          have hy' := hentry' y
          dsimp only at hy' ⊢
          rw [hy']
          by_cases hy : y = key
          · rw [if_pos hy, hy, hself, (c₁.find_some key k e hfind).2]
          · rw [if_neg hy]
            exact hleaves y hy
      | none =>
        have hnew : c.entry key = none := hcached.mp (by rw [entry, hfind, Option.map_none])
        obtain ⟨hlt, haccepts⟩ := hroom httl hnew
        obtain ⟨hdistinct', hmax', hlength', hentry'⟩ := c₁.boundedInsert_entry hdistinct
          ⟨key, (checkedAddDuration now ttl).getD now, now⟩ (hcached.mpr hnew)
          (by rw [hlength, hmax₁]; exact hlt) fun v => haccepts c₁.entries v hlength
        refine ⟨hdistinct', hmax'.trans hmax₁, ?_, ?_⟩
        · rw [if_pos ⟨httl, hnew⟩]
          exact hlength'.trans (congrArg (· + 1) hlength)
        · intro y
          have hy' := hentry' y
          dsimp only at hy' ⊢
          rw [hy']
          by_cases hy : y = key
          · rw [if_pos hy, hy, hself]
          · rw [if_neg hy]
            exact hleaves y hy

end
end Cache
end

end Hick
