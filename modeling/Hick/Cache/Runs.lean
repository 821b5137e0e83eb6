import Hick.Cache.Observe
import Hick.Lib.Runs

/-!
# Insertions and sweeps (cache.rs:195-436)

The cache over any sequence of calls. What a call does to each entry is said slot by slot: the
entries a goodbye or a cache-flush is about live no longer than they did, the cap gives up the entry
that expires first, and the record itself stands in one slot.
-/

set_option linter.unusedSectionVars false

namespace Hick
open Octets Wire Runs

section
variable {I : Type} [Instant I] {P : Type → Type} [Pool P]

namespace Cache

def withMaxEntries (max : Nat) : Cache I P := ⟨Pool.new, max⟩

def removeAll (keys : List Nat) (st : P (CacheEntry I) × Nat) : P (CacheEntry I) × Nat :=
  keys.foldl (fun st key =>
    match Pool.tryRemove st.1 key with
    | some (_, entries) => (entries, st.2 + 1)
    | none => st) st

def sweepExpired (c : Cache I P) (now : I) : Cache I P × Nat :=
  let toRemove := ((Pool.iter c.entries).filter fun ke => decide (ke.2.expiresAt ≤ now)).map (·.1)
  let (entries, removed) := removeAll toRemove (c.entries, 0)
  ({ c with entries := entries }, removed)

end Cache

inductive CacheCall (I : Type) where
  | insert (key : RecordKey) (ttl : Duration) (now : I) (cacheFlush : Bool)
  | sweep (now : I)

def Cache.next (c : Cache I P) : CacheCall I → Cache I P
  | .insert key ttl now cacheFlush => (c.tryInsert key ttl now cacheFlush).1
  | .sweep now => (c.sweepExpired now).1

def Cache.machine (I : Type) [Instant I] (P : Type → Type) [Pool P] (max : Nat) :
    Machine (Cache I P) (CacheCall I) where
  start c := c = Cache.withMaxEntries max
  admits _ _ := True
  next := Cache.next

/-- The entry lives no longer than it did and is the same record, received when it was. -/
structure CacheEntry.Shortened (e e' : CacheEntry I) : Prop where
  key : e'.key = e.key
  receivedAt : e'.receivedAt = e.receivedAt
  sooner : e'.expiresAt ≤ e.expiresAt

def CacheEntry.GoneBy (key : RecordKey) (e e' : CacheEntry I) : Prop :=
  e' = e ∨ e.key = key ∧ e.Shortened e'

/-- A cache-flush shortens the lives of the other records of its set that are older than one
second. -/
def CacheEntry.FlushedBy (key : RecordKey) (now : I) (e e' : CacheEntry I) : Prop :=
  e' = e ∨ e.key.sameSet key = true ∧ e.key.rdata ≠ key.rdata ∧ e.recent now = false ∧
    e.Shortened e'

namespace Cache

/-- The same slots are taken, and each entry has become another as `R` allows. -/
def EachSlot (R : CacheEntry I → CacheEntry I → Prop) (entries entries' : P (CacheEntry I)) :
    Prop :=
  ∀ j, Option.Rel R (Pool.get entries j) (Pool.get entries' j)

def Evicts (entries entries' : P (CacheEntry I)) : Prop :=
  ∃ k e, Pool.get entries k = some e ∧
    (∀ j f, Pool.get entries j = some f → e.expiresAt ≤ f.expiresAt) ∧
    ∀ j, Pool.get entries' j = if j = k then none else Pool.get entries j

/-- The entry has taken the one slot of its record, or a vacant one where it had none. -/
def Stores (e : CacheEntry I) (entries entries' : P (CacheEntry I)) : Prop :=
  ∃ k, (∀ f, Pool.get entries k = some f → f.key = e.key) ∧
    (∀ j f, Pool.get entries j = some f → f.key = e.key → j = k) ∧
    ∀ j, Pool.get entries' j = if j = k then some e else Pool.get entries j

/-- What a record with a positive TTL does: its cache-flush bit first, then the cap, then the
record, unless the pool refuses it. -/
def Asserts (key : RecordKey) (ttl : Duration) (now : I) (cacheFlush : Bool)
    (entries entries' : P (CacheEntry I)) : Prop :=
  ∃ flushed kept, (if cacheFlush then EachSlot (CacheEntry.FlushedBy key now) entries flushed
      else flushed = entries) ∧
    Relation.ReflTransGen Evicts flushed kept ∧
    (entries' = kept ∧ (∀ j f, Pool.get kept j = some f → f.key ≠ key) ∨
      Stores ⟨key, (checkedAddDuration now ttl).getD now, now⟩ kept entries')

def Did (t : Transition (Cache I P) (CacheCall I)) : Prop :=
  match t.call with
  | .insert key ttl now cacheFlush =>
    if ttl = 0 then EachSlot (CacheEntry.GoneBy key) t.pre.entries t.post.entries
    else Asserts key ttl now cacheFlush t.pre.entries t.post.entries
  | .sweep now =>
    ∀ j, Pool.get t.post.entries j =
      (Pool.get t.pre.entries j).filter fun e => decide (now < e.expiresAt)

theorem soonest_least (entries : List (Nat × CacheEntry I)) (victim : Option (Nat × I))
    (found : Nat × I) (h : soonest entries victim = some found) :
    (victim = some found ∨ ∃ e, (found.1, e) ∈ entries ∧ e.expiresAt = found.2) ∧
      (∀ v, victim = some v → found.2 ≤ v.2) ∧ ∀ ke ∈ entries, found.2 ≤ ke.2.expiresAt := by
  induction entries generalizing victim with
  | nil =>
    have hv : victim = some found := h
    refine ⟨.inl hv, ?_, nofun⟩
    intro v hsome
    rw [hv] at hsome
    rw [Option.some.inj hsome]
  | cons ke rest ih =>
    obtain ⟨key, e⟩ := ke
    unfold soonest at h
    obtain ⟨hfrom, hfirst, hrest⟩ := ih _ h
    have hle := hfirst _ rfl
    cases victim with
    | none =>
      refine ⟨.inr ?_, nofun, List.forall_mem_cons.mpr ⟨hle, hrest⟩⟩
      cases hfrom with
      | inl hself =>
        have hfound := Option.some.inj hself
        rw [← hfound]
        exact ⟨e, List.mem_cons_self, rfl⟩
      | inr hlater =>
        obtain ⟨f, hf, hexp⟩ := hlater
        exact ⟨f, List.mem_cons_of_mem _ hf, hexp⟩
    | some prev =>
      dsimp only at hfrom hle
      by_cases hprev : prev.2 ≤ e.expiresAt
      · rw [if_pos hprev] at hfrom hle
        refine ⟨?_, ?_, List.forall_mem_cons.mpr ⟨le_trans hle hprev, hrest⟩⟩
        · cases hfrom with
          | inl hself => exact .inl hself
          | inr hlater =>
            obtain ⟨f, hf, hexp⟩ := hlater
            exact .inr ⟨f, List.mem_cons_of_mem _ hf, hexp⟩
        · intro v hv
          rw [← Option.some.inj hv]
          exact hle
      · rw [if_neg hprev] at hfrom hle
        refine ⟨.inr ?_, ?_, List.forall_mem_cons.mpr ⟨hle, hrest⟩⟩
        · cases hfrom with
          | inl hself =>
            have hfound := Option.some.inj hself
            rw [← hfound]
            exact ⟨e, List.mem_cons_self, rfl⟩
          | inr hlater =>
            obtain ⟨f, hf, hexp⟩ := hlater
            exact ⟨f, List.mem_cons_of_mem _ hf, hexp⟩
        · intro v hv
          rw [← Option.some.inj hv]
          exact le_trans hle (le_of_lt (not_le.mp hprev))

theorem soonest_some (entries : List (Nat × CacheEntry I)) (victim : Nat × I) :
    (soonest entries (some victim)).isSome = true := by
  induction entries generalizing victim with
  | nil => rfl
  | cons ke rest ih => exact ih _

section
variable [OrderedPool P] [ReleasingPool P]

theorem evictSoonest_cases (entries : P (CacheEntry I)) :
    (Pool.iter entries = [] ∧ evictSoonest entries = entries) ∨
      (Evicts entries (evictSoonest entries) ∧
        (Pool.iter (evictSoonest entries)).length + 1 = (Pool.iter entries).length) := by
  unfold evictSoonest
  cases hfound : soonest (Pool.iter entries) none with
  | none =>
    left
    cases hiter : Pool.iter entries with
    | nil => exact ⟨rfl, rfl⟩
    | cons ke rest =>
      rw [hiter] at hfound
      have hsome := soonest_some rest (ke.1, ke.2.expiresAt)
      rw [show soonest rest (some (ke.1, ke.2.expiresAt)) = none from hfound] at hsome
      cases hsome
  | some found =>
    right
    obtain ⟨key, expiry⟩ := found
    obtain ⟨hfrom, -, hleast⟩ := soonest_least _ _ _ hfound
    obtain ⟨e, hmem, hexp⟩ := hfrom.resolve_left nofun
    have hget := (LawfulPool.mem_iter entries key e).mp hmem
    obtain ⟨left, hremove⟩ := ReleasingPool.tryRemove_of_get entries e key hget
    dsimp only
    rw [hremove]
    refine ⟨⟨key, e, hget, ?_, LawfulPool.get_tryRemove entries left e key hremove⟩, ?_⟩
    · intro j f hf
      rw [hexp]
      exact hleast (j, f) ((LawfulPool.mem_iter entries j f).mpr hf)
    · rw [(tryRemove_perm entries left e key hget e hremove).length_eq, List.length_cons]

theorem Evicts.kept (entries entries' : P (CacheEntry I))
    (h : Relation.ReflTransGen Evicts entries entries') (j : Nat) (f : CacheEntry I)
    (hf : Pool.get entries' j = some f) : Pool.get entries j = some f := by
  induction h with
  | refl => exact hf
  | tail _ hlast ih =>
    obtain ⟨k, e, -, -, hget⟩ := hlast
    rw [hget] at hf
    split at hf
    · cases hf
    · exact ih hf

theorem boundedInsert_does (c : Cache I P) (e : CacheEntry I)
    (hnew : ∀ j f, Pool.get c.entries j = some f → f.key ≠ e.key) (hmax : 0 < c.maxEntries)
    (hlen : (Pool.iter c.entries).length ≤ c.maxEntries) :
    (c.boundedInsert e).1.maxEntries = c.maxEntries ∧
      (Pool.iter (c.boundedInsert e).1.entries).length ≤ c.maxEntries ∧
      ∃ kept, Relation.ReflTransGen Evicts c.entries kept ∧
        ((c.boundedInsert e).1.entries = kept ∧
            (∀ j f, Pool.get kept j = some f → f.key ≠ e.key) ∨
          Stores e kept (c.boundedInsert e).1.entries) := by
  have hstores : ∀ (kept entries : P (CacheEntry I)) (k : Nat),
      Relation.ReflTransGen Evicts c.entries kept → Pool.insert kept e = some (k, entries) →
        Stores e kept entries := by
    intro kept entries k hevicts hinsert
    obtain ⟨hvacant, hget⟩ := LawfulPool.get_insert kept entries e k hinsert
    refine ⟨k, ?_, ?_, hget⟩
    · intro f hf
      rw [hvacant] at hf
      cases hf
    · intro j f hf hkey
      exact absurd hkey (hnew j f (Evicts.kept _ _ hevicts j f hf))
  -- the proactive eviction leaves room for one entry
  have hproactive : ∃ room, (if c.maxEntries ≤ (Pool.iter c.entries).length
        then evictSoonest c.entries else c.entries) = room ∧
      Relation.ReflTransGen Evicts c.entries room ∧
      (Pool.iter room).length < c.maxEntries := by
    refine ⟨_, rfl, ?_⟩
    by_cases hfull : c.maxEntries ≤ (Pool.iter c.entries).length
    · rw [if_pos hfull]
      rcases evictSoonest_cases c.entries with ⟨hnil, -⟩ | ⟨hevicts, hless⟩
      · rw [hnil, List.length_nil] at hfull
        omega
      · exact ⟨.single hevicts, by omega⟩
    · rw [if_neg hfull]
      exact ⟨.refl, by omega⟩
  obtain ⟨room, hroom, hevicts, hlt⟩ := hproactive
  unfold boundedInsert
  dsimp only
  rw [hroom]
  cases hinsert : Pool.insert room e with
  | some stored =>
    obtain ⟨k, entries⟩ := stored
    refine ⟨rfl, ?_, room, hevicts, .inr (hstores room entries k hevicts hinsert)⟩
    rw [(insert_perm room entries e k hinsert).length_eq, List.length_cons]
    exact hlt
  | none =>
    dsimp only
    have hreactive : Relation.ReflTransGen Evicts c.entries (evictSoonest room) ∧
        (Pool.iter (evictSoonest room)).length < c.maxEntries := by
      rcases evictSoonest_cases room with ⟨-, hsame⟩ | ⟨hagain, hless⟩
      · rw [hsame]
        exact ⟨hevicts, hlt⟩
      · exact ⟨hevicts.tail hagain, by omega⟩
    obtain ⟨hevicts', hlt'⟩ := hreactive
    cases hinsert' : Pool.insert (evictSoonest room) e with
    | some stored =>
      obtain ⟨k, entries⟩ := stored
      refine ⟨rfl, ?_, _, hevicts', .inr (hstores _ entries k hevicts' hinsert')⟩
      rw [(insert_perm _ entries e k hinsert').length_eq, List.length_cons]
      exact hlt'
    | none =>
      refine ⟨rfl, le_of_lt hlt', _, hevicts', .inl ⟨rfl, ?_⟩⟩
      intro j f hf
      exact hnew j f (Evicts.kept _ _ hevicts' j f hf)

theorem flushed_by (key : RecordKey) (now : I) (e : CacheEntry I) :
    CacheEntry.FlushedBy key now e (e.flushed key now) := by
  unfold CacheEntry.FlushedBy CacheEntry.flushed
  cases checkedAddDuration now oneSecond with
  | none => exact .inl rfl
  | some deadline =>
    dsimp only
    by_cases hby : e.flushedBy key now deadline = true
    · right
      rw [if_pos hby]
      unfold CacheEntry.flushedBy at hby
      simp only [Bool.and_eq_true, Bool.not_eq_true', Bool.or_eq_false_iff, beq_eq_false_iff_ne,
        decide_eq_true_eq] at hby
      obtain ⟨⟨hset, hold, hrdata⟩, hlong⟩ := hby
      exact ⟨hset, hrdata, hold, rfl, rfl, le_of_lt hlong⟩
    · left
      rw [if_neg hby]

theorem flush_does (c : Cache I P) (key : RecordKey) (now : I) :
    EachSlot (CacheEntry.FlushedBy key now) c.entries (c.flush key now).entries := by
  intro j
  rw [c.flush_get key now j]
  cases Pool.get c.entries j with
  | none => exact .none
  | some e => exact .some (flushed_by key now e)

theorem goodbye_does (c : Cache I P) (key : RecordKey) (now : I) :
    EachSlot (CacheEntry.GoneBy key) c.entries (c.goodbye key now).entries := by
  have hidle : EachSlot (CacheEntry.GoneBy key) c.entries c.entries := by
    intro j
    cases Pool.get c.entries j with
    | none => exact .none
    | some e => exact .some (.inl rfl)
  unfold goodbye
  cases checkedAddDuration now oneSecond with
  | none => exact hidle
  | some deadline =>
    dsimp only
    cases hfind : c.find key with
    | none => exact hidle
    | some found =>
      obtain ⟨k, e⟩ := found
      obtain ⟨hget, hkey⟩ := c.find_some key k e hfind
      dsimp only
      by_cases hlong : deadline < e.expiresAt
      · rw [if_pos hlong]
        intro j
        rw [LawfulPool.get_update]
        by_cases hj : j = k
        · rw [if_pos hj, hj, hget]
          exact .some (.inr ⟨hkey, rfl, rfl, le_of_lt hlong⟩)
        · rw [if_neg hj]
          exact hidle j
      · rw [if_neg hlong]
        exact hidle

theorem goodbye_size (c : Cache I P) (key : RecordKey) (now : I) :
    (c.goodbye key now).maxEntries = c.maxEntries ∧
      (Pool.iter (c.goodbye key now).entries).length = (Pool.iter c.entries).length := by
  unfold goodbye
  cases checkedAddDuration now oneSecond with
  | none => exact ⟨rfl, rfl⟩
  | some deadline =>
    dsimp only
    cases c.find key with
    | none => exact ⟨rfl, rfl⟩
    | some found =>
      dsimp only
      split
      · exact ⟨rfl, length_update _ _ _⟩
      · exact ⟨rfl, rfl⟩

theorem EachSlot.distinct (R : CacheEntry I → CacheEntry I → Prop)
    (hkey : ∀ e e', R e e' → e'.key = e.key) (c c' : Cache I P) (h : c.Distinct)
    (hslots : EachSlot R c.entries c'.entries) : c'.Distinct := by
  have hback : ∀ k a, Pool.get c'.entries k = some a →
      ∃ a₀, Pool.get c.entries k = some a₀ ∧ a.key = a₀.key := by
    intro k a ha
    have hslot := hslots k
    rw [ha] at hslot
    cases hpre : Pool.get c.entries k with
    | none =>
      rw [hpre] at hslot
      cases hslot
    | some a₀ =>
      rw [hpre] at hslot
      cases hslot with
      | some hrel => exact ⟨a₀, rfl, hkey a₀ a hrel⟩
  intro k j a b ha hb hab
  obtain ⟨a₀, ha₀, hka⟩ := hback k a ha
  obtain ⟨b₀, hb₀, hkb⟩ := hback j b hb
  exact h k j a₀ b₀ ha₀ hb₀ (by rw [← hka, ← hkb, hab])

theorem GoneBy.key (key : RecordKey) (e e' : CacheEntry I) (h : CacheEntry.GoneBy key e e') :
    e'.key = e.key := by
  rcases h with rfl | ⟨-, hshort⟩
  · rfl
  · exact hshort.key

theorem FlushedBy.key (key : RecordKey) (now : I) (e e' : CacheEntry I)
    (h : CacheEntry.FlushedBy key now e e') : e'.key = e.key := by
  rcases h with rfl | ⟨-, -, -, hshort⟩
  · rfl
  · exact hshort.key

theorem Evicts.distinct (c : Cache I P) (h : c.Distinct) (kept : P (CacheEntry I))
    (hevicts : Relation.ReflTransGen Evicts c.entries kept) :
    ({ c with entries := kept } : Cache I P).Distinct := by
  intro k j a b ha hb hab
  exact h k j a b (Evicts.kept _ _ hevicts k a ha) (Evicts.kept _ _ hevicts j b hb) hab

theorem Stores.distinct (e : CacheEntry I) (c c' : Cache I P) (h : c.Distinct)
    (hstores : Stores e c.entries c'.entries) : c'.Distinct := by
  obtain ⟨slot, hown, hother, hget⟩ := hstores
  intro k j a b ha hb hab
  rw [hget] at ha hb
  by_cases hk : k = slot
  · by_cases hj : j = slot
    · rw [hk, hj]
    · rw [if_pos hk] at ha
      rw [if_neg hj] at hb
      cases ha
      exact absurd (hother j b hb hab.symm) hj
  · rw [if_neg hk] at ha
    by_cases hj : j = slot
    · rw [if_pos hj] at hb
      cases hb
      exact absurd (hother k a ha hab) hk
    · rw [if_neg hj] at hb
      exact h k j a b ha hb hab

theorem Did.distinct (t : Transition (Cache I P) (CacheCall I)) (h : t.pre.Distinct)
    (hdid : Did t) : t.post.Distinct := by
  unfold Did at hdid
  split at hdid
  · rename_i key ttl now cacheFlush hcall
    split at hdid
    · exact EachSlot.distinct _ (GoneBy.key key) _ _ h hdid
    · obtain ⟨flushed, kept, hflush, hevicts, hend⟩ := hdid
      have hflushed : ({ t.pre with entries := flushed } : Cache I P).Distinct := by
        cases cacheFlush with
        | false =>
          rw [show flushed = t.pre.entries from hflush]
          exact h
        | true => exact EachSlot.distinct _ (FlushedBy.key key now) t.pre _ h hflush
      have hkept := Evicts.distinct _ hflushed kept hevicts
      cases hend with
      | inl hrefused =>
        intro k j a b ha hb hab
        rw [hrefused.1] at ha hb
        exact hkept k j a b ha hb hab
      | inr hstores => exact Stores.distinct _ _ _ hkept hstores
  · intro k j a b ha hb hab
    rw [hdid] at ha hb
    exact h k j a b (Option.filter_eq_some_iff.mp ha).1 (Option.filter_eq_some_iff.mp hb).1 hab

theorem tryInsert_does (c : Cache I P) (h : c.Distinct)
    (hlen : (Pool.iter c.entries).length ≤ c.maxEntries) (key : RecordKey) (ttl : Duration)
    (now : I) (cacheFlush : Bool) :
    (c.tryInsert key ttl now cacheFlush).1.maxEntries = c.maxEntries ∧
      (Pool.iter (c.tryInsert key ttl now cacheFlush).1.entries).length ≤ c.maxEntries ∧
      Did ⟨c, .insert key ttl now cacheFlush, (c.tryInsert key ttl now cacheFlush).1⟩ := by
  unfold Did tryInsert
  dsimp only
  by_cases hmax : c.maxEntries = 0
  · -- nothing is cached where there may be no entries
    rw [if_pos hmax]
    refine ⟨rfl, hlen, ?_⟩
    have hnone : ∀ j, Pool.get c.entries j = none := by
      intro j
      cases hget : Pool.get c.entries j with
      | none => rfl
      | some e =>
        have hnil : Pool.iter c.entries = [] := List.eq_nil_of_length_eq_zero (by omega)
        have hmem := (LawfulPool.mem_iter c.entries j e).mpr hget
        rw [hnil] at hmem
        cases hmem
    have hempty : ∀ R : CacheEntry I → CacheEntry I → Prop, EachSlot R c.entries c.entries := by
      intro R j
      rw [hnone]
      exact .none
    split
    · exact hempty _
    · refine ⟨c.entries, c.entries, ?_, .refl, .inl ⟨rfl, ?_⟩⟩
      · split
        · exact hempty _
        · rfl
      · intro j f hf
        rw [hnone] at hf
        cases hf
  · rw [if_neg hmax]
    by_cases httl : ttl = 0
    · rw [if_pos httl, if_pos httl]
      obtain ⟨hsame, hsize⟩ := c.goodbye_size key now
      exact ⟨hsame, by rw [hsize]; exact hlen, c.goodbye_does key now⟩
    · rw [if_neg httl, if_neg httl]
      have hflushed : ∃ c₁ : Cache I P, (if cacheFlush then c.flush key now else c) = c₁ ∧
          c₁.Distinct ∧ c₁.maxEntries = c.maxEntries ∧
          (Pool.iter c₁.entries).length ≤ c.maxEntries ∧
          (if cacheFlush then EachSlot (CacheEntry.FlushedBy key now) c.entries c₁.entries
            else c₁.entries = c.entries) := by
        refine ⟨_, rfl, ?_⟩
        cases cacheFlush with
        | false => exact ⟨h, rfl, hlen, rfl⟩
        | true =>
          have hslots := c.flush_does key now
          exact ⟨EachSlot.distinct _ (FlushedBy.key key now) _ _ h hslots,
            c.flush_maxEntries key now, by rw [if_pos rfl, c.length_flush]; exact hlen, hslots⟩
      obtain ⟨c₁, hc₁, hdistinct, hmax₁, hlen₁, hslots⟩ := hflushed
      rw [hc₁]
      cases hfind : c₁.find key with
      | some found =>
        obtain ⟨k, e⟩ := found
        obtain ⟨hget, hkey⟩ := c₁.find_some key k e hfind
        refine ⟨hmax₁, ?_, c₁.entries, c₁.entries, hslots, .refl, .inr ⟨k, ?_, ?_, ?_⟩⟩
        · rw [length_update]
          exact hlen₁
        · intro f hf
          rw [hget] at hf
          cases hf
          exact hkey
        · intro j f hf hown
          exact hdistinct j k f e hf hget (hown.trans hkey.symm)
        · intro j
          rw [LawfulPool.get_update]
          by_cases hj : j = k
          · rw [if_pos hj, if_pos hj, hj, hget, Option.map_some, hkey]
          · rw [if_neg hj, if_neg hj]
      | none =>
        have hnew : ∀ j f, Pool.get c₁.entries j = some f → f.key ≠ key := by
          intro j f hf hkey
          have hfound := (c₁.find_eq_some hdistinct key j f).mpr ⟨hf, hkey⟩
          rw [hfind] at hfound
          cases hfound
        obtain ⟨hmax', hlen', kept, hevicts, hend⟩ := c₁.boundedInsert_does
          ⟨key, (checkedAddDuration now ttl).getD now, now⟩ hnew (by omega)
          (by rw [hmax₁]; exact hlen₁)
        exact ⟨hmax'.trans hmax₁, hmax₁ ▸ hlen', c₁.entries, kept, hslots, hevicts, hend⟩

theorem removeAll_get (keys : List Nat) (st : P (CacheEntry I) × Nat) (j : Nat) :
    Pool.get (removeAll keys st).1 j = if j ∈ keys then none else Pool.get st.1 j := by
  induction keys generalizing st with
  | nil => rw [removeAll, List.foldl_nil, if_neg List.not_mem_nil]
  | cons k rest ih =>
    have hfirst : removeAll (k :: rest) st = removeAll rest
        (match Pool.tryRemove st.1 k with
        | some (_, entries) => (entries, st.2 + 1)
        | none => st) := rfl
    rw [hfirst, ih]
    by_cases hj : j ∈ rest
    · rw [if_pos hj, if_pos (List.mem_cons_of_mem _ hj)]
    · rw [if_neg hj]
      cases hremove : Pool.tryRemove st.1 k with
      | some removed =>
        dsimp only
        rw [LawfulPool.get_tryRemove st.1 removed.2 removed.1 k hremove]
        simp only [List.mem_cons, hj, or_false]
      | none =>
        by_cases hk : j = k
        · rw [hk, if_pos List.mem_cons_self]
          cases hget : Pool.get st.1 k with
          | none => rfl
          | some e =>
            obtain ⟨left, hleft⟩ := ReleasingPool.tryRemove_of_get st.1 e k hget
            rw [hremove] at hleft
            cases hleft
        · simp only [List.mem_cons, hk, hj, or_false, if_false]

theorem sweepExpired_get (c : Cache I P) (now : I) (j : Nat) :
    Pool.get (c.sweepExpired now).1.entries j =
      (Pool.get c.entries j).filter fun e => decide (now < e.expiresAt) := by
  have hmem : j ∈ ((Pool.iter c.entries).filter fun ke =>
      decide (ke.2.expiresAt ≤ now)).map (·.1) ↔
        ∃ e, Pool.get c.entries j = some e ∧ e.expiresAt ≤ now := by
    rw [List.mem_map]
    constructor
    · intro hex
      obtain ⟨⟨k, e⟩, hke, rfl⟩ := hex
      obtain ⟨hiter, hexpired⟩ := List.mem_filter.mp hke
      exact ⟨e, (LawfulPool.mem_iter _ k e).mp hiter, of_decide_eq_true hexpired⟩
    · intro hex
      obtain ⟨e, hget, hexpired⟩ := hex
      exact ⟨(j, e), List.mem_filter.mpr
        ⟨(LawfulPool.mem_iter _ j e).mpr hget, decide_eq_true hexpired⟩, rfl⟩
  have hsweep : (c.sweepExpired now).1.entries = (removeAll (((Pool.iter c.entries).filter
      fun ke => decide (ke.2.expiresAt ≤ now)).map (·.1)) (c.entries, 0)).1 := rfl
  rw [hsweep, removeAll_get]
  cases hget : Pool.get c.entries j with
  | none => rw [ite_self, Option.filter_none]
  | some e =>
    rw [Option.filter_some]
    by_cases hexpired : e.expiresAt ≤ now
    · rw [if_pos (hmem.mpr ⟨e, hget, hexpired⟩), decide_eq_false (not_lt.mpr hexpired)]
      rfl
    · rw [decide_eq_true (not_le.mp hexpired), if_neg]
      · rfl
      · intro hin
        obtain ⟨f, hf, hold⟩ := hmem.mp hin
        rw [hget] at hf
        cases hf
        exact hexpired hold

theorem length_le_of_get (entries entries' : P (CacheEntry I))
    (h : ∀ j e, Pool.get entries' j = some e → Pool.get entries j = some e) :
    (Pool.iter entries').length ≤ (Pool.iter entries).length := by
  apply List.Subperm.length_le
  apply List.Nodup.subperm (iter_nodup entries')
  intro ke hke
  obtain ⟨j, e⟩ := ke
  exact (LawfulPool.mem_iter _ j e).mpr (h j e ((LawfulPool.mem_iter _ j e).mp hke))

theorem Did.own (t : Transition (Cache I P) (CacheCall I)) (hdid : Did t) (y : RecordKey)
    (ttl : Duration) (now : I) (cacheFlush : Bool) (hcall : t.call = .insert y ttl now cacheFlush)
    (httl : ttl ≠ 0) (j : Nat) (e : CacheEntry I) (hget : Pool.get t.post.entries j = some e)
    (hkey : e.key = y) : e = ⟨y, (checkedAddDuration now ttl).getD now, now⟩ := by
  unfold Did at hdid
  rw [hcall] at hdid
  dsimp only at hdid
  rw [if_neg httl] at hdid
  obtain ⟨flushed, kept, -, -, ⟨hsame, hnone⟩ | ⟨k, -, hother, hslot⟩⟩ := hdid
  · rw [hsame] at hget
    exact absurd hkey (hnone j e hget)
  · rw [hslot] at hget
    by_cases hj : j = k
    · rw [if_pos hj] at hget
      exact (Option.some.inj hget).symm
    · rw [if_neg hj] at hget
      exact absurd (hother j e hget hkey) hj

def OtherAt (y : RecordKey) (now : I) (t : Transition (Cache I P) (CacheCall I)) : Prop :=
  ∃ key ttl cacheFlush, t.call = .insert key ttl now cacheFlush ∧ key ≠ y

theorem Did.other (t : Transition (Cache I P) (CacheCall I)) (hdid : Did t) (y : RecordKey)
    (now : I) (hother : OtherAt y now t) (e : CacheEntry I)
    (hrecent : ∀ j f, Pool.get t.pre.entries j = some f → f.key = y → f.recent now = true)
    (j : Nat) (hget : Pool.get t.post.entries j = some e) (hkey : e.key = y) :
    Pool.get t.pre.entries j = some e := by
  obtain ⟨key, ttl, cacheFlush, hcall, hne⟩ := hother
  unfold Did at hdid
  rw [hcall] at hdid
  dsimp only at hdid
  by_cases httl : ttl = 0
  · rw [if_pos httl] at hdid
    have hslot := hdid j
    rw [hget] at hslot
    cases hpre : Pool.get t.pre.entries j with
    | none =>
      rw [hpre] at hslot
      cases hslot
    | some f =>
      rw [hpre] at hslot
      cases hslot with
      | some hgone =>
        rcases hgone with hsame | ⟨hown, hshort⟩
        · rw [hsame]
        · exact absurd (hown.symm.trans (hshort.key.symm.trans hkey)) hne
  · rw [if_neg httl] at hdid
    obtain ⟨flushed, kept, hflush, hevicts, hend⟩ := hdid
    have hkept : Pool.get kept j = some e := by
      rcases hend with ⟨hsame, -⟩ | ⟨k, -, -, hslot⟩
      · rw [← hsame]
        exact hget
      · rw [hslot] at hget
        by_cases hj : j = k
        · rw [if_pos hj] at hget
          cases hget
          exact absurd hkey hne
        · rw [if_neg hj] at hget
          exact hget
    have hflushed := Evicts.kept _ _ hevicts j e hkept
    cases cacheFlush with
    | false =>
      rw [← show flushed = t.pre.entries from hflush]
      exact hflushed
    | true =>
      have hslot := hflush j
      rw [hflushed] at hslot
      cases hpre : Pool.get t.pre.entries j with
      | none =>
        rw [hpre] at hslot
        cases hslot
      | some f =>
        rw [hpre] at hslot
        cases hslot with
        | some hby =>
          rcases hby with hsame | ⟨-, -, hold, hshort⟩
          · rw [hsame]
          · rw [hrecent j f hpre (hshort.key.symm.trans hkey)] at hold
            cases hold

/-- What holds after every run: no record is cached twice, there are at most as many entries as
there may be, and each call did what it may do. -/
structure Kept (max : Nat) (ts : List (Transition (Cache I P) (CacheCall I))) (c : Cache I P) :
    Prop where
  distinct : c.Distinct
  maxEntries : c.maxEntries = max
  bound : (Pool.iter c.entries).length ≤ max
  did : ∀ t ∈ ts, Did t

theorem Kept.of_run (max : Nat) (ts : List (Transition (Cache I P) (CacheCall I)))
    (c : Cache I P) (run : Run (Cache.machine I P max) ts c) : Kept max ts c := by
  induction run with
  | start c h =>
    have hempty : Pool.iter c.entries = [] := by
      rw [show c = Cache.withMaxEntries max from h]
      exact LawfulPool.iter_new
    refine ⟨?_, ?_, ?_, fun _ h => absurd h List.not_mem_nil⟩
    · intro k j a b ha
      have hmem := (LawfulPool.mem_iter c.entries k a).mpr ha
      rw [hempty] at hmem
      cases hmem
    · rw [show c = Cache.withMaxEntries max from h]
      rfl
    · rw [hempty]
      exact Nat.zero_le max
  | step ts c call run hadmits ih =>
    have hstep : Did ((Cache.machine I P max).transition c call) ∧
        (Cache.next c call).maxEntries = max ∧
        (Pool.iter (Cache.next c call).entries).length ≤ max := by
      cases call with
      | insert key ttl now cacheFlush =>
        obtain ⟨hmax, hlen, hdid⟩ := c.tryInsert_does ih.distinct
          (by rw [ih.maxEntries]; exact ih.bound) key ttl now cacheFlush
        rw [ih.maxEntries] at hmax hlen
        exact ⟨hdid, hmax, hlen⟩
      | sweep now =>
        refine ⟨c.sweepExpired_get now, ih.maxEntries, ?_⟩
        apply le_trans (length_le_of_get c.entries _ _) ih.bound
        intro j e he
        rw [show Cache.next c (.sweep now) = (c.sweepExpired now).1 from rfl,
          c.sweepExpired_get] at he
        exact (Option.filter_eq_some_iff.mp he).1
    obtain ⟨hdid, hmax, hlen⟩ := hstep
    refine ⟨Did.distinct _ ih.distinct hdid, hmax, hlen, ?_⟩
    intro t ht
    cases List.mem_append.mp ht with
    | inl hold => exact ih.did t hold
    | inr hnew =>
      rw [List.mem_singleton.mp hnew]
      exact hdid

theorem asserted_stays [MeasuredInstant I] (max : Nat)
    (ts : List (Transition (Cache I P) (CacheCall I))) (c : Cache I P)
    (run : Run (Cache.machine I P max) ts c)
    (before after : List (Transition (Cache I P) (CacheCall I)))
    (t : Transition (Cache I P) (CacheCall I)) (y : RecordKey) (ttl : Duration) (now : I)
    (cacheFlush : Bool) (hts : ts = before ++ t :: after)
    (hcall : t.call = .insert y ttl now cacheFlush) (httl : ttl ≠ 0)
    (hafter : ∀ u ∈ after, OtherAt y now u) (j : Nat) (e : CacheEntry I)
    (hget : Pool.get c.entries j = some e) (hkey : e.key = y) :
    e = ⟨y, (checkedAddDuration now ttl).getD now, now⟩ := by
  have hall := Kept.of_run max ts c run
  induction run generalizing after j e with
  | start c h =>
    cases before <;> cases hts
  | step ts c call run hadmits ih =>
    have hdid := hall.did _ (List.mem_append_right ts (List.mem_singleton.mpr rfl))
    rcases List.eq_nil_or_concat' after with rfl | ⟨after', u, rfl⟩
    · obtain ⟨-, hlast⟩ := List.append_inj' hts rfl
      rw [← List.singleton_inj.mp hlast] at hcall
      exact Did.own _ hdid y ttl now cacheFlush hcall httl j e hget hkey
    · rw [← List.cons_append, ← List.append_assoc] at hts
      obtain ⟨hbefore, hlast⟩ := List.append_inj' hts rfl
      have hu := hafter u (List.mem_append_right after' (List.mem_singleton.mpr rfl))
      rw [← List.singleton_inj.mp hlast] at hu
      have hpast : ∀ j f, Pool.get c.entries j = some f → f.key = y →
          f = ⟨y, (checkedAddDuration now ttl).getD now, now⟩ := by
        intro j f hf hy
        exact ih after' hbefore (fun v hv => hafter v (List.mem_append_left _ hv)) j f hf hy
          (Kept.of_run max ts c run)
      have hpre := Did.other _ hdid y now hu e (by
        intro j f hf hy
        rw [hpast j f hf hy]
        exact recent_now _ now rfl) j hget hkey
      exact hpast j e hpre hkey

/-- Whatever is inserted and whenever the cache is swept: no record is cached twice and no more are
cached than may be; each call shortens only the lives it may shorten and gives up only entries that
expire first; and a record that a set asserts lives as long as it says, whatever the cache-flush
bits of the rest of the set. -/
theorem runs_are_correct [MeasuredInstant I] (max : Nat)
    (ts : List (Transition (Cache I P) (CacheCall I))) (c : Cache I P)
    (run : Run (Cache.machine I P max) ts c) :
    c.Distinct ∧ (Pool.iter c.entries).length ≤ max ∧ (∀ t ∈ ts, Did t) ∧
      ∀ before t after y ttl now cacheFlush, ts = before ++ t :: after →
        t.call = .insert y ttl now cacheFlush → ttl ≠ 0 → (∀ u ∈ after, OtherAt y now u) →
          ∀ j e, Pool.get c.entries j = some e → e.key = y →
            e = ⟨y, (checkedAddDuration now ttl).getD now, now⟩ := by
  have hall := Kept.of_run max ts c run
  refine ⟨hall.distinct, hall.bound, hall.did, ?_⟩
  intro before t after y ttl now cacheFlush hts hcall httl hafter j e hget hkey
  exact asserted_stays max ts c run before after t y ttl now cacheFlush hts hcall httl hafter j e
    hget hkey

end
end Cache
end

theorem Cache.runs_are_correct_moved :
    let c := (Cache.machine Uptime Slab 1).play (Cache.withMaxEntries 1)
      [.insert (addressKey 1) (Duration.fromSecs 120) 0 true,
        .insert (addressKey 2) (Duration.fromSecs 120) 5000000000 true]
    c.Distinct ∧ (Pool.iter c.entries).length ≤ 1 := by
  have run := (Run.start (m := Cache.machine Uptime Slab 1) (Cache.withMaxEntries 1) rfl).play _ _ _
    [.insert (addressKey 1) (Duration.fromSecs 120) 0 true,
      .insert (addressKey 2) (Duration.fromSecs 120) 5000000000 true] ⟨trivial, trivial, trivial⟩
  obtain ⟨hdistinct, hbound, -⟩ := Cache.runs_are_correct 1 _ _ run
  exact ⟨hdistinct, hbound⟩

end Hick
