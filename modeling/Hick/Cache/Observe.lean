import Hick.Cache.Store

/-!
# What a response leaves in the cache (endpoint/receive.rs:338-499)

The answers and the additional records of a response are cached one after another.
-/

namespace Hick
open Octets Wire

/-! ### The name of a record (name.rs:281-336) -/

/-- The label loop of `from_wire_labels`: the text so far and its length on the wire. -/
def joinWireLabels : List (Except ParseError Bytes) → Bytes → Nat → Option Bytes
  | [], buf, _ => some buf
  | .error _ :: _, _, _ => none
  | .ok label :: rest, buf, wireLen =>
    if maxLabelBytes < label.length then none
    else if maxNameBytes < wireLen + 1 + label.length then none
    else if label.contains dot then none
    else if !(ByteArray.mk (label.map fun b => UInt8.ofNat b.val).toArray).validateUTF8 then none
    else joinWireLabels rest (buf ++ lower label ++ [dot]) (wireLen + 1 + label.length)

/-- `Name::from_wire_labels`: the text is in lower case already when it is validated. -/
def Name.fromWireLabels (labels : List (Except ParseError Bytes)) : Option Name :=
  (joinWireLabels labels [] 1).bind fun buf => (Name.tryFromStr buf).toOption

structure Observation where
  key : RecordKey
  ttl : UInt32
  cacheFlush : Bool
  deriving DecidableEq

namespace Observation

def rrset (o : Observation) : Name × ResourceType × ResourceClass :=
  (o.key.name, o.key.rtype, o.key.rclass)

def of (r : Ref) : Option Observation :=
  match Name.fromWireLabels r.name.labels with
  | none => none
  | some name =>
    match r.canonicalRdataFolded with
    | .error _ => none
    | .ok rdata => some ⟨⟨name, r.rtype, r.rclass, rdata⟩, r.ttl, r.cacheFlush⟩

def flushes (o : Observation) (flushed : List (Name × ResourceType × ResourceClass)) : Bool :=
  o.cacheFlush && o.ttl != 0 && !flushed.any fun (n, t, c) =>
    n.text == o.key.name.text && t == o.key.rtype && c == o.key.rclass

end Observation

def readable : List (Except ParseError Ref) → List Ref
  | [] => []
  | .error _ :: _ => []
  | .ok r :: rest => r :: readable rest

def observations (records : List (Except ParseError Ref)) : List Observation :=
  (readable records).filterMap Observation.of

section
variable {I : Type} [Instant I]

namespace Cache
variable {P : Type → Type} [Pool P]

/-- One record is cached; the sets whose bit has been passed on are kept beside the cache. -/
def observe (now : I) (st : Cache I P × List (Name × ResourceType × ResourceClass))
    (o : Observation) : Cache I P × List (Name × ResourceType × ResourceClass) :=
  let doFlush := o.flushes st.2
  ((st.1.tryInsert o.key (Duration.fromSecs o.ttl.toNat) now doFlush).1,
    if doFlush then st.2 ++ [o.rrset] else st.2)

def observeRecords (now : I) : List (Except ParseError Ref) →
    Cache I P × List (Name × ResourceType × ResourceClass) →
      Cache I P × List (Name × ResourceType × ResourceClass)
  | [], st => st
  | .error _ :: _, st => st
  | .ok r :: rest, st =>
    match Observation.of r with
    | none => observeRecords now rest st
    | some o => observeRecords now rest (observe now st o)

def cachePass (c : Cache I P) (now : I) (reader : MessageReader) (admits : Admits)
    (populateCache : Bool) : Cache I P :=
  if admits.observation then
    if !populateCache || !reader.header.flags.isResponse then c
    else (observeRecords now (reader.answers ++ reader.additional) (c, [])).1
  else c

theorem observeRecords_eq (now : I) (records : List (Except ParseError Ref))
    (st : Cache I P × List (Name × ResourceType × ResourceClass)) :
    observeRecords now records st = (observations records).foldl (observe now) st := by
  induction records generalizing st with
  | nil => rfl
  | cons record rest ih =>
    cases record with
    | error _ => rfl
    | ok r =>
      unfold observeRecords observations readable
      rw [List.filterMap_cons]
      cases Observation.of r with
      | none => exact ih st
      | some o => exact ih (observe now st o)

end Cache

def lifeUntil (now : I) (ttl : UInt32) : I :=
  (checkedAddDuration now (Duration.fromSecs ttl.toNat)).getD now

def shortened (now t : I) : I :=
  match checkedAddDuration now oneSecond with
  | some deadline => min t deadline
  | none => t

/-- What the records leave of what is cached under `y`, and the sets whose bit has been passed
on. -/
def leftBy (now : I) (y : RecordKey) (os : List Observation) (cached : Option (CacheEntry I)) :
    Option (CacheEntry I) × List (Name × ResourceType × ResourceClass) :=
  os.foldl (fun st o =>
    (Cache.leaves o.key (Duration.fromSecs o.ttl.toNat) now (o.flushes st.2) y st.1,
      if o.flushes st.2 then st.2 ++ [o.rrset] else st.2)) (cached, [])

def lastTtl (os : List Observation) (y : RecordKey) : Option UInt32 :=
  ((os.filter fun o => decide (o.key = y) && o.ttl != 0).getLast?).map (·.ttl)

def takenBack (os : List Observation) (y : RecordKey) : Bool :=
  (os.filter fun o => decide (o.key = y)).getLast?.any fun o => o.ttl == 0

theorem leftBy_snoc (now : I) (y : RecordKey) (os : List Observation) (o : Observation)
    (cached : Option (CacheEntry I)) :
    leftBy now y (os ++ [o]) cached =
      (Cache.leaves o.key (Duration.fromSecs o.ttl.toNat) now
          (o.flushes (leftBy now y os cached).2) y (leftBy now y os cached).1,
        if o.flushes (leftBy now y os cached).2 then (leftBy now y os cached).2 ++ [o.rrset]
        else (leftBy now y os cached).2) := by
  rw [leftBy, List.foldl_append, List.foldl_cons, List.foldl_nil]
  rfl

theorem Observation.flushes_iff (o : Observation)
    (flushed : List (Name × ResourceType × ResourceClass)) :
    o.flushes flushed = true ↔ o.cacheFlush = true ∧ o.ttl ≠ 0 ∧ o.rrset ∉ flushed := by
  have hany : (flushed.any fun (n, t, c) =>
      n.text == o.key.name.text && t == o.key.rtype && c == o.key.rclass) = true ↔
        o.rrset ∈ flushed := by
    rw [List.any_eq_true]
    constructor
    · intro hex
      obtain ⟨⟨n, t, c⟩, hmem, hsame⟩ := hex
      simp only [Bool.and_eq_true, beq_iff_eq] at hsame
      obtain ⟨⟨hname, htype⟩, hclass⟩ := hsame
      rw [rrset, ← Name.ext_text _ _ hname, ← htype, ← hclass]
      exact hmem
    · intro hmem
      refine ⟨o.rrset, hmem, ?_⟩
      simp [rrset]
  unfold flushes
  rw [Bool.and_eq_true, Bool.and_eq_true, Bool.not_eq_true', Bool.eq_false_iff, ne_eq, ne_eq, hany,
    bne_iff_ne, and_assoc]

theorem mem_leftBy (now : I) (y : RecordKey) (os : List Observation)
    (cached : Option (CacheEntry I)) (x : Name × ResourceType × ResourceClass) :
    x ∈ (leftBy now y os cached).2 ↔
      ∃ o ∈ os, o.cacheFlush = true ∧ o.ttl ≠ 0 ∧ o.rrset = x := by
  induction os using List.reverseRecOn with
  | nil => simp [leftBy]
  | append_singleton os o ih =>
    rw [leftBy_snoc]
    dsimp only
    have hsplit : (∃ o' ∈ os ++ [o], o'.cacheFlush = true ∧ o'.ttl ≠ 0 ∧ o'.rrset = x) ↔
        x ∈ (leftBy now y os cached).2 ∨ (o.cacheFlush = true ∧ o.ttl ≠ 0 ∧ o.rrset = x) := by
      rw [ih]
      simp [or_and_right, exists_or]
    rw [hsplit]
    by_cases hflush : o.flushes (leftBy now y os cached).2 = true
    · obtain ⟨hbit, httl, -⟩ := (o.flushes_iff _).mp hflush
      rw [if_pos hflush, List.mem_append, List.mem_singleton]
      simp only [hbit, httl, ne_eq, not_false_eq_true, true_and, eq_comm]
    · rw [if_neg hflush]
      constructor
      · exact .inl
      · intro hx
        cases hx with
        | inl hold => exact hold
        | inr hnew =>
          obtain ⟨hbit, httl, hset⟩ := hnew
          by_contra hnot
          rw [← hset] at hnot
          exact hflush ((o.flushes_iff _).mpr ⟨hbit, httl, hnot⟩)

theorem recent_now [MeasuredInstant I] (e : CacheEntry I) (now : I) (h : e.receivedAt = now) :
    e.recent now = true := by
  obtain ⟨g, hg, hsum⟩ := MeasuredInstant.since_of_le now now (le_refl now)
  obtain ⟨u, hu⟩ := MeasuredInstant.add_part now now 0 g (Nat.zero_le g) hsum
  have hback := LawfulInstant.add_mono now now u now 0 g (le_refl now) (Nat.zero_le g) hu hsum
  have hsame : u = now := le_antisymm hback (LawfulInstant.le_add now u 0 hu)
  rw [hsame] at hu
  have hzero : g = 0 := MeasuredInstant.add_inj now now g 0 hsum hu
  unfold CacheEntry.recent
  rw [h, hg, hzero]
  decide

theorem flushed_recent (e : CacheEntry I) (key : RecordKey) (now : I) (h : e.recent now = true) :
    e.flushed key now = e := by
  unfold CacheEntry.flushed
  cases checkedAddDuration now oneSecond with
  | none => rfl
  | some deadline =>
    have hnot : e.flushedBy key now deadline = false := by
      rw [CacheEntry.flushedBy, h, Bool.true_or, Bool.not_true, Bool.and_false, Bool.false_and]
    dsimp only
    rw [hnot, if_neg Bool.false_ne_true]

theorem fromSecs_eq_zero (ttl : UInt32) : Duration.fromSecs ttl.toNat = 0 ↔ ttl = 0 := by
  unfold Duration.fromSecs
  rw [← UInt32.toNat_inj]
  simp

theorem withdrawn_eq (now t : I) (y : RecordKey) :
    CacheEntry.withdrawn now ⟨y, t, now⟩ = ⟨y, shortened now t, now⟩ := by
  unfold CacheEntry.withdrawn shortened
  cases checkedAddDuration now oneSecond <;> rfl

theorem shortened_idem (now t : I) : shortened now (shortened now t) = shortened now t := by
  unfold shortened
  cases checkedAddDuration now oneSecond with
  | none => rfl
  | some deadline => exact min_eq_left (min_le_right t deadline)

theorem lastTtl_snoc (os : List Observation) (o : Observation) (y : RecordKey) :
    lastTtl (os ++ [o]) y = if o.key = y ∧ o.ttl ≠ 0 then some o.ttl else lastTtl os y := by
  unfold lastTtl
  rw [List.filter_append]
  by_cases hown : o.key = y ∧ o.ttl ≠ 0
  · have hkept : [o].filter (fun o => decide (o.key = y) && o.ttl != 0) = [o] := by
      rw [List.filter_singleton, decide_eq_true hown.1, bne_iff_ne.mpr hown.2]
      rfl
    rw [if_pos hown, hkept, List.getLast?_append, List.getLast?_singleton]
    rfl
  · have hdropped : [o].filter (fun o => decide (o.key = y) && o.ttl != 0) = [] := by
      rw [List.filter_eq_nil_iff]
      intro o' ho' hkeep
      rw [List.mem_singleton.mp ho', Bool.and_eq_true, decide_eq_true_iff, bne_iff_ne] at hkeep
      exact hown hkeep
    rw [if_neg hown, hdropped, List.append_nil]

theorem takenBack_snoc (os : List Observation) (o : Observation) (y : RecordKey) :
    takenBack (os ++ [o]) y = if o.key = y then o.ttl == 0 else takenBack os y := by
  unfold takenBack
  rw [List.filter_append, List.filter_singleton]
  by_cases hown : o.key = y
  · rw [if_pos hown, decide_eq_true hown, cond_true, List.getLast?_append, List.getLast?_singleton]
    rfl
  · rw [if_neg hown, decide_eq_false hown, cond_false, List.append_nil]

theorem leftBy_positive [MeasuredInstant I] (now : I) (y : RecordKey) (os : List Observation)
    (cached : Option (CacheEntry I)) (ttl : UInt32) (h : lastTtl os y = some ttl) :
    (leftBy now y os cached).1 = some ⟨y,
      if takenBack os y then shortened now (lifeUntil now ttl) else lifeUntil now ttl, now⟩ := by
  induction os using List.reverseRecOn generalizing ttl with
  | nil => cases h
  | append_singleton os o ih =>
    rw [lastTtl_snoc] at h
    rw [leftBy_snoc, takenBack_snoc]
    dsimp only
    unfold Cache.leaves
    by_cases hkey : o.key = y
    · rw [if_pos hkey]
      by_cases httl : o.ttl = 0
      · rw [if_neg fun hown => hown.2 httl] at h
        rw [if_pos ((fromSecs_eq_zero o.ttl).mpr httl), if_pos hkey.symm, ih ttl h, Option.map_some,
          withdrawn_eq, httl]
        rw [if_pos (beq_self_eq_true (0 : UInt32))]
        split
        · rw [shortened_idem]
        · rfl
      · rw [if_pos ⟨hkey, httl⟩, Option.some.injEq] at h
        rw [if_neg (mt (fromSecs_eq_zero o.ttl).mp httl), if_pos hkey.symm, hkey, ← h,
          if_neg (by rw [beq_iff_eq]; exact httl)]
        rfl
    · rw [if_neg fun hown => hkey hown.1] at h
      rw [if_neg hkey, ih ttl h]
      by_cases httl : Duration.fromSecs o.ttl.toNat = 0
      · rw [if_pos httl, if_neg fun hy => hkey hy.symm]
      · rw [if_neg httl, if_neg fun hy => hkey hy.symm, Option.map_some,
          flushed_recent _ _ _ (recent_now _ now rfl), ite_self]

theorem lastTtl_eq_none (os : List Observation) (y : RecordKey) :
    lastTtl os y = none ↔ ∀ o ∈ os, o.key = y → o.ttl = 0 := by
  unfold lastTtl
  rw [Option.map_eq_none_iff, List.getLast?_eq_none_iff, List.filter_eq_nil_iff]
  constructor
  · intro h o ho hkey
    by_contra hpositive
    apply h o ho
    rw [decide_eq_true hkey, bne_iff_ne.mpr hpositive]
    rfl
  · intro h o ho hown
    rw [Bool.and_eq_true, decide_eq_true_iff, bne_iff_ne] at hown
    exact hown.2 (h o ho hown.1)

theorem leftBy_absent (now : I) (y : RecordKey) (os : List Observation)
    (h : lastTtl os y = none) : (leftBy now y os none).1 = none := by
  induction os using List.reverseRecOn with
  | nil => rfl
  | append_singleton os o ih =>
    rw [lastTtl_snoc] at h
    rw [leftBy_snoc]
    dsimp only
    unfold Cache.leaves
    by_cases hkey : o.key = y
    · have httl : o.ttl = 0 := by
        by_contra hpositive
        rw [if_pos ⟨hkey, hpositive⟩] at h
        cases h
      rw [if_neg fun hown => hown.2 httl] at h
      rw [if_pos ((fromSecs_eq_zero o.ttl).mpr httl), ih h, Option.map_none, ite_self]
    · rw [if_neg fun hown => hkey hown.1] at h
      have hy : ¬y = o.key := fun hy => hkey hy.symm
      simp only [ih h, Option.map_none, if_neg hy, ite_self]

/-- What a cached record becomes: it lives no longer, and one second at most where a flush was for
its set. -/
structure Shorter (now : I) (e₀ : CacheEntry I) (flush : Prop) (e : CacheEntry I) : Prop where
  key : e.key = e₀.key
  receivedAt : e.receivedAt = e₀.receivedAt
  sooner : e.expiresAt ≤ e₀.expiresAt
  flushed : flush → e₀.recent now = false → ∀ deadline,
    checkedAddDuration now oneSecond = some deadline → e.expiresAt ≤ deadline

theorem Shorter.withdrawn (now : I) (e₀ e : CacheEntry I) (flush : Prop)
    (h : Shorter now e₀ flush e) : Shorter now e₀ flush (e.withdrawn now) := by
  unfold CacheEntry.withdrawn
  cases hadd : checkedAddDuration now oneSecond with
  | none => exact h
  | some deadline =>
    refine ⟨h.key, h.receivedAt, le_trans (min_le_left _ _) h.sooner, ?_⟩
    intro hflush hold d hd
    exact le_trans (min_le_left _ _) (h.flushed hflush hold d hd)

theorem Shorter.flush (now : I) (e₀ e : CacheEntry I) (flush flush' : Prop) (key : RecordKey)
    (h : Shorter now e₀ flush e) (hne : e.key ≠ key)
    (hset : flush' → flush ∨ e.key.sameSet key = true) :
    Shorter now e₀ flush' (e.flushed key now) := by
  unfold CacheEntry.flushed
  cases hadd : checkedAddDuration now oneSecond with
  | none =>
    refine ⟨h.key, h.receivedAt, h.sooner, ?_⟩
    intro _ _ d hd
    rw [hadd] at hd
    cases hd
  | some deadline =>
    dsimp only
    by_cases hby : e.flushedBy key now deadline = true
    · rw [if_pos hby]
      have hlt : deadline < e.expiresAt := of_decide_eq_true (Bool.and_eq_true_iff.mp hby).2
      refine ⟨h.key, h.receivedAt, le_trans (le_of_lt hlt) h.sooner, ?_⟩
      intro _ _ d hd
      rw [hadd, Option.some.injEq] at hd
      exact le_of_eq hd
    · rw [if_neg hby]
      refine ⟨h.key, h.receivedAt, h.sooner, ?_⟩
      intro hflush hold d hd
      rw [hadd, Option.some.injEq] at hd
      subst hd
      cases hset hflush with
      | inl hbefore => exact h.flushed hbefore hold deadline hadd
      | inr hsame =>
        by_contra hlong
        apply hby
        have hrdata : (e.key.rdata == key.rdata) = false := by
          rw [Bool.eq_false_iff]
          intro heq
          exact hne ((RecordKey.same_iff _ _).mp (Bool.and_eq_true_iff.mpr ⟨hsame, heq⟩))
        have hrecent : e.recent now = false := by
          unfold CacheEntry.recent at hold ⊢
          rw [h.receivedAt]
          exact hold
        rw [CacheEntry.flushedBy, hsame, hrecent, hrdata, decide_eq_true (not_le.mp hlong)]
        rfl

def FlushesSet (os : List Observation) (y : RecordKey) : Prop :=
  ∃ o ∈ os, o.cacheFlush = true ∧ o.ttl ≠ 0 ∧ o.rrset = (y.name, y.rtype, y.rclass)

theorem sameSet_iff (y key : RecordKey) :
    y.sameSet key = true ↔
      (key.name, key.rtype, key.rclass) = (y.name, y.rtype, y.rclass) := by
  unfold RecordKey.sameSet
  rw [Bool.and_eq_true, Bool.and_eq_true, beq_iff_eq, beq_iff_eq, beq_iff_eq, Prod.mk.injEq,
    Prod.mk.injEq]
  constructor
  · intro h
    exact ⟨(Name.ext_text _ _ h.2).symm, h.1.1.symm, h.1.2.symm⟩
  · intro h
    exact ⟨⟨h.2.1.symm, h.2.2.symm⟩, by rw [h.1]⟩

theorem leftBy_other (now : I) (os : List Observation) (e₀ : CacheEntry I)
    (h : lastTtl os e₀.key = none) :
    ∃ e, (leftBy now e₀.key os (some e₀)).1 = some e ∧ Shorter now e₀ (FlushesSet os e₀.key) e := by
  induction os using List.reverseRecOn with
  | nil =>
    refine ⟨e₀, rfl, rfl, rfl, le_refl _, ?_⟩
    intro hflush
    obtain ⟨o, ho, -⟩ := hflush
    cases ho
  | append_singleton os o ih =>
    have hflushes : FlushesSet (os ++ [o]) e₀.key → FlushesSet os e₀.key ∨ (o.cacheFlush = true ∧
        o.ttl ≠ 0 ∧ o.rrset = (e₀.key.name, e₀.key.rtype, e₀.key.rclass)) := by
      intro hflush
      obtain ⟨o', ho', hbit⟩ := hflush
      cases List.mem_append.mp ho' with
      | inl hold => exact .inl ⟨o', hold, hbit⟩
      | inr hnew =>
        rw [List.mem_singleton.mp hnew] at hbit
        exact .inr hbit
    rw [lastTtl_snoc] at h
    rw [leftBy_snoc]
    dsimp only
    unfold Cache.leaves
    by_cases hkey : o.key = e₀.key
    · have httl : o.ttl = 0 := by
        by_contra hpositive
        rw [if_pos ⟨hkey, hpositive⟩] at h
        cases h
      rw [if_neg fun hown => hown.2 httl] at h
      obtain ⟨e, he, hshorter⟩ := ih h
      rw [if_pos ((fromSecs_eq_zero o.ttl).mpr httl), if_pos hkey.symm, he, Option.map_some]
      refine ⟨_, rfl, ?_⟩
      have hback := hshorter.withdrawn now e₀ e _
      refine ⟨hback.key, hback.receivedAt, hback.sooner, ?_⟩
      intro hflush
      exact hback.flushed ((hflushes hflush).resolve_right fun hnew => hnew.2.1 httl)
    · rw [if_neg fun hown => hkey hown.1] at h
      obtain ⟨e, he, hshorter⟩ := ih h
      have hsame : (FlushesSet (os ++ [o]) e₀.key → FlushesSet os e₀.key) →
          Shorter now e₀ (FlushesSet (os ++ [o]) e₀.key) e := by
        intro hold
        refine ⟨hshorter.key, hshorter.receivedAt, hshorter.sooner, ?_⟩
        intro hflush
        exact hshorter.flushed (hold hflush)
      have hy : ¬e₀.key = o.key := fun hy => hkey hy.symm
      simp only [he, if_neg hy]
      by_cases httl : o.ttl = 0
      · rw [if_pos ((fromSecs_eq_zero o.ttl).mpr httl)]
        refine ⟨e, rfl, hsame ?_⟩
        intro hflush
        exact (hflushes hflush).resolve_right fun hnew => hnew.2.1 httl
      · rw [if_neg (mt (fromSecs_eq_zero o.ttl).mp httl)]
        by_cases hdo : o.flushes (leftBy now e₀.key os (some e₀)).2 = true
        · rw [if_pos hdo, Option.map_some]
          refine ⟨_, rfl, hshorter.flush now e₀ e _ _ o.key ?_ ?_⟩
          · rw [hshorter.key]
            exact fun hy => hkey hy.symm
          · intro hflush
            cases hflushes hflush with
            | inl hold => exact .inl hold
            | inr hnew =>
              rw [hshorter.key]
              exact .inr ((sameSet_iff _ _).mpr hnew.2.2)
        · rw [if_neg hdo]
          refine ⟨e, rfl, hsame ?_⟩
          intro hflush
          cases hflushes hflush with
          | inl hold => exact hold
          | inr hnew =>
            -- its bit is not passed on: that of an earlier record of the set was
            have hpassed : o.rrset ∈ (leftBy now e₀.key os (some e₀)).2 := by
              by_contra hnot
              exact hdo ((o.flushes_iff _).mpr ⟨hnew.1, hnew.2.1, hnot⟩)
            obtain ⟨o', ho', hbit, hpositive, hset⟩ := (mem_leftBy now _ os _ _).mp hpassed
            exact ⟨o', ho', hbit, hpositive, hset.trans hnew.2.2⟩

namespace Cache
variable {P : Type → Type} [Pool P]

def newcomers (c : Cache I P) (os : List Observation) : Finset RecordKey :=
  ((os.filter fun o => o.ttl != 0).map (·.key)).toFinset.filter fun y => (c.entry y).isNone

structure Room (c : Cache I P) (os : List Observation) : Prop where
  bound : (Pool.iter c.entries).length + (c.newcomers os).card ≤ c.maxEntries
  accepts : Pool.Accepts P (CacheEntry I)
    ((Pool.iter c.entries).length + (c.newcomers os).card)

omit [Instant I] in
theorem mem_newcomers (c : Cache I P) (os : List Observation) (y : RecordKey) :
    y ∈ c.newcomers os ↔ c.entry y = none ∧ lastTtl os y ≠ none := by
  have hpositive : lastTtl os y ≠ none ↔ ∃ o ∈ os, o.ttl ≠ 0 ∧ o.key = y := by
    rw [ne_eq, lastTtl_eq_none]
    push Not
    constructor
    · intro h
      obtain ⟨o, ho, hkey, httl⟩ := h
      exact ⟨o, ho, httl, hkey⟩
    · intro h
      obtain ⟨o, ho, httl, hkey⟩ := h
      exact ⟨o, ho, hkey, httl⟩
  unfold newcomers
  rw [Finset.mem_filter, List.mem_toFinset, List.mem_map, Option.isNone_iff_eq_none, hpositive,
    and_comm]
  simp only [List.mem_filter, bne_iff_ne, and_assoc]

omit [Instant I] in
theorem newcomers_snoc (c : Cache I P) (os : List Observation) (o : Observation) :
    c.newcomers (os ++ [o]) =
      if o.ttl ≠ 0 ∧ c.entry o.key = none then insert o.key (c.newcomers os)
      else c.newcomers os := by
  ext y
  rw [mem_newcomers, lastTtl_snoc]
  by_cases hnew : o.ttl ≠ 0 ∧ c.entry o.key = none
  · rw [if_pos hnew, Finset.mem_insert, mem_newcomers]
    by_cases hy : y = o.key
    · subst hy
      simp [hnew]
    · rw [if_neg fun h => hy h.1.symm]
      simp [hy]
  · rw [if_neg hnew, mem_newcomers]
    by_cases hy : o.key = y ∧ o.ttl ≠ 0
    · have hcached : c.entry y ≠ none := fun hnone => hnew ⟨hy.2, by rw [hy.1]; exact hnone⟩
      simp [hcached]
    · rw [if_neg hy]

omit [Instant I] in
theorem newcomers_subset (c : Cache I P) (os : List Observation) (o : Observation) :
    c.newcomers os ⊆ c.newcomers (os ++ [o]) := by
  rw [newcomers_snoc]
  split
  · exact Finset.subset_insert _ _
  · exact Finset.Subset.refl _

omit [Instant I] in
theorem Room.prefix_ (c : Cache I P) (os : List Observation) (o : Observation)
    (h : c.Room (os ++ [o])) : c.Room os := by
  have hcard := Finset.card_le_card (c.newcomers_subset os o)
  have hbound := h.bound
  refine ⟨by omega, ?_⟩
  intro p v hp
  exact h.accepts p v (by omega)

variable [OrderedPool P] [MeasuredInstant I]

theorem observe_run (c : Cache I P) (h : c.Distinct) (now : I) (os : List Observation)
    (hroom : c.Room os) :
    let st := os.foldl (observe now) (c, [])
    st.1.Distinct ∧ st.1.maxEntries = c.maxEntries ∧
      (Pool.iter st.1.entries).length = (Pool.iter c.entries).length + (c.newcomers os).card ∧
      ∀ y, (st.1.entry y, st.2) = leftBy now y os (c.entry y) := by
  induction os using List.reverseRecOn with
  | nil => exact ⟨h, rfl, rfl, fun y => rfl⟩
  | append_singleton os o ih =>
    rw [List.foldl_append, List.foldl_cons, List.foldl_nil]
    obtain ⟨hdistinct, hmax, hlength, hleft⟩ := ih (hroom.prefix_ c os o)
    generalize os.foldl (observe now) (c, []) = st at hdistinct hmax hlength hleft ⊢
    have hcached : ∀ y, st.1.entry y = none ↔ c.entry y = none ∧ lastTtl os y = none := by
      intro y
      have hy := congrArg Prod.fst (hleft y)
      dsimp only at hy
      rw [hy]
      cases hlast : lastTtl os y with
      | some ttl =>
        rw [leftBy_positive now y os _ ttl hlast]
        simp
      | none =>
        cases hold : c.entry y with
        | none => simp [leftBy_absent now y os hlast]
        | some e₀ =>
          have hkey := ((c.entry_eq_some h y e₀).mp hold).1
          rw [← hkey] at hlast ⊢
          obtain ⟨e, he, -⟩ := leftBy_other now os e₀ hlast
          rw [he]
          simp
    have hnew : (o.ttl ≠ 0 ∧ st.1.entry o.key = none) ↔
        (o.ttl ≠ 0 ∧ c.entry o.key = none) ∧ o.key ∉ c.newcomers os := by
      rw [hcached, mem_newcomers, not_and, not_not, and_assoc]
      exact and_congr_right fun _ => and_congr_right fun hnone => ⟨fun h _ => h, fun h => h hnone⟩
    have hgrows : (Pool.iter st.1.entries).length +
        (if o.ttl ≠ 0 ∧ st.1.entry o.key = none then 1 else 0) =
          (Pool.iter c.entries).length + (c.newcomers (os ++ [o])).card := by
      rw [newcomers_snoc, hlength]
      by_cases hfresh : o.ttl ≠ 0 ∧ c.entry o.key = none
      · rw [if_pos hfresh]
        by_cases hmem : o.key ∈ c.newcomers os
        · rw [if_neg fun hn => (hnew.mp hn).2 hmem, Finset.insert_eq_of_mem hmem, Nat.add_zero]
        · rw [if_pos (hnew.mpr ⟨hfresh, hmem⟩), Finset.card_insert_of_notMem hmem, Nat.add_assoc]
      · rw [if_neg hfresh, if_neg fun hn => hfresh (hnew.mp hn).1, Nat.add_zero]
    have hbound := hroom.bound
    obtain ⟨hdistinct', hmax', hlength', hentry'⟩ := st.1.tryInsert_entry hdistinct o.key
      (Duration.fromSecs o.ttl.toNat) now (o.flushes st.2) (by omega) (by
        intro httl hnone
        have hpositive : o.ttl ≠ 0 := fun hzero => httl ((fromSecs_eq_zero o.ttl).mpr hzero)
        rw [if_pos ⟨hpositive, hnone⟩] at hgrows
        refine ⟨by omega, ?_⟩
        intro entries v hsame
        apply hroom.accepts
        rw [Pool.held, List.length_map, hsame]
        omega)
    refine ⟨hdistinct', hmax'.trans hmax, ?_, ?_⟩
    · rw [← hgrows]
      refine Eq.trans hlength' ?_
      congr 1
      simp only [ne_eq, fromSecs_eq_zero]
    · intro y
      rw [leftBy_snoc, ← hleft y]
      exact Prod.ext (hentry' y) rfl

/-- A response that is admitted, with room in the cache for its records. Each of its answers and
additional records that can be decoded, comes before the first malformed one and has a positive TTL
is cached, received now, until its last such TTL is over; only a goodbye for it after that takes it
back. -/
theorem response_is_coherent (c : Cache I P) (h : c.Distinct) (now : I) (reader : MessageReader)
    (admits : Admits) (hadmits : admits.observation = true)
    (hresponse : reader.header.flags.isResponse = true)
    (hroom : c.Room (observations (reader.answers ++ reader.additional))) :
    let os := observations (reader.answers ++ reader.additional)
    let c' := c.cachePass now reader admits true
    c'.Distinct ∧
    (∀ o ∈ os, o.ttl ≠ 0 → ∃ ttl, lastTtl os o.key = some ttl ∧ c'.entry o.key = some ⟨o.key,
      if takenBack os o.key then shortened now (lifeUntil now ttl) else lifeUntil now ttl, now⟩) ∧
    ∀ k e, Pool.get c'.entries k = some e → (∀ o ∈ os, o.key = e.key → o.ttl = 0) →
      ∃ e₀, c.entry e.key = some e₀ ∧ e.receivedAt = e₀.receivedAt ∧ e.expiresAt ≤ e₀.expiresAt ∧
        ∀ o ∈ os, o.cacheFlush = true → o.ttl ≠ 0 →
          o.rrset = (e.key.name, e.key.rtype, e.key.rclass) →
            ∀ age, checkedDurationSince now e₀.receivedAt = some age → oneSecond ≤ age →
              ∀ deadline, checkedAddDuration now oneSecond = some deadline →
                e.expiresAt ≤ deadline := by
  intro os c'
  have hpass : c' = (os.foldl (observe now) (c, [])).1 := by
    show c.cachePass now reader admits true = _
    rw [cachePass, if_pos hadmits, hresponse, observeRecords_eq]
    rfl
  obtain ⟨hdistinct, -, -, hleft⟩ := c.observe_run h now os hroom
  rw [← hpass] at hdistinct
  have hentry : ∀ y, c'.entry y = (leftBy now y os (c.entry y)).1 := by
    intro y
    rw [hpass]
    exact congrArg Prod.fst (hleft y)
  refine ⟨hdistinct, ?_, ?_⟩
  · intro o ho httl
    cases hlast : lastTtl os o.key with
    | none => exact absurd ((lastTtl_eq_none os o.key).mp hlast o ho rfl) httl
    | some ttl => exact ⟨ttl, rfl, by rw [hentry, leftBy_positive now _ os _ ttl hlast]⟩
  · intro k e he hother
    have hlast := (lastTtl_eq_none os e.key).mpr hother
    have hcached := (c'.entry_eq_some hdistinct e.key e).mpr ⟨rfl, k, he⟩
    rw [hentry] at hcached
    cases hold : c.entry e.key with
    | none =>
      rw [hold, leftBy_absent now _ os hlast] at hcached
      cases hcached
    | some e₀ =>
      have hkey := ((c.entry_eq_some h e.key e₀).mp hold).1
      rw [hold, ← hkey] at hcached
      rw [← hkey] at hlast
      obtain ⟨e', he', hshorter⟩ := leftBy_other now os e₀ hlast
      rw [hcached] at he'
      obtain rfl := Option.some.inj he'
      refine ⟨e₀, rfl, hshorter.receivedAt, hshorter.sooner, ?_⟩
      intro o ho hbit httl hset age hage hle
      apply hshorter.flushed ⟨o, ho, hbit, httl, by rw [hkey]; exact hset⟩
      rw [CacheEntry.recent, hage]
      exact decide_eq_false (not_lt.mpr hle)

end Cache

end

/-- `h.local. A 10.0.0.1` and `A 10.0.0.2`, both with the cache-flush bit and 120 s to live. -/
def movedResponse : Bytes :=
  [0, 0, 132, 0, 0, 0, 0, 2, 0, 0, 0, 0,
    1, 104, 5, 108, 111, 99, 97, 108, 0, 0, 1, 128, 1, 0, 0, 0, 120, 0, 4, 10, 0, 0, 1,
    192, 12, 0, 1, 128, 1, 0, 0, 0, 120, 0, 4, 10, 0, 0, 2]

def addressKey (x : Byte) : RecordKey :=
  ⟨⟨[104, 46, 108, 111, 99, 97, 108, 46], by decide, by decide⟩, .a, .in_, [10, 0, 0, x]⟩

def beforeMove : Cache Uptime Slab :=
  ((Cache.new : Cache Uptime Slab).tryInsert (addressKey 9) (Duration.fromSecs 120) 0 true).1

theorem beforeMove_distinct : beforeMove.Distinct := by
  have hnew : (Cache.new : Cache Uptime Slab).Distinct := by
    intro k j a b ha
    have hmem := (LawfulPool.mem_iter (Pool.new : Slab (CacheEntry Uptime)) k a).mpr ha
    rw [LawfulPool.iter_new] at hmem
    cases hmem
  exact ((Cache.new : Cache Uptime Slab).tryInsert_entry hnew (addressKey 9)
    (Duration.fromSecs 120) 0 true (by decide) fun _ _ => ⟨by decide, fun _ _ _ => rfl⟩).1

def movedReader : MessageReader :=
  ((MessageReader.tryParse movedResponse).toOption).getD ⟨[], Header.new⟩

theorem moved_addresses_are_cached :
    (MessageReader.tryParse movedResponse).toOption = some movedReader ∧
      let c' := beforeMove.cachePass 5000000000 movedReader ⟨true, true, true, .none⟩ true
      c'.entry (addressKey 1) = some ⟨addressKey 1, 125000000000, 5000000000⟩ ∧
      c'.entry (addressKey 2) = some ⟨addressKey 2, 125000000000, 5000000000⟩ ∧
      ∀ k e, Pool.get c'.entries k = some e → e.key = addressKey 9 → e.expiresAt ≤ 6000000000 := by
  refine ⟨by decide +kernel, ?_⟩
  have hos : observations (movedReader.answers ++ movedReader.additional) =
      [⟨addressKey 1, 120, true⟩, ⟨addressKey 2, 120, true⟩] := by decide +kernel
  have hroom : beforeMove.Room (observations (movedReader.answers ++ movedReader.additional)) := by
    rw [hos]
    exact ⟨by decide +kernel, fun _ _ _ => rfl⟩
  obtain ⟨-, hcached, hother⟩ := beforeMove.response_is_coherent beforeMove_distinct 5000000000
    movedReader ⟨true, true, true, .none⟩ rfl (by decide +kernel) hroom
  rw [hos] at hcached hother
  intro c'
  refine ⟨?_, ?_, ?_⟩
  · obtain ⟨ttl, hlast, hentry⟩ := hcached ⟨addressKey 1, 120, true⟩ (by decide) (by decide)
    obtain rfl := Option.some.inj (show some (120 : UInt32) = some ttl from hlast)
    exact hentry.trans (by decide +kernel)
  · obtain ⟨ttl, hlast, hentry⟩ := hcached ⟨addressKey 2, 120, true⟩ (by decide) (by decide)
    obtain rfl := Option.some.inj (show some (120 : UInt32) = some ttl from hlast)
    exact hentry.trans (by decide +kernel)
  · intro k e he hkey
    have hgone : ∀ o ∈ [⟨addressKey 1, 120, true⟩, (⟨addressKey 2, 120, true⟩ : Observation)],
        o.key = addressKey 9 → o.ttl = 0 := by decide
    have hbefore : beforeMove.entry (addressKey 9) =
        some ⟨addressKey 9, 120000000000, 0⟩ := by decide +kernel
    obtain ⟨e₀, hold, -, -, hflushed⟩ := hother k e he (by rw [hkey]; exact hgone)
    rw [hkey, hbefore] at hold
    obtain rfl := Option.some.inj hold
    exact hflushed ⟨addressKey 1, 120, true⟩ (by decide) rfl (by decide) (by rw [hkey]; rfl)
      5000000000 (by decide +kernel) (by decide) 6000000000 (by decide +kernel)

end Hick
