import Hick.Discovery.Heard
import Hick.Mio.Lookups

/-!
# The entries of a lookup (hick-mio/src/discovery.rs:342-406, 580-736, 1161-1341)

What a lookup keeps is a function of what it has heard, in the order of its hearing: the last SRV
and the last TXT of each instance, and the first addresses of each host.
-/

set_option linter.unusedSectionVars false

namespace Hick
open Octets Wire Runs

namespace LookupCtx
variable {I : Type} [Instant I]

def take (ctx : LookupCtx I) : Found → LookupCtx I
  | .ptr name => ctx.onPtr name
  | .srv instKey host port => ctx.onSrv instKey host port
  | .txt instKey segments => ctx.onTxt instKey segments
  | .v4 hostKey addr => ctx.onV4 hostKey addr
  | .v6 hostKey addr => ctx.onV6 hostKey addr

theorem feed_read (ctx : LookupCtx I) (step : Step) (answer : CollectedAnswer) :
    ctx.feed step answer = match Found.read step answer with
      | some f => ctx.take f
      | none => ctx := by
  cases step with
  | ptr =>
    simp only [feed, Found.read]
    split
    · cases parseName answer.rdata <;> rfl
    · rfl
  | srv instKey =>
    simp only [feed, Found.read]
    split
    · cases parseSrv answer.rdata <;> rfl
    · rfl
  | txt instKey =>
    simp only [feed, Found.read]
    split <;> rfl
  | a hostKey =>
    simp only [feed, Found.read]
    split
    · cases aTryFromRdata answer.rdata <;> rfl
    · rfl
  | aaaa hostKey =>
    simp only [feed, Found.read]
    split
    · cases aaaaTryFromRdata answer.rdata <;> rfl
    · rfl

structure Mirrors (p : PartialEntry) (heard : List Found) (key : Bytes) : Prop where
  hasSrv : p.hasSrv = (lastSrv heard key).isSome
  host : p.host = (lastSrv heard key).map Prod.fst
  hostKey : p.hostKey = (lastSrv heard key).map fun target => fold target.1
  port : p.port = ((lastSrv heard key).map Prod.snd).getD 0
  txt : p.txt = lastTxt heard key
  ipv4 : p.ipv4 = (p.hostKey.map (knownV4 heard)).getD []
  ipv6 : p.ipv6 = (p.hostKey.map (knownV6 heard)).getD []
  named : ∃ name, fold name = key ∧
    (p.instance_ = some name ∨ p.instance_ = none ∧ p.host = some name)

structure Sees (ctx : LookupCtx I) (heard : List Found) : Prop where
  partials : ∀ key p, ctx.partials.lookup key = some p → Mirrors p heard key
  cache : ∀ hostKey, ((ctx.hostAddrs.lookup hostKey).getD HostAddrs.default) =
    ⟨knownV4 heard hostKey, knownV6 heard hostKey⟩
  unheard : ∀ key, ctx.partials.lookup key = none →
    lastSrv heard key = none ∧ lastTxt heard key = none

end LookupCtx

def Step.Tracked (partials : Assoc Bytes PartialEntry) : Step → Prop
  | .srv key | .txt key => ∃ p, partials.lookup key = some p ∧ p.instance_.isSome = true
  | _ => True

theorem Step.Tracked.keep (partials next : Assoc Bytes PartialEntry)
    (h : ∀ key p, partials.lookup key = some p →
      ∃ q, next.lookup key = some q ∧ q.instance_ = p.instance_) (step : Step)
    (ht : step.Tracked partials) : step.Tracked next := by
  have hkey : ∀ key, (∃ p, partials.lookup key = some p ∧ p.instance_.isSome = true) →
      ∃ p, next.lookup key = some p ∧ p.instance_.isSome = true := by
    intro key hp
    obtain ⟨p, hp, hname⟩ := hp
    obtain ⟨q, hq, hsame⟩ := h key p hp
    exact ⟨q, hq, by rw [hsame]; exact hname⟩
  cases step with
  | ptr => trivial
  | srv key => exact hkey key ht
  | txt key => exact hkey key ht
  | a key => trivial
  | aaaa key => trivial

def Found.Tracked (partials : Assoc Bytes PartialEntry) : Found → Prop
  | .srv key _ _ | .txt key _ => ∃ p, partials.lookup key = some p ∧ p.instance_.isSome = true
  | _ => True

namespace PartialEntry

theorem foldl_addV4 (l : List Ipv4Addr) (p : PartialEntry) :
    l.foldl addV4 p = { p with ipv4 := l.foldl pushCapped p.ipv4 } := by
  induction l generalizing p with
  | nil => rfl
  | cons x rest ih => rw [List.foldl_cons, ih, List.foldl_cons]; rfl

theorem foldl_addV6 (l : List Ipv6Addr) (p : PartialEntry) :
    l.foldl addV6 p = { p with ipv6 := l.foldl pushCapped p.ipv6 } := by
  induction l generalizing p with
  | nil => rfl
  | cons x rest ih => rw [List.foldl_cons, ih, List.foldl_cons]; rfl

end PartialEntry

namespace LookupCtx
section
variable {I : Type} [Instant I]

theorem adopt_eq (host : Name) (port : UInt16) (cached : Option HostAddrs) (p : PartialEntry) :
    adopt host port cached p = { p with
      hasSrv := true
      hostKey := some (fold host)
      host := some host
      port := port
      ipv4 := (cached.getD HostAddrs.default).ipv4.foldl pushCapped
        (if p.hostKey = some (fold host) then p.ipv4 else [])
      ipv6 := (cached.getD HostAddrs.default).ipv6.foldl pushCapped
        (if p.hostKey = some (fold host) then p.ipv6 else []) } := by
  have hset : p.setSrv host port = { p with
      hasSrv := true
      hostKey := some (fold host)
      host := some host
      port := port
      ipv4 := if p.hostKey = some (fold host) then p.ipv4 else []
      ipv6 := if p.hostKey = some (fold host) then p.ipv6 else [] } := by
    rw [PartialEntry.setSrv]
    by_cases h : p.hostKey = some (fold host)
    · simp [h]
    · simp [h]
  cases cached with
  | none => exact hset
  | some cached =>
    simp only [adopt, hset]
    rw [PartialEntry.foldl_addV4, PartialEntry.foldl_addV6]
    rfl

theorem Mirrors.snoc (p : PartialEntry) (heard : List Found) (key : Bytes)
    (h : Mirrors p heard key) (f : Found) (hsrv : f.srvAt key = none) (htxt : f.txtAt key = none)
    (haddr : ∀ hostKey, p.hostKey = some hostKey → f.v4At hostKey = none ∧ f.v6At hostKey = none) :
    Mirrors p (heard ++ [f]) key := by
  have hlast : lastSrv (heard ++ [f]) key = lastSrv heard key := by
    rw [lastSrv_snoc, hsrv, Option.none_or]
  refine ⟨?_, ?_, ?_, ?_, ?_, ?_, ?_, h.named⟩
  · rw [hlast, h.hasSrv]
  · rw [hlast, h.host]
  · rw [hlast, h.hostKey]
  · rw [hlast, h.port]
  · rw [lastTxt_snoc, htxt, Option.none_or, h.txt]
  · rw [h.ipv4]
    cases hk : p.hostKey with
    | none => rfl
    | some hostKey => simp only [Option.map_some, Option.getD_some, knownV4_snoc, (haddr _ hk).1]
  · rw [h.ipv6]
    cases hk : p.hostKey with
    | none => rfl
    | some hostKey => simp only [Option.map_some, Option.getD_some, knownV6_snoc, (haddr _ hk).2]

variable (ctx : LookupCtx I) (heard : List Found)

theorem Sees.onPtr (h : ctx.Sees heard) (name : Name) :
    (ctx.onPtr name).Sees (heard ++ [.ptr name]) := by
  have hkeep : ctx.Sees (heard ++ [.ptr name]) := by
    refine ⟨fun key p hp => ?_, fun hostKey => ?_, fun key hkey => ?_⟩
    · exact (h.partials key p hp).snoc p heard key (.ptr name) rfl rfl fun _ _ => ⟨rfl, rfl⟩
    · rw [h.cache, knownV4_snoc, knownV6_snoc]
      rfl
    · rw [lastSrv_snoc, lastTxt_snoc]
      exact h.unheard key hkey
  rw [LookupCtx.onPtr]
  split
  · exact hkeep
  · rename_i hnew
    split
    · exact hkeep
    · refine ⟨fun key p hp => ?_, hkeep.cache, fun key hkey => ?_⟩
      · rw [Assoc.lookup_insert] at hp
        split at hp
        · rename_i hsame
          cases hp
          subst hsame
          obtain ⟨hsrv, htxt⟩ := hkeep.unheard (fold name) (AList.lookup_eq_none.mpr hnew)
          constructor
          · rw [hsrv]
            rfl
          · rw [hsrv]
            rfl
          · rw [hsrv]
            rfl
          · rw [hsrv]
            rfl
          · rw [htxt]
            rfl
          · rfl
          · rfl
          · exact ⟨name, rfl, .inl rfl⟩
        · exact hkeep.partials key p hp
      · rw [Assoc.lookup_insert] at hkey
        split at hkey
        · cases hkey
        · exact hkeep.unheard key hkey

theorem missing_of_modify (partials : Assoc Bytes PartialEntry) (instKey key : Bytes)
    (f : PartialEntry → PartialEntry) (q : PartialEntry)
    (hq : partials.lookup instKey = some q) (hkey : (partials.modify f instKey).lookup key = none) :
    partials.lookup key = none ∧ instKey ≠ key := by
  rw [Assoc.lookup_modify] at hkey
  split at hkey
  · rename_i hsame
    rw [hsame, hq] at hkey
    cases hkey
  · rename_i hne
    exact ⟨hkey, fun heq => hne heq.symm⟩

theorem Sees.onSrv (h : ctx.Sees heard) (instKey : Bytes)
    (host : Name) (port : UInt16) (htracked : (Found.srv instKey host port).Tracked ctx.partials) :
    (ctx.onSrv instKey host port).Sees (heard ++ [.srv instKey host port]) := by
  have hstep : Sees { ctx with
      partials := ctx.partials.modify (adopt host port (ctx.hostAddrs.lookup (fold host))) instKey }
      (heard ++ [.srv instKey host port]) := by
    refine ⟨fun key p hp => ?_, fun hostKey => ?_, fun key hkey => ?_⟩
    · rw [Assoc.lookup_modify] at hp
      split at hp
      · rename_i hsame
        rw [Option.map_eq_some_iff] at hp
        obtain ⟨old, hold, hp⟩ := hp
        subst hsame
        have hm := h.partials key old hold
        have hlast : lastSrv (heard ++ [.srv key host port]) key = some (host, port) := by
          rw [lastSrv_snoc, Found.srvAt, if_pos rfl, Option.some_or]
        have hcache := h.cache (fold host)
        subst hp
        rw [adopt_eq, hcache]
        constructor
        · rw [hlast]
          rfl
        · rw [hlast]
          rfl
        · rw [hlast]
          rfl
        · rw [hlast]
          rfl
        · rw [lastTxt_snoc]
          exact hm.txt
        · simp only [Option.map_some, Option.getD_some]
          rw [adopted (knownV4 heard (fold host)) old.ipv4 _ (firstDistinct_nodup _)
            (firstDistinct_length _) fun hk => by rw [hm.ipv4, hk]; rfl, knownV4_snoc]
          rfl
        · simp only [Option.map_some, Option.getD_some]
          rw [adopted (knownV6 heard (fold host)) old.ipv6 _ (firstDistinct_nodup _)
            (firstDistinct_length _) fun hk => by rw [hm.ipv6, hk]; rfl, knownV6_snoc]
          rfl
        · obtain ⟨q, hq, hname⟩ := htracked
          rw [hold] at hq
          cases hq
          obtain ⟨name, hfold, hnamed | ⟨hnone, -⟩⟩ := hm.named
          · exact ⟨name, hfold, .inl hnamed⟩
          · rw [hnone] at hname
            cases hname
      · rename_i hne
        exact (h.partials key p hp).snoc p heard key _ (if_neg fun e => hne e.symm) rfl
          fun _ _ => ⟨rfl, rfl⟩
    · rw [h.cache, knownV4_snoc, knownV6_snoc]
      rfl
    · obtain ⟨q, hq, -⟩ := htracked
      obtain ⟨hnone, hne⟩ := missing_of_modify _ instKey key _ q hq hkey
      rw [lastSrv_snoc, lastTxt_snoc, Found.srvAt, if_neg hne]
      exact h.unheard key hnone
  rw [LookupCtx.onSrv]
  simp only
  split
  · exact hstep
  · split
    · exact hstep
    · exact ⟨hstep.partials, hstep.cache, hstep.unheard⟩

theorem Sees.onTxt (h : ctx.Sees heard) (instKey : Bytes)
    (segments : List Bytes) (htracked : (Found.txt instKey segments).Tracked ctx.partials) :
    (ctx.onTxt instKey segments).Sees (heard ++ [.txt instKey segments]) := by
  refine ⟨fun key p hp => ?_, fun hostKey => ?_, fun key hkey => ?_⟩
  · rw [LookupCtx.onTxt, Assoc.lookup_modify] at hp
    split at hp
    · rename_i hsame
      rw [Option.map_eq_some_iff] at hp
      obtain ⟨old, hold, hp⟩ := hp
      have hm := h.partials key old hold
      have hlast : lastSrv (heard ++ [.txt instKey segments]) key = lastSrv heard key := by
        rw [lastSrv_snoc]
        rfl
      subst hp
      constructor
      · rw [hlast]
        exact hm.hasSrv
      · rw [hlast]
        exact hm.host
      · rw [hlast]
        exact hm.hostKey
      · rw [hlast]
        exact hm.port
      · rw [lastTxt_snoc, Found.txtAt, if_pos hsame.symm]
        rfl
      · simp only [PartialEntry.setTxt]
        rw [hm.ipv4]
        cases old.hostKey with
        | none => rfl
        | some hostKey =>
          simp only [Option.map_some, Option.getD_some]
          rw [knownV4_snoc]
          rfl
      · simp only [PartialEntry.setTxt]
        rw [hm.ipv6]
        cases old.hostKey with
        | none => rfl
        | some hostKey =>
          simp only [Option.map_some, Option.getD_some]
          rw [knownV6_snoc]
          rfl
      · exact hm.named
    · rename_i hne
      exact (h.partials key p hp).snoc p heard key _ rfl (if_neg fun e => hne e.symm)
        fun _ _ => ⟨rfl, rfl⟩
  · rw [LookupCtx.onTxt, h.cache, knownV4_snoc, knownV6_snoc]
    rfl
  · rw [LookupCtx.onTxt] at hkey
    obtain ⟨q, hq, -⟩ := htracked
    obtain ⟨hnone, hne⟩ := missing_of_modify _ instKey key _ q hq hkey
    rw [lastSrv_snoc, lastTxt_snoc, Found.txtAt, if_neg hne]
    exact h.unheard key hnone

theorem Sees.onAddr (h : ctx.Sees heard)
    (hostKey : Bytes) (cache : HostAddrs → HostAddrs) (add : PartialEntry → PartialEntry)
    (f : Found) (hsrv : ∀ key, f.srvAt key = none) (htxt : ∀ key, f.txtAt key = none)
    (hother : ∀ key, key ≠ hostKey → f.v4At key = none ∧ f.v6At key = none)
    (hcache : cache ⟨knownV4 heard hostKey, knownV6 heard hostKey⟩ =
      ⟨knownV4 (heard ++ [f]) hostKey, knownV6 (heard ++ [f]) hostKey⟩)
    (hadd : ∀ p, add p = { p with
      ipv4 := (cache ⟨p.ipv4, p.ipv6⟩).ipv4
      ipv6 := (cache ⟨p.ipv4, p.ipv6⟩).ipv6 }) :
    (ctx.onAddr hostKey cache add).Sees (heard ++ [f]) := by
  refine ⟨fun key p hp => ?_, fun key => ?_, fun key hkey => ?_⟩
  · rw [LookupCtx.onAddr, Assoc.lookup_mapAll, Option.map_eq_some_iff] at hp
    obtain ⟨old, hold, hp⟩ := hp
    have hm := h.partials key old hold
    split at hp
    · rename_i hk
      have hlast : lastSrv (heard ++ [f]) key = lastSrv heard key := by
        rw [lastSrv_snoc, hsrv, Option.none_or]
      have h4 : old.ipv4 = knownV4 heard hostKey := by rw [hm.ipv4, hk]; rfl
      have h6 : old.ipv6 = knownV6 heard hostKey := by rw [hm.ipv6, hk]; rfl
      rw [hadd, h4, h6, hcache] at hp
      subst hp
      constructor
      · rw [hlast]
        exact hm.hasSrv
      · rw [hlast]
        exact hm.host
      · rw [hlast]
        exact hm.hostKey
      · rw [hlast]
        exact hm.port
      · rw [lastTxt_snoc, htxt, Option.none_or]
        exact hm.txt
      · simp only [hk, Option.map_some, Option.getD_some]
      · simp only [hk, Option.map_some, Option.getD_some]
      · exact hm.named
    · rename_i hk
      subst hp
      exact hm.snoc old heard key f (hsrv key) (htxt key) fun other hother' =>
        hother other fun e => hk (by rw [hother', e])
  · rw [LookupCtx.onAddr, Assoc.lookup_insert]
    split
    · rename_i hk
      rw [hk, Option.getD_some, h.cache, hcache]
    · rename_i hk
      rw [h.cache, knownV4_snoc, knownV6_snoc, (hother key hk).1, (hother key hk).2]
  · rw [LookupCtx.onAddr, Assoc.lookup_mapAll, Option.map_eq_none_iff] at hkey
    rw [lastSrv_snoc, lastTxt_snoc, hsrv, htxt, Option.none_or, Option.none_or]
    exact h.unheard key hkey

theorem Sees.take (h : ctx.Sees heard) (f : Found)
    (htracked : f.Tracked ctx.partials) : (ctx.take f).Sees (heard ++ [f]) := by
  cases f with
  | ptr name => exact h.onPtr ctx heard name
  | srv instKey host port => exact h.onSrv ctx heard instKey host port htracked
  | txt instKey segments => exact h.onTxt ctx heard instKey segments htracked
  | v4 hostKey addr =>
    rw [LookupCtx.take, LookupCtx.onV4]
    apply h.onAddr
    · intro key
      rfl
    · intro key
      rfl
    · intro key hne
      exact ⟨if_neg fun e => hne e.symm, rfl⟩
    · rw [knownV4_snoc, knownV6_snoc, Found.v4At, if_pos rfl]
      rfl
    · intro p
      rfl
  | v6 hostKey addr =>
    rw [LookupCtx.take, LookupCtx.onV6]
    apply h.onAddr
    · intro key
      rfl
    · intro key
      rfl
    · intro key hne
      exact ⟨rfl, if_neg fun e => hne e.symm⟩
    · rw [knownV4_snoc, knownV6_snoc, Found.v6At, if_pos rfl]
      rfl
    · intro p
      rfl

/-- What is asked for is asked of an instance that is tracked, and there is a bound on it. -/
structure Bounded (ctx : LookupCtx I) : Prop where
  asked : ∀ sub step, ctx.subqueries.lookup sub = some step → step.Tracked ctx.partials
  toAsk : ∀ s ∈ ctx.pending, s.step.Tracked ctx.partials
  partials : ctx.partials.keys.length ≤ ctx.maxEntries
  hosts : ctx.hostsQueried.card ≤ ctx.maxEntries
  starts : ctx.launched + ctx.pending.length ≤
    1 + 2 * ctx.partials.keys.length + 2 * ctx.hostsQueried.card
  held : ctx.subqueries.keys.length ≤ ctx.launched

def Keeps (ctx next : LookupCtx I) : Prop :=
  ∀ key p, ctx.partials.lookup key = some p →
    ∃ q, next.partials.lookup key = some q ∧ q.instance_ = p.instance_ ∧ q.emitted = p.emitted

theorem Keeps.tracked (ctx next : LookupCtx I) (h : ctx.Keeps next) (step : Step)
    (ht : step.Tracked ctx.partials) : step.Tracked next.partials := by
  refine Step.Tracked.keep ctx.partials next.partials (fun key p hp => ?_) step ht
  obtain ⟨q, hq, hsame, -⟩ := h key p hp
  exact ⟨q, hq, hsame⟩

theorem take_keeps (f : Found) : ctx.Keeps (ctx.take f) := by
  intro key p hp
  have hmodify : ∀ (g : PartialEntry → PartialEntry) (k : Bytes),
      (∀ p, (g p).instance_ = p.instance_ ∧ (g p).emitted = p.emitted) →
      ∃ q, (ctx.partials.modify g k).lookup key = some q ∧ q.instance_ = p.instance_ ∧
        q.emitted = p.emitted := by
    intro g k hg
    rw [Assoc.lookup_modify, hp]
    split
    · exact ⟨g p, rfl, hg p⟩
    · exact ⟨p, rfl, rfl, rfl⟩
  have hmap : ∀ (g : PartialEntry → PartialEntry) (k : Bytes),
      (∀ p, (g p).instance_ = p.instance_ ∧ (g p).emitted = p.emitted) →
      ∃ q, (ctx.partials.mapAll fun _ p => if p.hostKey = some k then g p else p).lookup key =
        some q ∧ q.instance_ = p.instance_ ∧ q.emitted = p.emitted := by
    intro g k hg
    rw [Assoc.lookup_mapAll, hp, Option.map_some]
    split
    · exact ⟨g p, rfl, hg p⟩
    · exact ⟨p, rfl, rfl, rfl⟩
  cases f with
  | ptr name =>
    rw [LookupCtx.take, LookupCtx.onPtr]
    split
    · exact ⟨p, hp, rfl, rfl⟩
    · rename_i hnew
      split
      · exact ⟨p, hp, rfl, rfl⟩
      · refine ⟨p, ?_, rfl, rfl⟩
        rw [Assoc.lookup_insert, if_neg]
        · exact hp
        · rintro rfl
          exact hnew ((Assoc.mem_iff _ _).mpr ⟨p, hp⟩)
  | srv instKey host port =>
    have := hmodify (adopt host port (ctx.hostAddrs.lookup (fold host))) instKey fun p => by
      rw [adopt_eq]
      exact ⟨rfl, rfl⟩
    rw [LookupCtx.take, LookupCtx.onSrv]
    simp only
    split
    · exact this
    · split
      · exact this
      · exact this
  | txt instKey segments => exact hmodify _ instKey fun p => ⟨rfl, rfl⟩
  | v4 hostKey addr => exact hmap _ hostKey fun p => ⟨rfl, rfl⟩
  | v6 hostKey addr => exact hmap _ hostKey fun p => ⟨rfl, rfl⟩

theorem Bounded.take (h : ctx.Bounded) (f : Found) : (ctx.take f).Bounded := by
  have hkeeps := ctx.take_keeps f
  have hasked : ∀ sub step, ctx.subqueries.lookup sub = some step →
      step.Tracked (ctx.take f).partials := fun sub step hs =>
    hkeeps.tracked ctx _ step (h.asked sub step hs)
  have htoAsk : ∀ s ∈ ctx.pending, s.step.Tracked (ctx.take f).partials := fun s hs =>
    hkeeps.tracked ctx _ s.step (h.toAsk s hs)
  cases f with
  | ptr name =>
    rw [LookupCtx.take, LookupCtx.onPtr] at *
    split
    · exact h
    · rename_i hnew
      split
      · exact h
      · rename_i hroom
        rw [if_neg hnew, if_neg hroom] at hasked htoAsk
        have hlen := Assoc.length_keys_insert (fold name) (PartialEntry.new name) ctx.partials
        rw [if_neg hnew] at hlen
        have hname : ∃ p, (ctx.partials.insert (fold name) (PartialEntry.new name)).lookup
            (fold name) = some p ∧ p.instance_.isSome = true :=
          ⟨PartialEntry.new name, AList.lookup_insert _, rfl⟩
        refine ⟨hasked, ?_, ?_, h.hosts, ?_, h.held⟩
        · intro s hs
          rcases List.mem_append.mp hs with hold | hnew
          · exact htoAsk s hold
          · simp only [List.mem_cons, List.not_mem_nil, or_false] at hnew
            rcases hnew with rfl | rfl
            · exact hname
            · exact hname
        · simp only [hlen]
          omega
        · have := h.starts
          simp only [hlen, List.length_append, List.length_cons, List.length_nil]
          omega
  | srv instKey host port =>
    have hlen := Assoc.length_keys_modify
      (adopt host port (ctx.hostAddrs.lookup (fold host))) instKey ctx.partials
    rw [LookupCtx.take, LookupCtx.onSrv] at *
    simp only at *
    split
    · rename_i hknown
      rw [if_pos hknown] at hasked htoAsk
      exact ⟨hasked, htoAsk, by simp only [hlen]; exact h.partials, h.hosts,
        by simp only [hlen]; exact h.starts, h.held⟩
    · rename_i hknown
      rw [if_neg hknown] at hasked htoAsk
      split
      · rename_i hfull
        rw [if_pos hfull] at hasked htoAsk
        exact ⟨hasked, htoAsk, by simp only [hlen]; exact h.partials, h.hosts,
          by simp only [hlen]; exact h.starts, h.held⟩
      · rename_i hroom
        rw [if_neg hroom] at hasked htoAsk
        have hcard := Finset.card_insert_of_notMem hknown
        refine ⟨hasked, ?_, by simp only [askAddresses, hlen]; exact h.partials, ?_, ?_, h.held⟩
        · intro s hs
          rcases List.mem_append.mp hs with hold | hnew
          · exact htoAsk s hold
          · simp only [List.mem_cons, List.not_mem_nil, or_false] at hnew
            rcases hnew with rfl | rfl
            · trivial
            · trivial
        · simp only [askAddresses, hcard]
          omega
        · have := h.starts
          simp only [askAddresses, hlen, hcard, List.length_append, List.length_cons,
            List.length_nil]
          omega
  | txt instKey segments =>
    have hlen := Assoc.length_keys_modify (fun p => p.setTxt segments) instKey ctx.partials
    refine ⟨hasked, htoAsk, ?_, h.hosts, ?_, h.held⟩
    · simp only [LookupCtx.take, LookupCtx.onTxt, hlen]
      exact h.partials
    · simp only [LookupCtx.take, LookupCtx.onTxt, hlen]
      exact h.starts
  | v4 hostKey addr =>
    refine ⟨hasked, htoAsk, ?_, h.hosts, ?_, h.held⟩
    · simp only [LookupCtx.take, LookupCtx.onV4, LookupCtx.onAddr, Assoc.keys_mapAll]
      exact h.partials
    · simp only [LookupCtx.take, LookupCtx.onV4, LookupCtx.onAddr, Assoc.keys_mapAll]
      exact h.starts
  | v6 hostKey addr =>
    refine ⟨hasked, htoAsk, ?_, h.hosts, ?_, h.held⟩
    · simp only [LookupCtx.take, LookupCtx.onV6, LookupCtx.onAddr, Assoc.keys_mapAll]
      exact h.partials
    · simp only [LookupCtx.take, LookupCtx.onV6, LookupCtx.onAddr, Assoc.keys_mapAll]
      exact h.starts

structure Same (ctx next : LookupCtx I) : Prop where
  generation : next.generation = ctx.generation
  deadline : next.deadline = ctx.deadline
  timeout : next.timeout = ctx.timeout
  maxEntries : next.maxEntries = ctx.maxEntries
  emitted : next.emitted = ctx.emitted
  ready : next.ready = ctx.ready
  keeps : ctx.Keeps next
  found : ∀ key p, next.partials.lookup key = some p →
    p.emitted = true → ∃ q, ctx.partials.lookup key = some q

theorem Same.refl : ctx.Same ctx :=
  ⟨rfl, rfl, rfl, rfl, rfl, rfl, fun _ p hp => ⟨p, hp, rfl, rfl⟩, fun _ p hp _ => ⟨p, hp⟩⟩

theorem Same.trans (a b c : LookupCtx I) (h : a.Same b) (h' : b.Same c) : a.Same c := by
  refine ⟨by rw [h'.generation, h.generation], by rw [h'.deadline, h.deadline],
    by rw [h'.timeout, h.timeout], by rw [h'.maxEntries, h.maxEntries],
    by rw [h'.emitted, h.emitted], by rw [h'.ready, h.ready], ?_, ?_⟩
  · intro key p hp
    obtain ⟨q, hq, hname, hflag⟩ := h.keeps key p hp
    obtain ⟨r, hr, hname', hflag'⟩ := h'.keeps key q hq
    exact ⟨r, hr, by rw [hname', hname], by rw [hflag', hflag]⟩
  · intro key r hr hflag
    obtain ⟨q, hq⟩ := h'.found key r hr hflag
    obtain ⟨r', hr', -, hflag'⟩ := h'.keeps key q hq
    rw [hr] at hr'
    cases hr'
    exact h.found key q hq (by rw [← hflag', hflag])

theorem onSrv_subqueries (instKey : Bytes) (host : Name) (port : UInt16) :
    (ctx.onSrv instKey host port) = { ctx with
      partials := ctx.partials.modify (adopt host port (ctx.hostAddrs.lookup (fold host))) instKey
      hostsQueried := (ctx.onSrv instKey host port).hostsQueried
      pending := (ctx.onSrv instKey host port).pending } := by
  rw [LookupCtx.onSrv]
  simp only
  split
  · rfl
  · split
    · rfl
    · rfl

theorem take_same (f : Found) :
    ctx.Same (ctx.take f) ∧ (ctx.take f).subqueries = ctx.subqueries ∧
      (ctx.take f).launched = ctx.launched := by
  have hkeeps := ctx.take_keeps f
  cases f with
  | ptr name =>
    rw [LookupCtx.take, LookupCtx.onPtr] at *
    split
    · exact ⟨Same.refl ctx, rfl, rfl⟩
    · rename_i hnew
      split
      · exact ⟨Same.refl ctx, rfl, rfl⟩
      · rename_i hroom
        rw [if_neg hnew, if_neg hroom] at hkeeps
        refine ⟨⟨rfl, rfl, rfl, rfl, rfl, rfl, hkeeps, ?_⟩, rfl, rfl⟩
        intro key p hp hflag
        rw [Assoc.lookup_insert] at hp
        split at hp
        · cases hp
          cases hflag
        · exact ⟨p, hp⟩
  | srv instKey host port =>
    rw [LookupCtx.take] at *
    rw [onSrv_subqueries] at *
    refine ⟨⟨rfl, rfl, rfl, rfl, rfl, rfl, hkeeps, ?_⟩, rfl, rfl⟩
    intro key p hp _
    rw [Assoc.lookup_modify] at hp
    split at hp
    · rw [Option.map_eq_some_iff] at hp
      obtain ⟨q, hq, -⟩ := hp
      exact ⟨q, hq⟩
    · exact ⟨p, hp⟩
  | txt instKey segments =>
    refine ⟨⟨rfl, rfl, rfl, rfl, rfl, rfl, hkeeps, ?_⟩, rfl, rfl⟩
    intro key p hp _
    rw [LookupCtx.take, LookupCtx.onTxt, Assoc.lookup_modify] at hp
    split at hp
    · rw [Option.map_eq_some_iff] at hp
      obtain ⟨q, hq, -⟩ := hp
      exact ⟨q, hq⟩
    · exact ⟨p, hp⟩
  | v4 hostKey addr =>
    refine ⟨⟨rfl, rfl, rfl, rfl, rfl, rfl, hkeeps, ?_⟩, rfl, rfl⟩
    intro key p hp _
    rw [LookupCtx.take, LookupCtx.onV4, LookupCtx.onAddr, Assoc.lookup_mapAll,
      Option.map_eq_some_iff] at hp
    obtain ⟨q, hq, -⟩ := hp
    exact ⟨q, hq⟩
  | v6 hostKey addr =>
    refine ⟨⟨rfl, rfl, rfl, rfl, rfl, rfl, hkeeps, ?_⟩, rfl, rfl⟩
    intro key p hp _
    rw [LookupCtx.take, LookupCtx.onV6, LookupCtx.onAddr, Assoc.lookup_mapAll,
      Option.map_eq_some_iff] at hp
    obtain ⟨q, hq, -⟩ := hp
    exact ⟨q, hq⟩

structure Sound (ctx : LookupCtx I) (heard : List Found) : Prop where
  sees : ctx.Sees heard
  bounded : ctx.Bounded

theorem read_tracked (step : Step) (answer : CollectedAnswer) (f : Found)
    (hread : Found.read step answer = some f) (ht : step.Tracked ctx.partials) :
    f.Tracked ctx.partials := by
  cases step with
  | ptr =>
    simp only [Found.read] at hread
    split at hread
    · rw [Option.map_eq_some_iff] at hread
      obtain ⟨name, -, rfl⟩ := hread
      trivial
    · cases hread
  | srv key =>
    simp only [Found.read] at hread
    split at hread
    · rw [Option.map_eq_some_iff] at hread
      obtain ⟨target, -, rfl⟩ := hread
      exact ht
    · cases hread
  | txt key =>
    simp only [Found.read] at hread
    split at hread
    · cases hread
      exact ht
    · cases hread
  | a key =>
    simp only [Found.read] at hread
    split at hread
    · rw [Option.map_eq_some_iff] at hread
      obtain ⟨addr, -, rfl⟩ := hread
      trivial
    · cases hread
  | aaaa key =>
    simp only [Found.read] at hread
    split at hread
    · rw [Option.map_eq_some_iff] at hread
      obtain ⟨addr, -, rfl⟩ := hread
      trivial
    · cases hread

theorem Sound.feedAll (answers : List CollectedAnswer) (step : Step) (ctx : LookupCtx I)
    (heard : List Found) (h : ctx.Sound heard) (ht : step.Tracked ctx.partials) :
    (answers.foldl (fun ctx answer => ctx.feed step answer) ctx).Sound
        (heard ++ answers.filterMap (Found.read step)) ∧
      ctx.Same (answers.foldl (fun ctx answer => ctx.feed step answer) ctx) ∧
      (answers.foldl (fun ctx answer => ctx.feed step answer) ctx).subqueries =
        ctx.subqueries := by
  induction answers generalizing ctx heard with
  | nil =>
    rw [List.filterMap_nil, List.append_nil]
    exact ⟨h, Same.refl ctx, rfl⟩
  | cons answer rest ih =>
    rw [List.foldl_cons, feed_read]
    cases hread : Found.read step answer with
    | none =>
      rw [List.filterMap_cons_none hread]
      exact ih ctx heard h ht
    | some f =>
      simp only
      obtain ⟨hsame, hsubs, -⟩ := ctx.take_same f
      have hf := ctx.read_tracked step answer f hread ht
      obtain ⟨hsound, hsame', hsubs'⟩ := ih (ctx.take f) (heard ++ [f])
        ⟨h.sees.take ctx heard f hf, h.bounded.take ctx f⟩
        (hsame.keeps.tracked ctx _ step ht)
      rw [List.filterMap_cons_some hread]
      refine ⟨?_, hsame.trans ctx _ _ hsame', by rw [hsubs', hsubs]⟩
      rw [List.append_assoc, List.singleton_append] at hsound
      exact hsound

end
end LookupCtx
end Hick
