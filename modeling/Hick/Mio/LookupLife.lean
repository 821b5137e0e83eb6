import Hick.Mio.LookupRounds
import Hick.Mio.QueryStream

/-!
# The life of a lookup (hick-mio/src/discovery.rs:538-556, 798-847, 985-1091, 1161-1414)

A lookup that the caller has opened runs until it is cancelled or has finished.
-/

set_option linter.unusedSectionVars false

namespace Hick
open Octets Wire Runs Mdns

def lastGeneration : UInt64 := 18446744073709551615

theorem generation_lt (g : UInt64) (h : g ≠ lastGeneration) : g.toNat < (g + 1).toNat := by
  have hlt := g.toNat_lt
  have hne : g.toNat ≠ 18446744073709551615 := fun e => h (UInt64.toNat_inj.mp e)
  rw [UInt64.toNat_add]
  simp only [UInt64.toNat_one]
  omega

def Event.ofLookup : Event → Option LookupHandle
  | .lookup handle _ | .lookupDone handle => some handle
  | _ => none

def EndsLast (told : List Event) : Prop :=
  told.Pairwise fun event later => ∀ handle, event = .lookupDone handle →
    later.ofLookup ≠ some handle

theorem EndsLast.split (told before after : List Event) (handle : LookupHandle) (h : EndsLast told)
    (hsplit : told = before ++ .lookupDone handle :: after) :
    Event.lookupDone handle ∉ before ∧ ∀ event ∈ after, event.ofLookup ≠ some handle := by
  rw [EndsLast, hsplit, List.pairwise_append, List.pairwise_cons] at h
  obtain ⟨-, ⟨hafter, -⟩, hcross⟩ := h
  exact ⟨fun hin => hcross _ hin _ List.mem_cons_self handle rfl rfl,
    fun event hevent => hafter event hevent handle rfl⟩

theorem eventsSince_append (before after : EventQueue) (told : List Event)
    (h : after.queue = before.queue ++ told.map Slot.terminal) : eventsSince before after = told := by
  rw [eventsSince, h, List.drop_left, List.filterMap_map]
  exact List.filterMap_some

section
variable {I : Type} {QS AN EV LK : Type → Type} [Instant I] [Pool QS] [Pool AN] [Pool EV] [Pool LK]

namespace DriverRun

structure Lifecycle (s : DriverRun I QS AN EV LK) : Prop where
  opened : s.opened.Nodup
  fresh : ∀ h ∈ s.opened, h.generation.toNat < s.mdns.lookups.nextGeneration.toNat
  seated : ∀ h, Seats s.mdns.table h → h ∈ s.opened
  about : ∀ event ∈ s.told, ∃ h ∈ s.opened, event.ofLookup = some h
  last : EndsLast s.told
  gone : ∀ h, .lookupDone h ∈ s.told → ¬Seats s.mdns.table h
  abandoned : ∀ h ∈ s.abandoned,
    h ∈ s.opened ∧ ¬Seats s.mdns.table h ∧ .lookupDone h ∉ s.told
  ends : ∀ h ∈ s.opened, Seats s.mdns.table h ∨ h ∈ s.abandoned ∨ .lookupDone h ∈ s.told

variable (s s' : DriverRun I QS AN EV LK)

theorem Lifecycle.quiet (h : s.Lifecycle)
    (htable : s'.mdns.table = s.mdns.table)
    (hnext : s.mdns.lookups.nextGeneration.toNat ≤ s'.mdns.lookups.nextGeneration.toNat)
    (htold : s'.told = s.told) (hopened : s'.opened = s.opened)
    (habandoned : s'.abandoned = s.abandoned) : s'.Lifecycle := by
  refine ⟨?_, ?_, ?_, ?_, ?_, ?_, ?_, ?_⟩
  · rw [hopened]
    exact h.opened
  · rw [hopened]
    exact fun k hk => lt_of_lt_of_le (h.fresh k hk) hnext
  · rw [hopened, htable]
    exact h.seated
  · rw [htold, hopened]
    exact h.about
  · rw [htold]
    exact h.last
  · rw [htold, htable]
    exact h.gone
  · rw [habandoned, hopened, htold, htable]
    exact h.abandoned
  · rw [hopened, habandoned, htold, htable]
    exact h.ends

theorem Lifecycle.opens (h : s.Lifecycle) (handle : LookupHandle)
    (ctx : LookupCtx I)
    (hgen : handle.generation = s.mdns.lookups.nextGeneration)
    (hnext : s.mdns.lookups.nextGeneration.toNat < s'.mdns.lookups.nextGeneration.toNat)
    (htable : s'.mdns.table = Function.update s.mdns.table handle.key (some ctx))
    (hctx : ctx.generation = handle.generation) (hvacant : s.mdns.table handle.key = none)
    (htold : s'.told = s.told) (hopened : s'.opened = s.opened ++ [handle])
    (habandoned : s'.abandoned = s.abandoned) : s'.Lifecycle := by
  have hnew : handle ∉ s.opened := by
    intro hin
    have hlt := h.fresh handle hin
    rw [hgen] at hlt
    exact Nat.lt_irrefl _ hlt
  have hseats : ∀ k, Seats s'.mdns.table k ↔ k = handle ∨ Seats s.mdns.table k := by
    intro k
    rw [Seats, htable]
    by_cases hk : k.key = handle.key
    · rw [hk, Function.update_self]
      constructor
      · rintro ⟨found, hfound, hg⟩
        cases hfound
        left
        cases k
        cases handle
        simp only at hk hg hctx
        rw [hk, ← hg, hctx]
      · rintro (rfl | ⟨found, hfound, -⟩)
        · exact ⟨ctx, rfl, hctx⟩
        · rw [hk, hvacant] at hfound
          cases hfound
    · rw [Function.update_of_ne hk]
      constructor
      · exact .inr
      · rintro (rfl | hold)
        · exact absurd rfl hk
        · exact hold
  refine ⟨?_, fun k hk => ?_, fun k hk => ?_, fun event hevent => ?_, ?_, fun k hk => ?_,
    fun k hk => ?_, fun k hk => ?_⟩
  · rw [hopened, List.nodup_append]
    refine ⟨h.opened, List.nodup_singleton _, fun a ha b hb hab => ?_⟩
    rw [hab, List.mem_singleton.mp hb] at ha
    exact hnew ha
  · rw [hopened] at hk
    rcases List.mem_append.mp hk with hold | hk
    · exact lt_trans (h.fresh k hold) hnext
    · rw [List.mem_singleton.mp hk, hgen]
      exact hnext
  · rw [hopened]
    rcases (hseats k).mp hk with rfl | hold
    · exact List.mem_append_right _ (List.mem_singleton_self _)
    · exact List.mem_append_left _ (h.seated k hold)
  · rw [htold] at hevent
    obtain ⟨k, hk, he⟩ := h.about event hevent
    rw [hopened]
    exact ⟨k, List.mem_append_left _ hk, he⟩
  · rw [htold]
    exact h.last
  · rw [htold] at hk
    rw [hseats]
    rintro (rfl | hold)
    · obtain ⟨j, hj, he⟩ := h.about _ hk
      cases he
      exact hnew hj
    · exact h.gone k hk hold
  · rw [habandoned] at hk
    obtain ⟨hold, hgone, hsilent⟩ := h.abandoned k hk
    rw [hseats, htold, hopened]
    refine ⟨List.mem_append_left _ hold, ?_, hsilent⟩
    rintro (rfl | hseat)
    · exact hnew hold
    · exact hgone hseat
  · rw [hopened] at hk
    rw [hseats, habandoned, htold]
    rcases List.mem_append.mp hk with hold | hk
    · exact (h.ends k hold).imp_left .inr
    · exact .inl (.inl (List.mem_singleton.mp hk))

theorem Lifecycle.cancels (h : s.Lifecycle) (handle : LookupHandle)
    (hlive : Seats s.mdns.table handle)
    (hnext : s'.mdns.lookups.nextGeneration = s.mdns.lookups.nextGeneration)
    (htable : s'.mdns.table = Function.update s.mdns.table handle.key none)
    (htold : s'.told = s.told) (hopened : s'.opened = s.opened)
    (habandoned : s'.abandoned = s.abandoned ++ [handle]) : s'.Lifecycle := by
  have hseats : ∀ k, Seats s'.mdns.table k ↔ k ≠ handle ∧ Seats s.mdns.table k := by
    intro k
    rw [Seats, htable]
    by_cases hk : k.key = handle.key
    · rw [hk, Function.update_self]
      constructor
      · rintro ⟨found, hfound, -⟩
        cases hfound
      · rintro ⟨hne, found, hfound, hg⟩
        obtain ⟨ctx, hctx, hgen⟩ := hlive
        rw [hk, hctx] at hfound
        cases hfound
        apply absurd _ hne
        cases k
        cases handle
        simp only at hk hg hgen
        rw [hk, ← hg, hgen]
    · rw [Function.update_of_ne hk]
      constructor
      · exact fun hseat => ⟨fun hsame => hk (by rw [hsame]), hseat⟩
      · exact fun hseat => hseat.2
  refine ⟨?_, ?_, fun k hk => ?_, ?_, ?_, fun k hk => ?_, fun k hk => ?_, fun k hk => ?_⟩
  · rw [hopened]
    exact h.opened
  · rw [hopened, hnext]
    exact h.fresh
  · rw [hopened]
    exact h.seated k ((hseats k).mp hk).2
  · rw [htold, hopened]
    exact h.about
  · rw [htold]
    exact h.last
  · rw [htold] at hk
    rw [hseats]
    exact fun hseat => h.gone k hk hseat.2
  · rw [habandoned] at hk
    rw [hseats, htold, hopened]
    rcases List.mem_append.mp hk with hold | hk
    · obtain ⟨hknown, hgone, hsilent⟩ := h.abandoned k hold
      exact ⟨hknown, fun hseat => hgone hseat.2, hsilent⟩
    · rw [List.mem_singleton.mp hk]
      exact ⟨h.seated handle hlive, fun hseat => hseat.1 rfl, fun hdone => h.gone handle hdone hlive⟩
  · rw [hopened] at hk
    rw [hseats, habandoned, htold]
    by_cases hsame : k = handle
    · rw [hsame]
      exact .inr (.inl (List.mem_append_right _ (List.mem_singleton_self _)))
    · rcases h.ends k hk with hseat | hold | hdone
      · exact .inl ⟨hsame, hseat⟩
      · exact .inr (.inl (List.mem_append_left _ hold))
      · exact .inr (.inr hdone)

theorem Lifecycle.rounds (h : s.Lifecycle) (said : List Event)
    (finished : List LookupHandle)
    (hsaid : ∀ event ∈ said, ∃ handle entry, event = .lookup handle entry ∧ Seats s.mdns.table handle)
    (hended : ∀ handle ∈ finished, Seats s.mdns.table handle) (honce : finished.Nodup)
    (hnext : s'.mdns.lookups.nextGeneration = s.mdns.lookups.nextGeneration)
    (hseats : ∀ k, Seats s'.mdns.table k ↔ k ∉ finished ∧ Seats s.mdns.table k)
    (htold : s'.told = s.told ++ (said ++ finished.map Event.lookupDone))
    (hopened : s'.opened = s.opened) (habandoned : s'.abandoned = s.abandoned) : s'.Lifecycle := by
  have hdone : ∀ k, .lookupDone k ∈ s'.told ↔ .lookupDone k ∈ s.told ∨ k ∈ finished := by
    intro k
    rw [htold, List.mem_append, List.mem_append, List.mem_map]
    constructor
    · rintro (hold | hin | ⟨j, hj, he⟩)
      · exact .inl hold
      · obtain ⟨j, entry, he, -⟩ := hsaid _ hin
        cases he
      · cases he
        exact .inr hj
    · rintro (hold | hin)
      · exact .inl hold
      · exact .inr (.inr ⟨k, hin, rfl⟩)
  -- what is said in this round is about lookups that were running
  have hnew : ∀ event ∈ said ++ finished.map Event.lookupDone, ∃ k, event.ofLookup = some k ∧
      Seats s.mdns.table k := by
    intro event hevent
    rcases List.mem_append.mp hevent with hin | hin
    · obtain ⟨k, entry, rfl, hseat⟩ := hsaid event hin
      exact ⟨k, rfl, hseat⟩
    · obtain ⟨k, hk, rfl⟩ := List.mem_map.mp hin
      exact ⟨k, rfl, hended k hk⟩
  refine ⟨?_, ?_, fun k hk => ?_, fun event hevent => ?_, ?_, fun k hk => ?_, fun k hk => ?_,
    fun k hk => ?_⟩
  · rw [hopened]
    exact h.opened
  · rw [hopened, hnext]
    exact h.fresh
  · rw [hopened]
    exact h.seated k ((hseats k).mp hk).2
  · rw [htold] at hevent
    rw [hopened]
    rcases List.mem_append.mp hevent with hold | hin
    · exact h.about event hold
    · obtain ⟨k, he, hseat⟩ := hnew event hin
      exact ⟨k, h.seated k hseat, he⟩
  · rw [EndsLast, htold, List.pairwise_append, List.pairwise_append]
    refine ⟨h.last, ⟨?_, ?_, fun event hevent later _ k he => ?_⟩, fun event hevent later hlater k he => ?_⟩
    · apply List.pairwise_of_forall_mem_list
      intro event hevent later _ k he
      obtain ⟨j, entry, hj, -⟩ := hsaid event hevent
      rw [hj] at he
      cases he
    · rw [List.pairwise_map]
      refine honce.imp fun {a b} hab k he => ?_
      cases he
      exact fun hsame => hab (Option.some.inj hsame).symm
    · obtain ⟨j, entry, hj, -⟩ := hsaid event hevent
      rw [hj] at he
      cases he
    · obtain ⟨j, hj, hseat⟩ := hnew later hlater
      rw [hj]
      rintro hsame
      cases hsame
      rw [he] at hevent
      exact h.gone k hevent hseat
  · rw [hseats]
    rcases (hdone k).mp hk with hold | hin
    · exact fun hseat => h.gone k hold hseat.2
    · exact fun hseat => hseat.1 hin
  · rw [habandoned] at hk
    obtain ⟨hknown, hgone, hsilent⟩ := h.abandoned k hk
    rw [hseats, hdone, hopened]
    refine ⟨hknown, fun hseat => hgone hseat.2, ?_⟩
    rintro (hold | hin)
    · exact hsilent hold
    · exact hgone (hended k hin)
  · rw [hopened] at hk
    rw [hseats, habandoned, hdone]
    by_cases hin : k ∈ finished
    · exact .inr (.inr (.inr hin))
    · rcases h.ends k hk with hseat | hold | hdone
      · exact .inl ⟨hin, hseat⟩
      · exact .inr (.inl hold)
      · exact .inr (.inr (.inl hdone))

variable [ReleasingPool QS] [OrderedPool AN] [LawfulPool EV] [ReleasingPool LK] [OrderedPool LK]
variable [MeasuredInstant I]

def GenerationsLeft (tr : Transition (DriverRun I QS AN EV LK) (DriverCall I)) : Prop :=
  tr.pre.mdns.lookups.nextGeneration ≠ lastGeneration

theorem tick_rounds (t : TickInput I) (m : Mdns I QS AN EV LK) (hb : m.Books m.table) :
    ∃ (said : List Event) (finished : List LookupHandle), lookupEvents t m = said ++ finished.map Event.lookupDone ∧
      (∀ event ∈ said, ∃ handle entry, event = .lookup handle entry ∧ Seats m.table handle) ∧
      (∀ handle ∈ finished, Seats m.table handle) ∧ finished.Nodup ∧
      (tick t m).1.lookups.nextGeneration = m.lookups.nextGeneration ∧
      (∀ k, Seats (tick t m).1.table k ↔ k ∉ finished ∧ Seats m.table k) ∧
      (∀ k ctx, m.table k.key = some ctx → ctx.generation = k.generation →
        ctx.isExpired (m.clock 0) = true → k ∈ finished) ∧
      ∀ key ctx ctx', m.table key = some ctx → (tick t m).1.table key = some ctx' →
        ctx.Stays ctx' := by
  obtain ⟨-, -, hl, hlater, -⟩ := beforeLookups_spec t m m.table hb
  have htable : (beforeLookups t m).table = m.table := by rw [table, table, hl]
  obtain ⟨said, finished, hr⟩ := advanceLookups_rounds t.lookupOrder (beforeLookups t m)
  obtain ⟨-, -, hl', -⟩ := compactEvents_rest (advanceLookups t.lookupOrder (beforeLookups t m))
  have hpost : (tick t m).1.lookups = (advanceLookups t.lookupOrder (beforeLookups t m)).lookups := hl'
  have htable' : (tick t m).1.table =
      (advanceLookups t.lookupOrder (beforeLookups t m)).table := by rw [table, table, hpost]
  have htold := hr.told
  have hended := hr.ended
  have hothers := hr.others
  have hexpired := hr.expired (hlater.monotone _ _ hb.clock)
  rw [htable] at htold hended hothers hexpired
  rw [htable', hpost]
  refine ⟨said, finished, eventsSince_append _ _ _ hr.queue, htold, fun k hk => (hended k hk).1,
    hr.once, ?_, fun k => ?_, fun k ctx hctx hgen hpast => ?_, fun key ctx ctx' hctx hctx' => ?_⟩
  · rw [hr.generation, hl]
  · by_cases hkey : ∃ handle ∈ finished, handle.key = k.key
    · obtain ⟨handle, hin, hsame⟩ := hkey
      obtain ⟨⟨ctx, hctx, hgen⟩, hgone⟩ := hended handle hin
      rw [hsame] at hgone hctx
      constructor
      · rintro ⟨found, hfound, -⟩
        rw [hgone] at hfound
        cases hfound
      · rintro ⟨hnot, found, hfound, hg⟩
        rw [hctx] at hfound
        cases hfound
        apply absurd _ hnot
        have heq : k = handle := by
          cases k
          cases handle
          simp only at hsame hg hgen
          rw [hsame, ← hg, hgen]
        rw [heq]
        exact hin
    · have hrel := hothers k.key fun handle hin hsame => hkey ⟨handle, hin, hsame⟩
      constructor
      · exact fun hseat => ⟨fun hin => hkey ⟨k, hin, rfl⟩, hseat.back _ _ _ hrel⟩
      · exact fun hseat => hseat.2.ahead _ _ _ hrel
  · refine hexpired k ctx hctx hgen ?_
    obtain ⟨n, hn⟩ := hlater
    rw [hn]
    exact isExpired_later ctx _ _ (hb.clock (Nat.zero_le _)) hpast
  · have hrel := hothers key fun handle hin hsame => by
      have hgone := (hended handle hin).2
      rw [hsame, hctx'] at hgone
      cases hgone
    rw [hctx, hctx'] at hrel
    cases hrel with
    | some hstays => exact hstays

theorem getChecked_of_seats (m : Mdns I QS AN EV LK) (handle : LookupHandle) :
    (m.getChecked handle).isSome = true ↔ Seats m.table handle := by
  rw [getChecked, Seats, Option.isSome_filter, Option.any_eq_true]
  simp only [decide_eq_true_eq]
  rfl

theorem next_lifecycle (s : DriverRun I QS AN EV LK) (call : DriverCall I)
    (hb : s.mdns.Books s.mdns.table) (h : s.Lifecycle)
    (hroom : s.mdns.lookups.nextGeneration ≠ lastGeneration) : (s.next call).Lifecycle := by
  have hsame : ∀ s' : DriverRun I QS AN EV LK, s'.mdns.lookups = s.mdns.lookups →
      s'.told = s.told → s'.opened = s.opened → s'.abandoned = s.abandoned → s'.Lifecycle := by
    intro s' hl htold hopened habandoned
    exact h.quiet s s' (by rw [table, table, hl]) (by rw [hl]) htold hopened habandoned
  cases call with
  | tick t =>
    obtain ⟨said, finished, htold, hsaid, hended, honce, hnext, hseats, -, -⟩ := tick_rounds t s.mdns hb
    refine h.rounds s _ said finished hsaid hended honce hnext hseats ?_ rfl rfl
    rw [← htold]
    rfl
  | startQuery spec => exact hsame _ (s.mdns.startQuery_spec spec).rest.1 rfl rfl rfl
  | cancelQuery handle =>
    exact hsame _ (s.mdns.cancelQuery_spec handle s.mdns.table).2.1 rfl rfl rfl
  | openLookup opening =>
    have hopens := open_opens s.mdns opening
    simp only [next]
    generalize opening.open_ s.mdns = opened at *
    obtain ⟨m', e | handle⟩ := opened
    · refine h.quiet s _ (hopens.refused e rfl) ?_ rfl (List.append_nil _) rfl
      rcases hopens.generation with hnext | ⟨hnext, -⟩
      · show _ ≤ m'.lookups.nextGeneration.toNat
        rw [show m'.lookups.nextGeneration = _ from hnext]
        exact le_of_lt (generation_lt _ hroom)
      · show _ ≤ m'.lookups.nextGeneration.toNat
        rw [show m'.lookups.nextGeneration = _ from hnext]
    · obtain ⟨hvacant, hgen, ctx, htable, hctx, -⟩ := hopens.opened handle rfl
      refine h.opens s _ handle ctx hgen ?_ htable hctx hvacant rfl rfl rfl
      rcases hopens.generation with hnext | ⟨-, hnot⟩
      · show _ < m'.lookups.nextGeneration.toNat
        rw [show m'.lookups.nextGeneration = _ from hnext]
        exact generation_lt _ hroom
      · exact absurd rfl (hnot handle)
  | cancelLookup handle =>
    obtain ⟨-, -, -, hstale, hleft⟩ := s.mdns.cancelLookup_spec handle
    cases hchecked : s.mdns.getChecked handle with
    | none =>
      refine hsame _ ?_ rfl rfl ?_
      · show (s.mdns.cancelLookup handle).lookups = _
        rw [hstale hchecked]
      · show (if (s.mdns.getChecked handle).isSome then _ else _) = _
        rw [hchecked]
        rfl
    | some ctx =>
      obtain ⟨htable, hnext⟩ := hleft ctx hchecked
      refine h.cancels s _ handle ((getChecked_of_seats s.mdns handle).mp (by rw [hchecked]; rfl))
        hnext htable rfl rfl ?_
      show (if (s.mdns.getChecked handle).isSome then _ else _) = _
      rw [hchecked]
      rfl
  | nextEvent => exact hsame _ rfl rfl rfl rfl


theorem next_deadline (s : DriverRun I QS AN EV LK) (call : DriverCall I)
    (hb : s.mdns.Books s.mdns.table) (handle : LookupHandle)
    (ctx ctx' : LookupCtx I) (hctx : s.mdns.getChecked handle = some ctx)
    (hctx' : (s.next call).mdns.getChecked handle = some ctx') : ctx'.deadline = ctx.deadline := by
  obtain ⟨hslot, -⟩ := s.mdns.getChecked_table handle ctx hctx
  obtain ⟨hslot', hgen'⟩ := (s.next call).mdns.getChecked_table handle ctx' hctx'
  have hstill : ∀ slots : Nat → Option (LookupCtx I), (s.next call).mdns.table = slots →
      slots handle.key = s.mdns.table handle.key → ctx'.deadline = ctx.deadline := by
    intro slots hslots hsame
    rw [hslots, hsame, hslot] at hslot'
    cases hslot'
    rfl
  cases call with
  | tick t =>
    obtain ⟨-, -, -, -, -, -, -, -, -, hstays⟩ := tick_rounds t s.mdns hb
    exact (hstays handle.key ctx ctx' hslot hslot').deadline
  | startQuery spec =>
    exact hstill _ (by rw [table, table, show (s.next (.startQuery spec)).mdns.lookups = _ from
      (s.mdns.startQuery_spec spec).rest.1]) rfl
  | cancelQuery other =>
    exact hstill _ (by rw [table, table, show (s.next (.cancelQuery other)).mdns.lookups = _ from
      (s.mdns.cancelQuery_spec other s.mdns.table).2.1]) rfl
  | openLookup opening =>
    have hopens := open_opens s.mdns opening
    simp only [next] at hslot' hstill
    generalize opening.open_ s.mdns = opened at *
    obtain ⟨m', e | seated⟩ := opened
    · exact hstill _ (hopens.refused e rfl) rfl
    · obtain ⟨hvacant, -, new, htable, -⟩ := hopens.opened seated rfl
      refine hstill _ htable (Function.update_of_ne ?_ _ _)
      intro hsame
      rw [← hsame, hslot] at hvacant
      cases hvacant
  | cancelLookup other =>
    obtain ⟨-, -, -, hstale, hleft⟩ := s.mdns.cancelLookup_spec other
    cases hchecked : s.mdns.getChecked other with
    | none =>
      refine hstill s.mdns.table ?_ rfl
      show (s.mdns.cancelLookup other).table = _
      rw [hstale hchecked]
    | some found =>
      obtain ⟨htable, -⟩ := hleft found hchecked
      refine hstill _ htable (Function.update_of_ne ?_ _ _)
      intro hsame
      rw [show (s.next (.cancelLookup other)).mdns.table = _ from htable, hsame,
        Function.update_self] at hslot'
      cases hslot'
  | nextEvent => exact hstill s.mdns.table rfl rfl

theorem starts_lifecycle (s : DriverRun I QS AN EV LK) (h : Starts s) : s.Lifecycle := by
  obtain ⟨-, -, -, htold, hopened, habandoned⟩ := h.nothing
  have hvacant : ∀ k, ¬Seats s.mdns.table k := by
    rintro k ⟨ctx, hslot, -⟩
    rw [table, h.lookups, get_new] at hslot
    cases hslot
  refine ⟨?_, ?_, fun k hk => absurd hk (hvacant k), ?_, ?_, fun k _ => hvacant k, ?_, ?_⟩
  · rw [hopened]
    exact List.nodup_nil
  · rw [hopened]
    exact List.forall_mem_nil _
  · rw [htold]
    exact List.forall_mem_nil _
  · rw [EndsLast, htold]
    exact List.Pairwise.nil
  · rw [habandoned]
    exact List.forall_mem_nil _
  · rw [hopened]
    exact List.forall_mem_nil _

end DriverRun

/-- The lookups of a driver, over every run in which neither the handles of queries nor the
generations of lookups run out: a lookup that is not cancelled is reported once, after all that is
told of it, and as soon as a tick finds its window shut; one that was cancelled while it ran is not
reported; what is owned is owned by a lookup that runs, and ends with its window; a turn tells
nothing of a lookup whose window it has found shut, and starts nothing for it; what is handed on is
about the queries of callers; and a handle that is not of a lookup that runs does nothing. -/
theorem lookups_run_their_course [ReleasingPool QS] [OrderedPool AN] [LawfulPool EV]
    [ReleasingPool LK] [OrderedPool LK]
    [MeasuredInstant I] (ts : List (Transition (DriverRun I QS AN EV LK) (DriverCall I)))
    (s : DriverRun I QS AN EV LK) (run : Run (DriverRun.machine I QS AN EV LK) ts s)
    (hfair : ∀ tr ∈ ts, DriverRun.HandlesLeft tr ∧ DriverRun.GenerationsLeft tr) :
    (∀ h before after, s.told = before ++ .lookupDone h :: after →
      Event.lookupDone h ∉ before ∧ ∀ event ∈ after, event.ofLookup ≠ some h) ∧
      (∀ h ∈ s.opened, (s.mdns.getChecked h).isSome = true ∨ h ∈ s.abandoned ∨
        .lookupDone h ∈ s.told) ∧
      (∀ h ∈ s.abandoned, Event.lookupDone h ∉ s.told) ∧
      (∀ t h ctx, s.mdns.getChecked h = some ctx → ctx.isExpired (s.mdns.clock 0) = true →
        .lookupDone h ∈ DriverRun.lookupEvents t s.mdns) ∧
      (∀ h, h ∈ s.abandoned ∨ .lookupDone h ∈ s.told → s.mdns.getChecked h = none) ∧
      (∀ sub, (s.mdns.endpoint.get? sub).isSome = true ↔ sub ∈ s.mdns.queries) ∧
      (∀ sub entry owner, s.mdns.queries.lookup sub = some entry → entry.owner = some owner →
        ∃ ctx, s.mdns.getChecked owner = some ctx ∧ sub ∈ ctx.subqueries ∧
          ∀ q, s.mdns.endpoint.get? sub = some q →
            q.done = true ∨ q.timeoutDeadline = ctx.deadline) ∧
      (∀ call h ctx ctx', s.mdns.getChecked h = some ctx →
        (s.next call).mdns.getChecked h = some ctx' → ctx'.deadline = ctx.deadline) ∧
      (∀ order h (m : Mdns I QS AN EV LK) ctx, ¬OpenTurn order m ctx →
        (advanceOne order h m ctx).1.events.queue = m.events.queue) ∧
      (∀ (m m' : Mdns I QS AN EV LK) ctx spec sub,
        m.startSubqueryInWindow ctx spec = (m', .ok (some sub)) →
        ctx.isExpired (m.clock 0) = false) ∧
      (∀ t, ∀ entry ∈ (s.mdns.tick t).2, ∀ sub, entry.query = some sub →
        ∃ ctx, s.mdns.queries.lookup sub = some ctx ∧ ctx.owner = none) ∧
      s.opened.Nodup ∧
      ∀ h, s.mdns.getChecked h = none → s.mdns.cancelLookup h = s.mdns := by
  obtain ⟨hb, hl⟩ := run.invariant _ (fun (g : Unit) _ => g) ()
    (fun _ s => s.mdns.Books s.mdns.table ∧ s.Lifecycle)
    (fun tr => DriverRun.HandlesLeft tr ∧ DriverRun.GenerationsLeft tr)
    (fun s hs => ⟨.empty s.mdns hs.endpoint.1 hs.queries (by rw [hs.lookups]) hs.clock,
      s.starts_lifecycle hs⟩)
    (fun _ s call hinv _ hf => by
      have hroom : (s.next call).mdns.endpoint.nextQueryHandle ≠ lastQueryHandle := hf.1
      have hgens : s.mdns.lookups.nextGeneration ≠ lastGeneration := hf.2
      exact ⟨s.next_books call hinv.1 hroom, s.next_lifecycle call hinv.1 hinv.2 hgens⟩) ts s hfair
  have hchecked := DriverRun.getChecked_of_seats s.mdns
  have hnone : ∀ h, ¬Seats s.mdns.table h → s.mdns.getChecked h = none := by
    intro h hseat
    rw [← hchecked] at hseat
    exact Option.not_isSome_iff_eq_none.mp hseat
  refine ⟨fun h before after hsplit => hl.last.split _ _ _ h hsplit, fun h hh => ?_,
    fun h hh => (hl.abandoned h hh).2.2, fun t h ctx hctx hpast => ?_, fun h hh => ?_, hb.shared,
    fun sub entry owner hentry howner => ?_, fun call h ctx ctx' hctx hctx' =>
      s.next_deadline call hb h ctx ctx' hctx hctx', fun order h m ctx hshut => ?_,
    fun m m' ctx spec sub hstart => ?_, fun t entry hentry sub hsub => ?_, hl.opened,
    fun h hh => (s.mdns.cancelLookup_spec h).2.2.2.1 hh⟩
  · rw [hchecked]
    exact hl.ends h hh
  · obtain ⟨hslot, hgen⟩ := s.mdns.getChecked_table h ctx hctx
    obtain ⟨said, finished, htold, -, -, -, -, -, hexpired, -⟩ := DriverRun.tick_rounds t s.mdns hb
    rw [htold]
    exact List.mem_append_right _ (List.mem_map_of_mem (hexpired h ctx hslot hgen hpast))
  · rcases hh with hcancelled | hdone
    · exact hnone h (hl.abandoned h hcancelled).2.1
    · exact hnone h (hl.gone h hdone)
  · obtain ⟨ctx, hslot, hgen, hsub⟩ := hb.owned sub entry owner hentry howner
    refine ⟨ctx, ?_, hsub, fun q hq => hb.window owner.key ctx sub q hslot hsub hq⟩
    rw [getChecked, show Pool.get s.mdns.lookups.slab owner.key = some ctx from hslot,
      Option.filter_some, if_pos (decide_eq_true hgen)]
  · obtain ⟨entries, hqueue, hsilent, -⟩ := advanceOne_tells order h m ctx
    rw [hqueue, hsilent hshut]
    exact List.append_nil _
  · cases hexpired : ctx.isExpired (m.clock 0) with
    | false => rfl
    | true =>
      simp only [startSubqueryInWindow, now, (budget_eq_none ctx _).mpr hexpired] at hstart
      cases hstart
  · obtain ⟨-, -, -, -, hreport⟩ := beforeLookups_spec t s.mdns s.mdns.table hb
    have hmem : entry ∈ about sub (s.mdns.tick t).2 :=
      List.mem_filter.mpr ⟨hentry, decide_eq_true hsub⟩
    have hcaller : s.mdns.callerSeq sub ≠ none := by
      intro hnot
      have hk := hreport sub
      rw [hnot] at hk
      rcases hk with ⟨-, -, hsaid⟩ | ⟨-, -, ⟨-, hsaid⟩ | ⟨hbad, -⟩⟩
      · rw [hsaid] at hmem
        cases hmem
      · rw [hsaid] at hmem
        cases hmem
      · cases hbad
    rw [callerSeq] at hcaller
    cases hctx : s.mdns.queries.lookup sub with
    | none =>
      rw [hctx] at hcaller
      exact absurd rfl hcaller
    | some ctx =>
      rw [hctx, Option.bind_some] at hcaller
      refine ⟨ctx, rfl, ?_⟩
      by_contra howner
      rw [if_neg howner] at hcaller
      exact hcaller rfl

end

namespace DriverRun

def browsing : Opening :=
  .browse ((QueryParam.new ServiceRecords.printerHost).withTimeout (Duration.fromSecs 1))

def browsedCalls : List (DriverCall Uptime) :=
  [.openLookup browsing, .tick (queryTick [] 512), .tick (queryTick [] 512)]

def browsed : DriverRun Uptime Slab Slab Slab Slab :=
  (machine Uptime Slab Slab Slab Slab).play (atStart twoSeconds) browsedCalls

theorem browsed_runs_its_course :
    browsed.told = [.lookupDone ⟨0, 0⟩] ∧ browsed.mdns.getChecked ⟨0, 0⟩ = none ∧
      browsed.opened.Nodup := by
  have htold : browsed.told = [.lookupDone ⟨0, 0⟩] := by decide +kernel
  have hfair : ∀ tr ∈ (machine Uptime Slab Slab Slab Slab).trace (atStart twoSeconds) browsedCalls,
      HandlesLeft tr ∧ GenerationsLeft tr := by
    intro tr htr
    simp only [browsedCalls, Machine.trace, List.mem_cons, List.not_mem_nil, or_false] at htr
    rcases htr with rfl | rfl | rfl
    · exact ⟨by unfold HandlesLeft; decide +kernel, by unfold GenerationsLeft; decide +kernel⟩
    · exact ⟨by unfold HandlesLeft; decide +kernel, by unfold GenerationsLeft; decide +kernel⟩
    · exact ⟨by unfold HandlesLeft; decide +kernel, by unfold GenerationsLeft; decide +kernel⟩
  obtain ⟨-, -, -, -, hgone, -, -, -, -, -, -, hopened, -⟩ := lookups_run_their_course _ browsed
    (played _ (atStart_starts _ twoSeconds_monotone) browsedCalls) hfair
  refine ⟨htold, hgone _ (.inr ?_), hopened⟩
  rw [htold]
  exact List.mem_cons_self

def noTime : Opening := .resolveHost ServiceRecords.printerHost 0

def vacated (g : UInt64) : Mdns Uptime Slab Slab Slab Slab :=
  { Watch.emptyDriver with
    lookups := ⟨⟨[none]⟩, g⟩
    clock := fun _ => 0 }

def taken (g : UInt64) (ctx : LookupCtx Uptime) : Mdns Uptime Slab Slab Slab Slab :=
  { Watch.emptyDriver with
    lookups := ⟨⟨[some { ctx with generation := g }]⟩, g + 1⟩
    clock := fun _ => 0 }

theorem taken_checked (g : UInt64) (ctx : LookupCtx Uptime) :
    (taken g ctx).getChecked ⟨0, g⟩ = some { ctx with generation := g } := by
  rw [getChecked]
  exact (Option.filter_some ..).trans (if_pos (decide_eq_true rfl))

theorem taken_launchAll (g : UInt64) (ctx : LookupCtx Uptime) (hpast : ctx.isExpired 0 = true)
    (starts : List Start) : launchAll ⟨0, g⟩ starts none (taken g ctx) = (taken g ctx, none) := by
  have hbudget : budget { ctx with generation := g } ((taken g ctx).clock 0) = none :=
    (budget_eq_none _ _).mpr hpast
  induction starts with
  | nil => rfl
  | cons start rest ih =>
    have hone : (taken g ctx).startSubquery ⟨0, g⟩ (QuerySpec.new start.name start.step.qtype)
        start.step = (taken g ctx, .ok ()) := by
      simp only [startSubquery, taken_checked, startSubqueryInWindow, now, hbudget]
      rfl
    simp only [launchAll, hone]
    exact ih

def noTimeCtx : LookupCtx Uptime :=
  (LookupCtx.new (((QueryParam.new ServiceRecords.printerHost).withTimeout 0).withMaxEntries 1)
    0).seedHost ServiceRecords.printerHost

theorem vacated_open (g : UInt64) :
    noTime.open_ (vacated g) = (taken g { noTimeCtx with pending := [] }, .ok ⟨0, g⟩) := by
  have hseated : noTime.open_ (vacated g) =
      orCancelled ⟨0, g⟩ ((taken g noTimeCtx).launchPending ⟨0, g⟩) := rfl
  have hpast : ({ noTimeCtx with pending := [] } : LookupCtx Uptime).isExpired 0 = true := by
    decide +kernel
  rw [hseated, launchPending, taken_checked]
  simp only
  generalize noTimeCtx = ctx at *
  have hset : (taken g ctx).setLookup 0 ({ ctx with
      generation := g
      pending := [] } : LookupCtx Uptime) = taken g { ctx with pending := [] } := rfl
  rw [hset, taken_launchAll g _ hpast]
  rfl

theorem vacated_again (g : UInt64) :
    (noTime.open_ (vacated g)).1.cancelLookup ⟨0, g⟩ = vacated (g + 1) := by
  rw [vacated_open, cancelLookup, removeChecked, taken_checked]
  rfl

theorem a_handle_comes_again (n : Nat) : ∃ ts s, Run (machine Uptime Slab Slab Slab Slab) ts s ∧
    s.mdns = vacated (UInt64.ofNat (n + 1)) ∧ ⟨0, 0⟩ ∈ s.abandoned := by
  induction n with
  | zero =>
    refine ⟨_, _, played (atStart fun _ => 0) (atStart_starts _ monotone_const)
      [.openLookup noTime, .cancelLookup ⟨0, 0⟩], ?_, ?_⟩
    · exact vacated_again 0
    · decide +kernel
  | succ n ih =>
    obtain ⟨ts, s, run, hs, hin⟩ := ih
    have hagain := vacated_again (UInt64.ofNat (n + 1))
    rw [← hs] at hagain
    refine ⟨_, _, (run.step ts s (.openLookup noTime) trivial).step _ _
      (.cancelLookup ⟨0, UInt64.ofNat (n + 1)⟩) trivial, ?_, ?_⟩
    · exact hagain.trans (congrArg vacated (UInt64.ofNat_add (n + 1) 1).symm)
    · show _ ∈ (if _ then _ else _)
      split
      · exact List.mem_append_left _ hin
      · exact hin

def idle (n : Nat) : Mdns Uptime Slab Slab Slab Slab :=
  { Watch.emptyDriver with
    endpoint := ⟨⟨[none]⟩, UInt32.ofNat n, UInt16.ofNat (n % 65535 + 1)⟩
    txQueue := ⟨UInt64.ofNat n⟩
    workPending := true
    clock := fun _ => 0 }

def hostSpec : QuerySpec := QuerySpec.new ServiceRecords.printerHost .a

def hostQuery (n : Nat) : Query Uptime Slab Slab :=
  Query.tryNew ⟨UInt32.ofNat n⟩ hostSpec.qname hostSpec.qtype hostSpec.qclass
    (UInt16.ofNat (n % 65535 + 1)) hostSpec.unicastResponse none

theorem idle_again (n : Nat) (h : n < 4294967295) :
    ((idle n).startQuery hostSpec).1.cancelQuery ⟨UInt32.ofNat n⟩ = idle (n + 1) := by
  have hhandle := saturatingSucc32_ofNat n h
  have htxid : (if UInt16.ofNat (n % 65535 + 1) + 1 = 0 then (1 : UInt16)
      else UInt16.ofNat (n % 65535 + 1) + 1) = UInt16.ofNat ((n + 1) % 65535 + 1) := by
    have hadd : UInt16.ofNat (n % 65535 + 1) + 1 = UInt16.ofNat (n % 65535 + 2) :=
      (UInt16.ofNat_add (n % 65535 + 1) 1).symm
    rw [hadd]
    by_cases hlast : n % 65535 = 65534
    · rw [hlast, show (n + 1) % 65535 = 0 by omega]
      rfl
    · rw [if_neg, show (n + 1) % 65535 = n % 65535 + 1 by omega]
      intro hzero
      have := congrArg UInt16.toNat hzero
      simp at this
      omega
  have hseq := saturatingSucc64_ofNat n (by omega)
  have hstart : ((idle n).startQuery hostSpec).1 = { idle (n + 1) with
      endpoint := ⟨⟨[some (hostQuery n)]⟩, UInt32.ofNat (n + 1), UInt16.ofNat ((n + 1) % 65535 + 1)⟩
      queries := AList.insert ⟨UInt32.ofNat n⟩ ⟨0, none, UInt64.ofNat n, FamilyWireGate.new⟩ ∅ } := by
    simp only [idle]
    rw [← hhandle, ← htxid, ← hseq]
    rfl
  have hkey : (hostQuery n).handle = ⟨UInt32.ofNat n⟩ := rfl
  rw [hstart, cancelQuery, AList.lookup_insert, if_neg (by simp), dropQuery]
  generalize hostQuery n = q at *
  have hcore : (⟨⟨[some q]⟩, UInt32.ofNat (n + 1), UInt16.ofNat ((n + 1) % 65535 + 1)⟩ :
      Queries Uptime Slab Slab Slab).cancelQuery ⟨UInt32.ofNat n⟩ =
        ⟨⟨[none]⟩, UInt32.ofNat (n + 1), UInt16.ofNat ((n + 1) % 65535 + 1)⟩ := by
    have hfound : (⟨⟨[some q]⟩, UInt32.ofNat (n + 1), UInt16.ofNat ((n + 1) % 65535 + 1)⟩ :
        Queries Uptime Slab Slab Slab).queryKey ⟨UInt32.ofNat n⟩ = some 0 := by
      simp [Queries.queryKey, Pool.iter, Slab.occupied, hkey]
    rw [Queries.cancelQuery, hfound]
    rfl
  rw [hcore]
  have herase : ∀ (k : QueryHandle) (entry : QueryCtx Uptime),
      AList.erase k (AList.insert k entry (∅ : Assoc QueryHandle (QueryCtx Uptime))) = ∅ := by
    intro k entry
    apply AList.ext
    simp [AList.erase]
  rw [herase]
  rfl

theorem idle_at_last (n : Nat) (h : n < 4294967295) :
    ∃ ts s, Run (machine Uptime Slab Slab Slab Slab) ts s ∧ s.mdns = idle (n + 1) ∧
      s.started = s.cancelled ∧ s.opened = [] ∧ s.abandoned = [] := by
  induction n with
  | zero =>
    exact ⟨_, _, played (atStart fun _ => 0) (atStart_starts _ monotone_const)
      [.startQuery hostSpec, .cancelQuery ⟨0⟩], rfl, by decide +kernel, rfl, rfl⟩
  | succ n ih =>
    obtain ⟨ts, s, run, hs, hstarted, hopened, habandoned⟩ := ih (by omega)
    have hagain := idle_again (n + 1) h
    have hhandle : ((idle (n + 1)).startQuery hostSpec).2 = .ok ⟨UInt32.ofNat (n + 1)⟩ := rfl
    rw [← hs] at hagain hhandle
    refine ⟨_, _, (run.step ts s (.startQuery hostSpec) trivial).step _ _
      (DriverCall.cancelQuery ⟨UInt32.ofNat (n + 1)⟩) trivial, hagain, ?_, hopened, habandoned⟩
    show s.started ++ (s.mdns.startQuery hostSpec).2.toOption.toList = s.cancelled ++ _
    rw [hhandle, hstarted]
    rfl

/-- A lookup that was cancelled after its end has been reported; a handle that was cancelled names a
lookup that runs when the generations have come round; and where the handles of queries have run
out, a query outlives the lookup it was started for. -/
theorem lookups_leave_their_course :
    (∃ ts s h, Run (machine Uptime Slab Slab Slab Slab) ts s ∧
      (∃ tr ∈ ts, tr.call = .cancelLookup h) ∧ .lookupDone h ∈ s.told) ∧
    (∃ ts s h, Run (machine Uptime Slab Slab Slab Slab) ts s ∧ h ∈ s.abandoned ∧
      (s.mdns.getChecked h).isSome = true ∧ (s.mdns.cancelLookup h).getChecked h = none) ∧
    ∃ ts s h, Run (machine Uptime Slab Slab Slab Slab) ts s ∧ s.started = s.cancelled ∧
      s.opened = [h] ∧ s.abandoned = [h] ∧ ∃ k, (s.mdns.endpoint.get? k).isSome = true := by
  refine ⟨?_, ?_, ?_⟩
  · refine ⟨_, _, ⟨0, 0⟩, played (atStart fun _ => 0) (atStart_starts _ monotone_const)
      [.openLookup noTime, .tick (queryTick [] 512), .cancelLookup ⟨0, 0⟩], ?_, ?_⟩
    · exact ⟨_, List.mem_cons_of_mem _ (List.mem_cons_of_mem _ List.mem_cons_self), rfl⟩
    · decide +kernel
  · obtain ⟨ts, s, run, hs, hin⟩ := a_handle_comes_again 18446744073709551615
    have hs : s.mdns = vacated 0 := hs
    have hopen := vacated_open 0
    have hcancel := vacated_again 0
    rw [← hs] at hopen hcancel
    refine ⟨_, _, ⟨0, 0⟩, run.step ts s (.openLookup noTime) trivial, hin, ?_, ?_⟩
    · show ((noTime.open_ s.mdns).1.getChecked ⟨0, 0⟩).isSome = true
      rw [hopen]
      simp only [taken_checked]
      rfl
    · show ((noTime.open_ s.mdns).1.cancelLookup ⟨0, 0⟩).getChecked ⟨0, 0⟩ = none
      rw [hcancel]
      rfl
  · obtain ⟨ts, s, run, hs, hstarted, hopened, habandoned⟩ := idle_at_last 4294967294 (by omega)
    refine ⟨_, _, ⟨0, 0⟩, (run.step ts s (.openLookup Watch.hostOpening) trivial).step _ _
      (DriverCall.cancelLookup ⟨0, 0⟩) trivial, hstarted, ?_, ?_, ⟨4294967295⟩, ?_⟩
    · show s.opened ++ (Watch.hostOpening.open_ s.mdns).2.toOption.toList = _
      rw [hopened, hs]
      decide +kernel
    · show (if ((Watch.hostOpening.open_ s.mdns).1.getChecked ⟨0, 0⟩).isSome = true then
        s.abandoned ++ [⟨0, 0⟩] else s.abandoned) = _
      rw [habandoned, hs]
      decide +kernel
    · show (((Watch.hostOpening.open_ s.mdns).1.cancelLookup ⟨0, 0⟩).endpoint.get?
        ⟨4294967295⟩).isSome = true
      rw [hs]
      decide +kernel


end DriverRun
end Hick
