import Hick.Flood
import Hick.Lib.Ring

/-!
# What the conflict flood remembers (endpoint/flood.rs:197-311)

The verdict of the limit, read off the conflicts that were accepted: the ring, its cursor and the
latch stand for the current run of conflicts with no quiet of more than ten seconds in it.
-/

namespace Hick
open Ring

/-- A conflict that the classification reports: when, in which datagram, and over which name. -/
structure ConflictSeen (I : Type) where
  now : I
  datagram : DatagramId
  owner : Name

namespace ConflictFlood
variable {I : Type} [Instant I]

def after (f : ConflictFlood I) (os : List (ConflictSeen I)) : ConflictFlood I :=
  os.foldl (fun f o => (f.accept o.now o.datagram o.owner).1) f

def counted (f : ConflictFlood I) : List (ConflictSeen I) → List (ConflictSeen I)
  | [] => []
  | o :: os =>
    let (f', yes) := f.accept o.now o.datagram o.owner
    if yes then o :: counted f' os else counted f' os

def Near (a b : I) : Prop :=
  ∃ since, checkedDurationSince b a = some since ∧ since ≤ conflictBurstWindow

variable (f : ConflictFlood I)

theorem after_append (os os' : List (ConflictSeen I)) :
    f.after (os ++ os') = (f.after os).after os' := by
  unfold after
  rw [List.foldl_append]

theorem counted_cons (o : ConflictSeen I) (os : List (ConflictSeen I)) :
    f.counted (o :: os) = (if (f.accept o.now o.datagram o.owner).2 then [o] else []) ++
      (f.accept o.now o.datagram o.owner).1.counted os := by
  rw [counted]
  dsimp only
  split <;> rfl

theorem counted_append (os os' : List (ConflictSeen I)) :
    f.counted (os ++ os') = f.counted os ++ (f.after os).counted os' := by
  induction os generalizing f with
  | nil => rfl
  | cons o os ih => rw [List.cons_append, counted_cons, counted_cons, ih, List.append_assoc]; rfl

theorem counted_sublist (os : List (ConflictSeen I)) :
    (f.counted os).Sublist os := by
  induction os generalizing f with
  | nil => exact List.Sublist.slnil
  | cons o os ih =>
    rw [counted_cons]
    split
    · exact (ih _).cons_cons o
    · exact (ih _).cons o

def charged (f : ConflictFlood I) (datagram : DatagramId) : List Name :=
  if f.datagram = some datagram then f.accepted else []

omit [Instant I] in
theorem charge_eq (datagram : DatagramId) (owner : Name) :
    f.charge datagram owner =
      if (f.charged datagram).any fun n => n.sameOwner owner then none
      else some { f with
        datagram := some datagram
        accepted := f.charged datagram ++ [owner] } := by
  unfold charge charged
  by_cases hsame : f.datagram = some datagram
  · rw [if_neg (not_not.mpr hsame), if_pos hsame]
    cases f
    cases hsame
    rfl
  · rw [if_pos hsame, if_neg hsame]

theorem latch_charged (now : I) :
    (((f.expire now).store now).latch now).datagram = f.datagram ∧
      (((f.expire now).store now).latch now).accepted = f.accepted := by
  have hexpire : (f.expire now).datagram = f.datagram ∧
      (f.expire now).accepted = f.accepted := by
    unfold expire
    split
    · split <;> exact ⟨rfl, rfl⟩
    · exact ⟨rfl, rfl⟩
  unfold latch
  split
  · split <;> exact hexpire
  · exact hexpire

theorem accept_charges (now : I) (datagram : DatagramId) (owner : Name) :
    (f.accept now datagram owner).2 =
        !((f.charged datagram).any fun n => n.sameOwner owner) ∧
      (f.accept now datagram owner).1.charged datagram = f.charged datagram ++
        (if (f.accept now datagram owner).2 then [owner] else []) := by
  unfold accept
  rw [charge_eq]
  by_cases hany : ((f.charged datagram).any fun n => n.sameOwner owner) = true
  · rw [if_pos hany, hany]
    refine ⟨rfl, ?_⟩
    rw [if_neg Bool.false_ne_true, List.append_nil]
    unfold charged
    by_cases hsame : f.datagram = some datagram
    · rw [if_neg (not_not.mpr hsame), if_pos hsame]
    · rw [if_pos hsame, if_neg hsame, if_pos rfl]
  · rw [if_neg hany, Bool.eq_false_iff.mpr hany]
    refine ⟨rfl, ?_⟩
    rw [if_pos rfl]
    obtain ⟨hdatagram, haccepted⟩ := latch_charged { f with
      datagram := some datagram
      accepted := f.charged datagram ++ [owner] } now
    rw [charged, if_pos hdatagram]
    exact haccepted

theorem accept_datagram (now : I) (datagram : DatagramId) (owner : Name) :
    (f.accept now datagram owner).1.datagram = some datagram := by
  unfold accept
  rw [charge_eq]
  by_cases hany : ((f.charged datagram).any fun n => n.sameOwner owner) = true
  · rw [if_pos hany]
    by_cases hsame : f.datagram = some datagram
    · rw [if_neg (not_not.mpr hsame)]
      exact hsame
    · rw [if_pos hsame]
  · rw [if_neg hany]
    exact (latch_charged _ now).1

theorem counted_names (d : DatagramId) (os : List (ConflictSeen I))
    (h : ∀ o ∈ os, o.datagram = d) (owner : Name) :
    ((f.counted os).filter fun o => o.owner.sameOwner owner).length =
      if (f.charged d).any fun n => n.sameOwner owner then 0
      else if os.any fun o => o.owner.sameOwner owner then 1 else 0 := by
  induction os generalizing f with
  | nil => simp [counted]
  | cons o os ih =>
    have ho := h o List.mem_cons_self
    obtain ⟨hyes, hcharged⟩ := f.accept_charges o.now d o.owner
    have hrest := ih (f.accept o.now d o.owner).1 fun o' ho' => h o' (List.mem_cons_of_mem _ ho')
    rw [hcharged] at hrest
    rw [counted_cons, ho, List.filter_append, List.length_append, hrest]
    have hswap : ∀ n : Name, o.owner.sameOwner owner = true →
        n.sameOwner o.owner = n.sameOwner owner := by
      intro n hsame
      rw [Bool.eq_iff_iff, Name.sameOwner_iff, Name.sameOwner_iff,
        (Name.sameOwner_iff _ _).mp hsame]
    by_cases hsame : o.owner.sameOwner owner = true
    · have hnames : ((f.charged d).any fun n => n.sameOwner o.owner) =
          (f.charged d).any fun n => n.sameOwner owner := by
        congr 1
        funext n
        exact hswap n hsame
      rw [hnames] at hyes
      cases hany : (f.charged d).any fun n => n.sameOwner owner with
      | true => simp [hyes, hany]
      | false => simp [hyes, hany, hsame]
    · cases hnew : (f.accept o.now d o.owner).2 with
      | true => simp [hsame]
      | false => simp [hsame]

/-- The ring holds the current run of the conflicts accepted at `times`, and the latch the time
that completed its first fifteen within ten seconds. -/
structure Remembers (f : ConflictFlood I) (times run : List I) : Prop where
  current : Current Near times run
  ring : Ring.Holds conflictBurstLen f.ring f.slot run
  latched : ∀ t, f.latchedAt = some t ↔ FirstBurst Near (conflictBurstLen - 1) run t

theorem Remembers.empty : Remembers (ConflictFlood.new : ConflictFlood I) [] [] := by
  refine ⟨Current.nil Near, Ring.Holds.empty conflictBurstLen, ?_⟩
  intro t
  constructor
  · intro h
    cases h
  · intro h
    obtain ⟨i, a, ha, -⟩ := h
    simp at ha

theorem Remembers.latches (times run : List I) (now : I)
    (hcurrent : Current Near (times ++ [now]) (run ++ [now]))
    (hring : Ring.Holds conflictBurstLen f.ring f.slot run)
    (hlatched : ∀ t, f.latchedAt = some t ↔ FirstBurst Near (conflictBurstLen - 1) run t) :
    Remembers ((f.store now).latch now) (times ++ [now]) (run ++ [now]) := by
  have hstored : Ring.Holds conflictBurstLen (f.store now).ring (f.store now).slot (run ++ [now]) :=
    hring.push _ _ _ _ (by decide) now
  have holdest := hstored.oldest _ _ _ _ (by decide)
  -- whether the newest fifteen lie within ten seconds, as the ring shows it
  have hspan : (∃ span, (((f.store now).ring[(f.store now).slot]?).join).bind
        (checkedDurationSince now) = some span ∧ span ≤ conflictBurstWindow) ↔
      conflictBurstLen - 1 ≤ run.length ∧
        ∃ b, (run ++ [now])[run.length - (conflictBurstLen - 1)]? = some b ∧ Near b now := by
    rw [holdest, List.length_append, List.length_singleton]
    unfold Near conflictBurstLen
    by_cases hfull : 15 ≤ run.length + 1
    · rw [if_pos hfull, show run.length + 1 - 15 = run.length - (15 - 1) by omega]
      constructor
      · intro h
        obtain ⟨span, hbind, hle⟩ := h
        obtain ⟨b, hb, hsince⟩ := Option.bind_eq_some_iff.mp hbind
        exact ⟨by omega, b, hb, span, hsince, hle⟩
      · intro h
        obtain ⟨-, b, hb, span, hsince, hle⟩ := h
        exact ⟨span, Option.bind_eq_some_iff.mpr ⟨b, hb, hsince⟩, hle⟩
    · rw [if_neg hfull]
      constructor
      · intro h
        obtain ⟨span, hbind, -⟩ := h
        cases hbind
      · intro h
        omega
  have hsame : ((f.store now).latch now).ring = (f.store now).ring ∧
      ((f.store now).latch now).slot = (f.store now).slot := by
    unfold latch
    split
    · split <;> exact ⟨rfl, rfl⟩
    · exact ⟨rfl, rfl⟩
  refine ⟨hcurrent, by rw [hsame.1, hsame.2]; exact hstored, ?_⟩
  intro t
  rw [firstBurst_snoc, ← hlatched]
  have hnone : (∀ u, ¬FirstBurst Near (conflictBurstLen - 1) run u) ↔ f.latchedAt = none := by
    rw [Option.eq_none_iff_forall_ne_some]
    exact forall_congr' fun u => not_congr (hlatched u).symm
  rw [hnone]
  unfold latch
  split
  · rename_i span hbind
    by_cases hbursts : span ≤ conflictBurstWindow ∧ (f.store now).latchedAt.isNone
    · have hempty : f.latchedAt = none := Option.isNone_iff_eq_none.mp hbursts.2
      obtain ⟨hlen, hnear⟩ := hspan.mp ⟨span, hbind, hbursts.1⟩
      rw [if_pos hbursts, hempty]
      simp only [Option.some.injEq, reduceCtorEq, true_and, false_or]
      exact ⟨fun h => ⟨h.symm, hlen, hnear⟩, fun h => h.1.symm⟩
    · rw [if_neg hbursts]
      constructor
      · exact .inl
      · intro h
        rcases h with hold | ⟨hempty, -, hlen, hnear⟩
        · exact hold
        · obtain ⟨span', hbind', hle⟩ := hspan.mpr ⟨hlen, hnear⟩
          rw [hbind] at hbind'
          rw [← Option.some.inj hbind'] at hle
          exact absurd ⟨hle, Option.isNone_iff_eq_none.mpr hempty⟩ hbursts
  · rename_i hbind
    constructor
    · exact .inl
    · intro h
      rcases h with hold | ⟨-, -, hlen, hnear⟩
      · exact hold
      · obtain ⟨span', hbind', -⟩ := hspan.mpr ⟨hlen, hnear⟩
        rw [hbind] at hbind'
        cases hbind'

theorem Remembers.accepts [MeasuredInstant I] (f : ConflictFlood I) (times run : List I) (now : I)
    (h : Remembers f times run) (hpast : ∀ t ∈ times, t ≤ now) :
    ∃ run', Remembers (((f.expire now).store now).latch now) (times ++ [now]) run' := by
  have hnewest : f.newest = run.getLast? := h.ring.newest _ _ _ _ (by decide)
  unfold expire
  cases hlast : run.getLast? with
  | none =>
    have hempty : run = [] := List.getLast?_eq_none_iff.mp hlast
    have htimes := h.current.nonempty hempty
    rw [hnewest, hlast, Option.bind_none]
    refine ⟨run ++ [now], Remembers.latches f times run now ?_ h.ring h.latched⟩
    rw [htimes, hempty]
    exact Current.first Near now
  | some newest =>
    have hmem : newest ∈ times := by
      obtain ⟨past, htimes, -⟩ := h.current.part
      rw [htimes]
      exact List.mem_append_right past (List.mem_of_getLast? hlast)
    obtain ⟨since, hsince, -⟩ := MeasuredInstant.since_of_le newest now (hpast newest hmem)
    rw [hnewest, hlast, Option.bind_some, hsince]
    dsimp only
    by_cases hquiet : since > conflictBurstWindow
    · rw [if_pos hquiet]
      have hfar : ¬Near newest now := by
        intro hnear
        obtain ⟨since', hsince', hle⟩ := hnear
        rw [hsince] at hsince'
        rw [← Option.some.inj hsince'] at hle
        exact absurd hle (not_le.mpr hquiet)
      refine ⟨[] ++ [now], Remembers.latches _ times [] now
        (h.current.breaks _ _ _ newest now hlast hfar) (Ring.Holds.empty conflictBurstLen) ?_⟩
      exact Remembers.empty.latched
    · rw [if_neg hquiet]
      have hnear : Near newest now := ⟨since, hsince, not_lt.mp hquiet⟩
      exact ⟨run ++ [now], Remembers.latches f times run now
        (h.current.joins _ _ _ newest now hlast hnear) h.ring h.latched⟩

theorem Remembers.charge (f g : ConflictFlood I) (times run : List I) (h : Remembers f times run)
    (hring : g.ring = f.ring) (hslot : g.slot = f.slot) (hlatched : g.latchedAt = f.latchedAt) :
    Remembers g times run :=
  ⟨h.current, by rw [hring, hslot]; exact h.ring, by rw [hlatched]; exact h.latched⟩

theorem Remembers.of_run [MeasuredInstant I] (os : List (ConflictSeen I))
    (h : os.Pairwise fun a b => a.now ≤ b.now) :
    ∃ run, Remembers (new.after os) ((new.counted os).map (·.now)) run := by
  induction os using List.reverseRecOn with
  | nil => exact ⟨[], Remembers.empty⟩
  | append_singleton os o ih =>
    obtain ⟨hold, -, hlast⟩ := List.pairwise_append.mp h
    obtain ⟨run, hrun⟩ := ih hold
    have hpast : ∀ t ∈ (new.counted os).map (·.now), t ≤ o.now := by
      intro t ht
      obtain ⟨o', ho', rfl⟩ := List.mem_map.mp ht
      exact hlast o' ((counted_sublist new os).subset ho') o List.mem_cons_self
    rw [after_append, counted_append, counted_cons]
    show ∃ run, Remembers ((new.after os).accept o.now o.datagram o.owner).1 _ run
    generalize hf : (new.after os : ConflictFlood I) = f at hrun ⊢
    unfold accept
    rw [charge_eq]
    by_cases hany : ((f.charged o.datagram).any fun n => n.sameOwner o.owner) = true
    · rw [if_pos hany]
      dsimp only
      rw [if_neg Bool.false_ne_true, counted, List.append_nil, List.append_nil]
      refine ⟨run, ?_⟩
      split
      · exact hrun.charge _ _ _ _ rfl rfl rfl
      · exact hrun
    · rw [if_neg hany]
      dsimp only
      rw [if_pos rfl, counted, List.append_nil, List.map_append]
      exact (hrun.charge _ { f with
        datagram := some o.datagram
        accepted := f.charged o.datagram ++ [o.owner] } _ _ rfl rfl rfl).accepts _ _ _ o.now hpast

/-- The limit is in force at `now` since `t`: the newest conflict that was accepted came at most ten
seconds before, and `t` completed the first fifteen within ten seconds of the current run. -/
def Engaged (times : List I) (now t : I) : Prop :=
  ∃ run newest, Current Near times run ∧ run.getLast? = some newest ∧ Near newest now ∧
    FirstBurst Near (conflictBurstLen - 1) run t

theorem latchEpoch_iff [MeasuredInstant I] (f : ConflictFlood I) (times run : List I) (now t : I)
    (h : Remembers f times run) (hpast : ∀ u ∈ times, u ≤ now) :
    f.latchEpoch now = some t ↔ Engaged times now t := by
  have hnewest : f.newest = run.getLast? := h.ring.newest _ _ _ _ (by decide)
  unfold latchEpoch
  constructor
  · intro hepoch
    cases hlatched : f.latchedAt with
    | none =>
      rw [hlatched] at hepoch
      cases hepoch
    | some latched =>
      cases hlast : f.newest with
      | none =>
        rw [hlatched, hlast] at hepoch
        cases hepoch
      | some newest =>
        rw [hlatched, hlast] at hepoch
        rw [hlast] at hnewest
        have hmem : newest ∈ times := by
          obtain ⟨past, htimes, -⟩ := h.current.part
          rw [htimes]
          exact List.mem_append_right past (List.mem_of_getLast? hnewest.symm)
        obtain ⟨since, hsince, -⟩ := MeasuredInstant.since_of_le newest now (hpast newest hmem)
        dsimp only at hepoch
        rw [hsince] at hepoch
        dsimp only at hepoch
        by_cases hle : since ≤ conflictBurstWindow
        · rw [if_pos hle] at hepoch
          exact ⟨run, newest, h.current, hnewest.symm, ⟨since, hsince, hle⟩,
            (h.latched t).mp (hlatched.trans hepoch)⟩
        · rw [if_neg hle] at hepoch
          cases hepoch
  · intro hengaged
    obtain ⟨run', newest, hcurrent, hlast, hnear, hburst⟩ := hengaged
    rw [Current.unique Near times run' run hcurrent h.current] at hlast hburst
    obtain ⟨since, hsince, hle⟩ := hnear
    rw [(h.latched t).mpr hburst, hnewest, hlast]
    dsimp only
    rw [hsince]
    exact if_pos hle

/-- The limit is what the conflicts that were accepted say, and of those that are reported while one
datagram is routed, one is accepted for each name. -/
theorem flood_follows_conflicts [MeasuredInstant I] (os : List (ConflictSeen I))
    (h : os.Pairwise fun a b => a.now ≤ b.now) :
    (∀ now t, (∀ o ∈ os, o.now ≤ now) →
      ((new.after os).latchEpoch now = some t ↔
        Engaged ((new.counted os).map (·.now)) now t)) ∧
    ∀ before block rest d, os = before ++ block ++ rest → (∀ o ∈ before.getLast?, o.datagram ≠ d) →
      (∀ o ∈ block, o.datagram = d) → ∀ o ∈ block,
        (((new.after before).counted block).filter fun o' =>
          o'.owner.sameOwner o.owner).length = 1 := by
  constructor
  · intro now t hnow
    obtain ⟨run, hrun⟩ := Remembers.of_run os h
    apply latchEpoch_iff _ _ run now t hrun
    intro u hu
    obtain ⟨o, ho, rfl⟩ := List.mem_map.mp hu
    exact hnow o ((counted_sublist new os).subset ho)
  · intro before block rest d _ hbefore hblock o ho
    have hfresh : (new.after before).charged d = [] := by
      rcases List.eq_nil_or_concat' before with rfl | ⟨past, o', rfl⟩
      · rfl
      · have hne := hbefore o' (by rw [List.getLast?_concat]; rfl)
        rw [charged, after_append]
        show (if ((new.after past).accept o'.now o'.datagram o'.owner).1.datagram = some d
          then _ else []) = []
        rw [accept_datagram, if_neg]
        intro heq
        exact hne (Option.some.inj heq)
    rw [counted_names _ d block hblock, hfresh, List.any_nil, if_neg Bool.false_ne_true, if_pos]
    exact List.any_eq_true.mpr ⟨o, ho, o.owner.sameOwner_refl⟩

def everyHalfSecond : List (ConflictSeen Uptime) :=
  (List.range 15).map fun k =>
    ⟨Fin.ofNat _ (500000000 * k), ⟨UInt64.ofNat k⟩, ⟨[Fin.ofNat 256 97], by decide, by decide⟩⟩

theorem flood_follows_every_half_second :
    Engaged ((new.counted everyHalfSecond).map (·.now)) 17000000000 7000000000 :=
  ((flood_follows_conflicts everyHalfSecond (by decide +kernel)).1 17000000000 7000000000
    (by decide +kernel)).mp (by decide +kernel)

end ConflictFlood

end Hick
