import Hick.Endpoint.Moves
import Hick.Service.WindowEnd

/-!
# The name a defeated service takes (service/mod.rs:193-273, 4733-4788, endpoint/service.rs:582-663)

The search tries the numbers after the counter in turn, and of one more candidate than there are
names in use one is free.
-/

namespace Hick
open Octets Wire Respond Runs LabelSeq

def tried (attempt : UInt32) : Nat → UInt32
  | 0 => saturatingSucc32 attempt
  | i + 1 => tried (saturatingSucc32 attempt) i

theorem saturatingSucc32_toNat (v : UInt32) :
    (saturatingSucc32 v).toNat = min (v.toNat + 1) 4294967295 := by
  have hlt := v.toNat_lt
  unfold saturatingSucc32
  split
  · rename_i h
    rw [h]
    rfl
  · rename_i h
    have hne : v.toNat ≠ 4294967295 := fun hv => h (UInt32.toNat_inj.mp hv)
    rw [UInt32.toNat_add, UInt32.toNat_one]
    omega

theorem tried_toNat (attempt : UInt32) (i : Nat) :
    (tried attempt i).toNat = min (attempt.toNat + 1 + i) 4294967295 := by
  induction i generalizing attempt with
  | zero => exact saturatingSucc32_toNat attempt
  | succ i ih =>
    rw [tried, ih, saturatingSucc32_toNat]
    omega

theorem tried_injective (attempt : UInt32) (n i j : Nat) (hn : attempt.toNat + n ≤ 4294967295)
    (hi : i < n) (hj : j < n) (h : tried attempt i = tried attempt j) : i = j := by
  have hnat := congrArg UInt32.toNat h
  rw [tried_toNat, tried_toNat] at hnat
  omega

def candidate (current : Name) (attempt : UInt32) (i : Nat) : Except NameError Name :=
  Name.tryFromStr (renameWithSuffix current.text (tried attempt i))

def Passed (current : Name) (taken : NamesInUse) (attempt : UInt32) (i : Nat) : Prop :=
  ∃ name, candidate current attempt i = .ok name ∧ taken.holds name = true

theorem chooseName_iff (current : Name) (taken : NamesInUse) (tries : Nat) (attempt : UInt32)
    (name : Name) :
    (chooseName current taken tries attempt).1 = some name ↔
      ∃ i < tries, candidate current attempt i = .ok name ∧ taken.holds name = false ∧
        ∀ j < i, Passed current taken attempt j := by
  induction tries generalizing attempt with
  | zero =>
    constructor
    · intro h
      cases h
    · rintro ⟨i, hi, -⟩
      omega
  | succ tries ih =>
    have hfirst : candidate current attempt 0 =
        Name.tryFromStr (renameWithSuffix current.text (saturatingSucc32 attempt)) := rfl
    unfold chooseName
    dsimp only
    rw [← hfirst]
    cases hc : candidate current attempt 0 with
    | error err =>
      constructor
      · intro h
        cases h
      · rintro ⟨i, -, hok, -, hpast⟩
        have hzero : i = 0 := by
          by_contra hi
          obtain ⟨n, hn, -⟩ := hpast 0 (by omega)
          rw [hc] at hn
          cases hn
        rw [hzero, hc] at hok
        cases hok
    | ok first =>
      dsimp only
      by_cases hheld : taken.holds first = true
      · rw [if_pos hheld, ih]
        constructor
        · rintro ⟨i, hi, hok, hfree, hpast⟩
          refine ⟨i + 1, by omega, hok, hfree, ?_⟩
          intro j hj
          cases j with
          | zero => exact ⟨first, hc, hheld⟩
          | succ j => exact hpast j (by omega)
        · rintro ⟨i, hi, hok, hfree, hpast⟩
          cases i with
          | zero =>
            rw [hc] at hok
            cases hok
            rw [hheld] at hfree
            cases hfree
          | succ i =>
            refine ⟨i, by omega, hok, hfree, ?_⟩
            intro j hj
            exact hpast (j + 1) (by omega)
      · rw [if_neg hheld]
        constructor
        · intro h
          cases h
          exact ⟨0, by omega, hc, Bool.eq_false_iff.mpr hheld, fun j hj => absurd hj (by omega)⟩
        · rintro ⟨i, -, hok, -, hpast⟩
          cases i with
          | zero =>
            rw [hc] at hok
            cases hok
            rfl
          | succ i =>
            obtain ⟨n, hn, hin⟩ := hpast 0 (by omega)
            rw [hc] at hn
            cases hn
            exact absurd hin hheld

/-- Every number the search may need is below the counter's last, and its candidate is a valid
name. -/
structure Roomy (current : Name) (taken : NamesInUse) (attempt : UInt32) : Prop where
  counter : attempt.toNat + (taken.len + 1) ≤ 4294967295
  valid : ∀ i ≤ taken.len, ∃ name, candidate current attempt i = .ok name

theorem exists_free_candidate (current : Name) (taken : NamesInUse) (attempt : UInt32)
    (h : Roomy current taken attempt) :
    ∃ i ≤ taken.len, ∃ name, candidate current attempt i = .ok name ∧
      taken.holds name = false := by
  by_contra hnone
  have hheld : ∀ i : Fin (taken.len + 1), ∃ n ∈ taken.names, ∃ name,
      candidate current attempt i = .ok name ∧ n.labels = name.labels := by
    intro i
    obtain ⟨name, hok⟩ := h.valid i (by omega)
    have hholds : taken.holds name = true := by
      by_contra hfree
      exact hnone ⟨i, by omega, name, hok, Bool.eq_false_iff.mpr hfree⟩
    obtain ⟨n, hn, hsame⟩ := List.any_eq_true.mp hholds
    exact ⟨n, hn, name, hok, (Name.sameOwner_iff _ _).mp hsame⟩
  choose at_ hmem name hok hlabels using hheld
  -- the names in use that the candidates meet are as many as the candidates
  have hinj : Function.Injective fun i => (at_ i).labels := by
    intro i j hij
    have hlab : (name i).labels = (name j).labels := by
      rw [← hlabels i, ← hlabels j]
      exact hij
    have hnumber := candidate_injective current (name i) (name j) _ _ (hok i) (hok j)
      ((Name.sameOwner_iff _ _).mpr hlab)
    exact Fin.ext (tried_injective attempt _ i j h.counter i.isLt j.isLt hnumber)
  have hnodup : ((List.finRange (taken.len + 1)).map fun i => (at_ i).labels).Nodup :=
    (List.nodup_finRange _).map hinj
  have hsub : ((List.finRange (taken.len + 1)).map fun i => (at_ i).labels) ⊆
      taken.names.map (·.labels) := by
    intro l hl
    obtain ⟨i, -, rfl⟩ := List.mem_map.mp hl
    exact List.mem_map_of_mem (hmem i)
  have hle := (List.subperm_of_subset hnodup hsub).length_le
  rw [List.length_map, List.length_finRange, List.length_map] at hle
  unfold NamesInUse.len at hle
  omega

theorem chooseName_finds (current : Name) (taken : NamesInUse) (attempt : UInt32)
    (h : Roomy current taken attempt) :
    ∃ name, (chooseName current taken (taken.len + 1) attempt).1 = some name := by
  classical
  have hex := exists_free_candidate current taken attempt h
  obtain ⟨hle, name, hok, hfree⟩ := Nat.find_spec hex
  refine ⟨name, (chooseName_iff _ _ _ _ _).mpr ⟨Nat.find hex, by omega, hok, hfree, ?_⟩⟩
  intro j hj
  obtain ⟨n, hn⟩ := h.valid j (by omega)
  refine ⟨n, hn, ?_⟩
  by_contra hn'
  exact Nat.find_min hex hj ⟨by omega, n, hn, Bool.eq_false_iff.mpr hn'⟩

def NumberedBy (name : Name) (n : UInt32) : Prop :=
  ∃ stem rest, name.labels = (stem ++ hyphen :: decimal n) :: rest

theorem tryFromStr_text (name : Name) : Name.tryFromStr name.text = .ok name := by
  obtain ⟨found, hok, htext⟩ := Name.tryFromStr_ok name.text name.valid
  rw [hok, Name.ext_text found name (by rw [htext, name.folded])]

theorem renameWithSuffix_own (name : Name) (n : UInt32) (h : NumberedBy name n) :
    renameWithSuffix name.text n = name.text := by
  obtain ⟨stem, rest, hlabels⟩ := h
  have hne : name.text ≠ [] := by
    intro hroot
    rw [name.labels_eq_nil.mpr hroot] at hlabels
    cases hlabels
  have hsplit : splitDot (trim name.text) = (stem ++ hyphen :: decimal n) :: rest := by
    rw [← hlabels, Name.labels, if_neg hne]
  have hbody : candidateBody (trim name.text) n = trim name.text := by
    apply splitDot_injective
    rw [candidateBody_split, hsplit, List.headD_cons, List.tail_cons, numberedLabel,
      renameStem_numbered]
  rw [renameWithSuffix_eq, hbody]
  split
  · rename_i hdot
    rw [trim, if_pos hdot, List.dropLast_append_getLast? dot hdot]
  · rename_i hdot
    exact trim_of_not_dot _ hdot

/-- The name ends in a number the search comes to before any free candidate, and no other keeps
it. -/
def ComesBack (current : Name) (taken : NamesInUse) (attempt : UInt32) : Prop :=
  taken.holds current = false ∧ ∃ i ≤ taken.len, NumberedBy current (tried attempt i) ∧
    ∀ j < i, Passed current taken attempt j

theorem holds_congr (taken : NamesInUse) (a b : Name) (h : a.labels = b.labels) :
    taken.holds a = taken.holds b := by
  unfold NamesInUse.holds
  congr 1
  funext n
  rw [Bool.eq_iff_iff, Name.sameOwner_iff, Name.sameOwner_iff, h]

theorem chooseName_own_iff (current : Name) (taken : NamesInUse) (attempt : UInt32) :
    (∃ name, (chooseName current taken (taken.len + 1) attempt).1 = some name ∧
        name.sameOwner current = true) ↔ ComesBack current taken attempt := by
  constructor
  · rintro ⟨name, hchosen, hsame⟩
    obtain ⟨i, hi, hok, hfree, hpast⟩ := (chooseName_iff _ _ _ _ _).mp hchosen
    rw [holds_congr taken name current ((Name.sameOwner_iff _ _).mp hsame)] at hfree
    exact ⟨hfree, i, by omega, (candidate_is_current_iff current name _ hok).mp hsame, hpast⟩
  · rintro ⟨hfree, i, hi, hnumber, hpast⟩
    have hok : candidate current attempt i = .ok current := by
      rw [candidate, renameWithSuffix_own current _ hnumber, tryFromStr_text]
    exact ⟨current, (chooseName_iff _ _ _ _ _).mpr ⟨i, by omega, hok, hfree, hpast⟩,
      current.sameOwner_refl⟩

namespace Endpoint
variable {I G R : Type} {SR EV : Type → Type} [Instant I] [SeedSource G] [SeedableRng R]
  [Pool SR] [Pool EV]

def InUse (e : Endpoint I G R SR EV) (key : Nat) (name : Name) : Prop :=
  (∃ j r, j ≠ key ∧ e.route j = some r ∧ r.name.labels = name.labels) ∨
    ∃ tw ∈ e.withdrawals, tw.2.route = none ∧ tw.2.holdsName = true ∧
      tw.2.records.instanceName.labels = name.labels

variable [LawfulPool SR]

omit [Instant I] [SeedSource G] [SeedableRng R] [Pool EV] in
theorem namesInUse_holds (e : Endpoint I G R SR EV) (key : Nat) (name : Name) :
    (e.namesInUse key).holds name = true ↔ e.InUse key name := by
  unfold namesInUse NamesInUse.holds
  rw [List.any_append, Bool.or_eq_true, List.any_map, List.any_map, List.any_filter,
    List.any_filter, List.any_eq_true, List.any_eq_true]
  refine or_congr ?_ ?_
  · constructor
    · rintro ⟨⟨j, r⟩, hmem, h⟩
      rw [Bool.and_eq_true] at h
      exact ⟨j, r, by simpa using h.1, (e.mem_routes j r).mp hmem,
        (Name.sameOwner_iff _ _).mp h.2⟩
    · rintro ⟨j, r, hj, hr, hsame⟩
      refine ⟨(j, r), (e.mem_routes j r).mpr hr, ?_⟩
      rw [Bool.and_eq_true]
      exact ⟨by simpa using hj, (Name.sameOwner_iff _ _).mpr hsame⟩
  · refine exists_congr fun tw => and_congr_right fun _ => ?_
    rw [Bool.and_eq_true, WithdrawalItem.holds, Bool.and_eq_true, Option.isNone_iff_eq_none,
      and_assoc]
    exact and_congr_right fun _ => and_congr_right fun _ => Name.sameOwner_iff _ _

structure RenamesFreely (e : Endpoint I G R SR EV) (key : Nat) (r r' : Route I R EV) : Prop where
  fresh : r'.proto.state ≠ .conflicting → ¬e.InUse key r'.proto.records.instanceName ∧
    r'.proto.records.instanceName.labels ≠ r.proto.records.instanceName.labels
  found : Roomy r.proto.records.instanceName (e.namesInUse key) r.proto.renameAttempt →
    r'.proto.state ≠ .conflicting

theorem handleServiceTimeout_route (e : Endpoint I G R SR EV) (handle : ServiceHandle) (now : I)
    (key : Nat) (r : Route I R EV) (hkey : e.serviceKey handle = some key)
    (hr : e.route key = some r) (hlive : r.withdrawing = false) :
    (e.handleServiceTimeout handle now).1.route key =
      some (Route.mirrorName { r with
        proto := (r.proto.handleTimeout now e.flood (e.renameScratch key r)).1 }).handedOver := by
  have hidle : ¬r.withdrawing = true := by
    rw [hlive]
    exact Bool.false_ne_true
  unfold handleServiceTimeout
  simp only [hkey, hr]
  rw [if_neg hidle, drainRenameGoodbye_route, if_pos rfl, route_updateRoute, if_pos rfl, hr]
  rfl

/-- In every run the timer gives a defeated service a name that is free and new, and finds one
where there is room, exactly when the name given up does not come back. -/
theorem renames_freely_iff
    (ts : List (Transition (Endpoint I G R SR EV) (HostCall I))) (e : Endpoint I G R SR EV)
    (run : Run machine ts e) (t : Transition (Endpoint I G R SR EV) (HostCall I)) (ht : t ∈ ts)
    (handle : ServiceHandle) (hcall : t.call.call = .serviceTimeout handle) (key : Nat)
    (r : Route I R EV) (hkey : t.pre.serviceKey handle = some key)
    (hr : t.pre.route key = some r) (hlive : r.withdrawing = false)
    (hdefeated : r.proto.probeDefeated = true) :
    ∃ r', t.post.route key = some r' ∧
      (t.pre.RenamesFreely key r r' ↔
        ¬ComesBack r.proto.records.instanceName (t.pre.namesInUse key) r.proto.renameAttempt) := by
  obtain ⟨heq, -⟩ := run.mem machine ts e t ht
  have hpost : t.post = (t.pre.handleServiceTimeout handle t.call.now).1 := by
    have hnext : t.post = t.pre.next t.call := congrArg Transition.post heq
    rw [hnext]
    unfold next
    rw [hcall]
  have hroute := t.pre.handleServiceTimeout_route handle t.call.now key r hkey hr hlive
  rw [← hpost] at hroute
  refine ⟨_, hroute, ?_⟩
  have hscratch : t.pre.renameScratch key r = t.pre.namesInUse key := if_pos hdefeated
  have hspent := r.proto.handleTimeout_defeated t.call.now t.pre.flood (t.pre.namesInUse key)
    hdefeated
  rw [hscratch]
  -- the search alone decides which name the service has next
  generalize (r.proto.handleTimeout t.call.now t.pre.flood (t.pre.namesInUse key)).1 = proto
    at hspent ⊢
  have hproto : (Route.mirrorName { r with proto := proto }).handedOver.proto =
      proto.takeRenameGoodbyeHandoff.1 := by
    unfold Route.handedOver
    rw [mirrorName_proto]
  have hstate : (Route.mirrorName { r with proto := proto }).handedOver.proto.state =
      proto.state := by
    rw [hproto]
    rfl
  have hrecords : (Route.mirrorName { r with proto := proto }).handedOver.proto.records =
      proto.records := by
    rw [hproto]
    rfl
  rw [← chooseName_own_iff]
  cases hchosen : (chooseName r.proto.records.instanceName (t.pre.namesInUse key)
      ((t.pre.namesInUse key).len + 1) r.proto.renameAttempt).1 with
  | none =>
    rw [hchosen] at hspent
    constructor
    · rintro - ⟨name, hname, -⟩
      cases hname
    · intro _
      refine ⟨fun hgave => absurd (hstate.trans hspent.1) hgave, fun hroom => ?_⟩
      obtain ⟨name, hname⟩ := chooseName_finds _ _ _ hroom
      rw [hchosen] at hname
      cases hname
  | some name =>
    rw [hchosen] at hspent
    obtain ⟨hinit, htaken⟩ := hspent
    have hnew : (Route.mirrorName { r with
        proto := proto }).handedOver.proto.records.instanceName = name := by
      rw [hrecords, htaken]
      rfl
    obtain ⟨i, -, -, hfree, -⟩ := (chooseName_iff _ _ _ _ _).mp hchosen
    have hnotused : ¬t.pre.InUse key name := by
      rw [← namesInUse_holds, hfree]
      exact Bool.false_ne_true
    constructor
    · rintro hfreely ⟨found, hfound, hown⟩
      cases hfound
      have hne := (hfreely.fresh (by rw [hstate, hinit]; exact nofun)).2
      rw [hnew] at hne
      exact hne ((Name.sameOwner_iff _ _).mp hown)
    · intro hother
      refine ⟨fun _ => ?_, fun _ => by rw [hstate, hinit]; exact nofun⟩
      rw [hnew]
      exact ⟨hnotused, fun hsame => hother ⟨name, rfl, (Name.sameOwner_iff _ _).mpr hsame⟩⟩

def numberedInstance : Name :=
  ⟨[97, 45, 49, 46, 95, 112, 46, 108, 111, 99, 97, 108], by decide, by decide⟩

/-- A printer is registered, sends its first probe and hears a rival's service record. -/
def contested (name : Name) : List (HostCall Uptime) :=
  let records := ServiceRecords.printer.setInstance name
  [⟨0, .register records⟩, ⟨0, .serviceTimeout ⟨0⟩⟩, ⟨0, .serviceTimeout ⟨0⟩⟩,
    ⟨0, .serviceTransmit ⟨0⟩ (List.replicate 512 0)⟩,
    ⟨0, .serviceOutcome ⟨0⟩ (.accepted 0) .noSocket⟩] ++
  ((Session.heard (Session.hearsSrv 0 { records with port := 9100 })).map fun event =>
    (⟨0, .event 0 event⟩ : HostCall Uptime)).toList

def contestedAt (name : Name) : Endpoint Uptime ZeroRng ZeroRng Slab Slab :=
  machine.play (tryNew ⟨true, true, 0⟩ ⟨⟩) (contested name)

def spends (name : Name) : Transition (Endpoint Uptime ZeroRng ZeroRng Slab Slab)
    (HostCall Uptime) :=
  machine.transition (contestedAt name) ⟨0, .serviceTimeout ⟨0⟩⟩

def ContestedAdmitted (name : Name) : Prop :=
  machine.Admitted (tryNew ⟨true, true, 0⟩ ⟨⟩ : Endpoint Uptime ZeroRng ZeroRng Slab Slab)
    (contested name)

instance (name : Name) : Decidable (ContestedAdmitted name) :=
  inferInstanceAs (Decidable (machine.Admitted _ _))

theorem contested_run (name : Name) (h : ContestedAdmitted name) :
    ∃ ts e, Run machine ts e ∧ spends name ∈ ts := by
  have hstart : Run machine [] (tryNew ⟨true, true, 0⟩ ⟨⟩ :
      Endpoint Uptime ZeroRng ZeroRng Slab Slab) := Run.start _ ⟨_, _, rfl⟩
  have hplayed := hstart.play machine [] _ (contested name) h
  exact ⟨_, _, hplayed.step _ _ (⟨0, .serviceTimeout ⟨0⟩⟩ : HostCall Uptime) trivial,
    List.mem_append_right _ (List.mem_singleton.mpr rfl)⟩

theorem printer_takes_a_free_name :
    ∃ r r', (spends ServiceRecords.printerInstance).pre.route 0 = some r ∧
      (spends ServiceRecords.printerInstance).post.route 0 = some r' ∧
      (spends ServiceRecords.printerInstance).pre.RenamesFreely 0 r r' := by
  obtain ⟨hadmitted, hkey, hdata⟩ : ContestedAdmitted ServiceRecords.printerInstance ∧
      (spends ServiceRecords.printerInstance).pre.serviceKey ⟨0⟩ = some 0 ∧
      ((spends ServiceRecords.printerInstance).pre.route 0).map (fun r =>
        (r.withdrawing, r.proto.probeDefeated, r.proto.records.instanceName)) =
          some (false, true, ServiceRecords.printerInstance) := by decide +kernel
  obtain ⟨ts, e, run, hmem⟩ := contested_run ServiceRecords.printerInstance hadmitted
  obtain ⟨r, hr, hfacts⟩ := Option.map_eq_some_iff.mp hdata
  rw [Prod.mk.injEq, Prod.mk.injEq] at hfacts
  obtain ⟨hlive, hdefeated, hname⟩ := hfacts
  obtain ⟨r', hr', hiff⟩ :=
    renames_freely_iff ts e run _ hmem ⟨0⟩ rfl 0 r hkey hr hlive hdefeated
  refine ⟨r, r', hr, hr', hiff.mpr ?_⟩
  rintro ⟨-, i, -, ⟨stem, rest, hlabels⟩, -⟩
  rw [hname] at hlabels
  have hfirst : ([97] : Bytes) = stem ++ hyphen :: decimal (tried r.proto.renameAttempt i) :=
    (List.cons.inj hlabels).1
  have hmem : hyphen ∈ ([97] : Bytes) := by
    rw [hfirst]
    exact List.mem_append_right _ List.mem_cons_self
  exact absurd hmem (by decide)

/-- `a-1._p.local`, whose number is the first tried, is probed again under the name it lost. -/
theorem numbered_printer_keeps_its_name :
    ∃ ts e, Run (machine : Machine (Endpoint Uptime ZeroRng ZeroRng Slab Slab)
        (HostCall Uptime)) ts e ∧
      ∃ t ∈ ts, ∃ r r', t.call.call = .serviceTimeout ⟨0⟩ ∧ t.pre.serviceKey ⟨0⟩ = some 0 ∧
        t.pre.route 0 = some r ∧ r.withdrawing = false ∧ r.proto.probeDefeated = true ∧
        t.post.route 0 = some r' ∧ ¬t.pre.RenamesFreely 0 r r' := by
  obtain ⟨hadmitted, hkey, hpre, hpost⟩ : ContestedAdmitted numberedInstance ∧
      (spends numberedInstance).pre.serviceKey ⟨0⟩ = some 0 ∧
      ((spends numberedInstance).pre.route 0).map (fun r =>
        (r.withdrawing, r.proto.probeDefeated, r.proto.records.instanceName)) =
          some (false, true, numberedInstance) ∧
      ((spends numberedInstance).post.route 0).map (fun r =>
        (r.proto.state, r.proto.records.instanceName)) = some (.init, numberedInstance) := by
    decide +kernel
  obtain ⟨ts, e, run, hmem⟩ := contested_run numberedInstance hadmitted
  obtain ⟨r, hr, hfacts⟩ := Option.map_eq_some_iff.mp hpre
  obtain ⟨r', hr', hfacts'⟩ := Option.map_eq_some_iff.mp hpost
  rw [Prod.mk.injEq, Prod.mk.injEq] at hfacts
  rw [Prod.mk.injEq] at hfacts'
  refine ⟨ts, e, run, _, hmem, r, r', rfl, hkey, hr, hfacts.1, hfacts.2.1, hr', ?_⟩
  intro hfreely
  have hnew := (hfreely.fresh (by rw [hfacts'.1]; exact nofun)).2
  rw [hfacts'.2, hfacts.2.2] at hnew
  exact hnew rfl

end Endpoint
end Hick
