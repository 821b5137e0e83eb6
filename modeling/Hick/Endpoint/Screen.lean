import Mathlib
import Hick.Endpoint.Relinquished

/-!
# The records a set has put on the wire

A record set screens what arrives exactly as one of the records it has carried was sent, PTR
records apart. The identities of the set say the same thing record by record.
-/

namespace Hick
open Octets LabelSeq Wire Respond

/-- The record is owned by `name`: its labels are those of `name`, up to case. -/
def OwnedBy (r : Ref) (name : Name) : Prop :=
  ∃ ls : List Bytes, r.name.labels = ls.map .ok ∧ ls.map lower = name.labels

theorem advance_nonempty (message : Bytes) (octets hops cursor : Nat) (l : Bytes)
    (h : (NameLabels.advance message octets hops cursor).1 = some (.ok l)) : l ≠ [] := by
  fun_induction NameLabels.advance message octets hops cursor
  case case7 kind _ hne _ _ label hslice _ _ _ _ =>
    simp only [Option.some.injEq, Except.ok.injEq] at h
    subst h
    intro hnil
    apply hne
    apply Fin.ext
    have hlen := (slice_length _ _ _ _ hslice).1
    rw [hnil] at hlen
    exact hlen.symm
  case case11 ih => exact ih h
  all_goals cases h

theorem items_nonempty (fuel : Nat) (it : NameLabels) (l : Bytes)
    (h : .ok l ∈ NameLabels.items fuel it) : l ≠ [] := by
  induction fuel generalizing it with
  | zero => cases h
  | succ fuel ih =>
    unfold NameLabels.items at h
    cases hnext : it.next with
    | mk item rest =>
      rw [hnext] at h
      cases item with
      | none => cases h
      | some x =>
        rcases List.mem_cons.mp h with hx | hrest
        · subst hx
          unfold NameLabels.next at hnext
          split at hnext
          · cases hnext
          · exact advance_nonempty _ _ _ _ l (congrArg Prod.fst hnext)
        · exact ih rest hrest

theorem namesMatch_owner (stored : Name) (n : NameRef) :
    namesMatch stored n = true ↔ stored.text ≠ [] ∧
      ∃ ls : List Bytes, n.labels = ls.map .ok ∧ ls.map lower = stored.labels := by
  unfold namesMatch namesMatchStr
  rw [labelsMatch_iff]
  by_cases hroot : stored.text = []
  · simp only [hroot, ne_eq, not_true_eq_false, false_and, iff_false, not_exists, not_and]
    intro ls hls hlow
    have hsplit : splitDot (trim ([] : Bytes)) = [[]] := by decide
    rw [hsplit, List.map_singleton, List.map_eq_singleton_iff] at hlow
    obtain ⟨l, rfl, hl⟩ := hlow
    have hmem : .ok l ∈ n.labels := by
      rw [hls]
      simp
    exact items_nonempty _ _ l hmem ((lower_eq_nil l).mp hl)
  · have hlab : splitDot (trim stored.text) = stored.labels := (if_neg hroot).symm
    rw [hlab, map_lower_labels]
    simp only [ne_eq, hroot, not_false_eq_true, true_and]

theorem namesMatchRecord_iff (stored : Name) (r : Ref) :
    namesMatchRecord stored r = true ↔ stored.text ≠ [] ∧ OwnedBy r stored :=
  namesMatch_owner stored r.name

theorem OwnedBy.root_iff (r : Ref) (name : Name) (h : OwnedBy r name) :
    name.text = [] ↔ r.name.labels = [] := by
  obtain ⟨ls, hls, hlow⟩ := h
  rw [hls, ← name.labels_eq_nil, ← hlow, List.map_eq_nil_iff, List.map_eq_nil_iff]

theorem OwnedBy.congr (r : Ref) (a b : Name) (h : a.labels = b.labels) :
    OwnedBy r a ↔ OwnedBy r b := by
  unfold OwnedBy
  rw [h]

def Wire.RecordEntry.identity (e : RecordEntry) : Identity :=
  ⟨e.owner, e.data.rtype, e.data.canonical⟩

/-- A record set and what each family has carried of it. No message carries a TXT record with
a segment that does not fit. -/
structure RecordSet where
  records : ServiceRecords
  emitted : PerFamily EmittedRecords
  txtFits : ∀ f : Family, (f.pick emitted).txt = true → ∀ s ∈ records.txt, s.length ≤ 255

def RecordSet.carried (set : RecordSet) (f : Family) : List RecordEntry :=
  (f.pick set.emitted).answers set.records set.records.ttlSecs true ++
    (f.pick set.emitted).additional set.records

/-- The record is the one sent as `e`, in the section and with the bit that `e` was sent with. -/
structure ArrivesAs (r : Ref) (sect : RecordSection) (e : RecordEntry) : Prop where
  rclass : r.rclass = .in_
  sect : sect = e.sect
  cacheFlush : r.cacheFlush = e.cacheFlush
  owner : OwnedBy r e.owner
  rtype : r.rtype = e.data.rtype
  rdata : r.canonicalRdataFolded = .ok e.data.canonical

theorem mem_carried (set : RecordSet) (f : Family) (e : RecordEntry) :
    e ∈ set.carried f ↔
      ((f.pick set.emitted).ptr = true ∧ e = ptrEntry set.records set.records.ttlSecs) ∨
      ((f.pick set.emitted).subtypes = true ∧
        ∃ sub ∈ set.records.subtypes, e = subtypeEntry set.records set.records.ttlSecs sub) ∨
      ((f.pick set.emitted).srv = true ∧
        e = srvEntry set.records .answer set.records.ttlSecs true) ∨
      ((f.pick set.emitted).txt = true ∧
        e = txtEntry set.records .answer set.records.ttlSecs true) ∨
      (∃ ip ∈ (f.pick set.emitted).a, e = aEntry set.records .answer set.records.ttlSecs true ip) ∨
      (∃ ip ∈ (f.pick set.emitted).aaaa,
        e = aaaaEntry set.records .answer set.records.ttlSecs true ip) ∨
      ((f.pick set.emitted).nsec = true ∧ e = nsecEntry set.records) := by
  have hflag : ∀ (b : Bool) (x : RecordEntry),
      e ∈ (if b then [x] else []) ↔ b = true ∧ e = x := by
    intro b x
    cases b <;> simp
  have hsub : e ∈ (if (f.pick set.emitted).subtypes then
        set.records.subtypes.map (subtypeEntry set.records set.records.ttlSecs) else []) ↔
      (f.pick set.emitted).subtypes = true ∧
        ∃ sub ∈ set.records.subtypes, e = subtypeEntry set.records set.records.ttlSecs sub := by
    cases (f.pick set.emitted).subtypes <;> simp [eq_comm]
  have hmap : ∀ {α : Type} (g : α → RecordEntry) (xs : List α),
      e ∈ xs.map g ↔ ∃ x ∈ xs, e = g x := by
    intro α g xs
    simp [eq_comm]
  unfold RecordSet.carried EmittedRecords.answers EmittedRecords.additional
  simp only [List.mem_append, hflag, hsub, hmap, or_assoc]

theorem identities_mem (records : ServiceRecords) (emitted : EmittedRecords) (i : Identity) :
    i ∈ identities records emitted ↔
      (∃ ip ∈ emitted.a, i = ⟨records.host, .a, ip.octets⟩) ∨
      (∃ ip ∈ emitted.aaaa, i = ⟨records.host, .aaaa, ip.octets⟩) ∨
      ∃ rtype, instanceRtypeExposed emitted rtype = true ∧
        ∃ form ∈ transmittedRdataForms records rtype, i = ⟨records.instanceName, rtype, form⟩ := by
  have hflag : ∀ (b : Bool) (xs : List Identity),
      i ∈ (if b then xs else []) ↔ b = true ∧ i ∈ xs := by
    intro b xs
    cases b <;> simp
  unfold identities
  simp only [List.mem_append, List.mem_map, List.mem_flatMap, hflag, @eq_comm _ _ i]
  refine or_congr_right (or_congr_right ?_)
  constructor
  · intro h
    obtain ⟨rtype, _, hexposed, form, hform, hi⟩ := h
    exact ⟨rtype, hexposed, form, hform, hi⟩
  · intro h
    obtain ⟨rtype, hexposed, form, hform, hi⟩ := h
    refine ⟨rtype, ?_, hexposed, form, hform, hi⟩
    cases rtype with
    | srv => simp [instanceCanonicalRtypes]
    | txt => simp [instanceCanonicalRtypes]
    | nsec => simp [instanceCanonicalRtypes]
    | _ => cases hexposed

theorem mem_identities (set : RecordSet) (f : Family) (i : Identity) :
    i ∈ identities set.records (f.pick set.emitted) ↔
      ∃ e ∈ set.carried f, e.data.rtype ≠ .ptr ∧ e.identity = i := by
  have hsrv := srvRdata_eq set.records
  have hnsec : emittedNsecIdentity set.records = _ :=
    nsecIdentity_eq set.records (emittedNsecTypes set.records)
  have htxt := fun h => writeCanonicalTxt_eq set.records.txt (set.txtFits f h)
  rw [identities_mem]
  simp only [mem_carried]
  constructor
  · intro h
    rcases h with ⟨ip, hip, rfl⟩ | ⟨ip, hip, rfl⟩ | ⟨rtype, hexposed, form, hform, rfl⟩
    · exact ⟨_, .inr (.inr (.inr (.inr (.inl ⟨ip, hip, rfl⟩)))), ResourceType.noConfusion, rfl⟩
    · exact ⟨_, .inr (.inr (.inr (.inr (.inr (.inl ⟨ip, hip, rfl⟩))))),
        ResourceType.noConfusion, rfl⟩
    · cases rtype with
      | srv =>
        rw [List.mem_singleton.mp hform, hsrv]
        exact ⟨_, .inr (.inr (.inl ⟨hexposed, rfl⟩)), ResourceType.noConfusion, rfl⟩
      | txt =>
        rw [List.mem_singleton.mp hform, htxt hexposed]
        exact ⟨_, .inr (.inr (.inr (.inl ⟨hexposed, rfl⟩))), ResourceType.noConfusion, rfl⟩
      | nsec =>
        rw [List.mem_singleton.mp hform, hnsec]
        exact ⟨_, .inr (.inr (.inr (.inr (.inr (.inr ⟨hexposed, rfl⟩))))),
          ResourceType.noConfusion, rfl⟩
      | _ => cases hexposed
  · intro h
    obtain ⟨e, he, hptr, rfl⟩ := h
    rcases he with ⟨_, rfl⟩ | ⟨_, sub, _, rfl⟩ | ⟨hs, rfl⟩ | ⟨ht, rfl⟩ | ⟨ip, hip, rfl⟩ |
      ⟨ip, hip, rfl⟩ | ⟨hn, rfl⟩
    · exact absurd rfl hptr
    · exact absurd rfl hptr
    · exact .inr (.inr ⟨.srv, hs, _, List.mem_singleton.mpr rfl, by rw [hsrv]; rfl⟩)
    · exact .inr (.inr ⟨.txt, ht, _, List.mem_singleton.mpr rfl, by rw [htxt ht]; rfl⟩)
    · exact .inl ⟨ip, hip, rfl⟩
    · exact .inr (.inl ⟨ip, hip, rfl⟩)
    · exact .inr (.inr ⟨.nsec, hn, _, List.mem_singleton.mpr rfl, by rw [hnsec]; rfl⟩)

theorem arrivesAsWritten_iff (r : Ref) (sect : RecordSection) :
    arrivesAsWritten r sect = true ↔
      r.rclass = .in_ ∧ transmittedEnvelope r.rtype sect r.cacheFlush = true := by
  unfold arrivesAsWritten
  rw [Bool.and_eq_true, beq_iff_eq]

theorem carried_envelope (set : RecordSet) (f : Family) (e : RecordEntry) (he : e ∈ set.carried f)
    (hptr : e.data.rtype ≠ .ptr) (sect : RecordSection) (flush : Bool) :
    transmittedEnvelope e.data.rtype sect flush = true ↔ sect = e.sect ∧ flush = e.cacheFlush := by
  rcases (mem_carried set f e).mp he with ⟨_, rfl⟩ | ⟨_, sub, _, rfl⟩ | ⟨_, rfl⟩ | ⟨_, rfl⟩ |
    ⟨ip, _, rfl⟩ | ⟨ip, _, rfl⟩ | ⟨_, rfl⟩
  · exact absurd rfl hptr
  · exact absurd rfl hptr
  all_goals
    cases sect <;> cases flush <;>
      simp [transmittedEnvelope, EntryData.rtype, srvEntry, txtEntry, aEntry, aaaaEntry, nsecEntry]

theorem arrivesAs_iff (set : RecordSet) (f : Family) (e : RecordEntry) (he : e ∈ set.carried f)
    (hptr : e.data.rtype ≠ .ptr) (r : Ref) (sect : RecordSection) (hroot : r.name.labels ≠ []) :
    ArrivesAs r sect e ↔ arrivesAsWritten r sect = true ∧ e.identity.matches r = true := by
  have hpeer : ∀ bytes : Bytes, peerRdata r = some bytes ↔ r.canonicalRdataFolded = .ok bytes := by
    intro bytes
    unfold peerRdata
    cases r.canonicalRdataFolded with
    | error err => simp [Except.toOption]
    | ok out => simp [Except.toOption]
  have hmatch : e.identity.matches r = true ↔
      (r.rtype = e.data.rtype ∧ OwnedBy r e.owner) ∧
        r.canonicalRdataFolded = .ok e.data.canonical := by
    unfold Identity.matches
    rw [Bool.and_eq_true, Bool.and_eq_true, beq_iff_eq, beq_iff_eq, hpeer, namesMatchRecord_iff]
    refine and_congr_left fun _ => and_congr_right fun _ => ?_
    exact ⟨fun h => h.2, fun h => ⟨fun ht => hroot ((h.root_iff r _).mp ht), h⟩⟩
  rw [arrivesAsWritten_iff, hmatch]
  constructor
  · intro h
    have henv := (carried_envelope set f e he hptr sect r.cacheFlush).mpr ⟨h.sect, h.cacheFlush⟩
    rw [← h.rtype] at henv
    exact ⟨⟨h.rclass, henv⟩, ⟨h.rtype, h.owner⟩, h.rdata⟩
  · intro h
    obtain ⟨⟨hclass, henv⟩, ⟨hrtype, howner⟩, hrdata⟩ := h
    rw [hrtype] at henv
    obtain ⟨hsect, hflush⟩ := (carried_envelope set f e he hptr sect r.cacheFlush).mp henv
    exact ⟨hclass, hsect, hflush, howner, hrtype, hrdata⟩

theorem map_eq_ok {ε α β : Type} (x : Except ε α) (g : α → β) (b : β) (h : x.map g = .ok b) :
    ∃ a, g a = b := by
  cases x with
  | error e => cases h
  | ok a => exact ⟨a, Except.ok.inj h⟩

theorem rdataView_a (r : Ref) (ip : Ipv4Addr) :
    r.rdataView = .ok (.a ip) ↔ r.rtype = .a ∧ peerRdata r = some ip.octets := by
  unfold peerRdata Ref.canonicalRdataFolded Ref.writeCanonicalRdata
  cases hr : r.rtype with
  | a =>
    simp only [Ref.rdataView, hr, aTryFromRdata, true_and]
    by_cases hlen : r.rdata.length = 4
    · rw [dif_pos hlen]
      simp only [Except.map, Except.toOption, Except.ok.injEq, Rdata.a.injEq, Option.some.injEq]
      constructor
      · intro h
        rw [← h]
      · intro h
        cases ip
        cases h
        rfl
    · rw [dif_neg hlen]
      simp [Except.map, Except.toOption]
  | _ =>
    simp only [reduceCtorEq, false_and, iff_false]
    intro h
    simp only [Ref.rdataView, hr] at h
    first
      | (cases h)
      | (obtain ⟨_, hv⟩ := map_eq_ok _ _ _ h
         cases hv)

theorem rdataView_aaaa (r : Ref) (ip : Ipv6Addr) :
    r.rdataView = .ok (.aaaa ip) ↔ r.rtype = .aaaa ∧ peerRdata r = some ip.octets := by
  unfold peerRdata Ref.canonicalRdataFolded Ref.writeCanonicalRdata
  cases hr : r.rtype with
  | aaaa =>
    simp only [Ref.rdataView, hr, aaaaTryFromRdata, true_and]
    by_cases hlen : r.rdata.length = 16
    · rw [dif_pos hlen]
      simp only [Except.map, Except.toOption, Except.ok.injEq, Rdata.aaaa.injEq,
        Option.some.injEq]
      constructor
      · intro h
        rw [← h]
      · intro h
        cases ip
        cases h
        rfl
    · rw [dif_neg hlen]
      simp [Except.map, Except.toOption]
  | _ =>
    simp only [reduceCtorEq, false_and, iff_false]
    intro h
    simp only [Ref.rdataView, hr] at h
    first
      | (cases h)
      | (obtain ⟨_, hv⟩ := map_eq_ok _ _ _ h
         cases hv)

theorem assertsAddress_iff (emitted : EmittedRecords) (r : Ref) :
    assertsAddress emitted r = true ↔
      (∃ ip ∈ emitted.a, r.rdataView = .ok (.a ip)) ∨
        ∃ ip ∈ emitted.aaaa, r.rdataView = .ok (.aaaa ip) := by
  unfold assertsAddress
  split
  · rename_i addr h
    simp only [h, List.contains_iff_mem, Except.ok.injEq, Rdata.a.injEq, reduceCtorEq, and_false,
      exists_false, or_false, exists_eq_right']
  · rename_i addr h
    simp only [h, List.contains_iff_mem, Except.ok.injEq, Rdata.aaaa.injEq, reduceCtorEq,
      and_false, exists_false, false_or, exists_eq_right']
  · rename_i ha haaaa
    simp only [Bool.false_eq_true, false_iff, not_or, not_exists, not_and]
    exact ⟨fun ip _ h => ha ip h, fun ip _ h => haaaa ip h⟩

theorem assertsInstance_iff (records : ServiceRecords) (emitted : EmittedRecords) (r : Ref) :
    assertsInstance records emitted r = true ↔
      namesMatchRecord records.instanceName r = true ∧
        instanceRtypeExposed emitted r.rtype = true ∧
          ∃ form ∈ transmittedRdataForms records r.rtype, peerRdata r = some form := by
  unfold assertsInstance
  rw [← and_assoc, ← Bool.and_eq_true]
  cases namesMatchRecord records.instanceName r && instanceRtypeExposed emitted r.rtype with
  | false => simp
  | true =>
    rw [if_pos rfl]
    cases peerRdata r with
    | none => simp
    | some peer =>
      simp only [List.any_eq_true, beq_iff_eq, true_and, Option.some.injEq, @eq_comm _ peer]

theorem asserts_iff (records : ServiceRecords) (emitted : PerFamily EmittedRecords) (r : Ref)
    (f : Family) (sect : RecordSection) :
    asserts records emitted r f sect = true ↔ arrivesAsWritten r sect = true ∧
      ∃ i ∈ identities records (f.pick emitted), i.matches r = true := by
  have hmatch : ∀ (owner : Name) (rtype : ResourceType) (rdata : Bytes),
      (Identity.mk owner rtype rdata).matches r = true ↔
        r.rtype = rtype ∧ namesMatchRecord owner r = true ∧ peerRdata r = some rdata := by
    intro owner rtype rdata
    unfold Identity.matches
    simp only [Bool.and_eq_true, beq_iff_eq, and_assoc]
  have hsplit : asserts records emitted r f sect = true ↔ arrivesAsWritten r sect = true ∧
      ((namesMatchRecord records.host r = true ∧ assertsAddress (f.pick emitted) r = true) ∨
        assertsInstance records (f.pick emitted) r = true) := by
    unfold asserts
    cases arrivesAsWritten r sect with
    | false => simp
    | true =>
      rw [← Bool.and_eq_true]
      cases namesMatchRecord records.host r && assertsAddress (f.pick emitted) r <;> simp
  rw [hsplit, assertsAddress_iff, assertsInstance_iff]
  simp only [identities_mem, rdataView_a, rdataView_aaaa]
  refine and_congr_right fun _ => ?_
  constructor
  · intro h
    rcases h with ⟨hn, ⟨ip, hip, ht, hp⟩ | ⟨ip, hip, ht, hp⟩⟩ | ⟨hn, hexposed, form, hform, hp⟩
    · exact ⟨_, .inl ⟨ip, hip, rfl⟩, (hmatch _ _ _).mpr ⟨ht, hn, hp⟩⟩
    · exact ⟨_, .inr (.inl ⟨ip, hip, rfl⟩), (hmatch _ _ _).mpr ⟨ht, hn, hp⟩⟩
    · exact ⟨_, .inr (.inr ⟨_, hexposed, form, hform, rfl⟩), (hmatch _ _ _).mpr ⟨rfl, hn, hp⟩⟩
  · intro h
    obtain ⟨i, ⟨ip, hip, rfl⟩ | ⟨ip, hip, rfl⟩ | ⟨rtype, hexposed, form, hform, rfl⟩, hm⟩ := h
    · obtain ⟨ht, hn, hp⟩ := (hmatch _ _ _).mp hm
      exact .inl ⟨hn, .inl ⟨ip, hip, ht, hp⟩⟩
    · obtain ⟨ht, hn, hp⟩ := (hmatch _ _ _).mp hm
      exact .inl ⟨hn, .inr ⟨ip, hip, ht, hp⟩⟩
    · obtain ⟨ht, hn, hp⟩ := (hmatch _ _ _).mp hm
      subst ht
      exact .inr ⟨hn, hexposed, form, hform, hp⟩

end Hick
