import Mathlib
import Hick.Matching
import Hick.Service.Ledger
import Hick.Service.RespondSpec

/-!
# What a datagram of a service carries

The records of a message are told apart by kind, relative to the names of the service that wrote it.
-/

namespace Hick
open Octets LabelSeq Wire Respond

def Wire.RecordEntry.kindOf (r : RecordEntry) (records : ServiceRecords) : Option RecordKind :=
  match r.data with
  | .ptr target =>
    if !target.sameOwner records.instanceName then none
    else if r.owner.sameOwner records.serviceType then some .ptr
    else if records.subtypes.any fun sub => r.owner.sameOwner sub then some .subtype
    else none
  | .srv .. => if r.owner.sameOwner records.instanceName then some .srv else none
  | .txt _ => if r.owner.sameOwner records.instanceName then some .txt else none
  | .nsec .. => if r.owner.sameOwner records.instanceName then some .nsec else none
  | .a addr => if r.owner.sameOwner records.host then some (.a addr) else none
  | .aaaa addr => if r.owner.sameOwner records.host then some (.aaaa addr) else none

def Message.Carries (m : Message) (records : ServiceRecords) (k : RecordKind) : Prop :=
  ∃ r, .record r ∈ m.entries ∧ r.sect ≠ .authority ∧ r.kindOf records = some k

def Wire.RecordEntry.IsUnique (r : RecordEntry) : Prop :=
  r.sect ≠ .authority ∧ 0 < r.ttl ∧ r.data.rtype ≠ .ptr

def Message.ClaimsUnique (m : Message) : Prop :=
  m.header.flags.isResponse = true ∧ ∃ r, .record r ∈ m.entries ∧ r.IsUnique

def Wire.Entry.asRecord : Entry → Option RecordEntry
  | .question _ => none
  | .record r => some r

def Message.records (m : Message) : List RecordEntry := m.entries.filterMap Entry.asRecord

theorem Message.mem_records (m : Message) (r : RecordEntry) :
    r ∈ m.records ↔ .record r ∈ m.entries := by
  simp only [records, List.mem_filterMap]
  constructor
  · rintro ⟨e, he, hr⟩
    cases e with
    | question q => cases hr
    | record r' =>
      cases hr
      exact he
  · exact fun h => ⟨_, h, rfl⟩

instance (r : RecordEntry) : Decidable r.IsUnique := by
  unfold RecordEntry.IsUnique
  infer_instance

instance (m : Message) : Decidable m.ClaimsUnique :=
  decidable_of_iff (m.header.flags.isResponse = true ∧ ∃ r ∈ m.records, r.IsUnique) (by
    simp only [Message.ClaimsUnique, Message.mem_records])

def Message.OnlyEnumerates (m : Message) (records : ServiceRecords) : Prop :=
  ∀ r, .record r ∈ m.entries → r.data = .ptr records.serviceType ∧
    Name.tryFromStr dnsSdMetaQueryName = .ok r.owner

section
variable (records : ServiceRecords)

theorem kindOf_ptrEntry (ttl : UInt32) : (ptrEntry records ttl).kindOf records = some .ptr := by
  simp only [RecordEntry.kindOf, ptrEntry, Name.sameOwner_refl, Bool.not_true,
    Bool.false_eq_true, if_false, if_true]

theorem kindOf_subtypeEntry (ttl : UInt32) (sub : Name) (h : sub ∈ records.subtypes) :
    (subtypeEntry records ttl sub).kindOf records = some .subtype := by
  have hne : sub.sameOwner records.serviceType = false := by
    rw [Bool.eq_false_iff, Ne, Name.sameOwner_iff]
    exact records.subtype_ne_type sub h
  have hany : (records.subtypes.any fun s => sub.sameOwner s) = true :=
    List.any_eq_true.mpr ⟨sub, h, sub.sameOwner_refl⟩
  simp only [RecordEntry.kindOf, subtypeEntry, Name.sameOwner_refl, Bool.not_true,
    Bool.false_eq_true, if_false, hne, hany, if_true]

theorem kindOf_srvEntry (sect : RecordSection) (ttl : UInt32) (flush : Bool) :
    (srvEntry records sect ttl flush).kindOf records = some .srv := by
  simp only [RecordEntry.kindOf, srvEntry, Name.sameOwner_refl, if_true]

theorem kindOf_txtEntry (sect : RecordSection) (ttl : UInt32) (flush : Bool) :
    (txtEntry records sect ttl flush).kindOf records = some .txt := by
  simp only [RecordEntry.kindOf, txtEntry, Name.sameOwner_refl, if_true]

theorem kindOf_nsecEntry : (nsecEntry records).kindOf records = some .nsec := by
  simp only [RecordEntry.kindOf, nsecEntry, Name.sameOwner_refl, if_true]

theorem kindOf_aEntry (sect : RecordSection) (ttl : UInt32) (flush : Bool) (addr : Ipv4Addr) :
    (aEntry records sect ttl flush addr).kindOf records = some (.a addr) := by
  simp only [RecordEntry.kindOf, aEntry, Name.sameOwner_refl, if_true]

theorem kindOf_aaaaEntry (sect : RecordSection) (ttl : UInt32) (flush : Bool)
    (addr : Ipv6Addr) : (aaaaEntry records sect ttl flush addr).kindOf records =
      some (.aaaa addr) := by
  simp only [RecordEntry.kindOf, aaaaEntry, Name.sameOwner_refl, if_true]

theorem kindOf_metaEntry (hreg : Registrable records) (r : RecordEntry)
    (h : r.data = .ptr records.serviceType) : r.kindOf records = none := by
  have hne : records.serviceType.sameOwner records.instanceName = false := by
    rw [Bool.eq_false_iff, Ne, Name.sameOwner_iff]
    exact records.type_ne_instance hreg
  simp only [RecordEntry.kindOf, h, hne, Bool.not_false, if_true]

theorem names_iff_entries (ttl : UInt32) (flush : Bool) (e : EmittedRecords)
    (hsub : e.subtypes = !records.subtypes.isEmpty) (k : RecordKind) :
    e.names k = true ↔
      ∃ r ∈ e.answers records ttl flush ++ e.additional records, r.kindOf records = some k := by
  have hone : ∀ (b : Bool) (r : RecordEntry) (k' : RecordKind), r.kindOf records = some k' →
      ((∃ x ∈ (if b then [r] else []), x.kindOf records = some k) ↔ b = true ∧ k' = k) := by
    intro b r k' hr
    cases b with
    | false => simp
    | true => simp [hr]
  have heach : ∀ (α : Type) (xs : List α) (f : α → RecordEntry) (g : α → RecordKind),
      (∀ x ∈ xs, (f x).kindOf records = some (g x)) →
      ((∃ r ∈ xs.map f, r.kindOf records = some k) ↔ ∃ x ∈ xs, g x = k) := by
    intro α xs f g h
    constructor
    · rintro ⟨_, hr, hk⟩
      obtain ⟨x, hx, rfl⟩ := List.mem_map.mp hr
      rw [h x hx] at hk
      exact ⟨x, hx, Option.some.inj hk⟩
    · rintro ⟨x, hx, rfl⟩
      exact ⟨f x, List.mem_map_of_mem hx, h x hx⟩
  have happ : ∀ xs ys : List RecordEntry,
      (∃ r ∈ xs ++ ys, r.kindOf records = some k) ↔
        (∃ r ∈ xs, r.kindOf records = some k) ∨ ∃ r ∈ ys, r.kindOf records = some k := by
    intro xs ys
    simp only [List.mem_append, or_and_right, exists_or]
  rw [EmittedRecords.answers_subtypes records ttl flush e hsub, EmittedRecords.additional]
  simp only [happ]
  rw [hone _ _ _ (kindOf_ptrEntry records ttl), hone _ _ _ (kindOf_srvEntry records _ ttl flush),
    hone _ _ _ (kindOf_txtEntry records _ ttl flush), hone _ _ _ (kindOf_nsecEntry records),
    heach _ _ _ (fun _ => .subtype) fun sub h => kindOf_subtypeEntry records ttl sub h,
    heach _ _ _ .a fun a _ => kindOf_aEntry records _ ttl flush a,
    heach _ _ _ .aaaa fun a _ => kindOf_aaaaEntry records _ ttl flush a]
  have hne : records.subtypes ≠ [] ↔ ∃ sub, sub ∈ records.subtypes :=
    ⟨List.exists_mem_of_ne_nil _, fun ⟨_, h⟩ => List.ne_nil_of_mem h⟩
  cases k <;> simp [EmittedRecords.names, hsub, hne]

theorem carries_iff_names (names : List Name) (header : Header) (msg : Message)
    (questions : List QuestionEntry) (ttl : UInt32) (flush : Bool) (e : EmittedRecords)
    (hsub : e.subtypes = !records.subtypes.isEmpty)
    (h : EncodedAs names header msg (e.contents records questions ttl flush)) (k : RecordKind) :
    msg.Carries records k ↔ e.names k = true := by
  rw [names_iff_entries records ttl flush e hsub k]
  unfold Message.Carries
  rw [h.entries]
  simp only [Contents.entries, EmittedRecords.contents, List.map_nil, List.nil_append,
    List.mem_append, List.mem_map, reduceCtorEq, and_false, exists_false, false_or,
    Entry.record.injEq, exists_eq_right]
  constructor
  · rintro ⟨r, hr, -, hk⟩
    exact ⟨r, hr, hk⟩
  · rintro ⟨r, hr, hk⟩
    refine ⟨r, hr, ?_, hk⟩
    rcases hr with hr | hr
    · rw [e.answers_sect records ttl flush r hr]
      exact fun h => by cases h
    · rw [e.additional_sect records r hr]
      exact fun h => by cases h

theorem probe_asserts_nothing (out : Bytes) (msg : Message)
    (h : writeProbe records out = .ok (msg, ())) :
    msg.header.flags.isResponse = false ∧ ∀ k, ¬msg.Carries records k := by
  have hspec := writeProbe_spec records (ownNames records) (fun _ h => h) out msg h
  refine ⟨?_, fun k => ?_⟩
  · rw [hspec.flags]
    decide
  · rintro ⟨r, hr, hs, -⟩
    rw [hspec.entries] at hr
    simp only [Contents.entries, probeContents, List.map_nil, List.append_nil, List.nil_append,
      List.mem_append, List.mem_map, reduceCtorEq, and_false, exists_false, false_or,
      Entry.record.injEq, exists_eq_right] at hr
    exact hs ((probeContents records).authority_sect r hr)

theorem metaResponse_enumerates (metaName : Name)
    (hm : Name.tryFromStr dnsSdMetaQueryName = .ok metaName) (out : Bytes) (msg : Message)
    (h : writeMetaResponse records metaName out = .ok (msg, ())) :
    msg.OnlyEnumerates records := by
  have hspec := writeMetaResponse_spec records (metaName :: ownNames records)
    (fun _ h => List.mem_cons_of_mem _ h) metaName List.mem_cons_self out msg h
  intro r hr
  rw [hspec.entries] at hr
  simp only [Contents.entries, metaContents, List.map_nil, List.map_cons, List.append_nil,
    List.nil_append, List.mem_singleton, Entry.record.injEq] at hr
  rw [hr]
  exact ⟨rfl, hm⟩

theorem OnlyEnumerates.no_claim (msg : Message) (h : msg.OnlyEnumerates records) :
    ¬msg.ClaimsUnique := by
  rintro ⟨-, r, hr, -, -, htype⟩
  rw [(h r hr).1] at htype
  exact htype rfl

theorem OnlyEnumerates.carries_nothing (hreg : Registrable records) (msg : Message)
    (h : msg.OnlyEnumerates records) (k : RecordKind) : ¬msg.Carries records k := by
  rintro ⟨r, hr, -, hk⟩
  rw [kindOf_metaEntry records hreg r (h r hr).1] at hk
  cases hk

end
end Hick
