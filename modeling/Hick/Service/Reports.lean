import Mathlib
import Hick.Service.Flight
import Hick.Service.Tiebreak

/-!
# The report of an encoder (service/respond.rs:456-781, service/respond.rs:1097-1220)

An encoder reports what it pushed, and the report goes onto the commit token.
-/

namespace Hick
open Octets LabelSeq Wire Respond

/-- The kind of a parsed record among the records of a service. A PTR record at the name of a
subtype is a subtype pointer, any other one the main pointer. -/
def Wire.Ref.Shows (r : Ref) (records : ServiceRecords) : RecordKind → Prop
  | .ptr => r.rtype = .ptr ∧ ∀ sub ∈ records.subtypes, ¬Names r.name sub
  | .subtype => r.rtype = .ptr ∧ ∃ sub ∈ records.subtypes, Names r.name sub
  | .srv => r.rtype = .srv
  | .txt => r.rtype = .txt
  | .nsec => r.rtype = .nsec
  | .a addr => r.rdataView = .ok (.a addr)
  | .aaaa addr => r.rdataView = .ok (.aaaa addr)

def Message.Reads (m : Message) (sect : RecordSection) (r : Ref) : Prop :=
  ∃ reader, MessageReader.tryParse m.octets = .ok reader ∧ .ok r ∈ reader.sectionRecords sect

/-- Every record of the message can be read, each shows a kind, and the kinds and addresses
found are those of the report. -/
structure Message.Reports (m : Message) (records : ServiceRecords) (emitted : EmittedRecords) :
    Prop where
  reader : ∃ reader, MessageReader.tryParse m.octets = .ok reader ∧
    ∀ sect, ∀ item ∈ reader.sectionRecords sect, ∃ r, item = .ok r
  shows : ∀ sect r, m.Reads sect r → ∃ k, r.Shows records k
  exact : ∀ k, emitted.names k = true ↔ ∃ sect r, m.Reads sect r ∧ r.Shows records k

structure Wire.Ref.Transmitted (r : Ref) (records : ServiceRecords) (sect : RecordSection) :
    Prop where
  owner : ¬r.Shows records .subtype →
    ∃ owner, emittedOwnerName records r.rtype = some owner ∧ Names r.name owner
  envelope : r.rtype ≠ .ptr → transmittedEnvelope r.rtype sect r.cacheFlush = true
  rdata : r.rtype = .srv ∨ r.rtype = .txt ∨ r.rtype = .nsec →
    ∃ form ∈ transmittedRdataForms records r.rtype, r.canonicalRdataFolded = .ok form

def Message.names (m : Message) : List Name := m.entries.flatMap Entry.names

/-- A message of a size that compression can address, with no two suffixes of one hash among
its names and those of the service. -/
structure Message.Sound (m : Message) (records : ServiceRecords) : Prop where
  size : m.octets.length ≤ 16384
  suffixes : NoSuffixCollision (ownNames records ++ m.names)

section
variable (records : ServiceRecords)

theorem Names.iff (n : NameRef) (a b : Name) (h : Names n a) :
    Names n b ↔ a.labels = b.labels := by
  unfold Names at h ⊢
  rw [h, labels_map_ok]

theorem mem_emitted (ttl : UInt32) (flush : Bool) (emitted : EmittedRecords) (e : RecordEntry) :
    e ∈ emitted.answers records ttl flush ++ emitted.additional records →
      e = ptrEntry records ttl ∨ (∃ sub ∈ records.subtypes, e = subtypeEntry records ttl sub) ∨
        e = srvEntry records .answer ttl flush ∨ e = txtEntry records .answer ttl flush ∨
        (∃ ip ∈ emitted.a, e = aEntry records .answer ttl flush ip) ∨
        (∃ ip ∈ emitted.aaaa, e = aaaaEntry records .answer ttl flush ip) ∨
        e = nsecEntry records := by
  have hflag : ∀ (b : Bool) (x : RecordEntry), e ∈ (if b then [x] else []) → e = x := by
    intro b x h
    cases b with
    | false => cases h
    | true => exact List.mem_singleton.mp h
  intro h
  unfold EmittedRecords.answers EmittedRecords.additional at h
  simp only [List.mem_append, List.mem_map] at h
  rcases h with (h | h | h | h | ⟨ip, hip, rfl⟩ | ⟨ip, hip, rfl⟩) | h
  · exact .inl (hflag _ _ h)
  · split at h
    · obtain ⟨sub, hsub, rfl⟩ := List.mem_map.mp h
      exact .inr (.inl ⟨sub, hsub, rfl⟩)
    · cases h
  · exact .inr (.inr (.inl (hflag _ _ h)))
  · exact .inr (.inr (.inr (.inl (hflag _ _ h))))
  · exact .inr (.inr (.inr (.inr (.inl ⟨ip, hip, rfl⟩))))
  · exact .inr (.inr (.inr (.inr (.inr (.inl ⟨ip, hip, rfl⟩)))))
  · exact .inr (.inr (.inr (.inr (.inr (.inr (hflag _ _ h))))))

theorem shows_iff (ttl : UInt32) (flush : Bool) (emitted : EmittedRecords) (e : RecordEntry)
    (he : e ∈ emitted.answers records ttl flush ++ emitted.additional records) (r : Ref)
    (hr : Wire.Reads r e) (k : RecordKind) :
    r.Shows records k ↔ e.kindOf records = some k := by
  obtain ⟨v, hv, hviews⟩ := hr.view
  have htype := hr.rtype
  have hname := fun sub => Names.iff r.name e.owner sub hr.name
  rcases mem_emitted records ttl flush emitted e he with rfl | ⟨sub, hsub, rfl⟩ | rfl | rfl |
    ⟨ip, _, rfl⟩ | ⟨ip, _, rfl⟩ | rfl
  · obtain ⟨n, rfl, -⟩ := hviews
    have htype : r.rtype = .ptr := htype
    have hmain : ∀ sub ∈ records.subtypes, ¬Names r.name sub := by
      intro sub hsub hn
      exact records.subtype_ne_type sub hsub ((hname sub).mp hn).symm
    rw [kindOf_ptrEntry]
    cases k <;> simp [Ref.Shows, htype, hv]
    · exact hmain
    · exact hmain
  · obtain ⟨n, rfl, -⟩ := hviews
    have htype : r.rtype = .ptr := htype
    have hat : Names r.name sub := (hname sub).mpr rfl
    rw [kindOf_subtypeEntry records ttl sub hsub]
    cases k <;> simp [Ref.Shows, htype, hv]
    · exact ⟨sub, hsub, hat⟩
    · exact ⟨sub, hsub, hat⟩
  · obtain ⟨n, rfl, -⟩ := hviews
    have htype : r.rtype = .srv := htype
    rw [kindOf_srvEntry]
    cases k <;> simp [Ref.Shows, htype, hv]
  · have htype : r.rtype = .txt := htype
    have hv' : v = .txt (txtOctets records.txt) := hviews
    rw [kindOf_txtEntry]
    cases k <;> simp [Ref.Shows, htype, hv, hv']
  · have htype : r.rtype = .a := htype
    have hv' : v = .a ip := hviews
    rw [kindOf_aEntry]
    cases k <;> simp [Ref.Shows, htype, hv, hv']
  · have htype : r.rtype = .aaaa := htype
    have hv' : v = .aaaa ip := hviews
    rw [kindOf_aaaaEntry]
    cases k <;> simp [Ref.Shows, htype, hv, hv']
  · obtain ⟨n, rfl, -⟩ := hviews
    have htype : r.rtype = .nsec := htype
    rw [kindOf_nsecEntry]
    cases k <;> simp [Ref.Shows, htype, hv]

theorem kindOf_isSome (ttl : UInt32) (flush : Bool) (emitted : EmittedRecords) (e : RecordEntry)
    (he : e ∈ emitted.answers records ttl flush ++ emitted.additional records) :
    ∃ k, e.kindOf records = some k := by
  rcases mem_emitted records ttl flush emitted e he with rfl | ⟨sub, hsub, rfl⟩ | rfl | rfl |
    ⟨ip, _, rfl⟩ | ⟨ip, _, rfl⟩ | rfl
  · exact ⟨_, kindOf_ptrEntry records ttl⟩
  · exact ⟨_, kindOf_subtypeEntry records ttl sub hsub⟩
  · exact ⟨_, kindOf_srvEntry records _ ttl flush⟩
  · exact ⟨_, kindOf_txtEntry records _ ttl flush⟩
  · exact ⟨_, kindOf_aEntry records _ ttl flush ip⟩
  · exact ⟨_, kindOf_aaaaEntry records _ ttl flush ip⟩
  · exact ⟨_, kindOf_nsecEntry records⟩

theorem transmitted_of_reads (ttl : UInt32) (emitted : EmittedRecords) (e : RecordEntry)
    (he : e ∈ emitted.answers records ttl true ++ emitted.additional records) (r : Ref)
    (hr : Wire.Reads r e) : r.Transmitted records e.sect := by
  have htype := hr.rtype
  have hflush := hr.cacheFlush
  have hrdata := hr.canonical .folded
  have hname := hr.name
  have hfits := hr.fits
  have hshows := shows_iff records ttl true emitted e he r hr .subtype
  rcases mem_emitted records ttl true emitted e he with rfl | ⟨sub, hsub, rfl⟩ | rfl | rfl |
    ⟨ip, _, rfl⟩ | ⟨ip, _, rfl⟩ | rfl
  · have htype : r.rtype = .ptr := htype
    refine ⟨fun _ => ⟨_, by rw [htype]; rfl, hname⟩, fun h => absurd htype h, ?_⟩
    rw [htype]
    simp
  · have htype : r.rtype = .ptr := htype
    refine ⟨fun h => ?_, fun h => absurd htype h, ?_⟩
    · exact absurd (hshows.mpr (kindOf_subtypeEntry records ttl sub hsub)) h
    · rw [htype]
      simp
  · have htype : r.rtype = .srv := htype
    refine ⟨fun _ => ⟨_, by rw [htype]; rfl, hname⟩, fun _ => ?_, fun _ => ?_⟩
    · rw [htype, hflush]
      rfl
    · rw [htype]
      exact ⟨_, List.mem_singleton.mpr rfl, by rw [srvRdata_eq]; exact hrdata⟩
  · have htype : r.rtype = .txt := htype
    refine ⟨fun _ => ⟨_, by rw [htype]; rfl, hname⟩, fun _ => ?_, fun _ => ?_⟩
    · rw [htype, hflush]
      rfl
    · rw [htype]
      refine ⟨_, List.mem_singleton.mpr rfl, ?_⟩
      rw [writeCanonicalTxt_eq records.txt (hfits records.txt rfl)]
      exact hrdata
  · have htype : r.rtype = .a := htype
    refine ⟨fun _ => ⟨_, by rw [htype]; rfl, hname⟩, fun _ => ?_, ?_⟩
    · rw [htype, hflush]
      rfl
    · rw [htype]
      simp
  · have htype : r.rtype = .aaaa := htype
    refine ⟨fun _ => ⟨_, by rw [htype]; rfl, hname⟩, fun _ => ?_, ?_⟩
    · rw [htype, hflush]
      rfl
    · rw [htype]
      simp
  · have htype : r.rtype = .nsec := htype
    refine ⟨fun _ => ⟨_, by rw [htype]; rfl, hname⟩, fun _ => ?_, fun _ => ?_⟩
    · rw [htype, hflush]
      rfl
    · rw [htype]
      refine ⟨_, List.mem_singleton.mpr rfl, ?_⟩
      have hform := nsecIdentity_eq records (emittedNsecTypes records)
      exact hrdata.trans (congrArg Except.ok hform.symm)

theorem forall₂_mem {α β : Type} (R : α → β → Prop) (xs : List α) (ys : List β)
    (h : List.Forall₂ R xs ys) :
    (∀ x ∈ xs, ∃ y ∈ ys, R x y) ∧ ∀ y ∈ ys, ∃ x ∈ xs, R x y := by
  induction h with
  | nil => exact ⟨fun x hx => absurd hx List.not_mem_nil, fun y hy => absurd hy List.not_mem_nil⟩
  | @cons x y xs ys hxy _ ih =>
    obtain ⟨hleft, hright⟩ := ih
    constructor
    · intro a ha
      rcases List.mem_cons.mp ha with rfl | ha
      · exact ⟨y, List.mem_cons_self, hxy⟩
      · obtain ⟨b, hb, hab⟩ := hleft a ha
        exact ⟨b, List.mem_cons_of_mem _ hb, hab⟩
    · intro b hb
      rcases List.mem_cons.mp hb with rfl | hb
      · exact ⟨x, List.mem_cons_self, hxy⟩
      · obtain ⟨a, ha, hab⟩ := hright b hb
        exact ⟨a, List.mem_cons_of_mem _ ha, hab⟩

theorem reads_iff (names : List Name) (header : Header) (msg : Message) (c : Contents)
    (h : EncodedAs names header msg c) (hinj : NoSuffixCollision names)
    (hlen : msg.octets.length ≤ 16384) :
    (∃ reader, MessageReader.tryParse msg.octets = .ok reader ∧
      ∀ sect, ∀ item ∈ reader.sectionRecords sect, ∃ r, item = .ok r) ∧
    (∀ sect r, msg.Reads sect r → ∃ e ∈ c.sectionEntries sect, Wire.Reads r e) ∧
      ∀ sect, ∀ e ∈ c.sectionEntries sect, ∃ r, msg.Reads sect r ∧ Wire.Reads r e := by
  obtain ⟨hparse, hreads⟩ := h.reads hinj hlen
  refine ⟨⟨_, hparse, ?_⟩, ?_, ?_⟩
  · intro sect item hitem
    obtain ⟨e, _, r, hr, _⟩ := (forall₂_mem _ _ _ (hreads.records sect)).1 item hitem
    exact ⟨r, hr⟩
  · intro sect r hr
    obtain ⟨reader, hreader, hmem⟩ := hr
    rw [hparse] at hreader
    cases hreader
    obtain ⟨e, he, r', hr', hreads', _⟩ := (forall₂_mem _ _ _ (hreads.records sect)).1 _ hmem
    cases hr'
    exact ⟨e, he, hreads'⟩
  · intro sect e he
    obtain ⟨item, hitem, r, rfl, hreads', _⟩ := (forall₂_mem _ _ _ (hreads.records sect)).2 e he
    exact ⟨r, ⟨_, hparse, hitem⟩, hreads'⟩

theorem mem_sectionEntries (questions : List QuestionEntry) (ttl : UInt32) (flush : Bool)
    (emitted : EmittedRecords) (e : RecordEntry) :
    (∃ sect, e ∈ (emitted.contents records questions ttl flush).sectionEntries sect) ↔
      e ∈ emitted.answers records ttl flush ++ emitted.additional records := by
  rw [List.mem_append]
  constructor
  · rintro ⟨sect, h⟩
    cases sect with
    | answer => exact .inl h
    | authority => cases h
    | additional => exact .inr h
  · rintro (h | h)
    · exact ⟨.answer, h⟩
    · exact ⟨.additional, h⟩

theorem sectionEntries_sect (c : Contents) (sect : RecordSection) (e : RecordEntry)
    (h : e ∈ c.sectionEntries sect) : e.sect = sect := by
  cases sect with
  | answer => exact c.answers_sect e h
  | authority => exact c.authority_sect e h
  | additional => exact c.additional_sect e h

theorem EncodedAs.reports (names : List Name) (header : Header) (msg : Message)
    (questions : List QuestionEntry) (ttl : UInt32) (flush : Bool) (emitted : EmittedRecords)
    (hsub : emitted.subtypes = !records.subtypes.isEmpty)
    (h : EncodedAs names header msg (emitted.contents records questions ttl flush))
    (hinj : NoSuffixCollision names) (hlen : msg.octets.length ≤ 16384) :
    msg.Reports records emitted := by
  obtain ⟨hparse, hfound, hall⟩ := reads_iff names header msg _ h hinj hlen
  have hmem := mem_sectionEntries records questions ttl flush emitted
  refine ⟨hparse, ?_, ?_⟩
  · intro sect r hr
    obtain ⟨e, he, hreads⟩ := hfound sect r hr
    have he' := (hmem e).mp ⟨sect, he⟩
    obtain ⟨k, hk⟩ := kindOf_isSome records ttl flush emitted e he'
    exact ⟨k, (shows_iff records ttl flush emitted e he' r hreads k).mpr hk⟩
  · intro k
    rw [names_iff_entries records ttl flush emitted hsub k]
    constructor
    · intro hk
      obtain ⟨e, he, hkind⟩ := hk
      obtain ⟨sect, hsect⟩ := (hmem e).mpr he
      obtain ⟨r, hr, hreads⟩ := hall sect e hsect
      exact ⟨sect, r, hr, (shows_iff records ttl flush emitted e he r hreads k).mpr hkind⟩
    · intro hk
      obtain ⟨sect, r, hr, hshows⟩ := hk
      obtain ⟨e, he, hreads⟩ := hfound sect r hr
      have he' := (hmem e).mp ⟨sect, he⟩
      exact ⟨e, he', (shows_iff records ttl flush emitted e he' r hreads k).mp hshows⟩

theorem EncodedAs.found (names : List Name) (header : Header) (msg : Message)
    (questions : List QuestionEntry) (ttl : UInt32) (flush : Bool) (emitted : EmittedRecords)
    (h : EncodedAs names header msg (emitted.contents records questions ttl flush))
    (hinj : NoSuffixCollision names) (hlen : msg.octets.length ≤ 16384) (sect : RecordSection)
    (r : Ref) (hr : msg.Reads sect r) :
    ∃ e ∈ emitted.answers records ttl flush ++ emitted.additional records,
      e.sect = sect ∧ Wire.Reads r e := by
  obtain ⟨_, hfound, _⟩ := reads_iff names header msg _ h hinj hlen
  obtain ⟨e, he, hreads⟩ := hfound sect r hr
  exact ⟨e, (mem_sectionEntries records questions ttl flush emitted e).mp ⟨sect, he⟩,
    sectionEntries_sect _ sect e he, hreads⟩

inductive Reported (out : Bytes) : SendClass → Message → EmittedRecords → Prop
  | announcement (msg : Message) (nsec : Bool)
    (h : writeAnnounce records out = .ok (msg, nsec)) :
    Reported out .multicast msg (announced records nsec)
  | response (hintMatches : ResourceType → Bytes → Bool) (msg : Message)
    (emitted : EmittedRecords)
    (h : writeAnnounceFiltered records out hintMatches = .ok (msg, emitted)) :
    Reported out .multicast msg emitted
  | legacy (queryId : UInt16) (qname : Name) (qtype : ResourceType) (qclass : ResourceClass)
    (msg : Message) (emitted : EmittedRecords)
    (h : writeLegacyResponse records queryId qname qtype qclass out = .ok (msg, emitted)) :
    Reported out .unicast msg emitted

theorem own_subset (names : List Name) : ∀ n ∈ ownNames records, n ∈ ownNames records ++ names :=
  fun _ h => List.mem_append_left _ h

theorem Reported.reports (out : Bytes) (cls : SendClass) (msg : Message)
    (emitted : EmittedRecords) (h : Reported records out cls msg emitted)
    (hs : msg.Sound records) : msg.Reports records emitted := by
  have hown := own_subset records msg.names
  cases h with
  | announcement _ nsec h =>
    have hspec := writeAnnounce_spec records _ hown out msg nsec h
    exact EncodedAs.reports records _ _ msg _ _ _ _ rfl hspec hs.suffixes hs.size
  | response hintMatches _ _ h =>
    obtain ⟨heq, hspec⟩ := writeAnnounceFiltered_spec records _ hown out hintMatches msg emitted h
    have hsub : emitted.subtypes = !records.subtypes.isEmpty := by rw [heq]; rfl
    exact EncodedAs.reports records _ _ msg _ _ _ _ hsub hspec hs.suffixes hs.size
  | legacy queryId qname qtype qclass _ _ h =>
    -- the question is one of the entries, so its name is among those of the message
    obtain ⟨_, hentries⟩ := writeLegacyResponse_spec records (qname :: ownNames records)
      (fun _ h => List.mem_cons_of_mem _ h) queryId qname List.mem_cons_self qtype qclass out msg
      emitted h
    have hq : qname ∈ ownNames records ++ msg.names := by
      refine List.mem_append_right _ (List.mem_flatMap.mpr ⟨.question ⟨qname, qtype, qclass, false⟩,
        ?_, List.mem_singleton.mpr rfl⟩)
      rw [hentries.entries]
      exact List.mem_append_left _ (List.mem_singleton.mpr rfl)
    obtain ⟨heq, hspec⟩ := writeLegacyResponse_spec records _ hown queryId qname hq qtype qclass
      out msg emitted h
    have hsub : emitted.subtypes = !records.subtypes.isEmpty := by rw [heq]; rfl
    exact EncodedAs.reports records _ _ msg _ _ _ _ hsub hspec hs.suffixes hs.size

theorem Reported.found (out : Bytes) (msg : Message) (emitted : EmittedRecords)
    (h : Reported records out .multicast msg emitted) (hs : msg.Sound records)
    (sect : RecordSection) (r : Ref) (hr : msg.Reads sect r) :
    ∃ e ∈ emitted.answers records records.ttlSecs true ++ emitted.additional records,
      e.sect = sect ∧ Wire.Reads r e := by
  have hown := own_subset records msg.names
  cases h with
  | announcement _ nsec h =>
    have hspec := writeAnnounce_spec records _ hown out msg nsec h
    exact EncodedAs.found records _ _ msg _ _ _ _ hspec hs.suffixes hs.size sect r hr
  | response hintMatches _ _ h =>
    obtain ⟨_, hspec⟩ := writeAnnounceFiltered_spec records _ hown out hintMatches msg emitted h
    exact EncodedAs.found records _ _ msg _ _ _ _ hspec hs.suffixes hs.size sect r hr

theorem Reported.transmitted (out : Bytes) (msg : Message) (emitted : EmittedRecords)
    (h : Reported records out .multicast msg emitted) (hs : msg.Sound records)
    (sect : RecordSection) (r : Ref) (hr : msg.Reads sect r) : r.Transmitted records sect := by
  obtain ⟨e, he, hsect, hreads⟩ := h.found records out msg emitted hs sect r hr
  have htrans := transmitted_of_reads records records.ttlSecs emitted e he r hreads
  rwa [hsect] at htrans

theorem Reported.isResponse (out : Bytes) (msg : Message) (emitted : EmittedRecords)
    (h : Reported records out .multicast msg emitted) (hs : msg.Sound records)
    (reader : MessageReader) (hreader : MessageReader.tryParse msg.octets = .ok reader) :
    reader.header.flags.isResponse = true := by
  have hown := own_subset records msg.names
  have hall : ∀ c, EncodedAs (ownNames records ++ msg.names) responseHeader msg c →
      reader.header.flags.isResponse = true := by
    intro c hspec
    obtain ⟨hparse, _⟩ := hspec.reads hs.suffixes hs.size
    rw [hparse] at hreader
    cases hreader
    have hflags : msg.header.flags = responseHeader.flags := hspec.flags
    change msg.header.flags.isResponse = true
    rw [hflags]
    decide
  cases h with
  | announcement _ nsec h => exact hall _ (writeAnnounce_spec records _ hown out msg nsec h)
  | response hintMatches _ _ h =>
    exact hall _ (writeAnnounceFiltered_spec records _ hown out hintMatches msg emitted h).2

theorem Reported.addresses (out : Bytes) (cls : SendClass) (msg : Message)
    (emitted : EmittedRecords) (h : Reported records out cls msg emitted) :
    (∀ ip ∈ emitted.a, ip ∈ records.aAddrs) ∧ ∀ ip ∈ emitted.aaaa, ip ∈ records.aaaaAddrs := by
  cases h with
  | announcement _ nsec h => exact ⟨fun _ h => h, fun _ h => h⟩
  | response hintMatches _ _ h =>
    obtain ⟨heq, _⟩ := writeAnnounceFiltered_spec records _ (fun _ h => h) out hintMatches msg
      emitted h
    rw [heq]
    exact ⟨fun _ h => (List.mem_filter.mp h).1, fun _ h => (List.mem_filter.mp h).1⟩
  | legacy queryId qname qtype qclass _ _ h =>
    obtain ⟨heq, _⟩ := writeLegacyResponse_spec records (qname :: ownNames records)
      (fun _ h => List.mem_cons_of_mem _ h) queryId qname List.mem_cons_self qtype qclass out msg
      emitted h
    rw [heq]
    exact ⟨fun _ h => h, fun _ h => h⟩

end

section
variable {I R : Type} {EV : Type → Type} [Instant I] [SeedableRng R] [Pool EV]

theorem Service.polled_reported (s : Service I R EV) (now : I) (out : Bytes) (sent : Sent)
    (h : (s.pollTransmit now out).2 = .ok (some sent)) :
    ∃ token, (s.pollTransmit now out).1.awaitingConfirm = some token ∧
      (token = .probe ∨ token = .metaResponse ∨ ∃ emitted cls,
        token.emitted = some (emitted, cls) ∧
          Reported s.records out cls sent.message emitted) := by
  have heff := s.pollTransmit_effect now out
  have hsent : sentOf (s.pollTransmit now out).2 = some sent := by
    rw [h]
    rfl
  have htoken : (s.pollTransmit now out).1.core.awaitingConfirm =
    (s.pollTransmit now out).1.awaitingConfirm := rfl
  rw [hsent] at heff
  rw [← htoken]
  generalize (s.pollTransmit now out).1.core = c at heff
  cases heff with
  | metaReply ht metaName hm msg he => exact ⟨_, rfl, .inr (.inl rfl)⟩
  | legacyReply ht hl legacy rest ho msg token he =>
    unfold encodeLegacy at he
    split at he
    · split at he
      · cases he
      · cases he
        exact ⟨_, rfl, .inr (.inl rfl)⟩
    · split at he
      · cases he
      · rename_i emitted hw
        cases he
        exact ⟨_, rfl, .inr (.inr ⟨emitted, .unicast, rfl, .legacy _ _ _ _ _ _ hw⟩)⟩
  | probe ht hl legacy ho hp msg he => exact ⟨_, rfl, .inl rfl⟩
  | announcement ht hl legacy ho hp msg nsec he =>
    exact ⟨_, rfl, .inr (.inr ⟨_, .multicast, rfl, .announcement _ _ he⟩)⟩
  | response ht hl legacy ho hp msg emitted he hne =>
    exact ⟨_, rfl, .inr (.inr ⟨emitted, .multicast, rfl, .response _ _ _ he⟩)⟩

/-- What an encoder of announcements, responses or one-shot replies reports is what a reader finds
in its message, kind by kind and address by address, and a poll puts the report on the commit token.
-/
theorem report_is_the_message (records : ServiceRecords) (out : Bytes) :
    (∀ cls msg emitted, Reported records out cls msg emitted → msg.Sound records →
      msg.Reports records emitted ∧
        (cls = .multicast → ∀ sect r, msg.Reads sect r → r.Transmitted records sect)) ∧
    (∀ rtype, ∀ form ∈ transmittedRdataForms records rtype,
      form ∈ canonicalRdataForms records rtype) ∧
    ∀ (s : Service I R EV) (now : I) (sent : Sent), s.records = records →
      (s.pollTransmit now out).2 = .ok (some sent) →
        ∃ token, (s.pollTransmit now out).1.awaitingConfirm = some token ∧
          (token = .probe ∨ token = .metaResponse ∨ ∃ emitted cls,
            token.emitted = some (emitted, cls) ∧
              Reported records out cls sent.message emitted) := by
  refine ⟨?_, transmitted_subset_canonical records, ?_⟩
  · intro cls msg emitted h hs
    refine ⟨h.reports records out cls msg emitted hs, ?_⟩
    intro hcls sect r hr
    subst hcls
    exact h.transmitted records out msg emitted hs sect r hr
  · intro s now sent hrec h
    subst hrec
    exact s.polled_reported now out sent h

end

theorem encoded_ok {α : Type} (r : Except EncodeError (Message × α)) (P : Message → Bool)
    (h : r.toOption.map (fun x => P x.1) = some true) :
    ∃ msg a, r = .ok (msg, a) ∧ P msg = true := by
  cases r with
  | error e => cases h
  | ok x => exact ⟨x.1, x.2, rfl, Option.some.inj h⟩

instance (m : Message) (records : ServiceRecords) : Decidable (m.Sound records) :=
  decidable_of_iff (m.octets.length ≤ 16384 ∧ NoSuffixCollision (ownNames records ++ m.names))
    ⟨fun h => ⟨h.1, h.2⟩, fun h => ⟨h.size, h.suffixes⟩⟩

def queuedPrinter : Service Uptime ZeroRng Slab :=
  ((Session.printerAt false 0).next (Session.timer 0)).service

theorem printer_report_is_its_message :
    (∃ msg nsec, writeAnnounce .printer (List.replicate 512 0) = .ok (msg, nsec) ∧
      msg.Reports .printer (announced .printer nsec) ∧
        ∀ sect r, msg.Reads sect r → r.Transmitted .printer sect) ∧
    (∃ form ∈ transmittedRdataForms .printer .nsec, form ∈ canonicalRdataForms .printer .nsec) ∧
    ∃ sent emitted cls, (queuedPrinter.pollTransmit 0 (List.replicate 512 0)).2 = .ok (some sent) ∧
      Reported .printer (List.replicate 512 0) cls sent.message emitted := by
  have h := @report_is_the_message Uptime ZeroRng Slab _ _ _ .printer (List.replicate 512 0)
  obtain ⟨msg, nsec, hmsg, hsound⟩ := encoded_ok
    (writeAnnounce .printer (List.replicate 512 0)) (fun m => decide (m.Sound .printer))
    (by decide +kernel)
  obtain ⟨hreports, htransmitted⟩ :=
    h.1 _ msg _ (.announcement msg nsec hmsg) (of_decide_eq_true hsound)
  have hform := List.mem_singleton.mpr (rfl : emittedNsecIdentity .printer = _)
  refine ⟨⟨msg, nsec, hmsg, hreports, htransmitted rfl⟩, ⟨_, hform, h.2.1 .nsec _ hform⟩, ?_⟩
  have hpoll :
      (queuedPrinter.pollTransmit 0 (List.replicate 512 0)).2.toOption.map Option.isSome =
        some true ∧
      ((queuedPrinter.pollTransmit 0 (List.replicate 512 0)).1.awaitingConfirm.bind
        AwaitingConfirm.emitted).isSome = true := by
    decide +kernel
  obtain ⟨hsome, hset⟩ := hpoll
  cases hsent : (queuedPrinter.pollTransmit 0 (List.replicate 512 0)).2 with
  | error e =>
    rw [hsent] at hsome
    cases hsome
  | ok polled =>
    cases polled with
    | none =>
      rw [hsent] at hsome
      cases hsome
    | some sent =>
      obtain ⟨token, htoken, rfl | rfl | ⟨emitted, cls, _, hreported⟩⟩ :=
        h.2.2 queuedPrinter 0 sent rfl hsent
      · rw [htoken] at hset
        cases hset
      · rw [htoken] at hset
        cases hset
      · exact ⟨sent, emitted, cls, rfl, hreported⟩

end Hick
