import Mathlib
import Hick.Wire.RoundTrip

/-!
# Messages from calls of the push methods (wire/builder.rs:152-608)

A message is what a sequence of push calls, in section order, left in the buffer. Reading it
gives the questions and the records of those calls back.
-/

namespace Hick
open Octets LabelSeq Wire EncodeM MessageBuilder

def suffixPool (names : List Name) (ls : List Label) : Prop :=
  ls ≠ [] ∧ ∃ n ∈ names, ls <:+ n.labels

def NoSuffixCollision (names : List Name) : Prop := NoCollision (suffixPool names)

theorem suffixPool_covers (names : List Name) (n : Name) (h : n ∈ names) :
    Covers (suffixPool names) n := fun _ hne hsuf => ⟨hne, n, h, hsuf⟩

theorem NoSuffixCollision.mono (names more : List Name) (h : NoSuffixCollision more)
    (hsub : ∀ n ∈ names, n ∈ more) : NoSuffixCollision names := by
  rintro xs ys ⟨hx, n, hn, hxn⟩ ⟨hy, k, hk, hyk⟩ heq
  exact h xs ys ⟨hx, n, hsub n hn, hxn⟩ ⟨hy, k, hsub k hk, hyk⟩ heq

def suffixList (names : List Name) : List (List Label) :=
  names.flatMap fun n => n.labels.tails.filter (· ≠ [])

theorem mem_suffixList (names : List Name) (ls : List Label) :
    ls ∈ suffixList names ↔ suffixPool names ls := by
  simp only [suffixList, suffixPool, List.mem_flatMap, List.mem_filter, List.mem_tails,
    decide_eq_true_eq]
  constructor
  · rintro ⟨n, hn, hsuf, hne⟩
    exact ⟨hne, n, hn, hsuf⟩
  · rintro ⟨hne, n, hn, hsuf⟩
    exact ⟨n, hn, hsuf, hne⟩

instance (names : List Name) : Decidable (NoSuffixCollision names) :=
  decidable_of_iff (∀ xs ∈ suffixList names, ∀ ys ∈ suffixList names,
      hashSuffix xs = hashSuffix ys → xs = ys) (by
    simp only [mem_suffixList]
    exact ⟨fun h xs ys hx hy => h xs hx ys hy, fun h xs hx ys hy => h xs ys hx hy⟩)

inductive Push where
  | question (name : Name) (qtype : ResourceType) (qclass : ResourceClass)
      (unicastResponse : Bool)
  | aAnswer (name : Name) (ttl : UInt32) (addr : Ipv4Addr) (cacheFlush : Bool)
  | aaaaAnswer (name : Name) (ttl : UInt32) (addr : Ipv6Addr) (cacheFlush : Bool)
  | srvAnswer (name : Name) (ttl : UInt32) (priority weight port : UInt16) (target : Name)
      (cacheFlush : Bool)
  | txtAnswer (name : Name) (ttl : UInt32) (segments : List Bytes) (cacheFlush : Bool)
  | ptrAnswer (name : Name) (ttl : UInt32) (target : Name)
  | aAuthority (name : Name) (ttl : UInt32) (addr : Ipv4Addr)
  | aaaaAuthority (name : Name) (ttl : UInt32) (addr : Ipv6Addr)
  | srvAuthority (name : Name) (ttl : UInt32) (priority weight port : UInt16) (target : Name)
  | txtAuthority (name : Name) (ttl : UInt32) (segments : List Bytes)
  | ptrAuthority (name : Name) (ttl : UInt32) (target : Name)
  | nsecAdditional (name : Name) (ttl : UInt32) (presentTypes : List UInt16)
      (cacheFlush : Bool)
  deriving DecidableEq

namespace Push

def call : Push → EncodeM Unit
  | question name qtype qclass unicast => pushQuestion name qtype qclass unicast
  | aAnswer name ttl addr flush => pushAAnswer name ttl addr flush
  | aaaaAnswer name ttl addr flush => pushAaaaAnswer name ttl addr flush
  | srvAnswer name ttl priority weight port target flush =>
    pushSrvAnswer name ttl priority weight port target flush
  | txtAnswer name ttl segments flush => pushTxtAnswer name ttl segments flush
  | ptrAnswer name ttl target => pushPtrAnswer name ttl target
  | aAuthority name ttl addr => pushAAuthority name ttl addr
  | aaaaAuthority name ttl addr => pushAaaaAuthority name ttl addr
  | srvAuthority name ttl priority weight port target =>
    pushSrvAuthority name ttl priority weight port target
  | txtAuthority name ttl segments => pushTxtAuthority name ttl segments
  | ptrAuthority name ttl target => pushPtrAuthority name ttl target
  | nsecAdditional name ttl types flush => pushNsecAdditional name ttl types flush

def entry : Push → Entry
  | question name qtype qclass unicast => .question ⟨name, qtype, qclass, unicast⟩
  | aAnswer name ttl addr flush => .record ⟨.answer, name, ttl, flush, .a addr⟩
  | aaaaAnswer name ttl addr flush => .record ⟨.answer, name, ttl, flush, .aaaa addr⟩
  | srvAnswer name ttl priority weight port target flush =>
    .record ⟨.answer, name, ttl, flush, .srv priority weight port target⟩
  | txtAnswer name ttl segments flush => .record ⟨.answer, name, ttl, flush, .txt segments⟩
  | ptrAnswer name ttl target => .record ⟨.answer, name, ttl, false, .ptr target⟩
  | aAuthority name ttl addr => .record ⟨.authority, name, ttl, false, .a addr⟩
  | aaaaAuthority name ttl addr => .record ⟨.authority, name, ttl, false, .aaaa addr⟩
  | srvAuthority name ttl priority weight port target =>
    .record ⟨.authority, name, ttl, false, .srv priority weight port target⟩
  | txtAuthority name ttl segments => .record ⟨.authority, name, ttl, false, .txt segments⟩
  | ptrAuthority name ttl target => .record ⟨.authority, name, ttl, false, .ptr target⟩
  | nsecAdditional name ttl types flush =>
    .record ⟨.additional, name, ttl, flush, .nsec name types⟩

theorem lays (pool : List Label → Prop) (p : Push) (h : ∀ n ∈ p.entry.names, Covers pool n) :
    Lays pool p.call [p.entry] := by
  cases p with
  | question name qtype qclass unicast =>
    exact lays_question pool ⟨name, qtype, qclass, unicast⟩ (h name (by simp [entry, Entry.names]))
  | aAnswer name ttl addr flush =>
    exact lays_a pool .answer name ttl addr flush (h name (by simp [entry, Entry.names]))
  | aaaaAnswer name ttl addr flush =>
    exact lays_aaaa pool .answer name ttl addr flush (h name (by simp [entry, Entry.names]))
  | srvAnswer name ttl priority weight port target flush =>
    exact lays_srv pool .answer name ttl priority weight port target flush
      (h name (by simp [entry, Entry.names]))
      (h target (by simp [entry, Entry.names, EntryData.names]))
  | txtAnswer name ttl segments flush =>
    exact lays_txt pool .answer name ttl segments flush (h name (by simp [entry, Entry.names]))
  | ptrAnswer name ttl target =>
    exact lays_ptr pool .answer name ttl target (h name (by simp [entry, Entry.names]))
      (h target (by simp [entry, Entry.names, EntryData.names]))
  | aAuthority name ttl addr =>
    exact lays_a pool .authority name ttl addr false (h name (by simp [entry, Entry.names]))
  | aaaaAuthority name ttl addr =>
    exact lays_aaaa pool .authority name ttl addr false (h name (by simp [entry, Entry.names]))
  | srvAuthority name ttl priority weight port target =>
    exact lays_srv pool .authority name ttl priority weight port target false
      (h name (by simp [entry, Entry.names]))
      (h target (by simp [entry, Entry.names, EntryData.names]))
  | txtAuthority name ttl segments =>
    exact lays_txt pool .authority name ttl segments false
      (h name (by simp [entry, Entry.names]))
  | ptrAuthority name ttl target =>
    exact lays_ptr pool .authority name ttl target (h name (by simp [entry, Entry.names]))
      (h target (by simp [entry, Entry.names, EntryData.names]))
  | nsecAdditional name ttl types flush =>
    exact lays_nsec pool name ttl types flush (h name (by simp [entry, Entry.names]))

end Push

def pushedNames (pushes : List Push) : List Name := pushes.flatMap fun p => p.entry.names

theorem pushes_lay (pushes : List Push) :
    Lays (suffixPool (pushedNames pushes)) (pushEach Push.call pushes)
      (pushes.map Push.entry) := by
  refine lays_each _ Push.call Push.entry pushes ?_
  intro p hp
  refine p.lays _ ?_
  intro n hn
  exact suffixPool_covers _ n (List.mem_flatMap.mpr ⟨p, hp, hn⟩)

def sectionRank : Entry → Nat
  | .question _ => 0
  | .record r =>
    match r.sect with
    | .answer => 1
    | .authority => 2
    | .additional => 3

def SectionOrder (es : List Entry) : Prop := es.Pairwise fun x y => sectionRank x ≤ sectionRank y

instance (es : List Entry) : Decidable (SectionOrder es) := by
  unfold SectionOrder
  infer_instance

def questionOf : Entry → Option QuestionEntry
  | .question q => some q
  | .record _ => none

def recordOf (s : RecordSection) : Entry → Option RecordEntry
  | .question _ => none
  | .record r => if r.sect = s then some r else none

def questionsOf (es : List Entry) : List QuestionEntry := es.filterMap questionOf

def recordsOf (es : List Entry) (s : RecordSection) : List RecordEntry :=
  es.filterMap (recordOf s)

theorem recordsOf_sect (es : List Entry) (s : RecordSection) :
    ∀ r ∈ recordsOf es s, r.sect = s := by
  intro r hr
  obtain ⟨e, _, he⟩ := List.mem_filterMap.mp hr
  cases e with
  | question q => cases he
  | record r' =>
    rw [recordOf, Option.ite_none_right_eq_some] at he
    obtain ⟨hs, hr'⟩ := he
    rw [← Option.some.inj hr', hs]

def contentsOf (es : List Entry) : Contents where
  questions := questionsOf es
  answers := recordsOf es .answer
  authority := recordsOf es .authority
  additional := recordsOf es .additional
  answers_sect := recordsOf_sect es .answer
  authority_sect := recordsOf_sect es .authority
  additional_sect := recordsOf_sect es .additional

theorem questionsOf_nil (es : List Entry) (h : ∀ e ∈ es, 0 < sectionRank e) :
    questionsOf es = [] := by
  rw [questionsOf, List.filterMap_eq_nil_iff]
  intro e he
  cases e with
  | question q => exact absurd (h _ he) (by simp [sectionRank])
  | record r => rfl

theorem recordsOf_nil (es : List Entry) (s : RecordSection)
    (h : ∀ e ∈ es, ∀ r : RecordEntry, r.sect = s → sectionRank (.record r) < sectionRank e) :
    recordsOf es s = [] := by
  rw [recordsOf, List.filterMap_eq_nil_iff]
  intro e he
  cases e with
  | question q => rfl
  | record r =>
    rw [recordOf, if_neg]
    intro hs
    exact absurd (h _ he r hs) (lt_irrefl _)

theorem recordsOf_record (r : RecordEntry) (es : List Entry) (s : RecordSection) :
    recordsOf (.record r :: es) s =
      if r.sect = s then r :: recordsOf es s else recordsOf es s := by
  rw [recordsOf, List.filterMap_cons, recordOf]
  by_cases h : r.sect = s
  · rw [if_pos h, if_pos h]
    rfl
  · rw [if_neg h, if_neg h]
    rfl

theorem contentsOf_entries (es : List Entry) (h : SectionOrder es) :
    (contentsOf es).entries = es := by
  unfold SectionOrder at h
  induction h with
  | nil => rfl
  | @cons e es hle _ ih =>
    have hkeep : (contentsOf (e :: es)).entries = e :: (contentsOf es).entries := by
      cases e with
      | question q => rfl
      | record r =>
        have hq : questionsOf es = [] := by
          refine questionsOf_nil es fun x hx => lt_of_lt_of_le ?_ (hle x hx)
          rw [sectionRank]
          split <;> omega
        have hbelow : ∀ s, sectionRank (.record { r with sect := s }) < sectionRank (.record r) →
            recordsOf es s = [] := by
          intro s hlt
          refine recordsOf_nil es s fun x hx r' hs => lt_of_lt_of_le ?_ (hle x hx)
          rw [sectionRank, hs]
          exact hlt
        have hq' : questionsOf (.record r :: es) = [] := hq
        simp only [Contents.entries, contentsOf, hq, hq', recordsOf_record]
        cases hs : r.sect with
        | answer => rfl
        | authority =>
          have ha := hbelow .answer (by simp [sectionRank, hs])
          rw [ha]
          rfl
        | additional =>
          have ha := hbelow .answer (by simp [sectionRank, hs])
          have hn := hbelow .authority (by simp [sectionRank, hs])
          rw [ha, hn]
          rfl
    rw [hkeep, ih]

def composed (out : Bytes) (header : Header) (pushes : List Push) : Except EncodeError Bytes :=
  match tryNew out header with
  | .error e => .error e
  | .ok b =>
    match (pushEach Push.call pushes).exec b with
    | (.error e, _) => .error e
    | (.ok _, b') => finish b'

theorem composed_ok (out : Bytes) (header : Header) (pushes : List Push) (msg : Bytes)
    (h : composed out header pushes = .ok msg) :
    ∃ b b', tryNew out header = .ok b ∧ (pushEach Push.call pushes).exec b = (.ok (), b') ∧
      finish b' = .ok msg := by
  unfold composed at h
  cases hb : tryNew out header with
  | error e =>
    rw [hb] at h
    cases h
  | ok b =>
    rw [hb] at h
    cases hp : (pushEach Push.call pushes).exec b with
    | mk r b' =>
      simp only [hp] at h
      cases r with
      | error e => cases h
      | ok u => exact ⟨b, b', rfl, hp, h⟩

theorem composed_emission (out : Bytes) (header : Header) (pushes : List Push)
    (b b' : MessageBuilder) (hnew : tryNew out header = .ok b)
    (hexec : (pushEach Push.call pushes).exec b = (.ok (), b')) :
    Emission (suffixPool (pushedNames pushes)) b b' (pushes.map Push.entry)
      (fun m => EntriesAt m b.cursor b'.cursor (pushes.map Push.entry)) := by
  obtain ⟨hcap, rfl⟩ := tryNew_ok out header b hnew
  exact pushes_lay pushes _ b' hcap hexec

theorem classBits_question (e : QuestionEntry) :
    questionClassBits e &&& ~~~cacheFlushBit = e.qclass.toU16 &&& ~~~cacheFlushBit ∧
      (questionClassBits e &&& unicastResponseBit != 0) =
        (e.unicastResponse || (e.qclass.toU16 &&& unicastResponseBit != 0)) := by
  have hdist : ∀ a b c : UInt16, (a ||| b) &&& c = (a &&& c) ||| (b &&& c) := fun a b c =>
    UInt16.toBitVec_inj.mp BitVec.and_or_distrib_right
  unfold questionClassBits
  rw [hdist, hdist]
  cases e.unicastResponse with
  | false =>
    have hmask : (if false = true then unicastResponseBit else 0) &&& ~~~cacheFlushBit = 0 := by
      decide
    have hbit : (if false = true then unicastResponseBit else 0) &&& unicastResponseBit = 0 := by
      decide
    rw [hmask, hbit, UInt16.or_zero, UInt16.or_zero, Bool.false_or]
    exact ⟨rfl, rfl⟩
  | true =>
    have hmask : (if true = true then unicastResponseBit else 0) &&& ~~~cacheFlushBit = 0 := by
      decide
    rw [hmask, UInt16.or_zero, Bool.true_or]
    refine ⟨rfl, ?_⟩
    rw [bne_iff_ne, ne_eq, UInt16.or_eq_zero_iff]
    intro h
    exact absurd h.2 (by decide)

/-- The question `q` asks what `e` was pushed to ask: the same name and type code, and the class
code without its top bit, which is the unicast-response bit on the wire. -/
structure AsksFor (q : QuestionRef) (e : QuestionEntry) : Prop where
  qname : Names q.qname e.name
  qtype : q.qtype.toU16 = e.qtype.toU16
  qclass : q.qclass.toU16 = e.qclass.toU16 &&& ~~~cacheFlushBit
  unicast : q.unicastResponse =
    (e.unicastResponse || (e.qclass.toU16 &&& unicastResponseBit != 0))
  readable : ResourceType.fromU16 e.qtype.toU16 = e.qtype →
    ResourceClass.fromU16 e.qclass.toU16 = e.qclass →
      q.qtype = e.qtype ∧ q.qclass = e.qclass ∧ q.unicastResponse = e.unicastResponse

theorem toU16_fromU16Raw (v : UInt16) : (ResourceClass.fromU16Raw v).toU16 = v := by
  unfold ResourceClass.fromU16Raw
  split
  · rename_i h
    exact h.symm
  · split
    · rename_i h
      exact h.symm
    · rfl

theorem asksFor_of_reads (q : QuestionRef) (e : QuestionEntry) (h : ReadsQuestion q e) :
    AsksFor q e := by
  obtain ⟨hmask, hbit⟩ := classBits_question e
  have hclass : q.qclass = ResourceClass.fromU16 e.qclass.toU16 := by
    rw [h.qclass, ResourceClass.fromU16, hmask]
    rfl
  refine ⟨h.qname, ?_, ?_, ?_, ?_⟩
  · rw [h.qtype, ResourceType.toU16_fromU16]
  · rw [hclass, ResourceClass.fromU16, toU16_fromU16Raw]
  · rw [h.unicast, hbit]
  · intro htype hread
    refine ⟨h.qtype.trans htype, hclass.trans hread, ?_⟩
    have hcode := congrArg ResourceClass.toU16 hread
    rw [ResourceClass.fromU16, toU16_fromU16Raw] at hcode
    have hclear : e.qclass.toU16 &&& unicastResponseBit = 0 := by
      rw [← hcode, UInt16.and_assoc]
      have hzero : ~~~cacheFlushBit &&& unicastResponseBit = 0 := by decide
      rw [hzero, UInt16.and_zero]
    rw [h.unicast, hbit, hclear, bne_self_eq_false, Bool.or_false]

def Asks (item : Except ParseError QuestionRef) (e : QuestionEntry) : Prop :=
  ∃ q, item = .ok q ∧ AsksFor q e

structure Counts (h header : Header) (es : List Entry) : Prop where
  id : h.id = header.id
  flags : h.flags = header.flags
  questions : h.questionCount.toNat = (questionsOf es).length
  records : ∀ s, (h.recordCount s).toNat = (recordsOf es s).length

theorem countEntry_keeps (es : List Entry) (h : Header) :
    (es.foldl Header.countEntry h).id = h.id ∧
      (es.foldl Header.countEntry h).flags = h.flags := by
  induction es generalizing h with
  | nil => exact ⟨rfl, rfl⟩
  | cons e es ih =>
    obtain ⟨hid, hflags⟩ := ih (h.countEntry e)
    rw [List.foldl_cons, hid, hflags]
    cases e with
    | question q => exact ⟨rfl, rfl⟩
    | record r =>
      simp only [Header.countEntry, Header.countRecord]
      cases r.sect <;> exact ⟨rfl, rfl⟩

/-- The reader of a message yields what was pushed into it, in order. -/
theorem pushes_read_back (out : Bytes) (header : Header) (pushes : List Push) (msg : Bytes)
    (hzero : header.questionCount = 0 ∧ ∀ s, header.recordCount s = 0)
    (horder : SectionOrder (pushes.map Push.entry))
    (hmsg : composed out header pushes = .ok msg) (hlen : msg.length ≤ 16384)
    (hsuffix : NoSuffixCollision (pushedNames pushes)) :
    ∃ reader, MessageReader.tryParse msg = .ok reader ∧
      Counts reader.header header (pushes.map Push.entry) ∧
      List.Forall₂ Asks reader.questions (questionsOf (pushes.map Push.entry)) ∧
      ∀ s, List.Forall₂ (IsRecord msg) (reader.sectionRecords s)
        (recordsOf (pushes.map Push.entry) s) := by
  obtain ⟨b, b', hnew, hexec, hfin⟩ := composed_ok out header pushes msg hmsg
  have hem := composed_emission out header pushes b b' hnew hexec
  have hheader : b'.header = (pushes.map Push.entry).foldl Header.countEntry b.header := hem.header
  rw [← contentsOf_entries _ horder] at hem
  obtain ⟨hparse, hreads, hq, hs⟩ :=
    message_reads _ hsuffix out header b b' (contentsOf _) msg hzero hnew hem hfin hlen
  obtain ⟨hid, hflags⟩ := countEntry_keeps (pushes.map Push.entry) b.header
  obtain ⟨_, rfl⟩ := tryNew_ok out header b hnew
  refine ⟨_, hparse, ⟨?_, ?_, hq, ?_⟩, ?_, ?_⟩
  · exact (congrArg Header.id hheader).trans hid
  · exact (congrArg Header.flags hheader).trans hflags
  · intro s
    cases s <;> exact hs _
  · refine hreads.questions.imp ?_
    intro item e h
    obtain ⟨q, hq, hr⟩ := h
    exact ⟨q, hq, asksFor_of_reads q e hr⟩
  · intro s
    have h := hreads.records s
    cases s <;> exact h

def printerPushes : List Push :=
  [.question ServiceRecords.printerType .ptr .in_ true,
    .ptrAnswer ServiceRecords.printerType 120 ServiceRecords.printerInstance,
    .srvAnswer ServiceRecords.printerInstance 120 0 0 631 ServiceRecords.printerHost true]

theorem printer_pushes_read_back :
    ∃ msg reader, composed (List.replicate 128 0) Header.new printerPushes = .ok msg ∧
      MessageReader.tryParse msg = .ok reader ∧
      Counts reader.header Header.new (printerPushes.map Push.entry) ∧
      List.Forall₂ Asks reader.questions (questionsOf (printerPushes.map Push.entry)) ∧
      ∀ s, List.Forall₂ (IsRecord msg) (reader.sectionRecords s)
        (recordsOf (printerPushes.map Push.entry) s) := by
  have hfits : ((composed (List.replicate 128 0) Header.new printerPushes).toOption.map
      List.length).any (· ≤ 16384) = true := by decide +kernel
  cases hmsg : composed (List.replicate 128 0) Header.new printerPushes with
  | error e =>
    rw [hmsg] at hfits
    cases hfits
  | ok msg =>
    rw [hmsg] at hfits
    have hlen : msg.length ≤ 16384 := of_decide_eq_true hfits
    obtain ⟨reader, hread⟩ := pushes_read_back (List.replicate 128 0) Header.new printerPushes msg
      ⟨rfl, fun s => by cases s <;> rfl⟩ (by decide) hmsg hlen (by decide +kernel)
    exact ⟨msg, reader, rfl, hread⟩

/-- The counts that a header brings along stay in the message, and the top bit of a question's
class reads as its unicast-response bit. -/
theorem prefilled_header_reads_short :
    (∃ reader, (composed (List.replicate 64 0) { Header.new with questionCount := 1 } []).map
          MessageReader.tryParse = .ok (.ok reader) ∧
        reader.header.questionCount = 1 ∧ reader.questions.length = 1) ∧
      ∃ reader q, (composed (List.replicate 64 0) Header.new
          [.question ⟨[], by decide, by decide⟩ .a (.unknown 0x8001) false]).map
          MessageReader.tryParse = .ok (.ok reader) ∧
        reader.questions = [.ok q] ∧ q.qclass = .in_ ∧ q.unicastResponse = true :=
  ⟨⟨_, rfl, rfl, rfl⟩, _, _, rfl, rfl, rfl, rfl⟩

end Hick
