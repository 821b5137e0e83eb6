import Mathlib
import Hick.Wire.Reader
import Hick.Wire.Checkpoint
import Hick.Wire.PushSpec

/-!
# What was pushed is what is read

A message laid out as `EntriesAt` describes is read back by `MessageReader` as those entries: owner
labels, type, class, cache-flush bit, TTL and decompressed rdata.
-/

namespace Hick.Wire
open Octets LabelSeq EncodeM MessageBuilder

def EntryData.canonical : EntryData → Bytes
  | .a addr => addr.octets
  | .aaaa addr => addr.octets
  | .ptr target => wireOctets target.labels
  | .srv priority weight port target =>
    be16 priority ++ be16 weight ++ be16 port ++ wireOctets target.labels
  | .txt segments => txtOctets segments
  | .nsec nextName presentTypes => wireOctets nextName.labels ++ bitmapOctets presentTypes

def Names (n : NameRef) (name : Name) : Prop := n.labels = name.labels.map .ok

def Views (v : Rdata) : EntryData → Prop
  | .a addr => v = .a addr
  | .aaaa addr => v = .aaaa addr
  | .ptr target => ∃ n, v = .ptr n ∧ Names n target
  | .srv priority weight port target =>
    ∃ n, v = .srv ⟨priority, weight, port, n⟩ ∧ Names n target
  | .txt segments => v = .txt (txtOctets segments)
  | .nsec nextName presentTypes =>
    ∃ n, v = .nsec ⟨n, bitmapOctets presentTypes⟩ ∧ Names n nextName

structure ReadsQuestion (q : QuestionRef) (e : QuestionEntry) : Prop where
  qname : Names q.qname e.name
  qtype : q.qtype = ResourceType.fromU16 e.qtype.toU16
  qclass : q.qclass = ResourceClass.fromU16 (questionClassBits e)
  unicast : q.unicastResponse = (questionClassBits e &&& unicastResponseBit != 0)

structure Reads (r : Ref) (e : RecordEntry) : Prop where
  name : Names r.name e.owner
  rtype : r.rtype = e.data.rtype
  rclass : r.rclass = .in_
  cacheFlush : r.cacheFlush = e.cacheFlush
  ttl : r.ttl = e.ttl
  view : ∃ v, r.rdataView = .ok v ∧ Views v e.data
  canonical : ∀ form, r.writeCanonicalRdata form = .ok e.data.canonical
  fits : ∀ segments, e.data = .txt segments → ∀ s ∈ segments, s.length ≤ 255

variable (m : Bytes)

theorem NameAt.parse (at_ len : Nat) (name : Name)
    (h : NameAt m at_ len name.labels) (hm : m.length ≤ 16384) :
    NameRef.tryParse m at_ = .ok (⟨m, at_⟩, len) ∧ Names ⟨m, at_⟩ name := by
  obtain ⟨⟨hops, hh, hx⟩, ho⟩ := h
  have hlt := hx.lt_length m _ _ _
  exact ⟨NameRef.tryParse_of_occupies m at_ len ho (by omega),
    NameRef.labels_of_expands m at_ hops _ hx (by omega) hh name.labels_wireLen⟩

theorem Names.writeWire (n : NameRef) (name : Name) (h : Names n name) (foldCase : Bool) :
    n.writeWire foldCase = .ok (wireOctets name.labels) := by
  unfold NameRef.writeWire
  rw [h]
  refine NameRef.writeWireLoop_ok foldCase _ name.labels_plain name.labels_folded 1 ?_
  have := name.labels_wireLen
  omega

theorem txtSegments_flatMap (segments : List Bytes) (h : ∀ s ∈ segments, s.length ≤ 255)
    (fuel : Nat) (hf : (segments.flatMap prefixed).length ≤ fuel) :
    txtSegments fuel (segments.flatMap prefixed) = segments.map .ok := by
  induction segments generalizing fuel with
  | nil => cases fuel <;> rfl
  | cons s rest ih =>
    obtain ⟨hs, hrest⟩ := List.forall_mem_cons.mp h
    have hval : (Fin.ofNat 256 s.length : Byte).val = s.length := by
      simp only [Fin.ofNat]
      omega
    simp only [List.flatMap_cons, prefixed, List.cons_append, List.length_cons,
      List.length_append] at hf ⊢
    cases fuel with
    | zero => omega
    | succ fuel =>
      simp only [txtSegments, hval, List.length_append]
      rw [if_neg (by omega), List.take_left, List.drop_left, ih hrest fuel (by omega)]
      rfl

theorem canonicalTxt_ok (segments : List Bytes) :
    canonicalTxt (segments.map .ok) = .ok (segments.flatMap prefixed) := by
  induction segments with
  | nil => rfl
  | cons s rest ih => simp only [List.map_cons, canonicalTxt, ih, List.flatMap_cons, prefixed]

theorem canonicalTxt_txtOctets (segments : List Bytes) (h : ∀ s ∈ segments, s.length ≤ 255) :
    canonicalTxt (txtSegments (txtOctets segments).length (txtOctets segments)) =
        .ok (txtOctets segments) ∧
      (txtSegments (txtOctets segments).length (txtOctets segments)).isEmpty = false := by
  unfold txtOctets
  split
  · decide
  · rename_i hne
    rw [txtSegments_flatMap segments h _ (Nat.le_refl _)]
    refine ⟨canonicalTxt_ok segments, ?_⟩
    cases segments with
    | nil => exact absurd rfl hne
    | cons s rest => rfl

theorem readRecordHead_octets (rtype cls rdlen : UInt16) (ttl : UInt32) :
    readRecordHead (be16 rtype ++ (be16 cls ++ (be32 ttl ++ be16 rdlen))) =
      some (rtype, cls, ttl, rdlen) := by
  have h1 := ofBe16_be16 rtype _ _ rfl
  have h2 := ofBe16_be16 cls _ _ rfl
  have h3 := ofBe16_be16 rdlen _ _ rfl
  have h4 := ofBe32_be32 ttl _ _ _ _ rfl
  simp only [be16, be32, List.cons_append, List.nil_append, readRecordHead, h1, h2, h3, h4]

theorem recordClassBits_read (e : RecordEntry) :
    ResourceClass.fromU16 (recordClassBits e) = .in_ ∧
      (recordClassBits e &&& cacheFlushBit != 0) = e.cacheFlush := by
  unfold recordClassBits
  cases e.cacheFlush <;> decide

theorem EntryData.rtype_read (d : EntryData) : ResourceType.fromU16 d.rtype.toU16 = d.rtype := by
  cases d <;> rfl

theorem RdataAt.view (r : Ref) (d : EntryData) (hm : r.message.length ≤ 16384)
    (ht : r.rtype = d.rtype) (h : RdataAt r.message r.rdataStart r.rdataLen d) :
    ∃ v, r.rdataView = .ok v ∧ Views v d := by
  unfold Ref.rdataView
  rw [ht]
  cases d with
  | a addr =>
    obtain ⟨hlen, hs⟩ := h
    have hr : r.rdata = addr.octets := by rw [Ref.rdata, hlen, hs, Option.getD_some]
    refine ⟨.a addr, ?_, rfl⟩
    simp only [EntryData.rtype, aTryFromRdata, hr, addr.length_eq, dite_true]
    rfl
  | aaaa addr =>
    obtain ⟨hlen, hs⟩ := h
    have hr : r.rdata = addr.octets := by rw [Ref.rdata, hlen, hs, Option.getD_some]
    refine ⟨.aaaa addr, ?_, rfl⟩
    simp only [EntryData.rtype, aaaaTryFromRdata, hr, addr.length_eq, dite_true]
    rfl
  | ptr target =>
    obtain ⟨hp, hn⟩ := NameAt.parse _ _ _ target h hm
    refine ⟨.ptr ⟨r.message, r.rdataStart⟩, ?_, _, rfl, hn⟩
    simp only [EntryData.rtype, targetTryFromMessage, hp, ne_eq, not_true_eq_false, if_false]
    rfl
  | srv priority weight port target =>
    obtain ⟨n, hlen, hs, hat⟩ := h
    obtain ⟨hp, hn⟩ := NameAt.parse _ _ _ target hat hm
    refine ⟨_, ?_, _, rfl, hn⟩
    have h1 := ofBe16_be16 priority _ _ rfl
    have h2 := ofBe16_be16 weight _ _ rfl
    have h3 := ofBe16_be16 port _ _ rfl
    simp only [be16, List.cons_append, List.nil_append] at hs
    simp only [EntryData.rtype, Srv.tryFromMessage, hs, hp, h1, h2, h3]
    rw [if_neg (by omega), if_neg (by omega)]
    rfl
  | txt segments =>
    obtain ⟨_, hs⟩ := h
    refine ⟨_, rfl, ?_⟩
    simp only [Views, Ref.rdata, hs, Option.getD_some]
  | nsec nextName presentTypes =>
    obtain ⟨n, hlen, hat, hs⟩ := h
    obtain ⟨hp, hn⟩ := NameAt.parse _ _ _ nextName hat hm
    refine ⟨.nsec ⟨⟨r.message, r.rdataStart⟩, bitmapOctets presentTypes⟩, ?_, _, rfl, hn⟩
    have hsub : r.rdataStart + r.rdataLen - (r.rdataStart + n) =
        (bitmapOctets presentTypes).length := by omega
    simp only [EntryData.rtype, Nsec.tryFromMessage, hp, hsub, hs]
    rw [if_neg (by omega)]
    rfl

theorem RdataAt.txt_lengths (at_ len : Nat) (d : EntryData)
    (h : RdataAt m at_ len d) (segments : List Bytes) (hd : d = .txt segments) :
    ∀ s ∈ segments, s.length ≤ 255 := by
  subst hd
  exact h.1

theorem Views.canonical (r : Ref) (v : Rdata) (d : EntryData) (hv : r.rdataView = .ok v)
    (h : Views v d) (hr : d.rtype = .a ∨ d.rtype = .aaaa → r.rdata = d.canonical)
    (htxt : ∀ segments, d = .txt segments → ∀ s ∈ segments, s.length ≤ 255)
    (form : RdataForm) : r.writeCanonicalRdata form = .ok d.canonical := by
  unfold Ref.writeCanonicalRdata
  rw [hv]
  cases d with
  | a addr =>
    rw [h]
    simp only [hr (.inl rfl)]
  | aaaa addr =>
    rw [h]
    simp only [hr (.inr rfl)]
  | ptr target =>
    obtain ⟨n, rfl, hn⟩ := h
    exact hn.writeWire n target _
  | srv priority weight port target =>
    obtain ⟨n, rfl, hn⟩ := h
    simp only [hn.writeWire n target]
    rfl
  | txt segments =>
    rw [h]
    obtain ⟨hc, he⟩ := canonicalTxt_txtOctets segments (htxt segments rfl)
    simp only [hc, he, Bool.false_and, Bool.false_eq_true, if_false]
    rfl
  | nsec nextName presentTypes =>
    obtain ⟨n, rfl, hn⟩ := h
    simp only [hn.writeWire n nextName]
    rfl

theorem RecordAt.parse (at_ next : Nat) (e : RecordEntry)
    (h : RecordAt m at_ next e) (hm : m.length ≤ 16384) :
    ∃ r, Ref.tryParse m at_ = .ok (r, next) ∧ Reads r e ∧ r.message = m := by
  obtain ⟨len, rdlen, hname, hhead, hnext, hfit, hdata⟩ := h.layout
  obtain ⟨hp, hn⟩ := NameAt.parse m at_ len e.owner hname hm
  obtain ⟨hcls, hflush⟩ := recordClassBits_read e
  have hparse : Ref.tryParse m at_ = .ok (
      { message := m
        name := ⟨m, at_⟩
        rtype := e.data.rtype
        rclass := .in_
        cacheFlush := e.cacheFlush
        ttl := e.ttl
        rdataStart := at_ + len + 10
        rdataLen := rdlen.toNat }, next) := by
    simp only [Ref.tryParse, hp, hhead, Option.bind_some, readRecordHead_octets]
    rw [if_neg (by omega), hcls, hflush, e.data.rtype_read, hnext]
  refine ⟨_, hparse, ?_, rfl⟩
  obtain ⟨v, hv, hview⟩ := RdataAt.view
    { message := m, name := ⟨m, at_⟩, rtype := e.data.rtype, rclass := .in_,
      cacheFlush := e.cacheFlush, ttl := e.ttl, rdataStart := at_ + len + 10,
      rdataLen := rdlen.toNat } e.data hm rfl hdata
  refine ⟨hn, rfl, rfl, rfl, rfl, ⟨v, hv, hview⟩, fun form => ?_, hdata.txt_lengths m _ _ _⟩
  refine Views.canonical _ v e.data hv hview ?_ (hdata.txt_lengths m _ _ _) form
  intro htype
  cases hd : e.data with
  | a addr =>
    rw [hd] at hdata
    obtain ⟨hl, hs⟩ := hdata
    rw [Ref.rdata, hl, hs]
    rfl
  | aaaa addr =>
    rw [hd] at hdata
    obtain ⟨hl, hs⟩ := hdata
    rw [Ref.rdata, hl, hs]
    rfl
  | _ => simp [hd, EntryData.rtype] at htype

theorem QuestionAt.parse (at_ next : Nat) (q : QuestionEntry)
    (h : QuestionAt m at_ next q) (hm : m.length ≤ 16384) :
    ∃ r, QuestionRef.tryParse m at_ = .ok (r, next) ∧ ReadsQuestion r q := by
  obtain ⟨len, hname, hnext, htype, hcls⟩ := h.layout
  obtain ⟨hp, hn⟩ := NameAt.parse m at_ len q.name hname hm
  refine ⟨⟨⟨m, at_⟩, ResourceType.fromU16 q.qtype.toU16,
    ResourceClass.fromU16 (questionClassBits q),
    questionClassBits q &&& unicastResponseBit != 0⟩, ?_, hn, rfl, rfl, rfl⟩
  simp only [QuestionRef.tryParse, hp, htype, hcls, hnext]

theorem EntriesAt.split (at_ next : Nat) (xs ys : List Entry)
    (h : EntriesAt m at_ next (xs ++ ys)) :
    ∃ mid, EntriesAt m at_ mid xs ∧ EntriesAt m mid next ys := by
  induction xs generalizing at_ with
  | nil => exact ⟨at_, rfl, h⟩
  | cons x xs ih =>
    obtain ⟨k, hx, hrest⟩ := h
    obtain ⟨mid, hxs, hys⟩ := ih k hrest
    exact ⟨mid, ⟨k, hx, hxs⟩, hys⟩

theorem EntriesAt.length_le (at_ next : Nat) (es : List Entry)
    (h : EntriesAt m at_ next es) : at_ + es.length ≤ next := by
  induction es generalizing at_ with
  | nil =>
    rw [EntriesAt] at h
    simp only [List.length_nil]
    omega
  | cons e es ih =>
    obtain ⟨k, he, hes⟩ := h
    have hk := ih k hes
    simp only [List.length_cons]
    cases e with
    | question q =>
      obtain ⟨len, _, hn, _⟩ := QuestionAt.layout he
      omega
    | record r =>
      obtain ⟨len, rdlen, _, _, hn, _⟩ := RecordAt.layout he
      omega

def IsQuestion (item : Except ParseError QuestionRef) (e : QuestionEntry) : Prop :=
  ∃ q, item = .ok q ∧ ReadsQuestion q e

def IsRecord (m : Bytes) (item : Except ParseError Ref) (e : RecordEntry) : Prop :=
  ∃ r, item = .ok r ∧ Reads r e ∧ r.message = m

theorem questionItems_of_entries (hm : m.length ≤ 16384) (qs : List QuestionEntry)
    (at_ next : Nat) (h : EntriesAt m at_ next (qs.map .question)) :
    List.Forall₂ IsQuestion (questionItems m qs.length at_) qs ∧
      skipQuestions m qs.length at_ = some next := by
  induction qs generalizing at_ with
  | nil =>
    rw [List.map_nil, EntriesAt] at h
    exact ⟨.nil, congrArg some h⟩
  | cons q qs ih =>
    obtain ⟨mid, hq, hqs⟩ := h
    obtain ⟨r, hp, hr⟩ := QuestionAt.parse m at_ mid q hq hm
    obtain ⟨hi, hs⟩ := ih mid hqs
    simp only [List.length_cons, questionItems, skipQuestions, hp]
    exact ⟨.cons ⟨r, rfl, hr⟩ hi, hs⟩

theorem recordItems_of_entries (hm : m.length ≤ 16384) (es : List RecordEntry)
    (at_ next : Nat) (h : EntriesAt m at_ next (es.map .record)) :
    List.Forall₂ (IsRecord m) (recordItems m es.length at_) es ∧
      skipRecords m es.length at_ = some next := by
  induction es generalizing at_ with
  | nil =>
    rw [List.map_nil, EntriesAt] at h
    exact ⟨.nil, congrArg some h⟩
  | cons e es ih =>
    obtain ⟨mid, he, hes⟩ := h
    obtain ⟨r, hp, hr, hmsg⟩ := RecordAt.parse m at_ mid e he hm
    obtain ⟨hi, hs⟩ := ih mid hes
    simp only [List.length_cons, recordItems, skipRecords, hp]
    exact ⟨.cons ⟨r, rfl, hr, hmsg⟩ hi, hs⟩

def Entry.isQuestion : Entry → Bool
  | .question _ => true
  | .record _ => false

def Entry.inSection (s : RecordSection) : Entry → Bool
  | .question _ => false
  | .record r => r.sect = s

theorem saturatingSucc_toNat (v : UInt16) (n : Nat) (h : v.toNat = min 65535 n) :
    (saturatingSucc v).toNat = min 65535 (n + 1) := by
  unfold saturatingSucc
  split
  · rename_i hv
    have hmax : v.toNat = 65535 := by
      rw [hv]
      rfl
    generalize v.toNat = k at h hmax ⊢
    omega
  · rename_i hv
    have hne : v.toNat ≠ 65535 := fun he => hv (UInt16.toNat_inj.mp he)
    have h1 : (1 : UInt16).toNat = 1 := rfl
    rw [UInt16.toNat_add, h1]
    generalize v.toNat = k at h hne ⊢
    omega

theorem countEntry_fold (es : List Entry) (h : Header) (q : Nat) (n : RecordSection → Nat)
    (hq : h.questionCount.toNat = min 65535 q)
    (hn : ∀ s, (h.recordCount s).toNat = min 65535 (n s)) :
    (es.foldl Header.countEntry h).questionCount.toNat =
        min 65535 (q + es.countP Entry.isQuestion) ∧
      ∀ s, ((es.foldl Header.countEntry h).recordCount s).toNat =
        min 65535 (n s + es.countP (Entry.inSection s)) := by
  induction es generalizing h q n with
  | nil => exact ⟨hq, hn⟩
  | cons e es ih =>
    cases e with
    | question e =>
      obtain ⟨h1, h2⟩ := ih (h.countEntry (.question e)) (q + 1) n
        (saturatingSucc_toNat _ _ hq) 
        (fun s => by
          have hs := hn s
          cases s <;> exact hs)
      refine ⟨?_, fun s => ?_⟩
      · rw [List.foldl_cons, h1]
        simp only [List.countP_cons, Entry.isQuestion, if_true]
        omega
      · rw [List.foldl_cons, h2 s]
        simp only [List.countP_cons, Entry.inSection, Bool.false_eq_true, if_false]
        omega
    | record e =>
      have hsucc : ∀ s, ((h.countEntry (.record e)).recordCount s).toNat =
          min 65535 (n s + if e.sect = s then 1 else 0) := by
        intro s
        have hs := saturatingSucc_toNat _ _ (hn s)
        have hs' := hn s
        simp only [Header.countEntry]
        cases he : e.sect <;> cases s <;> first | exact hs | exact hs'
      obtain ⟨h1, h2⟩ := ih (h.countEntry (.record e)) q
        (fun s => n s + if e.sect = s then 1 else 0)
        (by cases he : e.sect <;> simpa [Header.countEntry, Header.countRecord, he] using hq) hsucc
      refine ⟨?_, fun s => ?_⟩
      · rw [List.foldl_cons, h1]
        simp only [List.countP_cons, Entry.isQuestion, Bool.false_eq_true, if_false]
        omega
      · rw [List.foldl_cons, h2 s]
        simp only [List.countP_cons, Entry.inSection, decide_eq_true_eq]
        omega

structure Contents where
  questions : List QuestionEntry
  answers : List RecordEntry
  authority : List RecordEntry
  additional : List RecordEntry
  answers_sect : ∀ r ∈ answers, r.sect = .answer
  authority_sect : ∀ r ∈ authority, r.sect = .authority
  additional_sect : ∀ r ∈ additional, r.sect = .additional

def Contents.entries (c : Contents) : List Entry :=
  c.questions.map .question ++ (c.answers.map .record ++
    (c.authority.map .record ++ c.additional.map .record))

def Contents.sectionEntries (c : Contents) : RecordSection → List RecordEntry
  | .answer => c.answers
  | .authority => c.authority
  | .additional => c.additional

structure ReadsAs (reader : MessageReader) (c : Contents) : Prop where
  questions : List.Forall₂ IsQuestion reader.questions c.questions
  records : ∀ s, List.Forall₂ (IsRecord reader.message) (reader.sectionRecords s)
    (c.sectionEntries s)

theorem countP_question_map (qs : List QuestionEntry) :
    (qs.map Entry.question).countP Entry.isQuestion = qs.length ∧
      ∀ s, (qs.map Entry.question).countP (Entry.inSection s) = 0 := by
  induction qs with
  | nil => exact ⟨rfl, fun _ => rfl⟩
  | cons q qs ih =>
    simp only [List.map_cons, List.countP_cons, Entry.isQuestion, Entry.inSection, if_true,
      Bool.false_eq_true, if_false, ih.1, ih.2, List.length_cons]
    exact ⟨trivial, fun _ => trivial⟩

theorem countP_record_map (rs : List RecordEntry) (s : RecordSection)
    (h : ∀ r ∈ rs, r.sect = s) :
    (rs.map Entry.record).countP Entry.isQuestion = 0 ∧
      ∀ t, (rs.map Entry.record).countP (Entry.inSection t) = if s = t then rs.length else 0 := by
  induction rs with
  | nil => exact ⟨rfl, fun t => by simp⟩
  | cons r rs ih =>
    obtain ⟨hr, hrs⟩ := List.forall_mem_cons.mp h
    obtain ⟨h1, h2⟩ := ih hrs
    refine ⟨?_, fun t => ?_⟩
    · simp only [List.map_cons, List.countP_cons, Entry.isQuestion, Bool.false_eq_true, if_false, h1]
    · simp only [List.map_cons, List.countP_cons, Entry.inSection, hr, decide_eq_true_eq, h2 t,
        List.length_cons]
      split <;> rfl

theorem Contents.counts (c : Contents) :
    c.entries.countP Entry.isQuestion = c.questions.length ∧
      ∀ s, c.entries.countP (Entry.inSection s) = (c.sectionEntries s).length := by
  obtain ⟨q1, q2⟩ := countP_question_map c.questions
  obtain ⟨a1, a2⟩ := countP_record_map c.answers .answer c.answers_sect
  obtain ⟨n1, n2⟩ := countP_record_map c.authority .authority c.authority_sect
  obtain ⟨d1, d2⟩ := countP_record_map c.additional .additional c.additional_sect
  refine ⟨?_, fun s => ?_⟩
  · simp only [entries, List.countP_append, q1, a1, n1, d1, Nat.add_zero]
  · cases s <;>
      simp [entries, List.countP_append, q2, a2, n2, d2, sectionEntries]

theorem reads_of_entries (header : Header) (c : Contents) (next : Nat)
    (hm : m.length ≤ 16384) (hq : header.questionCount.toNat = c.questions.length)
    (hn : ∀ s, (header.recordCount s).toNat = (c.sectionEntries s).length)
    (h : EntriesAt m headerSize next c.entries) : ReadsAs ⟨m, header⟩ c := by
  obtain ⟨k1, h1, hrest⟩ := EntriesAt.split m _ _ _ _ h
  obtain ⟨k2, h2, hrest⟩ := EntriesAt.split m _ _ _ _ hrest
  obtain ⟨k3, h3, h4⟩ := EntriesAt.split m _ _ _ _ hrest
  obtain ⟨i1, s1⟩ := questionItems_of_entries m hm _ _ _ h1
  obtain ⟨i2, s2⟩ := recordItems_of_entries m hm _ _ _ h2
  obtain ⟨i3, s3⟩ := recordItems_of_entries m hm _ _ _ h3
  obtain ⟨i4, _⟩ := recordItems_of_entries m hm _ _ _ h4
  have ha : header.answerCount.toNat = c.answers.length := hn .answer
  have hau : header.authorityCount.toNat = c.authority.length := hn .authority
  have had : header.additionalCount.toNat = c.additional.length := hn .additional
  have haq : (⟨m, header⟩ : MessageReader).afterQuestions = some k1 := by
    simp only [MessageReader.afterQuestions, hq, s1]
  have haa : (⟨m, header⟩ : MessageReader).afterAnswers = some k2 := by
    simp only [MessageReader.afterAnswers, haq, Option.bind_some, ha, s2]
  have hat : (⟨m, header⟩ : MessageReader).afterAuthority = some k3 := by
    simp only [MessageReader.afterAuthority, haa, Option.bind_some, hau, s3]
  refine ⟨?_, fun s => ?_⟩
  · simp only [MessageReader.questions, hq]
    exact i1
  · cases s with
    | answer =>
      simp only [MessageReader.sectionRecords, MessageReader.answers, haq,
        MessageReader.recordsAt, ha]
      exact i2
    | authority =>
      simp only [MessageReader.sectionRecords, MessageReader.authority, haa,
        MessageReader.recordsAt, hau]
      exact i3
    | additional =>
      simp only [MessageReader.sectionRecords, MessageReader.additional, hat,
        MessageReader.recordsAt, had]
      exact i4

theorem tryNew_ok (out : Bytes) (header : Header) (b : MessageBuilder)
    (h : tryNew out header = .ok b) :
    headerSize ≤ out.length ∧
      b = ⟨out, headerSize, header, CompressionTable.new, []⟩ := by
  unfold tryNew at h
  split at h
  · cases h
  · cases h
    exact ⟨by omega, rfl⟩

theorem finish_layout (pool : List Label → Prop) (hinj : NoCollision pool) (out : Bytes)
    (header : Header)
    (b0 b1 : MessageBuilder) (es : List Entry) (Q : Bytes → Prop) (msg : Bytes)
    (hnew : tryNew out header = .ok b0) (he : Emission pool b0 b1 es Q)
    (hfin : finish b1 = .ok msg) (hm : msg.length ≤ 16384) :
    b1.cursor = msg.length ∧ Q msg ∧ ∃ rest, msg = b1.header.toBytes ++ rest := by
  obtain ⟨hcap, rfl⟩ := tryNew_ok out header b0 hnew
  obtain ⟨frag, hc, hw, hmean⟩ := he.appended
  unfold finish at hfin
  cases ho : overwrite b1.out 0 b1.header.toBytes with
  | none =>
    rw [ho] at hfin
    cases hfin
  | some out' =>
    rw [ho] at hfin
    cases hfin
    have hlen := overwrite_length _ _ _ _ ho
    have hfit := he.fits
    have hl : (out'.take b1.cursor).length = b1.cursor := by
      rw [List.length_take, hlen]
      omega
    have hmsg : out'.take b1.cursor = b1.header.toBytes ++ frag := by
      refine overwrite_inside b1.out out' [] (out.take headerSize) frag _ _ hw ?_ ho
      rw [List.length_take, Nat.min_eq_left hcap, Header.toBytes_length]
    rw [hl] at hm
    obtain ⟨_, hq⟩ := hmean hinj hm b1.header.toBytes (Header.toBytes_length _)
      (by rw [CompressionTable.dict_new]; exact sound_nil _ _ _)
    refine ⟨hl.symm, ?_, frag, hmsg⟩
    have h := hq []
    rw [List.append_nil, ← hmsg] at h
    exact h

theorem header_counts (header : Header) (c : Contents) (at_ next : Nat)
    (hzero : header.questionCount = 0 ∧ ∀ s, header.recordCount s = 0)
    (h : EntriesAt m at_ next c.entries) (hnext : next ≤ 16384) :
    (c.entries.foldl Header.countEntry header).questionCount.toNat = c.questions.length ∧
      ∀ s, ((c.entries.foldl Header.countEntry header).recordCount s).toNat =
        (c.sectionEntries s).length := by
  have hlen := h.length_le
  obtain ⟨hcq, hcs⟩ := c.counts
  obtain ⟨hfq, hfs⟩ := countEntry_fold c.entries header 0 (fun _ => 0)
    (by rw [hzero.1]; rfl) (fun s => by rw [hzero.2 s]; rfl)
  have hle : ∀ p, c.entries.countP p ≤ 16384 := by
    intro p
    have hp := List.countP_le_length (p := p) (l := c.entries)
    omega
  refine ⟨?_, fun s => ?_⟩
  · have hq := hle Entry.isQuestion
    rw [hfq]
    omega
  · have hs := hle (Entry.inSection s)
    rw [hfs s, ← hcs s]
    omega

theorem message_reads (pool : List Label → Prop) (hinj : NoCollision pool) (out : Bytes)
    (header : Header) (b0 b1 : MessageBuilder) (c : Contents) (msg : Bytes)
    (hzero : header.questionCount = 0 ∧ ∀ s, header.recordCount s = 0)
    (hnew : tryNew out header = .ok b0)
    (he : Emission pool b0 b1 c.entries (fun m => EntriesAt m b0.cursor b1.cursor c.entries))
    (hfin : finish b1 = .ok msg) (hm : msg.length ≤ 16384) :
    MessageReader.tryParse msg = .ok ⟨msg, b1.header⟩ ∧ ReadsAs ⟨msg, b1.header⟩ c ∧
      b1.header.questionCount.toNat = c.questions.length ∧
      ∀ s, (b1.header.recordCount s).toNat = (c.sectionEntries s).length := by
  obtain ⟨hc, hlayout, rest, hmsg⟩ := finish_layout pool hinj out header b0 b1 _ _ msg hnew he hfin hm
  obtain ⟨_, rfl⟩ := tryNew_ok out header b0 hnew
  obtain ⟨hq, hs⟩ := header_counts msg header c _ _ hzero hlayout (by rw [hc]; exact hm)
  have heq : b1.header = c.entries.foldl Header.countEntry header := he.header
  rw [← heq] at hq hs
  refine ⟨?_, reads_of_entries msg b1.header c _ hm hq hs hlayout, hq, hs⟩
  conv_lhs => rw [hmsg]
  rw [MessageReader.tryParse, Header.tryParse_toBytes, ← hmsg]

end Hick.Wire
