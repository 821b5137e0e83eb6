import Hick.Query.Run
import Hick.Routing.Route
import Hick.Service.RespondSpec
import Hick.Wire.Room
import Hick.Endpoint.Screen

/-!
# A question is asked once on the link (query/mod.rs:804-1092, endpoint/receive.rs:541-576)

What a query sends is its question and nothing else. A host that hears it takes the question as
asked for its own queries of the same question, and for no others.
-/

namespace Hick
open Octets Wire Runs MessageBuilder

namespace Query
variable {I : Type} {AN EV : Type → Type} [Instant I] [Pool AN] [Pool EV]

def question (q : Query I AN EV) : QuestionEntry := ⟨q.qname, q.qtype, q.qclass, q.unicastResponse⟩

omit [Pool AN] [Pool EV] in
/-- What `pollTransmit` hands out is encoded from the question. -/
theorem pollTransmit_encodes (q : Query I AN EV) (now : I) (buf : Bytes) (d : Sent)
    (h : sentOf (q.pollTransmit now buf).2 = some d) :
    d.transmit.dst = multicastDst ∧
      encode { Header.new with id := q.txid } buf
        (pushQuestion q.qname q.qtype q.qclass q.unicastResponse) = .ok (d.message, ()) := by
  unfold pollTransmit at h
  split at h
  · cases h
  · split at h
    · cases h
    · split at h
      · cases h
      · rename_i msg he
        cases h
        exact ⟨rfl, he⟩

end Query

/-- `other` asks for what the question `e` asks for: its name up to case, its type and its class. -/
def Query.AsksFor {I : Type} {AN EV : Type → Type} (other : Query I AN EV) (e : QuestionEntry) :
    Prop :=
  other.qname.text ≠ [] ∧ other.qname.labels = e.name.labels ∧ other.qtype = e.qtype ∧
    other.qclass = e.qclass

instance {I : Type} {AN EV : Type → Type} (other : Query I AN EV) (e : QuestionEntry) :
    Decidable (other.AsksFor e) :=
  inferInstanceAs (Decidable (_ ∧ _))

/-- The codes of the question are those of its type and its class. -/
structure Wire.QuestionEntry.Coded (e : QuestionEntry) : Prop where
  qtype : ResourceType.fromU16 e.qtype.toU16 = e.qtype
  qclass : ResourceClass.fromU16 (questionClassBits e) = e.qclass
  unicast : (questionClassBits e &&& unicastResponseBit != 0) = e.unicastResponse

theorem sameQuestion_iff {I : Type} {AN EV : Type → Type} (other : Query I AN EV)
    (q : QuestionRef) (e : QuestionEntry) (h : ReadsQuestion q e) (hcoded : e.Coded) :
    other.sameQuestion q = true ↔ other.AsksFor e := by
  unfold Query.sameQuestion Query.AsksFor
  rw [Bool.and_eq_true, Bool.and_eq_true, beq_iff_eq, beq_iff_eq, namesMatch_names _ _ _ h.qname,
    h.qtype, h.qclass, hcoded.qtype, hcoded.qclass]
  tauto

theorem Wire.no_records (sect : RecordSection) : ∀ r ∈ ([] : List RecordEntry), r.sect = sect :=
  fun _ h => absurd h List.not_mem_nil

def Wire.Contents.asking (e : QuestionEntry) : Contents where
  questions := [e]
  answers := []
  authority := []
  additional := []
  answers_sect := no_records .answer
  authority_sect := no_records .authority
  additional_sect := no_records .additional

theorem Wire.ReadsAs.asking (reader : MessageReader) (e : QuestionEntry)
    (h : ReadsAs reader (.asking e)) : ∃ q, reader.questions = [.ok q] ∧ ReadsQuestion q e := by
  obtain ⟨item, rest, ⟨q, rfl, hq⟩, hrest, hlist⟩ := List.forall₂_cons_right_iff.mp h.questions
  rw [List.forall₂_nil_right_iff.mp hrest] at hlist
  exact ⟨q, hlist, hq⟩

section
variable {I : Type} {QS AN EV : Type → Type} [Instant I] [Pool QS] [Pool AN] [Pool EV]

/-- What a host makes of a datagram that is one question. -/
theorem handledQueries_asked (now : I) (src : SocketAddr) (reader : MessageReader)
    (admits : Admits) (queries : QS (Query I AN EV)) (e : QuestionEntry) (q : QuestionRef)
    (hport : src.port = mdnsPort) (hquiet : admits.quieting = true)
    (hheader : reader.header.flags.isResponse = false ∧ reader.header.answerCount = 0 ∧
      reader.header.flags.isTruncated = false)
    (hquestions : reader.questions = [.ok q]) (hq : ReadsQuestion q e) (hcoded : e.Coded) :
    handledQueries now src reader admits queries =
      if e.unicastResponse = true ∨ e.qclass ≠ .in_ then queries
      else (Pool.iter queries).foldl (fun p kq => Pool.update p kq.1 fun other =>
        if other.done = false ∧ other.AsksFor e then (other.noteDuplicateQuestion now).1
        else other) queries := by
  obtain ⟨hquery, hcount, hwhole⟩ := hheader
  have hunicast : q.unicastResponse = e.unicastResponse := hq.unicast.trans hcoded.unicast
  have hclass : q.qclass = e.qclass := hq.qclass.trans hcoded.qclass
  unfold handledQueries eagerPass
  rw [hquery, hquiet, hport, hcount, hwhole, hquestions]
  simp only [Bool.and_false, Bool.false_eq_true, if_false, Bool.not_false, Bool.and_true,
    beq_self_eq_true, if_true]
  unfold suppressQuestions suppressQuestions suppressQuestion
  rw [hunicast, hclass]
  by_cases hskip : e.unicastResponse = true ∨ e.qclass ≠ .in_
  · rw [if_pos hskip, if_pos (by simpa using hskip)]
  · rw [if_neg hskip, if_neg (by simpa using hskip)]
    congr 1
    funext p kq
    congr 1
    funext other
    by_cases hdone : other.done = true
    · rw [if_pos hdone, if_neg (fun h => by rw [hdone] at h; cases h.1)]
    · rw [if_neg hdone]
      by_cases hsame : other.AsksFor e
      · rw [if_pos ((sameQuestion_iff other q e hq hcoded).mpr hsame),
          if_pos ⟨Bool.not_eq_true _ ▸ hdone, hsame⟩]
      · rw [if_neg (fun h => hsame ((sameQuestion_iff other q e hq hcoded).mp h)),
          if_neg (fun h => hsame h.2)]

end

section
variable {I : Type} {AN EV Q A E : Type → Type} [Instant I] [Pool Q] [Pool A] [Pool E]

theorem encode_question_fits (header : Header) (out : Bytes) (e : QuestionEntry) (msg : Message)
    (h : encode header out (pushQuestion e.name e.qtype e.qclass e.unicastResponse) =
      .ok (msg, ())) :
    msg.octets.length ≤ headerSize + 260 := by
  obtain ⟨b, b', hnew, hexec, hfinish, -, -⟩ := encode_ok _ _ _ _ () h
  obtain ⟨hcap, rfl⟩ := tryNew_ok _ _ b hnew
  have hlen : msg.octets.length ≤ b'.cursor := by
    unfold MessageBuilder.finish at hfinish
    split at hfinish
    · cases hfinish
    · rw [← Except.ok.inj hfinish, List.length_take]
      exact Nat.min_le_left _ _
  by_cases hroom : headerSize + 260 ≤ out.length
  · obtain ⟨b'', hrun, -, hcursor⟩ := pushQuestion_needs e.name e.qtype e.qclass e.unicastResponse
      ⟨out, headerSize, header, CompressionTable.new, []⟩ hroom (by change 12 + 260 ≤ _; decide)
    rw [hexec] at hrun
    cases hrun
    exact le_trans hlen hcursor
  · obtain ⟨es, -, hem⟩ := laysSome_of_lays _ _ _ (lays_question (suffixPool [e.name]) e
      (suffixPool_covers _ _ List.mem_cons_self)) _ b' () hcap hexec
    have hfits := hem.fits
    rw [hem.capacity] at hfits
    exact le_trans hlen (le_trans hfits (Nat.le_of_lt (Nat.not_le.mp hroom)))

/-- In every state of a query. A datagram that it hands out goes to the group, and reads as one
question, the one that the query asks, with its transaction id and without a record. A host that
hears it from the mDNS port takes it, unless it asks for a unicast response or is not of the class
`IN`, as asked for each of its live queries of that question, and leaves the others as they are. -/
theorem peers_question_is_ours (ours : Query I AN EV) (at_ : I) (buf : Bytes) (d : Sent)
    (h : sentOf (ours.pollTransmit at_ buf).2 = some d) (hcoded : ours.question.Coded)
    (hsuffixes : NoSuffixCollision [ours.qname]) :
    d.transmit.dst = multicastDst ∧ ∃ reader q,
      MessageReader.tryParse d.message.octets = .ok reader ∧ reader.header.id = ours.txid ∧
        reader.questions = [.ok q] ∧ ReadsQuestion q ours.question ∧
        (∀ sect, reader.sectionRecords sect = []) ∧
        ∀ (now : I) (src : SocketAddr) (admits : Admits) (queries : Q (Query I A E)),
          src.port = mdnsPort → admits.quieting = true →
          handledQueries now src reader admits queries =
            if ours.unicastResponse = true ∨ ours.qclass ≠ .in_ then queries
            else (Pool.iter queries).foldl (fun p kq => Pool.update p kq.1 fun other =>
              if other.done = false ∧ other.AsksFor ours.question
              then (other.noteDuplicateQuestion now).1 else other) queries := by
  obtain ⟨hdst, hencode⟩ := ours.pollTransmit_encodes at_ buf d h
  have hlays := laysSome_of_lays _ _ _ (lays_question (suffixPool [ours.qname]) ours.question
    (suffixPool_covers _ _ List.mem_cons_self))
  obtain ⟨es, rfl, hspec⟩ :=
    encode_spec [ours.qname] _ _ _ _ ⟨rfl, fun sect => by cases sect <;> rfl⟩ hlays _ () hencode
  have hheader : d.message.header =
      Header.countEntry { Header.new with id := ours.txid } (.question ours.question) := by
    obtain ⟨b, b', hnew, hexec, -, hheader, -⟩ := encode_ok _ _ _ _ () hencode
    obtain ⟨hcap, hb⟩ := tryNew_ok _ _ b hnew
    obtain ⟨es, rfl, hem⟩ := hlays b b' () (by rw [hb]; exact hcap) hexec
    rw [hheader, hem.header, hb]
    rfl
  have hlen := encode_question_fits _ _ ours.question _ hencode
  obtain ⟨hparse, hreads⟩ := (hspec (.asking ours.question) rfl).reads hsuffixes
    (le_trans hlen (by decide))
  obtain ⟨q, hquestions, hq⟩ := hreads.asking
  refine ⟨hdst, _, q, hparse, ?_, hquestions, hq, fun sect => ?_, ?_⟩
  · rw [hheader]
    rfl
  · have hnone := hreads.records sect
    cases sect <;> exact List.forall₂_nil_right_iff.mp hnone
  · intro now src admits queries hport hquiet
    have hflags : d.message.header.flags.isResponse = false ∧
        d.message.header.flags.isTruncated = false := by
      rw [hheader]
      change Header.new.flags.isResponse = false ∧ Header.new.flags.isTruncated = false
      decide
    exact handledQueries_asked now src _ admits queries ours.question q hport hquiet
      ⟨hflags.1, by rw [hheader]; rfl, hflags.2⟩ hquestions hq hcoded

end

def addressQuery : Query Uptime Slab Slab :=
  .tryNew ⟨1⟩ ServiceRecords.printerHost .a .in_ 7 false none

/-- The question of one host, heard by another that asks the same. -/
theorem hosts_question_is_ours :
    ∃ d reader, sentOf (addressQuery.pollTransmit 0 (List.replicate 25 0)).2 = some d ∧
      MessageReader.tryParse d.message.octets = .ok reader ∧ reader.header.id = 7 := by
  have hfacts : (sentOf (addressQuery.pollTransmit 0 (List.replicate 25 0)).2).isSome = true ∧
      NoSuffixCollision [addressQuery.qname] := by decide +kernel
  obtain ⟨d, hd⟩ := Option.isSome_iff_exists.mp hfacts.1
  obtain ⟨-, reader, -, hparse, hid, -⟩ := peers_question_is_ours (Q := Slab) (A := Slab)
    (E := Slab) addressQuery 0 _ d hd ⟨by decide, by decide, by decide⟩ hfacts.2
  exact ⟨d, reader, hd, hparse, hid⟩

end Hick
