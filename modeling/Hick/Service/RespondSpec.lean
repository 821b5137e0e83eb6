import Mathlib
import Hick.Service.Respond
import Hick.Wire.Message

/-!
# What each encoder puts into its message

`EncodedAs` is the specification of an encoded datagram: the entries its builder completed
and, when no two suffixes of the names involved share a hash, how it reads back.
-/

namespace Hick
open Octets LabelSeq Wire EncodeM MessageBuilder

/-- Completing `prog` with result `a` pushes entries `es` with `P a es`, in order. -/
def LaysSome {α : Type} (pool : List Label → Prop) (prog : EncodeM α)
    (P : α → List Entry → Prop) : Prop :=
  ∀ b b' a, b.cursor ≤ b.out.length → prog.exec b = (.ok a, b') →
    ∃ es, P a es ∧ Emission pool b b' es (fun m => EntriesAt m b.cursor b'.cursor es)

section
variable (pool : List Label → Prop)

theorem laysSome_of_lays (prog : EncodeM Unit) (es : List Entry) (h : Lays pool prog es) :
    LaysSome pool prog (fun _ xs => xs = es) :=
  fun b b' _ hf he => ⟨es, rfl, h b b' hf he⟩

theorem laysSome_pure {α : Type} (a : α) :
    LaysSome pool (pure a) (fun r xs => r = a ∧ xs = []) := by
  intro b b' r hf he
  cases he
  exact ⟨[], ⟨rfl, rfl⟩, (Emission.refl pool b hf).mono pool _ _ _ _ _ fun _ _ => rfl⟩

theorem laysSome_bind {α β : Type} (p : EncodeM α) (q : α → EncodeM β)
    (P : α → List Entry → Prop) (Q : α → β → List Entry → Prop)
    (hp : LaysSome pool p P) (hq : ∀ a, LaysSome pool (q a) (Q a)) :
    LaysSome pool (p >>= q) (fun r es => ∃ a xs ys, P a xs ∧ Q a r ys ∧ es = xs ++ ys) := by
  intro b b' r hf h
  obtain ⟨a, b1, h1, h2⟩ := bind_ok _ _ _ _ _ h
  obtain ⟨xs, hP, e1⟩ := hp b b1 a hf h1
  obtain ⟨ys, hQ, e2⟩ := hq a b1 b' r e1.fits h2
  refine ⟨xs ++ ys, ⟨a, xs, ys, hP, hQ, rfl⟩, ?_⟩
  exact (e1.trans pool _ _ _ _ _ _ _ e2).mono pool _ _ _ _ _
    fun m hm => hm.1.append m _ _ _ _ _ hm.2

theorem LaysSome.mono {α : Type} (prog : EncodeM α) (P P' : α → List Entry → Prop)
    (h : LaysSome pool prog P) (hP : ∀ a es, P a es → P' a es) : LaysSome pool prog P' := by
  intro b b' a hf he
  obtain ⟨es, hes, hem⟩ := h b b' a hf he
  exact ⟨es, hP a es hes, hem⟩

theorem laysSome_then {β : Type} (p : EncodeM Unit) (q : EncodeM β) (xs : List Entry)
    (Q : β → List Entry → Prop) (hp : Lays pool p xs) (hq : LaysSome pool q Q) :
    LaysSome pool (p >>= fun _ => q) (fun r es => ∃ ys, Q r ys ∧ es = xs ++ ys) := by
  refine (laysSome_bind pool p _ _ _ (laysSome_of_lays pool p xs hp) fun _ => hq).mono pool _ _ _ ?_
  rintro r es ⟨_, _, ys, rfl, hQ, rfl⟩
  exact ⟨ys, hQ, rfl⟩

theorem laysSome_offer (suppressed : Bool) (push : EncodeM Unit) (e : Entry)
    (h : Lays pool push [e]) :
    LaysSome pool (Respond.offer suppressed push)
      (fun r es => r = !suppressed ∧ es = if suppressed then [] else [e]) := by
  unfold Respond.offer
  cases suppressed with
  | true => exact laysSome_pure pool false
  | false =>
    refine (laysSome_then pool push _ [e] _ h (laysSome_pure pool true)).mono pool _ _ _ ?_
    rintro r es ⟨ys, ⟨rfl, rfl⟩, rfl⟩
    exact ⟨rfl, rfl⟩

theorem laysSome_offerEach {α : Type} (suppressed : α → Bool) (push : α → EncodeM Unit)
    (entry : α → Entry) (xs : List α) (h : ∀ x ∈ xs, Lays pool (push x) [entry x]) :
    LaysSome pool (Respond.offerEach suppressed push xs)
      (fun r es => r = xs.filter (fun x => !suppressed x) ∧ es = r.map entry) := by
  induction xs with
  | nil =>
    refine (laysSome_pure pool []).mono pool _ _ _ ?_
    rintro r es ⟨rfl, rfl⟩
    exact ⟨rfl, rfl⟩
  | cons x xs ih =>
    obtain ⟨hx, hxs⟩ := List.forall_mem_cons.mp h
    unfold Respond.offerEach
    refine (laysSome_bind pool _ _ _ _ (laysSome_offer pool (suppressed x) (push x) (entry x) hx)
      fun pushed => laysSome_bind pool _ _ _ _ (ih hxs) fun rest => laysSome_pure pool _).mono
        pool _ _ _ ?_
    rintro r es ⟨pushed, ys, zs, ⟨rfl, rfl⟩, ⟨rest, ws, vs, ⟨rfl, rfl⟩, ⟨rfl, rfl⟩, rfl⟩, rfl⟩
    cases hs : suppressed x <;> simp [hs]

end

structure EncodedAs (names : List Name) (header : Header) (msg : Message) (c : Contents) :
    Prop where
  entries : msg.entries = c.entries
  flags : msg.header.flags = header.flags
  reads : NoSuffixCollision names → msg.octets.length ≤ 16384 →
    MessageReader.tryParse msg.octets = .ok ⟨msg.octets, msg.header⟩ ∧
      ReadsAs ⟨msg.octets, msg.header⟩ c

theorem encode_ok {α : Type} (header : Header) (out : Bytes) (prog : EncodeM α) (msg : Message)
    (a : α) (h : encode header out prog = .ok (msg, a)) :
    ∃ b b', tryNew out header = .ok b ∧ prog.exec b = (.ok a, b') ∧
      finish b' = .ok msg.octets ∧ msg.header = b'.header ∧ msg.entries = b'.pushed := by
  unfold encode at h
  cases hb : tryNew out header with
  | error e =>
    rw [hb] at h
    cases h
  | ok b =>
    rw [hb] at h
    cases hp : prog.exec b with
    | mk r b' =>
      simp only [hp] at h
      cases r with
      | error e => cases h
      | ok a' =>
        cases hf : b'.finish with
        | error e =>
          simp only [hf] at h
          cases h
        | ok octets =>
          simp only [hf] at h
          cases h
          exact ⟨b, b', rfl, hp, hf, rfl, rfl⟩

def encodedLength {α : Type} (r : Except EncodeError (Message × α)) : Option Nat :=
  match r with
  | .ok (msg, _) => some msg.octets.length
  | .error _ => none

theorem encodedLength_some {α : Type} (r : Except EncodeError (Message × α)) (n : Nat)
    (h : encodedLength r = some n) : ∃ msg a, r = .ok (msg, a) ∧ msg.octets.length = n := by
  unfold encodedLength at h
  split at h
  · rename_i msg a
    exact ⟨msg, a, rfl, Option.some.inj h⟩
  · cases h

theorem encode_spec {α : Type} (names : List Name) (header : Header) (out : Bytes)
    (prog : EncodeM α) (P : α → List Entry → Prop)
    (hzero : header.questionCount = 0 ∧ ∀ s, header.recordCount s = 0)
    (hlays : LaysSome (suffixPool names) prog P) (msg : Message) (a : α)
    (h : encode header out prog = .ok (msg, a)) :
    ∃ es, P a es ∧ ∀ c : Contents, c.entries = es → EncodedAs names header msg c := by
  obtain ⟨b, b', hnew, hexec, hfin, hheader, hpushed⟩ := encode_ok header out prog msg a h
  obtain ⟨hcap, hb⟩ := tryNew_ok out header b hnew
  obtain ⟨es, hP, hem⟩ := hlays b b' a (by rw [hb]; exact hcap) hexec
  refine ⟨es, hP, fun c hc => ?_⟩
  subst hc
  refine ⟨?_, ?_, fun hinj hlen => ?_⟩
  · rw [hpushed, hem.pushed, hb]
    rfl
  · rw [hheader, hem.header, (countEntry_keeps _ _).2, hb]
  · rw [hheader]
    obtain ⟨hparse, hreads, _⟩ :=
      message_reads _ hinj out header b b' c msg.octets hzero hnew hem hfin hlen
    exact ⟨hparse, hreads⟩

theorem encode_id {α : Type} (names : List Name) (header : Header) (out : Bytes)
    (prog : EncodeM α) (P : α → List Entry → Prop)
    (hlays : LaysSome (suffixPool names) prog P) (msg : Message) (a : α)
    (h : encode header out prog = .ok (msg, a)) : msg.header.id = header.id := by
  obtain ⟨b, b', hnew, hexec, -, hheader, -⟩ := encode_ok header out prog msg a h
  obtain ⟨hcap, hb⟩ := tryNew_ok out header b hnew
  obtain ⟨es, -, hem⟩ := hlays b b' a (by rw [hb]; exact hcap) hexec
  rw [hheader, hem.header, (countEntry_keeps _ _).1, hb]

namespace Respond

def ownNames (records : ServiceRecords) : List Name :=
  records.serviceType :: records.instanceName :: records.host :: records.subtypes

def ptrEntry (records : ServiceRecords) (ttl : UInt32) : RecordEntry :=
  ⟨.answer, records.serviceType, ttl, false, .ptr records.instanceName⟩

def subtypeEntry (records : ServiceRecords) (ttl : UInt32) (sub : Name) : RecordEntry :=
  ⟨.answer, sub, ttl, false, .ptr records.instanceName⟩

def srvEntry (records : ServiceRecords) (sect : RecordSection) (ttl : UInt32) (flush : Bool) :
    RecordEntry :=
  ⟨sect, records.instanceName, ttl, flush,
    .srv records.priority records.weight records.port records.host⟩

def txtEntry (records : ServiceRecords) (sect : RecordSection) (ttl : UInt32) (flush : Bool) :
    RecordEntry :=
  ⟨sect, records.instanceName, ttl, flush, .txt records.txt⟩

def aEntry (records : ServiceRecords) (sect : RecordSection) (ttl : UInt32) (flush : Bool)
    (addr : Ipv4Addr) : RecordEntry :=
  ⟨sect, records.host, ttl, flush, .a addr⟩

def aaaaEntry (records : ServiceRecords) (sect : RecordSection) (ttl : UInt32) (flush : Bool)
    (addr : Ipv6Addr) : RecordEntry :=
  ⟨sect, records.host, ttl, flush, .aaaa addr⟩

def nsecEntry (records : ServiceRecords) : RecordEntry :=
  ⟨.additional, records.instanceName, records.ttlSecs, true,
    .nsec records.instanceName (emittedNsecTypes records)⟩

def EmittedRecords.answers (records : ServiceRecords) (ttl : UInt32) (flush : Bool)
    (e : EmittedRecords) : List RecordEntry :=
  (if e.ptr then [ptrEntry records ttl] else []) ++
    ((if e.subtypes then records.subtypes.map (subtypeEntry records ttl) else []) ++
      ((if e.srv then [srvEntry records .answer ttl flush] else []) ++
        ((if e.txt then [txtEntry records .answer ttl flush] else []) ++
          (e.a.map (aEntry records .answer ttl flush) ++
            e.aaaa.map (aaaaEntry records .answer ttl flush)))))

def EmittedRecords.additional (records : ServiceRecords) (e : EmittedRecords) :
    List RecordEntry :=
  if e.nsec then [nsecEntry records] else []

theorem EmittedRecords.answers_sect (records : ServiceRecords) (ttl : UInt32) (flush : Bool)
    (e : EmittedRecords) : ∀ r ∈ e.answers records ttl flush, r.sect = .answer := by
  intro r hr
  simp only [EmittedRecords.answers, List.mem_append, List.mem_map] at hr
  rcases hr with h | h | h | h | ⟨_, _, rfl⟩ | ⟨_, _, rfl⟩
  · split at h
    · rw [List.mem_singleton.mp h]
      rfl
    · cases h
  · split at h
    · obtain ⟨_, _, rfl⟩ := List.mem_map.mp h
      rfl
    · cases h
  · split at h
    · rw [List.mem_singleton.mp h]
      rfl
    · cases h
  · split at h
    · rw [List.mem_singleton.mp h]
      rfl
    · cases h
  · rfl
  · rfl

theorem EmittedRecords.additional_sect (records : ServiceRecords) (e : EmittedRecords) :
    ∀ r ∈ e.additional records, r.sect = .additional := by
  intro r hr
  unfold EmittedRecords.additional at hr
  split at hr
  · rw [List.mem_singleton.mp hr]
    rfl
  · cases hr

def EmittedRecords.contents (records : ServiceRecords) (questions : List QuestionEntry)
    (ttl : UInt32) (flush : Bool) (e : EmittedRecords) : Contents where
  questions := questions
  answers := e.answers records ttl flush
  authority := []
  additional := e.additional records
  answers_sect := e.answers_sect records ttl flush
  authority_sect := by simp
  additional_sect := e.additional_sect records

def probeContents (records : ServiceRecords) : Contents where
  questions := [⟨records.instanceName, .any, .in_, true⟩]
  answers := []
  authority :=
    srvEntry records .authority records.ttlSecs false ::
      txtEntry records .authority records.ttlSecs false ::
        (records.aAddrs.map (aEntry records .authority records.ttlSecs false) ++
          records.aaaaAddrs.map (aaaaEntry records .authority records.ttlSecs false))
  additional := []
  answers_sect := by simp
  authority_sect := by
    intro r hr
    simp only [List.mem_cons, List.mem_append, List.mem_map] at hr
    rcases hr with rfl | rfl | ⟨_, _, rfl⟩ | ⟨_, _, rfl⟩ <;> rfl
  additional_sect := by simp

def metaContents (records : ServiceRecords) (questions : List QuestionEntry) (metaName : Name)
    (ttl : UInt32) : Contents where
  questions := questions
  answers := [⟨.answer, metaName, ttl, false, .ptr records.serviceType⟩]
  authority := []
  additional := []
  answers_sect := by simp
  authority_sect := by simp
  additional_sect := by simp

section
variable (records : ServiceRecords) (names : List Name) (hown : ∀ n ∈ ownNames records, n ∈ names)

include hown in
theorem covers_own (n : Name) (h : n ∈ ownNames records) : Covers (suffixPool names) n :=
  suffixPool_covers names n (hown n h)

theorem mem_ownNames :
    records.serviceType ∈ ownNames records ∧ records.instanceName ∈ ownNames records ∧
      records.host ∈ ownNames records ∧ ∀ sub ∈ records.subtypes, sub ∈ ownNames records := by
  refine ⟨by simp [ownNames], by simp [ownNames], by simp [ownNames], fun sub h => ?_⟩
  simp [ownNames, h]

include hown in
theorem pushServiceNsec_lays :
    LaysSome (suffixPool names) (pushServiceNsec records)
      (fun nsec es => es = if nsec then [.record (nsecEntry records)] else []) := by
  intro b b' nsec hf h
  obtain ⟨_, hinst, _, _⟩ := mem_ownNames records
  have hlays := lays_nsec (suffixPool names) records.instanceName records.ttlSecs
    (emittedNsecTypes records) true (covers_own records names hown _ hinst)
  have h := get_bind_ok _ _ _ _ h
  have hkeep := keeps_pushNsecAdditional b records.instanceName records.ttlSecs
    (emittedNsecTypes records) true b (GrownFrom.refl b)
  have htry : ((do
        try
          pushNsecAdditional records.instanceName records.ttlSecs (emittedNsecTypes records) true
          pure true
        catch _ =>
          modify fun c => c.restore b.checkpoint
          pure false : EncodeM Bool)).exec b =
      match (pushNsecAdditional records.instanceName records.ttlSecs
          (emittedNsecTypes records) true).exec b with
      | (.ok _, b1) => (.ok true, b1)
      | (.error _, b1) => (.ok false, b1.restore b.checkpoint) := by
    cases hp : (pushNsecAdditional records.instanceName records.ttlSecs
        (emittedNsecTypes records) true).exec b with
    | mk r b1 =>
      have hp' : (pushNsecAdditional records.instanceName records.ttlSecs
        (emittedNsecTypes records) true) b = (r, b1) := hp
      cases r with
      | ok u =>
        simp only [EncodeM.exec, ExceptT.run, tryCatch, tryCatchThe, MonadExceptOf.tryCatch,
          ExceptT.tryCatch, ExceptT.mk, bind, ExceptT.bind, StateT.bind, StateT.run, hp',
          ExceptT.bindCont, pure, ExceptT.pure, StateT.pure]
      | error e =>
        simp only [EncodeM.exec, ExceptT.run, tryCatch, tryCatchThe, MonadExceptOf.tryCatch,
          ExceptT.tryCatch, ExceptT.mk, bind, ExceptT.bind, StateT.bind, StateT.run, hp',
          ExceptT.bindCont, pure, ExceptT.pure, StateT.pure]
        rfl
  have h' := htry.symm.trans h
  cases hp : (pushNsecAdditional records.instanceName records.ttlSecs
      (emittedNsecTypes records) true).exec b with
  | mk r b1 =>
    rw [hp] at h' hkeep
    cases r with
    | ok u =>
      cases h'
      exact ⟨_, rfl, hlays b b' hf hp⟩
    | error e =>
      cases h'
      exact ⟨[], rfl, (restore_emission (suffixPool names) b b1 hf hkeep).mono _ _ _ _ _ _
        fun _ _ => rfl⟩

include hown in
theorem lays_ptrs (ttl : UInt32) :
    Lays (suffixPool names) (pushPtrAnswer records.serviceType ttl records.instanceName)
        [.record (ptrEntry records ttl)] ∧
      Lays (suffixPool names)
        (pushEach (fun sub => pushPtrAnswer sub ttl records.instanceName) records.subtypes)
        ((records.subtypes.map (subtypeEntry records ttl)).map .record) := by
  obtain ⟨htype, hinst, _, hsub⟩ := mem_ownNames records
  have hi := covers_own records names hown _ hinst
  refine ⟨lays_ptr _ _ _ _ _ (covers_own records names hown _ htype) hi, ?_⟩
  rw [List.map_map]
  exact lays_each _ _ _ _ fun sub h =>
    lays_ptr _ _ _ _ _ (covers_own records names hown _ (hsub sub h)) hi

include hown in
theorem lays_instance (sect : RecordSection) (ttl : UInt32) (flush : Bool) :
    Lays (suffixPool names)
        (pushSrv sect records.instanceName ttl records.priority records.weight records.port
          records.host flush) [.record (srvEntry records sect ttl flush)] ∧
      Lays (suffixPool names) (pushTxt sect records.instanceName ttl records.txt flush)
        [.record (txtEntry records sect ttl flush)] := by
  obtain ⟨_, hinst, hhost, _⟩ := mem_ownNames records
  have hi := covers_own records names hown _ hinst
  have hh := covers_own records names hown _ hhost
  exact ⟨lays_srv _ _ _ _ _ _ _ _ _ hi hh, lays_txt _ _ _ _ _ _ hi⟩

include hown in
theorem lays_addrs (sect : RecordSection) (ttl : UInt32) (flush : Bool) :
    (∀ a, Lays (suffixPool names) (pushA sect records.host ttl a flush)
        [.record (aEntry records sect ttl flush a)]) ∧
      ∀ a, Lays (suffixPool names) (pushAaaa sect records.host ttl a flush)
        [.record (aaaaEntry records sect ttl flush a)] := by
  obtain ⟨_, _, hhost, _⟩ := mem_ownNames records
  have hh := covers_own records names hown _ hhost
  exact ⟨fun a => lays_a _ _ _ _ _ _ hh, fun a => lays_aaaa _ _ _ _ _ _ hh⟩

theorem EmittedRecords.answers_subtypes (ttl : UInt32) (flush : Bool) (e : EmittedRecords)
    (h : e.subtypes = !records.subtypes.isEmpty) :
    e.answers records ttl flush =
      (if e.ptr then [ptrEntry records ttl] else []) ++
        (records.subtypes.map (subtypeEntry records ttl) ++
          ((if e.srv then [srvEntry records .answer ttl flush] else []) ++
            ((if e.txt then [txtEntry records .answer ttl flush] else []) ++
              (e.a.map (aEntry records .answer ttl flush) ++
                e.aaaa.map (aaaaEntry records .answer ttl flush))))) := by
  unfold EmittedRecords.answers
  rw [h]
  cases records.subtypes <;> rfl

theorem responseHeader_zero (id : UInt16) :
    (responseHeader.withId id).questionCount = 0 ∧
      ∀ s, (responseHeader.withId id).recordCount s = 0 :=
  ⟨rfl, fun s => by cases s <;> rfl⟩

include hown

theorem writeProbe_spec (out : Bytes) (msg : Message)
    (h : writeProbe records out = .ok (msg, ())) :
    EncodedAs names Header.new msg (probeContents records) := by
  obtain ⟨_, hinst, _, _⟩ := mem_ownNames records
  obtain ⟨hsrv, htxt⟩ := lays_instance records names hown .authority records.ttlSecs false
  obtain ⟨ha, haaaa⟩ := lays_addrs records names hown .authority records.ttlSecs false
  have hq := lays_question (suffixPool names) ⟨records.instanceName, .any, .in_, true⟩
    (covers_own records names hown _ hinst)
  have hlays := laysSome_then _ _ _ _ _ hq (laysSome_then _ _ _ _ _ hsrv
    (laysSome_then _ _ _ _ _ htxt (laysSome_then _ _ _ _ _
      (lays_each _ _ (fun a => .record (aEntry records .authority records.ttlSecs false a))
        records.aAddrs fun a _ => ha a)
      (laysSome_of_lays _ _ _ (lays_each _ _
        (fun a => .record (aaaaEntry records .authority records.ttlSecs false a))
        records.aaaaAddrs fun a _ => haaaa a)))))
  obtain ⟨es, ⟨_, ⟨_, ⟨_, ⟨_, rfl, rfl⟩, rfl⟩, rfl⟩, rfl⟩, hspec⟩ :=
    encode_spec names _ out _ _ ⟨rfl, fun s => by cases s <;> rfl⟩ hlays msg () h
  refine hspec _ ?_
  simp only [Contents.entries, probeContents, List.map_cons, List.map_nil, List.map_append,
    List.map_map, List.cons_append, List.nil_append, List.append_nil]
  rfl

theorem writeAnnounce_spec (out : Bytes) (msg : Message) (nsec : Bool)
    (h : writeAnnounce records out = .ok (msg, nsec)) :
    EncodedAs names responseHeader msg
      ((announced records nsec).contents records [] records.ttlSecs true) := by
  obtain ⟨hptr, hsubs⟩ := lays_ptrs records names hown records.ttlSecs
  obtain ⟨hsrv, htxt⟩ := lays_instance records names hown .answer records.ttlSecs true
  obtain ⟨ha, haaaa⟩ := lays_addrs records names hown .answer records.ttlSecs true
  have hlays := laysSome_then _ _ _ _ _ hptr (laysSome_then _ _ _ _ _ hsubs
    (laysSome_then _ _ _ _ _ hsrv (laysSome_then _ _ _ _ _ htxt (laysSome_then _ _ _ _ _
      (lays_each _ _ (fun a => .record (aEntry records .answer records.ttlSecs true a))
        records.aAddrs fun a _ => ha a)
      (laysSome_then _ _ _ _ _ (lays_each _ _
          (fun a => .record (aaaaEntry records .answer records.ttlSecs true a))
          records.aaaaAddrs fun a _ => haaaa a)
        (pushServiceNsec_lays records names hown))))))
  obtain ⟨es, ⟨_, ⟨_, ⟨_, ⟨_, ⟨_, ⟨_, rfl, rfl⟩, rfl⟩, rfl⟩, rfl⟩, rfl⟩, rfl⟩, hspec⟩ :=
    encode_spec names _ out _ _ ⟨rfl, fun s => by cases s <;> rfl⟩ hlays msg nsec h
  refine hspec _ ?_
  have hans := (announced records nsec).answers_subtypes records records.ttlSecs true rfl
  simp only [Contents.entries, EmittedRecords.contents, hans]
  simp only [announced, EmittedRecords.additional, if_true, List.map_cons, List.map_nil, List.map_append,
    List.map_map, List.cons_append, List.nil_append, List.append_assoc]
  cases nsec <;> rfl

theorem writeMetaResponse_spec (metaName : Name) (hmeta : metaName ∈ names) (out : Bytes)
    (msg : Message) (h : writeMetaResponse records metaName out = .ok (msg, ())) :
    EncodedAs names responseHeader msg (metaContents records [] metaName records.ttlSecs) := by
  obtain ⟨htype, _⟩ := mem_ownNames records
  have hlays := laysSome_of_lays _ _ _ (lays_ptr (suffixPool names) .answer metaName
    records.ttlSecs records.serviceType (suffixPool_covers names _ hmeta)
    (covers_own records names hown _ htype))
  obtain ⟨es, rfl, hspec⟩ :=
    encode_spec names _ out _ _ ⟨rfl, fun s => by cases s <;> rfl⟩ hlays msg () h
  exact hspec _ rfl

theorem writeLegacyMetaResponse_spec (queryId : UInt16) (metaName : Name)
    (hmeta : metaName ∈ names) (qtype : ResourceType) (qclass : ResourceClass) (out : Bytes)
    (msg : Message)
    (h : writeLegacyMetaResponse records queryId metaName qtype qclass out = .ok (msg, ())) :
    EncodedAs names (responseHeader.withId queryId) msg
      (metaContents records [⟨metaName, qtype, qclass, false⟩] metaName
        (min records.ttlSecs legacyUnicastMaxTtlSecs)) := by
  obtain ⟨htype, _⟩ := mem_ownNames records
  have hcover := suffixPool_covers names _ hmeta
  have hlays := laysSome_then _ _ _ _ _
    (lays_question (suffixPool names) ⟨metaName, qtype, qclass, false⟩ hcover)
    (laysSome_of_lays _ _ _ (lays_ptr (suffixPool names) .answer metaName
      (min records.ttlSecs legacyUnicastMaxTtlSecs) records.serviceType hcover
      (covers_own records names hown _ htype)))
  obtain ⟨es, ⟨_, rfl, rfl⟩, hspec⟩ :=
    encode_spec names _ out _ _ (responseHeader_zero queryId) hlays msg () h
  exact hspec _ rfl

theorem writeLegacyResponse_lays (queryId : UInt16) (qname : Name) (hq : qname ∈ names)
    (qtype : ResourceType) (qclass : ResourceClass) :
    ∃ prog : EncodeM EmittedRecords,
      (∀ out, writeLegacyResponse records queryId qname qtype qclass out =
        encode (responseHeader.withId queryId) out prog) ∧
      LaysSome (suffixPool names) prog fun emitted es => emitted = announced records false ∧
        (emitted.contents records [⟨qname, qtype, qclass, false⟩]
          (min records.ttlSecs legacyUnicastMaxTtlSecs) false).entries = es := by
  let ttl := min records.ttlSecs legacyUnicastMaxTtlSecs
  obtain ⟨hptr, hsubs⟩ := lays_ptrs records names hown ttl
  obtain ⟨hsrv, htxt⟩ := lays_instance records names hown .answer ttl false
  obtain ⟨ha, haaaa⟩ := lays_addrs records names hown .answer ttl false
  have hlays := laysSome_then _ _ _ _ _
    (lays_question (suffixPool names) ⟨qname, qtype, qclass, false⟩
      (suffixPool_covers names _ hq))
    (laysSome_then _ _ _ _ _ hptr (laysSome_then _ _ _ _ _ hsubs
      (laysSome_then _ _ _ _ _ hsrv (laysSome_then _ _ _ _ _ htxt (laysSome_then _ _ _ _ _
        (lays_each _ _ (fun a => .record (aEntry records .answer ttl false a))
          records.aAddrs fun a _ => ha a)
        (laysSome_then _ _ _ _ _ (lays_each _ _
            (fun a => .record (aaaaEntry records .answer ttl false a))
            records.aaaaAddrs fun a _ => haaaa a)
          (laysSome_pure _ (announced records false))))))))
  refine ⟨_, fun _ => rfl, hlays.mono _ _ _ _ ?_⟩
  rintro emitted es ⟨_, ⟨_, ⟨_, ⟨_, ⟨_, ⟨_, ⟨_, ⟨rfl, rfl⟩, rfl⟩, rfl⟩, rfl⟩, rfl⟩, rfl⟩, rfl⟩, rfl⟩
  refine ⟨rfl, ?_⟩
  have hans := (announced records false).answers_subtypes records
    (min records.ttlSecs legacyUnicastMaxTtlSecs) false rfl
  simp only [Contents.entries, EmittedRecords.contents, hans]
  simp only [announced, EmittedRecords.additional, if_true, List.map_cons, List.map_nil, List.map_append,
    List.map_map, List.cons_append, List.nil_append, List.append_assoc]
  rfl

theorem writeLegacyResponse_spec (queryId : UInt16) (qname : Name) (hq : qname ∈ names)
    (qtype : ResourceType) (qclass : ResourceClass) (out : Bytes) (msg : Message)
    (emitted : EmittedRecords)
    (h : writeLegacyResponse records queryId qname qtype qclass out = .ok (msg, emitted)) :
    emitted = announced records false ∧
      EncodedAs names (responseHeader.withId queryId) msg
        (emitted.contents records [⟨qname, qtype, qclass, false⟩]
          (min records.ttlSecs legacyUnicastMaxTtlSecs) false) := by
  obtain ⟨prog, hprog, hlays⟩ :=
    writeLegacyResponse_lays records names hown queryId qname hq qtype qclass
  rw [hprog] at h
  obtain ⟨es, ⟨hemitted, hes⟩, hspec⟩ :=
    encode_spec names _ out _ _ (responseHeader_zero queryId) hlays msg emitted h
  exact ⟨hemitted, hspec _ hes⟩

theorem writeLegacyResponse_id (queryId : UInt16) (qname : Name) (hq : qname ∈ names)
    (qtype : ResourceType) (qclass : ResourceClass) (out : Bytes) (msg : Message)
    (emitted : EmittedRecords)
    (h : writeLegacyResponse records queryId qname qtype qclass out = .ok (msg, emitted)) :
    msg.header.id = queryId := by
  obtain ⟨prog, hprog, hlays⟩ :=
    writeLegacyResponse_lays records names hown queryId qname hq qtype qclass
  rw [hprog] at h
  exact encode_id names _ out _ _ hlays msg emitted h

def unsuppressed (hintMatches : ResourceType → Bytes → Bool) (nsec : Bool) : EmittedRecords where
  ptr := !hintMatches .ptr (writeCanonicalWireName records.instanceName.text)
  srv := !hintMatches .srv (srvRdata records)
  txt := !hintMatches .txt (writeCanonicalTxt records.txt)
  a := records.aAddrs.filter fun a => !hintMatches .a a.octets
  aaaa := records.aaaaAddrs.filter fun a => !hintMatches .aaaa a.octets
  subtypes := !records.subtypes.isEmpty
  nsec := nsec

theorem writeAnnounceFiltered_spec (out : Bytes) (hintMatches : ResourceType → Bytes → Bool)
    (msg : Message) (emitted : EmittedRecords)
    (h : writeAnnounceFiltered records out hintMatches = .ok (msg, emitted)) :
    emitted = unsuppressed records hintMatches emitted.nsec ∧
      EncodedAs names responseHeader msg
        (emitted.contents records [] records.ttlSecs true) := by
  obtain ⟨hptr, hsubs⟩ := lays_ptrs records names hown records.ttlSecs
  obtain ⟨hsrv, htxt⟩ := lays_instance records names hown .answer records.ttlSecs true
  obtain ⟨ha, haaaa⟩ := lays_addrs records names hown .answer records.ttlSecs true
  have htail : ∀ e : EmittedRecords, e.nsec = false → LaysSome (suffixPool names)
      (if e.isEmpty then pure e else do
        let nsec ← pushServiceNsec records
        pure { e with nsec := nsec })
      (fun r es => r = { e with nsec := r.nsec } ∧
        es = (r.additional records).map .record) := by
    intro e he
    split
    · refine (laysSome_pure _ e).mono _ _ _ _ ?_
      rintro r es ⟨rfl, rfl⟩
      refine ⟨rfl, ?_⟩
      simp only [EmittedRecords.additional, he, Bool.false_eq_true, if_false, List.map_nil]
    · refine (laysSome_bind _ _ _ _ _ (pushServiceNsec_lays records names hown)
        fun nsec => laysSome_pure _ { e with nsec := nsec }).mono _ _ _ _ ?_
      rintro r es ⟨nsec, xs, ys, rfl, ⟨rfl, rfl⟩, rfl⟩
      refine ⟨rfl, ?_⟩
      cases nsec <;> rfl
  have hlays := laysSome_bind _ _ _ _ _
    (laysSome_offer _ (hintMatches .ptr (writeCanonicalWireName records.instanceName.text)) _ _
      hptr) fun ptr =>
    laysSome_then _ _ _ _ _ hsubs (laysSome_bind _ _ _ _ _
      (laysSome_offer _ (hintMatches .srv (srvRdata records)) _ _ hsrv) fun srv =>
    laysSome_bind _ _ _ _ _
      (laysSome_offer _ (hintMatches .txt (writeCanonicalTxt records.txt)) _ _ htxt) fun txt =>
    laysSome_bind _ _ _ _ _
      (laysSome_offerEach _ (fun a => hintMatches .a a.octets) _
        (fun a => .record (aEntry records .answer records.ttlSecs true a)) records.aAddrs
        fun a _ => ha a) fun as =>
    laysSome_bind _ _ _ _ _
      (laysSome_offerEach _ (fun a => hintMatches .aaaa a.octets) _
        (fun a => .record (aaaaEntry records .answer records.ttlSecs true a)) records.aaaaAddrs
        fun a _ => haaaa a) fun aaaas =>
    htail
      { ptr := ptr
        srv := srv
        txt := txt
        a := as
        aaaa := aaaas
        subtypes := !records.subtypes.isEmpty
        nsec := false } rfl)
  obtain ⟨es, ⟨ptr, _, _, ⟨rfl, rfl⟩, ⟨_, ⟨srv, _, _, ⟨rfl, rfl⟩, ⟨txt, _, _, ⟨rfl, rfl⟩,
      ⟨as, _, _, ⟨rfl, rfl⟩, ⟨aaaas, _, _, ⟨rfl, rfl⟩, ⟨hr, rfl⟩, rfl⟩, rfl⟩, rfl⟩, rfl⟩, rfl⟩,
      rfl⟩, hspec⟩ :=
    encode_spec names _ out _ _ ⟨rfl, fun s => by cases s <;> rfl⟩ hlays msg emitted h
  refine ⟨hr, hspec _ ?_⟩
  have hans := emitted.answers_subtypes records records.ttlSecs true (by rw [hr])
  simp only [Contents.entries, EmittedRecords.contents, hans, List.map_nil, List.map_append,
    List.map_map, List.nil_append, List.append_assoc]
  rw [hr]
  cases hintMatches .ptr (writeCanonicalWireName records.instanceName.text) <;>
    cases hintMatches .srv (srvRdata records) <;>
      cases hintMatches .txt (writeCanonicalTxt records.txt) <;> rfl

end

end Respond
end Hick
