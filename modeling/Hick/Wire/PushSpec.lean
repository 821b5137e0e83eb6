import Mathlib
import Hick.Wire.BuilderSpec

/-!
# What a completed push appended

Each `push_*` call that completes lays one question or record down at the cursor: `QuestionAt` and
`RecordAt` say where its name, fixed fields and rdata are.
-/

namespace Hick.Wire
open Octets LabelSeq EncodeM MessageBuilder

def questionClassBits (q : QuestionEntry) : UInt16 :=
  q.qclass.toU16 ||| if q.unicastResponse then unicastResponseBit else 0

def recordClassBits (e : RecordEntry) : UInt16 :=
  ResourceClass.in_.toU16 ||| if e.cacheFlush then cacheFlushBit else 0

structure QuestionAt (m : Bytes) (at_ next : Nat) (q : QuestionEntry) : Prop where
  layout : ∃ len, NameAt m at_ len q.name.labels ∧ next = at_ + len + 4 ∧
    readBe16 m (at_ + len) = some q.qtype.toU16 ∧
    readBe16 m (at_ + len + 2) = some (questionClassBits q)

def txtOctets (segments : List Bytes) : Bytes :=
  if segments = [] then [0] else segments.flatMap prefixed

def bitmapOctets (presentTypes : List UInt16) : Bytes :=
  match typeBits presentTypes with
  | (_, none) => []
  | (bitmap, some maxByte) => 0 :: Fin.ofNat 256 (maxByte + 1) :: bitmap.take (maxByte + 1)

def RdataAt (m : Bytes) (at_ len : Nat) : EntryData → Prop
  | .a addr => len = 4 ∧ slice m at_ 4 = some addr.octets
  | .aaaa addr => len = 16 ∧ slice m at_ 16 = some addr.octets
  | .ptr target => NameAt m at_ len target.labels
  | .srv priority weight port target => ∃ n, len = 6 + n ∧
      slice m at_ 6 = some (be16 priority ++ (be16 weight ++ be16 port)) ∧
      NameAt m (at_ + 6) n target.labels
  | .txt segments => (∀ s ∈ segments, s.length ≤ 255) ∧
      slice m at_ len = some (txtOctets segments)
  | .nsec nextName presentTypes => ∃ n, len = n + (bitmapOctets presentTypes).length ∧
      NameAt m at_ n nextName.labels ∧
      slice m (at_ + n) (bitmapOctets presentTypes).length = some (bitmapOctets presentTypes)

structure RecordAt (m : Bytes) (at_ next : Nat) (e : RecordEntry) : Prop where
  layout : ∃ len rdlen, NameAt m at_ len e.owner.labels ∧
    slice m (at_ + len) 10 = some (be16 e.data.rtype.toU16 ++ (be16 (recordClassBits e) ++
      (be32 e.ttl ++ be16 rdlen))) ∧
    next = at_ + len + 10 + rdlen.toNat ∧ next ≤ m.length ∧
    RdataAt m (at_ + len + 10) rdlen.toNat e.data

def EntryData.names : EntryData → List Name
  | .ptr target => [target]
  | .srv _ _ _ target => [target]
  | .nsec nextName _ => [nextName]
  | _ => []

def Entry.names : Entry → List Name
  | .question q => [q.name]
  | .record r => r.owner :: r.data.names

section
variable (pool : List Label → Prop)

theorem writeSegments_wrote (segments : List Bytes) (b b' : MessageBuilder)
    (hf : b.cursor ≤ b.out.length) (h : (writeSegments segments).exec b = (.ok (), b')) :
    Wrote b b' (segments.flatMap prefixed) ∧ ∀ s ∈ segments, s.length ≤ 255 := by
  induction segments generalizing b with
  | nil =>
    cases h
    exact ⟨⟨rfl, hf, rfl, rfl, rfl, rfl, (List.append_nil _).symm⟩, by simp⟩
  | cons s rest ih =>
    unfold writeSegments at h
    split at h
    · obtain ⟨u, b1, h1, _⟩ := bind_ok _ _ _ _ _ h
      cases h1
    · rename_i hlen
      obtain ⟨u, b1, h1, h⟩ := bind_ok _ _ _ _ _ h
      obtain ⟨u, b2, h2, h3⟩ := bind_ok _ _ _ _ _ h
      have w1 := writeSlice_wrote _ b b1 h1
      have w2 := w1.trans b b1 b2 _ _ (writeBytes_wrote s b1 b2 w1.fits h2)
      obtain ⟨w3, hrest⟩ := ih b2 w2.fits h3
      exact ⟨w2.trans b b2 b' _ _ w3, List.forall_mem_cons.mpr ⟨by omega, hrest⟩⟩

theorem writeTxtRdata_wrote (segments : List Bytes) (b b' : MessageBuilder)
    (hf : b.cursor ≤ b.out.length) (h : (writeTxtRdata segments).exec b = (.ok (), b')) :
    Wrote b b' (txtOctets segments) ∧ ∀ s ∈ segments, s.length ≤ 255 := by
  obtain ⟨u, b1, h1, h2⟩ := bind_ok _ _ _ _ _ h
  obtain ⟨w1, hlen⟩ := writeSegments_wrote segments b b1 hf h1
  refine ⟨?_, hlen⟩
  unfold txtOctets
  split at h2
  · rename_i hnil
    rw [if_pos hnil]
    rw [hnil] at w1
    exact w1.trans b b1 b' _ _ (writeSlice_wrote [0] b1 b' h2)
  · rename_i hne
    rw [if_neg hne]
    cases h2
    exact w1

theorem setTypeBit_bound (st : Bytes × Option Nat) (t : UInt16)
    (h : st.1.length = 32 ∧ ∀ m, st.2 = some m → m < 32) :
    (setTypeBit st t).1.length = 32 ∧ ∀ m, (setTypeBit st t).2 = some m → m < 32 := by
  unfold setTypeBit
  split
  · exact h
  · simp only
    split
    · exact h
    · rename_i slot hslot
      have hidx := (List.getElem?_eq_some_iff.mp hslot).1
      refine ⟨by rw [List.length_set]; exact h.1, ?_⟩
      intro m hm
      simp only [Option.some.injEq] at hm
      cases hst : st.2 with
      | none =>
        rw [hst] at hm
        simp only [Option.elim_none] at hm
        omega
      | some k =>
        rw [hst] at hm
        have hk := h.2 k hst
        simp only [Option.elim_some] at hm
        omega

theorem typeBits_bound (presentTypes : List UInt16) :
    (typeBits presentTypes).1.length = 32 ∧
      ∀ m, (typeBits presentTypes).2 = some m → m < 32 := by
  unfold typeBits
  have hfold : ∀ (st : Bytes × Option Nat), (st.1.length = 32 ∧ ∀ m, st.2 = some m → m < 32) →
      ((presentTypes.foldl setTypeBit st).1.length = 32 ∧
        ∀ m, (presentTypes.foldl setTypeBit st).2 = some m → m < 32) := by
    induction presentTypes with
    | nil => exact fun st h => h
    | cons t ts ih => exact fun st h => ih _ (setTypeBit_bound st t h)
  exact hfold _ ⟨List.length_replicate, by simp⟩

theorem writeBitmap_wrote (bitmap : Bytes) (n i : Nat) (b b' : MessageBuilder)
    (hf : b.cursor ≤ b.out.length) (hi : i + n ≤ bitmap.length)
    (h : (writeBitmap bitmap n i).exec b = (.ok (), b')) :
    Wrote b b' ((bitmap.drop i).take n) := by
  induction n generalizing i b with
  | zero =>
    cases h
    exact ⟨rfl, hf, rfl, rfl, rfl, rfl, by simp⟩
  | succ n ih =>
    obtain ⟨u, b1, h1, h2⟩ := bind_ok _ _ _ _ _ h
    have hlt : i < bitmap.length := by omega
    have w1 := writeSlice_wrote _ b b1 h1
    rw [List.getElem?_eq_getElem hlt, Option.getD_some] at w1
    have w2 := ih (i + 1) b1 w1.fits (by omega) h2
    have hdrop : (bitmap.drop i).take (n + 1) =
        [bitmap[i]] ++ (bitmap.drop (i + 1)).take n := by
      rw [List.drop_eq_getElem_cons hlt, List.take_succ_cons]
      rfl
    rw [hdrop]
    exact w1.trans b b1 b' _ _ w2

variable (sect : RecordSection) (name : Name) (ttl : UInt32)

theorem writeNsecRdata_emission (presentTypes : List UInt16)
    (hpool : Covers pool name) (b b' : MessageBuilder) (hf : b.cursor ≤ b.out.length)
    (h : (writeNsecRdata name presentTypes).exec b = (.ok (), b')) :
    Emission pool b b' [] (fun m =>
      RdataAt m b.cursor (b'.cursor - b.cursor) (.nsec name presentTypes)) := by
  obtain ⟨u, b1, h1, h2⟩ := bind_ok _ _ _ _ _ h
  have e1 := writeName_emission pool name hpool b b1 hf h1
  have hw : Wrote b1 b' (bitmapOctets presentTypes) := by
    obtain ⟨hlen, hmax⟩ := typeBits_bound presentTypes
    unfold bitmapOctets
    generalize typeBits presentTypes = bits at hlen hmax h2 ⊢
    obtain ⟨bitmap, maxByte⟩ := bits
    cases maxByte with
    | none =>
      cases h2
      exact ⟨rfl, e1.fits, rfl, rfl, rfl, rfl, (List.append_nil _).symm⟩
    | some maxByte =>
      have hlt := hmax maxByte rfl
      obtain ⟨u, b2, h2, h3⟩ := bind_ok _ _ _ _ _ h2
      obtain ⟨u, b3, h3, h4⟩ := bind_ok _ _ _ _ _ h3
      have w1 := writeSlice_wrote _ b1 b2 h2
      have w2 := w1.trans b1 b2 b3 _ _ (writeSlice_wrote _ b2 b3 h3)
      have w3 := writeBitmap_wrote bitmap _ 0 b3 b' w2.fits (by simp only at hlen; omega) h4
      exact w2.trans b1 b3 b' _ _ w3
  have hc1 := e1.cursor_le
  have hc2 := hw.cursor
  refine (e1.trans pool _ _ _ _ _ _ _ (hw.emission pool)).mono pool _ _ _ _ _ ?_
  rintro m ⟨hn, hs⟩
  refine ⟨b1.cursor - b.cursor, by omega, hn, ?_⟩
  rw [Nat.add_sub_cancel' hc1]
  exact hs

theorem writeSrvRdata_emission (priority weight port : UInt16) (target : Name)
    (hpool : Covers pool target) (b b' : MessageBuilder)
    (h : (writeSrvRdata priority weight port target).exec b = (.ok (), b')) :
    Emission pool b b' [] (fun m =>
      RdataAt m b.cursor (b'.cursor - b.cursor) (.srv priority weight port target)) := by
  obtain ⟨u, b1, h1, h⟩ := bind_ok _ _ _ _ _ h
  obtain ⟨u, b2, h2, h⟩ := bind_ok _ _ _ _ _ h
  obtain ⟨u, b3, h3, h4⟩ := bind_ok _ _ _ _ _ h
  have w2 := (writeSlice_wrote _ b1 b2 h2).trans b1 b2 b3 _ _ (writeSlice_wrote _ b2 b3 h3)
  have w3 := (writeSlice_wrote _ b b1 h1).trans b b1 b3 _ _ w2
  have e4 := writeName_emission pool target hpool b3 b' w3.fits h4
  have hc3 : b3.cursor = b.cursor + 6 := w3.cursor
  have hc4 := e4.cursor_le
  refine ((w3.emission pool).trans pool _ _ _ _ _ _ _ e4).mono pool _ _ _ _ _ ?_
  rintro m ⟨hs, hn⟩
  rw [hc3] at hn
  exact ⟨b'.cursor - (b.cursor + 6), by omega, hs, hn⟩

theorem writeRecordHead_emission (e : RecordEntry) (hpool : Covers pool e.owner)
    (b b' : MessageBuilder) (hf : b.cursor ≤ b.out.length)
    (h : (writeRecordHead e).exec b = (.ok (), b')) :
    ∃ len, b'.cursor = b.cursor + len + 8 ∧ Emission pool b b' [] (fun m =>
      NameAt m b.cursor len e.owner.labels ∧ slice m (b.cursor + len) 8 =
        some (be16 e.data.rtype.toU16 ++ (be16 (recordClassBits e) ++ be32 e.ttl))) := by
  obtain ⟨u, b1, h1, h⟩ := bind_ok _ _ _ _ _ h
  obtain ⟨u, b2, h2, h⟩ := bind_ok _ _ _ _ _ h
  obtain ⟨u, b3, h3, h4⟩ := bind_ok _ _ _ _ _ h
  have e1 := writeName_emission pool e.owner hpool b b1 hf h1
  have w3 := (writeSlice_wrote _ b2 b3 h3).trans b2 b3 b' _ _ (writeSlice_wrote _ b3 b' h4)
  have w2 := (writeSlice_wrote _ b1 b2 h2).trans b1 b2 b' _ _ w3
  have hc1 := e1.cursor_le
  have hc2 : b'.cursor = b1.cursor + 8 := w2.cursor
  refine ⟨b1.cursor - b.cursor, by omega, ?_⟩
  refine (e1.trans pool _ _ _ _ _ _ _ (w2.emission pool)).mono pool _ _ _ _ _ ?_
  rintro m ⟨hn, hs⟩
  rw [Nat.add_sub_cancel' hc1]
  exact ⟨hn, hs⟩

theorem countRecord_emission (e : RecordEntry) (b b' : MessageBuilder)
    (hf : b.cursor ≤ b.out.length) (h : (countRecord e).exec b = (.ok (), b')) :
    b'.cursor = b.cursor ∧ Emission pool b b' [.record e] (fun _ => True) := by
  cases h
  refine ⟨rfl, rfl, hf, rfl, rfl, [], rfl, (List.append_nil _).symm, ?_⟩
  intro _ _ w _ hs
  rw [List.append_nil]
  exact ⟨hs, fun _ => trivial⟩

theorem slice_ten (m : Bytes) (at_ : Nat) (rtype cls rdlen : UInt16) (ttl : UInt32)
    (h1 : slice m at_ 8 = some (be16 rtype ++ (be16 cls ++ be32 ttl)))
    (h2 : slice m (at_ + 8) 2 = some (be16 rdlen)) :
    slice m at_ 10 = some (be16 rtype ++ (be16 cls ++ (be32 ttl ++ be16 rdlen))) := by
  have hl := (slice_length m _ _ _ h2).2
  unfold slice at h1 h2 ⊢
  rw [if_pos (by omega), Option.some.injEq] at h1 h2
  rw [if_pos (by omega), show (10 : Nat) = 8 + 2 from rfl, List.take_add, h1, List.drop_drop, h2]
  simp only [List.append_assoc]

theorem pushFixed_emission (e : RecordEntry) (rdlen : UInt16) (octets : Bytes)
    (hpool : Covers pool e.owner) (hlen : rdlen.toNat = octets.length)
    (hdata : ∀ m at_, slice m at_ octets.length = some octets →
      RdataAt m at_ octets.length e.data)
    (b b' : MessageBuilder) (hf : b.cursor ≤ b.out.length)
    (h : (pushFixed e rdlen octets).exec b = (.ok (), b')) :
    Emission pool b b' [.record e] (fun m => RecordAt m b.cursor b'.cursor e) := by
  obtain ⟨u, b1, h1, h⟩ := bind_ok _ _ _ _ _ h
  obtain ⟨u, b2, h2, h⟩ := bind_ok _ _ _ _ _ h
  obtain ⟨u, b3, h3, h4⟩ := bind_ok _ _ _ _ _ h
  obtain ⟨len, hc1, e1⟩ := writeRecordHead_emission pool e hpool b b1 hf h1
  have w2 := writeSlice_wrote _ b1 b2 h2
  have w3 := writeBytes_wrote octets b2 b3 w2.fits h3
  obtain ⟨hc4, e4⟩ := countRecord_emission pool e b3 b' w3.fits h4
  have hc2 : b2.cursor = b1.cursor + 2 := w2.cursor
  have hc3 := w3.cursor
  have e23 := (w2.emission pool).trans pool _ _ _ _ _ _ _ (w3.emission pool)
  have e234 := e23.trans pool _ _ _ _ _ _ _ e4
  refine (e1.trans pool _ _ _ _ _ _ _ e234).mono pool _ _ _ _ _ ?_
  rintro m ⟨⟨hn, hs8⟩, ⟨hs2, hs3⟩, _⟩
  rw [hc1, be16_length] at hs2
  have hfit := (slice_length m _ _ _ hs3).2
  rw [hc2, hc1] at hs3
  refine ⟨len, rdlen, hn, slice_ten m _ _ _ _ _ hs8 hs2, by omega, by omega, ?_⟩
  rw [hlen]
  exact hdata m _ hs3

theorem overwrite_inside (out out' pre old post bs : Bytes) (n : Nat)
    (htake : out.take n = pre ++ (old ++ post)) (hold : old.length = bs.length)
    (h : overwrite out pre.length bs = some out') :
    out'.take n = pre ++ (bs ++ post) := by
  have hsplit : out = pre ++ (old ++ (post ++ out.drop n)) := by
    conv_lhs => rw [← List.take_append_drop n out, htake]
    simp only [List.append_assoc]
  have hlen : (pre ++ (old ++ post)).length ≤ n := by
    rw [← htake, List.length_take]
    exact Nat.min_le_left _ _
  have hout : out' = pre ++ (bs ++ post) ++ out.drop n := by
    unfold overwrite at h
    split at h
    · cases h
      have htakePre : out.take pre.length = pre := by
        conv_lhs => rw [hsplit]
        exact List.take_left
      have hdropOld : out.drop (pre.length + bs.length) = post ++ out.drop n := by
        conv_lhs => rw [hsplit, ← List.append_assoc, ← hold, ← List.length_append]
        exact List.drop_left
      rw [htakePre, hdropOld]
      simp only [List.append_assoc]
    · cases h
  by_cases hn : n ≤ out.length
  · have hln : (pre ++ (bs ++ post)).length = n := by
      have h1 := congrArg List.length htake
      simp only [List.length_take, List.length_append] at h1 ⊢
      omega
    rw [hout, ← hln, List.take_left]
  · have hd : out.drop n = [] := List.drop_eq_nil_of_le (by omega)
    rw [hout, hd, List.append_nil, List.take_of_length_le]
    simp only [List.length_append] at hlen ⊢
    omega

theorem pushPatched_emission (e : RecordEntry) (rdata : EncodeM Unit)
    (hpool : Covers pool e.owner)
    (hdata : ∀ b b', b.cursor ≤ b.out.length → rdata.exec b = (.ok (), b') →
      Emission pool b b' [] (fun m => RdataAt m b.cursor (b'.cursor - b.cursor) e.data))
    (b b' : MessageBuilder) (hf : b.cursor ≤ b.out.length)
    (h : (pushPatched e rdata).exec b = (.ok (), b')) :
    Emission pool b b' [.record e] (fun m => RecordAt m b.cursor b'.cursor e) := by
  obtain ⟨u, b1, h1, h⟩ := bind_ok _ _ _ _ _ h
  have h := get_bind_ok _ _ _ _ h
  obtain ⟨u, b2, h2, h⟩ := bind_ok _ _ _ _ _ h
  have h := get_bind_ok _ _ _ _ h
  obtain ⟨u, b3, h3, h⟩ := bind_ok _ _ _ _ _ h
  have h := get_bind_ok _ _ _ _ h
  obtain ⟨rdlen, b3', hlen, h⟩ := bind_ok _ _ _ _ _ h
  obtain ⟨hb3, hrd, _⟩ := u16TryFrom_ok _ _ _ _ hlen
  subst hb3
  obtain ⟨u, b4, h4, h5⟩ := bind_ok _ _ _ _ _ h
  obtain ⟨len, hc1, e1⟩ := writeRecordHead_emission pool e hpool b b1 hf h1
  have w2 := writeSlice_wrote _ b1 b2 h2
  have e3 := hdata b2 b3 w2.fits h3
  have hc2 : b2.cursor = b1.cursor + 2 := w2.cursor
  have hc3 := e3.cursor_le
  -- the stored length replaces the placeholder and leaves the rest of the record in place
  have e24 : Emission pool b1 b4 [] (fun m => slice m b1.cursor 2 = some (be16 rdlen) ∧
      RdataAt m (b1.cursor + 2) rdlen.toNat e.data) ∧ b4.cursor = b3.cursor := by
    have h4 := get_bind_ok _ _ _ _ h4
    cases ho : overwrite b3.out b1.cursor (be16 rdlen) with
    | none =>
      rw [ho] at h4
      cases h4
    | some out =>
      rw [ho] at h4
      cases h4
      obtain ⟨frag, hc, hw, hm⟩ := e3.appended
      have hcap := overwrite_length b3.out b1.cursor _ out ho
      refine ⟨⟨?_, ?_, e3.header.trans w2.header, ?_, be16 rdlen ++ frag, ?_, ?_, ?_⟩, rfl⟩
      · exact hcap.trans (e3.capacity.trans w2.capacity)
      · have := e3.fits
        simp only [hcap]
        exact this
      · have hp := e3.pushed
        rw [w2.pushed] at hp
        exact hp
      · rw [List.length_append, be16_length]
        simp only
        omega
      · have hw1 : b1.written.length = b1.cursor := by
          rw [written, List.length_take, Nat.min_eq_left e1.fits]
        have htake : b3.out.take b3.cursor = b1.written ++ (be16 0 ++ frag) := by
          have h := hw
          rw [w2.written, List.append_assoc] at h
          exact h
        rw [← hw1] at ho
        exact overwrite_inside _ out _ (be16 0) frag (be16 rdlen) _ htake rfl ho
      · intro hinj hle w hwlen hs
        have hlen2 : (w ++ be16 rdlen).length = b2.cursor := by
          rw [List.length_append, hwlen, be16_length, hc2]
        have hs2 : Sound hashSuffix pool (w ++ be16 rdlen) b2.compression.dict := by
          rw [w2.compression]
          exact hs.append hashSuffix pool w _ _
        obtain ⟨hs3, hq⟩ := hm hinj hle (w ++ be16 rdlen) hlen2 hs2
        rw [List.append_assoc] at hs3
        refine ⟨hs3, fun rest => ⟨?_, ?_⟩⟩
        · rw [← hwlen, List.append_assoc]
          exact slice_middle w (be16 rdlen) (frag ++ rest)
        · have h := hq rest
          rw [List.append_assoc, ← hrd, hc2] at h
          rw [List.append_assoc (be16 rdlen)]
          exact h
  obtain ⟨e24, hc4⟩ := e24
  obtain ⟨hc5, e5⟩ := countRecord_emission pool e b4 b' e24.fits h5
  have e25 := e24.trans pool _ _ _ _ _ _ _ e5
  refine ((e1.trans pool _ _ _ _ _ _ _ e25).within pool _ _ _ _).mono pool _ _ _ _ _ ?_
  rintro m ⟨⟨⟨hn, hs8⟩, ⟨hs2, hd⟩, _⟩, hm⟩
  rw [hc1] at hs2 hd
  exact ⟨len, rdlen, hn, slice_ten m _ _ _ _ _ hs8 hs2, by omega, hm, hd⟩

def EntryAt (m : Bytes) (at_ next : Nat) : Entry → Prop
  | .question q => QuestionAt m at_ next q
  | .record e => RecordAt m at_ next e

def EntriesAt (m : Bytes) : Nat → Nat → List Entry → Prop
  | at_, next, [] => at_ = next
  | at_, next, e :: es => ∃ mid, EntryAt m at_ mid e ∧ EntriesAt m mid next es

theorem EntriesAt.append (m : Bytes) (at_ mid next : Nat) (xs ys : List Entry)
    (h1 : EntriesAt m at_ mid xs) (h2 : EntriesAt m mid next ys) :
    EntriesAt m at_ next (xs ++ ys) := by
  induction xs generalizing at_ with
  | nil =>
    rw [EntriesAt] at h1
    rw [h1]
    exact h2
  | cons x xs ih =>
    obtain ⟨k, hx, hxs⟩ := h1
    exact ⟨k, hx, ih k hxs⟩

/-- Completing `prog` pushes exactly the entries `es` and lays them down in order. -/
def Lays (prog : EncodeM Unit) (es : List Entry) : Prop :=
  ∀ b b', b.cursor ≤ b.out.length → prog.exec b = (.ok (), b') →
    Emission pool b b' es (fun m => EntriesAt m b.cursor b'.cursor es)

theorem lays_nil : Lays pool (pure ()) [] := by
  intro b b' hf h
  cases h
  exact (Emission.refl pool b hf).mono pool _ _ _ _ _ fun _ _ => rfl

theorem lays_bind (p q : EncodeM Unit) (xs ys : List Entry) (hp : Lays pool p xs)
    (hq : Lays pool q ys) : Lays pool (p >>= fun _ => q) (xs ++ ys) := by
  intro b b' hf h
  obtain ⟨u, b1, h1, h2⟩ := bind_ok _ _ _ _ _ h
  have e1 := hp b b1 hf h1
  have e2 := hq b1 b' e1.fits h2
  exact (e1.trans pool _ _ _ _ _ _ _ e2).mono pool _ _ _ _ _
    fun m hm => hm.1.append m _ _ _ _ _ hm.2

theorem lays_each {α : Type} (push : α → EncodeM Unit) (entry : α → Entry) (xs : List α)
    (h : ∀ x ∈ xs, Lays pool (push x) [entry x]) :
    Lays pool (pushEach push xs) (xs.map entry) := by
  induction xs with
  | nil => exact lays_nil pool
  | cons x xs ih =>
    obtain ⟨hx, hxs⟩ := List.forall_mem_cons.mp h
    exact lays_bind pool _ _ [entry x] _ hx (ih hxs)

theorem Emission.lays_record (b b' : MessageBuilder) (e : RecordEntry)
    (h : Emission pool b b' [.record e] (fun m => RecordAt m b.cursor b'.cursor e)) :
    Emission pool b b' [.record e] (fun m => EntriesAt m b.cursor b'.cursor [.record e]) :=
  h.mono pool _ _ _ _ _ fun _ hm => ⟨_, hm, rfl⟩

theorem lays_question (q : QuestionEntry) (hpool : Covers pool q.name) :
    Lays pool (pushQuestion q.name q.qtype q.qclass q.unicastResponse) [.question q] := by
  intro b b' hf h
  obtain ⟨u, b1, h1, h⟩ := bind_ok _ _ _ _ _ h
  obtain ⟨u, b2, h2, h⟩ := bind_ok _ _ _ _ _ h
  obtain ⟨u, b3, h3, h4⟩ := bind_ok _ _ _ _ _ h
  have e1 := writeName_emission pool q.name hpool b b1 hf h1
  have w2 := writeSlice_wrote _ b1 b2 h2
  have w3 := writeSlice_wrote _ b2 b3 h3
  have hc1 := e1.cursor_le
  have hc2 : b2.cursor = b1.cursor + 2 := w2.cursor
  have hc3 : b3.cursor = b2.cursor + 2 := w3.cursor
  have e4 : Emission pool b3 b' [.question q] (fun _ => True) ∧ b'.cursor = b3.cursor := by
    cases h4
    refine ⟨⟨rfl, w3.fits, rfl, rfl, [], rfl, (List.append_nil _).symm, ?_⟩, rfl⟩
    intro _ _ w _ hs
    rw [List.append_nil]
    exact ⟨hs, fun _ => trivial⟩
  obtain ⟨e4, hc4⟩ := e4
  have e34 := (w3.emission pool).trans pool _ _ _ _ _ _ _ e4
  have e24 := (w2.emission pool).trans pool _ _ _ _ _ _ _ e34
  refine (e1.trans pool _ _ _ _ _ _ _ e24).mono pool _ _ _ _ _ ?_
  rintro m ⟨hn, hs2, hs3, _⟩
  have hsum : b.cursor + (b1.cursor - b.cursor) = b1.cursor := by omega
  rw [hc2] at hs3
  refine ⟨b'.cursor, ⟨b1.cursor - b.cursor, hn, by omega, ?_, ?_⟩, rfl⟩
  · rw [hsum]
    exact readBe16_of_slice m _ _ hs2
  · rw [hsum]
    exact readBe16_of_slice m _ _ hs3

theorem lays_a (addr : Ipv4Addr)
    (cacheFlush : Bool) (hpool : Covers pool name) :
    Lays pool (pushA sect name ttl addr cacheFlush)
      [.record ⟨sect, name, ttl, cacheFlush, .a addr⟩] := by
  intro b b' hf h
  refine (pushFixed_emission pool _ 4 addr.octets hpool ?_ ?_ b b' hf h).lays_record
  · rw [addr.length_eq]
    rfl
  · intro m at_ hs
    rw [addr.length_eq] at hs ⊢
    exact ⟨rfl, hs⟩

theorem lays_aaaa (addr : Ipv6Addr)
    (cacheFlush : Bool) (hpool : Covers pool name) :
    Lays pool (pushAaaa sect name ttl addr cacheFlush)
      [.record ⟨sect, name, ttl, cacheFlush, .aaaa addr⟩] := by
  intro b b' hf h
  refine (pushFixed_emission pool _ 16 addr.octets hpool ?_ ?_ b b' hf h).lays_record
  · rw [addr.length_eq]
    rfl
  · intro m at_ hs
    rw [addr.length_eq] at hs ⊢
    exact ⟨rfl, hs⟩

theorem lays_ptr (target : Name)
    (hpool : Covers pool name) (htarget : Covers pool target) :
    Lays pool (pushPtr sect name ttl target)
      [.record ⟨sect, name, ttl, false, .ptr target⟩] := by
  intro b b' hf h
  exact (pushPatched_emission pool ⟨sect, name, ttl, false, .ptr target⟩ _ hpool
    (fun b b' hf h => writeName_emission pool target htarget b b' hf h) b b' hf h).lays_record

theorem lays_srv (priority weight port : UInt16) (target : Name) (cacheFlush : Bool)
    (hpool : Covers pool name) (htarget : Covers pool target) :
    Lays pool (pushSrv sect name ttl priority weight port target cacheFlush)
      [.record ⟨sect, name, ttl, cacheFlush, .srv priority weight port target⟩] := by
  intro b b' hf h
  exact (pushPatched_emission pool _ _ hpool
    (fun b b' _ h => writeSrvRdata_emission pool _ _ _ target htarget b b' h)
    b b' hf h).lays_record

theorem lays_txt (segments : List Bytes)
    (cacheFlush : Bool) (hpool : Covers pool name) :
    Lays pool (pushTxt sect name ttl segments cacheFlush)
      [.record ⟨sect, name, ttl, cacheFlush, .txt segments⟩] := by
  intro b b' hf h
  refine (pushPatched_emission pool _ _ hpool ?_ b b' hf h).lays_record
  intro b b' hf h
  obtain ⟨hw, hlen⟩ := writeTxtRdata_wrote segments b b' hf h
  refine (hw.emission pool).mono pool _ _ _ _ _ fun m hm => ⟨hlen, ?_⟩
  rw [hw.cursor, Nat.add_sub_cancel_left]
  exact hm

theorem lays_nsec (types : List UInt16) (cacheFlush : Bool)
    (hpool : Covers pool name) :
    Lays pool (pushNsecAdditional name ttl types cacheFlush)
      [.record ⟨.additional, name, ttl, cacheFlush, .nsec name types⟩] := by
  intro b b' hf h
  exact (pushPatched_emission pool _ _ hpool
    (fun b b' hf h => writeNsecRdata_emission pool name types hpool b b' hf h)
    b b' hf h).lays_record

end
end Hick.Wire
