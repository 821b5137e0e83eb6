import Mathlib
import Hick.Wire.NameLabels
import Hick.Wire.Reader

/-!
# One canonical rdata per record (wire/record/mod.rs:230-398)

Which octets the canonical decoder makes depends on the form asked for; whether it makes any does
not.
-/

namespace Hick.Wire
open Octets LabelSeq

variable (foldCase : Bool) (m : Bytes)

theorem slice_iff (p : Nat) (bs : Bytes) :
    slice m p bs.length = some bs ↔ ∃ post, m.drop p = bs ++ post ∧ p + bs.length ≤ m.length := by
  constructor
  · intro h
    obtain ⟨-, hle⟩ := slice_length m p _ bs h
    unfold slice at h
    rw [if_pos hle, Option.some.injEq] at h
    refine ⟨(m.drop p).drop bs.length, ?_, hle⟩
    conv_lhs => rw [← List.take_append_drop bs.length (m.drop p), h]
  · rintro ⟨post, hdrop, hle⟩
    unfold slice
    rw [if_pos hle, hdrop, List.take_left]

theorem slice_split (p : Nat) (xs ys : Bytes)
    (h : slice m p (xs ++ ys).length = some (xs ++ ys)) :
    slice m p xs.length = some xs ∧ slice m (p + xs.length) ys.length = some ys := by
  obtain ⟨post, hdrop, hle⟩ := (slice_iff m p (xs ++ ys)).mp h
  rw [List.length_append] at hle
  constructor
  · exact (slice_iff m p xs).mpr ⟨ys ++ post, by rw [hdrop, List.append_assoc], by omega⟩
  · refine (slice_iff m _ ys).mpr ⟨post, ?_, by omega⟩
    rw [← List.drop_drop, hdrop, List.append_assoc, List.drop_left]

theorem slice_head (p : Nat) (x : Byte) (xs : Bytes)
    (h : slice m p (x :: xs).length = some (x :: xs)) :
    m[p]? = some x ∧ slice m (p + 1) xs.length = some xs := by
  obtain ⟨h1, h2⟩ := slice_split m p [x] xs h
  refine ⟨?_, h2⟩
  obtain ⟨post, hdrop, -⟩ := (slice_iff m p [x]).mp h1
  rw [← List.head?_drop, hdrop]
  rfl

def spelled (foldCase : Bool) (l : Label) : Label := if foldCase then lower l else l

theorem spelled_length (l : Label) : (spelled foldCase l).length = l.length := by
  unfold spelled
  split
  · exact lower_length l
  · rfl

theorem spelled_idem (l : Label) :
    spelled foldCase (spelled foldCase l) = spelled foldCase l := by
  unfold spelled
  split
  · exact lower_idem l
  · rfl

theorem wireOctets_cons (l : Label) (ls : List Label) :
    wireOctets (l :: ls) = prefixed l ++ wireOctets ls := by
  simp only [wireOctets, List.flatMap_cons, List.append_assoc]

theorem wireLen_spelled (ls : List Label) :
    LabelSeq.wireLen (ls.map (spelled foldCase)) = LabelSeq.wireLen ls := by
  simp only [LabelSeq.wireLen, List.map_map, Function.comp_def, spelled_length]

theorem writeWireLoop_walk (ls : List Label) (hp : ∀ l ∈ ls, Plain l)
    (encoded : Nat) (hw : encoded + LabelSeq.wireLen ls ≤ 256) :
    NameRef.writeWireLoop foldCase encoded (ls.map .ok) =
        .ok (wireOctets (ls.map (spelled foldCase))) ∧
      ∀ e, NameRef.writeWireLoop foldCase encoded (ls.map .ok ++ [.error e]) = .error e := by
  induction ls generalizing encoded with
  | nil => exact ⟨rfl, fun _ => rfl⟩
  | cons l ls ih =>
    obtain ⟨hpl, hprest⟩ := List.forall_mem_cons.mp hp
    rw [wireLen_cons] at hw
    have hpos : 1 ≤ LabelSeq.wireLen ls := by
      simp only [LabelSeq.wireLen]
      omega
    have hlen : min l.length maxLabelBytes = l.length := Nat.min_eq_left hpl.2
    have htake : l.take maxLabelBytes = l := List.take_of_length_le hpl.2
    have hne : l.isEmpty = false := by
      simpa using List.length_pos_iff.mp hpl.1
    obtain ⟨hok, herr⟩ := ih hprest (encoded + (1 + l.length)) (by omega)
    constructor
    · simp only [List.map_cons, NameRef.writeWireLoop, hne, Bool.false_eq_true, if_false, hlen,
        htake]
      rw [if_neg (by simp only [maxNameBytes]; omega), hok, wireOctets_cons, prefixed,
        spelled_length]
      rfl
    · intro e
      simp only [List.map_cons, List.cons_append, NameRef.writeWireLoop, hne, Bool.false_eq_true,
        if_false, hlen]
      rw [if_neg (by simp only [maxNameBytes]; omega), herr e]

theorem writeWire_cases (n : NameRef) :
    (∃ ls : List Label, (∀ l ∈ ls, Plain l) ∧ LabelSeq.wireLen ls ≤ 255 ∧
        ∀ foldCase, n.writeWire foldCase = .ok (wireOctets (ls.map (spelled foldCase)))) ∨
      ∃ e, ∀ foldCase, n.writeWire foldCase = .error e := by
  obtain ⟨ls, tail, hops, dest, hlabels, htail, -, walk, hw, -⟩ :=
    NameRef.labels_walk n.message n.start
  have hp := walk.plain _ _ _ _ _
  simp only [maxNameBytes] at hw
  have hlabels : n.labels = ls.map .ok ++ tail := hlabels
  rcases htail with ⟨rfl, -⟩ | ⟨e, rfl⟩
  · refine .inl ⟨ls, hp, hw, fun foldCase => ?_⟩
    unfold NameRef.writeWire
    rw [hlabels, List.append_nil]
    exact (writeWireLoop_walk foldCase ls hp 1 (by omega)).1
  · refine .inr ⟨e, fun foldCase => ?_⟩
    unfold NameRef.writeWire
    rw [hlabels]
    exact (writeWireLoop_walk foldCase ls hp 1 (by omega)).2 e

theorem writeWire_isOk (n : NameRef) (foldCase foldCase' : Bool) :
    (n.writeWire foldCase).isOk = (n.writeWire foldCase').isOk := by
  rcases writeWire_cases n with ⟨ls, -, -, h⟩ | ⟨e, h⟩
  · rw [h foldCase, h foldCase']
    rfl
  · rw [h foldCase, h foldCase']

theorem expands_wireOctets (ls : List Label) (hp : ∀ l ∈ ls, Plain l) (p : Nat)
    (h : slice m p (wireOctets ls).length = some (wireOctets ls)) :
    Expands m p 0 ls ∧ Occupies m p (wireOctets ls).length := by
  induction ls generalizing p with
  | nil =>
    obtain ⟨h0, -⟩ := slice_head m p 0 [] h
    exact ⟨.root p h0, .root p h0⟩
  | cons l ls ih =>
    obtain ⟨hpl, hprest⟩ := List.forall_mem_cons.mp hp
    rw [wireOctets_cons] at h
    obtain ⟨hl, hrest⟩ := slice_split m p _ _ h
    obtain ⟨hb, hs⟩ := slice_head m p _ _ hl
    rw [prefixed_length, ← Nat.add_assoc] at hrest
    obtain ⟨hx, ho⟩ := ih hprest _ hrest
    have hval : (Fin.ofNat 256 l.length : Byte).val = l.length := by
      have := hpl.2
      simp only [Fin.ofNat]
      omega
    refine ⟨.label p 0 _ l ls hb hval hpl hs hx, ?_⟩
    rw [wireOctets_cons, List.length_append, prefixed_length]
    exact .label p _ _ l hb hval hpl hs ho

theorem writeWire_again (n : NameRef) (foldCase : Bool) (wire : Bytes)
    (h : n.writeWire foldCase = .ok wire) (m : Bytes) (hm : m.length ≤ 65535) (p : Nat)
    (hs : slice m p wire.length = some wire) :
    NameRef.tryParse m p = .ok (⟨m, p⟩, wire.length) ∧
      (⟨m, p⟩ : NameRef).writeWire foldCase = .ok wire := by
  rcases writeWire_cases n with ⟨ls, hp, hw, hwrite⟩ | ⟨e, herr⟩
  · rw [hwrite foldCase, Except.ok.injEq] at h
    subst h
    have hp' : ∀ l ∈ ls.map (spelled foldCase), Plain l := by
      intro l hl
      obtain ⟨l', hmem, rfl⟩ := List.mem_map.mp hl
      unfold Plain
      rw [spelled_length]
      exact hp l' hmem
    have hw' : LabelSeq.wireLen (ls.map (spelled foldCase)) ≤ 255 := by
      rw [wireLen_spelled]
      exact hw
    obtain ⟨hx, ho⟩ := expands_wireOctets m _ hp' p hs
    have hlt := hx.lt_length m p 0 _
    refine ⟨NameRef.tryParse_of_occupies m p _ ho (by omega), ?_⟩
    unfold NameRef.writeWire
    rw [NameRef.labels_of_expands m p 0 _ hx hm (by omega) hw',
      (writeWireLoop_walk foldCase _ hp' 1 (by omega)).1, List.map_map]
    congr 2
    exact List.map_congr_left fun l _ => spelled_idem foldCase l
  · rw [herr foldCase] at h
    cases h

theorem canonicalTxt_self (fuel : Nat) (rdata out : Bytes) (hf : rdata.length ≤ fuel)
    (h : canonicalTxt (txtSegments fuel rdata) = .ok out) : out = rdata := by
  induction fuel generalizing rdata out with
  | zero =>
    have hnil : rdata = [] := List.eq_nil_of_length_eq_zero (by omega)
    subst hnil
    cases h
    rfl
  | succ fuel ih =>
    cases rdata with
    | nil =>
      cases h
      rfl
    | cons len after =>
      rw [txtSegments] at h
      rw [List.length_cons] at hf
      split at h
      · cases h
      · rename_i hle
        rw [canonicalTxt] at h
        cases hrest : canonicalTxt (txtSegments fuel (after.drop len.val)) with
        | error e =>
          rw [hrest] at h
          cases h
        | ok tail =>
          rw [hrest] at h
          cases h
          rw [ih _ tail (by rw [List.length_drop]; omega) hrest]
          have hlen : (after.take len.val).length = len.val := by
            rw [List.length_take]
            omega
          rw [hlen, List.cons_append, List.take_append_drop]
          congr 1
          exact Fin.ext (Nat.mod_eq_of_lt len.isLt)

theorem tryParse_lt (p : Nat) (r : NameRef × Nat)
    (h : NameRef.tryParse m p = .ok r) : p < m.length := by
  by_contra hge
  have hnone : m[p]? = none := List.getElem?_eq_none (by omega)
  unfold NameRef.tryParse at h
  rw [NameRef.scan, hnone] at h
  cases h

theorem decompressNames_end (rtype : UInt16) (foldCase foldCase' : Bool)
    (rdataEnd names cursor : Nat) :
    (decompressNames m rtype foldCase rdataEnd names cursor).map Prod.snd =
      (decompressNames m rtype foldCase' rdataEnd names cursor).map Prod.snd := by
  induction names generalizing cursor with
  | zero => rfl
  | succ names ih =>
    rw [decompressNames, decompressNames]
    cases NameRef.tryParse m cursor with
    | error e => rfl
    | ok p =>
      obtain ⟨name, consumed⟩ := p
      simp only
      rcases writeWire_cases name with ⟨ls, -, -, hok⟩ | ⟨e, herr⟩
      · rw [hok foldCase, hok foldCase']
        simp only
        split
        · rfl
        · have hrest := ih (cursor + consumed)
          revert hrest
          cases decompressNames m rtype foldCase rdataEnd names (cursor + consumed) with
          | error e =>
            cases decompressNames m rtype foldCase' rdataEnd names (cursor + consumed) with
            | error e' => exact id
            | ok q => exact fun hrest => nomatch hrest
          | ok q =>
            cases decompressNames m rtype foldCase' rdataEnd names (cursor + consumed) with
            | error e' => exact fun hrest => nomatch hrest
            | ok q' => exact id
      · rw [herr foldCase, herr foldCase']

theorem decompressNames_again (rtype : UInt16) (foldCase : Bool)
    (rdataEnd names cursor : Nat) (wire : Bytes) (after : Nat)
    (h : decompressNames m rtype foldCase rdataEnd names cursor = .ok (wire, after))
    (m' : Bytes) (hm : m'.length ≤ 65535) (rtype' : UInt16) (rdataEnd' p : Nat)
    (hs : slice m' p wire.length = some wire) (hle : p + wire.length ≤ rdataEnd') :
    decompressNames m' rtype' foldCase rdataEnd' names p = .ok (wire, p + wire.length) := by
  induction names generalizing cursor wire p with
  | zero =>
    cases h
    rfl
  | succ names ih =>
    rw [decompressNames] at h
    cases hparse : NameRef.tryParse m cursor with
    | error e =>
      rw [hparse] at h
      cases h
    | ok q =>
      obtain ⟨name, consumed⟩ := q
      rw [hparse] at h
      simp only at h
      cases hwire : name.writeWire foldCase with
      | error e =>
        rw [hwire] at h
        cases h
      | ok first =>
        rw [hwire] at h
        simp only at h
        split at h
        · cases h
        · cases hrest : decompressNames m rtype foldCase rdataEnd names (cursor + consumed) with
          | error e =>
            rw [hrest] at h
            cases h
          | ok q =>
            rw [hrest] at h
            cases h
            obtain ⟨hs1, hs2⟩ := slice_split m' p first q.1 hs
            rw [List.length_append] at hle
            obtain ⟨hparse', hwire'⟩ := writeWire_again name foldCase first hwire m' hm p hs1
            have hrest' := ih (cursor + consumed) q.1 hrest (p + first.length) hs2 (by omega)
            rw [decompressNames, hparse']
            simp only [hwire']
            rw [if_neg (by omega), hrest', List.length_append, Nat.add_assoc]

/-- The rdata of `r` is `bytes`, as the type `rtype`, in a message that offsets reach. -/
structure Holds (r : Ref) (rtype : ResourceType) (bytes : Bytes) : Prop where
  rtype : r.rtype = rtype
  length : r.rdataLen = bytes.length
  octets : slice r.message r.rdataStart bytes.length = some bytes
  reach : r.message.length ≤ 65535

theorem Holds.rdata (r : Ref) (rtype : ResourceType) (bytes : Bytes) (h : Holds r rtype bytes) :
    r.rdata = bytes := by
  unfold Ref.rdata
  rw [h.length, h.octets]
  rfl

theorem rdataNames_pos (t : ResourceType) (lead names : Nat)
    (h : t.rdataNames = .compressible lead names) : 0 < names := by
  unfold ResourceType.rdataNames at h
  simp only at h
  repeat' split at h
  all_goals cases h
  all_goals omega

theorem writeDecompressedRdata_again (r : Ref) (lead names : Nat) (foldCase : Bool)
    (hnames : 0 < names) (bytes : Bytes)
    (h : r.writeDecompressedRdata lead names foldCase = .ok bytes) (r' : Ref)
    (rtype : ResourceType) (hr : Holds r' rtype bytes) :
    r'.writeDecompressedRdata lead names foldCase = .ok bytes := by
  unfold Ref.writeDecompressedRdata at h
  simp only at h
  split at h
  · cases h
  · rename_i hlead
    cases hnamesok : decompressNames r.message r.rtype.toU16 foldCase (r.rdataStart + r.rdataLen)
        names (r.rdataStart + lead) with
    | error e =>
      rw [hnamesok] at h
      cases h
    | ok q =>
      obtain ⟨wire, after⟩ := q
      rw [hnamesok] at h
      simp only [Except.ok.injEq] at h
      have hin : r.rdataStart + lead < r.message.length := by
        cases names with
        | zero => omega
        | succ names =>
          rw [decompressNames] at hnamesok
          cases hparse : NameRef.tryParse r.message (r.rdataStart + lead) with
          | error e =>
            rw [hparse] at hnamesok
            cases hnamesok
          | ok q => exact tryParse_lt _ _ q hparse
      obtain ⟨front, hfront⟩ : ∃ front, slice r.message r.rdataStart lead = some front :=
        ⟨_, if_pos (by omega)⟩
      have hfrontlen := (slice_length _ _ _ _ hfront).1
      rw [hfront, Option.getD_some] at h
      generalize (slice r.message after (r.rdataStart + r.rdataLen - after)).getD [] = rest at h
      subst h
      have hlen := hr.length
      rw [List.length_append, List.length_append] at hlen
      obtain ⟨hs, hs3⟩ := slice_split _ _ (front ++ wire) rest hr.octets
      obtain ⟨hs1, hs2⟩ := slice_split _ _ front wire hs
      rw [hfrontlen] at hs1 hs2
      have hagain := decompressNames_again _ _ _ _ _ _ wire after hnamesok r'.message hr.reach
        r'.rtype.toU16 (r'.rdataStart + r'.rdataLen) (r'.rdataStart + lead) hs2 (by omega)
      have hrest : r'.rdataStart + r'.rdataLen - (r'.rdataStart + lead + wire.length) =
          rest.length := by omega
      rw [List.length_append, hfrontlen, ← Nat.add_assoc] at hs3
      unfold Ref.writeDecompressedRdata
      simp only
      rw [if_neg (by omega), hagain]
      simp only
      rw [hs1, hrest, hs3]
      rfl

theorem target_again (target : NameRef) (bytes : Bytes)
    (h : target.writeWire foldCase = .ok bytes) (r' : Ref) (rtype : ResourceType)
    (hr : Holds r' rtype bytes) :
    ∃ n, targetTryFromMessage r'.message r'.rdataStart r'.rdataLen = .ok n ∧
      n.writeWire foldCase = .ok bytes := by
  obtain ⟨hparse, hwrite⟩ := writeWire_again target foldCase bytes h r'.message hr.reach
    r'.rdataStart hr.octets
  refine ⟨_, ?_, hwrite⟩
  unfold targetTryFromMessage
  rw [hparse]
  exact if_neg (fun hne => hne hr.length.symm)

theorem srv_again (s : Srv) (wire : Bytes)
    (h : s.target.writeWire foldCase = .ok wire) (r' : Ref) (rtype : ResourceType)
    (hr : Holds r' rtype (be16 s.priority ++ be16 s.weight ++ be16 s.port ++ wire)) :
    ∃ n, Srv.tryFromMessage r'.message r'.rdataStart r'.rdataLen =
        .ok ⟨s.priority, s.weight, s.port, n⟩ ∧ n.writeWire foldCase = .ok wire := by
  obtain ⟨hs1, hs2⟩ := slice_split _ _ _ wire hr.octets
  have hlen := hr.length
  simp only [List.length_append, be16_length] at hs1 hs2 hlen
  obtain ⟨hparse, hwrite⟩ := writeWire_again s.target foldCase wire h r'.message hr.reach
    (r'.rdataStart + 6) hs2
  refine ⟨_, ?_, hwrite⟩
  unfold Srv.tryFromMessage
  rw [if_neg (by omega), hs1]
  simp only [be16, List.cons_append, List.nil_append]
  rw [hparse]
  simp only
  rw [if_neg (by omega), ofBe16_be16 s.priority _ _ rfl, ofBe16_be16 s.weight _ _ rfl,
    ofBe16_be16 s.port _ _ rfl]

theorem nsec_again (n : Nsec) (wire : Bytes)
    (h : n.nextName.writeWire foldCase = .ok wire) (r' : Ref) (rtype : ResourceType)
    (hr : Holds r' rtype (wire ++ n.typeBitmap)) :
    ∃ name, Nsec.tryFromMessage r'.message r'.rdataStart r'.rdataLen =
        .ok ⟨name, n.typeBitmap⟩ ∧ name.writeWire foldCase = .ok wire := by
  obtain ⟨hs1, hs2⟩ := slice_split _ _ wire n.typeBitmap hr.octets
  have hlen := hr.length
  rw [List.length_append] at hlen
  obtain ⟨hparse, hwrite⟩ := writeWire_again n.nextName foldCase wire h r'.message hr.reach
    r'.rdataStart hs1
  refine ⟨_, ?_, hwrite⟩
  have hrest : r'.rdataStart + r'.rdataLen - (r'.rdataStart + wire.length) =
      n.typeBitmap.length := by omega
  unfold Nsec.tryFromMessage
  rw [hparse]
  simp only
  rw [if_neg (by omega), hrest, hs2]

theorem Ref.writeCanonicalRdata_isOk (r : Ref) (form form' : RdataForm) :
    (r.writeCanonicalRdata form).isOk = (r.writeCanonicalRdata form').isOk := by
  unfold Ref.writeCanonicalRdata
  cases r.rdataView with
  | error e => rfl
  | ok v =>
    cases v with
    | a addr => rfl
    | aaaa addr => rfl
    | ptr target => exact writeWire_isOk target _ _
    | cname target => exact writeWire_isOk target _ _
    | srv s =>
      simp only
      rcases writeWire_cases s.target with ⟨ls, -, -, hok⟩ | ⟨e, herr⟩
      · rw [hok, hok]
        rfl
      · rw [herr, herr]
    | txt rdata =>
      simp only
      cases canonicalTxt (txtSegments rdata.length rdata) with
      | error e => rfl
      | ok out => rfl
    | nsec n =>
      simp only
      rcases writeWire_cases n.nextName with ⟨ls, -, -, hok⟩ | ⟨e, herr⟩
      · rw [hok, hok]
        rfl
      · rw [herr, herr]
    | other bytes =>
      simp only
      cases r.rtype.rdataNames with
      | opaqueRdata => rfl
      | compressible lead names =>
        simp only [Ref.writeDecompressedRdata]
        split
        · rfl
        · have hend := decompressNames_end r.message r.rtype.toU16 form.foldCase form'.foldCase
            (r.rdataStart + r.rdataLen) names (r.rdataStart + lead)
          revert hend
          cases decompressNames r.message r.rtype.toU16 form.foldCase
              (r.rdataStart + r.rdataLen) names (r.rdataStart + lead) with
          | error e =>
            cases decompressNames r.message r.rtype.toU16 form'.foldCase
                (r.rdataStart + r.rdataLen) names (r.rdataStart + lead) with
            | error e' => exact fun _ => rfl
            | ok q => exact fun hend => nomatch hend
          | ok q =>
            cases decompressNames r.message r.rtype.toU16 form'.foldCase
                (r.rdataStart + r.rdataLen) names (r.rdataStart + lead) with
            | error e' => exact fun hend => nomatch hend
            | ok q' => exact fun _ => rfl

theorem txt_again (form : RdataForm) (rdata bytes : Bytes)
    (h : (match canonicalTxt (txtSegments rdata.length rdata) with
      | .error e => .error e
      | .ok out => .ok (if (txtSegments rdata.length rdata).isEmpty && form.normaliseEmptyTxt
          then [0] else out)) = (.ok bytes : Except ParseError Bytes)) :
    (match canonicalTxt (txtSegments bytes.length bytes) with
      | .error e => .error e
      | .ok out => .ok (if (txtSegments bytes.length bytes).isEmpty && form.normaliseEmptyTxt
          then [0] else out)) = (.ok bytes : Except ParseError Bytes) := by
  cases hout : canonicalTxt (txtSegments rdata.length rdata) with
  | error e =>
    rw [hout] at h
    cases h
  | ok out =>
    have hself := canonicalTxt_self _ rdata out (Nat.le_refl _) hout
    subst hself
    rw [hout] at h
    simp only [Except.ok.injEq] at h
    by_cases hempty : ((txtSegments out.length out).isEmpty && form.normaliseEmptyTxt) = true
    · rw [if_pos hempty] at h
      subst h
      rfl
    · rw [if_neg hempty] at h
      subst h
      rw [hout]
      simp only
      rw [if_neg hempty]

theorem other_again (r : Ref) (t : ResourceType) (form : RdataForm) (bytes : Bytes)
    (h : (match t.rdataNames with
      | .opaqueRdata => .ok r.rdata
      | .compressible lead names => r.writeDecompressedRdata lead names form.foldCase) =
        (.ok bytes : Except ParseError Bytes)) (r' : Ref) (hr : Holds r' t bytes) :
    (match t.rdataNames with
      | .opaqueRdata => .ok r'.rdata
      | .compressible lead names => r'.writeDecompressedRdata lead names form.foldCase) =
        (.ok bytes : Except ParseError Bytes) := by
  cases hnames : t.rdataNames with
  | opaqueRdata =>
    simp only
    rw [hr.rdata]
  | compressible lead names =>
    rw [hnames] at h
    exact writeDecompressedRdata_again r lead names form.foldCase (rdataNames_pos _ _ _ hnames)
      bytes h r' t hr

theorem Ref.writeCanonicalRdata_again (r : Ref) (form : RdataForm) (bytes : Bytes)
    (h : r.writeCanonicalRdata form = .ok bytes) (r' : Ref) (hr : Holds r' r.rtype bytes) :
    r'.writeCanonicalRdata form = .ok bytes := by
  have htype := hr.rtype
  have hrdata := hr.rdata
  unfold Ref.writeCanonicalRdata Ref.rdataView at h ⊢
  rw [htype]
  cases hty : r.rtype with
  | a =>
    rw [hty] at h
    simp only [aTryFromRdata, hrdata] at h ⊢
    by_cases hlen : r.rdata.length = 4
    · rw [dif_pos hlen] at h
      have hbytes : r.rdata = bytes := Except.ok.inj h
      rw [hbytes] at hlen
      rw [dif_pos hlen]
      rfl
    · rw [dif_neg hlen] at h
      cases h
  | aaaa =>
    rw [hty] at h
    simp only [aaaaTryFromRdata, hrdata] at h ⊢
    by_cases hlen : r.rdata.length = 16
    · rw [dif_pos hlen] at h
      have hbytes : r.rdata = bytes := Except.ok.inj h
      rw [hbytes] at hlen
      rw [dif_pos hlen]
      rfl
    · rw [dif_neg hlen] at h
      cases h
  | ptr | cname =>
    rw [hty] at h
    simp only at h ⊢
    cases hview : targetTryFromMessage r.message r.rdataStart r.rdataLen with
    | error e =>
      rw [hview] at h
      cases h
    | ok target =>
      rw [hview] at h
      obtain ⟨n, hn, hwrite⟩ := target_again form.foldCase target bytes h r' _ hr
      rw [hn]
      exact hwrite
  | srv =>
    rw [hty] at h
    simp only at h ⊢
    cases hview : Srv.tryFromMessage r.message r.rdataStart r.rdataLen with
    | error e =>
      rw [hview] at h
      cases h
    | ok s =>
      rw [hview] at h
      simp only [Except.map] at h
      cases hwire : s.target.writeWire form.foldCase with
      | error e =>
        rw [hwire] at h
        cases h
      | ok wire =>
        rw [hwire] at h
        simp only [Except.ok.injEq] at h
        subst h
        obtain ⟨n, hn, hwrite⟩ := srv_again form.foldCase s wire hwire r' _ hr
        rw [hn]
        simp only [Except.map, hwrite]
  | nsec =>
    rw [hty] at h
    simp only at h ⊢
    cases hview : Nsec.tryFromMessage r.message r.rdataStart r.rdataLen with
    | error e =>
      rw [hview] at h
      cases h
    | ok n =>
      rw [hview] at h
      simp only [Except.map] at h
      cases hwire : n.nextName.writeWire form.foldCase with
      | error e =>
        rw [hwire] at h
        cases h
      | ok wire =>
        rw [hwire] at h
        simp only [Except.ok.injEq] at h
        subst h
        obtain ⟨name, hn, hwrite⟩ := nsec_again form.foldCase n wire hwire r' _ hr
        rw [hn]
        simp only [Except.map, hwrite]
  | txt =>
    rw [hty] at h
    simp only at h ⊢
    rw [hrdata]
    exact txt_again form r.rdata bytes h
  | hinfo =>
    rw [hty] at h hr
    exact other_again r _ form bytes h r' hr
  | any =>
    rw [hty] at h hr
    exact other_again r _ form bytes h r' hr
  | unknown v =>
    rw [hty] at h hr
    exact other_again r _ form bytes h r' hr

end Hick.Wire
