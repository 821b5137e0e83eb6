import Hick.Wire.Canonical

/-!
# What canonical rdata means (wire/record/mod.rs:230-398, wire/resource_type.rs:108-133)

The rdata of a type is fixed octets, then names, then what is left. A record spells these where its
octets are in place and its names expand, through whatever pointers; the canonical decoder writes
out what the record spells and nothing of how.
-/

namespace Hick.Wire
open Octets LabelSeq

def ResourceType.layout (t : ResourceType) : Nat × Nat :=
  match t.rdataNames with
  | .opaqueRdata => (0, 0)
  | .compressible lead names => (lead, names)

/-- Names one behind the other, from the first offset up to the last; each is one that can be read:
over at most 32 pointers and of at most 255 octets. -/
inductive NamesAt (m : Bytes) : Nat → List (List Label) → Nat → Prop
  | done (p : Nat) : NamesAt m p [] p
  | name (p n hops after : Nat) (ls : List Label) (names : List (List Label))
    (hx : Expands m p hops ls) (hh : hops ≤ 32) (hw : LabelSeq.wireLen ls ≤ 255)
    (ho : Occupies m p n) (rest : NamesAt m (p + n) names after) : NamesAt m p (ls :: names) after

/-- The record's rdata is the octets `lead`, the names and the octets `tail`. -/
structure Ref.Laid (r : Ref) (lead : Bytes) (names : List (List Label)) (tail : Bytes) : Prop where
  first : slice r.message r.rdataStart lead.length = some lead
  rest : ∃ after, NamesAt r.message (r.rdataStart + lead.length) names after ∧
    slice r.message after tail.length = some tail ∧
    after + tail.length = r.rdataStart + r.rdataLen

structure Ref.Spells (r : Ref) (lead : Bytes) (names : List (List Label)) (tail : Bytes) : Prop
    extends r.Laid lead names tail where
  layout : (lead.length, names.length) = r.rtype.layout

inductive Segmented : Bytes → Prop
  | nil : Segmented []
  | cons (len : Byte) (seg rest : Bytes) (hlen : len.val = seg.length) (h : Segmented rest) :
    Segmented (len :: (seg ++ rest))

def writtenOut (foldCase : Bool) (names : List (List Label)) : Bytes :=
  names.flatMap fun ls => wireOctets (ls.map (spelled foldCase))

/-- What the decoder makes of rdata that is laid out as its type says. -/
def ResourceType.Canonical (t : ResourceType) (form : RdataForm) (lead : Bytes)
    (names : List (List Label)) (tail bytes : Bytes) : Prop :=
  match t with
  | .a => tail.length = 4 ∧ bytes = tail
  | .aaaa => tail.length = 16 ∧ bytes = tail
  | .txt => Segmented tail ∧
    bytes = if tail = [] ∧ form.normaliseEmptyTxt = true then [0] else tail
  | .ptr | .cname | .srv => tail = [] ∧ bytes = lead ++ writtenOut form.foldCase names
  | _ => bytes = lead ++ writtenOut form.foldCase names ++ tail

/-- The rdata lies in a message that offsets reach. -/
structure Ref.InMessage (r : Ref) : Prop where
  inside : r.rdataStart + r.rdataLen ≤ r.message.length
  reach : r.message.length ≤ 65535

theorem scan_name (message : Bytes) (offset fuel cursor : Nat) (p : NameRef × Nat)
    (h : NameRef.scan message offset fuel cursor = .ok p) : p.1 = ⟨message, offset⟩ := by
  have hstart : ∀ start, u16Checked offset = .ok start → start = offset := by
    intro start hs
    unfold u16Checked at hs
    split at hs <;> cases hs
    rfl
  induction fuel generalizing cursor with
  | zero => cases h
  | succ fuel ih =>
    rw [NameRef.scan] at h
    split at h
    · cases h
    · split at h
      · split at h
        · cases h
        · rename_i start hs
          cases h
          rw [hstart start hs]
      · split at h
        · split at h
          · cases h
          · split at h
            · cases h
            · exact ih _ h
        · split at h
          · split at h
            · cases h
            · split at h
              · cases h
              · rename_i start hs
                cases h
                rw [hstart start hs]
          · cases h

theorem writeWire_iff (m : Bytes) (p : Nat) (hm : m.length ≤ 65535) (foldCase : Bool)
    (wire : Bytes) :
    (⟨m, p⟩ : NameRef).writeWire foldCase = .ok wire ↔
      ∃ hops ls, hops ≤ 32 ∧ Expands m p hops ls ∧ LabelSeq.wireLen ls ≤ 255 ∧
        wire = wireOctets (ls.map (spelled foldCase)) := by
  constructor
  · intro h
    obtain ⟨ls, tail, hops, dest, hlabels, htail, -, walk, hw, -⟩ := NameRef.labels_walk m p
    have hp := walk.plain _ _ _ _ _
    simp only [maxNameBytes] at hw
    obtain ⟨hok, herr⟩ := writeWireLoop_walk foldCase ls hp 1 (by omega)
    unfold NameRef.writeWire at h
    rw [hlabels] at h
    rcases htail with ⟨rfl, -⟩ | ⟨e, rfl⟩
    · rw [List.append_nil] at hlabels h
      rw [hok] at h
      obtain ⟨hops, hh, hx, hw⟩ := (NameRef.labels_iff m p hm ls).mp hlabels
      exact ⟨hops, ls, hh, hx, hw, (Except.ok.inj h).symm⟩
    · rw [herr e] at h
      cases h
  · rintro ⟨hops, ls, hh, hx, hw, rfl⟩
    unfold NameRef.writeWire
    rw [NameRef.labels_of_expands m p hops ls hx hm hh hw]
    exact (writeWireLoop_walk foldCase ls (hx.plain m p hops ls) 1 (by omega)).1

theorem NamesAt.le (m : Bytes) (p after : Nat) (names : List (List Label))
    (h : NamesAt m p names after) : p ≤ after := by
  induction h with
  | done p => exact Nat.le_refl p
  | name p n hops after ls names hx hh hw ho rest ih => omega

/-- A name that is parsed at an offset and written out is one name of an expansion there. -/
theorem parsed_iff (m : Bytes) (p : Nat) (hm : m.length ≤ 65535) (foldCase : Bool)
    (wire : Bytes) (n : Nat) :
    (∃ name, NameRef.tryParse m p = .ok (name, n) ∧ name.writeWire foldCase = .ok wire) ↔
      ∃ ls, NamesAt m p [ls] (p + n) ∧ wire = wireOctets (ls.map (spelled foldCase)) := by
  constructor
  · rintro ⟨name, hparse, hwrite⟩
    have hname : name = ⟨m, p⟩ := scan_name m p _ p (name, n) hparse
    subst hname
    obtain ⟨hops, ls, hh, hx, hw, hwire⟩ := (writeWire_iff m p hm foldCase wire).mp hwrite
    obtain ⟨n', ho⟩ := hx.occupies
    have hlt := hx.lt_length m p hops ls
    rw [NameRef.tryParse_of_occupies m p n' ho (by omega)] at hparse
    cases hparse
    exact ⟨ls, .name p _ hops _ ls [] hx hh hw ho (.done _), hwire⟩
  · rintro ⟨ls, hnames, hwire⟩
    cases hnames with
    | name _ n' hops _ _ _ hx hh hw ho rest =>
      have hlt := hx.lt_length m p hops ls
      have hn : n' = n := by
        generalize hq : p + n = q at rest
        cases rest
        omega
      subst hn
      exact ⟨_, NameRef.tryParse_of_occupies m p n' ho (by omega),
        (writeWire_iff m p hm foldCase wire).mpr ⟨hops, ls, hh, hx, hw, hwire⟩⟩

theorem NamesAt.cons_iff (m : Bytes) (p after : Nat) (ls : List Label)
    (names : List (List Label)) :
    NamesAt m p (ls :: names) after ↔
      ∃ n, NamesAt m p [ls] (p + n) ∧ NamesAt m (p + n) names after := by
  constructor
  · intro h
    cases h with
    | name _ n hops _ _ _ hx hh hw ho rest =>
      exact ⟨n, .name p n hops _ ls [] hx hh hw ho (.done _), rest⟩
  · rintro ⟨n, hfirst, hrest⟩
    cases hfirst with
    | name _ n' hops _ _ _ hx hh hw ho rest =>
      have hn : n' = n := by
        generalize hq : p + n = q at rest
        cases rest
        omega
      subst hn
      exact .name p n' hops after ls names hx hh hw ho hrest

theorem decompressNames_iff (m : Bytes) (hm : m.length ≤ 65535) (rtype : UInt16)
    (foldCase : Bool) (rdataEnd count cursor : Nat) (hcursor : cursor ≤ rdataEnd) (wire : Bytes)
    (after : Nat) :
    decompressNames m rtype foldCase rdataEnd count cursor = .ok (wire, after) ↔
      ∃ names, names.length = count ∧ NamesAt m cursor names after ∧ after ≤ rdataEnd ∧
        wire = writtenOut foldCase names := by
  induction count generalizing cursor wire with
  | zero =>
    constructor
    · intro h
      cases h
      exact ⟨[], rfl, .done _, hcursor, rfl⟩
    · rintro ⟨names, hlen, hnames, -, rfl⟩
      rw [List.length_eq_zero_iff] at hlen
      subst hlen
      cases hnames
      rfl
  | succ count ih =>
    rw [decompressNames]
    constructor
    · intro h
      split at h
      · cases h
      · rename_i name consumed hparse
        split at h
        · cases h
        · rename_i first hfirst
          split at h
          · cases h
          · rename_i hle
            split at h
            · cases h
            · rename_i rest after' hrest
              cases h
              obtain ⟨ls, hname, hwire⟩ :=
                (parsed_iff m cursor hm foldCase first consumed).mp ⟨name, hparse, hfirst⟩
              obtain ⟨names, hlen, hnames, hafter, hrest⟩ := (ih _ (by omega) rest).mp hrest
              refine ⟨ls :: names, by rw [List.length_cons, hlen],
                (NamesAt.cons_iff m cursor after ls names).mpr ⟨consumed, hname, hnames⟩, hafter,
                ?_⟩
              rw [hwire, hrest]
              rfl
    · rintro ⟨names, hlen, hnames, hafter, rfl⟩
      obtain ⟨ls, names, rfl⟩ := List.exists_cons_of_length_eq_add_one hlen
      obtain ⟨n, hname, hnames⟩ := (NamesAt.cons_iff m cursor after ls names).mp hnames
      obtain ⟨name, hparse, hfirst⟩ := (parsed_iff m cursor hm foldCase _ n).mpr ⟨ls, hname, rfl⟩
      have hle := hnames.le m _ _ _
      have hrest := (ih (cursor + n) (by omega) (writtenOut foldCase names)).mpr
        ⟨names, by simpa using hlen, hnames, hafter, rfl⟩
      rw [hparse]
      simp only [hfirst]
      rw [if_neg (by omega), hrest]
      rfl

theorem slice_inside (m : Bytes) (p n : Nat) (h : p + n ≤ m.length) :
    ∃ bs, bs.length = n ∧ slice m p bs.length = some bs := by
  have hs : slice m p n = some ((m.drop p).take n) := if_pos h
  have hlen := (slice_length m p n _ hs).1
  exact ⟨_, hlen, by rw [hlen, hs]⟩

theorem slice_getD (m : Bytes) (p n : Nat) (bs : Bytes) (h : slice m p bs.length = some bs)
    (hn : n = bs.length) : (slice m p n).getD [] = bs := by
  rw [hn, h]
  rfl

namespace Ref
variable (r : Ref)

theorem writeDecompressedRdata_iff (hr : r.InMessage) (fixed count : Nat) (foldCase : Bool)
    (bytes : Bytes) :
    r.writeDecompressedRdata fixed count foldCase = .ok bytes ↔
      ∃ lead names tail, r.Laid lead names tail ∧ lead.length = fixed ∧ names.length = count ∧
        bytes = lead ++ writtenOut foldCase names ++ tail := by
  have hinside := hr.inside
  unfold writeDecompressedRdata
  simp only
  constructor
  · intro h
    split at h
    · cases h
    · rename_i hlead
      split at h
      · cases h
      · rename_i wire after hnames
        cases h
        obtain ⟨names, hcount, hat, hafter, rfl⟩ := (decompressNames_iff r.message hr.reach _
          foldCase _ count _ (by omega) wire after).mp hnames
        obtain ⟨lead, hleadLen, hleadAt⟩ := slice_inside r.message r.rdataStart fixed (by omega)
        obtain ⟨tail, htailLen, htailAt⟩ := slice_inside r.message after
          (r.rdataStart + r.rdataLen - after) (by omega)
        refine ⟨lead, names, tail, ⟨hleadAt, after, hleadLen ▸ hat, htailAt, by omega⟩, hleadLen,
          hcount, ?_⟩
        rw [slice_getD _ _ _ lead hleadAt hleadLen.symm,
          slice_getD _ _ _ tail htailAt htailLen.symm]
  · rintro ⟨lead, names, tail, ⟨hleadAt, after, hat, htailAt, hend⟩, rfl, rfl, rfl⟩
    have hle := hat.le _ _ _ _
    have hnames := (decompressNames_iff r.message hr.reach r.rtype.toU16 foldCase
      (r.rdataStart + r.rdataLen) names.length (r.rdataStart + lead.length) (by omega)
      (writtenOut foldCase names) after).mpr ⟨names, rfl, hat, by omega, rfl⟩
    rw [if_neg (by omega), hnames]
    simp only
    rw [slice_getD _ _ _ lead hleadAt rfl, slice_getD _ _ _ tail htailAt (by omega)]

theorem laid_opaque (hr : r.InMessage) (tail : Bytes) : r.Laid [] [] tail ↔ tail = r.rdata := by
  constructor
  · rintro ⟨-, after, hat, htail, hend⟩
    cases hat
    exact (slice_getD _ _ _ tail htail (by simpa using hend.symm)).symm
  · rintro rfl
    obtain ⟨tail, hlen, htail⟩ := slice_inside r.message r.rdataStart r.rdataLen hr.inside
    have hrdata : r.rdata = tail := slice_getD _ _ _ tail htail hlen.symm
    rw [hrdata]
    exact ⟨if_pos (by have := hr.inside; simp only [List.length_nil]; omega), r.rdataStart, .done _,
      htail, by rw [hlen]⟩

theorem laid_name (hr : r.InMessage) (names : List (List Label)) (tail : Bytes)
    (hcount : names.length = 1) :
    r.Laid [] names tail ↔ ∃ ls n, names = [ls] ∧ NamesAt r.message r.rdataStart [ls]
      (r.rdataStart + n) ∧ slice r.message (r.rdataStart + n) tail.length = some tail ∧
        n + tail.length = r.rdataLen := by
  obtain ⟨ls, rfl⟩ := List.length_eq_one_iff.mp hcount
  constructor
  · rintro ⟨-, after, hat, htail, hend⟩
    have hle := hat.le _ _ _ _
    simp only [List.length_nil, Nat.add_zero] at hat hle
    obtain ⟨n, rfl⟩ := Nat.exists_eq_add_of_le hle
    exact ⟨ls, n, rfl, hat, htail, by omega⟩
  · rintro ⟨ls', n, heq, hat, htail, hend⟩
    cases heq
    exact ⟨if_pos (by have := hr.inside; simp only [List.length_nil]; omega), _, hat, htail,
      by omega⟩

theorem target_iff (hr : r.InMessage) (foldCase : Bool) (bytes : Bytes) :
    (∃ target, targetTryFromMessage r.message r.rdataStart r.rdataLen = .ok target ∧
        target.writeWire foldCase = .ok bytes) ↔
      ∃ names, r.Laid [] names [] ∧ names.length = 1 ∧ bytes = writtenOut foldCase names := by
  unfold targetTryFromMessage
  constructor
  · rintro ⟨target, htarget, hwrite⟩
    split at htarget
    · cases htarget
    · rename_i name consumed hparse
      split at htarget
      · cases htarget
      · rename_i hfills
        cases htarget
        obtain ⟨ls, hat, rfl⟩ := (parsed_iff r.message _ hr.reach foldCase bytes consumed).mp
          ⟨target, hparse, hwrite⟩
        have hend : consumed = r.rdataLen := not_not.mp hfills
        refine ⟨[ls], (r.laid_name hr [ls] [] rfl).mpr ⟨ls, consumed, rfl, hat, ?_, hend⟩, rfl,
          (List.append_nil _).symm⟩
        exact if_pos (by have := hr.inside; simp only [List.length_nil]; omega)
  · rintro ⟨names, hlaid, hcount, rfl⟩
    obtain ⟨ls, n, rfl, hat, -, hend⟩ := (r.laid_name hr names [] hcount).mp hlaid
    obtain ⟨name, hparse, hwrite⟩ := (parsed_iff r.message _ hr.reach foldCase _ n).mpr
      ⟨ls, hat, rfl⟩
    refine ⟨name, ?_, by rw [hwrite, writtenOut, List.flatMap_singleton]⟩
    rw [hparse]
    exact if_neg (not_not.mpr hend)

theorem nsec_iff (hr : r.InMessage) (foldCase : Bool) (bytes : Bytes) :
    (∃ n wire, Nsec.tryFromMessage r.message r.rdataStart r.rdataLen = .ok n ∧
        n.nextName.writeWire foldCase = .ok wire ∧ bytes = wire ++ n.typeBitmap) ↔
      ∃ names tail, r.Laid [] names tail ∧ names.length = 1 ∧
        bytes = writtenOut foldCase names ++ tail := by
  unfold Nsec.tryFromMessage
  constructor
  · rintro ⟨n, wire, hn, hwrite, rfl⟩
    split at hn
    · cases hn
    · rename_i name consumed hparse
      simp only at hn
      split at hn
      · cases hn
      · rename_i hle
        split at hn
        · cases hn
        · rename_i bitmap hbitmap
          cases hn
          obtain ⟨ls, hat, rfl⟩ := (parsed_iff r.message _ hr.reach foldCase wire consumed).mp
            ⟨name, hparse, hwrite⟩
          have hlen := (slice_length _ _ _ _ hbitmap).1
          refine ⟨[ls], bitmap, (r.laid_name hr [ls] bitmap rfl).mpr
            ⟨ls, consumed, rfl, hat, by rw [hlen, hbitmap], by omega⟩, rfl, ?_⟩
          rw [writtenOut, List.flatMap_singleton]
  · rintro ⟨names, tail, hlaid, hcount, rfl⟩
    obtain ⟨ls, n, rfl, hat, htail, hend⟩ := (r.laid_name hr names tail hcount).mp hlaid
    obtain ⟨name, hparse, hwrite⟩ := (parsed_iff r.message _ hr.reach foldCase _ n).mpr
      ⟨ls, hat, rfl⟩
    refine ⟨⟨name, tail⟩, _, ?_, hwrite, by rw [writtenOut, List.flatMap_singleton]⟩
    rw [hparse]
    simp only
    rw [if_neg (by omega),
      show r.rdataStart + r.rdataLen - (r.rdataStart + n) = tail.length by omega, htail]

theorem srv_iff (hr : r.InMessage) (foldCase : Bool) (bytes : Bytes) :
    (∃ s wire, Srv.tryFromMessage r.message r.rdataStart r.rdataLen = .ok s ∧
        s.target.writeWire foldCase = .ok wire ∧
          bytes = be16 s.priority ++ be16 s.weight ++ be16 s.port ++ wire) ↔
      ∃ lead names, r.Laid lead names [] ∧ lead.length = 6 ∧ names.length = 1 ∧
        bytes = lead ++ writtenOut foldCase names := by
  have hinside := hr.inside
  unfold Srv.tryFromMessage
  constructor
  · rintro ⟨s, wire, hs, hwrite, rfl⟩
    split at hs
    · cases hs
    · split at hs
      · rename_i p0 p1 w0 w1 q0 q1 hlead
        split at hs
        · cases hs
        · rename_i name consumed hparse
          split at hs
          · cases hs
          · rename_i hfills
            cases hs
            obtain ⟨ls, hat, rfl⟩ := (parsed_iff r.message _ hr.reach foldCase wire consumed).mp
              ⟨name, hparse, hwrite⟩
            have hend : consumed + 6 = r.rdataLen := not_not.mp hfills
            refine ⟨[p0, p1, w0, w1, q0, q1], [ls], ⟨hlead, _, hat, if_pos ?_, ?_⟩, rfl, rfl, ?_⟩
            · simp only [List.length_nil]
              omega
            · simp only [List.length_nil]
              omega
            · simp only [be16_ofBe16, writtenOut, List.flatMap_singleton, List.cons_append,
                List.nil_append]
      · cases hs
  · rintro ⟨lead, names, ⟨hlead, after, hat, -, hend⟩, hfixed, hcount, rfl⟩
    obtain ⟨ls, rfl⟩ := List.length_eq_one_iff.mp hcount
    have hle := hat.le _ _ _ _
    obtain ⟨n, rfl⟩ := Nat.exists_eq_add_of_le hle
    obtain ⟨name, hparse, hwrite⟩ := (parsed_iff r.message _ hr.reach foldCase _ n).mpr
      ⟨ls, hat, rfl⟩
    simp only [List.length_nil, Nat.add_zero] at hend
    match lead, hfixed with
    | [p0, p1, w0, w1, q0, q1], _ =>
      simp only [List.length_cons, List.length_nil] at hlead hparse hend
      refine ⟨⟨ofBe16 p0 p1, ofBe16 w0 w1, ofBe16 q0 q1, name⟩, _, ?_, hwrite, ?_⟩
      · rw [if_neg (by omega), hlead]
        simp only
        rw [hparse]
        exact if_neg (not_not.mpr (by omega))
      · simp only [be16_ofBe16, writtenOut, List.flatMap_singleton, List.cons_append,
          List.nil_append]

end Ref

theorem segmented_iff (fuel : Nat) (rdata : Bytes) (hf : rdata.length ≤ fuel) :
    (∃ out, canonicalTxt (txtSegments fuel rdata) = .ok out) ↔ Segmented rdata := by
  induction fuel generalizing rdata with
  | zero =>
    rw [List.eq_nil_of_length_eq_zero (Nat.le_zero.mp hf)]
    exact iff_of_true ⟨[], rfl⟩ .nil
  | succ fuel ih =>
    cases rdata with
    | nil => exact iff_of_true ⟨[], rfl⟩ .nil
    | cons len after =>
      rw [List.length_cons] at hf
      rw [txtSegments]
      constructor
      · rintro ⟨out, hout⟩
        split at hout
        · cases hout
        · rename_i hle
          rw [canonicalTxt] at hout
          split at hout
          · cases hout
          · rename_i rest hrest
            have hlater := (ih (after.drop len.val) (by rw [List.length_drop]; omega)).mp
              ⟨rest, hrest⟩
            have hlen : len.val = (after.take len.val).length := by
              rw [List.length_take]
              omega
            have hcons := Segmented.cons len _ _ hlen hlater
            rwa [List.take_append_drop] at hcons
      · intro h
        cases h with
        | cons _ seg rest hlen hrest =>
          rw [List.length_append] at hf
          obtain ⟨out, hout⟩ := (ih rest (by omega)).mpr hrest
          rw [if_neg (by rw [List.length_append]; omega), hlen, List.take_left, List.drop_left,
            canonicalTxt, hout]
          exact ⟨_, rfl⟩

theorem canonicalTxt_iff (form : RdataForm) (rdata bytes : Bytes) :
    (match canonicalTxt (txtSegments rdata.length rdata) with
      | .error e => .error e
      | .ok out => .ok (if (txtSegments rdata.length rdata).isEmpty && form.normaliseEmptyTxt
          then [0] else out)) = (.ok bytes : Except ParseError Bytes) ↔
      Segmented rdata ∧
        bytes = if rdata = [] ∧ form.normaliseEmptyTxt = true then [0] else rdata := by
  have hempty : (txtSegments rdata.length rdata).isEmpty = true ↔ rdata = [] := by
    cases rdata with
    | nil => exact iff_of_true rfl rfl
    | cons len after =>
      refine iff_of_false ?_ (List.cons_ne_nil len after)
      rw [List.length_cons, txtSegments]
      split <;> exact Bool.false_ne_true
  rw [← segmented_iff rdata.length rdata (Nat.le_refl _)]
  cases hout : canonicalTxt (txtSegments rdata.length rdata) with
  | error e =>
    refine iff_of_false (fun h => by cases h) ?_
    rintro ⟨⟨out, h⟩, -⟩
    cases h
  | ok out =>
    have hself := canonicalTxt_self _ rdata out (Nat.le_refl _) hout
    subst hself
    simp only [Except.ok.injEq, Bool.and_eq_true, hempty, exists_eq', true_and]
    exact eq_comm

namespace Ref
variable (r : Ref)

theorem spells_iff (P : Bytes → List (List Label) → Bytes → Prop) :
    (∃ lead names tail, r.Spells lead names tail ∧ P lead names tail) ↔
      ∃ lead names tail, r.Laid lead names tail ∧ lead.length = r.rtype.layout.1 ∧
        names.length = r.rtype.layout.2 ∧ P lead names tail := by
  constructor
  · rintro ⟨lead, names, tail, ⟨hlaid, hlayout⟩, hP⟩
    exact ⟨lead, names, tail, hlaid, congrArg Prod.fst hlayout, congrArg Prod.snd hlayout, hP⟩
  · rintro ⟨lead, names, tail, hlaid, hlead, hnames, hP⟩
    exact ⟨lead, names, tail, ⟨hlaid, Prod.ext hlead hnames⟩, hP⟩

theorem opaque_iff (hr : r.InMessage) (hlayout : r.rtype.layout = (0, 0)) (P : Bytes → Prop) :
    (∃ lead names tail, r.Spells lead names tail ∧ P tail) ↔ P r.rdata := by
  rw [r.spells_iff fun _ _ tail => P tail, hlayout]
  constructor
  · rintro ⟨lead, names, tail, hlaid, hlead, hnames, hP⟩
    rw [List.eq_nil_of_length_eq_zero hlead, List.eq_nil_of_length_eq_zero hnames,
      r.laid_opaque hr] at hlaid
    rwa [← hlaid]
  · intro hP
    exact ⟨[], [], r.rdata, (r.laid_opaque hr _).mpr rfl, rfl, rfl, hP⟩

theorem other_iff (hr : r.InMessage) (foldCase : Bool) (bytes : Bytes) :
    (match r.rtype.rdataNames with
      | .opaqueRdata => .ok r.rdata
      | .compressible lead names => r.writeDecompressedRdata lead names foldCase) =
        (.ok bytes : Except ParseError Bytes) ↔
      ∃ lead names tail, r.Spells lead names tail ∧
        bytes = lead ++ writtenOut foldCase names ++ tail := by
  rw [r.spells_iff fun lead names tail => bytes = lead ++ writtenOut foldCase names ++ tail]
  unfold ResourceType.layout
  cases r.rtype.rdataNames with
  | compressible fixed count => exact r.writeDecompressedRdata_iff hr fixed count foldCase bytes
  | opaqueRdata =>
    constructor
    · intro h
      cases h
      exact ⟨[], [], r.rdata, (r.laid_opaque hr _).mpr rfl, rfl, rfl, rfl⟩
    · rintro ⟨lead, names, tail, hlaid, hlead, hnames, rfl⟩
      have hlead := List.eq_nil_of_length_eq_zero hlead
      have hnames := List.eq_nil_of_length_eq_zero hnames
      subst hlead
      subst hnames
      rw [(r.laid_opaque hr tail).mp hlaid]
      rfl

theorem target_spells (hr : r.InMessage) (hlayout : r.rtype.layout = (0, 1)) (foldCase : Bool)
    (bytes : Bytes) :
    (match targetTryFromMessage r.message r.rdataStart r.rdataLen with
      | .error e => .error e
      | .ok target => target.writeWire foldCase) = (.ok bytes : Except ParseError Bytes) ↔
      ∃ lead names tail, r.Spells lead names tail ∧ tail = [] ∧
        bytes = lead ++ writtenOut foldCase names := by
  have htarget := r.target_iff hr foldCase bytes
  have hview : (match targetTryFromMessage r.message r.rdataStart r.rdataLen with
      | .error e => .error e
      | .ok target => target.writeWire foldCase) = (.ok bytes : Except ParseError Bytes) ↔
      ∃ target, targetTryFromMessage r.message r.rdataStart r.rdataLen = .ok target ∧
        target.writeWire foldCase = .ok bytes := by
    cases targetTryFromMessage r.message r.rdataStart r.rdataLen with
    | error e => exact iff_of_false (fun h => by cases h) fun ⟨_, h, _⟩ => by cases h
    | ok target => exact ⟨fun h => ⟨target, rfl, h⟩, fun ⟨_, heq, h⟩ => by cases heq; exact h⟩
  rw [hview, htarget, r.spells_iff fun lead names tail => tail = [] ∧
    bytes = lead ++ writtenOut foldCase names, hlayout]
  constructor
  · rintro ⟨names, hlaid, hcount, rfl⟩
    exact ⟨[], names, [], hlaid, rfl, hcount, rfl, rfl⟩
  · rintro ⟨lead, names, tail, hlaid, hlead, hcount, rfl, rfl⟩
    rw [List.eq_nil_of_length_eq_zero hlead] at hlaid ⊢
    exact ⟨names, hlaid, hcount, rfl⟩

theorem written_iff {α : Type} (parsed : Except ParseError α) (write : α → Except ParseError Bytes)
    (lay : α → Bytes → Bytes) (bytes : Bytes) :
    (match parsed with
      | .error e => .error e
      | .ok view => (write view).map (lay view)) = (.ok bytes : Except ParseError Bytes) ↔
      ∃ view wire, parsed = .ok view ∧ write view = .ok wire ∧ bytes = lay view wire := by
  cases parsed with
  | error e => exact iff_of_false (fun h => by cases h) fun ⟨_, _, h, _⟩ => by cases h
  | ok view => cases hwire : write view <;> simp [Except.map, hwire, eq_comm]

theorem writeCanonicalRdata_iff (hr : r.InMessage) (form : RdataForm) (bytes : Bytes) :
    r.writeCanonicalRdata form = .ok bytes ↔ ∃ lead names tail, r.Spells lead names tail ∧
      r.rtype.Canonical form lead names tail bytes := by
  have hother := r.other_iff hr form.foldCase bytes
  have hplain := r.opaque_iff hr
  have htarget := fun hlayout => r.target_spells hr hlayout form.foldCase bytes
  have hspells := r.spells_iff
  unfold writeCanonicalRdata rdataView
  cases hty : r.rtype with
  | a =>
    refine Iff.trans ?_ (hplain (by rw [hty]; rfl) fun tail => tail.length = 4 ∧ bytes = tail).symm
    simp only [aTryFromRdata]
    by_cases hlen : r.rdata.length = 4
    · rw [dif_pos hlen]
      exact ⟨fun h => ⟨hlen, (Except.ok.inj h).symm⟩, fun h => congrArg Except.ok h.2.symm⟩
    · rw [dif_neg hlen]
      exact iff_of_false (fun h => by cases h) fun h => hlen h.1
  | aaaa =>
    refine Iff.trans ?_ (hplain (by rw [hty]; rfl)
      fun tail => tail.length = 16 ∧ bytes = tail).symm
    simp only [aaaaTryFromRdata]
    by_cases hlen : r.rdata.length = 16
    · rw [dif_pos hlen]
      exact ⟨fun h => ⟨hlen, (Except.ok.inj h).symm⟩, fun h => congrArg Except.ok h.2.symm⟩
    · rw [dif_neg hlen]
      exact iff_of_false (fun h => by cases h) fun h => hlen h.1
  | txt =>
    exact (canonicalTxt_iff form r.rdata bytes).trans (hplain (by rw [hty]; rfl) fun tail =>
      Segmented tail ∧
        bytes = if tail = [] ∧ form.normaliseEmptyTxt = true then [0] else tail).symm
  | ptr | cname =>
    refine Iff.trans ?_ (htarget (by rw [hty]; rfl))
    cases targetTryFromMessage r.message r.rdataStart r.rdataLen <;> exact Iff.rfl
  | srv =>
    have hsrv := r.srv_iff hr form.foldCase bytes
    have hview := hspells fun lead names tail => tail = [] ∧
      bytes = lead ++ writtenOut form.foldCase names
    rw [hty] at hview
    refine Iff.trans ?_ (hsrv.trans (Iff.trans ?_ hview.symm))
    · refine Iff.trans ?_ (written_iff _ (fun s : Srv => s.target.writeWire form.foldCase)
        (fun s wire => be16 s.priority ++ be16 s.weight ++ be16 s.port ++ wire) bytes)
      cases Srv.tryFromMessage r.message r.rdataStart r.rdataLen with
      | error e => exact Iff.rfl
      | ok s => cases hwire : s.target.writeWire form.foldCase <;> simp only [Except.map, hwire]
    · constructor
      · rintro ⟨lead, names, hlaid, hlead, hcount, rfl⟩
        exact ⟨lead, names, [], hlaid, hlead, hcount, rfl, rfl⟩
      · rintro ⟨lead, names, tail, hlaid, hlead, hcount, rfl, rfl⟩
        exact ⟨lead, names, hlaid, hlead, hcount, rfl⟩
  | nsec =>
    have hnsec := r.nsec_iff hr form.foldCase bytes
    have hview := hspells fun lead names tail =>
      bytes = lead ++ writtenOut form.foldCase names ++ tail
    rw [hty] at hview
    refine Iff.trans ?_ (hnsec.trans (Iff.trans ?_ hview.symm))
    · refine Iff.trans ?_ (written_iff _ (fun n : Nsec => n.nextName.writeWire form.foldCase)
        (fun n wire => wire ++ n.typeBitmap) bytes)
      cases Nsec.tryFromMessage r.message r.rdataStart r.rdataLen with
      | error e => exact Iff.rfl
      | ok n => cases hwire : n.nextName.writeWire form.foldCase <;> simp only [Except.map, hwire]
    · constructor
      · rintro ⟨names, tail, hlaid, hcount, rfl⟩
        exact ⟨[], names, tail, hlaid, rfl, hcount, rfl⟩
      · rintro ⟨lead, names, tail, hlaid, hlead, hcount, rfl⟩
        rw [List.eq_nil_of_length_eq_zero hlead] at hlaid ⊢
        exact ⟨names, tail, hlaid, hcount, rfl⟩
  | hinfo | any | unknown _ =>
    rw [hty] at hother
    exact hother

end Ref

theorem NamesAt.unique (m : Bytes) (hm : m.length ≤ 65535) (p after after' : Nat)
    (names names' : List (List Label)) (h : NamesAt m p names after)
    (h' : NamesAt m p names' after') (hlen : names.length = names'.length) :
    names = names' ∧ after = after' := by
  induction h generalizing names' with
  | done p =>
    rw [List.eq_nil_of_length_eq_zero hlen.symm] at h' ⊢
    cases h'
    exact ⟨rfl, rfl⟩
  | name p n hops after ls names hx hh hw ho rest ih =>
    cases h' with
    | done _ => cases hlen
    | name _ n' hops' _ ls' names' hx' hh' hw' ho' rest' =>
      have hlt := hx.lt_length m p hops ls
      have hn : n = n' := by
        have hparse := NameRef.tryParse_of_occupies m p n ho (by omega)
        rw [NameRef.tryParse_of_occupies m p n' ho' (by omega)] at hparse
        cases hparse
        rfl
      have hls : ls = ls' := by
        have hlabels := NameRef.labels_of_expands m p hops ls hx hm hh hw
        rw [NameRef.labels_of_expands m p hops' ls' hx' hm hh' hw'] at hlabels
        exact List.map_injective_iff.mpr (fun _ _ heq => Except.ok.inj heq) hlabels.symm
      subst hn
      subst hls
      obtain ⟨rfl, rfl⟩ := ih names' rest' (Nat.succ.inj hlen)
      exact ⟨rfl, rfl⟩

theorem writtenOut_congr (foldCase : Bool) (names names' : List (List Label))
    (h : names.map (List.map (spelled foldCase)) = names'.map (List.map (spelled foldCase))) :
    writtenOut foldCase names = writtenOut foldCase names' := by
  have hmap : ∀ names : List (List Label), writtenOut foldCase names =
      (names.map (List.map (spelled foldCase))).flatMap wireOctets := by
    intro names
    rw [writtenOut, List.flatMap_map]
  rw [hmap, hmap, h]

theorem ResourceType.Canonical.congr (t : ResourceType) (form : RdataForm) (lead : Bytes)
    (names names' : List (List Label)) (tail bytes : Bytes)
    (h : writtenOut form.foldCase names = writtenOut form.foldCase names') :
    t.Canonical form lead names tail bytes ↔ t.Canonical form lead names' tail bytes := by
  unfold ResourceType.Canonical
  rw [h]

namespace Ref
variable (r : Ref)

theorem Spells.unique (hr : r.InMessage) (lead lead' : Bytes) (names names' : List (List Label))
    (tail tail' : Bytes) (h : r.Spells lead names tail) (h' : r.Spells lead' names' tail') :
    lead = lead' ∧ names = names' ∧ tail = tail' := by
  obtain ⟨hleads, hcounts⟩ := Prod.mk.inj (h.layout.trans h'.layout.symm)
  obtain ⟨after, hat, htail, hend⟩ := h.rest
  obtain ⟨after', hat', htail', hend'⟩ := h'.rest
  have hfirst := h.first
  rw [hleads, h'.first] at hfirst
  cases hfirst
  obtain ⟨rfl, rfl⟩ := hat.unique _ hr.reach _ _ _ _ _ hat' hcounts
  have hlen : tail.length = tail'.length := by omega
  rw [hlen, htail'] at htail
  cases htail
  exact ⟨rfl, rfl, rfl⟩

theorem spelled_alike (r' : Ref) (htype : r'.rtype = r.rtype) (hr : r.InMessage)
    (hr' : r'.InMessage) (lead : Bytes) (names names' : List (List Label)) (tail : Bytes)
    (hspells : r.Spells lead names tail) (hspells' : r'.Spells lead names' tail) (form : RdataForm)
    (halike : names.map (List.map (spelled form.foldCase)) =
      names'.map (List.map (spelled form.foldCase))) (bytes : Bytes) :
    r.writeCanonicalRdata form = .ok bytes ↔ r'.writeCanonicalRdata form = .ok bytes := by
  have hcongr := ResourceType.Canonical.congr r.rtype form lead names names' tail bytes
    (writtenOut_congr form.foldCase names names' halike)
  rw [r.writeCanonicalRdata_iff hr, r'.writeCanonicalRdata_iff hr', htype]
  constructor
  · rintro ⟨_, _, _, hother, hcanonical⟩
    obtain ⟨rfl, rfl, rfl⟩ := hspells.unique r hr _ _ _ _ _ _ hother
    exact ⟨_, _, _, hspells', hcongr.mp hcanonical⟩
  · rintro ⟨_, _, _, hother, hcanonical⟩
    obtain ⟨rfl, rfl, rfl⟩ := hspells'.unique r' hr' _ _ _ _ _ _ hother
    exact ⟨_, _, _, hspells, hcongr.mpr hcanonical⟩

end Ref

/-- A record decodes in every form or in none; what it decodes to, laid out in full in any record
of its type, decodes to itself there; that is what its rdata spells, with its names written out;
and two records of one type that spell the same, however each is compressed, decode to the same
octets. -/
theorem canonical_rdata_is_one (r : Ref) :
    (∀ form form', (r.writeCanonicalRdata form).isOk = (r.writeCanonicalRdata form').isOk) ∧
      (∀ form bytes, r.writeCanonicalRdata form = .ok bytes → ∀ r', Holds r' r.rtype bytes →
        r'.writeCanonicalRdata form = .ok bytes) ∧
      (r.InMessage → ∀ form bytes, r.writeCanonicalRdata form = .ok bytes ↔
        ∃ lead names tail, r.Spells lead names tail ∧
          r.rtype.Canonical form lead names tail bytes) ∧
      ∀ r' : Ref, r'.rtype = r.rtype → r.InMessage → r'.InMessage →
        ∀ (lead : Bytes) (names names' : List (List Label)) (tail : Bytes),
          r.Spells lead names tail → r'.Spells lead names' tail → ∀ form : RdataForm,
            names.map (List.map (spelled form.foldCase)) =
                names'.map (List.map (spelled form.foldCase)) →
              ∀ bytes, r.writeCanonicalRdata form = .ok bytes ↔
                r'.writeCanonicalRdata form = .ok bytes :=
  ⟨Ref.writeCanonicalRdata_isOk r, Ref.writeCanonicalRdata_again r, r.writeCanonicalRdata_iff,
    r.spelled_alike⟩

def pointedPtr : Ref := ⟨[1, 97, 0, 192, 0], ⟨[1, 97, 0, 192, 0], 0⟩, .ptr, .in_, false, 0, 3, 2⟩

def shoutedPtr : Ref := ⟨[1, 65, 0], ⟨[1, 65, 0], 0⟩, .ptr, .in_, false, 0, 0, 3⟩

theorem canonical_rdata_is_one_ptr :
    (⟨[1, 97, 0], ⟨[1, 97, 0], 0⟩, .ptr, .in_, false, 0, 0, 3⟩ : Ref).canonicalRdata =
        .ok [1, 97, 0] ∧
      shoutedPtr.canonicalRdataFolded = .ok [1, 97, 0] := by
  obtain ⟨-, hagain, -, halike⟩ := canonical_rdata_is_one pointedPtr
  have hplain : Occupies [1, 97, 0, 192, 0] 3 2 := .pointer 3 192 0 rfl (by decide) rfl
  have hpointed : pointedPtr.Spells [] [[[97]]] [] := by
    refine ⟨⟨rfl, 5, .name 3 2 1 5 [[97]] [] ?_ (by decide) (by decide) hplain (.done 5), rfl, rfl⟩,
      rfl⟩
    exact .pointer 3 0 192 0 [[97]] rfl (by decide) rfl (by decide)
      (.label 0 0 1 [97] [] rfl rfl ⟨by decide, by decide⟩ rfl (.root 2 rfl))
  have hshouted : shoutedPtr.Spells [] [[[65]]] [] := by
    refine ⟨⟨rfl, 3, .name 0 3 0 3 [[65]] [] ?_ (by decide) (by decide) ?_ (.done 3), rfl, rfl⟩,
      rfl⟩
    · exact .label 0 0 1 [65] [] rfl rfl ⟨by decide, by decide⟩ rfl (.root 2 rfl)
    · exact .label 0 1 1 [65] rfl rfl ⟨by decide, by decide⟩ rfl (.root 2 rfl)
  constructor
  · exact hagain .preservingCase [1, 97, 0] (by decide) _ ⟨rfl, rfl, by decide, by decide⟩
  · exact (halike shoutedPtr rfl ⟨by decide, by decide⟩ ⟨by decide, by decide⟩ [] _ _ [] hpointed
      hshouted .folded (by decide) [1, 97, 0]).mp (by decide)

end Hick.Wire
