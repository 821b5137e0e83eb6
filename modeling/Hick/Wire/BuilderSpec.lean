import Mathlib
import Hick.Wire.Builder

/-!
# What a completed builder operation appended

Every operation that completes appends octets at the cursor, extends the table and extends the ghost
list of entries.
-/

namespace Hick.Wire
open Octets LabelSeq

namespace EncodeM

variable {α β : Type}

theorem exec_bind (m : EncodeM α) (f : α → EncodeM β) (b : MessageBuilder) :
    (m >>= f).exec b = match m.exec b with
      | (.ok a, b1) => (f a).exec b1
      | (.error e, b1) => (.error e, b1) := by
  simp only [EncodeM.exec, ExceptT.run, bind, ExceptT.bind, ExceptT.mk, StateT.bind, StateT.run]
  cases h : m b with
  | mk r b1 =>
    cases r with
    | ok a => rfl
    | error e => rfl

@[simp] theorem exec_pure (a : α) (b : MessageBuilder) :
    (pure a : EncodeM α).exec b = (.ok a, b) := rfl

@[simp] theorem exec_get (b : MessageBuilder) :
    (get : EncodeM MessageBuilder).exec b = (.ok b, b) := rfl

@[simp] theorem exec_set (b b1 : MessageBuilder) :
    (set b1 : EncodeM PUnit).exec b = (.ok ⟨⟩, b1) := rfl

@[simp] theorem exec_modify (f : MessageBuilder → MessageBuilder) (b : MessageBuilder) :
    (modify f : EncodeM PUnit).exec b = (.ok ⟨⟩, f b) := rfl

@[simp] theorem exec_throw (e : EncodeError) (b : MessageBuilder) :
    (throw e : EncodeM α).exec b = (.error e, b) := rfl

theorem bind_ok (m : EncodeM α) (f : α → EncodeM β) (b b' : MessageBuilder) (r : β)
    (h : (m >>= f).exec b = (.ok r, b')) :
    ∃ a b1, m.exec b = (.ok a, b1) ∧ (f a).exec b1 = (.ok r, b') := by
  rw [exec_bind] at h
  cases hm : m.exec b with
  | mk x b1 =>
    rw [hm] at h
    cases x with
    | ok a => exact ⟨a, b1, rfl, h⟩
    | error e => cases h

theorem get_bind_ok (f : MessageBuilder → EncodeM β) (b b' : MessageBuilder) (r : β)
    (h : ((get : EncodeM MessageBuilder) >>= f).exec b = (.ok r, b')) :
    (f b).exec b = (.ok r, b') := by
  obtain ⟨a, b1, ha, hf⟩ := bind_ok _ _ _ _ _ h
  cases ha
  exact hf

end EncodeM

open EncodeM MessageBuilder

def CompressionTable.dict (t : CompressionTable) : List (UInt64 × Nat) :=
  t.live.map fun e => (e.1, e.2.toNat)

theorem CompressionTable.dict_new : CompressionTable.new.dict = [] := rfl

theorem CompressionTable.dict_length (t : CompressionTable) :
    t.dict.length ≤ defaultCompressionTable := by
  simp only [dict, live, List.length_map, List.length_take, t.length_eq]
  exact Nat.min_le_right _ _

theorem CompressionTable.lookup_some (t : CompressionTable) (hash : UInt64) (off : UInt16)
    (h : t.lookup hash = some off) : ∃ k : Nat, t.dict[k]? = some (hash, off.toNat) := by
  unfold lookup at h
  cases hf : t.live.find? (fun e => e.1 == hash) with
  | none => simp [hf] at h
  | some e =>
    rw [hf] at h
    have hoff : e.2 = off := Option.some.inj h
    have hkey : e.1 = hash := by simpa using List.find?_some hf
    obtain ⟨k, hk⟩ := List.mem_iff_getElem?.mp (List.mem_of_find?_eq_some hf)
    refine ⟨k, ?_⟩
    rw [dict, List.getElem?_map, hk, ← hkey, ← hoff]
    rfl

theorem CompressionTable.dict_insert (t : CompressionTable) (hash : UInt64) (off : UInt16) :
    (t.insert hash off).dict = t.dict ∨
      (t.insert hash off).dict = t.dict ++ [(hash, off.toNat)] := by
  unfold insert
  split
  · rename_i hlt
    right
    have hlen : t.used < t.entries.length := by rw [t.length_eq]; exact hlt
    simp only [dict, live]
    rw [List.take_add_one, List.getElem?_set_self hlen, List.take_set_of_le (Nat.le_refl _)]
    simp
  · exact .inl rfl

def Header.countEntry (h : Header) : Entry → Header
  | .question _ => h.countQuestion
  | .record r => h.countRecord r.sect

def NoCollision (pool : List Label → Prop) : Prop :=
  ∀ xs ys, pool xs → pool ys → hashSuffix xs = hashSuffix ys → xs = ys

def Covers (pool : List Label → Prop) (name : Name) : Prop :=
  ∀ ls, ls ≠ [] → ls <:+ name.labels → pool ls

/-- From `b` to `b'`, the entries `es` were completed, and the octets appended make `Q` true
of every message that has them behind a prefix for which the table of `b` is sound. -/
structure Emission (pool : List Label → Prop) (b b' : MessageBuilder) (es : List Entry)
    (Q : Bytes → Prop) : Prop where
  capacity : b'.out.length = b.out.length
  fits : b'.cursor ≤ b'.out.length
  header : b'.header = es.foldl Header.countEntry b.header
  pushed : b'.pushed = b.pushed ++ es
  appended : ∃ frag, b'.cursor = b.cursor + frag.length ∧ b'.written = b.written ++ frag ∧
    (NoCollision pool → b'.cursor ≤ 16384 → ∀ w, w.length = b.cursor → Sound hashSuffix pool w b.compression.dict →
      Sound hashSuffix pool (w ++ frag) b'.compression.dict ∧ ∀ rest, Q (w ++ (frag ++ rest)))

section
variable (pool : List Label → Prop)

theorem Emission.mono (b b' : MessageBuilder) (es : List Entry) (Q Q' : Bytes → Prop)
    (h : Emission pool b b' es Q) (hQ : ∀ m, Q m → Q' m) : Emission pool b b' es Q' := by
  obtain ⟨frag, hc, hw, hm⟩ := h.appended
  refine ⟨h.capacity, h.fits, h.header, h.pushed, frag, hc, hw, ?_⟩
  intro hinj hle w hlen hs
  obtain ⟨hs', hq⟩ := hm hinj hle w hlen hs
  exact ⟨hs', fun rest => hQ _ (hq rest)⟩

theorem Emission.within (b b' : MessageBuilder) (es : List Entry) (Q : Bytes → Prop)
    (h : Emission pool b b' es Q) :
    Emission pool b b' es (fun m => Q m ∧ b'.cursor ≤ m.length) := by
  obtain ⟨frag, hc, hw, hm⟩ := h.appended
  refine ⟨h.capacity, h.fits, h.header, h.pushed, frag, hc, hw, ?_⟩
  intro hinj hle w hlen hs
  obtain ⟨hs', hq⟩ := hm hinj hle w hlen hs
  refine ⟨hs', fun rest => ⟨hq rest, ?_⟩⟩
  simp only [List.length_append]
  omega

theorem Emission.refl (b : MessageBuilder) (hf : b.cursor ≤ b.out.length) :
    Emission pool b b [] (fun _ => True) := by
  refine ⟨rfl, hf, rfl, (List.append_nil _).symm, [], rfl, (List.append_nil _).symm, ?_⟩
  intro _ _ w _ hs
  rw [List.append_nil]
  exact ⟨hs, fun _ => trivial⟩

theorem Emission.cursor_le (b b' : MessageBuilder) (es : List Entry) (Q : Bytes → Prop)
    (h : Emission pool b b' es Q) : b.cursor ≤ b'.cursor := by
  obtain ⟨frag, hc, _⟩ := h.appended
  omega

theorem Emission.trans (b b1 b2 : MessageBuilder) (es1 es2 : List Entry) (Q1 Q2 : Bytes → Prop)
    (h1 : Emission pool b b1 es1 Q1) (h2 : Emission pool b1 b2 es2 Q2) :
    Emission pool b b2 (es1 ++ es2) (fun m => Q1 m ∧ Q2 m) := by
  obtain ⟨f1, hc1, hw1, hm1⟩ := h1.appended
  obtain ⟨f2, hc2, hw2, hm2⟩ := h2.appended
  refine ⟨h2.capacity.trans h1.capacity, h2.fits, ?_, ?_, f1 ++ f2, ?_, ?_, ?_⟩
  · rw [List.foldl_append, ← h1.header, h2.header]
  · rw [h2.pushed, h1.pushed, List.append_assoc]
  · rw [hc2, hc1, List.length_append]
    omega
  · rw [hw2, hw1, List.append_assoc]
  · intro hinj hle w hlen hs
    obtain ⟨hs1, hq1⟩ := hm1 hinj (by omega) w hlen hs
    have hlen1 : (w ++ f1).length = b1.cursor := by
      rw [List.length_append, hlen, hc1]
    obtain ⟨hs2, hq2⟩ := hm2 hinj hle (w ++ f1) hlen1 hs1
    rw [List.append_assoc] at hs2
    refine ⟨hs2, fun rest => ⟨?_, ?_⟩⟩
    · have h := hq1 (f2 ++ rest)
      rw [← List.append_assoc f1] at h
      exact h
    · have h := hq2 rest
      rw [List.append_assoc] at h
      rw [List.append_assoc f1]
      exact h

/-- From `b` to `b'` the octets `bs` were written, and nothing else changed. -/
structure Wrote (b b' : MessageBuilder) (bs : Bytes) : Prop where
  capacity : b'.out.length = b.out.length
  fits : b'.cursor ≤ b'.out.length
  header : b'.header = b.header
  compression : b'.compression = b.compression
  pushed : b'.pushed = b.pushed
  cursor : b'.cursor = b.cursor + bs.length
  written : b'.written = b.written ++ bs

theorem Wrote.trans (b b1 b2 : MessageBuilder) (xs ys : Bytes) (h1 : Wrote b b1 xs)
    (h2 : Wrote b1 b2 ys) : Wrote b b2 (xs ++ ys) where
  capacity := h2.capacity.trans h1.capacity
  fits := h2.fits
  header := h2.header.trans h1.header
  compression := h2.compression.trans h1.compression
  pushed := h2.pushed.trans h1.pushed
  cursor := by
    rw [h2.cursor, h1.cursor, List.length_append]
    omega
  written := by rw [h2.written, h1.written, List.append_assoc]

theorem writeSlice_wrote (bs : Bytes) (b b' : MessageBuilder)
    (h : (writeSlice bs).exec b = (.ok (), b')) : Wrote b b' bs := by
  have h' := get_bind_ok _ _ _ _ h
  cases ho : overwrite b.out b.cursor bs with
  | none =>
    rw [ho] at h'
    cases h'
  | some out =>
    rw [ho] at h'
    cases h'
    have hl := overwrite_length b.out b.cursor bs out ho
    refine ⟨hl, ?_, rfl, rfl, rfl, rfl, overwrite_take b.out b.cursor bs out ho⟩
    unfold overwrite at ho
    split at ho
    · simp only [hl]
      assumption
    · cases ho

theorem writeBytes_wrote (bs : Bytes) (b b' : MessageBuilder)
    (hf : b.cursor ≤ b.out.length) (h : (writeBytes bs).exec b = (.ok (), b')) :
    Wrote b b' bs := by
  induction bs generalizing b with
  | nil =>
    cases h
    exact ⟨rfl, hf, rfl, rfl, rfl, rfl, (List.append_nil _).symm⟩
  | cons x xs ih =>
    obtain ⟨u, b1, h1, h2⟩ := bind_ok _ _ _ _ _ h
    have w1 := writeSlice_wrote [x] b b1 h1
    exact w1.trans b b1 b' [x] xs (ih b1 w1.fits h2)

theorem Wrote.emission (pool : List Label → Prop) (b b' : MessageBuilder) (bs : Bytes)
    (h : Wrote b b' bs) :
    Emission pool b b' [] (fun m => slice m b.cursor bs.length = some bs) := by
  refine ⟨h.capacity, h.fits, h.header, by rw [h.pushed, List.append_nil], bs, h.cursor,
    h.written, ?_⟩
  intro _ _ w hlen hs
  rw [h.compression]
  refine ⟨hs.append hashSuffix pool w bs _, fun rest => ?_⟩
  rw [← hlen]
  exact slice_middle w bs rest

theorem splitKnown_spec (t : CompressionTable) (labels : List Label) :
    (splitKnown t labels).1 ≤ labels.length ∧
      ((splitKnown t labels).2 = none → (splitKnown t labels).1 = labels.length) ∧
      ∀ off, (splitKnown t labels).2 = some off →
        labels.drop (splitKnown t labels).1 ≠ [] ∧
          t.lookup (hashSuffix (labels.drop (splitKnown t labels).1)) = some off := by
  induction labels with
  | nil => simp [splitKnown]
  | cons label rest ih =>
    rw [splitKnown]
    cases hl : t.lookup (hashSuffix (label :: rest)) with
    | some off =>
      simp only [Nat.zero_le, reduceCtorEq, false_implies, Option.some.injEq, List.drop_zero,
        true_and]
      rintro _ rfl
      exact ⟨by simp, hl⟩
    | none =>
      obtain ⟨h1, h2, h3⟩ := ih
      refine ⟨by simpa using h1, fun h => by simpa using h2 h, fun off h => ?_⟩
      simpa using h3 off h

/-- What the end of a name stands for behind the prefix `w`: nothing more, or a position of
`w` where the rest `suf` of the name is. -/
inductive EndOk (w : Bytes) : Option UInt16 → List Label → Nat → Prop where
  | terminator : EndOk w none [] 0
  | pointer (off : UInt16) (suf : List Label) (hops : Nat) (hlt : off.toNat < 16384)
      (hx : Expands w off.toNat hops suf) : EndOk w (some off) suf (hops + 1)

theorem EndOk.append (w ext : Bytes) (p : Option UInt16) (suf : List Label) (hops : Nat)
    (h : EndOk w p suf hops) : EndOk (w ++ ext) p suf hops := by
  cases h with
  | terminator => exact .terminator
  | pointer off suf hops hlt hx => exact .pointer off suf hops hlt (hx.append w ext _ _ _)

structure NameEmission (b b' : MessageBuilder) (labels suf : List Label)
    (p : Option UInt16) : Prop where
  capacity : b'.out.length = b.out.length
  fits : b'.cursor ≤ b'.out.length
  header : b'.header = b.header
  pushed : b'.pushed = b.pushed
  appended : ∃ frag news, b'.cursor = b.cursor + frag.length ∧ b'.written = b.written ++ frag ∧
    b'.compression.dict = b.compression.dict ++ news ∧
    ∀ w hops, w.length = b.cursor → EndOk w p suf hops → ∀ rest,
      Expands (w ++ (frag ++ rest)) b.cursor hops labels ∧
      Occupies (w ++ (frag ++ rest)) b.cursor frag.length ∧
      ∀ e ∈ news, ∃ ls, ls ≠ [] ∧ ls <:+ labels ∧ hashSuffix ls = e.1 ∧
        Expands (w ++ (frag ++ rest)) e.2 hops ls

theorem pointer_octets (off : UInt16) (h : off.toNat < 16384) :
    (Fin.ofNat 256 (off.toNat / 256) ||| (0b1100_0000 : Byte)).val = off.toNat / 256 + 192 ∧
      (Fin.ofNat 256 off.toNat : Byte).val = off.toNat % 256 := by
  refine ⟨?_, rfl⟩
  have hall : ∀ x : Fin 64, (Fin.ofNat 256 x.val ||| (0b1100_0000 : Byte)).val = x.val + 192 := by
    decide +kernel
  exact hall ⟨off.toNat / 256, by omega⟩

theorem writeNameEnd_emission (p : Option UInt16) (b b' : MessageBuilder) (suf : List Label)
    (h : (writeNameEnd p).exec b = (.ok (), b')) : NameEmission b b' suf suf p := by
  cases p with
  | none =>
    have hw := writeSlice_wrote [0] b b' h
    refine ⟨hw.capacity, hw.fits, hw.header, hw.pushed, [0], [], hw.cursor, hw.written, ?_, ?_⟩
    · rw [hw.compression, List.append_nil]
    intro w hops hlen hend rest
    cases hend
    have h0 : (w ++ ([0] ++ rest))[b.cursor]? = some 0 := by
      rw [← hlen, List.getElem?_append_right (Nat.le_refl _), Nat.sub_self]
      rfl
    exact ⟨.root _ h0, .root _ h0, by simp⟩
  | some off =>
    obtain ⟨u, b1, h1, h2⟩ := bind_ok _ _ _ _ _ h
    have w1 := writeSlice_wrote _ b b1 h1
    have hw := w1.trans b b1 b' _ _ (writeSlice_wrote _ b1 b' h2)
    refine ⟨hw.capacity, hw.fits, hw.header, hw.pushed, _, [], hw.cursor, hw.written, ?_, ?_⟩
    · rw [hw.compression, List.append_nil]
    · intro w hops hlen hend rest
      cases hend with
      | pointer _ _ hops hlt hx =>
        obtain ⟨hhi, hlo⟩ := pointer_octets off hlt
        have h0 : (w ++ ([Fin.ofNat 256 (off.toNat / 256) ||| (0b1100_0000 : Byte)] ++
            [Fin.ofNat 256 off.toNat] ++ rest))[b.cursor]? =
            some (Fin.ofNat 256 (off.toNat / 256) ||| (0b1100_0000 : Byte)) := by
          rw [← hlen, List.getElem?_append_right (Nat.le_refl _), Nat.sub_self]
          rfl
        have h1 : (w ++ ([Fin.ofNat 256 (off.toNat / 256) ||| (0b1100_0000 : Byte)] ++
            [Fin.ofNat 256 off.toNat] ++ rest))[b.cursor + 1]? =
            some (Fin.ofNat 256 off.toNat) := by
          rw [← hlen, List.getElem?_append_right (by omega), Nat.add_sub_cancel_left]
          rfl
        have htarget : ((Fin.ofNat 256 (off.toNat / 256) ||| (0b1100_0000 : Byte)).val - 192) *
            256 + (Fin.ofNat 256 off.toNat : Byte).val = off.toNat := by
          rw [hhi, hlo]
          omega
        have hlt' : off.toNat < b.cursor := by
          rw [← hlen]
          exact hx.lt_length w _ _ _
        refine ⟨.pointer _ _ _ _ _ h0 (by omega) h1 (by omega) ?_,
          .pointer _ _ _ h0 (by omega) h1, by simp⟩
        rw [htarget]
        exact hx.append w _ _ _ _

theorem u16TryFrom_ok (n : Nat) (v : UInt16) (b b' : MessageBuilder)
    (h : (u16TryFrom n).exec b = (.ok v, b')) : b = b' ∧ v.toNat = n ∧ n ≤ 65535 := by
  unfold u16TryFrom at h
  split at h
  · rename_i hn
    cases h
    refine ⟨rfl, ?_, hn⟩
    simp only [UInt16.toNat_ofNat']
    omega
  · cases h

theorem writeLabels_emission (n : Nat) (labels : List Label) (p : Option UInt16)
    (b b1 b' : MessageBuilder) (hf : b.cursor ≤ b.out.length) (hn : n ≤ labels.length)
    (hp : ∀ l ∈ labels, Plain l) (hl : ∀ l ∈ labels, lower l = l)
    (h : (writeLabels n labels).exec b = (.ok (), b1))
    (hend : (writeNameEnd p).exec b1 = (.ok (), b')) :
    NameEmission b b' labels (labels.drop n) p := by
  induction n generalizing labels b with
  | zero =>
    cases h
    exact writeNameEnd_emission p _ b' labels hend
  | succ n ih =>
    cases labels with
    | nil => simp at hn
    | cons label rest =>
      obtain ⟨hpl, hprest⟩ := List.forall_mem_cons.mp hp
      obtain ⟨hll, hlrest⟩ := List.forall_mem_cons.mp hl
      have h := get_bind_ok _ _ _ _ h
      rw [if_neg (by have := hpl.2; simp only [maxLabelBytes]; omega)] at h
      obtain ⟨offset, b2, ho, h⟩ := bind_ok _ _ _ _ _ h
      obtain ⟨_, hoff, _⟩ := u16TryFrom_ok _ _ _ _ ho
      obtain ⟨u, b3, hset, h⟩ := bind_ok _ _ _ _ _ h
      cases hset
      obtain ⟨u, b4, hlen, h⟩ := bind_ok _ _ _ _ _ h
      obtain ⟨u, b5, hbytes, h⟩ := bind_ok _ _ _ _ _ h
      have w1 := writeSlice_wrote _ _ b4 hlen
      have w2 := writeBytes_wrote (lower label) b4 b5 w1.fits hbytes
      have hw := w1.trans _ _ _ _ _ w2
      rw [hll] at hw
      change Wrote _ b5 (prefixed label) at hw
      have hrest := ih rest b5 hw.fits (by simpa using hn) hprest hlrest h
      obtain ⟨frag, news, hc, hwr, hd, hm⟩ := hrest.appended
      have hcur : b5.cursor = b.cursor + (prefixed label).length := hw.cursor
      refine ⟨hrest.capacity.trans hw.capacity, hrest.fits, hrest.header.trans hw.header,
        hrest.pushed.trans hw.pushed, prefixed label ++ frag,
        (b5.compression.dict.drop b.compression.dict.length) ++ news, ?_, ?_, ?_, ?_⟩
      · rw [hc, hcur, List.length_append]
        omega
      · rw [hwr, hw.written, List.append_assoc]
        rfl
      · rw [hd, hw.compression, ← List.append_assoc]
        rcases CompressionTable.dict_insert b.compression (hashSuffix (label :: rest)) offset with
          hi | hi
        · rw [hi]
          simp
        · rw [hi]
          simp
      · intro w hops hlen hend' ext
        have hlen5 : (w ++ prefixed label).length = b5.cursor := by
          rw [List.length_append, hlen, hcur]
        obtain ⟨hx, ho, hnews⟩ :=
          hm (w ++ prefixed label) hops hlen5 (hend'.append w _ _ _ _) ext
        have hassoc : w ++ prefixed label ++ (frag ++ ext) =
            w ++ (prefixed label ++ (frag ++ ext)) := List.append_assoc _ _ _
        have hassoc' : w ++ (prefixed label ++ frag ++ ext) =
            w ++ (prefixed label ++ (frag ++ ext)) := by rw [List.append_assoc (prefixed label)]
        rw [hassoc, hcur, ← hlen] at hx ho
        rw [hassoc] at hnews
        rw [hassoc', ← hlen]
        have hxl := Expands.cons w (frag ++ ext) label hops rest hpl hx
        refine ⟨hxl, ?_, ?_⟩
        · rw [List.length_append]
          exact Occupies.cons w (frag ++ ext) label frag.length hpl ho
        · intro e he
          rcases List.mem_append.mp he with he | he
          · refine ⟨label :: rest, by simp, List.suffix_refl _, ?_⟩
            rw [hw.compression] at he
            rcases CompressionTable.dict_insert b.compression (hashSuffix (label :: rest)) offset
              with hi | hi
            · rw [hi] at he
              simp at he
            · rw [hi] at he
              simp only [List.drop_left, List.mem_singleton] at he
              rw [he, hoff, ← hlen]
              exact ⟨rfl, hxl⟩
          · obtain ⟨ls, hne, hsuf, hkey, hxe⟩ := hnews e he
            exact ⟨ls, hne, hsuf.trans (List.suffix_cons _ _), hkey, hxe⟩

/-- At `at_`, `len` octets in place stand for the labels of a name. -/
def NameAt (m : Bytes) (at_ len : Nat) (labels : List Label) : Prop :=
  (∃ hops, hops ≤ 32 ∧ Expands m at_ hops labels) ∧ Occupies m at_ len

theorem NameEmission.emission (b b' : MessageBuilder) (labels suf : List Label) (p : Option UInt16)
    (h : NameEmission b b' labels suf p)
    (hsuf : suf <:+ labels) (hpool : ∀ ls, ls ≠ [] → ls <:+ labels → pool ls)
    (hp : p = none → suf = [])
    (hlook : ∀ off, p = some off → suf ≠ [] ∧
      b.compression.lookup (hashSuffix suf) = some off) :
    Emission pool b b' [] (fun m => NameAt m b.cursor (b'.cursor - b.cursor) labels) := by
  obtain ⟨frag, news, hc, hwr, hd, hm⟩ := h.appended
  refine ⟨h.capacity, h.fits, h.header, by rw [h.pushed, List.append_nil], frag, hc, hwr, ?_⟩
  intro hinj hle w hlen hs
  have hend : ∃ hops, EndOk w p suf hops ∧ hops ≤ b.compression.dict.length := by
    cases p with
    | none =>
      rw [hp rfl]
      exact ⟨0, .terminator, Nat.zero_le _⟩
    | some off =>
      obtain ⟨hne, hl⟩ := hlook off rfl
      obtain ⟨k, hk⟩ := b.compression.lookup_some _ off hl
      obtain ⟨ls, hops, hpl, hkey, hhk, hx⟩ := hs k _ hk
      have heq : ls = suf := hinj ls suf hpl (hpool suf hne hsuf) hkey
      rw [heq] at hx
      have hklt := (List.getElem?_eq_some_iff.mp hk).1
      have hlt := hx.lt_length w _ _ _
      exact ⟨hops + 1, .pointer off suf hops (by simp only at hlt; omega) hx, by omega⟩
  obtain ⟨hops, hend, hh⟩ := hend
  have hh32 : hops ≤ 32 := hh.trans b.compression.dict_length
  constructor
  · obtain ⟨_, _, hnews⟩ := hm w hops hlen hend []
    rw [List.append_nil] at hnews
    rw [hd]
    refine (hs.append hashSuffix pool w frag _).extend hashSuffix pool _ _ _ hops hh ?_
    intro e he
    obtain ⟨ls, hne, hls, hkey, hx⟩ := hnews e he
    exact ⟨ls, hpool ls hne hls, hkey, hx⟩
  · intro rest
    obtain ⟨hx, ho, _⟩ := hm w hops hlen hend rest
    rw [hc, Nat.add_sub_cancel_left]
    exact ⟨⟨hops, hh32, hx⟩, ho⟩

theorem writeName_emission (name : Name) (hpool : Covers pool name)
    (b b' : MessageBuilder) (hf : b.cursor ≤ b.out.length)
    (h : (writeName name).exec b = (.ok (), b')) :
    Emission pool b b' [] (fun m => NameAt m b.cursor (b'.cursor - b.cursor) name.labels) := by
  unfold writeName at h
  split at h
  · rename_i hnil
    rw [name.labels_eq_nil.mpr hnil]
    refine (writeNameEnd_emission none b b' [] h).emission pool b b' [] [] none
      (List.suffix_refl _) ?_ (fun _ => rfl) (by simp)
    intro ls hne hls
    exact absurd (List.suffix_nil.mp hls) hne
  · rename_i hne
    have hlabels : name.labels = splitDot (trim name.text) := if_neg hne
    have h := get_bind_ok _ _ _ _ h
    split at h
    · cases h
    · rw [← hlabels] at h
      obtain ⟨u, b1, h1, h2⟩ := bind_ok _ _ _ _ _ h
      obtain ⟨hle, hnone, hsome⟩ := splitKnown_spec b.compression name.labels
      have he := writeLabels_emission _ name.labels _ b b1 b' hf hle name.labels_plain
        name.labels_folded h1 h2
      refine he.emission pool b b' _ _ _ (List.drop_suffix _ _) hpool ?_ hsome
      intro hp
      rw [hnone hp, List.drop_length]

end

end Hick.Wire
