import Mathlib
import Hick.Wire.Room
import Hick.Wire.Rollback

/-!
# Where compression pointers lead (wire/builder.rs:42-65, 610-705)

The table records the place of a suffix in 16 bits under a hash of it; a pointer holds 14 bits.
-/

namespace Hick
open Octets LabelSeq Wire EncodeM MessageBuilder

abbrev Placed := List Label × Nat

def placed (at_ : Nat) : Nat → List Label → List Placed
  | 0, _ => []
  | _ + 1, [] => []
  | n + 1, label :: rest => (label :: rest, at_) :: placed (at_ + 1 + label.length) n rest

structure NameWrite where
  name : Name
  on : MessageBuilder

namespace NameWrite

def known (w : NameWrite) : Nat × Option UInt16 := splitKnown w.on.compression w.name.labels

def placed (w : NameWrite) : List Placed := Hick.placed w.on.cursor w.known.1 w.name.labels

def done (w : NameWrite) : MessageBuilder := ((writeName w.name).exec w.on).2

end NameWrite

def pointerTarget (message : Bytes) (at_ : Nat) : Option Nat :=
  match message[at_]?, message[at_ + 1]? with
  | some hi, some lo => some ((hi &&& pointerOffsetHiMask).val * 256 + lo.val)
  | _, _ => none

def PointsBack (log : List Placed) (w : NameWrite) : Prop :=
  w.known.2 ≠ none → ∃ target, pointerTarget w.done.out (w.done.cursor - 2) = some target ∧
    (w.name.labels.drop w.known.1, target) ∈ log

/-- The calls of `write_name` for a record pushed on `b`: for the owner, and for a name in the
rdata. -/
def entryWrites (e : RecordEntry) (b : MessageBuilder) : List NameWrite :=
  match e.data with
  | .srv priority weight port target =>
    [⟨e.owner, b⟩, ⟨target, (EncodeM.exec (do
      writeRecordHead e
      writeU16 0
      writeU16 priority
      writeU16 weight
      writeU16 port) b).2⟩]
  | .ptr target =>
    [⟨e.owner, b⟩, ⟨target, (EncodeM.exec (do writeRecordHead e; writeU16 0) b).2⟩]
  | .nsec next _ =>
    [⟨e.owner, b⟩, ⟨next, (EncodeM.exec (do writeRecordHead e; writeU16 0) b).2⟩]
  | _ => [⟨e.owner, b⟩]

def Push.nameWrites (p : Push) (b : MessageBuilder) : List NameWrite :=
  match p.entry with
  | .question q => [⟨q.name, b⟩]
  | .record e => entryWrites e b

def nameWrites : List Push → MessageBuilder → List NameWrite
  | [], _ => []
  | p :: rest, b => p.nameWrites b ++ nameWrites rest (p.call.exec b).2

def firstWithHash (log : List Placed) (s : List Label) : Option Placed :=
  (log.take defaultCompressionTable).find? fun e => hashSuffix e.1 == hashSuffix s

def longestKnown (log : List Placed) : List Label → Option (List Label × Placed)
  | [] => none
  | label :: rest =>
    match firstWithHash log (label :: rest) with
    | some e => some (label :: rest, e)
    | none => longestKnown log rest

def Clear (log : List Placed) (labels : List Label) : Prop :=
  ∀ s e, longestKnown log labels = some (s, e) → e.1 = s ∧ e.2 < 16384

/-- The table holds the first suffixes of the log, in order, and the log lies below the cursor. -/
structure Logged (log : List Placed) (b : MessageBuilder) : Prop where
  used : b.compression.used = min defaultCompressionTable log.length
  live : b.compression.live =
    (log.take defaultCompressionTable).map fun e => (hashSuffix e.1, UInt16.ofNat e.2)
  ordered : log.Pairwise fun x y => x.2 < y.2
  below : ∀ e ∈ log, e.2 < b.cursor
  word : ∀ e ∈ log, e.2 ≤ 65535
  fits : b.cursor ≤ b.out.length

def Quiet (m : EncodeM Unit) : Prop :=
  ∀ b b', b.cursor ≤ b.out.length → m.exec b = (.ok (), b') →
    b'.compression = b.compression ∧ b.cursor ≤ b'.cursor ∧ b'.cursor ≤ b'.out.length

variable (log : List Placed) (e : RecordEntry)

theorem Logged.quiet (m : EncodeM Unit) (b b' : MessageBuilder)
    (h : Logged log b) (hm : Quiet m) (he : m.exec b = (.ok (), b')) : Logged log b' := by
  obtain ⟨hc, hle, hf⟩ := hm b b' h.fits he
  refine ⟨?_, ?_, h.ordered, fun e hmem => lt_of_lt_of_le (h.below e hmem) hle, h.word, hf⟩
  · rw [hc]
    exact h.used
  · rw [hc]
    exact h.live

theorem quiet_bind (m n : EncodeM Unit) (hm : Quiet m) (hn : Quiet n) :
    Quiet (m >>= fun _ => n) := by
  intro b b' hf h
  obtain ⟨u, b1, h1, h2⟩ := bind_ok _ _ _ _ _ h
  obtain ⟨hc1, hl1, hf1⟩ := hm b b1 hf h1
  obtain ⟨hc2, hl2, hf2⟩ := hn b1 b' hf1 h2
  exact ⟨hc2.trans hc1, by omega, hf2⟩

theorem quiet_pure : Quiet (pure ()) := by
  intro b b' hf h
  cases h
  exact ⟨rfl, Nat.le_refl _, hf⟩

theorem Wire.Wrote.isQuiet (b b' : MessageBuilder) (bs : Bytes) (h : Wrote b b' bs) :
    b'.compression = b.compression ∧ b.cursor ≤ b'.cursor ∧ b'.cursor ≤ b'.out.length :=
  ⟨h.compression, by rw [h.cursor]; omega, h.fits⟩

theorem quiet_writeSlice (bs : Bytes) : Quiet (writeSlice bs) := fun b b' _ h =>
  (writeSlice_wrote bs b b' h).isQuiet b b' bs

theorem quiet_writeBytes (bs : Bytes) : Quiet (writeBytes bs) := fun b b' hf h =>
  (writeBytes_wrote bs b b' hf h).isQuiet b b' bs

theorem quiet_writeTxtRdata (segments : List Bytes) : Quiet (writeTxtRdata segments) :=
  fun b b' hf h => (writeTxtRdata_wrote segments b b' hf h).1.isQuiet b b' _

theorem quiet_writeBitmap (bitmap : Bytes) (n i : Nat) : Quiet (writeBitmap bitmap n i) := by
  induction n generalizing i with
  | zero => exact quiet_pure
  | succ n ih => exact quiet_bind _ _ (quiet_writeSlice _) (ih (i + 1))

theorem quiet_countRecord : Quiet (countRecord e) := by
  intro b b' hf h
  cases h
  exact ⟨rfl, Nat.le_refl _, hf⟩

theorem u16TryFrom_ofNat (n : Nat) (v : UInt16) (b b' : MessageBuilder)
    (h : (u16TryFrom n).exec b = (.ok v, b')) : v = UInt16.ofNat n ∧ n ≤ 65535 := by
  unfold u16TryFrom at h
  split at h
  · rename_i hn
    cases h
    exact ⟨rfl, hn⟩
  · cases h

theorem Logged.place (b b' : MessageBuilder) (label : Label)
    (rest : List Label) (bs : Bytes) (h : Logged log b) (hword : b.cursor ≤ 65535)
    (hbs : 0 < bs.length)
    (hw : Wrote { b with compression :=
      b.compression.insert (hashSuffix (label :: rest)) (UInt16.ofNat b.cursor) } b' bs) :
    Logged (log ++ [(label :: rest, b.cursor)]) b' := by
  have hlen : (log ++ [(label :: rest, b.cursor)]).length = log.length + 1 := by simp
  have hcursor : b'.cursor = b.cursor + bs.length := hw.cursor
  refine ⟨?_, ?_, ?_, ?_, ?_, hw.fits⟩
  · rw [hw.compression, CompressionTable.used_insert, h.used, hlen]
    split <;> omega
  · rw [hw.compression, CompressionTable.live_insert, h.used, h.live]
    by_cases hroom : log.length < defaultCompressionTable
    · rw [if_pos (by omega), List.take_of_length_le (by omega), List.take_of_length_le (by omega),
        List.map_append]
      rfl
    · rw [if_neg (by omega), List.take_append_of_le_length (by omega)]
  · refine List.pairwise_append.mpr ⟨h.ordered, List.pairwise_singleton _ _, ?_⟩
    intro e he x hx
    rw [List.mem_singleton.mp hx]
    exact h.below e he
  · intro e he
    rcases List.mem_append.mp he with he | he
    · have := h.below e he
      omega
    · rw [List.mem_singleton.mp he]
      simp only
      omega
  · intro e he
    rcases List.mem_append.mp he with he | he
    · exact h.word e he
    · rw [List.mem_singleton.mp he]
      exact hword

theorem writeLabels_logged (n : Nat) (labels : List Label) (log : List Placed)
    (b b' : MessageBuilder) (h : Logged log b) (hp : ∀ l ∈ labels, Plain l)
    (he : (writeLabels n labels).exec b = (.ok (), b')) :
    Logged (log ++ placed b.cursor n labels) b' := by
  induction n generalizing labels log b with
  | zero =>
    cases he
    rw [placed, List.append_nil]
    exact h
  | succ n ih =>
    cases labels with
    | nil =>
      cases he
      rw [placed, List.append_nil]
      exact h
    | cons label rest =>
      obtain ⟨hpl, hprest⟩ := List.forall_mem_cons.mp hp
      have he := get_bind_ok _ _ _ _ he
      rw [if_neg (by have := hpl.2; simp only [maxLabelBytes]; omega)] at he
      obtain ⟨offset, b2, ho, he⟩ := bind_ok _ _ _ _ _ he
      obtain ⟨rfl, hword⟩ := u16TryFrom_ofNat _ _ _ _ ho
      obtain ⟨u, b3, hset, he⟩ := bind_ok _ _ _ _ _ he
      cases hset
      obtain ⟨u, b4, hbyte, he⟩ := bind_ok _ _ _ _ _ he
      obtain ⟨u, b5, hbytes, he⟩ := bind_ok _ _ _ _ _ he
      have w1 := writeSlice_wrote _ _ b4 hbyte
      have hw := w1.trans _ _ _ _ _ (writeBytes_wrote (lower label) b4 b5 w1.fits hbytes)
      have hplaced := h.place log b b5 label rest _ hword (by simp) hw
      have hcursor : b5.cursor = b.cursor + 1 + label.length := by
        have := hw.cursor
        simp only [List.length_append, List.length_cons, List.length_nil, lower_length] at this
        omega
      have hrest := ih rest _ b5 hplaced hprest he
      rw [hcursor, List.append_assoc] at hrest
      exact hrest

theorem quiet_writeNameEnd (p : Option UInt16) : Quiet (writeNameEnd p) := by
  cases p with
  | none => exact quiet_writeSlice [0]
  | some off => exact quiet_bind _ _ (quiet_writeSlice _) (quiet_writeSlice _)

theorem writeName_parts (name : Name) (b b' : MessageBuilder)
    (h : (writeName name).exec b = (.ok (), b')) :
    ∃ b1, (writeLabels (splitKnown b.compression name.labels).1 name.labels).exec b = (.ok (), b1) ∧
      (writeNameEnd (splitKnown b.compression name.labels).2).exec b1 = (.ok (), b') := by
  unfold writeName at h
  split at h
  · rename_i hnil
    rw [name.labels_eq_nil.mpr hnil]
    exact ⟨b, rfl, h⟩
  · rename_i hne
    have hlabels : name.labels = splitDot (trim name.text) := if_neg hne
    have h := get_bind_ok _ _ _ _ h
    split at h
    · cases h
    · rw [← hlabels] at h
      obtain ⟨u, b1, h1, h2⟩ := bind_ok _ _ _ _ _ h
      exact ⟨b1, h1, h2⟩

theorem Logged.writeName (name : Name) (b b' : MessageBuilder)
    (h : Logged log b) (he : (MessageBuilder.writeName name).exec b = (.ok (), b')) :
    Logged (log ++ NameWrite.placed ⟨name, b⟩) b' := by
  obtain ⟨b1, h1, h2⟩ := writeName_parts name b b' he
  exact (writeLabels_logged _ _ log b b1 h name.labels_plain h1).quiet _ _ b1 b'
    (quiet_writeNameEnd _) h2

theorem pointer_target (off : UInt16) :
    ((Fin.ofNat 256 (off.toNat / 256) ||| (0b1100_0000 : Byte)) &&& pointerOffsetHiMask).val * 256 +
      (Fin.ofNat 256 off.toNat : Byte).val = off.toNat % 16384 := by
  have hall : ∀ x : Byte, ((x ||| (0b1100_0000 : Byte)) &&& pointerOffsetHiMask).val =
      x.val % 64 := by decide +kernel
  have hlt := off.toNat_lt
  rw [hall]
  simp only [Fin.ofNat]
  omega

theorem Wire.Wrote.octet_at (b b' : MessageBuilder) (bs : Bytes) (h : Wrote b b' bs)
    (hf : b.cursor ≤ b.out.length) (i : Nat) (hi : i < bs.length) :
    b'.out[b.cursor + i]? = bs[i]? := by
  have hlen : b.written.length = b.cursor := by
    simp only [MessageBuilder.written, List.length_take]
    omega
  have hw := congrArg (fun l : Bytes => l[b.cursor + i]?) h.written
  have hc := h.cursor
  simp only [MessageBuilder.written, List.getElem?_take] at hw
  rw [if_pos (by omega)] at hw
  rw [hw, List.getElem?_append_right (by
    change b.written.length ≤ _
    omega)]
  change bs[b.cursor + i - b.written.length]? = _
  rw [hlen, Nat.add_sub_cancel_left]

theorem Logged.target (w : NameWrite) (b' : MessageBuilder) (off : UInt16)
    (h : Logged log w.on) (hoff : w.known.2 = some off)
    (he : (MessageBuilder.writeName w.name).exec w.on = (.ok (), b')) :
    pointerTarget w.done.out (w.done.cursor - 2) = some (off.toNat % 16384) := by
  have hdone : w.done = b' := by
    unfold NameWrite.done
    rw [he]
  obtain ⟨b1, h1, h2⟩ := writeName_parts w.name w.on b' he
  have hf1 := (writeLabels_logged _ _ log w.on b1 h w.name.labels_plain h1).fits
  change (splitKnown w.on.compression w.name.labels).2 = some off at hoff
  rw [hoff] at h2
  obtain ⟨u, b2, hhi, hlo⟩ := bind_ok _ _ _ _ _ h2
  have w1 := writeSlice_wrote [Fin.ofNat 256 (off.toNat / 256) ||| 0b1100_0000] b1 b2 hhi
  have hw := w1.trans b1 b2 b' _ _ (writeSlice_wrote [Fin.ofNat 256 off.toNat] b2 b' hlo)
  have hcursor : b'.cursor - 2 = b1.cursor := by
    have hc : b'.cursor = b1.cursor + 2 := hw.cursor
    omega
  have h0 : b'.out[b1.cursor]? = some (Fin.ofNat 256 (off.toNat / 256) ||| 0b1100_0000) :=
    hw.octet_at b1 b' _ hf1 0 (by simp)
  have h1 : b'.out[b1.cursor + 1]? = some (Fin.ofNat 256 off.toNat) :=
    hw.octet_at b1 b' _ hf1 1 (by simp)
  rw [hdone, hcursor, pointerTarget, h0, h1]
  simp only
  rw [pointer_target]

theorem Logged.lookup (b : MessageBuilder) (h : Logged log b)
    (s : List Label) : b.compression.lookup (hashSuffix s) =
      (firstWithHash log s).map fun e => UInt16.ofNat e.2 := by
  unfold CompressionTable.lookup firstWithHash
  rw [h.live, List.find?_map, Option.map_map]
  rfl

theorem Logged.longestKnown (b : MessageBuilder) (h : Logged log b)
    (labels : List Label) :
    match Hick.longestKnown log labels with
    | none => (splitKnown b.compression labels).2 = none
    | some (s, e) => (splitKnown b.compression labels).2 = some (UInt16.ofNat e.2) ∧
        labels.drop (splitKnown b.compression labels).1 = s ∧ firstWithHash log s = some e := by
  induction labels with
  | nil => rfl
  | cons label rest ih =>
    have hl := h.lookup log b (label :: rest)
    rw [Hick.longestKnown, splitKnown]
    cases hf : firstWithHash log (label :: rest) with
    | some e =>
      rw [hf] at hl
      rw [hl]
      exact ⟨rfl, rfl, hf⟩
    | none =>
      rw [hf] at hl
      rw [hl]
      simp only [Option.map_none, List.drop_succ_cons]
      exact ih

theorem Logged.found (b : MessageBuilder) (h : Logged log b) (s : List Label)
    (e : Placed) (hf : firstWithHash log s = some e) :
    e ∈ log ∧ (∀ t, (s, t) ∈ log → e.2 ≤ t) ∧ (∀ x ∈ log, x.2 = e.2 → x = e) := by
  obtain ⟨-, before, after, htake, hbefore⟩ := List.find?_eq_some_iff_append.mp hf
  have hlog : log = before ++ e :: (after ++ log.drop defaultCompressionTable) := by
    conv_lhs => rw [← List.take_append_drop defaultCompressionTable log, htake]
    rw [List.append_assoc, List.cons_append]
  have hordered := h.ordered
  rw [hlog] at hordered
  obtain ⟨-, hafter, hcross⟩ := List.pairwise_append.mp hordered
  have hlater := (List.pairwise_cons.mp hafter).1
  refine ⟨by rw [hlog]; simp, ?_, ?_⟩
  · intro t ht
    rw [hlog] at ht
    rcases List.mem_append.mp ht with ht | ht
    · have hne := hbefore _ ht
      simp at hne
    · rcases List.mem_cons.mp ht with ht | ht
      · rw [← ht]
      · have hlt := hlater _ ht
        simp only at hlt
        omega
  · intro x hx hsame
    rw [hlog] at hx
    rcases List.mem_append.mp hx with hx | hx
    · have hlt := hcross x hx e (List.mem_cons_self ..)
      omega
    · rcases List.mem_cons.mp hx with hx | hx
      · exact hx
      · have hlt := hlater _ hx
        omega

theorem Logged.pointsBack_iff (w : NameWrite) (b' : MessageBuilder)
    (h : Logged log w.on) (he : (MessageBuilder.writeName w.name).exec w.on = (.ok (), b')) :
    PointsBack log w ↔ Clear log w.name.labels := by
  have hknown := h.longestKnown log w.on w.name.labels
  unfold PointsBack Clear
  cases hl : Hick.longestKnown log w.name.labels with
  | none =>
    rw [hl] at hknown
    have hnone : w.known.2 = none := hknown
    simp [hnone]
  | some p =>
    obtain ⟨s, e⟩ := p
    rw [hl] at hknown
    obtain ⟨hoff, hs, hfirst⟩ := hknown
    change w.known.2 = _ at hoff
    change w.name.labels.drop w.known.1 = s at hs
    obtain ⟨hmem, hleast, honly⟩ := h.found log w.on s e hfirst
    have hword := h.word e hmem
    have htarget := h.target log w b' _ hoff he
    have hnat : (UInt16.ofNat e.2).toNat = e.2 := by
      simp only [UInt16.toNat_ofNat']
      omega
    rw [hnat] at htarget
    rw [hoff, hs, htarget]
    simp only [ne_eq, reduceCtorEq, not_false_eq_true, forall_const, Option.some.injEq,
      exists_eq_left', Prod.mk.injEq, and_imp]
    constructor
    · rintro hin s' e' rfl rfl
      have hle := hleast _ hin
      have hsmall : e.2 < 16384 := by omega
      rw [Nat.mod_eq_of_lt hsmall] at hin
      exact ⟨(congrArg Prod.fst (honly _ hin rfl)).symm, hsmall⟩
    · intro hclear
      obtain ⟨hsame, hsmall⟩ := hclear s e rfl rfl
      rw [Nat.mod_eq_of_lt hsmall, ← hsame]
      exact hmem

/-- Each call is made on a builder whose table holds the log so far, and completes. -/
def Chained (log : List Placed) : List NameWrite → Prop
  | [] => True
  | w :: rest => Logged log w.on ∧ (MessageBuilder.writeName w.name).exec w.on = (.ok (), w.done) ∧
      Chained (log ++ w.placed) rest

theorem Chained.append (xs ys : List NameWrite) (log : List Placed) (hx : Chained log xs)
    (hy : Chained (log ++ xs.flatMap NameWrite.placed) ys) : Chained log (xs ++ ys) := by
  induction xs generalizing log with
  | nil =>
    rw [List.flatMap_nil, List.append_nil] at hy
    exact hy
  | cons w xs ih =>
    obtain ⟨hl, he, hrest⟩ := hx
    refine ⟨hl, he, ih _ hrest ?_⟩
    rw [List.flatMap_cons] at hy
    rw [List.append_assoc]
    exact hy

theorem Chained.at_ (before after : List NameWrite) (w : NameWrite) (log : List Placed)
    (h : Chained log (before ++ w :: after)) :
    Logged (log ++ before.flatMap NameWrite.placed) w.on ∧
      (MessageBuilder.writeName w.name).exec w.on = (.ok (), w.done) := by
  induction before generalizing log with
  | nil =>
    rw [List.flatMap_nil, List.append_nil]
    exact ⟨h.1, h.2.1⟩
  | cons x before ih =>
    rw [List.flatMap_cons, ← List.append_assoc]
    exact ih _ h.2.2

theorem Logged.named (name : Name) (b b1 : MessageBuilder) (h : Logged log b)
    (he : (MessageBuilder.writeName name).exec b = (.ok (), b1)) :
    Chained log [⟨name, b⟩] ∧ Logged (log ++ [⟨name, b⟩].flatMap NameWrite.placed) b1 := by
  have hdone : NameWrite.done ⟨name, b⟩ = b1 := by
    unfold NameWrite.done
    rw [he]
  refine ⟨⟨h, ?_, trivial⟩, ?_⟩
  · rw [hdone]
    exact he
  · rw [List.flatMap_singleton]
    exact h.writeName log name b b1 he

theorem quiet_patch (at_ : Nat) (bs : Bytes) : Quiet (patch at_ bs) := by
  intro b b' hf h
  have h' := get_bind_ok _ _ _ _ h
  cases ho : overwrite b.out at_ bs with
  | none =>
    rw [ho] at h'
    cases h'
  | some out =>
    rw [ho] at h'
    cases h'
    exact ⟨rfl, Nat.le_refl _, by simp only [overwrite_length _ _ _ _ ho]; exact hf⟩

theorem Logged.head (b b1 : MessageBuilder)
    (h : Logged log b) (he : (writeRecordHead e).exec b = (.ok (), b1)) :
    Chained log [⟨e.owner, b⟩] ∧ Logged (log ++ [⟨e.owner, b⟩].flatMap NameWrite.placed) b1 := by
  obtain ⟨u, b2, h1, h2⟩ := bind_ok _ _ _ _ _ he
  obtain ⟨hc, hl⟩ := h.named log e.owner b b2 h1
  have hrest := quiet_bind _ _ (quiet_writeSlice (be16 e.data.rtype.toU16))
    (quiet_bind _ _ (quiet_writeSlice
      (be16 (ResourceClass.in_.toU16 ||| if e.cacheFlush then cacheFlushBit else 0)))
      (quiet_writeSlice (be32 e.ttl)))
  exact ⟨hc, hl.quiet _ _ b2 b1 hrest h2⟩

theorem Logged.fixed (rdlen : UInt16) (octets : Bytes)
    (b b' : MessageBuilder) (h : Logged log b)
    (he : (pushFixed e rdlen octets).exec b = (.ok (), b')) :
    Chained log [⟨e.owner, b⟩] ∧ Logged (log ++ [⟨e.owner, b⟩].flatMap NameWrite.placed) b' := by
  obtain ⟨u, b1, h1, h2⟩ := bind_ok _ _ _ _ _ he
  obtain ⟨hc, hl⟩ := h.head log e b b1 h1
  have hrest := quiet_bind _ _ (quiet_writeSlice (be16 rdlen))
    (quiet_bind _ _ (quiet_writeBytes octets) (quiet_countRecord e))
  exact ⟨hc, hl.quiet _ _ b1 b' hrest h2⟩

theorem pushPatched_parts (rdata : EncodeM Unit) (b b' : MessageBuilder)
    (he : (pushPatched e rdata).exec b = (.ok (), b')) :
    ∃ b1 b2 b3 rest, (writeRecordHead e).exec b = (.ok (), b1) ∧
      (writeU16 0).exec b1 = (.ok (), b2) ∧ rdata.exec b2 = (.ok (), b3) ∧ Quiet rest ∧
      rest.exec b3 = (.ok (), b') := by
  obtain ⟨u, b1, h1, he⟩ := bind_ok _ _ _ _ _ he
  have he := get_bind_ok _ _ _ _ he
  obtain ⟨u, b2, h2, he⟩ := bind_ok _ _ _ _ _ he
  have he := get_bind_ok _ _ _ _ he
  obtain ⟨u, b3, h3, he⟩ := bind_ok _ _ _ _ _ he
  have he := get_bind_ok _ _ _ _ he
  obtain ⟨rdlen, b4, h4, he⟩ := bind_ok _ _ _ _ _ he
  obtain ⟨rfl, -⟩ := u16TryFrom_ok _ _ _ _ h4
  exact ⟨b1, b2, b3, _, h1, h2, h3, quiet_bind _ _ (quiet_patch _ _) (quiet_countRecord e), he⟩

theorem Logged.patched (rdata : EncodeM Unit)
    (hr : Quiet rdata) (b b' : MessageBuilder) (h : Logged log b)
    (he : (pushPatched e rdata).exec b = (.ok (), b')) :
    Chained log [⟨e.owner, b⟩] ∧ Logged (log ++ [⟨e.owner, b⟩].flatMap NameWrite.placed) b' := by
  obtain ⟨b1, b2, b3, rest, h1, h2, h3, hrest, he⟩ := pushPatched_parts e rdata b b' he
  obtain ⟨hc, hl⟩ := h.head log e b b1 h1
  have hl2 := hl.quiet _ _ b1 b2 (quiet_writeSlice _) h2
  exact ⟨hc, (hl2.quiet _ _ b2 b3 hr h3).quiet _ _ b3 b' hrest he⟩

theorem Logged.patched_name (pre post : EncodeM Unit)
    (target : Name) (hpre : Quiet pre) (hpost : Quiet post) (b b' : MessageBuilder)
    (h : Logged log b)
    (he : (pushPatched e (pre >>= fun _ =>
      MessageBuilder.writeName target >>= fun _ => post)).exec b = (.ok (), b')) :
    Chained log [⟨e.owner, b⟩, ⟨target,
        ((writeRecordHead e >>= fun _ => writeU16 0 >>= fun _ => pre).exec b).2⟩] ∧
      Logged (log ++ [⟨e.owner, b⟩, ⟨target,
        ((writeRecordHead e >>= fun _ => writeU16 0 >>= fun _ => pre).exec b).2⟩].flatMap
          NameWrite.placed) b' := by
  obtain ⟨b1, b2, b3, rest, h1, h2, h3, hrest, he⟩ := pushPatched_parts e _ b b' he
  obtain ⟨hc, hl⟩ := h.head log e b b1 h1
  have hl2 := hl.quiet _ _ b1 b2 (quiet_writeSlice _) h2
  obtain ⟨u, b4, h4, h3⟩ := bind_ok _ _ _ _ _ h3
  obtain ⟨u, b5, h5, h3⟩ := bind_ok _ _ _ _ _ h3
  have hl4 := hl2.quiet _ _ b2 b4 hpre h4
  have hstate : ((writeRecordHead e >>= fun _ => writeU16 0 >>= fun _ => pre).exec b).2 = b4 := by
    rw [exec_bind, h1]
    simp only
    rw [exec_bind, h2]
    simp only
    rw [h4]
  rw [hstate]
  obtain ⟨hc5, hl5⟩ := hl4.named _ target b4 b5 h5
  refine ⟨Chained.append [_] [_] log hc hc5, ?_⟩
  have hl' := (hl5.quiet _ _ b5 b3 hpost h3).quiet _ _ b3 b' hrest he
  rw [List.append_assoc, ← List.flatMap_append] at hl'
  exact hl'

theorem Logged.srv (priority weight port : UInt16)
    (target : Name) (hdata : e.data = .srv priority weight port target) (b b' : MessageBuilder)
    (h : Logged log b)
    (he : (pushPatched e (writeSrvRdata priority weight port target)).exec b = (.ok (), b')) :
    Chained log (entryWrites e b) ∧
      Logged (log ++ (entryWrites e b).flatMap NameWrite.placed) b' := by
  have hr : writeSrvRdata priority weight port target =
      ((writeU16 priority >>= fun _ => writeU16 weight >>= fun _ => writeU16 port) >>= fun _ =>
        MessageBuilder.writeName target >>= fun _ => pure ()) := by
    simp only [writeSrvRdata, bind_assoc, bind_pure_unit]
  have hpre : Quiet (writeU16 priority >>= fun _ => writeU16 weight >>= fun _ => writeU16 port) :=
    quiet_bind _ _ (quiet_writeSlice _) (quiet_bind _ _ (quiet_writeSlice _) (quiet_writeSlice _))
  rw [hr] at he
  unfold entryWrites
  rw [hdata]
  exact h.patched_name log e _ _ target hpre quiet_pure b b' he

theorem Logged.ptr (target : Name)
    (hdata : e.data = .ptr target) (b b' : MessageBuilder) (h : Logged log b)
    (he : (pushPatched e (MessageBuilder.writeName target)).exec b = (.ok (), b')) :
    Chained log (entryWrites e b) ∧
      Logged (log ++ (entryWrites e b).flatMap NameWrite.placed) b' := by
  have hr : MessageBuilder.writeName target =
      ((pure () : EncodeM Unit) >>= fun _ =>
        MessageBuilder.writeName target >>= fun _ => pure ()) := by
    simp only [pure_bind, bind_pure_unit]
  rw [hr] at he
  unfold entryWrites
  rw [hdata]
  have hp := h.patched_name log e _ _ target quiet_pure quiet_pure b b' he
  simp only [bind_pure_unit] at hp
  exact hp

theorem Logged.nsec (name : Name) (types : List UInt16)
    (hdata : e.data = .nsec name types) (b b' : MessageBuilder) (h : Logged log b)
    (he : (pushPatched e (writeNsecRdata name types)).exec b = (.ok (), b')) :
    Chained log (entryWrites e b) ∧
      Logged (log ++ (entryWrites e b).flatMap NameWrite.placed) b' := by
  have hr : ∃ post, Quiet post ∧ writeNsecRdata name types =
      ((pure () : EncodeM Unit) >>= fun _ =>
        MessageBuilder.writeName name >>= fun _ => post) := by
    unfold writeNsecRdata
    rcases typeBits types with ⟨bitmap, _ | maxByte⟩
    · exact ⟨pure (), quiet_pure, by rw [pure_bind]⟩
    · refine ⟨_, ?_, by rw [pure_bind]⟩
      exact quiet_bind _ _ (quiet_writeSlice _)
        (quiet_bind _ _ (quiet_writeSlice _) (quiet_writeBitmap _ _ _))
  obtain ⟨post, hpost, hr⟩ := hr
  rw [hr] at he
  unfold entryWrites
  rw [hdata]
  have hp := h.patched_name log e _ _ name quiet_pure hpost b b' he
  simp only [bind_pure_unit] at hp
  exact hp

theorem Logged.push (p : Push) (b b' : MessageBuilder) (h : Logged log b)
    (he : p.call.exec b = (.ok (), b')) :
    Chained log (p.nameWrites b) ∧
      Logged (log ++ (p.nameWrites b).flatMap NameWrite.placed) b' := by
  cases p with
  | question name qtype qclass unicast =>
    obtain ⟨u, b1, h1, h2⟩ := bind_ok _ _ _ _ _ he
    obtain ⟨hc, hl⟩ := h.named log name b b1 h1
    have hcount : Quiet (modify fun b : MessageBuilder =>
        { b with
          header := b.header.countQuestion
          pushed := b.pushed ++ [.question ⟨name, qtype, qclass, unicast⟩] }) := by
      intro c c' hf h
      cases h
      exact ⟨rfl, Nat.le_refl _, hf⟩
    have hrest := quiet_bind _ _ (quiet_writeSlice (be16 qtype.toU16))
      (quiet_bind _ _ (quiet_writeSlice
        (be16 (qclass.toU16 ||| if unicast then unicastResponseBit else 0))) hcount)
    exact ⟨hc, hl.quiet _ _ b1 b' hrest h2⟩
  | aAnswer => exact h.fixed log _ _ _ b b' he
  | aaaaAnswer => exact h.fixed log _ _ _ b b' he
  | aAuthority => exact h.fixed log _ _ _ b b' he
  | aaaaAuthority => exact h.fixed log _ _ _ b b' he
  | txtAnswer => exact h.patched log _ _ (quiet_writeTxtRdata _) b b' he
  | txtAuthority => exact h.patched log _ _ (quiet_writeTxtRdata _) b b' he
  | srvAnswer => exact h.srv log _ _ _ _ _ rfl b b' he
  | srvAuthority => exact h.srv log _ _ _ _ _ rfl b b' he
  | ptrAnswer => exact h.ptr log _ _ rfl b b' he
  | ptrAuthority => exact h.ptr log _ _ rfl b b' he
  | nsecAdditional => exact h.nsec log _ _ _ rfl b b' he

theorem Logged.pushEach (pushes : List Push) (log : List Placed) (b b' : MessageBuilder)
    (h : Logged log b) (he : (MessageBuilder.pushEach Push.call pushes).exec b = (.ok (), b')) :
    Chained log (nameWrites pushes b) := by
  induction pushes generalizing log b with
  | nil => exact trivial
  | cons p rest ih =>
    obtain ⟨u, b1, h1, h2⟩ := bind_ok _ _ _ _ _ he
    obtain ⟨hc, hl⟩ := h.push log p b b1 h1
    have hstate : (p.call.exec b).2 = b1 := by rw [h1]
    rw [nameWrites, hstate]
    exact hc.append _ _ log (ih _ b1 hl h2)

theorem logged_new (out : Bytes) (header : Header) (b : MessageBuilder)
    (h : tryNew out header = .ok b) : Logged [] b := by
  unfold tryNew at h
  split at h
  · cases h
  · rename_i hle
    cases h
    refine ⟨rfl, rfl, List.Pairwise.nil, by simp, by simp, ?_⟩
    simp only
    omega

/-- Over a run of pushes that succeed, every pointer leads where its suffix was written exactly
where every record that a name is ended by is clear. -/
theorem pointers_lead_back_iff (out : Bytes) (header : Header) (b0 b : MessageBuilder)
    (pushes : List Push) (h0 : tryNew out header = .ok b0)
    (he : (pushEach Push.call pushes).exec b0 = (.ok (), b)) :
    (∀ before w after, nameWrites pushes b0 = before ++ w :: after →
        PointsBack (before.flatMap NameWrite.placed) w) ↔
      ∀ before w after, nameWrites pushes b0 = before ++ w :: after →
        Clear (before.flatMap NameWrite.placed) w.name.labels := by
  have hchain := (logged_new out header b0 h0).pushEach pushes [] b0 b he
  have heach : ∀ before w after, nameWrites pushes b0 = before ++ w :: after →
      (PointsBack (before.flatMap NameWrite.placed) w ↔
        Clear (before.flatMap NameWrite.placed) w.name.labels) := by
    intro before w after hsplit
    rw [hsplit] at hchain
    obtain ⟨hl, hw⟩ := hchain.at_ before after w []
    rw [List.nil_append] at hl
    exact hl.pointsBack_iff _ w _ hw
  exact forall_congr' fun before => forall_congr' fun w => forall_congr' fun after =>
    imp_congr_right fun hsplit => heach before w after hsplit

def rootQuestion : Push := .question ⟨[], rfl, rfl⟩ .a .in_ false

def letterName : Name := ⟨[97], by decide, by decide⟩

def letterQuestion : Push := .question letterName .a .in_ false

theorem writeSlice_room (bs : Bytes) (b : MessageBuilder)
    (hroom : b.cursor + bs.length ≤ b.out.length) :
    ∃ b', (writeSlice bs).exec b = (.ok (), b') ∧ Wrote b b' bs := by
  have hover : overwrite b.out b.cursor bs =
      some (b.out.take b.cursor ++ bs ++ b.out.drop (b.cursor + bs.length)) := if_pos hroom
  have hrun : (writeSlice bs).exec b =
      (.ok (), { b with
        out := b.out.take b.cursor ++ bs ++ b.out.drop (b.cursor + bs.length)
        cursor := b.cursor + bs.length }) := by
    unfold writeSlice
    rw [exec_bind, exec_get]
    simp only [hover]
    rfl
  exact ⟨_, hrun, writeSlice_wrote bs b _ hrun⟩

theorem exec_bind_ok {α β : Type} (m : EncodeM α) (f : α → EncodeM β) (a : α)
    (b b1 : MessageBuilder) (h : m.exec b = (.ok a, b1)) : (m >>= f).exec b = (f a).exec b1 := by
  rw [exec_bind, h]

theorem rootQuestion_exec (b : MessageBuilder) (hroom : b.cursor + 5 ≤ b.out.length) :
    ∃ b', rootQuestion.call.exec b = (.ok (), b') ∧ b'.cursor = b.cursor + 5 ∧
      b'.compression = b.compression ∧ b'.out.length = b.out.length := by
  obtain ⟨b1, h1, w1⟩ := writeSlice_room [0] b (by simp only [List.length_singleton]; omega)
  have c1 : b1.cursor = b.cursor + 1 := w1.cursor
  have l1 := w1.capacity
  obtain ⟨b2, h2, w2⟩ := writeSlice_room (be16 ResourceType.a.toU16) b1
    (by rw [be16_length]; omega)
  have c2 : b2.cursor = b1.cursor + 2 := w2.cursor
  have l2 := w2.capacity
  obtain ⟨b3, h3, w3⟩ := writeSlice_room (be16 (ResourceClass.in_.toU16 ||| 0)) b2
    (by rw [be16_length]; omega)
  have c3 : b3.cursor = b2.cursor + 2 := w3.cursor
  have l3 := w3.capacity
  refine ⟨{ b3 with
    header := b3.header.countQuestion
    pushed := b3.pushed ++ [.question ⟨⟨[], rfl, rfl⟩, .a, .in_, false⟩] }, ?_, ?_, ?_, ?_⟩
  · refine (exec_bind_ok (MessageBuilder.writeName ⟨[], rfl, rfl⟩) _ () b b1 h1).trans ?_
    refine (exec_bind_ok (writeU16 ResourceType.a.toU16) _ () b1 b2 h2).trans ?_
    exact exec_bind_ok (writeU16 (ResourceClass.in_.toU16 ||| 0)) _ () b2 b3 h3
  · simp only
    omega
  · exact w3.compression.trans (w2.compression.trans w1.compression)
  · simp only
    omega

theorem rootQuestions_exec (k : Nat) (b : MessageBuilder)
    (hroom : b.cursor + 5 * k ≤ b.out.length) :
    ∃ b', (pushEach Push.call (List.replicate k rootQuestion)).exec b = (.ok (), b') ∧
      b'.cursor = b.cursor + 5 * k ∧ b'.compression = b.compression ∧
      b'.out.length = b.out.length := by
  induction k generalizing b with
  | zero => exact ⟨b, rfl, rfl, rfl, rfl⟩
  | succ k ih =>
    obtain ⟨b1, h1, c1, t1, l1⟩ := rootQuestion_exec b (by omega)
    obtain ⟨b2, h2, c2, t2, l2⟩ := ih b1 (by omega)
    refine ⟨b2, ?_, by omega, t2.trans t1, l2.trans l1⟩
    rw [List.replicate_succ, pushEach, exec_bind_ok _ _ () b b1 h1]
    exact h2

theorem rootQuestions_placed (k : Nat) (b : MessageBuilder) :
    (nameWrites (List.replicate k rootQuestion) b).flatMap NameWrite.placed = [] := by
  induction k generalizing b with
  | zero => rfl
  | succ k ih =>
    rw [List.replicate_succ, nameWrites, List.flatMap_append, ih, List.append_nil]
    rfl

theorem pushEach_append (xs ys : List Push) (b b1 : MessageBuilder)
    (h : (pushEach Push.call xs).exec b = (.ok (), b1)) :
    (pushEach Push.call (xs ++ ys)).exec b = (pushEach Push.call ys).exec b1 ∧
      nameWrites (xs ++ ys) b = nameWrites xs b ++ nameWrites ys b1 := by
  induction xs generalizing b with
  | nil =>
    cases h
    exact ⟨rfl, rfl⟩
  | cons x xs ih =>
    obtain ⟨u, b2, h1, h2⟩ := bind_ok _ _ _ _ _ h
    obtain ⟨he, hn⟩ := ih b2 h2
    have hstate : (x.call.exec b).2 = b2 := by rw [h1]
    constructor
    · rw [List.cons_append, pushEach, exec_bind_ok _ _ () b b2 h1]
      exact he
    · rw [List.cons_append, nameWrites, nameWrites, hstate, hn, List.append_assoc]

theorem splitKnown_letter : splitKnown CompressionTable.new letterName.labels = (1, none) := by
  decide +kernel

theorem letter_twice (before : List Push) (b0 b1 : MessageBuilder)
    (h1 : (pushEach Push.call before).exec b0 = (.ok (), b1))
    (hplaced : (nameWrites before b0).flatMap NameWrite.placed = [])
    (hlog : Logged [] b0) (htable : b1.compression = CompressionTable.new)
    (hfar : 16384 ≤ b1.cursor) (hroom : b1.cursor + 520 ≤ b1.out.length)
    (hword : b1.cursor + 520 ≤ 65535) :
    ∃ b2 b3, (pushEach Push.call (before ++ [letterQuestion, letterQuestion])).exec b0 =
        (.ok (), b3) ∧
      nameWrites (before ++ [letterQuestion, letterQuestion]) b0 =
        (nameWrites before b0 ++ [(⟨letterName, b1⟩ : NameWrite)]) ++
          ⟨letterName, b2⟩ :: [] ∧
      ¬ PointsBack ((nameWrites before b0 ++ [(⟨letterName, b1⟩ : NameWrite)]).flatMap
        NameWrite.placed) ⟨letterName, b2⟩ := by
  obtain ⟨b2, h2, l2, c2⟩ := pushQuestion_needs letterName .a .in_ false b1
    (by omega) (by omega)
  obtain ⟨b3, h3, l3, c3⟩ := pushQuestion_needs letterName .a .in_ false b2
    (by omega) (by omega)
  have hlast : (pushEach Push.call [letterQuestion, letterQuestion]).exec b1 = (.ok (), b3) :=
    (exec_bind_ok letterQuestion.call _ () b1 b2 h2).trans
      (exec_bind_ok letterQuestion.call (fun _ => pushEach Push.call []) () b2 b3 h3)
  obtain ⟨hrun, hwrites⟩ := pushEach_append before [letterQuestion, letterQuestion] b0 b1 h1
  rw [hlast] at hrun
  have hstate : (letterQuestion.call.exec b1).2 = b2 := congrArg Prod.snd h2
  have hsplit : nameWrites (before ++ [letterQuestion, letterQuestion]) b0 =
      (nameWrites before b0 ++ [(⟨letterName, b1⟩ : NameWrite)]) ++
        ⟨letterName, b2⟩ :: [] := by
    rw [hwrites, List.append_assoc]
    simp only [nameWrites, hstate]
    rfl
  have hfirst : NameWrite.placed ⟨letterName, b1⟩ = [([[97]], b1.cursor)] := by
    have hknown : NameWrite.known ⟨letterName, b1⟩ = (1, none) := by
      unfold NameWrite.known
      rw [htable]
      exact splitKnown_letter
    unfold NameWrite.placed
    rw [hknown]
    rfl
  refine ⟨b2, b3, hrun, hsplit, ?_⟩
  have hchain := hlog.pushEach _ [] b0 b3 hrun
  rw [hsplit] at hchain
  obtain ⟨hl, hw⟩ := hchain.at_ _ [] _ []
  rw [List.nil_append] at hl
  rw [hl.pointsBack_iff _ _ _ hw, List.flatMap_append, hplaced, List.nil_append,
    List.flatMap_singleton, hfirst]
  intro hclear
  have hknown : longestKnown [([[97]], b1.cursor)] [[97]] =
      some ([[97]], ([[97]], b1.cursor)) := by
    simp only [longestKnown, firstWithHash, defaultCompressionTable, List.take_succ_cons,
      List.take_nil, List.find?_cons, BEq.rfl]
  have := (hclear _ _ hknown).2
  simp only at this
  omega

/-- Not every pointer leads where its suffix was written: after enough questions for the root,
a name is written beyond 2^14 and its second mention points into the questions. -/
theorem pointer_leads_astray :
    ¬ ∀ (out : Bytes) (header : Header) (b0 b : MessageBuilder) (pushes : List Push),
      tryNew out header = .ok b0 → (pushEach Push.call pushes).exec b0 = (.ok (), b) →
      ∀ before w after, nameWrites pushes b0 = before ++ w :: after →
        PointsBack (before.flatMap NameWrite.placed) w := by
  intro hall
  have h0 : tryNew (List.replicate 17000 0) Header.new =
      .ok ⟨List.replicate 17000 0, 12, Header.new, CompressionTable.new, []⟩ := by
    unfold tryNew
    rw [if_neg (by rw [List.length_replicate]; decide)]
    rfl
  obtain ⟨b1, h1, c1, t1, l1⟩ := rootQuestions_exec 3275
    ⟨List.replicate 17000 0, 12, Header.new, CompressionTable.new, []⟩
    (by simp only [List.length_replicate]; omega)
  simp only [List.length_replicate] at c1 l1
  obtain ⟨b2, b3, hrun, hsplit, hastray⟩ := letter_twice _ _ b1 h1 (rootQuestions_placed 3275 _)
    (logged_new _ _ _ h0) t1 (by omega) (by omega) (by omega)
  exact hastray (hall _ _ _ b3 _ h0 hrun _ _ [] hsplit)

theorem letter_points_back :
    ∃ b, (pushEach Push.call [letterQuestion, letterQuestion]).exec
        ⟨List.replicate 64 0, 12, Header.new, CompressionTable.new, []⟩ = (.ok (), b) ∧
      ((∀ before w after, nameWrites [letterQuestion, letterQuestion]
          ⟨List.replicate 64 0, 12, Header.new, CompressionTable.new, []⟩ = before ++ w :: after →
          PointsBack (before.flatMap NameWrite.placed) w) ↔
        ∀ before w after, nameWrites [letterQuestion, letterQuestion]
          ⟨List.replicate 64 0, 12, Header.new, CompressionTable.new, []⟩ = before ++ w :: after →
          Clear (before.flatMap NameWrite.placed) w.name.labels) := by
  have hfits : ((pushEach Push.call [letterQuestion, letterQuestion]).exec
      ⟨List.replicate 64 0, 12, Header.new, CompressionTable.new, []⟩).1.toOption.isSome =
        true := by decide +kernel
  cases hrun : (pushEach Push.call [letterQuestion, letterQuestion]).exec
      ⟨List.replicate 64 0, 12, Header.new, CompressionTable.new, []⟩ with
  | mk r b =>
    rw [hrun] at hfits
    cases r with
    | error e => cases hfits
    | ok u =>
      exact ⟨b, rfl, pointers_lead_back_iff (List.replicate 64 0) Header.new _ b
        [letterQuestion, letterQuestion] rfl hrun⟩

end Hick
