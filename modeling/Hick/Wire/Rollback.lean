import Mathlib
import Hick.Wire.Message

/-!
# Rolling a builder back (wire/builder.rs:128-149)

What a push call does depends on the octets before the cursor, the header and the entries in use of
the compression table only.
-/

namespace Hick.Wire
open Octets LabelSeq EncodeM MessageBuilder

/-- `b` and `c` differ at most in octets from the cursor on and in table entries not in use. -/
structure Alike (b c : MessageBuilder) : Prop where
  capacity : b.out.length = c.out.length
  cursor : b.cursor = c.cursor
  octets : b.written = c.written
  header : b.header = c.header
  used : b.compression.used = c.compression.used
  entries : b.compression.live = c.compression.live
  pushed : b.pushed = c.pushed

def Agree {α : Type} (x y : Except EncodeError α × MessageBuilder) : Prop :=
  x.1 = y.1 ∧ Alike x.2 y.2

def Respects {α : Type} (m : EncodeM α) : Prop := ∀ b c, Alike b c → Agree (m.exec b) (m.exec c)

section
variable {α β : Type}

theorem agree_bind (m : EncodeM α) (f g : α → EncodeM β) (b c : MessageBuilder)
    (hm : Agree (m.exec b) (m.exec c))
    (hf : ∀ a b1 c1, m.exec b = (.ok a, b1) → m.exec c = (.ok a, c1) → Alike b1 c1 →
      Agree ((f a).exec b1) ((g a).exec c1)) :
    Agree ((m >>= f).exec b) ((m >>= g).exec c) := by
  rw [exec_bind, exec_bind]
  obtain ⟨hr, ha⟩ := hm
  cases hb : m.exec b with
  | mk r b1 =>
    cases hc : m.exec c with
    | mk r' c1 =>
      rw [hb, hc] at hr ha
      dsimp only at hr ha
      subst hr
      cases r with
      | ok a => exact hf a b1 c1 hb hc ha
      | error e => exact ⟨rfl, ha⟩

theorem respects_bind (m : EncodeM α) (f : α → EncodeM β) (hm : Respects m)
    (hf : ∀ a, Respects (f a)) : Respects (m >>= f) := fun b c h =>
  agree_bind m f f b c (hm b c h) fun a b1 c1 _ _ h1 => hf a b1 c1 h1

theorem respects_get_bind (f : MessageBuilder → EncodeM β)
    (hf : ∀ b c, Alike b c → Agree ((f b).exec b) ((f c).exec c)) :
    Respects ((get : EncodeM MessageBuilder) >>= f) := by
  intro b c h
  rw [exec_bind, exec_bind]
  exact hf b c h

theorem respects_pure (a : α) : Respects (pure a : EncodeM α) := fun _ _ h => ⟨rfl, h⟩

theorem respects_throw (e : EncodeError) : Respects (throw e : EncodeM α) := fun _ _ h => ⟨rfl, h⟩

theorem respects_ite (p : Prop) [Decidable p] (m n : EncodeM α) (hm : Respects m)
    (hn : Respects n) : Respects (if p then m else n) := by
  split
  · exact hm
  · exact hn

end

theorem getElem?_overwrite (buf out bs : Bytes) (at_ i : Nat)
    (h : overwrite buf at_ bs = some out) :
    out[i]? =
      if i < at_ then buf[i]? else if i < at_ + bs.length then bs[i - at_]? else buf[i]? := by
  unfold overwrite at h
  split at h
  · rename_i hle
    cases h
    have hlen : (buf.take at_).length = at_ := by
      rw [List.length_take]
      omega
    split
    · rename_i hi
      rw [List.append_assoc, List.getElem?_append_left (by omega), List.getElem?_take, if_pos hi]
    · split
      · rename_i hi hj
        rw [List.append_assoc, List.getElem?_append_right (by omega),
          List.getElem?_append_left (by omega), hlen]
      · rename_i hi hj
        rw [List.getElem?_append_right (by rw [List.length_append]; omega), List.getElem?_drop,
          List.length_append, hlen]
        congr 1
        omega
  · cases h

theorem take_overwrite_congr (buf buf' out out' bs : Bytes) (at_ n : Nat)
    (h : buf.take n = buf'.take n) (ho : overwrite buf at_ bs = some out)
    (ho' : overwrite buf' at_ bs = some out') : out.take n = out'.take n := by
  refine List.ext_getElem? fun i => ?_
  have hi := congrArg (fun l : Bytes => l[i]?) h
  simp only [List.getElem?_take] at hi ⊢
  by_cases hn : i < n
  · rw [if_pos hn, if_pos hn] at hi
    rw [if_pos hn, if_pos hn, getElem?_overwrite _ _ _ _ i ho, getElem?_overwrite _ _ _ _ i ho', hi]
  · rw [if_neg hn, if_neg hn]

theorem overwrite_pair (buf buf' : Bytes) (at_ : Nat) (bs : Bytes)
    (h : buf.length = buf'.length) :
    (overwrite buf at_ bs = none ∧ overwrite buf' at_ bs = none) ∨
      ∃ out out', overwrite buf at_ bs = some out ∧ overwrite buf' at_ bs = some out' := by
  unfold overwrite
  rw [← h]
  split
  · exact .inr ⟨_, _, rfl, rfl⟩
  · exact .inl ⟨rfl, rfl⟩

theorem respects_writeSlice (bs : Bytes) : Respects (writeSlice bs) := by
  refine respects_get_bind _ fun b c h => ?_
  rw [← h.cursor]
  rcases overwrite_pair b.out c.out b.cursor bs h.capacity with ⟨hb, hc⟩ | ⟨out, out', hb, hc⟩
  · rw [hb, hc]
    exact ⟨rfl, h⟩
  · rw [hb, hc]
    refine ⟨rfl, ?_, rfl, ?_, h.header, h.used, h.entries, h.pushed⟩
    · simp only [exec_set]
      rw [overwrite_length _ _ _ _ hb, overwrite_length _ _ _ _ hc]
      exact h.capacity
    · have hw := h.octets
      simp only [written, ← h.cursor] at hw
      simp only [written, exec_set]
      rw [overwrite_take _ _ _ _ hb, overwrite_take _ _ _ _ hc, hw]

theorem respects_patch (at_ : Nat) (bs : Bytes) : Respects (patch at_ bs) := by
  refine respects_get_bind _ fun b c h => ?_
  rcases overwrite_pair b.out c.out at_ bs h.capacity with ⟨hb, hc⟩ | ⟨out, out', hb, hc⟩
  · rw [hb, hc]
    exact ⟨rfl, h⟩
  · rw [hb, hc]
    refine ⟨rfl, ?_, h.cursor, ?_, h.header, h.used, h.entries, h.pushed⟩
    · simp only [exec_set]
      rw [overwrite_length _ _ _ _ hb, overwrite_length _ _ _ _ hc]
      exact h.capacity
    · have hw := h.octets
      simp only [written, ← h.cursor] at hw
      simp only [written, exec_set, ← h.cursor]
      exact take_overwrite_congr _ _ _ _ _ _ _ hw hb hc

theorem respects_writeBytes (bs : Bytes) : Respects (writeBytes bs) := by
  induction bs with
  | nil => exact respects_pure ()
  | cons x xs ih => exact respects_bind _ _ (respects_writeSlice [x]) fun _ => ih

theorem respects_u16TryFrom (n : Nat) : Respects (u16TryFrom n) :=
  respects_ite _ _ _ (respects_pure _) (respects_throw _)

theorem splitKnown_congr (t u : CompressionTable) (h : t.live = u.live) (labels : List Label) :
    splitKnown t labels = splitKnown u labels := by
  have hl : ∀ hash, t.lookup hash = u.lookup hash := by
    intro hash
    unfold CompressionTable.lookup
    rw [h]
  induction labels with
  | nil => rfl
  | cons label rest ih => simp only [splitKnown, hl, ih]

theorem CompressionTable.live_insert (t : CompressionTable) (hash : UInt64) (off : UInt16) :
    (t.insert hash off).live =
      if t.used < defaultCompressionTable then t.live ++ [(hash, off)] else t.live := by
  unfold CompressionTable.insert
  split
  · rename_i hlt
    have hlen : t.used < t.entries.length := by rw [t.length_eq]; exact hlt
    simp only [live]
    rw [List.take_add_one, List.getElem?_set_self hlen, List.take_set_of_le (Nat.le_refl _)]
    rfl
  · rfl

theorem CompressionTable.used_insert (t : CompressionTable) (hash : UInt64) (off : UInt16) :
    (t.insert hash off).used = if t.used < defaultCompressionTable then t.used + 1 else t.used := by
  unfold CompressionTable.insert
  split
  · rfl
  · rfl

theorem Alike.insert (b c : MessageBuilder) (h : Alike b c) (hash : UInt64) (off : UInt16) :
    Alike { b with compression := b.compression.insert hash off }
      { c with compression := c.compression.insert hash off } := by
  refine ⟨h.capacity, h.cursor, h.octets, h.header, ?_, ?_, h.pushed⟩
  · simp only [CompressionTable.used_insert, h.used]
  · simp only [CompressionTable.live_insert, h.used, h.entries]

theorem respects_writeLabels (n : Nat) (labels : List Label) : Respects (writeLabels n labels) := by
  induction n generalizing labels with
  | zero => exact respects_pure ()
  | succ n ih =>
    cases labels with
    | nil => exact respects_pure ()
    | cons label rest =>
      refine respects_get_bind _ fun b c h => ?_
      simp only [← h.cursor, ← h.capacity]
      split
      · exact ⟨rfl, h⟩
      · refine agree_bind _ _ _ b c (respects_u16TryFrom _ b c h) fun off b1 c1 hb hc _ => ?_
        obtain ⟨rfl, _⟩ := u16TryFrom_ok _ _ _ _ hb
        obtain ⟨rfl, _⟩ := u16TryFrom_ok _ _ _ _ hc
        have hi := h.insert b c (hashSuffix (label :: rest)) off
        rw [← h.cursor] at hi
        rw [exec_bind, exec_bind]
        refine respects_bind _ _ (respects_writeSlice _) (fun _ => ?_) _ _ hi
        exact respects_bind _ _ (respects_writeBytes _) fun _ => ih rest

theorem respects_writeNameEnd (p : Option UInt16) : Respects (writeNameEnd p) := by
  cases p with
  | none => exact respects_writeSlice _
  | some off => exact respects_bind _ _ (respects_writeSlice _) fun _ => respects_writeSlice _

theorem respects_writeName (name : Name) : Respects (writeName name) := by
  unfold writeName
  refine respects_ite _ _ _ (respects_writeSlice _) ?_
  refine respects_get_bind _ fun b c h => ?_
  simp only [← h.capacity, splitKnown_congr _ _ h.entries]
  split
  · exact ⟨rfl, h⟩
  · exact respects_bind _ _ (respects_writeLabels _ _) (fun _ => respects_writeNameEnd _) b c h

theorem respects_writeSegments (segments : List Bytes) : Respects (writeSegments segments) := by
  induction segments with
  | nil => exact respects_pure ()
  | cons s rest ih =>
    unfold writeSegments
    refine respects_ite _ _ _ (fun b c h => ⟨rfl, h⟩) ?_
    refine respects_bind _ _ (respects_writeSlice _) fun _ => ?_
    exact respects_bind _ _ (respects_writeBytes _) fun _ => ih

theorem respects_writeTxtRdata (segments : List Bytes) : Respects (writeTxtRdata segments) := by
  refine respects_bind _ _ (respects_writeSegments segments) fun _ => ?_
  exact respects_ite _ _ _ (respects_writeSlice _) (respects_pure _)

theorem respects_writeBitmap (bitmap : Bytes) (n i : Nat) : Respects (writeBitmap bitmap n i) := by
  induction n generalizing i with
  | zero => exact respects_pure ()
  | succ n ih => exact respects_bind _ _ (respects_writeSlice _) fun _ => ih (i + 1)

theorem respects_writeNsecRdata (name : Name) (presentTypes : List UInt16) :
    Respects (writeNsecRdata name presentTypes) := by
  refine respects_bind _ _ (respects_writeName name) fun _ => ?_
  split
  · exact respects_pure ()
  · refine respects_bind _ _ (respects_writeSlice _) fun _ => ?_
    exact respects_bind _ _ (respects_writeSlice _) fun _ => respects_writeBitmap _ _ _

theorem respects_writeSrvRdata (priority weight port : UInt16) (target : Name) :
    Respects (writeSrvRdata priority weight port target) := by
  refine respects_bind _ _ (respects_writeSlice _) fun _ => ?_
  refine respects_bind _ _ (respects_writeSlice _) fun _ => ?_
  exact respects_bind _ _ (respects_writeSlice _) fun _ => respects_writeName target

variable (base : MessageBuilder) (e : RecordEntry)

theorem respects_writeRecordHead : Respects (writeRecordHead e) := by
  refine respects_bind _ _ (respects_writeName _) fun _ => ?_
  refine respects_bind _ _ (respects_writeSlice _) fun _ => ?_
  exact respects_bind _ _ (respects_writeSlice _) fun _ => respects_writeSlice _

theorem respects_countRecord : Respects (countRecord e) := by
  intro b c h
  refine ⟨rfl, h.capacity, h.cursor, h.octets, ?_, h.used, h.entries, ?_⟩
  · simp only [countRecord, exec_modify, h.header]
  · simp only [countRecord, exec_modify, h.pushed]

theorem respects_pushFixed (rdlen : UInt16) (octets : Bytes) :
    Respects (pushFixed e rdlen octets) := by
  refine respects_bind _ _ (respects_writeRecordHead e) fun _ => ?_
  refine respects_bind _ _ (respects_writeSlice _) fun _ => ?_
  exact respects_bind _ _ (respects_writeBytes _) fun _ => respects_countRecord e

theorem respects_pushPatched (rdata : EncodeM Unit) (hr : Respects rdata) :
    Respects (pushPatched e rdata) := by
  refine respects_bind _ _ (respects_writeRecordHead e) fun _ => ?_
  refine respects_get_bind _ fun b c h => ?_
  simp only [← h.cursor]
  refine respects_bind _ _ (respects_writeSlice _) (fun _ => ?_) b c h
  refine respects_get_bind _ fun b2 c2 h2 => ?_
  simp only [← h2.cursor]
  refine respects_bind _ _ hr (fun _ => ?_) b2 c2 h2
  refine respects_get_bind _ fun b3 c3 h3 => ?_
  simp only [← h3.cursor]
  refine respects_bind _ _ (respects_u16TryFrom _) (fun _ => ?_) b3 c3 h3
  exact respects_bind _ _ (respects_patch _ _) fun _ => respects_countRecord e

theorem respects_pushQuestion (name : Name) (qtype : ResourceType) (qclass : ResourceClass)
    (unicastResponse : Bool) : Respects (pushQuestion name qtype qclass unicastResponse) := by
  refine respects_bind _ _ (respects_writeName name) fun _ => ?_
  refine respects_bind _ _ (respects_writeSlice _) fun _ => ?_
  refine respects_bind _ _ (respects_writeSlice _) fun _ b c h => ?_
  refine ⟨rfl, h.capacity, h.cursor, h.octets, ?_, h.used, h.entries, ?_⟩
  · simp only [exec_modify, h.header]
  · simp only [exec_modify, h.pushed]

theorem keeps_writeTxtRdata (segments : List Bytes) :
    Keeps base (writeTxtRdata segments) := by
  refine keeps_bind base _ _ (keeps_writeSegments base segments) fun _ => ?_
  exact keeps_ite base _ _ _ (keeps_writeSlice base _) (keeps_pure base _)

theorem keeps_writeSrvRdata (priority weight port : UInt16)
    (target : Name) : Keeps base (writeSrvRdata priority weight port target) := by
  refine keeps_bind base _ _ (keeps_writeSlice base _) fun _ => ?_
  refine keeps_bind base _ _ (keeps_writeSlice base _) fun _ => ?_
  exact keeps_bind base _ _ (keeps_writeSlice base _) fun _ => keeps_writeName base target

theorem keeps_pushFixed (rdlen : UInt16)
    (octets : Bytes) : Keeps base (pushFixed e rdlen octets) := by
  refine keeps_bind base _ _ (keeps_writeRecordHead base e) fun _ => ?_
  refine keeps_bind base _ _ (keeps_writeSlice base _) fun _ => ?_
  exact keeps_bind base _ _ (keeps_writeBytes base _) fun _ => keeps_countRecord base e

theorem keeps_pushQuestion (name : Name) (qtype : ResourceType)
    (qclass : ResourceClass) (unicastResponse : Bool) :
    Keeps base (pushQuestion name qtype qclass unicastResponse) := by
  refine keeps_bind base _ _ (keeps_writeName base name) fun _ => ?_
  refine keeps_bind base _ _ (keeps_writeSlice base _) fun _ => ?_
  refine keeps_bind base _ _ (keeps_writeSlice base _) fun _ b hb => ?_
  exact ⟨hb.capacity, hb.cursor, hb.octets, hb.used, hb.entries,
    hb.pushed.trans (List.prefix_append _ _)⟩

end Hick.Wire

namespace Hick
open Octets LabelSeq Wire EncodeM MessageBuilder

theorem Push.respects (p : Push) : Respects p.call := by
  cases p with
  | question name qtype qclass unicast => exact respects_pushQuestion name qtype qclass unicast
  | aAnswer => exact respects_pushFixed _ _ _
  | aaaaAnswer => exact respects_pushFixed _ _ _
  | srvAnswer => exact respects_pushPatched _ _ (respects_writeSrvRdata _ _ _ _)
  | txtAnswer => exact respects_pushPatched _ _ (respects_writeTxtRdata _)
  | ptrAnswer => exact respects_pushPatched _ _ (respects_writeName _)
  | aAuthority => exact respects_pushFixed _ _ _
  | aaaaAuthority => exact respects_pushFixed _ _ _
  | srvAuthority => exact respects_pushPatched _ _ (respects_writeSrvRdata _ _ _ _)
  | txtAuthority => exact respects_pushPatched _ _ (respects_writeTxtRdata _)
  | ptrAuthority => exact respects_pushPatched _ _ (respects_writeName _)
  | nsecAdditional => exact respects_pushPatched _ _ (respects_writeNsecRdata _ _)

theorem Push.keeps (base : MessageBuilder) (p : Push) : Keeps base p.call := by
  cases p with
  | question name qtype qclass unicast => exact keeps_pushQuestion base name qtype qclass unicast
  | aAnswer => exact keeps_pushFixed base _ _ _
  | aaaaAnswer => exact keeps_pushFixed base _ _ _
  | srvAnswer => exact keeps_pushPatched base _ _ (keeps_writeSrvRdata base _ _ _ _)
  | txtAnswer => exact keeps_pushPatched base _ _ (keeps_writeTxtRdata base _)
  | ptrAnswer => exact keeps_pushPatched base _ _ (keeps_writeName base _)
  | aAuthority => exact keeps_pushFixed base _ _ _
  | aaaaAuthority => exact keeps_pushFixed base _ _ _
  | srvAuthority => exact keeps_pushPatched base _ _ (keeps_writeSrvRdata base _ _ _ _)
  | txtAuthority => exact keeps_pushPatched base _ _ (keeps_writeTxtRdata base _)
  | ptrAuthority => exact keeps_pushPatched base _ _ (keeps_writeName base _)
  | nsecAdditional => exact keeps_pushPatched base _ _ (keeps_writeNsecRdata base _ _)

def callAll : List Push → MessageBuilder → List (Except EncodeError Unit) × MessageBuilder
  | [], b => ([], b)
  | p :: rest, b =>
    let r := p.call.exec b
    let s := callAll rest r.2
    (r.1 :: s.1, s.2)

theorem callAll_grown (base : MessageBuilder) (pushes : List Push) (b : MessageBuilder)
    (h : GrownFrom base b) : GrownFrom base (callAll pushes b).2 := by
  induction pushes generalizing b with
  | nil => exact h
  | cons p rest ih => exact ih _ (p.keeps base b h)

theorem callAll_alike (pushes : List Push) (b c : MessageBuilder) (h : Alike b c) :
    (callAll pushes b).1 = (callAll pushes c).1 ∧
      Alike (callAll pushes b).2 (callAll pushes c).2 := by
  induction pushes generalizing b c with
  | nil => exact ⟨rfl, h⟩
  | cons p rest ih =>
    obtain ⟨hr, ha⟩ := p.respects b c h
    obtain ⟨hrs, hs⟩ := ih _ _ ha
    refine ⟨?_, hs⟩
    simp only [callAll, hr, hrs]

theorem Wire.GrownFrom.restored (b grown : MessageBuilder) (h : GrownFrom b grown) :
    Alike (grown.restore b.checkpoint) b := by
  obtain ⟨ext, hext⟩ := h.pushed
  refine ⟨h.capacity, rfl, h.octets, rfl, rfl, h.entries, ?_⟩
  simp only [restore, checkpoint, ← hext, List.take_left]

theorem Wire.Alike.finish (b c : MessageBuilder) (h : Alike b c) : b.finish = c.finish := by
  unfold MessageBuilder.finish
  rw [← h.header, ← h.cursor]
  rcases overwrite_pair b.out c.out 0 b.header.toBytes h.capacity with
    ⟨hb, hc⟩ | ⟨out, out', hb, hc⟩
  · rw [hb, hc]
  · have hw := h.octets
    simp only [written, ← h.cursor] at hw
    rw [hb, hc]
    exact congrArg Except.ok (take_overwrite_congr _ _ _ _ _ _ _ hw hb hc)

/-- The push calls between a checkpoint and the restore to it leave no trace: the later calls
have the results, and `finish` the octets, of a run without them. -/
theorem restore_forgets (b : MessageBuilder) (between later : List Push) :
    (callAll later ((callAll between b).2.restore b.checkpoint)).1 = (callAll later b).1 ∧
      (callAll later ((callAll between b).2.restore b.checkpoint)).2.finish =
        (callAll later b).2.finish := by
  have hgrown := callAll_grown b between b (GrownFrom.refl b)
  obtain ⟨hr, ha⟩ := callAll_alike later _ _ (hgrown.restored b _)
  exact ⟨hr, ha.finish _ _⟩

end Hick
