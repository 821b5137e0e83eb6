import Hick.Ancillary.Target
import Hick.Lib.Unfolding

/-!
# The walk over a control buffer (hick-udp/src/multicast.rs:2246-2391)

The length that a header tells is the only way to the next one. A length that cannot be used ends
the walk with an error.
-/

namespace Hick
open Octets Unfolding

namespace Ancillary

inductive ParseRecvMetaError where
  | bufferTooShort (needed have_ : Nat)
  | missingPktinfo
  deriving DecidableEq

abbrev CmsgItem := Except ParseRecvMetaError ParsedCmsg

/-- How far the next entry is, if the stride that the target computes gets past this one. -/
def cmsgAdvance (l : Layout) (cmsgLen dataStart : Nat) : Option Nat :=
  let datalen := cmsgLen - dataStart
  if datalen < 2 ^ 32 then
    let advance := l.cmsgSpace datalen
    if cmsgLen ≤ advance then some advance else none
  else none

namespace CmsgIter

def next (l : Layout) (rest : Bytes) : Option (CmsgItem × Bytes) :=
  if rest.length < l.headerSize then none
  else
    let hdr := l.read (rest.take l.headerSize)
    if hdr.len < l.headerSize then some (.error (.bufferTooShort l.headerSize hdr.len), [])
    else if rest.length < hdr.len then some (.error (.bufferTooShort hdr.len rest.length), [])
    else
      let dataStart := l.cmsgLen 0
      let data := if dataStart ≤ hdr.len then (rest.take hdr.len).drop dataStart else []
      match cmsgAdvance l hdr.len dataStart with
      | some advance => some (.ok ⟨hdr.level, hdr.ty, data⟩, rest.drop (min advance rest.length))
      | none => some (.error (.bufferTooShort hdr.len 0), [])

variable (l : Layout)

theorem next_cases (rest rest' : Bytes) (item : CmsgItem)
    (h : next l rest = some (item, rest')) :
    l.headerSize ≤ rest.length ∧
      ((∃ e, item = .error e ∧ rest' = []) ∨
        ∃ advance, l.headerSize ≤ (l.read (rest.take l.headerSize)).len ∧
          (l.read (rest.take l.headerSize)).len ≤ rest.length ∧
          (l.read (rest.take l.headerSize)).len ≤ advance ∧
          rest' = rest.drop advance ∧
          item = .ok ⟨(l.read (rest.take l.headerSize)).level, (l.read (rest.take l.headerSize)).ty,
            (rest.take (l.read (rest.take l.headerSize)).len).drop (l.cmsgLen 0)⟩) := by
  unfold next at h
  split at h
  · cases h
  · rename_i hroom
    refine ⟨Nat.not_lt.mp hroom, ?_⟩
    generalize l.read (rest.take l.headerSize) = hdr at h ⊢
    dsimp only at h
    split at h
    · cases h
      exact Or.inl ⟨_, rfl, rfl⟩
    · rename_i hcovers
      split at h
      · cases h
        exact Or.inl ⟨_, rfl, rfl⟩
      · rename_i hinside
        split at h
        · rename_i advance hadvance
          cases h
          right
          refine ⟨advance, Nat.not_lt.mp hcovers, Nat.not_lt.mp hinside, ?_, ?_, ?_⟩
          · unfold cmsgAdvance at hadvance
            dsimp only at hadvance
            split at hadvance
            · split at hadvance
              · cases hadvance
                assumption
              · cases hadvance
            · cases hadvance
          · rcases Nat.le_total advance rest.length with hle | hle
            · rw [Nat.min_eq_left hle]
            · rw [Nat.min_eq_right hle, List.drop_length, List.drop_eq_nil_of_le hle]
          · split
            · rfl
            · rename_i hshort
              rw [List.drop_eq_nil_of_le]
              rw [List.length_take]
              omega
        · cases h
          exact Or.inl ⟨_, rfl, rfl⟩

theorem next_shrinks (rest rest' : Bytes) (item : CmsgItem)
    (h : next l rest = some (item, rest')) : rest'.length < rest.length := by
  have hpos := l.headerSize_pos
  obtain ⟨hroom, ⟨e, -, rfl⟩ | ⟨advance, hcovers, hinside, hclears, rfl, -⟩⟩ :=
    next_cases l rest rest' item h
  · rw [List.length_nil]
    omega
  · rw [List.length_drop]
    omega

def walk (l : Layout) : Walk Bytes CmsgItem where
  step := next l
  size := List.length
  shrinks := fun rest item rest' h => next_shrinks l rest rest' item h

def items (l : Layout) (buf : Bytes) : List CmsgItem := (walk l).items buf

theorem next_suffix (rest rest' : Bytes) (item : CmsgItem)
    (h : next l rest = some (item, rest')) :
    rest' <:+ rest ∧ rest'.length + l.headerSize ≤ rest.length := by
  obtain ⟨hroom, ⟨e, -, rfl⟩ | ⟨advance, hcovers, hinside, hclears, rfl, -⟩⟩ :=
    next_cases l rest rest' item h
  · exact ⟨List.nil_suffix, by rw [List.length_nil, Nat.zero_add]; exact hroom⟩
  · refine ⟨List.drop_suffix _ _, ?_⟩
    rw [List.length_drop]
    omega

theorem next_fused (rest rest' : Bytes) (item : CmsgItem)
    (h : next l rest = some (item, rest')) (e : ParseRecvMetaError) (he : item = .error e) :
    next l rest' = none := by
  have hpos := l.headerSize_pos
  obtain ⟨hroom, ⟨e', -, rfl⟩ | ⟨advance, -, -, -, -, hok⟩⟩ := next_cases l rest rest' item h
  · unfold next
    exact if_pos hpos
  · rw [he] at hok
    cases hok

theorem headers_advance (buf : Bytes) :
    (∀ v ∈ (walk l).trace buf, v.1 <:+ buf ∧ l.headerSize ≤ v.1.length) ∧
    ((walk l).trace buf).Pairwise fun v w => w.1.length + l.headerSize ≤ v.1.length := by
  constructor
  · intro v hv
    obtain ⟨hsuffix, rest', hstep⟩ := (walk l).trace_invariant (fun rest => rest <:+ buf)
      (fun rest item rest' hs h => (next_suffix l rest rest' item h).1.trans hs) buf
      List.suffix_rfl v hv
    exact ⟨hsuffix, (next_cases l v.1 rest' v.2 hstep).1⟩
  · apply (walk l).trace_pairwise (fun rest rest' => rest'.length + l.headerSize ≤ rest.length)
    · intro rest item rest' h
      exact (next_suffix l rest rest' item h).2
    · intro rest rest' rest'' hfirst hsecond
      omega

theorem payloads_inside (buf : Bytes) :
    ∀ v ∈ (walk l).trace buf, ∀ c, v.2 = .ok c →
      (l.read (v.1.take l.headerSize)).len ≤ v.1.length ∧
      c.level = (l.read (v.1.take l.headerSize)).level ∧
      c.ty = (l.read (v.1.take l.headerSize)).ty ∧
      c.data = (v.1.take (l.read (v.1.take l.headerSize)).len).drop (l.cmsgLen 0) := by
  intro v hv c hc
  obtain ⟨-, rest', hstep⟩ := (walk l).trace_invariant (fun _ => True)
    (fun _ _ _ _ _ => trivial) buf trivial v hv
  obtain ⟨hroom, ⟨e, herror, -⟩ | ⟨advance, hcovers, hinside, hclears, -, hok⟩⟩ :=
    next_cases l v.1 rest' v.2 hstep
  · rw [hc] at herror
    cases herror
  · rw [hc] at hok
    cases hok
    exact ⟨hinside, rfl, rfl, rfl⟩

theorem error_last (buf : Bytes) (before after : List CmsgItem)
    (e : ParseRecvMetaError) (h : items l buf = before ++ .error e :: after) : after = [] := by
  unfold items Walk.items at h
  obtain ⟨first, others, htrace, hfirst, hothers⟩ := List.map_eq_append_iff.mp h
  obtain ⟨v, later, hcons, hv, hlater⟩ := List.map_eq_cons_iff.mp hothers
  rw [hcons] at htrace
  have hnone := (walk l).trace_last (fun item => ∃ e, item = .error e)
    (fun rest item rest' hstep ⟨e, he⟩ => next_fused l rest rest' item hstep e he) buf first v later
    htrace ⟨e, hv⟩
  rw [← hlater, hnone, List.map_nil]

theorem entry_read (c : ParsedCmsg) (tail : Bytes) :
    l.read ((l.write (l.header c) ++ tail).take l.headerSize) = l.header c := by
  have hlimit := l.lenLimit_le
  have hlen : l.cmsgLen c.data.length < 2 ^ 32 := Nat.mod_lt _ (by decide)
  rw [List.take_left' (l.write_length (l.header c))]
  apply l.read_write
  change l.cmsgLen c.data.length < l.lenLimit
  omega

theorem next_entry (c : ParsedCmsg) (gap tail : Bytes)
    (hgap : l.headerSize + gap.length = l.cmsgLen 0) (hholds : l.Holds c.data.length) :
    next l (l.write (l.header c) ++ gap ++ c.data ++ tail) =
      some (.ok c, tail.drop (l.cmsgSpace c.data.length - l.cmsgLen c.data.length)) := by
  have hwrite := l.write_length (l.header c)
  have hstart := l.dataStart_eq
  have hlen := hholds.len
  have hspace := hholds.space
  have hfits := l.le_align c.data.length
  have hroom : l.align c.data.length + l.align l.headerSize < 2 ^ 32 := hholds
  have htotal : (l.write (l.header c) ++ gap ++ c.data ++ tail).length =
      l.cmsgLen c.data.length + tail.length := by
    simp only [List.length_append]
    omega
  have hread : l.read ((l.write (l.header c) ++ gap ++ c.data ++ tail).take l.headerSize) =
      l.header c := by
    rw [List.append_assoc, List.append_assoc]
    exact entry_read l c _
  have hcover := l.headerSize_le
  have hadvance : cmsgAdvance l (l.cmsgLen c.data.length) (l.cmsgLen 0) =
      some (l.cmsgSpace c.data.length) := by
    have hdatalen : l.cmsgLen c.data.length - l.cmsgLen 0 = c.data.length := by omega
    unfold cmsgAdvance
    dsimp only
    rw [hdatalen, if_pos (by omega), if_pos (by omega)]
  have hfront : (l.write (l.header c) ++ gap).length = l.cmsgLen 0 := by
    rw [List.length_append]
    omega
  have hbody : (l.write (l.header c) ++ gap ++ c.data).length = l.cmsgLen c.data.length := by
    rw [List.length_append]
    omega
  have hdata : ((l.write (l.header c) ++ gap ++ c.data ++ tail).take
      (l.cmsgLen c.data.length)).drop (l.cmsgLen 0) = c.data := by
    rw [List.take_left' hbody, List.drop_left' hfront]
  have hrest : (l.write (l.header c) ++ gap ++ c.data ++ tail).drop
      (min (l.cmsgSpace c.data.length) (l.write (l.header c) ++ gap ++ c.data ++ tail).length) =
      tail.drop (l.cmsgSpace c.data.length - l.cmsgLen c.data.length) := by
    rcases Nat.le_total (l.cmsgSpace c.data.length)
      (l.write (l.header c) ++ gap ++ c.data ++ tail).length with hle | hle
    · rw [Nat.min_eq_left hle, List.drop_append, List.drop_eq_nil_of_le (by omega),
        List.nil_append, hbody]
    · rw [Nat.min_eq_right hle, List.drop_length, List.drop_eq_nil_of_le (by omega)]
  generalize l.write (l.header c) ++ gap ++ c.data ++ tail = buf at htotal hread hdata hrest
  unfold next
  rw [if_neg (by omega), hread]
  dsimp only [Layout.header]
  rw [if_neg (by omega), if_neg (by omega), if_pos (by omega), hadvance]
  dsimp only
  rw [hdata, hrest]

theorem items_encoded (entries : List ParsedCmsg) (buf : Bytes)
    (h : Encodes l entries buf) (hholds : ∀ c ∈ entries, l.Holds c.data.length) :
    items l buf = entries.map .ok := by
  have hend : next l [] = none := if_pos l.headerSize_pos
  induction h with
  | nil => exact (walk l).items_none [] hend
  | last c gap pad hgap hpad =>
    have hstep := next_entry l c gap pad hgap (hholds c List.mem_cons_self)
    rw [List.drop_eq_nil_of_le hpad] at hstep
    unfold items
    rw [(walk l).items_some _ _ _ hstep, (walk l).items_none [] hend]
    rfl
  | cons c gap pad hgap hpad more bytes h ih =>
    have hstep := next_entry l c gap (pad ++ bytes) hgap (hholds c List.mem_cons_self)
    rw [← hpad, List.drop_left, ← List.append_assoc] at hstep
    have hmore := ih fun d hd => hholds d (List.mem_cons_of_mem c hd)
    unfold items at hmore ⊢
    rw [(walk l).items_some _ _ _ hstep, hmore, List.map_cons]

theorem items_untold (c : ParsedCmsg) (gap : Bytes)
    (hgap : l.headerSize + gap.length = l.cmsgLen 0)
    (hlen : l.align l.headerSize + c.data.length < 2 ^ 32)
    (hsmall : l.cmsgSpace c.data.length < l.cmsgLen c.data.length) :
    items l (l.write (l.header c) ++ gap ++ c.data) =
      [.error (.bufferTooShort (l.cmsgLen c.data.length) 0)] := by
  have hwrite := l.write_length (l.header c)
  have hstart := l.dataStart_eq
  have hcover := l.headerSize_le
  have hbody : l.cmsgLen c.data.length = l.align l.headerSize + c.data.length :=
    Nat.mod_eq_of_lt hlen
  have htotal : (l.write (l.header c) ++ gap ++ c.data).length = l.cmsgLen c.data.length := by
    simp only [List.length_append]
    omega
  have hread : l.read ((l.write (l.header c) ++ gap ++ c.data).take l.headerSize) =
      l.header c := by
    rw [List.append_assoc]
    exact entry_read l c _
  have hadvance : cmsgAdvance l (l.cmsgLen c.data.length) (l.cmsgLen 0) = none := by
    have hdatalen : l.cmsgLen c.data.length - l.cmsgLen 0 = c.data.length := by omega
    unfold cmsgAdvance
    dsimp only
    rw [hdatalen, if_pos (by omega), if_neg (by omega)]
  generalize l.write (l.header c) ++ gap ++ c.data = buf at htotal hread
  have hstep : next l buf = some (.error (.bufferTooShort (l.cmsgLen c.data.length) 0), []) := by
    unfold next
    rw [if_neg (by omega), hread]
    dsimp only [Layout.header]
    rw [if_neg (by omega), if_neg (by omega), hadvance]
  unfold items
  rw [(walk l).items_some buf [] _ hstep, (walk l).items_none [] (if_pos l.headerSize_pos)]

end CmsgIter
end Ancillary
end Hick
