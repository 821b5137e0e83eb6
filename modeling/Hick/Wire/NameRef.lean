import Mathlib
import Hick.Name
import Hick.Wire.Types

/-!
# Reading names (wire/name.rs)

`NameRef::try_parse` measures a name in place.
-/

namespace Hick.Wire
open Octets LabelSeq

def maxPointerHops : Nat := 32

def pointerTagMask : Byte := 0b1100_0000
def pointerTag : Byte := 0b1100_0000
def pointerOffsetHiMask : Byte := 0b0011_1111

structure NameRef where
  message : Bytes
  start : Nat
  deriving DecidableEq

def u16Checked (n : Nat) : Except ParseError Nat :=
  if n ≤ 65535 then .ok n else .error .integerConversion

namespace NameRef

/-- The loop of `try_parse`. Each pass moves the cursor on, so the message's length bounds it. -/
def scan (message : Bytes) (offset : Nat) : Nat → Nat → Except ParseError (NameRef × Nat)
  | 0, cursor => .error (.bufferTooShort 1 cursor 0)
  | fuel + 1, cursor =>
    match message[cursor]? with
    | none => .error (.bufferTooShort 1 cursor 0)
    | some kind =>
      if kind = 0 then
        match u16Checked offset with
        | .error e => .error e
        | .ok start => .ok (⟨message, start⟩, cursor - offset + 1)
      else if kind &&& pointerTagMask = 0 then
        if kind.val > maxLabelBytes then .error (.labelTooLong kind.val)
        else if message.length < cursor + 1 + kind.val then
          .error (.bufferTooShort kind.val (cursor + 1) (message.length - (cursor + 1)))
        else scan message offset fuel (cursor + 1 + kind.val)
      else if kind &&& pointerTagMask = pointerTag then
        match message[cursor + 1]? with
        | none => .error (.bufferTooShort 1 (cursor + 1) 0)
        | some _ =>
          match u16Checked offset with
          | .error e => .error e
          | .ok start => .ok (⟨message, start⟩, cursor + 2 - offset)
      else .error (.invalidLabelKind kind)

def tryParse (message : Bytes) (offset : Nat) : Except ParseError (NameRef × Nat) :=
  scan message offset (message.length + 1) offset

end NameRef

/-! ### The label iterator (name.rs:194-309) -/

structure NameLabels where
  message : Bytes
  cursor : Nat
  hopsRemaining : Nat
  wireOctets : Nat
  done : Bool

namespace NameLabels

def advance (message : Bytes) (octets : Nat) :
    Nat → Nat → Option (Except ParseError Bytes) × NameLabels
  | hops, cursor =>
    let stop : NameLabels := ⟨message, cursor, hops, octets, true⟩
    match message[cursor]? with
    | none => (some (.error (.bufferTooShort 1 cursor 0)), stop)
    | some kind =>
      if kind = 0 then (none, stop)
      else if kind &&& pointerTagMask = 0 then
        if kind.val > maxLabelBytes then (some (.error (.labelTooLong kind.val)), stop)
        else
          match slice message (cursor + 1) kind.val with
          | none => (some (.error (.bufferTooShort kind.val (cursor + 1)
              (message.length - (cursor + 1)))), stop)
          | some label =>
            let octets' := octets + (1 + kind.val)
            if octets' > maxNameBytes then
              (some (.error (.nameTooLong octets')), ⟨message, cursor, hops, octets', true⟩)
            else
              match u16Checked (cursor + 1 + kind.val) with
              | .error e => (some (.error e), ⟨message, cursor, hops, octets', true⟩)
              | .ok next => (some (.ok label), ⟨message, next, hops, octets', false⟩)
      else if kind &&& pointerTagMask = pointerTag then
        match hops with
        | 0 => (some (.error (.pointerChainTooLong maxPointerHops)), stop)
        | hops' + 1 =>
          match message[cursor + 1]? with
          | none => (some (.error (.bufferTooShort 1 (cursor + 1) 0)),
              ⟨message, cursor, hops', octets, true⟩)
          | some second =>
            let target := (kind &&& pointerOffsetHiMask).val * 256 + second.val
            if target ≥ cursor then
              (some (.error (.pointerForward target cursor)),
                ⟨message, cursor, hops', octets, true⟩)
            else advance message octets hops' target
      else (some (.error (.invalidLabelKind kind)), stop)

def next (it : NameLabels) : Option (Except ParseError Bytes) × NameLabels :=
  if it.done then (none, it) else advance it.message it.wireOctets it.hopsRemaining it.cursor

def items : Nat → NameLabels → List (Except ParseError Bytes)
  | 0, _ => []
  | fuel + 1, it =>
    match it.next with
    | (none, _) => []
    | (some x, it') => x :: items fuel it'

end NameLabels

namespace NameRef

def labels (n : NameRef) : List (Except ParseError Bytes) :=
  NameLabels.items 256 ⟨n.message, n.start, maxPointerHops, 1, false⟩

def writeWireLoop (foldCase : Bool) :
    Nat → List (Except ParseError Bytes) → Except ParseError Bytes
  | _, [] => .ok [0]
  | _, .error e :: _ => .error e
  | encoded, .ok label :: rest =>
    if label.isEmpty then .ok [0]
    else
      let len := min label.length maxLabelBytes
      let encoded' := encoded + (1 + len)
      if encoded' > maxNameBytes then .error (.nameTooLong encoded')
      else
        match writeWireLoop foldCase encoded' rest with
        | .error e => .error e
        | .ok tail =>
          let kept := label.take maxLabelBytes
          .ok (Fin.ofNat 256 len :: (if foldCase then lower kept else kept) ++ tail)

def writeWire (n : NameRef) (foldCase : Bool) : Except ParseError Bytes :=
  writeWireLoop foldCase 1 n.labels

end NameRef

theorem kind_cases (kind : Byte) (n : Nat) (hk : kind.val = n) (h0 : 0 < n) (h63 : n ≤ 63) :
    kind ≠ 0 ∧ kind &&& pointerTagMask = 0 := by
  have hall : ∀ k : Byte, 0 < k.val → k.val ≤ 63 → k ≠ 0 ∧ k &&& pointerTagMask = 0 := by
    decide +kernel
  exact hall kind (by omega) (by omega)

theorem pointer_cases (kind : Byte) (h : 192 ≤ kind.val) :
    kind ≠ 0 ∧ kind &&& pointerTagMask ≠ 0 ∧ kind &&& pointerTagMask = pointerTag ∧
      (kind &&& pointerOffsetHiMask).val = kind.val - 192 := by
  have hall : ∀ k : Byte, 192 ≤ k.val → k ≠ 0 ∧ k &&& pointerTagMask ≠ 0 ∧
      k &&& pointerTagMask = pointerTag ∧ (k &&& pointerOffsetHiMask).val = k.val - 192 := by
    decide +kernel
  exact hall kind h

theorem NameRef.scan_of_occupies (message : Bytes) (offset at_ n : Nat)
    (h : Occupies message at_ n) (hle : offset ≤ at_) (ho : offset ≤ 65535) (fuel : Nat)
    (hf : message.length < at_ + fuel) :
    NameRef.scan message offset fuel at_ = .ok (⟨message, offset⟩, at_ + n - offset) := by
  have hu : u16Checked offset = .ok offset := if_pos ho
  induction h generalizing fuel with
  | root at_ h =>
    have hlt := (List.getElem?_eq_some_iff.mp h).1
    cases fuel with
    | zero => omega
    | succ fuel =>
      simp only [NameRef.scan, h, hu, if_true]
      rw [show at_ - offset + 1 = at_ + 1 - offset by omega]
  | label at_ n b l hb hlen hp hs _ ih =>
    obtain ⟨hne, htag⟩ := kind_cases b _ hlen hp.1 hp.2
    have hfit := (slice_length _ _ _ _ hs).2
    cases fuel with
    | zero =>
      have := (List.getElem?_eq_some_iff.mp hb).1
      omega
    | succ fuel =>
      simp only [NameRef.scan, hb]
      rw [if_neg hne, if_pos htag,
        if_neg (by have := hp.2; simp only [maxLabelBytes]; omega), if_neg (by omega), hlen,
        ih (by omega) fuel (by omega)]
      rw [show at_ + 1 + l.length + n - offset = at_ + (1 + l.length + n) - offset by omega]
  | pointer at_ hi lo h0 htag h1 =>
    obtain ⟨hne, hnz, heq, _⟩ := pointer_cases hi htag
    cases fuel with
    | zero =>
      have := (List.getElem?_eq_some_iff.mp h0).1
      omega
    | succ fuel =>
      simp only [NameRef.scan, h0]
      rw [if_neg hne, if_neg hnz, if_pos heq, h1, hu]

theorem NameRef.tryParse_of_occupies (message : Bytes) (offset n : Nat)
    (h : Occupies message offset n) (ho : offset ≤ 65535) :
    NameRef.tryParse message offset = .ok (⟨message, offset⟩, n) := by
  unfold NameRef.tryParse
  rw [NameRef.scan_of_occupies message offset offset n h (Nat.le_refl _) ho _ (by omega),
    Nat.add_sub_cancel_left]

theorem NameLabels.items_of_expands (message : Bytes) (at_ hops : Nat) (ls : List Label)
    (h : Expands message at_ hops ls) (hm : message.length ≤ 65535) (fuel remaining octets : Nat)
    (hr : hops ≤ remaining) (ho : octets + LabelSeq.wireLen ls ≤ 256) (hf : ls.length < fuel) :
    NameLabels.items fuel ⟨message, at_, remaining, octets, false⟩ = ls.map .ok := by
  induction h generalizing fuel remaining octets with
  | root at_ h =>
    cases fuel with
    | zero => omega
    | succ fuel =>
      rw [NameLabels.items]
      simp only [NameLabels.next, Bool.false_eq_true, if_false]
      rw [NameLabels.advance.eq_def]
      simp [h]
  | label at_ hops b l rest hb hlen hp hs _ ih =>
    obtain ⟨hne, htag⟩ := kind_cases b _ hlen hp.1 hp.2
    have hfit := (slice_length _ _ _ _ hs).2
    simp only [LabelSeq.wireLen, List.map_cons, List.sum_cons] at ho
    cases fuel with
    | zero => omega
    | succ fuel =>
      rw [NameLabels.items]
      simp only [NameLabels.next, Bool.false_eq_true, if_false]
      rw [NameLabels.advance.eq_def]
      simp only [hb, hlen, hs]
      rw [if_neg hne, if_pos htag,
        if_neg (by have := hp.2; simp only [maxLabelBytes]; omega),
        if_neg (by simp only [maxNameBytes]; omega),
        show u16Checked (at_ + 1 + l.length) = .ok (at_ + 1 + l.length) from if_pos (by omega)]
      simp only [List.map_cons]
      rw [ih fuel remaining (octets + (1 + l.length)) hr
        (by simp only [LabelSeq.wireLen]; omega)
        (by simp only [List.length_cons] at hf; omega)]
  | pointer at_ hops hi lo ls h0 htag h1 hback _ ih =>
    obtain ⟨hne, hnz, heq, hoff⟩ := pointer_cases hi htag
    cases fuel with
    | zero => omega
    | succ fuel =>
      cases remaining with
      | zero => omega
      | succ remaining =>
        rw [← ih (fuel + 1) remaining octets (by omega) ho hf]
        rw [NameLabels.items, NameLabels.items]
        simp only [NameLabels.next, Bool.false_eq_true, if_false]
        rw [NameLabels.advance.eq_def]
        simp only [h0, h1, hoff]
        rw [if_neg hne, if_neg hnz, if_pos heq, if_neg (by omega)]

theorem wireLen_length (ls : List Label) : ls.length + 1 ≤ LabelSeq.wireLen ls := by
  induction ls with
  | nil => exact Nat.le_refl _
  | cons l ls ih =>
    simp only [LabelSeq.wireLen, List.map_cons, List.sum_cons, List.length_cons] at ih ⊢
    omega

theorem NameRef.labels_of_expands (message : Bytes) (at_ hops : Nat) (ls : List Label)
    (h : Expands message at_ hops ls) (hm : message.length ≤ 65535) (hh : hops ≤ 32)
    (hw : LabelSeq.wireLen ls ≤ 255) : (⟨message, at_⟩ : NameRef).labels = ls.map .ok := by
  have hl := wireLen_length ls
  exact NameLabels.items_of_expands message at_ hops ls h hm 256 32 1 hh (by omega) (by omega)

def wireOctets (ls : List Label) : Bytes := ls.flatMap prefixed ++ [0]

theorem NameRef.writeWireLoop_ok (foldCase : Bool) (ls : List Label) (hp : ∀ l ∈ ls, Plain l)
    (hf : ∀ l ∈ ls, lower l = l) (encoded : Nat)
    (hw : encoded + LabelSeq.wireLen ls ≤ 256) :
    NameRef.writeWireLoop foldCase encoded (ls.map .ok) = .ok (wireOctets ls) := by
  induction ls generalizing encoded with
  | nil => rfl
  | cons l ls ih =>
    obtain ⟨hpl, hprest⟩ := List.forall_mem_cons.mp hp
    obtain ⟨hfl, hfrest⟩ := List.forall_mem_cons.mp hf
    simp only [LabelSeq.wireLen, List.map_cons, List.sum_cons] at hw
    have hlen : min l.length maxLabelBytes = l.length := Nat.min_eq_left hpl.2
    have htake : l.take maxLabelBytes = l := List.take_of_length_le hpl.2
    have hne : l.isEmpty = false := by
      simpa using List.length_pos_iff.mp hpl.1
    simp only [List.map_cons, NameRef.writeWireLoop, hne, Bool.false_eq_true, if_false, hlen, htake]
    rw [if_neg (by simp only [maxNameBytes]; omega),
      ih hprest hfrest _ (by simp only [LabelSeq.wireLen]; omega)]
    simp only [hfl, ite_self, wireOctets, List.flatMap_cons, prefixed, List.cons_append,
      List.append_assoc]

end Hick.Wire
