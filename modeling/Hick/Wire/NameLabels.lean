import Mathlib
import Hick.Wire.NameRef

/-!
# The label iterator, run to its end (wire/name.rs:194-309)

One call of `next` follows pointers to the next label, to the end of the name or to an error
(`NameLabels.Moved`).
-/

namespace Hick.Wire
open Octets LabelSeq

namespace NameLabels

def fresh (n : NameRef) : NameLabels := ⟨n.message, n.start, maxPointerHops, 1, false⟩

def after : Nat → NameLabels → NameLabels
  | 0, it => it
  | n + 1, it => after n it.next.2

def call (n : Nat) (it : NameLabels) : Option (Except ParseError Bytes) := (it.after n).next.1

/-- What one call does from `cursor`, with `hops` pointers and `octets` octets accounted for. -/
inductive Moved (message : Bytes) (octets hops cursor : Nat) :
    Option (Except ParseError Bytes) × NameLabels → Prop where
  | ended (h dest : Nat) (hh : h ≤ hops) (walk : Leads message cursor h [] dest)
      (h0 : message[dest]? = some 0) :
      Moved message octets hops cursor (none, ⟨message, dest, hops - h, octets, true⟩)
  | label (h dest : Nat) (b : Byte) (l : Label) (hh : h ≤ hops)
      (walk : Leads message cursor h [] dest) (hb : message[dest]? = some b)
      (hlen : b.val = l.length) (hp : Plain l) (hs : slice message (dest + 1) l.length = some l)
      (ho : octets + (1 + l.length) ≤ 255) :
      Moved message octets hops cursor
        (some (.ok l), ⟨message, dest + 1 + l.length, hops - h, octets + (1 + l.length), false⟩)
  | failed (h : Nat) (e : ParseError) (it : NameLabels) (hh : h ≤ hops)
      (walk : Leads message cursor h [] it.cursor) (hd : it.done = true) :
      Moved message octets hops cursor (some (.error e), it)

variable (message : Bytes) (octets hops cursor : Nat)

theorem Moved.pointer (hi lo : Byte)
    (h0 : message[cursor]? = some hi) (htag : 192 ≤ hi.val) (h1 : message[cursor + 1]? = some lo)
    (hback : (hi.val - 192) * 256 + lo.val < cursor)
    (r : Option (Except ParseError Bytes) × NameLabels)
    (h : Moved message octets hops ((hi.val - 192) * 256 + lo.val) r) :
    Moved message octets (hops + 1) cursor r := by
  cases h with
  | ended h dest hh walk hz =>
    have hsub : hops - h = hops + 1 - (h + 1) := by omega
    rw [hsub]
    exact .ended (h + 1) dest (by omega) (.pointer _ _ _ _ _ _ h0 htag h1 hback walk) hz
  | label h dest b l hh walk hb hlen hp hs ho =>
    have hsub : hops - h = hops + 1 - (h + 1) := by omega
    rw [hsub]
    exact .label (h + 1) dest b l (by omega) (.pointer _ _ _ _ _ _ h0 htag h1 hback walk) hb hlen
      hp hs ho
  | failed h e it hh walk hd =>
    exact .failed (h + 1) e it (by omega) (.pointer _ _ _ _ _ _ h0 htag h1 hback walk) hd

theorem kind_zero_tag (kind : Byte) (h0 : kind ≠ 0) (htag : kind &&& pointerTagMask = 0) :
    0 < kind.val := by
  revert kind
  decide +kernel

theorem kind_pointer_tag (kind : Byte) (htag : kind &&& pointerTagMask = pointerTag) :
    192 ≤ kind.val := by
  revert kind
  decide +kernel

theorem labelled_moved (kind : Byte)
    (hkind : message[cursor]? = some kind) (h0 : kind ≠ 0)
    (htag : kind &&& pointerTagMask = 0) :
    Moved message octets hops cursor
      (if kind.val > maxLabelBytes then
        (some (.error (.labelTooLong kind.val)), ⟨message, cursor, hops, octets, true⟩)
      else
        match slice message (cursor + 1) kind.val with
        | none => (some (.error (.bufferTooShort kind.val (cursor + 1)
            (message.length - (cursor + 1)))), ⟨message, cursor, hops, octets, true⟩)
        | some label =>
          let octets' := octets + (1 + kind.val)
          if octets' > maxNameBytes then
            (some (.error (.nameTooLong octets')), ⟨message, cursor, hops, octets', true⟩)
          else
            match u16Checked (cursor + 1 + kind.val) with
            | .error e => (some (.error e), ⟨message, cursor, hops, octets', true⟩)
            | .ok next => (some (.ok label), ⟨message, next, hops, octets', false⟩)) := by
  have hpos := kind_zero_tag kind h0 htag
  split
  · exact .failed 0 _ _ (Nat.zero_le _) (.here _) rfl
  · rename_i hle
    split
    · exact .failed 0 _ _ (Nat.zero_le _) (.here _) rfl
    · rename_i label hs
      obtain ⟨hlen, hend⟩ := slice_length _ _ _ _ hs
      simp only [maxLabelBytes] at hle
      dsimp only
      split
      · exact .failed 0 _ _ (Nat.zero_le _) (.here _) rfl
      · rename_i ho
        simp only [maxNameBytes] at ho
        unfold u16Checked
        by_cases hnext : cursor + 1 + kind.val ≤ 65535
        · rw [if_pos hnext]
          rw [← hlen] at hs ho hpos hle ⊢
          exact .label 0 cursor kind label (Nat.zero_le _) (.here _) hkind hlen.symm
            ⟨by omega, by omega⟩ hs (by omega)
        · rw [if_neg hnext]
          exact .failed 0 _ _ (Nat.zero_le _) (.here _) rfl

theorem advance_moved :
    Moved message octets hops cursor (advance message octets hops cursor) := by
  induction hops generalizing cursor with
  | zero =>
    rw [advance.eq_def]
    dsimp only
    split
    · exact .failed 0 _ _ (Nat.le_refl _) (.here _) rfl
    · rename_i kind hkind
      split
      · rename_i hz
        subst hz
        exact .ended 0 _ (Nat.le_refl _) (.here _) hkind
      · split
        · exact labelled_moved message octets 0 cursor kind hkind ‹_› ‹_›
        · split
          · exact .failed 0 _ _ (Nat.le_refl _) (.here _) rfl
          · exact .failed 0 _ _ (Nat.le_refl _) (.here _) rfl
  | succ hops ih =>
    rw [advance.eq_def]
    dsimp only
    split
    · exact .failed 0 _ _ (Nat.zero_le _) (.here _) rfl
    · rename_i kind hkind
      split
      · rename_i hz
        subst hz
        exact .ended 0 _ (Nat.zero_le _) (.here _) hkind
      · split
        · exact labelled_moved message octets (hops + 1) cursor kind hkind ‹_› ‹_›
        · split
          · rename_i htag
            split
            · exact .failed 0 _ _ (Nat.zero_le _) (.here _) rfl
            · rename_i second hsecond
              have hge := kind_pointer_tag kind htag
              have hoff := (pointer_cases kind hge).2.2.2
              rw [hoff]
              split
              · exact .failed 0 _ _ (Nat.zero_le _) (.here _) rfl
              · rename_i hback
                exact (ih _).pointer message octets hops cursor kind second hkind hge hsecond
                  (by omega)
          · exact .failed 0 _ _ (Nat.zero_le _) (.here _) rfl

theorem next_moved :
    Moved message octets hops cursor (next ⟨message, cursor, hops, octets, false⟩) :=
  advance_moved message octets hops cursor

theorem next_done (it : NameLabels) (h : it.done = true) : it.next = (none, it) := by
  unfold next
  rw [if_pos h]

theorem items_done (fuel : Nat) (it : NameLabels) (h : it.done = true) : items fuel it = [] := by
  cases fuel with
  | zero => rfl
  | succ fuel => rw [items, next_done it h]

theorem call_done (n : Nat) (it : NameLabels) (h : it.done = true) : call n it = none := by
  induction n with
  | zero =>
    simp only [call, after]
    rw [next_done it h]
  | succ n ih =>
    simp only [call, after] at ih ⊢
    rw [next_done it h]
    exact ih

theorem items_walk (fuel cursor hops octets : Nat)
    (ho : octets ≤ 255) (hf : 255 < octets + fuel) :
    ∃ ls tail h dest, items fuel ⟨message, cursor, hops, octets, false⟩ = ls.map .ok ++ tail ∧
      (tail = [] ∧ message[dest]? = some 0 ∨ ∃ e, tail = [.error e]) ∧ h ≤ hops ∧
      Leads message cursor h ls dest ∧ octets + LabelSeq.wireLen ls ≤ 256 := by
  induction fuel generalizing cursor hops octets with
  | zero => omega
  | succ fuel ih =>
    have hmoved := next_moved message octets hops cursor
    rw [items]
    cases hn : next ⟨message, cursor, hops, octets, false⟩ with
    | mk r it =>
      rw [hn] at hmoved
      cases hmoved with
      | ended h dest hh walk h0 =>
        exact ⟨[], [], h, dest, rfl, .inl ⟨rfl, h0⟩, hh, walk, by
          simp only [LabelSeq.wireLen, List.map_nil, List.sum_nil]
          omega⟩
      | label h dest b l hh walk hb hlen hp hs hle =>
        have hpos := hp.1
        obtain ⟨ls, tail, h', dest', hitems, htail, hh', walk', ho'⟩ :=
          ih (dest + 1 + l.length) (hops - h) (octets + (1 + l.length)) (by omega) (by omega)
        have hstep := Leads.label dest h' dest' b l ls hb hlen hp hs walk'
        refine ⟨l :: ls, tail, h + h', dest', ?_, htail, by omega,
          walk.trans message cursor h dest [] h' dest' (l :: ls) hstep, ?_⟩
        · simp only [hitems, List.map_cons, List.cons_append]
        · rw [wireLen_cons]
          omega
      | failed h e it hh walk hd =>
        refine ⟨[], [.error e], h, it.cursor, ?_, .inr ⟨e, rfl⟩, hh, walk, ?_⟩
        · simp only [items_done fuel it hd, List.map_nil, List.nil_append]
        · simp only [LabelSeq.wireLen, List.map_nil, List.sum_nil]
          omega

theorem call_succ (k : Nat) (it : NameLabels) : call (k + 1) it = call k it.next.2 := rfl

theorem call_items (fuel cursor hops octets : Nat)
    (hl : (items fuel ⟨message, cursor, hops, octets, false⟩).length < fuel) (k : Nat) :
    call k ⟨message, cursor, hops, octets, false⟩ =
      (items fuel ⟨message, cursor, hops, octets, false⟩)[k]? := by
  induction fuel generalizing cursor hops octets k with
  | zero => omega
  | succ fuel ih =>
    have hmoved := next_moved message octets hops cursor
    rw [items] at hl ⊢
    cases hn : next ⟨message, cursor, hops, octets, false⟩ with
    | mk r it =>
      rw [hn] at hmoved hl
      cases k with
      | zero =>
        simp only [call, after, hn]
        cases hmoved with
        | ended => rfl
        | label => rfl
        | failed => rfl
      | succ k =>
        rw [call_succ, hn]
        cases hmoved with
        | ended h dest hh walk h0 => exact call_done k _ rfl
        | label h dest b l hh walk hb hlen hp hs hle =>
          simp only [List.length_cons] at hl
          simp only [List.getElem?_cons_succ]
          exact ih _ _ _ (by omega) k
        | failed h e it hh walk hd =>
          simp only [items_done fuel it hd, List.getElem?_cons_succ, List.getElem?_nil]
          exact call_done k it hd

end NameLabels

theorem NameRef.labels_walk (message : Bytes) (start : Nat) :
    ∃ ls tail hops dest, (⟨message, start⟩ : NameRef).labels = ls.map .ok ++ tail ∧
      (tail = [] ∧ message[dest]? = some 0 ∨ ∃ e, tail = [.error e]) ∧ hops ≤ maxPointerHops ∧
      Leads message start hops ls dest ∧ LabelSeq.wireLen ls ≤ maxNameBytes ∧
      ls.length ≤ 127 := by
  obtain ⟨ls, tail, hops, dest, hitems, htail, hh, walk, ho⟩ :=
    NameLabels.items_walk message 256 start maxPointerHops 1 (by omega) (by omega)
  have htwice := twice_length_le_wireLen ls (walk.plain message start hops dest ls)
  refine ⟨ls, tail, hops, dest, hitems, htail, hh, walk, ?_, by omega⟩
  simp only [maxNameBytes]
  omega

theorem NameRef.labels_iff (message : Bytes) (start : Nat) (hm : message.length ≤ 65535)
    (ls : List Label) :
    (⟨message, start⟩ : NameRef).labels = ls.map .ok ↔
      ∃ hops, hops ≤ maxPointerHops ∧ Expands message start hops ls ∧
        LabelSeq.wireLen ls ≤ maxNameBytes := by
  constructor
  · intro h
    obtain ⟨ls', tail, hops, dest, hitems, htail, hh, walk, hw, _⟩ :=
      NameRef.labels_walk message start
    rw [h] at hitems
    rcases htail with ⟨rfl, h0⟩ | ⟨e, rfl⟩
    · rw [List.append_nil] at hitems
      have hls : ls = ls' := (List.map_injective_iff.mpr fun a b hab => by injection hab) hitems
      subst hls
      have hx := walk.expands message start hops dest ls 0 [] (.root dest h0)
      rw [Nat.add_zero, List.append_nil] at hx
      exact ⟨hops, hh, hx, hw⟩
    · have hmem : (.error e : Except ParseError Bytes) ∈ ls.map .ok := by
        rw [hitems]
        simp
      simp at hmem
  · rintro ⟨hops, hh, hx, hw⟩
    exact NameRef.labels_of_expands message start hops ls hx hm hh hw

/-- The iterator over a name yields the items of `labels` in order and then nothing, for good: at
most 127 labels of at most 255 octets in all, read over at most 32 backward pointers, with at most
one error, which is last. -/
theorem NameLabels.decodes_what_expands (message : Bytes) (start : Nat)
    (hm : message.length ≤ 65535) :
    (∀ k, (fresh ⟨message, start⟩).call k = (⟨message, start⟩ : NameRef).labels[k]?) ∧
    (∃ ls tail hops dest, (⟨message, start⟩ : NameRef).labels = ls.map .ok ++ tail ∧
      (tail = [] ∨ ∃ e, tail = [.error e]) ∧ ls.length ≤ 127 ∧ LabelSeq.wireLen ls ≤ 255 ∧
      hops ≤ 32 ∧ Leads message start hops ls dest) ∧
    (∀ k e, (fresh ⟨message, start⟩).call k = some (.error e) →
      ∀ j, k < j → (fresh ⟨message, start⟩).call j = none) ∧
    ((∀ k e, (fresh ⟨message, start⟩).call k ≠ some (.error e)) ↔
      ∃ hops ls, Expands message start hops ls ∧ hops ≤ 32 ∧ LabelSeq.wireLen ls ≤ 255) ∧
    ∀ hops ls, Expands message start hops ls → hops ≤ 32 → LabelSeq.wireLen ls ≤ 255 →
      ∀ k, (fresh ⟨message, start⟩).call k = (ls[k]?).map .ok := by
  obtain ⟨ls, tail, hops, dest, hlabels, htail, hh, walk, hw, hlen⟩ :=
    NameRef.labels_walk message start
  have hlast : tail.length ≤ 1 := by
    rcases htail with ⟨rfl, _⟩ | ⟨e, rfl⟩ <;> simp
  have hcall : ∀ k, (fresh ⟨message, start⟩).call k =
      (⟨message, start⟩ : NameRef).labels[k]? := by
    refine fun k => call_items message 256 start maxPointerHops 1 ?_ k
    have hcount : (items 256 ⟨message, start, maxPointerHops, 1, false⟩).length = _ :=
      congrArg List.length hlabels
    rw [hcount, List.length_append, List.length_map]
    omega
  refine ⟨hcall, ⟨ls, tail, hops, dest, hlabels, ?_, hlen, hw, hh, walk⟩, ?_, ?_, ?_⟩
  · exact htail.imp And.left id
  · intro k e he j hj
    rw [hcall, hlabels] at he
    have hk : ls.length ≤ k := by
      by_contra hlt
      rw [List.getElem?_append_left (by simpa using hlt), List.getElem?_map] at he
      simp at he
    rw [hcall, hlabels]
    exact List.getElem?_eq_none (by simp only [List.length_append, List.length_map]; omega)
  · constructor
    · intro hnone
      rcases htail with ⟨rfl, h0⟩ | ⟨e, rfl⟩
      · rw [List.append_nil] at hlabels
        obtain ⟨hops', hh', hx, hw'⟩ := (NameRef.labels_iff message start hm ls).mp hlabels
        exact ⟨hops', ls, hx, hh', hw'⟩
      · refine absurd ?_ (hnone ls.length e)
        rw [hcall, hlabels, List.getElem?_append_right (by simp)]
        simp
    · rintro ⟨hops', ls', hx, hh', hw'⟩ k e he
      rw [hcall, NameRef.labels_of_expands message start hops' ls' hx hm hh' hw'] at he
      simp at he
  · intro hops' ls' hx hh' hw' k
    rw [hcall, NameRef.labels_of_expands message start hops' ls' hx hm hh' hw', List.getElem?_map]

theorem NameLabels.decodes_pointer :
    ([1, 97, 0, 192, 0] : Bytes).length ≤ 65535 ∧
      ∀ k, (fresh ⟨[1, 97, 0, 192, 0], 3⟩).call k = ([[97]] : List Label)[k]?.map .ok := by
  refine ⟨by decide, (decodes_what_expands [1, 97, 0, 192, 0] 3 (by decide)).2.2.2.2 1 [[97]] ?_
    (by decide) (by decide)⟩
  exact .pointer 3 0 192 0 [[97]] rfl (by decide) rfl (by decide)
    (.label 0 0 1 [97] [] rfl rfl ⟨by decide, by decide⟩ rfl (.root 2 rfl))

end Hick.Wire
