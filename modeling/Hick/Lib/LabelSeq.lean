import Mathlib
import Hick.Lib.Octets

/-!
# Compressed label sequences

A label sequence inside a message is a run of length-prefixed labels that ends in a zero octet or in
a two-octet pointer to an earlier position, where it continues.
-/

namespace LabelSeq
open Octets

abbrev Label := Bytes

/-- Octets of a sequence written out in full: a length octet before each label, and the
terminator. -/
def wireLen (ls : List Label) : Nat := 1 + (ls.map fun l => 1 + l.length).sum

def Plain (l : Label) : Prop := 0 < l.length ∧ l.length ≤ 63

/-- `Expands msg at_ hops ls`: reading `msg` from `at_` gives the labels `ls` and follows
exactly `hops` pointers, each strictly backward. -/
inductive Expands (msg : Bytes) : Nat → Nat → List Label → Prop where
  | root (at_ : Nat) (h : msg[at_]? = some 0) : Expands msg at_ 0 []
  | label (at_ hops : Nat) (b : Byte) (l : Label) (rest : List Label)
      (hb : msg[at_]? = some b) (hlen : b.val = l.length) (hp : Plain l)
      (hs : slice msg (at_ + 1) l.length = some l)
      (tail : Expands msg (at_ + 1 + l.length) hops rest) : Expands msg at_ hops (l :: rest)
  | pointer (at_ hops : Nat) (hi lo : Byte) (ls : List Label)
      (h0 : msg[at_]? = some hi) (htag : 192 ≤ hi.val) (h1 : msg[at_ + 1]? = some lo)
      (hback : (hi.val - 192) * 256 + lo.val < at_)
      (tail : Expands msg ((hi.val - 192) * 256 + lo.val) hops ls) :
      Expands msg at_ (hops + 1) ls

/-- `Occupies msg at_ n`: the sequence at `at_` takes `n` octets in place. -/
inductive Occupies (msg : Bytes) : Nat → Nat → Prop where
  | root (at_ : Nat) (h : msg[at_]? = some 0) : Occupies msg at_ 1
  | label (at_ n : Nat) (b : Byte) (l : Label)
      (hb : msg[at_]? = some b) (hlen : b.val = l.length) (hp : Plain l)
      (hs : slice msg (at_ + 1) l.length = some l)
      (tail : Occupies msg (at_ + 1 + l.length) n) : Occupies msg at_ (1 + l.length + n)
  | pointer (at_ : Nat) (hi lo : Byte)
      (h0 : msg[at_]? = some hi) (htag : 192 ≤ hi.val) (h1 : msg[at_ + 1]? = some lo) :
      Occupies msg at_ 2

theorem Expands.occupies (msg : Bytes) (at_ hops : Nat) (ls : List Label)
    (h : Expands msg at_ hops ls) : ∃ n, Occupies msg at_ n := by
  induction h with
  | root at_ h => exact ⟨1, .root at_ h⟩
  | label at_ hops b l rest hb hlen hp hs tail ih =>
    obtain ⟨n, ho⟩ := ih
    exact ⟨_, .label at_ n b l hb hlen hp hs ho⟩
  | pointer at_ hops hi lo ls h0 htag h1 hback tail ih => exact ⟨2, .pointer at_ hi lo h0 htag h1⟩

theorem Expands.plain (msg : Bytes) (at_ hops : Nat) (ls : List Label)
    (h : Expands msg at_ hops ls) : ∀ l ∈ ls, Plain l := by
  induction h with
  | root at_ h => exact fun l hl => absurd hl List.not_mem_nil
  | label at_ hops b l rest hb hlen hp hs tail ih => exact List.forall_mem_cons.mpr ⟨hp, ih⟩
  | pointer at_ hops hi lo ls h0 htag h1 hback tail ih => exact ih

theorem getElem?_append_some (msg ext : Bytes) (i : Nat) (b : Byte) (h : msg[i]? = some b) :
    (msg ++ ext)[i]? = some b := by
  have hi : i < msg.length := (List.getElem?_eq_some_iff.mp h).1
  rw [List.getElem?_append_left hi]
  exact h

theorem Expands.append (msg ext : Bytes) (at_ hops : Nat) (ls : List Label)
    (h : Expands msg at_ hops ls) : Expands (msg ++ ext) at_ hops ls := by
  induction h with
  | root at_ h => exact .root at_ (getElem?_append_some msg ext at_ 0 h)
  | label at_ hops b l rest hb hlen hp hs _ ih =>
    exact .label at_ hops b l rest (getElem?_append_some msg ext at_ b hb) hlen hp
      (slice_append msg ext _ _ l hs) ih
  | pointer at_ hops hi lo ls h0 htag h1 hback _ ih =>
    exact .pointer at_ hops hi lo ls (getElem?_append_some msg ext at_ hi h0) htag
      (getElem?_append_some msg ext _ lo h1) hback ih

theorem Expands.lt_length (msg : Bytes) (at_ hops : Nat) (ls : List Label)
    (h : Expands msg at_ hops ls) : at_ < msg.length := by
  cases h with
  | root _ h => exact (List.getElem?_eq_some_iff.mp h).1
  | label _ _ _ _ _ hb => exact (List.getElem?_eq_some_iff.mp hb).1
  | pointer _ _ _ _ _ h0 => exact (List.getElem?_eq_some_iff.mp h0).1

def prefixed (l : Label) : Bytes := Fin.ofNat 256 l.length :: l

@[simp] theorem prefixed_length (l : Label) : (prefixed l).length = 1 + l.length := by
  simp only [prefixed, List.length_cons]
  omega

theorem prefixed_head (pre post : Bytes) (l : Label) (hp : Plain l) :
    ∃ b : Byte, (pre ++ (prefixed l ++ post))[pre.length]? = some b ∧ b.val = l.length ∧
      slice (pre ++ (prefixed l ++ post)) (pre.length + 1) l.length = some l := by
  refine ⟨Fin.ofNat 256 l.length, ?_, ?_, ?_⟩
  · rw [List.getElem?_append_right (Nat.le_refl _), Nat.sub_self]
    rfl
  · have := hp.2
    simp only [Fin.ofNat]
    exact Nat.mod_eq_of_lt (by omega)
  · have h := slice_middle (pre ++ [Fin.ofNat 256 l.length]) l post
    simp only [List.append_assoc, List.length_append, List.length_cons, List.length_nil] at h
    exact h

theorem Expands.cons (pre post : Bytes) (l : Label) (hops : Nat) (rest : List Label)
    (hp : Plain l)
    (tail : Expands (pre ++ (prefixed l ++ post)) (pre.length + (prefixed l).length) hops rest) :
    Expands (pre ++ (prefixed l ++ post)) pre.length hops (l :: rest) := by
  obtain ⟨b, hb, hlen, hs⟩ := prefixed_head pre post l hp
  refine .label pre.length hops b l rest hb hlen hp hs ?_
  rw [prefixed_length, ← Nat.add_assoc] at tail
  exact tail

theorem Occupies.cons (pre post : Bytes) (l : Label) (n : Nat) (hp : Plain l)
    (tail : Occupies (pre ++ (prefixed l ++ post)) (pre.length + (prefixed l).length) n) :
    Occupies (pre ++ (prefixed l ++ post)) pre.length ((prefixed l).length + n) := by
  obtain ⟨b, hb, hlen, hs⟩ := prefixed_head pre post l hp
  rw [prefixed_length] at tail ⊢
  refine .label pre.length n b l hb hlen hp hs ?_
  rw [← Nat.add_assoc] at tail
  exact tail

section Dictionary

variable {κ : Type} (key : List Label → κ)

/-- Every entry of `dict` is the position of a sequence of `pool` under its key, and the
`k`-th entry is reached through at most `k` pointers. -/
def Sound (pool : List Label → Prop) (msg : Bytes) (dict : List (κ × Nat)) : Prop :=
  ∀ (k : Nat) (e : κ × Nat), dict[k]? = some e →
    ∃ ls hops, pool ls ∧ key ls = e.1 ∧ hops ≤ k ∧ Expands msg e.2 hops ls

theorem sound_nil (pool : List Label → Prop) (msg : Bytes) : Sound key pool msg [] := by
  intro k e h
  simp at h

theorem Sound.append (pool : List Label → Prop) (msg ext : Bytes) (dict : List (κ × Nat))
    (h : Sound key pool msg dict) : Sound key pool (msg ++ ext) dict := by
  intro k e he
  obtain ⟨ls, hops, hpool, hkey, hk, hx⟩ := h k e he
  exact ⟨ls, hops, hpool, hkey, hk, hx.append msg ext _ _ _⟩

theorem Sound.extend (pool : List Label → Prop) (msg : Bytes) (dict news : List (κ × Nat))
    (h : Sound key pool msg dict) (hops : Nat) (hh : hops ≤ dict.length)
    (hnews : ∀ e ∈ news, ∃ ls, pool ls ∧ key ls = e.1 ∧ Expands msg e.2 hops ls) :
    Sound key pool msg (dict ++ news) := by
  intro k e he
  by_cases hk : k < dict.length
  · rw [List.getElem?_append_left hk] at he
    exact h k e he
  · rw [List.getElem?_append_right (by omega)] at he
    obtain ⟨ls, hpool, hkey, hx⟩ := hnews e (List.mem_of_getElem? he)
    exact ⟨ls, hops, hpool, hkey, by omega, hx⟩

end Dictionary

end LabelSeq

/-!
## Walking a compressed label sequence

A walk over a message reads labels and follows pointers, each strictly backward, and is at some
position at any time.
-/

namespace LabelSeq
open Octets

/-- `Leads msg at_ hops ls dest`: from `at_` the walk reads the labels `ls`, follows exactly
`hops` pointers, and is at `dest`. -/
inductive Leads (msg : Bytes) : Nat → Nat → List Label → Nat → Prop where
  | here (at_ : Nat) : Leads msg at_ 0 [] at_
  | label (at_ hops dest : Nat) (b : Byte) (l : Label) (rest : List Label)
      (hb : msg[at_]? = some b) (hlen : b.val = l.length) (hp : Plain l)
      (hs : slice msg (at_ + 1) l.length = some l)
      (tail : Leads msg (at_ + 1 + l.length) hops rest dest) : Leads msg at_ hops (l :: rest) dest
  | pointer (at_ hops dest : Nat) (hi lo : Byte) (ls : List Label)
      (h0 : msg[at_]? = some hi) (htag : 192 ≤ hi.val) (h1 : msg[at_ + 1]? = some lo)
      (hback : (hi.val - 192) * 256 + lo.val < at_)
      (tail : Leads msg ((hi.val - 192) * 256 + lo.val) hops ls dest) :
      Leads msg at_ (hops + 1) ls dest

theorem Leads.trans (msg : Bytes) (at_ hops mid : Nat) (ls : List Label)
    (h : Leads msg at_ hops ls mid) (hops' dest : Nat) (ls' : List Label)
    (h' : Leads msg mid hops' ls' dest) : Leads msg at_ (hops + hops') (ls ++ ls') dest := by
  induction h with
  | here at_ =>
    rw [Nat.zero_add]
    exact h'
  | label at_ hops mid b l rest hb hlen hp hs _ ih =>
    exact .label at_ _ _ b l _ hb hlen hp hs (ih h')
  | pointer at_ hops mid hi lo ls h0 htag h1 hback _ ih =>
    rw [Nat.add_right_comm]
    exact .pointer at_ _ _ hi lo _ h0 htag h1 hback (ih h')

theorem Leads.expands (msg : Bytes) (at_ hops dest : Nat) (ls : List Label)
    (h : Leads msg at_ hops ls dest) (hops' : Nat) (ls' : List Label)
    (h' : Expands msg dest hops' ls') : Expands msg at_ (hops + hops') (ls ++ ls') := by
  induction h with
  | here at_ =>
    rw [Nat.zero_add]
    exact h'
  | label at_ hops dest b l rest hb hlen hp hs _ ih =>
    exact .label at_ _ b l _ hb hlen hp hs (ih h')
  | pointer at_ hops dest hi lo ls h0 htag h1 hback _ ih =>
    rw [Nat.add_right_comm]
    exact .pointer at_ _ hi lo _ h0 htag h1 hback (ih h')

theorem Leads.plain (msg : Bytes) (at_ hops dest : Nat) (ls : List Label)
    (h : Leads msg at_ hops ls dest) : ∀ l ∈ ls, Plain l := by
  induction h with
  | here => simp
  | label _ _ _ _ l rest _ _ hp _ _ ih => exact List.forall_mem_cons.mpr ⟨hp, ih⟩
  | pointer _ _ _ _ _ _ _ _ _ _ _ ih => exact ih

theorem twice_length_le_wireLen (ls : List Label) (h : ∀ l ∈ ls, Plain l) :
    2 * ls.length + 1 ≤ wireLen ls := by
  induction ls with
  | nil => exact Nat.le_refl _
  | cons l ls ih =>
    obtain ⟨hp, hrest⟩ := List.forall_mem_cons.mp h
    have hl := hp.1
    have hi := ih hrest
    simp only [wireLen, List.map_cons, List.sum_cons, List.length_cons] at hi ⊢
    omega

theorem wireLen_cons (l : Label) (ls : List Label) :
    wireLen (l :: ls) = 1 + l.length + wireLen ls := by
  simp only [wireLen, List.map_cons, List.sum_cons]
  omega

end LabelSeq
