import Mathlib

/-!
# A queue whose answers coalesce and give way

Two kinds of entry share one queue. An answer has a key: pushed again, it takes the place of the
answer already queued under its key, and where there is no room the oldest answer makes way. A
terminal always has room. Every answer that is given a place has a number of its own.
-/

set_option linter.unusedSectionVars false

namespace EvictingQueue

inductive Entry (κ α τ : Type) where
  | answer (id : Nat) (key : κ) (value : α)
  | terminal (event : τ)

inductive Op (κ α τ : Type) where
  | answer (key : κ) (value : α)
  | terminal (event : τ)
  | pop

structure Ledger (κ α τ : Type) where
  entries : List (Entry κ α τ)
  /-- How many answers have been given a place. -/
  minted : Nat
  evicted : List Nat
  delivered : List (Entry κ α τ)
  /-- Every terminal that was pushed. -/
  terminals : List τ

section
variable {κ α τ : Type}

def ids : List (Entry κ α τ) → List Nat
  | [] => []
  | .answer id _ _ :: rest => id :: ids rest
  | .terminal _ :: rest => ids rest

def keys : List (Entry κ α τ) → List κ
  | [] => []
  | .answer _ key _ :: rest => key :: keys rest
  | .terminal _ :: rest => keys rest

def terminalsOf : List (Entry κ α τ) → List τ
  | [] => []
  | .answer _ _ _ :: rest => terminalsOf rest
  | .terminal event :: rest => event :: terminalsOf rest

def dropOldest : List (Entry κ α τ) → List (Entry κ α τ)
  | [] => []
  | .answer _ _ _ :: rest => rest
  | .terminal event :: rest => .terminal event :: dropOldest rest

variable [DecidableEq κ]

def find (key : κ) : List (Entry κ α τ) → Option (Nat × α)
  | [] => none
  | .answer id k v :: rest => if k = key then some (id, v) else find key rest
  | .terminal _ :: rest => find key rest

def refresh (key : κ) (value : α) : List (Entry κ α τ) → List (Entry κ α τ)
  | [] => []
  | .answer id k v :: rest => .answer id k (if k = key then value else v) :: refresh key value rest
  | .terminal event :: rest => .terminal event :: refresh key value rest

namespace Ledger

def empty : Ledger κ α τ := ⟨[], 0, [], [], []⟩

def evict (cap : Nat) (l : Ledger κ α τ) : Ledger κ α τ :=
  if cap ≤ (ids l.entries).length then
    { l with
      entries := dropOldest l.entries
      evicted := l.evicted ++ (ids l.entries).head?.toList }
  else l

def mint (l : Ledger κ α τ) (key : κ) (value : α) : Ledger κ α τ :=
  { l with
    entries := l.entries ++ [.answer l.minted key value]
    minted := l.minted + 1 }

def pushAnswer (cap : Nat) (l : Ledger κ α τ) (key : κ) (value : α) : Ledger κ α τ :=
  if key ∈ keys l.entries then { l with entries := refresh key value l.entries }
  else (l.evict cap).mint key value

def pushTerminal (l : Ledger κ α τ) (event : τ) : Ledger κ α τ :=
  { l with
    entries := l.entries ++ [.terminal event]
    terminals := l.terminals ++ [event] }

def pop (l : Ledger κ α τ) : Ledger κ α τ :=
  { l with
    entries := l.entries.tail
    delivered := l.delivered ++ l.entries.head?.toList }

def step (cap : Nat) (l : Ledger κ α τ) : Op κ α τ → Ledger κ α τ
  | .answer key value => l.pushAnswer cap key value
  | .terminal event => l.pushTerminal event
  | .pop => l.pop

/-- The books balance: each answer that was given a place has been delivered, has made way or is
still queued, the queued ones are the newest, and no terminal is lost. -/
structure Balanced (cap : Nat) (l : Ledger κ α τ) : Prop where
  room : (ids l.entries).length ≤ cap
  newest : ids l.entries = List.range' (l.minted - (ids l.entries).length) (ids l.entries).length
  count : (ids l.entries).length ≤ l.minted
  distinct : (keys l.entries).Nodup
  answers : (ids l.delivered ++ l.evicted ++ ids l.entries).Perm (List.range l.minted)
  events : terminalsOf l.delivered ++ terminalsOf l.entries = l.terminals

end Ledger

attribute [local simp] ids keys terminalsOf dropOldest find refresh

theorem ids_append (a b : List (Entry κ α τ)) : ids (a ++ b) = ids a ++ ids b := by
  induction a with
  | nil => rfl
  | cons entry rest ih =>
    cases entry with
    | answer id key value => simp only [List.cons_append, ids, ih]
    | terminal event => simp only [List.cons_append, ids, ih]

theorem keys_append (a b : List (Entry κ α τ)) : keys (a ++ b) = keys a ++ keys b := by
  induction a with
  | nil => rfl
  | cons entry rest ih =>
    cases entry with
    | answer id key value => simp only [List.cons_append, keys, ih]
    | terminal event => simp only [List.cons_append, keys, ih]

theorem terminalsOf_append (a b : List (Entry κ α τ)) :
    terminalsOf (a ++ b) = terminalsOf a ++ terminalsOf b := by
  induction a with
  | nil => rfl
  | cons entry rest ih =>
    cases entry with
    | answer id key value => simp only [List.cons_append, terminalsOf, ih]
    | terminal event => simp only [List.cons_append, terminalsOf, ih]

theorem keys_length (entries : List (Entry κ α τ)) :
    (keys entries).length = (ids entries).length := by
  induction entries with
  | nil => rfl
  | cons entry rest ih =>
    cases entry with
    | answer id key value => simp only [keys, ids, List.length_cons, ih]
    | terminal event => exact ih

theorem dropOldest_lists (entries : List (Entry κ α τ)) :
    ids (dropOldest entries) = (ids entries).tail ∧
      keys (dropOldest entries) = (keys entries).tail ∧
      terminalsOf (dropOldest entries) = terminalsOf entries := by
  induction entries with
  | nil => exact ⟨rfl, rfl, rfl⟩
  | cons entry rest ih =>
    cases entry with
    | answer id key value => exact ⟨rfl, rfl, rfl⟩
    | terminal event =>
      obtain ⟨hids, hkeys, hterminals⟩ := ih
      exact ⟨hids, hkeys, congrArg (event :: ·) hterminals⟩

theorem refresh_lists (key : κ) (value : α) (entries : List (Entry κ α τ)) :
    ids (refresh key value entries) = ids entries ∧
      keys (refresh key value entries) = keys entries ∧
      terminalsOf (refresh key value entries) = terminalsOf entries := by
  induction entries with
  | nil => exact ⟨rfl, rfl, rfl⟩
  | cons entry rest ih =>
    obtain ⟨hids, hkeys, hterminals⟩ := ih
    cases entry with
    | answer id k v => simp only [refresh, ids, keys, terminalsOf, hids, hkeys, hterminals, and_self]
    | terminal event =>
      simp only [refresh, ids, keys, terminalsOf, hids, hkeys, hterminals, and_self]

theorem find_none (key : κ) (entries : List (Entry κ α τ)) :
    find key entries = none ↔ key ∉ keys entries := by
  induction entries with
  | nil => simp [find, keys]
  | cons entry rest ih =>
    cases entry with
    | answer id k v =>
      rw [find, keys, List.mem_cons]
      by_cases hk : k = key
      · simp [hk]
      · rw [if_neg hk, ih, or_iff_right (fun h => hk h.symm)]
    | terminal event => exact ih

theorem find_append (key : κ) (a b : List (Entry κ α τ)) :
    find key (a ++ b) = (find key a).or (find key b) := by
  induction a with
  | nil => simp [find]
  | cons entry rest ih =>
    cases entry with
    | answer id k v =>
      rw [List.cons_append, find, find, ih]
      split <;> rfl
    | terminal event => exact ih

theorem find_refresh (key other : κ) (value : α) (entries : List (Entry κ α τ)) :
    find other (refresh key value entries) =
      (find other entries).map fun iv => (iv.1, if other = key then value else iv.2) := by
  induction entries with
  | nil => rfl
  | cons entry rest ih =>
    cases entry with
    | answer id k v =>
      rw [refresh, find, find]
      by_cases hk : k = other
      · subst hk
        simp only [if_true, Option.map_some]
      · rw [if_neg hk, if_neg hk, ih]
    | terminal event => exact ih

theorem find_dropOldest (key : κ) (entries : List (Entry κ α τ))
    (hdistinct : (keys entries).Nodup) :
    find key (dropOldest entries) =
      if (keys entries).head? = some key then none else find key entries := by
  induction entries with
  | nil => simp [dropOldest, find]
  | cons entry rest ih =>
    cases entry with
    | answer id k v =>
      rw [keys] at hdistinct ⊢
      rw [dropOldest, List.head?_cons, find]
      by_cases hk : k = key
      · subst hk
        rw [if_pos rfl]
        exact (find_none k rest).mpr (List.nodup_cons.mp hdistinct).1
      · rw [if_neg (fun h => hk (Option.some.inj h)), if_neg hk]
    | terminal event => exact ih hdistinct

theorem find_mem (key : κ) (entries : List (Entry κ α τ)) (id : Nat) (value : α)
    (h : find key entries = some (id, value)) : id ∈ ids entries := by
  induction entries with
  | nil => cases h
  | cons entry rest ih =>
    cases entry with
    | answer i k v =>
      rw [find] at h
      rw [ids]
      by_cases hk : k = key
      · rw [if_pos hk] at h
        obtain ⟨rfl, rfl⟩ := Prod.mk.inj (Option.some.inj h)
        exact List.mem_cons_self
      · rw [if_neg hk] at h
        exact List.mem_cons_of_mem _ (ih h)
    | terminal event => exact ih h

namespace Ledger

variable (cap : Nat) (l : Ledger κ α τ)

theorem empty_balanced : (empty : Ledger κ α τ).Balanced cap :=
  ⟨Nat.zero_le _, rfl, Nat.le_refl 0, List.nodup_nil, List.Perm.refl _, rfl⟩

theorem refresh_balanced (h : l.Balanced cap) (key : κ)
    (value : α) : Balanced cap { l with entries := refresh key value l.entries } := by
  obtain ⟨hids, hkeys, hterminals⟩ := refresh_lists key value l.entries
  refine ⟨?_, ?_, ?_, ?_, ?_, ?_⟩
  · simp only [hids]
    exact h.room
  · simp only [hids]
    exact h.newest
  · simp only [hids]
    exact h.count
  · simp only [hkeys]
    exact h.distinct
  · simp only [hids]
    exact h.answers
  · simp only [hterminals]
    exact h.events

theorem evict_balanced (hcap : 0 < cap) (l : Ledger κ α τ) (h : l.Balanced cap) :
    (l.evict cap).Balanced cap ∧ (ids (l.evict cap).entries).length < cap ∧
      (l.evict cap).minted = l.minted := by
  rw [evict]
  split
  · rename_i hfull
    obtain ⟨hids, hkeys, hterminals⟩ := dropOldest_lists l.entries
    have hroom := h.room
    have hcount := h.count
    have hnewest := h.newest
    have hanswers := h.answers
    have hsize : (ids l.entries).length = cap := Nat.le_antisymm hroom hfull
    obtain ⟨n, hn⟩ := Nat.exists_eq_succ_of_ne_zero (Nat.pos_iff_ne_zero.mp (hsize ▸ hcap))
    refine ⟨⟨?_, ?_, ?_, ?_, ?_, ?_⟩, ?_, rfl⟩
    · simp only [hids, List.length_tail]
      omega
    · simp only [hids, List.length_tail]
      conv_lhs => rw [hnewest, hn, List.range'_succ, List.tail_cons]
      rw [hn, Nat.succ_sub_one]
      congr 1
      omega
    · simp only [hids, List.length_tail]
      omega
    · simp only [hkeys]
      exact h.distinct.sublist (List.tail_sublist _)
    · simp only [hids]
      cases hold : ids l.entries with
      | nil =>
        rw [hold] at hn
        cases hn
      | cons oldest rest =>
        rw [hold] at hanswers
        simp only [List.head?_cons, Option.toList_some, List.tail_cons]
        rw [List.append_assoc, List.append_assoc, List.singleton_append, ← List.append_assoc]
        exact hanswers
    · simp only [hterminals]
      exact h.events
    · simp only [hids, List.length_tail]
      omega
  · rename_i hroom
    exact ⟨h, Nat.lt_of_not_le hroom, rfl⟩

theorem evict_keys (key : κ) (h : key ∉ keys l.entries) :
    key ∉ keys (l.evict cap).entries := by
  rw [evict]
  split
  · rw [(dropOldest_lists l.entries).2.1]
    intro hmem
    exact h (List.mem_of_mem_tail hmem)
  · exact h

theorem mint_balanced (h : l.Balanced cap)
    (hroom : (ids l.entries).length < cap) (key : κ) (value : α) (hkey : key ∉ keys l.entries) :
    (l.mint key value).Balanced cap := by
  have hcount := h.count
  have hids : ids (l.mint key value).entries = ids l.entries ++ [l.minted] := by
    rw [mint, ids_append]
    rfl
  refine ⟨?_, ?_, ?_, ?_, ?_, ?_⟩
  · rw [hids, List.length_append]
    exact hroom
  · rw [hids, List.length_append, List.length_singleton, List.range'_append_1.symm]
    conv_lhs => rw [h.newest]
    have hfirst : l.minted + 1 - ((ids l.entries).length + 1) =
        l.minted - (ids l.entries).length := by omega
    have hlast : l.minted - (ids l.entries).length + (ids l.entries).length = l.minted := by omega
    rw [mint]
    simp only [hfirst, hlast, List.range'_one]
  · rw [hids, List.length_append, List.length_singleton]
    exact Nat.succ_le_succ hcount
  · rw [mint, keys_append]
    apply List.nodup_append.mpr
    refine ⟨h.distinct, List.nodup_singleton key, ?_⟩
    intro k hk k' hk' heq
    rw [List.mem_singleton.mp hk'] at heq
    exact hkey (heq ▸ hk)
  · rw [hids, mint, List.range_succ, ← List.append_assoc]
    exact h.answers.append_right [l.minted]
  · rw [mint, terminalsOf_append]
    simp only [terminalsOf, List.append_nil]
    exact h.events

theorem pushAnswer_balanced (hcap : 0 < cap) (l : Ledger κ α τ) (h : l.Balanced cap)
    (key : κ) (value : α) : (l.pushAnswer cap key value).Balanced cap := by
  rw [pushAnswer]
  split
  · exact refresh_balanced cap l h key value
  · rename_i hkey
    obtain ⟨hbalanced, hroom, -⟩ := evict_balanced cap hcap l h
    exact mint_balanced cap _ hbalanced hroom key value (evict_keys cap l key hkey)

theorem pushTerminal_balanced (h : l.Balanced cap) (event : τ) :
    (l.pushTerminal event).Balanced cap := by
  have hids : ids (l.pushTerminal event).entries = ids l.entries := by
    rw [pushTerminal, ids_append, ids, ids, List.append_nil]
  refine ⟨?_, ?_, ?_, ?_, ?_, ?_⟩
  · rw [hids]
    exact h.room
  · rw [hids]
    exact h.newest
  · rw [hids]
    exact h.count
  · rw [pushTerminal, keys_append, keys, keys, List.append_nil]
    exact h.distinct
  · rw [hids]
    exact h.answers
  · rw [pushTerminal, terminalsOf_append, ← List.append_assoc, h.events]
    rfl

theorem pop_balanced (h : l.Balanced cap) :
    l.pop.Balanced cap := by
  have hroom := h.room
  have hcount := h.count
  have hnewest := h.newest
  have hdistinct := h.distinct
  have hanswers := h.answers
  have hevents := h.events
  cases hentries : l.entries with
  | nil =>
    have hsame : l.pop = l := by
      rw [pop, hentries, List.head?_nil, Option.toList_none, List.append_nil, List.tail_nil,
        ← hentries]
    rw [hsame]
    exact h
  | cons entry rest =>
    rw [hentries] at hroom hcount hnewest hdistinct hanswers hevents
    have hpop : l.pop = { l with
        entries := rest
        delivered := l.delivered ++ [entry] } := by
      rw [pop, hentries]
      rfl
    rw [hpop]
    cases entry with
    | answer id key value =>
      rw [ids, List.length_cons] at hroom hcount
      rw [ids, List.length_cons, List.range'_succ] at hnewest
      refine ⟨Nat.le_of_succ_le hroom, ?_, Nat.le_of_succ_le hcount, ?_, ?_, ?_⟩
      · have hrest := (List.cons.inj hnewest).2
        have hfirst : l.minted - ((ids rest).length + 1) + 1 = l.minted - (ids rest).length := by
          omega
        rw [hfirst] at hrest
        exact hrest
      · rw [keys] at hdistinct
        exact (List.nodup_cons.mp hdistinct).2
      · rw [ids] at hanswers
        simp only [ids_append, ids]
        apply List.Perm.trans _ hanswers
        rw [List.append_assoc, List.append_assoc, List.append_assoc]
        apply List.Perm.append_left
        rw [List.singleton_append]
        exact List.perm_middle.symm
      · rw [terminalsOf] at hevents
        simp only [terminalsOf_append, terminalsOf, List.append_nil]
        exact hevents
    | terminal event =>
      rw [ids] at hroom hcount hnewest hanswers
      rw [keys] at hdistinct
      refine ⟨hroom, hnewest, hcount, hdistinct, ?_, ?_⟩
      · simp only [ids_append, ids, List.append_nil]
        exact hanswers
      · rw [terminalsOf] at hevents
        simp only [terminalsOf_append, terminalsOf, List.append_assoc, List.singleton_append]
        exact hevents

end Ledger
end
end EvictingQueue
