import Hick.Mio.EventQueue

/-!
# The event queue is a bounded queue (hick-mio/src/event.rs:150-435)

The slots carry the generations of the answers in the order they were given a place, so a slot and
an answer that is still queued have one generation only where they belong together: the queue cannot
hold so many slots that a generation comes round again.
-/

namespace Hick
open Octets Wire EvictingQueue Runs

namespace EventQueue

abbrev Books := Ledger AnswerKey CollectedAnswer Event

def generationOf (id : Nat) : UInt64 := UInt64.ofNat id

def shown : Entry AnswerKey CollectedAnswer Event → Event
  | .answer _ key answer => .queryAnswer key.handle answer
  | .terminal event => event

/-- `Lists m i slots entries`: the answer slots have the numbers from `i` to `m`, one after the
other, and those that are not stale list the entries. -/
inductive Lists (m : Nat) : Nat → List Slot → List (Entry AnswerKey CollectedAnswer Event) → Prop
  | nil : Lists m m [] []
  | terminal (i : Nat) (slots : List Slot) (entries : List (Entry AnswerKey CollectedAnswer Event))
    (event : Event) (rest : Lists m i slots entries) :
    Lists m i (.terminal event :: slots) (.terminal event :: entries)
  | live (i : Nat) (slots : List Slot) (entries : List (Entry AnswerKey CollectedAnswer Event))
    (key : AnswerKey) (answer : CollectedAnswer) (rest : Lists m (i + 1) slots entries) :
    Lists m i (.answer key (generationOf i) :: slots) (.answer i key answer :: entries)
  | stale (i : Nat) (slots : List Slot) (entries : List (Entry AnswerKey CollectedAnswer Event))
    (key : AnswerKey) (rest : Lists m (i + 1) slots entries) :
    Lists m i (.answer key (generationOf i) :: slots) entries

def Finds (live : AList fun _ : AnswerKey => LiveAnswer)
    (entries : List (Entry AnswerKey CollectedAnswer Event)) : Prop :=
  ∀ key, live.lookup key = (find key entries).map fun iv => ⟨generationOf iv.1, iv.2⟩

structure Keeps (q : EventQueue) (l : Books) : Prop where
  balanced : l.Balanced answerCapacity
  lists : ∃ i, Lists l.minted i q.queue l.entries
  finds : Finds q.live l.entries
  order : q.order = keys l.entries
  minted : q.nextGeneration = generationOf l.minted
  dropped : q.dropped.toNat = min l.evicted.length (2 ^ 64 - 1)
  size : q.queue.length < 2 ^ 64

theorem generationOf_inj (i j : Nat) (hle : i ≤ j) (hlt : j - i < 2 ^ 64)
    (h : generationOf i = generationOf j) : i = j := by
  have hmod := congrArg UInt64.toNat h
  rw [generationOf, generationOf, UInt64.toNat_ofNat', UInt64.toNat_ofNat'] at hmod
  omega

theorem generationOf_succ (i : Nat) : generationOf i + 1 = generationOf (i + 1) := by
  apply UInt64.toNat_inj.mp
  rw [UInt64.toNat_add, generationOf, generationOf, UInt64.toNat_ofNat', UInt64.toNat_ofNat']
  simp

variable (m : Nat)

theorem Lists.bounds (i : Nat) (slots : List Slot)
    (entries : List (Entry AnswerKey CollectedAnswer Event)) (h : Lists m i slots entries) :
    i ≤ m ∧ m - i ≤ slots.length ∧ ∀ id ∈ ids entries, i ≤ id ∧ id < m := by
  induction h with
  | nil => exact ⟨Nat.le_refl m, by simp, by simp [ids]⟩
  | terminal i slots entries event rest ih =>
    obtain ⟨hle, hlen, hids⟩ := ih
    exact ⟨hle, by simp only [List.length_cons]; omega, hids⟩
  | live i slots entries key answer rest ih =>
    obtain ⟨hle, hlen, hids⟩ := ih
    refine ⟨by omega, by simp only [List.length_cons]; omega, ?_⟩
    intro id hid
    rw [ids, List.mem_cons] at hid
    rcases hid with rfl | hid
    · omega
    · have hbound := hids id hid
      omega
  | stale i slots entries key rest ih =>
    obtain ⟨hle, hlen, hids⟩ := ih
    refine ⟨by omega, by simp only [List.length_cons]; omega, ?_⟩
    intro id hid
    have hbound := hids id hid
    omega

theorem Lists.length (i : Nat) (slots : List Slot)
    (entries : List (Entry AnswerKey CollectedAnswer Event)) (h : Lists m i slots entries) :
    slots.length = (m - i) + (terminalsOf entries).length := by
  induction h with
  | nil => simp [terminalsOf]
  | terminal i slots entries event rest ih =>
    rw [terminalsOf, List.length_cons, List.length_cons, ih]
    omega
  | live i slots entries key answer rest ih =>
    have hle := rest.bounds.1
    rw [terminalsOf, List.length_cons, ih]
    omega
  | stale i slots entries key rest ih =>
    have hle := rest.bounds.1
    rw [List.length_cons, ih]
    omega

theorem Lists.mint (i : Nat) (slots : List Slot)
    (entries : List (Entry AnswerKey CollectedAnswer Event)) (h : Lists m i slots entries)
    (key : AnswerKey) (answer : CollectedAnswer) :
    Lists (m + 1) i (slots ++ [.answer key (generationOf m)])
      (entries ++ [.answer m key answer]) := by
  induction h with
  | nil => exact .live m [] [] key answer .nil
  | terminal i slots entries event rest ih => exact .terminal i _ _ event ih
  | live i slots entries k a rest ih => exact .live i _ _ k a ih
  | stale i slots entries k rest ih => exact .stale i _ _ k ih

theorem Lists.pushTerminal (i : Nat) (slots : List Slot)
    (entries : List (Entry AnswerKey CollectedAnswer Event)) (h : Lists m i slots entries)
    (event : Event) : Lists m i (slots ++ [.terminal event]) (entries ++ [.terminal event]) := by
  induction h with
  | nil => exact .terminal m [] [] event .nil
  | terminal i slots entries event' rest ih => exact .terminal i _ _ event' ih
  | live i slots entries k a rest ih => exact .live i _ _ k a ih
  | stale i slots entries k rest ih => exact .stale i _ _ k ih

theorem Lists.refresh (i : Nat) (slots : List Slot)
    (entries : List (Entry AnswerKey CollectedAnswer Event)) (h : Lists m i slots entries)
    (key : AnswerKey) (answer : CollectedAnswer) :
    Lists m i slots (EvictingQueue.refresh key answer entries) := by
  induction h with
  | nil => exact .nil
  | terminal i slots entries event rest ih => exact .terminal i _ _ event ih
  | live i slots entries k a rest ih => exact .live i _ _ k _ ih
  | stale i slots entries k rest ih => exact .stale i _ _ k ih

theorem Lists.dropOldest (i : Nat) (slots : List Slot)
    (entries : List (Entry AnswerKey CollectedAnswer Event)) (h : Lists m i slots entries) :
    Lists m i slots (EvictingQueue.dropOldest entries) := by
  induction h with
  | nil => exact .nil
  | terminal i slots entries event rest ih => exact .terminal i _ _ event ih
  | live i slots entries k a rest ih => exact .stale i _ _ k rest
  | stale i slots entries k rest ih => exact .stale i _ _ k ih

variable (q : EventQueue) (l : Books) (live : AList fun _ : AnswerKey => LiveAnswer)
  (entries : List (Entry AnswerKey CollectedAnswer Event))

theorem Finds.keys_perm (h : Finds live entries)
    (hdistinct : (keys entries).Nodup) : live.keys.Perm (keys entries) := by
  rw [List.perm_ext_iff_of_nodup live.keys_nodup hdistinct]
  intro key
  rw [← AList.mem_keys, ← AList.lookup_isSome, h key, Option.isSome_map]
  rw [← Option.ne_none_iff_isSome, ne_eq, find_none, not_not]

theorem Finds.length (h : Finds live entries)
    (hdistinct : (keys entries).Nodup) : live.keys.length = (ids entries).length := by
  rw [(h.keys_perm live entries hdistinct).length_eq, keys_length]

theorem lookup_restored (key other : AnswerKey)
    (answer : LiveAnswer) (h : live.lookup key = some answer) :
    ((live.erase key).insert key answer).lookup other = live.lookup other := by
  by_cases hk : other = key
  · rw [hk, AList.lookup_insert, h]
  · rw [AList.lookup_insert_ne hk, AList.lookup_erase_ne hk]

theorem new_keeps : Keeps new Ledger.empty where
  balanced := Ledger.empty_balanced answerCapacity
  lists := ⟨0, .nil⟩
  finds _ := rfl
  order := rfl
  minted := rfl
  dropped := rfl
  size := by decide

theorem evictOldest_keeps (h : Keeps q l) :
    Keeps q.evictOldest (l.evict answerCapacity) := by
  have hcap : 0 < answerCapacity := by decide
  obtain ⟨hbalanced, -, hminted⟩ := Ledger.evict_balanced answerCapacity hcap l h.balanced
  rw [evictOldest, h.finds.length q.live l.entries h.balanced.distinct]
  rw [Ledger.evict] at hbalanced hminted ⊢
  split
  · rename_i hfull
    rw [if_pos hfull] at hbalanced hminted
    obtain ⟨i, hlists⟩ := h.lists
    have horder := h.order
    have hsize := keys_length l.entries
    cases hkeys : keys l.entries with
    | nil =>
      rw [hkeys, List.length_nil] at hsize
      omega
    | cons victim rest =>
      rw [hkeys] at horder hsize
      simp only [horder]
      cases hids : ids l.entries with
      | nil =>
        rw [hids] at hfull
        exact absurd hfull (by decide)
      | cons oldest others =>
      refine ⟨by rw [← hids]; exact hbalanced, ⟨i, hlists.dropOldest l.minted i _ _⟩, ?_, ?_,
        h.minted, ?_, h.size⟩
      · intro key
        rw [find_dropOldest key l.entries h.balanced.distinct, hkeys, List.head?_cons]
        by_cases hk : key = victim
        · rw [hk, AList.lookup_erase, if_pos rfl]
          rfl
        · rw [AList.lookup_erase_ne hk, if_neg (fun heq => hk (Option.some.inj heq).symm)]
          exact h.finds key
      · rw [(dropOldest_lists l.entries).2.1, hkeys]
        rfl
      · have hdropped := h.dropped
        rw [List.length_append, List.head?_cons, Option.toList_some, List.length_singleton]
        simp only [saturatingSucc64_toNat]
        omega
  · exact h

theorem pushAnswer_keeps (h : Keeps q l) (handle : QueryHandle)
    (answer : CollectedAnswer) (hfits : q.physicalLen + 1 < 2 ^ 64) :
    Keeps (q.pushAnswer handle answer)
      (l.pushAnswer answerCapacity (keyOf handle answer) answer) := by
  have hcap : 0 < answerCapacity := by decide
  have hbalanced := Ledger.pushAnswer_balanced answerCapacity hcap l h.balanced
    (keyOf handle answer) answer
  rw [pushAnswer]
  rw [Ledger.pushAnswer] at hbalanced ⊢
  rw [h.finds]
  cases hfind : find (keyOf handle answer) l.entries with
  | some iv =>
    have hmem : keyOf handle answer ∈ keys l.entries := by
      by_contra hmem
      rw [(find_none _ _).mpr hmem] at hfind
      cases hfind
    rw [if_pos hmem] at hbalanced ⊢
    rw [Option.map_some]
    simp only
    obtain ⟨i, hlists⟩ := h.lists
    refine ⟨hbalanced, ⟨i, hlists.refresh l.minted i _ _ _ _⟩, ?_, ?_, h.minted, h.dropped, h.size⟩
    · intro key
      rw [find_refresh]
      by_cases hk : key = keyOf handle answer
      · rw [hk, AList.lookup_insert, hfind]
        simp
      · rw [AList.lookup_insert_ne hk, h.finds key]
        simp only [if_neg hk, Prod.mk.eta, Option.map_id']
    · exact h.order.trans (refresh_lists _ _ l.entries).2.1.symm
  | none =>
    have hmem := (find_none _ _).mp hfind
    rw [if_neg hmem] at hbalanced ⊢
    have hevicted := evictOldest_keeps q l h
    have hout := Ledger.evict_keys answerCapacity l _ hmem
    have hqueue : q.evictOldest.queue = q.queue := by
      rw [evictOldest]
      split
      · split <;> rfl
      · rfl
    obtain ⟨i, hlists⟩ := hevicted.lists
    rw [Option.map_none]
    simp only
    rw [hevicted.minted]
    refine ⟨hbalanced, ⟨i, hlists.mint _ i _ _ _ answer⟩, ?_, ?_, generationOf_succ _,
      hevicted.dropped, ?_⟩
    · intro key
      rw [Ledger.mint, find_append]
      by_cases hk : key = keyOf handle answer
      · rw [hk, AList.lookup_insert, (find_none _ _).mpr hout, find, if_pos rfl]
        rfl
      · rw [AList.lookup_insert_ne hk, hevicted.finds key, find, if_neg (Ne.symm hk), find,
          Option.or_none]
    · rw [Ledger.mint, keys_append, hevicted.order]
      rfl
    · rw [List.length_append, hqueue]
      exact hfits

theorem pushTerminal_keeps (h : Keeps q l) (event : Event)
    (hfits : q.physicalLen + 1 < 2 ^ 64) :
    Keeps (q.pushTerminal event) (l.pushTerminal event) := by
  obtain ⟨i, hlists⟩ := h.lists
  refine ⟨Ledger.pushTerminal_balanced answerCapacity l h.balanced event,
    ⟨i, hlists.pushTerminal l.minted i _ _ event⟩, ?_, ?_, h.minted, h.dropped, ?_⟩
  · intro key
    rw [Ledger.pushTerminal, find_append, find, find, Option.or_none]
    exact h.finds key
  · rw [Ledger.pushTerminal, keys_append, keys, keys, List.append_nil]
    exact h.order
  · rw [pushTerminal, List.length_append]
    exact hfits

theorem popFrom_spec (i : Nat)
    (slots : List Slot) (hlists : Lists m i slots entries) (hfew : m - i < 2 ^ 64)
    (hdistinct : (keys entries).Nodup) (q : EventQueue) (hfinds : Finds q.live entries)
    (horder : q.order = keys entries) :
    (q.popFrom slots).1 = entries.head?.map shown ∧
      (∃ j, i ≤ j ∧ Lists m j (q.popFrom slots).2.queue entries.tail) ∧
      Finds (q.popFrom slots).2.live entries.tail ∧
      (q.popFrom slots).2.order = keys entries.tail ∧
      (q.popFrom slots).2.nextGeneration = q.nextGeneration ∧
      (q.popFrom slots).2.dropped = q.dropped ∧
      (q.popFrom slots).2.queue.length ≤ slots.length := by
  induction hlists generalizing q with
  | nil =>
    exact ⟨rfl, ⟨m, Nat.le_refl m, .nil⟩, hfinds, horder, rfl, rfl, Nat.le_refl 0⟩
  | terminal i slots entries event rest ih =>
    exact ⟨rfl, ⟨i, Nat.le_refl i, rest⟩, hfinds, horder, rfl, rfl, Nat.le_succ _⟩
  | live i slots entries key answer rest ih =>
    have hlookup := hfinds key
    rw [find, if_pos rfl] at hlookup
    have hpop : q.popFrom (.answer key (generationOf i) :: slots) =
        (some (.queryAnswer key.handle answer), { q with
          queue := slots
          order := q.order.tail
          live := q.live.erase key }) := by
      rw [popFrom, hlookup, Option.map_some]
      simp only [if_true]
    rw [hpop]
    rw [keys] at hdistinct horder
    obtain ⟨hkey, -⟩ := List.nodup_cons.mp hdistinct
    refine ⟨rfl, ⟨i + 1, Nat.le_succ i, rest⟩, ?_, ?_, rfl, rfl, Nat.le_succ _⟩
    · intro other
      by_cases hk : other = key
      · rw [hk, AList.lookup_erase, List.tail_cons, (find_none key entries).mpr hkey]
        rfl
      · rw [AList.lookup_erase_ne hk, hfinds other, find, if_neg (Ne.symm hk)]
        rfl
    · rw [horder]
      rfl
  | stale i slots entries key rest ih =>
    have hlen : (Slot.answer key (generationOf i) :: slots).length = slots.length + 1 := rfl
    obtain ⟨hle, -, hids⟩ := rest.bounds
    have hlookup := hfinds key
    rw [popFrom]
    cases hfind : find key entries with
    | none =>
      rw [hfind] at hlookup
      rw [hlookup, Option.map_none]
      simp only
      obtain ⟨hitem, ⟨j, hj, hrest⟩, hstill, horder', hgen, hdrop, hsize⟩ :=
        ih (by omega) hdistinct q hfinds horder
      exact ⟨hitem, ⟨j, by omega, hrest⟩, hstill, horder', hgen, hdrop, by omega⟩
    | some iv =>
      obtain ⟨id, answer⟩ := iv
      -- a newer answer under this key: its number, and so its generation, is another one
      have hbound := hids id (find_mem key entries id answer hfind)
      have hother : generationOf id ≠ generationOf i := by
        intro heq
        have hsame := generationOf_inj i id (by omega) (by omega) heq.symm
        omega
      rw [hfind, Option.map_some] at hlookup
      rw [hlookup]
      simp only [if_neg hother]
      have hrestored : Finds ((q.live.erase key).insert key ⟨generationOf id, answer⟩) entries := by
        intro other
        rw [lookup_restored q.live key other _ hlookup]
        exact hfinds other
      obtain ⟨hitem, ⟨j, hj, hrest⟩, hstill, horder', hgen, hdrop, hsize⟩ :=
        ih (by omega) hdistinct
          { q with live := (q.live.erase key).insert key ⟨generationOf id, answer⟩ } hrestored horder
      exact ⟨hitem, ⟨j, by omega, hrest⟩, hstill, horder', hgen, hdrop, by omega⟩

theorem pop_keeps (h : Keeps q l) :
    q.pop.1 = l.entries.head?.map shown ∧ Keeps q.pop.2 l.pop := by
  obtain ⟨i, hlists⟩ := h.lists
  obtain ⟨-, hfew, -⟩ := hlists.bounds
  have hsize := h.size
  obtain ⟨hitem, ⟨j, -, hrest⟩, hfinds, horder, hgen, hdrop, hlen⟩ :=
    popFrom_spec l.minted l.entries i q.queue hlists (by omega) h.balanced.distinct q h.finds h.order
  refine ⟨hitem, Ledger.pop_balanced answerCapacity l h.balanced, ⟨j, hrest⟩, hfinds, horder, ?_, ?_,
    ?_⟩
  · exact hgen.trans h.minted
  · rw [pop, hdrop]
    exact h.dropped
  · rw [pop]
    omega

theorem newest_cons (i n : Nat) (rest : List Nat) (hle : n ≤ m)
    (h : i :: rest = List.range' (m - n) n) :
    i = m - n ∧ n = rest.length + 1 ∧ rest = List.range' (m - rest.length) rest.length := by
  have hlen := congrArg List.length h
  rw [List.length_cons, List.length_range'] at hlen
  subst hlen
  rw [List.range'_succ] at h
  obtain ⟨hfirst, hrest⟩ := List.cons.inj h
  refine ⟨hfirst, rfl, ?_⟩
  have hnext : m - (rest.length + 1) + 1 = m - rest.length := by omega
  rw [hnext] at hrest
  exact hrest

theorem Lists.compacted (lowest first : Nat) (keep : Slot → Bool)
    (hterminal : ∀ event, keep (.terminal event) = true)
    (hstale : ∀ j key, lowest ≤ j → j < first → keep (.answer key (generationOf j)) = false)
    (i : Nat) (hlowest : lowest ≤ i) (slots : List Slot) (entries : List (Entry AnswerKey CollectedAnswer Event))
    (h : Lists m i slots entries)
    (hkept : ∀ j key answer, Entry.answer j key answer ∈ entries →
      keep (.answer key (generationOf j)) = true)
    (hcount : (ids entries).length ≤ m)
    (hnewest : ids entries = List.range' (m - (ids entries).length) (ids entries).length)
    (hfirst : m - (ids entries).length = first ∨ i = m - (ids entries).length) :
    Lists m (m - (ids entries).length) (slots.filter keep) entries := by
  induction h with
  | nil => exact .nil
  | terminal i slots entries event rest ih =>
    rw [List.filter_cons_of_pos (hterminal event)]
    apply Lists.terminal
    exact ih hlowest (fun j key answer hmem => hkept j key answer (List.mem_cons_of_mem _ hmem))
      hcount hnewest hfirst
  | live i slots entries key answer rest ih =>
    rw [List.filter_cons_of_pos (hkept i key answer List.mem_cons_self)]
    simp only [ids] at hcount hnewest ⊢
    obtain ⟨hi, -, hrest⟩ := newest_cons m i _ (ids entries) hcount hnewest
    rw [← hi]
    rw [List.length_cons] at hcount hi
    have hnext : m - (ids entries).length = i + 1 := by omega
    apply Lists.live
    rw [← hnext]
    exact ih (Nat.le_succ_of_le hlowest)
      (fun j k a hmem => hkept j k a (List.mem_cons_of_mem _ hmem)) (by omega) hrest
      (Or.inr hnext.symm)
  | stale i slots entries key rest ih =>
    -- the queued answers all have later numbers, so this one is before the first of them
    have hearlier : i < m - (ids entries).length := by
      obtain ⟨hle, -, hids⟩ := rest.bounds
      cases hlist : ids entries with
      | nil =>
        simp only [List.length_nil]
        omega
      | cons j others =>
        rw [hlist] at hcount hnewest hids
        obtain ⟨hj, -, -⟩ := newest_cons m j _ others hcount hnewest
        have hbound := (hids j List.mem_cons_self).1
        omega
    have hold : i < first := by omega
    rw [List.filter_cons_of_neg (by rw [hstale i key hlowest hold]; exact Bool.false_ne_true)]
    exact ih (Nat.le_succ_of_le hlowest) hkept hcount hnewest (Or.inl (by omega))

theorem find_of_mem (j : Nat)
    (key : AnswerKey) (answer : CollectedAnswer) (hdistinct : (keys entries).Nodup)
    (h : Entry.answer j key answer ∈ entries) : find key entries = some (j, answer) := by
  induction entries with
  | nil => cases h
  | cons entry rest ih =>
    cases entry with
    | answer i k a =>
      rw [keys] at hdistinct
      rw [find]
      rcases List.mem_cons.mp h with heq | hmem
      · cases heq
        rw [if_pos rfl]
      · obtain ⟨hk, hrest⟩ := List.nodup_cons.mp hdistinct
        have hfound := ih hrest hmem
        by_cases hkey : k = key
        · rw [hkey, ← find_none, hfound] at hk
          cases hk
        · rw [if_neg hkey]
          exact hfound
    | terminal event =>
      rcases List.mem_cons.mp h with heq | hmem
      · cases heq
      · exact ih hdistinct hmem

theorem compact_lists (h : Keeps q l) :
    Lists l.minted (l.minted - (ids l.entries).length) q.compact.queue l.entries := by
  obtain ⟨i, hlists⟩ := h.lists
  obtain ⟨-, hfew, -⟩ := hlists.bounds
  have hsize := h.size
  have hstale : ∀ j key, i ≤ j → j < l.minted - (ids l.entries).length →
      q.isCurrent (.answer key (generationOf j)) = false := by
    intro j key hj hfirst
    rw [isCurrent, h.finds]
    cases hfind : find key l.entries with
    | none => rfl
    | some iv =>
      obtain ⟨id, answer⟩ := iv
      have hmem := find_mem key l.entries id answer hfind
      rw [h.balanced.newest, List.mem_range'_1] at hmem
      have hother : generationOf id ≠ generationOf j := by
        intro heq
        have hsame := generationOf_inj j id (by omega) (by omega) heq.symm
        omega
      simp [hother]
  have hkept : ∀ j key answer, Entry.answer j key answer ∈ l.entries →
      q.isCurrent (.answer key (generationOf j)) = true := by
    intro j key answer hmem
    rw [isCurrent, h.finds, find_of_mem l.entries j key answer h.balanced.distinct hmem]
    simp
  exact hlists.compacted l.minted i (l.minted - (ids l.entries).length) q.isCurrent (fun _ => rfl)
    hstale i (Nat.le_refl i) q.queue l.entries hkept h.balanced.count h.balanced.newest (Or.inl rfl)

theorem compact_keeps (h : Keeps q l) : Keeps q.compact l :=
  ⟨h.balanced, ⟨_, compact_lists q l h⟩, h.finds, h.order, h.minted, h.dropped,
    lt_of_le_of_lt (List.length_filter_le _ _) h.size⟩

def op : Call → Option (Op AnswerKey CollectedAnswer Event)
  | .pushAnswer handle answer => some (.answer (keyOf handle answer) answer)
  | .pushTerminal event => some (.terminal event)
  | .pop => some .pop
  | .compact => none

def bookkeep (l : Books) (tr : Transition EventQueue Call) : Books :=
  match op tr.call with
  | some op => l.step answerCapacity op
  | none => l

def books (ts : List (Transition EventQueue Call)) : Books := summary bookkeep Ledger.empty ts

def delivers (tr : Transition EventQueue Call) : Option Event :=
  match tr.call with
  | .pop => tr.pre.pop.1
  | _ => none

def deliveries (ts : List (Transition EventQueue Call)) : List Event := ts.filterMap delivers

def ends (tr : Transition EventQueue Call) : Option Event :=
  match tr.call with
  | .pushTerminal event => some event
  | _ => none

def pushedTerminals (ts : List (Transition EventQueue Call)) : List Event := ts.filterMap ends

def mints (tr : Transition EventQueue Call) : Bool :=
  match tr.call with
  | .pushAnswer handle answer => (tr.pre.live.lookup (keyOf handle answer)).isNone
  | _ => false

theorem next_keeps (c : Call) (h : Keeps q l) (hfits : q.fits c) :
    Keeps (q.next c) (bookkeep l (machine.transition q c)) := by
  cases c with
  | pushAnswer handle answer => exact pushAnswer_keeps q l h handle answer hfits
  | pushTerminal event => exact pushTerminal_keeps q l h event hfits
  | pop => exact (pop_keeps q l h).2
  | compact => exact compact_keeps q l h

theorem run_keeps (ts : List (Transition EventQueue Call)) (s : EventQueue)
    (run : Run machine ts s) : Keeps s (books ts) := by
  apply run.invariant machine bookkeep Ledger.empty (fun l q => Keeps q l) (fun _ => True)
  · rintro q rfl
    exact new_keeps
  · intro l q c h hfits _
    exact next_keeps q l c h hfits
  · intro _ _
    trivial

theorem minted_step (c : Call) (h : Keeps q l) :
    (bookkeep l (machine.transition q c)).minted =
      l.minted + if mints (machine.transition q c) then 1 else 0 := by
  cases c with
  | pushAnswer handle answer =>
    have hlookup := h.finds (keyOf handle answer)
    simp only [mints, Machine.transition, bookkeep, op, Ledger.step, Ledger.pushAnswer, hlookup,
      Option.isNone_map]
    cases hfind : find (keyOf handle answer) l.entries with
    | none =>
      rw [if_neg ((find_none _ _).mp hfind), Ledger.mint, Ledger.evict]
      split <;> rfl
    | some iv =>
      have hmem : keyOf handle answer ∈ keys l.entries := by
        by_contra hmem
        rw [(find_none _ _).mpr hmem] at hfind
        cases hfind
      rw [if_pos hmem]
      rfl
  | pushTerminal event => rfl
  | pop => rfl
  | compact => rfl

theorem delivered_step (c : Call) (h : Keeps q l) :
    (bookkeep l (machine.transition q c)).delivered.map shown =
      l.delivered.map shown ++ (delivers (machine.transition q c)).toList := by
  cases c with
  | pushAnswer handle answer =>
    simp only [delivers, Machine.transition, bookkeep, op, Ledger.step, Ledger.pushAnswer,
      Option.toList_none, List.append_nil]
    split
    · rfl
    · rw [Ledger.mint, Ledger.evict]
      split <;> rfl
  | pushTerminal event => exact (List.append_nil _).symm
  | pop =>
    have hitem := (pop_keeps q l h).1
    simp only [delivers, Machine.transition, bookkeep, op, Ledger.step, Ledger.pop, hitem,
      List.map_append]
    cases l.entries.head? <;> rfl
  | compact => exact (List.append_nil _).symm

theorem terminals_step (c : Call) :
    (bookkeep l (machine.transition q c)).terminals =
      l.terminals ++ (ends (machine.transition q c)).toList := by
  cases c with
  | pushAnswer handle answer =>
    simp only [ends, Machine.transition, bookkeep, op, Ledger.step, Ledger.pushAnswer,
      Option.toList_none, List.append_nil]
    split
    · rfl
    · rw [Ledger.mint, Ledger.evict]
      split <;> rfl
  | pushTerminal event => rfl
  | pop => exact (List.append_nil _).symm
  | compact => exact (List.append_nil _).symm

theorem books_of_run (ts : List (Transition EventQueue Call)) (s : EventQueue)
    (run : Run machine ts s) : (books ts).minted = ts.countP mints ∧
      (books ts).delivered.map shown = deliveries ts ∧
      (books ts).terminals = pushedTerminals ts := by
  induction run with
  | start s h => exact ⟨rfl, rfl, rfl⟩
  | step ts s c run h ih =>
    obtain ⟨hminted, hdelivered, hterminals⟩ := ih
    have hkeeps := run_keeps ts s run
    have hbooks : books (ts ++ [machine.transition s c]) =
        bookkeep (books ts) (machine.transition s c) := summary_snoc bookkeep _ ts _
    rw [hbooks, minted_step s _ c hkeeps, delivered_step s _ c hkeeps, terminals_step s, hminted,
      hdelivered, hterminals, List.countP_append, deliveries, deliveries, pushedTerminals,
      pushedTerminals, List.filterMap_append, List.filterMap_append]
    refine ⟨?_, ?_, ?_⟩
    · rw [List.countP_singleton]
    · rw [List.filterMap_cons, List.filterMap_nil]
      cases delivers (machine.transition s c) <;> rfl
    · rw [List.filterMap_cons, List.filterMap_nil]
      cases ends (machine.transition s c) <;> rfl

theorem order_generations (h : Keeps q l) :
    q.order.map (fun key => (q.live.lookup key).map LiveAnswer.generation) =
      (List.range' (l.minted - q.order.length) q.order.length).map (some ∘ generationOf) := by
  have hmap : ∀ entries : List (Entry AnswerKey CollectedAnswer Event), (keys entries).Nodup →
      (keys entries).map (fun key => (find key entries).map Prod.fst) =
        (ids entries).map some := by
    intro entries
    induction entries with
    | nil =>
      intro _
      rfl
    | cons entry rest ih =>
      cases entry with
      | answer id k a =>
        intro hdistinct
        rw [keys] at hdistinct ⊢
        obtain ⟨hk, hrest⟩ := List.nodup_cons.mp hdistinct
        rw [ids, List.map_cons, List.map_cons, find, if_pos rfl, ← ih hrest]
        congr 1
        apply List.map_congr_left
        intro key hkey
        have hne : k ≠ key := by
          rintro rfl
          exact hk hkey
        rw [find, if_neg hne]
      | terminal event => exact ih
  have hids := hmap l.entries h.balanced.distinct
  have hgenerations := congrArg (List.map (Option.map generationOf)) hids
  rw [List.map_map, List.map_map] at hgenerations
  rw [h.order, keys_length]
  conv_rhs => rw [← h.balanced.newest]
  refine Eq.trans ?_ hgenerations
  apply List.map_congr_left
  intro key _
  rw [h.finds, Function.comp_apply, Option.map_map, Option.map_map]
  rfl

/-- In every run the queue hands out what a bounded queue of 1024 coalescing answers hands out, and
holds what it holds; its map and its order have the same keys, oldest generation first. -/
theorem event_queue_is_bounded_queue (ts : List (Transition EventQueue Call)) (s : EventQueue)
    (run : Run machine ts s) :
    (deliveries ts = (books ts).delivered.map shown ∧
      s.pop.1 = (books ts).entries.head?.map shown ∧
      ∀ key, s.live.lookup key =
        (find key (books ts).entries).map fun iv => ⟨generationOf iv.1, iv.2⟩) ∧
    (s.live.keys.length ≤ answerCapacity ∧ s.order.Nodup ∧
      (∀ key, key ∈ s.live ↔ key ∈ s.order) ∧ s.order = keys (books ts).entries ∧
      s.order.map (fun key => (s.live.lookup key).map LiveAnswer.generation) =
        (List.range' ((books ts).minted - s.order.length) s.order.length).map
          (some ∘ generationOf)) ∧
    ((books ts).minted = ts.countP mints ∧
      (ids (books ts).delivered ++ (books ts).evicted ++ ids (books ts).entries).Perm
        (List.range (books ts).minted) ∧
      s.dropped.toNat = min (books ts).evicted.length (2 ^ 64 - 1)) ∧
    terminalsOf (books ts).delivered ++ terminalsOf (books ts).entries = pushedTerminals ts := by
  have hkeeps := run_keeps ts s run
  obtain ⟨hminted, hdelivered, hterminals⟩ := books_of_run ts s run
  have hdistinct := hkeeps.balanced.distinct
  refine ⟨⟨hdelivered.symm, (pop_keeps s _ hkeeps).1, hkeeps.finds⟩,
    ⟨?_, ?_, ?_, hkeeps.order, order_generations s _ hkeeps⟩,
    ⟨hminted, hkeeps.balanced.answers, hkeeps.dropped⟩, ?_⟩
  · rw [hkeeps.finds.length s.live _ hdistinct]
    exact hkeeps.balanced.room
  · rw [hkeeps.order]
    exact hdistinct
  · intro key
    rw [AList.mem_keys, (hkeeps.finds.keys_perm s.live _ hdistinct).mem_iff, hkeeps.order]
  · rw [hkeeps.balanced.events, hterminals]

def txtAnswer (n : Nat) : CollectedAnswer := ⟨.txt, .in_, List.replicate n 0, none, UInt64.ofNat n⟩

instance (q : EventQueue) (c : Call) : Decidable (machine.admits q c) := by
  unfold machine fits
  cases c <;> infer_instance

def pushedTwice : List Call :=
  [.pushAnswer ⟨1⟩ (txtAnswer 1), .pushTerminal (.queryTerminal ⟨2⟩ .timeout),
    .pushAnswer ⟨1⟩ (txtAnswer 1), .pop]

theorem pushed_twice_run :
    Run machine (machine.trace new pushedTwice) (machine.play new pushedTwice) := by
  have hplay := Run.play machine [] new (.start _ rfl) pushedTwice (by decide +kernel)
  rw [List.nil_append] at hplay
  exact hplay

theorem pushed_twice_is_queued_once :
    (deliveries (machine.trace new pushedTwice)).length = 1 ∧
      (machine.trace new pushedTwice).countP mints = 1 := by
  obtain ⟨⟨hdelivered, -, -⟩, -, ⟨hminted, -, -⟩, -⟩ :=
    event_queue_is_bounded_queue _ _ pushed_twice_run
  rw [hdelivered, ← hminted]
  decide +kernel

theorem evictOldest_mem (key : AnswerKey) (h : key ∈ q.evictOldest.live) :
    key ∈ q.live := by
  rw [evictOldest] at h
  split at h
  · split at h
    · exact (AList.mem_erase.mp h).2
    · exact h
  · exact h

theorem pushAnswer_mem (handle : QueryHandle) (answer : CollectedAnswer)
    (key : AnswerKey) (h : key ∈ (q.pushAnswer handle answer).live) :
    key = keyOf handle answer ∨ key ∈ q.live := by
  rw [pushAnswer] at h
  simp only at h
  split at h
  · exact (AList.mem_insert _).mp h
  · rcases (AList.mem_insert _).mp h with heq | hmem
    · exact Or.inl heq
    · exact Or.inr (evictOldest_mem q key hmem)

theorem flood (n : Nat) : ∃ ts s, Run machine ts s ∧ ts.countP mints = n ∧ deliveries ts = [] ∧
    pushedTerminals ts = [] ∧ (∀ key ∈ s.live, ∃ j < n, key = keyOf ⟨1⟩ (txtAnswer j)) ∧
    s.queue.length ≤ answerCapacity := by
  induction n with
  | zero =>
    refine ⟨[], new, .start _ rfl, rfl, rfl, rfl, ?_, by decide⟩
    intro key hkey
    cases hkey
  | succ n ih =>
    obtain ⟨ts, s, run, hminted, hdelivered, hterminals, hlive, hlen⟩ := ih
    have hfits : s.fits (.pushAnswer ⟨1⟩ (txtAnswer n)) := by
      rw [answerCapacity] at hlen
      rw [fits, physicalLen]
      omega
    have hnew : s.live.lookup (keyOf ⟨1⟩ (txtAnswer n)) = none := by
      rw [AList.lookup_eq_none]
      intro hmem
      obtain ⟨j, hj, hkey⟩ := hlive _ hmem
      have hrdata := congrArg (fun key => key.rdataKey.length) hkey
      simp [keyOf, txtAnswer, CollectedAnswer.key] at hrdata
      omega
    have hpushed := Run.step ts s (.pushAnswer ⟨1⟩ (txtAnswer n)) run hfits
    have hcompacted := Run.step _ _ EventQueue.Call.compact hpushed trivial
    refine ⟨_, _, hcompacted, ?_, ?_, ?_, ?_, ?_⟩
    · rw [List.countP_append, List.countP_append, hminted, List.countP_singleton,
        List.countP_singleton]
      simp [mints, Machine.transition, hnew]
    · rw [deliveries, List.filterMap_append, List.filterMap_append]
      rw [deliveries] at hdelivered
      rw [hdelivered]
      rfl
    · rw [pushedTerminals, List.filterMap_append, List.filterMap_append]
      rw [pushedTerminals] at hterminals
      rw [hterminals]
      rfl
    · intro key hkey
      rcases pushAnswer_mem s ⟨1⟩ (txtAnswer n) key hkey with rfl | hmem
      · exact ⟨n, Nat.lt_succ_self n, rfl⟩
      · obtain ⟨j, hj, rfl⟩ := hlive key hmem
        exact ⟨j, Nat.lt_succ_of_lt hj, rfl⟩
    · have hkeeps := run_keeps _ _ hpushed
      obtain ⟨-, -, hbooks⟩ := books_of_run _ _ hpushed
      have hnone : pushedTerminals (ts ++ [machine.transition s
          (.pushAnswer ⟨1⟩ (txtAnswer n))]) = [] := by
        rw [pushedTerminals, List.filterMap_append]
        rw [pushedTerminals] at hterminals
        rw [hterminals]
        rfl
      have hevents := hkeeps.balanced.events
      rw [hbooks, hnone] at hevents
      have hempty := (List.append_eq_nil_iff.mp hevents).2
      have hslots := (compact_lists _ _ hkeeps).length
      rw [hempty] at hslots
      have hroom := hkeeps.balanced.room
      have hcount := hkeeps.balanced.count
      rw [List.length_nil] at hslots
      change (compact _).queue.length ≤ answerCapacity
      rw [hslots]
      omega

def isAnswer : Event → Bool
  | .queryAnswer _ _ => true
  | _ => false

/-- Past `2 ^ 64` evictions the count no longer tells what was lost. -/
theorem dropped_stops_counting :
    ¬ ∀ (ts : List (Transition EventQueue Call)) (s : EventQueue), Run machine ts s →
      ts.countP mints = (deliveries ts).countP isAnswer + s.dropped.toNat + s.live.keys.length := by
  intro h
  obtain ⟨ts, s, run, hminted, hdelivered, -, -, -⟩ := flood (2 ^ 64 + answerCapacity)
  have hbalance := h ts s run
  have hkeeps := run_keeps ts s run
  have hroom := hkeeps.balanced.room
  rw [← hkeeps.finds.length s.live _ hkeeps.balanced.distinct] at hroom
  have hdropped := s.dropped.toNat_lt
  rw [hminted, hdelivered, List.countP_nil] at hbalance
  omega

end EventQueue
end Hick
