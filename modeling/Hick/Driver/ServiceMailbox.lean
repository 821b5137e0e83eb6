import Hick.Driver.Updates
import Hick.Lib.LatestOfKind

/-!
# The mailbox of a service (hick-reactor/src/service.rs:13-198, hick-compio/src/service.rs:34-228)

The driver fills it, the consumer drains it. Of the updates that do not end the service the latest
of each kind is kept, and the one that ends it has a place of its own.
-/

namespace Hick
open LatestOfKind

inductive UpdateKind where
  | established
  | renamed
  | conflict
  | hostConflict
  deriving DecidableEq

def ServiceUpdate.kind : ServiceUpdate → UpdateKind
  | established => .established
  | renamed _ => .renamed
  | conflict => .conflict
  | hostConflict => .hostConflict

structure ServiceMailbox where
  updates : List ServiceUpdate
  terminal : Option ServiceUpdate
  terminalDelivered : Bool
  deriving DecidableEq

namespace ServiceMailbox

inductive Drained where
  | update (u : ServiceUpdate)
  | ended
  | empty
  deriving DecidableEq

def new : ServiceMailbox := ⟨[], none, false⟩

def setTerminal (mb : ServiceMailbox) (terminal : ServiceUpdate) : ServiceMailbox :=
  if mb.terminal.isNone && !mb.terminalDelivered then { mb with terminal := some terminal } else mb

def boundedPushBack (capacity : Nat) (mb : ServiceMailbox) (upd : ServiceUpdate) :
    ServiceMailbox :=
  let updates := if capacity ≤ mb.updates.length then mb.updates.tail else mb.updates
  { mb with updates := updates ++ [upd] }

def pushUpdate (capacity : Nat) (mb : ServiceMailbox) (upd : ServiceUpdate) : ServiceMailbox :=
  match upd with
  | .conflict | .hostConflict => mb.setTerminal upd
  | .renamed _ =>
    boundedPushBack capacity { mb with
      updates := mb.updates.filter fun u => decide (u.kind ≠ .renamed) } upd
  | .established =>
    boundedPushBack capacity { mb with
      updates := mb.updates.filter fun u => decide (u.kind ≠ .established) } upd

def drain (mb : ServiceMailbox) : ServiceMailbox × Drained :=
  match mb.updates, mb.terminal with
  | upd :: rest, _ => ({ mb with updates := rest }, .update upd)
  | [], some terminal =>
    ({ mb with
      terminal := none
      terminalDelivered := true }, .update terminal)
  | [], none => (mb, if mb.terminalDelivered then .ended else .empty)

end ServiceMailbox

namespace Reactor

def serviceUpdateCapacity : Nat := 16

def ServiceMailbox.pushUpdate : ServiceMailbox → ServiceUpdate → ServiceMailbox :=
  Hick.ServiceMailbox.pushUpdate serviceUpdateCapacity

end Reactor

namespace Compio

def serviceUpdateCapacity : Nat := 16

def ServiceMailbox.pushUpdate : ServiceMailbox → ServiceUpdate → ServiceMailbox :=
  Hick.ServiceMailbox.pushUpdate serviceUpdateCapacity

end Compio

inductive MailboxAct where
  | push (upd : ServiceUpdate)
  | drain

structure MailboxLog where
  mailbox : ServiceMailbox
  pushed : List ServiceUpdate
  delivered : List ServiceUpdate
  deriving DecidableEq

namespace MailboxLog

def new : MailboxLog := ⟨ServiceMailbox.new, [], []⟩

def next (push : ServiceMailbox → ServiceUpdate → ServiceMailbox) (log : MailboxLog) :
    MailboxAct → MailboxLog
  | .push upd =>
    { log with
      mailbox := push log.mailbox upd
      pushed := log.pushed ++ [upd] }
  | .drain =>
    { log with
      mailbox := log.mailbox.drain.1
      delivered :=
        match log.mailbox.drain.2 with
        | .update upd => log.delivered ++ [upd]
        | .ended | .empty => log.delivered }

def after (push : ServiceMailbox → ServiceUpdate → ServiceMailbox) (acts : List MailboxAct) :
    MailboxLog :=
  acts.foldl (next push) new

end MailboxLog

def lively (updates : List ServiceUpdate) : List ServiceUpdate :=
  updates.filter fun u => !u.isTerminal

def terminals (updates : List ServiceUpdate) : List ServiceUpdate :=
  updates.filter ServiceUpdate.isTerminal

/-- The name a reader of these updates was told last, and whether it was told since that the service
is established. -/
def toldBy (updates : List ServiceUpdate) : Option Name × Bool :=
  updates.foldl (fun told upd =>
    match upd with
    | .renamed name => (some name, false)
    | .established => (told.1, true)
    | .conflict | .hostConflict => told) (none, false)

theorem toldBy_snoc (updates : List ServiceUpdate) (upd : ServiceUpdate) :
    toldBy (updates ++ [upd]) =
      match upd with
      | .renamed name => (some name, false)
      | .established => ((toldBy updates).1, true)
      | .conflict | .hostConflict => toldBy updates := by
  simp only [toldBy, List.foldl_append, List.foldl_cons, List.foldl_nil]

theorem toldBy_lively (updates : List ServiceUpdate) :
    toldBy (lively updates) = toldBy updates := by
  induction updates using List.reverseRecOn with
  | nil => rfl
  | append_singleton updates upd ih =>
    have hsplit : lively (updates ++ [upd]) = lively updates ++ lively [upd] := by
      simp only [lively, List.filter_append]
    rw [hsplit]
    cases upd with
    | established =>
      have hone : lively [.established] = [.established] := rfl
      rw [hone, toldBy_snoc, toldBy_snoc, ih]
    | renamed name =>
      have hone : lively [.renamed name] = [.renamed name] := rfl
      rw [hone, toldBy_snoc, toldBy_snoc]
    | conflict =>
      have hone : lively [.conflict] = [] := rfl
      rw [hone, List.append_nil, toldBy_snoc, ih]
    | hostConflict =>
      have hone : lively [.hostConflict] = [] := rfl
      rw [hone, List.append_nil, toldBy_snoc, ih]

theorem mem_lively (updates : List ServiceUpdate) (u : ServiceUpdate) :
    u ∈ lively updates ↔ u ∈ updates ∧ u.isTerminal = false := by
  simp [lively]

theorem toldBy_latest (updates : List ServiceUpdate) (h : ∀ u ∈ updates, u.isTerminal = false) :
    toldBy (latest ServiceUpdate.kind updates) = toldBy updates := by
  have hname : ∀ us : List ServiceUpdate,
      (toldBy (others ServiceUpdate.kind .established us)).1 = (toldBy us).1 := by
    intro us
    induction us using List.reverseRecOn with
    | nil => rfl
    | append_singleton us upd ih =>
      rw [others_append, toldBy_snoc]
      cases upd with
      | established =>
        have hone : others ServiceUpdate.kind .established [.established] = [] := rfl
        rw [hone, List.append_nil, ih]
      | renamed name =>
        have hone : others ServiceUpdate.kind .established [.renamed name] = [.renamed name] := rfl
        rw [hone, toldBy_snoc]
      | conflict =>
        have hone : others ServiceUpdate.kind .established [.conflict] = [.conflict] := rfl
        rw [hone, toldBy_snoc, ih]
      | hostConflict =>
        have hone : others ServiceUpdate.kind .established [.hostConflict] = [.hostConflict] := rfl
        rw [hone, toldBy_snoc, ih]
  induction updates using List.reverseRecOn with
  | nil => rfl
  | append_singleton us upd ih =>
    have hrest := ih fun u hu => h u (List.mem_append_left _ hu)
    have hupd := h upd (List.mem_append_right _ (List.mem_singleton.mpr rfl))
    rw [latest_snoc, put, toldBy_snoc, toldBy_snoc]
    cases upd with
    | established =>
      have hkeep := hname (latest ServiceUpdate.kind us)
      rw [hrest] at hkeep
      exact congrArg (fun name => (name, true)) hkeep
    | renamed name => rfl
    | conflict => cases hupd
    | hostConflict => cases hupd

theorem kinds_short (updates : List ServiceUpdate) (kinds : List UpdateKind)
    (hnodup : (updates.map ServiceUpdate.kind).Nodup) (h : ∀ u ∈ updates, u.kind ∈ kinds) :
    updates.length ≤ kinds.length := by
  have hsub : (updates.map ServiceUpdate.kind).Subperm kinds := by
    apply hnodup.subperm
    intro kind hkind
    obtain ⟨u, hu, rfl⟩ := List.mem_map.mp hkind
    exact h u hu
  have hle := hsub.length_le
  rwa [List.length_map] at hle

theorem lively_kinds (u v : ServiceUpdate) (hu : u.isTerminal = false) (hv : v.isTerminal = false)
    (hne : v.kind ≠ u.kind) :
    v.kind ∈ [if u.kind = .renamed then UpdateKind.established else UpdateKind.renamed] := by
  cases u <;> cases v <;> simp_all [ServiceUpdate.kind, ServiceUpdate.isTerminal]

theorem boundedPushBack_room (capacity : Nat) (mb : ServiceMailbox) (upd : ServiceUpdate)
    (h : mb.updates.length < capacity) :
    mb.boundedPushBack capacity upd = { mb with updates := mb.updates ++ [upd] } := by
  unfold ServiceMailbox.boundedPushBack
  rw [if_neg (Nat.not_le.mpr h)]

theorem pushUpdate_lively (capacity : Nat) (mb : ServiceMailbox) (upd : ServiceUpdate)
    (hcapacity : 2 ≤ capacity) (hnodup : (mb.updates.map ServiceUpdate.kind).Nodup)
    (hlively : ∀ u ∈ mb.updates, u.isTerminal = false) (hupd : upd.isTerminal = false) :
    mb.pushUpdate capacity upd =
      { mb with updates := put ServiceUpdate.kind upd mb.updates } := by
  have hshort : (others ServiceUpdate.kind upd.kind mb.updates).length < capacity := by
    have hone := kinds_short (others ServiceUpdate.kind upd.kind mb.updates)
      [if upd.kind = .renamed then UpdateKind.established else UpdateKind.renamed]
      (hnodup.sublist (List.filter_sublist.map ServiceUpdate.kind)) (by
        intro v hv
        obtain ⟨hin, hne⟩ := (mem_others ServiceUpdate.kind upd.kind mb.updates v).mp hv
        exact lively_kinds upd v hupd (hlively v hin) hne)
    rw [List.length_singleton] at hone
    omega
  cases upd with
  | established =>
    exact boundedPushBack_room capacity { mb with
      updates := others ServiceUpdate.kind .established mb.updates } _ hshort
  | renamed name =>
    exact boundedPushBack_room capacity { mb with
      updates := others ServiceUpdate.kind .renamed mb.updates } _ hshort
  | conflict => cases hupd
  | hostConflict => cases hupd

theorem pushUpdate_terminal (capacity : Nat) (mb : ServiceMailbox) (upd : ServiceUpdate)
    (hupd : upd.isTerminal = true) : mb.pushUpdate capacity upd = mb.setTerminal upd := by
  cases upd with
  | established => cases hupd
  | renamed name => cases hupd
  | conflict => rfl
  | hostConflict => rfl

/-- What was delivered and what is pending tell of the life of the service what was pushed, and of
its end the first that was pushed. -/
structure MailboxLog.Kept (log : MailboxLog) : Prop where
  tells : Tells ServiceUpdate.kind (lively log.pushed) (lively log.delivered) log.mailbox.updates
  ending : terminals log.delivered ++ log.mailbox.terminal.toList = (terminals log.pushed).take 1
  flag : log.mailbox.terminalDelivered = !(terminals log.delivered).isEmpty

namespace MailboxLog

theorem new_kept : new.Kept := ⟨Tells.empty, rfl, rfl⟩

theorem Kept.pending (log : MailboxLog) (h : log.Kept) (u : ServiceUpdate)
    (hu : u ∈ log.mailbox.updates) : u.isTerminal = false := by
  have hlatest := h.tells.suffix.subset hu
  have hpushed := (latest_sublist ServiceUpdate.kind _).subset hlatest
  exact ((mem_lively log.pushed u).mp hpushed).2

theorem Kept.terminal (log : MailboxLog) (h : log.Kept) (u : ServiceUpdate)
    (hu : log.mailbox.terminal = some u) : u.isTerminal = true := by
  have hending := h.ending
  have hin : u ∈ (terminals log.pushed).take 1 := by
    rw [← hending, hu]
    exact List.mem_append_right _ (List.mem_singleton.mpr rfl)
  exact (List.mem_filter.mp (List.mem_of_mem_take hin)).2

theorem lively_snoc (updates : List ServiceUpdate) (u : ServiceUpdate) :
    lively (updates ++ [u]) = if u.isTerminal then lively updates else lively updates ++ [u] := by
  cases h : u.isTerminal <;> simp [lively, h]

theorem terminals_snoc (updates : List ServiceUpdate) (u : ServiceUpdate) :
    terminals (updates ++ [u]) =
      if u.isTerminal then terminals updates ++ [u] else terminals updates := by
  cases h : u.isTerminal <;> simp [terminals, h]

theorem Kept.push (capacity : Nat) (hcapacity : 2 ≤ capacity) (log : MailboxLog) (h : log.Kept)
    (upd : ServiceUpdate) :
    (log.next (ServiceMailbox.pushUpdate capacity) (.push upd)).Kept := by
  cases hterminal : upd.isTerminal with
  | false =>
    have hpush := pushUpdate_lively capacity log.mailbox upd hcapacity h.tells.nodup h.pending
      hterminal
    unfold next
    dsimp only
    rw [hpush]
    constructor
    · dsimp only
      rw [lively_snoc, hterminal]
      exact h.tells.put _ _ _ upd
    · dsimp only
      rw [terminals_snoc, hterminal]
      exact h.ending
    · exact h.flag
  | true =>
    have hending := h.ending
    have hflag := h.flag
    unfold next
    dsimp only
    rw [pushUpdate_terminal capacity log.mailbox upd hterminal]
    unfold ServiceMailbox.setTerminal
    split
    · rename_i hopen
      rw [Bool.and_eq_true, Option.isNone_iff_eq_none, Bool.not_eq_true'] at hopen
      obtain ⟨hnone, hyet⟩ := hopen
      have hdelivered : terminals log.delivered = [] := by simpa [hyet] using hflag.symm
      rw [hdelivered, hnone] at hending
      have hpushed : terminals log.pushed = [] := by
        cases hp : terminals log.pushed with
        | nil => rfl
        | cons first more => rw [hp] at hending; cases hending
      constructor
      · dsimp only
        rw [lively_snoc, hterminal]
        exact h.tells
      · dsimp only
        rw [terminals_snoc, hterminal, hdelivered, hpushed]
        rfl
      · exact h.flag
    · rename_i hshut
      have hpushed : terminals log.pushed ≠ [] := by
        intro hp
        rw [hp, List.take_nil, List.append_eq_nil_iff] at hending
        apply hshut
        rw [hflag, hending.1, Option.toList_eq_nil_iff.mp hending.2]
        rfl
      constructor
      · dsimp only
        rw [lively_snoc, hterminal]
        exact h.tells
      · dsimp only
        rw [terminals_snoc, hterminal, if_pos rfl,
          List.take_append_of_le_length (List.length_pos_iff.mpr hpushed)]
        exact hending
      · exact h.flag

theorem Kept.drain (push : ServiceMailbox → ServiceUpdate → ServiceMailbox) (log : MailboxLog)
    (h : log.Kept) : (log.next push .drain).Kept := by
  have htells := h.tells
  have hending := h.ending
  have hflag := h.flag
  unfold next ServiceMailbox.drain
  cases hupdates : log.mailbox.updates with
  | cons upd rest =>
    have hlively := h.pending log upd (by rw [hupdates]; exact List.mem_cons_self)
    rw [hupdates] at htells
    constructor
    · dsimp only
      rw [lively_snoc, hlively]
      exact htells.take _ _ _ upd
    · dsimp only
      rw [terminals_snoc, hlively]
      exact hending
    · dsimp only
      rw [terminals_snoc, hlively]
      exact hflag
  | nil =>
    rw [hupdates] at htells
    cases hterminal : log.mailbox.terminal with
    | some terminal =>
      have hends := h.terminal log terminal hterminal
      rw [hterminal] at hending
      constructor
      · dsimp only
        rw [lively_snoc, hends]
        exact htells
      · dsimp only
        rw [terminals_snoc, hends, if_pos rfl, Option.toList_none, List.append_nil]
        exact hending
      · dsimp only
        rw [terminals_snoc, hends, if_pos rfl]
        simp
    | none =>
      have hsame : (match (if log.mailbox.terminalDelivered = true then
          ServiceMailbox.Drained.ended else .empty) with
          | .update upd => log.delivered ++ [upd]
          | .ended | .empty => log.delivered) = log.delivered := by
        split
        · rename_i upd heq
          split at heq <;> cases heq
        · rfl
        · rfl
      dsimp only
      rw [hsame]
      exact ⟨h.tells, h.ending, h.flag⟩

theorem after_snoc (push : ServiceMailbox → ServiceUpdate → ServiceMailbox)
    (acts : List MailboxAct) (act : MailboxAct) :
    after push (acts ++ [act]) = (after push acts).next push act := by
  simp only [after, List.foldl_append, List.foldl_cons, List.foldl_nil]

theorem after_kept (capacity : Nat) (hcapacity : 2 ≤ capacity) (acts : List MailboxAct) :
    (after (ServiceMailbox.pushUpdate capacity) acts).Kept := by
  induction acts using List.reverseRecOn with
  | nil => exact new_kept
  | append_singleton acts act ih =>
    rw [after_snoc]
    cases act with
    | push upd => exact ih.push capacity hcapacity _ upd
    | drain => exact ih.drain _ _

theorem after_any_capacity (c d : Nat) (hc : 2 ≤ c) (hd : 2 ≤ d) (acts : List MailboxAct) :
    after (ServiceMailbox.pushUpdate c) acts = after (ServiceMailbox.pushUpdate d) acts := by
  induction acts using List.reverseRecOn with
  | nil => rfl
  | append_singleton acts act ih =>
    have hkept := after_kept d hd acts
    rw [after_snoc, after_snoc, ih]
    cases act with
    | drain => rfl
    | push upd =>
      unfold next
      dsimp only
      cases hterminal : upd.isTerminal with
      | false =>
        rw [pushUpdate_lively c _ upd hc hkept.tells.nodup hkept.pending hterminal,
          pushUpdate_lively d _ upd hd hkept.tells.nodup hkept.pending hterminal]
      | true => rw [pushUpdate_terminal c _ upd hterminal, pushUpdate_terminal d _ upd hterminal]

theorem next_delivered (push : ServiceMailbox → ServiceUpdate → ServiceMailbox) (log : MailboxLog)
    (act : MailboxAct) : log.delivered <+: (log.next push act).delivered := by
  unfold next
  cases act with
  | push upd => exact List.prefix_rfl
  | drain =>
    dsimp only
    split
    · exact List.prefix_append _ _
    · exact List.prefix_rfl
    · exact List.prefix_rfl

theorem next_waits (capacity : Nat) (hcapacity : 2 ≤ capacity) (log : MailboxLog) (h : log.Kept)
    (act : MailboxAct) (u : ServiceUpdate) (hu : u ∈ log.mailbox.updates) :
    u ∈ (log.next (ServiceMailbox.pushUpdate capacity) act).mailbox.updates ∨
      (log.next (ServiceMailbox.pushUpdate capacity) act).delivered = log.delivered ++ [u] ∨
      ∃ v, act = .push v ∧ v.kind = u.kind := by
  cases act with
  | push upd =>
    by_cases hkind : upd.kind = u.kind
    · exact Or.inr (Or.inr ⟨upd, rfl, hkind⟩)
    · left
      unfold next
      dsimp only
      cases hterminal : upd.isTerminal with
      | false =>
        rw [pushUpdate_lively capacity log.mailbox upd hcapacity h.tells.nodup h.pending hterminal]
        apply List.mem_append_left
        exact (mem_others _ _ _ _).mpr ⟨hu, fun heq => hkind heq.symm⟩
      | true =>
        rw [pushUpdate_terminal capacity log.mailbox upd hterminal]
        unfold ServiceMailbox.setTerminal
        split
        · exact hu
        · exact hu
  | drain =>
    unfold next ServiceMailbox.drain
    cases hupdates : log.mailbox.updates with
    | nil =>
      rw [hupdates] at hu
      cases hu
    | cons upd rest =>
      rw [hupdates] at hu
      rcases List.mem_cons.mp hu with rfl | hrest
      · exact Or.inr (Or.inl rfl)
      · exact Or.inl hrest

theorem after_append (push : ServiceMailbox → ServiceUpdate → ServiceMailbox)
    (before later : List MailboxAct) :
    after push (before ++ later) = later.foldl (next push) (after push before) := by
  simp only [after, List.foldl_append]

theorem after_delivered (push : ServiceMailbox → ServiceUpdate → ServiceMailbox)
    (before later : List MailboxAct) :
    (after push before).delivered <+: (after push (before ++ later)).delivered := by
  induction later using List.reverseRecOn with
  | nil => rw [List.append_nil]
  | append_singleton later act ih =>
    rw [← List.append_assoc, after_snoc]
    exact ih.trans (next_delivered push _ act)

theorem after_waits (capacity : Nat) (hcapacity : 2 ≤ capacity) (before later : List MailboxAct)
    (u : ServiceUpdate)
    (hu : u ∈ (after (ServiceMailbox.pushUpdate capacity) before).mailbox.updates) :
    u ∈ (after (ServiceMailbox.pushUpdate capacity) (before ++ later)).mailbox.updates ∨
      u ∈ (after (ServiceMailbox.pushUpdate capacity) (before ++ later)).delivered.drop
        (after (ServiceMailbox.pushUpdate capacity) before).delivered.length ∨
      ∃ v, .push v ∈ later ∧ v.kind = u.kind := by
  induction later using List.reverseRecOn with
  | nil =>
    rw [List.append_nil]
    exact Or.inl hu
  | append_singleton later act ih =>
    have hkept := after_kept capacity hcapacity (before ++ later)
    have hsince := after_delivered (ServiceMailbox.pushUpdate capacity) before later
    rw [← List.append_assoc, after_snoc]
    rcases ih with hwaits | hdelivered | ⟨v, hv, hkind⟩
    · rcases next_waits capacity hcapacity _ hkept act u hwaits with hstill | hnow | ⟨v, rfl, hkind⟩
      · exact Or.inl hstill
      · right
        left
        rw [hnow, List.drop_append_of_le_length hsince.length_le]
        exact List.mem_append_right _ (List.mem_singleton.mpr rfl)
      · exact Or.inr (Or.inr ⟨v, List.mem_append_right _ (List.mem_singleton.mpr rfl), hkind⟩)
    · right
      left
      obtain ⟨more, hmore⟩ := next_delivered (ServiceMailbox.pushUpdate capacity)
        (after (ServiceMailbox.pushUpdate capacity) (before ++ later)) act
      rw [← hmore, List.drop_append_of_le_length hsince.length_le]
      exact List.mem_append_left _ hdelivered
    · exact Or.inr (Or.inr ⟨v, List.mem_append_left _ hv, hkind⟩)

theorem drains_out (push : ServiceMailbox → ServiceUpdate → ServiceMailbox) (log : MailboxLog) :
    ∃ n, ∀ u, ((List.replicate n MailboxAct.drain).foldl (next push) log).mailbox.drain.2 ≠
      .update u := by
  have hturn : ∀ (n : ℕ) (log : MailboxLog),
      log.mailbox.updates.length + log.mailbox.terminal.toList.length = n →
      ∀ u, ((List.replicate n MailboxAct.drain).foldl (next push) log).mailbox.drain.2 ≠
        .update u := by
    intro n
    induction n with
    | zero =>
      intro log hn u
      have hupdates : log.mailbox.updates = [] := List.length_eq_zero_iff.mp (by omega)
      have hterminal : log.mailbox.terminal = none :=
        Option.toList_eq_nil_iff.mp (List.length_eq_zero_iff.mp (by omega))
      rw [List.replicate_zero, List.foldl_nil]
      unfold ServiceMailbox.drain
      rw [hupdates, hterminal]
      dsimp only
      split
      · nofun
      · nofun
    | succ n ih =>
      intro log hn
      rw [List.replicate_succ, List.foldl_cons]
      apply ih
      unfold next ServiceMailbox.drain
      cases hupdates : log.mailbox.updates with
      | cons upd rest =>
        rw [hupdates, List.length_cons] at hn
        dsimp only
        omega
      | nil =>
        cases hterminal : log.mailbox.terminal with
        | some terminal =>
          rw [hupdates, hterminal] at hn
          exact Nat.succ_injective hn
        | none =>
          rw [hupdates, hterminal] at hn
          cases hn
  exact ⟨_, hturn _ log rfl⟩

theorem drained_dry (mb : ServiceMailbox) (h : ∀ u, mb.drain.2 ≠ .update u) :
    mb.updates = [] ∧ mb.terminal = none := by
  unfold ServiceMailbox.drain at h
  cases hupdates : mb.updates with
  | cons upd rest =>
    rw [hupdates] at h
    exact absurd rfl (h upd)
  | nil =>
    cases hterminal : mb.terminal with
    | some terminal =>
      rw [hupdates, hterminal] at h
      exact absurd rfl (h terminal)
    | none => exact ⟨rfl, rfl⟩

end MailboxLog

/-- For every order of pushes and drains the two crates have the same mailbox and have delivered the
same. -/
theorem service_mailboxes_keep_the_latest (acts : List MailboxAct) :
    let log := MailboxLog.after Reactor.ServiceMailbox.pushUpdate acts
    MailboxLog.after Compio.ServiceMailbox.pushUpdate acts = log ∧
    log.mailbox.updates <:+ latest ServiceUpdate.kind (lively log.pushed) ∧
    ((∀ u, log.mailbox.drain.2 ≠ .update u) →
      toldBy log.delivered = toldBy log.pushed ∧
      terminals log.delivered = (terminals log.pushed).take 1) ∧
    (∃ n, ∀ u, (MailboxLog.after Reactor.ServiceMailbox.pushUpdate
      (acts ++ List.replicate n .drain)).mailbox.drain.2 ≠ .update u) ∧
    terminals log.delivered ++ log.mailbox.terminal.toList = (terminals log.pushed).take 1 ∧
    (∀ u, log.mailbox.drain.2 = .update u → u.isTerminal = true → log.mailbox.updates = []) ∧
    ∀ before later, acts = before ++ later →
      ∀ u ∈ (MailboxLog.after Reactor.ServiceMailbox.pushUpdate before).mailbox.updates,
        u ∈ log.mailbox.updates ∨
        u ∈ log.delivered.drop
          (MailboxLog.after Reactor.ServiceMailbox.pushUpdate before).delivered.length ∨
        ∃ v, .push v ∈ later ∧ v.kind = u.kind := by
  intro log
  have hroom : 2 ≤ Reactor.serviceUpdateCapacity := by decide
  have hkept : log.Kept := MailboxLog.after_kept Reactor.serviceUpdateCapacity hroom acts
  have hsame := MailboxLog.after_any_capacity Compio.serviceUpdateCapacity
    Reactor.serviceUpdateCapacity (by decide) hroom acts
  refine ⟨hsame, hkept.tells.suffix, ?_, ?_, hkept.ending, ?_, ?_⟩
  · intro hdry
    obtain ⟨hupdates, hterminal⟩ := MailboxLog.drained_dry log.mailbox hdry
    have htells := hkept.tells
    have hending := hkept.ending
    rw [hupdates] at htells
    rw [hterminal, Option.toList_none, List.append_nil] at hending
    refine ⟨?_, hending⟩
    have halive : ∀ (updates : List ServiceUpdate), ∀ u ∈ lively updates, u.isTerminal = false :=
      fun updates u hu => ((mem_lively updates u).mp hu).2
    calc toldBy log.delivered
        = toldBy (latest ServiceUpdate.kind (lively log.delivered)) := by
          rw [toldBy_latest _ (halive _), toldBy_lively]
      _ = toldBy (latest ServiceUpdate.kind (lively log.pushed)) := by rw [htells.all]
      _ = toldBy log.pushed := by rw [toldBy_latest _ (halive _), toldBy_lively]
  · obtain ⟨n, hn⟩ := MailboxLog.drains_out Reactor.ServiceMailbox.pushUpdate log
    refine ⟨n, ?_⟩
    rw [MailboxLog.after_append]
    exact hn
  · intro u hu hends
    unfold ServiceMailbox.drain at hu
    cases hupdates : log.mailbox.updates with
    | nil => rfl
    | cons upd rest =>
      have hlively := hkept.pending log upd (by rw [hupdates]; exact List.mem_cons_self)
      rw [hupdates] at hu
      cases hu
      rw [hends] at hlively
      cases hlively
  · intro before later hacts u hu
    have hwaits := MailboxLog.after_waits Reactor.serviceUpdateCapacity hroom before later u hu
    rw [← hacts] at hwaits
    exact hwaits

end Hick
