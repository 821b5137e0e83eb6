import Hick.Reactor.DriverTask

/-!
# The driver over its runs (hick-reactor/src/driver/mod.rs:2706-2990)

A receive task that gives up leaves the endpoint working for as long as some other has not.
-/

set_option linter.unusedSectionVars false

namespace Hick
open Runs

namespace Reactor
namespace DriverTask
variable {H : Type} [DecidableEq H]

def countFamily (f : Family) (n : Nat) (t : Transition (DriverTask H) (TaskCall H)) : Nat :=
  match t.call with
  | .receive g o => if g = f then RecvTask.countTransient n o else n
  | _ => n

def transientsSince (f : Family) (ts : List (Transition (DriverTask H) (TaskCall H))) : Nat :=
  summary (countFamily f) 0 ts

def sentCommand (t : Transition (DriverTask H) (TaskCall H)) : List (Command H) :=
  match t.call with
  | .send c => [c]
  | _ => []

def Asks (c : Command H) (h : H) : Prop :=
  c = .unregisterService h ∨ c = .registerService h .abandoned

def Caused (t : Transition (DriverTask H) (TaskCall H)) (h : H) : Prop :=
  ∃ causes morePending, t.call = .endPass causes morePending ∧ h ∈ causes

/-- Whenever the driver parks there is a command or a packet for it, or a receive task that may
still send one, or it has no handle left. -/
def Attended (t : Transition (DriverTask H) (TaskCall H)) : Prop :=
  ∀ timer, t.call = .wake timer →
    t.pre.commands ≠ [] ∨ t.pre.senders = 0 ∨ 0 < t.pre.packets ∨ t.pre.Hears

def FlagsReport (ts : List (Transition (DriverTask H) (TaskCall H))) (d : DriverTask H) : Prop :=
  ∀ f task, d.tasks f = some task →
    (task.deaf = true ↔ task.status = .failed ∨
      deafAfterConsecutiveTransientRecvErrors ≤ transientsSince f ts)

/-- For as long as it has a handle the driver stays in its loop, wakes for its timer, answers each
command in its turn, and withdraws what it was told to. -/
structure Alive (ts : List (Transition (DriverTask H) (TaskCall H))) (d : DriverTask H) : Prop where
  stays : ∀ t ∈ ts, 0 < t.post.senders → t.post.phase ≠ .left
  fires : ∀ t ∈ ts, t.call = .wake true → 0 < t.post.senders → t.post.phase = .top
  wakes : ∀ t ∈ ts, ∀ timer c rest, t.call = .wake timer → t.pre.commands = c :: rest →
    t.post.answered = t.pre.answered ++ [c]
  answers : ts.flatMap sentCommand = d.answered ++ d.commands
  keeps : 0 < d.senders → ∀ h ∈ d.withdrawn,
    (∃ c ∈ d.answered, Asks c h) ∨ ∃ t ∈ ts, Caused t h

variable (d : DriverTask H) (picks : H → Bool)

theorem mem_withdraw (h : H)
    (hmem : h ∈ (d.withdraw picks).withdrawn) : h ∈ d.withdrawn ∨ picks h = true := by
  cases List.mem_append.mp hmem with
  | inl hold => exact Or.inl hold
  | inr hnew => exact Or.inr (List.mem_filter.mp hnew).2

structure Handled (d d' : DriverTask H) (c : Command H) : Prop where
  commands : d'.commands = d.commands
  senders : d'.senders = d.senders
  phase : d'.phase = d.phase
  answered : d'.answered = d.answered ++ [c]
  withdrawn : ∀ h ∈ d'.withdrawn, h ∈ d.withdrawn ∨ Asks c h

theorem handleCommand_spec (c : Command H) : Handled d (d.handleCommand c) c := by
  have hpicked (base : DriverTask H) (hbase : base.withdrawn = d.withdrawn) (h' : H)
      (hasks : Asks c h') (h : H) (hmem : h ∈ (base.withdraw (· == h')).withdrawn) :
      h ∈ d.withdrawn ∨ Asks c h := by
    cases mem_withdraw base _ h hmem with
    | inl hold =>
      rw [hbase] at hold
      exact Or.inl hold
    | inr hpick =>
      rw [eq_of_beq hpick]
      exact Or.inr hasks
  cases c with
  | registerService h outcome =>
    cases outcome with
    | replied => exact ⟨rfl, rfl, rfl, rfl, fun h hmem => Or.inl hmem⟩
    | refused => exact ⟨rfl, rfl, rfl, rfl, fun h hmem => Or.inl hmem⟩
    | abandoned =>
      exact ⟨rfl, rfl, rfl, rfl,
        hpicked { d with services := d.services ++ [h] } rfl h (Or.inr rfl)⟩
  | unregisterService h => exact ⟨rfl, rfl, rfl, rfl, hpicked d rfl h (Or.inl rfl)⟩
  | other => exact ⟨rfl, rfl, rfl, rfl, fun h hmem => Or.inl hmem⟩

/-- What becomes of the books of a driver between two of its states. `Extra` are the services a pass
found to retire. -/
structure Settled (d d' : DriverTask H) (Extra : H → Prop) : Prop where
  queue : d'.answered ++ d'.commands = d.answered ++ d.commands
  heard : ∀ c ∈ d.answered, c ∈ d'.answered
  senders : 0 < d'.senders → 0 < d.senders
  kept : 0 < d'.senders → ∀ h ∈ d'.withdrawn,
    h ∈ d.withdrawn ∨ (∃ c ∈ d'.answered, Asks c h) ∨ Extra h
  leaves : 0 < d'.senders → d'.phase ≠ .left

theorem Settled.trans (d d' d'' : DriverTask H) (Extra : H → Prop) (h : Settled d d' Extra)
    (h' : Settled d' d'' Extra) : Settled d d'' Extra where
  queue := h'.queue.trans h.queue
  heard := fun c hc => h'.heard c (h.heard c hc)
  senders := fun hpos => h.senders (h'.senders hpos)
  kept := by
    intro hpos x hx
    rcases h'.kept hpos x hx with hold | hasks | hextra
    · rcases h.kept (h'.senders hpos) x hold with hold | ⟨c, hc, hask⟩ | hextra
      · exact Or.inl hold
      · exact Or.inr (Or.inl ⟨c, h'.heard c hc, hask⟩)
      · exact Or.inr (Or.inr hextra)
    · exact Or.inr (Or.inl hasks)
    · exact Or.inr (Or.inr hextra)
  leaves := h'.leaves

theorem Settled.handle (c : Command H) (rest : List (Command H))
    (hcommands : d.commands = c :: rest) (hphase : d.phase ≠ .left) (Extra : H → Prop) :
    Settled d (({ d with commands := rest } : DriverTask H).handleCommand c) Extra := by
  have hspec := handleCommand_spec { d with commands := rest } c
  constructor
  · rw [hspec.answered, hspec.commands, hcommands, List.append_assoc, List.singleton_append]
  · intro x hx
    rw [hspec.answered]
    exact List.mem_append_left _ hx
  · intro hpos
    rw [hspec.senders] at hpos
    exact hpos
  · intro _ x hx
    cases hspec.withdrawn x hx with
    | inl hold => exact Or.inl hold
    | inr hasks =>
      right
      left
      use c
      constructor
      · rw [hspec.answered]
        exact List.mem_append_right _ (List.mem_singleton.mpr rfl)
      · exact hasks
  · intro _
    rw [hspec.phase]
    exact hphase

theorem Settled.still (d d' : DriverTask H) (Extra : H → Prop)
    (hcommands : d'.commands = d.commands)
    (hanswered : d'.answered = d.answered) (hwithdrawn : d'.withdrawn = d.withdrawn)
    (hsenders : 0 < d'.senders → 0 < d.senders) (hphase : 0 < d'.senders → d'.phase ≠ .left) :
    Settled d d' Extra where
  queue := by rw [hanswered, hcommands]
  heard := by
    intro c hc
    rw [hanswered]
    exact hc
  senders := hsenders
  kept := by
    intro _ x hx
    rw [hwithdrawn] at hx
    exact Or.inl hx
  leaves := hphase

theorem Settled.goTo (phase : Phase) (hphase : phase ≠ .left)
    (Extra : H → Prop) : Settled d { d with phase := phase } Extra := by
  apply Settled.still
  · rfl
  · rfl
  · rfl
  · exact id
  · intro _
    exact hphase

theorem Settled.leave (hsenders : d.senders = 0) (Extra : H → Prop) :
    Settled d d.leave Extra where
  queue := rfl
  heard := fun _ hc => hc
  senders := id
  kept := fun hpos => absurd hsenders (Nat.pos_iff_ne_zero.mp hpos)
  leaves := fun hpos => absurd hsenders (Nat.pos_iff_ne_zero.mp hpos)

theorem drainCommands_settled (fuel : Nat) (d : DriverTask H) (hphase : d.phase ≠ .left)
    (Extra : H → Prop) : Settled d (drainCommands fuel d) Extra := by
  induction fuel generalizing d with
  | zero => exact Settled.goTo d .top nofun Extra
  | succ fuel ih =>
    unfold drainCommands
    split
    · rename_i c rest hcommands
      have hfirst := Settled.handle d c rest hcommands hphase Extra
      apply hfirst.trans
      apply ih
      rw [(handleCommand_spec { d with commands := rest } c).phase]
      exact hphase
    · split
      · rename_i hsenders
        exact Settled.leave d hsenders Extra
      · exact Settled.goTo d .top nofun Extra

theorem endPass_settled (causes : List H) (morePending : Bool)
    (hphase : d.phase ≠ .left) (Extra : H → Prop) (hextra : ∀ h ∈ causes, Extra h) :
    Settled d (d.endPass causes morePending) Extra := by
  have hwithdraw : Settled d (d.withdraw fun h => causes.contains h) Extra := by
    constructor
    · rfl
    · intro c hc
      exact hc
    · exact id
    · intro _ x hx
      cases mem_withdraw d _ x hx with
      | inl hold => exact Or.inl hold
      | inr hpick => exact Or.inr (Or.inr (hextra x (by simpa using hpick)))
    · intro _
      exact hphase
  apply hwithdraw.trans
  unfold endPass
  dsimp only
  split
  · exact drainCommands_settled _ (d.withdraw fun h => causes.contains h) hphase Extra
  · exact Settled.goTo (d.withdraw fun h => causes.contains h) .parked nofun Extra

theorem hears_iff : d.Hears ↔ d.recvEnded = false := by
  have hsplit (f : Family) :
      (d.tasks f).all RecvTask.ended = false ↔ ∃ t, d.tasks f = some t ∧ t.ended = false := by
    cases d.tasks f with
    | none => simp
    | some t => simp
  simp only [recvEnded, Bool.and_eq_false_iff, hsplit]
  constructor
  · intro ⟨f, t, ht⟩
    cases f with
    | v4 => exact Or.inl ⟨t, ht⟩
    | v6 => exact Or.inr ⟨t, ht⟩
  · intro h
    cases h with
    | inl h => exact ⟨.v4, h⟩
    | inr h => exact ⟨.v6, h⟩

theorem wake_settled (timer : Bool) (hphase : d.phase ≠ .left)
    (hattended : d.commands ≠ [] ∨ d.senders = 0 ∨ 0 < d.packets ∨ d.Hears) (Extra : H → Prop) :
    Settled d (d.wake timer) Extra := by
  unfold wake
  split
  · rename_i c rest hcommands
    apply (Settled.handle d c rest hcommands hphase Extra).trans
    exact Settled.goTo _ .top nofun Extra
  · rename_i hnone
    split
    · rename_i hsenders
      exact Settled.leave d hsenders Extra
    · rename_i hsenders
      split
      · exact Settled.still d _ Extra rfl rfl rfl id fun _ h => nomatch h
      · rename_i hpackets
        have hhears : d.Hears := by
          rcases hattended with hc | hs | hp | hh
          · exact absurd hnone hc
          · exact absurd hs hsenders
          · exact absurd hp hpackets
          · exact hh
        rw [if_neg (by rw [(hears_iff d).mp hhears]; nofun)]
        split
        · exact Settled.goTo d .top nofun Extra
        · exact Settled.still d d Extra rfl rfl rfl id fun _ => hphase

theorem wake_top (hpos : 0 < d.senders)
    (hattended : d.commands ≠ [] ∨ d.senders = 0 ∨ 0 < d.packets ∨ d.Hears) :
    (d.wake true).phase = .top := by
  unfold wake
  split
  · rfl
  · rename_i hnone
    rw [if_neg (Nat.pos_iff_ne_zero.mp hpos)]
    split
    · rfl
    · rename_i hpackets
      have hhears : d.Hears := by
        rcases hattended with hc | hs | hp | hh
        · exact absurd hnone hc
        · omega
        · exact absurd hp hpackets
        · exact hh
      rw [if_neg (by rw [(hears_iff d).mp hhears]; nofun), if_pos rfl]

theorem wake_leaves (timer : Bool) (hcommands : d.commands = [])
    (hsenders : d.senders ≠ 0) (hpackets : ¬0 < d.packets) (hhears : ¬d.Hears) :
    (d.wake timer).phase = .left ∧ (d.wake timer).senders = d.senders := by
  have hended : d.recvEnded = true := by
    rw [hears_iff] at hhears
    exact Bool.eq_true_of_not_eq_false hhears
  unfold wake
  rw [hcommands]
  dsimp only
  rw [if_neg hsenders, if_neg hpackets, if_pos hended]
  exact ⟨rfl, rfl⟩

theorem wake_senders (timer : Bool) : (d.wake timer).senders = d.senders := by
  unfold wake
  split
  · rename_i c rest hcommands
    exact (handleCommand_spec { d with commands := rest } c).senders
  · repeat' split
    all_goals rfl

theorem wake_answers (timer : Bool) (c : Command H) (rest : List (Command H))
    (hcommands : d.commands = c :: rest) : (d.wake timer).answered = d.answered ++ [c] := by
  unfold wake
  rw [hcommands]
  exact (handleCommand_spec { d with commands := rest } c).answered

@[simp] theorem handleCommand_tasks (c : Command H) :
    (d.handleCommand c).tasks = d.tasks := by
  cases c with
  | registerService h outcome => cases outcome <;> rfl
  | unregisterService h => rfl
  | other => rfl

theorem drainCommands_tasks (fuel : Nat) (d : DriverTask H) :
    (drainCommands fuel d).tasks = d.tasks := by
  induction fuel generalizing d with
  | zero => rfl
  | succ fuel ih =>
    unfold drainCommands
    split
    · rw [ih, handleCommand_tasks]
    · split
      · rfl
      · rfl

theorem endPass_tasks (causes : List H) (morePending : Bool) :
    (d.endPass causes morePending).tasks = d.tasks := by
  unfold endPass
  dsimp only
  split
  · exact drainCommands_tasks _ _
  · rfl

theorem wake_tasks (timer : Bool) : (d.wake timer).tasks = d.tasks := by
  unfold wake
  split
  · exact handleCommand_tasks _ _
  · repeat' split
    all_goals rfl

theorem updateTask_other (f g : Family) (change : RecvTask → RecvTask)
    (h : f ≠ g) : (d.updateTask g change).tasks f = d.tasks f := Function.update_of_ne h _ _

theorem updateTask_self (f : Family) (change : RecvTask → RecvTask)
    (task : RecvTask) (h : (d.updateTask f change).tasks f = some task) :
    ∃ old, d.tasks f = some old ∧ task = change old := by
  unfold updateTask at h
  dsimp only at h
  rw [Function.update_self] at h
  obtain ⟨old, hold, hnew⟩ := Option.map_eq_some_iff.mp h
  exact ⟨old, hold, hnew.symm⟩

end DriverTask
end Reactor
end Hick
