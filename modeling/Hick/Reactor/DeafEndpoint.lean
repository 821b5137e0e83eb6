import Hick.Reactor.DriverRuns

/-!
# An endpoint that hears nothing (hick-reactor/src/driver/mod.rs:2706-2990,
hick-reactor/src/endpoint.rs:207-229)

The flags of the families tell what became of their receive tasks.
-/

namespace Hick
open Runs

namespace Reactor
namespace DriverTask
variable {H : Type} [DecidableEq H]

def Tracks (f : Family) (n : Nat) (d : DriverTask H) : Prop :=
  ∀ task, d.tasks f = some task → task.Reports n

omit [DecidableEq H] in
theorem Tracks.of_tasks (f : Family) (n : Nat) (d d' : DriverTask H) (h : Tracks f n d)
    (htasks : d'.tasks f = d.tasks f) : Tracks f n d' := by
  intro task htask
  rw [htasks] at htask
  exact h task htask

theorem Tracks.move (f g : Family) (n : Nat) (d : DriverTask H) (h : Tracks f n d)
    (status : TaskStatus) (hnext : status ≠ .failed)
    (hwas : ∀ task, d.tasks g = some task → task.status ≠ .failed) :
    Tracks f n (d.updateTask g ({ · with status := status })) := by
  by_cases hfamily : f = g
  · subst hfamily
    intro task htask
    obtain ⟨old, hold, hnew⟩ := updateTask_self d f _ task htask
    rw [hnew]
    exact (h old hold).move old n status (hwas old hold) hnext
  · exact h.of_tasks f n d _ (updateTask_other d f g _ hfamily)

variable (ts : List (Transition (DriverTask H) (TaskCall H))) (d : DriverTask H)

omit [DecidableEq H] in
theorem hasStatus_ne (f : Family) (status : TaskStatus)
    (h : d.hasStatus f status) (hne : status ≠ .failed) (task : RecvTask)
    (htask : d.tasks f = some task) : task.status ≠ .failed := by
  obtain ⟨t, ht, hstatus⟩ := h
  rw [ht] at htask
  cases htask
  rw [hstatus]
  exact hne

theorem step_tracks (f : Family) (n : Nat) (d : DriverTask H) (c : TaskCall H) (h : Tracks f n d)
    (hadmits : d.Admits c) : Tracks f (countFamily f n (machine.transition d c)) (d.next c) := by
  cases c with
  | receive g o =>
    have hwas := hasStatus_ne d g _ hadmits nofun
    by_cases hfamily : f = g
    · subst hfamily
      intro task htask
      obtain ⟨old, hold, hnew⟩ := updateTask_self d f _ task htask
      rw [hnew]
      simp only [countFamily, Machine.transition, if_true]
      exact (h old hold).receive old n (hwas old hold) o
    · simp only [countFamily, Machine.transition, if_neg (Ne.symm hfamily)]
      exact h.of_tasks f n d _ (updateTask_other d f g _ hfamily)
  | retry g => exact h.move f g n d .receiving nofun (hasStatus_ne d g _ hadmits nofun)
  | deliver g =>
    have hmove := h.move f g n d .receiving nofun (hasStatus_ne d g _ hadmits.1 nofun)
    exact hmove.of_tasks f n _ _ rfl
  | shutdown g =>
    apply h.move f g n d .stopped nofun
    intro task htask hfailed
    obtain ⟨-, t, ht, hended⟩ := hadmits
    rw [ht] at htask
    cases htask
    rw [RecvTask.ended, hfailed] at hended
    cases hended
  | send c => exact h
  | cloneSender => exact h
  | dropSender => exact h
  | startPass => exact h
  | endPass causes morePending =>
    exact h.of_tasks f n d _ (congrFun (endPass_tasks d causes morePending) f)
  | wake timer => exact h.of_tasks f n d _ (congrFun (wake_tasks d timer) f)

theorem run_flags (run : Run machine ts d) : FlagsReport ts d := by
  intro f task htask
  have htracks : Tracks f (transientsSince f ts) d := by
    apply run.invariant machine (countFamily f) 0 (Tracks f) (fun _ => True)
    · intro d hspawned task htask
      rw [hspawned.tasks f task htask]
      exact RecvTask.spawned_reports
    · intro n d c h hadmits _
      exact step_tracks f n d c h hadmits
    · intro t _
      trivial
  exact (htracks task htask).flag

theorem step_settled (c : TaskCall H) (hadmits : d.Admits c)
    (hattended : Attended (machine.transition d c)) (hloop : 0 < d.senders → d.phase ≠ .left)
    (hsend : ∀ command, c ≠ .send command) :
    Settled d (d.next c) (Caused (machine.transition d c)) := by
  cases c with
  | receive f o => exact Settled.still d _ _ rfl rfl rfl id hloop
  | retry f => exact Settled.still d _ _ rfl rfl rfl id hloop
  | deliver f => exact Settled.still d _ _ rfl rfl rfl id hloop
  | shutdown f => exact Settled.still d _ _ rfl rfl rfl id hloop
  | send command => exact absurd rfl (hsend command)
  | cloneSender => exact Settled.still d _ _ rfl rfl rfl (fun _ => hadmits) fun _ => hloop hadmits
  | dropSender => exact Settled.still d _ _ rfl rfl rfl (fun _ => hadmits) fun _ => hloop hadmits
  | startPass => exact Settled.still d _ _ rfl rfl rfl id fun _ h => nomatch h
  | endPass causes morePending =>
    have hphase : d.phase = .pass := hadmits
    apply endPass_settled
    · rw [hphase]
      nofun
    · intro h hcause
      exact ⟨causes, morePending, rfl, hcause⟩
  | wake timer =>
    have hphase : d.phase = .parked := hadmits
    apply wake_settled
    · rw [hphase]
      nofun
    · exact hattended timer rfl

omit [DecidableEq H] in
theorem mem_snoc (P : Transition (DriverTask H) (TaskCall H) → Prop)
    (ts : List (Transition (DriverTask H) (TaskCall H))) (t : Transition (DriverTask H) (TaskCall H))
    (hpast : ∀ u ∈ ts, P u) (hlast : P t) : ∀ u ∈ ts ++ [t], P u := by
  intro u hu
  cases List.mem_append.mp hu with
  | inl hold => exact hpast u hold
  | inr hnew =>
    rw [List.mem_singleton.mp hnew]
    exact hlast

theorem step_alive (c : TaskCall H) (h : Alive ts d) (hadmits : d.Admits c)
    (hattended : Attended (machine.transition d c)) (hloop : 0 < d.senders → d.phase ≠ .left) :
    Alive (ts ++ [machine.transition d c]) (d.next c) ∧
      (0 < (d.next c).senders → (d.next c).phase ≠ .left) := by
  have hfires : c = .wake true → 0 < (d.next c).senders → (d.next c).phase = .top := by
    intro hcall hpos
    subst hcall
    have hpos : 0 < (d.wake true).senders := hpos
    rw [wake_senders] at hpos
    exact wake_top d hpos (hattended true rfl)
  have hwakes : ∀ timer command rest, c = .wake timer → d.commands = command :: rest →
      (d.next c).answered = d.answered ++ [command] := by
    intro timer command rest hcall hcommands
    subst hcall
    exact wake_answers d timer command rest hcommands
  by_cases hsend : ∃ command, c = .send command
  · obtain ⟨command, rfl⟩ := hsend
    constructor
    · constructor
      · exact mem_snoc _ _ _ h.stays hloop
      · exact mem_snoc _ _ _ h.fires fun hcall => nomatch hcall
      · exact mem_snoc _ _ _ h.wakes fun _ _ _ hcall => nomatch hcall
      · rw [List.flatMap_append, h.answers, List.append_assoc]
        rfl
      · intro hpos x hx
        cases h.keeps hpos x hx with
        | inl hasked => exact Or.inl hasked
        | inr hcaused =>
          obtain ⟨t, ht, hcause⟩ := hcaused
          exact Or.inr ⟨t, List.mem_append_left _ ht, hcause⟩
    · exact hloop
  · have hsettled := step_settled d c hadmits hattended hloop fun command hc => hsend ⟨command, hc⟩
    constructor
    · constructor
      · exact mem_snoc _ _ _ h.stays hsettled.leaves
      · exact mem_snoc _ _ _ h.fires hfires
      · exact mem_snoc _ _ _ h.wakes hwakes
      · have hnone : sentCommand (machine.transition d c) = [] := by
          unfold sentCommand
          split
          · rename_i command hcall
            exact absurd ⟨command, hcall⟩ hsend
          · rfl
        rw [List.flatMap_append, List.flatMap_singleton, hnone, List.append_nil, h.answers,
          hsettled.queue]
      · intro hpos x hx
        rcases hsettled.kept hpos x hx with hold | hasked | hcause
        · cases h.keeps (hsettled.senders hpos) x hold with
          | inl hasked =>
            obtain ⟨command, hmem, hask⟩ := hasked
            exact Or.inl ⟨command, hsettled.heard command hmem, hask⟩
          | inr hcaused =>
            obtain ⟨t, ht, hcause⟩ := hcaused
            exact Or.inr ⟨t, List.mem_append_left _ ht, hcause⟩
        · exact Or.inl hasked
        · exact Or.inr ⟨_, List.mem_append_right _ (List.mem_singleton.mpr rfl), hcause⟩
    · exact hsettled.leaves

theorem run_alive (run : Run machine ts d) (hattended : ∀ t ∈ ts, Attended t) :
    Alive ts d ∧ (0 < d.senders → d.phase ≠ .left) := by
  induction run with
  | start d hspawned =>
    constructor
    · constructor
      · exact fun _ h => absurd h List.not_mem_nil
      · exact fun _ h => absurd h List.not_mem_nil
      · exact fun _ h => absurd h List.not_mem_nil
      · rw [hspawned.answered, hspawned.commands]
        rfl
      · intro _ h hmem
        rw [hspawned.withdrawn] at hmem
        cases hmem
    · intro _
      rw [hspawned.phase]
      nofun
  | step ts d c run hadmits ih =>
    have hpast := ih fun t ht => hattended t (List.mem_append_left _ ht)
    have hlast := hattended _ (List.mem_append_right _ (List.mem_singleton.mpr rfl))
    exact step_alive ts d c hpast.1 hadmits hlast hpast.2

theorem attended_of_stays (run : Run machine ts d)
    (hstays : ∀ t ∈ ts, 0 < t.post.senders → t.post.phase ≠ .left) :
    ∀ t ∈ ts, Attended t := by
  intro t ht timer hcall
  by_contra hnot
  simp only [not_or, not_not] at hnot
  obtain ⟨hcommands, hsenders, hpackets, hhears⟩ := hnot
  have hleaves := wake_leaves t.pre timer hcommands hsenders hpackets hhears
  have hpost : t.post = t.pre.wake timer := by
    rw [(run.mem machine ts d t ht).1, hcall]
    rfl
  apply hstays t ht
  · rw [hpost, hleaves.2]
    exact Nat.pos_of_ne_zero hsenders
  · rw [hpost]
    exact hleaves.1

/-- Whatever its receive tasks meet, the flags of the families are true to it; and the driver serves
its handles for as long as they are there exactly in the runs in which it never parks on the channel
of receive tasks that have all ended. -/
theorem deaf_but_alive_iff (ts : List (Transition (DriverTask H) (TaskCall H))) (d : DriverTask H)
    (run : Run machine ts d) :
    FlagsReport ts d ∧ ((∀ t ∈ ts, Attended t) ↔ Alive ts d) := by
  constructor
  · exact run_flags ts d run
  · constructor
    · intro hattended
      exact (run_alive ts d run hattended).1
    · intro halive
      exact attended_of_stays ts d run halive.stays

def spawnedWith (bound : Family → Bool) : DriverTask Nat where
  tasks := fun f => if bound f then some RecvTask.spawned else none
  packets := 0
  commands := []
  senders := 1
  phase := .top
  services := []
  withdrawn := []
  answered := []

theorem spawnedWith_spawned (bound : Family → Bool) (f : Family) (hf : bound f = true) :
    (spawnedWith bound).Spawned where
  tasks := by
    intro g t ht
    simp only [spawnedWith] at ht
    split at ht
    · cases ht
      rfl
    · cases ht
  bound := by
    refine ⟨f, RecvTask.spawned, ?_⟩
    simp only [spawnedWith, hf, if_true]
  packets := rfl
  commands := rfl
  senders := rfl
  phase := rfl
  services := rfl
  withdrawn := rfl
  answered := rfl

def failingV4 : List (TaskCall Nat) :=
  [.startPass, .endPass [] false, .receive .v4 .permanent, .wake true]

theorem half_deaf_endpoint_lives :
    let d := spawnedWith fun _ => true
    Alive (machine.trace d failingV4) (machine.play d failingV4) := by
  intro d
  have hspawned : d.Spawned := spawnedWith_spawned (fun _ => true) .v4 rfl
  have hadmitted : machine.Admitted d failingV4 :=
    ⟨rfl, rfl, ⟨RecvTask.spawned, rfl, rfl⟩, rfl, trivial⟩
  have run := (Run.start d hspawned).play machine [] d failingV4 hadmitted
  rw [List.nil_append] at run
  apply (deaf_but_alive_iff _ _ run).2.mp
  intro t ht timer hcall
  simp only [failingV4, Machine.trace, List.mem_cons, List.not_mem_nil, or_false] at ht
  rcases ht with rfl | rfl | rfl | rfl
  · cases hcall
  · cases hcall
  · cases hcall
  · exact Or.inr (Or.inr (Or.inr ⟨.v6, RecvTask.spawned, rfl, rfl⟩))

def failingOnly : List (TaskCall Nat) :=
  [.send (.registerService 0 .replied), .startPass, .endPass [] false, .wake false, .startPass,
    .endPass [] false, .receive .v4 .permanent, .wake false]

/-- The socket of the only bound family fails for good. The handle of the endpoint is still there,
but the driver leaves its loop and withdraws a service that nobody asked it to. -/
theorem last_socket_ends_the_driver : ∃ ts, ∃ d : DriverTask Nat, Run machine ts d ∧
    0 < d.senders ∧ d.phase = .left ∧ 0 ∈ d.withdrawn ∧ (∀ c ∈ d.answered, ¬Asks c 0) ∧
      ∀ t ∈ ts, ¬Caused t 0 := by
  have hspawned : (spawnedWith (· == .v4)).Spawned := spawnedWith_spawned (· == .v4) .v4 rfl
  have hadmitted : machine.Admitted (spawnedWith (· == .v4)) failingOnly :=
    ⟨Nat.one_pos, rfl, rfl, rfl, rfl, rfl, ⟨RecvTask.spawned, rfl, rfl⟩, rfl, trivial⟩
  have run := (Run.start _ hspawned).play machine [] _ failingOnly hadmitted
  rw [List.nil_append] at run
  refine ⟨_, _, run, Nat.one_pos, rfl, List.mem_singleton.mpr rfl, ?_, ?_⟩
  · intro c hc hask
    have hc : c = .registerService 0 .replied := List.mem_singleton.mp hc
    subst hc
    cases hask with
    | inl h => cases h
    | inr h => cases h
  · intro t ht hcaused
    obtain ⟨causes, morePending, hcall, hmem⟩ := hcaused
    simp only [failingOnly, Machine.trace, List.mem_cons, List.not_mem_nil, or_false] at ht
    rcases ht with rfl | rfl | rfl | rfl | rfl | rfl | rfl | rfl
    all_goals
      cases hcall
      try cases hmem

end DriverTask
end Reactor
end Hick
