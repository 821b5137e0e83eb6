import Hick.Driver.FlushTurns

/-!
# Shutting down (hick-reactor/src/driver/mod.rs:2946-2990, hick-compio/src/driver/mod.rs:358-441,
1856-1922)

Whatever a driver has done before it leaves its main loop, its flush gives up every service it still
has, each once, and stops with nothing left or past the backstop.
-/

namespace Hick
open Octets Wire Respond Runs

namespace Reactor

inductive ContextNote where
  | encodeFailures (n : Nat)
  | doorbellClosed
deriving DecidableEq

def writing : Writing ServiceCtx ContextNote where
  toRetiring := retiring
  fresh := ⟨false, false, 0⟩
  retired_fresh := rfl
  write
    | .encodeFailures n, c => { c with encodeFailures := n }
    | .doorbellClosed, c => { c with doorbellClosed := true }
  retired_write t c := by
    cases t with
    | encodeFailures n => rfl
    | doorbellClosed => rfl

end Reactor

namespace Compio

/-- What the compio driver notes in a context; a handle that is dropped flags it. -/
inductive ContextNote where
  | encodeFailures (n : Nat)
  | cancelled
deriving DecidableEq

def writing : Writing ServiceCtx ContextNote where
  toRetiring := retiring
  fresh := ⟨false, false, 0⟩
  retired_fresh := rfl
  write
    | .encodeFailures n, c => { c with encodeFailures := n }
    | .cancelled, c => { c with cancelled := true }
  retired_write t c := by
    cases t with
    | encodeFailures n => rfl
    | cancelled => rfl

section
variable {I G R : Type} {SR EV : Type → Type} [Instant I] [SeedSource G] [SeedableRng R]
  [Pool SR] [Pool EV]

/-- The services that are held: a registration hands one out, and a drop flags its context. -/
def holdOrDrop (held : List ServiceHandle)
    (t : Transition (Hosted ServiceCtx I G R SR EV) (Hosted.Step I ContextNote)) :
    List ServiceHandle :=
  match t.call with
  | .register records now =>
    match (t.pre.registerService writing.fresh records now).2 with
    | .ok handle => handle :: held
    | .error _ => held
  | .write handle .cancelled => held.erase handle
  | _ => held

def held (ts : List (Transition (Hosted ServiceCtx I G R SR EV) (Hosted.Step I ContextNote))) :
    List ServiceHandle := summary holdOrDrop [] ts

def Kept (held : List ServiceHandle) (d : Hosted ServiceCtx I G R SR EV) : Prop :=
  ∀ j c, d.services.lookup j = some c → c.cancelled = true ∨ j ∈ held

omit [Instant I] [SeedSource G] [SeedableRng R] [Pool SR] [Pool EV] in
theorem Kept.narrowed {held : List ServiceHandle} {d d' : Hosted ServiceCtx I G R SR EV}
    (h : Kept held d) (hd : ∀ j c', d'.services.lookup j = some c' →
      ∃ c, d.services.lookup j = some c ∧ (c.cancelled = true → c'.cancelled = true)) :
    Kept held d' := by
  intro j c' hc'
  obtain ⟨c, hc, hflag⟩ := hd j c' hc'
  exact (h j c hc).imp_left hflag

theorem next_kept [LawfulPool SR] (held : List ServiceHandle) (d : Hosted ServiceCtx I G R SR EV)
    (h : Kept held d) (step : Hosted.Step I ContextNote) :
    Kept (holdOrDrop held ((Hosted.machine writing).transition d step)) (d.next writing step) := by
  cases step with
  | register records now =>
    change Kept (match (d.registerService writing.fresh records now).2 with
      | .ok handle => handle :: held
      | .error _ => held) (d.registerService writing.fresh records now).1
    unfold Hosted.registerService
    cases d.endpoint.tryRegisterService records now with
    | mk endpoint outcome =>
      cases outcome with
      | error err => exact h
      | ok handle =>
        intro j c hc
        change (d.services.insert handle writing.fresh).lookup j = some c at hc
        rw [Assoc.lookup_insert] at hc
        split at hc
        · rename_i hj
          rw [hj]
          exact .inr List.mem_cons_self
        · exact (h j c hc).imp_right (List.mem_cons_of_mem _)
  | endpoint c => exact h
  | write handle t =>
    cases t with
    | encodeFailures n =>
      apply h.narrowed
      intro j c' hc'
      change (Assoc.modify _ handle d.services).lookup j = some c' at hc'
      rw [Assoc.lookup_modify] at hc'
      split at hc'
      · obtain ⟨c, hc, rfl⟩ := Option.map_eq_some_iff.mp hc'
        exact ⟨c, hc, fun hflag => hflag⟩
      · exact ⟨c', hc', fun hflag => hflag⟩
    | cancelled =>
      intro j c' hc'
      change (Assoc.modify _ handle d.services).lookup j = some c' at hc'
      rw [Assoc.lookup_modify] at hc'
      split at hc'
      · obtain ⟨c, hc, rfl⟩ := Option.map_eq_some_iff.mp hc'
        exact .inl rfl
      · rename_i hj
        exact (h j c' hc').imp_right fun hmem => (List.mem_erase_of_ne hj).mpr hmem
  | beginWithdrawal handle now =>
    apply h.narrowed
    intro j c' hc'
    change (d.beginServiceWithdrawal retiring handle now).services.lookup j = some c' at hc'
    rw [Hosted.lookup_begin] at hc'
    split at hc'
    · obtain ⟨c, hc, rfl⟩ := Option.map_eq_some_iff.mp hc'
      exact ⟨c, hc, fun hflag => hflag⟩
    · exact ⟨c', hc', fun hflag => hflag⟩
  | drainCompleted now =>
    apply h.narrowed
    intro j c' hc'
    change (List.foldr _ d.services
      (d.endpoint.drainCompletedWithdrawals now).2).lookup j = some c' at hc'
    rw [Hosted.lookup_foldr_erase] at hc'
    split at hc'
    · cases hc'
    · exact ⟨c', hc', fun hflag => hflag⟩

theorem run_abandoned [LawfulPool SR] (ts : List (Transition (Hosted ServiceCtx I G R SR EV)
    (Hosted.Step I ContextNote))) (d : Hosted ServiceCtx I G R SR EV)
    (run : Run (Hosted.machine writing) ts d) (hheld : held ts = []) (j : ServiceHandle)
    (c : ServiceCtx) (hc : d.services.lookup j = some c) : c.cancelled = true := by
  have hkept : Kept (held ts) d := by
    apply run.invariant (Hosted.machine writing) holdOrDrop [] Kept (fun _ => True)
    · rintro s ⟨config, rng, rfl⟩ j c hc
      cases hc
    · intro g s step hs _ _
      exact next_kept g s hs step
    · intro _ _
      trivial
  rcases hkept j c hc with hflag | hmem
  · exact hflag
  · rw [hheld] at hmem
    cases hmem

end
end Compio

section
variable {C I G R : Type} {SR EV : Type → Type} [Instant I] [SeedSource G] [SeedableRng R]
  [Pool SR] [Pool EV]

/-- What a flush owes: no sleep of it goes past the backstop or the deadline of an item that is
left, it stops with nothing left or past the backstop, and the goodbye of each service that had a
context when the main loop was left is begun once, then or earlier. -/
structure FlushedRight (backstop : I) (d : Hosted C I G R SR EV)
    (begun : List (Endpoint I G R SR EV)) (turns : List (FlushPass I × FlushTurn C I G R SR EV)) :
    Prop where
  prompt : ∀ pt ∈ turns, pt.2.Prompt backstop
  ends : ∀ pt ∈ turns, pt.2.EndsRight backstop
  once : ∀ handle, d.services.lookup handle ≠ none →
    d.endpoint.farewells handle + Endpoint.begins handle
      (d.endpoint :: (begun ++ turns.flatMap fun pt => pt.2.endpoints)) = 1

omit [SeedSource G] [SeedableRng R] [Pool EV] in
theorem Flushes.each (rules : Retiring C)
    {pass : FlushPass I → I → Hosted C I G R SR EV → Option (FlushTurn C I G R SR EV)} {backstop : I}
    (now : FlushPass I → FlushTurn C I G R SR EV → I)
    (hpass : ∀ p d turn, Hosted.Mirrors rules d → pass p backstop d = some turn →
      Passes rules p backstop d turn (now p turn))
    (turns : List (FlushPass I × FlushTurn C I G R SR EV)) (d : Hosted C I G R SR EV) (t : I)
    (h : Hosted.Mirrors rules d) (hflush : Flushes pass backstop d t turns) :
    (d.endpoint :: turns.flatMap fun pt => pt.2.endpoints).IsChain Endpoint.Dwindles ∧
      ∀ pt ∈ turns, pt.1.clock 0 ≤ now pt.1 pt.2 ∧ now pt.1 pt.2 ≤ pt.2.parkedAt ∧
        pt.2.ended = pt.2.hosted.flushEnd backstop (now pt.1 pt.2) := by
  induction turns generalizing d t with
  | nil => exact ⟨.singleton _, fun pt hmem => absurd hmem List.not_mem_nil⟩
  | cons pt rest ih =>
    obtain ⟨p, turn⟩ := pt
    obtain ⟨-, hturn, hrest⟩ := hflush
    have hpasses := hpass p d turn h hturn
    have hlater : (turn.hosted.endpoint :: rest.flatMap fun pt => pt.2.endpoints).IsChain
        Endpoint.Dwindles ∧ ∀ pt ∈ rest, pt.1.clock 0 ≤ now pt.1 pt.2 ∧
          now pt.1 pt.2 ≤ pt.2.parkedAt ∧
            pt.2.ended = pt.2.hosted.flushEnd backstop (now pt.1 pt.2) := by
      rcases hrest with hnil | ⟨dur, woken, -, -, hnext⟩
      · rw [hnil]
        exact ⟨.singleton _, fun pt hmem => absurd hmem List.not_mem_nil⟩
      · exact ih turn.hosted woken hpasses.mirrors hnext
    constructor
    · have hchain := hpasses.chain
      rw [List.flatMap_cons]
      cases hchain with
      | cons_cons h₁ hchain =>
        cases hchain with
        | cons_cons h₂ hchain =>
          cases hchain with
          | cons_cons h₃ _ => exact .cons_cons h₁ (.cons_cons h₂ (.cons_cons h₃ hlater.1))
    · intro pt hmem
      cases List.mem_cons.mp hmem with
      | inl heq =>
        rw [heq]
        exact ⟨hpasses.started, hpasses.measured, hpasses.ended⟩
      | inr hin => exact hlater.2 pt hin

theorem begun_once {rules : Retiring C} (d : Hosted C I G R SR EV) (h : Hosted.Mirrors rules d)
    (es : List (Endpoint I G R SR EV)) (hchain : (d.endpoint :: es).IsChain Endpoint.Dwindles)
    (handle : ServiceHandle) (hctx : d.services.lookup handle ≠ none)
    (hgone : ∃ e ∈ es, e.standing handle ≠ some false) :
    d.endpoint.farewells handle + Endpoint.begins handle (d.endpoint :: es) = 1 := by
  obtain ⟨c, hc⟩ := Option.ne_none_iff_exists'.mp hctx
  have hstands := h.contexts handle
  rw [hc, Option.map_some] at hstands
  rw [h.rostered.farewells]
  cases hflag : rules.retired c with
  | true =>
    rw [hflag] at hstands
    have hleaving : d.endpoint.standing handle ≠ some false := by
      rw [← hstands]
      exact fun heq => Bool.noConfusion (Option.some.inj heq)
    rw [Endpoint.begins_zero handle es d.endpoint h.rostered hchain hleaving, ← hstands]
    rfl
  | false =>
    rw [hflag] at hstands
    rw [Endpoint.begins_one handle es d.endpoint h.rostered hchain hstands.symm hgone, ← hstands]
    rfl

section
variable [MeasuredInstant I] [ReleasingPool SR]

omit [MeasuredInstant I] in
theorem Reactor.begun_standing (d : Hosted Reactor.ServiceCtx I G R SR EV)
    (h : Hosted.Mirrors Reactor.retiring d) (t : I) :
    Hosted.Mirrors Reactor.retiring (Reactor.beginEveryWithdrawal d t) ∧
      Endpoint.Dwindles d.endpoint (Reactor.beginEveryWithdrawal d t).endpoint ∧
      ∀ handle, (Reactor.beginEveryWithdrawal d t).endpoint.standing handle ≠ some false := by
  obtain ⟨hmirrors, hstanding⟩ := h.beginEach d.services.keys t
  refine ⟨hmirrors, ⟨hmirrors.rostered, fun j => ?_⟩, fun j => ?_⟩
  · have hj := Hosted.declines_of_begin (d.endpoint.standing j) (j ∈ d.services.keys)
    rw [← hstanding] at hj
    exact hj
  · intro hstays
    have hj := hstanding j
    change (Reactor.beginEveryWithdrawal d t).endpoint.standing j = _ at hj
    rw [hstays] at hj
    split at hj
    · cases hstands : d.endpoint.standing j with
      | none =>
        rw [hstands] at hj
        cases hj
      | some leaving =>
        rw [hstands] at hj
        cases hj
    · rename_i hnot
      rw [← h.contexts j] at hj
      obtain ⟨c, hc, -⟩ := Option.map_eq_some_iff.mp hj.symm
      exact hnot (AList.mem_keys.mp ((Assoc.mem_iff j d.services).mpr ⟨c, hc⟩))

theorem Reactor.flushed_right_iff (d : Hosted Reactor.ServiceCtx I G R SR EV)
    (h : Hosted.Mirrors Reactor.retiring d) (t backstop : I)
    (turns : List (FlushPass I × FlushTurn Reactor.ServiceCtx I G R SR EV))
    (hflush : Flushes Reactor.flushPass backstop (Reactor.beginEveryWithdrawal d t) t turns) :
    FlushedRight backstop d [(Reactor.beginEveryWithdrawal d t).endpoint] turns ↔
      ∀ pt ∈ turns, ∀ dur, pt.2.ended = .sleeps dur → 0 < dur → pt.2.parkedAt = pt.1.clock 0 := by
  obtain ⟨hmirrors, hdwindles, hgone⟩ := Reactor.begun_standing d h t
  obtain ⟨hchain, heach⟩ := Flushes.each Reactor.retiring (fun p _ => p.clock 0)
    (fun p d turn hd hturn => Reactor.flushPass_passes p backstop d hd turn hturn) turns _ t
    hmirrors hflush
  have hwhole : (d.endpoint :: ([(Reactor.beginEveryWithdrawal d t).endpoint] ++
      turns.flatMap fun pt => pt.2.endpoints)).IsChain Endpoint.Dwindles := .cons_cons hdwindles hchain
  constructor
  · intro hright pt hpt
    obtain ⟨-, hmeasured, hended⟩ := heach pt hpt
    exact (pt.2.prompt_iff backstop _ hmeasured hended).mp (hright.prompt pt hpt)
  · intro hcond
    constructor
    · intro pt hpt
      obtain ⟨-, hmeasured, hended⟩ := heach pt hpt
      exact (pt.2.prompt_iff backstop _ hmeasured hended).mpr (hcond pt hpt)
    · intro pt hpt
      obtain ⟨-, hmeasured, hended⟩ := heach pt hpt
      exact pt.2.endsRight backstop _ hmeasured hended
    · intro handle hctx
      apply begun_once d h _ hwhole handle hctx
      exact ⟨_, List.mem_append_left _ (List.mem_singleton.mpr rfl), hgone handle⟩

theorem Compio.flushed_right (d : Hosted Compio.ServiceCtx I G R SR EV)
    (h : Hosted.Mirrors Compio.retiring d)
    (habandoned : ∀ j c, d.services.lookup j = some c → c.cancelled = true) (t backstop : I)
    (turns : List (FlushPass I × FlushTurn Compio.ServiceCtx I G R SR EV)) (hne : turns ≠ [])
    (hflush : Flushes Compio.flushPass backstop d t turns) : FlushedRight backstop d [] turns := by
  obtain ⟨hchain, heach⟩ := Flushes.each Compio.retiring (fun _ turn => turn.parkedAt)
    (fun p d turn hd hturn => Compio.flushPass_passes p backstop d hd turn hturn) turns d t h hflush
  constructor
  · intro pt hpt
    obtain ⟨-, hmeasured, hended⟩ := heach pt hpt
    exact (pt.2.prompt_iff backstop _ hmeasured hended).mpr fun _ _ _ => rfl
  · intro pt hpt
    obtain ⟨-, hmeasured, hended⟩ := heach pt hpt
    exact pt.2.endsRight backstop _ hmeasured hended
  · intro handle hctx
    apply begun_once d h _ hchain handle hctx
    cases turns with
    | nil => exact absurd rfl hne
    | cons pt rest =>
      obtain ⟨p, turn⟩ := pt
      obtain ⟨-, hturn, -⟩ := hflush
      -- the sweep of the first pass finds every context that is flagged and not yet given up
      obtain ⟨w, hpump, hw⟩ := Option.map_eq_some_iff.mp hturn
      have hunmoved := GoodbyeInput.pumpFrom_unmoved _ _ _ _ _ _ h.rostered.unique w hpump
      have hpumped : Hosted.Mirrors Compio.retiring { d with endpoint := w.endpoint } :=
        h.unmoved _ hunmoved fun _ => rfl
      have hswept := Compio.sweep_leaves_none _
        (hpumped.drainCompletedWithdrawals (p.clock w.polled.length)) (p.clock w.polled.length) (by
          intro j c hc
          change (List.foldr _ d.services
            (w.endpoint.drainCompletedWithdrawals _).2).lookup j = some c at hc
          rw [Hosted.lookup_foldr_erase] at hc
          split at hc
          · cases hc
          · exact habandoned j c hc) handle
      refine ⟨turn.hosted.endpoint, ?_, ?_⟩
      · rw [List.flatMap_cons]
        apply List.mem_append_left
        unfold FlushTurn.endpoints
        simp
      · rw [← hw]
        exact hswept

end
end

/-- Over whatever the drivers have done before: the reactor's flush keeps every due round, gives up
every service once and stops as it should exactly where no pass whose fan-outs took time goes on to
sleep, and the flush of the compio driver does always. -/
theorem shutdown_flush_iff {I G R : Type} {SR EV : Type → Type} [Instant I] [MeasuredInstant I]
    [SeedSource G] [SeedableRng R] [Pool SR] [Pool EV] [ReleasingPool SR] (t backstop : I)
    (_hbackstop : checkedAddDuration t shutdownBackstop = some backstop) :
    (∀ (d : Hosted Reactor.ServiceCtx I G R SR EV)
        (turns : List (FlushPass I × FlushTurn Reactor.ServiceCtx I G R SR EV)),
        Reachable (Hosted.machine Reactor.writing) d →
          Flushes Reactor.flushPass backstop (Reactor.beginEveryWithdrawal d t) t turns →
            (FlushedRight backstop d [(Reactor.beginEveryWithdrawal d t).endpoint] turns ↔
              ∀ pt ∈ turns, ∀ dur, pt.2.ended = .sleeps dur → 0 < dur →
                pt.2.parkedAt = pt.1.clock 0)) ∧
      ∀ (ts : List (Transition (Hosted Compio.ServiceCtx I G R SR EV)
          (Hosted.Step I Compio.ContextNote))) (d : Hosted Compio.ServiceCtx I G R SR EV)
        (turns : List (FlushPass I × FlushTurn Compio.ServiceCtx I G R SR EV)),
        Run (Hosted.machine Compio.writing) ts d → Compio.held ts = [] → turns ≠ [] →
          Flushes Compio.flushPass backstop d t turns → FlushedRight backstop d [] turns := by
  constructor
  · intro d turns hreach hflush
    exact Reactor.flushed_right_iff d (Hosted.reachable_mirrors _ d hreach) t backstop turns hflush
  · intro ts d turns hrun hheld hne hflush
    exact Compio.flushed_right d (Hosted.reachable_mirrors _ d ⟨ts, hrun⟩)
      (Compio.run_abandoned ts d hrun hheld) t backstop turns hne hflush

/-- A printer is registered where names are not probed, and both families take its announcement. -/
def announcedPrinter (T : Type) : List (Hosted.Step Uptime T) :=
  [.register .printer 0, .endpoint ⟨0, .serviceTimeout ⟨0⟩⟩,
    .endpoint ⟨0, .serviceTransmit ⟨0⟩ (List.replicate 512 0)⟩,
    .endpoint ⟨0, .serviceOutcome ⟨0⟩ (.accepted 0) (.accepted 0)⟩]

def unprobing {C : Type} : Hosted C Uptime ZeroRng ZeroRng Slab Slab :=
  ⟨Endpoint.tryNew ⟨false, true, 0⟩ ⟨⟩, ∅⟩

theorem announcedPrinter_admitted {C T : Type} (w : Writing C T)
    (more : List (Hosted.Step Uptime T))
    (hmore : (Hosted.machine w).Admitted ((Hosted.machine w).play unprobing (announcedPrinter T))
      more) : (Hosted.machine w).Admitted unprobing (announcedPrinter T ++ more) := by
  refine ⟨?_, trivial, trivial, trivial, hmore⟩
  intro hlast
  cases hlast

def printerHost : Hosted Reactor.ServiceCtx Uptime ZeroRng ZeroRng Slab Slab :=
  (Hosted.machine Reactor.writing).play unprobing (announcedPrinter Reactor.ContextNote)

theorem printerHost_reachable : Reachable (Hosted.machine Reactor.writing) printerHost := by
  have hadmitted := announcedPrinter_admitted Reactor.writing [] trivial
  rw [List.append_nil] at hadmitted
  have hstart : Run (Hosted.machine Reactor.writing) [] unprobing := .start _ ⟨_, _, rfl⟩
  exact ⟨_, hstart.play _ _ _ _ hadmitted⟩

def slowFlush : FlushPass Uptime where
  clock n := if n = 0 then millis 1000 else millis 1200
  timely := by
    intro m n hmn
    dsimp only
    split
    · split
      · exact le_refl _
      · decide
    · rename_i hm
      rw [if_neg (by omega)]
  scratch := List.replicate 512 0
  v4 _ := .accepted (millis 1200)
  v6 _ := .accepted (millis 1200)
  rounds := 3

theorem slowFlush_sleeps :
    (Reactor.flushPass slowFlush (millis 11000)
      (Reactor.beginEveryWithdrawal printerHost (millis 1000))).map
        (fun turn => (turn.parkedAt, turn.ended)) =
      some (millis 1200, .sleeps (Duration.fromMillis 450)) := by
  decide +kernel

theorem slowFlush_flushes : ∃ turn,
    Flushes Reactor.flushPass (millis 11000)
      (Reactor.beginEveryWithdrawal printerHost (millis 1000)) (millis 1000) [(slowFlush, turn)] ∧
      turn.parkedAt = millis 1200 ∧ turn.ended = .sleeps (Duration.fromMillis 450) := by
  obtain ⟨turn, hturn, hends⟩ := Option.map_eq_some_iff.mp slowFlush_sleeps
  rw [Prod.mk.injEq] at hends
  exact ⟨turn, ⟨rfl, hturn, .inl rfl⟩, hends⟩

/-- The second goodbye of the printer is due at 1.45 s, and the reactor sleeps until 1.65 s. -/
theorem goodbye_is_slept_over :
    ¬ ∀ (t backstop : Uptime) (d : Hosted Reactor.ServiceCtx Uptime ZeroRng ZeroRng Slab Slab)
      (turns : List (FlushPass Uptime ×
        FlushTurn Reactor.ServiceCtx Uptime ZeroRng ZeroRng Slab Slab)),
      checkedAddDuration t shutdownBackstop = some backstop →
      Reachable (Hosted.machine Reactor.writing) d →
      Flushes Reactor.flushPass backstop (Reactor.beginEveryWithdrawal d t) t turns →
      FlushedRight backstop d [(Reactor.beginEveryWithdrawal d t).endpoint] turns := by
  intro hall
  obtain ⟨turn, hflush, hparked, hended⟩ := slowFlush_flushes
  have hright := hall (millis 1000) (millis 11000) printerHost [(slowFlush, turn)] (by decide +kernel)
    printerHost_reachable hflush
  have hintime := (Reactor.flushed_right_iff printerHost
    (Hosted.reachable_mirrors _ _ printerHost_reachable) _ _ _ hflush).mp hright _
      List.mem_cons_self _ hended (by decide)
  have hsame : millis 1200 = millis 1000 := hparked.symm.trans hintime
  exact absurd hsame (by decide)

def droppedPrinter : List (Hosted.Step Uptime Compio.ContextNote) :=
  announcedPrinter Compio.ContextNote ++ [.write ⟨0⟩ .cancelled]

theorem droppedPrinter_flushes : ∃ turn,
    Flushes Compio.flushPass (millis 11000)
      ((Hosted.machine Compio.writing).play unprobing droppedPrinter :
        Hosted Compio.ServiceCtx Uptime ZeroRng ZeroRng Slab Slab) (millis 1000)
          [(slowFlush, turn)] := by
  have hpass : (Compio.flushPass slowFlush (millis 11000)
      ((Hosted.machine Compio.writing).play unprobing droppedPrinter :
        Hosted Compio.ServiceCtx Uptime ZeroRng ZeroRng Slab Slab)).isSome = true := by
    decide +kernel
  obtain ⟨turn, hturn⟩ := Option.isSome_iff_exists.mp hpass
  exact ⟨turn, rfl, hturn, .inl rfl⟩

theorem slow_fanout_flushes :
    (∃ turns, Flushes Reactor.flushPass (millis 11000)
        (Reactor.beginEveryWithdrawal printerHost (millis 1000)) (millis 1000) turns ∧
      ¬FlushedRight (millis 11000) printerHost
        [(Reactor.beginEveryWithdrawal printerHost (millis 1000)).endpoint] turns) ∧
      ∃ turns, FlushedRight (millis 11000)
        ((Hosted.machine Compio.writing).play unprobing droppedPrinter :
          Hosted Compio.ServiceCtx Uptime ZeroRng ZeroRng Slab Slab) [] turns := by
  obtain ⟨turn, hflush, hparked, hended⟩ := slowFlush_flushes
  obtain ⟨turn', hflush'⟩ := droppedPrinter_flushes
  have hboth := @shutdown_flush_iff Uptime ZeroRng ZeroRng Slab Slab _ _ _ _ _ _ _ (millis 1000)
    (millis 11000) (by decide +kernel)
  constructor
  · refine ⟨_, hflush, fun hright => ?_⟩
    have hintime := (hboth.1 printerHost _ printerHost_reachable hflush).mp hright _
      List.mem_cons_self _ hended (by decide)
    have hsame : millis 1200 = millis 1000 := hparked.symm.trans hintime
    exact absurd hsame (by decide)
  · have hstart : Run (Hosted.machine Compio.writing) []
        (unprobing : Hosted Compio.ServiceCtx Uptime ZeroRng ZeroRng Slab Slab) :=
      .start _ ⟨_, _, rfl⟩
    have hrun := hstart.play _ _ _ droppedPrinter
      (announcedPrinter_admitted Compio.writing [.write ⟨0⟩ .cancelled] ⟨trivial, trivial⟩)
    exact ⟨_, hboth.2 _ _ _ hrun (by decide +kernel) (List.cons_ne_nil _ _) hflush'⟩

end Hick
