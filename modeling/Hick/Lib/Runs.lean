import Mathlib

/-!
# Runs of a machine and what they leave behind

A machine is driven by calls; `admits` is the contract its callers keep. A run is the list of its
transitions, oldest first.
-/

namespace Runs

structure Machine (σ ε : Type) where
  start : σ → Prop
  admits : σ → ε → Prop
  next : σ → ε → σ

structure Transition (σ ε : Type) where
  pre : σ
  call : ε
  post : σ

section
variable {σ ε γ : Type} (m : Machine σ ε)

def Machine.transition (s : σ) (e : ε) : Transition σ ε := ⟨s, e, m.next s e⟩

/-- `Run m ts s`: the transitions `ts` lead from a start state to `s`. -/
inductive Run : List (Transition σ ε) → σ → Prop
  | start (s : σ) (h : m.start s) : Run [] s
  | step (ts : List (Transition σ ε)) (s : σ) (e : ε) (run : Run ts s) (h : m.admits s e) :
    Run (ts ++ [m.transition s e]) (m.next s e)

def Reachable (s : σ) : Prop := ∃ ts, Run m ts s

def summary (add : γ → Transition σ ε → γ) (empty : γ) (ts : List (Transition σ ε)) : γ :=
  ts.foldl add empty

theorem summary_snoc (add : γ → Transition σ ε → γ) (empty : γ) (ts : List (Transition σ ε))
    (t : Transition σ ε) : summary add empty (ts ++ [t]) = add (summary add empty ts) t := by
  simp only [summary, List.foldl_append, List.foldl_cons, List.foldl_nil]

/-- A relation between the summary and the state holds after every run whose transitions
all meet `Fair`, when it holds at the start and every such transition keeps it. -/
theorem Run.invariant (add : γ → Transition σ ε → γ) (empty : γ) (Inv : γ → σ → Prop)
    (Fair : Transition σ ε → Prop)
    (hstart : ∀ s, m.start s → Inv empty s)
    (hstep : ∀ g s e, Inv g s → m.admits s e → Fair (m.transition s e) →
      Inv (add g (m.transition s e)) (m.next s e))
    (ts : List (Transition σ ε)) (s : σ) (run : Run m ts s) (hfair : ∀ t ∈ ts, Fair t) :
    Inv (summary add empty ts) s := by
  induction run with
  | start s h => exact hstart s h
  | step ts s e run h ih =>
    rw [summary_snoc]
    have hpast := ih fun t ht => hfair t (List.mem_append_left _ ht)
    exact hstep _ s e hpast h (hfair _ (List.mem_append_right _ (List.mem_singleton.mpr rfl)))

theorem Reachable.invariant (Inv : σ → Prop) (hstart : ∀ s, m.start s → Inv s)
    (hstep : ∀ s e, Inv s → m.admits s e → Inv (m.next s e)) (s : σ) (h : Reachable m s) :
    Inv s := by
  obtain ⟨ts, run⟩ := h
  exact run.invariant m (fun (g : Unit) _ => g) () (fun _ s => Inv s) (fun _ => True) hstart
    (fun _ s e hs ha _ => hstep s e hs ha) ts s fun _ _ => trivial

variable (ts : List (Transition σ ε))

theorem Run.mem (s : σ) (run : Run m ts s) (t : Transition σ ε)
    (ht : t ∈ ts) : t = m.transition t.pre t.call ∧ m.admits t.pre t.call := by
  induction run with
  | start s h => cases ht
  | step ts s e run h ih =>
    rcases List.mem_append.mp ht with hold | hnew
    · exact ih hold
    · rw [List.mem_singleton.mp hnew]
      exact ⟨rfl, h⟩

theorem Run.reached (s : σ) (run : Run m ts s) (t : Transition σ ε)
    (ht : t ∈ ts) : Reachable m t.pre := by
  induction run with
  | start s h => cases ht
  | step ts s e run h ih =>
    rcases List.mem_append.mp ht with hold | hnew
    · exact ih hold
    · rw [List.mem_singleton.mp hnew]
      exact ⟨ts, run⟩

theorem Run.chain (s : σ) (run : Run m ts s) :
    ts.IsChain (fun t u => t.post = u.pre) ∧ ∀ t ∈ ts.getLast?, t.post = s := by
  induction run with
  | start s h => exact ⟨List.IsChain.nil, nofun⟩
  | step ts s e run h ih =>
    obtain ⟨hchain, hlast⟩ := ih
    constructor
    · rw [List.isChain_append]
      refine ⟨hchain, List.IsChain.singleton _, ?_⟩
      intro t ht u hu
      rw [List.head?_singleton, Option.mem_some_iff] at hu
      rw [← hu]
      exact hlast t ht
    · intro t ht
      rw [List.getLast?_append, List.getLast?_singleton, Option.some_or, Option.mem_some_iff] at ht
      rw [← ht]
      rfl

def Machine.play (s : σ) (es : List ε) : σ := es.foldl m.next s

def Machine.trace {σ ε : Type} (m : Machine σ ε) (s : σ) : List ε → List (Transition σ ε)
  | [] => []
  | e :: es => m.transition s e :: Machine.trace m (m.next s e) es

def Machine.Admitted {σ ε : Type} (m : Machine σ ε) (s : σ) : List ε → Prop
  | [] => True
  | e :: es => m.admits s e ∧ Machine.Admitted m (m.next s e) es

instance Machine.decidableAdmitted {σ ε : Type} (m : Machine σ ε)
    [∀ s e, Decidable (m.admits s e)] (s : σ) : ∀ es : List ε, Decidable (m.Admitted s es)
  | [] => isTrue trivial
  | e :: es =>
    match (inferInstance : Decidable (m.admits s e)),
        Machine.decidableAdmitted m (m.next s e) es with
    | isTrue h, isTrue hs => isTrue ⟨h, hs⟩
    | isFalse h, _ => isFalse fun hs => h hs.1
    | _, isFalse h => isFalse fun hs => h hs.2

theorem Run.play (s : σ) (run : Run m ts s) (es : List ε)
    (h : m.Admitted s es) : Run m (ts ++ m.trace s es) (m.play s es) := by
  induction es generalizing ts s with
  | nil =>
    rw [Machine.trace, List.append_nil]
    exact run
  | cons e es ih =>
    have hrest := ih _ _ (run.step ts s e h.1) h.2
    rw [List.append_assoc] at hrest
    exact hrest

end
end Runs
