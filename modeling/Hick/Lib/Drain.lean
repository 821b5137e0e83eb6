import Mathlib

/-!
# Draining a resumable iterator

An iterator is a state and one pass of its loop. A pass moves on in silence, has an effect, hands an
item to the caller, or stops.
-/

namespace Drain

inductive Move (σ ω : Type) where
  | stop
  | quiet (next : σ)
  | emit (effect : ω) (next : σ)
  | yield_ (item : ω) (next : σ)

section
variable {σ ω : Type} (step : σ → Move σ ω)

def next : Nat → σ → Option (List ω × Option ω × σ)
  | 0, _ => none
  | fuel + 1, s =>
    match step s with
    | .stop => some ([], none, s)
    | .quiet t => next fuel t
    | .emit o t => (next fuel t).map fun (os, item, u) => (o :: os, item, u)
    | .yield_ o t => some ([], some o, t)

/-- Calls until there is no further item: the effects and the items, in their order. -/
def drain (fuel : Nat) : Nat → σ → Option (List ω × σ)
  | 0, _ => none
  | calls + 1, s =>
    match next step fuel s with
    | none => none
    | some (os, none, t) => some (os, t)
    | some (os, some item, t) =>
      (drain fuel calls t).map fun (rest, u) => (os ++ item :: rest, u)

/-- Enough passes and calls drain `s`, with the output `os`, and leave `t`. -/
def Drains (s : σ) (os : List ω) (t : σ) : Prop :=
  ∃ enough, ∀ fuel calls, enough ≤ fuel → enough ≤ calls →
    drain step fuel calls s = some (os, t)

attribute [local simp] next drain

theorem drain_congr (fuel calls : Nat) (s t : σ) (h : next step fuel s = next step fuel t) :
    drain step fuel calls s = drain step fuel calls t := by
  cases calls with
  | zero => rfl
  | succ calls => rw [drain, drain, h]

theorem next_succ (fuel : Nat) (s : σ) (r : List ω × Option ω × σ)
    (h : next step fuel s = some r) : next step (fuel + 1) s = some r := by
  induction fuel generalizing s r with
  | zero => cases h
  | succ fuel ih =>
    rw [next] at h ⊢
    cases hstep : step s with
    | stop =>
      rw [hstep] at h
      exact h
    | yield_ o t =>
      rw [hstep] at h
      exact h
    | quiet t =>
      rw [hstep] at h
      exact ih t r h
    | emit o t =>
      rw [hstep] at h
      obtain ⟨r', hr', rfl⟩ := Option.map_eq_some_iff.mp h
      simp only [ih t r' hr', Option.map_some]

theorem drain_some_next (fuel calls : Nat) (s : σ) (r : List ω × σ)
    (h : drain step fuel (calls + 1) s = some r) : ∃ n, next step fuel s = some n := by
  rw [drain] at h
  cases hnext : next step fuel s with
  | none =>
    rw [hnext] at h
    cases h
  | some n => exact ⟨n, rfl⟩

theorem Drains.stop (s : σ) (h : step s = .stop) : Drains step s [] s := by
  refine ⟨1, ?_⟩
  intro fuel calls hfuel hcalls
  obtain ⟨fuel, rfl⟩ := Nat.exists_eq_add_of_le' hfuel
  obtain ⟨calls, rfl⟩ := Nat.exists_eq_add_of_le' hcalls
  simp only [drain, next, h]

theorem Drains.quiet (s t u : σ) (os : List ω) (h : step s = .quiet t)
    (hrest : Drains step t os u) : Drains step s os u := by
  obtain ⟨enough, hdrain⟩ := hrest
  refine ⟨enough + 1, ?_⟩
  intro fuel calls hfuel hcalls
  obtain ⟨fuel, rfl⟩ := Nat.exists_eq_add_of_le' (le_trans (Nat.le_add_left 1 enough) hfuel)
  obtain ⟨calls, rfl⟩ := Nat.exists_eq_add_of_le' (le_trans (Nat.le_add_left 1 enough) hcalls)
  have hless := hdrain fuel (calls + 1) (by omega) (by omega)
  obtain ⟨n, hn⟩ := drain_some_next step fuel calls t _ hless
  have hsame : next step (fuel + 1) s = next step (fuel + 1) t := by
    rw [next_succ step fuel t n hn, next, h]
    exact hn
  rw [drain_congr step (fuel + 1) (calls + 1) s t hsame]
  exact hdrain (fuel + 1) (calls + 1) (by omega) (by omega)

theorem Drains.emit (s t u : σ) (o : ω) (os : List ω) (h : step s = .emit o t)
    (hrest : Drains step t os u) : Drains step s (o :: os) u := by
  obtain ⟨enough, hdrain⟩ := hrest
  refine ⟨enough + 1, ?_⟩
  intro fuel calls hfuel hcalls
  obtain ⟨fuel, rfl⟩ := Nat.exists_eq_add_of_le' (le_trans (Nat.le_add_left 1 enough) hfuel)
  obtain ⟨calls, rfl⟩ := Nat.exists_eq_add_of_le' (le_trans (Nat.le_add_left 1 enough) hcalls)
  have hless := hdrain fuel (calls + 1) (by omega) (by omega)
  have hmore := hdrain (fuel + 1) (calls + 1) (by omega) (by omega)
  obtain ⟨n, hn⟩ := drain_some_next step fuel calls t _ hless
  obtain ⟨effects, item, v⟩ := n
  have hnext : next step (fuel + 1) s = some (o :: effects, item, v) := by
    simp only [next, h, hn, Option.map_some]
  rw [drain, next_succ step fuel t _ hn] at hmore
  rw [drain, hnext]
  cases item with
  | none =>
    obtain ⟨rfl, rfl⟩ := Prod.mk.inj (Option.some.inj hmore)
    rfl
  | some item =>
    obtain ⟨r, hr, heq⟩ := Option.map_eq_some_iff.mp hmore
    obtain ⟨rfl, rfl⟩ := Prod.mk.inj heq
    simp only [hr, Option.map_some, List.cons_append]

theorem Drains.yield_ (s t u : σ) (o : ω) (os : List ω) (h : step s = .yield_ o t)
    (hrest : Drains step t os u) : Drains step s (o :: os) u := by
  obtain ⟨enough, hdrain⟩ := hrest
  refine ⟨enough + 1, ?_⟩
  intro fuel calls hfuel hcalls
  obtain ⟨fuel, rfl⟩ := Nat.exists_eq_add_of_le' (le_trans (Nat.le_add_left 1 enough) hfuel)
  obtain ⟨calls, rfl⟩ := Nat.exists_eq_add_of_le' (le_trans (Nat.le_add_left 1 enough) hcalls)
  have hrest := hdrain (fuel + 1) calls (by omega) (by omega)
  simp only [drain, next, h, hrest, Option.map_some, List.nil_append]

/-- A move keeps the invariant, comes nearer to the end, and puts out the head of what was left.
What the effects and items change is folded into `view`. -/
def Follows {α μ : Type} (Inv : σ → Prop) (left : σ → List ω) (view : σ → α)
    (change : α → ω → α) (measure : σ → μ) (less : μ → μ → Prop) (s : σ) : Move σ ω → Prop
  | .stop => left s = []
  | .quiet t => Inv t ∧ less (measure t) (measure s) ∧ left s = left t ∧ view t = view s
  | .emit o t | .yield_ o t =>
    Inv t ∧ less (measure t) (measure s) ∧ left s = o :: left t ∧ view t = change (view s) o

theorem drains {α μ : Type} (Inv : σ → Prop) (left : σ → List ω) (view : σ → α)
    (change : α → ω → α) (measure : σ → μ) (less : μ → μ → Prop) (hwf : WellFounded less)
    (hstep : ∀ s, Inv s → Follows Inv left view change measure less s (step s)) (s : σ)
    (h : Inv s) :
    ∃ t, Drains step s (left s) t ∧ step t = .stop ∧ view t = (left s).foldl change (view s) := by
  induction hm : measure s using hwf.induction generalizing s with
  | h m ih =>
    subst hm
    have hfollows := hstep s h
    cases hmove : step s with
    | stop =>
      rw [hmove] at hfollows
      rw [Follows] at hfollows
      rw [hfollows]
      exact ⟨s, Drains.stop step s hmove, hmove, rfl⟩
    | quiet t =>
      rw [hmove] at hfollows
      obtain ⟨hinv, hless, hleft, hview⟩ := hfollows
      obtain ⟨u, hdrains, hstop, hend⟩ := ih _ hless t hinv rfl
      rw [hleft, ← hview]
      exact ⟨u, hdrains.quiet step s t u _ hmove, hstop, hend⟩
    | emit o t =>
      rw [hmove] at hfollows
      obtain ⟨hinv, hless, hleft, hview⟩ := hfollows
      obtain ⟨u, hdrains, hstop, hend⟩ := ih _ hless t hinv rfl
      rw [hleft, List.foldl_cons, ← hview]
      exact ⟨u, hdrains.emit step s t u o _ hmove, hstop, hend⟩
    | yield_ o t =>
      rw [hmove] at hfollows
      obtain ⟨hinv, hless, hleft, hview⟩ := hfollows
      obtain ⟨u, hdrains, hstop, hend⟩ := ih _ hless t hinv rfl
      rw [hleft, List.foldl_cons, ← hview]
      exact ⟨u, hdrains.yield_ step s t u o _ hmove, hstop, hend⟩

end

section
variable {α β : Type}

def scan (answer : α → Option β) (start : Nat) : List (Nat × α) → Option (Nat × β)
  | [] => none
  | (key, a) :: rest =>
    if key < start then scan answer start rest
    else
      match answer a with
      | some b => some (key, b)
      | none => scan answer start rest

def hits (answer : α → Option β) (start : Nat) : List (Nat × α) → List (Nat × β)
  | [] => []
  | (key, a) :: rest =>
    if key < start then hits answer start rest
    else
      match answer a with
      | some b => (key, b) :: hits answer start rest
      | none => hits answer start rest

def ahead (start : Nat) : List (Nat × α) → Nat
  | [] => 0
  | (key, _) :: rest => if key < start then ahead start rest else ahead start rest + 1

attribute [local simp] scan hits ahead

variable (answer : α → Option β)

theorem scan_none (start : Nat) (table : List (Nat × α))
    (h : scan answer start table = none) : hits answer start table = [] := by
  induction table with
  | nil => rfl
  | cons entry rest ih =>
    obtain ⟨key, a⟩ := entry
    rw [scan] at h
    rw [hits]
    by_cases hkey : key < start
    · rw [if_pos hkey] at h ⊢
      exact ih h
    · rw [if_neg hkey] at h ⊢
      cases hanswer : answer a with
      | none =>
        rw [hanswer] at h
        exact ih h
      | some b =>
        rw [hanswer] at h
        cases h

theorem scan_mem (start key : Nat) (b : β) (table : List (Nat × α))
    (h : scan answer start table = some (key, b)) :
    start ≤ key ∧ ∃ a, (key, a) ∈ table ∧ answer a = some b := by
  induction table with
  | nil => cases h
  | cons entry rest ih =>
    obtain ⟨k, a⟩ := entry
    rw [scan] at h
    by_cases hkey : k < start
    · rw [if_pos hkey] at h
      obtain ⟨hle, a', hmem, hanswer⟩ := ih h
      exact ⟨hle, a', List.mem_cons_of_mem _ hmem, hanswer⟩
    · rw [if_neg hkey] at h
      cases hanswer : answer a with
      | some b' =>
        rw [hanswer] at h
        obtain ⟨rfl, rfl⟩ := Prod.mk.inj (Option.some.inj h)
        exact ⟨Nat.le_of_not_lt hkey, a, List.mem_cons_self, hanswer⟩
      | none =>
        rw [hanswer] at h
        obtain ⟨hle, a', hmem, hanswer'⟩ := ih h
        exact ⟨hle, a', List.mem_cons_of_mem _ hmem, hanswer'⟩

theorem hits_past (i j : Nat) (table : List (Nat × α))
    (h : ∀ entry ∈ table, i ≤ entry.1 ∧ j ≤ entry.1) :
    hits answer i table = hits answer j table ∧ ahead i table = ahead j table := by
  induction table with
  | nil => exact ⟨rfl, rfl⟩
  | cons entry rest ih =>
    obtain ⟨k, a⟩ := entry
    obtain ⟨hi, hj⟩ := h (k, a) List.mem_cons_self
    obtain ⟨hhits, hahead⟩ := ih fun entry hentry => h entry (List.mem_cons_of_mem _ hentry)
    rw [hits, hits, ahead, ahead, if_neg (Nat.not_lt.mpr hi), if_neg (Nat.not_lt.mpr hj),
      if_neg (Nat.not_lt.mpr hi), if_neg (Nat.not_lt.mpr hj), hhits, hahead]
    exact ⟨rfl, rfl⟩

theorem scan_some (start key : Nat) (b : β) (table : List (Nat × α))
    (hsorted : table.Pairwise fun p q => p.1 < q.1)
    (h : scan answer start table = some (key, b)) :
    hits answer start table = (key, b) :: hits answer (key + 1) table ∧
      ahead (key + 1) table < ahead start table := by
  induction table with
  | nil => cases h
  | cons entry rest ih =>
    obtain ⟨k, a⟩ := entry
    obtain ⟨hfirst, hrest⟩ := List.pairwise_cons.mp hsorted
    rw [scan] at h
    rw [hits, hits, ahead, ahead]
    by_cases hkey : k < start
    · rw [if_pos hkey] at h
      have hbefore : k < key + 1 := by
        have hle := (scan_mem answer start key b rest h).1
        omega
      rw [if_pos hkey, if_pos hkey, if_pos hbefore, if_pos hbefore]
      exact ih hrest h
    · rw [if_neg hkey] at h
      rw [if_neg hkey, if_neg hkey]
      cases hanswer : answer a with
      | some b' =>
        rw [hanswer] at h
        obtain ⟨rfl, rfl⟩ := Prod.mk.inj (Option.some.inj h)
        rw [if_pos (Nat.lt_succ_self k), if_pos (Nat.lt_succ_self k)]
        obtain ⟨hhits, hahead⟩ := hits_past answer start (k + 1) rest (by
          intro entry hentry
          have hlt := hfirst entry hentry
          omega)
        rw [hhits, hahead]
        exact ⟨rfl, Nat.lt_succ_self _⟩
      | none =>
        rw [hanswer] at h
        have hbefore : k < key + 1 := by
          obtain ⟨-, a', hmem, -⟩ := scan_mem answer start key b rest h
          have hlt := hfirst _ hmem
          omega
        obtain ⟨hhits, hahead⟩ := ih hrest h
        rw [if_pos hbefore, if_pos hbefore]
        exact ⟨hhits, Nat.lt_succ_of_lt hahead⟩

theorem hits_zero (table : List (Nat × α)) :
    hits answer 0 table = table.filterMap fun entry => (answer entry.2).map (entry.1, ·) := by
  induction table with
  | nil => rfl
  | cons entry rest ih =>
    obtain ⟨k, a⟩ := entry
    rw [hits, if_neg (Nat.not_lt_zero k), List.filterMap_cons]
    cases answer a with
    | none => exact ih
    | some b => exact congrArg ((k, b) :: ·) ih

end
end Drain
