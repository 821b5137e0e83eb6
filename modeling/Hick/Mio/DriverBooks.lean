import Hick.Mio.Driver
import Hick.Endpoint.QueryMoves

/-!
# The books of the driver (hick-mio/src/driver.rs, hick-mio/src/discovery.rs, endpoint/query.rs)

The core and the driver have the same queries; a query that a lookup owns is among the sub-queries
of that lookup, and the sub-queries of a lookup that are still there are its own.
-/

set_option linter.unusedSectionVars false

namespace Hick
open Octets Wire

namespace Mdns
section
variable {I : Type} {QS AN EV LK : Type → Type} [Instant I] [Pool QS] [Pool AN] [Pool EV] [Pool LK]

/-- The books of a driver whose lookups are in the slots that `slots` says. A sub-query that goes on
has the deadline of its lookup. -/
structure Books (m : Mdns I QS AN EV LK) (slots : Nat → Option (LookupCtx I)) : Prop where
  distinct : m.endpoint.Distinct
  shared : ∀ h, (m.endpoint.get? h).isSome = true ↔ h ∈ m.queries
  issued : ∀ h, h ∈ m.queries → h.raw.toNat < m.endpoint.nextQueryHandle.toNat
  numbered : ∀ h q, m.endpoint.get? h = some q → q.Numbered
  read : ∀ h ctx q, m.queries.lookup h = some ctx → m.endpoint.get? h = some q →
    ctx.lastSeq ≤ q.nextSeq
  owned : ∀ h ctx owner, m.queries.lookup h = some ctx → ctx.owner = some owner →
    ∃ lookup, slots owner.key = some lookup ∧ lookup.generation = owner.generation ∧
      h ∈ lookup.subqueries
  subs : ∀ key lookup h, slots key = some lookup → h ∈ lookup.subqueries →
    h.raw.toNat < m.endpoint.nextQueryHandle.toNat ∧
      ∀ ctx, m.queries.lookup h = some ctx → ctx.owner = some ⟨key, lookup.generation⟩
  window : ∀ key lookup h q, slots key = some lookup → h ∈ lookup.subqueries →
    m.endpoint.get? h = some q → q.done = true ∨ q.timeoutDeadline = lookup.deadline
  clock : Monotone m.clock
  boundless : ∀ key lookup n, slots key = some lookup → lookup.deadline = none →
    checkedAddDuration (m.clock n) lookup.timeout = none

def SameEntry (c c' : QueryCtx I) : Prop := c'.owner = c.owner ∧ c'.lastSeq = c.lastSeq

def Later (c c' : Nat → I) : Prop := ∃ k, c' = fun n => c (n + k)

theorem Later.refl (c : Nat → I) : Later c c := ⟨0, rfl⟩

theorem Later.trans (a b c : Nat → I) (h : Later a b) (h' : Later b c) : Later a c := by
  obtain ⟨k, rfl⟩ := h
  obtain ⟨j, rfl⟩ := h'
  refine ⟨j + k, ?_⟩
  funext n
  show a (n + j + k) = a (n + (j + k))
  rw [Nat.add_assoc]

theorem Later.monotone (c c' : Nat → I) (h : Later c c') (hm : Monotone c) : Monotone c' := by
  obtain ⟨k, rfl⟩ := h
  intro n j hle
  exact hm (Nat.add_le_add_right hle k)

structure Moves (m m' : Mdns I QS AN EV LK) : Prop where
  endpoint : Queries.Along Query.Evolves m.endpoint m'.endpoint
  queries : ∀ h, Option.Rel SameEntry (m.queries.lookup h) (m'.queries.lookup h)
  lookups : m'.lookups = m.lookups
  clock : Later m.clock m'.clock

theorem Moves.mem (m m' : Mdns I QS AN EV LK) (h : Moves m m') (k : QueryHandle) :
    k ∈ m'.queries ↔ k ∈ m.queries := by
  rw [Assoc.mem_iff, Assoc.mem_iff]
  have hk := h.queries k
  generalize m.queries.lookup k = x at *
  generalize m'.queries.lookup k = y at *
  cases hk with
  | none => simp
  | some hs => simp

theorem Moves.entry (m m' : Mdns I QS AN EV LK) (h : Moves m m') (k : QueryHandle)
    (ctx' : QueryCtx I) (hctx : m'.queries.lookup k = some ctx') :
    ∃ ctx, m.queries.lookup k = some ctx ∧ SameEntry ctx ctx' := by
  have hk := h.queries k
  rw [hctx] at hk
  generalize m.queries.lookup k = x at *
  cases hk with
  | some hs => exact ⟨_, rfl, hs⟩

variable [ReleasingPool QS] [LawfulPool AN]

theorem Moves.query (m m' : Mdns I QS AN EV LK) (h : Moves m m') (hd : m.endpoint.Distinct)
    (k : QueryHandle) (q' : Query I AN EV) (hq : m'.endpoint.get? k = some q') :
    ∃ q, m.endpoint.get? k = some q ∧ q.Evolves q' := by
  have hk := (h.endpoint.2 hd).2 k
  rw [hq] at hk
  generalize m.endpoint.get? k = x at *
  cases hk with
  | some hs => exact ⟨_, rfl, hs⟩

theorem Moves.refl (m : Mdns I QS AN EV LK) : Moves m m :=
  ⟨Queries.Along.refl _ Query.Evolves.refl _,
    fun _ => Queries.rel_refl SameEntry (fun _ => ⟨rfl, rfl⟩) _, rfl, .refl _⟩

theorem Moves.trans (a b c : Mdns I QS AN EV LK) (h : Moves a b) (h' : Moves b c) : Moves a c := by
  refine ⟨Queries.Along.trans _ Query.Evolves.trans _ _ _ h.endpoint h'.endpoint, fun k => ?_,
    by rw [h'.lookups, h.lookups], h.clock.trans _ _ _ h'.clock⟩
  have h1 := h.queries k
  have h2 := h'.queries k
  generalize a.queries.lookup k = x at *
  generalize b.queries.lookup k = y at *
  generalize c.queries.lookup k = z at *
  cases h1 with
  | none =>
    cases h2 with
    | none => exact .none
  | some hs =>
    cases h2 with
    | some hs' => exact .some ⟨by rw [hs'.1, hs.1], by rw [hs'.2, hs.2]⟩

theorem Books.moves (m m' : Mdns I QS AN EV LK) (slots : Nat → Option (LookupCtx I))
    (h : m.Books slots) (hm : Moves m m') : m'.Books slots := by
  obtain ⟨hd', hrel⟩ := hm.endpoint.2 h.distinct
  have hnext := hm.endpoint.1
  refine ⟨hd', fun k => ?_, fun k hk => ?_, fun k q hq => ?_, fun k ctx q hctx hq => ?_,
    fun k ctx owner hctx howner => ?_, fun key lookup k hslot hsub => ?_,
    fun key lookup k q hslot hsub hq => ?_, hm.clock.monotone _ _ h.clock,
    fun key lookup n hslot hnone => ?_⟩
  · rw [hm.mem, ← h.shared k]
    have hk := hrel k
    generalize m.endpoint.get? k = x at *
    generalize m'.endpoint.get? k = y at *
    cases hk with
    | none => exact Iff.rfl
    | some hs => exact Iff.rfl
  · rw [hnext]
    exact h.issued k ((hm.mem m m' k).mp hk)
  · obtain ⟨p, hp, hs⟩ := hm.query m m' h.distinct k q hq
    exact (hs.numbered (h.numbered k p hp)).1
  · obtain ⟨p, hp, hs⟩ := hm.query m m' h.distinct k q hq
    obtain ⟨c, hc, -, hseq⟩ := hm.entry m m' k ctx hctx
    rw [hseq]
    exact UInt64.le_trans (h.read k c p hc hp) (hs.numbered (h.numbered k p hp)).2
  · obtain ⟨c, hc, hsame, -⟩ := hm.entry m m' k ctx hctx
    exact h.owned k c owner hc (by rw [← hsame, howner])
  · obtain ⟨hlt, hown⟩ := h.subs key lookup k hslot hsub
    refine ⟨by rw [hnext]; exact hlt, fun ctx hctx => ?_⟩
    obtain ⟨c, hc, hsame, -⟩ := hm.entry m m' k ctx hctx
    rw [hsame]
    exact hown c hc
  · obtain ⟨p, hp, hs⟩ := hm.query m m' h.distinct k q hq
    rcases hs.window with ⟨hdone, hwindow⟩ | hdone
    · rw [hdone, hwindow]
      exact h.window key lookup k p hslot hsub hp
    · exact .inl hdone
  · obtain ⟨j, hj⟩ := hm.clock
    rw [hj]
    exact h.boundless key lookup (n + j) hslot hnone

theorem Books.drop (m : Mdns I QS AN EV LK) (slots : Nat → Option (LookupCtx I))
    (h : m.Books slots) (handle : QueryHandle) : (m.dropQuery handle).Books slots := by
  obtain ⟨hd', hget⟩ := m.endpoint.cancelQuery_get? h.distinct handle
  have hnext : (m.endpoint.cancelQuery handle).nextQueryHandle = m.endpoint.nextQueryHandle := by
    rw [Queries.cancelQuery]
    split
    · rfl
    · split
      · rfl
      · rfl
  have hlookup : ∀ k, (m.queries.erase handle).lookup k =
      if k = handle then none else m.queries.lookup k := fun k => Assoc.lookup_erase handle k _
  refine ⟨hd', fun k => ?_, fun k hk => ?_, fun k q hq => ?_, fun k ctx q hctx hq => ?_,
    fun k ctx owner hctx howner => ?_, fun key lookup k hslot hsub => ?_,
    fun key lookup k q hslot hsub hq => ?_, h.clock, h.boundless⟩
  · simp only [dropQuery]
    rw [hget, AList.mem_erase, ← h.shared k]
    split
    · rename_i heq
      simp [heq]
    · rename_i hne
      simp [hne]
  · simp only [dropQuery] at hk ⊢
    rw [hnext]
    exact h.issued k (AList.mem_erase.mp hk).2
  · simp only [dropQuery] at hq
    rw [hget] at hq
    split at hq
    · cases hq
    · exact h.numbered k q hq
  · simp only [dropQuery] at hctx hq
    rw [hlookup] at hctx
    rw [hget] at hq
    split at hq
    · cases hq
    · rename_i hne
      rw [if_neg hne] at hctx
      exact h.read k ctx q hctx hq
  · simp only [dropQuery] at hctx
    rw [hlookup] at hctx
    split at hctx
    · cases hctx
    · exact h.owned k ctx owner hctx howner
  · obtain ⟨hlt, hown⟩ := h.subs key lookup k hslot hsub
    simp only [dropQuery]
    refine ⟨by rw [hnext]; exact hlt, fun ctx hctx => ?_⟩
    rw [hlookup] at hctx
    split at hctx
    · cases hctx
    · exact hown ctx hctx
  · simp only [dropQuery] at hq
    rw [hget] at hq
    split at hq
    · cases hq
    · exact h.window key lookup k q hslot hsub hq

theorem Books.drops (handles : List QueryHandle) (m : Mdns I QS AN EV LK)
    (slots : Nat → Option (LookupCtx I)) (h : m.Books slots) :
    (handles.foldl dropQuery m).Books slots := by
  induction handles generalizing m with
  | nil => exact h
  | cons handle rest ih => exact ih _ (h.drop m slots handle)

theorem acceptedOf_eq (m : Mdns I QS AN EV LK) (handle : QueryHandle) (q : Query I AN EV)
    (hq : m.endpoint.get? handle = some q) : m.acceptedOf handle = q.nextSeq := by
  rw [acceptedOf, Queries.queryAcceptedCount, hq]
  rfl

theorem Books.markRead (m : Mdns I QS AN EV LK) (slots : Nat → Option (LookupCtx I))
    (h : m.Books slots) (handle : QueryHandle) : (m.markRead handle).Books slots := by
  have hlookup : ∀ k, (m.markRead handle).queries.lookup k =
      if k = handle then (m.queries.lookup k).map fun ctx =>
        { ctx with lastSeq := m.acceptedOf handle }
      else m.queries.lookup k := fun k => Assoc.lookup_modify _ handle k _
  have hentry : ∀ k ctx', (m.markRead handle).queries.lookup k = some ctx' →
      ∃ ctx, m.queries.lookup k = some ctx ∧ ctx'.owner = ctx.owner ∧
        (ctx'.lastSeq = ctx.lastSeq ∨ k = handle ∧ ctx'.lastSeq = m.acceptedOf handle) := by
    intro k ctx' hctx
    rw [hlookup] at hctx
    split at hctx
    · rename_i heq
      rw [Option.map_eq_some_iff] at hctx
      obtain ⟨ctx, hctx, rfl⟩ := hctx
      exact ⟨ctx, hctx, rfl, .inr ⟨heq, rfl⟩⟩
    · exact ⟨ctx', hctx, rfl, .inl rfl⟩
  have hmem : ∀ k, k ∈ (m.markRead handle).queries ↔ k ∈ m.queries := by
    intro k
    rw [Assoc.mem_iff, Assoc.mem_iff, hlookup]
    split
    · cases m.queries.lookup k <;> simp
    · exact Iff.rfl
  refine ⟨h.distinct, fun k => ?_, fun k hk => ?_, h.numbered, fun k ctx q hctx hq => ?_,
    fun k ctx owner hctx howner => ?_, fun key lookup k hslot hsub => ?_, h.window, h.clock,
    h.boundless⟩
  · rw [hmem]
    exact h.shared k
  · exact h.issued k ((hmem k).mp hk)
  · obtain ⟨c, hc, -, hseq | ⟨heq, hseq⟩⟩ := hentry k ctx hctx
    · rw [hseq]
      exact h.read k c q hc hq
    · rw [hseq, m.acceptedOf_eq handle q (by rw [← heq]; exact hq)]
      exact UInt64.le_refl _
  · obtain ⟨c, hc, hsame, -⟩ := hentry k ctx hctx
    exact h.owned k c owner hc (by rw [← hsame, howner])
  · obtain ⟨hlt, hown⟩ := h.subs key lookup k hslot hsub
    refine ⟨hlt, fun ctx hctx => ?_⟩
    obtain ⟨c, hc, hsame, -⟩ := hentry k ctx hctx
    rw [hsame]
    exact hown c hc

end
end Mdns
end Hick
