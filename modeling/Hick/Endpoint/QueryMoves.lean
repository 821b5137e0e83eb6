import Hick.Endpoint.Queries
import Hick.Query.Numbers

/-!
# What the queries of an endpoint go through (endpoint/query.rs, endpoint/receive.rs)

No call but a start and a cancel lets a query come or go. What one query may do under a call, the
pool does under each handle.
-/

set_option linter.unusedSectionVars false

namespace Hick
open Octets Wire

def lastQueryHandle : UInt32 := 4294967295

theorem saturatingSucc32_lt (v : UInt32) (h : saturatingSucc32 v ≠ lastQueryHandle) :
    v.toNat < (saturatingSucc32 v).toNat := by
  rw [saturatingSucc32] at h ⊢
  split at h
  · rename_i hv
    exact absurd hv h
  · rename_i hv
    rw [if_neg hv]
    have hlt := v.toNat_lt
    have hne : v.toNat ≠ 4294967295 := fun e => hv (UInt32.toNat_inj.mp e)
    rw [UInt32.toNat_add]
    simp only [UInt32.toNat_one]
    omega

theorem saturatingSucc32_le (v : UInt32) : v ≤ saturatingSucc32 v := by
  by_cases h : saturatingSucc32 v = lastQueryHandle
  · rw [h, UInt32.le_iff_toNat_le]
    have := v.toNat_lt
    simp only [lastQueryHandle, UInt32.toNat_ofNat]
    omega
  · rw [UInt32.le_iff_toNat_le]
    exact le_of_lt (saturatingSucc32_lt v h)

theorem saturatingSucc32_ofNat (n : Nat) (h : n < 4294967295) :
    saturatingSucc32 (UInt32.ofNat n) = UInt32.ofNat (n + 1) := by
  have hne : UInt32.ofNat n ≠ 4294967295 := by
    intro hsame
    have hnat := congrArg UInt32.toNat hsame
    simp at hnat
    omega
  rw [saturatingSucc32, if_neg hne, UInt32.ofNat_add]
  rfl

namespace Queries
section
variable {I : Type} {QS AN EV : Type → Type} [Instant I] [Pool QS] [Pool AN] [Pool EV]
variable [ReleasingPool QS]

def Along (R : Query I AN EV → Query I AN EV → Prop) (e e' : Queries I QS AN EV) : Prop :=
  e'.nextQueryHandle = e.nextQueryHandle ∧
    (e.Distinct → e'.Distinct ∧ ∀ h, Option.Rel R (e.get? h) (e'.get? h))

theorem rel_refl {α : Type} (R : α → α → Prop) (hR : ∀ a, R a a) (o : Option α) :
    Option.Rel R o o := by
  cases o with
  | none => exact .none
  | some a => exact .some (hR a)

variable (R : Query I AN EV → Query I AN EV → Prop)

theorem Along.refl (hR : ∀ q, R q q) (e : Queries I QS AN EV) : Along R e e :=
  ⟨rfl, fun hd => ⟨hd, fun h => rel_refl R hR (e.get? h)⟩⟩

theorem Along.trans (hR : ∀ q p r, R q p → R p r → R q r) (a b c : Queries I QS AN EV)
    (h : Along R a b) (h' : Along R b c) : Along R a c := by
  refine ⟨by rw [h'.1, h.1], fun hd => ?_⟩
  obtain ⟨hdb, hab⟩ := h.2 hd
  obtain ⟨hdc, hbc⟩ := h'.2 hdb
  refine ⟨hdc, fun k => ?_⟩
  have h1 := hab k
  have h2 := hbc k
  generalize a.get? k = x at *
  generalize b.get? k = y at *
  generalize c.get? k = z at *
  cases h1 with
  | none =>
    cases h2 with
    | none => exact .none
  | some hqp =>
    cases h2 with
    | some hpr => exact .some (hR _ _ _ hqp hpr)

theorem Along.mono (R' : Query I AN EV → Query I AN EV → Prop) (hR : ∀ q p, R q p → R' q p)
    (e e' : Queries I QS AN EV) (h : Along R e e') : Along R' e e' := by
  refine ⟨h.1, fun hd => ?_⟩
  obtain ⟨hd', hall⟩ := h.2 hd
  refine ⟨hd', fun k => ?_⟩
  have hone := hall k
  generalize e.get? k = x at *
  generalize e'.get? k = y at *
  cases hone with
  | none => exact .none
  | some hqp => exact .some (hR _ _ hqp)

theorem along_call {α : Type} (hrefl : ∀ q, R q q) (e : Queries I QS AN EV) (handle : QueryHandle)
    (absent : α) (f : Query I AN EV → Query I AN EV × α) (hf : ∀ q, R q (f q).1)
    (hhandle : ∀ q, (f q).1.handle = q.handle) : Along R e (e.call handle absent f).1 := by
  refine ⟨?_, fun hd => ?_⟩
  · rw [call]
    split
    · rfl
    · split
      · rfl
      · rfl
  · obtain ⟨hd', hget⟩ := e.call_get? hd handle absent f hhandle
    refine ⟨hd', fun h => ?_⟩
    rw [hget]
    split
    · cases e.get? h with
      | none => exact .none
      | some q => exact .some (hf q)
    · exact rel_refl R hrefl _

theorem along_mapAll (e : Queries I QS AN EV) (f : Query I AN EV → Query I AN EV)
    (hf : ∀ q, R q (f q)) (hhandle : ∀ q, (f q).handle = q.handle) : Along R e (e.mapAll f) := by
  refine ⟨rfl, fun hd => ?_⟩
  obtain ⟨hd', hget⟩ := mapAll_get? f hhandle e hd
  refine ⟨hd', fun h => ?_⟩
  rw [hget]
  cases e.get? h with
  | none => exact .none
  | some q => exact .some (hf q)

end

section
variable {I : Type} {QS AN EV : Type → Type} [Instant I] [Pool QS] [Pool AN] [Pool EV]
variable [ReleasingPool QS] [LawfulPool AN]

theorem Along.settled (e e' : Queries I QS AN EV) (h : Along Query.Settled e e') :
    Along Query.Evolves e e' := h.mono Query.Settled Query.Evolves (fun _ _ hs => hs.evolves) e e'

theorem duplicate_settled (now : I) (question : QuestionRef) (q : Query I AN EV) :
    q.Settled (duplicate now question q) := by
  rw [duplicate]
  split
  · exact Query.Settled.refl q
  · split
    · exact q.noteDuplicateQuestion_settled now
    · exact Query.Settled.refl q

theorem along_receive_of (R : Query I AN EV → Query I AN EV → Prop) (hrefl : ∀ q, R q q)
    (htrans : ∀ q p r, R q p → R p r → R q r) (now : I)
    (hhear : ∀ q r, R q (q.hear now r)) (hduplicate : ∀ q question, R q (duplicate now question q))
    (e : Queries I QS AN EV) (records : List Ref) (questions : List QuestionRef) :
    Along R e (e.receive now records questions) := by
  have hrecords : ∀ (records : List Ref) (e : Queries I QS AN EV),
      Along R e (records.foldl (fun e r => e.mapAll fun q => q.hear now r) e) := by
    intro records
    induction records with
    | nil =>
      intro e
      exact Along.refl R hrefl e
    | cons r rest ih =>
      intro e
      have hone : Along R e (e.mapAll fun q => q.hear now r) :=
        along_mapAll R e _ (fun q => hhear q r) fun q => (q.hear_evolves now r).handle
      exact Along.trans R htrans _ _ _ hone (ih _)
  have hquestions : ∀ (questions : List QuestionRef) (e : Queries I QS AN EV),
      Along R e (questions.foldl (fun e question => e.mapAll (duplicate now question)) e) := by
    intro questions
    induction questions with
    | nil =>
      intro e
      exact Along.refl R hrefl e
    | cons question rest ih =>
      intro e
      have hone : Along R e (e.mapAll (duplicate now question)) :=
        along_mapAll R e _ (fun q => hduplicate q question)
          fun q => (duplicate_settled now question q).evolves.handle
      exact Along.trans R htrans _ _ _ hone (ih _)
  exact Along.trans R htrans _ _ _ (hrecords records e) (hquestions questions _)

variable (e : Queries I QS AN EV) (handle : QueryHandle)

theorem along_receive (now : I) (records : List Ref)
    (questions : List QuestionRef) : Along Query.Evolves e (e.receive now records questions) :=
  along_receive_of Query.Evolves Query.Evolves.refl Query.Evolves.trans now
    (fun q r => q.hear_evolves now r) (fun q question => (duplicate_settled now question q).evolves)
    e records questions

theorem along_pollQuery :
    Along Query.Settled e (e.pollQuery handle).1 :=
  along_call _ Query.Settled.refl e handle none Query.pollQuery
    (fun q => q.pollQuery_settled) fun q => q.pollQuery_handle

theorem along_pollQueryTransmit (now : I)
    (buf : Bytes) : Along Query.Settled e (e.pollQueryTransmit handle now buf).1 :=
  along_call _ Query.Settled.refl e handle _ (fun q => q.pollTransmit now buf)
    (fun q => q.pollTransmit_settled now buf) fun q => (q.pollTransmit_settled now buf).evolves.handle

theorem along_noteQueryTransmitOutcome (now : I)
    (v4 v6 : FamilyAttempt I) :
    Along Query.Settled e (e.noteQueryTransmitOutcome handle now v4 v6).1 :=
  along_call _ Query.Settled.refl e handle _ (fun q => q.noteTransmitOutcome now v4 v6)
    (fun q => q.noteTransmitOutcome_settled now v4 v6)
    fun q => (q.noteTransmitOutcome_settled now v4 v6).evolves.handle

theorem along_handleQueryTimeout (now : I) :
    Along Query.Settled e (e.handleQueryTimeout handle now) :=
  along_call _ Query.Settled.refl e handle () (fun q => (q.handleTimeout now, ()))
    (fun q => q.handleTimeout_settled now) fun q => (q.handleTimeout_settled now).evolves.handle

theorem along_retireQuery :
    Along Query.Settled e (e.retireQuery handle) :=
  along_call _ Query.Settled.refl e handle () (fun q => (q.retire, ()))
    (fun q => q.retire_settled) fun q => q.retire_settled.evolves.handle

end
end Queries

section
variable {I : Type} {QS AN EV : Type → Type} [Instant I] [Pool QS] [Pool AN] [Pool EV]

theorem cancelQuery_next (e : Queries I QS AN EV) (handle : QueryHandle) :
    (e.cancelQuery handle).nextQueryHandle = e.nextQueryHandle := by
  rw [Queries.cancelQuery]
  split
  · rfl
  · split
    · rfl
    · rfl

theorem tryStartQuery_next (e : Queries I QS AN EV) (spec : QuerySpec) (at_ : I) :
    (e.tryStartQuery spec at_).1.nextQueryHandle = saturatingSucc32 e.nextQueryHandle := by
  rw [Queries.tryStartQuery]
  simp only
  split
  · rfl
  · rfl

variable [ReleasingPool QS] [LawfulPool AN] [LawfulPool EV]

theorem get_new {P : Type → Type} [Pool P] [LawfulPool P] {V : Type} (k : Nat) :
    Pool.get (Pool.new : P V) k = none := by
  cases h : Pool.get (Pool.new : P V) k with
  | none => rfl
  | some v =>
    have hmem := (LawfulPool.mem_iter (Pool.new : P V) k v).mpr h
    rw [LawfulPool.iter_new] at hmem
    cases hmem

theorem started_numbered (e : Queries I QS AN EV) (spec : QuerySpec) (at_ : I) :
    (e.started spec at_).Numbered ∧ (e.started spec at_).nextSeq = 0 ∧
      (e.started spec at_).timeoutDeadline =
        spec.timeout.bind fun dur => checkedAddDuration at_ dur := by
  have hnone : ∀ k, Pool.get (e.started spec at_).answers k = none := by
    intro k
    rw [Queries.started]
    cases spec.maxAnswers with
    | none => exact get_new k
    | some max => exact get_new k
  have hsilent : (e.started spec at_).terminalEmitted = false ∧
      Pool.iter (e.started spec at_).pendingUpdates = [] := by
    rw [Queries.started]
    cases spec.maxAnswers with
    | none => exact ⟨rfl, LawfulPool.iter_new⟩
    | some max => exact ⟨rfl, LawfulPool.iter_new⟩
  refine ⟨⟨fun _ k a ha => ?_, fun _ k j a b ha _ _ => ?_, fun hend => ?_⟩, ?_⟩
  · rw [hnone] at ha
    cases ha
  · rw [hnone] at ha
    cases ha
  · rw [hsilent.1, hsilent.2] at hend
    simp at hend
  · rw [Queries.started]
    cases spec.maxAnswers with
    | none => exact ⟨rfl, rfl⟩
    | some max => exact ⟨rfl, rfl⟩

theorem tryStartQuery_spec (e : Queries I QS AN EV) (hd : e.Distinct) (hfresh : e.Fresh)
    (spec : QuerySpec) (at_ : I) (e' : Queries I QS AN EV)
    (result : Except StartQueryError QueryHandle) (h : e.tryStartQuery spec at_ = (e', result)) :
    e'.Distinct ∧ e'.nextQueryHandle = saturatingSucc32 e.nextQueryHandle ∧
      (result = .error .storageFull ∧ (∀ k, e'.get? k = e.get? k) ∨
        result = .ok ⟨e.nextQueryHandle⟩ ∧ ∀ k, e'.get? k =
          if k = ⟨e.nextQueryHandle⟩ then some (e.started spec at_) else e.get? k) := by
  have hspec := e.tryStartQuery_get? hd hfresh spec at_
  rw [h] at hspec
  exact hspec

end
end Hick
