import Hick.Routing.Scene

/-!
# What routing reads (endpoint/route.rs, endpoint/matching.rs, wire/reader.rs)

Giving a service its event changes nothing of what routing reads of the services.
-/

set_option linter.unusedSectionVars false

namespace Hick
open Octets Wire Drain

section
variable {I G R : Type} {SR QS EV AN EvQ : Type → Type} [Instant I] [SeedSource G]
  [SeedableRng R] [Pool SR] [Pool QS] [Pool EV] [Pool AN] [Pool EvQ]

theorem iter_update {P : Type → Type} [Pool P] [OrderedPool P] {V : Type} (p : P V) (k : Nat)
    (f : V → V) : Pool.iter (Pool.update p k f) =
      (Pool.iter p).map fun kv => (kv.1, if kv.1 = k then f kv.2 else kv.2) := by
  have hordered := OrderedPool.ordered (Pool.update p k f)
  have hmap : ((Pool.iter p).map fun kv => (kv.1, if kv.1 = k then f kv.2 else kv.2)).Pairwise
      fun a b => a.1 < b.1 := by
    rw [List.pairwise_map]
    exact OrderedPool.ordered p
  have hnodup : ∀ l : List (Nat × V), l.Pairwise (fun a b => a.1 < b.1) → l.Nodup := by
    intro l hl
    apply List.Pairwise.imp _ hl
    intro a b hlt heq
    rw [heq] at hlt
    exact Nat.lt_irrefl _ hlt
  have hperm : (Pool.iter (Pool.update p k f)).Perm
      ((Pool.iter p).map fun kv => (kv.1, if kv.1 = k then f kv.2 else kv.2)) := by
    rw [List.perm_ext_iff_of_nodup (hnodup _ hordered) (hnodup _ hmap)]
    rintro ⟨j, v⟩
    rw [LawfulPool.mem_iter, LawfulPool.get_update, List.mem_map]
    constructor
    · intro hget
      split at hget
      · rename_i hj
        obtain ⟨w, hw, rfl⟩ := Option.map_eq_some_iff.mp hget
        exact ⟨(j, w), (LawfulPool.mem_iter p j w).mpr hw, by rw [if_pos hj]⟩
      · rename_i hj
        exact ⟨(j, v), (LawfulPool.mem_iter p j v).mpr hget, by rw [if_neg hj]⟩
    · rintro ⟨⟨i, w⟩, hmem, heq⟩
      obtain ⟨rfl, rfl⟩ := Prod.mk.inj heq
      have hget := (LawfulPool.mem_iter p i w).mp hmem
      by_cases hi : i = k
      · simp only [if_pos hi, hget, Option.map_some]
      · simp only [if_neg hi, hget]
  apply hperm.eq_of_pairwise _ hordered hmap
  intro a b _ _ hab hba
  omega

namespace Endpoint

theorem table_dispatch [OrderedPool SR] (e : Endpoint I G R SR EV) (key : Nat)
    (event : ServiceEvent) (now : I) : (e.dispatch key event now).table = e.table := by
  rw [dispatch]
  cases e.route key with
  | none => rfl
  | some route =>
    simp only [table, routes, updateRoute]
    rw [iter_update, List.map_map]
    apply List.map_congr_left
    rintro ⟨k, r⟩ _
    simp only [Function.comp_apply]
    split <;> rfl

theorem table_ordered [OrderedPool SR] (e : Endpoint I G R SR EV) :
    e.table.Pairwise fun a b => a.1 < b.1 := by
  rw [table, List.pairwise_map]
  exact OrderedPool.ordered e.services

theorem relinquishedAsserts_dispatch (e : Endpoint I G R SR EV) (key : Nat) (event : ServiceEvent)
    (at_ : I) (r : Ref) (now : I) (family : Family) (sect : RecordSection) :
    (e.dispatch key event at_).relinquishedAsserts r now family sect =
      e.relinquishedAsserts r now family sect := by
  rw [dispatch]
  cases e.route key <;> rfl

end Endpoint

namespace Scene

def resume {α : Type} (here outputs : α → List RouteOutput) (items : List (Except ParseError α)) :
    List RouteOutput :=
  match items with
  | .ok a :: rest => here a ++ walk outputs rest
  | rest => walk outputs rest

theorem resume_self {α : Type} (outputs : α → List RouteOutput)
    (items : List (Except ParseError α)) : resume outputs outputs items = walk outputs items := by
  cases items with
  | nil => rfl
  | cons item rest => cases item <;> rfl

theorem resume_ok {α : Type} (here outputs : α → List RouteOutput)
    (items : List (Except ParseError α)) (i : Nat) (a : α) (h : items[i]? = some (.ok a)) :
    resume here outputs (items.drop i) = here a ++ walk outputs (items.drop (i + 1)) := by
  obtain ⟨hlt, hget⟩ := List.getElem?_eq_some_iff.mp h
  rw [List.drop_eq_getElem_cons hlt, hget]
  rfl

theorem resume_error {α : Type} (here outputs : α → List RouteOutput)
    (items : List (Except ParseError α)) (i : Nat) (e : ParseError)
    (h : items[i]? = some (.error e)) : resume here outputs (items.drop i) = [.failed e] := by
  obtain ⟨hlt, hget⟩ := List.getElem?_eq_some_iff.mp h
  rw [List.drop_eq_getElem_cons hlt, hget]
  rfl

theorem resume_end {α : Type} (here outputs : α → List RouteOutput)
    (items : List (Except ParseError α)) (i : Nat) (h : items[i]? = none) :
    resume here outputs (items.drop i) = [] := by
  rw [List.drop_eq_nil_of_le (List.getElem?_eq_none_iff.mp h)]
  rfl

end Scene

theorem questionItems_length (message : Bytes) (count cursor : Nat) :
    (questionItems message count cursor).length ≤ count := by
  induction count generalizing cursor with
  | zero => exact Nat.le_refl 0
  | succ count ih =>
    rw [questionItems]
    split
    · exact Nat.succ_le_succ (ih _)
    · exact Nat.succ_le_succ (Nat.zero_le _)

theorem recordItems_length (message : Bytes) (count cursor : Nat) :
    (recordItems message count cursor).length ≤ count := by
  induction count generalizing cursor with
  | zero => exact Nat.le_refl 0
  | succ count ih =>
    rw [recordItems]
    split
    · exact Nat.succ_le_succ (ih _)
    · exact Nat.succ_le_succ (Nat.zero_le _)

theorem recordsAt_length (reader : MessageReader) (count : UInt16) (cursor : Option Nat) :
    (reader.recordsAt count cursor).length ≤ count.toNat := by
  cases cursor with
  | none => exact Nat.zero_le _
  | some cursor => exact recordItems_length _ _ _

theorem getElem?_past {α : Type} (items : List α) (count i : Nat) (hlen : items.length ≤ count)
    (h : count ≤ i) : items[i]? = none :=
  List.getElem?_eq_none_iff.mpr (le_trans hlen h)

theorem skipRecords_of_error (message : Bytes) (count cursor i : Nat) (e : ParseError)
    (h : (recordItems message count cursor)[i]? = some (.error e)) :
    skipRecords message count cursor = none := by
  induction count generalizing cursor i with
  | zero => cases h
  | succ count ih =>
    rw [recordItems] at h
    rw [skipRecords]
    cases hparse : Ref.tryParse message cursor with
    | error e' => rfl
    | ok parsed =>
      obtain ⟨r, next⟩ := parsed
      simp only [hparse] at h
      cases i with
      | zero => cases h
      | succ i => exact ih next i h

theorem Wire.MessageReader.additional_of_answers (reader : MessageReader) (i : Nat) (e : ParseError)
    (h : reader.answers[i]? = some (.error e)) : reader.additional = [] := by
  rw [MessageReader.answers] at h
  rw [MessageReader.additional, MessageReader.afterAuthority, MessageReader.afterAnswers]
  cases hafter : reader.afterQuestions with
  | none => rfl
  | some cursor =>
    rw [hafter] at h
    have hskip := skipRecords_of_error reader.message reader.header.answerCount.toNat cursor i e h
    rw [Option.bind_some, hskip]
    rfl

theorem additional_of_error (reader : MessageReader) (i : Nat) (e : ParseError)
    (h : reader.authority[i]? = some (.error e)) : reader.additional = [] := by
  rw [MessageReader.authority] at h
  rw [MessageReader.additional, MessageReader.afterAuthority]
  cases hafter : reader.afterAnswers with
  | none => rfl
  | some cursor =>
    rw [hafter] at h
    have hskip := skipRecords_of_error reader.message reader.header.authorityCount.toNat cursor i e h
    rw [Option.bind_some, hskip]
    rfl

theorem namesMatch_congr (a b : Name) (n m : NameRef) (ha : namesMatch a n = true)
    (hb : namesMatch b n = true) : namesMatch a m = namesMatch b m := by
  rw [namesMatch, namesMatchStr, labelsMatch_iff] at ha hb
  obtain ⟨la, hla, hlowerA⟩ := ha
  obtain ⟨lb, hlb, hlowerB⟩ := hb
  have hsame : la = lb := by
    have hmap := hla.symm.trans hlb
    exact List.map_injective_iff.mpr (fun x y hxy => Except.ok.inj hxy) hmap
  rw [Bool.eq_iff_iff, namesMatch, namesMatch, namesMatchStr, namesMatchStr, labelsMatch_iff,
    labelsMatch_iff, ← hlowerA, ← hlowerB, hsame]

theorem readQuestions_congr (a b : Name) (h : ∀ m, namesMatch a m = namesMatch b m)
    (questions : List (Except ParseError QuestionRef)) :
    readQuestions a questions = readQuestions b questions := by
  induction questions with
  | nil => rfl
  | cons item rest ih =>
    cases item with
    | error e => rfl
    | ok q => simp only [readQuestions, questionIsAbout, ih, h]

theorem admits_congr (a b : Name) (h : ∀ m, namesMatch a m = namesMatch b m)
    (questions : List (Except ParseError QuestionRef)) (r : Ref) :
    ProposalScope.admits questions a r = ProposalScope.admits questions b r := by
  rw [ProposalScope.admits, ProposalScope.admits, namesMatchRecord, namesMatchRecord, h,
    readQuestions_congr a b h]

theorem probesFor_congr (a b : Name) (h : ∀ m, namesMatch a m = namesMatch b m)
    (questions : List (Except ParseError QuestionRef)) (records : List (Except ParseError Ref)) :
    probesFor questions a records = probesFor questions b records := by
  induction records with
  | nil => rfl
  | cons item rest ih =>
    cases item with
    | error e => rfl
    | ok r => simp only [probesFor, admits_congr a b h, ih]

theorem isProbeFor_congr (reader : MessageReader) (a b : Name) (n : NameRef)
    (ha : namesMatch a n = true) (hb : namesMatch b n = true) :
    reader.isProbeFor a = reader.isProbeFor b :=
  probesFor_congr a b (fun m => namesMatch_congr a b n m ha hb) _ _

theorem questionedUniqueName_matches (v : RouteView) (q : QuestionRef) (name : Name)
    (h : v.questionedUniqueName q = some name) : namesMatch name q.qname = true := by
  rw [RouteView.questionedUniqueName] at h
  split at h
  · rename_i hname
    obtain rfl := Option.some.inj h
    exact hname
  · split at h
    · rename_i hhost
      obtain rfl := Option.some.inj h
      exact hhost
    · cases h

theorem questionLoop_scan (sc : Scene I AN EvQ) (q : QuestionRef) (defenceOnly : Bool)
    (hanswers : sc.admits.answering = if defenceOnly then .defenceOnly else .all) (cursor : Nat)
    (table : List (Nat × RouteView)) (known : Option Bool)
    (hknown : ∀ b, known = some b → ∀ name, namesMatch name q.qname = true →
      sc.reader.isProbeFor name = b) :
    RouteEvents.questionLoop sc.reader q defenceOnly cursor known table =
      (scan (sc.asked q) cursor table).map Prod.fst := by
  induction table generalizing known with
  | nil => rfl
  | cons entry rest ih =>
    obtain ⟨key, v⟩ := entry
    rw [RouteEvents.questionLoop, scan]
    by_cases hkey : key < cursor
    · rw [if_pos hkey, if_pos hkey]
      exact ih known hknown
    · rw [if_neg hkey, if_neg hkey]
      cases hw : v.withdrawing with
      | true =>
        have hnone : sc.asked q v = none := by simp only [Scene.asked, hw, if_true]
        rw [hnone, if_pos rfl]
        exact ih known hknown
      | false =>
        rw [if_neg Bool.false_ne_true]
        simp only [Scene.asked, hw, Bool.false_eq_true, if_false, hanswers]
        cases hname : v.questionedUniqueName q with
        | none =>
          cases defenceOnly with
          | false =>
            cases hshared : v.sharedNameMatch q with
            | true => simp
            | false =>
              simp only [Bool.not_false, Bool.and_false, Bool.or_false, Bool.false_eq_true,
                if_false, if_true, Option.isSome_none]
              exact ih known hknown
          | true =>
            simp only [Bool.not_true, Bool.false_and, Bool.or_false, Bool.false_eq_true, if_false,
              if_true, reduceCtorEq, Option.any_none]
            exact ih known hknown
        | some name =>
          have hmatch := questionedUniqueName_matches v q name hname
          cases defenceOnly with
          | false => simp
          | true =>
            -- the answer kept from an earlier service is the one for this name too
            have hkept : ∀ b, some (sc.reader.isProbeFor name) = some b → ∀ other,
                namesMatch other q.qname = true → sc.reader.isProbeFor other = b := by
              intro b hb other hother
              rw [← Option.some.inj hb]
              exact isProbeFor_congr sc.reader other name q.qname hother hmatch
            simp only [Bool.not_true, Bool.false_eq_true, if_false, Bool.false_and, Bool.or_false,
              if_true, reduceCtorEq, Option.any_some]
            have hloop := ih (some (sc.reader.isProbeFor name)) hkept
            cases known with
            | none =>
              cases hprobe : sc.reader.isProbeFor name with
              | true => simp
              | false =>
                rw [hprobe] at hloop
                simp only [Bool.false_eq_true, if_false]
                exact hloop
            | some b =>
              rw [← hknown b rfl name hmatch]
              cases hprobe : sc.reader.isProbeFor name with
              | true => simp
              | false =>
                rw [hprobe] at hloop
                simp only [Bool.false_eq_true, if_false]
                exact hloop

end
end Hick
