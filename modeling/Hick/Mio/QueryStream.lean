import Hick.Mio.DriverRun

/-!
# The stream of a query (hick-mio/src/driver.rs:1262-1505, endpoint/query.rs:132-155)

A caller gets every answer its query accepts, or a count of those that were lost, and then the end
of the query.
-/

set_option linter.unusedSectionVars false

namespace Hick
open Octets Wire Runs Mdns

def answersIn (log : List Handed) : List CollectedAnswer :=
  log.filterMap fun entry =>
    match entry with
    | .answer _ answer => some answer
    | _ => none

def droppedIn (log : List Handed) : Nat :=
  (log.map fun entry =>
    match entry with
    | .missed _ n => n.toNat
    | _ => 0).sum

/-- Each of the `n` answers that a query had accepted has been handed on, once, or counted. -/
def Accounted (handle : QueryHandle) (n : UInt64) (log : List Handed) : Prop :=
  ((answersIn (about handle log)).map CollectedAnswer.seq).Nodup ∧
    (∀ a ∈ answersIn (about handle log), a.seq < n) ∧
    (answersIn (about handle log)).length + droppedIn (about handle log) = n.toNat

def Handed.isTerminal : Handed → Bool
  | .terminal _ _ _ => true
  | _ => false

theorem answersIn_append (l l' : List Handed) :
    answersIn (l ++ l') = answersIn l ++ answersIn l' := List.filterMap_append ..

theorem droppedIn_append (l l' : List Handed) : droppedIn
    (l ++ l') = droppedIn l + droppedIn l' := by
  rw [droppedIn, List.map_append, List.sum_append]
  rfl

variable (handle : QueryHandle)

theorem answersIn_answers (answers : List CollectedAnswer) :
    answersIn (answers.map (.answer handle)) = answers := by
  induction answers with
  | nil => rfl
  | cons a rest ih =>
    rw [List.map_cons, answersIn, List.filterMap_cons]
    simp only
    rw [show List.filterMap _ (rest.map (Handed.answer handle)) =
      answersIn (rest.map (Handed.answer handle)) from rfl, ih]

theorem droppedIn_answers (answers : List CollectedAnswer) :
    droppedIn (answers.map (.answer handle)) = 0 := by
  induction answers with
  | nil => rfl
  | cons a rest ih =>
    rw [List.map_cons, droppedIn, List.map_cons, List.sum_cons]
    simp only [Nat.zero_add]
    exact ih

theorem Accounted.of_about (n : UInt64) (l l' : List Handed)
    (h : Accounted handle n l) (hsame : about handle l' = about handle l) : Accounted handle n l' := by
  rw [Accounted, hsame]
  exact h

theorem Accounted.nothing (log : List Handed) (h : about handle log = []) :
    Accounted handle 0 log := by
  rw [Accounted, h]
  exact ⟨List.nodup_nil, nofun, rfl⟩

theorem Accounted.reads (n n' : UInt64) (log read : List Handed)
    (h : n < Query.lastAnswerSeq → Accounted handle n log) (hr : Reads handle n read n')
    (hleft : n' < Query.lastAnswerSeq) : Accounted handle n' (log ++ read) := by
  have hle : n ≤ n' := by
    rcases hr with ⟨-, rfl⟩ | ⟨-, -, -, hle, -⟩
    · exact UInt64.le_refl _
    · exact hle
  obtain ⟨hnodup, hbelow, hcount⟩ := h (UInt64.lt_of_le_of_lt hle hleft)
  have hself := about_eq_self handle read (hr.query handle n n' read)
  rw [Accounted, about_append, hself, answersIn_append, droppedIn_append]
  rcases hr with ⟨rfl, rfl⟩ | ⟨answers, dropped, rfl, -, hspec⟩
  · rw [show answersIn [] = [] from rfl, show droppedIn [] = 0 from rfl, List.append_nil]
    exact ⟨hnodup, hbelow, hcount⟩
  · have hone : answersIn [Handed.missed handle dropped] = [] := rfl
    have hdropped : droppedIn [Handed.missed handle dropped] = dropped.toNat := rfl
    obtain ⟨hsum, hnew, hbounds⟩ := hspec hleft
    rw [answersIn_append, answersIn_answers, hone, List.append_nil, droppedIn_append,
      droppedIn_answers, hdropped]
    refine ⟨?_, fun a ha => ?_, ?_⟩
    · rw [List.map_append, List.nodup_append]
      refine ⟨hnodup, hnew, fun x hx y hy => ?_⟩
      obtain ⟨a, ha, rfl⟩ := List.mem_map.mp hx
      obtain ⟨b, hb, rfl⟩ := List.mem_map.mp hy
      exact UInt64.ne_of_lt (UInt64.lt_of_lt_of_le (hbelow a ha) (hbounds b hb).1)
    · rcases List.mem_append.mp ha with ha | ha
      · exact UInt64.lt_of_lt_of_le (hbelow a ha) hle
      · exact (hbounds a ha).2
    · rw [List.length_append]
      omega

theorem reads_no_terminal (n n' : UInt64) (said : List Handed)
    (h : Reads handle n said n') : ∀ entry ∈ said, entry.isTerminal = false := by
  intro entry hentry
  rcases h with ⟨rfl, -⟩ | ⟨answers, dropped, rfl, -⟩
  · cases hentry
  · rcases List.mem_append.mp hentry with hin | hin
    · obtain ⟨a, -, rfl⟩ := List.mem_map.mp hin
      rfl
    · rw [List.mem_singleton.mp hin]
      rfl

theorem split_at_terminal (read before after : List Handed) (last entry : Handed)
    (hread : ∀ e ∈ read, e.isTerminal = false) (hentry : entry.isTerminal = true)
    (h : read ++ [last] = before ++ entry :: after) : before = read ∧ entry = last ∧ after = [] := by
  induction read generalizing before with
  | nil =>
    cases before with
    | nil =>
      rw [List.nil_append, List.nil_append, List.cons_eq_cons] at h
      exact ⟨rfl, h.1.symm, h.2.symm⟩
    | cons b rest =>
      rw [List.nil_append, List.cons_append, List.cons_eq_cons] at h
      exact absurd h.2.symm (by simp)
  | cons r rest ih =>
    cases before with
    | nil =>
      rw [List.cons_append, List.nil_append, List.cons_eq_cons] at h
      rw [← h.1, hread r List.mem_cons_self] at hentry
      cases hentry
    | cons b more =>
      rw [List.cons_append, List.cons_append, List.cons_eq_cons] at h
      obtain ⟨hb, he, ha⟩ := ih more (fun e he => hread e (List.mem_cons_of_mem _ he)) h.2
      exact ⟨by rw [hb, h.1], he, ha⟩

section
variable {I : Type} {QS AN EV LK : Type → Type} [Instant I] [Pool QS] [Pool AN] [Pool EV] [Pool LK]

/-- What the log owes to each query of the caller: it has what was read of a query that is there;
and it has the end of one that is not, after all its answers and before nothing. -/
structure Ledger (m : Mdns I QS AN EV LK) (log : List Handed) (started cancelled : List QueryHandle) :
    Prop where
  live : ∀ h n, m.callerSeq h = some n → n < Query.lastAnswerSeq → Accounted h n log
  goesOn : ∀ h, m.callerSeq h ≠ none → ∀ entry ∈ about h log, entry.isTerminal = false
  known : ∀ h, m.callerSeq h ≠ none → h ∈ started
  logged : ∀ entry ∈ log, ∀ h, entry.query = some h → h ∈ started
  born : ∀ h ∈ started, h.raw.toNat < m.endpoint.nextQueryHandle.toNat
  closed : ∀ h before update n after, log = before ++ .terminal h update n :: after →
    (n < Query.lastAnswerSeq → Accounted h n before) ∧ about h after = []
  ends : ∀ h ∈ started, m.callerSeq h ≠ none ∨ h ∈ cancelled ∨
    ∃ update n, .terminal h update n ∈ log

theorem Ledger.same (m m' : Mdns I QS AN EV LK) (log : List Handed)
    (started cancelled : List QueryHandle) (h : Ledger m log started cancelled)
    (hsame : ∀ k, m'.callerSeq k = m.callerSeq k)
    (hcounted : m.endpoint.nextQueryHandle ≤ m'.endpoint.nextQueryHandle) :
    Ledger m' log started cancelled := by
  refine ⟨fun k n hk => ?_, fun k hk => ?_, fun k hk => ?_, h.logged, fun k hk => ?_, h.closed,
    fun k hk => ?_⟩
  · rw [hsame] at hk
    exact h.live k n hk
  · rw [hsame] at hk
    exact h.goesOn k hk
  · rw [hsame] at hk
    exact h.known k hk
  · exact lt_of_lt_of_le (h.born k hk) (UInt32.le_iff_toNat_le.mp hcounted)
  · rw [hsame]
    exact h.ends k hk

theorem Ledger.cancel (m m' : Mdns I QS AN EV LK) (log : List Handed)
    (started cancelled : List QueryHandle) (h : Ledger m log started cancelled)
    (handle : QueryHandle)
    (hcallers : ∀ k, m'.callerSeq k = if k = handle then none else m.callerSeq k)
    (hnext : m'.endpoint.nextQueryHandle = m.endpoint.nextQueryHandle) :
    Ledger m' log started (cancelled ++ [handle]) := by
  have hback : ∀ k, m'.callerSeq k ≠ none → k ≠ handle ∧ m'.callerSeq k = m.callerSeq k := by
    intro k hk
    rw [hcallers] at hk ⊢
    split at hk
    · exact absurd rfl hk
    · rename_i hne
      exact ⟨hne, if_neg hne⟩
  refine ⟨fun k n hk => ?_, fun k hk => ?_, fun k hk => ?_, h.logged, fun k hk => ?_, h.closed,
    fun k hk => ?_⟩
  · obtain ⟨-, hsame⟩ := hback k (by rw [hk]; exact nofun)
    exact h.live k n (by rw [← hsame, hk])
  · obtain ⟨-, hsame⟩ := hback k hk
    exact h.goesOn k (by rw [← hsame]; exact hk)
  · obtain ⟨-, hsame⟩ := hback k hk
    exact h.known k (by rw [← hsame]; exact hk)
  · rw [hnext]
    exact h.born k hk
  · by_cases hsame : k = handle
    · rw [hsame]
      exact .inr (.inl (List.mem_append_right _ (List.mem_singleton.mpr rfl)))
    · rcases h.ends k hk with hlive | hgone | hend
      · exact .inl (by rw [hcallers, if_neg hsame]; exact hlive)
      · exact .inr (.inl (List.mem_append_left _ hgone))
      · exact .inr (.inr hend)

theorem Ledger.start (m m' : Mdns I QS AN EV LK) (log : List Handed)
    (started cancelled : List QueryHandle) (h : Ledger m log started cancelled)
    (hcallers : ∀ k, m'.callerSeq k =
      if k = ⟨m.endpoint.nextQueryHandle⟩ then some 0 else m.callerSeq k)
    (hnext : m.endpoint.nextQueryHandle.toNat < m'.endpoint.nextQueryHandle.toNat) :
    Ledger m' log (started ++ [⟨m.endpoint.nextQueryHandle⟩]) cancelled := by
  have hnew : ∀ k ∈ started, k ≠ ⟨m.endpoint.nextQueryHandle⟩ := by
    rintro k hk rfl
    exact Nat.lt_irrefl _ (h.born _ hk)
  have hnothing : about ⟨m.endpoint.nextQueryHandle⟩ log = [] := by
    apply about_eq_nil
    intro entry hentry hquery
    exact hnew _ (h.logged entry hentry _ hquery) rfl
  refine ⟨fun k n hk => ?_, fun k hk => ?_, fun k hk => ?_, fun entry hentry k hk => ?_,
    fun k hk => ?_, h.closed, fun k hk => ?_⟩
  · rw [hcallers] at hk
    split at hk
    · rename_i hsame
      cases hk
      rw [hsame]
      exact fun _ => .nothing _ log hnothing
    · exact h.live k n hk
  · rw [hcallers] at hk
    split at hk
    · rename_i hsame
      rw [hsame, hnothing]
      exact fun _ h => absurd h List.not_mem_nil
    · exact h.goesOn k hk
  · rw [hcallers] at hk
    split at hk
    · rename_i hsame
      exact List.mem_append_right _ (List.mem_singleton.mpr hsame)
    · exact List.mem_append_left _ (h.known k hk)
  · exact List.mem_append_left _ (h.logged entry hentry k hk)
  · rcases List.mem_append.mp hk with hk | hk
    · exact lt_trans (h.born k hk) hnext
    · rw [List.mem_singleton.mp hk]
      exact hnext
  · rcases List.mem_append.mp hk with hk | hk
    · rw [hcallers, if_neg (hnew k hk)]
      exact h.ends k hk
    · exact .inl (by rw [hcallers, if_pos (List.mem_singleton.mp hk)]; exact nofun)

theorem Ledger.report (m m' : Mdns I QS AN EV LK) (log said : List Handed)
    (started cancelled : List QueryHandle) (h : Ledger m log started cancelled)
    (hreport : ∀ k, Report k (m.callerSeq k) (m'.callerSeq k) (about k said))
    (hcounted : m.endpoint.nextQueryHandle ≤ m'.endpoint.nextQueryHandle) :
    Ledger m' (log ++ said) started cancelled := by
  have hlive : ∀ k, m'.callerSeq k ≠ none → ∃ n n' read, m.callerSeq k = some n ∧
      Reads k n read n' ∧ m'.callerSeq k = some n' ∧ about k said = read := by
    intro k hk
    have hr := hreport k
    cases hbefore : m.callerSeq k with
    | none =>
      rw [hbefore] at hr
      exact absurd hr.1 hk
    | some n =>
      rw [hbefore] at hr
      obtain ⟨n', read, hreads, ⟨hafter, hsaid⟩ | ⟨hafter, -⟩⟩ := hr
      · exact ⟨n, n', read, rfl, hreads, hafter, hsaid⟩
      · exact absurd hafter hk
  have hquiet : ∀ k, m.callerSeq k = none → about k said = [] := by
    intro k hk
    have hr := hreport k
    rw [hk] at hr
    exact hr.2
  refine ⟨fun k n hk => ?_, fun k hk => ?_, fun k hk => ?_, fun entry hentry k hk => ?_,
    fun k hk => ?_, fun k before update n after hsplit => ?_, fun k hk => ?_⟩
  · obtain ⟨n₀, n', read, hbefore, hreads, hafter, hsaid⟩ := hlive k (by rw [hk]; exact nofun)
    obtain rfl : n' = n := Option.some.inj (hafter.symm.trans hk)
    intro hleft
    apply (Accounted.reads k n₀ n' log read (h.live k n₀ hbefore) hreads hleft).of_about
    rw [about_append, about_append, hsaid, about_eq_self k read (hreads.query k _ _ read)]
  · obtain ⟨n₀, n', read, hbefore, hreads, -, hsaid⟩ := hlive k hk
    intro entry hentry
    rw [about_append] at hentry
    rcases List.mem_append.mp hentry with hin | hin
    · exact h.goesOn k (by rw [hbefore]; exact nofun) entry hin
    · rw [hsaid] at hin
      exact reads_no_terminal k _ _ read hreads entry hin
  · obtain ⟨n₀, -, -, hbefore, -⟩ := hlive k hk
    exact h.known k (by rw [hbefore]; exact nofun)
  · rcases List.mem_append.mp hentry with hin | hin
    · exact h.logged entry hin k hk
    · apply h.known k
      intro hnone
      have hmem : entry ∈ about k said := List.mem_filter.mpr ⟨hin, decide_eq_true hk⟩
      rw [hquiet k hnone] at hmem
      cases hmem
  · exact lt_of_lt_of_le (h.born k hk) (UInt32.le_iff_toNat_le.mp hcounted)
  · have hself : about k [Handed.terminal k update n] = [.terminal k update n] := by
      apply about_eq_self
      intro entry hentry
      rw [List.mem_singleton.mp hentry]
      rfl
    rcases List.append_eq_append_iff.mp hsplit with ⟨more, hmore, hsaid⟩ | ⟨more, hlog, hmore⟩
    · -- the end was handed on in this tick
      have habout : about k said = about k more ++ .terminal k update n :: about k after := by
        rw [hsaid, about_append, ← List.singleton_append, about_append, hself]
        rfl
      have hr := hreport k
      cases hbefore : m.callerSeq k with
      | none =>
        rw [hquiet k hbefore] at habout
        exact absurd habout.symm (by simp)
      | some n₀ =>
        rw [hbefore] at hr
        obtain ⟨n', read, hreads, ⟨-, hread⟩ | ⟨-, u, hread⟩⟩ := hr
        · have hmem : Handed.terminal k update n ∈ read := by
            rw [← hread, habout]
            exact List.mem_append_right _ List.mem_cons_self
          have := reads_no_terminal k _ _ read hreads _ hmem
          cases this
        · rw [hread] at habout
          obtain ⟨hbeforeEnd, hentry, hnothing⟩ := split_at_terminal read _ _ _ _
            (reads_no_terminal k _ _ read hreads) rfl habout
          cases hentry
          refine ⟨fun hleft => ?_, hnothing⟩
          apply (Accounted.reads k n₀ n log read (h.live k n₀ hbefore) hreads hleft).of_about
          rw [hmore, about_append, about_append, hbeforeEnd,
            about_eq_self k read (hreads.query k _ _ read)]
    · -- the end had been handed on before
      cases more with
      | nil =>
        rw [List.append_nil] at hlog
        rw [List.nil_append] at hmore
        have habout : about k said = .terminal k update n :: about k after := by
          rw [← hmore, ← List.singleton_append, about_append, hself]
          rfl
        have hr := hreport k
        cases hbefore : m.callerSeq k with
        | none =>
          rw [hquiet k hbefore] at habout
          cases habout
        | some n₀ =>
          rw [hbefore] at hr
          obtain ⟨n', read, hreads, ⟨-, hread⟩ | ⟨-, u, hread⟩⟩ := hr
          · have hmem : Handed.terminal k update n ∈ read := by
              rw [← hread, habout]
              exact List.mem_cons_self
            have := reads_no_terminal k _ _ read hreads _ hmem
            cases this
          · rw [hread] at habout
            obtain ⟨hbeforeEnd, hentry, hnothing⟩ := split_at_terminal read [] _ _ _
              (reads_no_terminal k _ _ read hreads) rfl habout
            cases hentry
            refine ⟨fun hleft => ?_, hnothing⟩
            have haccounted := Accounted.reads k n₀ n log read (h.live k n₀ hbefore) hreads hleft
            rw [← hbeforeEnd, List.append_nil, hlog] at haccounted
            exact haccounted
      | cons first rest =>
        rw [List.cons_append, List.cons_eq_cons] at hmore
        obtain ⟨rfl, rfl⟩ := hmore
        obtain ⟨haccounted, hnothing⟩ := h.closed k before update n rest hlog
        refine ⟨haccounted, ?_⟩
        have hgone : m.callerSeq k = none := by
          by_contra hlive'
          have hmem : Handed.terminal k update n ∈ about k log := by
            rw [hlog, about_append, ← List.singleton_append, about_append, hself]
            exact List.mem_append_right _ (List.mem_append_left _ (List.mem_singleton.mpr rfl))
          have := h.goesOn k hlive' _ hmem
          cases this
        rw [about_append, hnothing, hquiet k hgone, List.append_nil]
  · rcases h.ends k hk with hbefore | hgone | ⟨update, n, hend⟩
    · have hr := hreport k
      cases hseq : m.callerSeq k with
      | none => exact absurd hseq hbefore
      | some n₀ =>
        rw [hseq] at hr
        obtain ⟨n', read, hreads, ⟨hafter, -⟩ | ⟨-, u, hread⟩⟩ := hr
        · exact .inl (by rw [hafter]; exact nofun)
        · refine .inr (.inr ⟨u, n', List.mem_append_right _ ?_⟩)
          have hmem : Handed.terminal k u n' ∈ about k said := by
            rw [hread]
            exact List.mem_append_right _ (List.mem_singleton.mpr rfl)
          exact (List.mem_filter.mp hmem).1
    · exact .inr (.inl hgone)
    · exact .inr (.inr ⟨update, n, List.mem_append_left _ hend⟩)

variable [ReleasingPool QS] [OrderedPool AN] [LawfulPool EV] [ReleasingPool LK] [MeasuredInstant I]

/-- The drain retires no query of a caller that has accepted an answer since it was last read. -/
def SparesUnread (tr : Transition (DriverRun I QS AN EV LK) (DriverCall I)) : Prop :=
  match tr.call with
  | .tick t => ∀ h ∈ (drainRun t (beforeDrain t tr.pre.mdns)).retired, ∀ n,
      tr.pre.mdns.callerSeq h = some n → (beforeDrain t tr.pre.mdns).acceptedOf h = n
  | _ => True

theorem tickReport_spared (t : TickInput I) (m : Mdns I QS AN EV LK) (h : QueryHandle)
    (before after : Option UInt64) (said : List Handed) (hr : TickReport t m h before after said)
    (hspares : h ∈ (drainRun t (beforeDrain t m)).retired → ∀ n, before = some n →
      (beforeDrain t m).acceptedOf h = n) : Report h before after said := by
  rcases hr with ⟨-, hr⟩ | ⟨hretired, hafter, ⟨hbefore, hsaid⟩ | ⟨hbefore, update, hsaid⟩⟩
  · exact hr
  · rw [hbefore]
    exact ⟨hafter, hsaid⟩
  · obtain ⟨n, rfl⟩ := Option.isSome_iff_exists.mp hbefore
    rw [hspares hretired n rfl] at hsaid
    exact ⟨n, [], .inl ⟨rfl, rfl⟩, .inr ⟨hafter, update, hsaid⟩⟩

theorem DriverRun.next_books (s : DriverRun I QS AN EV LK) (call : DriverCall I)
    (hb : s.mdns.Books s.mdns.table)
    (hroom : (s.next call).mdns.endpoint.nextQueryHandle ≠ lastQueryHandle) :
    (s.next call).mdns.Books (s.next call).mdns.table := by
  cases call with
  | tick t => exact (tick_spec t s.mdns hroom hb).2.1
  | startQuery spec =>
    have hspec := s.mdns.startQuery_spec spec
    have htable : (s.next (.startQuery spec)).mdns.table = s.mdns.table := by
      rw [table, table, show (s.next (.startQuery spec)).mdns.lookups = _ from hspec.rest.1]
    rw [htable]
    exact (hspec.kept hroom hb).1
  | cancelQuery handle =>
    obtain ⟨-, hl, -, hkept, -⟩ := s.mdns.cancelQuery_spec handle s.mdns.table
    have htable : (s.next (.cancelQuery handle)).mdns.table = s.mdns.table := by
      rw [table, table, show (s.next (.cancelQuery handle)).mdns.lookups = _ from hl]
    rw [htable]
    exact hkept hb
  | openLookup opening => exact ((open_opens s.mdns opening).carries.kept hroom hb).1
  | cancelLookup handle => exact ((s.mdns.cancelLookup_spec handle).1.kept hroom hb).1
  | nextEvent =>
    have hsame := carries_same s.mdns s.mdns.nextEvent.2 rfl rfl (.refl _) s.mdns.table
    exact (hsame.kept hroom hb).1

theorem DriverRun.next_ledger (s : DriverRun I QS AN EV LK) (call : DriverCall I)
    (hb : s.mdns.Books s.mdns.table)
    (hl : Ledger s.mdns s.handed s.started s.cancelled)
    (hroom : (s.next call).mdns.endpoint.nextQueryHandle ≠ lastQueryHandle)
    (hspares : SparesUnread ⟨s, call, s.next call⟩) :
    Ledger (s.next call).mdns (s.next call).handed (s.next call).started (s.next call).cancelled := by
  cases call with
  | tick t =>
    obtain ⟨hcounted, -, hreport⟩ := tick_spec t s.mdns hroom hb
    refine hl.report s.mdns _ s.handed _ _ _ (fun k => ?_) hcounted
    exact tickReport_spared t s.mdns k _ _ _ (hreport k) fun hretired n hn => hspares k hretired n hn
  | startQuery spec =>
    have hspec := s.mdns.startQuery_spec spec
    obtain ⟨-, hcase⟩ := hspec.kept hroom hb
    have hnext := hspec.next
    simp only [next] at hroom ⊢
    generalize s.mdns.startQuery spec = started at *
    obtain ⟨m', result⟩ := started
    rcases hcase with ⟨⟨e, rfl⟩, hsame⟩ | ⟨rfl, hcallers⟩
    · rw [show (Except.error e : Except StartQueryError QueryHandle).toOption.toList = [] from rfl,
        List.append_nil]
      refine hl.same s.mdns m' _ _ _ hsame ?_
      rw [show m'.endpoint.nextQueryHandle = _ from hnext]
      exact saturatingSucc32_le _
    · refine hl.start s.mdns m' _ _ _ hcallers ?_
      rw [show m'.endpoint.nextQueryHandle = _ from hnext] at hroom ⊢
      exact saturatingSucc32_lt _ hroom
  | cancelQuery handle =>
    obtain ⟨hnext, -, -, -, hcallers⟩ := s.mdns.cancelQuery_spec handle s.mdns.table
    exact hl.cancel s.mdns _ _ _ _ handle hcallers hnext
  | openLookup opening =>
    have hcarries := (open_opens s.mdns opening).carries
    exact hl.same s.mdns _ _ _ _ (hcarries.kept hroom hb).2 hcarries.counted
  | cancelLookup handle =>
    have hcarries := (s.mdns.cancelLookup_spec handle).1
    exact hl.same s.mdns _ _ _ _ (hcarries.kept hroom hb).2 hcarries.counted
  | nextEvent => exact hl.same s.mdns _ _ _ _ (fun _ => rfl) (UInt32.le_refl _)

theorem Ledger.empty (m : Mdns I QS AN EV LK) (hq : m.queries = ∅) : Ledger m [] [] [] := by
  have hnone : ∀ h, m.callerSeq h = none := by
    intro h
    rw [callerSeq, hq]
    rfl
  refine ⟨fun h n hn => ?_, fun h hn => ?_, fun h hn => ?_, ?_, ?_,
    fun h before u n after hs => ?_, ?_⟩
  · rw [hnone] at hn
    cases hn
  · exact absurd (hnone h) hn
  · exact absurd (hnone h) hn
  · exact List.forall_mem_nil _
  · exact List.forall_mem_nil _
  · exact absurd hs.symm (by simp)
  · exact List.forall_mem_nil _

/-- The answers of a query, over every run in which handles are left and no query with unread
answers is retired by the drain: the end of a query comes when every answer it has accepted, if they
are fewer than 2^64 - 1, was handed on or counted, nothing about it follows, and no query goes
without its end. -/
theorem query_stream_is_complete (ts : List (Transition (DriverRun I QS AN EV LK) (DriverCall I)))
    (s : DriverRun I QS AN EV LK)
    (run : Run (DriverRun.machine I QS AN EV LK) ts s)
    (hfair : ∀ tr ∈ ts, DriverRun.HandlesLeft tr ∧ SparesUnread tr) :
    (∀ h before update n after, s.handed = before ++ .terminal h update n :: after →
      (n < Query.lastAnswerSeq → Accounted h n before) ∧ about h after = []) ∧
      (∀ h n, s.mdns.callerSeq h = some n → (n < Query.lastAnswerSeq → Accounted h n s.handed) ∧
        ∀ entry ∈ about h s.handed, entry.isTerminal = false) ∧
      ∀ h ∈ s.started, s.mdns.callerSeq h ≠ none ∨ h ∈ s.cancelled ∨
        ∃ update n, .terminal h update n ∈ s.handed := by
  have hkept := run.invariant _ (fun (g : Unit) _ => g) ()
    (fun _ s => s.mdns.Books s.mdns.table ∧ Ledger s.mdns s.handed s.started s.cancelled)
    (fun tr => DriverRun.HandlesLeft tr ∧ SparesUnread tr)
    (fun s hs => by
      obtain ⟨hh, hst, hc, -⟩ := hs.nothing
      refine ⟨.empty s.mdns hs.endpoint.1 hs.queries (by rw [hs.lookups]) hs.clock, ?_⟩
      rw [hh, hst, hc]
      exact .empty s.mdns hs.queries)
    (fun _ s call hinv _ hf => by
      have hroom : (s.next call).mdns.endpoint.nextQueryHandle ≠ lastQueryHandle := hf.1
      exact ⟨s.next_books call hinv.1 hroom, s.next_ledger call hinv.1 hinv.2 hroom hf.2⟩)
    ts s hfair
  obtain ⟨-, hl⟩ := hkept
  exact ⟨hl.closed, fun h n hn => ⟨hl.live h n hn, hl.goesOn h (by rw [hn]; exact nofun)⟩, hl.ends⟩

end

namespace DriverRun

def atStart (clock : Nat → Uptime) : DriverRun Uptime Slab Slab Slab Slab where
  mdns := { Watch.emptyDriver with clock := clock }
  handed := []
  started := []
  cancelled := []
  told := []
  opened := []
  abandoned := []

theorem atStart_starts (clock : Nat → Uptime) (h : Monotone clock) : Starts (atStart clock) :=
  ⟨⟨rfl, rfl⟩, rfl, rfl, rfl, h, ⟨rfl, rfl, rfl, rfl, rfl, rfl⟩⟩

def queryTick (datagrams : List (List Ref × List QuestionRef)) (room : Nat) : TickInput Uptime where
  datagrams := datagrams
  services := []
  serviceTurn _ _ := ([], 0, false)
  updates := []
  sendBuf := List.replicate room 0
  sockets _ _ := ⟨.takes 0 0 0, .unbound⟩
  txOrder := .listed
  updateOrder := .listed
  lookupOrder _ := .listed

def asksHost : DriverCall Uptime :=
  .startQuery ((QuerySpec.new ServiceRecords.printerHost .a).withTimeout (Duration.fromSecs 1))

def twoSeconds (n : Nat) : Uptime := if n < 6 then 0 else 2000000000

theorem twoSeconds_monotone : Monotone twoSeconds := by
  intro a b hab
  rw [twoSeconds, twoSeconds]
  split
  · exact Fin.zero_le _
  · rw [if_neg (by omega)]

def answeredCalls : List (DriverCall Uptime) :=
  [asksHost, .tick (queryTick [([QueryRun.addressAnswer], [])] 512), .tick (queryTick [] 512)]

def answered : DriverRun Uptime Slab Slab Slab Slab :=
  (machine Uptime Slab Slab Slab Slab).play (atStart twoSeconds) answeredCalls

theorem played (s : DriverRun Uptime Slab Slab Slab Slab) (h : Starts s)
    (calls : List (DriverCall Uptime)) :
    Run (machine Uptime Slab Slab Slab Slab)
      ((machine Uptime Slab Slab Slab Slab).trace s calls)
      ((machine Uptime Slab Slab Slab Slab).play s calls) := by
  have hadmitted : ∀ (calls : List (DriverCall Uptime)) (s : DriverRun Uptime Slab Slab Slab Slab),
      (machine Uptime Slab Slab Slab Slab).Admitted s calls := by
    intro calls
    induction calls with
    | nil => exact fun _ => trivial
    | cons call rest ih => exact fun s => ⟨trivial, ih _⟩
  exact Run.play (machine Uptime Slab Slab Slab Slab) [] s (.start s h) calls (hadmitted calls s)

theorem spares_none {I : Type} {QS AN EV LK : Type → Type} [Instant I] [Pool QS] [Pool AN] [Pool EV]
    [Pool LK] (tr : Transition (DriverRun I QS AN EV LK) (DriverCall I)) (t : TickInput I)
    (hcall : tr.call = .tick t) (h : (drainRun t (beforeDrain t tr.pre.mdns)).retired = []) :
    SparesUnread tr := by
  rw [SparesUnread, hcall]
  intro handle hmem
  rw [h] at hmem
  cases hmem

def answeredLog : List Handed :=
  [.answer ⟨0⟩ ⟨.a, .in_, [10, 0, 0, 1], none, 0⟩, .missed ⟨0⟩ 0]

theorem answered_is_complete :
    answered.handed = answeredLog ++ [.terminal ⟨0⟩ .timeout 1] ∧ Accounted ⟨0⟩ 1 answeredLog := by
  have hlog : answered.handed = answeredLog ++ [.terminal ⟨0⟩ .timeout 1] := by decide +kernel
  have hfair : ∀ tr ∈ (machine Uptime Slab Slab Slab Slab).trace (atStart twoSeconds) answeredCalls,
      HandlesLeft tr ∧ SparesUnread tr := by
    intro tr htr
    simp only [answeredCalls, Machine.trace, List.mem_cons, List.not_mem_nil, or_false] at htr
    rcases htr with rfl | rfl | rfl
    · exact ⟨by unfold HandlesLeft; decide +kernel, trivial⟩
    · exact ⟨by unfold HandlesLeft; decide +kernel, spares_none _ _ rfl (by decide +kernel)⟩
    · exact ⟨by unfold HandlesLeft; decide +kernel, spares_none _ _ rfl (by decide +kernel)⟩
  exact ⟨hlog, ((query_stream_is_complete _ answered
    (played _ (atStart_starts _ twoSeconds_monotone) answeredCalls) hfair).1 _ _ _ _ _ hlog).1
      (by decide)⟩

def crampedCalls : List (DriverCall Uptime) :=
  [asksHost, .tick (queryTick [([QueryRun.addressAnswer], [])] headerSize)]

/-- A question that does not fit the send buffer ends the query in the drain, and the answer of the
same tick is neither handed on nor counted. -/
theorem drain_loses_an_answer :
    ¬∀ (ts : List (Transition (DriverRun Uptime Slab Slab Slab Slab) (DriverCall Uptime)))
      (s : DriverRun Uptime Slab Slab Slab Slab), Run (machine Uptime Slab Slab Slab Slab) ts s →
      ∀ h before update n after, s.handed = before ++ .terminal h update n :: after →
        Accounted h n before ∧ about h after = [] := by
  intro hall
  have hlog : ((machine Uptime Slab Slab Slab Slab).play (atStart fun _ => 0) crampedCalls).handed =
      [] ++ [.terminal ⟨0⟩ .timeout 1] := by decide +kernel
  have haccounted := hall _ _ (played _ (atStart_starts _ monotone_const) crampedCalls) _ _ _ _ _ hlog
  exact absurd haccounted.1.2.2 (by decide)

end DriverRun
end Hick
