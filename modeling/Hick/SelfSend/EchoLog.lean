import Hick.SelfSend.Claims

/-!
# The echoes that are owed

What both logs of sends come to: for each family, in the order of the sends, the echoes still to
come, each with its octets, the generation it was sent in and what it asserts.
-/

namespace Hick
open Octets Runs Edits

structure OwedEcho where
  body : Bytes
  generation : UInt64
  cls : SelfSendClass
  deriving DecidableEq

structure EchoLog where
  generation : UInt64
  owed : Family → List OwedEcho

namespace EchoLog

def isCurrent (log : EchoLog) (e : OwedEcho) : Bool :=
  e.generation == log.generation || e.cls == .question

def send (log : EchoLog) (body : Bytes) (families : PerFamily Bool) : EchoLog :=
  { log with
    owed := fun f =>
      log.owed f ++ if f.pick families then [⟨body, log.generation, .of body⟩] else [] }

def supersede (log : EchoLog) : EchoLog :=
  { log with generation := log.generation + 1 }

def claim (log : EchoLog) (family : Family) (body : Bytes) : EchoLog :=
  { log with
    owed := fun f =>
      if f = family then (log.owed f).eraseP fun e => e.body == body && log.isCurrent e
      else log.owed f }

def answer (log : EchoLog) (family : Family) (body : Bytes) : SelfLog :=
  if (log.owed family).any fun e => e.body == body && log.isCurrent e then .current
  else if (log.owed family).any fun e => e.body == body then .superseded
  else .none

theorem answer_current (log : EchoLog) (family : Family) (body : Bytes) (e : OwedEcho)
    (he : e ∈ log.owed family) (hbody : e.body = body) (hcurrent : log.isCurrent e = true) :
    log.answer family body = .current := by
  have hany : ((log.owed family).any fun e => e.body == body && log.isCurrent e) = true := by
    rw [List.any_eq_true]
    exact ⟨e, he, by simp [hbody, hcurrent]⟩
  rw [answer, if_pos hany]

theorem any_current_eq_false (log : EchoLog) (family : Family) (body : Bytes)
    (h : ∀ e ∈ log.owed family, e.body = body → log.isCurrent e = false) :
    ((log.owed family).any fun e => e.body == body && log.isCurrent e) = false := by
  rw [List.any_eq_false]
  intro e he
  by_cases hbody : e.body = body
  · simp [h e he hbody]
  · simp [hbody]

theorem answer_superseded (log : EchoLog) (family : Family) (body : Bytes)
    (h : ∀ e ∈ log.owed family, e.body = body → log.isCurrent e = false)
    (hsome : ∃ e ∈ log.owed family, e.body = body) : log.answer family body = .superseded := by
  have hany : ((log.owed family).any fun e => e.body == body) = true := by
    rw [List.any_eq_true]
    obtain ⟨e, he, hbody⟩ := hsome
    exact ⟨e, he, by simp [hbody]⟩
  rw [answer, log.any_current_eq_false family body h, if_neg (by decide), if_pos hany]

theorem answer_none (log : EchoLog) (family : Family) (body : Bytes)
    (h : ∀ e ∈ log.owed family, e.body ≠ body) : log.answer family body = .none := by
  have hany : ((log.owed family).any fun e => e.body == body) = false := by
    rw [List.any_eq_false]
    intro e he
    simp [h e he]
  have hcurrent := log.any_current_eq_false family body fun e he hbody => absurd hbody (h e he)
  rw [answer, hcurrent, if_neg (by decide), hany, if_neg (by decide)]

theorem claim_of_none (log : EchoLog) (family : Family) (body : Bytes)
    (h : ∀ e ∈ log.owed family, e.body = body → log.isCurrent e = false) :
    log.claim family body = log := by
  have howed : (log.claim family body).owed = log.owed := by
    funext f
    simp only [claim]
    split
    · rename_i hf
      subst hf
      apply List.eraseP_of_forall_not
      intro e he
      by_cases hbody : e.body = body
      · simp [h e he hbody]
      · simp [hbody]
    · rfl
  cases log
  simp only [claim] at howed ⊢
  rw [howed]

end EchoLog

namespace SelfSendTracker

def owedEcho (c : Credit) : OwedEcho := ⟨c.body, c.generation, c.cls⟩

def echoes (t : SelfSendTracker) : EchoLog where
  generation := t.generation
  owed f := (t.entries.filter fun c => c.family == f).map owedEcho

theorem recordBy_of_room (t : SelfSendTracker) (family : Family) (body : Bytes)
    (sent : ClockPair) (sweepNow : StdInstant) (clock : Nat → StdInstant)
    (hlength : t.entries.length < maxSelfSendEntries)
    (hbytes : t.bytes + body.length ≤ maxSelfSendBytes) :
    t.recordBy family body sent sweepNow clock =
      { t with
        entries := t.entries ++ [t.creditOf family body sent]
        bytes := t.bytes + body.length } := by
  have hswept : t.sweptFor sweepNow body.length = t := by
    rw [sweptFor, if_neg]
    simp only [Bool.or_eq_true, decide_eq_true_eq, not_or]
    exact ⟨Nat.not_le_of_lt hlength, Nat.not_lt_of_le hbytes⟩
  have hfits : t.fits 0 0 body.length = true := by
    simp only [fits, Nat.sub_zero, Bool.and_eq_true, decide_eq_true_eq]
    exact ⟨hlength, hbytes⟩
  have hloop : t.admitLoop clock body.length 0 0 t.entries = some (0, 0) := by
    cases t.entries <;> rw [admitLoop, if_pos hfits]
  simp only [recordBy, hswept, admitBody, hloop, Option.map_some, List.drop_zero, Nat.sub_zero]

theorem echoes_push (t : SelfSendTracker) (family : Family) (body : Bytes) (sent : ClockPair)
    (bytes : Nat) (f : Family) :
    (echoes { t with
      entries := t.entries ++ [t.creditOf family body sent]
      bytes := bytes }).owed f =
      t.echoes.owed f ++ if family = f then [⟨body, t.generation, .of body⟩] else [] := by
  simp only [echoes, List.filter_append, List.map_append]
  congr 1
  by_cases hf : family = f
  · rw [if_pos hf, List.filter_cons_of_pos (by simp [creditOf, hf])]
    rfl
  · rw [if_neg hf, List.filter_cons_of_neg (by simp [creditOf, hf])]
    rfl

theorem echoes_anchored (t : SelfSendTracker) (openedAt : StdInstant) :
    (t.openWindowAt openedAt).echoes = t.echoes := by
  have howed (f : Family) : (t.openWindowAt openedAt).echoes.owed f = t.echoes.owed f := by
    simp only [echoes, openWindowAt, List.filter_map, List.map_map]
    rfl
  simp only [echoes, EchoLog.mk.injEq]
  exact ⟨rfl, funext howed⟩

theorem mem_echoes (t : SelfSendTracker) (f : Family) (e : OwedEcho) :
    e ∈ t.echoes.owed f ↔ ∃ (i : Nat) (c : Credit), t.entries[i]? = some c ∧ c.family = f ∧ owedEcho c = e := by
  simp only [echoes, List.mem_map, List.mem_filter, beq_iff_eq]
  constructor
  · rintro ⟨c, ⟨hc, hf⟩, he⟩
    obtain ⟨i, hi, hget⟩ := List.getElem_of_mem hc
    exact ⟨i, c, by rw [List.getElem?_eq_getElem hi, hget], hf, he⟩
  · rintro ⟨i, c, hc, hf, he⟩
    exact ⟨c, ⟨List.mem_of_getElem? hc, hf⟩, he⟩

/-- What the answers of the embedded log are called here, where no stamp orders anything. -/
def unstamped : SelfLog → SelfSendMatch
  | .current => .degraded
  | .superseded => .superseded
  | .none => .noCredit

theorem echoes_claim (t : SelfSendTracker) (grain : Duration) (family : Family) (body : Bytes)
    (clock : Nat → ClockPair)
    (hlive : ∀ c ∈ t.entries, ∀ k, stillLive (clock k).mono c.agedFrom = true) :
    (t.claimBy grain family body none clock).1.echoes = t.echoes.claim family body ∧
      (t.claimBy grain family body none clock).2 =
        unstamped (t.echoes.answer family body) := by
  have hstands (i : Nat) (c : Credit) :
      Stands grain family body none clock 0 t.entries i c ↔
        t.entries[i]? = some c ∧ c.family = family ∧ c.body = body := by
    constructor
    · intro h
      exact ⟨h.placed, (matches_iff family body c).mp h.same⟩
    · rintro ⟨hplaced, hsame⟩
      refine ⟨hplaced, (matches_iff family body c).mpr hsame, ?_⟩
      rw [passes_iff]
      exact ⟨hlive c (List.mem_of_getElem? hplaced) _, Or.inl rfl⟩
  have hcurrent (c : Credit) : t.echoes.isCurrent (owedEcho c) = isCurrent t.generation c := rfl
  rcases t.claimBy_cases grain family body none clock with
    ⟨i, c, hc, hnow, hfirst, heq⟩ | ⟨hnone, hanswer⟩
  · have hplaced := hc.placed
    have hsame := (matches_iff family body c).mp hc.same
    rw [heq]
    constructor
    · -- the first current match of the log is the first current echo of its family
      have hfirst' : t.entries.eraseIdx i = t.entries.eraseP fun d =>
          d.family == family && (d.body == body && isCurrent t.generation d) := by
        apply eraseIdx_eq_eraseP _ _ i c hplaced
        · simp [hsame, hnow]
        · intro j d hj hd
          by_cases hmatch : d.family = family ∧ d.body = body
          · simp [hfirst j d hj ((hstands j d).mpr ⟨hd, hmatch⟩)]
          · simp only [Bool.and_eq_false_iff, beq_eq_false_iff_ne]
            by_cases hf : d.family = family
            · exact Or.inr (Or.inl fun hb => hmatch ⟨hf, hb⟩)
            · exact Or.inl hf
      have howed (f : Family) :
          ((t.entries.eraseIdx i).filter fun d => d.family == f).map owedEcho =
            (t.echoes.claim family body).owed f := by
        simp only [EchoLog.claim]
        by_cases hf : f = family
        · subst hf
          rw [if_pos rfl, hfirst', filter_eraseP_and]
          simp only [echoes, List.eraseP_map]
          rfl
        · rw [if_neg hf, filter_eraseIdx]
          · rfl
          · intro d hd
            rw [hplaced] at hd
            obtain rfl := Option.some.inj hd
            simp [hsame.1, Ne.symm hf]
      simp only [echoes, EchoLog.claim, EchoLog.mk.injEq, true_and]
      exact funext howed
    · have hmem : owedEcho c ∈ t.echoes.owed family :=
        (t.mem_echoes family _).mpr ⟨i, c, hplaced, hsame.1, rfl⟩
      rw [EchoLog.answer_current _ _ _ (owedEcho c) hmem hsame.2 (by rw [hcurrent]; exact hnow)]
      rfl
  · have hnot : ∀ e ∈ t.echoes.owed family, e.body = body → t.echoes.isCurrent e = false := by
      intro e he hbody
      obtain ⟨i, c, hplaced, hf, rfl⟩ := (t.mem_echoes family e).mp he
      rw [hcurrent]
      exact hnone i c ((hstands i c).mpr ⟨hplaced, hf, hbody⟩)
    rw [EchoLog.claim_of_none _ _ _ hnot]
    rcases hanswer with ⟨⟨i, c, hc⟩, heq⟩ | ⟨hempty, heq⟩
    · rw [heq]
      obtain ⟨hplaced, hf, hbody⟩ := (hstands i c).mp hc
      have hmem : owedEcho c ∈ t.echoes.owed family :=
        (t.mem_echoes family _).mpr ⟨i, c, hplaced, hf, rfl⟩
      rw [EchoLog.answer_superseded _ _ _ hnot ⟨_, hmem, hbody⟩]
      exact ⟨rfl, rfl⟩
    · rw [heq, EchoLog.answer_none]
      · exact ⟨rfl, rfl⟩
      · intro e he hbody
        obtain ⟨i, c, hplaced, hf, rfl⟩ := (t.mem_echoes family e).mp he
        exact hempty ⟨i, c, (hstands i c).mpr ⟨hplaced, hf, hbody⟩⟩

end SelfSendTracker

namespace Multicaster
variable {I : Type}

def owedEcho (s : SelfSend I) : OwedEcho := ⟨s.data, s.generation, s.cls⟩

def echoes (m : Multicaster I) : EchoLog where
  generation := m.generation
  owed f := (m.recent.filter fun s => f.pick s.owed).map owedEcho

def Seeded (m : Multicaster I) : Prop :=
  ∀ s ∈ m.recent, ∀ f : Family, f.pick s.owed = true → f.pick s.sentOn = true

/-- The entry answers a claim for `data` on `family`, were its window and its tier no matter. -/
def owes (family : Family) (data : Bytes) (s : SelfSend I) : Bool :=
  family.pick s.owed && s.data == data

def isCurrent (generation : UInt64) (s : SelfSend I) : Bool :=
  s.generation == generation || s.cls == .question

section
variable [Instant I] (family : Family) (data : Bytes) (now : I) (generation : UInt64)

theorem scanClaim_cons (s : SelfSend I) (rest : List (SelfSend I)) (pos : Nat)
    (superseded : Bool) (hseeded : family.pick s.owed = true → family.pick s.sentOn = true)
    (hwithin : withinTtl now s = true) :
    scanClaim family data now generation (s :: rest) pos superseded =
      if owes family data s then
        if isCurrent generation s then (some pos, superseded)
        else scanClaim family data now generation rest (pos + 1) true
      else scanClaim family data now generation rest (pos + 1) superseded := by
  rw [scanClaim]
  by_cases hdata : s.data = data
  · cases howed : family.pick s.owed with
    | true =>
      have hsent := hseeded howed
      simp [owes, isCurrent, hdata, howed, hsent, hwithin]
    | false =>
      have hnot : ¬ owes family data s = true := by simp [owes, howed]
      rw [if_neg hnot]
      simp only [hdata, hwithin, bne_self_eq_false, Bool.false_eq_true, Bool.not_true, if_false,
        Bool.not_false, if_true]
      split
      · rfl
      · split <;> rfl
  · have hnot : ¬ owes family data s = true := by simp [owes, hdata]
    rw [if_neg hnot, if_pos (by simp [hdata])]

variable (recent : List (SelfSend I)) (hseeded : ∀ s ∈ recent, family.pick s.owed = true →
    family.pick s.sentOn = true) (hwithin : ∀ s ∈ recent, withinTtl now s = true)
include hseeded hwithin

theorem scanClaim_fst (pos : Nat) (superseded : Bool) :
    (scanClaim family data now generation recent pos superseded).1 =
      (recent.findIdx? fun s => owes family data s && isCurrent generation s).map (pos + ·) := by
  induction recent generalizing pos superseded with
  | nil => rfl
  | cons s rest ih =>
    have hnext := ih (fun r hr => hseeded r (List.mem_cons_of_mem s hr))
      (fun r hr => hwithin r (List.mem_cons_of_mem s hr)) (pos + 1)
    have hshift : ((rest.findIdx? fun s => owes family data s && isCurrent generation s).map
        (· + 1)).map (pos + ·) =
        (rest.findIdx? fun s => owes family data s && isCurrent generation s).map
          (pos + 1 + ·) := by
      rw [Option.map_map]
      congr 1
      funext n
      simp only [Function.comp_apply]
      omega
    rw [scanClaim_cons _ _ _ _ s rest pos superseded (hseeded s (List.mem_cons_self ..))
      (hwithin s (List.mem_cons_self ..)), List.findIdx?_cons]
    cases howes : owes family data s with
    | false => simp only [Bool.false_and, Bool.false_eq_true, if_false, hshift, hnext]
    | true =>
      cases hcurrent : isCurrent generation s with
      | false =>
        simp only [Bool.and_false, Bool.false_eq_true, if_false, if_true, hshift, hnext]
      | true => rfl

theorem scanClaim_snd (pos : Nat) (superseded : Bool)
    (hnone : ∀ s ∈ recent, owes family data s = true → isCurrent generation s = false) :
    (scanClaim family data now generation recent pos superseded).2 =
      (superseded || recent.any (owes family data)) := by
  induction recent generalizing pos superseded with
  | nil => simp [scanClaim]
  | cons s rest ih =>
    have hnext := ih (fun r hr => hseeded r (List.mem_cons_of_mem s hr))
      (fun r hr => hwithin r (List.mem_cons_of_mem s hr)) (pos + 1)
    have hrest := fun r hr => hnone r (List.mem_cons_of_mem s hr)
    rw [scanClaim_cons _ _ _ _ s rest pos superseded (hseeded s (List.mem_cons_self ..))
      (hwithin s (List.mem_cons_self ..)), List.any_cons]
    cases howes : owes family data s with
    | false => simp only [Bool.false_or, Bool.false_eq_true, if_false, hnext superseded hrest]
    | true =>
      simp only [hnone s (List.mem_cons_self ..) howes, Bool.false_eq_true, if_false, if_true,
        hnext true hrest, Bool.true_or, Bool.or_true]

end

theorem spent_owed (family f : Family) (s : SelfSend I) :
    f.pick (spent family s).owed = (f.pick s.owed && f != family) := by
  cases family <;> cases f <;> simp [spent, Family.pick]

theorem echoes_spendAt (m : Multicaster I) (family : Family) (pos : Nat) (s : SelfSend I)
    (hs : m.recent[pos]? = some s) (f : Family) :
    (m.spendAt family pos).echoes.owed f =
      if f = family then ((m.recent.eraseIdx pos).filter fun r => f.pick r.owed).map owedEcho
      else m.echoes.owed f := by
  have hspent := spent_owed family f s
  simp only [spendAt, hs]
  by_cases hf : f = family
  · rw [if_pos hf]
    split
    · rfl
    · simp only [echoes]
      rw [filter_set_off]
      rw [hspent, hf]
      simp
  · have hkeep : f.pick (spent family s).owed = f.pick s.owed := by simp [hspent, hf]
    rw [if_neg hf]
    split
    · rename_i hempty
      simp only [echoes]
      rw [filter_eraseIdx]
      intro r hr
      rw [hs] at hr
      obtain rfl := Option.some.inj hr
      rw [← hkeep]
      cases f <;> simp_all [Family.pick]
    · exact filter_map_set _ _ _ _ _ _ hs hkeep rfl

theorem spendAt_generation (m : Multicaster I) (family : Family) (pos : Nat) :
    (m.spendAt family pos).generation = m.generation := by
  simp only [spendAt]
  split
  · split <;> rfl
  · rfl

theorem spendAt_mem (m : Multicaster I) (family : Family) (pos : Nat) (r : SelfSend I)
    (hr : r ∈ (m.spendAt family pos).recent) :
    r ∈ m.recent ∨ ∃ s ∈ m.recent, r = spent family s := by
  simp only [spendAt] at hr
  cases hs : m.recent[pos]? with
  | none =>
    rw [hs] at hr
    exact Or.inl hr
  | some s =>
    rw [hs] at hr
    simp only at hr
    split at hr
    · exact Or.inl (List.mem_of_mem_eraseIdx hr)
    · rcases List.mem_or_eq_of_mem_set hr with hr | hr
      · exact Or.inl hr
      · exact Or.inr ⟨s, List.mem_of_getElem? hs, hr⟩

theorem mem_echoes (m : Multicaster I) (f : Family) (e : OwedEcho) :
    e ∈ m.echoes.owed f ↔ ∃ s ∈ m.recent, f.pick s.owed = true ∧ owedEcho s = e := by
  simp only [echoes, List.mem_map, List.mem_filter, and_assoc]

theorem echoes_claim [Instant I] (m : Multicaster I) (hseeded : m.Seeded) (family : Family)
    (data : Bytes)
    (now : I) (hwithin : ∀ s ∈ m.recent, withinTtl now s = true) :
    (m.claim family data now).1.echoes = m.echoes.claim family data ∧
      (m.claim family data now).2 = m.echoes.answer family data := by
  have hseed : ∀ s ∈ m.recent, family.pick s.owed = true → family.pick s.sentOn = true :=
    fun s hs => hseeded s hs family
  have howes (s : SelfSend I) : owes family data s = true ↔
      family.pick s.owed = true ∧ s.data = data := by
    simp [owes]
  have hfst := scanClaim_fst family data now m.generation m.recent hseed hwithin 0 false
  have hsnd := scanClaim_snd family data now m.generation m.recent hseed hwithin 0 false
  rw [claim]
  revert hfst hsnd
  rcases scanClaim family data now m.generation m.recent 0 false with ⟨found, superseded⟩
  intro hfst hsnd
  simp only at hfst hsnd
  cases hidx : m.recent.findIdx? fun s => owes family data s && isCurrent m.generation s with
  | some i =>
    rw [hidx] at hfst
    obtain ⟨hi, hp, hfirst⟩ := List.findIdx?_eq_some_iff_getElem.mp hidx
    have hplaced : m.recent[i]? = some m.recent[i] := List.getElem?_eq_getElem hi
    have hown := hp
    simp only [Bool.and_eq_true, howes] at hown
    have hpos : found = some i := by simpa using hfst
    subst hpos
    constructor
    · have herase : m.recent.eraseIdx i = m.recent.eraseP fun s =>
          family.pick s.owed && (s.data == data && isCurrent m.generation s) := by
        apply eraseIdx_eq_eraseP _ _ i _ hplaced
        · rw [← Bool.and_assoc]
          exact hp
        · intro j s hj hs
          obtain ⟨hlt, hget⟩ := List.getElem?_eq_some_iff.mp hs
          have hnot := hfirst j hj
          rw [hget] at hnot
          rw [← Bool.and_assoc]
          exact Bool.eq_false_iff.mpr hnot
      have howed (f : Family) : (m.spendAt family i).echoes.owed f =
          (m.echoes.claim family data).owed f := by
        rw [m.echoes_spendAt family i _ hplaced f]
        simp only [EchoLog.claim]
        by_cases hf : f = family
        · subst hf
          rw [if_pos rfl, if_pos rfl, herase, filter_eraseP_and]
          simp only [echoes, List.eraseP_map]
          rfl
        · rw [if_neg hf, if_neg hf]
      have hgen := m.spendAt_generation family i
      show (m.spendAt family i).echoes = _
      have hlog (log log' : EchoLog) (hg : log.generation = log'.generation)
          (ho : ∀ f, log.owed f = log'.owed f) : log = log' := by
        cases log
        cases log'
        simp only at hg ho
        rw [hg, funext ho]
      exact hlog _ _ hgen howed
    · have hmem : owedEcho m.recent[i] ∈ m.echoes.owed family :=
        (m.mem_echoes family _).mpr ⟨_, List.getElem_mem hi, hown.1.1, rfl⟩
      exact (EchoLog.answer_current _ _ _ _ hmem hown.1.2 hown.2).symm
  | none =>
    rw [hidx] at hfst
    have hpos : found = none := by simpa using hfst
    subst hpos
    have hnone : ∀ s ∈ m.recent, owes family data s = true → isCurrent m.generation s = false := by
      intro s hs ho
      have hnot := List.findIdx?_eq_none_iff.mp hidx s hs
      rwa [ho, Bool.true_and] at hnot
    have hnot : ∀ e ∈ m.echoes.owed family, e.body = data → m.echoes.isCurrent e = false := by
      intro e he hbody
      obtain ⟨s, hs, ho, rfl⟩ := (m.mem_echoes family e).mp he
      exact hnone s hs ((howes s).mpr ⟨ho, hbody⟩)
    have hfound := hsnd hnone
    rw [EchoLog.claim_of_none _ _ _ hnot]
    cases hany : m.recent.any (owes family data) with
    | true =>
      obtain ⟨s, hs, ho⟩ := List.any_eq_true.mp hany
      obtain ⟨ho, hbody⟩ := (howes s).mp ho
      have hmem : owedEcho s ∈ m.echoes.owed family :=
        (m.mem_echoes family _).mpr ⟨s, hs, ho, rfl⟩
      rw [hany] at hfound
      subst hfound
      exact ⟨rfl, (EchoLog.answer_superseded _ _ _ hnot ⟨_, hmem, hbody⟩).symm⟩
    | false =>
      rw [hany] at hfound
      subst hfound
      refine ⟨rfl, (EchoLog.answer_none _ _ _ ?_).symm⟩
      intro e he hbody
      obtain ⟨s, hs, ho, rfl⟩ := (m.mem_echoes family e).mp he
      have hcontra := List.any_eq_false.mp hany s hs
      exact hcontra ((howes s).mpr ⟨ho, hbody⟩)

theorem claim_seeded [Instant I] (m : Multicaster I) (hseeded : m.Seeded) (family : Family)
    (data : Bytes) (now : I) : (m.claim family data now).1.Seeded := by
  rw [claim]
  rcases scanClaim family data now m.generation m.recent 0 false with ⟨_ | pos, _ | _⟩
  · exact hseeded
  · exact hseeded
  all_goals
    intro r hr f howed
    rcases m.spendAt_mem family pos r hr with hr | ⟨s, hs, rfl⟩
    · exact hseeded r hr f howed
    · rw [spent_owed, Bool.and_eq_true] at howed
      exact hseeded s hs f howed.1

theorem pruneExpired_of_none [Instant I] (now : I) (recent : List (SelfSend I)) (bytes : Nat)
    (h : ∀ s ∈ recent, expired now s = false) : pruneExpired now recent bytes = (recent, bytes) := by
  cases recent with
  | nil => rfl
  | cons s rest => simp only [pruneExpired, h s (List.mem_cons_self ..), Bool.false_eq_true, if_false]

theorem evictFor_of_room (len : Nat) (recent : List (SelfSend I)) (bytes : Nat)
    (h : bytes + len ≤ recentSendBytes) : evictFor len recent bytes = (recent, bytes) := by
  cases recent with
  | nil => rfl
  | cons s rest => rw [evictFor, if_neg (Nat.not_lt_of_le h)]

theorem record_of_room [Instant I] (m : Multicaster I) (data : Bytes) (now : I)
    (acceptedBy : PerFamily Bool) (hlive : ∀ s ∈ m.recent, expired now s = false)
    (hroom : m.recentBytes + data.length ≤ recentSendBytes) :
    (m.record data now acceptedBy).recent = m.recent ++ [{
      data := data
      at_ := now
      generation := m.generation
      cls := recentSendClass data
      sentOn := acceptedBy
      owed := acceptedBy }] := by
  simp only [record, pruneExpired_of_none now m.recent m.recentBytes hlive,
    evictFor_of_room data.length m.recent m.recentBytes hroom]

end Multicaster
end Hick

/-!
## The two logs agree (hick-udp/src/selfsend.rs, hick-smoltcp/src/engine/mod.rs:839-1289)

Both stacks are driven through one history of sends, supersedes and claims.
-/

namespace Hick
open Octets Runs

structure BothLogs (I : Type) where
  tracker : SelfSendTracker
  multicaster : Multicaster I

/-- What happens to both logs. A send names the families that took the datagram; each stack reads
its own clocks. Only the tracker has its windows opened. -/
inductive LogEvent (I : Type) where
  | send (body : Bytes) (acceptedBy : PerFamily Bool) (v6First : Bool) (at_ : I)
    (sent : PerFamily ClockPair) (sweepNow : PerFamily StdInstant)
    (clock : PerFamily (Nat → StdInstant))
  | seal_ (sweepNow openedAt : StdInstant)
  | supersede
  | claim (family : Family) (body : Bytes) (now : I) (clock : Nat → ClockPair)

def recordFor (body : Bytes) (acceptedBy : PerFamily Bool) (sent : PerFamily ClockPair)
    (sweepNow : PerFamily StdInstant) (clock : PerFamily (Nat → StdInstant)) (f : Family)
    (t : SelfSendTracker) : SelfSendTracker :=
  if f.pick acceptedBy then t.recordBy f body (f.pick sent) (f.pick sweepNow) (f.pick clock) else t

def recordFanout (body : Bytes) (acceptedBy : PerFamily Bool) (v6First : Bool)
    (sent : PerFamily ClockPair) (sweepNow : PerFamily StdInstant)
    (clock : PerFamily (Nat → StdInstant)) (t : SelfSendTracker) : SelfSendTracker :=
  let recordFor := recordFor body acceptedBy sent sweepNow clock
  if v6First then recordFor .v4 (recordFor .v6 t) else recordFor .v6 (recordFor .v4 t)

def takers (acceptedBy : PerFamily Bool) : Nat :=
  acceptedBy.v4.toNat + acceptedBy.v6.toNat

section
variable {I : Type} [Instant I]

def BothLogs.next (grain : Duration) (s : BothLogs I) : LogEvent I → BothLogs I
  | .send body acceptedBy v6First at_ sent sweepNow clock =>
    ⟨recordFanout body acceptedBy v6First sent sweepNow clock s.tracker,
      s.multicaster.recordSend body at_ acceptedBy⟩
  | .seal_ sweepNow openedAt => ⟨s.tracker.seal_ sweepNow openedAt, s.multicaster⟩
  | .supersede => ⟨s.tracker.supersede, s.multicaster.supersede⟩
  | .claim family body now clock =>
    ⟨(s.tracker.claimBy grain family body none clock).1, (s.multicaster.claim family body now).1⟩

/-- The event stays within the caps of both logs and inside both windows of every entry. -/
def BothLogs.Within (s : BothLogs I) : LogEvent I → Prop
  | .send body acceptedBy _ at_ _ _ _ =>
      s.tracker.entries.length + takers acceptedBy ≤ maxSelfSendEntries ∧
      s.tracker.bytes + takers acceptedBy * body.length ≤ maxSelfSendBytes ∧
      ((acceptedBy.v4 || acceptedBy.v6) = true →
        s.multicaster.recentBytes + body.length ≤ recentSendBytes ∧
        ∀ e ∈ s.multicaster.recent, Multicaster.expired at_ e = false)
  | .seal_ sweepNow _ => ∀ c ∈ s.tracker.entries, stillLive sweepNow c.agedFrom = true
  | .supersede => True
  | .claim _ _ now clock =>
      (∀ c ∈ s.tracker.entries, ∀ k, stillLive (clock k).mono c.agedFrom = true) ∧
      ∀ e ∈ s.multicaster.recent, Multicaster.withinTtl now e = true

def bothLogs (grain : Duration) : Machine (BothLogs I) (LogEvent I) where
  start s := s = ⟨.new, .new⟩
  admits := BothLogs.Within
  next s e := s.next grain e

structure BothLogs.Agree (s : BothLogs I) : Prop where
  same : s.tracker.echoes = s.multicaster.echoes
  seeded : s.multicaster.Seeded

theorem echoLog_ext (log log' : EchoLog) (hg : log.generation = log'.generation)
    (ho : ∀ f, log.owed f = log'.owed f) : log = log' := by
  cases log
  cases log'
  simp only at hg ho
  rw [hg, funext ho]

theorem recordFor_echoes (body : Bytes) (acceptedBy : PerFamily Bool)
    (sent : PerFamily ClockPair) (sweepNow : PerFamily StdInstant)
    (clock : PerFamily (Nat → StdInstant)) (f : Family) (t : SelfSendTracker)
    (hlength : f.pick acceptedBy = true → t.entries.length < maxSelfSendEntries)
    (hbytes : f.pick acceptedBy = true → t.bytes + body.length ≤ maxSelfSendBytes) :
    let post := recordFor body acceptedBy sent sweepNow clock f t
    post.generation = t.generation ∧
      post.entries.length = t.entries.length + (f.pick acceptedBy).toNat ∧
      post.bytes = t.bytes + (f.pick acceptedBy).toNat * body.length ∧
      ∀ g, post.echoes.owed g = t.echoes.owed g ++
        if f = g ∧ f.pick acceptedBy = true then [⟨body, t.generation, .of body⟩] else [] := by
  intro post
  cases ha : f.pick acceptedBy with
  | false =>
    have hpost : post = t := by simp [post, recordFor, ha]
    rw [hpost]
    simp
  | true =>
    have hpost : post = { t with
        entries := t.entries ++ [t.creditOf f body (f.pick sent)]
        bytes := t.bytes + body.length } := by
      simp only [post, recordFor, ha, if_true]
      exact t.recordBy_of_room f body _ _ _ (hlength ha) (hbytes ha)
    rw [hpost]
    refine ⟨rfl, by simp, by simp, ?_⟩
    intro g
    rw [t.echoes_push f body (f.pick sent) (t.bytes + body.length) g]
    simp

theorem recordFor_both (body : Bytes) (acceptedBy : PerFamily Bool)
    (sent : PerFamily ClockPair) (sweepNow : PerFamily StdInstant)
    (clock : PerFamily (Nat → StdInstant)) (f g : Family) (hfg : f ≠ g) (t : SelfSendTracker)
    (hlength : t.entries.length + ((f.pick acceptedBy).toNat + (g.pick acceptedBy).toNat) ≤
      maxSelfSendEntries)
    (hbytes : t.bytes + ((f.pick acceptedBy).toNat + (g.pick acceptedBy).toNat) * body.length ≤
      maxSelfSendBytes) :
    (recordFor body acceptedBy sent sweepNow clock g
      (recordFor body acceptedBy sent sweepNow clock f t)).echoes =
      t.echoes.send body acceptedBy := by
  rw [Nat.add_mul] at hbytes
  obtain ⟨hgen, hlen, hoctets, howed⟩ :=
    recordFor_echoes body acceptedBy sent sweepNow clock f t
      (fun h => by rw [h, Bool.toNat_true] at hlength; omega)
      (fun h => by rw [h, Bool.toNat_true] at hbytes; omega)
  obtain ⟨hgen', -, -, howed'⟩ :=
    recordFor_echoes body acceptedBy sent sweepNow clock g
      (recordFor body acceptedBy sent sweepNow clock f t)
      (fun h => by rw [h, Bool.toNat_true] at hlength; omega)
      (fun h => by rw [h, Bool.toNat_true] at hbytes; omega)
  apply echoLog_ext
  · exact hgen'.trans hgen
  · intro h
    rw [howed', howed, hgen, List.append_assoc]
    simp only [EchoLog.send]
    congr 1
    cases f <;> cases g <;> cases h <;> simp at hfg ⊢ <;> rfl

theorem recordFanout_echoes (body : Bytes) (acceptedBy : PerFamily Bool) (v6First : Bool)
    (sent : PerFamily ClockPair) (sweepNow : PerFamily StdInstant)
    (clock : PerFamily (Nat → StdInstant)) (t : SelfSendTracker)
    (hlength : t.entries.length + takers acceptedBy ≤ maxSelfSendEntries)
    (hbytes : t.bytes + takers acceptedBy * body.length ≤ maxSelfSendBytes) :
    (recordFanout body acceptedBy v6First sent sweepNow clock t).echoes =
      t.echoes.send body acceptedBy := by
  cases v6First with
  | false =>
    exact recordFor_both body acceptedBy sent sweepNow clock .v4 .v6 (by decide) t hlength hbytes
  | true =>
    rw [takers, Nat.add_comm (acceptedBy.v4.toNat)] at hlength hbytes
    exact recordFor_both body acceptedBy sent sweepNow clock .v6 .v4 (by decide) t hlength hbytes

theorem recordSend_echoes (m : Multicaster I) (hseeded : m.Seeded) (body : Bytes) (at_ : I)
    (acceptedBy : PerFamily Bool) (hfits : (acceptedBy.v4 || acceptedBy.v6) = true →
      m.recentBytes + body.length ≤ recentSendBytes ∧
      ∀ e ∈ m.recent, Multicaster.expired at_ e = false) :
    (m.recordSend body at_ acceptedBy).echoes = m.echoes.send body acceptedBy ∧
      (m.recordSend body at_ acceptedBy).Seeded := by
  rw [Multicaster.recordSend]
  by_cases hany : (acceptedBy.v4 || acceptedBy.v6) = true
  · rw [if_pos hany]
    obtain ⟨hroom, hlive⟩ := hfits hany
    have hrecent := m.record_of_room body at_ acceptedBy hlive hroom
    constructor
    · apply echoLog_ext
      · rfl
      · intro f
        simp only [Multicaster.echoes, EchoLog.send, hrecent, List.filter_append,
          List.map_append]
        congr 1
        cases hf : f.pick acceptedBy with
        | false =>
          rw [List.filter_cons_of_neg (by simp [hf])]
          rfl
        | true =>
          rw [List.filter_cons_of_pos (by simp [hf])]
          rfl
    · intro s hs f howed
      rw [hrecent, List.mem_append] at hs
      rcases hs with hs | hs
      · exact hseeded s hs f howed
      · rw [List.mem_singleton.mp hs] at howed ⊢
        exact howed
  · rw [if_neg hany]
    refine ⟨?_, hseeded⟩
    have hnone (f : Family) : f.pick acceptedBy = false := by
      simp only [Bool.or_eq_true, not_or, Bool.not_eq_true] at hany
      cases f
      · exact hany.1
      · exact hany.2
    apply echoLog_ext
    · rfl
    · intro f
      simp [EchoLog.send, hnone]

theorem seal_echoes (t : SelfSendTracker) (sweepNow openedAt : StdInstant)
    (hlive : ∀ c ∈ t.entries, stillLive sweepNow c.agedFrom = true) :
    (t.seal_ sweepNow openedAt).echoes = t.echoes := by
  have hkept : (t.reclaimExpiredSealed sweepNow).entries = t.entries :=
    List.filter_eq_self.mpr hlive
  rw [SelfSendTracker.seal_, SelfSendTracker.echoes_anchored]
  simp only [SelfSendTracker.echoes, hkept]
  rfl

theorem agree_next (grain : Duration) (s : BothLogs I) (h : s.Agree) (e : LogEvent I)
    (hwithin : s.Within e) : (s.next grain e).Agree := by
  cases e with
  | send body acceptedBy v6First at_ sent sweepNow clock =>
    obtain ⟨hlength, hbytes, hfits⟩ := hwithin
    obtain ⟨hsame, hseeded⟩ := recordSend_echoes s.multicaster h.seeded body at_ acceptedBy hfits
    have htracker := recordFanout_echoes body acceptedBy v6First sent sweepNow clock s.tracker
      hlength hbytes
    refine ⟨?_, hseeded⟩
    show (recordFanout body acceptedBy v6First sent sweepNow clock s.tracker).echoes = _
    rw [htracker, h.same]
    exact hsame.symm
  | seal_ sweepNow openedAt =>
    refine ⟨?_, h.seeded⟩
    show (s.tracker.seal_ sweepNow openedAt).echoes = _
    rw [seal_echoes s.tracker sweepNow openedAt hwithin]
    exact h.same
  | supersede =>
    refine ⟨?_, h.seeded⟩
    have hstep : s.tracker.echoes.supersede = s.multicaster.echoes.supersede := by rw [h.same]
    exact hstep
  | claim family body now clock =>
    obtain ⟨hlive, hin⟩ := hwithin
    have htracker := (s.tracker.echoes_claim grain family body clock hlive).1
    have hmulticaster := (s.multicaster.echoes_claim h.seeded family body now hin).1
    refine ⟨?_, ?_⟩
    · show (s.tracker.claimBy grain family body none clock).1.echoes = _
      rw [htracker, h.same]
      exact hmulticaster.symm
    · exact s.multicaster.claim_seeded h.seeded family body now

theorem agree_reachable (grain : Duration) (s : BothLogs I)
    (h : Reachable (bothLogs grain) s) : s.Agree := by
  apply Reachable.invariant (bothLogs grain) BothLogs.Agree _ _ s h
  · rintro _ rfl
    refine ⟨rfl, ?_⟩
    intro e he
    cases he
  · intro s e hs hwithin
    exact agree_next grain s hs e hwithin

/-- Over every history that stays within both logs' caps and inside both windows of every entry,
the embedded log and the tracker, given no receive stamp, answer a claim alike. -/
theorem self_send_logs_agree (grain : Duration) (ts : List (Transition (BothLogs I) (LogEvent I)))
    (s : BothLogs I) (run : Run (bothLogs grain) ts s) (family : Family) (body : Bytes) (now : I)
    (clock : Nat → ClockPair) (hwithin : s.Within (.claim family body now clock)) :
    let embedded := (s.multicaster.claim family body now).2
    let tracked := (s.tracker.claimBy grain family body none clock).2
    (embedded = .current ↔ tracked = .degraded) ∧
      (embedded = .superseded ↔ tracked = .superseded) ∧
      (embedded = .none ↔ tracked = .noCredit) := by
  intro embedded tracked
  have hagree := agree_reachable grain s ⟨ts, run⟩
  obtain ⟨hlive, hin⟩ := hwithin
  have htracked : tracked = SelfSendTracker.unstamped (s.tracker.echoes.answer family body) :=
    (s.tracker.echoes_claim grain family body clock hlive).2
  have hembedded : embedded = s.multicaster.echoes.answer family body :=
    (s.multicaster.echoes_claim hagree.seeded family body now hin).2
  rw [hagree.same, ← hembedded] at htracked
  rw [htracked]
  cases embedded <;> decide

def oneSend : LogEvent Uptime :=
  .send [1] (.both true) false 0 (.both ⟨0, 0⟩) (.both 0) (.both fun _ => 0)

theorem self_send_logs_agree_one :
    let s := (bothLogs 0).play ⟨.new, .new⟩ [oneSend]
    (s.multicaster.claim .v6 [1] 0).2 = .current ∧
      (s.tracker.claimBy 0 .v6 [1] none fun _ => ⟨0, 0⟩).2 = .degraded :=
  have hcurrent : (((bothLogs 0).play ⟨.new, .new⟩ [oneSend]).multicaster.claim .v6 [1] 0).2 =
      .current := by decide
  ⟨hcurrent, (self_send_logs_agree 0 _ _
    (Run.play (bothLogs 0) [] ⟨.new, .new⟩ (.start _ rfl) [oneSend]
      ⟨⟨by decide, by decide, fun _ => ⟨by decide, fun e he => absurd he List.not_mem_nil⟩⟩,
        trivial⟩)
    .v6 [1] 0 (fun _ => ⟨0, 0⟩)
    ⟨fun c hc k => by
      have hunsealed : ∀ c ∈ ((bothLogs 0).play ⟨.new, .new⟩ [oneSend]).tracker.entries,
          c.agedFrom = none := by decide
      rw [hunsealed c hc]
      rfl,
    by decide⟩).1.mp hcurrent⟩

end
end Hick
