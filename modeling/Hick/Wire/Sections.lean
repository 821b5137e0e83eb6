import Hick.Lib.Unfolding
import Hick.Wire.Reader

/-!
# The sections of a message are one parse (wire/reader.rs:57-180)

Each section has an iterator of its own, placed by skipping what is before it. Side by side they
give what one parse from left to right gives, entry after entry.
-/

namespace Hick.Wire
open Octets Unfolding

/-- `Questions` and `Records`: where the next entry is and how many there still are. -/
structure SectionCursor where
  cursor : Nat
  remaining : UInt16
  deriving DecidableEq

def SectionCursor.next {E : Type} (parse : Nat → Except ParseError (E × Nat)) (it : SectionCursor) :
    Option (Except ParseError E × SectionCursor) :=
  if it.remaining = 0 then none
  else
    match parse it.cursor with
    | .ok (entry, next) => some (.ok entry, ⟨next, it.remaining - 1⟩)
    | .error e => some (.error e, { it with remaining := 0 })

theorem remaining_pred (n : UInt16) (h : n ≠ 0) : (n - 1).toNat + 1 = n.toNat := by
  have hpos : n.toNat ≠ 0 := fun heq => h (UInt16.toNat_inj.mp heq)
  have hle : (1 : UInt16) ≤ n := by
    rw [UInt16.le_iff_toNat_le]
    exact Nat.one_le_iff_ne_zero.mpr hpos
  rw [UInt16.toNat_sub_of_le n 1 hle]
  change n.toNat - 1 + 1 = n.toNat
  omega

theorem SectionCursor.next_shrinks {E : Type} (parse : Nat → Except ParseError (E × Nat))
    (it it' : SectionCursor) (item : Except ParseError E) (h : it.next parse = some (item, it')) :
    it'.remaining.toNat < it.remaining.toNat := by
  unfold next at h
  split at h
  · cases h
  · rename_i hsome
    have hpred := remaining_pred it.remaining hsome
    split at h
    · cases h
      dsimp only
      omega
    · cases h
      change 0 < it.remaining.toNat
      omega

def sectionWalk {E : Type} (parse : Nat → Except ParseError (E × Nat)) :
    Walk SectionCursor (Except ParseError E) where
  step := SectionCursor.next parse
  size := fun it => it.remaining.toNat
  shrinks := fun it item it' h => it.next_shrinks parse it' item h

def entriesFrom {E : Type} (parse : Nat → Except ParseError (E × Nat)) :
    Nat → Nat → List (Except ParseError E)
  | 0, _ => []
  | remaining + 1, cursor =>
    match parse cursor with
    | .ok (entry, next) => .ok entry :: entriesFrom parse remaining next
    | .error e => [.error e]

theorem sectionWalk_items {E : Type} (parse : Nat → Except ParseError (E × Nat))
    (it : SectionCursor) :
    (sectionWalk parse).items it = entriesFrom parse it.remaining.toNat it.cursor := by
  induction it using (sectionWalk parse).induction with
  | stop it h =>
    rw [(sectionWalk parse).items_none it h]
    have hzero : it.remaining = 0 := by
      by_contra hsome
      change it.next parse = none at h
      unfold SectionCursor.next at h
      rw [if_neg hsome] at h
      split at h
      · cases h
      · cases h
    rw [hzero]
    rfl
  | go it item it' h ih =>
    rw [(sectionWalk parse).items_some it it' item h]
    change it.next parse = some (item, it') at h
    unfold SectionCursor.next at h
    split at h
    · cases h
    · rename_i hsome
      have hpred := remaining_pred it.remaining hsome
      rw [← hpred, entriesFrom]
      split at h
      · rename_i entry next hparse
        cases h
        rw [ih]
      · rename_i e hparse
        cases h
        have hdone : (sectionWalk parse).step { it with remaining := 0 } = none := by
          simp [sectionWalk, SectionCursor.next]
        rw [(sectionWalk parse).items_none _ hdone]

variable (message : Bytes)

theorem questionItems_eq (remaining cursor : Nat) :
    questionItems message remaining cursor =
      entriesFrom (QuestionRef.tryParse message) remaining cursor := by
  induction remaining generalizing cursor with
  | zero => rfl
  | succ remaining ih =>
    rw [questionItems, entriesFrom]
    cases QuestionRef.tryParse message cursor with
    | error e => rfl
    | ok found => simp only [ih]

theorem recordItems_eq (remaining cursor : Nat) :
    recordItems message remaining cursor =
      entriesFrom (Ref.tryParse message) remaining cursor := by
  induction remaining generalizing cursor with
  | zero => rfl
  | succ remaining ih =>
    rw [recordItems, entriesFrom]
    cases Ref.tryParse message cursor with
    | error e => rfl
    | ok found => simp only [ih]

inductive MessageEntry where
  | question (q : QuestionRef)
  | record (r : Ref)
  deriving DecidableEq

inductive EntryKind where
  | question
  | record

def parseEntry (message : Bytes) (kind : EntryKind) (cursor : Nat) :
    Except ParseError (MessageEntry × Nat) :=
  match kind with
  | .question => (QuestionRef.tryParse message cursor).map fun (q, next) => (.question q, next)
  | .record => (Ref.tryParse message cursor).map fun (r, next) => (.record r, next)

/-- One parse from left to right: the entries of these kinds, up to one that does not parse. -/
def parseEntries (message : Bytes) : List EntryKind → Nat → List (Except ParseError MessageEntry)
  | [], _ => []
  | kind :: more, cursor =>
    match parseEntry message kind cursor with
    | .ok (entry, next) => .ok entry :: parseEntries message more next
    | .error e => [.error e]

def parseEnd (message : Bytes) : List EntryKind → Nat → Option Nat
  | [], cursor => some cursor
  | kind :: more, cursor =>
    match parseEntry message kind cursor with
    | .ok (_, next) => parseEnd message more next
    | .error _ => none

theorem parseEntries_append (kinds more : List EntryKind) (cursor : Nat) :
    parseEntries message (kinds ++ more) cursor =
      parseEntries message kinds cursor ++
        ((parseEnd message kinds cursor).map (parseEntries message more)).getD [] := by
  induction kinds generalizing cursor with
  | nil => rfl
  | cons kind kinds ih =>
    rw [List.cons_append, parseEntries, parseEntries, parseEnd]
    split
    · rw [ih, List.cons_append]
    · rfl

theorem parseEnd_append (kinds more : List EntryKind) (cursor : Nat) :
    parseEnd message (kinds ++ more) cursor =
      (parseEnd message kinds cursor).bind (parseEnd message more) := by
  induction kinds generalizing cursor with
  | nil => rfl
  | cons kind kinds ih =>
    rw [List.cons_append, parseEnd, parseEnd]
    split
    · exact ih _
    · rfl

theorem parseEntries_length (kinds : List EntryKind) (cursor : Nat) :
    (parseEntries message kinds cursor).length ≤ kinds.length ∧
      ((parseEnd message kinds cursor).isSome →
        (parseEntries message kinds cursor).length = kinds.length) := by
  induction kinds generalizing cursor with
  | nil => exact ⟨Nat.le_refl _, fun _ => rfl⟩
  | cons kind kinds ih =>
    rw [parseEntries, parseEnd]
    split
    · rename_i entry next hparse
      obtain ⟨hle, heq⟩ := ih next
      refine ⟨Nat.succ_le_succ hle, fun h => ?_⟩
      rw [List.length_cons, List.length_cons, heq h]
    · refine ⟨by simp, nofun⟩

theorem parseEntries_split (kinds more : List EntryKind) (cursor : Nat) :
    (parseEntries message (kinds ++ more) cursor).take kinds.length =
        parseEntries message kinds cursor ∧
      (parseEntries message (kinds ++ more) cursor).drop kinds.length =
        ((parseEnd message kinds cursor).map (parseEntries message more)).getD [] := by
  obtain ⟨hle, heq⟩ := parseEntries_length message kinds cursor
  rw [parseEntries_append]
  cases hend : parseEnd message kinds cursor with
  | some next =>
    rw [hend] at heq
    have hlen := heq rfl
    rw [← hlen]
    exact ⟨List.take_left, List.drop_left⟩
  | none =>
    rw [Option.map_none, Option.getD_none, List.append_nil]
    exact ⟨List.take_of_length_le hle, List.drop_eq_nil_of_le hle⟩

theorem parseEntries_error (kinds : List EntryKind) (cursor : Nat)
    (before after : List (Except ParseError MessageEntry)) (e : ParseError)
    (h : parseEntries message kinds cursor = before ++ .error e :: after) : after = [] := by
  induction kinds generalizing cursor before with
  | nil =>
    rw [parseEntries] at h
    cases before <;> cases h
  | cons kind kinds ih =>
    rw [parseEntries] at h
    split at h
    · cases before with
      | nil => cases h
      | cons first before =>
        rw [List.cons_append, List.cons.injEq] at h
        exact ih _ before h.2
    · cases before with
      | nil =>
        cases h
        rfl
      | cons first before =>
        rw [List.cons_append, List.cons.injEq] at h
        cases before <;> cases h.2

theorem questions_parse (n cursor : Nat) :
    (questionItems message n cursor).map (Except.map MessageEntry.question) =
        parseEntries message (List.replicate n .question) cursor ∧
      skipQuestions message n cursor = parseEnd message (List.replicate n .question) cursor := by
  induction n generalizing cursor with
  | zero => exact ⟨rfl, rfl⟩
  | succ n ih =>
    rw [questionItems, skipQuestions, List.replicate_succ, parseEntries, parseEnd, parseEntry]
    cases hparse : QuestionRef.tryParse message cursor with
    | error e => exact ⟨rfl, rfl⟩
    | ok found =>
      obtain ⟨q, next⟩ := found
      obtain ⟨hitems, hskip⟩ := ih next
      refine ⟨?_, hskip⟩
      simp only [Except.map, List.map_cons, hitems]

theorem records_parse (n cursor : Nat) :
    (recordItems message n cursor).map (Except.map MessageEntry.record) =
        parseEntries message (List.replicate n .record) cursor ∧
      skipRecords message n cursor = parseEnd message (List.replicate n .record) cursor := by
  induction n generalizing cursor with
  | zero => exact ⟨rfl, rfl⟩
  | succ n ih =>
    rw [recordItems, skipRecords, List.replicate_succ, parseEntries, parseEnd, parseEntry]
    cases hparse : Ref.tryParse message cursor with
    | error e => exact ⟨rfl, rfl⟩
    | ok found =>
      obtain ⟨r, next⟩ := found
      obtain ⟨hitems, hskip⟩ := ih next
      refine ⟨?_, hskip⟩
      simp only [Except.map, List.map_cons, hitems]

theorem parseEntries_slice (before kinds more : List EntryKind) (cursor : Nat) :
    ((parseEntries message (before ++ (kinds ++ more)) cursor).drop before.length).take
        kinds.length =
      ((parseEnd message before cursor).map (parseEntries message kinds)).getD [] := by
  rw [(parseEntries_split message before (kinds ++ more) cursor).2]
  cases parseEnd message before cursor with
  | none => exact List.take_nil
  | some next => exact (parseEntries_split message kinds more next).1

def SectionCursor.atOrEmpty (count : UInt16) : Option Nat → SectionCursor
  | some cursor => ⟨cursor, count⟩
  | none => ⟨headerSize, 0⟩

namespace MessageReader

def questionKinds (m : MessageReader) : List EntryKind :=
  List.replicate m.header.questionCount.toNat .question

def answerKinds (m : MessageReader) : List EntryKind :=
  List.replicate m.header.answerCount.toNat .record

def authorityKinds (m : MessageReader) : List EntryKind :=
  List.replicate m.header.authorityCount.toNat .record

def additionalKinds (m : MessageReader) : List EntryKind :=
  List.replicate m.header.additionalCount.toNat .record

def entries (m : MessageReader) : List (Except ParseError MessageEntry) :=
  parseEntries m.message
    (m.questionKinds ++ (m.answerKinds ++ (m.authorityKinds ++ m.additionalKinds))) headerSize

variable (m : MessageReader)

theorem recordsAt_parse (count : UInt16) (cursor : Option Nat) :
    (m.recordsAt count cursor).map (Except.map MessageEntry.record) =
      (cursor.map (parseEntries m.message (List.replicate count.toNat .record))).getD [] := by
  cases cursor with
  | none => rfl
  | some cursor => exact (records_parse m.message count.toNat cursor).1

theorem recordsAt_walk (count : UInt16) (cursor : Option Nat) :
    m.recordsAt count cursor =
      (sectionWalk (Ref.tryParse m.message)).items (.atOrEmpty count cursor) := by
  rw [sectionWalk_items]
  cases cursor with
  | none => rfl
  | some cursor => exact recordItems_eq m.message count.toNat cursor

theorem skip_parse (count : UInt16) (before : List EntryKind)
    (cursor : Option Nat) (h : cursor = parseEnd m.message before headerSize) :
    cursor.bind (skipRecords m.message count.toNat) =
      parseEnd m.message (before ++ List.replicate count.toNat .record) headerSize := by
  rw [parseEnd_append, ← h]
  cases cursor with
  | none => rfl
  | some cursor => exact (records_parse m.message count.toNat cursor).2

theorem afterQuestions_parse :
    m.afterQuestions = parseEnd m.message m.questionKinds headerSize :=
  (questions_parse m.message _ headerSize).2

theorem afterAnswers_parse :
    m.afterAnswers = parseEnd m.message (m.questionKinds ++ m.answerKinds) headerSize :=
  m.skip_parse m.header.answerCount m.questionKinds m.afterQuestions m.afterQuestions_parse

theorem afterAuthority_parse :
    m.afterAuthority =
      parseEnd m.message (m.questionKinds ++ m.answerKinds ++ m.authorityKinds) headerSize :=
  m.skip_parse m.header.authorityCount (m.questionKinds ++ m.answerKinds) m.afterAnswers
    m.afterAnswers_parse

end MessageReader

theorem take_slices {A : Type} (xs : List A) (a b c d : Nat) (h : xs.length ≤ a + b + c + d) :
    xs = xs.take a ++ (xs.drop a).take b ++ (xs.drop (a + b)).take c ++
      (xs.drop (a + b + c)).take d := by
  have hlast : (xs.drop (a + b + c)).take d = xs.drop (a + b + c) := by
    apply List.take_of_length_le
    rw [List.length_drop]
    omega
  have hsecond : xs.drop (a + b) = (xs.drop a).drop b := by rw [List.drop_drop]
  have hthird : xs.drop (a + b + c) = ((xs.drop a).drop b).drop c := by
    rw [List.drop_drop, List.drop_drop, Nat.add_assoc]
  rw [hlast, hsecond, hthird, List.append_assoc, List.append_assoc, List.take_append_drop,
    List.take_append_drop, List.take_append_drop]

/-- What the four iterators give are consecutive parts, as long as the counts of the header say, of
one parse of the message from left to right, and together they are that parse. An entry that does
not parse is the last thing that any of them gives. -/
theorem sections_are_one_parse (m : MessageReader) :
    let questions := m.questions.map (Except.map MessageEntry.question)
    let answers := m.answers.map (Except.map MessageEntry.record)
    let authority := m.authority.map (Except.map MessageEntry.record)
    let additional := m.additional.map (Except.map MessageEntry.record)
    let qd := m.header.questionCount.toNat
    let an := m.header.answerCount.toNat
    let ns := m.header.authorityCount.toNat
    questions = m.entries.take qd ∧
    answers = (m.entries.drop qd).take an ∧
    authority = (m.entries.drop (qd + an)).take ns ∧
    additional = (m.entries.drop (qd + an + ns)).take m.header.additionalCount.toNat ∧
    m.entries = questions ++ answers ++ authority ++ additional ∧
    (∀ before e after, m.entries = before ++ .error e :: after → after = []) ∧
    m.questions = (sectionWalk (QuestionRef.tryParse m.message)).items
      ⟨headerSize, m.header.questionCount⟩ ∧
    m.answers = (sectionWalk (Ref.tryParse m.message)).items
      (.atOrEmpty m.header.answerCount m.afterQuestions) ∧
    m.authority = (sectionWalk (Ref.tryParse m.message)).items
      (.atOrEmpty m.header.authorityCount m.afterAnswers) ∧
    m.additional = (sectionWalk (Ref.tryParse m.message)).items
      (.atOrEmpty m.header.additionalCount m.afterAuthority) := by
  intro questions answers authority additional qd an ns
  have hqd : m.questionKinds.length = qd := List.length_replicate
  have han : m.answerKinds.length = an := List.length_replicate
  have hns : m.authorityKinds.length = ns := List.length_replicate
  have har : m.additionalKinds.length = m.header.additionalCount.toNat := List.length_replicate
  have hquestions : questions = m.entries.take qd := by
    rw [← hqd]
    exact (questions_parse m.message _ headerSize).1.trans
      (parseEntries_split m.message m.questionKinds _ headerSize).1.symm
  have hanswers : answers = (m.entries.drop qd).take an := by
    have hslice := parseEntries_slice m.message m.questionKinds m.answerKinds
      (m.authorityKinds ++ m.additionalKinds) headerSize
    rw [hqd, han, ← m.afterQuestions_parse] at hslice
    exact (m.recordsAt_parse m.header.answerCount m.afterQuestions).trans hslice.symm
  have hauthority : authority = (m.entries.drop (qd + an)).take ns := by
    have hslice := parseEntries_slice m.message (m.questionKinds ++ m.answerKinds)
      m.authorityKinds m.additionalKinds headerSize
    rw [List.append_assoc, List.length_append, hqd, han, hns, ← m.afterAnswers_parse] at hslice
    exact (m.recordsAt_parse m.header.authorityCount m.afterAnswers).trans hslice.symm
  have hadditional : additional =
      (m.entries.drop (qd + an + ns)).take m.header.additionalCount.toNat := by
    have hslice := parseEntries_slice m.message
      (m.questionKinds ++ m.answerKinds ++ m.authorityKinds) m.additionalKinds [] headerSize
    have hshape : m.questionKinds ++ m.answerKinds ++ m.authorityKinds ++
        (m.additionalKinds ++ []) =
        m.questionKinds ++ (m.answerKinds ++ (m.authorityKinds ++ m.additionalKinds)) := by
      simp only [List.append_assoc, List.append_nil]
    rw [hshape, List.length_append, List.length_append, hqd, han, hns, har,
      ← m.afterAuthority_parse] at hslice
    exact (m.recordsAt_parse m.header.additionalCount m.afterAuthority).trans hslice.symm
  refine ⟨hquestions, hanswers, hauthority, hadditional, ?_, ?_, ?_, ?_, ?_, ?_⟩
  · rw [hquestions, hanswers, hauthority, hadditional]
    apply take_slices
    have hle := (parseEntries_length m.message
      (m.questionKinds ++ (m.answerKinds ++ (m.authorityKinds ++ m.additionalKinds)))
      headerSize).1
    simp only [List.length_append, hqd, han, hns, har] at hle
    unfold MessageReader.entries
    omega
  · intro before e after h
    exact parseEntries_error m.message _ headerSize before after e h
  · rw [sectionWalk_items]
    exact questionItems_eq m.message _ headerSize
  · exact m.recordsAt_walk m.header.answerCount m.afterQuestions
  · exact m.recordsAt_walk m.header.authorityCount m.afterAnswers
  · exact m.recordsAt_walk m.header.additionalCount m.afterAuthority

end Hick.Wire
