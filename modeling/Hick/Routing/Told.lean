import Hick.Query.Run
import Hick.Routing.Exhaust

/-!
# Routing a datagram meets its specification (endpoint/receive.rs:338-424, endpoint/route.rs)

The queries have been offered the records before the iterator is made.
-/

set_option linter.unusedSectionVars false

namespace Hick
open Octets Wire Drain

section
variable {I G R : Type} {SR QS EV AN EvQ : Type → Type} [Instant I] [SeedSource G]
  [SeedableRng R] [Pool SR] [Pool QS] [Pool EV] [Pool AN] [Pool EvQ]

def offerTo (r : Ref) (q : Query I AN EvQ) : Option (Query I AN EvQ × Ref) :=
  if q.done || q.terminalEmitted then none
  else if namesMatchRecord q.qname r && q.accepts r then some (q, r)
  else none

def offers (now : I) : List (Except ParseError Ref) → QS (Query I AN EvQ) →
    List (Query I AN EvQ × Ref)
  | [], _ => []
  | .error _ :: _, _ => []
  | .ok r :: rest, queries =>
    ((Pool.iter queries).filterMap fun kq => offerTo r kq.2) ++
      offers now rest (hearAll now r queries)

def eagerOffers (now : I) (reader : MessageReader) (admits : Admits)
    (queries : QS (Query I AN EvQ)) : List (Query I AN EvQ × Ref) :=
  if admits.observation && reader.header.flags.isResponse then
    offers now (reader.answers ++ reader.additional) queries
  else []

def told (now : I) (offer : Query I AN EvQ × Ref) : Option (QueryHandle × Ref) :=
  if offer.2.ttl = 0 ∨ offer.1.callerWindowShut now = true then none
  else some (offer.1.handle, offer.2)

def toldQueries (outputs : List RouteOutput) : List (QueryHandle × Ref) :=
  outputs.filterMap fun o =>
    match o with
    | .toQuery handle r => some (handle, r)
    | .service _ _ | .failed _ => none

def tell (now : I) (r : Ref) (q : Query I AN EvQ) : Option (QueryHandle × Ref) :=
  (offerTo r q).bind (told now)

theorem hear_keeps (now : I) (r' : Ref) (q : Query I AN EvQ) :
    (q.hear now r').done = q.done ∧ (q.hear now r').terminalEmitted = q.terminalEmitted ∧
      (q.hear now r').qname = q.qname ∧ (∀ r, (q.hear now r').accepts r = q.accepts r) ∧
      (q.hear now r').handle = q.handle ∧
      (q.hear now r').callerWindowShut now = q.callerWindowShut now := by
  obtain ⟨answers, nextSeq, heq⟩ := q.hear_only now r'
  rw [heq]
  exact ⟨rfl, rfl, rfl, fun _ => rfl, rfl, rfl⟩

theorem tell_hear (now : I) (r r' : Ref) (q : Query I AN EvQ) :
    tell now r (q.hear now r') = tell now r q := by
  obtain ⟨hdone, hterminal, hqname, haccepts, hhandle, hshut⟩ := hear_keeps now r' q
  rw [tell, tell, offerTo, offerTo, hdone, hterminal, hqname, haccepts]
  split
  · rfl
  · split
    · simp only [Option.bind_some, told, hhandle, hshut]
    · rfl

theorem heardBy_tell (now : I) (r : Ref) (q : Query I AN EvQ) (httl : r.ttl ≠ 0) :
    (heardBy now r q).map (·, r) = tell now r q := by
  rw [heardBy, tell, offerTo]
  cases hdone : q.done || q.terminalEmitted with
  | true => simp only [Bool.true_or, if_true, Option.map_none, Option.bind_none]
  | false =>
    simp only [Bool.false_or, Bool.false_eq_true, if_false]
    cases hshut : q.callerWindowShut now with
    | true =>
      simp only [if_true, Option.map_none]
      split
      · simp only [Option.bind_some, told, hshut, or_true, if_true]
      · rfl
    | false =>
      simp only [Bool.false_eq_true, if_false]
      split
      · simp only [Option.bind_some, told, hshut, httl, Bool.false_eq_true, or_self, if_false,
          Option.map_some]
      · rfl

theorem tell_goodbye (now : I) (r : Ref) (q : Query I AN EvQ) (httl : r.ttl = 0) :
    tell now r q = none := by
  rw [tell]
  cases hoffer : offerTo r q with
  | none => rfl
  | some offer =>
    have hrecord : offer.2 = r := by
      rw [offerTo] at hoffer
      split at hoffer
      · cases hoffer
      · split at hoffer
        · rw [← Option.some.inj hoffer]
        · cases hoffer
    simp only [Option.bind_some, told, hrecord, httl, true_or, if_true]

theorem filterMap_hearAll [OrderedPool QS] (now : I) (r r' : Ref) (queries : QS (Query I AN EvQ)) :
    ((Pool.iter (hearAll now r' queries)).filterMap fun kq => tell now r kq.2) =
      (Pool.iter queries).filterMap fun kq => tell now r kq.2 := by
  have hfold : ∀ (entries : List (Nat × Query I AN EvQ)) (p : QS (Query I AN EvQ)),
      ((Pool.iter (entries.foldl (fun p kq => Pool.update p kq.1 fun q => q.hear now r')
        p)).filterMap fun kq => tell now r kq.2) =
        (Pool.iter p).filterMap fun kq => tell now r kq.2 := by
    intro entries
    induction entries with
    | nil =>
      intro p
      rfl
    | cons entry rest ih =>
      intro p
      rw [List.foldl_cons, ih, iter_update, List.filterMap_map]
      apply List.filterMap_congr
      intro kq _
      simp only [Function.comp_apply]
      split
      · exact tell_hear now r r' kq.2
      · rfl
  exact hfold (Pool.iter queries) queries

/-- Whom the caller is told of, of the records up to the first that cannot be read. -/
def tellAll (now : I) (queries : List (Nat × Query I AN EvQ)) :
    List (Except ParseError Ref) → List (QueryHandle × Ref)
  | [] => []
  | .error _ :: _ => []
  | .ok r :: rest => (queries.filterMap fun kq => tell now r kq.2) ++ tellAll now queries rest

theorem tellAll_congr (now : I) (queries queries' : List (Nat × Query I AN EvQ))
    (h : ∀ r, (queries.filterMap fun kq => tell now r kq.2) =
      queries'.filterMap fun kq => tell now r kq.2) (records : List (Except ParseError Ref)) :
    tellAll now queries records = tellAll now queries' records := by
  induction records with
  | nil => rfl
  | cons item rest ih =>
    cases item with
    | error e => rfl
    | ok r => rw [tellAll, tellAll, h, ih]

theorem tellAll_append (now : I) (queries : List (Nat × Query I AN EvQ))
    (records more : List (Except ParseError Ref))
    (h : ∀ (i : Nat) (e : ParseError), records[i]? = some (.error e) → more = []) :
    tellAll now queries (records ++ more) = tellAll now queries records ++
      tellAll now queries more := by
  induction records with
  | nil => rfl
  | cons item rest ih =>
    cases item with
    | error e =>
      rw [h 0 e rfl]
      rfl
    | ok r =>
      rw [List.cons_append, tellAll, tellAll, ih fun i e hi => h (i + 1) e hi, List.append_assoc]

theorem offers_told [OrderedPool QS] (now : I) (records : List (Except ParseError Ref))
    (queries : QS (Query I AN EvQ)) : (offers now records queries).filterMap (told now) =
      tellAll now (Pool.iter queries) records := by
  induction records generalizing queries with
  | nil => rfl
  | cons item rest ih =>
    cases item with
    | error e => rfl
    | ok r =>
      rw [offers, tellAll, List.filterMap_append, List.filterMap_filterMap, ih]
      have hsame := tellAll_congr now _ _ (fun r' => filterMap_hearAll now r' r queries) rest
      rw [hsame]
      rfl

theorem filterMap_hearRecords [OrderedPool QS] (now : I) (r : Ref)
    (records : List (Except ParseError Ref)) (queries : QS (Query I AN EvQ)) :
    ((Pool.iter (hearRecords now records queries)).filterMap fun kq => tell now r kq.2) =
      (Pool.iter queries).filterMap fun kq => tell now r kq.2 := by
  induction records generalizing queries with
  | nil => rfl
  | cons item rest ih =>
    cases item with
    | error e => rfl
    | ok r' => rw [hearRecords, ih, filterMap_hearAll]

theorem toldQueries_append (a b : List RouteOutput) :
    toldQueries (a ++ b) = toldQueries a ++ toldQueries b :=
  List.filterMap_append

namespace Scene

theorem toldQueries_services (sc : Scene I AN EvQ) (event : RouteView → Option ServiceEvent)
    (start : Nat) : toldQueries (sc.services event start) = [] := by
  rw [services, toldQueries, List.filterMap_map, List.filterMap_eq_nil_iff]
  intro entry _
  rfl

theorem toldQueries_audience (sc : Scene I AN EvQ) (r : Ref) (httl : r.ttl ≠ 0) :
    toldQueries (sc.audience r 0) =
      if sc.isResponse && sc.admits.observation then
        sc.queries.filterMap fun kq => tell sc.now r kq.2
      else [] := by
  rw [audience]
  split
  · rw [hits_zero, toldQueries, List.filterMap_map, List.filterMap_filterMap]
    apply List.filterMap_congr
    intro kq _
    rw [← heardBy_tell sc.now r kq.2 httl]
    cases heardBy sc.now r kq.2 <;> rfl
  · rfl

theorem toldQueries_record (sc : Scene I AN EvQ) (event : RouteView → Option ServiceEvent)
    (r : Ref) : toldQueries (positive r (sc.services event 0 ++ sc.audience r 0)) =
      if sc.isResponse && sc.admits.observation then
        sc.queries.filterMap fun kq => tell sc.now r kq.2
      else [] := by
  rw [positive]
  split
  · rename_i httl
    have hnone : (sc.queries.filterMap fun kq => tell sc.now r kq.2) = [] := by
      rw [List.filterMap_eq_nil_iff]
      intro kq _
      exact tell_goodbye sc.now r kq.2 httl
    rw [hnone, ite_self]
    rfl
  · rename_i httl
    rw [toldQueries_append, toldQueries_services, toldQueries_audience sc r httl, List.nil_append]

theorem toldQueries_walk_none {α : Type} (outputs : α → List RouteOutput)
    (h : ∀ a, toldQueries (outputs a) = []) (items : List (Except ParseError α)) :
    toldQueries (walk outputs items) = [] := by
  induction items with
  | nil => rfl
  | cons item rest ih =>
    cases item with
    | error e => rfl
    | ok a => rw [walk, toldQueries_append, h, ih, List.nil_append]

theorem toldQueries_walk (sc : Scene I AN EvQ) (outputs : Ref → List RouteOutput)
    (h : ∀ r, toldQueries (outputs r) =
      if sc.isResponse && sc.admits.observation then
        sc.queries.filterMap fun kq => tell sc.now r kq.2
      else []) (items : List (Except ParseError Ref)) :
    toldQueries (walk outputs items) =
      if sc.isResponse && sc.admits.observation then tellAll sc.now sc.queries items else [] := by
  induction items with
  | nil =>
    rw [tellAll, ite_self]
    rfl
  | cons item rest ih =>
    cases item with
    | error e =>
      rw [tellAll, ite_self]
      rfl
    | ok r =>
      rw [walk, toldQueries_append, h, ih, tellAll]
      split <;> rfl

theorem toldQueries_routed (sc : Scene I AN EvQ) : toldQueries sc.routed =
    if sc.isResponse && sc.admits.observation then
      tellAll sc.now sc.queries (sc.reader.answers ++ sc.reader.additional)
    else [] := by
  have hquestions : toldQueries sc.questionsPart = [] := by
    rw [questionsPart]
    split
    · exact toldQueries_walk_none _ (fun q => sc.toldQueries_services _ 0) _
    · rfl
  have hproposals : toldQueries sc.proposalsPart = [] := by
    rw [proposalsPart]
    split
    · exact sc.toldQueries_services _ 0
    · rfl
  have hauthority : toldQueries sc.authorityPart = [] := by
    rw [authorityPart]
    split
    · apply toldQueries_walk_none
      intro r
      rw [authorityOutputs, positive]
      split
      · rfl
      · exact sc.toldQueries_services _ 0
    · rfl
  have hanswers := sc.toldQueries_walk sc.answerOutputs
    (fun r => sc.toldQueries_record (sc.answered r) r) sc.reader.answers
  have hadditional := sc.toldQueries_walk sc.additionalOutputs
    (fun r => sc.toldQueries_record (sc.contested .additional r) r) sc.reader.additional
  rw [routed]
  split
  · rename_i hdenied
    have hsilent : sc.admits.observation = false := by
      cases hobs : sc.admits.observation with
      | false => rfl
      | true => simp [Admits.allDenied, hobs] at hdenied
    rw [hsilent, Bool.and_false]
    rfl
  · rw [toldQueries_append, toldQueries_append, toldQueries_append, toldQueries_append,
      hquestions, hproposals, hauthority, List.nil_append, List.append_nil, List.append_nil,
      answersPart, hanswers, additionalPart]
    cases hresponse : sc.isResponse with
    | false => rfl
    | true =>
      rw [if_pos rfl, hadditional, hresponse, Bool.true_and]
      split
      · rw [tellAll_append sc.now sc.queries _ _ sc.reader.additional_of_answers]
      · rfl

end Scene

namespace RouteEvents

theorem tellAll_handled [OrderedPool QS] (now : I) (src : SocketAddr) (reader : MessageReader)
    (admits : Admits) (queries : QS (Query I AN EvQ)) (hresponse : reader.header.flags.isResponse)
    (hobserved : admits.observation = true) (records : List (Except ParseError Ref)) :
    tellAll now (Pool.iter (handledQueries now src reader admits queries)) records =
      tellAll now (Pool.iter queries) records := by
  have heager : handledQueries now src reader admits queries =
      hearRecords now (reader.answers ++ reader.additional) queries := by
    simp [handledQueries, eagerPass, hresponse, hobserved]
  rw [heager]
  apply tellAll_congr
  intro r
  exact filterMap_hearRecords now r _ queries

/-- The iterator, called until it has no more, stops, having put out all that the datagram calls
for and nothing else, in the order of the message; each service is given its events in that order.
The caller is told of a query for each offer of the eager pass that could count. -/
theorem routing_is_its_specification [OrderedPool SR] [OrderedPool QS]
    (endpoint : Endpoint I G R SR EV) (queries : QS (Query I AN EvQ)) (src : SocketAddr)
    (reader : MessageReader) (now : I) (datagram : DatagramId) (admits : Admits) :
    (∃ t : RouteEvents I G R SR QS EV AN EvQ,
      Drains step (handle endpoint queries src reader now datagram admits)
        (handle endpoint queries src reader now datagram admits).scene.routed t ∧
      t.step = .stop ∧
      t.endpoint = (handle endpoint queries src reader now datagram admits).scene.routed.foldl
        (change now) endpoint) ∧
    toldQueries (handle endpoint queries src reader now datagram admits).scene.routed =
      (eagerOffers now reader admits queries).filterMap (told now) := by
  constructor
  · exact new_drains endpoint (handledQueries now src reader admits queries) src reader now datagram
      admits _ rfl
  · rw [Scene.toldQueries_routed, eagerOffers]
    have hsc : ((handle endpoint queries src reader now datagram admits).scene.isResponse &&
        (handle endpoint queries src reader now datagram admits).scene.admits.observation) =
        (admits.observation && reader.header.flags.isResponse) := Bool.and_comm _ _
    rw [hsc]
    split
    · rename_i hobserved
      obtain ⟨hobserved, hresponse⟩ := Bool.and_eq_true_iff.mp hobserved
      rw [offers_told]
      exact tellAll_handled now src reader admits queries hresponse hobserved _
    · rfl

end RouteEvents
end

namespace RouteEvents

def hostResponse (ttl : Byte) : MessageReader where
  message := [0, 0, 132, 0, 0, 0, 0, 1, 0, 0, 0, 0, 1, 104, 5, 108, 111, 99, 97, 108, 0, 0, 1, 128,
    1, 0, 0, 0, ttl, 0, 4, 10, 0, 0, 1]
  header := ⟨0, ⟨33792⟩, 0, 1, 0, 0⟩

def unrestricted : Admits := ⟨true, true, true, .all⟩

def emptyEndpoint : Endpoint Uptime ZeroRng ZeroRng Slab Slab :=
  Endpoint.tryNew ⟨true, true, 0⟩ ⟨⟩

def oneQuery : Slab (Query Uptime Slab Slab) :=
  ⟨[some (Query.tryNew ⟨1⟩ ServiceRecords.printerHost .a .in_ 7 false none)]⟩

def peer : SocketAddr := .v4 (.new 10 0 0 1) mdnsPort

theorem routing_host_response :
    (eagerOffers (0 : Uptime) (hostResponse 120) unrestricted oneQuery).length = 1 ∧
      (toldQueries (handle emptyEndpoint oneQuery peer (hostResponse 120) 0 ⟨0⟩
        unrestricted).scene.routed).length = 1 := by
  rw [(routing_is_its_specification emptyEndpoint oneQuery peer (hostResponse 120) 0 ⟨0⟩
    unrestricted).2]
  decide +kernel

/-- A goodbye is offered to the query, and the caller is not told. -/
theorem goodbye_not_told :
    ¬ ∀ (endpoint : Endpoint Uptime ZeroRng ZeroRng Slab Slab)
      (queries : Slab (Query Uptime Slab Slab)) (src : SocketAddr) (reader : MessageReader)
      (now : Uptime) (datagram : DatagramId) (admits : Admits),
      (toldQueries (handle endpoint queries src reader now datagram admits).scene.routed).length =
        (eagerOffers now reader admits queries).length := by
  intro h
  have htold := h emptyEndpoint oneQuery peer (hostResponse 0) 0 ⟨0⟩ unrestricted
  revert htold
  decide +kernel

end RouteEvents
end Hick
