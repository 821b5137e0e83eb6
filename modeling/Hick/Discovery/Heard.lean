import Hick.Mio.Discovery

/-!
# What a browse has heard (discovery.rs of the drivers)

A browse is told names, targets, texts and addresses, in some order.
-/

namespace Hick
open Octets Wire

def firstDistinct {T : Type} [DecidableEq T] (l : List T) : List T :=
  l.eraseDups.take maxAddrsPerHost

section
variable {T : Type} [DecidableEq T]

theorem eraseDups_snoc (l : List T) (x : T) :
    (l ++ [x]).eraseDups = if x ∈ l then l.eraseDups else l.eraseDups ++ [x] := by
  rw [List.eraseDups_append]
  split
  · rename_i h
    simp [List.removeAll, h]
  · rename_i h
    simp [List.removeAll, h, List.eraseDups_cons]

theorem nodup_eraseDups (l : List T) : l.eraseDups.Nodup := by
  induction l using List.reverseRecOn with
  | nil => exact List.nodup_nil
  | append_singleton l x ih =>
    rw [eraseDups_snoc]
    split
    · exact ih
    · rename_i h
      rw [List.nodup_append]
      refine ⟨ih, List.nodup_singleton x, ?_⟩
      intro a ha b hb
      rw [List.mem_singleton] at hb
      rw [hb]
      rintro rfl
      exact h (List.mem_eraseDups.mp ha)

theorem firstDistinct_snoc (l : List T) (x : T) :
    firstDistinct (l ++ [x]) = pushCapped (firstDistinct l) x := by
  have hlen : (firstDistinct l).length = min maxAddrsPerHost l.eraseDups.length := by
    rw [firstDistinct, List.length_take]
  rw [pushCapped]
  by_cases hfull : maxAddrsPerHost ≤ l.eraseDups.length
  · rw [if_pos (.inl (by rw [hlen]; omega))]
    simp only [firstDistinct, eraseDups_snoc]
    split
    · rfl
    · rw [List.take_append_of_le_length hfull]
  · have hall : firstDistinct l = l.eraseDups :=
      List.take_of_length_le (by omega)
    by_cases hmem : x ∈ l
    · rw [if_pos (.inr (by rw [hall]; exact List.mem_eraseDups.mpr hmem))]
      simp only [firstDistinct, eraseDups_snoc, if_pos hmem]
    · rw [if_neg]
      · rw [hall]
        simp only [firstDistinct, eraseDups_snoc, if_neg hmem]
        rw [List.take_of_length_le (by rw [List.length_append, List.length_singleton]; omega)]
      · rintro (h | h)
        · rw [hlen] at h
          omega
        · rw [hall] at h
          exact hmem (List.mem_eraseDups.mp h)

theorem firstDistinct_nodup (l : List T) : (firstDistinct l).Nodup :=
  (nodup_eraseDups l).sublist (List.take_sublist _ _)

theorem firstDistinct_length (l : List T) : (firstDistinct l).length ≤ maxAddrsPerHost :=
  List.length_take_le _ _

theorem foldl_pushCapped_mem (known l : List T) (h : ∀ x ∈ l, x ∈ known) :
    l.foldl pushCapped known = known := by
  induction l with
  | nil => rfl
  | cons x rest ih =>
    obtain ⟨hx, hrest⟩ := List.forall_mem_cons.mp h
    rw [List.foldl_cons, pushCapped, if_pos (.inr hx)]
    exact ih hrest

theorem foldl_pushCapped_append (known l : List T) (hn : (known ++ l).Nodup)
    (hlen : (known ++ l).length ≤ maxAddrsPerHost) : l.foldl pushCapped known = known ++ l := by
  induction l generalizing known with
  | nil => rw [List.append_nil, List.foldl_nil]
  | cons x rest ih =>
    have hpush : pushCapped known x = known ++ [x] := by
      rw [pushCapped, if_neg]
      rintro (h | h)
      · rw [List.length_append, List.length_cons] at hlen
        omega
      · exact (List.nodup_append.mp hn).2.2 x h x (List.mem_cons_self) rfl
    rw [List.foldl_cons, hpush, ih]
    · rw [List.append_assoc, List.singleton_append]
    · rw [List.append_assoc, List.singleton_append]
      exact hn
    · rw [List.append_assoc, List.singleton_append]
      exact hlen

theorem adopted (known old : List T) (same : Prop) [Decidable same]
    (hn : known.Nodup) (hlen : known.length ≤ maxAddrsPerHost) (hold : same → old = known) :
    known.foldl pushCapped (if same then old else []) = known := by
  split
  · rename_i h
    rw [hold h]
    exact foldl_pushCapped_mem known known fun x hx => hx
  · rw [foldl_pushCapped_append [] known (by rw [List.nil_append]; exact hn)
      (by rw [List.nil_append]; exact hlen), List.nil_append]

end

inductive Found where
  | ptr (name : Name)
  | srv (instKey : Bytes) (host : Name) (port : UInt16)
  | txt (instKey : Bytes) (segments : List Bytes)
  | v4 (hostKey : Bytes) (addr : Ipv4Addr)
  | v6 (hostKey : Bytes) (addr : Ipv6Addr)
  deriving DecidableEq

namespace Found

def read (step : Step) (answer : CollectedAnswer) : Option Found :=
  match step with
  | .ptr => if answer.rtype = .ptr then (parseName answer.rdata).map .ptr else none
  | .srv instKey =>
    if answer.rtype = .srv then
      (parseSrv answer.rdata).map fun target => .srv instKey target.1 target.2
    else none
  | .txt instKey => if answer.rtype = .txt then some (.txt instKey (parseTxt answer.rdata)) else none
  | .a hostKey =>
    if answer.rtype = .a then (aTryFromRdata answer.rdata).toOption.map (.v4 hostKey) else none
  | .aaaa hostKey =>
    if answer.rtype = .aaaa then (aaaaTryFromRdata answer.rdata).toOption.map (.v6 hostKey)
    else none

def srvAt (key : Bytes) : Found → Option (Name × UInt16)
  | .srv k host port => if k = key then some (host, port) else none
  | _ => none

def txtAt (key : Bytes) : Found → Option (List Bytes)
  | .txt k segments => if k = key then some segments else none
  | _ => none

def v4At (key : Bytes) : Found → Option Ipv4Addr
  | .v4 k addr => if k = key then some addr else none
  | _ => none

def v6At (key : Bytes) : Found → Option Ipv6Addr
  | .v6 k addr => if k = key then some addr else none
  | _ => none

end Found

def lastSrv (heard : List Found) (key : Bytes) : Option (Name × UInt16) :=
  (heard.filterMap (Found.srvAt key)).getLast?

def lastTxt (heard : List Found) (key : Bytes) : Option (List Bytes) :=
  (heard.filterMap (Found.txtAt key)).getLast?

def knownV4 (heard : List Found) (hostKey : Bytes) : List Ipv4Addr :=
  firstDistinct (heard.filterMap (Found.v4At hostKey))

def knownV6 (heard : List Found) (hostKey : Bytes) : List Ipv6Addr :=
  firstDistinct (heard.filterMap (Found.v6At hostKey))

/-- What a caller is to be told of an instance, once its SRV, its TXT and an address are there. -/
def entryOf (heard : List Found) (name : Name) : Option ServiceEntry :=
  match lastSrv heard (fold name), lastTxt heard (fold name) with
  | some (host, port), some txt =>
    if knownV4 heard (fold host) = [] ∧ knownV6 heard (fold host) = [] then none
    else some
      { instance_ := name
        host := host
        port := port
        ipv4 := knownV4 heard (fold host)
        ipv6 := knownV6 heard (fold host)
        txt := txt }
  | _, _ => none

theorem lastSrv_snoc (heard : List Found) (f : Found) (key : Bytes) :
    lastSrv (heard ++ [f]) key = (f.srvAt key).or (lastSrv heard key) := by
  rw [lastSrv, List.filterMap_append, List.getLast?_append]
  cases h : f.srvAt key <;> simp [h, lastSrv]

theorem lastTxt_snoc (heard : List Found) (f : Found) (key : Bytes) :
    lastTxt (heard ++ [f]) key = (f.txtAt key).or (lastTxt heard key) := by
  rw [lastTxt, List.filterMap_append, List.getLast?_append]
  cases h : f.txtAt key <;> simp [h, lastTxt]

theorem knownV4_snoc (heard : List Found) (f : Found) (key : Bytes) :
    knownV4 (heard ++ [f]) key = match f.v4At key with
      | some addr => pushCapped (knownV4 heard key) addr
      | none => knownV4 heard key := by
  rw [knownV4, List.filterMap_append]
  cases h : f.v4At key with
  | none => simp [h, knownV4]
  | some addr => simp [h, knownV4, firstDistinct_snoc]

theorem knownV6_snoc (heard : List Found) (f : Found) (key : Bytes) :
    knownV6 (heard ++ [f]) key = match f.v6At key with
      | some addr => pushCapped (knownV6 heard key) addr
      | none => knownV6 heard key := by
  rw [knownV6, List.filterMap_append]
  cases h : f.v6At key with
  | none => simp [h, knownV6]
  | some addr => simp [h, knownV6, firstDistinct_snoc]

theorem fold_inj (a b : Name) (h : fold a = fold b) : a = b := Name.ext_text a b h

end Hick
