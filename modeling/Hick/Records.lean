import Mathlib
import Hick.Name

/-!
# Service records (records.rs)

`ServiceRecords` (`records.rs:29-59`) is what one service publishes.
-/

namespace Hick
open Octets LabelSeq

structure Ipv4Addr where
  octets : Bytes
  length_eq : octets.length = 4
  deriving DecidableEq

def Ipv4Addr.new (a b c d : Byte) : Ipv4Addr := ⟨[a, b, c, d], rfl⟩

structure Ipv6Addr where
  octets : Bytes
  length_eq : octets.length = 16
  deriving DecidableEq

/-- The text `._sub.` that `add_subtype` puts between a subtype and the service type. -/
def subSeparator : Bytes := [46, 95, 115, 117, 98, 46]

def trimEndDots (s : Bytes) : Bytes := (s.reverse.dropWhile (· == dot)).reverse

def browseName (serviceType : Name) (subtype : Bytes) : Bytes :=
  trimEndDots subtype ++ subSeparator ++ serviceType.text

/-- `n` is a browse name that `add_subtype` built for `serviceType`. -/
def IsSubtypeOf (serviceType n : Name) : Prop :=
  ∃ subtype, Name.tryFromStr (browseName serviceType subtype) = .ok n

theorem trim_append (a b : Bytes) (hb : b ≠ []) : trim (a ++ b) = a ++ trim b := by
  unfold trim
  rw [List.getLast?_append_of_ne_nil a hb]
  split
  · rw [List.dropLast_append_of_ne_nil hb]
  · rfl

theorem splitDot_append_dot (a b : Bytes) :
    splitDot (a ++ dot :: b) = splitDot a ++ splitDot b :=
  List.splitOn_append_cons_self a b

theorem lower_append (a b : Bytes) : lower (a ++ b) = lower a ++ lower b := List.map_append

theorem IsSubtypeOf.labels (serviceType n : Name) (h : IsSubtypeOf serviceType n) :
    ∃ front, n.labels = front ++ serviceType.labels ∧ 2 ≤ front.length := by
  obtain ⟨subtype, hn⟩ := h
  obtain ⟨_, ht⟩ := Name.tryFromStr_eq_ok _ n hn
  have hsub : lower subSeparator = dot :: [95, 115, 117, 98] ++ [dot] := by decide
  have ht' : n.text =
      lower (trimEndDots subtype) ++ (dot :: [95, 115, 117, 98] ++ [dot]) ++ serviceType.text := by
    rw [ht, browseName, lower_append, lower_append, hsub, serviceType.folded]
  have hne : n.text ≠ [] := by
    rw [ht']
    simp
  have hpos : 0 < (splitDot (lower (trimEndDots subtype))).length :=
    List.length_pos_iff.mpr (List.splitOn_ne_nil dot _)
  have hmid : splitDot ([95, 115, 117, 98] : Bytes) = [[95, 115, 117, 98]] := by decide
  rw [Name.labels, if_neg hne, ht']
  by_cases hs : serviceType.text = []
  · refine ⟨splitDot (lower (trimEndDots subtype)) ++ [[95, 115, 117, 98]], ?_, ?_⟩
    · rw [hs, List.append_nil, List.cons_append, trim_append _ _ (by simp),
        serviceType.labels_eq_nil.mpr hs, List.append_nil]
      have htrim : trim (dot :: ([95, 115, 117, 98] ++ [dot])) = dot :: [95, 115, 117, 98] := by
        decide
      rw [htrim, splitDot_append_dot, hmid]
    · simp only [List.length_append, List.length_singleton]
      omega
  · refine ⟨splitDot (lower (trimEndDots subtype)) ++ [[95, 115, 117, 98]], ?_, ?_⟩
    · rw [trim_append _ _ hs, Name.labels, if_neg hs]
      simp only [List.cons_append, List.append_assoc, List.nil_append]
      rw [splitDot_append_dot]
      have h2 := splitDot_append_dot [95, 115, 117, 98] (trim serviceType.text)
      rw [hmid] at h2
      simp only [List.cons_append, List.nil_append] at h2
      rw [h2]
    · simp only [List.length_append, List.length_singleton]
      omega

structure ServiceRecords where
  serviceType : Name
  instanceName : Name
  host : Name
  port : UInt16
  priority : UInt16
  weight : UInt16
  aAddrs : List Ipv4Addr
  aaaaAddrs : List Ipv6Addr
  aaaaScopes : List UInt32
  txt : List Bytes
  subtypes : List Name
  ttlSecs : UInt32
  scopesAligned : aaaaScopes.length = aaaaAddrs.length
  subtypesUnder : ∀ n ∈ subtypes, IsSubtypeOf serviceType n

namespace ServiceRecords

def new (serviceType instanceName host : Name) (port : UInt16) (ttlSecs : UInt32) :
    ServiceRecords where
  serviceType := serviceType
  instanceName := instanceName
  host := host
  port := port
  priority := 0
  weight := 0
  aAddrs := []
  aaaaAddrs := []
  aaaaScopes := []
  txt := []
  subtypes := []
  ttlSecs := ttlSecs
  scopesAligned := rfl
  subtypesUnder := by simp

def addA (r : ServiceRecords) (addr : Ipv4Addr) : ServiceRecords :=
  { r with aAddrs := r.aAddrs ++ [addr] }

def setInstance (r : ServiceRecords) (name : Name) : ServiceRecords :=
  { r with instanceName := name }

def retainSubtypes (r : ServiceRecords) (keep : Name → Bool) : ServiceRecords :=
  { r with
    subtypes := r.subtypes.filter keep
    subtypesUnder := fun n hn => r.subtypesUnder n (List.mem_filter.mp hn).1 }

theorem subtype_ne_child (r : ServiceRecords) (n child : Name) (hn : n ∈ r.subtypes)
    (hc : r.serviceType.isParentOf child = true) : n.labels ≠ child.labels := by
  obtain ⟨front, hf, hlen⟩ := (r.subtypesUnder n hn).labels
  obtain ⟨l, hl⟩ := (r.serviceType.isParentOf_iff child).mp hc
  intro h
  have hcount := congrArg List.length h
  rw [hf, hl] at hcount
  simp only [List.length_append, List.length_cons] at hcount
  omega

end ServiceRecords

def minServiceTtlSecs : UInt32 := 2

/-- The records `try_register_service` accepts (endpoint/service.rs:205-238). -/
structure Registrable (records : ServiceRecords) : Prop where
  ttl : minServiceTtlSecs ≤ records.ttlSecs
  serviceType : records.serviceType.text ≠ []
  parent : records.serviceType.isParentOf records.instanceName = true

namespace ServiceRecords

theorem type_ne_instance (r : ServiceRecords) (h : Registrable r) :
    r.serviceType.labels ≠ r.instanceName.labels := by
  obtain ⟨l, hl⟩ := (r.serviceType.isParentOf_iff r.instanceName).mp h.parent
  rw [hl]
  exact (List.cons_ne_self l r.serviceType.labels).symm

theorem subtype_ne_type (r : ServiceRecords) (n : Name) (hn : n ∈ r.subtypes) :
    n.labels ≠ r.serviceType.labels := by
  obtain ⟨front, hf, hlen⟩ := (r.subtypesUnder n hn).labels
  intro h
  have hcount := congrArg List.length h
  rw [hf, List.length_append] at hcount
  omega

def printerType : Name := ⟨[95, 112, 46, 108, 111, 99, 97, 108], by decide, by decide⟩
def printerInstance : Name :=
  ⟨[97, 46, 95, 112, 46, 108, 111, 99, 97, 108], by decide, by decide⟩
def printerHost : Name := ⟨[104, 46, 108, 111, 99, 97, 108], by decide, by decide⟩

def printer : ServiceRecords :=
  (new printerType printerInstance printerHost 631 120).addA ⟨[10, 0, 0, 1], rfl⟩

end ServiceRecords

end Hick
