import Hick.Lib.Noted

/-!
# Counters and gauges (hick-trace/src/lib.rs:190-444)

The counters of an endpoint only count up. Its gauges also count down, and a gauge that is counted
down at zero wraps, as does a counter at the end of the u64. Every site of the endpoint that adjusts
them notes the adjustments in its order, and each part of the endpoint adjusts counters and gauges
of its own. A tally follows the same notes in natural numbers.
-/

namespace Hick
open Noted

structure ReceiveStats where
  packetsRx : UInt64
  bytesRx : UInt64
  packetsDropped : UInt64
  parseErrors : UInt64
  deriving DecidableEq

inductive ReceiveNote where
  | packetsRx
  | bytesRx (length : Nat)
  | packetsDropped
  | parseErrors
  deriving DecidableEq

namespace ReceiveStats

def zero : ReceiveStats := ⟨0, 0, 0, 0⟩

def register : Register ReceiveStats ReceiveNote where
  note st
    | .packetsRx => { st with packetsRx := st.packetsRx + 1 }
    | .bytesRx length => { st with bytesRx := st.bytesRx + UInt64.ofNat length }
    | .packetsDropped => { st with packetsDropped := st.packetsDropped + 1 }
    | .parseErrors => { st with parseErrors := st.parseErrors + 1 }
  fits _ _ := True

end ReceiveStats

structure QueryStats where
  queriesStarted : UInt64
  queriesDone : UInt64
  queriesTimeout : UInt64
  queriesActive : UInt64
  deriving DecidableEq

inductive QueryNote where
  | queriesStarted
  | queriesDone
  | queriesTimeout
  | incrQueriesActive
  | decrQueriesActive
  deriving DecidableEq

namespace QueryStats

def zero : QueryStats := ⟨0, 0, 0, 0⟩

def register : Register QueryStats QueryNote where
  note st
    | .queriesStarted => { st with queriesStarted := st.queriesStarted + 1 }
    | .queriesDone => { st with queriesDone := st.queriesDone + 1 }
    | .queriesTimeout => { st with queriesTimeout := st.queriesTimeout + 1 }
    | .incrQueriesActive => { st with queriesActive := st.queriesActive + 1 }
    | .decrQueriesActive => { st with queriesActive := st.queriesActive - 1 }
  fits st n := n = .decrQueriesActive → 0 < st.queriesActive

end QueryStats

structure ServiceStats where
  servicesRegistered : UInt64
  servicesActive : UInt64
  deriving DecidableEq

inductive ServiceNote where
  | servicesRegistered
  | incrServicesActive
  | decrServicesActive
  deriving DecidableEq

namespace ServiceStats

def zero : ServiceStats := ⟨0, 0⟩

def register : Register ServiceStats ServiceNote where
  note st
    | .servicesRegistered => { st with servicesRegistered := st.servicesRegistered + 1 }
    | .incrServicesActive => { st with servicesActive := st.servicesActive + 1 }
    | .decrServicesActive => { st with servicesActive := st.servicesActive - 1 }
  fits st n := n = .decrServicesActive → 0 < st.servicesActive

end ServiceStats

structure CacheStats where
  cacheInserts : UInt64
  cacheRefreshes : UInt64
  cacheEvictions : UInt64
  cacheExpirations : UInt64
  cacheSize : UInt64
  deriving DecidableEq

inductive CacheNote where
  | cacheInserts
  | cacheRefreshes
  | cacheEvictions
  | cacheExpirations (removed : Nat)
  | setCacheSize (len : Nat)
  deriving DecidableEq

namespace CacheStats

def zero : CacheStats := ⟨0, 0, 0, 0, 0⟩

def register : Register CacheStats CacheNote where
  note st
    | .cacheInserts => { st with cacheInserts := st.cacheInserts + 1 }
    | .cacheRefreshes => { st with cacheRefreshes := st.cacheRefreshes + 1 }
    | .cacheEvictions => { st with cacheEvictions := st.cacheEvictions + 1 }
    | .cacheExpirations removed =>
      { st with cacheExpirations := st.cacheExpirations + UInt64.ofNat removed }
    | .setCacheSize len => { st with cacheSize := UInt64.ofNat len }
  fits _ _ := True

end CacheStats

structure Stats where
  receive : ReceiveStats
  queries : QueryStats
  services : ServiceStats
  cache : CacheStats
  deriving DecidableEq

structure Notes where
  receive : List ReceiveNote := []
  queries : List QueryNote := []
  services : List ServiceNote := []
  cache : List CacheNote := []
  deriving DecidableEq

namespace Stats

def zero : Stats := ⟨.zero, .zero, .zero, .zero⟩

def after (st : Stats) (notes : Notes) : Stats where
  receive := ReceiveStats.register.after st.receive notes.receive
  queries := QueryStats.register.after st.queries notes.queries
  services := ServiceStats.register.after st.services notes.services
  cache := CacheStats.register.after st.cache notes.cache

def NoUnderflow (st : Stats) (notes : Notes) : Prop :=
  QueryStats.register.Fits st.queries notes.queries ∧
    ServiceStats.register.Fits st.services notes.services

end Stats

/-! ### In natural numbers -/

theorem ofNat_pred (n : Nat) (h : 0 < n) : UInt64.ofNat (n - 1) = UInt64.ofNat n - 1 := by
  obtain ⟨n, rfl⟩ := Nat.exists_eq_succ_of_ne_zero (Nat.ne_of_gt h)
  rw [Nat.succ_sub_one, Nat.succ_eq_add_one, UInt64.ofNat_add]
  exact (UInt64.add_sub_cancel _ _).symm

theorem ofNat_pos (n : Nat) (h : 0 < n) (hlt : n < 2 ^ 64) : 0 < UInt64.ofNat n := by
  rw [UInt64.lt_iff_toNat_lt, UInt64.toNat_ofNat_of_lt' hlt]
  exact h

structure QueryTally where
  started : Nat
  done : Nat
  timeout : Nat
  active : Nat

namespace QueryTally

def register : Register QueryTally QueryNote where
  note t
    | .queriesStarted => { t with started := t.started + 1 }
    | .queriesDone => { t with done := t.done + 1 }
    | .queriesTimeout => { t with timeout := t.timeout + 1 }
    | .incrQueriesActive => { t with active := t.active + 1 }
    | .decrQueriesActive => { t with active := t.active - 1 }
  fits t n := (n = .decrQueriesActive → 0 < t.active) ∧
    (n = .incrQueriesActive → t.active < t.started)

def counted (t : QueryTally) : QueryStats :=
  ⟨UInt64.ofNat t.started, UInt64.ofNat t.done, UInt64.ofNat t.timeout, UInt64.ofNat t.active⟩

theorem counts (notes : List QueryNote) (t : QueryTally) (hle : t.active ≤ t.started)
    (h : register.Fits t notes) :
    QueryStats.register.after t.counted notes = (register.after t notes).counted ∧
      ((register.after t notes).started < 2 ^ 64 →
        t.started < 2 ^ 64 ∧ QueryStats.register.Fits t.counted notes) := by
  refine register.fits_map QueryStats.register counted (fun t => t.active ≤ t.started)
    (fun t => t.started < 2 ^ 64) ?_ ?_ ?_ ?_ notes t hle h
  · intro t n hle hfits
    cases n with
    | queriesStarted => exact Nat.le_succ_of_le hle
    | incrQueriesActive => exact hfits.2 rfl
    | decrQueriesActive => exact le_trans (Nat.sub_le _ 1) hle
    | _ => exact hle
  · intro t n hsmall
    cases n with
    | queriesStarted => exact Nat.lt_of_succ_lt hsmall
    | _ => exact hsmall
  · intro t n hfits
    cases n with
    | decrQueriesActive =>
      simp only [counted, register, QueryStats.register, ofNat_pred t.active (hfits.1 rfl)]
    | _ => simp [counted, register, QueryStats.register]
  · intro t n hle hsmall hfits hn
    exact ofNat_pos t.active (hfits.1 hn) (lt_of_le_of_lt hle hsmall)

end QueryTally

structure ServiceTally where
  registered : Nat
  active : Nat

namespace ServiceTally

def register : Register ServiceTally ServiceNote where
  note t
    | .servicesRegistered => { t with registered := t.registered + 1 }
    | .incrServicesActive => { t with active := t.active + 1 }
    | .decrServicesActive => { t with active := t.active - 1 }
  fits t n := (n = .decrServicesActive → 0 < t.active) ∧
    (n = .incrServicesActive → t.active < t.registered)

def counted (t : ServiceTally) : ServiceStats := ⟨UInt64.ofNat t.registered, UInt64.ofNat t.active⟩

theorem counts (notes : List ServiceNote) (t : ServiceTally) (hle : t.active ≤ t.registered)
    (h : register.Fits t notes) :
    ServiceStats.register.after t.counted notes = (register.after t notes).counted ∧
      ((register.after t notes).registered < 2 ^ 64 →
        t.registered < 2 ^ 64 ∧ ServiceStats.register.Fits t.counted notes) := by
  refine register.fits_map ServiceStats.register counted (fun t => t.active ≤ t.registered)
    (fun t => t.registered < 2 ^ 64) ?_ ?_ ?_ ?_ notes t hle h
  · intro t n hle hfits
    cases n with
    | servicesRegistered => exact Nat.le_succ_of_le hle
    | incrServicesActive => exact hfits.2 rfl
    | decrServicesActive => exact le_trans (Nat.sub_le _ 1) hle
  · intro t n hsmall
    cases n with
    | servicesRegistered => exact Nat.lt_of_succ_lt hsmall
    | _ => exact hsmall
  · intro t n hfits
    cases n with
    | decrServicesActive =>
      simp only [counted, register, ServiceStats.register, ofNat_pred t.active (hfits.1 rfl)]
    | _ => simp [counted, register, ServiceStats.register]
  · intro t n hle hsmall hfits hn
    exact ofNat_pos t.active (hfits.1 hn) (lt_of_le_of_lt hle hsmall)

end ServiceTally

structure Tally where
  queries : QueryTally
  services : ServiceTally

namespace Tally

def zero : Tally := ⟨⟨0, 0, 0, 0⟩, ⟨0, 0⟩⟩

def after (t : Tally) (notes : Notes) : Tally where
  queries := QueryTally.register.after t.queries notes.queries
  services := ServiceTally.register.after t.services notes.services

/-- The counters of the queries and of the services have not come to the end of the u64. -/
def Small (t : Tally) : Prop := t.queries.started < 2 ^ 64 ∧ t.services.registered < 2 ^ 64

instance (t : Tally) : Decidable t.Small := by
  unfold Small
  infer_instance

end Tally
end Hick
