import Mathlib
import Hick.Endpoint.Roster
import Hick.Lib.Assoc

/-!
# The contexts of a driver (hick-reactor/src/driver/mod.rs:459-522, 1578-1609, 1730-1750,
hick-compio/src/driver/mod.rs:358-395, 491-508, 557-578)

A driver keeps a context for every service of its endpoint, and marks in it that the service has
been given up.
-/

namespace Hick
open Octets Wire Respond Runs

structure Retiring (C : Type) where
  retired : C → Bool
  retire : C → C
  retired_retire : ∀ c, retired (retire c) = true

structure Writing (C T : Type) extends Retiring C where
  fresh : C
  retired_fresh : retired fresh = false
  write : T → C → C
  retired_write : ∀ t c, retired (write t c) = retired c

structure Hosted (C I G R : Type) (SR EV : Type → Type) where
  endpoint : Endpoint I G R SR EV
  services : Assoc ServiceHandle C

namespace Hosted
variable {C I G R : Type} {SR EV : Type → Type} [Instant I] [SeedSource G] [SeedableRng R]
  [Pool SR] [Pool EV]

def beginServiceWithdrawal (rules : Retiring C) (d : Hosted C I G R SR EV) (handle : ServiceHandle)
    (now : I) : Hosted C I G R SR EV :=
  match d.services.lookup handle with
  | none => d
  | some _ => ⟨d.endpoint.unregisterService handle now, Assoc.modify rules.retire handle d.services⟩

/-- `drain_completed_withdrawals`, and the contexts of the services it reports are dropped. -/
def drainCompletedWithdrawals (d : Hosted C I G R SR EV) (now : I) : Hosted C I G R SR EV :=
  let (endpoint, completed) := d.endpoint.drainCompletedWithdrawals now
  ⟨endpoint, completed.foldr (fun handle services => services.erase handle) d.services⟩

def registerService (fresh : C) (d : Hosted C I G R SR EV) (records : ServiceRecords) (now : I) :
    Hosted C I G R SR EV × Except Endpoint.RegisterServiceError ServiceHandle :=
  match d.endpoint.tryRegisterService records now with
  | (endpoint, .error err) => ({ d with endpoint := endpoint }, .error err)
  | (endpoint, .ok handle) => (⟨endpoint, d.services.insert handle fresh⟩, .ok handle)

/-- There is a context for every route and no other, and it bears the mark exactly while the service
is leaving. -/
structure Mirrors (rules : Retiring C) (d : Hosted C I G R SR EV) : Prop where
  rostered : d.endpoint.Rostered
  contexts : ∀ handle, (d.services.lookup handle).map rules.retired = d.endpoint.standing handle

theorem lookup_foldr_erase (gone : List ServiceHandle) (m : Assoc ServiceHandle C)
    (j : ServiceHandle) :
    (gone.foldr (fun handle services => services.erase handle) m).lookup j =
      if j ∈ gone then none else m.lookup j := by
  induction gone with
  | nil => rw [List.foldr_nil, if_neg List.not_mem_nil]
  | cons handle rest ih =>
    rw [List.foldr_cons, Assoc.lookup_erase, ih]
    by_cases hj : j = handle
    · rw [if_pos hj, if_pos (List.mem_cons.mpr (.inl hj))]
    · have hmem : j ∈ handle :: rest ↔ j ∈ rest := by
        rw [List.mem_cons]
        exact or_iff_right hj
      simp only [if_neg hj, hmem]

section
variable [LawfulPool SR] {rules : Retiring C} {d : Hosted C I G R SR EV}

theorem Mirrors.begun (h : Mirrors rules d) (handle : ServiceHandle) (now : I) :
    (d.beginServiceWithdrawal rules handle now).endpoint =
      d.endpoint.unregisterService handle now := by
  unfold beginServiceWithdrawal
  cases hctx : d.services.lookup handle with
  | some ctx => rfl
  | none =>
    -- without a context there is no route, and the endpoint would pass the call over
    have hstands := h.contexts handle
    rw [hctx, Option.map_none] at hstands
    have hnone := (d.endpoint.standing_none_iff handle).mp hstands.symm
    dsimp only
    unfold Endpoint.unregisterService
    rcases d.endpoint.serviceKey_cases handle with hkey | ⟨key, r, hkey, hr, hh⟩
    · rw [hkey]
    · exact absurd ⟨key, by rw [Endpoint.handleAt, hr, Option.map_some, hh]⟩ hnone

omit [SeedSource G] [SeedableRng R] [Pool EV] [LawfulPool SR] in
theorem lookup_begin (d : Hosted C I G R SR EV) (handle : ServiceHandle) (now : I)
    (j : ServiceHandle) :
    (d.beginServiceWithdrawal rules handle now).services.lookup j =
      if j = handle then (d.services.lookup j).map rules.retire else d.services.lookup j := by
  unfold beginServiceWithdrawal
  cases hctx : d.services.lookup handle with
  | some ctx => exact Assoc.lookup_modify rules.retire handle j d.services
  | none =>
    dsimp only
    split
    · rename_i hj
      rw [hj, hctx, Option.map_none]
    · rfl

theorem Mirrors.beginServiceWithdrawal (h : Mirrors rules d) (handle : ServiceHandle) (now : I) :
    Mirrors rules (d.beginServiceWithdrawal rules handle now) := by
  obtain ⟨hrostered, hstanding⟩ :=
    Endpoint.unregisterService_standing d.endpoint h.rostered handle now
  constructor
  · rw [h.begun]
    exact hrostered
  · intro j
    rw [lookup_begin, h.begun, hstanding]
    split
    · rw [Option.map_map, ← h.contexts j, Option.map_map]
      have hmark : rules.retired ∘ rules.retire = (fun _ => true) ∘ rules.retired :=
        funext rules.retired_retire
      rw [hmark]
    · exact h.contexts j

theorem Mirrors.begin_standing (h : Mirrors rules d) (handle : ServiceHandle) (now : I)
    (j : ServiceHandle) :
    (d.beginServiceWithdrawal rules handle now).endpoint.standing j =
      if j = handle then (d.endpoint.standing j).map fun _ => true else d.endpoint.standing j := by
  rw [h.begun]
  exact (Endpoint.unregisterService_standing d.endpoint h.rostered handle now).2 j

theorem Mirrors.unmoved (h : Mirrors rules d) (d' : Hosted C I G R SR EV)
    (hmoved : Endpoint.Unmoved d.endpoint d'.endpoint)
    (hmarks : ∀ j, (d'.services.lookup j).map rules.retired =
      (d.services.lookup j).map rules.retired) : Mirrors rules d' where
  rostered := hmoved.rostered h.rostered
  contexts j := by
    rw [hmarks, hmoved.standing]
    exact h.contexts j

theorem Mirrors.registerService (h : Mirrors rules d) (hmint : d.endpoint.Mintable) (fresh : C)
    (hfresh : rules.retired fresh = false) (records : ServiceRecords) (now : I) :
    Mirrors rules (d.registerService fresh records now).1 := by
  unfold Hosted.registerService
  cases hreg : d.endpoint.tryRegisterService records now with
  | mk endpoint outcome =>
    cases outcome with
    | error err =>
      obtain ⟨hrostered, hstanding, -⟩ :=
        Endpoint.registerError_unmoved d.endpoint endpoint records now err hreg h.rostered
      exact ⟨hrostered, fun j => (h.contexts j).trans (hstanding j).symm⟩
    | ok handle =>
      obtain ⟨hrostered, -, hstanding⟩ :=
        Endpoint.registerOk_standing d.endpoint endpoint records now handle hreg h.rostered hmint
      refine ⟨hrostered, fun j => ?_⟩
      change ((d.services.insert handle fresh).lookup j).map rules.retired = endpoint.standing j
      rw [Assoc.lookup_insert, hstanding]
      split
      · rw [Option.map_some, hfresh]
      · exact h.contexts j

end

section
variable [ReleasingPool SR] {rules : Retiring C} {d : Hosted C I G R SR EV}

theorem Mirrors.drainCompletedWithdrawals (h : Mirrors rules d) (now : I) :
    Mirrors rules (d.drainCompletedWithdrawals now) := by
  have hdeparted := Endpoint.drainCompletedWithdrawals_departed d.endpoint h.rostered now
  refine ⟨hdeparted.rostered, fun j => ?_⟩
  change Option.map rules.retired (List.foldr _ d.services
    (d.endpoint.drainCompletedWithdrawals now).2 |>.lookup j) =
      (d.endpoint.drainCompletedWithdrawals now).1.standing j
  rw [lookup_foldr_erase, hdeparted.standing]
  split
  · rfl
  · exact h.contexts j

end

/-- The steps of a driver that reach its contexts or its endpoint, in whatever order and at whatever
instants it makes them. -/
inductive Step (I T : Type) where
  | register (records : ServiceRecords) (now : I)
  | endpoint (c : HostCall I)
  | write (handle : ServiceHandle) (t : T)
  | beginWithdrawal (handle : ServiceHandle) (now : I)
  | drainCompleted (now : I)

section
variable {T : Type}

def next (w : Writing C T) (d : Hosted C I G R SR EV) : Step I T → Hosted C I G R SR EV
  | .register records now => (d.registerService w.fresh records now).1
  | .endpoint c => { d with endpoint := d.endpoint.next c }
  | .write handle t => { d with services := Assoc.modify (w.write t) handle d.services }
  | .beginWithdrawal handle now => d.beginServiceWithdrawal w.toRetiring handle now
  | .drainCompleted now => d.drainCompletedWithdrawals now

/-- A driver registers, begins withdrawals and drains them in these steps alone, and registers while
the endpoint has a handle that no service has. -/
def Admits (d : Hosted C I G R SR EV) : Step I T → Prop
  | .register _ _ => d.endpoint.Mintable
  | .endpoint c => Endpoint.Idle c.call
  | _ => True

def machine (w : Writing C T) : Machine (Hosted C I G R SR EV) (Step I T) where
  start d := ∃ config rng, d = ⟨Endpoint.tryNew config rng, ∅⟩
  admits := Admits
  next := next w

theorem new_mirrors [LawfulPool SR] (rules : Retiring C) (config : EndpointConfig) (rng : G) :
    Mirrors rules (⟨Endpoint.tryNew config rng, ∅⟩ : Hosted C I G R SR EV) where
  rostered := Endpoint.tryNew_rostered config rng
  contexts j := by
    have hnone := (Endpoint.standing_none_iff _ j).mpr
      (Endpoint.tryNew_has config rng j : ¬(Endpoint.tryNew config rng : Endpoint I G R SR EV).Has j)
    rw [hnone]
    rfl

theorem next_mirrors [ReleasingPool SR] (w : Writing C T) (d : Hosted C I G R SR EV)
    (h : Mirrors w.toRetiring d) (step : Step I T) (hadmits : Admits d step) :
    Mirrors w.toRetiring (d.next w step) := by
  cases step with
  | register records now => exact h.registerService hadmits w.fresh w.retired_fresh records now
  | endpoint c =>
    exact h.unmoved _ (Endpoint.next_unmoved d.endpoint h.rostered.unique c hadmits) fun _ => rfl
  | write handle t =>
    refine h.unmoved (d.next w (.write handle t)) ⟨.rfl', fun _ => rfl, fun _ => rfl⟩ fun j => ?_
    change ((Assoc.modify (w.write t) handle d.services).lookup j).map _ = _
    rw [Assoc.lookup_modify]
    split
    · rw [Option.map_map, show w.retired ∘ w.write t = w.retired from funext (w.retired_write t)]
    · rfl
  | beginWithdrawal handle now => exact h.beginServiceWithdrawal handle now
  | drainCompleted now => exact h.drainCompletedWithdrawals now

theorem reachable_mirrors [ReleasingPool SR] (w : Writing C T) (d : Hosted C I G R SR EV)
    (h : Reachable (machine w) d) : Mirrors w.toRetiring d := by
  apply h.invariant (machine w) (Mirrors w.toRetiring)
  · rintro s ⟨config, rng, rfl⟩
    exact new_mirrors w.toRetiring config rng
  · intro s step hs hadmits
    exact next_mirrors w s hs step hadmits

end

end Hosted
end Hick
