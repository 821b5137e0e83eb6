import Mathlib

/-!
# Producers (hick-reactor/src/driver/mod.rs:1851-1855, hick-compio/src/driver/mod.rs:770-968)

A driver polls its services and its queries for datagrams, and keeps a context for each of them. Both
kinds are polled alike; what becomes of the context differs.
-/

namespace Hick

def maxConsecutiveEncodeErrors : Nat := 3

/-- What the polls of a class do to the context of a producer: `answered` after a datagram or
nothing, `failed` after an encode error, and `retire` where it is given up. -/
structure Producer (C : Type) where
  live : C → Bool
  answered : C → C
  failed : C → C
  givesUp : C → Bool
  retire : C → C

def Producer.unencodable {C : Type} (producer : Producer C) (c : C) : C :=
  if producer.givesUp (producer.failed c) then producer.retire (producer.failed c)
  else producer.failed c

end Hick
