import Mathlib
import Hick.Lib.Octets

/-!
# Address prefixes

An address is a string of octets, most significant first; a prefix of `p` bits is compared octet by
octet, the last one under a mask.
-/

namespace Octets

def beNat (xs : Bytes) : Nat := xs.foldl (fun acc x => acc * 256 + x.val) 0

def netmask (w p : Nat) : Nat := (2 ^ p - 1) <<< (w - p)

def octetMask (rem : Nat) : Byte := Fin.ofNat 256 (255 <<< (8 - rem))

def samePrefix (net addr : Bytes) (p : Nat) : Bool :=
  if net.take (p / 8) ≠ addr.take (p / 8) then false
  else if p % 8 = 0 then true
  else
    match net[p / 8]?, addr[p / 8]? with
    | some n, some a => (n &&& octetMask (p % 8)) == (a &&& octetMask (p % 8))
    | _, _ => false

theorem foldl_octets (xs : Bytes) (acc : Nat) :
    xs.foldl (fun acc x => acc * 256 + x.val) acc = acc * 256 ^ xs.length + beNat xs := by
  induction xs generalizing acc with
  | nil => simp [beNat]
  | cons x xs ih =>
    have hx : beNat (x :: xs) = (0 * 256 + x.val) * 256 ^ xs.length + beNat xs := ih _
    rw [List.foldl_cons, ih, hx, List.length_cons, pow_succ]
    ring

theorem beNat_append (xs ys : Bytes) :
    beNat (xs ++ ys) = beNat xs * 256 ^ ys.length + beNat ys := by
  unfold beNat
  rw [List.foldl_append, foldl_octets]
  rfl

theorem beNat_lt (xs : Bytes) : beNat xs < 256 ^ xs.length := by
  induction xs using List.reverseRecOn with
  | nil => simp [beNat]
  | append_singleton xs x ih =>
    have hx := x.isLt
    rw [beNat_append, List.length_append]
    simp only [beNat, List.foldl_cons, List.foldl_nil, List.length_cons, List.length_nil, pow_succ,
      pow_zero] at ih ⊢
    omega

theorem beNat_injective (xs ys : Bytes) (hlen : xs.length = ys.length)
    (h : beNat xs = beNat ys) : xs = ys := by
  induction xs using List.reverseRecOn generalizing ys with
  | nil => exact (List.length_eq_zero_iff.mp hlen.symm).symm
  | append_singleton xs x ih =>
    induction ys using List.reverseRecOn with
    | nil => simp at hlen
    | append_singleton ys y _ =>
      have hx := x.isLt
      have hy := y.isLt
      rw [beNat_append, beNat_append] at h
      simp only [List.length_append, List.length_cons, List.length_nil, pow_succ, pow_zero] at h hlen
      have hone : ∀ z : Byte, beNat [z] = z.val := by
        intro z
        simp [beNat]
      rw [hone, hone] at h
      have hlast : x.val = y.val := by omega
      rw [ih ys (by omega) (by omega), Fin.ext hlast]

theorem beNat_take (xs : Bytes) (k : Nat) :
    beNat xs / 2 ^ (8 * (xs.length - k)) = beNat (xs.take k) := by
  have hsplit := beNat_append (xs.take k) (xs.drop k)
  have hlow := beNat_lt (xs.drop k)
  rw [List.take_append_drop] at hsplit
  rw [List.length_drop] at hsplit hlow
  have hpow : (2 : Nat) ^ (8 * (xs.length - k)) = 256 ^ (xs.length - k) := pow_mul 2 8 _
  rw [hsplit, hpow, Nat.add_comm, Nat.add_mul_div_right _ _ (by positivity),
    Nat.div_eq_of_lt hlow, Nat.zero_add]

theorem octetMask_and (rem : Nat) (b : Byte) (hrem : rem < 8) :
    (b &&& octetMask rem).val = b.val / 2 ^ (8 - rem) * 2 ^ (8 - rem) := by
  have hall : ∀ rem : Fin 8, ∀ b : Byte,
      (b &&& octetMask rem.val).val = b.val / 2 ^ (8 - rem.val) * 2 ^ (8 - rem.val) := by
    decide +kernel
  exact hall ⟨rem, hrem⟩ b

theorem octetMask_eq_iff (rem : Nat) (a b : Byte) (hrem : rem < 8) :
    a &&& octetMask rem = b &&& octetMask rem ↔
      a.val / 2 ^ (8 - rem) = b.val / 2 ^ (8 - rem) := by
  rw [Fin.ext_iff, octetMask_and rem a hrem, octetMask_and rem b hrem]
  exact Nat.mul_right_cancel_iff (by positivity)

theorem and_netmask (w p x : Nat) (hp : p ≤ w) (hx : x < 2 ^ w) :
    x &&& netmask w p = (x / 2 ^ (w - p)) <<< (w - p) := by
  apply Nat.eq_of_testBit_eq
  intro i
  simp only [netmask, Nat.testBit_and, Nat.testBit_shiftLeft, Nat.testBit_two_pow_sub_one,
    Nat.testBit_div_two_pow]
  by_cases hi : w - p ≤ i
  · by_cases hw : i < w
    · simp only [hi, decide_true, Bool.true_and, show i - (w - p) < p by omega, Bool.and_true,
        show i - (w - p) + (w - p) = i by omega]
    · have hzero : x.testBit i = false :=
        Nat.testBit_lt_two_pow (lt_of_lt_of_le hx (Nat.pow_le_pow_right (by norm_num) (by omega)))
      simp only [hzero, Bool.false_and, show i - (w - p) + (w - p) = i by omega, Bool.and_false]
  · simp only [hi, decide_false, Bool.false_and, Bool.and_false]

theorem and_netmask_eq_iff (w p x y : Nat) (hp : p ≤ w) (hx : x < 2 ^ w) (hy : y < 2 ^ w) :
    x &&& netmask w p = y &&& netmask w p ↔ x / 2 ^ (w - p) = y / 2 ^ (w - p) := by
  rw [and_netmask w p x hp hx, and_netmask w p y hp hy]
  constructor
  · intro h
    have hshift := congrArg (· >>> (w - p)) h
    simpa only [Nat.shiftLeft_shiftRight] using hshift
  · intro h
    rw [h]

/-- An octet string cut at `p` bits: the whole octets before the cut and the leading bits of the
one it falls in. -/
theorem beNat_cut (xs : Bytes) (p : Nat) (b : Byte) (hb : xs[p / 8]? = some b)
    (hp : p < 8 * xs.length) :
    beNat xs / 2 ^ (8 * xs.length - p) =
      beNat (xs.take (p / 8)) * 2 ^ (p % 8) + b.val / 2 ^ (8 - p % 8) := by
  have hlt : p / 8 < xs.length := by omega
  have htake : xs.take (p / 8 + 1) = xs.take (p / 8) ++ [b] := by
    rw [List.take_add_one, hb]
    rfl
  have hwhole := beNat_take xs (p / 8 + 1)
  rw [htake, beNat_append] at hwhole
  have hexp : 8 * xs.length - p = 8 * (xs.length - (p / 8 + 1)) + (8 - p % 8) := by omega
  have hb' : beNat [b] = b.val := by simp [beNat]
  rw [hexp, pow_add, ← Nat.div_div_eq_div_mul, hwhole, hb', List.length_singleton, pow_one]
  have hsplit : beNat (xs.take (p / 8)) * 256 =
      beNat (xs.take (p / 8)) * 2 ^ (p % 8) * 2 ^ (8 - p % 8) := by
    rw [Nat.mul_assoc, ← pow_add, show p % 8 + (8 - p % 8) = 8 by omega]
    rfl
  rw [hsplit, Nat.add_comm, Nat.add_mul_div_right _ _ (by positivity), Nat.add_comm]

theorem mul_add_eq_iff (s t n a m : Nat) (hn : n < m) (ha : a < m) :
    s * m + n = t * m + a ↔ s = t ∧ n = a := by
  constructor
  · intro h
    have hdiv := congrArg (· / m) h
    simp only [Nat.add_comm _ n, Nat.add_comm _ a, Nat.add_mul_div_right _ _ (Nat.zero_lt_of_lt hn),
      Nat.div_eq_of_lt hn, Nat.div_eq_of_lt ha, Nat.zero_add] at hdiv
    subst hdiv
    exact ⟨rfl, Nat.add_left_cancel h⟩
  · intro h
    rw [h.1, h.2]

theorem samePrefix_iff (net addr : Bytes) (p : Nat) (hlen : net.length = addr.length)
    (hp : p ≤ 8 * net.length) :
    samePrefix net addr p = true ↔
      beNat net &&& netmask (8 * net.length) p = beNat addr &&& netmask (8 * net.length) p := by
  have hpow : ∀ xs : Bytes, xs.length = net.length → beNat xs < 2 ^ (8 * net.length) := by
    intro xs hxs
    have h := beNat_lt xs
    rw [hxs] at h
    rwa [pow_mul]
  rw [and_netmask_eq_iff _ p _ _ hp (hpow net rfl) (hpow addr hlen.symm)]
  have htakes : net.take (p / 8) = addr.take (p / 8) ↔
      beNat (net.take (p / 8)) = beNat (addr.take (p / 8)) := by
    constructor
    · intro h
      rw [h]
    · intro h
      exact beNat_injective _ _ (by rw [List.length_take, List.length_take, hlen]) h
  unfold samePrefix
  by_cases hrem : p % 8 = 0
  · have hnet := beNat_take net (p / 8)
    have haddr := beNat_take addr (p / 8)
    rw [← hlen] at haddr
    rw [show 8 * net.length - p = 8 * (net.length - p / 8) by omega, hnet, haddr, ← htakes]
    simp [hrem]
  · have hin : p / 8 < net.length := by omega
    have hin' : p / 8 < addr.length := by omega
    have hn : net[p / 8]? = some net[p / 8] := List.getElem?_eq_getElem hin
    have ha : addr[p / 8]? = some addr[p / 8] := List.getElem?_eq_getElem hin'
    have hcut := beNat_cut net p _ hn (by omega)
    have hcut' := beNat_cut addr p _ ha (by omega)
    rw [← hlen] at hcut'
    rw [hcut, hcut', hn, ha, if_neg hrem]
    have hsmall : ∀ b : Byte, b.val / 2 ^ (8 - p % 8) < 2 ^ (p % 8) := by
      intro b
      rw [Nat.div_lt_iff_lt_mul (by positivity), ← pow_add, show p % 8 + (8 - p % 8) = 8 by omega]
      exact b.isLt
    rw [mul_add_eq_iff _ _ _ _ _ (hsmall _) (hsmall _), ← htakes]
    dsimp only
    by_cases ht : net.take (p / 8) = addr.take (p / 8)
    · rw [if_neg (not_not.mpr ht), beq_iff_eq, octetMask_eq_iff _ _ _ (Nat.mod_lt _ (by norm_num))]
      simp [ht]
    · rw [if_pos ht]
      simp [ht]

end Octets
