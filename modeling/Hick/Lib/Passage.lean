import Mathlib

/-!
# From one list to the next

A log that is never reordered hands its elements on: each of them leaves for a stated reason or
passes on in its place, changed only as allowed.
-/

/-- `Passage Leaves Turns l l'`: the elements of `l`, in order, each gone because it `Leaves` or
found in `l'` as what it `Turns` into; nothing else is in `l'`. -/
inductive Passage {α β : Type} (Leaves : α → Prop) (Turns : α → β → Prop) :
    List α → List β → Prop
  | nil : Passage Leaves Turns [] []
  | leave (a : α) (l : List α) (l' : List β) (h : Leaves a) (rest : Passage Leaves Turns l l') :
    Passage Leaves Turns (a :: l) l'
  | turn (a : α) (b : β) (l : List α) (l' : List β) (h : Turns a b)
    (rest : Passage Leaves Turns l l') : Passage Leaves Turns (a :: l) (b :: l')

namespace Passage
variable {α β γ : Type} {Leaves Leaves' : α → Prop} {Turns Turns' : α → β → Prop}

theorem map (f : α → β) (l : List α) (h : ∀ a ∈ l, Turns a (f a)) :
    Passage Leaves Turns l (l.map f) := by
  induction l with
  | nil => exact .nil
  | cons a l ih =>
    have hrest := ih fun x hx => h x (List.mem_cons_of_mem a hx)
    exact .turn a (f a) l _ (h a (List.mem_cons_self ..)) hrest

theorem refl (l : List α) : Passage Leaves Eq l l := by
  have hid : Passage Leaves Eq l (l.map id) := map id l fun _ _ => rfl
  rwa [List.map_id] at hid

theorem filter (p : α → Bool) (l : List α) (h : ∀ a ∈ l, p a = false → Leaves a) :
    Passage Leaves Eq l (l.filter p) := by
  induction l with
  | nil => exact .nil
  | cons a l ih =>
    have hrest := ih fun x hx => h x (List.mem_cons_of_mem a hx)
    cases hp : p a with
    | false =>
      rw [List.filter_cons_of_neg (by simp [hp])]
      exact .leave a l _ (h a (List.mem_cons_self ..) hp) hrest
    | true =>
      rw [List.filter_cons_of_pos hp]
      exact .turn a a l _ rfl hrest

theorem drop (n : Nat) (l : List α) (h : ∀ a ∈ l.take n, Leaves a) :
    Passage Leaves Eq l (l.drop n) := by
  induction l generalizing n with
  | nil =>
    rw [List.drop_nil]
    exact .nil
  | cons a l ih =>
    cases n with
    | zero => exact refl (a :: l)
    | succ n =>
      have hrest := ih n fun x hx => h x (by simp [hx])
      exact .leave a l _ (h a (by simp)) hrest

theorem eraseIdx (n : Nat) (l : List α) (h : ∀ a, l[n]? = some a → Leaves a) :
    Passage Leaves Eq l (l.eraseIdx n) := by
  induction l generalizing n with
  | nil => exact .nil
  | cons a l ih =>
    cases n with
    | zero => exact .leave a l l (h a rfl) (refl l)
    | succ n => exact .turn a a l _ rfl (ih n fun x hx => h x hx)

theorem mono {l : List α} {l' : List β} (h : Passage Leaves Turns l l')
    (hl : ∀ a, Leaves a → Leaves' a) (ht : ∀ a b, Turns a b → Turns' a b) :
    Passage Leaves' Turns' l l' := by
  induction h with
  | nil => exact .nil
  | leave a l l' h _ ih => exact .leave a l l' (hl a h) ih
  | turn a b l l' h _ ih => exact .turn a b l l' (ht a b h) ih

theorem after {l m : List α} {l' : List β} (first : Passage Leaves Eq l m)
    (second : Passage Leaves Turns m l') : Passage Leaves Turns l l' := by
  induction first generalizing l' with
  | nil => exact second
  | leave a l m h _ ih => exact .leave a l l' h (ih second)
  | turn a b l m h _ ih =>
    subst h
    cases second with
    | leave _ _ _ h rest => exact .leave a l l' h (ih rest)
    | turn _ b _ l' h rest => exact .turn a b l l' h (ih rest)

theorem forall_mem {l : List α} {l' : List β} (h : Passage Leaves Turns l l') (P : α → Prop)
    (Q : β → Prop) (hl : ∀ a ∈ l, P a) (ht : ∀ a b, P a → Turns a b → Q b) : ∀ b ∈ l', Q b := by
  induction h with
  | nil =>
    intro b hb
    cases hb
  | leave a l l' _ _ ih => exact ih fun x hx => hl x (List.mem_cons_of_mem a hx)
  | turn a b l l' h _ ih =>
    intro x hx
    rcases List.mem_cons.mp hx with rfl | hx
    · exact ht a x (hl a (List.mem_cons_self ..)) h
    · exact ih (fun y hy => hl y (List.mem_cons_of_mem a hy)) x hx

theorem origin {l : List α} {l' : List β} (h : Passage Leaves Turns l l') (b : β) (hb : b ∈ l') :
    ∃ a ∈ l, Turns a b :=
  h.forall_mem (fun a => a ∈ l) (fun b => ∃ a ∈ l, Turns a b) (fun _ ha => ha)
    (fun a _ ha ht => ⟨a, ha, ht⟩) b hb

theorem pairwise {l : List α} {l' : List β} (h : Passage Leaves Turns l l') (R : α → α → Prop)
    (S : β → β → Prop) (hl : l.Pairwise R)
    (ht : ∀ a a' b b', a ∈ l → a' ∈ l → R a a' → Turns a b → Turns a' b' → S b b') :
    l'.Pairwise S := by
  induction h with
  | nil => exact .nil
  | leave a l l' _ _ ih =>
    rw [List.pairwise_cons] at hl
    exact ih hl.2 fun x x' y y' hx hx' =>
      ht x x' y y' (List.mem_cons_of_mem a hx) (List.mem_cons_of_mem a hx')
  | turn a b l l' h rest ih =>
    rw [List.pairwise_cons] at hl ⊢
    constructor
    · intro y hy
      obtain ⟨x, hx, hxy⟩ := rest.origin y hy
      exact ht a x b y (List.mem_cons_self ..) (List.mem_cons_of_mem a hx) (hl.1 x hx) h hxy
    · exact ih hl.2 fun x x' y y' hx hx' =>
        ht x x' y y' (List.mem_cons_of_mem a hx) (List.mem_cons_of_mem a hx')

theorem sum_le {l : List α} {l' : List β} (h : Passage Leaves Turns l l') (w : α → Nat)
    (v : β → Nat) (ht : ∀ a b, Turns a b → v b ≤ w a) : (l'.map v).sum ≤ (l.map w).sum := by
  induction h with
  | nil => exact le_rfl
  | leave a l l' _ _ ih =>
    simp only [List.map_cons, List.sum_cons]
    omega
  | turn a b l l' h _ ih =>
    have hab := ht a b h
    simp only [List.map_cons, List.sum_cons]
    omega

theorem countP_le {l : List α} {l' : List β} (h : Passage Leaves Turns l l') (p : α → Bool)
    (q : β → Bool) (ht : ∀ a b, Turns a b → q b = true → p a = true) :
    l'.countP q ≤ l.countP p := by
  induction h with
  | nil => exact le_rfl
  | leave a l l' _ _ ih =>
    rw [List.countP_cons]
    omega
  | turn a b l l' h _ ih =>
    rw [List.countP_cons, List.countP_cons]
    cases hq : q b with
    | false =>
      simp only [Bool.false_eq_true, if_false]
      omega
    | true =>
      rw [if_pos rfl, if_pos (ht a b h hq)]
      omega

theorem stays {l : List α} {l' : List β} (h : Passage Leaves Turns l l') (a : α) (ha : a ∈ l)
    (hstay : ¬ Leaves a) : ∃ b ∈ l', Turns a b := by
  induction h with
  | nil => cases ha
  | leave x l l' hx _ ih =>
    rcases List.mem_cons.mp ha with rfl | ha
    · exact absurd hx hstay
    · exact ih ha
  | turn x b l l' hx _ ih =>
    rcases List.mem_cons.mp ha with rfl | ha
    · exact ⟨b, List.mem_cons_self .., hx⟩
    · obtain ⟨y, hy, hay⟩ := ih ha
      exact ⟨y, List.mem_cons_of_mem b hy, hay⟩

theorem length_le {l : List α} {l' : List β} (h : Passage Leaves Turns l l') :
    l'.length ≤ l.length := by
  have hsum := h.sum_le (fun _ => 1) (fun _ => 1) fun _ _ _ => le_rfl
  simpa using hsum

end Passage
