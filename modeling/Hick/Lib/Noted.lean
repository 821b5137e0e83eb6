import Mathlib

/-!
# Values with the notes made on the way to them

A call makes notes, and each note moves a register.
-/

namespace Noted

structure Register (σ ν : Type) where
  note : σ → ν → σ
  fits : σ → ν → Prop

section
variable {σ ν α β : Type}

def andThen (x : α × List ν) (f : α → β × List ν) : β × List ν := ((f x.1).1, x.2 ++ (f x.1).2)

def each (f : α → β → α × List ν) : List β → α → α × List ν
  | [], a => (a, [])
  | b :: rest, a => andThen (f a b) (each f rest)

theorem each_fst (f : α → β → α × List ν) (bs : List β) (a : α) :
    (each f bs a).1 = bs.foldl (fun a b => (f a b).1) a := by
  induction bs generalizing a with
  | nil => rfl
  | cons b rest ih => exact ih (f a b).1

namespace Register
variable (r : Register σ ν)

def after (s : σ) (notes : List ν) : σ := notes.foldl r.note s

def Fits : σ → List ν → Prop
  | _, [] => True
  | s, n :: rest => r.fits s n ∧ Fits (r.note s n) rest

theorem after_append (s : σ) (notes more : List ν) :
    r.after s (notes ++ more) = r.after (r.after s notes) more := by
  simp only [after, List.foldl_append]

theorem fits_append (s : σ) (notes more : List ν) :
    r.Fits s (notes ++ more) ↔ r.Fits s notes ∧ r.Fits (r.after s notes) more := by
  induction notes generalizing s with
  | nil => simp only [List.nil_append, Fits, after, List.foldl_nil, true_and]
  | cons n rest ih =>
    simp only [List.cons_append, Fits, after, List.foldl_cons, and_assoc]
    exact and_congr_right fun _ => ih (r.note s n)

/-- A register that counts as another does, as long as the other one is small. -/
theorem fits_map {τ : Type} (r' : Register τ ν) (f : σ → τ) (Inv Small : σ → Prop)
    (hkeep : ∀ s n, Inv s → r.fits s n → Inv (r.note s n))
    (hback : ∀ s n, Small (r.note s n) → Small s)
    (hnote : ∀ s n, r.fits s n → r'.note (f s) n = f (r.note s n))
    (hfits : ∀ s n, Inv s → Small s → r.fits s n → r'.fits (f s) n) (notes : List ν) (s : σ)
    (hinv : Inv s) (h : r.Fits s notes) :
    r'.after (f s) notes = f (r.after s notes) ∧
      (Small (r.after s notes) → Small s ∧ r'.Fits (f s) notes) := by
  induction notes generalizing s with
  | nil => exact ⟨rfl, fun hsmall => ⟨hsmall, trivial⟩⟩
  | cons n rest ih =>
    obtain ⟨hafter, hsmall⟩ := ih (r.note s n) (hkeep s n hinv h.1) h.2
    rw [← hnote s n h.1] at hafter hsmall
    refine ⟨hafter, fun hlast => ?_⟩
    obtain ⟨hnext, hrest⟩ := hsmall hlast
    exact ⟨hback s n hnext, hfits s n hinv (hback s n hnext) h.1, hrest⟩

/-- Every note fits where it is made, and the register is left as `Inv` has it. -/
def Leads (Inv : σ → α → Prop) (s : σ) (x : α × List ν) : Prop :=
  r.Fits s x.2 ∧ Inv (r.after s x.2) x.1

theorem leads_nil (Inv : σ → α → Prop) (s : σ) (a : α) (h : Inv s a) : r.Leads Inv s (a, []) :=
  ⟨trivial, h⟩

theorem leads_andThen (Inv : σ → α → Prop) (Post : σ → β → Prop) (s : σ) (x : α × List ν)
    (f : α → β × List ν) (hx : r.Leads Inv s x)
    (hf : ∀ s a, Inv s a → r.Leads Post s (f a)) : r.Leads Post s (andThen x f) := by
  obtain ⟨hfits, hinv⟩ := hx
  obtain ⟨hfits', hinv'⟩ := hf _ _ hinv
  constructor
  · exact (r.fits_append s _ _).mpr ⟨hfits, hfits'⟩
  · rw [andThen, r.after_append]
    exact hinv'

theorem leads_each (Inv : σ → α → Prop) (f : α → β → α × List ν)
    (hf : ∀ s a b, Inv s a → r.Leads Inv s (f a b)) (bs : List β) (s : σ) (a : α)
    (h : Inv s a) : r.Leads Inv s (each f bs a) := by
  induction bs generalizing s a with
  | nil => exact r.leads_nil Inv s a h
  | cons b rest ih => exact r.leads_andThen Inv Inv s _ _ (hf s a b h) ih

end Register
end
end Noted
