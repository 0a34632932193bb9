import Mathlib.Data.List.Forall2

namespace SocialPayload.Pointwise

variable {α β γ : Type} {R : α → β → Prop}

theorem head? {as : List α} {bs : List β} (h : List.Forall₂ R as bs) :
    Option.Rel R as.head? bs.head? := by
  cases h with
  | nil => exact .none
  | cons hab _ => exact .some hab

/-- Where a test gives the same answer on related members, what it finds first is related. -/
theorem find? {as : List α} {bs : List β} {p : α → Bool} {q : β → Bool} (h : List.Forall₂ R as bs)
    (hpq : ∀ a b, R a b → p a = q b) : Option.Rel R (as.find? p) (bs.find? q) := by
  rw [← List.head?_filter, ← List.head?_filter]
  apply head? (List.rel_filter ?_ h)
  intro a b hab
  change p a = true ↔ q b = true
  rw [hpq a b hab]

theorem forall_right {as : List α} {bs : List β} {q : β → Prop} (h : List.Forall₂ R as bs)
    (hq : ∀ a ∈ as, ∀ b, R a b → q b) : ∀ b ∈ bs, q b := by
  induction h with
  | nil => simp
  | cons hab _ ih =>
    intro b hb
    rcases List.mem_cons.mp hb with rfl | hb
    · exact hq _ List.mem_cons_self _ hab
    · exact ih (fun a ha => hq a (List.mem_cons_of_mem _ ha)) b hb

theorem map_eq {as : List α} {bs : List β} {f : α → γ} {g : β → γ} (h : List.Forall₂ R as bs)
    (hfg : ∀ a b, R a b → f a = g b) : as.map f = bs.map g := by
  induction h with
  | nil => rfl
  | cons hab _ ih => rw [List.map_cons, List.map_cons, hfg _ _ hab, ih]

theorem mapM_eq {ε : Type} {as : List α} {bs : List β} {f : α → Except ε γ} {g : β → Except ε γ}
    (h : List.Forall₂ R as bs) (hfg : ∀ a b, R a b → f a = g b) : as.mapM f = bs.mapM g := by
  induction h with
  | nil => rfl
  | cons hab _ ih => rw [List.mapM_cons, List.mapM_cons, hfg _ _ hab, ih]

theorem mapM_ok {ε : Type} {as : List α} {bs : List β} {g : β → Except ε α}
    (h : List.Forall₂ R as bs) (hg : ∀ a b, R a b → g b = .ok a) : bs.mapM g = .ok as := by
  rw [← mapM_eq (f := fun a => .ok a) h fun a b hab => (hg a b hab).symm]
  exact List.mapM_pure.trans (by simp [pure, Except.pure])

theorem foldl_eq {as : List α} {bs : List β} {f : γ → α → γ} {g : γ → β → γ}
    (h : List.Forall₂ R as bs) (hfg : ∀ c a b, R a b → f c a = g c b) (c : γ) :
    as.foldl f c = bs.foldl g c := by
  induction h generalizing c with
  | nil => rfl
  | cons hab _ ih => rw [List.foldl_cons, List.foldl_cons, hfg _ _ _ hab, ih]

theorem option_map_eq {a : Option α} {b : Option β} {f : α → γ} {g : β → γ} (h : Option.Rel R a b)
    (hfg : ∀ a b, R a b → f a = g b) : a.map f = b.map g := by
  cases h with
  | none => rfl
  | some hab => exact congrArg some (hfg _ _ hab)

end SocialPayload.Pointwise
