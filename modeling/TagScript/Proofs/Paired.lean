import Mathlib.Data.List.Forall2

/-!
# Computations that go side by side
-/

namespace TagScript

variable {ε ε' α β γ δ : Type}

/-- Both computations give results that are related, or both fail with faults that are. -/
inductive Kindred (E : ε → ε' → Prop) (Q : α → β → Prop) : Except ε α → Except ε' β → Prop where
  | ok {a : α} {b : β} (related : Q a b) : Kindred E Q (.ok a) (.ok b)
  | error {f : ε} {g : ε'} (related : E f g) : Kindred E Q (.error f) (.error g)

namespace Kindred

variable {E : ε → ε' → Prop} {Q : α → β → Prop} {R : γ → δ → Prop} {x : Except ε α} {y : Except ε' β}

lemma bind {k : α → Except ε γ} {l : β → Except ε' δ} (kindred : Kindred E Q x y)
    (after : ∀ a b, Q a b → Kindred E R (k a) (l b)) : Kindred E R (x >>= k) (y >>= l) := by
  cases kindred with
  | ok related => exact after _ _ related
  | error related => exact .error related

lemma map {f : α → γ} {g : β → δ} (kindred : Kindred E Q x y) (after : ∀ a b, Q a b → R (f a) (g b)) :
    Kindred E R (x.map f) (y.map g) := by
  cases kindred with
  | ok related => exact .ok (after _ _ related)
  | error related => exact .error related

lemma mapM {k : α → Except ε γ} {l : β → Except ε' δ} {xs : List α} {ys : List β} (items : List.Forall₂ Q xs ys)
    (each : ∀ a b, Q a b → Kindred E R (k a) (l b)) : Kindred E (List.Forall₂ R) (xs.mapM k) (ys.mapM l) := by
  induction items with
  | nil => exact .ok .nil
  | cons first _ ih =>
    rw [List.mapM_cons, List.mapM_cons]
    refine (each _ _ first).bind fun a b head => ?_
    exact ih.bind fun as bs rest => .ok (.cons head rest)

lemma imp {R : α → β → Prop} (kindred : Kindred E Q x y) (implied : ∀ a b, Q a b → R a b) : Kindred E R x y := by
  cases kindred with
  | ok related => exact .ok (implied _ _ related)
  | error related => exact .error related

lemma same {E : ε → ε → Prop} {x : Except ε α} (fails : ∀ fault, x = .error fault → E fault fault) : Kindred E Eq x x := by
  cases x with
  | ok a => exact .ok rfl
  | error fault => exact .error (fails fault rfl)

lemma eq {x y : Except ε α} (kindred : Kindred Eq Eq x y) : x = y := by
  cases kindred with
  | ok same | error same => rw [same]

end Kindred

/-- Both computations give results that are related, or both fail in the same way. -/
abbrev Paired (Q : α → β → Prop) : Except ε α → Except ε β → Prop := Kindred Eq Q

namespace Paired

lemma self {P : α → Prop} {x : Except ε α} (known : ∀ a, x = .ok a → P a) : Paired (fun a b => a = b ∧ P a) x x := by
  cases x with
  | error fault => exact .error rfl
  | ok a => exact .ok ⟨rfl, known a rfl⟩

lemma same (x : Except ε α) : Paired Eq x x :=
  Kindred.same fun _ _ => rfl

end Paired

end TagScript
