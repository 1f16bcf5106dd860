import TagScript.Proofs.Paired
import TagScript.Proofs.Script.Alike

/-!
# Two runs in step

Two runs on two machines are in step if from states that are related they come to states that are
related, and to results that are, or to the same fault. What is related grows: each step leads to a
later world.
-/

namespace TagScript.Script

variable {α β γ δ : Type} {World : Type} [Preorder World]

/-- Two results agree: both are there and related, or both runs failed with the same fault. -/
inductive Agrees (V : α → β → Prop) : Except Raised α → Except Raised β → Prop where
  | ok {a : α} {b : β} (related : V a b) : Agrees V (.ok a) (.ok b)
  | error {raised other : Raised} (same : raised.fault = other.fault) : Agrees V (.error raised) (.error other)

/-- Two runs have come to related states with results that agree, in a world from the given one on.
-/
def Meet (I : World → Machine → Machine → Prop) (V : World → α → β → Prop) (w : World)
    (x : Except Raised α × Machine) (y : Except Raised β × Machine) : Prop :=
  ∃ v, w ≤ v ∧ I v x.2 y.2 ∧ Agrees (V v) x.1 y.1

/-- From related machines two runs meet in related ones. -/
def InStep (I : World → Machine → Machine → Prop) (V : World → α → β → Prop) (w : World) (c : Run α)
    (d : Run β) : Prop :=
  ∀ m n, I w m n → Meet I V w (c m) (d n)

abbrev Whatever (_ : World) (_ : α) (_ : β) : Prop := True

abbrev Same (_ : World) (a b : α) : Prop := a = b

variable {I : World → Machine → Machine → Prop} {V : World → α → β → Prop} {U : World → γ → δ → Prop}
  {w v : World}

lemma Agrees.imp {P Q : α → β → Prop} {x : Except Raised α} {y : Except Raised β} (agrees : Agrees P x y)
    (implied : ∀ a b, P a b → Q a b) : Agrees Q x y := by
  cases agrees with
  | ok related => exact .ok (implied _ _ related)
  | error same => exact .error same

namespace Meet

variable {m n : Machine}

lemma ok {a : α} {b : β} (holds : I w m n) (related : V w a b) : Meet I V w (.ok a, m) (.ok b, n) :=
  ⟨w, le_refl w, holds, .ok related⟩

lemma error {raised other : Raised} (holds : I w m n) (same : raised.fault = other.fault) :
    Meet I V w (.error raised, m) (.error other, n) :=
  ⟨w, le_refl w, holds, .error same⟩

variable {x : Except Raised α × Machine} {y : Except Raised β × Machine}

lemma earlier (meet : Meet I V v x y) (later : w ≤ v) : Meet I V w x y := by
  obtain ⟨u, after, rest⟩ := meet
  exact ⟨u, le_trans later after, rest⟩

lemma imp {V' : World → α → β → Prop}
    (meet : Meet I V w x y) (implied : ∀ v a b, w ≤ v → V v a b → V' v a b) : Meet I V' w x y := by
  obtain ⟨v, later, holds, agrees⟩ := meet
  exact ⟨v, later, holds, agrees.imp (implied v · · later)⟩

lemma bind {c : Run α} {d : Run β} {k : α → Run γ} {l : β → Run δ}
    (first : Meet I V w (c m) (d n)) (after : ∀ v a b, w ≤ v → V v a b → InStep I U v (k a) (l b)) :
    Meet I U w ((c >>= k) m) ((d >>= l) n) := by
  obtain ⟨v, later, holds, agrees⟩ := first
  rw [run_bind, run_bind]
  rcases found : c m with ⟨result, m'⟩
  rcases met : d n with ⟨other, n'⟩
  rw [found, met] at holds agrees
  cases agrees with
  | error same => exact ⟨v, later, holds, .error same⟩
  | ok related => exact (after v _ _ later related m' n' holds).earlier later

lemma recover {c : Run α} {d : Run β} {handle : Raised → Run α} {handle' : Raised → Run β}
    (body : Meet I V w (c m) (d n))
    (handlers : ∀ v raised other, w ≤ v → raised.fault = other.fault → InStep I V v (handle raised) (handle' other)) :
    Meet I V w (recover c handle m) (recover d handle' n) := by
  obtain ⟨v, later, kept, agrees⟩ := body
  unfold Script.recover
  rcases found : c m with ⟨result, m'⟩
  rcases met : d n with ⟨other, n'⟩
  rw [found, met] at kept agrees
  cases agrees with
  | ok related => exact ⟨v, later, kept, .ok related⟩
  | error same => exact (handlers v _ _ later same m' n' kept).earlier later

lemma always {J : World → Machine → Machine → Prop} {c : Run α} {d : Run β} {after after' : Machine → Machine}
    (inside : Meet J V v (c m) (d n))
    (restores : ∀ u m' n', v ≤ u → J u m' n' → ∃ x, w ≤ x ∧ (∀ a b, V u a b → V x a b) ∧ I x (after m') (after' n')) :
    Meet I V w (always c after m) (always d after' n) := by
  obtain ⟨u, later, kept, agrees⟩ := inside
  obtain ⟨x, earlier, values, restored⟩ := restores u _ _ later kept
  exact ⟨x, earlier, restored, agrees.imp values⟩

end Meet

namespace InStep

lemma pure {a : α} {b : β} (related : V w a b) : InStep I V w (Pure.pure a) (Pure.pure b) :=
  fun _ _ holds => .ok holds related

lemma throw {raised other : Raised} (same : raised.fault = other.fault) :
    InStep I V w (throw raised : Run α) (throw other : Run β) :=
  fun _ _ holds => .error holds same

lemma raise (fault : Fault) : InStep I V w (raise fault : Run α) (raise fault : Run β) :=
  throw rfl

lemma settle {x : Except Fault α} {y : Except Fault β} (paired : Paired (V w) x y) :
    InStep I V w (settle x) (settle y) := by
  cases paired with
  | ok related => exact pure related
  | error same => exact same ▸ raise _

lemma settle_same (x : Except Fault α) : InStep I Same w (Script.settle x) (Script.settle x) :=
  settle (Paired.same x)

variable {c : Run α} {d : Run β}

lemma bind {k : α → Run γ} {l : β → Run δ} (first : InStep I V w c d)
    (after : ∀ v a b, w ≤ v → V v a b → InStep I U v (k a) (l b)) : InStep I U w (c >>= k) (d >>= l) :=
  fun m n holds => (first m n holds).bind after

lemma imp {V' : World → α → β → Prop} (step : InStep I V w c d)
    (implied : ∀ v a b, w ≤ v → V v a b → V' v a b) : InStep I V' w c d :=
  fun m n holds => (step m n holds).imp implied

lemma any (step : InStep I V w c d) : InStep I Whatever w c d :=
  step.imp fun _ _ _ _ _ => trivial

lemma ask {k : Machine → Run α} {l : Machine → Run β}
    (after : ∀ m n, I w m n → Meet I V w (k m m) (l n n)) : InStep I V w (get >>= k) (get >>= l) :=
  after

lemma change {f g : Machine → Machine} (keeps : ∀ m n, I w m n → ∃ v, w ≤ v ∧ I v (f m) (g n)) :
    InStep I Whatever w (modify f : Run PUnit) (modify g : Run PUnit) := by
  intro m n holds
  obtain ⟨v, later, kept⟩ := keeps m n holds
  exact ⟨v, later, kept, .ok trivial⟩

lemma changeGet {f : Machine → α × Machine} {g : Machine → β × Machine}
    (keeps : ∀ m n, I w m n → ∃ v, w ≤ v ∧ I v (f m).2 (g n).2 ∧ V v (f m).1 (g n).1) :
    InStep I V w (modifyGet f : Run α) (modifyGet g : Run β) := by
  intro m n holds
  obtain ⟨v, later, kept, related⟩ := keeps m n holds
  exact ⟨v, later, kept, .ok related⟩

lemma recover {handle : Raised → Run α} {handle' : Raised → Run β} (body : InStep I V w c d)
    (handlers : ∀ v raised other, w ≤ v → raised.fault = other.fault → InStep I V v (handle raised) (handle' other)) :
    InStep I V w (recover c handle) (recover d handle') :=
  fun m n holds => (body m n holds).recover handlers

lemma forM {R : α → β → Prop} {c : α → Run PUnit} {d : β → Run PUnit} {xs : List α} {ys : List β}
    (items : List.Forall₂ R xs ys) (each : ∀ v a b, w ≤ v → R a b → InStep I Whatever v (c a) (d b)) :
    InStep I Whatever w (xs.forM c) (ys.forM d) := by
  induction items generalizing w with
  | nil => exact pure trivial
  | cons first _ ih =>
    refine (each w _ _ (le_refl w) first).bind fun v _ _ later _ => ?_
    exact ih fun u a b after => each u a b (le_trans later after)

lemma option_forM {c : α → Run PUnit} {item : Option α}
    (each : ∀ a, item = some a → InStep I Whatever w (c a) (c a)) :
    InStep I Whatever w (item.forM c) (item.forM c) := by
  cases item with
  | none => exact pure trivial
  | some a => exact each a rfl

lemma required (node : Markup.Node) (name : String) :
    InStep I (fun _ a c => a = c ∧ node.attr? name = some a) w (required node name) (required node name) := by
  unfold Script.required
  split
  · exact raise _
  · rename_i value found
    split
    · exact raise _
    · exact pure ⟨rfl, found⟩

end InStep

end TagScript.Script
