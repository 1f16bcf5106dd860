import Mathlib.Order.Basic
import TagScript.Script.Run

/-!
# Runs that do the same

Two runs are alike under an invariant if from every state in which it holds they give the same
result and end in the same state, in which it holds again. The rules below take runs apart along the
steps they are made of.
-/

namespace TagScript.Script

variable {α β : Type}

/-- From a given state both runs do the same, the invariant holds afterwards, and a result has the
stated property. -/
def AlikeAt (m : Machine) (I : Machine → Prop) (Q : α → Prop) (c d : Run α) : Prop :=
  c m = d m ∧ I (c m).2 ∧ ∀ a, (c m).1 = .ok a → Q a

/-- Both runs do the same wherever the invariant holds. -/
def Alike (I : Machine → Prop) (Q : α → Prop) (c d : Run α) : Prop :=
  ∀ m, I m → AlikeAt m I Q c d

abbrev Any (_ : α) : Prop := True

variable {I J : Machine → Prop} {Q : α → Prop} {R : β → Prop}

lemma run_bind (c : Run α) (k : α → Run β) (m : Machine) :
    (c >>= k) m = match c m with
      | (.ok a, after) => k a after
      | (.error raised, after) => (.error raised, after) := by
  simp only [ExceptT.bind, ExceptT.mk, bind, StateT.bind]
  rcases found : c m with ⟨result, after⟩
  cases result <;> rfl

lemma failed_of_bind {c : Run α} {k : α → Run β} {m after : Machine} {raised : Raised}
    (failed : (c >>= k) m = (.error raised, after)) :
    c m = (.error raised, after) ∨ ∃ a m', c m = (.ok a, m') ∧ k a m' = (.error raised, after) := by
  rw [run_bind] at failed
  rcases found : c m with ⟨fault | a, m'⟩ <;> rw [found] at failed
  · cases failed
    exact .inl rfl
  · exact .inr ⟨a, m', rfl, failed⟩

lemma ok_of_bind {c : Run α} {k : α → Run β} {m after : Machine} {b : β} (ended : (c >>= k) m = (.ok b, after)) :
    ∃ a m', c m = (.ok a, m') ∧ k a m' = (.ok b, after) := by
  rw [run_bind] at ended
  rcases found : c m with ⟨fault | a, m'⟩ <;> rw [found] at ended
  · cases ended
  · exact ⟨a, m', rfl, ended⟩

lemma run_get_bind (k : Machine → Run β) (m : Machine) : (get >>= k) m = k m m := rfl

lemma run_set_bind (n : Machine) (k : PUnit → Run β) (m : Machine) : (set n >>= k) m = k ⟨⟩ n := rfl

lemma run_modify_bind (f : Machine → Machine) (k : PUnit → Run β) (m : Machine) : (modify f >>= k) m = k ⟨⟩ (f m) := rfl

lemma run_modifyGet_bind (f : Machine → α × Machine) (k : α → Run β) (m : Machine) :
    (modifyGet f >>= k) m = k (f m).1 (f m).2 := rfl

lemma run_askForest_bind (f : Markup.Forest → α) (k : α → Run β) (m : Machine) :
    (askForest f >>= k) m = k (f m.forest) m := rfl

lemma run_nodeOf_bind (id : Markup.NodeId) (k : Markup.Node → Run β) (m : Machine) :
    (nodeOf id >>= k) m = k (m.forest.node id) m := rfl

lemma run_pure_bind (a : α) (k : α → Run β) (m : Machine) : (pure a >>= k) m = k a m := rfl

/-- A new scope is put on top. -/
abbrev Machine.opened (m : Machine) : Machine := m.mapEnv fun env => (env.push []).2

abbrev Machine.shut (m : Machine) : Machine := m.mapEnv fun env => env.pop?.elim env Prod.snd

lemma inScope_apply (body : Run α) (m : Machine) :
    inScope body m =
      match always body Machine.shut m.opened with
      | (.ok a, after) => (.ok (a, m.session.env.scopes.size), after)
      | (.error raised, after) => (.error raised, after) := by
  unfold inScope
  rw [run_get_bind, run_modify_bind, run_bind]
  rcases always body _ _ with ⟨result, after⟩
  cases result <;> rfl

lemma Alike.pure {a : α} (known : Q a) : Alike I Q (Pure.pure a) (Pure.pure a) := by
  intro m holds
  refine ⟨rfl, holds, ?_⟩
  intro b same
  cases same
  exact known

variable {c d : Run α} {m : Machine}

lemma AlikeAt.bind {k l : α → Run β} (first : AlikeAt m I Q c d)
    (after : ∀ a, Q a → Alike I R (k a) (l a)) : AlikeAt m I R (c >>= k) (d >>= l) := by
  obtain ⟨same, kept, known⟩ := first
  unfold AlikeAt
  rw [run_bind, run_bind, ← same]
  rcases found : c m with ⟨result, m'⟩
  rw [found] at kept known
  cases result with
  | error raised =>
    refine ⟨rfl, kept, ?_⟩
    intro b never
    cases never
  | ok a => exact after a (known a rfl) m' kept

lemma Alike.bind {k l : α → Run β} (first : Alike I Q c d)
    (after : ∀ a, Q a → Alike I R (k a) (l a)) : Alike I R (c >>= k) (d >>= l) :=
  fun m holds => (first m holds).bind after

lemma Alike.weaken {Q' : α → Prop} (alike : Alike I Q c d) (implied : ∀ a, Q a → Q' a) : Alike I Q' c d := by
  intro m holds
  obtain ⟨same, kept, known⟩ := alike m holds
  exact ⟨same, kept, fun a found => implied a (known a found)⟩

lemma Alike.any (alike : Alike I Q c d) : Alike I Any c d :=
  alike.weaken fun _ _ => trivial

lemma Alike.throw (raised : Raised) : Alike I Q (throw raised : Run α) (throw raised) := by
  intro m holds
  refine ⟨rfl, holds, ?_⟩
  intro a never
  cases never

lemma Alike.raise (fault : Fault) : Alike I Q (raise fault) (raise fault) :=
  Alike.throw _

lemma Alike.settle {result : Except Fault α} (known : ∀ a, result = .ok a → Q a) :
    Alike I Q (settle result) (settle result) := by
  cases result with
  | ok a => exact Alike.pure (known a rfl)
  | error fault => exact Alike.raise fault

lemma Alike.read : Alike I I (get : Run Machine) get := by
  intro m holds
  refine ⟨rfl, holds, ?_⟩
  intro found same
  cases same
  exact holds

lemma Alike.change {f : Machine → Machine} (keeps : ∀ m, I m → I (f m)) :
    Alike I Any (modify f : Run PUnit) (modify f) := by
  intro m holds
  exact ⟨rfl, keeps m holds, fun _ _ => trivial⟩

lemma Alike.changeGet {f : Machine → α × Machine} (keeps : ∀ m, I m → I (f m).2) :
    Alike I Any (modifyGet f : Run α) (modifyGet f) := by
  intro m holds
  exact ⟨rfl, keeps m holds, fun _ _ => trivial⟩

variable {handle handle' : Raised → Run α}

lemma AlikeAt.recover (body : AlikeAt m I Q c d) (handlers : ∀ raised, Alike I Q (handle raised) (handle' raised)) :
    AlikeAt m I Q (recover c handle) (recover d handle') := by
  obtain ⟨same, kept, known⟩ := body
  unfold AlikeAt
  simp only [Script.recover, ← same]
  rcases found : c m with ⟨result, m'⟩
  rw [found] at kept known
  cases result with
  | ok a => exact ⟨rfl, kept, known⟩
  | error raised => exact handlers raised m' kept

lemma Alike.recover (body : Alike I Q c d) (handlers : ∀ raised, Alike I Q (handle raised) (handle' raised)) :
    Alike I Q (recover c handle) (recover d handle') :=
  fun m holds => (body m holds).recover handlers

/-- What runs in another state and puts it back: the invariant inside may be another one. -/
lemma AlikeAt.always {after : Machine → Machine} (body : AlikeAt m J Q c d) (restores : ∀ m, J m → I (after m)) :
    AlikeAt m I Q (always c after) (always d after) := by
  obtain ⟨same, kept, known⟩ := body
  refine ⟨?_, restores _ kept, known⟩
  simp only [Script.always, same]

lemma AlikeAt.change_bind {f : Machine → Machine} {k l : PUnit → Run β}
    (after : AlikeAt (f m) I R (k ⟨⟩) (l ⟨⟩)) : AlikeAt m I R (modify f >>= k) (modify f >>= l) :=
  after

lemma Alike.bracket {before after : Machine → Machine} (body : Alike J Q c d)
    (enters : ∀ m, I m → J (before m)) (restores : ∀ m, J m → I (after m)) :
    Alike I Q (modify before >>= fun _ => always c after)
      (modify before >>= fun _ => always d after) :=
  fun m holds => (body (before m) (enters m holds)).always restores

lemma Alike.forM {c d : α → Run PUnit} {items : List α}
    (each : ∀ a ∈ items, Alike I Any (c a) (d a)) : Alike I Any (items.forM c) (items.forM d) := by
  induction items with
  | nil => exact Alike.pure trivial
  | cons item rest ih =>
    refine (each item List.mem_cons_self).bind fun _ _ => ?_
    exact ih fun a mem => each a (List.mem_cons_of_mem _ mem)

lemma Alike.option_forM {c d : α → Run PUnit} {item : Option α}
    (each : ∀ a, item = some a → Alike I Any (c a) (d a)) : Alike I Any (item.forM c) (item.forM d) := by
  cases item with
  | none => exact Alike.pure trivial
  | some a => exact each a rfl

end TagScript.Script
