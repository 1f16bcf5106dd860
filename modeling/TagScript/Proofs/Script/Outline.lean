import TagScript.Proofs.Markup.Regime
import TagScript.Proofs.Script.Quiet

/-!
# The outline of a machine

What an element finds as it was when it is done. The steps that elements are made of keep all of
this.
-/

namespace TagScript.Script

open Markup

def At (p : String → Assoc String → Prop) (o : Outline) (m : Machine) : Prop :=
  m.outline = o ∧ m.forest.Labelled p

/-- A run keeps the outline. -/
def Steady {α : Type} (p : String → Assoc String → Prop) (o : Outline) (c : Run α) : Prop :=
  Alike (At p o) Any c c

section

variable {p : String → Assoc String → Prop} {o : Outline} {α : Type}

lemma At.keep {m m' : Machine} (holds : At p o m) (outline : m'.outline = m.outline)
    (forest : m.forest.Labelled p → m'.forest.Labelled p) : At p o m' :=
  ⟨outline.trans holds.1, forest holds.2⟩

lemma Calm.steady {c : Run α} (calm : Calm c) : Steady p o c := by
  intro m holds
  have forest := congrArg (fun result => result.2.forest) (calm.fitted m m.fittings)
  refine ⟨rfl, holds.keep (congrArg Prod.snd (calm.kept m)) fun labelled => ?_, fun _ _ => trivial⟩
  exact forest.symm ▸ labelled

lemma Steady.change {f : Machine → Machine} (outline : ∀ m, (f m).outline = m.outline)
    (forest : ∀ m, (f m).forest = m.forest) : Steady p o (modify f : Run PUnit) :=
  Alike.change fun m holds => holds.keep (outline m) fun labelled => (forest m).symm ▸ labelled

lemma Steady.changeGet {f : Machine → α × Machine} (outline : ∀ m, (f m).2.outline = m.outline)
    (forest : ∀ m, (f m).2.forest = m.forest) : Steady p o (modifyGet f : Run α) :=
  Alike.changeGet fun m holds => holds.keep (outline m) fun labelled => (forest m).symm ▸ labelled

lemma Steady.changeForest {f : Forest → Forest}
    (labels : ∀ g : Forest, g.Keeps (.labels p) → g.Follows (.labels p) (f g)) :
    Steady p o (changeForest f) :=
  Alike.change fun _ holds => holds.keep rfl fun labelled => (labels _ labelled.keeps).keeps.fits

lemma Steady.askForest (f : Forest → α) : Steady p o (askForest f) :=
  Alike.read.bind fun _ _ => Alike.pure trivial

lemma AlikeAt.nodeOf_bind {m : Machine} {I : Machine → Prop} {Q : α → Prop} {id : NodeId}
    {k l : Node → Run α} (rest : AlikeAt m I Q (k (m.forest.node id)) (l (m.forest.node id))) :
    AlikeAt m I Q (Script.nodeOf id >>= k) (Script.nodeOf id >>= l) :=
  rest

lemma nodeOf_alike (id : NodeId) :
    Alike (At p o) (fun n => p n.tag n.attrs) (nodeOf id) (nodeOf id) :=
  Alike.read.bind fun _ holds => Alike.pure (holds.2 id)

lemma Steady.nodeOf (id : NodeId) : Steady p o (nodeOf id) :=
  (nodeOf_alike id).any

lemma Steady.cloneTree (id : NodeId) : Steady p o (cloneTree id) :=
  Alike.changeGet fun m holds => holds.keep rfl fun labelled =>
    (labelled.keeps.cloneBelow (fun _ _ => trivial) (fun fits _ => fits) m.forest.bound (fun _ _ => trivial)
      trivial).1.keeps.fits

lemma Steady.newMapping (entries : Assoc Value) : Steady p o (newMapping entries) :=
  Steady.changeGet (fun _ => rfl) fun _ => rfl

lemma Steady.emit (topic : Topic) (message : String) : Steady p o (emit topic message) :=
  Steady.change (fun _ => rfl) fun _ => rfl

/-! ## Elements about variables -/

lemma Steady.removeNode (id : NodeId) : Steady p o (removeNode id) :=
  Steady.changeForest fun _ keeps => keeps.remove trivial

lemma Steady.runStore (id : NodeId) : Steady p o (runStore id) := by
  refine (Steady.nodeOf id).bind fun node _ => ?_
  exact (Calm.storeVariable node).steady.bind fun _ _ => Steady.removeNode id

lemma Steady.runMan (id : NodeId) : Steady p o (runMan id) := by
  refine (Steady.nodeOf id).bind fun node _ => ?_
  exact (Calm.changeVariable node).steady.bind fun _ _ => Steady.removeNode id

/-! ## Elements about functions -/

lemma Steady.defineFunction (name : String) (f : Function) : Steady p o (defineFunction name f) :=
  Steady.change (fun _ => rfl) fun _ => rfl

lemma Steady.runFunction (id : NodeId) : Steady p o (runFunction id) := by
  refine (Steady.nodeOf id).bind fun node _ => ?_
  refine (Calm.required _ _).steady.bind fun name _ => ?_
  refine (Steady.cloneTree _).bind fun body _ => ?_
  refine Calm.takeSnapshot.steady.bind fun closure _ => ?_
  exact (Steady.defineFunction _ _).bind fun _ _ => Steady.removeNode id

lemma Steady.functionNamed (name : String) : Steady p o (functionNamed name) := by
  refine Alike.read.bind fun m _ => ?_
  split
  · exact Alike.raise _
  · exact Alike.pure trivial

end

end TagScript.Script
