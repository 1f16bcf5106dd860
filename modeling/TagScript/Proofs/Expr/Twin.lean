import TagScript.Proofs.Expr.Kinship
import TagScript.Proofs.Value.Built
import TagScript.Proofs.Value.Twin

/-!
# Expressions on twins

In two environments that bind names to twins, an expression comes to twins or fails in the same way.
-/

namespace TagScript

variable {α β : Type} {w v : Link} {s t : Store} {a b : Value}

/-- All names are bound to twins. -/
def Environment.Twin (w : Link) (env env' : Environment) : Prop :=
  ∀ name, Option.Rel (Value.Twin w) (env.get? name) (env'.get? name)

namespace Expr

/-- Two joined stores. -/
structure Scene where
  link : Link
  here : Store
  there : Store
  joins : link.Joins here there

/-- What a scene has on either side stays as it is. -/
instance : Preorder Scene where
  le g h := g.link ≤ h.link ∧ g.here.Keeps h.here ∧ g.there.Keeps h.there
  le_refl g := ⟨le_refl _, .refl _, .refl _⟩
  le_trans _ _ _ first second := ⟨le_trans first.1 second.1, first.2.1.trans second.2.1, first.2.2.trans second.2.2⟩

def Scene.sides : Sides Scene where
  here := Scene.here
  there := Scene.there
  kin g a b := a.Twin g.link b
  fails := Eq

lemma Scene.made {g : Scene} {Q : Link → α → β → Prop} {x : α × Store} {y : β × Store} (linked : Linked g.link Q x y)
    (keeps : g.here.Keeps x.2) (keeps' : g.there.Keeps y.2) : sides.Made g (fun h => Q h.link) x y := by
  obtain ⟨v, later, joins, related⟩ := linked
  exact ⟨⟨v, x.2, y.2, joins⟩, ⟨later, keeps, keeps'⟩, rfl, rfl, related⟩

lemma Kindred.of_eq {x y : Except Fault α} (same : x = y) : Kindred Eq Eq x y := by
  rw [same]
  exact .same fun _ _ => rfl

lemma twin_shape (twin : a.Twin w b) : Shape Eq a b := by
  cases twin with
  | num same => exact .num same.val
  | seq => exact .seq _ _
  | map => exact .map _ _
  | func => exact .func _ _ _ _
  | stamp => exact .stamp _ _ _
  | _ => exact .flat rfl

lemma Scene.fails_refl (fault : α → Fault) (a : α) : sides.fails (fault a) (fault a) := rfl

/-- Twins are akin in joined stores. -/
def Scene.kinship : Kinship Scene where
  toSides := sides
  later twin later := Value.Twin.later twin later.1
  str := .str
  bool := .bool
  ofFloat {g} := g.joins.ofFloat
  shape := twin_shape
  text {g} _ _ twin := Kindred.of_eq (g.joins.text_eq twin)
  truthy {g} _ _ := g.joins.truthy_eq
  equal {g} _ _ _ _ first second := Kindred.of_eq (g.joins.equal_eq first second)
  compare := Link.Joins.compareNumbers_eq
  items {g} _ _ twin := by
    cases twin with
    | seq linked => exact g.joins.items linked
  entries {g} _ _ twin := by
    cases twin with
    | map linked => exact g.joins.entries linked
  newSeq {g} _ _ items := made (g.joins.newSeq items) (.push _ _) (.push _ _)
  newMap {g} _ _ entries := made (g.joins.newMap entries) (.push _ _) (.push _ _)
  number {g} x := made (g.joins.number x) (.number _ x) (.number _ x)
  lex := fails_refl _
  undefined := fails_refl _
  type := fails_refl _
  converted _ := rfl
  domain _ := rfl
  tooLarge _ := rfl
  index _ _ := rfl

lemma Kindred.paired {g : Scene} {R : Scene → α → β → Prop} {Q : α × Store → β × Store → Prop}
    {x : Except Fault (α × Store)} {y : Except Fault (β × Store)} (kindred : Kindred Eq (Scene.sides.Made g R) x y)
    (related : ∀ h, g ≤ h → ∀ a b, R h a b → Q (a, h.here) (b, h.there)) : Paired Q x y := by
  refine kindred.imp fun x y made => ?_
  obtain ⟨a, _⟩ := x
  obtain ⟨b, _⟩ := y
  obtain ⟨h, later, rfl, rfl, made⟩ := made
  exact related h later a b made

variable {env env' : Environment} (joins : w.Joins s t) (bound : env.Twin w env')
include joins bound

lemma akin : Scene.kinship.Bound ⟨w, s, t, joins⟩ env env' :=
  bound

lemma evaluate_twin (text : String) : Paired (Linked w Value.Twin) (evaluate env s text) (evaluate env' t text) :=
  Kindred.paired ((akin joins bound).evaluate text) fun h later _ _ twin => ⟨h.link, later.1, h.joins, twin⟩

lemma evaluateList_twin (text : Option String) :
    Paired (Linked w Value.Twin) (evaluateList env s text) (evaluateList env' t text) :=
  Kindred.paired ((akin joins bound).evaluateList text) fun h later _ _ twin => ⟨h.link, later.1, h.joins, twin⟩

end Expr

end TagScript
