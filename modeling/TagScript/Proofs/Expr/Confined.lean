import TagScript.Proofs.Expr.Kinship

/-!
# Evaluation within a region

If what is bound is of a kind that containers and new values keep to, so is the value of every
expression, in particular for the values of a region of the store.
-/

namespace TagScript.Expr

open List

open Store (Region Discipline)

variable {s t : Store} {α : Type} {D : Store → Prop} {W : Store → Value → Prop}
  {E : Fault → Prop} {Q : Store → α → Prop}

/-- A result has the stated property, and comes with a store of the kind that is no smaller; a fault
is one of those that may be. -/
def Tended (D : Store → Prop) (E : Fault → Prop) (s : Store) (Q : Store → α → Prop) : Except Fault (α × Store) → Prop
  | .ok (a, t) => D t ∧ s.cells.size ≤ t.cells.size ∧ Q t a
  | .error fault => E fault

/-- A discipline, with the faults that may come of it. -/
structure Upkeep (D : Store → Prop) (W : Store → Value → Prop) (E : Fault → Prop) : Prop extends Discipline D W where
  lex : ∀ cause, E (.lex cause)
  undefined : ∀ path, E (.undefined path)
  type : ∀ cause, E (.type cause)
  converted : ∀ {tokens fault}, toPostfix tokens = .error fault → E fault
  domain : ∀ {a}, (!Binary64.isFinite a) = true → E .domain
  tooLarge : ∀ {i}, Binary64.ofInt? i = none → E .tooLarge
  index : ∀ {segment message}, Text.allDigits segment = true → Reading.int segment = .error message → E (.value message)
  text : ∀ {s v fault}, D s → W s v → s.text v = .error fault → E fault
  equal : ∀ {s a b fault}, D s → W s a → W s b → s.equal a b = .error fault → E fault

lemma upkeep (tends : Discipline D W) : Upkeep D W fun _ => True :=
  { tends with
    lex := fun _ => trivial
    undefined := fun _ => trivial
    type := fun _ => trivial
    converted := fun _ => trivial
    domain := fun _ => trivial
    tooLarge := fun _ => trivial
    index := fun _ _ => trivial
    text := fun _ _ _ => trivial
    equal := fun _ _ _ _ => trivial }

lemma Tended.made {x : Except Fault (α × Store)} {a : α} (tended : Tended D E s Q x) (found : x = .ok (a, t)) :
    D t ∧ s.cells.size ≤ t.cells.size ∧ Q t a := by
  rw [found] at tended
  exact tended

/-! ## One side -/

/-- A store of the kind; the later ones are no smaller. -/
structure Stage (D : Store → Prop) where
  store : Store
  kind : D store

instance : Preorder (Stage D) := Preorder.lift fun g => g.store.cells.size

def Stage.sides (D : Store → Prop) (W : Store → Value → Prop) (E : Fault → Prop) : Sides (Stage D) where
  here := Stage.store
  there := Stage.store
  kin g a b := W g.store a ∧ a = b
  fails f g := E f ∧ f = g

lemma Stage.made {g : Stage D} {x : Value × Store} (kept : D x.2 ∧ W x.2 x.1)
    (grows : g.store.cells.size ≤ x.2.cells.size) : (sides D W E).Made g (sides D W E).kin x x :=
  ⟨⟨x.2, kept.1⟩, grows, rfl, rfl, kept.2, rfl⟩

/-- Evaluation on both sides at once, with the same values that are as they have to be. -/
def Upkeep.kinship (tends : Upkeep D W E) : Kinship (Stage D) where
  toSides := Stage.sides D W E
  later akin grows := ⟨tends.later grows akin.1, akin.2⟩
  str _ := ⟨tends.leaf rfl, rfl⟩
  bool _ := ⟨tends.leaf rfl, rfl⟩
  ofFloat _ := ⟨tends.leaf rfl, rfl⟩
  shape := by
    rintro g a _ ⟨_, rfl⟩
    exact .refl Eq a
  text := by
    rintro g a _ ⟨held, rfl⟩
    exact .same fun fault failed => ⟨tends.text g.kind held failed, rfl⟩
  truthy := by
    rintro g a _ ⟨_, rfl⟩
    rfl
  equal := by
    rintro g a _ c _ ⟨left, rfl⟩ ⟨right, rfl⟩
    exact .same fun fault failed => ⟨tends.equal g.kind left right failed, rfl⟩
  compare := by
    rintro g a _ c _ ⟨_, rfl⟩ ⟨_, rfl⟩
    rfl
  items := by
    rintro g r _ ⟨held, ⟨⟩⟩
    exact List.forall₂_same.mpr fun v mem => ⟨tends.items g.kind held v mem, rfl⟩
  entries := by
    rintro g r _ ⟨held, ⟨⟩⟩
    exact List.forall₂_same.mpr fun entry mem => ⟨rfl, tends.entries g.kind held entry mem, rfl⟩
  newSeq := by
    intro g xs ys items
    obtain ⟨held, same⟩ := forall₂_and_left .. |>.mp items
    cases forall₂_eq_eq_eq ▸ same
    exact Stage.made (tends.newSeq g.kind held) (Store.size_newSeq _ _)
  newMap := by
    intro g xs ys entries
    have pairs := entries.imp fun _ _ entry => And.intro entry.2.1 (Prod.ext entry.1 entry.2.2)
    obtain ⟨held, same⟩ := forall₂_and_left .. |>.mp pairs
    cases forall₂_eq_eq_eq ▸ same
    exact Stage.made (tends.newMap g.kind held) (Store.size_newMap _ _)
  number {g} x := Stage.made ⟨tends.number x g.kind, tends.leaf (Store.ref?_number _ x)⟩ (Store.size_number _ x)
  lex cause := ⟨tends.lex cause, rfl⟩
  undefined path := ⟨tends.undefined path, rfl⟩
  type cause := ⟨tends.type cause, rfl⟩
  converted failed := ⟨tends.converted failed, rfl⟩
  domain infinite := ⟨tends.domain infinite, rfl⟩
  tooLarge large := ⟨tends.tooLarge large, rfl⟩
  index digits failed := ⟨tends.index digits failed, rfl⟩

lemma Kindred.tended {g : Stage D} {x : Except Fault (Value × Store)}
    (kindred : Kindred (Stage.sides D W E).fails ((Stage.sides D W E).Made g (Stage.sides D W E).kin) x x) :
    Tended D E g.store W x := by
  cases x with
  | error fault =>
    cases kindred with
    | error related => exact related.1
  | ok made =>
    obtain ⟨v, t⟩ := made
    cases kindred with
    | ok related =>
      obtain ⟨h, grows, rfl, _, held, _⟩ := related
      exact ⟨h.kind, grows, held⟩

section

variable {env : Environment}

section

variable (tends : Upkeep D W E) (bound : ∀ name v, env.get? name = some v → W s v) (kind : D s)
include tends bound kind

lemma Upkeep.akin : tends.kinship.Bound ⟨s, kind⟩ env env := by
  intro name
  cases found : env.get? name with
  | none => exact .none
  | some v => exact .some ⟨bound name v found, rfl⟩

lemma tended_evaluate (text : String) : Tended D E s W (evaluate env s text) :=
  Kindred.tended ((tends.akin bound kind).evaluate text)

lemma tended_evaluateList (text : Option String) : Tended D E s W (evaluateList env s text) :=
  Kindred.tended ((tends.akin bound kind).evaluateList text)

end

/-- Evaluation changes no container that there is. -/
lemma region_of_evaluateList {text : Option String} {v : Value} (made : evaluateList env s text = .ok (v, t)) :
    Region (fun _ => True) (· < s.cells.size) s t :=
  ((tended_evaluateList (upkeep Region.territory.discipline) (fun _ _ _ _ _ => trivial) (.whole s) text).made made).1

lemma region_of_evaluate? {text : Option String} {v : Value} (made : evaluate? env s text = .ok (v, t)) :
    Region (fun _ => True) (· < s.cells.size) s t := by
  cases text with
  | none => cases made
  | some text =>
    exact ((tended_evaluate (upkeep Region.territory.discipline) (fun _ _ _ _ _ => trivial) (.whole s) text).made made).1

end

end TagScript.Expr
