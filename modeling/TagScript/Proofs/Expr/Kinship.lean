import TagScript.Expr.Evaluate
import TagScript.Proofs.Value.Link

/-!
# Evaluation side by side

If names are bound to values that are akin, and what expressions do with values treats kin alike,
then both sides come to values that are akin, or both fail. The value on the left of an operator may
be less closely related.
-/

namespace TagScript.Expr

variable {α β γ δ : Type}

/-! ## Kinds of values -/

variable {near : Float → Float → Prop} {a b c d : Value}

/-- The kinds of two values that operators take alike; numbers are near to each other. -/
inductive Shape (near : Float → Float → Prop) : Value → Value → Prop where
  | flat {a : Value} (leaf : a.ref? = none) : Shape near a a
  | num {m n : Num} (close : near m.val n.val) : Shape near (.num m) (.num n)
  | seq (r q : Ref) : Shape near (.seq r) (.seq q)
  | map (r q : Ref) : Shape near (.map r) (.map q)
  | func (name : String) (params : List String) (r q : Ref) : Shape near (.func name params r) (.func name params q)
  | stamp (at' : Stamp) (r q : Ref) : Shape near (.stamp at' r) (.stamp at' q)

lemma Shape.refl (near : Float → Float → Prop) (a : Value) : Shape near a a := by
  cases a with
  | seq r => exact .seq r r
  | map r => exact .map r r
  | func name params r => exact .func name params r r
  | stamp at' r => exact .stamp at' r r
  | _ => exact .flat rfl

lemma Shape.className_eq (shape : Shape near a b) : a.className = b.className := by
  cases shape <;> rfl

/-- Two numbers that arithmetic takes. -/
inductive Numeric.Near (near : Float → Float → Prop) : Numeric → Numeric → Prop where
  | whole (i : Int) : Near near (.whole i) (.whole i)
  | real {m n : Num} (close : near m.val n.val) : Near near (.real m) (.real n)

lemma Numeric.Near.isZero_eq {x y : Numeric} (same : x.Near Eq y) : x.isZero = y.isZero := by
  cases same with
  | whole i => rfl
  | real same => simp only [isZero, same]

lemma Shape.of? (shape : Shape near a b) (refl : ∀ x, near x x) :
    Option.Rel (Numeric.Near near) (Numeric.of? a) (Numeric.of? b) := by
  cases shape with
  | num close => exact .some (.real close)
  | flat leaf =>
    cases a with
    | bool x => exact .some (.whole _)
    | int i => exact .some (.whole i)
    | num n => exact .some (.real (refl _))
    | _ => exact .none
  | _ => exact .none

/-! ## The rules -/

/-- The two sides: the stores that they are in, which values are akin, and which faults may come
together. -/
structure Sides (World : Type) where
  here : World → Store
  there : World → Store
  kin : World → Value → Value → Prop
  fails : Fault → Fault → Prop

variable {World : Type} [Preorder World] {Q : World → α → β → Prop} {R : World → γ → δ → Prop} {w v : World}

/-- Both sides are in the stores of a later world, with results that are related there. -/
def Sides.Made (S : Sides World) (w : World) (Q : World → α → β → Prop) (x : α × Store) (y : β × Store) : Prop :=
  ∃ v, w ≤ v ∧ x.2 = S.here v ∧ y.2 = S.there v ∧ Q v x.1 y.1

/-- What values that are akin have to share for evaluation to treat them alike. -/
structure Kinship (World : Type) [Preorder World] extends Sides World where
  later : ∀ {w v a b}, kin w a b → w ≤ v → kin v a b
  str : ∀ {w} x, kin w (.str x) (.str x)
  bool : ∀ {w} x, kin w (.bool x) (.bool x)
  ofFloat : ∀ {w} x, kin w (.ofFloat x) (.ofFloat x)
  shape : ∀ {w a b}, kin w a b → Shape Eq a b
  text : ∀ {w a b}, kin w a b → Kindred fails Eq ((here w).text a) ((there w).text b)
  truthy : ∀ {w a b}, kin w a b → (here w).truthy a = (there w).truthy b
  equal : ∀ {w a b c d}, kin w a b → kin w c d → Kindred fails Eq ((here w).equal a c) ((there w).equal b d)
  compare : ∀ {w a b c d}, kin w a b → kin w c d →
    Datum.compareNumbers? a.leaf c.leaf = Datum.compareNumbers? b.leaf d.leaf
  items : ∀ {w r q}, kin w (.seq r) (.seq q) → List.Forall₂ (kin w) ((here w).items r) ((there w).items q)
  entries : ∀ {w r q}, kin w (.map r) (.map q) → Assoc.Related (kin w) ((here w).entries r) ((there w).entries q)
  newSeq : ∀ {w xs ys}, List.Forall₂ (kin w) xs ys → toSides.Made w kin ((here w).newSeq xs) ((there w).newSeq ys)
  newMap : ∀ {w xs ys}, Assoc.Related (kin w) xs ys → toSides.Made w kin ((here w).newMap xs) ((there w).newMap ys)
  number : ∀ {w} x, toSides.Made w kin ((here w).number x) ((there w).number x)
  lex : ∀ cause, fails (.lex cause) (.lex cause)
  undefined : ∀ path, fails (.undefined path) (.undefined path)
  type : ∀ cause, fails (.type cause) (.type cause)
  converted : ∀ {tokens fault}, toPostfix tokens = .error fault → fails fault fault
  domain : ∀ {a}, (!Binary64.isFinite a) = true → fails .domain .domain
  tooLarge : ∀ {i}, Binary64.ofInt? i = none → fails .tooLarge .tooLarge
  index : ∀ {segment message}, Text.allDigits segment = true → Reading.int segment = .error message →
    fails (.value message) (.value message)

/-- What an operator asks of the values on its left. -/
structure Kinship.Operands (K : Kinship World) (near : Float → Float → Prop) (left : World → Value → Value → Prop) :
    Prop where
  kin : ∀ {w a b}, K.kin w a b → left w a b
  later : ∀ {w v a b}, left w a b → w ≤ v → left v a b
  shape : ∀ {w a b}, left w a b → Shape near a b
  text : ∀ {w a b}, left w a b → Kindred K.fails Eq ((K.here w).text a) ((K.there w).text b)
  truthy : ∀ {w a b}, left w a b → (K.here w).truthy a = (K.there w).truthy b
  equal : ∀ {w a b c d}, left w a b → K.kin w c d →
    Kindred K.fails Eq ((K.here w).equal a c) ((K.there w).equal b d)
  compare : ∀ {w a b c d}, left w a b → K.kin w c d →
    Datum.compareNumbers? a.leaf c.leaf = Datum.compareNumbers? b.leaf d.leaf
  joined : ∀ {w r q r' q'}, left w (.seq r) (.seq q) → K.kin w (.seq r') (.seq q') →
    K.Made w left ((K.here w).newSeq ((K.here w).items r ++ (K.here w).items r'))
      ((K.there w).newSeq ((K.there w).items q ++ (K.there w).items q'))
  refl : ∀ x, near x x
  add : ∀ {x y}, near x y → ∀ z, near (x + z) (y + z)
  sub : ∀ {x y}, near x y → ∀ z, near (x - z) (y - z)
  mul : ∀ {x y}, near x y → ∀ z, near (x * z) (y * z)
  neg : ∀ {x y}, near x y → near (-x) (-y)
  number : ∀ {w x y}, near x y → K.Made w left ((K.here w).number x) ((K.there w).number y)
  divide : ∀ {w x y}, near x y → ∀ z, K.Made w left (divide (K.here w) x z) (divide (K.there w) y z)
  remainder : ∀ {w x y}, near x y → ∀ z,
    Kindred K.fails (K.Made w left) (remainder (K.here w) x z) (remainder (K.there w) y z)
  power : ∀ {w x y}, near x y → ∀ z, K.Made w left (power (K.here w) x z) (power (K.there w) y z)

namespace Sides

variable {S : Sides World}

lemma Made.same {x : α} {y : β} (related : Q w x y) : S.Made w Q (x, S.here w) (y, S.there w) :=
  ⟨w, le_refl w, rfl, rfl, related⟩

lemma Made.map {x : α × Store} {y : β × Store} {f : α → γ} {g : β → δ} (made : S.Made w Q x y)
    (after : ∀ v, w ≤ v → ∀ a b, Q v a b → R v (f a) (g b)) : S.Made w R (f x.1, x.2) (g y.1, y.2) := by
  obtain ⟨v, later, here, there, related⟩ := made
  exact ⟨v, later, here, there, after v later _ _ related⟩

lemma Made.earlier {x : α × Store} {y : β × Store} (made : S.Made v Q x y) (later : w ≤ v) : S.Made w Q x y := by
  obtain ⟨u, after, rest⟩ := made
  exact ⟨u, le_trans later after, rest⟩

lemma goOn {x : Except Fault (α × Store)} {y : Except Fault (β × Store)} {k : α × Store → Except Fault (γ × Store)}
    {l : β × Store → Except Fault (δ × Store)} (first : Kindred S.fails (S.Made w Q) x y)
    (after : ∀ v a b, w ≤ v → Q v a b → Kindred S.fails (S.Made v R) (k (a, S.here v)) (l (b, S.there v))) :
    Kindred S.fails (S.Made w R) (x >>= k) (y >>= l) := by
  refine first.bind ?_
  rintro ⟨a, _⟩ ⟨b, _⟩ ⟨v, later, rfl, rfl, related⟩
  exact (after v a b later related).imp fun _ _ made => made.earlier later

end Sides

namespace Kinship

variable (K : Kinship World) {left : World → Value → Value → Prop}

/-! ## Operators -/

lemma notANumber : K.kin w notANumber notANumber :=
  K.ofFloat Binary64.notANumber

lemma float {x y : Numeric} (close : x.Near near y) (refl : ∀ x, near x x) : Kindred K.fails near x.float y.float := by
  cases close with
  | whole i =>
    simp only [Numeric.float]
    cases large : Binary64.ofInt? i with
    | none => exact .error (K.tooLarge large)
    | some x => exact .ok (refl x)
  | real close => exact .ok close

lemma divide (x y : Float) : K.Made w K.kin (divide (K.here w) x y) (divide (K.there w) x y) := by
  unfold Expr.divide
  split
  · split
    · exact .same K.notANumber
    · split <;> exact .same (K.ofFloat _)
  · exact K.number _

lemma remainder (x y : Float) :
    Kindred K.fails (K.Made w K.kin) (remainder (K.here w) x y) (remainder (K.there w) x y) := by
  unfold Expr.remainder
  split
  · exact .ok (K.number _)
  · split
    · rename_i infinite
      exact .error (K.domain infinite)
    · split <;> exact .ok (K.number _)

lemma power (x y : Float) : K.Made w K.kin (power (K.here w) x y) (power (K.there w) x y) := by
  unfold Expr.power powerOfZero
  simp only []
  split
  · split
    · exact K.number _
    · split
      · exact .same (K.ofFloat _)
      · split <;> exact .same (K.ofFloat _)
  · split
    · split
      · exact .same K.notANumber
      · split <;> exact .same (K.ofFloat _)
    · exact K.number _

/-- Values that are akin may stand on the left. -/
lemma operands : K.Operands Eq K.kin :=
  { K with
    kin := id
    joined := fun first second => K.newSeq (List.rel_append (K.items first) (K.items second))
    refl := fun _ => rfl
    add := fun same z => congrArg (· + z) same
    sub := fun same z => congrArg (· - z) same
    mul := fun same z => congrArg (· * z) same
    neg := congrArg _
    number := fun same => same ▸ K.number _
    divide := fun same z => same ▸ K.divide _ z
    remainder := fun same z => same ▸ K.remainder _ z
    power := fun same z => same ▸ K.power _ z }

section

variable {K} (O : K.Operands near left)
include O

namespace Operands

lemma requireNumbers (symbol : Symbol) (first : left w a b) (second : K.kin w c d) :
    Kindred K.fails (fun p q => p.1.Near near q.1 ∧ p.2.Near Eq q.2) (requireNumbers symbol a c)
      (requireNumbers symbol b d) := by
  have numbers := (O.shape first).of? O.refl
  have numbers' := (K.shape second).of? fun _ => rfl
  unfold Expr.requireNumbers
  rw [(O.shape first).className_eq, (K.shape second).className_eq]
  generalize Numeric.of? a = x at numbers
  generalize Numeric.of? b = y at numbers
  generalize Numeric.of? c = x' at numbers'
  generalize Numeric.of? d = y' at numbers'
  cases numbers with
  | none => exact .error (K.type _)
  | some number =>
    cases numbers' with
    | none => exact .error (K.type _)
    | some number' => exact .ok ⟨number, number'⟩

lemma floats {x y x' y' : Numeric} (first : x.Near near y) (second : x'.Near Eq y')
    {k l : Float → Float → Except Fault α} {Q : α → α → Prop}
    (after : ∀ p q, near p q → ∀ z, Kindred K.fails Q (k p z) (l q z)) :
    Kindred K.fails Q (x.float >>= fun p => x'.float >>= k p) (y.float >>= fun q => y'.float >>= l q) := by
  refine (K.float first O.refl).bind fun p q close => ?_
  refine (K.float second fun _ => rfl).bind ?_
  rintro z _ rfl
  exact after p q close z

lemma arithmetic {whole : Int → Int → Int} {real : Float → Float → Float}
    (keeps : ∀ {x y}, near x y → ∀ z, near (real x z) (real y z)) {x y x' y' : Numeric} (first : x.Near near y)
    (second : x'.Near Eq y') :
    Kindred K.fails (K.Made w left) (arithmetic (K.here w) whole real x x') (arithmetic (K.there w) whole real y y') := by
  have reals : Kindred K.fails (K.Made w left) (do return (K.here w).number (real (← x.float) (← x'.float)))
      (do return (K.there w).number (real (← y.float) (← y'.float))) :=
    O.floats first second fun p q close z => .ok (O.number (keeps close z))
  cases first with
  | whole i =>
    cases second with
    | whole j => exact (K.float (.whole (whole i j)) O.refl).bind fun p q close => .ok (O.number close)
    | real same => exact reals
  | real close => exact reals

lemma plus (first : left w a b) (second : K.kin w c d) :
    Kindred K.fails (K.Made w left) (plus (K.here w) a c) (plus (K.there w) b d) := by
  have texts : Kindred K.fails (K.Made w left)
      (do return (.str ((← (K.here w).text a) ++ (← (K.here w).text c)), K.here w))
      (do return (.str ((← (K.there w).text b) ++ (← (K.there w).text d)), K.there w)) := by
    refine (O.text first).bind ?_
    rintro x _ rfl
    refine (K.text second).bind ?_
    rintro y _ rfl
    exact .ok (.same (O.kin (K.str _)))
  have numbers : Kindred K.fails (K.Made w left)
      (Expr.requireNumbers .add a c >>= fun pair => Expr.arithmetic (K.here w) (· + ·) (· + ·) pair.1 pair.2)
      (Expr.requireNumbers .add b d >>= fun pair => Expr.arithmetic (K.there w) (· + ·) (· + ·) pair.1 pair.2) :=
    (O.requireNumbers .add first second).bind fun _ _ both => O.arithmetic O.add both.1 both.2
  have shape := K.shape second
  cases O.shape first with
  | seq r q =>
    cases shape with
    | seq r' q' => exact .ok (O.joined first second)
    | flat leaf =>
      cases c with
      | str y => exact texts
      | seq r => cases leaf
      | _ => exact numbers
    | _ => exact numbers
  | flat leaf =>
    cases a with
    | str x => exact texts
    | seq r => cases leaf
    | _ =>
      cases shape with
      | flat leaf =>
        cases c with
        | str y => exact texts
        | _ => exact numbers
      | _ => exact numbers
  | _ =>
    cases shape with
    | flat leaf =>
      cases c with
      | str y => exact texts
      | _ => exact numbers
    | _ => exact numbers

lemma ordered (symbol : Symbol) (first : left w a b) (second : K.kin w c d) :
    Kindred K.fails Eq (ordered symbol a c) (ordered symbol b d) := by
  have same : Expr.ordered symbol a c = Expr.ordered symbol b d := by
    have numbers := O.compare first second
    have shape := K.shape second
    unfold Expr.ordered
    rw [(O.shape first).className_eq, shape.className_eq]
    cases O.shape first with
    | flat leaf =>
      cases shape with
      | flat leaf' => rfl
      | _ => cases a <;> simp only [numbers]
    | _ => simp only [numbers]
  rw [same]
  refine .same fun fault failed => ?_
  unfold Expr.ordered at failed
  simp only [] at failed
  split at failed <;> cases failed
  exact K.type _

lemma applyBinary (symbol : Symbol) (first : left w a b) (second : K.kin w c d) :
    Kindred K.fails (K.Made w left) (applyBinary (K.here w) symbol a c) (applyBinary (K.there w) symbol b d) := by
  have decided : ∀ {x y : Except Fault Bool} (f : Bool → Bool), Kindred K.fails Eq x y → Kindred K.fails (K.Made w left)
      (do return (.bool (f (← x)), K.here w)) (do return (.bool (f (← y)), K.there w)) := by
    intro x y f same
    refine same.bind ?_
    rintro p _ rfl
    exact .ok (.same (O.kin (K.bool _)))
  have operands := O.requireNumbers symbol first second
  have order := O.ordered symbol first second
  have equal := O.equal first second
  cases symbol with
  | add => exact O.plus first second
  | sub => exact operands.bind fun _ _ both => O.arithmetic O.sub both.1 both.2
  | mul => exact operands.bind fun _ _ both => O.arithmetic O.mul both.1 both.2
  | div => exact operands.bind fun p q both => O.floats both.1 both.2 fun x y close z => .ok (O.divide close z)
  | rem =>
    refine operands.bind fun p q both => ?_
    simp only [both.2.isZero_eq]
    split
    · exact .ok (.same (O.kin K.notANumber))
    · exact O.floats both.1 both.2 fun x y close z => O.remainder close z
  | pow => exact operands.bind fun p q both => O.floats both.1 both.2 fun x y close z => .ok (O.power close z)
  | eq => exact decided id equal
  | ne => exact decided not equal
  | lt | le | gt | ge => exact decided id order
  | and =>
    refine .ok (.same ?_)
    rw [O.truthy first]
    split
    · exact O.kin second
    · exact first
  | or =>
    refine .ok (.same ?_)
    rw [O.truthy first]
    split
    · exact first
    · exact O.kin second
  | bang => exact .error (K.lex _)

lemma applyUnary (sign : Sign) (operand : left w a b) :
    Kindred K.fails (K.Made w left) (applyUnary (K.here w) sign a) (applyUnary (K.there w) sign b) := by
  have number := (O.shape operand).of? O.refl
  have number_eq : ∀ {a n}, Numeric.of? a = some (.real n) → a = .num n := by
    intro a n found
    cases a <;> cases found
    rfl
  unfold Expr.applyUnary
  rw [O.truthy operand, (O.shape operand).className_eq]
  generalize found : Numeric.of? a = x at number
  generalize found' : Numeric.of? b = y at number
  cases sign with
  | not => exact .ok (.same (O.kin (K.bool _)))
  | neg =>
    cases number with
    | none => exact .error (K.type _)
    | some close => exact (K.float close O.refl).bind fun x y close => .ok (O.number (O.neg close))
  | pos =>
    cases number with
    | none => exact .error (K.type _)
    | some close =>
      cases close with
      | whole i => exact (K.float (.whole i) O.refl).bind fun x y close => .ok (O.number close)
      | real close =>
        rw [number_eq found, number_eq found'] at operand
        exact .ok (.same operand)

end Operands

end

/-! ## Names -/

lemma found {x y : Option Value} (related : Option.Rel (K.kin w) x y) (path : String) :
    Kindred K.fails (K.kin w) (x.elim (.error (.undefined path)) .ok) (y.elim (.error (.undefined path)) .ok) := by
  cases related with
  | none => exact .error (K.undefined _)
  | some akin => exact .ok akin

lemma forall₂_getElem? {R : α → β → Prop} {xs : List α} {ys : List β} (items : List.Forall₂ R xs ys) (i : Nat) :
    Option.Rel R xs[i]? ys[i]? := by
  induction items generalizing i with
  | nil => exact .none
  | cons first _ ih =>
    cases i with
    | zero => exact .some first
    | succ i => exact ih i

lemma member (akin : K.kin w a b) (segment path : String) :
    Kindred K.fails (K.kin w) (member (K.here w) a segment path) (member (K.there w) b segment path) := by
  unfold Expr.member
  cases K.shape akin with
  | map r q => exact K.found (Assoc.Related.get? (K.entries akin) segment) path
  | seq r q =>
    have items := K.items akin
    simp only [items.length_eq]
    split
    · rename_i digits
      split
      · rename_i failed
        exact .error (K.index digits failed)
      · exact K.found (forall₂_getElem? items _) path
    · split
      · exact .ok (K.ofFloat _)
      · exact .error (K.undefined _)
  | flat leaf =>
    cases a with
    | str x =>
      simp only []
      split
      · exact .ok (K.ofFloat _)
      · exact .error (K.undefined _)
    | error record =>
      simp only []
      split
      · exact .ok (K.str _)
      · split
        · exact .ok (K.str _)
        · exact .error (K.undefined _)
    | seq | map => cases leaf
    | _ => exact .error (K.undefined _)
  | _ => exact .error (K.undefined _)

lemma follow (path : String) (segments : List String) (akin : K.kin w a b) :
    Kindred K.fails (K.kin w) (follow (K.here w) path a segments) (follow (K.there w) path b segments) := by
  induction segments generalizing a b with
  | nil => exact .ok akin
  | cons segment rest ih => exact (K.member akin segment path).bind fun _ _ next => ih next

/-- Names are bound to values that are akin. -/
def Bound (w : World) (env env' : Environment) : Prop :=
  ∀ name, Option.Rel (K.kin w) (env.get? name) (env'.get? name)

variable {K} {env env' : Environment}

lemma Bound.later (bound : K.Bound w env env') (later : w ≤ v) : K.Bound v env env' := by
  intro name
  have related := bound name
  generalize env.get? name = x at related ⊢
  generalize env'.get? name = y at related ⊢
  cases related with
  | none => exact .none
  | some akin => exact .some (K.later akin later)

lemma Bound.lookup (bound : K.Bound w env env') (path : String) :
    Kindred K.fails (K.kin w) (lookup env (K.here w) path) (lookup env' (K.there w) path) := by
  unfold Expr.lookup
  split
  · exact .error (K.undefined _)
  · rename_i head rest _
    have named := bound head
    generalize env.get? head = x at named
    generalize env'.get? head = y at named
    cases named with
    | none => exact .error (K.undefined _)
    | some akin => exact K.follow path rest akin

/-! ## Expressions -/

/-- Two stacks of values that are akin; those at the bottom need only do on the left of an operator.
-/
inductive Stack (K : Kinship World) (left : World → Value → Value → Prop) (w : World) : List Value → List Value → Prop where
  | nil : Stack K left w [] []
  | bottom {a b : Value} (operand : left w a b) : Stack K left w [a] [b]
  | cons {a b : Value} {xs ys : List Value} (akin : K.kin w a b) (rest : Stack K left w xs ys) :
    Stack K left w (a :: xs) (b :: ys)

lemma Stack.later (O : K.Operands near left) {xs ys : List Value} (stack : K.Stack left w xs ys) (later : w ≤ v) :
    K.Stack left v xs ys := by
  induction stack with
  | nil => exact .nil
  | bottom operand => exact .bottom (O.later operand later)
  | cons akin _ ih => exact .cons (K.later akin later) ih

lemma Stack.push (O : K.Operands near left) {x y : Value × Store} {xs ys : List Value} (made : K.Made w K.kin x y)
    (stack : K.Stack left w xs ys) : K.Made w (K.Stack left) (x.1 :: xs, x.2) (y.1 :: ys, y.2) := by
  obtain ⟨v, later, here, there, akin⟩ := made
  exact ⟨v, later, here, there, .cons akin (stack.later O later)⟩

lemma Stack.alone {x y : Value × Store} (made : K.Made w left x y) :
    K.Made w (K.Stack left) ([x.1], x.2) ([y.1], y.2) := by
  obtain ⟨v, later, here, there, operand⟩ := made
  exact ⟨v, later, here, there, .bottom operand⟩

lemma Operands.oneValue (O : K.Operands near left) {x y : Except Fault (List Value × Store)}
    (kindred : Kindred K.fails (K.Made w (K.Stack left)) x y) :
    Kindred K.fails (K.Made w left) (oneValue x) (oneValue y) := by
  cases kindred with
  | error related => exact .error related
  | @ok x y made =>
    obtain ⟨xs, _⟩ := x
    obtain ⟨ys, _⟩ := y
    obtain ⟨v, later, rfl, rfl, stack⟩ := made
    cases stack with
    | nil => exact .error (K.lex _)
    | bottom operand => exact .ok ⟨v, later, rfl, rfl, operand⟩
    | cons akin rest =>
      cases rest with
      | nil => exact .ok ⟨v, later, rfl, rfl, O.kin akin⟩
      | bottom | cons => exact .error (K.lex _)

mutual

lemma Operands.runItems {near : Float → Float → Prop} {left : World → Value → Value → Prop} (O : K.Operands near left)
    {w : World} {xs ys : List Value} (bound : K.Bound w env env') (stack : K.Stack left w xs ys) : ∀ items,
    Kindred K.fails (K.Made w (K.Stack left)) (runItems env (K.here w) xs items) (runItems env' (K.there w) ys items)
  | [] => .ok (.same stack)
  | item :: rest => by
    rw [Expr.runItems, Expr.runItems]
    refine Sides.goOn (O.runItem bound stack item) fun v xs ys later stack => ?_
    exact O.runItems (bound.later later) stack rest

lemma Operands.runItem {near : Float → Float → Prop} {left : World → Value → Value → Prop} (O : K.Operands near left)
    {w : World} {xs ys : List Value} (bound : K.Bound w env env') (stack : K.Stack left w xs ys) : ∀ item,
    Kindred K.fails (K.Made w (K.Stack left)) (runItem env (K.here w) xs item) (runItem env' (K.there w) ys item)
  | .number x _ => .ok (.same (.cons (K.ofFloat x) stack))
  | .string x _ => .ok (.same (.cons (K.str x) stack))
  | .boolean x _ => .ok (.same (.cons (K.bool x) stack))
  | .identifier path _ => by
    rw [Expr.runItem, Expr.runItem]
    exact (bound.lookup path).map fun _ _ akin => .same (.cons akin stack)
  | .unary sign _ => by
    cases stack with
    | nil => exact .error (K.lex _)
    | bottom operand => exact (O.applyUnary sign operand).map fun _ _ => Stack.alone
    | cons akin rest => exact (K.operands.applyUnary sign akin).map fun _ _ made => Stack.push O made rest
  | .binary symbol pos => by
    cases stack with
    | nil | bottom => exact .error (K.lex _)
    | cons second rest =>
      cases rest with
      | nil => exact .error (K.lex _)
      | bottom first => exact (O.applyBinary symbol first second).map fun _ _ => Stack.alone
      | cons first rest => exact (K.operands.applyBinary symbol first second).map fun _ _ made => Stack.push O made rest
  | .sequence elements _ => by
    rw [Expr.runItem, Expr.runItem]
    refine (runElements bound elements).map ?_
    rintro ⟨xs, _⟩ ⟨ys, _⟩ ⟨v, later, rfl, rfl, items⟩
    exact Stack.push O (Sides.Made.earlier (K.newSeq items) later) stack
  | .mapping entries _ => by
    rw [Expr.runItem, Expr.runItem]
    refine (runEntries bound entries).map ?_
    rintro ⟨xs, _⟩ ⟨ys, _⟩ ⟨v, later, rfl, rfl, bindings⟩
    exact Stack.push O (Sides.Made.earlier (K.newMap (Assoc.Related.merge .nil bindings)) later) stack

lemma runElements {w : World} (bound : K.Bound w env env') : ∀ elements,
    Kindred K.fails (K.Made w fun v => List.Forall₂ (K.kin v)) (runElements env (K.here w) elements)
      (runElements env' (K.there w) elements)
  | [] => .ok (.same .nil)
  | element :: rest => by
    rw [Expr.runElements, Expr.runElements]
    refine Sides.goOn (K.operands.oneValue (K.operands.runItems bound .nil element)) fun v a b later akin => ?_
    refine (runElements (bound.later later) rest).map fun _ _ made => ?_
    exact made.map fun _ after _ _ items => .cons (K.later akin after) items

lemma runEntries {w : World} (bound : K.Bound w env env') : ∀ entries,
    Kindred K.fails (K.Made w fun v => Assoc.Related (K.kin v)) (runEntries env (K.here w) entries)
      (runEntries env' (K.there w) entries)
  | [] => .ok (.same .nil)
  | entry :: rest => by
    rw [Expr.runEntries, Expr.runEntries]
    refine Sides.goOn (runEntry bound entry) fun v a b later same => ?_
    refine (runEntries (bound.later later) rest).map fun _ _ made => ?_
    exact made.map fun _ after _ _ entries => .cons ⟨same.1, K.later same.2 after⟩ entries

lemma runEntry {w : World} (bound : K.Bound w env env') : ∀ entry,
    Kindred K.fails (K.Made w fun v (a b : String × Value) => a.1 = b.1 ∧ K.kin v a.2 b.2)
      (runEntry env (K.here w) entry) (runEntry env' (K.there w) entry)
  | (key, items) => by
    rw [Expr.runEntry, Expr.runEntry]
    refine (K.operands.oneValue (K.operands.runItems bound .nil items)).map fun _ _ made => ?_
    exact made.map fun _ _ _ _ akin => ⟨rfl, akin⟩

end

lemma Bound.evaluate (bound : K.Bound w env env') (text : String) :
    Kindred K.fails (K.Made w K.kin) (evaluate env (K.here w) text) (evaluate env' (K.there w) text) := by
  unfold Expr.evaluate
  split
  · exact .error (K.lex _)
  · split
    · exact .error (K.lex _)
    · split
      · rename_i failed
        exact .error (K.converted failed)
      · exact K.operands.oneValue (K.operands.runItems bound .nil _)

lemma Bound.evaluateList (bound : K.Bound w env env') (text : Option String) :
    Kindred K.fails (K.Made w K.kin) (evaluateList env (K.here w) text) (evaluateList env' (K.there w) text) := by
  unfold Expr.evaluateList
  simp only []
  split
  · exact .ok (K.newSeq .nil)
  · exact bound.evaluate _

end Kinship

end TagScript.Expr
