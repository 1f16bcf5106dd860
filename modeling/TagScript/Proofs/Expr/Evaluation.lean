import TagScript.Expr.Evaluate
import TagScript.Proofs.Expr.Conversion

/-!
# Evaluation of trees

Running the postfix order of a tree on a stack puts the value of the tree on the stack, or fails as
the tree does.
-/

namespace TagScript.Expr

namespace Tree

mutual

/-- The value of a tree. Operands are evaluated from left to right, both of them also where the
operator is a connective. -/
def eval (env : Environment) (store : Store) : Tree → Except Fault (Value × Store)
  | .number x _ => .ok (.ofFloat x, store)
  | .string s _ => .ok (.str s, store)
  | .boolean b _ => .ok (.bool b, store)
  | .identifier path _ => do
    let value ← lookup env store path
    return (value, store)
  | .signed sign _ operand => do
    let (a, store) ← operand.eval env store
    applyUnary store sign a
  | .joined symbol _ left right => do
    let (a, store) ← left.eval env store
    let (b, store) ← right.eval env store
    applyBinary store symbol a b
  | .sequence elements _ => do
    let (values, store) ← evalElements env store elements
    return store.newSeq values
  | .mapping entries _ => do
    let (bindings, store) ← evalEntries env store entries
    return store.newMap (Assoc.ofList bindings)

def evalElements (env : Environment) (store : Store) : List Tree → Except Fault (List Value × Store)
  | [] => .ok ([], store)
  | t :: rest => do
    let (value, store) ← t.eval env store
    let (values, store) ← evalElements env store rest
    return (value :: values, store)

def evalEntries (env : Environment) (store : Store) :
    List (String × Tree) → Except Fault (List (String × Value) × Store)
  | [] => .ok ([], store)
  | entry :: rest => do
    let (binding, store) ← evalEntry env store entry
    let (bindings, store) ← evalEntries env store rest
    return (binding :: bindings, store)

def evalEntry (env : Environment) (store : Store) : String × Tree → Except Fault ((String × Value) × Store)
  | (key, t) => do
    let (value, store) ← t.eval env store
    return ((key, value), store)

end

end Tree

/-- Running items puts one value on the stack, or fails, and goes on with what follows them. -/
def Computes (env : Environment) (items : List Item) (compute : Store → Except Fault (Value × Store)) :
    Prop :=
  ∀ store stack rest, runItems env store stack (items ++ rest) =
    match compute store with
    | .error fault => .error fault
    | .ok (value, store) => runItems env store (value :: stack) rest

variable {compute : Store → Except Fault (Value × Store)}

lemma Computes.item {env : Environment} {item : Item} (step : ∀ store stack, runItem env store stack item =
      match compute store with
      | .error fault => .error fault
      | .ok (value, store) => .ok (value :: stack, store)) :
    Computes env [item] compute := by
  intro store stack rest
  rw [List.singleton_append, runItems, step]
  rcases compute store with fault | ⟨value, after⟩ <;> rfl

lemma Computes.whole {env : Environment} {items : List Item} (computes : Computes env items compute)
    (store : Store) : oneValue (runItems env store [] items) = compute store := by
  have running := computes store [] []
  rw [List.append_nil] at running
  rw [running]
  rcases compute store with fault | ⟨value, after⟩
  · rfl
  · simp [runItems, oneValue]

mutual

lemma Tree.computes (env : Environment) : ∀ t : Tree, Computes env t.postOrder (t.eval env)
  | .number .. | .string .. | .boolean .. => Computes.item fun store stack => by rw [runItem, Tree.eval]
  | .identifier path pos => Computes.item fun store stack => by
    rw [runItem, Tree.eval]
    rcases lookup env store path with fault | value <;> rfl
  | .signed sign pos operand => by
    intro store stack rest
    rw [Tree.postOrder, List.append_assoc, Tree.computes env operand]
    simp only [Tree.eval]
    rcases operand.eval env store with fault | ⟨a, after⟩
    · rfl
    · simp only [List.singleton_append, runItems, runItem, bind, Except.bind]
      rcases applyUnary after sign a with fault | ⟨value, last⟩ <;> rfl
  | .joined symbol pos left right => by
    intro store stack rest
    rw [Tree.postOrder, List.append_assoc, List.append_assoc, Tree.computes env left]
    simp only [Tree.eval]
    rcases left.eval env store with fault | ⟨a, between⟩
    · rfl
    · simp only [bind, Except.bind]
      rw [Tree.computes env right]
      simp only []
      rcases right.eval env between with fault | ⟨b, after⟩
      · rfl
      · simp only [List.singleton_append, runItems, runItem]
        rcases applyBinary after symbol a b with fault | ⟨value, last⟩ <;> rfl
  | .sequence elements pos => Computes.item fun store stack => by
    rw [runItem, Tree.runElements_postOrders env elements, Tree.eval]
    rcases Tree.evalElements env store elements with fault | ⟨values, after⟩ <;> rfl
  | .mapping entries pos => Computes.item fun store stack => by
    rw [runItem, Tree.runEntries_entryOrders env entries, Tree.eval]
    rcases Tree.evalEntries env store entries with fault | ⟨bindings, after⟩ <;> rfl

lemma Tree.runElements_postOrders (env : Environment) : ∀ (elements : List Tree) (store : Store),
    runElements env store (Tree.postOrders elements) = Tree.evalElements env store elements
  | [], store => by rw [Tree.postOrders, runElements, Tree.evalElements]
  | t :: rest, store => by
    rw [Tree.postOrders, runElements, Tree.evalElements, (Tree.computes env t).whole]
    rcases t.eval env store with fault | ⟨value, after⟩
    · rfl
    · simp only [bind, Except.bind]
      rw [Tree.runElements_postOrders env rest after]
      rcases Tree.evalElements env after rest with fault | ⟨values, last⟩ <;> rfl

lemma Tree.runEntries_entryOrders (env : Environment) :
    ∀ (entries : List (String × Tree)) (store : Store),
      runEntries env store (Tree.entryOrders entries) = Tree.evalEntries env store entries
  | [], store => by rw [Tree.entryOrders, runEntries, Tree.evalEntries]
  | entry :: rest, store => by
    rw [Tree.entryOrders, runEntries, Tree.evalEntries, Tree.runEntry_entryOrder env entry]
    rcases Tree.evalEntry env store entry with fault | ⟨binding, after⟩
    · rfl
    · simp only [bind, Except.bind]
      rw [Tree.runEntries_entryOrders env rest after]
      rcases Tree.evalEntries env after rest with fault | ⟨bindings, last⟩ <;> rfl

lemma Tree.runEntry_entryOrder (env : Environment) : ∀ (entry : String × Tree) (store : Store),
    runEntry env store (Tree.entryOrder entry) = Tree.evalEntry env store entry
  | (key, t), store => by
    rw [Tree.entryOrder, runEntry, Tree.evalEntry, (Tree.computes env t).whole]
    rcases t.eval env store with fault | ⟨value, after⟩ <;> rfl

end

/-- A token list that writes a tree converts to the postfix order of the tree, and running that
gives what evaluating the tree gives, in every environment and with every store. -/
theorem toPostfix_and_runWhole_of_writes {t : Tree} {tokens : List Token} (written : Writes 0 t tokens) :
    toPostfix tokens = .ok t.postOrder ∧
      ∀ env store, runWhole env store t.postOrder = t.eval env store :=
  ⟨written.toPostfix, fun env store => (Tree.computes env t).whole store⟩

/-- A sign may stand behind a power without parentheses, and takes a power behind it as its operand: what
`2 ^ -3 ^ 2` writes is `2 ^ (-(3 ^ 2))`. -/
theorem toPostfix_and_runWhole_sign_behind_power :
    toPostfix [⟨.number 2, 0⟩, ⟨.operator .pow, 2⟩, ⟨.operator .sub, 4⟩, ⟨.number 3, 5⟩,
        ⟨.operator .pow, 7⟩, ⟨.number 2, 9⟩] =
      .ok [.number 2 0, .number 3 5, .number 2 9, .binary .pow 7, .unary .neg 4, .binary .pow 2] ∧
    ∀ env store, runWhole env store
        [.number 2 0, .number 3 5, .number 2 9, .binary .pow 7, .unary .neg 4, .binary .pow 2] =
      (Tree.joined .pow 2 (.number 2 0)
        (.signed .neg 4 (.joined .pow 7 (.number 3 5) (.number 2 9)))).eval env store := by
  have power : Writes Sign.precedence (.joined .pow 7 (.number 3 5) (.number 2 9))
      [⟨.number 3, 5⟩, ⟨.operator .pow, 7⟩, ⟨.number 2, 9⟩] :=
    .joined 7 rfl (by decide) (.number _ 3 5) (.number _ 2 9)
  have signed : Writes Sign.precedence (.signed .neg 4 (.joined .pow 7 (.number 3 5) (.number 2 9)))
      [⟨.operator .sub, 4⟩, ⟨.number 3, 5⟩, ⟨.operator .pow, 7⟩, ⟨.number 2, 9⟩] :=
    .signed 4 rfl (by decide) power
  have binds : Symbol.pow.precedence? = some 8 := rfl
  exact toPostfix_and_runWhole_of_writes (.joined 2 binds (by decide) (.number _ 2 0) signed)

end TagScript.Expr
