import TagScript.Proofs.Environment
import TagScript.Proofs.Expr.Grouped
import TagScript.Proofs.Script.Alike
import TagScript.Script.Interpreter

/-!
# Operations on variables

An operation on a variable that is no method is evaluated with a literal of the value of the
variable in front. This comes to what the operation does with the name in front if the literal reads
back: inside of a container, a number with an exponent does not.
-/

namespace TagScript

open List

/-- Two values in stores that have grown from one are equal: they stand for the same tree but for
marks and the signs of zeros, or both for none, have the same text, and are equal to the same values
of the old store. -/
structure Store.Equates (old s t : Store) (a b : Value) : Prop where
  tree : (s.datum? a).map Datum.unsigned = (t.datum? b).map Datum.unsigned
  text : s.text a = t.text b
  equal : ∀ c, old.Holds c → s.equal a c = t.equal b c

lemma Expr.Become.equates {old s t : Store} {a b : Value} (become : Expr.Become old.identity (a, s) (b, t)) :
    old.Equates s t a b := by
  obtain ⟨w, later, joins, operand⟩ := become
  exact ⟨operand.datum?_eq joins, operand.text_eq joins, fun c holds => operand.equal_eq joins (holds.twin.later later)⟩

lemma Store.Spelled.datum {s : Store} {v : Value} {d : Datum} (spelled : s.Spelled v d) : s.datum v = .ok d := by
  have read : s.read s.depth v = .ok d := by
    cases spelled with
    | number n => exact Store.read_leaf rfl s _
    | tree built plain =>
      have found := built.datum?
      unfold Store.datum? at found
      cases read : s.read s.depth v with
      | error e =>
        rw [read] at found
        cases found
      | ok e =>
        rw [read] at found
        exact congrArg Except.ok (Option.some.inj found)
  rw [Store.datum, read]
  rfl

namespace Script

open Markup

variable {m : Machine} {name operation : String} {value : Value} {d : Datum}

lemma allBlank_of_isPlainKey (plain : Datum.isPlainKey name = true) : Text.allBlank name = false := by
  unfold Datum.isPlainKey at plain
  split at plain
  · cases plain
  · rename_i c rest letters
    simp only [Bool.and_eq_true] at plain
    have first : Datum.isNameChar c = true := by
      have start := plain.1.1.1
      simp only [Datum.isNameStart, Datum.isNameChar, Char.isAlphanum, Bool.or_eq_true] at start ⊢
      exact start.imp_left .inl
    rw [Text.allBlank, letters, all_cons, Bool.and_eq_false_iff]
    refine .inl (Bool.eq_false_iff.mpr fun blank => ?_)
    rw [(Expr.isBlank_apart blank).2] at first
    cases first

lemma required_of_some {node : Node} {attr : String} (given : node.attr? attr = some name)
    (solid : Text.allBlank name = false) (m : Machine) : required node attr m = (.ok name, m) := by
  rw [required, given]
  simp only [solid]
  rfl

/-- The outcome of an operation on a variable: the variable is bound again where it is, or nothing
is bound and the operation has failed. -/
inductive Machine.Rebinds (m : Machine) (owner : ScopeId) (name : String) :
    Except Raised Unit × Machine → Except Fault (Value × Store) → Prop where
  | bound {m' : Machine} {v w : Value} {t : Store} (env : m'.session.env = m.session.env.bindIn owner name v)
    (same : m.store.Equates m'.store t v w) : Rebinds m owner name (.ok (), m') (.ok (w, t))
  | failed {m' : Machine} (raised : Raised) (fault : Fault) (env : m'.session.env = m.session.env) :
    Rebinds m owner name (.error raised, m') (.error fault)

lemma evaluate_apply (text : String) (m : Machine) :
    evaluate (some text) m = match Expr.evaluate m.session.env m.store text with
      | .error fault => (.error ⟨fault, []⟩, m)
      | .ok (v, s) => (.ok v, { m with store := s }) := by
  rw [evaluate, compute, run_get_bind, Expr.evaluate?, Option.elim_some]
  rcases Expr.evaluate m.session.env m.store text with fault | ⟨v, s⟩ <;> rfl

lemma runMan_apply {id : NodeId} {owner : ScopeId} {text : String} (named : (m.forest.node id).attr? "name" = some name)
    (given : (m.forest.node id).attr? "operation" = some operation) (untyped : (m.forest.node id).attr? "type" = none)
    (solid : Text.allBlank name = false) (solid' : Text.allBlank operation = false)
    (expression : (Text.trim operation).startsWith "." = false) (owned : m.session.env.owner? name = some owner)
    (found : Assoc.get? name (m.session.env.scope owner) = some value) (read : m.store.datum value = .ok d)
    (written : d.literal? = some text) :
    runMan id m = match Expr.evaluate m.session.env m.store ("(" ++ text ++ ")" ++ Text.trim operation) with
      | .error fault => (.error ⟨fault, []⟩, m)
      | .ok (v, s) => removeNode id ({ m with store := s : Machine }.mapEnv fun env => env.bindIn owner name v) := by
  have operated : applyOperation name value (Text.trim operation) m =
      evaluate (some ("(" ++ text ++ ")" ++ Text.trim operation)) m := by
    rw [applyOperation, datumOf, bind_assoc, run_get_bind, read]
    simp only [settle, pure_bind, written]
  unfold runMan changeVariable
  rw [run_nodeOf_bind, bind_assoc, run_bind, required_of_some named solid]
  simp only []
  rw [bind_assoc, run_bind, required_of_some given solid']
  simp only [bind_assoc, run_get_bind, owned, found, Option.getD_some, expression]
  rw [if_neg (by decide), run_bind, run_bind, operated, evaluate_apply, untyped]
  rcases Expr.evaluate m.session.env m.store _ with fault | ⟨v, s⟩ <;> rfl

/-- **An operation on a variable comes to what it does with the name of the variable in front.** It
fails if that fails, and otherwise the variable is bound again, in the innermost scope that binds
it, to an equal value. -/
theorem man_follows_named_operation {id : NodeId} (named : (m.forest.node id).attr? "name" = some name)
    (given : (m.forest.node id).attr? "operation" = some operation) (untyped : (m.forest.node id).attr? "type" = none)
    (plain : Datum.isPlainKey name = true) (solid : Text.allBlank operation = false)
    (expression : (Text.trim operation).startsWith "." = false) (whole : m.store.Whole)
    (held : ∀ name v, m.session.env.get? name = some v → m.store.Holds v)
    (bound : m.session.env.get? name = some value) (spelled : m.store.Spelled value d) :
    ∃ owner, m.session.env.owner? name = some owner ∧
      m.Rebinds owner name (runMan id m)
        (Expr.evaluate m.session.env m.store ("(" ++ name ++ ")" ++ operation)) := by
  obtain ⟨owner, owned, found⟩ := Option.bind_eq_some_iff.mp bound
  obtain ⟨text, written, both⟩ := Expr.evaluate_literal_name whole held plain bound spelled operation
  refine ⟨owner, owned, ?_⟩
  rw [runMan_apply named given untyped (allBlank_of_isPlainKey plain) solid expression owned found spelled.datum written]
  generalize Expr.evaluate m.session.env m.store ("(" ++ text ++ ")" ++ Text.trim operation) = x at both
  generalize Expr.evaluate m.session.env m.store ("(" ++ name ++ ")" ++ operation) = y at both
  cases both with
  | error => exact .failed _ _ rfl
  | @ok x y become =>
    obtain ⟨v, s⟩ := x
    obtain ⟨w, t⟩ := y
    exact .bound rfl become.equates

/-! ## A sequence that is joined to -/

def nestedStore : Store := ⟨#[.map [("k", .bool true)], .seq [.str "a", .num ⟨0, 0⟩, .map 0]], Num.firstFreshMark⟩

/-- The sequence is bound in the outer scope, a truth value in the inner one. -/
def nestedScopes : Environment := ⟨#[[("xs", .seq 1)], [("y", .bool true)]], 0, [1, 0]⟩

def joiningMachine : Machine :=
  let world := World.new ⟨⟨"/", "/"⟩, [], [], []⟩ ⟨[], []⟩ .input [] true
  let m := Machine.new ⟨some 3, false⟩ world none
  { m with
    forest := ⟨#[{ (default : Node) with tag := "man", attrs := [("name", "xs"), ("operation", " + [y] ")] }]⟩
    store := nestedStore
    session := { m.session with env := nestedScopes } }

lemma spelled_nestedStore :
    nestedStore.Spelled (.seq 1) (.seq [.str "a", .num ⟨0, 0⟩, .map [("k", .bool true)]]) := by
  refine .tree (Store.built_seq rfl (.cons (.str "a") (.cons (.num (by decide)) (.cons ?_ .nil)))) (.seq fun d mem => ?_)
  · exact Store.built_map rfl (by decide) rfl (.cons (.bool true) .nil)
  · simp only [mem_cons, not_mem_nil, or_false] at mem
    rcases mem with rfl | rfl | rfl
    · exact .str "a"
    · exact .num ⟨by decide, .inl (by decide)⟩
    · refine .map (fun entry mem => ?_) (by decide)
      obtain rfl := mem_singleton.mp mem
      exact .bool true

lemma whole_nestedStore : nestedStore.Whole where
  values {r c} here v member := by
    match r with
    | 0 =>
      cases here
      obtain rfl := mem_singleton.mp member
      exact ⟨Value.within_of_leaf rfl, nofun⟩
    | 1 =>
      cases here
      rcases mem_cons.mp member with rfl | member
      · exact ⟨Value.within_of_leaf rfl, nofun⟩
      · rcases mem_cons.mp member with rfl | member
        · exact ⟨Value.within_of_leaf rfl, fun n same nan => by cases same; cases nan⟩
        · obtain rfl := mem_singleton.mp member
          exact ⟨fun r link => by cases link; decide, nofun⟩
    | n + 2 => cases here
  constant := by decide

lemma held_nestedScopes (name : String) (v : Value) (found : nestedScopes.get? name = some v) : nestedStore.Holds v := by
  obtain ⟨id, mem, among⟩ := Environment.exists_of_get? found
  simp only [nestedScopes, mem_cons, not_mem_nil, or_false] at mem
  rcases mem with rfl | rfl
  · cases mem_singleton.mp among
    exact ⟨Value.within_of_leaf rfl, nofun⟩
  · cases mem_singleton.mp among
    exact ⟨fun r link => by cases link; decide, nofun⟩

theorem man_joins_sequence :
    nestedStore.Spelled (.seq 1) (.seq [.str "a", .num ⟨0, 0⟩, .map [("k", .bool true)]]) ∧ nestedStore.Whole ∧
      (Expr.evaluate nestedScopes nestedStore "(xs) + [y] ").toOption.isSome = true ∧
      ∃ owner, nestedScopes.owner? "xs" = some owner ∧
        joiningMachine.Rebinds owner "xs" (runMan 0 joiningMachine)
          (Expr.evaluate nestedScopes nestedStore ("(" ++ "xs" ++ ")" ++ " + [y] ")) :=
  ⟨spelled_nestedStore, whole_nestedStore, by decide +kernel,
    man_follows_named_operation (m := joiningMachine) rfl rfl rfl (by decide) (by decide) (by decide +kernel) whole_nestedStore
      held_nestedScopes rfl spelled_nestedStore⟩

end Script

end TagScript
