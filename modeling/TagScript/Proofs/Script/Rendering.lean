import TagScript.Proofs.Script.Mirror

/-!
# Elements in a row

Each element does to the row it stands in what the evaluator says it shows: the trees that stand for
it are in its place. The children are run by a walk of which the same is known.
-/

namespace TagScript.Script

open Markup Meaning Hedge

variable {table : Assoc Handler} {base P : Plot} {p id : NodeId} {h k kids front back : Hedge NodeId}
  {tag : String} {attrs : Assoc String} {m : Machine} {s : Scene} {α β : Type}
  {other : NodeId} {next : String} {otherAttrs : Assoc String} {otherKids : Hedge NodeId}

/-- What an element shows stands in the row. If the next element is settled, it is no longer in the
row. -/
def Rendered (table : Assoc Handler) (base : Plot) (p : NodeId) (h front back : Hedge NodeId) (shown : Shown)
    (m : Machine) (s : Scene) : Prop :=
  ∃ here next, here.shape = shown.here ∧ next.map shape = shown.next ∧
    Working table base p h (front ++ here ++ back.settled next) m s ∧
    (next ≠ none → ∀ x, back.leading = some x → (m.forest.node x).parent ≠ some p)

lemma Rendered.alone (here : Hedge NodeId) {trees : Trees} (shape : here.shape = trees)
    (work : Working table base p h (front ++ here ++ back) m s) :
    Rendered table base p h front back ⟨trees, none⟩ m s :=
  ⟨here, none, shape, rfl, work, fun never => absurd rfl never⟩

/-- An element is run as the evaluator says. -/
abbrev Renders (table : Assoc Handler) (base : Plot) (p : NodeId) (h front back : Hedge NodeId) :
    Except Raised (Option Signal) × Machine → Except Raised (Except Signal Shown) × Scene → Prop :=
  Mirrors (Abandoned table base p h) (Signals (Abandoned table base p h) (Rendered table base p h front back))

/-! ## From an element to its row -/

lemma Working.owns (work : Working table base p h k m s) :
    ∃ kept, Tracks table kept m s ∧ Owns ⟨m.forest, kept⟩ p k := by
  obtain ⟨kept, tracks, reworks⟩ := work
  exact ⟨kept, tracks, reworks.owns⟩

variable {walk : Walk} {told : Trees → Act Trees} (faithful : Faithful table walk told)
  (covered : kids.AllTags (Covered table)) (coveredBack : back.AllTags (Covered table))
  (work : Working table base p h (front ++ .element id tag attrs kids back) m s)

include work in
lemma Working.elementUnder :
    (m.forest.node id).ElementUnder tag attrs kids.roots p := by
  obtain ⟨kept, _, own⟩ := work.owns
  exact own.elementUnder

section

variable (reworks : Reworks base P p h (front ++ .element id tag attrs kids back))
include reworks

lemma Working.outer (work : Working table P id kids k m s) :
    Working table base p h (front ++ .element id tag attrs k back) m s := by
  obtain ⟨kept, tracks, inner⟩ := work
  exact ⟨kept, tracks, reworks.trans (reworks.owns.rework_inner inner)⟩

lemma Abandoned.outer (given : Abandoned table P id kids m s) : Abandoned table base p h m s := by
  obtain ⟨kept, tracks, spoils⟩ := given
  exact ⟨kept, tracks, reworks.spoils (reworks.owns.spoils_inner spoils)⟩

lemma Abandoned.remove (given : Abandoned table P id kids m s) :
    Working table base p h (front ++ back) { m with forest := m.forest.remove id } s := by
  obtain ⟨kept, tracks, spoils⟩ := given
  have own := reworks.owns
  have parent : (m.forest.node id).parent = some p := by
    have crown := spoils.crown
    rw [show m.forest.node id = _ from crown, Node.holding_parent, own.elementUnder.parent]
  have free : ∀ x ∈ p :: (front ++ .element id tag attrs kids back).places, ¬ kept x :=
    fun x among => spoils.not_kept (own.lt_size among) (own.free x among)
  have removed := (own.remove spoils).1
  refine ⟨kept, tracks.congr (Nat.le_of_eq (Forest.size_remove _ _).symm) fun x keep => ?_, reworks.trans removed⟩
  refine Forest.node_remove_of_ne _ ?_ ?_
  · rintro rfl
    exact free x (List.mem_cons_of_mem _ (mem_row_of_inner List.mem_cons_self)) keep
  · intro above
    cases parent.symm.trans above
    exact free p List.mem_cons_self keep

end

section

include work

lemma Working.remove : Working table base p h (front ++ back) { m with forest := m.forest.remove id } s ∧
      ((m.forest.remove id).node id).parent = none := by
  obtain ⟨kept, _, own⟩ := work.owns
  exact ⟨work.rework fun kept own _ => (own.remove (Spoils.refl _ _ _)).1, (own.remove (Spoils.refl _ _ _)).2⟩

lemma Working.unwrap : Working table base p h (front ++ kids ++ back) { m with forest := m.forest.unwrap id } s ∧
      ((m.forest.unwrap id).node id).parent = none := by
  obtain ⟨kept, _, own⟩ := work.owns
  exact ⟨work.rework fun kept own _ => own.unwrap.1, own.unwrap.2⟩

end

/-! ## Walking through an element -/

section Walk

include faithful covered work

lemma Faithful.inner : Mirrors (Abandoned table base p h)
      (Signals (Abandoned table base p h) fun shown m' s' =>
        ∃ k, k.shape = shown ∧ Working table base p h (front ++ .element id tag attrs k back) m' s')
      (walk id m) (told kids.shape s) := by
  obtain ⟨kept, tracks, reworks⟩ := work
  refine (faithful kept m s id kids tracks reworks.owns.inner covered).weaken
    (fun m' s' given => given.outer reworks) fun a b m' s' known => ?_
  refine known.imp (fun given => given.outer reworks) fun shown found => ?_
  obtain ⟨k, shape, work⟩ := found
  exact ⟨k, shape, work.outer reworks⟩

lemma Faithful.runInPlace : Mirrors (Abandoned table base p h)
      (Signals (Abandoned table base p h) fun shown m' s' =>
        ∃ k, k.shape = shown ∧ Working table base p h (front ++ k ++ back) m' s' ∧ (m'.forest.node id).parent = none)
      (runInPlace walk id m) (told kids.shape s) := by
  unfold Script.runInPlace
  rw [← bind_pure (told kids.shape)]
  refine (faithful.inner covered work).chain (fun _ => rfl) fun shown m' s' found => ?_
  obtain ⟨k, shape, work⟩ := found
  exact .ended ⟨k, shape, work.unwrap⟩

end Walk

/-! ## Elements without children -/

section

include work

lemma Working.header_eq : header tag attrs = header (m.forest.node id).tag (m.forest.node id).attrs := by
  rw [work.elementUnder.tag, work.elementUnder.attrs]

lemma Working.required_eq (name : String) : required (m.forest.node id) name = required (header tag attrs) name := by
  rw [work.header_eq]
  rfl

lemma Working.removed : Rendered table base p h front back .nothing { m with forest := m.forest.remove id } s := by
  refine Rendered.alone .nil rfl ?_
  rw [append_nil]
  exact work.remove.1

end

lemma renders_bound {act : Node → Run Unit} (headed : ∀ n, act n = act (header n.tag n.attrs))
    (calm : ∀ n, Calm (act n))
    (work : Working table base p h (front ++ .element id tag attrs kids back) m s) :
    Renders table base p h front back
      (withoutSignal (do
        act (← nodeOf id)
        removeNode id) m)
      ((do
        play (act (header tag attrs))
        return .nothing : Act Shown) s) := by
  simp only [withoutSignal, bind_assoc]
  rw [run_nodeOf_bind, headed, ← work.header_eq]
  refine work.play (calm _).quiet fun _ m' s' work _ => ?_
  exact .ended work.removed

lemma renders_display {content : Node → Run String} {content' : Node → Act String}
    (same : ∀ n, content' n = play (content n)) (headed : ∀ n, content n = content (header n.tag n.attrs)) (calm : ∀ n, Calm (content n))
    (work : Working table base p h (front ++ .element id tag attrs kids back) m s) :
    Renders table base p h front back
      (withoutSignal (do
        showText id (← content (← nodeOf id))) m)
      (Meaning.display tag attrs content' s) := by
  simp only [withoutSignal, bind_assoc, Meaning.display, same]
  rw [run_nodeOf_bind, headed, ← work.header_eq]
  refine work.play (calm _).quiet fun text m' s' work _ => ?_
  have isText := work.elementUnder.isText
  have shown : Working table base p h
      (front ++ .element id tag attrs (.ofText m'.forest.nodes.size text) back)
      { m' with forest := m'.forest.setText id text } s' :=
    work.rework fun kept own bounded => own.rework_inner (own.inner.setText isText bounded text)
  refine .ended (Rendered.alone (.element id tag attrs (.ofText m'.forest.nodes.size text) .nil) ?_ ?_)
  · simp only [shape, shape_ofText]
  · rw [append_assoc]
    exact shown

lemma renders_signal (signal : Signal)
    (work : Working table base p h (front ++ .element id tag attrs kids back) m s) :
    Renders table base p h front back ((pure (some signal) : Run (Option Signal)) m)
      ((throw signal : Act Shown) s) :=
  .ended ⟨rfl, work.abandon⟩

/-! ## Elements with children -/

include faithful covered work in
lemma Faithful.container :
    Renders table base p h front back (walk id m) (container told tag attrs kids.shape s) := by
  refine (faithful.inner covered work).map _ fun shown m' s' found => ?_
  obtain ⟨k, shape, work⟩ := found
  refine Rendered.alone (.element id tag attrs k .nil) ?_ ?_
  · simp only [Hedge.shape, shape]
  · rw [Hedge.append_assoc]
    exact work

lemma Rendered.settled (here due : Hedge NodeId) {between rest nextKids : Hedge NodeId}
    {nextAttrs : Assoc String} {shown trees : Trees}
    (found : back.partner next = some (other, nextAttrs, nextKids))
    (replaced : ∀ due, back.replaceFirst due = between ++ due ++ rest) (shape : here.shape = shown)
    (dueShape : due.shape = trees)
    (work : Working table base p h (front ++ here ++ between ++ due ++ rest) m s)
    (gone : (m.forest.node other).parent = none) :
    Rendered table base p h front back ⟨shown, some trees⟩ m s := by
  refine ⟨here, some due, shape, congrArg some dueShape, ?_, ?_⟩
  · rw [Hedge.settled, Option.elim_some, replaced]
    simpa only [Hedge.append_assoc] using work
  · intro _ x leading
    rw [leading_of_partner found] at leading
    cases leading
    rw [gone]
    exact nofun

lemma Working.dismiss {trees : Trees} (work : Working table base p h (front ++ k ++ back) m s)
    (shape : k.shape = trees) (next : String) :
    Renders table base p h front back
      ((((back.partner next).map Prod.fst).forM removeNode >>= fun _ => pure none) m)
      ((pure ⟨trees, (back.shape.partner next).map fun _ => .nil⟩ : Act Shown) s) := by
  rw [partner_shape]
  cases partner : back.partner next with
  | none => exact .ended (Rendered.alone k shape work)
  | some found =>
    obtain ⟨other, otherAttrs, otherKids⟩ := found
    obtain ⟨between, rest, rfl, replaced⟩ := split_of_partner partner
    rw [← append_assoc] at work
    have removed := work.remove
    refine .ended (Rendered.settled k .nil partner replaced shape rfl ?_ removed.2)
    rw [append_nil]
    exact removed.1

lemma Working.partner_given_eq
    (work : Working table base p h (front ++ back) m s)
    (partner : back.partner next = some (other, otherAttrs, otherKids)) (name : String) :
    given? (m.forest.node other) name = given? (header next otherAttrs) name := by
  obtain ⟨between, rest, rfl, _⟩ := split_of_partner partner
  rw [← append_assoc] at work
  rw [work.header_eq]
  rfl

lemma Faithful.instead (faithful : Faithful table walk told) (coveredBack : back.AllTags (Covered table))
    (partner : back.partner next = some (other, otherAttrs, otherKids))
    (work : Working table base p h (front ++ back) m s) :
    Renders table base p h front back (Script.runInPlace walk other m)
      ((do
        let shown ← told otherKids.shape
        return ⟨.nil, some shown⟩ : Act Shown) s) := by
  obtain ⟨between, rest, rfl, replaced⟩ := split_of_partner partner
  have covered : otherKids.AllTags (Covered table) := ((allTags_append _ _ _).mp coveredBack).2.2.1
  rw [← append_assoc] at work
  refine (faithful.runInPlace covered work).map _ fun shown m' s' found => ?_
  obtain ⟨k, shape, work, gone⟩ := found
  refine Rendered.settled .nil k partner replaced rfl shape ?_ gone
  rw [append_nil]
  exact work

include faithful covered coveredBack work in
lemma Faithful.condition :
    Renders table base p h front back (runCondition walk id m)
      (Meaning.condition told (header tag attrs) kids.shape back.shape s) := by
  obtain ⟨kept, _, own⟩ := work.owns
  have alternative : m.forest.siblingTagged id "else" = (back.partner "else").map Prod.fst :=
    own.toHolds.siblingTagged (by decide)
  unfold runCondition Meaning.condition
  rw [run_nodeOf_bind, run_askForest_bind, work.required_eq]
  simp only [alternative, Meaning.holds_eq]
  refine work.play (Calm.required _ _).quiet fun condition m₁ s₁ work _ => ?_
  refine work.play (Calm.holds _).quiet fun holds m₂ s₂ work _ => ?_
  cases holds with
  | true =>
    refine (faithful.runInPlace covered work).chain (fun _ => rfl) fun shown m₃ s₃ found => ?_
    obtain ⟨k, shape, work, _⟩ := found
    exact work.dismiss shape "else"
  | false =>
    have removed := work.remove.1
    rw [partner_shape]
    cases partner : back.partner "else" with
    | none => exact .ended work.removed
    | some found => exact faithful.instead coveredBack partner removed

lemma caught_apply (c : Run α) (m : Machine) :
    recover (do return .ok (← c)) (fun raised => return .error raised) m =
      ((.ok (c m).1 : Except Raised (Except Raised α)), (c m).2) := by
  simp only [recover, run_bind]
  rcases c m with ⟨result, m'⟩
  cases result <;> rfl

include faithful covered coveredBack work in
lemma Faithful.attempt :
    Renders table base p h front back (runAttempt walk id m) (Meaning.attempt told kids.shape back.shape s) := by
  obtain ⟨kept, tracks, reworks⟩ := work
  have own := reworks.owns
  have handler : m.forest.siblingTagged id "catch" = (back.partner "catch").map Prod.fst :=
    own.toHolds.siblingTagged (by decide)
  have body := faithful kept m s id kids tracks own.inner covered
  unfold runAttempt Meaning.attempt Meaning.recover
  rw [run_askForest_bind, run_bind, caught_apply, act_bind]
  simp only [handler]
  generalize walk id m = x at body
  generalize told kids.shape s = y at body
  cases body with
  | ended known =>
    obtain ⟨shown, rfl, rfl, k, shape, work⟩ | ⟨signal, rfl, rfl, given⟩ := known.cases
    · exact (work.outer reworks).unwrap.1.dismiss shape "catch"
    · exact .ended ⟨rfl, given.outer reworks⟩
  | @failed raised m₁ s₁ given =>
    have work := given.remove reworks
    simp only [partner_shape]
    cases partner : back.partner "catch" with
    | none => exact .failed work.abandon
    | some found =>
      obtain ⟨other, otherAttrs, otherKids⟩ := found
      refine work.play (Calm.mention raised).quiet fun _ m₂ s₂ work _ => ?_
      rw [run_nodeOf_bind, work.partner_given_eq partner]
      refine work.play (Calm.bindName _ _).quiet fun _ m₃ s₃ work _ => ?_
      exact faithful.instead coveredBack partner work

lemma runScope_apply (walk : Walk) (id : NodeId) (m : Machine) :
    runScope walk id m =
      always (runInPlace walk id) Machine.shut m.opened := by
  unfold runScope
  rw [run_bind, inScope_apply]
  rcases always _ _ _ with ⟨result, after⟩
  cases result <;> rfl

include faithful covered work in
lemma Faithful.scope :
    Renders table base p h front back (runScope walk id m) (Meaning.scope told kids.shape s) := by
  have opened := (work.change (Quiet.changeEnv fun env => (env.push []).2)).1
  have closing := Quiet.changeEnv fun env => env.pop?.elim env Prod.snd
  have body : Mirrors (Abandoned table base p h)
      (Signals (Abandoned table base p h) fun shown m' s' =>
        ∃ k, k.shape = shown ∧ Working table base p h (front ++ k ++ back) m' s')
      (runScope walk id m) (Meaning.inScope (told kids.shape) s) := by
    rw [runScope_apply]
    refine (faithful.runInPlace covered opened).always (fun m' s' given => given.change closing) ?_
    intro signal shown m' s' known
    refine known.imp (fun given => given.change closing) fun shown found => ?_
    obtain ⟨k, shape, work, _⟩ := found
    exact ⟨k, shape, (work.change closing).1⟩
  refine body.map _ fun shown m' s' found => ?_
  obtain ⟨k, shape, work⟩ := found
  exact Rendered.alone k shape work

end TagScript.Script
