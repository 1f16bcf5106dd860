import TagScript.Proofs.Script.Loops

/-!
# Definitions and calls

A definition keeps a copy of its element, which belongs to nobody from then on. A call runs a copy
of that copy in a frame of its own, takes the return elements out and puts the rest in the place of
the call.
-/

namespace TagScript.Script

open Markup List

variable {table : Assoc Handler} {base P : Plot} {p q id : NodeId} {h k l kids front back : Hedge NodeId}
  {tag : String} {attrs : Assoc String} {m : Machine} {s : Scene} {α β γ : Type}

lemma Standby.play {c : Run α} {next : α → Run β} {next' : α → Act γ}
    {gives : β → Except Signal γ → Machine → Scene → Prop} (aside : Standby table base p h k q l m s)
    (quiet : Quiet c)
    (after : ∀ a m' s', Standby table base p h k q l m' s' → m'.forest = m.forest →
      Mirrors (Abandoned table base p h) gives (next a m') (next' a s')) :
    Mirrors (Abandoned table base p h) gives ((c >>= next) m) ((Meaning.play c >>= next') s) := by
  obtain ⟨P, kept, tracks, reworks, new, own, fresh⟩ := aside
  refine tracks.play quiet (fun m' s' tracks forest => ?_) fun a m' s' tracks forest => ?_
  · refine ⟨kept, tracks, ?_⟩
    rw [forest]
    exact (reworks.trans (new.reworks reworks.owns)).toSpoils
  · refine after a m' s' ⟨P, kept, tracks, reworks, ?_, ?_, fresh⟩ forest
    · rw [forest]
      exact new
    · rw [forest]
      exact own

/-! ## Definitions -/

lemma getD_push_of_lt {xs : Array α} {i : Nat} (inside : i < xs.size) (x d : α) :
    (xs.push x).getD i d = xs.getD i d := by
  simp [Array.getD_eq_getD_getElem?, Array.getElem?_push, Nat.ne_of_lt inside]

lemma getD_push_size (xs : Array α) (x d : α) : (xs.push x).getD xs.size d = x := by
  simp [Array.getD_eq_getD_getElem?]

/-- The row beside the work becomes the body of a function: its nodes are kept from now on. -/
lemma Standby.define (aside : Standby table base p h k q l m s) (covered : l.AllTags (Covered table))
    (name : String) (params : List String) (closure : Bindings) :
    Working table base p h k
      { m with
        functions := m.functions.push ⟨name, params, q, closure⟩
        session := { m.session with functions := Assoc.set name m.functions.size m.session.functions } }
      { machine := s.machine.mapSession fun session =>
          { session with functions := Assoc.set name s.definitions.size session.functions }
        definitions := s.definitions.push ⟨params, l.shape, closure⟩ } := by
  obtain ⟨P, kept, tracks, reworks, new, own, fresh⟩ := aside
  have keeping : Extends P ⟨m.forest, fun x => kept x ∨ x ∈ q :: l.places⟩ := by
    refine ⟨new.grows, new.same, fun x keep => Or.inl (new.keeps x keep), ?_⟩
    rintro x (keep | among)
    · exact new.newly x keep
    · exact Or.inr (fresh x among)
  refine ⟨fun x => kept x ∨ x ∈ q :: l.places, ⟨?_, tracks.handlers, ?_, ?_, ?_⟩,
    reworks.trans (keeping.reworks reworks.owns)⟩
  · simp only [tracks.machine, tracks.size]
    rfl
  · simp only [Array.size_push, tracks.size]
  · intro other i found
    rw [Array.size_push]
    by_cases same : other = name
    · subst same
      rw [Assoc.get?_set_self] at found
      cases found
      refine ⟨Nat.lt_succ_self _, ?_⟩
      rw [getD_push_size, ← tracks.size, getD_push_size]
      exact ⟨rfl, rfl, ⟨l, own.toHolds, rfl, fun x among => Or.inr among⟩,
        (Hedge.allTags_shape _ _).mpr covered⟩
    · rw [Assoc.get?_set_other same] at found
      obtain ⟨earlier, realises⟩ := tracks.known other i found
      refine ⟨Nat.lt_succ_of_lt earlier, ?_⟩
      rw [getD_push_of_lt earlier, getD_push_of_lt (tracks.size.symm ▸ earlier)]
      exact realises.congr (Nat.le_refl _) (fun _ _ => rfl) fun x keep => Or.inl keep
  · rintro x (keep | among)
    · exact tracks.bounded x keep
    · exact own.lt_size among

lemma renders_function (covered : kids.AllTags (Covered table))
    (work : Working table base p h (front ++ .element id tag attrs kids back) m s) :
    Renders table base p h front back (withoutSignal (runFunction id) m)
      (Meaning.define (Meaning.header tag attrs) kids.shape s) := by
  unfold withoutSignal runFunction Meaning.define
  simp only [bind_assoc]
  have given := work.given_eq "var"
  rw [run_nodeOf_bind, work.required_eq, work.attr_eq]
  refine work.play (Calm.required _ _).quiet fun name m₁ s₁ work _ => ?_
  obtain ⟨kept, _, own⟩ := work.owns
  obtain ⟨l, g, cloned, shape, covers, aside⟩ := work.cloneTree own.inner.toHolds
  rw [run_bind, cloned, ← shape]
  refine aside.play Calm.takeSnapshot.quiet fun closure m₂ s₂ aside _ => ?_
  have defined := aside.define (covers covered) name (parameters (((Meaning.header tag attrs).attr? "params").getD ""))
    closure
  exact .ended defined.removed

lemma Working.functionNamed (work : Working table base p h k m s) (name : String) :
    Mirrors (Abandoned table base p h)
      (Plain fun f d m' s' => (∃ kept, Realises table ⟨m'.forest, kept⟩ f d) ∧ Working table base p h k m' s')
      (functionNamed name m) (Meaning.definitionNamed name s) := by
  obtain ⟨kept, tracks, reworks⟩ := work
  unfold Script.functionNamed Meaning.definitionNamed
  rw [run_get_bind, act_get_bind, tracks.session]
  cases found : Assoc.get? name m.session.functions with
  | none => exact .failed ⟨kept, tracks, reworks.toSpoils⟩
  | some i => exact .ended ⟨⟨kept, (tracks.known name i found).2⟩, kept, tracks, reworks⟩

/-! ## Return elements -/

lemma returnValue_congr {n n' : Node} (same : n.attrs = n'.attrs) : returnValue n = returnValue n' := by
  simp only [returnValue, given?, Node.attr?, same]

/-- The return elements of the row beside the work are evaluated in order and taken out of it. -/
lemma Standby.returned (aside : Standby table base p h k q l m s) :
    Mirrors (Abandoned table base p h)
      (Plain fun value value' m' s' => value = value' ∧ Standby table base p h k q (l.prune "return") m' s')
      (returned .none ((l.tagged "return").map Prod.fst) m)
      (Meaning.results .none ((l.tagged "return").map Prod.snd) s) := by
  obtain ⟨P, kept, tracks, reworks, new, own, fresh⟩ := aside
  have spoils : ∀ items ⊆ l.tagged "return",
      Spoils ⟨m.forest, kept⟩ ⟨m.forest.removeAll (items.map Prod.fst), kept⟩ q l := by
    intro items among
    refine own.removeAll_spoils fun x listed => ?_
    have tagged : x ∈ (l.tagged "return").map Prod.fst := map_subset _ among listed
    rw [← own.stands.filter_tag (by decide)] at tagged
    exact mem_of_mem_filter tagged
  have apart : ∀ items ⊆ l.tagged "return", ∀ x, kept x →
      (m.forest.removeAll (items.map Prod.fst)).node x = m.forest.node x := fun items among x keep =>
    (spoils items among).frame x (tracks.bounded x keep) fun here => own.free x here keep
  -- By induction on what is left: so far the elements before have been taken out, and no more.
  suffices steps : ∀ left done value m' s', done ++ left = l.tagged "return" → Tracks table kept m' s' →
      m'.forest = m.forest.removeAll (done.map Prod.fst) →
      Mirrors (Abandoned table base p h)
        (Plain fun value value' m' s' => value = value' ∧ Tracks table kept m' s' ∧
          m'.forest = m.forest.removeAll ((l.tagged "return").map Prod.fst))
        (Script.returned value (left.map Prod.fst) m') (Meaning.results value (left.map Prod.snd) s') by
    refine (steps _ [] .none m s rfl tracks rfl).weaken (fun _ _ given => given) fun value result m' s' known => ?_
    obtain ⟨value', rfl, same, tracks', forest⟩ := known.cases
    have pruned := own.prune "return"
    rw [← forest] at pruned
    refine ⟨same, P, kept, tracks', reworks, new.spoils pruned.toSpoils fresh, pruned.owns, fun x among => ?_⟩
    exact fresh x (((l.places_prune_sublist "return").cons_cons q).subset among)
  intro left
  induction left with
  | nil =>
    intro done value m' s' whole tracks' forest
    rw [append_nil] at whole
    exact .ended ⟨rfl, tracks', whole ▸ forest⟩
  | cons item rest ih =>
    intro done value m' s' whole tracks' forest
    obtain ⟨place, attrs⟩ := item
    have before : done ⊆ l.tagged "return" := by
      rw [← whole]
      exact subset_append_left _ _
    have whole' : done ++ [(place, attrs)] ++ rest = l.tagged "return" := by
      rw [append_assoc]
      exact whole
    have after : done ++ [(place, attrs)] ⊆ l.tagged "return" := by
      rw [← whole']
      exact subset_append_left _ _
    have here : (place, attrs) ∈ l.tagged "return" :=
      after (mem_append_right _ mem_cons_self)
    have header : Script.returnValue (m'.forest.node place) =
        Script.returnValue (Meaning.header "return" attrs) := by
      refine returnValue_congr ?_
      rw [forest, Forest.attrs_removeAll]
      exact own.stands.attrs_of_tagged here
    simp only [map_cons, Script.returned, Meaning.results]
    rw [run_nodeOf_bind, header]
    refine tracks'.play (Calm.returnValue _).quiet (fun m₁ s₁ tracks₁ forest₁ => ?_)
      fun value m₁ s₁ tracks₁ forest₁ => ?_
    · refine ⟨kept, tracks₁, ?_⟩
      rw [forest₁, forest]
      exact (reworks.trans ((new.spoils (spoils done before) fresh).reworks reworks.owns)).toSpoils
    · have removed : m₁.forest.remove place = m.forest.removeAll ((done ++ [(place, attrs)]).map Prod.fst) := by
        rw [forest₁, forest, map_append, Forest.removeAll_append]
        rfl
      refine ih (done ++ [(place, attrs)]) value { m₁ with forest := m₁.forest.remove place } s₁ whole'
        (tracks₁.congr (Nat.le_of_eq (Forest.size_remove _ _).symm) fun x keep => ?_) removed
      rw [removed, apart _ after x keep, forest₁, forest, apart _ before x keep]

/-! ## Calls -/

lemma inFrame_apply (closure : Bindings) (body : Run α) (m : Machine) :
    inFrame closure body m =
      always body (fun m' => m'.mapEnv fun env => { env with stack := m.session.env.stack })
        (let (_, env, store) := m.session.env.enterFrame m.store closure
        { m with store := store, session := { m.session with env := env } }) := rfl

lemma told_inFrame_apply (closure : Bindings) (body : Act α) (s : Scene) :
    Meaning.inFrame closure body s =
      Meaning.always body (fun m' => m'.mapEnv fun env => { env with stack := s.machine.session.env.stack })
        { s with
          machine :=
            let (_, env, store) := s.machine.session.env.enterFrame s.machine.store closure
            { s.machine with store := store, session := { s.machine.session with env := env } } } := rfl

/-- What is known when the body of a function has run: a row beside the work and a value, or a
signal. -/
def Answered (table : Assoc Handler) (base : Plot) (p : NodeId) (h k : Hedge NodeId) :
    NodeId × Except Signal Value → Except Signal (Trees × Value) → Machine → Scene → Prop
  | (q, .ok value), .ok (shown, value'), m, s =>
    value = value' ∧ ∃ l, l.shape = shown ∧ Standby table base p h k q l m s
  | (_, .error signal), .error signal', m, s => signal = signal' ∧ Working table base p h k m s
  | _, _, _, _ => False

variable {a : NodeId × Except Signal Value} {b : Except Signal (Trees × Value)}

lemma Answered.cases (answered : Answered table base p h k a b m s) :
    (∃ q l value, a = (q, .ok value) ∧ b = .ok (l.shape, value) ∧ Standby table base p h k q l m s) ∨
      ∃ q signal, a = (q, .error signal) ∧ b = .error signal ∧ Working table base p h k m s := by
  obtain ⟨q, answer⟩ := a
  cases answer with
  | ok value =>
    cases b with
    | error signal => exact answered.elim
    | ok b =>
      obtain ⟨shown, value'⟩ := b
      obtain ⟨rfl, l, rfl, aside⟩ := answered
      exact .inl ⟨q, l, _, rfl, rfl, aside⟩
  | error signal =>
    cases b with
    | error signal' => exact .inr ⟨q, signal, rfl, answered.1 ▸ rfl, answered.2⟩
    | ok b => exact answered.elim

lemma Answered.change {g : Machine → Machine} (answered : Answered table base p h k a b m s)
    (quiet : Quiet (modify g : Run PUnit)) :
    Answered table base p h k a b (g m) { s with machine := g s.machine } := by
  obtain ⟨q, l, value, rfl, rfl, aside⟩ | ⟨q, signal, rfl, rfl, work⟩ := answered.cases
  · exact ⟨rfl, l, rfl, aside.change quiet⟩
  · exact ⟨rfl, (work.change quiet).1⟩

section Walk

variable {walk : Walk} {told : Trees → Act Trees} {f : Function} {d : Definition}

lemma Faithful.runBody (faithful : Faithful table walk told) (holds : Holds m.forest f.body l)
    (covered : l.AllTags (Covered table)) (work : Working table base p h k m s) :
    Mirrors (Abandoned table base p h) (Answered table base p h k)
      ((do
        let body ← cloneTree f.body
        match ← walk body with
        | some signal => return (body, .error signal)
        | none => return (body, .ok (← returned .none (← askForest (·.findAll body "return")))) :
          Run (NodeId × Except Signal Value)) m)
      ((do
        let shown ← told l.shape
        let value ← Meaning.results .none ((shown.tagged "return").map Prod.snd)
        return (shown.prune "return", value) : Act (Trees × Value)) s) := by
  obtain ⟨copy, g, cloned, shape, covers, aside⟩ := work.cloneTree holds
  have body := aside.walk faithful (covers covered)
  rw [shape] at body
  rw [run_bind, cloned, act_bind]
  simp only []
  rw [run_bind]
  generalize walk m.forest.nodes.size { m with forest := g } = x at body
  generalize told l.shape s = y at body
  cases body with
  | failed known => exact .failed known.abandon
  | @ended _ _ m₁ s₁ known =>
    obtain ⟨_, rfl, rfl, left, rfl, aside⟩ | ⟨signal, rfl, rfl, work⟩ := known.cases
    · obtain ⟨kept, _, own⟩ := aside.owns
      have listed : m₁.forest.findAll m.forest.nodes.size "return" = (left.tagged "return").map Prod.fst :=
        own.toHolds.findAll (by decide) (by decide)
      simp only []
      rw [run_askForest_bind, listed, Hedge.tagged_shape]
      refine aside.returned.bind fun value value' m₂ s₂ known => ?_
      exact .ended ⟨known.1, left.prune "return", Hedge.prune_shape _ _, known.2⟩
    · exact .ended ⟨rfl, work⟩

lemma Faithful.applyFunction (faithful : Faithful table walk told) {kept : NodeId → Prop}
    (realises : Realises table ⟨m.forest, kept⟩ f d) (args : List Value)
    (work : Working table base p h k m s) :
    Mirrors (Abandoned table base p h) (Answered table base p h k) (applyFunction walk f args m)
      (Meaning.apply told d args s) := by
  obtain ⟨l, holds, shape, _⟩ := realises.body
  have covered : l.AllTags (Covered table) := by
    rw [← Hedge.allTags_shape, shape]
    exact realises.covered
  have entering : Quiet (modify fun m : Machine =>
      let (_, env, store) := m.session.env.enterFrame m.store d.closure
      { m with store := store, session := { m.session with env := env } } : Run PUnit) :=
    Quiet.change (fun _ _ => rfl) fun _ => rfl
  have leaving := Quiet.changeEnv fun env => { env with stack := m.session.env.stack }
  have stack : s.machine.session.env.stack = m.session.env.stack := by
    obtain ⟨_, tracks, _⟩ := work
    rw [tracks.session]
  obtain ⟨entered, forest⟩ := work.change entering
  unfold Script.applyFunction frameBody Meaning.apply
  rw [inFrame_apply, told_inFrame_apply, realises.closure, realises.params, stack]
  refine Mirrors.always (?_ : Mirrors (Abandoned table base p h) (Answered table base p h k) _ _)
    (fun m' s' given => given.change leaving) fun a b m' s' known => known.change leaving
  refine entered.play (Calm.forM fun _ => Calm.bindName _ _).quiet fun _ m₁ s₁ work forest₁ => ?_
  rw [← shape]
  refine faithful.runBody ?_ covered work
  rw [forest₁]
  exact holds

lemma Standby.replaceWith
    (aside : Standby table base p h (front ++ .element id tag attrs kids back) q l m s) :
    Working table base p h (front ++ l ++ back)
      { m with forest := m.forest.replaceWith id (m.forest.node q).childList } s := by
  obtain ⟨P, kept, tracks, reworks, new, own, fresh⟩ := aside
  have before := reworks.owns
  rw [own.children]
  refine ⟨kept, tracks.congr (Nat.le_of_eq (Forest.size_replaceWith _ _ _).symm) fun x keep => ?_,
    reworks.trans (before.replaceWith new own.toHolds fresh fun x among => own.free x (List.mem_cons_of_mem _ among))⟩
  have old : ∀ y ∈ p :: (front ++ .element id tag attrs kids back).places, x ≠ y := by
    rintro y among rfl
    exact new.not_kept (before.lt_size among) (before.free x among) keep
  have root : x ∉ l.roots := fun root =>
    own.free x (List.mem_cons_of_mem _ (l.roots_sublist.subset root)) keep
  have holder : x ≠ q := by
    rintro rfl
    exact own.free x List.mem_cons_self keep
  have replaced := before.node_replaceWith new own.toHolds fresh x
  rwa [if_neg root, if_neg (old p List.mem_cons_self),
    if_neg (old id (List.mem_cons_of_mem _ (Hedge.mem_row_of_inner List.mem_cons_self))), if_neg holder] at replaced

lemma Faithful.call (faithful : Faithful table walk told)
    (work : Working table base p h (front ++ .element id tag attrs kids back) m s) :
    Renders table base p h front back (runCall walk id m) (Meaning.call told (Meaning.header tag attrs) s) := by
  unfold runCall runCallBy Meaning.call
  have given := work.given_eq "var"
  rw [run_nodeOf_bind, work.required_eq, work.attr_eq]
  refine work.play (Calm.required _ _).quiet fun name m₁ s₁ work _ => ?_
  refine (work.functionNamed name).bind fun f d m₂ s₂ known => ?_
  obtain ⟨⟨kept, realises⟩, work⟩ := known
  refine work.play (Calm.arguments _).quiet fun args m₃ s₃ work forest => ?_
  rw [← forest] at realises
  rw [realises.params]
  by_cases fits : args.length ≠ d.params.length
  · simp only [if_pos fits]
    exact .failed work.abandon
  · simp only [if_neg fits]
    have applied := faithful.applyFunction realises args work
    rw [run_bind, act_bind]
    generalize Script.applyFunction walk f args m₃ = x at applied
    generalize Meaning.apply told d args s₃ = y at applied
    cases applied with
    | failed known => exact .failed known
    | ended known =>
      obtain ⟨q, l, value, rfl, rfl, aside⟩ | ⟨q, signal, rfl, rfl, work⟩ := known.cases
      · simp only [concludeCall, given]
        cases given? (Meaning.header tag attrs) "var" with
        | some var =>
          refine aside.working.play (Calm.bindName var value).quiet fun _ m₅ s₅ work _ => ?_
          exact .ended work.removed
        | none => exact .ended (Rendered.alone l rfl aside.replaceWith)
      · exact .ended ⟨rfl, work.abandon⟩

end Walk

end TagScript.Script
