import TagScript.Proofs.Script.Rendering

/-!
# Copies, and loops over copies

Whatever comes of a copy that is run beside a row, the row is as it was, until what the copy shows
is moved into it. A loop makes a copy for every round.
-/

namespace TagScript.Script

open Markup List

variable {table : Assoc Handler} {base P : Plot} {p q id : NodeId} {h k l kids front back : Hedge NodeId}
  {tag : String} {attrs : Assoc String} {m : Machine} {s : Scene} {α β : Type}

/-- Beside the work on a row another row has been made. -/
def Standby (table : Assoc Handler) (base : Plot) (p : NodeId) (h k : Hedge NodeId) (q : NodeId)
    (l : Hedge NodeId) (m : Machine) (s : Scene) : Prop :=
  ∃ P kept, Tracks table kept m s ∧ Reworks base P p h k ∧ Extends P ⟨m.forest, kept⟩ ∧
    Owns ⟨m.forest, kept⟩ q l ∧ ∀ x ∈ q :: l.places, P.nodes.size ≤ x

namespace Standby

lemma working (aside : Standby table base p h k q l m s) : Working table base p h k m s := by
  obtain ⟨P, kept, tracks, reworks, new, _, _⟩ := aside
  exact ⟨kept, tracks, reworks.trans (new.reworks reworks.owns)⟩

lemma owns (aside : Standby table base p h k q l m s) : ∃ kept, Tracks table kept m s ∧ Owns ⟨m.forest, kept⟩ q l := by
  obtain ⟨P, kept, tracks, _, _, own, _⟩ := aside
  exact ⟨kept, tracks, own⟩

lemma change {g : Machine → Machine} (aside : Standby table base p h k q l m s)
    (quiet : Quiet (modify g : Run PUnit)) :
    Standby table base p h k q l (g m) { s with machine := g s.machine } := by
  obtain ⟨P, kept, tracks, reworks, new, own, fresh⟩ := aside
  obtain ⟨tracks, forest⟩ := tracks.change quiet
  exact ⟨P, kept, tracks, reworks, forest ▸ new, forest ▸ own, fresh⟩

lemma walk {walk : Walk} {told : Trees → Act Trees} (faithful : Faithful table walk told)
    (covered : l.AllTags (Covered table)) (aside : Standby table base p h k q l m s) :
    Mirrors (Working table base p h k)
      (Signals (Working table base p h k) fun shown m' s' =>
        ∃ l', l'.shape = shown ∧ Standby table base p h k q l' m' s')
      (walk q m) (told l.shape s) := by
  obtain ⟨P, kept, tracks, reworks, new, own, fresh⟩ := aside
  have intact : ∀ m' s', Abandoned table ⟨m.forest, kept⟩ q l m' s' → Working table base p h k m' s' := by
    rintro m' s' ⟨kept', tracks', spoils⟩
    exact ⟨kept', tracks', reworks.trans ((new.spoils spoils fresh).reworks reworks.owns)⟩
  refine (faithful kept m s q l tracks own covered).weaken intact fun signal shown m' s' known => ?_
  refine known.imp (intact m' s') fun shown found => ?_
  obtain ⟨l', shape, kept', tracks', work⟩ := found
  refine ⟨l', shape, P, kept', tracks', reworks, new.spoils work.toSpoils fresh, work.owns, ?_⟩
  intro x among
  rcases List.mem_cons.mp among with rfl | below
  · exact fresh x mem_cons_self
  · rcases work.origin x below with earlier | later
    · exact fresh x (mem_cons_of_mem _ earlier)
    · exact Nat.le_trans new.grows later

end Standby

lemma Working.cloneTree {t : NodeId} (work : Working table base p h k m s) (holds : Holds m.forest t l) :
    ∃ l' g, cloneTree t m = (.ok m.forest.nodes.size, { m with forest := g }) ∧ l'.shape = l.shape ∧
      (l.AllTags (Covered table) → l'.AllTags (Covered table)) ∧
      Standby table base p h k m.forest.nodes.size l' { m with forest := g } s := by
  obtain ⟨kept, tracks, reworks⟩ := work
  obtain ⟨l', g, cloned, copied, copy⟩ := holds.clone
  have grows : m.forest.nodes.size ≤ g.nodes.size := Nat.le_of_lt copy.inside
  have fresh : ∀ x ∈ m.forest.nodes.size :: l'.places, m.forest.nodes.size ≤ x := by
    intro x among
    rw [copied.places, ← range'_succ, mem_range'_1] at among
    exact among.1
  have free : ∀ x ∈ m.forest.nodes.size :: l'.places, ¬ kept x := fun x among keep =>
    Nat.not_lt.mpr (fresh x among) (tracks.bounded x keep)
  have root : Climbs g m.forest.nodes.size [] := by
    show (g.node m.forest.nodes.size).parent = none
    rw [copied.root]
    rfl
  refine ⟨l', g, ?_, copied.shape, fun covered => ?_, ⟨m.forest, kept⟩, kept,
    tracks.congr grows fun x keep => copied.same x (tracks.bounded x keep), reworks, ?_, ?_, fresh⟩
  · show (Except.ok (m.forest.clone t).1, { m with forest := (m.forest.clone t).2 }) = _
    rw [cloned]
  · rwa [← Hedge.allTags_shape, copied.shape, Hedge.allTags_shape]
  · exact ⟨grows, copied.same, fun _ keep => keep, fun _ keep => Or.inl keep⟩
  · exact ⟨copy, free, [], root, nofun⟩

/-! ## Moving what a copy shows -/

lemma appendAll_apply {path nodes : List NodeId} (climbs : Climbs m.forest id path)
    (apart : ∀ x ∈ nodes, x ∉ id :: path) :
    appendAll id nodes m = (.ok ⟨⟩, { m with forest := nodes.foldl (·.moveLast id) m.forest }) := by
  induction nodes generalizing m with
  | nil => rfl
  | cons child rest ih =>
    have outside : child ∉ id :: path := apart child mem_cons_self
    have within : m.forest.isWithin id child = false := by
      have absent : child ∉ m.forest.ancestors m.forest.bound id :=
        fun above => outside (climbs.ancestors_subset _ above)
      simpa [Forest.isWithin] using absent
    have climbing : Climbs (m.forest.moveLast id child) id path := by
      refine climbs.congr fun x above => Forest.parent_put_of_ne _ id (·.push child) ?_
      rintro rfl
      exact outside above
    have later := ih (m := { m with forest := m.forest.moveLast id child }) climbing
      fun x among => apart x (mem_cons_of_mem _ among)
    rw [foldl_cons, ← later]
    unfold Script.appendAll
    rw [forM_eq_forM, forM_cons, bind_assoc, run_askForest_bind, within]
    rfl

lemma Standby.appendAll (aside : Standby table base id h k q l m s) :
    ∃ g, appendAll id (m.forest.node q).childList m = (.ok ⟨⟩, { m with forest := g }) ∧
      Working table base id h (k ++ l) { m with forest := g } s := by
  obtain ⟨P, kept, tracks, reworks, new, own, fresh⟩ := aside
  have before := reworks.owns
  have below : ∀ x ∈ l.roots, x ∈ q :: l.places :=
    fun x root => mem_cons_of_mem _ (l.roots_sublist.subset root)
  have old : ∀ x < P.nodes.size, x ∉ q :: l.places :=
    fun x old among => Nat.not_lt.mpr (fresh x among) old
  obtain ⟨path, climbs, outside⟩ := before.path
  have above : ∀ x ∈ id :: path, x < P.nodes.size := by
    intro x among
    rcases List.mem_cons.mp among with rfl | higher
    · exact before.inside
    · exact (outside x higher).1
  have climbing : Climbs m.forest id path := climbs.congr fun x among => by rw [new.same x (above x among)]
  have free : ∀ x, kept x → x ∉ l.roots ∧ x ≠ id ∧ x ≠ q := by
    intro x keep
    refine ⟨fun root => own.free x (below x root) keep, ?_, ?_⟩
    · rintro rfl
      exact new.not_kept before.inside (before.free x mem_cons_self) keep
    · rintro rfl
      exact own.free x mem_cons_self keep
  refine ⟨l.roots.foldl (·.moveLast id) m.forest, ?_, kept, tracks.congr ?_ fun x keep => ?_, ?_⟩
  · rw [own.children]
    exact appendAll_apply climbing fun x root among => old x (above x among) (below x root)
  · exact Nat.le_of_eq (Forest.size_moveAll _ _ _).symm
  · obtain ⟨root, itself, holder⟩ := free x keep
    have moved := before.node_append new own.toHolds fresh x
    rwa [if_neg root, if_neg itself, if_neg holder] at moved
  · exact reworks.trans (before.append new own.toHolds fresh fun x among => own.free x (mem_cons_of_mem _ among))

/-! ## Loops -/

section Rounds

variable {walk : Walk} {told : Trees → Act Trees} {template : NodeId}

def Rounded (table : Assoc Handler) (base : Plot) (id : NodeId) (h k : Hedge NodeId) (goesOn : Bool) :
    Option Trees → Machine → Scene → Prop
  | none, m, s => goesOn = false ∧ Working table base id h k m s
  | some shown, m, s => goesOn = true ∧ ∃ l, l.shape = shown ∧ Working table base id h (k ++ l) m s

lemma Faithful.oneRound (faithful : Faithful table walk told) (covered : l.AllTags (Covered table))
    (step : Option String) (holds : Holds m.forest template l) (work : Working table base id h k m s) :
    Mirrors (Abandoned table base id h) (Plain (Rounded table base id h k))
      (oneRound walk id template step m) (Meaning.oneRound (told l.shape) step s) := by
  obtain ⟨l', g, cloned, shape, covers, aside⟩ := work.cloneTree holds
  have stepped : ∀ {k' : Hedge NodeId} {m' : Machine} {s' : Scene} (shown : Hedge NodeId), k' = k ++ shown →
      Working table base id h k' m' s' →
      Mirrors (Abandoned table base id h) (Plain (Rounded table base id h k))
        ((do
          step.forM fun text => do
            let _ ← runStatement text
          return true : Run Bool) m')
        ((do
          Meaning.play (step.forM fun text => do
            let _ ← runStatement text)
          return some shown.shape : Act (Option Trees)) s') := by
    rintro k' m' s' shown rfl work
    refine work.play (Calm.statement step).quiet fun _ m'' s'' work _ => ?_
    exact .ended ⟨rfl, shown, rfl, work⟩
  have body := aside.walk faithful (covers covered)
  rw [shape] at body
  unfold Script.oneRound Meaning.oneRound
  rw [run_bind, cloned, act_bind]
  simp only [Meaning.signalled]
  rw [run_bind]
  generalize walk m.forest.nodes.size { m with forest := g } = x at body
  generalize told l.shape s = y at body
  cases body with
  | failed known => exact .failed known.abandon
  | @ended _ _ m₁ s₁ known =>
    obtain ⟨_, rfl, rfl, l'', rfl, aside⟩ | ⟨signal, rfl, rfl, work⟩ := known.cases
    · obtain ⟨g', appended, work⟩ := aside.appendAll
      have shows := stepped l'' rfl work
      show Mirrors _ _ ((appendAll id (m₁.forest.node m.forest.nodes.size).childList >>= _) m₁) _
      rw [run_bind, appended]
      exact shows
    · cases signal with
      | breakOut => exact .ended ⟨rfl, work⟩
      | goOn => exact stepped .nil (Hedge.append_nil k).symm work

lemma Working.still (work : Working table base id h k m s) (holds : Holds base.toForest q l)
    (apart : ∀ x ∈ q :: l.places, x ∉ id :: h.places) : Holds m.forest q l := by
  obtain ⟨kept, _, reworks⟩ := work
  exact holds.congr reworks.grows fun x among => reworks.frame x (holds.lt_size among) (apart x among)

lemma Faithful.goRound (faithful : Faithful table walk told) (covered : l.AllTags (Covered table))
    (holds : Holds base.toForest template l) (apart : ∀ x ∈ template :: l.places, x ∉ id :: h.places)
    (condition : String) (step : Option String) (limit : Option Nat) (rounds : Nat)
    (work : Working table base id h k m s) :
    Mirrors (Abandoned table base id h)
      (Plain fun _ shown m' s' => ∃ l', l'.shape = shown ∧ Working table base id h (k ++ l') m' s')
      (goRound walk id template condition step limit rounds m)
      (Meaning.rounds (told l.shape) condition step limit rounds s) := by
  have ends : ∀ {k : Hedge NodeId} {m' : Machine} {s' : Scene}, Working table base id h k m' s' →
      ∃ l' : Hedge NodeId, l'.shape = .nil ∧ Working table base id h (k ++ l') m' s' := by
    intro k m' s' work
    exact ⟨.nil, rfl, (Hedge.append_nil k).symm ▸ work⟩
  induction rounds generalizing k m s with
  | zero =>
    rw [Meaning.rounds, Meaning.holds_eq]
    refine work.play (Calm.holds condition).quiet fun holds m₁ s₁ work _ => ?_
    cases holds with
    | true => exact .failed work.abandon
    | false => exact .ended (ends work)
  | succ rounds ih =>
    rw [Meaning.rounds, Meaning.holds_eq]
    refine work.play (Calm.holds condition).quiet fun goes m₁ s₁ work _ => ?_
    cases goes with
    | false => exact .ended (ends work)
    | true =>
      refine (faithful.oneRound covered step (work.still holds apart) work).bind fun goesOn outcome m₂ s₂ known => ?_
      cases outcome with
      | none =>
        obtain ⟨rfl, work⟩ := known
        exact .ended (ends work)
      | some shown =>
        obtain ⟨rfl, l₁, rfl, work⟩ := known
        show Mirrors _ _ (Script.goRound walk id template condition step limit rounds m₂) _
        rw [← bind_pure (Script.goRound walk id template condition step limit rounds)]
        refine (ih work).bind fun _ more m₃ s₃ found => ?_
        obtain ⟨l₂, rfl, work⟩ := found
        refine .ended ⟨l₁ ++ l₂, Hedge.shape_append _ _, ?_⟩
        rwa [Hedge.append_assoc] at work

lemma Faithful.runRounds (faithful : Faithful table walk told) (covered : kids.AllTags (Covered table))
    (condition : String) (step : Option String)
    (work : Working table base p h (front ++ .element id tag attrs kids back) m s) :
    Renders table base p h front back (withoutSignal (runRounds walk id condition step) m)
      (Meaning.loop (told kids.shape) condition step s) := by
  obtain ⟨kept, tracks, reworks⟩ := work
  have own := reworks.owns
  have inner : Working table ⟨m.forest, kept⟩ id kids kids m s := ⟨kept, tracks, Reworks.refl own.inner⟩
  obtain ⟨l, g, cloned, shape, covers, Q, kept', tracks', between, new, copy, fresh⟩ :=
    inner.cloneTree own.inner.toHolds
  have still : Reworks ⟨m.forest, kept⟩ ⟨g, kept'⟩ id kids kids := between.trans (new.reworks between.owns)
  have outer : Reworks base ⟨g, kept'⟩ p h (front ++ .element id tag attrs kids back) :=
    reworks.trans (own.rework_inner still)
  have apart : ∀ x ∈ m.forest.nodes.size :: l.places, x ∉ id :: kids.places := fun x among here =>
    Nat.not_lt.mpr (Nat.le_trans between.grows (fresh x among)) (own.inner.lt_size here)
  have cleared : Working table ⟨g, kept'⟩ id kids .nil { m with forest := g.clearChildren id } s := by
    have whole : Working table ⟨g, kept'⟩ id kids kids { m with forest := g } s :=
      ⟨kept', tracks', Reworks.refl still.owns⟩
    exact whole.rework fun kept own _ => own.clearChildren
  have rounds := (faithful.goRound (covers covered) copy.toHolds apart condition step m.settings.loopLimit
    (m.settings.loopLimit.getD unlimitedRounds) cleared).weaken (fun m s given => given.outer outer)
    fun _ _ _ _ known => known
  unfold withoutSignal Script.runRounds Meaning.loop
  simp only [bind_assoc]
  rw [run_bind, cloned]
  show Mirrors _ _ ((Script.goRound walk id m.forest.nodes.size condition step m.settings.loopLimit
      (m.settings.loopLimit.getD unlimitedRounds) >>= fun _ => unwrapNode id >>= fun _ => pure none)
    { m with forest := g.clearChildren id })
    ((Meaning.rounds (told kids.shape) condition step s.machine.settings.loopLimit
      (s.machine.settings.loopLimit.getD unlimitedRounds) >>= fun shown => pure (⟨shown, none⟩ : Shown)) s)
  rw [tracks.settings, ← shape]
  refine rounds.bind fun _ shown m₁ s₁ found => ?_
  obtain ⟨l', rfl, work⟩ := found
  exact .ended (Rendered.alone l' rfl (work.outer outer).unwrap.1)

section

variable (work : Working table base p h (front ++ .element id tag attrs kids back) m s) (name : String)
include work name

lemma Working.given_eq : given? (m.forest.node id) name = given? (Meaning.header tag attrs) name := by
  rw [work.header_eq]
  rfl

lemma Working.attr_eq : (m.forest.node id).attr? name = (Meaning.header tag attrs).attr? name := by
  rw [work.header_eq]
  rfl

end

variable (faithful : Faithful table walk told) (covered : kids.AllTags (Covered table))
  (work : Working table base p h (front ++ .element id tag attrs kids back) m s)
include faithful covered work

lemma Faithful.countedLoop : Renders table base p h front back (withoutSignal (runCountedLoop walk id) m)
      (Meaning.countedLoop told (Meaning.header tag attrs) kids.shape s) := by
  unfold withoutSignal runCountedLoop Meaning.countedLoop
  simp only [bind_assoc]
  rw [run_nodeOf_bind, work.required_eq, work.attr_eq, work.given_eq]
  refine work.play (Calm.required _ _).quiet fun condition m₁ s₁ work _ => ?_
  refine work.play (Calm.statement _).quiet fun _ m₂ s₂ work _ => ?_
  exact faithful.runRounds covered condition _ work

lemma Faithful.plainLoop : Renders table base p h front back (withoutSignal (runLoop walk id) m)
      (Meaning.plainLoop told (Meaning.header tag attrs) kids.shape s) := by
  unfold withoutSignal runLoop Meaning.plainLoop
  simp only [bind_assoc]
  rw [run_nodeOf_bind, work.required_eq]
  refine work.play (Calm.required _ _).quiet fun condition m₁ s₁ work _ => ?_
  exact faithful.runRounds covered condition none work

end Rounds

end TagScript.Script
