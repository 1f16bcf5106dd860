import Mathlib.Logic.Relation
import TagScript.Proofs.Markup.Links
import TagScript.Proofs.Markup.Rework

/-!
# Forests without circles

As long as no node is put into one that it holds, whatever goes up or down a tree ends. Putting a
node behind the children of another checks this; putting nodes among the children or in the place of
another does not.
-/

namespace TagScript.Markup

open List

open Relation (ReflTransGen TransGen)

variable {f g : Forest} {id child p x y : NodeId} {path : List NodeId}

/-- An operation puts no node into one that it holds. -/
def Action.Safe (f : Forest) : Action → Prop
  | .insertAt id _ nodes => ∀ x ∈ nodes, f.isWithin id x = false
  | .replaceWith id nodes => ∀ p, (f.node id).parent = some p → ∀ x ∈ nodes, x ≠ id → f.isWithin p x = false
  | _ => True

namespace Forest

/-- A node is right above another. -/
def Up (f : Forest) (x y : NodeId) : Prop := (f.node x).parent = some y

/-- The way up from a node ends. -/
def Rooted (f : Forest) : Prop := ∀ x, ∃ path, Climbs f x path

/-- No node is its own ancestor. -/
def Acyclic (f : Forest) : Prop := ∀ x, ¬ TransGen f.Up x x

/-! ## Ways up -/

lemma climbs_of_transGen (climbs : Climbs f x path) (above : TransGen f.Up x y) :
    ∃ rest, Climbs f y rest ∧ rest.length < path.length := by
  have one : ∀ {x y path}, Climbs f x path → f.Up x y → ∃ rest, Climbs f y rest ∧ rest.length < path.length := by
    intro x y path climbs up
    cases path with
    | nil =>
      rw [Up, show (f.node x).parent = none from climbs] at up
      cases up
    | cons above rest =>
      obtain ⟨first, further⟩ := climbs
      rw [Up, first] at up
      cases up
      exact ⟨rest, further, Nat.lt_succ_self _⟩
  induction above with
  | single up => exact one climbs up
  | tail _ up ih =>
    obtain ⟨rest, further, shorter⟩ := ih
    obtain ⟨last, end_, less⟩ := one further up
    exact ⟨last, end_, Nat.lt_trans less shorter⟩

lemma Climbs.unique {other : List NodeId} (climbs : Climbs f x path) (also_ : Climbs f x other) : path = other := by
  induction path generalizing x other with
  | nil =>
    cases other with
    | nil => rfl
    | cons above rest =>
      have root : (f.node x).parent = none := climbs
      rw [also_.1] at root
      cases root
  | cons above rest ih =>
    cases other with
    | nil =>
      have root : (f.node x).parent = none := also_
      rw [climbs.1] at root
      cases root
    | cons above' rest' =>
      have same := climbs.1.symm.trans also_.1
      cases same
      rw [ih climbs.2 also_.2]

lemma Rooted.acyclic (rooted : f.Rooted) : f.Acyclic := by
  intro x circle
  obtain ⟨path, climbs⟩ := rooted x
  obtain ⟨rest, again, shorter⟩ := climbs_of_transGen climbs circle
  rw [Climbs.unique climbs again] at shorter
  exact Nat.lt_irrefl _ shorter

lemma transGen_of_mem (climbs : Climbs f x path) (mem : y ∈ path) : TransGen f.Up x y := by
  induction path generalizing x with
  | nil => cases mem
  | cons above rest ih =>
    rcases mem_cons.mp mem with rfl | further
    · exact .single climbs.1
    · exact .head climbs.1 (ih climbs.2 further)

lemma Rooted.nodup (rooted : f.Rooted) (climbs : Climbs f x path) : (x :: path).Nodup := by
  induction path generalizing x with
  | nil => exact nodup_singleton x
  | cons above rest ih =>
    exact nodup_cons.mpr ⟨fun mem => rooted.acyclic x (transGen_of_mem climbs mem), ih climbs.2⟩

lemma Linked.path_lt (linked : f.Linked) (climbs : Climbs f x path) (mem : y ∈ path) : y < f.nodes.size := by
  induction path generalizing x with
  | nil => cases mem
  | cons above rest ih =>
    rcases mem_cons.mp mem with rfl | further
    · exact linked.parent_lt climbs.1
    · exact ih climbs.2 further

lemma Rooted.length_lt (rooted : f.Rooted) (linked : f.Linked) (climbs : Climbs f x path)
    (inside : x < f.nodes.size) : path.length < f.nodes.size := by
  have among : (x :: path) ⊆ List.range f.nodes.size := by
    intro y mem
    rcases mem_cons.mp mem with rfl | above
    · exact mem_range.mpr inside
    · exact mem_range.mpr (linked.path_lt climbs above)
  have few := ((rooted.nodup climbs).subperm among).length_le
  rw [length_cons, length_range] at few
  exact few

lemma ancestors_eq (climbs : Climbs f x path) {steps : Nat} (enough : path.length < steps) :
    f.ancestors steps x = x :: path := by
  induction path generalizing x steps with
  | nil =>
    obtain ⟨steps, rfl⟩ := Nat.exists_eq_add_one_of_ne_zero (Nat.ne_of_gt enough)
    rw [ancestors, show (f.node x).parent = none from climbs]
    rfl
  | cons above rest ih =>
    obtain ⟨steps, rfl⟩ := Nat.exists_eq_add_one_of_ne_zero (Nat.ne_of_gt (Nat.zero_lt_of_lt enough))
    rw [ancestors, climbs.1, Option.elim_some, ih climbs.2 (Nat.lt_of_succ_lt_succ enough)]

lemma Rooted.ancestors_bound (rooted : f.Rooted) (linked : f.Linked) (climbs : Climbs f x path) {steps : Nat}
    (enough : f.bound ≤ steps) : f.ancestors steps x = x :: path := by
  refine ancestors_eq climbs (Nat.lt_of_lt_of_le ?_ enough)
  by_cases inside : x < f.nodes.size
  · exact Nat.lt_succ_of_lt (rooted.length_lt linked climbs inside)
  · cases path with
    | nil => exact Nat.succ_pos _
    | cons above rest => exact absurd (lt_size_of_parent climbs.1) inside

lemma mem_of_reflTransGen (climbs : Climbs f x path) (above : ReflTransGen f.Up x y) : y ∈ x :: path := by
  induction path generalizing x with
  | nil =>
    rcases above.cases_head with rfl | ⟨next, up, _⟩
    · exact mem_cons_self
    · rw [Up, show (f.node x).parent = none from climbs] at up
      cases up
  | cons first rest ih =>
    rcases above.cases_head with rfl | ⟨next, up, further⟩
    · exact mem_cons_self
    · rw [Up, climbs.1] at up
      cases up
      exact mem_cons_of_mem _ (ih climbs.2 further)

lemma Rooted.isWithin_iff (rooted : f.Rooted) (linked : f.Linked) : f.isWithin x y = true ↔ ReflTransGen f.Up x y := by
  obtain ⟨path, climbs⟩ := rooted x
  rw [isWithin, rooted.ancestors_bound linked climbs (Nat.le_refl _), List.contains_iff_mem]
  constructor
  · intro mem
    rcases List.mem_cons.mp mem with rfl | above
    · exact .refl
    · exact (transGen_of_mem climbs above).to_reflTransGen
  · exact mem_of_reflTransGen climbs

lemma Rooted.parent_root (rooted : f.Rooted) (linked : f.Linked) (x : NodeId) : (f.node (f.root x)).parent = none := by
  obtain ⟨path, climbs⟩ := rooted x
  rw [root, rooted.ancestors_bound linked climbs (Nat.le_refl _)]
  induction path generalizing x with
  | nil => exact climbs
  | cons above rest ih =>
    have further := ih above climbs.2
    rwa [List.getLastD_cons]

/-! ## Ways down -/

/-- A property of nodes that follows, with one step more, from that of their children holds with as
many steps as there are nodes. -/
lemma Rooted.descend (rooted : f.Rooted) (linked : f.Linked) {P : Nat → NodeId → Prop}
    (inner : ∀ n x, (∀ c ∈ (f.node x).childList, P n c) → P (n + 1) x) (x : NodeId) : P f.bound x := by
  -- `left` is how many nodes may still lie below one that has come `path.length` steps down
  have below : ∀ (left : Nat) {x : NodeId} {path : List NodeId}, Climbs f x path → f.nodes.size ≤ path.length + left →
      P (left + 1) x := by
    intro left
    induction left with
    | zero =>
      intro x path climbs low
      refine inner 0 x fun c mem => ?_
      have climbs : Climbs f c (x :: path) := ⟨linked.mem_iff.mp mem, climbs⟩
      have short := rooted.length_lt linked climbs (linked.child_lt mem)
      rw [length_cons] at short
      omega
    | succ left ih =>
      intro x path climbs low
      refine inner _ x fun c mem => ?_
      have climbs : Climbs f c (x :: path) := ⟨linked.mem_iff.mp mem, climbs⟩
      exact ih climbs (by rw [length_cons]; omega)
  obtain ⟨path, climbs⟩ := rooted x
  exact below f.nodes.size climbs (Nat.le_add_left _ _)

lemma Rooted.isEndless_eq_false (rooted : f.Rooted) (linked : f.Linked) (x : NodeId) : f.isEndless x = false := by
  refine rooted.descend linked (P := fun n x => f.deeper n x = false) (fun n x none => ?_) x
  rw [deeper, any_eq_false]
  exact fun c mem => Bool.not_eq_true _ ▸ none c mem

lemma Rooted.ends (rooted : f.Rooted) (linked : f.Linked) (x : NodeId) : f.Ends f.bound x :=
  linked.ends (rooted.isEndless_eq_false linked x)

variable {depth : Nat}

lemma Rooted.below_eq (rooted : f.Rooted) (linked : f.Linked) (x : NodeId)
    (enough : f.bound ≤ depth) : f.below depth x = f.descendants x := by
  refine (rooted.ends linked x).steady (fun n m x same => ?_) enough
  refine congrArg List.flatten (map_congr_left fun c mem => ?_)
  rw [same c mem]

lemma Rooted.textBelow_eq (rooted : f.Rooted) (linked : f.Linked) (x : NodeId)
    (enough : f.bound ≤ depth) : f.textBelow depth x = f.textContent x := by
  refine (rooted.ends linked x).steady (fun n m x same => ?_) enough
  simp only [textBelow]
  rw [map_congr_left same]

lemma Rooted.markupBelow_eq (rooted : f.Rooted) (linked : f.Linked) (x : NodeId)
    (enough : f.bound ≤ depth) : f.markupBelow depth x = f.markup x := by
  refine (rooted.ends linked x).steady (fun n m x same => ?_) enough
  simp only [markupBelow]
  rw [map_congr_left same]

/-! ## Links cut and made -/

/-- Some nodes are put under another one, and others are taken out. -/
def Moves (f : Forest) (p : NodeId) (nodes taken : List NodeId) (g : Forest) : Prop :=
  ∀ x, (g.node x).parent = if x ∈ nodes then some p else if x ∈ taken then none else (f.node x).parent

variable {nodes taken : List NodeId}

lemma Moves.rooted (moves : f.Moves p nodes taken g) (rooted : f.Rooted)
    (apart : ∀ x ∈ nodes, ¬ ReflTransGen f.Up p x) : g.Rooted := by
  -- the way up is as it was until it ends, or comes to a node that was put under another one
  have climb : ∀ path x, Climbs f x path → (∀ y ∈ x :: path, y ∈ nodes → ∃ way, Climbs g y way) →
      ∃ way, Climbs g x way := by
    intro path
    induction path with
    | nil =>
      intro x climbs put
      by_cases among : x ∈ nodes
      · exact put x mem_cons_self among
      · refine ⟨[], ?_⟩
        rw [Climbs, moves x, if_neg among]
        split
        · rfl
        · exact climbs
    | cons above rest ih =>
      intro x climbs put
      by_cases among : x ∈ nodes
      · exact put x mem_cons_self among
      · by_cases cut : x ∈ taken
        · exact ⟨[], by rw [Climbs, moves x, if_neg among, if_pos cut]⟩
        · obtain ⟨way, further⟩ := ih above climbs.2 fun y later => put y (mem_cons_of_mem _ later)
          exact ⟨above :: way, by rw [moves x, if_neg among, if_neg cut]; exact climbs.1, further⟩
  obtain ⟨path, climbs⟩ := rooted p
  have clear : ∀ y ∈ p :: path, y ∉ nodes := by
    intro y mem among
    rcases mem_cons.mp mem with rfl | far
    · exact apart y among .refl
    · exact apart y among (transGen_of_mem climbs far).to_reflTransGen
  obtain ⟨way, above⟩ := climb path p climbs fun y mem among => absurd among (clear y mem)
  intro x
  obtain ⟨path, climbs⟩ := rooted x
  exact climb path x climbs fun y _ among => ⟨p :: way, by rw [moves y, if_pos among], above⟩

lemma Moves.circle (moves : f.Moves p nodes taken g) (kept : ∀ z ∈ taken, ¬ ReflTransGen f.Up p z) (among : x ∈ nodes)
    (within : ReflTransGen f.Up p x) : TransGen g.Up p p := by
  -- the way from `p` to the first of the nodes is still there
  have climb : ∀ {z}, ReflTransGen f.Up p z → ReflTransGen f.Up z x → TransGen g.Up z p := by
    intro z before after
    induction after using ReflTransGen.head_induction_on with
    | refl => exact .single (by rw [Up, moves x, if_pos among])
    | @head z above next _ ih =>
      by_cases put : z ∈ nodes
      · exact .single (by rw [Up, moves z, if_pos put])
      · refine .head ?_ (ih (before.tail next))
        rw [Up, moves z, if_neg put, if_neg fun cut => kept z cut before]
        exact next
  exact climb .refl within

lemma Moves.cut_rooted (moves : f.Moves p [] taken g) (rooted : f.Rooted) : g.Rooted :=
  moves.rooted rooted nofun

/-! ## The operations -/

lemma moves_remove (f : Forest) (id : NodeId) : f.Moves id [] [id] (f.remove id) := by
  intro x
  rw [parent_remove]
  simp

lemma moves_clearChildren (f : Forest) (id : NodeId) : f.Moves id [] (f.node id).childList (f.clearChildren id) := by
  intro x
  rw [Forest.clearChildren, parent_modify _ _ (fun n => { n with children := #[] }) fun _ => rfl, parent_orphan]
  simp

lemma moves_add (f : Forest) {n : Node} (root : n.parent = none) : f.Moves f.nodes.size [] [f.nodes.size] (f.add n).2 := by
  intro x
  rw [node_add]
  by_cases new : x = f.nodes.size <;> simp [new, root]

lemma moves_moveLast (id : NodeId) (mem : child < f.nodes.size) : f.Moves id [child] [] (f.moveLast id child) := by
  intro x
  rw [parent_moveLast id mem]
  simp

lemma moves_insertAt (id : NodeId) (index : Int) (members : ∀ x ∈ nodes, x < f.nodes.size) :
    f.Moves id nodes [] (f.insertAt id index nodes) := by
  intro x
  rw [parent_insertAt members]
  simp

lemma moves_replaceWith (up : (f.node id).parent = some p) (members : ∀ x ∈ nodes, x < f.nodes.size) :
    f.Moves p (nodes.filter (· != id)) [id] (f.replaceWith id nodes) := by
  intro x
  have kept : id ∉ nodes.filter (· != id) := by simp
  have known : ∀ x ∈ nodes.filter (· != id), x < (f.removeAll (nodes.filter (· != id))).nodes.size := by
    intro x among
    rw [size_removeAll]
    exact members x (mem_filter.mp among).1
  rw [Forest.replaceWith, parent_putInPlace (by rw [parent_removeAll, if_neg kept, up]) known, parent_removeAll]
  by_cases among : x ∈ nodes.filter (· != id) <;> simp [among]

lemma Rooted.replaceWith (rooted : f.Rooted) (members : ∀ x ∈ nodes, x < f.nodes.size)
    (apart : ∀ p, (f.node id).parent = some p → ∀ x ∈ nodes, x ≠ id → ¬ ReflTransGen f.Up p x) :
    (f.replaceWith id nodes).Rooted := by
  cases up : (f.node id).parent with
  | none =>
    have moves : f.Moves id [] (nodes.filter (· != id)) (f.replaceWith id nodes) := by
      intro x
      rw [Forest.replaceWith, putInPlace_of_root (by rw [parent_removeAll, up, ite_self]), parent_removeAll]
      simp
    exact moves.cut_rooted rooted
  | some p =>
    refine (moves_replaceWith up members).rooted rooted fun x among => ?_
    obtain ⟨given, other⟩ := mem_filter.mp among
    exact apart p up x given (bne_iff_ne.mp other)

lemma circle_replaceWith (rooted : f.Rooted) (members : ∀ x ∈ nodes, x < f.nodes.size)
    (up : (f.node id).parent = some p) (among : x ∈ nodes) (other : x ≠ id) (within : ReflTransGen f.Up p x) :
    TransGen (f.replaceWith id nodes).Up p p := by
  refine (moves_replaceWith up members).circle (fun z cut above => ?_)
    (mem_filter.mpr ⟨among, bne_iff_ne.mpr other⟩) within
  obtain rfl := mem_singleton.mp cut
  exact rooted.acyclic z (.head' up above)

lemma Rooted.unwrap (rooted : f.Rooted) (linked : f.Linked) (id : NodeId) : (f.unwrap id).Rooted := by
  generalize given : (f.orphan ((f.node id).childList.filter (· != id))).modify id
    (fun n => { n with children := n.children.filter (· == id) }) = g
  have parents (x : NodeId) : (g.node x).parent =
      if x ∈ (f.node id).childList.filter (· != id) then none else (f.node x).parent := by
    rw [← given, parent_modify _ _ (fun n => { n with children := n.children.filter (· == id) }) fun _ => rfl,
      parent_orphan]
  have same : (g.node id).parent = (f.node id).parent := by rw [parents, if_neg (by simp)]
  have unfolded : f.unwrap id = g.putInPlace id ((f.node id).childList.filter (· != id)) := by rw [Forest.unwrap, given]
  rw [unfolded]
  cases up : (f.node id).parent with
  | none =>
    have moves : f.Moves id [] ((f.node id).childList.filter (· != id)) g := fun x => by rw [parents]; simp
    rw [putInPlace_of_root (same.trans up)]
    exact moves.cut_rooted rooted
  | some p =>
    have moves : f.Moves p ((f.node id).childList.filter (· != id)) [id]
        (g.putInPlace id ((f.node id).childList.filter (· != id))) := by
      intro x
      rw [parent_putInPlace (same.trans up), parents]
      · by_cases among : x ∈ (f.node id).childList.filter (· != id) <;> simp [among]
      · intro y among
        rw [← given, size_modify, size_orphan]
        exact linked.child_lt (mem_filter.mp among).1
    refine moves.rooted rooted fun x among above => ?_
    exact rooted.acyclic p ((TransGen.tail' above (linked.mem_iff.mp (mem_filter.mp among).1)).tail up)

lemma Linked.not_above_new (linked : f.Linked) (inside : id < f.nodes.size) : ¬ ReflTransGen f.Up id f.nodes.size := by
  intro above
  rcases above.cases_tail with same | ⟨y, _, up⟩
  · exact Nat.ne_of_lt inside same.symm
  · exact Nat.lt_irrefl _ (linked.parent_lt up)

section

variable (rooted : f.Rooted) (linked : f.Linked)
include rooted linked

lemma Rooted.setText (inside : id < f.nodes.size) (text : String) : (f.setText id text).Rooted := by
  have cleared := (moves_clearChildren f id).cut_rooted rooted
  cases words : (f.node id).isText with
  | true =>
    have moves : f.Moves id [] [] (f.setText id text) := fun x => by
      rw [Forest.setText, if_pos words]
      exact parent_modify f id (fun n => { n with text := text }) (fun _ => rfl) x
    exact moves.cut_rooted rooted
  | false =>
    cases blank : text.isEmpty with
    | true =>
      rw [setText_of_isEmpty words blank]
      exact cleared
    | false =>
      have linked := linked.clearChildren inside
      have size := size_clearChildren f id
      have apart := linked.not_above_new (size.symm ▸ inside)
      rw [size] at apart
      have moves : (f.clearChildren id).Moves id [f.nodes.size] [] (f.setText id text) := by
        intro x
        rw [setText_of_not_isEmpty words blank, parent_modify _ id (·.holding [f.nodes.size]) fun _ => rfl,
          node_modify_of_lt (by rw [size_addText_clearChildren]; exact Nat.lt_succ_self _), node_addText, size]
        by_cases new : x = f.nodes.size <;> simp [new]
      exact moves.rooted cleared (by simpa using apart)

lemma Rooted.parse {source : String} (parsed : f.parse source = .ok (id, g)) : g.Rooted := by
  refine (parse_attaching (P := fun f => f.Linked ∧ f.Rooted) parsed
    ⟨linked.add rfl rfl, (moves_add f rfl).cut_rooted rooted⟩ fun {b n} inside childless kept => ?_).2
  have moves : b.forest.Moves b.current [b.forest.nodes.size] [] (b.attach n).2.forest := by
    intro x
    refine (parent_modify (b.forest.add (n.under (some b.current))).2 b.current
      (fun n => { n with children := n.children.push b.forest.nodes.size }) (fun _ => rfl) x).trans ?_
    rw [node_add]
    by_cases new : x = b.forest.nodes.size <;> simp [new]
  exact ⟨kept.1.attach inside childless, moves.rooted kept.2 (by simpa using kept.1.not_above_new inside)⟩

lemma Rooted.clone (id : NodeId) : (f.clone id).2.Rooted := by
  have copied := (linked.copyOf_clone (rooted.isEndless_eq_false linked id)).2
  -- old nodes are as they were, and new ones lie under older ones
  have old : ∀ {x path}, Climbs f x path → x < f.nodes.size → Climbs (f.clone id).2 x path := by
    intro x path climbs inside
    refine climbs.congr fun y among => ?_
    rcases mem_cons.mp among with rfl | above
    · rw [copied.kept y inside]
    · rw [copied.kept y (linked.path_lt climbs above)]
  intro x
  induction x using Nat.strongRecOn with
  | _ x ih =>
    by_cases inside : x < f.nodes.size
    · obtain ⟨path, climbs⟩ := rooted x
      exact ⟨path, old climbs inside⟩
    · cases up : ((f.clone id).2.node x).parent with
      | none => exact ⟨[], up⟩
      | some q =>
        obtain ⟨path, climbs⟩ := ih q (copied.parent_new (Nat.le_of_not_lt inside) up).2
        exact ⟨q :: path, up, climbs⟩

end

/-! ## Operations one after the other -/

section

variable (rooted : f.Rooted) (linked : f.Linked)
include rooted linked

lemma Rooted.isWithin_eq_false : f.isWithin x y = false ↔ ¬ ReflTransGen f.Up x y := by
  rw [← rooted.isWithin_iff linked, Bool.not_eq_true]

lemma Rooted.perform {a : Action}
    (known : ∀ id ∈ a.nodes, id < f.nodes.size) (safe : a.Safe f) : (f.perform a).2.Rooted := by
  cases a with
  | make tag attrs text =>
    simp only [Forest.perform, newNode]
    split
    · exact rooted
    · exact (moves_add f rfl).cut_rooted rooted
  | parse source =>
    simp only [Forest.perform]
    cases parsed : f.parse source with
    | error fault => exact rooted
    | ok made => exact rooted.parse linked parsed
  | appendChild id child =>
    simp only [Forest.perform, appendChild]
    split
    · exact rooted
    · rename_i apart
      rw [Bool.not_eq_true, rooted.isWithin_eq_false linked] at apart
      exact (moves_moveLast id (known child (by simp [Action.nodes]))).rooted rooted (by simpa using apart)
  | insertAt id index nodes =>
    exact (moves_insertAt id index fun x among => known x (mem_cons_of_mem _ among)).rooted rooted fun x among =>
      (rooted.isWithin_eq_false linked).mp (safe x among)
  | remove id => exact (moves_remove f id).cut_rooted rooted
  | replaceWith id nodes =>
    exact rooted.replaceWith (fun x among => known x (mem_cons_of_mem _ among)) fun p up x among other =>
      (rooted.isWithin_eq_false linked).mp (safe p up x among other)
  | unwrap id => exact rooted.unwrap linked id
  | clearChildren id => exact (moves_clearChildren f id).cut_rooted rooted
  | setText id text => exact rooted.setText linked (known id mem_cons_self) text
  | clone id =>
    simp only [Forest.perform]
    split
    · exact rooted
    · exact rooted.clone linked id

lemma Rooted.safe_of_acyclic {a : Action}
    (known : ∀ id ∈ a.nodes, id < f.nodes.size) (acyclic : (f.perform a).2.Acyclic) : a.Safe f := by
  cases a with
  | insertAt id index nodes =>
    intro x among
    rw [rooted.isWithin_eq_false linked]
    intro within
    exact acyclic id ((moves_insertAt id index fun x among => known x (mem_cons_of_mem _ among)).circle
      (nofun) among within)
  | replaceWith id nodes =>
    intro p up x among other
    rw [rooted.isWithin_eq_false linked]
    intro within
    exact acyclic p (circle_replaceWith rooted (fun x among => known x (mem_cons_of_mem _ among)) up among other within)
  | _ => exact trivial

end

/-- The forests that operations lead to which put no node into one that it holds. -/
inductive ReachedSafely : Forest → Prop where
  | empty : ReachedSafely Forest.empty
  | perform {f : Forest} (a : Action) (before : ReachedSafely f) (known : ∀ id ∈ a.nodes, id < f.nodes.size)
    (safe : a.Safe f) : ReachedSafely (f.perform a).2

lemma ReachedSafely.reached (safely : f.ReachedSafely) : f.Reached := by
  induction safely with
  | empty => exact .empty
  | perform a _ known _ before => exact .perform a before known

lemma ReachedSafely.rooted (safely : f.ReachedSafely) : f.Rooted := by
  induction safely with
  | empty => exact fun x => ⟨[], rfl⟩
  | perform a before known safe rooted => exact rooted.perform before.reached.linked known safe

/-- As long as no operation puts a node into one that it holds, no node is its own ancestor. The
next operation keeps this exactly if it does not do so either: putting nodes among the children of
another or in its place is not checked. Then the way up from every node ends at a root, every tree
can be copied, and what lies below a node, its text and its markup are found however many steps more
than there are nodes are allowed. -/
theorem acyclic_perform_iff_safe (safely : f.ReachedSafely) :
    f.Acyclic ∧
      (∀ a : Action, (∀ id ∈ a.nodes, id < f.nodes.size) → ((f.perform a).2.Acyclic ↔ a.Safe f)) ∧
      ∀ x, (f.node (f.root x)).parent = none ∧ f.isEndless x = false ∧
        ∀ depth, f.bound ≤ depth →
          f.below depth x = f.descendants x ∧ f.textBelow depth x = f.textContent x ∧
            f.markupBelow depth x = f.markup x := by
  have linked := safely.reached.linked
  have rooted := safely.rooted
  refine ⟨rooted.acyclic, fun a known => ⟨rooted.safe_of_acyclic linked known, fun safe => ?_⟩, fun x => ?_⟩
  · exact (rooted.perform linked known safe).acyclic
  · refine ⟨rooted.parent_root linked x, rooted.isEndless_eq_false linked x, fun depth enough => ?_⟩
    exact ⟨rooted.below_eq linked x enough, rooted.textBelow_eq linked x enough, rooted.markupBelow_eq linked x enough⟩

def nestedElements : Forest := (twoElements.perform (.appendChild 0 1)).2

/-- Putting the outer element among the children of the inner one makes a circle, putting it in the
place of the inner one does too, and putting the inner one among the children of the outer one once
more does not. -/
theorem circle_nestedElements :
    nestedElements.ReachedSafely ∧ ¬ (nestedElements.perform (.insertAt 1 0 [0])).2.Acyclic ∧
      ¬ (nestedElements.perform (.replaceWith 1 [0])).2.Acyclic ∧
      (nestedElements.perform (.insertAt 0 0 [1])).2.Acyclic := by
  have safely : nestedElements.ReachedSafely :=
    .perform _ (.perform _ (.perform _ .empty (by decide) trivial) (by decide) trivial) (by decide) trivial
  have next := (acyclic_perform_iff_safe safely).2.1
  refine ⟨safely, ?_, ?_, ?_⟩
  · rw [next _ (by decide)]
    exact fun safe => absurd (safe 0 List.mem_cons_self) (by decide)
  · rw [next _ (by decide)]
    exact fun safe => absurd (safe 0 (by decide) 0 List.mem_cons_self (by decide)) (by decide)
  · rw [next _ (by decide)]
    intro x among
    obtain rfl := List.mem_singleton.mp among
    decide

end Forest

end TagScript.Markup
