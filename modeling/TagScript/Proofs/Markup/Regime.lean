import TagScript.Markup.Selector
import TagScript.Proofs.Markup.Standing

/-!
# Work on a forest

A regime asks something of every node of a forest and says which nodes may be worked on. If it asks
only for what the links of a node lead to, all work on such nodes keeps it up and leaves the other
nodes as they are.
-/

namespace TagScript.Markup

open List

variable {nodes : List NodeId} {children : Node → Array NodeId} {made : NodeId × Forest} {source : String}

/-- What is asked of the nodes of a forest of some size: how each of them is, which are free to be
worked on, which may become a child, which of two may stand above the other, and how new ones are
called. -/
structure Regime where
  fits : Nat → NodeId → Node → Prop
  free : NodeId → Prop
  kid : Nat → NodeId → Prop
  above : NodeId → NodeId → Prop
  label : String → Assoc String → Prop
  larger : ∀ {size size' x n}, fits size x n → size ≤ size' → x < size ∨ size' ≤ x → fits size' x n
  kid_later : ∀ {size size' c}, kid size c → size ≤ size' → kid size' c
  kid_free : ∀ {size c}, kid size c → free c
  trans : ∀ {x y z}, above x y → above y z → above x z
  child : ∀ {size x n c}, fits size x n → free x → c ∈ n.childList → above x c ∧ kid size c
  parent : ∀ {size x n q}, fits size x n → free x → n.parent = some q → above q x ∧ free q
  text : ∀ {size x n} content, fits size x n → fits size x { n with text := content }
  under : ∀ {size x n up}, fits size x n → free x → (∀ q, up = some q → above q x ∧ free q) →
    fits size x { n with parent := up }
  holding : ∀ {size x n children}, fits size x n → free x → (∀ c ∈ children.toList, above x c ∧ kid size c) →
    fits size x { n with children := children }
  above_new : ∀ {size x}, x < size → above x size
  kid_new : ∀ {size}, free size → kid (size + 1) size
  new : ∀ {size n}, label n.tag n.attrs → n.children = #[] → n.listeners = [] → free size →
    (∀ q, n.parent = some q → above q size ∧ free q) → fits (size + 1) size n

namespace Forest

variable {R : Regime} {f g h : Forest} {id moved : NodeId}

/-- Every node is as it should be, and there is room for free nodes only. -/
structure Keeps (R : Regime) (f : Forest) : Prop where
  there : ∀ x, ¬ R.free x → x < f.nodes.size
  fits : ∀ x, R.fits f.nodes.size x (f.node x)

/-- Work that leads from one forest to another and leaves alone what is not free. -/
structure Follows (R : Regime) (f g : Forest) : Prop where
  keeps : g.Keeps R
  grows : f.nodes.size ≤ g.nodes.size
  same : ∀ x, ¬ R.free x → g.node x = f.node x

lemma Follows.trans (first : f.Follows R g) (second : g.Follows R h) : f.Follows R h where
  keeps := second.keeps
  grows := Nat.le_trans first.grows second.grows
  same x set := (second.same x set).trans (first.same x set)

namespace Keeps

variable (keeps : f.Keeps R)
include keeps

lemma follows : f.Follows R f :=
  ⟨keeps, Nat.le_refl _, fun _ _ => rfl⟩

lemma child (free : R.free id) {c : NodeId} (mem : c ∈ (f.node id).childList) :
    R.above id c ∧ R.kid f.nodes.size c :=
  R.child (keeps.fits id) free mem

lemma parent (free : R.free id) {q : NodeId} (up : (f.node id).parent = some q) : R.above q id ∧ R.free q :=
  R.parent (keeps.fits id) free up

lemma free_new : R.free f.nodes.size :=
  Classical.byContradiction fun set => Nat.lt_irrefl _ (keeps.there _ set)

lemma modify (free : R.free id) {change : Node → Node} (fits : R.fits f.nodes.size id (change (f.node id))) :
    f.Follows R (f.modify id change) where
  keeps :=
    { there := by
        rw [size_modify]
        exact keeps.there
      fits := fun x => by
        rw [size_modify, node_modify]
        split
        · rename_i here
          rw [here.1]
          exact fits
        · exact keeps.fits x }
  grows := Nat.le_of_eq (size_modify f id change).symm
  same x set := by
    rw [node_modify, if_neg]
    rintro ⟨rfl, _⟩
    exact set free

lemma under (free : R.free id) {up : Option NodeId} (upward : ∀ q, up = some q → R.above q id ∧ R.free q) :
    f.Follows R (f.modify id fun n => { n with parent := up }) :=
  keeps.modify free (R.under (keeps.fits id) free upward)

lemma holding (free : R.free id)
    (downward : ∀ c ∈ (children (f.node id)).toList, R.above id c ∧ R.kid f.nodes.size c) :
    f.Follows R (f.modify id fun n => { n with children := children n }) :=
  keeps.modify free (R.holding (keeps.fits id) free downward)

lemma fewer (free : R.free id)
    (among : ∀ c ∈ (children (f.node id)).toList, c ∈ (f.node id).childList) :
    f.Follows R (f.modify id fun n => { n with children := children n }) :=
  keeps.holding free fun c mem => keeps.child free (among c mem)

lemma add {n : Node} (label : R.label n.tag n.attrs) (childless : n.children = #[]) (bare : n.listeners = [])
    (upward : ∀ q, n.parent = some q → R.above q f.nodes.size ∧ R.free q) : f.Follows R (f.add n).2 where
  keeps :=
    { there := fun x set => by
        rw [size_add]
        exact Nat.lt_succ_of_lt (keeps.there x set)
      fits := fun x => by
        rw [size_add, node_add]
        split
        · rename_i here
          subst here
          exact R.new label childless bare keeps.free_new upward
        · rename_i other
          exact R.larger (keeps.fits x) (Nat.le_succ _) (Nat.lt_or_gt_of_ne other) }
  grows := by simp
  same x set := by
    rw [node_add, if_neg (Nat.ne_of_lt (keeps.there x set))]

/-! ## Taking out and putting in -/

lemma remove (free : R.free id) : f.Follows R (f.remove id) := by
  have alone : ∀ {g : Forest}, g.Keeps R → g.Follows R (g.modify id fun n => { n with parent := none }) :=
    fun keeps => keeps.under free nofun
  unfold Forest.remove
  split
  · exact keeps.follows
  · rename_i q up
    cases f.indexInParent id with
    | none => exact alone keeps
    | some index =>
      have erased : f.Follows R (f.modify q fun n => { n with children := n.children.eraseIdxIfInBounds index }) := by
        apply keeps.fewer (keeps.parent free up).2
        intro c mem
        rw [Array.toList_eraseIdxIfInBounds] at mem
        exact mem_of_mem_eraseIdx mem
      exact erased.trans (alone erased.keeps)

lemma removeAll (free : ∀ x ∈ nodes, R.free x) : f.Follows R (f.removeAll nodes) := by
  induction nodes generalizing f with
  | nil => exact keeps.follows
  | cons first rest ih =>
    have taken := keeps.remove (free first mem_cons_self)
    exact taken.trans (ih taken.keeps fun x mem => free x (mem_cons_of_mem _ mem))

lemma orphan (free : ∀ x ∈ nodes, R.free x) : f.Follows R (f.orphan nodes) := by
  induction nodes generalizing f with
  | nil => exact keeps.follows
  | cons first rest ih =>
    have alone : f.Follows R (f.modify first fun n => { n with parent := none }) :=
      keeps.under (free first mem_cons_self) nofun
    exact alone.trans (ih alone.keeps fun x mem => free x (mem_cons_of_mem _ mem))

section

variable (free : R.free id)
include free

lemma clearChildren : f.Follows R (f.clearChildren id) := by
  have apart := keeps.orphan fun c mem => R.kid_free (keeps.child free mem).2
  exact apart.trans (apart.keeps.holding free nofun)

lemma adopt (after : R.above id moved) (kid : R.kid f.nodes.size moved)
    (more : ∀ n, ∀ c ∈ (children n).toList, c = moved ∨ c ∈ n.childList) :
    f.Follows R (((f.remove moved).modify moved fun n => { n with parent := some id }).modify id
      fun n => { n with children := children n }) := by
  have taken := keeps.remove (R.kid_free kid)
  have put : f.Follows R ((f.remove moved).modify moved fun n => { n with parent := some id }) := by
    refine taken.trans (taken.keeps.under (R.kid_free kid) ?_)
    rintro q ⟨⟩
    exact ⟨after, free⟩
  refine put.trans (put.keeps.holding free fun c mem => ?_)
  rcases more _ c mem with rfl | older
  · exact ⟨after, R.kid_later kid put.grows⟩
  · exact put.keeps.child free older

lemma moveLast (after : R.above id moved) (kid : R.kid f.nodes.size moved) : f.Follows R (f.moveLast id moved) := by
  refine keeps.adopt free after kid fun n c mem => ?_
  rw [Array.toList_push, mem_append, mem_singleton] at mem
  exact mem.symm

lemma insertOne (index : Int) (after : R.above id moved) (kid : R.kid f.nodes.size moved) :
    f.Follows R (f.insertOne id index moved) := by
  refine keeps.adopt free after kid fun n c mem => ?_
  unfold Array.insertIdxIfInBounds at mem
  split at mem
  · exact (Array.mem_insertIdx.mp (Array.mem_toList_iff.mp mem)).imp_right Array.mem_toList_iff.mpr
  · exact .inr mem

lemma insertAt (index : Int)
    (kids : ∀ c ∈ nodes, R.above id c ∧ R.kid f.nodes.size c) : f.Follows R (f.insertAt id index nodes) := by
  induction nodes generalizing f index with
  | nil => exact keeps.follows
  | cons first rest ih =>
    obtain ⟨after, kid⟩ := kids first mem_cons_self
    have placed := keeps.insertOne free index after kid
    refine placed.trans (ih placed.keeps (index + 1) fun c mem => ?_)
    exact (kids c (mem_cons_of_mem _ mem)).imp_right (R.kid_later · placed.grows)

lemma putInPlace (kids : ∀ c ∈ nodes, R.above id c ∧ R.kid f.nodes.size c) : f.Follows R (f.putInPlace id nodes) := by
  unfold Forest.putInPlace
  split
  · exact keeps.follows
  · rename_i q up
    obtain ⟨before, outer⟩ := keeps.parent free up
    have taken := keeps.remove free
    refine taken.trans (taken.keeps.insertAt outer _ fun c mem => ?_)
    exact (kids c mem).imp (R.trans before) (R.kid_later · taken.grows)

lemma replaceWith (kids : ∀ c ∈ nodes, R.above id c ∧ R.kid f.nodes.size c) : f.Follows R (f.replaceWith id nodes) := by
  have kept : ∀ c ∈ nodes.filter (· != id), R.above id c ∧ R.kid f.nodes.size c :=
    fun c mem => kids c (mem_filter.mp mem).1
  have taken := keeps.removeAll fun c mem => R.kid_free (kept c mem).2
  refine taken.trans (taken.keeps.putInPlace free fun c mem => ?_)
  exact (kept c mem).imp_right (R.kid_later · taken.grows)

lemma unwrap : f.Follows R (f.unwrap id) := by
  have kept : ∀ c ∈ (f.node id).childList.filter (· != id), R.above id c ∧ R.kid f.nodes.size c :=
    fun c mem => keeps.child free (mem_filter.mp mem).1
  have apart := keeps.orphan fun c mem => R.kid_free (kept c mem).2
  have given : f.Follows R ((f.orphan ((f.node id).childList.filter (· != id))).modify id
      fun n => { n with children := n.children.filter (· == id) }) := by
    refine apart.trans (apart.keeps.fewer free fun c mem => ?_)
    rw [Array.toList_filter] at mem
    exact (mem_filter.mp mem).1
  refine given.trans (given.keeps.putInPlace free fun c mem => ?_)
  exact (kept c mem).imp_right (R.kid_later · given.grows)

end

/-! ## New nodes -/

lemma setText (free : R.free id) (text : R.label textTag []) (before : R.above id f.nodes.size) (content : String) :
    f.Follows R (f.setText id content) := by
  unfold Forest.setText
  split
  · exact keeps.modify free (R.text content (keeps.fits id))
  have cleared := keeps.clearChildren free
  split
  · exact cleared
  have size := size_clearChildren f id
  have added : f.Follows R ((f.clearChildren id).addText content).2 :=
    cleared.trans (cleared.keeps.add (by simpa [Node.make, lower_textTag] using text) rfl rfl nofun)
  rw [← size] at before
  have placed : f.Follows R (((f.clearChildren id).addText content).2.modify (f.clearChildren id).nodes.size
      fun n => { n with parent := some id }) := by
    refine added.trans (added.keeps.under cleared.keeps.free_new ?_)
    rintro q ⟨⟩
    exact ⟨before, free⟩
  refine placed.trans (placed.keeps.holding free fun c mem => ?_)
  obtain rfl := mem_singleton.mp mem
  rw [size_modify, addText, size_add]
  exact ⟨before, R.kid_new cleared.keeps.free_new⟩

/-- Where any node may stand above any other, a copy may stand where the node may. -/
lemma cloneBelow (any : ∀ x y, R.above x y)
    (label : ∀ {size x n}, R.fits size x n → R.kid size x → R.label n.tag n.attrs) (depth : Nat) {up : Option NodeId}
    (upward : ∀ q, up = some q → R.free q) (kid : R.kid f.nodes.size id) :
    f.Follows R (Forest.cloneBelow depth up f id).2 ∧
      R.kid (Forest.cloneBelow depth up f id).2.nodes.size (Forest.cloneBelow depth up f id).1 := by
  induction depth generalizing f id up with
  | zero => exact ⟨keeps.follows, kid⟩
  | succ depth ih =>
    have new := keeps.free_new
    -- the children are copied one after the other, each into the forest that the one before it left
    have children : ∀ (ids : List NodeId) (made : Array NodeId × Forest), f.Follows R made.2 →
        (∀ c ∈ made.1.toList, R.kid made.2.nodes.size c) → (∀ c ∈ ids, R.kid f.nodes.size c) →
        made.2.Follows R (ids.foldl (copyStep depth f.nodes.size) made).2 ∧
          ∀ c ∈ (ids.foldl (copyStep depth f.nodes.size) made).1.toList,
            R.kid (ids.foldl (copyStep depth f.nodes.size) made).2.nodes.size c := by
      intro ids
      induction ids with
      | nil => exact fun made follows kids _ => ⟨follows.keeps.follows, kids⟩
      | cons first rest next =>
        intro made follows kids left
        rw [forall_mem_cons] at left
        obtain ⟨copied, copy⟩ := @ih made.2 first follows.keeps (some f.nodes.size) (by rintro q ⟨⟩; exact new)
          (R.kid_later left.1 follows.grows)
        have whole := next (copyStep depth f.nodes.size made first) (follows.trans copied) (fun c mem => ?_) left.2
        · exact ⟨copied.trans whole.1, whole.2⟩
        simp only [copyStep, Array.toList_push, mem_append, mem_singleton] at mem
        rcases mem with older | rfl
        · exact R.kid_later (kids c older) copied.grows
        · exact copy
    have added : f.Follows R (f.add (blank (f.node id) up)).2 :=
      keeps.add (n := blank (f.node id) up) (@label _ _ (f.node id) (keeps.fits id) kid) rfl rfl fun q same => ⟨any _ _, upward q same⟩
    obtain ⟨after, kids⟩ := children (f.node id).childList (#[], (f.add (blank (f.node id) up)).2) added
      (forall_mem_nil _) fun c mem => (keeps.child (R.kid_free kid) mem).2
    rw [cloneBelow_succ]
    refine ⟨added.trans (after.trans (after.keeps.holding new fun c mem => ⟨any _ _, kids c mem⟩)), ?_⟩
    rw [size_modify]
    refine R.kid_later (R.kid_new new) ?_
    rw [← size_add f (blank (f.node id) up)]
    exact after.grows

/-! ## Looking around -/

lemma siblingTagged (free : R.free id) {tag : String} {other : NodeId} (found : f.siblingTagged id tag = some other) :
    R.kid f.nodes.size other := by
  obtain ⟨next, _⟩ := Option.filter_eq_some_iff.mp found
  obtain ⟨q, up, among⟩ := Option.bind_eq_some_iff.mp next
  exact (keeps.child (keeps.parent free up).2 (mem_of_mem_drop (mem_of_find?_eq_some among))).2

lemma below (depth : Nat) (free : R.free id) : ∀ c ∈ f.below depth id, R.kid f.nodes.size c := by
  induction depth generalizing id with
  | zero => exact nofun
  | succ depth ih =>
    intro c mem
    obtain ⟨next, among, here⟩ := mem_flatMap.mp mem
    have kid := (keeps.child free among).2
    rcases mem_cons.mp here with rfl | further
    · exact kid
    · exact ih (R.kid_free kid) c further

lemma findAll (free : R.free id) (tag : String) : ∀ c ∈ f.findAll id tag, R.kid f.nodes.size c :=
  fun c mem => keeps.below f.bound free c (mem_filter.mp mem).1

end Keeps

/-! ## Documents -/

/-- What is known of a document under construction: where the next node goes is free. -/
structure Building (R : Regime) (f : Forest) (b : Builder) : Prop where
  follows : f.Follows R b.forest
  root : b.root = f.nodes.size
  there : f.nodes.size < b.forest.nodes.size
  nodes : ∀ x ∈ b.openNodes, x < b.forest.nodes.size ∧ R.free x

lemma Keeps.building (keeps : f.Keeps R) (root : R.label documentTag []) : Building R f (Builder.start f) where
  follows := keeps.add root rfl rfl nofun
  root := rfl
  there := lt_of_lt_of_eq (Nat.lt_succ_self _) (size_add f _).symm
  nodes _ member := nomatch member

namespace Building

variable {b : Builder} (building : Building R f b) (keeps : f.Keeps R)
include building keeps

lemma current : b.current < b.forest.nodes.size ∧ R.free b.current := by
  unfold Builder.current
  cases found : b.openNodes with
  | nil =>
    rw [headD_nil, building.root]
    exact ⟨building.there, keeps.free_new⟩
  | cons first rest => exact building.nodes first (found ▸ mem_cons_self)

lemma attach {n : Node} (label : R.label n.tag n.attrs) (childless : n.children = #[]) (bare : n.listeners = []) :
    Building R f (b.attach n).2 ∧ (b.attach n).1 < (b.attach n).2.forest.nodes.size ∧ R.free (b.attach n).1 := by
  obtain ⟨there, free⟩ := building.current keeps
  have new := building.follows.keeps.free_new
  have added : b.forest.Follows R (b.forest.add { n with parent := some b.current }).2 := by
    refine building.follows.keeps.add label childless bare ?_
    rintro q ⟨⟩
    exact ⟨R.above_new there, free⟩
  have placed : b.forest.Follows R (b.attach n).2.forest := by
    refine added.trans (added.keeps.holding free fun c mem => ?_)
    rw [Array.toList_push, mem_append, mem_singleton] at mem
    rcases mem with older | rfl
    · exact added.keeps.child free older
    · rw [size_add]
      exact ⟨R.above_new there, R.kid_new new⟩
  have size : (b.attach n).2.forest.nodes.size = b.forest.nodes.size + 1 := (size_modify _ _ _).trans (size_add _ _)
  refine ⟨⟨building.follows.trans placed, building.root, Nat.lt_of_lt_of_le building.there placed.grows, ?_⟩, ?_, new⟩
  · exact fun x mem => (building.nodes x mem).imp_left (Nat.lt_of_lt_of_le · placed.grows)
  · rw [size]
    exact Nat.lt_succ_self _

lemma take {event : Event} (label : ∀ n, event.node? = some n → R.label n.tag n.attrs) :
    Building R f (b.take event) := by
  cases event with
  | start tag attrs =>
    obtain ⟨next, free⟩ := building.attach keeps (label _ rfl) rfl rfl
    unfold Builder.take
    simp only []
    split
    · exact next
    · exact { next with nodes := forall_mem_cons.mpr ⟨free, next.nodes⟩ }
  | selfClosing tag attrs => exact (building.attach keeps (label _ rfl) rfl rfl).1
  | finish tag =>
    unfold Builder.take
    simp only []
    split
    · exact { building with nodes := fun x mem => building.nodes x (mem_of_mem_drop mem) }
    · exact building
  | text data =>
    unfold Builder.take
    simp only []
    split
    · exact building
    · exact (building.attach keeps (label _ rfl) rfl rfl).1

end Building

lemma parse_induction {P : Builder → Prop} (parsed : f.parse source = .ok made) (start : P (.start f))
    (take : ∀ es, events source = .ok es → ∀ b, ∀ event ∈ es, P b → P (b.take event)) :
    ∃ b, P b ∧ made = (b.root, b.forest) := by
  unfold Forest.parse at parsed
  cases scanned : events source with
  | error fault =>
    rw [scanned] at parsed
    cases parsed
  | ok es =>
    rw [scanned] at parsed
    cases parsed
    exact ⟨_, List.foldlRecOn es _ start fun b kept event among => take es scanned b event among kept, rfl⟩

lemma Keeps.parse (keeps : f.Keeps R) (root : R.label documentTag []) (parsed : f.parse source = .ok made)
    (label : ∀ es, events source = .ok es → ∀ event ∈ es, ∀ n, event.node? = some n → R.label n.tag n.attrs) :
    f.Follows R made.2 ∧ made.1 = f.nodes.size ∧ made.1 < made.2.nodes.size := by
  obtain ⟨b, done, rfl⟩ := parse_induction parsed (keeps.building root) fun es scanned b event among building =>
    building.take keeps (label es scanned event among)
  exact ⟨done.follows, done.root, Nat.lt_of_le_of_lt (Nat.le_of_eq done.root) done.there⟩

end Forest

/-! ## What holds of all labels -/

/-- Something is asked of all labels. -/
def Regime.labels (p : String → Assoc String → Prop) : Regime where
  fits _ _ n := p n.tag n.attrs
  free _ := True
  kid _ _ := True
  above _ _ := True
  label := p
  larger fits _ _ := fits
  kid_later kid _ := kid
  kid_free kid := kid
  trans _ _ := trivial
  child _ _ _ := ⟨trivial, trivial⟩
  parent _ _ _ := ⟨trivial, trivial⟩
  text _ fits := fits
  under fits _ _ := fits
  holding fits _ _ := fits
  above_new _ := trivial
  kid_new _ := trivial
  new label _ _ _ _ := label

lemma Forest.Labelled.keeps {p : String → Assoc String → Prop} {f : Forest} (labelled : f.Labelled p) :
    f.Keeps (.labels p) :=
  ⟨fun _ never => (never trivial).elim, labelled⟩

/-- What a new node under one of the tree keeps up is true of the forest when a tree has been
parsed. -/
lemma Forest.parse_attaching {P : Forest → Prop} {f : Forest}
    (parsed : f.parse source = .ok made) (start : P (Builder.start f).forest)
    (attach : ∀ {b : Builder} {n : Node}, b.current < b.forest.nodes.size → n.children = #[] → P b.forest →
      P (b.attach n).2.forest) : P made.2 := by
  have keeps : f.Keeps (.labels fun _ _ => True) := Labelled.keeps fun _ => trivial
  obtain ⟨b, ⟨_, done⟩, rfl⟩ := parse_induction (P := fun b => Building (.labels fun _ _ => True) f b ∧ P b.forest)
    parsed ⟨keeps.building trivial, start⟩ fun _ _ b event _ ⟨building, kept⟩ => by
      refine ⟨building.take keeps fun _ _ => trivial, ?_⟩
      have attached {n : Node} (childless : n.children = #[]) := attach (building.current keeps).1 childless kept
      cases event with
      | start tag attrs =>
        simp only [Builder.take]
        split <;> exact attached rfl
      | selfClosing tag attrs => exact attached rfl
      | finish tag =>
        simp only [Builder.take]
        split <;> exact kept
      | text data =>
        simp only [Builder.take]
        split
        · exact kept
        · exact attached rfl
  exact done

end TagScript.Markup
