import TagScript.Proofs.Markup.Surgery

/-!
# Copies of trees

The copies are new nodes that are linked to each other alone, as the nodes of the tree are. Whatever
can be found out about the tree from its tags, attributes and texts is the same for the copy.
-/

namespace TagScript.Markup.Forest

open List

variable {f g : Forest} {id x y : NodeId} {depth : Nat} {c : NodeId}

def blank (n : Node) (parent : Option NodeId) : Node :=
  { n with children := #[], parent := parent, listeners := [] }

def copyStep (depth : Nat) (copy : NodeId) (made : Array NodeId × Forest) (child : NodeId) :
    Array NodeId × Forest :=
  (made.1.push (cloneBelow depth (some copy) made.2 child).1, (cloneBelow depth (some copy) made.2 child).2)

def copied (depth : Nat) (parent : Option NodeId) (f : Forest) (id : NodeId) : Array NodeId × Forest :=
  (f.node id).childList.foldl (copyStep depth f.nodes.size) (#[], (f.add (blank (f.node id) parent)).2)

lemma cloneBelow_succ (depth : Nat) (parent : Option NodeId) (f : Forest) (id : NodeId) :
    cloneBelow (depth + 1) parent f id = (f.nodes.size,
      (copied depth parent f id).2.modify f.nodes.size fun n => n.holding (copied depth parent f id).1.toList) := rfl

/-! ## Trees that end -/

/-- All nodes below a node are there, and they end before some depth. -/
def Ends (f : Forest) : Nat → NodeId → Prop
  | 0, _ => False
  | depth + 1, x => ∀ c ∈ (f.node x).childList, c < f.nodes.size ∧ f.Ends depth c

lemma Ends.congr (ends : f.Ends depth x) (inside : x < f.nodes.size) (grows : f.nodes.size ≤ g.nodes.size)
    (same : ∀ x < f.nodes.size, g.node x = f.node x) : g.Ends depth x := by
  induction depth generalizing x with
  | zero => exact ends
  | succ depth ih =>
    rw [Ends, same x inside]
    exact fun c among => ⟨Nat.lt_of_lt_of_le (ends c among).1 grows, ih (ends c among).2 (ends c among).1⟩

/-- What is found step by step down a tree that ends is the same for any number of steps that is
enough. -/
lemma Ends.steady (ends : f.Ends depth x) {α : Type} {F : Nat → NodeId → α}
    (inner : ∀ n m x, (∀ c ∈ (f.node x).childList, F n c = F m c) → F (n + 1) x = F (m + 1) x) {more : Nat}
    (enough : depth ≤ more) : F more x = F depth x := by
  induction depth generalizing x more with
  | zero => cases ends
  | succ depth ih =>
    obtain ⟨more, rfl⟩ := Nat.exists_eq_add_one_of_ne_zero (Nat.ne_of_gt (Nat.zero_lt_of_lt enough))
    exact inner more depth x fun c among => ih (ends c among).2 (Nat.le_of_succ_le_succ enough)

/-- A tree whose nodes come after their parents ends. -/
lemma ends_of_later {low : Nat} (later : ∀ x, low ≤ x → ∀ c ∈ (f.node x).childList, x < c ∧ c < f.nodes.size)
    (here : low ≤ x) : f.Ends f.bound x := by
  have below : ∀ depth (x : Nat), low ≤ x → f.nodes.size < depth + x → depth ≠ 0 → f.Ends depth x := by
    intro depth
    induction depth with
    | zero => exact fun _ _ _ shallow => absurd rfl shallow
    | succ depth ih =>
      intro x here enough _ (c : Nat) among
      have after : x + 1 ≤ c := (later x here c among).1
      have there : c < f.nodes.size := (later x here c among).2
      exact ⟨there, ih c (by omega) (by omega) (by omega)⟩
  exact below f.bound x here (Nat.lt_of_lt_of_le (Nat.lt_succ_self _) (Nat.le_add_right _ _)) (Nat.succ_ne_zero _)

/-- The tree below a node ends. -/
def Finite (f : Forest) (x : NodeId) : Prop := x < f.nodes.size ∧ ∃ depth, f.Ends depth x

lemma Finite.child : f.Finite x → ∀ c ∈ (f.node x).childList, f.Finite c
  | ⟨_, depth + 1, ends⟩, c, among => ⟨(ends c among).1, depth, (ends c among).2⟩

/-! ## What can be found out about a tree -/

/-- A way to find something out about a tree, from what is called how and from what was found out
below. -/
structure Survey (α : Type) where
  start : α
  say : String → Assoc String → String → List α → α

namespace Survey

variable {α : Type} (v : Survey α)

def below (f : Forest) : Nat → NodeId → α
  | 0, _ => v.start
  | depth + 1, x =>
    v.say (f.node x).tag (f.node x).attrs (f.node x).text ((f.node x).childList.map (below f depth))

lemma below_congr {W : NodeId → Prop} (closed : ∀ x, W x → ∀ c ∈ (f.node x).childList, W c)
    (same : ∀ x, W x → g.node x = f.node x) (depth : Nat) (here : W x) :
    v.below g depth x = v.below f depth x := by
  induction depth generalizing x with
  | zero => rfl
  | succ depth ih =>
    rw [below, below, same x here]
    exact congrArg _ (map_congr_left fun c among => ih (closed x here c among))

lemma below_of_ends (ends : f.Ends depth x) {more : Nat} (enough : depth ≤ more) :
    v.below f more x = v.below f depth x :=
  ends.steady (fun _ _ _ same => congrArg _ (map_congr_left same)) enough

/-- What is written for a tree. -/
def written : Survey String where
  start := ""
  say tag attrs text inner :=
    if tag == textTag then escapeText text
    else if tag == documentTag then String.join inner
    else
      let attrs := String.join (attrs.map fun (name, value) => " " ++ name ++ "=\"" ++ escapeValue value ++ "\"")
      if voidTags.contains tag && inner.isEmpty then "<" ++ tag ++ attrs ++ ">"
      else "<" ++ tag ++ attrs ++ ">" ++ String.join inner ++ "</" ++ tag ++ ">"

lemma markupBelow_eq (f : Forest) (depth : Nat) (x : NodeId) : f.markupBelow depth x = written.below f depth x := by
  induction depth generalizing x with
  | zero => rfl
  | succ depth ih =>
    have empty : (f.node x).children.isEmpty = ((f.node x).childList.map (written.below f depth)).isEmpty := by
      rw [isEmpty_map, Node.childList, Array.isEmpty_toList]
    rw [markupBelow, below, written, Node.isText, map_congr_left fun c _ => ih c, empty]
    rfl

end Survey

lemma markup_eq_of_ends (ends : f.Ends f.bound x) (grows : f.nodes.size ≤ g.nodes.size) {within : NodeId → Prop}
    (closed : ∀ x, within x → ∀ c ∈ (f.node x).childList, within c) (same : ∀ x, within x → g.node x = f.node x)
    (here : within x) : g.markup x = f.markup x := by
  rw [markup, markup, Survey.markupBelow_eq, Survey.markupBelow_eq, Survey.written.below_congr closed same _ here]
  exact Survey.written.below_of_ends ends (Nat.succ_le_succ grows)

/-! ## Copying -/

/-- A tree has been copied: its copy is made of new nodes, which are linked to each other alone, and
looks the same. -/
structure CopyOf (f g : Forest) (above : Option NodeId) (id : NodeId) : Prop where
  grows : f.nodes.size < g.nodes.size
  kept : ∀ x < f.nodes.size, g.node x = f.node x
  root : (g.node f.nodes.size).parent = above
  parent : ∀ x, f.nodes.size < x → x < g.nodes.size → ∃ p, (g.node x).parent = some p ∧ f.nodes.size ≤ p ∧ p < x
  links : ∀ p, f.nodes.size ≤ p → ∀ c,
    (g.node p).childList.count c = if f.nodes.size < c ∧ (g.node c).parent = some p then 1 else 0
  listeners : ∀ x, f.nodes.size ≤ x → (g.node x).listeners = []
  looks : ∀ (α : Type) (v : Survey α) depth, v.below g depth f.nodes.size = v.below f depth id

/-- Some children of a node have been copied, and the node itself without them. -/
structure CopyRow (f : Forest) (above : Option NodeId) (id : NodeId) (done : List NodeId)
    (made : Array NodeId × Forest) : Prop where
  grows : f.nodes.size < made.2.nodes.size
  kept : ∀ x < f.nodes.size, made.2.node x = f.node x
  root : made.2.node f.nodes.size = blank (f.node id) above
  parent : ∀ x, f.nodes.size < x → x < made.2.nodes.size →
    ∃ p, (made.2.node x).parent = some p ∧ f.nodes.size ≤ p ∧ p < x
  links : ∀ p, f.nodes.size < p → ∀ c,
    (made.2.node p).childList.count c = if f.nodes.size < c ∧ (made.2.node c).parent = some p then 1 else 0
  copies : ∀ c, made.1.toList.count c = if f.nodes.size < c ∧ (made.2.node c).parent = some f.nodes.size then 1 else 0
  listeners : ∀ x, f.nodes.size < x → (made.2.node x).listeners = []
  looks : ∀ (α : Type) (v : Survey α) depth, made.1.toList.map (v.below made.2 depth) = done.map (v.below f depth)

lemma mem_of_count {ids : List NodeId} {low : NodeId} {up : Prop} [Decidable up]
    (counted : ids.count c = if low < c ∧ up then 1 else 0) : c ∈ ids ↔ low < c ∧ up := by
  rw [← count_pos_iff, counted]
  split <;> simp_all

variable {above : Option NodeId} {done : List NodeId} {made : Array NodeId × Forest}

/-- The children of a new node come after it. -/
lemma CopyOf.child (copied : CopyOf f g above id) (new : f.nodes.size ≤ x)
    (mem : c ∈ (g.node x).childList) : x < c ∧ c < g.nodes.size := by
  obtain ⟨later, up⟩ := (mem_of_count (copied.links x new c)).mp mem
  have inside := lt_size_of_parent up
  obtain ⟨p, up', _, before⟩ := copied.parent c later inside
  cases up.symm.trans up'
  exact ⟨before, inside⟩

lemma CopyOf.parent_new (copied : CopyOf f g none id) {p : NodeId} (new : f.nodes.size ≤ x)
    (up : (g.node x).parent = some p) : f.nodes.size ≤ p ∧ p < x := by
  rcases Nat.eq_or_lt_of_le new with rfl | later
  · rw [copied.root] at up
    cases up
  · obtain ⟨q, up', placed⟩ := copied.parent x later (lt_size_of_parent up)
    cases up.symm.trans up'
    exact placed

lemma CopyRow.child (row : CopyRow f above id done made) (new : f.nodes.size < x)
    (mem : c ∈ (made.2.node x).childList) : f.nodes.size < c ∧ c < made.2.nodes.size :=
  have found := (mem_of_count (row.links x new c)).mp mem
  ⟨found.1, lt_size_of_parent found.2⟩

lemma CopyRow.copy (row : CopyRow f above id done made) (mem : c ∈ made.1.toList) :
    f.nodes.size < c ∧ c < made.2.nodes.size :=
  have found := (mem_of_count (row.copies c)).mp mem
  ⟨found.1, lt_size_of_parent found.2⟩

lemma copyRow_start (f : Forest) (above : Option NodeId) (id : NodeId) :
    CopyRow f above id [] (#[], (f.add (blank (f.node id) above)).2) := by
  have beyond : ∀ x, f.nodes.size < x → (f.add (blank (f.node id) above)).2.node x = default := by
    intro x after
    rw [node_add, if_neg (Nat.ne_of_gt after), node_of_size_le (Nat.le_of_lt after)]
  have loose : ∀ c p, ¬ (f.nodes.size < c ∧ ((f.add (blank (f.node id) above)).2.node c).parent = some p) := by
    rintro c p ⟨after, up⟩
    rw [beyond c after] at up
    cases up
  refine ⟨?_, fun x before => ?_, ?_, fun x after inside => ?_, fun p after c => ?_, fun c => ?_, fun x after => ?_,
    fun _ _ _ => rfl⟩
  · rw [size_add]
    exact Nat.lt_succ_self _
  · rw [node_add, if_neg (Nat.ne_of_lt before)]
  · rw [node_add, if_pos rfl]
  · rw [size_add] at inside
    omega
  · rw [beyond p after, if_neg (loose c p)]
    rfl
  · rw [if_neg (loose c _)]
    rfl
  · rw [beyond x after]
    rfl

lemma CopyRow.step (row : CopyRow f above id done made) {next : Forest}
    (copied : CopyOf made.2 next (some f.nodes.size) c)
    (looked : ∀ (α : Type) (v : Survey α) depth, v.below made.2 depth c = v.below f depth c) :
    CopyRow f above id (done ++ [c]) (made.1.push made.2.nodes.size, next) := by
  have older := copied.kept
  -- of the nodes that are new now, the first lies under the node, and the others under each other
  have up : ∀ c, made.2.nodes.size ≤ c → ∀ p < made.2.nodes.size,
      (next.node c).parent = some p ↔ c = made.2.nodes.size ∧ p = f.nodes.size := by
    intro c new p old
    rcases Nat.eq_or_lt_of_le new with rfl | later
    · rw [copied.root]
      simp [eq_comm]
    · refine iff_of_false (fun up => ?_) fun same => Nat.ne_of_gt later same.1
      obtain ⟨q, up', inner, _⟩ := copied.parent c later (lt_size_of_parent up)
      cases up.symm.trans up'
      exact Nat.not_lt.mpr inner old
  have before : ∀ c, made.2.nodes.size ≤ c → (made.2.node c).parent = none := by
    intro c new
    rw [node_of_size_le new]
    rfl
  refine ⟨Nat.lt_trans row.grows copied.grows, fun x old => ?_, ?_, fun x after inside => ?_, fun p after c => ?_,
    fun c => ?_, fun x after => ?_, fun α v depth => ?_⟩
  · rw [older x (Nat.lt_trans old row.grows), row.kept x old]
  · rw [older _ row.grows, row.root]
  · rcases Nat.lt_trichotomy x made.2.nodes.size with old | rfl | new
    · rw [older x old]
      exact row.parent x after old
    · exact ⟨_, copied.root, Nat.le_refl _, after⟩
    · obtain ⟨p, up, low, below⟩ := copied.parent x new inside
      exact ⟨p, up, Nat.le_trans (Nat.le_of_lt row.grows) low, below⟩
  · by_cases old : p < made.2.nodes.size
    · rw [older p old, row.links p after c]
      by_cases known : c < made.2.nodes.size
      · rw [older c known]
      · have new := Nat.le_of_not_lt known
        rw [before c new, if_neg (by simp), if_neg fun both => Nat.ne_of_gt after ((up c new p old).mp both.2).2]
    · have new := Nat.le_of_not_lt old
      rw [copied.links p new c]
      congr 1
      refine propext (and_congr_left fun up => ⟨Nat.lt_trans row.grows, fun later => ?_⟩)
      rcases Nat.lt_trichotomy c made.2.nodes.size with known | rfl | further
      · rw [older c known] at up
        obtain ⟨q, up', _, below⟩ := row.parent c later known
        cases up.symm.trans up'
        exact absurd (Nat.lt_trans below known) old
      · rw [copied.root] at up
        cases up
        exact absurd row.grows old
      · exact further
  · rw [Array.toList_push, List.count_append, row.copies c, List.count_singleton]
    rcases Nat.lt_trichotomy c made.2.nodes.size with known | rfl | further
    · rw [older c known]
      simp [Nat.ne_of_gt known]
    · rw [before _ (Nat.le_refl _), copied.root]
      simp [row.grows]
    · simp [before c (Nat.le_of_lt further), up c (Nat.le_of_lt further) _ row.grows, Nat.ne_of_lt further,
        Nat.ne_of_gt further]
  · by_cases old : x < made.2.nodes.size
    · rw [older x old]
      exact row.listeners x after
    · exact copied.listeners x (Nat.le_of_not_lt old)
  · have same : made.1.toList.map (v.below next depth) = made.1.toList.map (v.below made.2 depth) := by
      refine List.map_congr_left fun c mem => ?_
      refine v.below_congr
        (fun x inside c => row.child inside.1) (fun x inside => older x inside.2) depth (row.copy mem)
    rw [Array.toList_push, List.map_append, List.map_append, same, row.looks, List.map_singleton, List.map_singleton,
      copied.looks, looked]

lemma CopyRow.finish (row : CopyRow f above id (f.node id).childList made) :
    CopyOf f (made.2.modify f.nodes.size fun n => n.holding made.1.toList) above id := by
  have root : (made.2.modify f.nodes.size fun n => n.holding made.1.toList).node f.nodes.size =
      (blank (f.node id) above).holding made.1.toList := by
    rw [node_modify, if_pos ⟨rfl, row.grows⟩, row.root]
  have other : ∀ x, x ≠ f.nodes.size →
      (made.2.modify f.nodes.size fun n => n.holding made.1.toList).node x = made.2.node x := by
    intro x different
    rw [node_modify, if_neg fun same => different same.1]
  have up (x : NodeId) := parent_modify made.2 f.nodes.size (·.holding made.1.toList) (fun _ => rfl) x
  refine ⟨?_, fun x before => ?_, ?_, fun x after inside => ?_, fun p after c => ?_, fun x after => ?_, fun α v depth => ?_⟩
  · rw [size_modify]
    exact row.grows
  · rw [other x (Nat.ne_of_lt before), row.kept x before]
  · rw [root]
    rfl
  · rw [size_modify] at inside
    rw [up]
    exact row.parent x after inside
  · rw [up]
    rcases Nat.eq_or_lt_of_le after with rfl | later
    · rw [root, Node.holding_childList, row.copies c]
    · rw [other p (Nat.ne_of_gt later), row.links p later c]
  · rcases Nat.eq_or_lt_of_le after with rfl | later
    · rw [root]
      rfl
    · rw [other x (Nat.ne_of_gt later)]
      exact row.listeners x later
  · cases depth with
    | zero => rfl
    | succ depth =>
      have kids : made.1.toList.map (v.below (made.2.modify f.nodes.size fun n => n.holding made.1.toList) depth) =
          made.1.toList.map (v.below made.2 depth) := by
        refine map_congr_left fun c mem => ?_
        exact v.below_congr (fun x inside c among => (row.child inside among).1)
          (fun x inside => other x (Nat.ne_of_gt inside)) depth (row.copy mem).1
      rw [Survey.below, Survey.below, root, Node.holding_childList, kids, row.looks]
      rfl

lemma copyOf_cloneBelow (above : Option NodeId) (ends : f.Ends depth id) :
    (cloneBelow depth above f id).1 = f.nodes.size ∧ CopyOf f (cloneBelow depth above f id).2 above id := by
  induction depth generalizing f id above with
  | zero => cases ends
  | succ depth ih =>
    have rows : ∀ (left done : List NodeId) (made : Array NodeId × Forest), CopyRow f above id done made →
        (∀ c ∈ left, c < f.nodes.size ∧ f.Ends depth c) →
        CopyRow f above id (done ++ left) (left.foldl (copyStep depth f.nodes.size) made) := by
      intro left
      induction left with
      | nil =>
        intro done made row _
        rw [append_nil]
        exact row
      | cons c rest next =>
        intro done made row members
        rw [forall_mem_cons] at members
        obtain ⟨copy, copied⟩ := @ih made.2 c (some f.nodes.size)
          (members.1.2.congr members.1.1 (Nat.le_of_lt row.grows) row.kept)
        have stepped := row.step copied fun α v depth =>
          v.below_congr (fun _ => Finite.child) (fun x here => row.kept x here.1) depth ⟨members.1.1, _, members.1.2⟩
        rw [← copy] at stepped
        have rest := next _ _ stepped members.2
        rw [append_assoc] at rest
        exact rest
    have row := rows (f.node id).childList [] _ (copyRow_start f above id) ends
    exact ⟨rfl, row.finish⟩

lemma CopyOf.markup_eq (copied : CopyOf f g none id) (ends : f.Ends f.bound id) :
    g.markup f.nodes.size = f.markup id := by
  rw [markup, markup, Survey.markupBelow_eq, Survey.markupBelow_eq, copied.looks]
  exact Survey.written.below_of_ends ends (Nat.succ_le_succ (Nat.le_of_lt copied.grows))

end TagScript.Markup.Forest
