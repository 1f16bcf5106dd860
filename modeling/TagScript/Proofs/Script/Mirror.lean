import TagScript.Proofs.Markup.Rework
import TagScript.Proofs.Script.Meaning
import TagScript.Proofs.Script.Quiet

/-!
# A machine beside an evaluation

A scene tracks a machine if both know the same and every function has its body in nodes that are
kept. The rules below follow a run and an evaluation side by side.
-/

namespace TagScript.Script

open Markup

variable {g : Machine → Machine}

def Builtin.core : Builtin → Bool
  | .store | .man | .calc | .output | .condition | .countedLoop | .loop | .function | .call | .scope
  | .attempt | .signal _ => true
  | _ => false

def Handler.core : Handler → Bool
  | .builtin b => b.core
  | .host _ _ => false

/-- A tag means nothing, or an element that the evaluator knows. -/
def Covered (table : Assoc Handler) (tag : String) : Prop :=
  ∀ handler ∈ Assoc.get? tag table, handler.core = true

instance (table : Assoc Handler) (tag : String) : Decidable (Covered table tag) :=
  inferInstanceAs (Decidable (∀ handler ∈ Assoc.get? tag table, handler.core = true))

lemma Calm.mention (raised : Raised) : Calm (Meaning.mention raised) :=
  Calm.ask (fun _ _ => rfl) fun _ => Calm.diagnose _

/-- A function has the body that a definition says, in nodes that are kept. -/
structure Realises (table : Assoc Handler) (P : Plot) (f : Function) (d : Definition) : Prop where
  params : f.params = d.params
  closure : f.closure = d.closure
  body : ∃ h, Holds P.toForest f.body h ∧ h.shape = d.body ∧ ∀ x ∈ f.body :: h.places, P.kept x
  covered : d.body.AllTags (Covered table)

/-- A scene says of a machine all but its nodes, and of functions all that names lead to. -/
structure Tracks (table : Assoc Handler) (kept : NodeId → Prop) (m : Machine) (s : Scene) : Prop where
  machine : s.machine = m.bare
  handlers : m.session.handlers = table
  size : s.definitions.size = m.functions.size
  known : ∀ name i, Assoc.get? name m.session.functions = some i → i < m.functions.size ∧
    Realises table ⟨m.forest, kept⟩ (m.functions.getD i default) (s.definitions.getD i default)
  bounded : ∀ x, kept x → x < m.forest.nodes.size

variable {table : Assoc Handler} {kept : NodeId → Prop} {m : Machine} {s : Scene} {α β γ : Type}
  {p id : NodeId} {h k : Hedge NodeId} {base : Plot}

lemma act_get_bind (next : Scene → Act β) (s : Scene) : (get >>= next) s = next s s := rfl

lemma Realises.congr {P Q : Plot} {f : Function} {d : Definition} (realises : Realises table P f d)
    (grows : P.nodes.size ≤ Q.nodes.size) (same : ∀ x, P.kept x → Q.node x = P.node x)
    (keeps : ∀ x, P.kept x → Q.kept x) : Realises table Q f d where
  params := realises.params
  closure := realises.closure
  body := by
    obtain ⟨h, holds, shape, inside⟩ := realises.body
    exact ⟨h, holds.congr grows fun x among => same x (inside x among), shape, fun x among => keeps x (inside x among)⟩
  covered := realises.covered

namespace Tracks

lemma session (tracks : Tracks table kept m s) : s.machine.session = m.session := by
  rw [tracks.machine]
  rfl

lemma settings (tracks : Tracks table kept m s) : s.machine.settings = m.settings := by
  rw [tracks.machine]
  rfl

lemma quiet {c : Run α} (tracks : Tracks table kept m s) (quiet : Quiet c) :
    c s.machine = ((c m).1, (c m).2.bare) ∧ (c m).2.forest = m.forest ∧
      Tracks table kept (c m).2 { s with machine := (c m).2.bare } := by
  have untouched := quiet.furnished m m.forest m.functions
  have forest : (c m).2.forest = m.forest := congrArg (fun result => result.2.forest) untouched
  have functions : (c m).2.functions = m.functions := congrArg (fun result => result.2.functions) untouched
  have charter := quiet.charter m
  have known : (c m).2.session.functions = m.session.functions := congrArg Prod.fst charter
  refine ⟨?_, forest, rfl, ?_, ?_, ?_, ?_⟩
  · rw [tracks.machine]
    exact quiet.furnished m .empty #[]
  · exact (congrArg Prod.snd charter).trans tracks.handlers
  · rw [functions]
    exact tracks.size
  · rw [functions, forest, known]
    exact tracks.known
  · rw [forest]
    exact tracks.bounded

lemma congr {g : Forest} (tracks : Tracks table kept m s) (grows : m.forest.nodes.size ≤ g.nodes.size)
    (same : ∀ x, kept x → g.node x = m.forest.node x) : Tracks table kept { m with forest := g } s where
  machine := tracks.machine
  handlers := tracks.handlers
  size := tracks.size
  known name i found :=
    (tracks.known name i found).imp_right fun realises => realises.congr grows same fun _ kept => kept
  bounded x kept := Nat.lt_of_lt_of_le (tracks.bounded x kept) grows

lemma spoils {g : Forest} (tracks : Tracks table kept m s) (own : Owns ⟨m.forest, kept⟩ p h)
    (spoils : Spoils ⟨m.forest, kept⟩ ⟨g, kept⟩ p h) : Tracks table kept { m with forest := g } s :=
  tracks.congr spoils.grows fun x kept => spoils.frame x (tracks.bounded x kept) fun among => own.free x among kept

end Tracks

/-! ## Side by side -/

/-- A run and an evaluation come to the same end: both give results, of which something is known, or
both fail with the same fault. -/
inductive Mirrors (fails : Machine → Scene → Prop) (gives : α → Except Signal β → Machine → Scene → Prop) :
    Except Raised α × Machine → Except Raised (Except Signal β) × Scene → Prop where
  | ended {a : α} {b : Except Signal β} {m : Machine} {s : Scene} (known : gives a b m s) :
    Mirrors fails gives (.ok a, m) (.ok b, s)
  | failed {raised : Raised} {m : Machine} {s : Scene} (known : fails m s) :
    Mirrors fails gives (.error raised, m) (.error raised, s)

def Plain (known : α → β → Machine → Scene → Prop) : α → Except Signal β → Machine → Scene → Prop
  | a, .ok b, m, s => known a b m s
  | _, .error _, _, _ => False

def Signals (fails : Machine → Scene → Prop) (known : β → Machine → Scene → Prop) :
    Option Signal → Except Signal β → Machine → Scene → Prop
  | none, .ok b, m, s => known b m s
  | some signal, .error signal', m, s => signal = signal' ∧ fails m s
  | _, _, _, _ => False

variable {b : Except Signal β}

lemma Plain.cases {known : α → β → Machine → Scene → Prop} {a : α} (plain : Plain known a b m s) :
    ∃ b', b = .ok b' ∧ known a b' m s := by
  cases b with
  | error signal => exact plain.elim
  | ok b => exact ⟨b, rfl, plain⟩

variable {known : β → Machine → Scene → Prop} {fails : Machine → Scene → Prop}

lemma Signals.cases {a : Option Signal} (signals : Signals fails known a b m s) :
    (∃ b', a = none ∧ b = .ok b' ∧ known b' m s) ∨ ∃ signal, a = some signal ∧ b = .error signal ∧ fails m s := by
  cases a with
  | none =>
    cases b with
    | error signal => exact signals.elim
    | ok b => exact .inl ⟨b, rfl, rfl, signals⟩
  | some signal =>
    cases b with
    | error signal' => exact .inr ⟨signal, rfl, signals.1 ▸ rfl, signals.2⟩
    | ok b => exact signals.elim

lemma act_bind (d : Act β) (l : β → Act γ) (s : Scene) :
    (d >>= l) s = match d s with
      | (.ok (.ok b), after) => l b after
      | (.ok (.error signal), after) => (.ok (.error signal), after)
      | (.error raised, after) => (.error raised, after) := by
  simp only [ExceptT.bind, ExceptT.mk, bind, StateT.bind]
  rcases d s with ⟨result, after⟩
  rcases result with raised | (signal | b) <;> rfl

namespace Meaning

lemma play_bind (c : Run α) (next : α → Run β) :
    play (c >>= next) = play c >>= fun a => play (next a) := by
  funext s
  rw [act_bind]
  simp only [play, run_bind]
  rcases c s.machine with ⟨result, m⟩
  cases result with
  | error | ok => rfl

lemma holds_eq (condition : String) : holds condition = play (Script.holds condition) := by
  rw [Script.holds, play_bind]
  rfl

lemma calculated_eq (node : Node) : calculated node = play (calcText node) := by
  simp only [calcText, play_bind]
  rfl

lemma filledIn_eq (node : Node) : filledIn node = play (outputText node) := by
  unfold filledIn outputText
  cases node.attr? "template" with
  | none =>
    simp only [play_bind]
    rfl
  | some template =>
    simp only [visibleData, play_bind, bind_assoc]
    rfl

end Meaning

namespace Mirrors

variable {fails fails' : Machine → Scene → Prop} {δ : Type}
  {gives gives' : α → Except Signal β → Machine → Scene → Prop}

lemma weaken {x : Except Raised α × Machine} {y : Except Raised (Except Signal β) × Scene}
    (mirrors : Mirrors fails gives x y) (failing : ∀ m s, fails m s → fails' m s)
    (giving : ∀ a b m s, gives a b m s → gives' a b m s) : Mirrors fails' gives' x y := by
  cases mirrors with
  | ended known => exact .ended (giving _ _ _ _ known)
  | failed known => exact .failed (failing _ _ known)

variable {c : Run α} {d : Act β}

lemma bind {known : α → β → Machine → Scene → Prop} {gives : γ → Except Signal δ → Machine → Scene → Prop}
    {k : α → Run γ} {l : β → Act δ} (first : Mirrors fails (Plain known) (c m) (d s))
    (after : ∀ a b m s, known a b m s → Mirrors fails gives (k a m) (l b s)) :
    Mirrors fails gives ((c >>= k) m) ((d >>= l) s) := by
  rw [run_bind, act_bind]
  generalize c m = x at first
  generalize d s = y at first
  cases first with
  | failed known => exact .failed known
  | ended plain =>
    obtain ⟨b, rfl, known⟩ := plain.cases
    exact after _ b _ _ known

variable {known' : γ → Machine → Scene → Prop}

lemma chain {c : Run (Option Signal)} {k : Option Signal → Run (Option Signal)} {l : β → Act γ}
    (first : Mirrors fails (Signals fails known) (c m) (d s))
    (passes : ∀ signal, k (some signal) = pure (some signal))
    (after : ∀ b m s, known b m s → Mirrors fails (Signals fails known') (k none m) (l b s)) :
    Mirrors fails (Signals fails known') ((c >>= k) m) ((d >>= l) s) := by
  rw [run_bind, act_bind]
  generalize c m = x at first
  generalize d s = y at first
  cases first with
  | failed known => exact .failed known
  | ended signals =>
    obtain ⟨b, rfl, rfl, known⟩ | ⟨signal, rfl, rfl, known⟩ := signals.cases
    · exact after b _ _ known
    · simp only [passes]
      exact .ended ⟨rfl, known⟩

lemma map {x : Except Raised (Option Signal) × Machine} (mirrors : Mirrors fails (Signals fails known) x (d s))
    (f : β → γ) (after : ∀ b m s, known b m s → known' (f b) m s) :
    Mirrors fails (Signals fails known') x ((d >>= fun b => pure (f b)) s) := by
  rw [act_bind]
  generalize d s = y at mirrors
  cases mirrors with
  | failed known => exact .failed known
  | ended signals =>
    obtain ⟨b, rfl, rfl, known⟩ | ⟨signal, rfl, rfl, known⟩ := signals.cases
    · exact .ended (after b _ _ known)
    · exact .ended ⟨rfl, known⟩

lemma always {after : Machine → Machine} (body : Mirrors fails gives (c m) (d s))
    (failing : ∀ m s, fails m s → fails' (after m) { s with machine := after s.machine })
    (giving : ∀ a b m s, gives a b m s → gives' a b (after m) { s with machine := after s.machine }) :
    Mirrors fails' gives' (always c after m) (Meaning.always d after s) := by
  unfold Script.always Meaning.always
  generalize c m = x at body
  generalize d s = y at body
  cases body with
  | ended known => exact .ended (giving _ _ _ _ known)
  | failed known => exact .failed (failing _ _ known)

lemma recover {gives : α → Except Signal β → Machine → Scene → Prop}
    {handle : Raised → Run α} {handle' : Raised → Act β} (body : Mirrors fails gives (c m) (d s))
    (handled : ∀ raised m s, fails m s → Mirrors fails' gives (handle raised m) (handle' raised s)) :
    Mirrors fails' gives (recover c handle m) (Meaning.recover d handle' s) := by
  unfold Script.recover Meaning.recover
  generalize c m = x at body
  generalize d s = y at body
  cases body with
  | ended known => exact .ended known
  | failed known => exact handled _ _ _ known

end Mirrors

variable {gives : β → Except Signal γ → Machine → Scene → Prop}

lemma Tracks.play {c : Run α} {next : α → Run β} {next' : α → Act γ} (tracks : Tracks table kept m s) (quiet : Quiet c)
    (failing : ∀ m' s', Tracks table kept m' s' → m'.forest = m.forest → fails m' s')
    (after : ∀ a m' s', Tracks table kept m' s' → m'.forest = m.forest → Mirrors fails gives (next a m') (next' a s')) :
    Mirrors fails gives ((c >>= next) m) ((Meaning.play c >>= next') s) := by
  obtain ⟨same, forest, tracks⟩ := tracks.quiet quiet
  rw [run_bind, act_bind]
  simp only [Meaning.play]
  rw [same]
  rcases found : c m with ⟨result, m'⟩
  rw [found] at forest tracks
  cases result with
  | error raised => exact .failed (failing m' _ tracks forest)
  | ok a => exact after a m' _ tracks forest

/-! ## Work on a row of trees -/

/-- A row has been worked on, and a scene tracks the machine. -/
def Working (table : Assoc Handler) (base : Plot) (p : NodeId) (h k : Hedge NodeId) (m : Machine) (s : Scene) :
    Prop :=
  ∃ kept, Tracks table kept m s ∧ Reworks base ⟨m.forest, kept⟩ p h k

/-- The work on a row has been given up. -/
def Abandoned (table : Assoc Handler) (base : Plot) (p : NodeId) (h : Hedge NodeId) (m : Machine) (s : Scene) :
    Prop :=
  ∃ kept, Tracks table kept m s ∧ Spoils base ⟨m.forest, kept⟩ p h

lemma Signals.imp {fails fails' : Machine → Scene → Prop} {known known' : β → Machine → Scene → Prop}
    {m' : Machine} {s' : Scene} {a : Option Signal} (signals : Signals fails known a b m s)
    (failing : fails m s → fails' m' s') (knowing : ∀ b, known b m s → known' b m' s') :
    Signals fails' known' a b m' s' := by
  obtain ⟨b, rfl, rfl, known⟩ | ⟨signal, rfl, rfl, known⟩ := signals.cases
  · exact knowing b known
  · exact ⟨rfl, failing known⟩

lemma Tracks.change (tracks : Tracks table kept m s)
    (quiet : Quiet (modify g : Run PUnit)) :
    Tracks table kept (g m) { s with machine := g s.machine } ∧ (g m).forest = m.forest := by
  obtain ⟨same, forest, tracks⟩ := tracks.quiet quiet
  have same : g s.machine = (g m).bare := congrArg Prod.snd same
  rw [same]
  exact ⟨tracks, forest⟩

lemma Abandoned.change (given : Abandoned table base p h m s)
    (quiet : Quiet (modify g : Run PUnit)) :
    Abandoned table base p h (g m) { s with machine := g s.machine } := by
  obtain ⟨kept, tracks, spoils⟩ := given
  obtain ⟨tracks, forest⟩ := tracks.change quiet
  exact ⟨kept, tracks, forest ▸ spoils⟩

namespace Working

lemma abandon (work : Working table base p h k m s) : Abandoned table base p h m s := by
  obtain ⟨kept, tracks, reworks⟩ := work
  exact ⟨kept, tracks, reworks.toSpoils⟩

lemma change (work : Working table base p h k m s)
    (quiet : Quiet (modify g : Run PUnit)) :
    Working table base p h k (g m) { s with machine := g s.machine } ∧ (g m).forest = m.forest := by
  obtain ⟨kept, tracks, reworks⟩ := work
  obtain ⟨tracks, forest⟩ := tracks.change quiet
  exact ⟨⟨kept, tracks, forest ▸ reworks⟩, forest⟩

lemma play {c : Run α} {next : α → Run β} {next' : α → Act γ} (work : Working table base p h k m s) (quiet : Quiet c)
    (after : ∀ a m' s', Working table base p h k m' s' → m'.forest = m.forest →
      Mirrors (Abandoned table base p h) gives (next a m') (next' a s')) :
    Mirrors (Abandoned table base p h) gives ((c >>= next) m) ((Meaning.play c >>= next') s) := by
  obtain ⟨kept, tracks, reworks⟩ := work
  refine tracks.play quiet (fun m' s' tracks forest => ?_) fun a m' s' tracks forest => ?_
  · refine ⟨kept, tracks, ?_⟩
    rw [forest]
    exact reworks.toSpoils
  · refine after a m' s' ⟨kept, tracks, ?_⟩ forest
    rw [forest]
    exact reworks

lemma rework {g : Forest} {l : Hedge NodeId} (work : Working table base p h k m s)
    (step : ∀ kept, Owns ⟨m.forest, kept⟩ p k → (∀ x, kept x → x < m.forest.nodes.size) →
      Reworks ⟨m.forest, kept⟩ ⟨g, kept⟩ p k l) :
    Working table base p h l { m with forest := g } s := by
  obtain ⟨kept, tracks, reworks⟩ := work
  have next := step kept reworks.owns tracks.bounded
  exact ⟨kept, tracks.spoils reworks.owns next.toSpoils, reworks.trans next⟩

end Working

/-- A walk through the children of a node does what an evaluation of its row says. -/
def Faithful (table : Assoc Handler) (walk : Walk) (told : Trees → Act Trees) : Prop :=
  ∀ kept m s p h, Tracks table kept m s → Owns ⟨m.forest, kept⟩ p h → h.AllTags (Covered table) →
    Mirrors (Abandoned table ⟨m.forest, kept⟩ p h)
      (Signals (Abandoned table ⟨m.forest, kept⟩ p h) fun shown m' s' =>
        ∃ k, k.shape = shown ∧ Working table ⟨m.forest, kept⟩ p h k m' s')
      (walk p m) (told h.shape s)

end TagScript.Script
