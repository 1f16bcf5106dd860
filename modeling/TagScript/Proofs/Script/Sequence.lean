import TagScript.Proofs.Script.Mirror

/-!
# One row of trees after another

A row of trees can be evaluated in two parts, with any other document in between, unless the last
element of the first part has its partner in the second one.
-/

namespace TagScript.Script

open Markup Meaning Assoc

variable {s : Scene}

def Scene.fitted (s : Scene) (f : Fittings) : Scene := { s with machine := s.machine.fitted f }

def SameTags (handlers table : Assoc Handler) : Prop := ∀ tag, get? tag handlers = get? tag table

lemma AllTags.retable {ι : Type} {handlers table : Assoc Handler} {h : Hedge ι} (same : SameTags handlers table)
    (covered : h.AllTags (Covered table)) : h.AllTags (Covered handlers) := by
  have each : ∀ tag, Covered handlers tag ↔ Covered table tag := fun tag => by rw [Covered, same tag, Covered]
  rwa [show Covered handlers = Covered table from funext fun tag => propext (each tag)]

def handledBy (handler : Option Handler) (walk : Trees → Act Trees) (tag : String) (attrs : Assoc String)
    (kids rest : Trees) : Act Shown :=
  match handler with
  | some (.builtin b) => Meaning.builtin walk b tag attrs kids rest
  | _ => Meaning.container walk tag attrs kids

lemma handled_apply (walk : Trees → Act Trees) (tag : String) (attrs : Assoc String) (kids rest : Trees) (s : Scene) :
    Meaning.handled walk tag attrs kids rest s =
      handledBy (get? tag s.machine.session.handlers) walk tag attrs kids rest s := rfl

/-- What is settled for the next element is settled only if there is one. -/
abbrev Shown.Partnered (rest : Trees) (shown : Shown) : Prop := shown.next ≠ none → rest.leading ≠ none

abbrev Shown.Alone (shown : Shown) : Prop := shown.next = none

/-- Where tags do what a table says, an evaluation has to do with none of the fittings. Something
holds of its results. -/
def Aloof {α : Type} (table : Assoc Handler) (Q : α → Prop) (d : Act α) : Prop :=
  ∀ s f, SameTags s.machine.session.handlers table → SameTags f.handlers table →
    d (s.fitted f) = ((d s).1, (d s).2.fitted f) ∧ ∀ a, (d s).1 = .ok (.ok a) → Q a

namespace Aloof

variable {α β : Type} {table : Assoc Handler} {P : α → Prop} {Q : β → Prop} {d : Act α}

lemma fittings (aloof : Aloof table P d) (tags : SameTags s.machine.session.handlers table) :
    (d s).2.machine.fittings = s.machine.fittings := by
  have same : d s = ((d s).1, (d s).2.fitted s.machine.fittings) := (aloof s s.machine.fittings tags tags).1
  rw [same]
  rfl

lemma tags (aloof : Aloof table P d) {s : Scene} (tags : SameTags s.machine.session.handlers table) :
    SameTags (d s).2.machine.session.handlers table := by
  rwa [show (d s).2.machine.session.handlers = s.machine.session.handlers from
    congrArg Fittings.handlers (aloof.fittings tags)]

lemma any (aloof : Aloof table P d) : Aloof table Any d :=
  fun s f tags tags' => ⟨(aloof s f tags tags').1, fun _ _ => trivial⟩

lemma pure {a : α} (known : P a) : Aloof table P (Pure.pure a) := by
  refine fun s f _ _ => ⟨rfl, fun b found => ?_⟩
  cases found
  exact known

lemma throw (signal : Signal) : Aloof table P (throw signal : Act α) :=
  fun _ _ _ _ => ⟨rfl, nofun⟩

lemma bind {l : α → Act β} (first : Aloof table P d) (after : ∀ a, P a → Aloof table Q (l a)) :
    Aloof table Q (d >>= l) := by
  intro s f tags tags'
  have kept := first.tags tags
  obtain ⟨same, known⟩ := first s f tags tags'
  rw [act_bind, act_bind, same]
  rcases found : d s with ⟨result, s'⟩
  rw [found] at kept known
  rcases result with raised | (signal | a)
  · exact ⟨rfl, nofun⟩
  · exact ⟨rfl, nofun⟩
  · exact after a (known a rfl) s' f kept tags'

lemma ask {k : Scene → Act α} (blind : ∀ s f, k (s.fitted f) = k s) (after : ∀ s, Aloof table P (k s)) :
    Aloof table P (get >>= k) := by
  intro s f tags tags'
  rw [act_get_bind, act_get_bind, blind]
  exact after s s f tags tags'

lemma play {c : Run α} (quiet : Quiet c) : Aloof table Any (Meaning.play c) := by
  intro s f _ _
  refine ⟨?_, fun _ _ => trivial⟩
  unfold Meaning.play
  rw [show (s.fitted f).machine = s.machine.fitted f from rfl, quiet.fitted]
  rfl

lemma raise (fault : Fault) : Aloof table P (Meaning.play (Script.raise fault) : Act α) :=
  fun _ _ _ _ => ⟨rfl, nofun⟩

lemma always {after : Machine → Machine} (body : Aloof table P d)
    (fitted : ∀ m f, after (m.fitted f) = (after m).fitted f) : Aloof table P (Meaning.always d after) := by
  intro s f tags tags'
  obtain ⟨same, known⟩ := body s f tags tags'
  refine ⟨?_, known⟩
  unfold Meaning.always
  rw [same]
  exact congrArg (fun m => ((d s).1, ({ (d s).2 with machine := m } : Scene))) (fitted _ _)

lemma recover {handle : Raised → Act α} (body : Aloof table P d) (handled : ∀ raised, Aloof table P (handle raised)) :
    Aloof table P (Meaning.recover d handle) := by
  intro s f tags tags'
  have kept := body.tags tags
  obtain ⟨same, known⟩ := body s f tags tags'
  unfold Meaning.recover
  rw [same]
  rcases found : d s with ⟨result, s'⟩
  rw [found] at kept known
  cases result with
  | error raised => exact handled raised s' f kept tags'
  | ok result => exact ⟨rfl, known⟩

lemma signalled (body : Aloof table P d) : Aloof table Any (Meaning.signalled d) := by
  intro s f tags tags'
  refine ⟨?_, fun _ _ => trivial⟩
  unfold Meaning.signalled
  rw [(body s f tags tags').1]
  rfl

/-! ## Elements -/

lemma within (tag : String) (body : Aloof table P d) : Aloof table P (Meaning.within tag d) := by
  have entering : Quiet (modify (·.enter tag) : Run PUnit) := Quiet.change (fun _ _ => rfl) fun _ => rfl
  refine (play entering).bind fun _ _ => (body.recover fun raised => ?_).always fun _ _ => rfl
  refine fun s f tags tags' => ⟨((play ((Calm.blamed tag raised).bind fun _ => Calm.throw _).quiet) s f tags tags').1, ?_⟩
  intro a found
  unfold Meaning.play at found
  rw [run_bind] at found
  rcases blaming : blamed tag raised s.machine with ⟨result, m⟩
  rw [blaming] at found
  cases result <;> cases found

lemma inScope (body : Aloof table P d) : Aloof table P (Meaning.inScope d) :=
  (play (Quiet.changeEnv _)).bind fun _ _ => body.always fun _ _ => rfl

lemma inFrame (closure : Bindings) (body : Aloof table P d) : Aloof table P (Meaning.inFrame closure d) := by
  have entering : Quiet (modify fun m =>
      { m with
        store := (m.session.env.enterFrame m.store closure).2.2
        session := { m.session with env := (m.session.env.enterFrame m.store closure).2.1 } } : Run PUnit) :=
    Quiet.change (fun _ _ => rfl) fun _ => rfl
  exact ask (fun _ _ => rfl) fun s => (play entering).bind fun _ _ => body.always fun _ _ => rfl

lemma row {element : String → Assoc String → Trees → Trees → Act Shown}
    (each : ∀ tag attrs kids rest, Aloof table Any (element tag attrs kids rest)) (due : Option Trees) (h : Trees) :
    Aloof table Any (row element due h) := by
  induction h generalizing due with
  | nil => exact pure trivial
  | text place content rest ih => exact (ih due).bind fun _ _ => pure trivial
  | element place tag attrs kids rest _ ih =>
    cases due with
    | some due => exact (ih none).bind fun _ _ => pure trivial
    | none => exact (each tag attrs kids rest).bind fun first _ => (ih first.next).bind fun _ _ => pure trivial

lemma oneRound {body : Act Trees} (each : Aloof table Any body) (step : Option String) :
    Aloof table Any (Meaning.oneRound body step) := by
  refine each.signalled.bind fun outcome _ => ?_
  split
  · exact pure trivial
  · exact (play (Calm.statement step).quiet).bind fun _ _ => pure trivial

lemma rounds {body : Act Trees} (each : Aloof table Any body) (condition : String) (step : Option String)
    (limit : Option Nat) (n : Nat) : Aloof table Any (Meaning.rounds body condition step limit n) := by
  induction n with
  | zero =>
    rw [Meaning.rounds, Meaning.holds_eq]
    refine (play (Calm.holds condition).quiet).bind fun holds _ => ?_
    split
    · exact (play (Calm.raise _).quiet).bind fun _ _ => pure trivial
    · exact pure trivial
  | succ n ih =>
    rw [Meaning.rounds, Meaning.holds_eq]
    refine (play (Calm.holds condition).quiet).bind fun holds _ => ?_
    split
    · refine (oneRound each step).bind fun outcome _ => ?_
      split
      · exact pure trivial
      · exact ih.bind fun _ _ => pure trivial
    · exact pure trivial

lemma results (result : Value) (attrs : List (Assoc String)) : Aloof table Any (Meaning.results result attrs) := by
  induction attrs generalizing result with
  | nil => exact pure trivial
  | cons first rest ih => exact (play (Calm.returnValue _).quiet).bind fun value _ => ih value

section

variable {walk : Trees → Act Trees} (walks : ∀ h, Aloof table Any (walk h))
include walks

lemma loop (kids : Trees) (condition : String) (step : Option String) :
    Aloof table Shown.Alone (Meaning.loop (walk kids) condition step) :=
  ask (fun _ _ => rfl) fun _ => (rounds (walks kids) _ _ _ _).bind fun _ _ => pure rfl

lemma apply (f : Definition) (args : List Value) : Aloof table Any (Meaning.apply walk f args) := by
  refine inFrame f.closure ?_
  refine (play (Calm.forM fun _ => Calm.bindName _ _).quiet).bind fun _ _ => ?_
  exact (walks f.body).bind fun _ _ => (results _ _).bind fun _ _ => pure trivial

lemma call (node : Node) : Aloof table Shown.Alone (Meaning.call walk node) := by
  refine (play (Calm.required _ _).quiet).bind fun name _ => ?_
  have named : Aloof table Any (Meaning.definitionNamed name) := by
    refine ask (fun _ _ => rfl) fun s => ?_
    cases get? name s.machine.session.functions with
    | none => exact raise _
    | some id => exact pure trivial
  refine named.bind fun f _ => (play (Calm.arguments _).quiet).bind fun args _ => ?_
  dsimp only
  split
  on_goal 1 => refine (raise (P := Any) _).bind fun _ _ => ?_
  all_goals
    refine (apply walks f args).bind fun answer _ => ?_
    cases given? node "var" with
    | some var => exact (play (Calm.bindName _ _).quiet).bind fun _ _ => pure rfl
    | none => exact pure rfl

omit walks in
lemma leads {rest : Trees} {tag : String} {found : Unit × Assoc String × Trees} (partner : rest.partner tag = some found) :
    rest.leading ≠ none := by
  rw [Hedge.leading_of_partner partner]
  exact Option.some_ne_none _

lemma condition (node : Node) (kids rest : Trees) :
    Aloof table (Shown.Partnered rest) (Meaning.condition walk node kids rest) := by
  refine (play (Calm.required _ _).quiet).bind fun condition _ => ?_
  rw [Meaning.holds_eq]
  refine (play (Calm.holds _).quiet).bind fun holds _ => ?_
  cases found : rest.partner "else" with
  | none =>
    split
    · exact (walks kids).bind fun _ _ => pure fun due => absurd rfl due
    · exact pure fun due => absurd rfl due
  | some other =>
    split
    · exact (walks kids).bind fun _ _ => pure fun _ => leads found
    · exact (walks _).bind fun _ _ => pure fun _ => leads found

lemma attempt (kids rest : Trees) : Aloof table (Shown.Partnered rest) (Meaning.attempt walk kids rest) := by
  unfold Meaning.attempt
  cases found : rest.partner "catch" with
  | none =>
    refine recover ((walks kids).bind fun _ _ => pure fun due => absurd rfl due) fun raised => ?_
    exact fun _ _ _ _ => ⟨rfl, nofun⟩
  | some other =>
    refine recover ((walks kids).bind fun _ _ => pure fun _ => leads found) fun raised => ?_
    refine (play (Calm.mention raised).quiet).bind fun _ _ => (play (Calm.bindName _ _).quiet).bind fun _ _ => ?_
    exact (walks _).bind fun _ _ => pure fun _ => leads found

lemma builtin (b : Builtin) (tag : String) (attrs : Assoc String) (kids rest : Trees) :
    Aloof table (Shown.Partnered rest) (Meaning.builtin walk b tag attrs kids rest) := by
  have alone : ∀ {d : Act Shown}, Aloof table Shown.Alone d → Aloof table (Shown.Partnered rest) d :=
    fun aloof s f tags tags' => ⟨(aloof s f tags tags').1, fun a found due => absurd ((aloof s f tags tags').2 a found) due⟩
  have container : Aloof table Shown.Alone (Meaning.container walk tag attrs kids) :=
    (walks kids).bind fun _ _ => pure rfl
  unfold Meaning.builtin
  split
  · exact alone ((play (Calm.storeVariable _).quiet).bind fun _ _ => pure rfl)
  · exact alone ((play (Calm.changeVariable _).quiet).bind fun _ _ => pure rfl)
  · rw [Meaning.display, Meaning.calculated_eq]
    exact alone ((play (Calm.calcText _).quiet).bind fun _ _ => pure rfl)
  · rw [Meaning.display, Meaning.filledIn_eq]
    exact alone ((play (Calm.outputText _).quiet).bind fun _ _ => pure rfl)
  · exact condition walks _ _ _
  · refine alone ((play (Calm.required _ _).quiet).bind fun _ _ => ?_)
    exact (play (Calm.statement _).quiet).bind fun _ _ => loop walks _ _ _
  · exact alone ((play (Calm.required _ _).quiet).bind fun _ _ => loop walks _ _ _)
  · refine alone ((play (Calm.required _ _).quiet).bind fun _ _ => (play Calm.takeSnapshot.quiet).bind fun _ _ => ?_)
    exact fun _ _ _ _ => ⟨rfl, fun _ found => by cases found; rfl⟩
  · exact alone (call walks _)
  · exact alone ((inScope (walks kids)).bind fun _ _ => pure rfl)
  · exact attempt walks _ _
  · exact throw _
  · exact alone container

lemma handled (tag : String) (attrs : Assoc String) (kids rest : Trees) :
    Aloof table (Shown.Partnered rest) (Meaning.handled walk tag attrs kids rest) := by
  have told : Aloof table (Shown.Partnered rest)
      (handledBy (get? tag table) walk tag attrs kids rest) := by
    unfold handledBy
    split
    · exact builtin walks _ tag attrs kids rest
    · exact (walks kids).bind fun _ _ => pure fun due => absurd rfl due
  intro s f tags tags'
  rw [handled_apply, handled_apply, tags tag, show get? tag (s.fitted f).machine.session.handlers = _ from tags' tag]
  exact told s f tags tags'

end

lemma element (depth : Nat) (tag : String) (attrs : Assoc String) (kids rest : Trees) :
    Aloof table (Shown.Partnered rest) (Meaning.element depth tag attrs kids rest) := by
  induction depth generalizing tag attrs kids rest with
  | zero => exact within tag (raise _)
  | succ depth ih =>
    exact within tag (handled (fun h => row (fun tag attrs kids rest => (ih tag attrs kids rest).any) none h) _ _ _ _)

lemma elements (depth : Nat) (due : Option Trees) (h : Trees) :
    Aloof table Any (Meaning.row (Meaning.element depth) due h) :=
  row (fun tag attrs kids rest => (element depth tag attrs kids rest).any) due h

end Aloof

/-! ## Two parts of a row -/

def lastTag : Trees → Option String
  | .nil => none
  | .text _ _ rest => lastTag rest
  | .element _ tag _ _ rest => some ((lastTag rest).getD tag)

/-- The last element of a row of trees has its partner in the next row: it is a condition, and the
first element there is its alternative, or an attempt, and that is its handler. -/
def Straddles (table : Assoc Handler) (h k : Trees) : Prop :=
  ∃ tag, lastTag h = some tag ∧
    (get? tag table = some (.builtin .condition) ∧ k.partner "else" ≠ none ∨
      get? tag table = some (.builtin .attempt) ∧ k.partner "catch" ≠ none)

/-- An element finds the same partner in two rows. -/
structure SamePartner (table : Assoc Handler) (tag : String) (rest more : Trees) : Prop where
  alternative : get? tag table = some (.builtin .condition) → rest.partner "else" = more.partner "else"
  handler : get? tag table = some (.builtin .attempt) → rest.partner "catch" = more.partner "catch"

section

variable {table : Assoc Handler} {tag : String} {rest more : Trees}

lemma SamePartner.builtin {b : Builtin} (same : SamePartner table tag rest more)
    (found : get? tag table = some (.builtin b)) (walk : Trees → Act Trees) (attrs : Assoc String) (kids : Trees) :
    Meaning.builtin walk b tag attrs kids rest = Meaning.builtin walk b tag attrs kids more := by
  cases b with
  | condition =>
    unfold Meaning.builtin Meaning.condition
    rw [same.alternative found]
  | attempt =>
    unfold Meaning.builtin Meaning.attempt
    rw [same.handler found]
  | _ => rfl

lemma SamePartner.handledBy (same : SamePartner table tag rest more) (walk : Trees → Act Trees) (attrs : Assoc String)
    (kids : Trees) : Script.handledBy (get? tag table) walk tag attrs kids rest =
      Script.handledBy (get? tag table) walk tag attrs kids more := by
  cases found : get? tag table with
  | none => rfl
  | some handler =>
    cases handler with
    | builtin b => exact same.builtin found walk attrs kids
    | host host action => rfl

lemma SamePartner.element (same : SamePartner table tag rest more) (depth : Nat) (attrs : Assoc String) (kids : Trees)
    (tags : SameTags s.machine.session.handlers table) :
    Meaning.element depth tag attrs kids rest s = Meaning.element depth tag attrs kids more s := by
  cases depth with
  | zero => rfl
  | succ depth =>
    generalize inside : ({ s with machine := s.machine.enter tag } : Scene) = t
    have handlers : t.machine.session.handlers = s.machine.session.handlers := by rw [← inside]; rfl
    have handled : Meaning.handled (row (Meaning.element depth) none) tag attrs kids rest t =
        Meaning.handled (row (Meaning.element depth) none) tag attrs kids more t := by
      rw [handled_apply, handled_apply, handlers, tags tag, same.handledBy]
    have entered : ∀ d : Act Shown, Meaning.within tag d s =
        Meaning.always (Meaning.recover d fun raised => Meaning.play (do throw (← blamed tag raised))) Machine.leave t := fun d => inside ▸ rfl
    rw [Meaning.element, Meaning.element, entered, entered]
    unfold Meaning.always Meaning.recover
    rw [handled]

end

lemma partner_append (tag : String) (h k : Trees) :
    (h ++ k).partner tag = if lastTag h = none then k.partner tag else h.partner tag := by
  induction h with
  | nil => rfl
  | text place content rest ih => exact ih
  | element place found attrs kids rest _ _ => rfl

lemma partner_of_lastTag {h : Trees} (tag : String) (none : lastTag h = none) : h.partner tag = .none := by
  induction h with
  | nil => rfl
  | text place content rest ih => exact ih none
  | element place found attrs kids rest _ _ => cases none

variable {table : Assoc Handler} {tag : String}

lemma Straddles.of_rest {attrs : Assoc String} {kids rest k : Trees}
    (straddles : Straddles table rest k) : Straddles table (.element () tag attrs kids rest) k := by
  obtain ⟨last, found, partner⟩ := straddles
  exact ⟨last, by rw [lastTag, found]; rfl, partner⟩

lemma act_bind_congr {α β : Type} {d d' : Act α} {l l' : α → Act β} (first : d s = d' s)
    (after : ∀ a s', d s = (.ok (.ok a), s') → l a s' = l' a s') : (d >>= l) s = (d' >>= l') s := by
  rw [act_bind, act_bind, ← first]
  rcases found : d s with ⟨result, s'⟩
  rcases result with raised | (signal | a)
  · rfl
  · rfl
  · exact after a s' found

lemma samePartner_append {attrs : Assoc String} {kids rest k : Trees}
    (apart : ¬ Straddles table (.element () tag attrs kids rest) k) : SamePartner table tag (rest ++ k) rest := by
  have alone : ∀ {b : Builtin} {name : String}, get? tag table = some (.builtin b) →
      (lastTag rest = none → k.partner name = none) → (rest ++ k).partner name = rest.partner name := by
    intro b name _ missing
    rw [partner_append]
    split
    · rename_i last
      rw [missing last, partner_of_lastTag name last]
    · rfl
  have last : lastTag rest = none → lastTag (Hedge.element () tag attrs kids rest) = some tag := by
    intro none
    rw [lastTag, none]
    rfl
  refine ⟨fun found => alone found fun none => ?_, fun found => alone found fun none => ?_⟩
  · exact Classical.not_not.mp fun partner => apart ⟨tag, last none, .inl ⟨found, partner⟩⟩
  · exact Classical.not_not.mp fun partner => apart ⟨tag, last none, .inr ⟨found, partner⟩⟩

lemma row_append (depth : Nat) {h k : Trees} (apart : ¬ Straddles table h k)
    {due : Option Trees} (stays : due ≠ none → h.leading ≠ none)
    (tags : SameTags s.machine.session.handlers table) :
    row (Meaning.element depth) due (h ++ k) s =
      (do
        let shown ← row (Meaning.element depth) due h
        let more ← row (Meaning.element depth) none k
        return shown ++ more : Act Trees) s := by
  induction h generalizing due s with
  | nil =>
    have nothing : due = none := Classical.not_not.mp fun some => stays some rfl
    subst nothing
    simp only [Hedge.nil_append, row, pure_bind, bind_pure]
  | text place content rest ih =>
    rw [Hedge.text_append, row, row, act_bind_congr (ih apart stays tags) fun _ _ _ => rfl]
    simp only [bind_assoc, pure_bind, Hedge.text_append]
  | element place tag attrs kids rest _ ih =>
    have further : ¬ Straddles table rest k := mt Straddles.of_rest apart
    rw [Hedge.element_append]
    cases due with
    | some due =>
      rw [row, row, act_bind_congr (ih further (fun none => absurd rfl none) tags) fun _ _ _ => rfl]
      simp only [bind_assoc, pure_bind, Hedge.append_assoc]
    | none =>
      have first := (samePartner_append apart).element depth attrs kids tags
      have element : Aloof table _ _ := Aloof.element depth tag attrs kids rest
      rw [row, row, bind_assoc]
      refine act_bind_congr first fun shown s' done => ?_
      rw [first] at done
      have kept := element.tags tags
      have settles := (element s s.machine.fittings tags tags).2 shown
      rw [done] at kept settles
      rw [act_bind_congr (ih further (settles rfl) kept) fun _ _ _ => rfl]
      simp only [bind_assoc, pure_bind, Hedge.append_assoc]

/-- When the first part has come to its end, the whole does what the second part does from there,
whichever document is run. -/
lemma row_append_of_ended (depth : Nat) {h k shown : Trees} (apart : ¬ Straddles table h k)
    {s' : Scene} {f : Fittings} (tags : SameTags s.machine.session.handlers table) (tags' : SameTags f.handlers table)
    (ended : row (Meaning.element depth) none h s = (.ok (.ok shown), s')) :
    row (Meaning.element depth) none (h ++ k) (s.fitted f) =
      ((row (Meaning.element depth) none k s').1.map (Except.map (shown ++ ·)),
        (row (Meaning.element depth) none k s').2.fitted f) := by
  have aloof : ∀ h, Aloof table Any (row (Meaning.element depth) none h) := Aloof.elements depth none
  have kept := (aloof h).tags tags
  rw [ended] at kept
  rw [row_append depth apart (fun none => absurd rfl none) tags', act_bind, (aloof h s f tags tags').1, ended]
  simp only []
  rw [act_bind, (aloof k s' f kept tags').1]
  rcases row (Meaning.element depth) none k s' with ⟨result, t⟩
  rcases result with raised | (signal | more) <;> rfl

end TagScript.Script
