import TagScript.Proofs.Datum.Dateless
import TagScript.Proofs.Value.Finite

/-!
# What reading a document comes to

Whatever a library makes of a text, decoding gives a datum in which all numbers are doubles, or
finds fault with the text. There are four ways out: a number beyond all doubles, a name with too
many digits, a collection that stands inside itself, and numbers inside of objects that the language
knows nothing of.
-/

namespace TagScript

open List Option

/-- Something is so of a datum, or of one inside it. -/
inductive Datum.Somewhere (P : Datum → Prop) : Datum → Prop where
  | here {d : Datum} (holds : P d) : Somewhere P d
  | item {items : List Datum} {d : Datum} (member : d ∈ items) (inside : Somewhere P d) : Somewhere P (.seq items)
  | entry {entries : List (String × Datum)} {entry : String × Datum} (member : entry ∈ entries)
    (inside : Somewhere P entry.2) : Somewhere P (.map entries)

/-- A whole number of the host is a datum, or stands in the object that it is. -/
def Datum.Whole (i : Int) : Datum → Prop
  | .int j => j = i
  | .stamp (.other o) _ => i ∈ o.wholes
  | _ => False

/-- The objects in a datum. -/
def Datum.Bears (d : Datum) (o : Foreign) : Prop :=
  d.Somewhere fun e => ∃ mark, e = .stamp (.other o) mark

/-- All numbers of a datum are doubles, except for those in some objects. -/
def Datum.NormalBut (objects : Foreign → Prop) (d : Datum) : Prop :=
  ∀ i, d.Somewhere (Whole i) → ∃ o, objects o ∧ i ∈ o.wholes

/-- A whole number in a datum is beyond all doubles. -/
def Datum.Oversized (d : Datum) : Prop :=
  ∃ i, d.Somewhere (· = .int i) ∧ Binary64.ofInt? i = Option.none

namespace Datum

variable {d e : Datum} {objects : Foreign → Prop}

lemma NormalBut.seq {items : List Datum} (each : ∀ d ∈ items, d.NormalBut objects) : (Datum.seq items).NormalBut objects := by
  rintro i (never | ⟨mem, inside⟩)
  · exact never.elim
  · exact each _ mem i inside

lemma NormalBut.map {entries : List (String × Datum)} (each : ∀ entry ∈ entries, entry.2.NormalBut objects) :
    (Datum.map entries).NormalBut objects := by
  rintro i (never | _ | ⟨mem, inside⟩)
  · exact never.elim
  · exact each _ mem i inside

lemma NormalBut.flat (flat : ∀ i, d.Whole i → ∃ o, objects o ∧ i ∈ o.wholes) (seq : ∀ items, d ≠ .seq items)
    (map : ∀ entries, d ≠ .map entries) : d.NormalBut objects := by
  rintro i (here | _ | _)
  · exact flat i here
  · exact absurd rfl (seq _)
  · exact absurd rfl (map _)

lemma normalBut_of_normal? (normal : d.normal? = some e) (among : ∀ o, d.Bears o → objects o) : e.NormalBut objects := by
  induction d using Datum.induction generalizing e with
  | flat d flat =>
    cases d with
    | seq | map => cases flat
    | int j =>
      obtain ⟨x, _, rfl⟩ := map_eq_some_iff.mp normal
      exact .flat nofun nofun nofun
    | stamp s mark =>
      cases normal
      refine .flat (fun i whole => ?_) nofun nofun
      cases s with
      | other o => exact ⟨o, among o (.here ⟨mark, rfl⟩), whole⟩
      | _ => exact whole.elim
    | _ =>
      cases normal
      exact .flat nofun nofun nofun
  | seq items ih =>
    rw [normal?_seq] at normal
    obtain ⟨es, each, rfl⟩ := map_eq_some_iff.mp normal
    refine .seq fun e mem => ?_
    obtain ⟨d, inside, found⟩ := mem_of_mapM each mem
    exact ih d inside found fun o bears => among o (.item inside bears)
  | map entries ih =>
    rw [normal?_map] at normal
    obtain ⟨es, each, rfl⟩ := map_eq_some_iff.mp normal
    refine .map fun e mem => ?_
    obtain ⟨entry, inside, found⟩ := mem_of_mapM each mem
    obtain ⟨_, part, rfl⟩ := map_eq_some_iff.mp found
    exact ih entry inside part fun o bears => among o (.entry inside bears)

lemma exists_of_mapM {α β : Type} {f : α → Option β} {xs : List α} (none : xs.mapM f = Option.none) :
    ∃ x ∈ xs, f x = Option.none := by
  induction xs with
  | nil => cases none
  | cons x rest ih =>
    cases here : f x with
    | none => exact ⟨x, mem_cons_self, here⟩
    | some y =>
      cases further : rest.mapM f with
      | none =>
        obtain ⟨z, mem, found⟩ := ih further
        exact ⟨z, mem_cons_of_mem _ mem, found⟩
      | some ys => simp [mapM_cons, here, further] at none

lemma oversized_of_normal? (none : d.normal? = Option.none) : d.Oversized := by
  induction d using Datum.induction with
  | flat d flat =>
    cases d with
    | seq | map => cases flat
    | int i => exact ⟨i, .here rfl, map_eq_none_iff.mp none⟩
    | _ => cases none
  | seq items ih =>
    rw [normal?_seq, map_eq_none_iff] at none
    obtain ⟨d, mem, found⟩ := exists_of_mapM none
    obtain ⟨i, inside, large⟩ := ih d mem found
    exact ⟨i, .item mem inside, large⟩
  | map entries ih =>
    rw [normal?_map, map_eq_none_iff] at none
    obtain ⟨entry, among, found⟩ := exists_of_mapM none
    obtain ⟨i, inside, large⟩ := ih entry among (map_eq_none_iff.mp found)
    exact ⟨i, .entry among inside, large⟩

end Datum

/-- A result has the one property, or a fault has the other. -/
def Settles {α : Type} (P : α → Prop) (E : Fault → Prop) : Except Fault α → Prop
  | .ok a => P a
  | .error fault => E fault

namespace Settles

variable {α β : Type} {P : α → Prop} {Q : β → Prop} {E F : Fault → Prop}

lemma imp {x : Except Fault α} (settles : Settles P E x) (implied : ∀ fault, E fault → F fault) : Settles P F x := by
  cases x with
  | error fault => exact implied fault settles
  | ok a => exact settles

lemma bind {x : Except Fault α} {k : α → Except Fault β} (first : Settles P E x)
    (rest : ∀ a, P a → Settles Q E (k a)) : Settles Q E (x >>= k) := by
  cases x with
  | error fault => exact first
  | ok a => exact rest a first

lemma mapM {f : β → Except Fault α} {xs : List β} (each : ∀ x ∈ xs, Settles P E (f x)) :
    Settles (∀ y ∈ ·, P y) E (xs.mapM f) := by
  induction xs with
  | nil => exact nofun
  | cons x rest ih =>
    rw [mapM_cons]
    obtain ⟨first, others⟩ := forall_mem_cons.mp each
    exact first.bind fun y here => (ih others).bind fun ys further => forall_mem_cons.mpr ⟨here, further⟩

end Settles

lemma mem_ofList {α : Type} {entry : String × α} {entries : List (String × α)}
    (mem : entry ∈ Assoc.ofList entries) : entry ∈ entries := by
  have mem_merge : ∀ (base more : List (String × α)), entry ∈ Assoc.merge base more → entry ∈ base ∨ entry ∈ more := by
    intro base more mem
    induction more generalizing base with
    | nil => exact .inl mem
    | cons first rest ih =>
      obtain inside | further := ih _ mem
      · exact (Assoc.mem_set inside).imp_right fun here => mem_cons.mpr (.inl here)
      · exact .inr (mem_cons_of_mem _ further)
  exact (mem_merge [] entries mem).resolve_left not_mem_nil

namespace Graph

def Contents.parts : Contents → List Part
  | .items parts => parts
  | .pairs parts => parts.flatMap fun pair => [pair.1, pair.2]
  | .entries parts => parts.map Prod.snd
  | .object _ => []

/-- A part is the root of a graph or stands in one of its collections. -/
def Holds (g : Graph) (part : Part) : Prop :=
  part = g.root ∨ ∃ mark c, g.contents.lookup mark = some c ∧ part ∈ c.parts

/-- The objects in a graph. -/
def Bears (g : Graph) (o : Foreign) : Prop :=
  (∃ mark, g.contents.lookup mark = some (.object o)) ∨ ∃ d, g.Holds (.datum d) ∧ d.Bears o

/-- From a part it goes down through so many collections, each inside the one before. -/
inductive Part.Descends (contents : List (Nat × Contents)) : Nat → Part → Prop where
  | stop (mark : Nat) : Descends contents 0 (.whole mark)
  | down {n mark : Nat} {c : Contents} {inner : Part} (found : contents.lookup mark = some c) (member : inner ∈ c.parts)
    (inside : Descends contents n inner) : Descends contents (n + 1) (.whole mark)

variable {g : Graph} {P : Datum → Prop} {depth : Nat} {part : Part} {fault : Fault}

/-- A name in a graph is a whole number with too many digits, or has one inside. -/
def Unnamed (g : Graph) : Prop :=
  ∃ mark parts, g.contents.lookup mark = some (.entries parts) ∧ ∃ entry ∈ parts, vast entry.1 = true

/-- The ways in which a part comes to no datum. -/
def Part.Fails (g : Graph) (depth : Nat) (part : Part) (fault : Fault) : Prop :=
  fault = .tooLarge ∧ (∃ d, g.Holds (.datum d) ∧ d.Oversized) ∨
    fault = .value (Reading.beyondLimit "") ∧ g.Unnamed ∨
    fault = .endless false ∧ part.Descends g.contents depth

/-- The ways in which a graph comes to no datum: a number is beyond all doubles, a name has too many
digits, or it goes down through more collections than there are, so that one contains itself. -/
def Breaks (g : Graph) : Fault → Prop :=
  g.root.Fails g (g.contents.length + 1)

/-- What is so of the data and objects of a graph once they are normal, and of collections if it is
of all in them. -/
structure Spreads (g : Graph) (P : Datum → Prop) : Prop where
  none : P .none
  datum : ∀ d e, g.Holds (.datum d) → d.normal? = some e → P e
  object : ∀ o mark, g.contents.lookup mark = some (.object o) → P (.stamp (.other o) mark)
  seq : ∀ items, (∀ d ∈ items, P d) → P (.seq items)
  map : ∀ entries, (∀ entry ∈ entries, P entry.2) → P (.map entries)

lemma Part.Fails.outside {mark : Nat} {c : Contents} {inner : Part} (found : g.contents.lookup mark = some c)
    (mem : inner ∈ c.parts) (fails : inner.Fails g depth fault) : (Part.whole mark).Fails g (depth + 1) fault :=
  fails.imp_right fun fails =>
    fails.imp_right fun ⟨endless, descends⟩ => ⟨endless, .down found mem descends⟩

lemma Spreads.settles_datum (spreads : g.Spreads P) {d : Datum} (held : g.Holds (.datum d)) :
    Settles P (part.Fails g depth) (d.normal?.elim (.error .tooLarge) .ok) := by
  cases found : d.normal? with
  | none => exact .inl ⟨rfl, d, held, Datum.oversized_of_normal? found⟩
  | some e => exact spreads.datum d e held found

lemma Spreads.settles_part (spreads : g.Spreads P) (held : g.Holds part) (depth : Nat) :
    Settles P (part.Fails g depth) (part.normal g.contents depth) := by
  induction depth generalizing part with
  | zero =>
    cases part with
    | datum d => exact spreads.settles_datum held
    | whole mark => exact .inr (.inr ⟨rfl, .stop mark⟩)
  | succ depth ih =>
    cases part with
    | datum d => exact spreads.settles_datum held
    | whole mark =>
      rw [Part.normal]
      cases found : g.contents.lookup mark with
      | none => exact spreads.none
      | some c =>
        have inside : ∀ inner ∈ c.parts,
            Settles P ((Part.whole mark).Fails g (depth + 1)) (inner.normal g.contents depth) :=
          fun inner mem => (ih (.inr ⟨mark, c, found, mem⟩)).imp fun _ => .outside found mem
        cases c with
        | items parts => exact (Settles.mapM inside).bind fun _ each => spreads.seq _ each
        | pairs parts =>
          refine (Settles.mapM (P := P) fun pair mem => ?_).bind fun _ each => spreads.seq _ each
          refine (inside pair.1 ?_).bind fun d first => (inside pair.2 ?_).bind fun e second => ?_
          · exact mem_flatMap.mpr ⟨pair, mem, by simp⟩
          · exact mem_flatMap.mpr ⟨pair, mem, by simp⟩
          · exact spreads.seq _ (by simp [first, second])
        | entries parts =>
          refine (Settles.mapM (P := fun entry => P entry.2) fun pair mem => ?_).bind fun _ each => ?_
          · have named : Settles (fun _ => True) ((Part.whole mark).Fails g (depth + 1)) (nameText pair.1) := by
              unfold nameText
              split
              · rename_i large
                exact .inr (.inl ⟨rfl, mark, parts, found, pair, mem, large⟩)
              · trivial
            refine named.bind fun name _ => ?_
            exact (inside pair.2 (List.mem_map_of_mem mem)).bind fun d holds => holds
          · exact spreads.map _ fun entry mem => each entry (mem_ofList mem)
        | object o => exact spreads.object o mark found

lemma spreads_normalBut (g : Graph) : g.Spreads (Datum.NormalBut g.Bears) where
  none := .flat nofun nofun nofun
  datum d _ held normal := Datum.normalBut_of_normal? normal fun _ bears => .inr ⟨d, held, bears⟩
  object o _ found := .flat (fun _ whole => ⟨o, .inl ⟨_, found⟩, whole⟩) nofun nofun
  seq _ := .seq
  map _ := .map

/-- Nothing in a graph is a date or another object, a failure or a function. -/
structure Dateless (g : Graph) : Prop where
  datum : ∀ d, g.Holds (.datum d) → d.Dateless
  object : ∀ mark o, g.contents.lookup mark ≠ some (.object o)

lemma Dateless.spreads (dateless : g.Dateless) : g.Spreads Datum.Dateless where
  none := .none
  datum d _ held normal := (dateless.datum d held).normal normal
  object o mark found := absurd found (dateless.object mark o)
  seq _ := .seq
  map _ := .map

end Graph

/-- Whatever a library makes of a text, what decoding comes to is told by it. If the library fails,
or does not know the format, that is a fault of the format. If it gives data, decoding gives a datum
in which there are no whole numbers but those in objects that were in the data; or it fails because
a number of the data is beyond all doubles, a name has too many digits or a collection contains
itself, and these are not faults of the format. -/
theorem decode_normal_or_codec_fault (library : Library) (name : Option String) (text : String) :
    Settles
      (fun d => ∃ f g, Format.ofName name = .ok f ∧ library.read f text = .ok g ∧ d.NormalBut g.Bears)
      (fun fault =>
        (∃ label message, fault = .codec label message ∧ Format.ofName name = .error fault) ∨
        (∃ f message, Format.ofName name = .ok f ∧ library.read f text = .error message ∧ fault = .codec f.label message) ∨
        ∃ f g, Format.ofName name = .ok f ∧ library.read f text = .ok g ∧ g.Breaks fault)
      (do library.decode (← Format.ofName name) text) := by
  cases known : Format.ofName name with
  | ok f =>
    change Settles _ _ (library.decode f text)
    unfold Library.decode
    cases read : library.read f text with
    | error message => exact .inr (.inl ⟨f, message, rfl, read, rfl⟩)
    | ok g =>
      have settles := g.spreads_normalBut.settles_part (.inl rfl) (g.contents.length + 1)
      change Settles _ _ g.normal
      unfold Graph.normal
      cases ended : g.root.normal g.contents (g.contents.length + 1) with
      | ok d =>
        rw [ended] at settles
        exact ⟨f, g, rfl, read, settles⟩
      | error fault =>
        rw [ended] at settles
        exact .inr (.inr ⟨f, g, rfl, read, settles⟩)
  | error fault =>
    unfold Format.ofName at known
    simp only [] at known
    split at known <;> cases known
    exact .inl ⟨_, _, rfl, rfl⟩

end TagScript
