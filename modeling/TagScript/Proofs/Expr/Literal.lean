import TagScript.Proofs.Expr.Evaluation
import TagScript.Proofs.Expr.Lexing
import TagScript.Proofs.Value.Built

/-!
# Literals evaluate back

In every environment the literal of a datum evaluates to a value that stands for the same tree, made
of fresh containers.
-/

namespace TagScript.Datum

/-- A finite number whose text has no exponent wherever it stands: zero, or from `10 ^ -4` up to `10 ^ 21`. -/
def Moderate (x : Float) : Prop :=
  Binary64.isFinite x = true ∧ ((Binary64.parts x).mantissa = 0 ∨
    (10 : ℚ) ^ (-4 : Int) ≤ (Binary64.parts x).size ∧ (Binary64.parts x).size < 10 ^ (21 : Int))

/-- Data of moderate numbers, truth values and texts, in sequences and mappings of any depth. -/
inductive Plain : Datum → Prop where
  | bool (b : Bool) : Plain (.bool b)
  | str (s : String) : Plain (.str s)
  | num {n : Num} (moderate : Moderate n.val) : Plain (.num n)
  | seq {items : List Datum} (each : ∀ d ∈ items, Plain d) : Plain (.seq items)
  | map {entries : List (String × Datum)} (each : ∀ entry ∈ entries, Plain entry.2)
    (distinct : (entries.map Prod.fst).Nodup) : Plain (.map entries)

/-- Plain data, and any finite number by itself. -/
def Literal (d : Datum) : Prop :=
  Plain d ∨ ∃ n, d = .num n ∧ Binary64.isFinite n.val = true

/-- The same tree with equal numbers; the entries of mappings stand in the same order. -/
inductive Same : Datum → Datum → Prop where
  | bool (b : Bool) : Same (.bool b) (.bool b)
  | str (s : String) : Same (.str s) (.str s)
  | num {a b : Num} (equal : (a.val == b.val) = true) : Same (.num a) (.num b)
  | seq {as bs : List Datum} (each : List.Forall₂ Same as bs) : Same (.seq as) (.seq bs)
  | map {as bs : List (String × Datum)} (names : as.map Prod.fst = bs.map Prod.fst)
    (each : List.Forall₂ Same (as.map Prod.snd) (bs.map Prod.snd)) : Same (.map as) (.map bs)

end TagScript.Datum

namespace TagScript.Assoc

variable {α : Type}

lemma set_of_not_mem {name : String} {value : α} {entries : Assoc α} (absent : name ∉ entries.map Prod.fst) :
    set name value entries = entries ++ [(name, value)] := by
  induction entries with
  | nil => rfl
  | cons entry rest ih =>
    rw [List.map_cons, List.mem_cons, not_or] at absent
    rw [set, if_neg (Ne.symm absent.1), ih absent.2, List.cons_append]

lemma merge_of_nodup {entries others : Assoc α} (distinct : ((entries ++ others).map Prod.fst).Nodup) :
    merge entries others = entries ++ others := by
  induction others generalizing entries with
  | nil => rw [merge, List.append_nil]
  | cons entry rest ih =>
    obtain ⟨name, value⟩ := entry
    have absent : name ∉ entries.map Prod.fst := by
      rw [List.map_append, List.map_cons, List.nodup_append] at distinct
      exact fun mem => distinct.2.2 name mem name List.mem_cons_self rfl
    rw [merge, set_of_not_mem absent, ih (by rwa [List.append_assoc, List.singleton_append]), List.append_assoc,
      List.singleton_append]

lemma ofList_of_nodup {entries : List (String × α)} (distinct : (entries.map Prod.fst).Nodup) :
    ofList entries = entries := by
  rw [ofList, merge_of_nodup (by rwa [List.nil_append]), List.nil_append]

end TagScript.Assoc

namespace TagScript.Expr

open List Datum

open Store (Keeps)

variable {ds : List (String × Datum)} {tokens : List Token} {text : String} {ts : List (String × Tree)} {x : Float}

/-! ## Trees that build data -/

def Tree.Builds (t : Tree) (d : Datum) : Prop :=
  ∀ env store, ∃ value after e, t.eval env store = .ok (value, after) ∧ Keeps store after ∧ d.Same e ∧
    after.Built value e

lemma isNaN_of_beq {y : Float} (equal : (x == y) = true) : x.isNaN = false := by
  rw [Float.isNaN_eq_decide_eq_nan, decide_eq_false_iff_not]
  exact (Float.beq_iff_ne_nan_and_eq.mp equal).1

lemma Tree.builds_number {n : Num} (pos : Nat) (equal : (x == n.val) = true) : (Tree.number x pos).Builds (.num n) := by
  intro env store
  exact ⟨.num (Num.ofFloat x), store, .num (Num.ofFloat x), by rw [Tree.eval]; rfl, Keeps.refl _,
    .num (BEq.symm equal), .num (isNaN_of_beq equal)⟩

lemma Tree.builds_minus {n : Num} (pos sign : Nat) (equal : (-x == n.val) = true) :
    (Tree.signed .neg sign (.number x pos)).Builds (.num n) := by
  intro env store
  have number := isNaN_of_beq equal
  have value : store.number (-x) = (.num ⟨-x, 0⟩, store) := by
    rw [Store.number, number]
    rfl
  refine ⟨.num ⟨-x, 0⟩, store, .num ⟨-x, 0⟩, ?_, Keeps.refl store, .num (BEq.symm equal), .num number⟩
  show Except.ok (store.number (-x)) = _
  rw [value]

lemma Tree.evalElements_builds {ts : List Tree} {ds : List Datum} (each : Forall₂ Tree.Builds ts ds)
    (env : Environment) (store : Store) :
    ∃ values after es, Tree.evalElements env store ts = .ok (values, after) ∧ Keeps store after ∧
      List.Forall₂ Datum.Same ds es ∧ List.Forall₂ after.Built values es := by
  induction each generalizing store with
  | nil => exact ⟨[], store, [], by rw [Tree.evalElements], Keeps.refl store, .nil, .nil⟩
  | cons first _ ih =>
    obtain ⟨value, between, e, head, kept, same, stands⟩ := first env store
    obtain ⟨values, after, es, tail, keeps, sames, others⟩ := ih between
    refine ⟨value :: values, after, e :: es, ?_, kept.trans keeps, .cons same sames, .cons (stands.later keeps) others⟩
    rw [Tree.evalElements, head]
    show (Tree.evalElements env between _ >>= fun made => Except.ok (value :: made.1, made.2)) = _
    rw [tail]
    rfl

lemma Tree.evalEntries_builds
    (each : Forall₂ (fun t d => t.1 = d.1 ∧ Tree.Builds t.2 d.2) ts ds) (env : Environment) (store : Store) :
    ∃ (bindings : Assoc Value) (after : Store) (es : List (String × Datum)),
      Tree.evalEntries env store ts = .ok (bindings, after) ∧ Keeps store after ∧
      bindings.map Prod.fst = ds.map Prod.fst ∧ es.map Prod.fst = ds.map Prod.fst ∧
        List.Forall₂ Datum.Same (ds.map Prod.snd) (es.map Prod.snd) ∧
          List.Forall₂ after.Built (bindings.map Prod.snd) (es.map Prod.snd) := by
  induction each generalizing store with
  | nil => exact ⟨[], store, [], by rw [Tree.evalEntries], Keeps.refl store, rfl, rfl, .nil, .nil⟩
  | @cons t d ts ds first _ ih =>
    obtain ⟨name, builds⟩ := first
    obtain ⟨value, between, e, head, kept, same, stands⟩ := builds env store
    obtain ⟨bindings, after, es, tail, keeps, names, names', sames, others⟩ := ih between
    refine ⟨(t.1, value) :: bindings, after, (d.1, e) :: es, ?_, kept.trans keeps, ?_, ?_, .cons same sames,
      .cons (stands.later keeps) others⟩
    · rw [Tree.evalEntries, Tree.evalEntry, head]
      show (Tree.evalEntries env between _ >>= fun made => Except.ok ((t.1, value) :: made.1, made.2)) = _
      rw [tail]
      rfl
    · rw [map_cons, map_cons, names, name]
    · rw [map_cons, map_cons, names']

lemma Tree.builds_sequence {ts : List Tree} {ds : List Datum} (pos : Nat)
    (each : List.Forall₂ Tree.Builds ts ds) : (Tree.sequence ts pos).Builds (.seq ds) := by
  intro env store
  obtain ⟨values, after, es, read, keeps, sames, stands⟩ := Tree.evalElements_builds each env store
  refine ⟨_, _, .seq es, ?_, keeps.trans (Keeps.push after _), .seq sames, Store.built_newSeq stands⟩
  rw [Tree.eval, read]
  rfl

lemma Tree.builds_mapping (pos : Nat) (distinct : (ds.map Prod.fst).Nodup)
    (each : List.Forall₂ (fun t d => t.1 = d.1 ∧ Tree.Builds t.2 d.2) ts ds) :
    (Tree.mapping ts pos).Builds (.map ds) := by
  intro env store
  obtain ⟨bindings, after, es, read, keeps, names, names', sames, stands⟩ :=
    Tree.evalEntries_builds each env store
  refine ⟨_, _, .map es, ?_, keeps.trans (Keeps.push after _), .map names'.symm sames,
    Store.built_newMap (names.trans names'.symm) (by rwa [names']) stands⟩
  rw [Tree.eval, read]
  show Except.ok (after.newMap (Assoc.ofList bindings)) = _
  rw [Assoc.ofList_of_nodup (by rwa [names])]
  rfl

/-! ## Texts on one line -/

def flat (cs : List Char) : List Char := cs.map fun c => if c == '\n' then ' ' else c

lemma flat_append (cs ds : List Char) : flat (cs ++ ds) = flat cs ++ flat ds := map_append

lemma flat_of_not_mem {cs : List Char} (line : '\n' ∉ cs) : flat cs = cs := by
  refine (map_congr_left fun c mem => ?_).trans (map_id' cs)
  rw [if_neg]
  rintro same
  exact line (eq_of_beq same ▸ mem)

def Listed : List (List Token → Prop) → List Token → Prop
  | [], tokens => tokens = []
  | [P], tokens => P tokens
  | P :: Q :: rest, tokens =>
    ∃ first pos others, P first ∧ Listed (Q :: rest) others ∧ tokens = first ++ ⟨.mark .comma, pos⟩ :: others

lemma boundary_comma (rest : List Char) : Boundary (',' :: rest) := Boundary.cons (by decide) (by decide) rest

lemma scans_joined (sep : String) {blanks : List Char} (comma : flat sep.toList = ',' :: blanks)
    (blank : Scans Anything blanks fun tokens => tokens = []) {pieces : List String}
    {kinds : List (List Token → Prop)}
    (each : Forall₂ (fun piece P => Scans Boundary (flat piece.toList) P) pieces kinds) :
    Scans Boundary (flat (Text.joined sep pieces).toList) (Listed kinds) := by
  induction each with
  | nil =>
    intro pos rest _
    refine ⟨[], rfl, ?_⟩
    show scan pos rest = Except.map _ (scan pos rest)
    cases scan pos rest <;> rfl
  | @cons piece P pieces kinds first others ih =>
    cases others with
    | nil => exact first
    | @cons second Q pieces kinds next others =>
      have text : flat (Text.joined sep (piece :: second :: pieces)).toList =
          flat piece.toList ++ ([','] ++ (blanks ++ flat (Text.joined sep (second :: pieces)).toList)) := by
        rw [Text.joined, String.toList_append, String.toList_append, flat_append, flat_append, comma]
        · simp
        · simp
      rw [text]
      have tail := (scans_mark .comma).append (blank.append ih fun _ _ => trivial) fun _ _ => trivial
      refine (first.append tail fun rest _ => boundary_comma _).imp ?_
      rintro tokens ⟨one, _, isFirst, ⟨_, _, ⟨pos, rfl⟩, ⟨_, others, rfl, isRest, same⟩, rfl⟩, rfl⟩
      exact ⟨one, pos, others, isFirst, isRest, by rw [same]; rfl⟩

lemma scans_blanks (n : Nat) : Scans Anything (replicate n ' ') fun tokens => tokens = [] := by
  induction n with
  | zero =>
    intro pos rest _
    refine ⟨[], rfl, ?_⟩
    show scan pos rest = Except.map _ (scan pos rest)
    cases scan pos rest <;> rfl
  | succ n ih =>
    refine (scans_space.append ih fun _ _ => trivial).imp ?_
    rintro tokens ⟨_, _, rfl, rfl, rfl⟩
    rfl

/-! ## Literals -/

/-- Tokens write a tree that builds a datum. -/
def Means (d : Datum) (tokens : List Token) : Prop :=
  ∃ t, Writes 0 t tokens ∧ t.Builds d

lemma scans_spells {n : Num} (spells : Numeral.Spells n.val text) : Scans Boundary text.toList (Means (.num n)) := by
  obtain ⟨minus, body, value, places, same, shows, equal⟩ := spells
  rw [same]
  cases minus with
  | false =>
    refine (scans_number shows).imp ?_
    rintro tokens ⟨pos, rfl⟩
    exact ⟨_, .number 0 _ pos, Tree.builds_number pos equal⟩
  | true =>
    refine (scans_minus.append (scans_number shows) fun _ _ => trivial).imp ?_
    rintro tokens ⟨_, _, ⟨sign, rfl⟩, ⟨pos, rfl⟩, rfl⟩
    exact ⟨_, .signed sign rfl (by decide) (.number _ _ pos), Tree.builds_minus pos sign equal⟩

lemma scans_bool (b : Bool) : Scans Boundary (boolText b).toList (Means (.bool b)) := by
  have word : Scans Boundary (boolText b).toList fun tokens => ∃ pos, tokens = [⟨.boolean b, pos⟩] := by
    cases b with
    | true => exact @scans_word 't' ['r', 'u', 'e'] (by decide) (List.all_eq_true.mp (by decide))
    | false => exact @scans_word 'f' ['a', 'l', 's', 'e'] (by decide) (List.all_eq_true.mp (by decide))
  refine word.imp ?_
  rintro tokens ⟨pos, rfl⟩
  exact ⟨_, .boolean 0 b pos, fun env store => ⟨_, _, .bool b, by rw [Tree.eval], Keeps.refl _, .bool b, .bool b⟩⟩

lemma scans_str (s : String) : Scans Anything (stringLiteral s).toList (Means (.str s)) := by
  refine (scans_string s).imp ?_
  rintro tokens ⟨pos, rfl⟩
  exact ⟨_, .string 0 s pos, fun env store => ⟨_, _, .str s, by rw [Tree.eval], Keeps.refl _, .str s, .str s⟩⟩

lemma scans_plain {name : String} (plain : isPlainKey name = true) :
    Scans Boundary name.toList fun tokens => ∃ pos, tokens = [⟨.identifier name, pos⟩] := by
  unfold isPlainKey at plain
  split at plain
  · cases plain
  · rename_i c rest letters
    simp only [Bool.and_eq_true, bne_iff_ne, ne_eq, all_eq_true] at plain
    obtain ⟨⟨⟨first, all⟩, notTrue⟩, notFalse⟩ := plain
    have whole : wordLexeme (String.ofList (c :: rest)) = .identifier name := by
      rw [← letters, String.ofList_toList]
      simp [wordLexeme, notTrue, notFalse]
    rw [letters, ← whole]
    exact scans_word first all

lemma not_mem_plain {name : String} (plain : isPlainKey name = true) {c : Char}
    (other : isNameStart c = false ∧ isNameChar c = false) : c ∉ name.toList := by
  unfold isPlainKey at plain
  split at plain
  · cases plain
  · rename_i d rest letters
    simp only [Bool.and_eq_true, all_eq_true] at plain
    rw [letters]
    intro mem
    rcases mem_cons.mp mem with rfl | mem
    · exact absurd (plain.1.1.1.symm.trans other.1) (by decide)
    · exact absurd ((plain.1.1.2 _ mem).symm.trans other.2) (by decide)

lemma scans_key (name : String) :
    Scans Boundary (keyLiteral name).toList fun tokens =>
      ∃ lexeme pos, lexeme.key? = some name ∧ tokens = [⟨lexeme, pos⟩] := by
  unfold keyLiteral
  split
  · rename_i plain
    refine (scans_plain plain).imp ?_
    rintro tokens ⟨pos, rfl⟩
    exact ⟨_, pos, rfl, rfl⟩
  · refine ((scans_string name).narrow fun _ _ => trivial).imp ?_
    rintro tokens ⟨pos, rfl⟩
    exact ⟨_, pos, rfl, rfl⟩

lemma writesElements_of_listed {ds : List Datum} (listed : Listed (ds.map Means) tokens) :
    ∃ ts, WritesElements ts tokens ∧ Forall₂ Tree.Builds ts ds := by
  induction ds generalizing tokens with
  | nil =>
    obtain rfl := listed
    exact ⟨[], .none, .nil⟩
  | cons d ds ih =>
    cases ds with
    | nil =>
      obtain ⟨t, written, builds⟩ := listed
      exact ⟨[t], .last written, .cons builds .nil⟩
    | cons e ds =>
      obtain ⟨first, pos, others, ⟨t, written, builds⟩, rest, rfl⟩ := listed
      obtain ⟨ts, elements, each⟩ := ih rest
      exact ⟨t :: ts, .more pos written elements, .cons builds each⟩

def MeansEntry (entry : String × Datum) (tokens : List Token) : Prop :=
  ∃ t, WritesEntry (entry.1, t) tokens ∧ t.Builds entry.2

lemma writesEntries_of_listed
    (listed : Listed (ds.map MeansEntry) tokens) :
    ∃ ts, WritesEntries ts tokens ∧ Forall₂ (fun t d => t.1 = d.1 ∧ Tree.Builds t.2 d.2) ts ds := by
  induction ds generalizing tokens with
  | nil =>
    obtain rfl := listed
    exact ⟨[], .none, .nil⟩
  | cons d ds ih =>
    cases ds with
    | nil =>
      obtain ⟨t, written, builds⟩ := listed
      exact ⟨[(d.1, t)], .last written, .cons ⟨rfl, builds⟩ .nil⟩
    | cons e ds =>
      obtain ⟨first, pos, others, ⟨t, written, builds⟩, rest, rfl⟩ := listed
      obtain ⟨ts, entries, each⟩ := ih rest
      exact ⟨(d.1, t) :: ts, .more pos written entries, .cons ⟨rfl, builds⟩ each⟩

lemma not_mem_spells (spells : Numeral.Spells x text) : '\n' ∉ text.toList := by
  obtain ⟨minus, body, value, places, same, shows, _⟩ := spells
  obtain ⟨c, rest, rfl, digit, others⟩ := isNumberChar_of_shows shows
  intro mem
  rw [same] at mem
  rcases mem_append.mp mem with sign | mem
  · cases minus <;> revert sign <;> decide
  · rcases mem_cons.mp mem with rfl | mem
    · revert digit
      decide
    · have := others _ mem
      revert this
      decide

lemma not_mem_stringLiteral (s : String) : '\n' ∉ (stringLiteral s).toList := by
  rw [toList_stringLiteral]
  simp only [mem_cons, mem_append, mem_flatMap, not_mem_nil, or_false, not_or, not_exists, not_and]
  refine ⟨by decide, fun c _ => ?_, by decide⟩
  unfold literalChar
  split
  · decide
  · split
    · decide
    · split
      · decide
      · rename_i newline
        intro mem
        rw [Char.toString_eq_singleton, String.toList_singleton, mem_singleton] at mem
        exact newline (mem ▸ by decide)

lemma not_mem_keyLiteral (name : String) : '\n' ∉ (keyLiteral name).toList := by
  unfold keyLiteral
  split
  · rename_i plain
    exact not_mem_plain plain (by decide)
  · exact not_mem_stringLiteral name

lemma scans_entry {entry : String × Datum} {width level : Nat}
    (value : Scans Boundary (flat (layout width level entry.2).toList) (Means entry.2)) :
    Scans Boundary (flat (Datum.keyLiteral entry.1 ++ ": " ++ Datum.layout width level entry.2).toList)
      (MeansEntry entry) := by
  have text : flat (Datum.keyLiteral entry.1 ++ ": " ++ Datum.layout width level entry.2).toList =
      (keyLiteral entry.1).toList ++ ([':'] ++ ([' '] ++ flat (layout width level entry.2).toList)) := by
    rw [String.toList_append, String.toList_append, flat_append, flat_append, flat_of_not_mem (not_mem_keyLiteral _),
      append_assoc]
    rfl
  rw [text]
  have tail := (scans_mark .colon).append (scans_space.append value fun _ _ => trivial) fun _ _ => trivial
  refine ((scans_key entry.1).append tail fun rest _ => Boundary.cons (by decide) (by decide) _).imp ?_
  rintro tokens ⟨_, _, ⟨lexeme, pos, named, rfl⟩, ⟨_, _, ⟨colon, rfl⟩, ⟨_, others, rfl, ⟨t, written, builds⟩, same⟩,
    rfl⟩, rfl⟩
  rw [same]
  exact ⟨t, .entry pos colon named written, builds⟩

lemma scans_sequence {items : List Datum} {inner : List Char}
    (inside : Scans Boundary inner (Listed (items.map Means))) :
    Scans Boundary (['['] ++ (inner ++ [']'])) (Means (.seq items)) := by
  have tail := inside.append (scans_mark .rbracket) fun rest _ => Boundary.cons (by decide) (by decide) rest
  refine (((scans_mark .lbracket).append tail fun _ _ => trivial).narrow fun _ _ => trivial).imp ?_
  rintro tokens ⟨_, _, ⟨pos, rfl⟩, ⟨_, _, listed, ⟨closed, rfl⟩, rfl⟩, rfl⟩
  obtain ⟨ts, elements, each⟩ := writesElements_of_listed listed
  exact ⟨_, .sequence 0 pos closed elements, Tree.builds_sequence pos each⟩

lemma scans_mapping {entries : List (String × Datum)} {inner : List Char} (a b : Nat)
    (distinct : (entries.map Prod.fst).Nodup) (inside : Scans Boundary inner (Listed (entries.map MeansEntry))) :
    Scans Boundary (['\x7b'] ++ (replicate a ' ' ++ (inner ++ (replicate b ' ' ++ ['\x7d']))))
      (Means (.map entries)) := by
  have close := (scans_blanks b).append (scans_mark .rbrace) fun _ _ => trivial
  have apart : ∀ rest, Boundary ((replicate b ' ' ++ [Mark.rbrace.char]) ++ rest) := by
    intro rest
    cases b with
    | zero => exact Boundary.cons (by decide) (by decide) rest
    | succ b => exact Boundary.cons (by decide) (by decide) _
  have tail := inside.append close fun rest _ => apart rest
  have whole := (scans_mark .lbrace).append ((scans_blanks a).append tail fun _ _ => trivial) fun _ _ => trivial
  refine (whole.narrow fun _ _ => trivial).imp ?_
  rintro tokens ⟨_, _, ⟨pos, rfl⟩, ⟨_, _, rfl, ⟨_, _, listed, ⟨_, _, rfl, ⟨closed, rfl⟩, rfl⟩, rfl⟩, rfl⟩, rfl⟩
  obtain ⟨ts, elements, each⟩ := writesEntries_of_listed listed
  exact ⟨_, .mapping 0 pos closed elements, Tree.builds_mapping pos distinct each⟩

lemma flat_blanks (n : Nat) : flat (blanks n).toList = replicate n ' ' := by
  rw [blanks, String.toList_ofList]
  exact map_replicate

lemma scans_layout {d : Datum} (plain : d.Plain) :
    ∀ level, Scans Boundary (flat (layout 2 level d).toList) (Means d) := by
  induction plain with
  | bool b =>
    intro level
    rw [layout, flat_of_not_mem (by cases b <;> decide)]
    exact scans_bool b
  | str s =>
    intro level
    rw [layout, flat_of_not_mem (not_mem_stringLiteral s)]
    exact (scans_str s).narrow fun _ _ => trivial
  | num moderate =>
    intro level
    have spells := Numeral.spells_numberText moderate.1 moderate.2
    rw [layout, flat_of_not_mem (not_mem_spells spells)]
    exact scans_spells spells
  | @seq items each ih =>
    intro level
    have pieces : Forall₂ (fun piece P => Scans Boundary (flat piece.toList) P)
        (items.map (layout 2 (level + 1))) (items.map Means) := by
      rw [forall₂_map_left_iff, forall₂_map_right_iff, forall₂_same]
      exact fun d mem => ih d mem (level + 1)
    have inside := scans_joined ", " rfl scans_space pieces
    rw [layout, layoutItems_eq, String.toList_append, String.toList_append, flat_append, flat_append,
      append_assoc]
    exact scans_sequence inside
  | @map entries each distinct ih =>
    intro level
    have parts : ∀ pad : Nat, Forall₂ (fun piece P => Scans Boundary (flat piece.toList) P)
        (entries.map fun entry =>
          Datum.blanks pad ++ (Datum.keyLiteral entry.1 ++ ": " ++ Datum.layout 2 (level + 1) entry.2))
        (entries.map MeansEntry) := by
      intro pad
      rw [forall₂_map_left_iff, forall₂_map_right_iff, forall₂_same]
      intro entry mem
      rw [String.toList_append, flat_append, flat_blanks]
      refine ((scans_blanks pad).append (scans_entry (ih entry mem (level + 1))) fun _ _ => trivial).imp ?_
      rintro tokens ⟨_, _, rfl, means, rfl⟩
      exact means
    cases entries with
    | nil =>
      rw [layout]
      exact scans_mapping 0 0 distinct (scans_joined ", " rfl scans_space .nil)
    | cons entry rest =>
      rw [layout]
      dsimp only
      rw [layoutEntries_eq]
      split
      · have inside := scans_joined ", " rfl scans_space (parts 0)
        have bare : ∀ text : String, blanks 0 ++ text = text := fun text => String.empty_append
        rw [String.toList_append, String.toList_append, flat_append, flat_append, append_assoc]
        exact scans_mapping 0 0 distinct inside
      · have inside := scans_joined ",\n" rfl scans_space (parts (2 * (level + 1)))
        rw [map_map, String.toList_append, String.toList_append, String.toList_append, String.toList_append,
          flat_append, flat_append, flat_append, flat_append, flat_blanks, append_assoc, append_assoc,
          append_assoc]
        exact scans_mapping 1 (2 * level + 1) distinct inside

lemma scans_literal {d : Datum} (literal : d.Literal) :
    ∃ text, d.literal? = some text ∧ Scans Boundary text.toList (Means d) := by
  rcases literal with plain | ⟨n, rfl, finite⟩
  · have layout := scans_layout plain 0
    have line : ∀ d : Datum, d.oneLine.toList = flat (Datum.layout 2 0 d).toList := by
      intro d
      rw [Datum.oneLine, String.toList_ofList]
      rfl
    cases plain with
    | bool b => exact ⟨_, rfl, scans_bool b⟩
    | str s => exact ⟨_, rfl, (scans_str s).narrow fun _ _ => trivial⟩
    | num moderate =>
      obtain ⟨text, same, spells⟩ := Numeral.spells_literal moderate.1
      exact ⟨text, same, scans_spells spells⟩
    | seq | map => exact ⟨_, rfl, by rw [line]; exact layout⟩
  · obtain ⟨text, same, spells⟩ := Numeral.spells_literal finite
    exact ⟨text, same, scans_spells spells⟩

lemma scan_of_allBlank {cs : List Char} (blank : ∀ c ∈ cs, Text.isBlank c = true) (pos : Nat) :
    scan pos cs = .ok [] := by
  induction cs generalizing pos with
  | nil => rw [scan]
  | cons c rest ih =>
    rw [scan, if_pos (blank c mem_cons_self), ih fun c mem => blank c (mem_cons_of_mem _ mem)]

lemma evaluate_of_writes {t : Tree}
    (scanned : tokenize text = .ok tokens) (written : Writes 0 t tokens) (env : Environment) (store : Store) :
    evaluate env store text = t.eval env store := by
  have solid : Text.allBlank text = false := by
    by_contra blank
    rw [Bool.not_eq_false, Text.allBlank, all_eq_true] at blank
    have none := scan_of_allBlank blank 0
    rw [tokenize, none] at scanned
    cases scanned
    exact written.ne_nil rfl
  rw [evaluate, if_neg (by rw [solid]; decide), scanned]
  dsimp only
  rw [written.toPostfix]
  exact (Tree.computes env t).whole store

/-- Every datum that has a literal is read back from it, in every environment: the literal evaluates
to a value that stands for the same tree with equal numbers. -/
theorem evaluate_literal {d : Datum} (literal : d.Literal) (env : Environment) (store : Store) :
    ∃ text value after e, d.literal? = some text ∧ evaluate env store text = .ok (value, after) ∧
      after.datum? value = some e ∧ d.Same e := by
  obtain ⟨text, written, scans⟩ := scans_literal literal
  obtain ⟨tokens, ⟨t, writes, builds⟩, scanned⟩ := scans 0 [] Boundary.nil
  have tokenized : tokenize text = .ok tokens := by
    rw [List.append_nil, scan] at scanned
    rw [tokenize, scanned]
    simp [Except.map]
  obtain ⟨value, after, e, evaluated, _, same, stands⟩ := builds env store
  exact ⟨text, value, after, e, written, (evaluate_of_writes tokenized writes env store).trans evaluated,
    stands.datum?, same⟩

/-- A mapping with a name that needs quotes, a text that needs escapes, a fraction, a negative
number and the negative zero. -/
def quotedEntries : Datum :=
  .map [("first name", .str "a \"b\" \\ c\nd"),
    ("numbers", .seq [.num (Num.ofFloat (Float.ofBits 0x3fb999999999999a)),
      .num (Num.ofFloat (Float.ofBits 0xc004000000000000)), .num (Num.ofFloat (Float.ofBits 0x8000000000000000))]),
    ("true", .bool true), ("none", .map [])]

lemma moderate_tenth : Datum.Moderate (Float.ofBits 0x3fb999999999999a) := by
  have shape : Binary64.parts (Float.ofBits 0x3fb999999999999a) = ⟨false, 7205759403792794, -56⟩ := by decide
  refine ⟨by decide, Or.inr ?_⟩
  rw [shape, Binary64.Parts.size]
  norm_num

lemma moderate_minus : Datum.Moderate (Float.ofBits 0xc004000000000000) := by
  have shape : Binary64.parts (Float.ofBits 0xc004000000000000) = ⟨true, 5629499534213120, -51⟩ := by decide
  refine ⟨by decide, Or.inr ?_⟩
  rw [shape, Binary64.Parts.size]
  norm_num

lemma literal_quotedEntries : quotedEntries.Literal := by
  have numbers : Datum.Plain (.seq [.num (Num.ofFloat (Float.ofBits 0x3fb999999999999a)),
      .num (Num.ofFloat (Float.ofBits 0xc004000000000000)),
      .num (Num.ofFloat (Float.ofBits 0x8000000000000000))]) := by
    refine .seq fun d mem => ?_
    simp only [mem_cons, not_mem_nil, or_false] at mem
    rcases mem with rfl | rfl | rfl
    · exact .num moderate_tenth
    · exact .num moderate_minus
    · exact .num ⟨by decide, Or.inl (by decide)⟩
  refine Or.inl (.map (fun entry mem => ?_) (by decide))
  simp only [mem_cons, not_mem_nil, or_false] at mem
  rcases mem with rfl | rfl | rfl | rfl
  · exact .str _
  · exact numbers
  · exact .bool true
  · exact .map (fun _ none => by cases none) .nil

theorem evaluate_literal_quotedEntries :
    quotedEntries.Literal ∧
      ∃ text value after e, quotedEntries.literal? = some text ∧
        evaluate Environment.empty Store.empty text = .ok (value, after) ∧ after.datum? value = some e ∧
          quotedEntries.Same e :=
  ⟨literal_quotedEntries, evaluate_literal literal_quotedEntries Environment.empty Store.empty⟩

end TagScript.Expr
