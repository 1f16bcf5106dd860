import TagScript.Proofs.Expr.Grouped
import TagScript.Proofs.Expr.Sentence

/-!
# Tokens as parts of a text

The tokens of a text are read from parts of it that do not overlap and leave nothing but blanks
between them.
-/

namespace TagScript.Expr

open List Option

variable {c : Char} {cs rest after : List Char} {tokens : List Token}

/-! ## The part of a token -/

lemma splitPath_part (cs : List Char) :
    cs = (splitPath cs).1 ++ (splitPath cs).2 ∧ splitPath (splitPath cs).1 = ((splitPath cs).1, []) := by
  induction cs with
  | nil => exact ⟨rfl, rfl⟩
  | cons c rest ih =>
    have goes : rest.head?.elim false Datum.isNameChar = true →
        (splitPath rest).1.head?.elim false Datum.isNameChar = true := by
      intro name
      cases rest with
      | nil => cases name
      | cons d rest =>
        have first : Datum.isNameChar d = true := name
        simp [splitPath, first]
    rw [splitPath]
    split
    · rename_i continues
      refine ⟨congrArg (c :: ·) ih.1, ?_⟩
      have further : (Datum.isNameChar c || (c == '.' && (splitPath rest).1.head?.elim false Datum.isNameChar)) = true := by
        simp only [Bool.or_eq_true, Bool.and_eq_true] at continues ⊢
        exact continues.imp_right fun point => ⟨point.1, goes point.2⟩
      simp only [splitPath, further, if_true, ih.2]
    · exact ⟨rfl, rfl⟩

lemma splitString_part {quote : Char} {s : List Char} (found : splitString quote cs = some (s, after)) :
    ∃ part, cs = part ++ after ∧ ∀ tail, splitString quote (part ++ tail) = some (s, tail) := by
  fun_induction splitString quote cs generalizing s with
  | case1 => cases found
  | case2 c rest same =>
    cases found
    exact ⟨[c], rfl, fun tail => by rw [singleton_append, splitString.eq_def]; simp [same]⟩
  | case3 => cases found
  | case4 c other same e rest ih =>
    obtain ⟨⟨t, behind⟩, inner, made⟩ := map_eq_some_iff.mp found
    cases made
    obtain ⟨part, rfl, again⟩ := ih inner
    refine ⟨c :: e :: part, rfl, fun tail => ?_⟩
    rw [cons_append, cons_append, splitString.eq_def]
    simp [other, same, again]
  | case5 c rest other same ih =>
    obtain ⟨⟨t, behind⟩, inner, made⟩ := map_eq_some_iff.mp found
    cases made
    obtain ⟨part, rfl, again⟩ := ih inner
    refine ⟨c :: part, rfl, fun tail => ?_⟩
    rw [cons_append, splitString.eq_def]
    simp [other, same, again]

lemma splitSymbol?_part {symbol : Symbol} (found : splitSymbol? c rest = some (symbol, after)) :
    ∃ part, rest = part ++ after ∧ splitSymbol? c part = some (symbol, []) := by
  cases rest with
  | nil =>
    obtain ⟨_, single, made⟩ := map_eq_some_iff.mp found
    cases made
    exact ⟨[], rfl, found⟩
  | cons d rest =>
    rw [splitSymbol?] at found
    split at found
    · rename_i double
      cases found
      exact ⟨[d], rfl, by rw [splitSymbol?, double]⟩
    · obtain ⟨_, single, made⟩ := map_eq_some_iff.mp found
      cases made
      exact ⟨[], rfl, by rw [splitSymbol?, single]; rfl⟩

lemma splitSymbol?_alone (absent : splitSymbol? c rest = none) : splitSymbol? c [] = none := by
  cases rest with
  | nil => exact absent
  | cons d rest =>
    rw [splitSymbol?] at absent
    split at absent
    · cases absent
    · rw [splitSymbol?, map_eq_none_iff]
      exact map_eq_none_iff.mp absent

lemma startsNumber_part (starts : startsNumber c rest = true) : startsNumber c (rest.takeWhile isNumberChar) = true := by
  rw [startsNumber, Bool.or_eq_true, Bool.and_eq_true] at starts ⊢
  refine starts.imp_right fun point => ⟨point.1, ?_⟩
  cases rest with
  | nil => exact point.2
  | cons d rest =>
    have digit : Text.isDigit d = true := point.2
    rw [takeWhile_cons, if_pos (by rw [isNumberChar, digit]; rfl)]
    exact digit

lemma startsNumber_front {part : List Char} (none : ¬ startsNumber c (part ++ after) = true) : ¬ startsNumber c part = true := by
  cases part with
  | nil =>
    simp only [startsNumber, Bool.or_eq_true, not_or] at none
    simp [startsNumber, none.1]
  | cons d part => exact none

/-- A token is read from its part wherever that stands, as long as what follows does not belong to
it. -/
lemma splitLexeme_part {pos : Nat} {lexeme : Lexeme} (found : splitLexeme pos c rest = .ok (lexeme, after)) :
    ∃ part, rest = part ++ after ∧ ∀ pos tail, Parted tail → splitLexeme pos c (part ++ tail) = .ok (lexeme, tail) := by
  by_cases quote : c = '"' ∨ c = '\''
  · rw [splitLexeme_quote quote] at found
    split at found
    · rename_i s behind ended
      cases found
      obtain ⟨part, rfl, again⟩ := splitString_part ended
      exact ⟨part, rfl, fun pos tail _ => by rw [splitLexeme_quote quote, again]⟩
    · cases found
  · suffices ∃ part, rest = part ++ after ∧ splitLexeme pos c part = .ok (lexeme, []) by
      obtain ⟨part, rfl, alone⟩ := this
      refine ⟨part, rfl, fun pos' tail parted => ?_⟩
      have both : Both _ (splitLexeme pos c part) _ := splitLexeme_same parted pos pos' (absurd · quote)
      rw [alone] at both
      generalize splitLexeme pos' c (part ++ tail) = y at both
      cases both with
      | ok same => exact congrArg Except.ok (Prod.ext same.1 same.2)
    have solid : ¬ (c == '"' || c == '\'') = true := by simpa using quote
    unfold splitLexeme at found
    split at found
    · rename_i starts
      dsimp only at found
      split at found
      · rename_i x read
        cases found
        have all : (rest.takeWhile isNumberChar).dropWhile isNumberChar = [] :=
          List.dropWhile_eq_nil_iff.mpr fun d mem => mem_takeWhile_imp mem
        refine ⟨_, List.takeWhile_append_dropWhile.symm, ?_⟩
        rw [splitLexeme, if_pos (startsNumber_part starts), all]
        simp only [takeWhile_takeWhile, and_self, Bool.decide_eq_true, read]
      · cases found
    · rename_i number
      split at found
      · rename_i name
        cases found
        obtain ⟨whole, alone⟩ := splitPath_part rest
        rw [whole] at number
        refine ⟨_, whole, ?_⟩
        rw [splitLexeme, if_neg (startsNumber_front number), if_pos name, alone]
      · rename_i name
        split at found
        · rename_i symbol behind split
          cases found
          obtain ⟨part, rfl, alone⟩ := splitSymbol?_part split
          refine ⟨part, rfl, ?_⟩
          rw [splitLexeme, if_neg (startsNumber_front number), if_neg name, if_neg solid, alone]
        · rename_i symbol
          split at found
          · rename_i mark is
            cases found
            refine ⟨[], rfl, ?_⟩
            rw [splitLexeme, if_neg (startsNumber_front number), if_neg name, if_neg solid, splitSymbol?_alone symbol]
            simp only [is]
          · cases found

/-! ## All parts of a text -/

/-- From a position on, each character of a text is a blank or belongs to the one word that some
token is read from, and the token has the position where its word starts. -/
inductive Parts : Nat → List Char → List Token → List (List Char) → Prop where
  | done (pos : Nat) : Parts pos [] [] []
  | blank {pos cs tokens words} {c : Char} (is : Text.isBlank c = true) (rest : Parts (pos + 1) cs tokens words) :
    Parts pos (c :: cs) tokens words
  | word {pos after tokens words} {word : List Char} (lexeme : Lexeme) (some : word ≠ [])
    (rest : Parts (pos + word.length) after tokens words) :
    Parts pos (word ++ after) (⟨lexeme, pos⟩ :: tokens) (word :: words)

/-- Words with one blank or more between each two of them. -/
inductive Joined : List (List Char) → List Char → Prop where
  | none : Joined [] []
  | last (word : List Char) : Joined [word] word
  | more {words text c gap} (word : List Char) (blanks : Blanks (c :: gap)) (rest : Joined words text) :
    Joined (word :: words) (word ++ (c :: gap ++ text))

/-- A word that is scanned to one token. -/
def Word (word : List Char) (t : Token) : Prop :=
  Scans Parted word fun tokens => ∃ pos, tokens = [⟨t.lexeme, pos⟩]

lemma scan_parts (pos : Nat) (cs : List Char) (scanned : scan pos cs = .ok tokens) :
    ∃ words, Parts pos cs tokens words ∧ List.Forall₂ Word words tokens := by
  induction length : cs.length using Nat.strong_induction_on generalizing pos cs tokens with
  | _ n ih =>
    cases cs with
    | nil =>
      rw [scan] at scanned
      cases scanned
      exact ⟨[], .done pos, .nil⟩
    | cons c rest =>
      rw [length_cons] at length
      by_cases blank : Text.isBlank c = true
      · rw [scan, if_pos blank] at scanned
        obtain ⟨words, parts, each⟩ := ih rest.length (by omega) _ rest scanned rfl
        exact ⟨words, .blank blank parts, each⟩
      · rw [scan_cons blank] at scanned
        obtain ⟨⟨lexeme, after⟩, found, further⟩ := ok_of_bind scanned
        obtain ⟨others, tail, rfl⟩ := map_eq_ok.mp further
        obtain ⟨part, rfl, again⟩ := splitLexeme_part found
        have moved : (part ++ after).length + 1 - after.length = (c :: part).length := by
          rw [length_append, length_cons]
          omega
        rw [moved] at tail
        rw [length_append] at length
        obtain ⟨words, parts, each⟩ := ih after.length (by omega) _ after tail rfl
        exact ⟨_, .word lexeme (cons_ne_nil c part) parts, .cons (Scans.lexeme (by simpa using blank) again) each⟩

lemma scan_joined {words : List (List Char)} {text : List Char} (joined : Joined words text)
    (each : List.Forall₂ Word words tokens) (pos : Nat) :
    ∃ others, scan pos text = .ok others ∧ others.map Token.lexeme = tokens.map Token.lexeme := by
  induction joined generalizing tokens pos with
  | none =>
    cases each
    exact ⟨[], by rw [scan], rfl⟩
  | last word =>
    obtain _ | ⟨first, ⟨⟩⟩ := each
    obtain ⟨_, ⟨q, rfl⟩, scanned⟩ := first pos [] (by rintro _ ⟨⟩)
    rw [append_nil, scan] at scanned
    exact ⟨_, scanned, rfl⟩
  | @more _ text c gap word blanks _ ih =>
    obtain _ | ⟨first, others⟩ := each
    have parted : Parted (c :: gap ++ text) := by
      rintro _ ⟨⟩
      exact .of_isBlank (blanks c mem_cons_self)
    obtain ⟨_, ⟨q, rfl⟩, scanned⟩ := first pos (c :: gap ++ text) parted
    obtain ⟨behind, found, same⟩ := ih others (pos + word.length + (c :: gap).length)
    rw [scan_blanks_append blanks, found] at scanned
    exact ⟨_, scanned, congrArg (_ :: ·) same⟩

/-- The tokens of a text are read from words of it with nothing but blanks between them, and the
words joined by any blanks are read to the same tokens. -/
theorem tokenize_partition {text : String} (scanned : tokenize text = .ok tokens) :
    ∃ words, Parts 0 text.toList tokens words ∧ ∀ joined, Joined words joined →
      ∃ others, tokenize (String.ofList joined) = .ok others ∧ others.map Token.lexeme = tokens.map Token.lexeme := by
  obtain ⟨words, parts, each⟩ := scan_parts 0 text.toList scanned
  refine ⟨words, parts, fun text joined => ?_⟩
  rw [tokenize, String.toList_ofList]
  exact scan_joined joined each 0

theorem tokenize_partition_of_adjacent :
    ∃ tokens words, tokenize "a.0<='b c'!d" = .ok tokens ∧ tokens.length = 5 ∧ Parts 0 "a.0<='b c'!d".toList tokens words := by
  have scanned : tokenize "a.0<='b c'!d" = .ok [⟨.identifier "a.0", 0⟩, ⟨.operator .le, 3⟩, ⟨.string "b c", 5⟩,
      ⟨.operator .bang, 10⟩, ⟨.identifier "d", 11⟩] := by
    cbv
  obtain ⟨words, parts, _⟩ := tokenize_partition scanned
  exact ⟨_, words, scanned, rfl, parts⟩

end TagScript.Expr
