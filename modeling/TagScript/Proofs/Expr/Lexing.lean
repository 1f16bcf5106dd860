import TagScript.Expr.Token
import TagScript.Proofs.Number.Numeral

/-!
# Scanning texts piece by piece

A piece of text is scanned to certain tokens whatever stands behind it, if that does not continue
its last token.
-/

namespace TagScript.Expr

open List Text

variable {c : Char}

def Boundary (rest : List Char) : Prop :=
  ∀ c, rest.head? = some c → isNumberChar c = false ∧ Datum.isNameChar c = false

/-- A piece of text is scanned to tokens with a property wherever it stands before a rest of the
given kind, and the rest is scanned by itself. -/
def Scans (before : List Char → Prop) (cs : List Char) (written : List Token → Prop) : Prop :=
  ∀ pos rest, before rest → ∃ tokens, written tokens ∧
    scan pos (cs ++ rest) = (scan (pos + cs.length) rest).map (tokens ++ ·)

def Anything (_ : List Char) : Prop := True

lemma Boundary.nil : Boundary [] := by
  intro c head
  cases head

lemma Boundary.cons (number : isNumberChar c = false) (name : Datum.isNameChar c = false)
    (rest : List Char) : Boundary (c :: rest) := by
  intro d head
  cases head
  exact ⟨number, name⟩

lemma scan_cons (solid : ¬ isBlank c = true) (pos : Nat) (rest : List Char) :
    scan pos (c :: rest) = splitLexeme pos c rest >>= fun found =>
      (scan (pos + (rest.length + 1 - found.2.length)) found.2).map (⟨found.1, pos⟩ :: ·) := by
  rw [scan, if_neg solid]
  split
  · rename_i fault failed
    rw [failed]
    rfl
  · rename_i lexeme after found
    rw [found]
    simp only [bind, Except.bind]
    cases scan _ after <;> rfl

namespace Scans

variable {before behind : List Char → Prop} {cs ds : List Char} {P Q : List Token → Prop}

lemma append (one : Scans before cs P) (other : Scans behind ds Q)
    (fits : ∀ rest, behind rest → before (ds ++ rest)) :
    Scans behind (cs ++ ds) fun tokens => ∃ first second, P first ∧ Q second ∧ tokens = first ++ second := by
  intro pos rest apart
  obtain ⟨first, isFirst, head⟩ := one pos (ds ++ rest) (fits rest apart)
  obtain ⟨second, isSecond, tail⟩ := other (pos + cs.length) rest apart
  refine ⟨first ++ second, ⟨first, second, isFirst, isSecond, rfl⟩, ?_⟩
  rw [append_assoc, head, tail, length_append, Nat.add_assoc]
  cases scan (pos + (cs.length + ds.length)) rest with
  | error fault => rfl
  | ok tokens => simp [Except.map]

lemma imp (scans : Scans before cs P) (implies : ∀ tokens, P tokens → Q tokens) : Scans before cs Q := by
  intro pos rest apart
  obtain ⟨tokens, holds, scanned⟩ := scans pos rest apart
  exact ⟨tokens, implies tokens holds, scanned⟩

lemma narrow (scans : Scans before cs P) (fits : ∀ rest, behind rest → before rest) : Scans behind cs P :=
  fun pos rest apart => scans pos rest (fits rest apart)

lemma lexeme {c : Char} {lexeme : Lexeme} (solid : isBlank c = false)
    (split : ∀ pos rest, before rest → splitLexeme pos c (cs ++ rest) = .ok (lexeme, rest)) :
    Scans before (c :: cs) fun tokens => ∃ pos, tokens = [⟨lexeme, pos⟩] := by
  intro pos rest apart
  refine ⟨_, ⟨pos, rfl⟩, ?_⟩
  have moved : (cs ++ rest).length + 1 - rest.length = (c :: cs).length := by
    rw [length_append, length_cons]
    omega
  rw [cons_append, scan_cons (by rw [solid]; decide), split pos rest apart, ← moved]
  rfl

end Scans

/-! ## The kinds of tokens -/

lemma scans_space : Scans Anything [' '] fun tokens => tokens = [] := by
  intro pos rest _
  refine ⟨[], rfl, ?_⟩
  rw [singleton_append, scan, if_pos (by decide)]
  cases scan (pos + 1) rest with
  | error | ok => simp [Except.map, *]

lemma doubleSymbol?_eq_none (plain : c ∉ ['=', '!', '<', '>', '&', '|']) (d : Char) : doubleSymbol? c d = none := by
  simp only [mem_cons, not_mem_nil, or_false, not_or] at plain
  simp [doubleSymbol?, plain]

lemma scans_mark (m : Mark) : Scans Anything [m.char] fun tokens => ∃ pos, tokens = [⟨.mark m, pos⟩] := by
  refine Scans.lexeme (by cases m <;> decide) fun pos rest _ => ?_
  have digit : isDigit m.char = false := by cases m <;> decide
  have point : (m.char == '.') = false := by cases m <;> decide
  have name : Datum.isNameStart m.char = false := by cases m <;> decide
  have quote : (m.char == '"' || m.char == '\'') = false := by cases m <;> decide
  have double : ∀ d, doubleSymbol? m.char d = none := doubleSymbol?_eq_none (by cases m <;> decide)
  have single : singleSymbol? m.char = none := by cases m <;> decide
  have mark : Mark.ofChar? m.char = some m := by cases m <;> decide
  have symbol : splitSymbol? m.char rest = none := by
    unfold splitSymbol?
    cases rest <;> simp [double, single]
  simp [splitLexeme, startsNumber, digit, point, name, quote, symbol, mark]

lemma scans_symbol {symbol : Symbol} (only : singleSymbol? c = some symbol ∧ c ∉ ['=', '!', '<', '>', '&', '|'])
    (other : (Text.isBlank c || Text.isDigit c || c == '.' || Datum.isNameStart c || c == '"' || c == '\'') = false) :
    Scans Anything [c] fun tokens => ∃ pos, tokens = [⟨.operator symbol, pos⟩] := by
  simp only [Bool.or_eq_false_iff] at other
  refine Scans.lexeme other.1.1.1.1.1 fun pos rest _ => ?_
  have found : splitSymbol? c rest = some (symbol, rest) := by
    unfold splitSymbol?
    cases rest <;> simp [doubleSymbol?_eq_none only.2, only.1]
  simp [splitLexeme, startsNumber, other, found]

lemma scans_minus : Scans Anything ['-'] fun tokens => ∃ pos, tokens = [⟨.operator .sub, pos⟩] :=
  scans_symbol (by decide) (by decide)

lemma isNumberChar_of_shows {cs : List Char} {value places : Nat} (shows : Numeral.Shows cs value places) :
    ∃ c rest, cs = c :: rest ∧ c.isDigit = true ∧ ∀ d ∈ rest, isNumberChar d = true := by
  have plain : ∀ {d : Char}, d.isDigit = true → isNumberChar d = true := by
    intro d digit
    rw [isNumberChar, isDigit_of_isDigit digit, Bool.true_or]
  cases shows with
  | whole nonempty digits =>
    obtain ⟨c, rest, rfl⟩ := exists_cons_of_ne_nil nonempty
    exact ⟨c, rest, rfl, digits c mem_cons_self, fun d mem =>
      plain (digits d (mem_cons_of_mem _ mem))⟩
  | point nonempty wholes fractions =>
    obtain ⟨c, rest, rfl⟩ := exists_cons_of_ne_nil nonempty
    refine ⟨c, _, rfl, wholes c mem_cons_self, fun d mem => ?_⟩
    rcases List.mem_append.mp mem with mem | mem
    · exact plain (wholes d (mem_cons_of_mem _ mem))
    · rcases List.mem_cons.mp mem with rfl | mem
      · decide
      · exact plain (fractions d mem)

lemma takeWhile_append_boundary {cs rest : List Char} (all : ∀ d ∈ cs, isNumberChar d = true)
    (boundary : Boundary rest) :
    (cs ++ rest).takeWhile isNumberChar = cs ∧ (cs ++ rest).dropWhile isNumberChar = rest := by
  have stop : rest.takeWhile isNumberChar = [] ∧ rest.dropWhile isNumberChar = rest := by
    cases rest with
    | nil => exact ⟨rfl, rfl⟩
    | cons c rest =>
      have other := (boundary c rfl).1
      simp [other]
  rw [takeWhile_append_of_pos all, dropWhile_append_of_pos all, stop.1, stop.2, append_nil]
  exact ⟨rfl, rfl⟩

lemma scans_number {cs : List Char} {value places : Nat} (shows : Numeral.Shows cs value places) :
    Scans Boundary cs fun tokens =>
      ∃ pos, tokens = [⟨.number (Binary64.ofDecimal false value (-places)), pos⟩] := by
  have read := Numeral.float?_of_shows shows
  obtain ⟨c, rest, rfl, digit, others⟩ := isNumberChar_of_shows shows
  refine Scans.lexeme (isBlank_of_isDigit digit) fun pos behind boundary => ?_
  obtain ⟨taken, dropped⟩ := takeWhile_append_boundary others boundary
  have starts : startsNumber c (rest ++ behind) = true := by
    rw [startsNumber, isDigit_of_isDigit digit, Bool.true_or]
  simp only [splitLexeme, starts, if_true, taken, dropped, read]

/-! ## Names and strings -/

lemma splitPath_append_boundary {word rest : List Char} (all : ∀ d ∈ word, Datum.isNameChar d = true)
    (boundary : Boundary rest) : splitPath (word ++ rest) = (word, rest) := by
  induction word with
  | nil =>
    cases rest with
    | nil => rfl
    | cons c rest =>
      obtain ⟨number, name⟩ := boundary c rfl
      have point : (c == '.') = false := (Bool.or_eq_false_iff.mp number).2
      simp [splitPath, name, point]
  | cons c word ih =>
    have name := all c mem_cons_self
    simp [splitPath, name, ih fun d mem => all d (mem_cons_of_mem _ mem)]

lemma isNameStart_bounds (first : Datum.isNameStart c = true) : 65 ≤ c.toNat ∧ c.toNat ≤ 122 := by
  simp only [Datum.isNameStart, Char.isAlpha, Char.isUpper, Char.isLower, Bool.or_eq_true, Bool.and_eq_true,
    decide_eq_true_eq, beq_iff_eq] at first
  rcases first with (⟨low, high⟩ | ⟨low, high⟩) | rfl
  · have low : 65 ≤ c.toNat := UInt32.le_iff_toNat_le.mp low
    have high : c.toNat ≤ 90 := UInt32.le_iff_toNat_le.mp high
    omega
  · have low : 97 ≤ c.toNat := UInt32.le_iff_toNat_le.mp low
    have high : c.toNat ≤ 122 := UInt32.le_iff_toNat_le.mp high
    omega
  · decide

lemma scans_word {word : List Char} (first : Datum.isNameStart c = true)
    (all : ∀ d ∈ word, Datum.isNameChar d = true) :
    Scans Boundary (c :: word) fun tokens => ∃ pos, tokens = [⟨wordLexeme (String.ofList (c :: word)), pos⟩] := by
  obtain ⟨low, high⟩ := isNameStart_bounds first
  have solid : isBlank c = false := by
    have first : ¬ c.toNat ≤ 13 := by omega
    have second : ¬ c.toNat ≤ 32 := by omega
    have third : c.toNat ≤ 133 := by omega
    simp only [isBlank, blankRanges, Text.Ranges.has, if_neg first, if_neg second, if_pos third]
    simp
    omega
  have digit : isDigit c = false := by
    have first : ¬ c.toNat ≤ 57 := by omega
    have second : c.toNat ≤ 179 := by omega
    simp only [isDigit, digitRanges, Text.Ranges.has, if_neg first, if_pos second]
    simp
    omega
  have point : (c == '.') = false := by
    rw [beq_eq_false_iff_ne]
    rintro rfl
    revert low
    decide
  refine Scans.lexeme solid fun pos rest boundary => ?_
  rw [splitLexeme, splitPath_append_boundary all boundary]
  simp [startsNumber, digit, point, first]

lemma splitString_literalChar (c : Char) (rest : List Char) :
    splitString '"' ((Datum.literalChar c).toList ++ rest) =
      (splitString '"' rest).map fun (s, after) => (c :: s, after) := by
  unfold Datum.literalChar
  by_cases backslash : c = '\\'
  · subst backslash
    simp [splitString, unescape]
  · by_cases quote : c = '"'
    · subst quote
      simp [splitString, unescape]
    · by_cases newline : c = '\n'
      · subst newline
        simp [splitString, unescape]
      · have plain : splitString '"' (c :: rest) =
            (splitString '"' rest).map fun (s, after) => (c :: s, after) := by
          rw [splitString.eq_def]
          simp [backslash, quote]
        simp [backslash, quote, newline, plain]

lemma splitString_stringLiteral (cs rest : List Char) :
    splitString '"' (cs.flatMap (fun c => (Datum.literalChar c).toList) ++ '"' :: rest) = some (cs, rest) := by
  induction cs with
  | nil =>
    rw [flatMap_nil, nil_append, splitString.eq_def]
    simp
  | cons c cs ih =>
    rw [flatMap_cons, append_assoc, splitString_literalChar, ih]
    rfl

lemma toList_stringLiteral (s : String) :
    (Datum.stringLiteral s).toList =
      '"' :: (s.toList.flatMap (fun c => (Datum.literalChar c).toList) ++ ['"']) := by
  simp [Datum.stringLiteral, String.toList_join, flatMap_map]

lemma splitLexeme_quote (quote : c = '"' ∨ c = '\'') (pos : Nat) (rest : List Char) :
    splitLexeme pos c rest = match splitString c rest with
      | some (s, after) => .ok (.string (String.ofList s), after)
      | none => .error (.unterminatedString pos) := by
  have other : (isDigit c || c == '.' || Datum.isNameStart c) = false := by
    rcases quote with rfl | rfl <;> decide
  simp only [Bool.or_eq_false_iff] at other
  rcases quote with rfl | rfl <;> rfl

lemma scans_string (s : String) :
    Scans Anything (Datum.stringLiteral s).toList fun tokens => ∃ pos, tokens = [⟨.string s, pos⟩] := by
  rw [toList_stringLiteral]
  refine Scans.lexeme (by decide) fun pos rest _ => ?_
  rw [splitLexeme_quote (.inl rfl), append_assoc, singleton_append, splitString_stringLiteral]
  simp

end TagScript.Expr
