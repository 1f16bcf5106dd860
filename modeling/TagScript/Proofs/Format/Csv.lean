import Mathlib.Data.List.DropRight
import TagScript.Proofs.Datum.Dateless

/-!
# Tables that are written and read
-/

namespace TagScript.Csv

open List String Text

variable {s t : State} {cs ds : List Char} {cell : String} {row done : List String} {rows : List (List String)}
  {c : Char}

/-! ## Texts without blanks at their ends -/

/-- A text neither begins nor ends with a blank. -/
structure Sharp (cs : List Char) : Prop where
  head : ∀ c ∈ cs.head?, isBlank c = false
  last : ∀ c ∈ cs.getLast?, isBlank c = false

lemma sharp_trimChars (cs : List Char) : Sharp (trimChars cs) := by
  have first : ∀ ds : List Char, ∀ c ∈ (ds.dropWhile isBlank).head?, isBlank c = false := by
    intro ds c head
    have found := head?_dropWhile_not isBlank ds
    rw [Option.mem_def.mp head] at found
    exact found
  constructor
  · intro c head
    obtain ⟨rest, same⟩ := rdropWhile_prefix isBlank (cs.dropWhile isBlank)
    have head : (List.rdropWhile isBlank (cs.dropWhile isBlank)).head? = some c := head
    apply first cs c
    rw [← same, head?_append, head]
    rfl
  · intro c last
    rw [Text.trimChars, Text.trimRight, getLast?_reverse] at last
    exact first _ c last

lemma mem_of_mem_trimChars (mem : c ∈ trimChars cs) : c ∈ cs :=
  (dropWhile_suffix _).subset (( rdropWhile_prefix isBlank _).subset mem)

lemma Sharp.trim (sharp : Sharp cs) : Text.trimChars cs = cs := by
  have keeps : ∀ {ds : List Char}, (∀ c ∈ ds.head?, Text.isBlank c = false) → ds.dropWhile Text.isBlank = ds := by
    intro ds solid
    cases ds with
    | nil => rfl
    | cons c rest => exact dropWhile_cons_of_neg (by simp [solid c rfl])
  rw [Text.trimChars, Text.trimLeft, keeps sharp.head, Text.trimRight, keeps, reverse_reverse]
  rw [head?_reverse]
  exact sharp.last

/-- Two texts with a sign between them. -/
lemma Sharp.beside (left : Sharp cs) (right : Sharp ds) (front : cs ≠ [] ∨ isBlank c = false)
    (back : ds ≠ [] ∨ isBlank c = false) : Sharp (cs ++ c :: ds) where
  head := by
    cases cs with
    | nil => simpa using front
    | cons _ _ => exact left.head
  last := by
    rw [getLast?_append_of_ne_nil _ (cons_ne_nil _ _)]
    cases ds with
    | nil => simpa using back
    | cons _ _ => exact right.last

/-! ## What is read -/

/-- A cell as it is read from a text without carriage returns. -/
structure Tidy (cell : String) : Prop where
  sharp : Sharp cell.toList
  plain : '\r' ∉ cell.toList

def Filled (row : List String) : Prop := row ≠ [] ∧ ∀ cell ∈ row, Tidy cell

/-- What has been read of a text without carriage returns. -/
structure State.Sound (s : State) : Prop where
  rows : ∀ row ∈ s.rows, Filled row
  row : ∀ cell ∈ s.row, Tidy cell
  cell : '\r' ∉ s.cell

/-- A character moves the reader on, is kept, or ends the cell. -/
lemma State.take_cases (taken : s.take c = .ok t) :
    ∃ p, t = { s with place := p } ∨ t = s.keep p c ∨ t = s.endCell p := by
  unfold State.take State.startCell at taken
  split at taken <;> repeat' split at taken
  all_goals cases taken
  all_goals first | exact ⟨_, .inl rfl⟩ | exact ⟨_, .inr (.inl rfl)⟩ | exact ⟨_, .inr (.inr rfl)⟩

namespace State.Sound

lemma endCell (sound : s.Sound) (place : Place) : (s.endCell place).Sound where
  rows := sound.rows
  row := by
    refine forall_mem_cons.mpr ⟨⟨?_, ?_⟩, sound.row⟩
    · rw [toList_ofList]
      exact sharp_trimChars _
    · rw [toList_ofList]
      exact fun mem => sound.cell (mem_reverse.mp (mem_of_mem_trimChars mem))
  cell := not_mem_nil

lemma keep (sound : s.Sound) (place : Place) (plain : c ≠ '\r') : (s.keep place c).Sound :=
  ⟨sound.rows, sound.row, by simpa [State.keep, Ne.symm plain] using sound.cell⟩

lemma move (sound : s.Sound) (place : Place) : Sound { s with place := place } :=
  ⟨sound.rows, sound.row, sound.cell⟩

lemma endRow (sound : s.Sound) : s.endRow.Sound := by
  unfold State.endRow
  split
  · exact sound.move .rowStart
  · rename_i row some
    refine ⟨forall_mem_cons.mpr ⟨⟨?_, fun cell mem => ?_⟩, sound.rows⟩, nofun, not_mem_nil⟩
    · simpa using some
    · exact sound.row cell (mem_reverse.mp mem)

lemma endLine (sound : s.Sound) : s.endLine.Sound := by
  unfold State.endLine
  split
  · exact sound.endRow
  · exact sound.endRow
  · exact (sound.endCell _).endRow
  · exact (sound.endCell _).endRow
  · exact (sound.endCell _).endRow
  · exact sound

lemma take (sound : s.Sound) (plain : c ≠ '\r') (taken : s.take c = .ok t) : t.Sound := by
  obtain ⟨p, rfl | rfl | rfl⟩ := take_cases taken
  · exact sound.move p
  · exact sound.keep p plain
  · exact sound.endCell p

lemma takeAll (sound : s.Sound) (plain : '\r' ∉ cs) (taken : s.takeAll cs = .ok t) : t.Sound := by
  induction cs generalizing s with
  | nil =>
    cases taken
    exact sound
  | cons c rest ih =>
    rw [mem_cons, not_or] at plain
    unfold State.takeAll at taken
    split at taken
    · cases taken
    · rename_i next here
      have sound := sound.take (Ne.symm plain.1) here
      refine ih ?_ plain.2 taken
      split
      · exact sound.endLine
      · exact sound

lemma finish (sound : s.Sound) : ∀ row ∈ s.finish, Filled row := by
  intro row mem
  rw [State.finish, mem_reverse] at mem
  split at mem
  · exact (sound.endLine.endCell _).endRow.rows row mem
  · exact sound.endLine.rows row mem

end State.Sound

variable {text : String}

lemma filled_of_read (plain : '\r' ∉ text.toList) (found : read text = .ok rows) : ∀ row ∈ rows, Filled row := by
  unfold read at found
  split at found
  · cases found
    exact nofun
  · cases taken : State.start.takeAll (trimChars text.toList) with
    | error e =>
      rw [taken] at found
      cases found
    | ok t =>
      rw [taken] at found
      cases found
      have start : State.start.Sound := ⟨nofun, nofun, not_mem_nil⟩
      exact (start.takeAll (mt mem_of_mem_trimChars plain) taken).finish

/-! ## What is written -/

lemma takeAll_append (s : State) (cs ds : List Char) : s.takeAll (cs ++ ds) = s.takeAll cs >>= (·.takeAll ds) := by
  induction cs generalizing s with
  | nil => rfl
  | cons c rest ih =>
    rw [cons_append, State.takeAll, State.takeAll]
    cases s.take c with
    | error e => rfl
    | ok t => exact ih _

lemma takeAll_inCell (simple : ∀ c ∈ cs, c ≠ ',' ∧ isBreak c = false) (read : List Char) :
    State.takeAll ⟨.inCell, read, done, rows⟩ cs = .ok ⟨.inCell, cs.reverse ++ read, done, rows⟩ := by
  induction cs generalizing read with
  | nil => rfl
  | cons c rest ih =>
    rw [forall_mem_cons] at simple
    have line : c ≠ '\n' := by
      rintro rfl
      exact absurd simple.1.2 (by decide)
    simp [State.takeAll, State.take, simple.1, line, State.keep, ih simple.2]

def doubled (c : Char) : String := if c == '"' then "\"\"" else c.toString

lemma takeAll_inQuotes (cs read : List Char) (done : List String) (rows : List (List String)) :
    State.takeAll ⟨.inQuotes, read, done, rows⟩ (String.join (cs.map doubled)).toList =
      .ok ⟨.inQuotes, cs.reverse ++ read, done, rows⟩ := by
  induction cs generalizing read with
  | nil => rfl
  | cons c rest ih =>
    have first : State.takeAll ⟨.inQuotes, read, done, rows⟩ (doubled c).toList = .ok ⟨.inQuotes, c :: read, done, rows⟩ := by
      by_cases quote : c = '"'
      · subst quote
        rfl
      · by_cases line : c = '\n'
        · subst line
          rfl
        · simp [doubled, quote, State.takeAll, State.take, State.keep, line]
    rw [map_cons, join_cons, toList_append, takeAll_append, first, reverse_cons, List.append_assoc]
    exact ih _

/-- A cell can end here, and with it a row. -/
def Place.Ends (p : Place) : Prop := p = .cellStart ∨ p = .inCell ∨ p = .afterQuote

lemma takeAll_writeCell (tidy : Tidy cell) {p : Place} (begins : p = .rowStart ∨ p = .cellStart) (done : List String)
    (rows : List (List String)) :
    ∃ q, State.takeAll ⟨p, [], done, rows⟩ (writeCell cell).toList = .ok ⟨q, cell.toList.reverse, done, rows⟩ ∧
      (q.Ends ∨ q = p ∧ cell = "") := by
  unfold writeCell
  split
  · have opened : State.takeAll ⟨p, [], done, rows⟩ ['"'] = .ok ⟨.inQuotes, [], done, rows⟩ := by
      rcases begins with rfl | rfl <;> rfl
    have inner := takeAll_inQuotes cell.toList [] done rows
    refine ⟨.afterQuote, ?_, .inl (.inr (.inr rfl))⟩
    rw [append_nil] at inner
    rw [toList_append, toList_append, takeAll_append, takeAll_append]
    exact opened ▸ congrArg (fun r => r >>= fun s => State.takeAll s ['"']) inner
  · rename_i simple
    obtain ⟨sharp, plain⟩ := tidy
    rw [any_eq_true] at simple
    cases chars : cell.toList with
    | nil => exact ⟨p, rfl, .inr ⟨rfl, String.toList_eq_nil_iff.mp chars⟩⟩
    | cons c rest =>
      rw [chars] at simple sharp plain
      have solid : isBlank c = false := sharp.head c rfl
      have others : ∀ d ∈ c :: rest, (d ≠ ',' ∧ d ≠ '"') ∧ isBreak d = false := by
        intro d among
        have other : d ≠ '\r' := fun same => plain (same ▸ among)
        have simple : ¬ (d == ',' || d == '"' || d == '\n') = true := fun bad => simple ⟨d, among, bad⟩
        simp only [Bool.or_eq_true, beq_iff_eq, not_or] at simple
        simp [simple, isBreak, other]
      obtain ⟨⟨⟨comma, quote⟩, line⟩, others⟩ := forall_mem_cons.mp others
      have first : State.takeAll ⟨p, [], done, rows⟩ [c] = .ok ⟨.inCell, [c], done, rows⟩ := by
        have space : c ≠ ' ' := by
          rintro rfl
          cases solid
        have newline : c ≠ '\n' := by
          rintro rfl
          cases line
        rcases begins with rfl | rfl <;>
          simp [State.takeAll, State.take, State.startCell, State.keep, comma, quote, line, space, newline]
      refine ⟨.inCell, ?_, .inl (.inr (.inl rfl))⟩
      rw [← singleton_append, takeAll_append, first, reverse_append]
      exact takeAll_inCell (fun d among => (others d among).imp_left And.left) _

/-! ## Rows -/

lemma toList_joined (sep first next : String) (rest : List String) :
    (joined sep (first :: next :: rest)).toList = first.toList ++ (sep.toList ++ (joined sep (next :: rest)).toList) := by
  rw [joined, toList_append, toList_append, List.append_assoc]
  exact cons_ne_nil _ _

/-- The cells of a row, at the beginning of the row or behind others, up to the end of the line. -/
lemma takeAll_cells {p : Place} (begins : p = .rowStart ∨ p = .cellStart) (filled : Filled row)
    (more : p = .rowStart → row ≠ [""]) (done : List String) (rows : List (List String)) :
    State.takeAll ⟨p, [], done, rows⟩ ((Text.joined "," (row.map writeCell)).toList ++ ['\n']) =
      .ok ⟨.rowStart, [], [], (done.reverse ++ row) :: rows⟩ := by
  induction row generalizing p done with
  | nil => exact absurd rfl filled.1
  | cons cell rest ih =>
    obtain ⟨tidy, others⟩ := forall_mem_cons.mp filled.2
    obtain ⟨q, first, place⟩ := takeAll_writeCell tidy begins done rows
    have whole : String.ofList (trimChars cell.toList.reverse.reverse) = cell := by
      rw [reverse_reverse, tidy.sharp.trim, ofList_toList]
    cases rest with
    | nil =>
      have ends : q.Ends := by
        rcases place with ends | ⟨rfl, rfl⟩
        · exact ends
        · exact begins.elim (fun same => absurd rfl (more same)) .inl
      rw [map_singleton, joined, takeAll_append, first, ← reverse_cons]
      nth_rewrite 2 [← whole]
      rcases ends with rfl | rfl | rfl <;> rfl
    | cons next rest =>
      have comma : State.takeAll ⟨q, cell.toList.reverse, done, rows⟩ [','] = .ok ⟨.cellStart, [], cell :: done, rows⟩ := by
        have place : q = .rowStart ∨ q.Ends := place.elim .inr fun same => same.1 ▸ begins.imp_right .inl
        nth_rewrite 2 [← whole]
        rcases place with rfl | rfl | rfl | rfl <;> rfl
      have later := ih (.inr rfl) ⟨cons_ne_nil _ _, others⟩ nofun (cell :: done)
      rw [reverse_cons, List.append_assoc] at later
      rw [map_cons, map_cons, toList_joined, List.append_assoc, List.append_assoc, takeAll_append, first]
      exact (takeAll_append _ [','] _).trans (comma ▸ later)

lemma takeAll_writeRow (filled : Filled row) (rows : List (List String)) :
    State.takeAll ⟨.rowStart, [], [], rows⟩ ((writeRow row).toList ++ ['\n']) = .ok ⟨.rowStart, [], [], row :: rows⟩ := by
  unfold writeRow
  split
  · rfl
  · rename_i more
    exact takeAll_cells (.inl rfl) filled (fun _ => more) [] rows

def writeLine (row : List String) : String := writeRow row ++ "\n"

lemma takeAll_rows (filled : ∀ row ∈ rows, Filled row) (done : List (List String)) :
    State.takeAll ⟨.rowStart, [], [], done⟩ (String.join (rows.map writeLine)).toList =
      .ok ⟨.rowStart, [], [], rows.reverse ++ done⟩ := by
  induction rows generalizing done with
  | nil => rfl
  | cons row rest ih =>
    rw [forall_mem_cons] at filled
    rw [map_cons, join_cons, writeLine, toList_append, toList_append, takeAll_append, reverse_cons, List.append_assoc]
    exact takeAll_writeRow filled.1 done ▸ ih filled.2 _

/-- The end of the text ends a line as well as a line break does. -/
lemma finish_eq (taken : s.takeAll ['\n'] = .ok t) (start : t.place = .rowStart) : s.finish = t.rows.reverse := by
  obtain ⟨place, read, row, rows⟩ := s
  cases place <;> cases row <;> cases taken <;> first | rfl | cases start

/-! ## The whole text -/

lemma sharp_writeCell (tidy : Tidy cell) : Sharp (writeCell cell).toList := by
  unfold writeCell
  split
  · rw [toList_append, toList_append, List.append_assoc]
    constructor
    · rintro c ⟨⟩
      decide
    · rw [← List.append_assoc, getLast?_append_of_ne_nil _ (by decide)]
      rintro c ⟨⟩
      decide
  · exact tidy.sharp

lemma sharp_cells (filled : Filled row) : Sharp (Text.joined "," (row.map writeCell)).toList := by
  induction row with
  | nil => exact absurd rfl filled.1
  | cons cell rest ih =>
    obtain ⟨tidy, others⟩ := forall_mem_cons.mp filled.2
    cases rest with
    | nil => exact sharp_writeCell tidy
    | cons next rest =>
      rw [map_cons, map_cons, toList_joined]
      exact (sharp_writeCell tidy).beside (ih ⟨cons_ne_nil _ _, others⟩) (.inr (by decide)) (.inr (by decide))

lemma sharp_writeRow (filled : Filled row) : Sharp (writeRow row).toList ∧ (writeRow row).toList ≠ [] := by
  constructor
  · unfold writeRow
    split
    · constructor <;> rintro c ⟨⟩ <;> decide
    · exact sharp_cells filled
  · intro empty
    have taken := takeAll_writeRow filled []
    rw [empty] at taken
    cases taken

lemma exists_lines (some : rows ≠ []) (filled : ∀ row ∈ rows, Filled row) :
    ∃ cs, (String.join (rows.map writeLine)).toList = cs ++ ['\n'] ∧ Sharp cs ∧ cs ≠ [] := by
  induction rows with
  | nil => exact absurd rfl some
  | cons row rest ih =>
    rw [forall_mem_cons] at filled
    obtain ⟨sharp, text⟩ := sharp_writeRow filled.1
    rw [map_cons, join_cons, writeLine, toList_append, toList_append, List.append_assoc]
    cases rest with
    | nil => exact ⟨_, rfl, sharp, text⟩
    | cons next rest =>
      obtain ⟨ds, same, later, more⟩ := ih (cons_ne_nil _ _) filled.2
      rw [same]
      exact ⟨(writeRow row).toList ++ '\n' :: ds, by simp, sharp.beside later (.inl text) (.inl more), by simp⟩

lemma read_write (filled : ∀ row ∈ rows, Filled row) : read (write rows) = .ok rows := by
  by_cases some : rows = []
  · subst some
    rfl
  · obtain ⟨cs, lines, sharp, text⟩ := exists_lines some filled
    have written : write rows = String.ofList cs := by
      have last : ∀ some : cs ≠ [], ¬ (cs.getLast some == '\n') = true := by
        intro some same
        have solid := sharp.last _ (getLast?_eq_some_getLast some)
        rw [beq_iff_eq.mp same] at solid
        cases solid
      show String.ofList (rdropWhile (· == '\n') (String.join (rows.map writeLine)).toList) = _
      rw [lines, rdropWhile_concat_pos _ _ _ rfl, rdropWhile_eq_self_iff.mpr last]
    have taken := takeAll_rows filled []
    rw [lines, takeAll_append, append_nil] at taken
    rw [read, written, toList_ofList, sharp.trim]
    split
    · contradiction
    · rw [State.start]
      cases first : State.takeAll ⟨.rowStart, [], [], []⟩ cs with
      | error e =>
        rw [first] at taken
        cases taken
      | ok s =>
        rw [first] at taken
        exact congrArg Except.ok ((finish_eq taken rfl).trans rows.reverse_reverse)

/-! ## Data -/

lemma mapM_map_ok {α : Type} {f : α → Datum} {g : Datum → Except String α} (each : ∀ a, g (f a) = .ok a)
    (items : List α) : (items.map f).mapM g = .ok items := by
  induction items with
  | nil => rfl
  | cons item rest ih =>
    rw [map_cons, mapM_cons, each, ih]
    rfl

def rowDatum (row : List String) : Datum := .seq (row.map .str)

lemma wire_table (rows : List (List String)) : (Datum.seq (rows.map rowDatum)).wire = .seq (rows.map rowDatum) := by
  have each : ∀ row, (rowDatum row).wire = rowDatum row := fun row => by
    rw [rowDatum, Datum.wire_seq, List.map_map]
    rfl
  rw [Datum.wire_seq, List.map_map, show Datum.wire ∘ rowDatum = rowDatum from funext each]

lemma normal?_table (rows : List (List String)) :
    (Datum.seq (rows.map rowDatum)).normal? = some (.seq (rows.map rowDatum)) := by
  have each : ∀ row, (rowDatum row).normal? = some (rowDatum row) := fun row => by
    rw [rowDatum, Datum.normal?_seq, mapM_map]
    exact congrArg (Option.map Datum.seq) mapM_pure
  rw [Datum.normal?_seq, mapM_map, show Datum.normal? ∘ rowDatum = fun row => pure (rowDatum row) from funext each, mapM_pure]
  rfl

lemma writeDatum_table (rows : List (List String)) : writeDatum (.seq (rows.map rowDatum)) = .ok (write rows) := by
  have plain : writeDatum (.seq (rows.map rowDatum)) = write <$> (rows.map rowDatum).mapM rowCells := by
    cases rows <;> rfl
  have each : ∀ row, rowCells (rowDatum row) = .ok row := mapM_map_ok fun _ => rfl
  rw [plain, mapM_map_ok each]
  rfl

lemma decode_eq_ok {d : Datum} :
    Format.decode .csv text = .ok d ↔ ∃ rows, read text = .ok rows ∧ d = .seq (rows.map rowDatum) := by
  have made : Library.standard.read .csv text = (read text).map fun rows => .ofDatum (.seq (rows.map rowDatum)) := rfl
  unfold Format.decode Library.decode
  rw [made]
  cases read text with
  | error e => simp [Except.map]
  | ok rows =>
    change (Datum.seq (rows.map rowDatum)).normal?.elim (Except.error Fault.tooLarge) Except.ok = .ok d ↔ _
    simp [normal?_table, eq_comm]

/-- A table that is read from a text without carriage returns can be written, and what is written is
read as the same table. -/
theorem decode_encode_csv (plain : '\r' ∉ text.toList) {d : Datum}
    (accepted : Format.decode .csv text = .ok d) (indented : Bool) :
    ∃ (rows : List (List String)) (written : String), d = .seq (rows.map rowDatum) ∧
      Format.encode .csv indented d = .ok written ∧ Format.decode .csv written = .ok d := by
  obtain ⟨rows, found, rfl⟩ := decode_eq_ok.mp accepted
  refine ⟨rows, write rows, rfl, ?_, decode_eq_ok.mpr ⟨rows, read_write (filled_of_read plain found), rfl⟩⟩
  show (writeDatum (Datum.seq (rows.map rowDatum)).wire).mapError _ = _
  rw [wire_table, writeDatum_table]
  rfl

/-- Quotes, a line break between quotes, an empty cell and a row of one empty cell. -/
theorem decode_encode_csv_quoted : ∃ written, Format.encode .csv false
      (.seq [.seq [.str "a\"b", .str "c\nd", .str ""], .seq [.str ""]]) = .ok written ∧
    Format.decode .csv written = .ok (.seq [.seq [.str "a\"b", .str "c\nd", .str ""], .seq [.str ""]]) := by
  have accepted : Format.decode .csv " \"a\"\"b\" , \"c\nd\" ,\n\n\"\"\n" =
      .ok (.seq [.seq [.str "a\"b", .str "c\nd", .str ""], .seq [.str ""]]) := by
    cbv
  obtain ⟨_, written, _, found⟩ := decode_encode_csv (by decide) accepted false
  exact ⟨written, found⟩

end TagScript.Csv
