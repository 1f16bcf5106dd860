import TagScript.Proofs.Expr.Sentence

/-!
# What is converted has its brackets in pairs

Since everything between two brackets is converted in turn, each is closed by the closer of its own
kind.
-/

namespace TagScript.Expr

mutual

lemma convert_nested {pending : List Pending} {out items : List Item} {operand : Bool} (tokens : List Token)
    (done : convert pending out operand tokens = .ok items) :
    Nested false (.replicate (parens pending) .rparen) tokens := by
  match tokens with
  | [] =>
    rw [convert] at done
    rw [(finish_net done).2]
    exact .done
  | ⟨lexeme, pos⟩ :: rest =>
    cases lexeme with
    | operator symbol =>
      rw [convert] at done
      simp only [] at done
      split at done
      · split at done
        · have further := convert_nested rest done
          simp only [parens] at further
          exact .plain rfl nofun further
        · cases done
      · split at done
        · rename_i released
          have further := convert_nested rest done
          simp only [parens, (release_net released).2] at further
          exact .plain rfl nofun further
        · cases done
    | mark m =>
      cases m with
      | lparen =>
        rw [convert] at done
        exact .opened rfl pos (convert_nested rest done)
      | rparen =>
        rw [convert] at done
        simp only [] at done
        split at done
        · rename_i closed
          rw [← (closeParen_net closed).2]
          exact .closed rfl pos (convert_nested rest done)
        · cases done
      | lbracket =>
        rw [convert_sequence] at done
        obtain ⟨rows, elements, behind, body, closed, bound, rfl, listing, made, tail⟩ := group_of_convert done
        exact .group rfl pos closed (.listing listing (convertElements_nested rows made)) (convert_nested behind tail)
      | lbrace =>
        rw [convert_mapping] at done
        obtain ⟨rows, entries, behind, body, closed, bound, rfl, listing, made, tail⟩ := group_of_convert done
        exact .group rfl pos closed (.listing listing (convertEntries_nested rows made)) (convert_nested behind tail)
      | _ =>
        rw [convert] at done
        cases done
    | _ =>
      rw [convert] at done
      exact .plain rfl nofun (convert_nested rest done)
termination_by tokens.length
decreasing_by all_goals (simp only [List.length_cons]; omega)

lemma convertElements_nested (rows : List (List Token)) {elements : List (List Item)}
    (done : convertElements rows = .ok elements) : ∀ row ∈ rows, Nested false [] row := by
  match rows with
  | [] => exact nofun
  | row :: rows =>
    rw [convertElements_cons_eq] at done
    obtain ⟨items, made, done⟩ := ok_of_bind done
    obtain ⟨others, behind, rfl⟩ := map_eq_ok.mp done
    exact List.forall_mem_cons.mpr ⟨convert_nested row made, convertElements_nested rows behind⟩
termination_by weight rows
decreasing_by all_goals (simp only [weight]; omega)

lemma convertEntries_nested (rows : List (List Token)) {entries : List (String × List Item)}
    (done : convertEntries rows = .ok entries) : ∀ row ∈ rows, Nested false [] row := by
  match rows with
  | [] => exact nofun
  | row :: rows =>
    rw [convertEntries_cons_eq] at done
    obtain ⟨⟨key, value⟩, found, done⟩ := ok_of_bind done
    obtain ⟨items, made, done⟩ := ok_of_bind done
    obtain ⟨others, behind, rfl⟩ := map_eq_ok.mp done
    have bound := splitEntry_length (ok_of_mapError found)
    refine List.forall_mem_cons.mpr ⟨?_, convertEntries_nested rows behind⟩
    obtain ⟨⟨lexeme, pos⟩, colon, rfl, key⟩ := splitEntry_named (ok_of_mapError found)
    obtain ⟨key, named⟩ := Option.isSome_iff_exists.mp key
    exact .named named pos colon (convert_nested value made)
termination_by weight rows
decreasing_by all_goals (simp only [weight]; omega)

end

/-- What is converted has its brackets in pairs, at every depth. -/
theorem nested_of_toPostfix {tokens : List Token} {items : List Item} (done : toPostfix tokens = .ok items) :
    Nested true [] tokens :=
  (convert_nested tokens done).listed

theorem nested_of_groups_in_groups :
    ∃ tokens items, tokenize "[(x), \x7ba: [y]\x7d]" = .ok tokens ∧ toPostfix tokens = .ok items ∧ Nested true [] tokens := by
  have scanned : tokenize "[(x), \x7ba: [y]\x7d]" = .ok [⟨.mark .lbracket, 0⟩, ⟨.mark .lparen, 1⟩, ⟨.identifier "x", 2⟩,
      ⟨.mark .rparen, 3⟩, ⟨.mark .comma, 4⟩, ⟨.mark .lbrace, 6⟩, ⟨.identifier "a", 7⟩, ⟨.mark .colon, 8⟩,
      ⟨.mark .lbracket, 10⟩, ⟨.identifier "y", 11⟩, ⟨.mark .rbracket, 12⟩, ⟨.mark .rbrace, 13⟩, ⟨.mark .rbracket, 14⟩] := by
    cbv
  refine ⟨_, [.sequence [[.identifier "x" 2], [.mapping [("a", [.sequence [[.identifier "y" 11]] 10])] 6]] 0], scanned, ?_⟩
  refine (fun done => ⟨done, nested_of_toPostfix done⟩) ?_
  cbv

end TagScript.Expr
