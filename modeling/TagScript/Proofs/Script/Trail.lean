import TagScript.Proofs.Script.Succession

/-!
# The elements that a report names

The report of a fault names the elements around the one that failed, as the recursion over the
document knows them.
-/

namespace TagScript.Script

open Markup

variable {m after : Machine} {raised : Raised}

lemma trail_of_amid {around : List String} {tag : String} {body : Run (Option Signal)}
    (failed : amid around tag body m = (.error raised, after)) : raised.trail ≠ [] := by
  rw [amid, run_modify_bind, always, recover] at failed
  revert failed
  rcases body _ with ⟨⟨fault, _ | ⟨first, rest⟩⟩ | signal, inner⟩
  · obtain ⟨world, wrote⟩ := diagnose_apply
      ["Error processing node:", tag, fault.diagnostic, "Stack:", trailText (tag :: around).reverse] inner
    simp only [run_bind, wrote]
    rintro ⟨⟩
    exact List.reverse_ne_nil_iff.mpr (List.cons_ne_nil _ _)
  · rintro ⟨⟩
    exact List.cons_ne_nil _ _
  · rintro ⟨⟩

lemma trail_of_visitChildren {run : RunDocument} {depth : Nat} {around : List String} {id : NodeId}
    (failed : visitChildren (visitAmid run depth around) id m = (.error raised, after)) : raised.trail ≠ [] := by
  have one {child : NodeId} {m : Machine} (failed : visitAmid run depth around child m = (.error raised, after)) :
      raised.trail ≠ [] := by
    cases depth <;> (rw [visitAmid, run_nodeOf_bind] at failed; split at failed)
    · exact trail_of_amid failed
    · cases failed
    · exact trail_of_amid failed
    · cases failed
  rw [visitChildren, run_nodeOf_bind] at failed
  generalize (m.forest.node id).childList = ids at failed
  induction ids generalizing m with
  | nil => cases failed
  | cons child rest ih =>
    rw [visitAll_cons_apply] at failed
    split at failed
    · obtain failed | ⟨signal, m', _, failed⟩ := failed_of_bind failed
      · exact one failed
      · cases signal with
        | none => exact ih failed
        | some signal => cases failed
    · exact ih failed

/-- A source that fails within elements is reported with the element that failed and those around
it, outermost first, and the report is its last effect. A fault stays the same on its way: an
attempt without a handler is left by the one that left its children. -/
theorem failure_reports_open_elements :
    (∀ {source message : String} {document : NodeId} {m after : Machine}, Reachable m →
      runSource source m = (.ok ⟨some message, document⟩, after) →
      ∃ start ended walked, parseSource source m = (.ok document, start) ∧
        visitChildren (visitAmid (runDocument moduleNesting) maxDepth []) document (start.entered document) =
          (ended, walked) ∧
        after.session.effects = ⟨.failure, message⟩ :: walked.session.effects ∧
        match ended with
        | .ok signal => ∃ stray ∈ signal, message = (⟨.straySignal stray, []⟩ : Raised).report
        | .error raised => raised.trail ≠ [] ∧
            message = (⟨raised.fault, []⟩ : Raised).report ++ "\nHScript stacktrace: " ++ trailText raised.trail) ∧
    ∀ {walk : Walk} {id : NodeId} {m after : Machine} {raised : Raised}, m.forest.siblingTagged id "catch" = none →
      walk id m = (.error raised, after) → (runAttempt walk id m).1 = .error raised := by
  constructor
  · intro source message document m after reachable failed
    obtain ⟨_, start, parsed, failed⟩ := ok_of_bind failed
    obtain ⟨error, _, ran, ended⟩ := ok_of_bind failed
    cases ended
    have stacked : start.session.env.stack ≠ [] := by
      obtain ⟨_, kept, _⟩ := Steady.parseSource source m (at_any rfl)
      rw [parsed] at kept
      exact (congrArg Outline.stack kept.1).trans_ne (idle_of_reachable reachable).stacked
    have walks : Walks Realm.any (start.entered document).outline (visitNode (runDocument moduleNesting) maxDepth)
        (visitAmid (runDocument moduleNesting) maxDepth []) := by
      rw [outline_entered]
      exact fun stack dir id some _ => visitNode_amid (runDocument_runs moduleNesting) some maxDepth id
    obtain ⟨same, _⟩ := (walks.children trivial).here (outline_entered start document ▸ stacked) trivial document _ (at_any rfl)
    obtain ⟨world, done, _⟩ := runDocumentBy_apply (walkAt moduleNesting) document start
    rw [runDocument_succ, done, walkAt, same] at ran
    rcases walk : visitChildren (visitAmid (runDocument moduleNesting) maxDepth []) document (start.entered document)
      with ⟨⟨fault, trail⟩ | (_ | signal), walked⟩ <;> rw [walk] at ran <;> cases ran
    · have left := trail_of_visitChildren walk
      obtain ⟨first, rest, rfl⟩ := List.exists_cons_of_ne_nil left
      exact ⟨start, _, walked, parsed, walk, rfl, left, rfl⟩
    · exact ⟨start, _, walked, parsed, walk, rfl, signal, rfl, rfl⟩
  · intro walk id m after raised unhandled failed
    rw [runAttempt, run_askForest_bind, unhandled, run_bind, recover, run_bind, failed]
    rfl

/-- A call that does not say what it calls fails in an attempt without a handler, in a scope. -/
theorem failure_reports_open_elements_attempt :
    (∃ message document after walked, runSource "<scope><try><call>" blank = (.ok ⟨some message, document⟩, after) ∧
      after.session.effects = ⟨.failure, message⟩ :: walked ∧
      message = "MissingAttribute: <call> requires a 'func' attribute\nHScript stacktrace: scope > try > call") ∧
    (runAttempt (fun _ => throw ⟨.exhausted, ["call"]⟩) 0 blank).1 = .error ⟨.exhausted, ["call"]⟩ := by
  refine ⟨?_, failure_reports_open_elements.2 rfl rfl⟩
  have told : (runSource "<scope><try><call>" blank).1.toOption.bind (·.error) =
      some "MissingAttribute: <call> requires a 'func' attribute\nHScript stacktrace: scope > try > call" := by
    decide +kernel
  rcases ran : runSource "<scope><try><call>" blank with ⟨raised | ⟨error, document⟩, after⟩ <;> rw [ran] at told
  · cases told
  · obtain rfl : error = _ := told
    obtain ⟨_, _, walked, _, _, effects, _⟩ := failure_reports_open_elements.1 (.new _ _ _) ran
    exact ⟨_, document, after, _, rfl, effects, rfl⟩

end TagScript.Script
