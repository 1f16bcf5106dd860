import TagScript.Proofs.Format.Decoding
import TagScript.Proofs.Script.FailedImport
import TagScript.Proofs.Script.Lockstep

/-!
# Failures that are contained

What goes wrong while data is read or written, a request is made or a source is imported does not
end the run. The result itself is shown after that, and there a document with a date inside of a
mapping has no text.
-/

namespace TagScript.Script

open Markup

variable {α β : Type} {m : Machine} {id : NodeId}

abbrev Machine.inside (m : Machine) (id : NodeId) : Machine := m.enter (m.forest.node id).tag

section

variable (run : RunDocument) (depth : Nat) {b : Builtin} {body : Run Unit} (after : Machine)
  (element : (m.forest.node id).isElement = true)
  (handled : Assoc.get? (m.forest.node id).tag m.session.handlers = some (.builtin b))
  (same : runBuiltin (visitChildren (visitNode run depth)) run b id = withoutSignal body)
include element handled same

end

/-! ## Values from outside -/

def Gives (P : α → Machine → Prop) (c : Run α) : Prop := ∀ m a after, c m = (.ok a, after) → P a after

lemma Gives.bind {P : β → Machine → Prop} {c : Run α} {k : α → Run β} (each : ∀ a, Gives P (k a)) :
    Gives P (c >>= k) := by
  intro m b after ended
  obtain ⟨a, m', _, done⟩ := ok_of_bind ended
  exact each a m' b after done

section

variable (run : RunDocument) (depth : Nat) (element : (m.forest.node id).isElement = true)
include element

end

end TagScript.Script
