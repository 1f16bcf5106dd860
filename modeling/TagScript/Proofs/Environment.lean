import TagScript.Environment

/-!
# Scopes
-/

namespace TagScript.Environment

variable (env : Environment) {name : String} {v : Value}

theorem scope_bindIn (owner : ScopeId) (name : String) (v : Value) (id : ScopeId) :
    (env.bindIn owner name v).scope id =
      if id = owner ∧ id < env.scopes.size then Assoc.set name v (env.scope id) else env.scope id := by
  simp only [scope, bindIn, Array.getD_eq_getD_getElem?, Array.getElem?_modify]
  by_cases same : id = owner
  · subst same
    by_cases there : id < env.scopes.size <;> simp [there]
  · simp [same, Ne.symm same]

@[simp] theorem size_bindIn (owner : ScopeId) (name : String) (v : Value) :
    (env.bindIn owner name v).scopes.size = env.scopes.size := by
  simp [bindIn]

theorem scope_newScope (bindings : Bindings) (id : ScopeId) :
    (env.newScope bindings).2.scope id = if id = env.scopes.size then bindings else env.scope id := by
  simp only [scope, newScope, Array.getD_eq_getD_getElem?, Array.getElem?_push]
  split <;> rfl

variable {env}

theorem mem_of_owner? {id : ScopeId} (found : env.owner? name = some id) : id ∈ env.stack :=
  List.mem_of_find?_eq_some found

theorem exists_of_get? (found : env.get? name = some v) : ∃ id ∈ env.stack, (name, v) ∈ env.scope id := by
  obtain ⟨id, owner, value⟩ := Option.bind_eq_some_iff.mp found
  exact ⟨id, mem_of_owner? owner, Assoc.mem_of_get? value⟩

theorem currentId_of_cons {id : ScopeId} {rest : List ScopeId} (stack : env.stack = id :: rest) :
    env.currentId = id := by
  rw [currentId, stack, List.headD_cons]

end TagScript.Environment
