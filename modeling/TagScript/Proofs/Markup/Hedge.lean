import TagScript.Assoc

/-!
# Hedges

A hedge is a row of trees that are never changed. Each tree carries a place: nothing, or the node of
a forest that shows it.
-/

namespace TagScript.Markup

/-- A row of trees. -/
inductive Hedge (ι : Type) where
  | nil
  | text (place : ι) (content : String) (rest : Hedge ι)
  | element (place : ι) (tag : String) (attrs : Assoc String) (kids rest : Hedge ι)
  deriving Inhabited

abbrev Trees := Hedge Unit

namespace Hedge

variable {ι : Type}

def append : Hedge ι → Hedge ι → Hedge ι
  | nil, more => more
  | text place content rest, more => text place content (append rest more)
  | element place tag attrs kids rest, more => element place tag attrs kids (append rest more)

instance : Append (Hedge ι) := ⟨append⟩

@[simp] theorem nil_append (h : Hedge ι) : nil ++ h = h := rfl

@[simp] theorem text_append (place : ι) (content : String) (rest more : Hedge ι) :
    text place content rest ++ more = text place content (rest ++ more) := rfl

@[simp] theorem element_append (place : ι) (tag : String) (attrs : Assoc String) (kids rest more : Hedge ι) :
    element place tag attrs kids rest ++ more = element place tag attrs kids (rest ++ more) := rfl

@[simp] theorem append_nil (h : Hedge ι) : h ++ nil = h := by
  induction h with
  | nil => rfl
  | text place content rest ih => rw [text_append, ih]
  | element place tag attrs kids rest _ ih => rw [element_append, ih]

theorem append_assoc (h k l : Hedge ι) : h ++ k ++ l = h ++ (k ++ l) := by
  induction h with
  | nil => rfl
  | text place content rest ih => simp only [text_append, ih]
  | element place tag attrs kids rest _ ih => simp only [element_append, ih]

/-- What a hedge shows, wherever it stands. -/
def shape : Hedge ι → Trees
  | nil => nil
  | text _ content rest => text () content rest.shape
  | element _ tag attrs kids rest => element () tag attrs kids.shape rest.shape

@[simp] theorem shape_append (h k : Hedge ι) : (h ++ k).shape = h.shape ++ k.shape := by
  induction h with
  | nil => rfl
  | text place content rest ih => simp only [text_append, shape, ih]
  | element place tag attrs kids rest _ ih => simp only [element_append, shape, ih]

def places : Hedge ι → List ι
  | nil => []
  | text place _ rest => place :: rest.places
  | element place _ _ kids rest => place :: (kids.places ++ rest.places)

def roots : Hedge ι → List ι
  | nil => []
  | text place _ rest => place :: rest.roots
  | element place _ _ _ rest => place :: rest.roots

@[simp] theorem places_append (h k : Hedge ι) : (h ++ k).places = h.places ++ k.places := by
  induction h with
  | nil => rfl
  | text place content rest ih => simp only [text_append, places, ih, List.cons_append]
  | element place tag attrs kids rest _ ih =>
    simp only [element_append, places, ih, List.cons_append, List.append_assoc]

@[simp] theorem roots_append (h k : Hedge ι) : (h ++ k).roots = h.roots ++ k.roots := by
  induction h with
  | nil => rfl
  | text place content rest ih => simp only [text_append, roots, ih, List.cons_append]
  | element place tag attrs kids rest _ ih => simp only [element_append, roots, ih, List.cons_append]

theorem roots_sublist (h : Hedge ι) : h.roots.Sublist h.places := by
  induction h with
  | nil => exact List.Sublist.refl _
  | text place content rest ih => exact ih.cons_cons place
  | element place tag attrs kids rest _ ih =>
    exact (ih.trans (List.sublist_append_right _ _)).cons_cons place

def ofText (place : ι) (content : String) : Hedge ι :=
  if content.isEmpty then .nil else .text place content .nil

theorem shape_ofText (place : ι) (content : String) : (ofText place content).shape = ofText () content := by
  unfold ofText
  split
  · rfl
  · rfl

/-! ## The element behind some texts -/

/-- The next element, if it has the tag. -/
def partner (tag : String) : Hedge ι → Option (ι × Assoc String × Hedge ι)
  | nil => none
  | text _ _ rest => rest.partner tag
  | element place found attrs kids _ => if found = tag then some (place, attrs, kids) else none

def leading : Hedge ι → Option ι
  | nil => none
  | text _ _ rest => rest.leading
  | element place _ _ _ _ => some place

theorem leading_of_partner {tag : String} {h kids : Hedge ι} {place : ι} {attrs : Assoc String}
    (found : h.partner tag = some (place, attrs, kids)) : h.leading = some place := by
  induction h with
  | nil => cases found
  | text other content rest ih => exact ih found
  | element other tag' attrs' kids' rest _ _ =>
    unfold partner at found
    split at found
    · cases found
      rfl
    · cases found

def replaceFirst : Hedge ι → Hedge ι → Hedge ι
  | nil, _ => nil
  | text place content rest, due => text place content (rest.replaceFirst due)
  | element _ _ _ _ rest, due => due ++ rest

def settled (h : Hedge ι) (due : Option (Hedge ι)) : Hedge ι :=
  due.elim h h.replaceFirst

theorem partner_shape (tag : String) (h : Hedge ι) :
    h.shape.partner tag = (h.partner tag).map fun (_, attrs, kids) => ((), attrs, kids.shape) := by
  induction h with
  | nil => rfl
  | text place content rest ih => exact ih
  | element place found attrs kids rest _ _ =>
    by_cases same : found = tag
    · simp [partner, shape, same]
    · simp [partner, shape, same]

theorem split_of_partner {tag : String} {h kids : Hedge ι} {place : ι} {attrs : Assoc String}
    (found : h.partner tag = some (place, attrs, kids)) :
    ∃ before rest, h = before ++ element place tag attrs kids rest ∧
      ∀ due, h.replaceFirst due = before ++ due ++ rest := by
  induction h with
  | nil => cases found
  | text other content rest ih =>
    obtain ⟨before, behind, same, replaced⟩ := ih found
    refine ⟨text other content before, behind, ?_, fun due => ?_⟩
    · rw [same, text_append]
    · rw [replaceFirst, replaced, text_append, text_append]
  | element other tag' attrs' kids' rest _ _ =>
    unfold partner at found
    split at found
    · rename_i same
      cases found
      subst same
      exact ⟨nil, rest, rfl, fun due => rfl⟩
    · cases found

/-! ## Elements with a tag -/

/-- All elements of a tag. -/
def tagged (tag : String) : Hedge ι → List (ι × Assoc String)
  | nil => []
  | text _ _ rest => rest.tagged tag
  | element place found attrs kids rest =>
    (if found = tag then [(place, attrs)] else []) ++ (kids.tagged tag ++ rest.tagged tag)

/-- Without the elements of a tag. -/
def prune (tag : String) : Hedge ι → Hedge ι
  | nil => nil
  | text place content rest => text place content (rest.prune tag)
  | element place found attrs kids rest =>
    if found = tag then rest.prune tag else element place found attrs (kids.prune tag) (rest.prune tag)

theorem tagged_shape (tag : String) (h : Hedge ι) :
    (h.shape.tagged tag).map Prod.snd = (h.tagged tag).map Prod.snd := by
  induction h with
  | nil => rfl
  | text place content rest ih => exact ih
  | element place found attrs kids rest inner outer =>
    by_cases same : found = tag
    · simp [tagged, shape, same, inner, outer]
    · simp [tagged, shape, same, inner, outer]

theorem prune_shape (tag : String) (h : Hedge ι) : (h.prune tag).shape = h.shape.prune tag := by
  induction h with
  | nil => rfl
  | text place content rest ih => simp only [prune, shape, ih]
  | element place found attrs kids rest inner outer =>
    by_cases same : found = tag
    · simp only [prune, shape, same, if_true, outer]
    · simp only [prune, shape, same, if_false, inner, outer]

theorem places_prune_sublist (tag : String) (h : Hedge ι) : (h.prune tag).places.Sublist h.places := by
  induction h with
  | nil => exact List.Sublist.refl _
  | text place content rest ih => exact ih.cons_cons place
  | element place found attrs kids rest inner outer =>
    by_cases same : found = tag
    · simp only [prune, same, if_true, places]
      exact (outer.trans (List.sublist_append_right _ _)).cons place
    · simp only [prune, same, if_false, places]
      exact (inner.append outer).cons_cons place

/-- All tags of the elements are of a kind. -/
def AllTags (q : String → Prop) : Hedge ι → Prop
  | nil => True
  | text _ _ rest => rest.AllTags q
  | element _ tag _ kids rest => q tag ∧ kids.AllTags q ∧ rest.AllTags q

instance decidableAllTags (q : String → Prop) [DecidablePred q] : (h : Hedge ι) → Decidable (h.AllTags q)
  | nil => .isTrue trivial
  | text _ _ rest => decidableAllTags q rest
  | element _ tag _ kids rest =>
    have := decidableAllTags q kids
    have := decidableAllTags q rest
    inferInstanceAs (Decidable (q tag ∧ kids.AllTags q ∧ rest.AllTags q))

@[simp] theorem allTags_shape (q : String → Prop) (h : Hedge ι) : h.shape.AllTags q ↔ h.AllTags q := by
  induction h with
  | nil => exact Iff.rfl
  | text place content rest ih => exact ih
  | element place tag attrs kids rest inner outer => simp only [shape, AllTags, inner, outer]

theorem allTags_append (q : String → Prop) (h k : Hedge ι) : (h ++ k).AllTags q ↔ h.AllTags q ∧ k.AllTags q := by
  induction h with
  | nil => simp [AllTags]
  | text place content rest ih => exact ih
  | element place tag attrs kids rest _ ih => simp only [element_append, AllTags, ih, and_assoc]

end Hedge

end TagScript.Markup
