import Mathlib.Order.Basic
import TagScript.Datum.Literal
import TagScript.Proofs.Number.Zero
import TagScript.Template

/-!
# Data without marks, and without the signs of zeros

What is written of data is the same for data that differ in marks alone. If they differ in the signs
of zeros too, they have the same plain form, and compare with other numbers alike.
-/

namespace TagScript

open List Option

lemma mapM_congr {α β ε : Type} {f g : α → Except ε β} {xs : List α} (same : ∀ x ∈ xs, f x = g x) :
    xs.mapM f = xs.mapM g := by
  induction xs with
  | nil => rfl
  | cons x rest ih =>
    rw [mapM_cons, mapM_cons, same x mem_cons_self, ih fun y mem => same y (mem_cons_of_mem _ mem)]

namespace Datum

mutual

/-- A datum with all marks taken off. -/
def bare : Datum → Datum
  | .num n => .num ⟨n.val, 0⟩
  | .func name params _ => .func name params 0
  | .stamp t _ => .stamp t 0
  | .seq items => .seq (bareItems items)
  | .map entries => .map (bareEntries entries)
  | .none => .none
  | .bool b => .bool b
  | .int i => .int i
  | .str s => .str s
  | .error r => .error r

def bareItems : List Datum → List Datum
  | [] => []
  | d :: rest => bare d :: bareItems rest

def bareEntries : List (String × Datum) → List (String × Datum)
  | [] => []
  | entry :: rest => bareEntry entry :: bareEntries rest

def bareEntry : String × Datum → String × Datum
  | (name, d) => (name, bare d)

end

/-- What holds of data without parts, and of a container if it holds of its parts, holds of all
data. -/
lemma induction {P : Datum → Prop} (flat : ∀ d, d.isContainer = false → P d)
    (seq : ∀ items, (∀ d ∈ items, P d) → P (.seq items))
    (map : ∀ entries, (∀ entry ∈ entries, P entry.2) → P (.map entries)) : ∀ d, P d
  | .seq items => seq items fun d _ => induction flat seq map d
  | .map entries => map entries fun (_, d) _ => induction flat seq map d
  | .none | .bool _ | .num _ | .int _ | .str _ | .error _ | .func _ _ _ | .stamp _ _ => flat _ rfl
decreasing_by
  all_goals simp_wf
  all_goals have inside := sizeOf_lt_of_mem (by assumption)
  all_goals grind

section

variable (width level : Nat) (items : List Datum) (entries : List (String × Datum))

lemma bareItems_eq : bareItems items = items.map bare := by
  induction items with
  | nil => rfl
  | cons d rest ih => rw [bareItems, map_cons, ih]

lemma bareEntries_eq : bareEntries entries = entries.map fun entry => (entry.1, entry.2.bare) := by
  induction entries with
  | nil => rfl
  | cons entry rest ih => rw [bareEntries, map_cons, ih, bareEntry]

lemma wire_seq : wire (.seq items) = .seq (items.map wire) := fold_seq _ _ _ items

lemma wire_map : wire (.map entries) = .map (entries.map fun entry => (entry.1, entry.2.wire)) := fold_map _ _ _ entries

lemma layoutItems_eq : layoutItems width level items = items.map (layout width level) := by
  induction items with
  | nil => rfl
  | cons d rest ih => rw [layoutItems, ih, map_cons]

lemma layoutEntries_eq : layoutEntries width level entries =
    entries.map fun entry => keyLiteral entry.1 ++ ": " ++ layout width level entry.2 := by
  induction entries with
  | nil => rfl
  | cons entry rest ih => rw [layoutEntries, ih, map_cons, layoutEntry]

lemma diagnostic_seq : diagnostic (.seq items) = "[" ++ Text.joined ", " (items.map diagnostic) ++ "]" :=
  fold_seq _ _ _ items

lemma diagnostic_map : diagnostic (.map entries) =
    "\x7b" ++ Text.joined ", " (entries.map fun entry => Text.quoted entry.1 ++ ": " ++ entry.2.diagnostic) ++ "\x7d" := by
  rw [diagnostic, fold_map, List.map_map]
  rfl

end

lemma get?_bareEntries (key : String) (entries : List (String × Datum)) :
    Assoc.get? key (bareEntries entries) = (Assoc.get? key entries).map bare := by
  induction entries with
  | nil => rfl
  | cons entry rest ih =>
    obtain ⟨name, d⟩ := entry
    simp only [bareEntries, bareEntry, Assoc.get?, ih]
    split <;> rfl

@[simp] lemma isPresent_bare (d : Datum) : d.bare.isPresent = d.isPresent := by
  cases d with
  | seq items => cases items <;> rfl
  | map entries => cases entries <;> rfl
  | _ => rfl

@[simp] lemma isContainer_bare (d : Datum) : d.bare.isContainer = d.isContainer := by
  cases d <;> rfl

@[simp] lemma className_bare (d : Datum) : d.bare.className = d.className := by
  cases d <;> rfl

lemma compareNumbers?_bare (d e : Datum) : compareNumbers? d.bare e.bare = compareNumbers? d e := by
  cases d <;> cases e <;> rfl

lemma onOneLine_bareEntries (entries : List (String × Datum)) :
    onOneLine (bareEntries entries) = onOneLine entries := by
  simp [onOneLine, bareEntries_eq, Function.comp_def]

/-! ## Plain form -/

lemma wire_of_parts {N : Datum → Datum} (flat : ∀ d, d.isContainer = false → (N d).wire = d.wire.bare)
    (seq : ∀ items, N (.seq items) = .seq (items.map N))
    (map : ∀ entries, N (.map entries) = .map (entries.map fun entry => (entry.1, N entry.2))) (d : Datum) :
    (N d).wire = d.wire.bare := by
  induction d using induction with
  | flat d plain => exact flat d plain
  | seq items ih =>
    simp only [seq, bare, wire_seq, bareItems_eq, List.map_map]
    exact congrArg Datum.seq (map_congr_left ih)
  | map entries ih =>
    simp only [map, bare, wire_map, bareEntries_eq, List.map_map]
    exact congrArg Datum.map (map_congr_left fun entry member => congrArg (entry.1, ·) (ih entry member))

lemma wire_bare (d : Datum) : d.bare.wire = d.wire.bare := by
  refine wire_of_parts (fun d flat => ?_) (fun items => by rw [bare, bareItems_eq])
    (fun entries => by rw [bare, bareEntries_eq]) d
  cases d with
  | num n =>
    show wireNum ⟨n.val, 0⟩ = (wireNum n).bare
    unfold wireNum
    split
    · split <;> rfl
    · rfl
  | seq | map => cases flat
  | _ => rfl

/-! ## Literals and diagnostics -/

lemma layout_bare (width level : Nat) (d : Datum) : layout width level d.bare = layout width level d := by
  induction d using induction generalizing level with
  | flat d flat =>
    cases d with
    | seq | map => cases flat
    | _ => rfl
  | seq items ih =>
    simp only [bare, layout, bareItems_eq, layoutItems_eq, List.map_map, Function.comp_def]
    rw [map_congr_left fun d member => ih d member (level + 1)]
  | map entries ih =>
    cases entries with
    | nil => rfl
    | cons entry rest =>
      have parts : layoutEntries width (level + 1) (bareEntries (entry :: rest)) =
          layoutEntries width (level + 1) (entry :: rest) := by
        simp only [bareEntries_eq, layoutEntries_eq, List.map_map]
        exact map_congr_left fun e member => congrArg (keyLiteral e.1 ++ ": " ++ ·) (ih e member (level + 1))
      have shape := onOneLine_bareEntries (entry :: rest)
      simp only [bareEntries] at parts shape
      simp only [bare, bareEntries, layout, parts, shape]

lemma oneLine_bare (d : Datum) : d.bare.oneLine = d.oneLine := by
  rw [oneLine, layout_bare, oneLine]

lemma literal?_bare (d : Datum) : d.bare.literal? = d.literal? := by
  cases d with
  | seq items => exact congrArg some (oneLine_bare (.seq items))
  | map entries => exact congrArg some (oneLine_bare (.map entries))
  | _ => rfl

lemma diagnostic_bare (d : Datum) : d.bare.diagnostic = d.diagnostic := by
  induction d using induction with
  | flat d flat =>
    cases d with
    | seq | map => cases flat
    | _ => rfl
  | seq items ih =>
    rw [bare, bareItems_eq, diagnostic_seq, diagnostic_seq, List.map_map]
    exact congrArg (fun parts => "[" ++ Text.joined ", " parts ++ "]") (map_congr_left ih)
  | map entries ih =>
    rw [bare, bareEntries_eq, diagnostic_map, diagnostic_map, List.map_map]
    refine congrArg (fun parts => "\x7b" ++ Text.joined ", " parts ++ "\x7d") ?_
    exact map_congr_left fun e member => congrArg (Text.quoted e.1 ++ ": " ++ ·) (ih e member)

lemma plain_bare (d : Datum) : d.bare.plain = d.plain := by
  cases d with
  | seq items => exact diagnostic_bare (.seq items)
  | map entries => exact diagnostic_bare (.map entries)
  | _ => rfl

end Datum

/-! ## JSON -/

namespace Json

open Datum

variable (layout : Layout) (level : Nat)

lemma write_seq (items : List Datum) : write layout level (.seq items) =
    if items.isEmpty then .ok "[]"
    else Except.map (layout.enclose level "[" "]") (items.mapM (write layout (level + 1))) := by
  rw [write, fold_seq, isEmpty_map, mapM_map]
  rfl

lemma write_map (entries : List (String × Datum)) : write layout level (.map entries) =
    if entries.isEmpty then .ok "\x7b\x7d"
    else Except.map (layout.enclose level "\x7b" "\x7d") (entries.mapM fun entry =>
      (write layout (level + 1) entry.2).map (string entry.1 ++ layout.nameSeparator ++ ·)) := by
  rw [write, fold_map, isEmpty_map, mapM_map]
  rfl

lemma write_bare (d : Datum) : write layout level d.bare = write layout level d := by
  induction d using induction generalizing level with
  | flat d flat =>
    cases d with
    | seq | map => cases flat
    | _ => rfl
  | seq items ih =>
    have each := mapM_congr fun d mem => ih d mem (level + 1)
    simp only [bare, bareItems_eq, write_seq, isEmpty_map, mapM_map, Function.comp_def, each]
  | map entries ih =>
    have each := mapM_congr fun entry mem =>
      congrArg (Except.map (string entry.1 ++ layout.nameSeparator ++ ·)) (ih entry mem (level + 1))
    simp only [bare, bareEntries_eq, write_map, isEmpty_map, mapM_map, Function.comp_def, each]

end Json

/-! ## Templates -/

namespace Template

open Datum

lemma stampMember?_bare (t : Stamp) (key : String) : (stampMember? t key).map bare = stampMember? t key := by
  have zones : (fun entry : String × Option String => (entry.2.elim Datum.none Datum.str).bare) =
      fun entry => entry.2.elim .none .str := by
    funext ⟨_, zone⟩
    cases zone <;> rfl
  simp only [stampMember?, map_or, Option.map_map, Function.comp_def, bare, zones]

lemma member?_bare (d : Datum) (key : String) : member? d.bare key = (member? d key).map bare := by
  cases d with
  | map entries => exact get?_bareEntries key entries
  | stamp t mark => exact (stampMember?_bare t key).symm
  | func name params mark =>
    simp only [bare, member?, functionMember?]
    split
    · rfl
    · split
      · simp [bare, bareItems_eq, Function.comp_def]
      · split <;> rfl
  | _ => rfl

lemma lookup_bare (around : List Datum) (key : String) :
    lookup (around.map bare) key = (lookup around key).map bare := by
  have further : ∀ (rest : List String) (found : Option Datum),
      rest.foldl (fun found part => found.bind (member? · part)) (found.map bare) =
        (rest.foldl (fun found part => found.bind (member? · part)) found).map bare := by
    intro rest
    induction rest with
    | nil => intro found; rfl
    | cons part rest ih =>
      intro found
      rw [foldl_cons, foldl_cons, ← ih]
      cases found with
      | none => rfl
      | some d => rw [map_some, bind_some, bind_some, member?_bare]
  have first : ∀ name,
      (around.map bare).findSome? (member? · name) = (around.findSome? (member? · name)).map bare := by
    intro name
    induction around with
    | nil => rfl
    | cons d rest ih =>
      rw [map_cons, findSome?_cons, findSome?_cons, member?_bare]
      cases member? d name with
      | none => exact ih
      | some found => rfl
  unfold lookup
  split
  · cases around <;> rfl
  · split
    · rfl
    · rw [first, further]

lemma meaning_bare (around : List Datum) (key : String) :
    meaning (around.map bare) key = (meaning around key).bare := by
  rw [meaning, meaning, lookup_bare]
  cases lookup around key <;> rfl

lemma occasions_bare (d : Datum) : occasions d.bare = (occasions d).map bare := by
  unfold occasions
  rw [isPresent_bare]
  split
  · rfl
  · cases d with
    | seq items => exact bareItems_eq items
    | _ => rfl

mutual

lemma showParts_bare (around : List Datum) : ∀ parts : List Part,
    showParts (around.map bare) parts = showParts around parts
  | [] => rfl
  | part :: rest => by simp only [showParts, showPart_bare around part, showParts_bare around rest]

lemma showPart_bare (around : List Datum) : ∀ part : Part, showPart (around.map bare) part = showPart around part
  | .text s => rfl
  | .value key => by simp only [showPart, meaning_bare, plain_bare]
  | .each key parts => by
    have each : ∀ d, showParts (bare d :: around.map bare) parts = showParts (d :: around) parts :=
      fun d => showParts_bare (d :: around) parts
    simp only [showPart, meaning_bare, occasions_bare, List.map_map, Function.comp_def, each]
  | .unless key parts => by
    simp only [showPart, meaning_bare, isPresent_bare, showParts_bare around parts]

end

lemma render_bare (template : String) (data : Datum) : render template data.bare = render template data := by
  unfold render
  congr 1
  funext parts
  exact showParts_bare [data] parts

end Template

/-! ## The signs of zeros -/

namespace Binary64

variable {x y : Float}

def unsigned (x : Float) : Float := if x == 0 then 0 else x

lemma close_unsigned (x : Float) : Close (unsigned x) x := by
  unfold unsigned
  split
  · rename_i zero
    exact .inr ⟨by decide, zero⟩
  · exact .inl rfl

lemma unsigned_eq_iff : unsigned x = unsigned y ↔ Close x y := by
  constructor
  · intro same
    unfold unsigned at same
    split at same <;> split at same
    · rename_i zero zero'
      exact .inr ⟨zero, zero'⟩
    · rename_i other
      rw [← same] at other
      exact absurd (by decide) other
    · rename_i other _
      rw [same] at other
      exact absurd (by decide) other
    · exact .inl same
  · intro close
    exact close.congr (by decide)

end Binary64

namespace Datum

mutual

/-- A datum without marks and signs of zeros. -/
def unsigned : Datum → Datum
  | .num n => .num ⟨Binary64.unsigned n.val, 0⟩
  | .func name params _ => .func name params 0
  | .stamp t _ => .stamp t 0
  | .seq items => .seq (unsignedItems items)
  | .map entries => .map (unsignedEntries entries)
  | .none => .none
  | .bool b => .bool b
  | .int i => .int i
  | .str s => .str s
  | .error r => .error r

def unsignedItems : List Datum → List Datum
  | [] => []
  | d :: rest => unsigned d :: unsignedItems rest

def unsignedEntries : List (String × Datum) → List (String × Datum)
  | [] => []
  | entry :: rest => unsignedEntry entry :: unsignedEntries rest

def unsignedEntry : String × Datum → String × Datum
  | (name, d) => (name, unsigned d)

end

lemma unsignedItems_eq (items : List Datum) : unsignedItems items = items.map unsigned := by
  induction items with
  | nil => rfl
  | cons d rest ih => rw [unsignedItems, List.map_cons, ih]

lemma unsignedEntries_eq (entries : List (String × Datum)) :
    unsignedEntries entries = entries.map fun entry => (entry.1, entry.2.unsigned) := by
  induction entries with
  | nil => rfl
  | cons entry rest ih => rw [unsignedEntries, List.map_cons, ih, unsignedEntry]

lemma wireNum_unsigned (n : Num) : wireNum ⟨Binary64.unsigned n.val, 0⟩ = (wireNum n).bare := by
  rcases Binary64.close_unsigned n.val with same | ⟨zero, zero'⟩
  · simp only [wireNum, same]
    split
    · split <;> rfl
    · rfl
  · have whole : ∀ {x : Float} (mark : Nat), (x == 0) = true → wireNum ⟨x, mark⟩ = .int 0 := by
      intro x mark zero
      have finite : Binary64.isFinite 0 = true ∧ Binary64.isFinite (-0) = true := by decide
      rcases Binary64.beq_zero_iff.mp zero with rfl | rfl
      · rw [wireNum, if_pos finite.1, isWhole_zero.1, if_pos rfl, truncate_zero.1]
      · rw [wireNum, if_pos finite.2, isWhole_zero.2, if_pos rfl, truncate_zero.2]
    rw [whole 0 zero, show wireNum n = .int 0 from whole n.mark zero']
    rfl

lemma wire_unsigned (d : Datum) : d.unsigned.wire = d.wire.bare := by
  refine wire_of_parts (fun d flat => ?_) (fun items => by rw [unsigned, unsignedItems_eq])
    (fun entries => by rw [unsigned, unsignedEntries_eq]) d
  cases d with
  | num n => exact wireNum_unsigned n
  | seq | map => cases flat
  | _ => rfl

end Datum

end TagScript
