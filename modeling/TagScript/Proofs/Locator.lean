import Mathlib.Tactic.Lemma
import TagScript.Locator

/-!
# Resolved locators

Two relative locators give the same path if and only if they lead to the same place from the base.
-/

namespace TagScript.Locator

open List

/-- A path that starts with a slash, and not with two. -/
abbrev FromRoot (path : String) : Prop := path.toList.head? = some '/' ∧ path.toList.tail.head? ≠ some '/'

/-- A locator that is read against a directory, and is not empty. -/
@[simp] abbrev Relative (locator : String) : Prop := (path locator).head? ∉ [none, some '/', some '~']

@[simp] abbrev IsName (segment : String) : Prop := segment ∉ ["", ".", ".."]

/-- Where segments lead to from a directory, which is given by the names on the way to it, the last
one first. Above the root there is only the root. -/
inductive Leads : List String → List String → List String → Prop where
  | here (dir : List String) : Leads dir [] dir
  | stay {segment dir rest target} (silent : segment = "" ∨ segment = ".") : Leads dir rest target →
    Leads dir (segment :: rest) target
  | up {dir rest target} : Leads dir.tail rest target → Leads dir (".." :: rest) target
  | down {segment dir rest target} (name : IsName segment) : Leads (segment :: dir) rest target →
    Leads dir (segment :: rest) target

/-- The segments of a locator behind those of the directory that it is read against. -/
def way (base locator : String) : List String :=
  segmentsOf base ++ segmentsOf (String.ofList (path locator))

abbrev followed (segments : List String) : List String := segments.foldl (addSegment true) []

variable {places : Places} {base locator segment : String} {dir segments target : List String}

/-! ## Segments -/

lemma slash_not_mem_splitOn {cs part : List Char} (mem : part ∈ cs.splitOn '/') : '/' ∉ part := by
  induction cs generalizing part with
  | nil => simp_all
  | cons c rest ih =>
    rcases found : rest.splitOn '/' with _ | ⟨first, parts⟩
    · exact absurd found (splitOn_ne_nil _ _)
    · rw [splitOn_cons_eq_if_modifyHead, found] at mem
      rw [found] at ih
      split at mem <;> grind [modifyHead_cons]

lemma segmentsOf_append (front back : String) :
    segmentsOf (front ++ "/" ++ back) = segmentsOf front ++ segmentsOf back := by
  have chars : (front ++ "/" ++ back).toList = front.toList ++ '/' :: back.toList := by simp
  rw [segmentsOf, chars, splitOn_append_cons_self, map_append]
  rfl

/-- A directory as it is given by the names on the way to it. -/
def Proper (dir : List String) : Prop := ∀ name ∈ dir, IsName name ∧ '/' ∉ name.toList

lemma addSegment_of_proper (proper : Proper dir) (segment : String) :
    addSegment true dir segment =
      if segment = "" ∨ segment = "." then dir else if segment = ".." then dir.tail else segment :: dir := by
  unfold addSegment
  cases dir with
  | nil => simp_all
  | cons last rest =>
    have name := (proper last mem_cons_self).1
    simp_all

lemma Proper.add (proper : Proper dir) (plain : '/' ∉ segment.toList) : Proper (addSegment true dir segment) := by
  rw [addSegment_of_proper proper]
  split
  · exact proper
  · split
    · exact fun name mem => proper name (mem_of_mem_tail mem)
    · exact forall_mem_cons.mpr ⟨⟨by simp_all, plain⟩, proper⟩

lemma leads_iff (target : List String) (proper : Proper dir) (plain : ∀ segment ∈ segments, '/' ∉ segment.toList) :
    (Leads dir segments target ↔ segments.foldl (addSegment true) dir = target) ∧
      Proper (segments.foldl (addSegment true) dir) := by
  induction segments generalizing dir with
  | nil =>
    refine ⟨⟨?_, ?_⟩, proper⟩
    · rintro ⟨⟩
      rfl
    · rintro rfl
      exact .here dir
  | cons segment rest ih =>
    obtain ⟨here, further⟩ := forall_mem_cons.mp plain
    obtain ⟨leads, kept⟩ := ih (proper.add here) further
    refine ⟨?_, kept⟩
    rw [foldl_cons, ← leads, addSegment_of_proper proper]
    constructor
    · rintro (_ | ⟨silent, rest⟩ | rest | ⟨name, rest⟩)
      · rwa [if_pos silent]
      · exact rest
      · simp_all
    · intro rest
      split at rest
      · rename_i silent
        exact .stay silent rest
      · split at rest
        · subst segment
          exact .up rest
        · exact .down (by simp_all) rest

lemma leads_way (base locator : String) :
    (∀ target, Leads [] (way base locator) target ↔ followed (way base locator) = target) ∧
      Proper (followed (way base locator)) := by
  have plain : ∀ segment ∈ way base locator, '/' ∉ segment.toList := by
    simp only [way, segmentsOf, ← map_append, forall_mem_map, String.toList_ofList]
    exact fun part mem => (mem_append.mp mem).elim slash_not_mem_splitOn slash_not_mem_splitOn
  have proper : Proper [] := nofun
  exact ⟨fun _ => (leads_iff _ proper plain).1, (leads_iff [] proper plain).2⟩

/-! ## Paths -/

/-- The path from the root to a directory. -/
def written (dir : List String) : String := "/" ++ Text.joined "/" dir.reverse

lemma toList_joined (parts : List String) :
    (Text.joined "/" parts).toList = intercalate ['/'] (parts.map String.toList) := by
  fun_induction Text.joined with
  | case1 => rfl
  | case2 => simp [intercalate]
  | case3 first rest more ih =>
    obtain ⟨second, rest, rfl⟩ := exists_cons_of_ne_nil more
    simp_all [intercalate]

lemma toList_written (dir : List String) :
    (written dir).toList = '/' :: intercalate ['/'] (dir.reverse.map String.toList) := by
  rw [written, String.toList_append, toList_joined]
  rfl

lemma Proper.segmentsOf_written (proper : Proper dir) :
    segmentsOf (written dir) = "" :: if dir = [] then [""] else dir.reverse := by
  rw [segmentsOf, toList_written, ← nil_append (_ :: _), splitOn_append_cons_self]
  split
  · subst dir
    rfl
  · have plain : ∀ name ∈ dir.reverse.map String.toList, '/' ∉ name := by
      simpa using fun name mem => (proper name mem).2
    rw [splitOn_intercalate _ plain (by simpa)]
    simp [Function.comp_def]

lemma Proper.fromRoot_written (proper : Proper dir) : FromRoot (written dir) := by
  rw [FromRoot, toList_written]
  refine ⟨rfl, ?_⟩
  cases found : dir.reverse with
  | nil => exact nofun
  | cons name rest =>
    obtain ⟨named, plain⟩ := proper name (mem_reverse.mp (found ▸ mem_cons_self))
    cases shape : name.toList with
    | nil => simp_all
    | cons c cs =>
      have other : c ≠ '/' := by
        rintro rfl
        exact plain (shape ▸ mem_cons_self)
      cases rest <;> simpa [intercalate, shape] using other

lemma Proper.written_inj (proper : Proper dir) (proper' : Proper target) : written dir = written target ↔ dir = target := by
  refine ⟨fun same => ?_, congrArg written⟩
  have parts := congrArg segmentsOf same
  rw [proper.segmentsOf_written, proper'.segmentsOf_written] at parts
  -- only the root is written with an empty segment
  have root {dir : List String} (proper : Proper dir) (empty : dir.reverse = [""]) : False :=
    (proper "" (mem_reverse.mp (empty ▸ mem_cons_self))).1 mem_cons_self
  split at parts <;> split at parts <;> simp only [cons.injEq, true_and, reverse_inj] at parts
  · simp_all
  · exact (root proper' parts.symm).elim
  · exact (root proper parts).elim
  · exact parts

/-! ## Locators -/

namespace FromRoot

variable (rooted : FromRoot base)
include rooted

lemma shape : ∃ rest, base.toList = '/' :: rest ∧ rest.head? ≠ some '/' := by
  obtain ⟨rest, shape⟩ := head?_eq_some_iff.mp rooted.1
  exact ⟨rest, shape, by simpa [shape] using rooted.2⟩

lemma simplified_eq : simplified base = written (followed (segmentsOf base)) := by
  obtain ⟨rest, shape, single⟩ := rooted.shape
  have slashes : rootSlashes base.toList = 1 := by
    rw [shape]
    unfold rootSlashes
    split <;> simp_all
  simp [simplified, slashes, written]

lemma nonempty : base.isEmpty = false := by
  rw [Bool.eq_false_iff, ne_eq, String.isEmpty_iff]
  rintro rfl
  cases rooted.1

lemma resolve_eq (other : Option String) : resolve places other base = base := by
  obtain ⟨rest, shape, single⟩ := rooted.shape
  have near : ¬base.startsWith fileScheme := by
    rw [String.startsWith_string_iff, shape]
    rintro ⟨_, same⟩
    cases same
  have kept : rest.dropWhile (· == '/') = rest := by
    cases rest with
    | nil => rfl
    | cons c rest => simp_all
  rw [resolve, path, if_neg near, shape]
  simp [kept, String.ext_iff, shape]

lemma joined (back : String) (near : back.toList.head? ≠ some '/') :
    FromRoot (joined base back) ∧
      followed (segmentsOf (Locator.joined base back)) = followed (segmentsOf base ++ segmentsOf back) := by
  obtain ⟨rest, shape, single⟩ := rooted.shape
  rw [Locator.joined, rooted.nonempty, Bool.false_or]
  split
  · rename_i closed
    refine ⟨by cases rest <;> simp_all [FromRoot], ?_⟩
    obtain ⟨front, whole : base = front ++ "/"⟩ := String.endsWith_char_iff_exists_append.mp closed
    have parts : segmentsOf base = segmentsOf front ++ [""] := by
      rw [whole, ← String.append_empty (s := front ++ "/"), segmentsOf_append]
      rfl
    rw [parts, whole, segmentsOf_append]
    simp [addSegment]
  · rename_i unclosed
    refine ⟨?_, by rw [segmentsOf_append]⟩
    rw [String.endsWith_char_eq_getLast?, shape] at unclosed
    cases rest <;> simp_all [FromRoot]

lemma resolve_relative (relative : Relative locator) :
    resolve places (some base) locator = written (followed (way base locator)) := by
  obtain ⟨whole, same⟩ := rooted.joined (String.ofList (path locator)) (by simp_all)
  rw [way, ← same, ← whole.simplified_eq, Locator.resolve]
  cases found : path locator <;> simp_all [Option.filter, rooted.nonempty]

lemma resolve (away : (path locator).head? ≠ some '~') : FromRoot (resolve places (some base) locator) := by
  by_cases relative : Relative locator
  · rw [rooted.resolve_relative relative]
    exact (leads_way base locator).2.fromRoot_written
  · rw [Locator.resolve]
    cases found : path locator with
    | nil => simpa [Option.filter, rooted.nonempty] using rooted
    | cons first rest =>
      have root : first = '/' := by simp_all
      have single := head?_dropWhile_not (· == '/') rest
      refine ⟨by simp [root], fun same => ?_⟩
      simp_all

end FromRoot

/-- Read against a directory from the root, a locator that is not under a home directory gives a
path from the root, which stands for itself. For a relative locator it is the root, or each of its
segments is a name; and two of them give the same path, and so the same module, if and only if they
lead to the same place. -/
theorem resolve_normal {key : String} (rooted : FromRoot base) (away : (path locator).head? ≠ some '~')
    (resolved : resolve places (some base) locator = key) :
    FromRoot key ∧ (∀ places' base', resolve places' base' key = key) ∧
    (Relative locator →
      (key = "/" ∨ ∀ segment ∈ (segmentsOf key).tail, IsName segment) ∧
      ∀ base' locator', FromRoot base' → Relative locator' →
        (key = resolve places (some base') locator' ↔
          ∃ target, Leads [] (way base locator) target ∧ Leads [] (way base' locator') target)) := by
  subst resolved
  have whole : FromRoot (resolve places (some base) locator) := rooted.resolve away
  refine ⟨whole, fun _ => whole.resolve_eq, fun relative => ?_⟩
  obtain ⟨leads, proper⟩ := leads_way base locator
  rw [rooted.resolve_relative relative]
  refine ⟨?_, fun base' locator' rooted' relative' => ?_⟩
  · rw [proper.segmentsOf_written]
    split
    · rename_i root
      exact .inl (congrArg written root)
    · exact .inr fun segment mem => (proper segment (mem_reverse.mp mem)).1
  · obtain ⟨leads', proper'⟩ := leads_way base' locator'
    simp only [rooted'.resolve_relative relative', proper.written_inj proper', leads, leads', exists_eq_left']
    exact eq_comm

/-- A locator that climbs above the root is another way to write one that does not. -/
theorem resolve_normal_climbing :
    FromRoot "/a" ∧ Relative "./../../b//c/" ∧
      resolve ⟨"/", "/"⟩ (some "/a") "./../../b//c/" = resolve ⟨"/", "/"⟩ (some "/b") "file://c" := by
  have climbing : Relative "./../../b//c/" := by decide +kernel
  refine ⟨by decide, climbing, ?_⟩
  refine (((resolve_normal (by decide) (by decide +kernel) rfl).2.2 climbing).2 "/b" _ (by decide) (by decide +kernel)).mpr ?_
  exact ⟨["c", "b"], ((leads_way _ _).1 _).mpr (by decide +kernel), ((leads_way _ _).1 _).mpr (by decide +kernel)⟩

end TagScript.Locator
