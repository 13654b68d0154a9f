import ResourceLibrary.Host
import ResourceLibrary.Proofs.Text.Segments

/-!
Normal paths and the directories that paths lead to. Main statements: a normal path has the
components that normalization left, and stays as it is when it is normalized again; a path leads
where its normal form leads unless it rises more than one directory above its start; and of two
paths that lead alike the normal forms are the same unless one rises an odd number of times above the
root and the other one an even number.
-/

namespace ResourceLibrary

/-- What stands below the head of a path: `..`, and the names that a path can hold. -/
def Component.Inner : Component → Prop
  | .parent => True
  | .name text => ResourcePath.IsSegment text ∧ text ≠ "." ∧ text ≠ ".."
  | .root | .current => False

/-- Where components lead: over the root or from wherever they start, so many directories up, and
then down by names, of which the innermost stands first. -/
structure Course where
  anchored : Bool
  rises : Nat
  names : List String

namespace Course

def start : Course := ⟨false, 0, []⟩

def step (course : Course) : Component → Course
  | .root => ⟨true, 0, []⟩
  | .current => course
  | .name text => { course with names := text :: course.names }
  | .parent => match course.names with
    | [] => { course with rises := course.rises + 1 }
    | _ :: rest => { course with names := rest }

def of (parts : List Component) : Course := parts.foldl step start

def reach (course : Course) (directory : List String) : List String :=
  course.names ++ if course.anchored then [] else directory.drop course.rises

/-- What normalization keeps of a course, the innermost component first: of several `..` in a row
each one removes the one before. -/
def kept (course : Course) : List Component :=
  course.names.map .name ++ ((if course.rises % 2 = 1 then [.parent] else []) ++
    if course.anchored then [.root] else [])

def settled (course : Course) : Course := { course with rises := course.rises % 2 }

end Course

/-- The directory that a component leads to from another one. A directory is the names on the way to
it from the root, the innermost first. -/
def enterDirectory (directory : List String) : Component → List String
  | .root => []
  | .current => directory
  | .parent => directory.tail
  | .name text => text :: directory

namespace FilePath

def location (path : FilePath) (directory : List String) : List String :=
  path.components.foldl enterDirectory directory

/-- How often a path goes above where it starts, or above the root. -/
def rises (path : FilePath) : Nat := (Course.of path.components).rises

end FilePath

namespace Course

theorem reach_step (course : Course) (directory : List String) (part : Component) :
    (course.step part).reach directory = enterDirectory (course.reach directory) part := by
  obtain ⟨anchored, rises, names⟩ := course
  cases part with
  | root => rfl
  | current => rfl
  | name text => rfl
  | parent =>
    cases names with
    | nil => cases anchored <;> simp [step, reach, enterDirectory]
    | cons last rest => rfl

theorem reach_foldl (parts : List Component) (course : Course) (directory : List String) :
    (parts.foldl step course).reach directory =
      parts.foldl enterDirectory (course.reach directory) := by
  induction parts generalizing course with
  | nil => rfl
  | cons part rest ih => rw [List.foldl_cons, List.foldl_cons, ih, reach_step]

theorem kept_step (course : Course) (part : Component) :
    (course.step part).kept = FilePath.descend course.kept part := by
  obtain ⟨anchored, rises, names⟩ := course
  cases part with
  | root => rfl
  | current => rfl
  | name text => rfl
  | parent =>
    cases names with
    | cons last rest => rfl
    | nil =>
      -- The stack holds at most one `..`, so going up once more turns its number modulo two over.
      rcases Nat.mod_two_eq_zero_or_one rises with even | odd
      · have next : (rises + 1) % 2 = 1 := by omega
        cases anchored <;> simp [step, kept, even, next, FilePath.descend]
      · have next : (rises + 1) % 2 = 0 := by omega
        cases anchored <;> simp [step, kept, odd, next, FilePath.descend]

theorem kept_foldl (parts : List Component) (course : Course) :
    (parts.foldl step course).kept = parts.foldl FilePath.descend course.kept := by
  induction parts generalizing course with
  | nil => rfl
  | cons part rest ih => rw [List.foldl_cons, List.foldl_cons, ih, kept_step]

theorem normalized_eq_reverse_kept (parts : List Component) :
    FilePath.normalized parts = (of parts).kept.reverse := by
  rw [of, kept_foldl]
  rfl

theorem kept_settled (course : Course) : course.settled.kept = course.kept := by
  unfold kept settled
  rw [Nat.mod_mod]

theorem foldl_step_names (course : Course) (names : List String) :
    (names.map Component.name).foldl step course =
      { course with names := names.reverse ++ course.names } := by
  induction names generalizing course with
  | nil => rfl
  | cons text rest ih => simp [ih, step]

theorem reverse_kept (course : Course) :
    course.kept.reverse = (if course.anchored then [.root] else []) ++
      ((if course.rises % 2 = 1 then [.parent] else []) ++ course.names.reverse.map .name) := by
  unfold kept
  split <;> split <;> simp

theorem of_reverse_kept (course : Course) : of course.kept.reverse = course.settled := by
  obtain ⟨anchored, rises, names⟩ := course
  rw [reverse_kept, of, List.foldl_append, List.foldl_append, foldl_step_names, List.reverse_reverse]
  rcases Nat.mod_two_eq_zero_or_one rises with even | odd
  · cases anchored <;> simp [even, settled, start, step]
  · cases anchored <;> simp [odd, settled, start, step]

theorem of_normalized (parts : List Component) :
    of (FilePath.normalized parts) = (of parts).settled := by
  rw [normalized_eq_reverse_kept, of_reverse_kept]

theorem mem_names_foldl {parts : List Component} {course : Course} {text : String}
    (member : text ∈ (parts.foldl step course).names) :
    text ∈ course.names ∨ .name text ∈ parts := by
  induction parts generalizing course with
  | nil => exact .inl member
  | cons part rest ih =>
    rcases ih member with here | later
    · cases part with
      | root => cases here
      | current => exact .inl here
      | name other =>
        rcases List.mem_cons.mp here with rfl | before
        · exact .inr List.mem_cons_self
        · exact .inl before
      | parent =>
        obtain ⟨anchored, rises, names⟩ := course
        cases names with
        | nil => cases here
        | cons last names => exact .inl (List.mem_cons_of_mem _ here)
    · exact .inr (List.mem_cons_of_mem _ later)

theorem anchored_foldl {parts : List Component} (below : .root ∉ parts) (course : Course) :
    (parts.foldl step course).anchored = course.anchored := by
  induction parts generalizing course with
  | nil => rfl
  | cons part rest ih =>
    rw [List.mem_cons, not_or] at below
    rw [List.foldl_cons, ih below.2]
    cases part with
    | root => exact absurd rfl below.1
    | current => rfl
    | name text => rfl
    | parent =>
      obtain ⟨anchored, rises, names⟩ := course
      cases names <;> rfl

theorem kept_injective {course other : Course} (same : course.kept = other.kept) :
    course.settled = other.settled := by
  rw [← of_reverse_kept, same, of_reverse_kept]

/-- Two courses lead alike from everywhere exactly if they go down alike, and from the root both or
from equally high. -/
theorem forall_reach_eq_iff {course other : Course} :
    (∀ directory, course.reach directory = other.reach directory) ↔
      course.names = other.names ∧ course.anchored = other.anchored ∧
        (course.anchored = false → course.rises = other.rises) := by
  constructor
  · intro alike
    have names : course.names = other.names := by simpa [reach] using alike []
    -- Seen from a directory that is deep enough, how much of it is left tells how far a course rises.
    have deep := congrArg List.length
      (alike (List.replicate (course.rises + other.rises + 1) ""))
    simp only [reach, names, List.length_append, Nat.add_left_cancel_iff] at deep
    refine ⟨names, ?_⟩
    cases one : course.anchored <;> cases two : other.anchored <;> simp [one, two] at deep ⊢ <;>
      omega
  · rintro ⟨names, anchored, rises⟩ directory
    rw [reach, reach, names, ← anchored]
    cases free : course.anchored with
    | true => rfl
    | false => rw [rises free]

end Course

namespace FilePath

theorem location_eq_reach (path : FilePath) (directory : List String) :
    path.location directory = (Course.of path.components).reach directory := by
  rw [Course.of, Course.reach_foldl]
  rfl

theorem inner_of_component? {part : String} (clear : '/' ∉ part.toList) {component : Component}
    (read : component? part = some component) : component.Inner := by
  unfold component? at read
  split at read
  · cases read
  · next named =>
    split at read
    · cases read
      trivial
    · next below =>
      cases read
      simp only [Bool.or_eq_true, decide_eq_true_eq, not_or] at named
      exact ⟨⟨named.1, clear⟩, named.2, below⟩

theorem component?_text {component : Component} (inner : component.Inner) :
    component? component.text = some component := by
  cases component with
  | root => exact inner.elim
  | current => exact inner.elim
  | parent => rfl
  | name text =>
    obtain ⟨⟨full, _⟩, notHere, notUp⟩ := inner
    simp [component?, Component.text, full, notHere, notUp]

theorem not_mem_slash_of_mem_pieces {path : FilePath} {part : String}
    (member : part ∈ path.pieces) : '/' ∉ part.toList := by
  have inSplit : part ∈ Text.split '/' path.text := by
    unfold pieces at member
    simp only at member
    split at member
    · exact List.mem_of_mem_drop member
    · exact member
  obtain ⟨field, inFields, rfl⟩ := List.mem_map.mp inSplit
  rw [String.toList_ofList]
  exact Text.not_mem_of_mem_fields inFields

theorem inner_of_mem_filterMap {path : FilePath} {parts : List String} (some : parts ⊆ path.pieces)
    {component : Component} (member : component ∈ parts.filterMap component?) :
    component.Inner := by
  obtain ⟨part, inside, read⟩ := List.mem_filterMap.mp member
  exact inner_of_component? (not_mem_slash_of_mem_pieces (some inside)) read

theorem components_cases (path : FilePath) :
    ∃ head rest, path.components = head ++ rest ∧ (∀ component ∈ rest, component.Inner) ∧
      if path.isAbsolute then head = [.root] else head = [] ∨ head = [.current] := by
  unfold components
  split
  · exact ⟨[.root], _, rfl, fun _ => inner_of_mem_filterMap (List.Subset.refl _), rfl⟩
  · split
    · next rest pieces =>
      have some : rest ⊆ path.pieces := pieces ▸ List.subset_cons_self _ _
      exact ⟨[.current], _, rfl, fun _ => inner_of_mem_filterMap some, .inr rfl⟩
    · exact ⟨[], _, rfl, fun _ => inner_of_mem_filterMap (List.Subset.refl _), .inl rfl⟩

theorem anchored_of_components (path : FilePath) :
    (Course.of path.components).anchored = path.isAbsolute := by
  obtain ⟨head, rest, same, below, shape⟩ := path.components_cases
  rw [same, Course.of, List.foldl_append, Course.anchored_foldl fun member => below _ member]
  split at shape
  · next absolute =>
    rw [shape, absolute]
    rfl
  · next relative =>
    rw [Bool.not_eq_true] at relative
    rcases shape with rfl | rfl
    · exact relative.symm
    · exact relative.symm

theorem inner_of_mem_names {path : FilePath} {text : String}
    (member : text ∈ (Course.of path.components).names) : (Component.name text).Inner := by
  have inside := (Course.mem_names_foldl member).resolve_left (by simp [Course.start])
  obtain ⟨head, rest, same, below, shape⟩ := path.components_cases
  rw [same, List.mem_append] at inside
  refine below _ (inside.resolve_left fun first => ?_)
  split at shape
  · simp [shape] at first
  · rcases shape with rfl | rfl <;> simp at first

theorem filterMap_component? {parts : List Component}
    (inner : ∀ component ∈ parts, component.Inner) :
    (parts.map Component.text).filterMap component? = parts := by
  induction parts with
  | nil => rfl
  | cons part rest ih =>
    rw [List.map_cons, List.filterMap_cons_some (component?_text (inner part (by simp))),
      ih fun other member => inner other (by simp [member])]

section
variable {parts : List Component} (inner : ∀ component ∈ parts, component.Inner)
include inner

theorem split_intercalate (some : parts ≠ []) :
    Text.split '/' ("/".intercalate (parts.map Component.text)) = parts.map Component.text := by
  refine Text.split_intercalate (by simpa using some) fun piece member => ?_
  obtain ⟨component, listed, rfl⟩ := List.mem_map.mp member
  have fits := inner component listed
  cases component with
  | root => exact fits.elim
  | current => exact fits.elim
  | parent => decide
  | name text => exact fits.1.2

theorem head?_intercalate :
    ("/".intercalate (parts.map Component.text)).toList.head? ≠ some '/' := by
  intro slash
  cases parts with
  | nil => simp at slash
  | cons first rest =>
    obtain ⟨after, chars⟩ := List.head?_eq_some_iff.mp slash
    have fields := split_intercalate inner (by simp)
    rw [Text.split, chars, Text.fields, if_pos rfl, List.map_cons, List.map_cons, List.cons.injEq] at fields
    have read := component?_text (inner first (by simp))
    rw [← fields.1] at read
    cases read

theorem components_ofComponents_relative : (ofComponents parts).components = parts := by
  have same : ofComponents parts = ⟨"/".intercalate (parts.map Component.text)⟩ := by
    unfold ofComponents
    split
    · exact (inner .root (by simp)).elim
    · rfl
  have relative : (ofComponents parts).isAbsolute = false := by
    rw [isAbsolute, same, decide_eq_false_iff_not]
    exact head?_intercalate inner
  cases parts with
  | nil => rfl
  | cons first rest =>
    have pieces : (ofComponents (first :: rest)).pieces = (first :: rest).map Component.text := by
      rw [FilePath.pieces, relative, same]
      exact split_intercalate inner (by simp)
    rw [components, relative, if_neg (by simp), pieces]
    have read := component?_text (inner first (by simp))
    split
    · next here =>
      rw [List.map_cons, List.cons.injEq] at here
      rw [here.1] at read
      cases read
    · exact filterMap_component? inner

theorem components_ofComponents_absolute :
    (ofComponents (.root :: parts)).components = .root :: parts := by
  have chars : (ofComponents (.root :: parts)).text.toList =
      '/' :: ("/".intercalate (parts.map Component.text)).toList := by
    rw [ofComponents, String.toList_append]
    rfl
  have absolute : (ofComponents (.root :: parts)).isAbsolute = true := by
    rw [isAbsolute, chars]
    rfl
  have pieces : (ofComponents (.root :: parts)).pieces.filterMap component? = parts := by
    rw [FilePath.pieces, absolute, if_pos rfl, Text.split, chars, Text.fields, if_pos rfl]
    cases parts with
    | nil => rfl
    | cons first rest =>
      rw [List.map_cons, List.drop_one, List.tail_cons, ← Text.split, split_intercalate inner (by simp)]
      exact filterMap_component? inner
  rw [components, absolute, if_pos rfl, pieces]

end

theorem components_normalize (path : FilePath) :
    path.normalize.components = normalized path.components := by
  have inner : ∀ component ∈ (if (Course.of path.components).rises % 2 = 1 then [.parent] else []) ++
      (Course.of path.components).names.reverse.map Component.name, component.Inner := by
    intro component member
    rcases List.mem_append.mp member with up | down
    · split at up
      · rw [List.mem_singleton.mp up]
        trivial
      · cases up
    · obtain ⟨text, inside, rfl⟩ := List.mem_map.mp down
      exact inner_of_mem_names (List.mem_reverse.mp inside)
  rw [normalize, Course.normalized_eq_reverse_kept, Course.reverse_kept]
  split
  · exact components_ofComponents_absolute inner
  · exact components_ofComponents_relative inner

theorem normalize_normalize (path : FilePath) : path.normalize.normalize = path.normalize := by
  have again : normalized (normalized path.components) = normalized path.components := by
    rw [Course.normalized_eq_reverse_kept, Course.of_normalized,
      Course.normalized_eq_reverse_kept path.components, Course.kept_settled]
  rw [normalize, components_normalize, again, ← normalize]

theorem same_normalize_iff {path other : FilePath} :
    path.normalize.same other.normalize = true ↔
      (Course.of path.components).settled = (Course.of other.components).settled := by
  rw [same, beq_iff_eq, components_normalize, components_normalize,
    Course.normalized_eq_reverse_kept, Course.normalized_eq_reverse_kept, List.reverse_inj]
  constructor
  · exact Course.kept_injective
  · intro alike
    rw [← Course.kept_settled, alike, Course.kept_settled]

/-- From a directory the normal form of a path leads where the path leads exactly if the path starts
at the root, rises one directory at most, or the directory is not deep enough to tell. -/
theorem location_normalize_iff (path : FilePath) (directory : List String) :
    path.normalize.location directory = path.location directory ↔
      path.isAbsolute = true ∨ path.rises ≤ 1 ∨ directory.length ≤ path.rises % 2 := by
  rw [location_eq_reach, location_eq_reach, components_normalize, Course.of_normalized,
    ← anchored_of_components, rises]
  generalize Course.of path.components = course
  rw [Course.reach, Course.reach, Course.settled, List.append_cancel_left_eq]
  cases course.anchored with
  | true => simp
  | false =>
    simp only [Bool.false_eq_true, if_false, false_or]
    constructor
    · intro alike
      have lengths := congrArg List.length alike
      rw [List.length_drop, List.length_drop] at lengths
      omega
    · rintro (few | shallow)
      · rw [Nat.mod_eq_of_lt (Nat.lt_succ_of_le few)]
      · rw [List.drop_eq_nil_of_le shallow, List.drop_eq_nil_of_le]
        exact Nat.le_trans shallow (Nat.mod_le _ _)

theorem same_location_of_course {path other : FilePath}
    (alike : (Course.of path.components).names = (Course.of other.components).names ∧
      (Course.of path.components).anchored = (Course.of other.components).anchored ∧
      ((Course.of path.components).anchored = false →
        (Course.of path.components).rises = (Course.of other.components).rises))
    (directory : List String) : path.location directory = other.location directory := by
  rw [location_eq_reach, location_eq_reach]
  exact Course.forall_reach_eq_iff.mpr alike directory

theorem same_normalize_of_location {path other : FilePath}
    (alike : ∀ directory, path.location directory = other.location directory) :
    path.normalize.same other.normalize = true ↔ path.rises % 2 = other.rises % 2 := by
  simp only [location_eq_reach] at alike
  obtain ⟨names, anchored, _⟩ := Course.forall_reach_eq_iff.mp alike
  rw [same_normalize_iff, Course.settled, Course.settled, Course.mk.injEq]
  exact ⟨fun same => same.2.1, fun even => ⟨anchored, even, names⟩⟩

/-- A normal path is kept by normalization and leads where the path leads, exactly for paths from
the root, paths that rise one directory at most and directories too near the root to tell. Base
directories that are not on the disk and lead alike from everywhere are then resolved to the same one
exactly if both go above the root, or above where they start, an even number of times or both an odd
number. -/
theorem normalize_keeps_location (host : Host) (path anchor : FilePath) (directory : List String)
    (first second : String) :
    path.normalize.normalize = path.normalize ∧
    (path.normalize.location directory = path.location directory ↔
      path.isAbsolute = true ∨ path.rises ≤ 1 ∨ directory.length ≤ path.rises % 2) ∧
    (host.canonical? path = none → host.settle path = path.normalize) ∧
    (host.canonical? (anchor.join ⟨first⟩) = none → host.canonical? (anchor.join ⟨second⟩) = none →
      (∀ elsewhere, (anchor.join ⟨first⟩).location elsewhere =
        (anchor.join ⟨second⟩).location elsewhere) →
      ((host.resolveBasedir anchor first).same (host.resolveBasedir anchor second) = true ↔
        (anchor.join ⟨first⟩).rises % 2 = (anchor.join ⟨second⟩).rises % 2)) := by
  refine ⟨normalize_normalize path, location_normalize_iff path directory, Host.settle_of_none, ?_⟩
  intro absent missing alike
  rw [Host.resolveBasedir, Host.resolveBasedir, Host.settle_of_none absent,
    Host.settle_of_none missing]
  exact same_normalize_of_location alike

theorem normalize_keeps_location_nowhere :
    (FilePath.normalize ⟨"../nowhere"⟩).location ["lib"] =
      FilePath.location ⟨"../nowhere"⟩ ["lib"] ∧
    ((Host.bare "now").resolveBasedir ⟨"/virtual"⟩ "../nowhere").same
      ((Host.bare "now").resolveBasedir ⟨"/virtual"⟩ "../../../nowhere") = true := by
  obtain ⟨_, kept, _, alike⟩ := normalize_keeps_location "now" ⟨"../nowhere"⟩ ⟨"/virtual"⟩ ["lib"]
    "../nowhere" "../../../nowhere"
  refine ⟨kept.mpr (.inr (.inl (by decide))), (alike rfl rfl ?_).mpr (by decide)⟩
  exact same_location_of_course (by decide)

/-- Two directories up are lost between a path and its normal form, and one directory above the root
is kept: neither leads where the path led. -/
theorem not_normalize_keeps_location :
    (FilePath.normalize ⟨"../../nowhere"⟩).location ["lib", "virtual"] ≠
      FilePath.location ⟨"../../nowhere"⟩ ["lib", "virtual"] ∧
    (∀ directory, (FilePath.join ⟨"/virtual"⟩ ⟨"/../nowhere"⟩).location directory =
      (FilePath.join ⟨"/virtual"⟩ ⟨"/nowhere"⟩).location directory) ∧
    ((Host.bare "now").resolveBasedir ⟨"/virtual"⟩ "/../nowhere").same
      ((Host.bare "now").resolveBasedir ⟨"/virtual"⟩ "/nowhere") = false := by
  exact ⟨by decide, same_location_of_course (by decide), by decide⟩

end FilePath
end ResourceLibrary
