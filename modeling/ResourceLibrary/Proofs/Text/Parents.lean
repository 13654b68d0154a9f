import Mathlib.Logic.Relation
import ResourceLibrary.Proofs.Text.Normalization

/-!
The parents of a path. Main statements: the climb from a path to its parents never ends early, and
what it finds first is the nearest directory that holds something.
-/

namespace ResourceLibrary.FilePath

theorem eq_nil_of_pieces_cons {path : FilePath} {rest : List String}
    (relative : path.isAbsolute = false) (pieces : path.pieces = "" :: rest) : rest = [] := by
  rw [FilePath.pieces, relative, if_neg Bool.false_ne_true, Text.split] at pieces
  cases chars : path.text.toList with
  | nil =>
    rw [chars, Text.fields] at pieces
    simpa using pieces
  | cons c cs =>
    have away : c ≠ '/' := by
      rintro rfl
      simp [isAbsolute, chars] at relative
    rw [chars, Text.fields, if_neg away] at pieces
    split at pieces <;> simp at pieces

theorem fromLastComponent_suffix (absolute : Bool) (parts : List String) :
    fromLastComponent absolute parts <:+ parts := by
  induction parts with
  | nil => exact List.suffix_refl _
  | cons part rest ih =>
    rw [fromLastComponent]
    split
    · exact ih.trans (List.suffix_cons _ _)
    · exact List.suffix_refl _

theorem fromLastComponent_self (absolute : Bool) (parts : List String) :
    fromLastComponent absolute (fromLastComponent absolute parts) =
      fromLastComponent absolute parts := by
  induction parts with
  | nil => rfl
  | cons part rest ih =>
    rw [fromLastComponent]
    split
    · exact ih
    · next stays => rw [fromLastComponent, if_neg stays]

theorem pieces_intercalate {absolute : Bool} {parts : List String}
    (clear : ∀ part ∈ parts, '/' ∉ part.toList) (lead : absolute = false → parts.head? ≠ some "") :
    let path : FilePath := ⟨if absolute then "/" ++ "/".intercalate parts else "/".intercalate parts⟩
    path.isAbsolute = absolute ∧ path.pieces = if parts = [] then [""] else parts := by
  intro path
  have whole : Text.split '/' ("/".intercalate parts) = if parts = [] then [""] else parts := by
    split
    · next none =>
      rw [none]
      rfl
    · next some => exact Text.split_intercalate some clear
  cases absolute with
  | true =>
    have chars : path.text.toList = '/' :: ("/".intercalate parts).toList := by
      simp [path]
    have slash : path.isAbsolute = true := by simp [isAbsolute, chars]
    refine ⟨slash, ?_⟩
    rw [pieces, slash, if_pos rfl, ← whole, Text.split, chars, Text.fields, if_pos rfl]
    rfl
  | false =>
    have text : path.text = "/".intercalate parts := rfl
    have slash : path.isAbsolute = false := by
      rw [isAbsolute, decide_eq_false_iff_not]
      intro start
      obtain ⟨after, chars⟩ := List.head?_eq_some_iff.mp start
      rw [← text, Text.split, chars, Text.fields, if_pos rfl] at whole
      split at whole
      · next none =>
        rw [text, none] at chars
        simp at chars
      · exact lead rfl (by rw [← whole]; rfl)
    refine ⟨slash, ?_⟩
    rw [pieces, slash, if_neg Bool.false_ne_true, text, whole]

theorem pieces_of_parent? {path above : FilePath} (up : path.parent? = some above) :
    ∃ part rest, fromLastComponent path.isAbsolute path.pieces.reverse = part :: rest ∧
      above.isAbsolute = path.isAbsolute ∧
      above.pieces = if (fromLastComponent path.isAbsolute rest).reverse = [] then [""]
        else (fromLastComponent path.isAbsolute rest).reverse := by
  unfold parent? at up
  split at up
  · cases up
  · next part rest whole =>
    cases up
    have inside : part :: rest <:+ path.pieces.reverse :=
      whole ▸ fromLastComponent_suffix path.isAbsolute path.pieces.reverse
    have kept : fromLastComponent path.isAbsolute rest <:+ path.pieces.reverse :=
      (fromLastComponent_suffix _ _).trans ((List.suffix_cons part rest).trans inside)
    have front : (fromLastComponent path.isAbsolute rest).reverse <+: path.pieces := by
      rwa [← List.reverse_suffix, List.reverse_reverse]
    refine ⟨part, rest, whole, pieces_intercalate
      (fun piece member => not_mem_slash_of_mem_pieces (front.subset member)) ?_⟩
    intro relative first
    obtain ⟨more, parts⟩ := List.head?_eq_some_iff.mp first
    obtain ⟨further, pieces⟩ := parts ▸ front
    have alone : more ++ further = [] := eq_nil_of_pieces_cons relative pieces.symm
    rw [← pieces, List.cons_append, alone] at whole
    simp [fromLastComponent] at whole

def depth (path : FilePath) : Nat := (fromLastComponent path.isAbsolute path.pieces.reverse).length

theorem depth_le (path : FilePath) : path.depth ≤ path.pieces.length := by
  rw [← List.length_reverse]
  exact length_fromLastComponent _ _

theorem depth_lt_of_parent? {path above : FilePath} (up : path.parent? = some above) :
    above.depth < path.depth := by
  obtain ⟨part, rest, whole, same, pieces⟩ := pieces_of_parent? up
  have fewer : above.depth = (fromLastComponent path.isAbsolute rest).length := by
    rw [depth, same, pieces]
    split
    · next none =>
      rw [List.reverse_eq_nil_iff.mp none]
      rfl
    · rw [List.reverse_reverse, fromLastComponent_self]
  rw [fewer, depth, whole, List.length_cons]
  exact Nat.lt_succ_of_le (length_fromLastComponent _ rest)

theorem climb_eq_of_depth_lt {steps more : Nat} {path : FilePath} (enough : path.depth < steps)
    (also : path.depth < more) : ancestors.climb steps path = ancestors.climb more path := by
  induction steps generalizing more path with
  | zero => cases enough
  | succ steps ih =>
    obtain _ | more := more
    · cases also
    rw [ancestors.climb, ancestors.climb]
    cases up : path.parent? with
    | none => rfl
    | some above =>
      have lower := depth_lt_of_parent? up
      have same := @ih more above (by omega) (by omega)
      simp only [same]

theorem ancestors_eq (path : FilePath) :
    path.ancestors = path :: match path.parent? with
      | some above => above.ancestors
      | none => [] := by
  rw [ancestors, ancestors.climb]
  cases up : path.parent? with
  | none => rfl
  | some above =>
    have lower := depth_lt_of_parent? up
    have bound := path.depth_le
    have own := above.depth_le
    simp only [ancestors]
    rw [@climb_eq_of_depth_lt _ (above.pieces.length + 1) above (by omega) (by omega)]

/-- What holds of a path if it holds of its parent holds of every path. -/
theorem parentInduction {motive : FilePath → Prop}
    (step : ∀ path, (∀ above, path.parent? = some above → motive above) → motive path)
    (path : FilePath) : motive path := by
  induction h : path.depth using Nat.strongRecOn generalizing path with
  | ind depth ih =>
    subst h
    exact step path fun above up => ih above.depth (depth_lt_of_parent? up) above rfl

def AtOrAbove (above path : FilePath) : Prop :=
  Relation.ReflTransGen (fun path above : FilePath => path.parent? = some above) path above

/-- The first of a path and its parents that holds something. -/
inductive Nearest (holds : FilePath → Prop) : FilePath → FilePath → Prop
  | here {path : FilePath} (there : holds path) : Nearest holds path path
  | above {path above found : FilePath} (lacks : ¬holds path) (up : path.parent? = some above)
    (further : Nearest holds above found) : Nearest holds path found

theorem mem_ancestors_iff {path above : FilePath} :
    above ∈ path.ancestors ↔ AtOrAbove above path := by
  induction path using parentInduction with
  | step path ih =>
    rw [ancestors_eq, List.mem_cons, AtOrAbove, Relation.ReflTransGen.cases_head_iff, eq_comm]
    refine or_congr_right ?_
    cases up : path.parent? with
    | none => simp
    | some outer => simp [ih outer up, AtOrAbove]

variable {holds : FilePath → Bool} {start : FilePath}

theorem find?_ancestors_eq_some_iff {dir : FilePath} :
    start.ancestors.find? holds = some dir ↔ Nearest (holds · = true) start dir := by
  induction start using parentInduction with
  | step path ih =>
    rw [ancestors_eq, List.find?_cons]
    constructor
    · intro found
      split at found
      · next there =>
        cases found
        exact .here there
      · next lacks =>
        cases up : path.parent? with
        | none =>
          rw [up] at found
          cases found
        | some above =>
          rw [up] at found
          exact .above (by simp [lacks]) up ((ih above up).mp found)
    · intro nearest
      cases nearest with
      | here there => rw [there]
      | above lacks up further =>
        rw [Bool.not_eq_true _ |>.mp lacks, up]
        exact (ih _ up).mpr further

theorem find?_ancestors_eq_none_iff :
    start.ancestors.find? holds = none ↔ ∀ dir, AtOrAbove dir start → holds dir = false := by
  simp only [List.find?_eq_none, mem_ancestors_iff, Bool.not_eq_true]

end ResourceLibrary.FilePath
