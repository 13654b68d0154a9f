/-!
Text cut at a separating character. Main statements: the fields of a text joined again are the
text, no field holds the separator, and a cut gives the two sides of the first or last separator.
-/

namespace ResourceLibrary.Text

/-- The runs of characters between the separators; one more than there are separators. -/
def fields (sep : Char) : List Char → List (List Char)
  | [] => [[]]
  | c :: cs =>
    if c = sep then [] :: fields sep cs
    else match fields sep cs with
      | [] => [[c]]
      | field :: rest => (c :: field) :: rest

def joined (sep : Char) : List (List Char) → List Char
  | [] => []
  | [field] => field
  | field :: rest => field ++ sep :: joined sep rest

def cut? (sep : Char) : List Char → Option (List Char × List Char)
  | [] => none
  | c :: cs => if c = sep then some ([], cs) else (cut? sep cs).map fun (a, b) => (c :: a, b)

def cutLast? (sep : Char) (cs : List Char) : Option (List Char × List Char) :=
  (cut? sep cs.reverse).map fun (b, a) => (a.reverse, b.reverse)

def holdsPair (first second : Char) : List Char → Bool
  | a :: b :: rest => (a == first && b == second) || holdsPair first second (b :: rest)
  | _ => false

theorem fields_ne_nil (sep : Char) (cs : List Char) : fields sep cs ≠ [] := by
  cases cs with
  | nil => simp [fields]
  | cons c cs =>
    rw [fields]
    split
    · simp
    · split <;> simp

theorem joined_fields (sep : Char) (cs : List Char) : joined sep (fields sep cs) = cs := by
  induction cs with
  | nil => rfl
  | cons c cs ih =>
    have some := fields_ne_nil sep cs
    rw [fields]
    split
    · next same =>
      cases h : fields sep cs with
      | nil => exact absurd h some
      | cons field rest => simp [joined, ← h, ih, same]
    · cases h : fields sep cs with
      | nil => exact absurd h some
      | cons field rest =>
        rw [h] at ih
        cases rest <;> simp_all [joined]

theorem not_mem_of_mem_fields {sep : Char} {cs field : List Char}
    (member : field ∈ fields sep cs) : sep ∉ field := by
  induction cs generalizing field with
  | nil => simp_all [fields]
  | cons c cs ih =>
    rw [fields] at member
    split at member
    · rcases List.mem_cons.mp member with same | later
      · simp [same]
      · exact ih later
    · next different =>
      split at member
      · next eq => exact absurd eq (fields_ne_nil sep cs)
      · next first rest eq =>
        rcases List.mem_cons.mp member with same | later
        · rw [same]
          have := ih (eq ▸ List.mem_cons_self)
          simp [this, Ne.symm different]
        · exact ih (eq ▸ List.mem_cons_of_mem _ later)

theorem fields_of_not_mem {sep : Char} {cs : List Char} (absent : sep ∉ cs) :
    fields sep cs = [cs] := by
  induction cs with
  | nil => rfl
  | cons c cs ih =>
    simp only [List.mem_cons, not_or] at absent
    rw [fields, ih absent.2]
    simp [Ne.symm absent.1]

theorem cut?_eq_some_iff {sep : Char} {cs a b : List Char} :
    cut? sep cs = some (a, b) ↔ cs = a ++ sep :: b ∧ sep ∉ a := by
  induction cs generalizing a with
  | nil => simp [cut?]
  | cons c cs ih =>
    rw [cut?]
    split
    · next same =>
      cases a with
      | nil => simp [same]
      | cons x xs => simp [same]; grind
    · next different =>
      cases a with
      | nil => simp [different]
      | cons x xs => simp [ih]; grind

theorem cut?_eq_none_iff {sep : Char} {cs : List Char} : cut? sep cs = none ↔ sep ∉ cs := by
  induction cs with
  | nil => simp [cut?]
  | cons c cs ih =>
    rw [cut?]
    split
    · next same => simp [same]
    · next different => simp [ih, Ne.symm different]

theorem length_lt_of_cut? {sep : Char} {cs a b : List Char} (found : cut? sep cs = some (a, b)) :
    b.length < cs.length := by
  rw [(cut?_eq_some_iff.mp found).1]
  simp
  omega

theorem cutLast?_eq_some_iff {sep : Char} {cs a b : List Char} :
    cutLast? sep cs = some (a, b) ↔ cs = a ++ sep :: b ∧ sep ∉ b := by
  simp only [cutLast?, Option.map_eq_some_iff, Prod.exists, Prod.mk.injEq]
  constructor
  · rintro ⟨x, y, found, rfl, rfl⟩
    obtain ⟨eq, absent⟩ := cut?_eq_some_iff.mp found
    refine ⟨?_, by simpa using absent⟩
    have := congrArg List.reverse eq
    simpa using this
  · rintro ⟨rfl, absent⟩
    exact ⟨b.reverse, a.reverse, cut?_eq_some_iff.mpr (by simp [absent]), by simp, by simp⟩

def split (sep : Char) (text : String) : List String := (fields sep text.toList).map String.ofList

end ResourceLibrary.Text
