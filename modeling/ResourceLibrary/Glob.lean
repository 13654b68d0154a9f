import ResourceLibrary.Text.Split

/-!
Name patterns: a star stands for any run of characters without a line feed, every other character
for itself. A pattern is decided for all suffixes of a text at once, from the last part of the
pattern to the first, so the time it takes grows with the product of the two lengths. Main
statement: what a pattern accepts, by its first character.
-/

namespace ResourceLibrary.Glob

def emptySuffixes : List Char → List Bool
  | [] => [true]
  | _ :: text => false :: emptySuffixes text

/-- Which suffixes hold one that is chosen after a run without a line feed. -/
def afterRun : List Char → List Bool → List Bool
  | c :: text, here :: chosen =>
    let later := afterRun text chosen
    (here || (c != '\n' && later.headD false)) :: later
  | _, chosen => chosen

def afterChar (p : Char) : List Char → List Bool → List Bool
  | c :: text, _ :: chosen => (p == c && chosen.headD false) :: afterChar p text chosen
  | _, _ => [false]

/-- Which suffixes of a text, longest first, a pattern accepts. -/
def acceptedSuffixes : List Char → List Char → List Bool
  | [], text => emptySuffixes text
  | p :: pattern, text =>
    let chosen := acceptedSuffixes pattern text
    if p = '*' then afterRun text chosen else afterChar p text chosen

def accepts (pattern text : List Char) : Bool := (acceptedSuffixes pattern text).headD false

theorem acceptedSuffixes_nil (pattern : List Char) :
    acceptedSuffixes pattern [] = [accepts pattern []] := by
  induction pattern with
  | nil => rfl
  | cons p pattern ih =>
    generalize accepts pattern [] = here at ih
    by_cases star : p = '*' <;> simp [accepts, acceptedSuffixes, star, ih, afterRun, afterChar]

theorem acceptedSuffixes_cons (pattern : List Char) (c : Char) (text : List Char) :
    acceptedSuffixes pattern (c :: text) =
      accepts pattern (c :: text) :: acceptedSuffixes pattern text := by
  induction pattern with
  | nil => rfl
  | cons p pattern ih =>
    generalize accepts pattern (c :: text) = here at ih
    by_cases star : p = '*' <;> simp [accepts, acceptedSuffixes, star, ih, afterRun, afterChar]

theorem accepts_nil (text : List Char) : accepts [] text = text.isEmpty := by
  cases text <;> rfl

theorem accepts_cons {p : Char} (plain : p ≠ '*') (pattern text : List Char) :
    accepts (p :: pattern) text = true ↔
      ∃ rest, text = p :: rest ∧ accepts pattern rest = true := by
  cases text with
  | nil => simp [accepts, acceptedSuffixes, plain, afterChar]
  | cons c text =>
    rw [accepts, acceptedSuffixes, if_neg plain, acceptedSuffixes_cons, afterChar]
    simp only [List.headD_cons, Bool.and_eq_true, beq_iff_eq, List.cons.injEq]
    constructor
    · exact fun ⟨same, accepted⟩ => ⟨text, ⟨same.symm, rfl⟩, accepted⟩
    · rintro ⟨rest, ⟨rfl, rfl⟩, accepted⟩
      exact ⟨rfl, accepted⟩

theorem accepts_star_cons (pattern text : List Char) :
    accepts ('*' :: pattern) text = true ↔
      ∃ run rest, text = run ++ rest ∧ '\n' ∉ run ∧ accepts pattern rest = true := by
  induction text with
  | nil =>
    rw [accepts, acceptedSuffixes, if_pos rfl, acceptedSuffixes_nil, afterRun, List.headD_cons]
    · constructor
      · exact fun here => ⟨[], [], rfl, by simp, here⟩
      · rintro ⟨run, rest, eq, _, accepted⟩
        obtain ⟨rfl, rfl⟩ := List.append_eq_nil_iff.mp eq.symm
        exact accepted
    · simp
  | cons c text ih =>
    have step : accepts ('*' :: pattern) (c :: text) =
        (accepts pattern (c :: text) || (c != '\n' && accepts ('*' :: pattern) text)) := by
      rw [accepts, acceptedSuffixes, if_pos rfl, acceptedSuffixes_cons]
      simp [afterRun, accepts, acceptedSuffixes]
    rw [step, Bool.or_eq_true, Bool.and_eq_true, bne_iff_ne, ih]
    constructor
    · rintro (here | ⟨clear, run, rest, rfl, none, accepted⟩)
      · exact ⟨[], c :: text, rfl, by simp, here⟩
      · exact ⟨c :: run, rest, rfl, by simp [none, Ne.symm clear], accepted⟩
    · rintro ⟨run, rest, eq, none, accepted⟩
      cases run with
      | nil => exact .inl (by simpa [eq] using accepted)
      | cons d run =>
        simp only [List.cons_append, List.cons.injEq] at eq
        simp only [List.mem_cons, not_or] at none
        exact .inr ⟨eq.1 ▸ Ne.symm none.1, run, rest, eq.2, none.2, accepted⟩

/-- Tokens of criteria: the parts between slashes without the empty ones at the end. Empty criteria
are one empty token. -/
def tokens (criteria : String) : List String :=
  if criteria = "" then [""]
  else ((Text.split '/' criteria).reverse.dropWhile (· == "")).reverse

def isDeep (token : String) : Bool := Text.holdsPair '*' '*' token.toList

end ResourceLibrary.Glob
