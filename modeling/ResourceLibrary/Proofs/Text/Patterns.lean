import Mathlib.Data.List.DropRight
import Mathlib.Data.List.Infix
import ResourceLibrary.Glob
import ResourceLibrary.Proofs.Text.Segments

/-!
What a name pattern accepts, read off the pattern: a star stands for any run of characters without a
line feed, every other character for itself. The tokens of criteria are what slashes join, but for
empty ones at the end.
-/

namespace ResourceLibrary

theorem Text.holdsPair_iff (first second : Char) (text : List Char) :
    Text.holdsPair first second text = true ↔ [first, second] <:+: text := by
  induction text with
  | nil => simp [Text.holdsPair]
  | cons a rest ih =>
    cases rest with
    | nil => simp [Text.holdsPair, List.infix_cons_iff]
    | cons b rest =>
      have start : [first, second] <+: a :: b :: rest ↔ a = first ∧ b = second := by
        rw [List.cons_prefix_cons, List.cons_prefix_cons]
        constructor
        · rintro ⟨rfl, rfl, _⟩
          exact ⟨rfl, rfl⟩
        · rintro ⟨rfl, rfl⟩
          exact ⟨rfl, rfl, List.nil_prefix⟩
      rw [Text.holdsPair, Bool.or_eq_true, Bool.and_eq_true, beq_iff_eq, beq_iff_eq, ← start, ih]
      exact List.infix_cons_iff.symm

theorem Text.holdsPair_append {first second : Char} {front : List Char} (absent : first ∉ front)
    (back : List Char) :
    Text.holdsPair first second (front ++ back) = Text.holdsPair first second back := by
  induction front with
  | nil => rfl
  | cons c rest ih =>
    rw [List.mem_cons, not_or] at absent
    rw [List.cons_append, ← ih absent.2]
    cases rest ++ back with
    | nil => rfl
    | cons d more => simp [Text.holdsPair, Ne.symm absent.1]

namespace Glob

inductive Spells : List Char → List Char → Prop
  | nil : Spells [] []
  | char {c : Char} {pattern text : List Char} (plain : c ≠ '*') (rest : Spells pattern text) :
    Spells (c :: pattern) (c :: text)
  | star {run pattern text : List Char} (line : '\n' ∉ run) (rest : Spells pattern text) :
    Spells ('*' :: pattern) (run ++ text)

theorem accepts_iff_spells (pattern text : List Char) :
    accepts pattern text = true ↔ Spells pattern text := by
  induction pattern generalizing text with
  | nil =>
    rw [accepts_nil, List.isEmpty_iff]
    constructor
    · rintro rfl
      exact .nil
    · rintro ⟨⟩
      rfl
  | cons p pattern ih =>
    by_cases star : p = '*'
    · subst star
      rw [accepts_star_cons]
      constructor
      · rintro ⟨run, rest, rfl, line, accepted⟩
        exact .star line ((ih rest).mp accepted)
      · intro spelled
        cases spelled with
        | char plain _ => exact absurd rfl plain
        | star line rest => exact ⟨_, _, rfl, line, (ih _).mpr rest⟩
    · rw [accepts_cons star]
      constructor
      · rintro ⟨rest, rfl, accepted⟩
        exact .char star ((ih rest).mp accepted)
      · intro spelled
        cases spelled with
        | char _ rest => exact ⟨_, rfl, (ih _).mpr rest⟩
        | star _ _ => exact absurd rfl star

theorem rdropWhile_eq_iff {parts kept : List String} :
    parts.rdropWhile (· == "") = kept ↔
      kept.getLast? ≠ some "" ∧ ∃ empties, parts = kept ++ List.replicate empties "" := by
  induction parts using List.reverseRecOn with
  | nil =>
    constructor
    · rintro rfl
      exact ⟨by simp, 0, rfl⟩
    · rintro ⟨_, empties, eq⟩
      exact (List.append_eq_nil_iff.mp eq.symm).1.symm
  | append_singleton front part ih =>
    rw [List.rdropWhile_concat]
    split
    · next hollow =>
      rw [beq_iff_eq] at hollow
      subst hollow
      rw [ih]
      refine and_congr_right fun full => ⟨?_, ?_⟩
      · rintro ⟨empties, rfl⟩
        exact ⟨empties + 1, by rw [List.replicate_succ', List.append_assoc]⟩
      · rintro ⟨empties, eq⟩
        cases empties with
        | zero =>
          rw [List.replicate_zero, List.append_nil] at eq
          exact absurd (eq ▸ List.getLast?_concat) full
        | succ empties =>
          rw [List.replicate_succ', ← List.append_assoc] at eq
          exact ⟨empties, List.append_cancel_right eq⟩
    · next some =>
      rw [beq_iff_eq] at some
      constructor
      · rintro rfl
        exact ⟨by simpa using some, 0, by simp⟩
      · rintro ⟨_, empties, eq⟩
        cases empties with
        | zero => simpa using eq
        | succ empties =>
          rw [List.replicate_succ', ← List.append_assoc] at eq
          exact absurd (List.append_singleton_inj.mp eq).2 some

theorem tokens_eq_rdropWhile {criteria : String} (written : criteria ≠ "") :
    tokens criteria = (Text.split '/' criteria).rdropWhile (· == "") :=
  if_neg written

/-- The tokens of criteria, joined by slashes with some empty ones behind, are the criteria; none
holds a slash, and the last one is not empty. -/
theorem tokens_eq_iff {criteria : String} (written : criteria ≠ "") {parts : List String} :
    tokens criteria = parts ↔
      (∀ part ∈ parts, '/' ∉ part.toList) ∧ parts.getLast? ≠ some "" ∧
        ∃ empties, criteria = "/".intercalate (parts ++ List.replicate empties "") := by
  rw [tokens_eq_rdropWhile written, rdropWhile_eq_iff]
  simp only [Text.split_eq_iff]
  constructor
  · rintro ⟨full, empties, _, clear, joined⟩
    exact ⟨fun part member => clear part (List.mem_append_left _ member), full, empties, joined⟩
  · rintro ⟨clear, full, empties, joined⟩
    refine ⟨full, empties, ?_, ?_, joined⟩
    · intro none
      rw [none] at joined
      exact written joined
    · intro part member
      rcases List.mem_append.mp member with token | empty
      · exact clear part token
      · rw [List.eq_of_mem_replicate empty]
        decide

end Glob
end ResourceLibrary
