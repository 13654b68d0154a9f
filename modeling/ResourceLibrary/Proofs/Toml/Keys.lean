import Mathlib.Data.List.Induction
import ResourceLibrary.Proofs.Toml.Texts
import ResourceLibrary.Toml.Document
import ResourceLibrary.Toml.Render

/-!
Keys written and read again. Main statement: the way to a table is read from its header, if it has
no more parts than a key may have.
-/

namespace ResourceLibrary.Toml

theorem takeWhile_append_stop {α : Type} {test : α → Bool} {front rest : List α}
    (all : front.all test = true) (stop : ∀ c, rest.head? = some c → test c = false) :
    (front ++ rest).takeWhile test = front ∧ (front ++ rest).dropWhile test = rest := by
  rw [List.all_eq_true] at all
  rw [List.takeWhile_append_of_pos all, List.dropWhile_append_of_pos all]
  cases rest with
  | nil => simp
  | cons c later => simp [stop c rfl]

theorem quoteKey_cases (key : List Char) :
    (quoteKey key = key ∧ key ≠ [] ∧ key.all isBareChar = true) ∨
    quoteKey key = '"' :: (escapeLine key ++ ['"']) ∨
    (quoteKey key = '\x27' :: (key ++ ['\x27']) ∧ '\x27' ∉ key ∧ key.any isControl = false ∧
      '\n' ∉ key) := by
  simp only [quoteKey]
  split
  · next bare => exact .inl ⟨rfl, by simpa using bare⟩
  split
  · split
    · exact .inr (.inl rfl)
    · next literal =>
      simp only [Bool.or_eq_true, not_or, Bool.not_eq_true, List.any_eq_false, beq_iff_eq,
        List.contains_eq_mem, decide_eq_false_iff_not] at literal
      exact .inr (.inr ⟨rfl, literal.2, List.any_eq_false.mpr fun c member => by
        simp [literal.1 c member], fun member => (literal.1 _ member).2 rfl⟩)
  · exact .inr (.inl rfl)

theorem simpleKey?_quoteKey (key : List Char) {rest : List Char}
    (after : ∀ c, rest.head? = some c → isBareChar c = false) :
    simpleKey? (quoteKey key ++ rest) = some (String.ofList key, rest) := by
  rcases quoteKey_cases key with ⟨own, full, bare⟩ | basic | ⟨own, free, plain, line⟩
  · obtain ⟨front, behind⟩ := takeWhile_append_stop bare after
    obtain ⟨c, later, rfl⟩ := List.exists_cons_of_ne_nil full
    have first := List.all_eq_true.mp bare c (by simp)
    rw [own, simpleKey?.eq_def]
    split
    · next same =>
      cases same
      cases first
    · next same =>
      cases same
      cases first
    · rw [front, behind]
      rfl
  · rw [basic, List.cons_append, List.append_assoc, List.singleton_append, simpleKey?,
      basic?_escapeLine]
    rfl
  · rw [own, List.cons_append, List.append_assoc, List.singleton_append, simpleKey?,
      literal?_append rest free plain line]
    rfl

theorem exists_quoteKey_eq (key : List Char) :
    ∃ c later, quoteKey key = c :: later ∧ c ∉ [' ', '\t', '[', '#', '\n', '\r', byteOrderMark] := by
  rcases quoteKey_cases key with ⟨own, full, bare⟩ | basic | ⟨own, _⟩
  · obtain ⟨c, later, rfl⟩ := List.exists_cons_of_ne_nil full
    have first := List.all_eq_true.mp bare c (by simp)
    refine ⟨c, later, own, fun member => ?_⟩
    simp only [List.mem_cons, List.not_mem_nil, or_false] at member
    rcases member with rfl | rfl | rfl | rfl | rfl | rfl | rfl <;> cases first
  · exact ⟨_, _, basic, by decide⟩
  · exact ⟨_, _, own, by decide⟩

theorem skipBlanks_of_head {c : Char} (later : List Char) (blank : c ≠ ' ') (tab : c ≠ '\t') :
    skipBlanks (c :: later) = c :: later := by
  simp [skipBlanks, isBlank, blank, tab]

theorem skipBlanks_quoteKey (key rest : List Char) :
    skipBlanks (quoteKey key ++ rest) = quoteKey key ++ rest := by
  obtain ⟨c, later, own, other⟩ := exists_quoteKey_eq key
  simp only [List.mem_cons, not_or] at other
  rw [own, List.cons_append, skipBlanks_of_head _ other.1 other.2.1]

@[simp] theorem toList_keyText (key : String) : (keyText key).toList = quoteKey key.toList := by
  simp [keyText]

theorem wayText_cons_cons (key next : String) (way : List String) :
    (wayText (key :: next :: way)).toList =
      quoteKey key.toList ++ '.' :: (wayText (next :: way)).toList := by
  simp [wayText, String.toList_intercalate]

theorem exists_wayText_eq {way : List String} (long : way ≠ []) :
    ∃ c later, (wayText way).toList = c :: later ∧ c ≠ '[' := by
  obtain ⟨key, more, rfl⟩ := List.exists_cons_of_ne_nil long
  obtain ⟨c, later, written, other⟩ := exists_quoteKey_eq key.toList
  refine ⟨c, (wayText (key :: more)).toList.tail, ?_, by simp_all⟩
  cases more <;> simp [wayText, written]

theorem key?_wayText {way : List String} (long : way ≠ []) {parts : Nat} (few : way.length ≤ parts)
    (rest : List Char) (after : ∀ c, rest.head? = some c → isBareChar c = false)
    (dot : (skipBlanks rest).head? ≠ some '.') :
    key? parts ((wayText way).toList ++ rest) = some (way, skipBlanks rest) := by
  induction way generalizing parts with
  | nil => exact absurd rfl long
  | cons key way ih =>
    obtain ⟨less, rfl⟩ := Nat.exists_eq_add_one.mpr (Nat.lt_of_lt_of_le (Nat.succ_pos _) few)
    cases way with
    | nil =>
      have own : (wayText [key]).toList = quoteKey key.toList := by
        simp [wayText]
      rw [own, key?, skipBlanks_quoteKey, simpleKey?_quoteKey _ after, String.ofList_toList]
      simp only [bind, Option.bind_some]
      split
      · next same => simp [same] at dot
      · rfl
    | cons next way =>
      rw [wayText_cons_cons, List.append_assoc, key?, skipBlanks_quoteKey, List.cons_append,
        simpleKey?_quoteKey _ (by simp [isBareChar]), String.ofList_toList]
      simp only [bind, Option.bind_some, skipBlanks_of_head _ (show '.' ≠ ' ' by decide) (by decide)]
      rw [ih (by simp) (Nat.le_of_succ_le_succ few)]
      rfl

end ResourceLibrary.Toml
