import ResourceLibrary.Properties.Basic
import ResourceLibrary.Text.Split

/-!
Substitution of property values for the tokens of a text. A token opens with a dollar sign and a
brace and ends at the next closing brace. Values are not scanned again; a token whose key is unknown
stays as it is, and so does the rest of the text from a token that is never closed.
-/

namespace ResourceLibrary

def token (key : List Char) : List Char := '$' :: '\x7b' :: (key ++ ['\x7d'])

/-- Text with each closed token replaced by what `value` gives for its key. -/
def substitute (value : String → Option String) : List Char → List Char
  | '$' :: '\x7b' :: rest =>
    match _found : Text.cut? '\x7d' rest with
    | some (key, after) =>
      ((value (String.ofList key)).elim (token key) String.toList) ++ substitute value after
    | none => '$' :: '\x7b' :: rest
  | c :: rest => c :: substitute value rest
  | [] => []
termination_by text => text.length
decreasing_by
  · have := Text.length_lt_of_cut? _found
    simp only [List.length_cons]
    omega
  · simp

def Properties.resolve (properties : Properties) (text : String) : String :=
  String.ofList (substitute properties.get? text.toList)

theorem substitute_of_not_holdsPair (value : String → Option String) {text : List Char}
    (absent : Text.holdsPair '$' '\x7b' text = false) : substitute value text = text := by
  fun_induction substitute value text with
  | case1 => simp [Text.holdsPair] at absent
  | case2 => rfl
  | case3 c rest _ ih =>
    have after : Text.holdsPair '$' '\x7b' rest = false := by
      cases rest with
      | nil => rfl
      | cons next further =>
        rw [Text.holdsPair, Bool.or_eq_false_iff] at absent
        exact absent.2
    rw [ih after]
  | case4 => rfl

theorem substitute_congr {value other : String → Option String} {text : List Char}
    (alike : ∀ key : List Char, token key <:+: text →
      value (String.ofList key) = other (String.ofList key)) :
    substitute value text = substitute other text := by
  fun_induction substitute value text with
  | case1 rest key after found ih =>
    obtain ⟨rfl, _⟩ := Text.cut?_eq_some_iff.mp found
    have here : token key <:+: '$' :: '\x7b' :: (key ++ '\x7d' :: after) :=
      ⟨[], after, by simp [token]⟩
    have further : after <:+: '$' :: '\x7b' :: (key ++ '\x7d' :: after) :=
      ⟨'$' :: '\x7b' :: (key ++ ['\x7d']), [], by simp⟩
    rw [substitute, found]
    simp only
    rw [alike key here, ih fun other inside => alike other (inside.trans further)]
  | case2 rest unclosed => rw [substitute, unclosed]
  | case3 c rest plain ih =>
    rw [substitute]
    · rw [ih fun key inside => alike key (List.infix_cons inside)]
    · exact plain
  | case4 => rw [substitute]

theorem resolve_of_not_holdsPair (properties : Properties) {text : String}
    (absent : Text.holdsPair '$' '\x7b' text.toList = false) : properties.resolve text = text := by
  rw [Properties.resolve, substitute_of_not_holdsPair _ absent, String.ofList_toList]

theorem resolve_token (properties : Properties) {key : String} (closed : '\x7d' ∉ key.toList) :
    properties.resolve (String.ofList (token key.toList)) =
      (properties.get? key).getD (String.ofList (token key.toList)) := by
  have cut : Text.cut? '\x7d' (key.toList ++ ['\x7d']) = some (key.toList, []) :=
    Text.cut?_eq_some_iff.mpr ⟨rfl, closed⟩
  have rest : substitute properties.get? [] = [] := by rw [substitute]
  rw [Properties.resolve, String.toList_ofList]
  change String.ofList (substitute _ ('$' :: '\x7b' :: (key.toList ++ ['\x7d']))) = _
  rw [substitute, cut]
  simp only [String.ofList_toList, rest, List.append_nil]
  cases properties.get? key <;> simp

end ResourceLibrary
