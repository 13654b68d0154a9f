import ResourceLibrary.Proofs.Config.Merging
import ResourceLibrary.Proofs.Text.Patterns
import ResourceLibrary.Properties.Substitution

/-!
Substitution in a text put together from two. Main statements: for all properties alike, the two can
be resolved apart exactly if the second closes no token, or the first leaves none open and none
opens across the seam; the token of a key that a check accepted gives the value as it is; a text
that holds no token of a known key stays as it is.
-/

namespace ResourceLibrary

/-- What follows the opening of the token that a text leaves open when it is read from the left. -/
def opened? : List Char → Option (List Char)
  | '$' :: '\x7b' :: rest =>
    match _found : Text.cut? '\x7d' rest with
    | some (_, after) => opened? after
    | none => some rest
  | _ :: rest => opened? rest
  | [] => none
termination_by text => text.length
decreasing_by
  · have := Text.length_lt_of_cut? _found
    simp only [List.length_cons]
    omega
  · simp

/-- The dollar sign of an opening ends one text, and its brace begins the next. -/
def OpensAcross (front back : List Char) : Prop :=
  front.getLast? = some '$' ∧ back.head? = some '\x7b'

instance (front back : List Char) : Decidable (OpensAcross front back) :=
  inferInstanceAs (Decidable (_ ∧ _))

theorem OpensAcross.behind {front back : List Char} (across : OpensAcross front back)
    (first : List Char) : OpensAcross (first ++ front) back := by
  refine ⟨?_, across.2⟩
  rw [List.getLast?_append, across.1]
  rfl

theorem OpensAcross.before {front back : List Char} (across : OpensAcross front back)
    (more : List Char) : OpensAcross front (back ++ more) := by
  refine ⟨across.1, ?_⟩
  rw [List.head?_append, across.2]
  rfl

theorem not_opensAcross_dollar (front rest : List Char) : ¬OpensAcross front ('$' :: rest) := by
  rintro ⟨_, brace⟩
  cases brace

theorem token_append (key text : List Char) :
    token key ++ text = '$' :: '\x7b' :: (key ++ '\x7d' :: text) := by
  simp [token]

theorem cut?_of_closed {key : List Char} (closed : '\x7d' ∉ key) (text : List Char) :
    Text.cut? '\x7d' (key ++ '\x7d' :: text) = some (key, text) :=
  Text.cut?_eq_some_iff.mpr ⟨rfl, closed⟩

/-! What is read first: a character that opens nothing, a closed token, or one that stays open. -/

section

variable (value : String → Option String)

theorem substitute_nil : substitute value [] = [] := by
  rw [substitute]

theorem substitute_cons {c : Char} {text : List Char} (plain : ¬OpensAcross [c] text) :
    substitute value (c :: text) = c :: substitute value text := by
  rw [substitute]
  rintro rest rfl rfl
  exact plain ⟨rfl, rfl⟩

theorem substitute_token_append {key : List Char} (closed : '\x7d' ∉ key) (text : List Char) :
    substitute value (token key ++ text) =
      (value (String.ofList key)).elim (token key) String.toList ++ substitute value text := by
  rw [token_append, substitute, cut?_of_closed closed]

theorem substitute_unclosed {rest : List Char} (unclosed : '\x7d' ∉ rest) :
    substitute value ('$' :: '\x7b' :: rest) = '$' :: '\x7b' :: rest := by
  rw [substitute, Text.cut?_eq_none_iff.mpr unclosed]

end

theorem opened?_nil : opened? [] = none := by
  rw [opened?]

theorem opened?_cons {c : Char} {text : List Char} (plain : ¬OpensAcross [c] text) :
    opened? (c :: text) = opened? text := by
  rw [opened?]
  rintro rest rfl rfl
  exact plain ⟨rfl, rfl⟩

theorem opened?_token_append {key : List Char} (closed : '\x7d' ∉ key) (text : List Char) :
    opened? (token key ++ text) = opened? text := by
  rw [token_append, opened?, cut?_of_closed closed]

theorem opened?_unclosed {rest : List Char} (unclosed : '\x7d' ∉ rest) :
    opened? ('$' :: '\x7b' :: rest) = some rest := by
  rw [opened?, Text.cut?_eq_none_iff.mpr unclosed]

/-- Induction on a text as it is read from the left. -/
@[elab_as_elim]
theorem reading_induction {motive : List Char → Prop} (nil : motive [])
    (plain : ∀ c text, ¬OpensAcross [c] text → motive text → motive (c :: text))
    (token : ∀ key text, '\x7d' ∉ key → motive text → motive (token key ++ text))
    (unclosed : ∀ rest, '\x7d' ∉ rest → motive ('$' :: '\x7b' :: rest)) (text : List Char) :
    motive text := by
  fun_induction opened? text with
  | case1 rest key after found ih =>
    obtain ⟨rfl, closed⟩ := Text.cut?_eq_some_iff.mp found
    rw [← token_append]
    exact token key after closed ih
  | case2 rest missing => exact unclosed rest (Text.cut?_eq_none_iff.mp missing)
  | case3 c rest apart ih =>
    refine plain c rest (fun ⟨dollar, brace⟩ => ?_) ih
    obtain ⟨further, rfl⟩ := List.head?_eq_some_iff.mp brace
    cases dollar
    exact apart further rfl rfl
  | case4 => exact nil

/-! Two texts, one after the other. -/

theorem read_append {front back : List Char} (closed : opened? front = none)
    (apart : ¬OpensAcross front back) :
    opened? (front ++ back) = opened? back ∧
      ∀ value, substitute value (front ++ back) =
        substitute value front ++ substitute value back := by
  induction front using reading_induction with
  | nil => exact ⟨rfl, fun value => by rw [substitute_nil]; rfl⟩
  | plain c text plain ih =>
    rw [opened?_cons plain] at closed
    -- Only a last character could open a token that it does not open in its own text.
    have further : ¬OpensAcross [c] (text ++ back) := by
      cases text with
      | nil => exact apart
      | cons d text => exact plain
    obtain ⟨opens, substitutes⟩ := ih closed fun across => apart (across.behind [c])
    refine ⟨?_, fun value => ?_⟩
    · rw [List.cons_append, opened?_cons further, opens]
    · rw [List.cons_append, substitute_cons value further, substitute_cons value plain,
        substitutes, List.cons_append]
  | token key text whole ih =>
    rw [opened?_token_append whole] at closed
    obtain ⟨opens, substitutes⟩ := ih closed fun across => apart (across.behind _)
    refine ⟨?_, fun value => ?_⟩
    · rw [List.append_assoc, opened?_token_append whole, opens]
    · rw [List.append_assoc, substitute_token_append value whole,
        substitute_token_append value whole, substitutes, List.append_assoc]
  | unclosed rest missing =>
    rw [opened?_unclosed missing] at closed
    cases closed

theorem substitute_append (value : String → Option String) {front back : List Char}
    (closed : opened? front = none) (apart : ¬OpensAcross front back) :
    substitute value (front ++ back) = substitute value front ++ substitute value back :=
  (read_append closed apart).2 value

theorem opened?_eq_some_iff {text rest : List Char} :
    opened? text = some rest ↔
      ∃ before, text = before ++ '$' :: '\x7b' :: rest ∧ opened? before = none ∧ '\x7d' ∉ rest := by
  constructor
  · intro opens
    induction text using reading_induction with
    | nil =>
      rw [opened?_nil] at opens
      cases opens
    | plain c text plain ih =>
      rw [opened?_cons plain] at opens
      obtain ⟨before, rfl, closed, unclosed⟩ := ih opens
      refine ⟨c :: before, rfl, ?_, unclosed⟩
      rwa [opened?_cons fun across => plain (across.before _)]
    | token key text whole ih =>
      rw [opened?_token_append whole] at opens
      obtain ⟨before, rfl, closed, unclosed⟩ := ih opens
      exact ⟨token key ++ before, by simp, by rwa [opened?_token_append whole], unclosed⟩
    | unclosed other missing =>
      rw [opened?_unclosed missing] at opens
      cases opens
      exact ⟨[], rfl, opened?_nil, missing⟩
  · rintro ⟨before, rfl, closed, unclosed⟩
    rw [(read_append closed (not_opensAcross_dollar _ _)).1, opened?_unclosed unclosed]

theorem opened?_of_append_dollar {text : List Char} (closed : opened? (text ++ ['$']) = none) :
    opened? text = none := by
  cases opens : opened? text with
  | none => rfl
  | some rest =>
    obtain ⟨before, rfl, outside, unclosed⟩ := opened?_eq_some_iff.mp opens
    have still : opened? (before ++ '$' :: '\x7b' :: rest ++ ['$']) = some (rest ++ ['$']) :=
      opened?_eq_some_iff.mpr ⟨before, by simp, outside, by simp [unclosed]⟩
    rw [closed] at still
    cases still

/-- Where a text leaves a token open, or opens one together with the next, that token begins behind
a part that leaves nothing open. -/
theorem exists_opening {front back : List Char}
    (reached : opened? front = none → OpensAcross front back) :
    ∃ before begun rest, front = before ++ '$' :: begun ∧ begun ++ back = '\x7b' :: rest ∧
      opened? before = none ∧ '\x7d' ∉ begun := by
  cases opens : opened? front with
  | some rest =>
    obtain ⟨before, rfl, closed, unclosed⟩ := opened?_eq_some_iff.mp opens
    exact ⟨before, '\x7b' :: rest, rest ++ back, rfl, rfl, closed, by simp [unclosed]⟩
  | none =>
    obtain ⟨dollar, brace⟩ := reached opens
    obtain ⟨before, rfl⟩ := List.getLast?_eq_some_iff.mp dollar
    obtain ⟨rest, rfl⟩ := List.head?_eq_some_iff.mp brace
    exact ⟨before, [], rest, rfl, rfl, opened?_of_append_dollar opens, by simp⟩

section

variable (value : String → Option String)

theorem substitute_none (text : List Char) : substitute (fun _ => none) text = text := by
  induction text using reading_induction with
  | nil => exact substitute_nil _
  | plain c text plain ih => rw [substitute_cons _ plain, ih]
  | token key text whole ih =>
    rw [substitute_token_append _ whole, ih]
    rfl
  | unclosed rest missing => exact substitute_unclosed _ missing

theorem substitute_of_unknown {text : List Char}
    (unknown : ∀ key, token key <:+: text → value (String.ofList key) = none) :
    substitute value text = text :=
  (substitute_congr unknown).trans (substitute_none text)

theorem substitute_of_not_mem {text : List Char} (unclosed : '\x7d' ∉ text) :
    substitute value text = text :=
  substitute_of_unknown value fun key inside =>
    absurd (inside.subset (by simp [token])) unclosed

theorem substitute_append_unclosed {front back : List Char} (closed : opened? front = none)
    (unclosed : '\x7d' ∉ back) (apart : ¬OpensAcross front back) :
    substitute value (front ++ back) = substitute value front ++ back := by
  rw [substitute_append value closed apart, substitute_of_not_mem value unclosed]

theorem substitute_between {before key : List Char} (closed : opened? before = none)
    (whole : '\x7d' ∉ key) (after : List Char) :
    substitute value (before ++ token key ++ after) =
      substitute value before ++ (value (String.ofList key)).elim (token key) String.toList ++
        substitute value after := by
  have apart : ¬OpensAcross before (token key ++ after) := not_opensAcross_dollar _ _
  rw [List.append_assoc, substitute_append value closed apart,
    substitute_token_append value whole, List.append_assoc]

end

namespace Properties

theorem resolve_append_eq_iff (properties : Properties) (front back : String) :
    properties.resolve (front ++ back) = properties.resolve front ++ properties.resolve back ↔
      substitute properties.get? (front.toList ++ back.toList) =
        substitute properties.get? front.toList ++ substitute properties.get? back.toList := by
  rw [resolve, resolve, resolve, ← String.ofList_append, String.toList_append, String.ofList_inj]

/-- For all properties alike, two texts can be resolved apart exactly if the second closes no token,
or the first leaves none open and none opens across the seam. -/
theorem resolve_apart_iff (front back : String) :
    (∀ properties : Properties, properties.resolve (front ++ back) =
      properties.resolve front ++ properties.resolve back) ↔
      '\x7d' ∉ back.toList ∨
        (opened? front.toList = none ∧ ¬OpensAcross front.toList back.toList) := by
  simp only [resolve_append_eq_iff]
  generalize front.toList = front
  generalize back.toList = back
  by_cases apart : opened? front = none ∧ ¬OpensAcross front back
  · exact iff_of_true (fun properties => substitute_append _ apart.1 apart.2) (.inr apart)
  rw [or_iff_left apart]
  rw [not_and, Classical.not_not] at apart
  obtain ⟨before, begun, rest, rfl, met, closed, unclosed⟩ := exists_opening apart
  have whole : before ++ '$' :: begun ++ back = before ++ '$' :: '\x7b' :: rest := by simp [met]
  have mem_iff : '\x7d' ∈ back ↔ '\x7d' ∈ rest := by
    have both : '\x7d' ∈ begun ++ back ↔ '\x7d' ∈ '\x7b' :: rest := by rw [met]
    simpa [unclosed] using both
  have first (value : String → Option String) :
      substitute value (before ++ '$' :: begun) = substitute value before ++ '$' :: begun :=
    substitute_append_unclosed value closed (by simp [unclosed]) (not_opensAcross_dollar _ _)
  constructor
  · intro law closing
    obtain ⟨key, after, rfl, clear⟩ := List.eq_append_cons_of_mem (mem_iff.mp closing)
    -- A value that does not begin as the token does tells the two sides apart.
    have both := law (Table.insert ∅ (String.ofList key) "\x7d")
    rw [whole, ← token_append, ← List.append_assoc, substitute_between _ closed clear, first,
      Table.get?_insert_self] at both
    simp at both
  · intro clear properties
    have absent : '\x7d' ∉ '$' :: '\x7b' :: rest := by simpa [← mem_iff] using clear
    rw [whole, substitute_append_unclosed _ closed absent (not_opensAcross_dollar _ _), first,
      substitute_of_not_mem _ clear, ← met]
    simp

theorem ofList_token (key : String) :
    String.ofList (token key.toList) = "$\x7b" ++ key ++ "\x7d" := by
  rw [← String.toList_inj]
  simp [token]

theorem resolve_of_unclosed (properties : Properties) {text : String}
    (unclosed : '\x7d' ∉ text.toList) : properties.resolve text = text := by
  rw [resolve, substitute_of_not_mem _ unclosed, String.ofList_toList]

theorem resolve_empty (text : String) : resolve ∅ text = text := by
  change String.ofList (substitute (fun _ => none) text.toList) = text
  rw [substitute_none, String.ofList_toList]

theorem not_mem_of_accepted {accepted : Properties} {key : String}
    (passed : Config.checkProperties accepted = .ok ()) (held : accepted.contains key = true) :
    '\x7d' ∉ key.toList := by
  obtain ⟨value, found⟩ := Option.isSome_iff_exists.mp held
  have proper := Config.checkProperties_eq_ok_iff.mp passed key value found
  rw [Config.isPropertyKey, Bool.and_eq_true] at proper
  simpa using proper.2

/-- A text is resolved part by part and read once: behind a part that leaves no token open, the rest
is resolved by itself unless the seam opens one. The token of a key that a check accepted gives the
value as it is. A text in which no token opens, a token that is never closed and one whose key is
unknown stay as they are, and so does every text if there are no properties. -/
theorem resolve_part_by_part (properties : Properties) :
    (∀ front back : String, opened? front.toList = none →
      ¬OpensAcross front.toList back.toList →
      properties.resolve (front ++ back) = properties.resolve front ++ properties.resolve back) ∧
    (∀ (accepted : Properties) (key value : String), Config.checkProperties accepted = .ok () →
      accepted.contains key = true → properties.get? key = some value →
      properties.resolve ("$\x7b" ++ key ++ "\x7d") = value) ∧
    (∀ text : String, ¬['$', '\x7b'] <:+: text.toList → properties.resolve text = text) ∧
    (∀ rest : String, '\x7d' ∉ rest.toList →
      properties.resolve ("$\x7b" ++ rest) = "$\x7b" ++ rest) ∧
    (∀ key : String, '\x7d' ∉ key.toList → properties.get? key = none →
      properties.resolve ("$\x7b" ++ key ++ "\x7d") = "$\x7b" ++ key ++ "\x7d") ∧
    ∀ text : String, resolve ∅ text = text := by
  refine ⟨?compose, ?known, ?plain, ?unclosed, ?unknown, resolve_empty⟩
  case compose =>
    intro front back closed apart
    exact (properties.resolve_append_eq_iff front back).mpr (substitute_append _ closed apart)
  case known =>
    intro accepted key value passed held found
    rw [← ofList_token, resolve_token _ (not_mem_of_accepted passed held), found]
    rfl
  case plain =>
    intro text absent
    rw [← Text.holdsPair_iff, Bool.not_eq_true] at absent
    exact resolve_of_not_holdsPair properties absent
  case unclosed =>
    intro rest unclosed
    exact properties.resolve_of_unclosed (by simpa using unclosed)
  case unknown =>
    intro key closed missing
    rw [← ofList_token, resolve_token _ closed, missing]
    rfl

def nested : Properties := Table.ofList [("dist", "/opt/$\x7bname\x7d"), ("name", "core")]

theorem resolve_part_by_part_nested :
    Config.checkProperties nested = .ok () ∧ nested.contains "dist" = true ∧
      nested.get? "dist" = some "/opt/$\x7bname\x7d" ∧ nested.get? "home" = none ∧
      opened? "$\x7bdist\x7d".toList = none ∧ opened? "$\x7bhome\x7d".toList = none ∧
      nested.resolve "-" = "-" ∧
      nested.resolve ("$\x7bdist\x7d" ++ ("$\x7bhome\x7d" ++ "$\x7bname")) =
        "/opt/$\x7bname\x7d" ++ ("$\x7bhome\x7d" ++ "$\x7bname") := by
  obtain ⟨compose, known, plain, unclosed, unknown, _⟩ := resolve_part_by_part nested
  have passed : Config.checkProperties nested = .ok () := rfl
  have dist : nested.resolve "$\x7bdist\x7d" = "/opt/$\x7bname\x7d" :=
    known nested "dist" _ passed rfl rfl
  have home : nested.resolve "$\x7bhome\x7d" = "$\x7bhome\x7d" := unknown "home" (by decide) rfl
  have name : nested.resolve "$\x7bname" = "$\x7bname" := unclosed "name" (by decide)
  have first : opened? "$\x7bdist\x7d".toList = none := by cbv
  have second : opened? "$\x7bhome\x7d".toList = none := by cbv
  refine ⟨passed, rfl, rfl, rfl, first, second, plain "-" (by decide), ?_⟩
  rw [compose _ _ first (by decide), compose _ _ second (by decide), dist, home, name]

end Properties
end ResourceLibrary
