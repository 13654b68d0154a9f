import Mathlib.Data.List.TakeWhile
import ResourceLibrary.Coordinate
import ResourceLibrary.Proofs.Text.Patterns

/-!
Coordinates as they are spelled. A text is a coordinate exactly when it is spelled by parts that can
be told apart. Main statement: what was read is written as it was spelled, without its entry, and
reads back; parts that are put together read back exactly when they can be told apart.
-/

namespace ResourceLibrary.Coordinate

/-- What stands before the first exclamation mark and, if no hash mark is among it, from the first
hash mark on. -/
def outsideEntry (cs : List Char) : List Char :=
  let before := cs.takeWhile (· ≠ '!')
  if '#' ∈ before then before else before ++ cs.dropWhile (· ≠ '#')

def unmarked (cs : List Char) : List Char := if cs.getLast? = some '#' then cs.dropLast else cs

/-- Parts of a coordinate; the version is all that stands behind a hash mark. -/
structure Parts where
  scheme : List Char
  kind : List Char
  group : List Char
  name : List Char
  version : Option (List Char)

namespace Parts

def specific (parts : Parts) : List Char := parts.kind ++ ':' :: (parts.group ++ '/' :: parts.name)

def front (parts : Parts) : List Char := parts.scheme ++ ':' :: parts.specific

def spelling (parts : Parts) : List Char := parts.front ++ parts.version.elim [] ('#' :: ·)

def coordinate (parts : Parts) : Coordinate :=
  ofParts (String.ofList parts.scheme) (String.ofList parts.kind) (String.ofList parts.group)
    (String.ofList parts.name) (parts.version.map String.ofList)

/-- The parts can be told apart where they are spelled in a row. -/
structure Legible (parts : Parts) : Prop where
  scheme : parts.scheme ≠ [] ∧ ':' ∉ parts.scheme
  hash : '#' ∉ parts.specific
  kind : ':' ∉ parts.kind
  name : parts.name ≠ [] ∧ '/' ∉ parts.name
  twice : Text.holdsPair '/' '/' parts.specific = false
  joint : Text.holdsPair ':' '/' parts.specific = false
  version : ∀ c ∈ parts.version.getD [], c ∉ barred

end Parts

theorem cut?_version {specific : List Char} (clear : '#' ∉ specific) (version : Option (List Char)) :
    Text.cut? '#' (specific ++ version.elim [] ('#' :: ·)) = version.map (specific, ·) := by
  cases version with
  | none => simpa using Text.cut?_eq_none_iff.mpr clear
  | some version => exact Text.cut?_eq_some_iff.mpr ⟨rfl, clear⟩

theorem exists_version (rest : List Char) :
    ∃ (specific : List Char) (version : Option (List Char)),
      rest = specific ++ version.elim [] ('#' :: ·) ∧ '#' ∉ specific := by
  cases marked : Text.cut? '#' rest with
  | none => exact ⟨rest, none, by simp, Text.cut?_eq_none_iff.mp marked⟩
  | some both =>
    obtain ⟨whole, clear⟩ := Text.cut?_eq_some_iff.mp marked
    exact ⟨both.1, some both.2, whole, clear⟩

theorem readParts_eq_ok_iff {scheme specific : List Char} {version : Option (List Char)}
    (single : ':' ∉ scheme) (clear : '#' ∉ specific) {coordinate : Coordinate} :
    readParts (scheme ++ ':' :: specific ++ version.elim [] ('#' :: ·)) = .ok coordinate ↔
      scheme ≠ [] ∧ Text.holdsPair '/' '/' specific = false ∧
      Text.holdsPair ':' '/' specific = false ∧ specific.getLast? ≠ some '/' ∧
      (∀ c ∈ version.getD [], c ∉ barred) ∧
      ∃ head name kind group, Text.cutLast? '/' specific = some (head, name) ∧
        Text.cut? ':' head = some (kind, group) ∧
        coordinate = ofParts (String.ofList scheme) (String.ofList kind) (String.ofList group)
          (String.ofList name) (version.map String.ofList) := by
  have schemed : Text.cut? ':' (scheme ++ ':' :: specific ++ version.elim [] ('#' :: ·)) =
      some (scheme, specific ++ version.elim [] ('#' :: ·)) :=
    Text.cut?_eq_some_iff.mpr ⟨by simp, single⟩
  have marked := cut?_version clear version
  simp only [readParts, bind, Except.bind, schemed, marked]
  cases version
  all_goals
    simp only [Option.map_none, Option.map_some, Option.elim_none, List.append_nil]
    cases named : Text.cutLast? '/' specific with
    | none => grind
    | some cut => grind

theorem readParts_spelling {parts : Parts} (legible : parts.Legible) :
    readParts parts.spelling = .ok parts.coordinate := by
  have last : parts.specific.getLast? ≠ some '/' := by
    intro trailing
    have ends : (parts.kind ++ ':' :: (parts.group ++ ['/'])) ++ parts.name = parts.specific := by
      simp [Parts.specific]
    rw [← ends, List.getLast?_append_of_ne_nil _ legible.name.1] at trailing
    exact legible.name.2 (List.mem_of_getLast? trailing)
  refine (readParts_eq_ok_iff legible.scheme.2 legible.hash).mpr
    ⟨legible.scheme.1, legible.twice, legible.joint, last, legible.version,
      parts.kind ++ ':' :: parts.group, parts.name, parts.kind, parts.group, ?_, ?_, rfl⟩
  · exact Text.cutLast?_eq_some_iff.mpr ⟨by simp [Parts.specific], legible.name.2⟩
  · exact Text.cut?_eq_some_iff.mpr ⟨rfl, legible.kind⟩

theorem exists_parts_of_readParts {cs : List Char} {coordinate : Coordinate}
    (read : readParts cs = .ok coordinate) :
    ∃ parts : Parts, parts.Legible ∧ cs = parts.spelling ∧ coordinate = parts.coordinate := by
  cases schemed : Text.cut? ':' cs with
  | none => simp [readParts, schemed] at read
  | some both =>
    obtain ⟨scheme, rest⟩ := both
    obtain ⟨rfl, single⟩ := Text.cut?_eq_some_iff.mp schemed
    obtain ⟨specific, version, rfl, clear⟩ := exists_version rest
    rw [← List.cons_append, ← List.append_assoc] at read ⊢
    obtain ⟨full, twice, joint, last, legal, head, name, kind, group, named, typed, rfl⟩ :=
      (readParts_eq_ok_iff single clear).mp read
    obtain ⟨rfl, slash⟩ := Text.cutLast?_eq_some_iff.mp named
    obtain ⟨rfl, colon⟩ := Text.cut?_eq_some_iff.mp typed
    have split : (kind ++ ':' :: group) ++ '/' :: name = kind ++ ':' :: (group ++ '/' :: name) := by
      simp
    have inner : name ≠ [] := by
      rintro rfl
      exact last List.getLast?_concat
    rw [split] at clear twice joint ⊢
    exact ⟨⟨scheme, kind, group, name, version⟩,
      ⟨⟨full, single⟩, clear, colon, ⟨inner, slash⟩, twice, joint, legal⟩, rfl, rfl⟩

section
variable {sep : Char} {before : List Char} (clear : sep ∉ before)
include clear

theorem decide_ne_of_not_mem : ∀ c ∈ before, decide (c ≠ sep) = true := fun _ member =>
  decide_eq_true fun same => clear (same ▸ member)

theorem takeWhile_of_not_mem : before.takeWhile (· ≠ sep) = before :=
  List.takeWhile_eq_self_iff.mpr (decide_ne_of_not_mem clear)

theorem dropWhile_of_not_mem : before.dropWhile (· ≠ sep) = [] :=
  List.dropWhile_eq_nil_iff.mpr (decide_ne_of_not_mem clear)

theorem takeWhile_of_cut (after : List Char) :
    (before ++ sep :: after).takeWhile (· ≠ sep) = before := by
  rw [List.takeWhile_append_of_pos (decide_ne_of_not_mem clear)]
  simp

theorem dropWhile_of_cut (after : List Char) :
    (before ++ sep :: after).dropWhile (· ≠ sep) = sep :: after := by
  rw [List.dropWhile_append_of_pos (decide_ne_of_not_mem clear)]
  simp

end

theorem takeWhile_of_version {front : List Char} (clear : '#' ∉ front)
    (version : Option (List Char)) :
    (front ++ version.elim [] ('#' :: ·)).takeWhile (· ≠ '#') = front := by
  cases version with
  | none => rw [Option.elim_none, List.append_nil, takeWhile_of_not_mem clear]
  | some version => exact takeWhile_of_cut clear version

theorem withoutEntry_eq (cs : List Char) : withoutEntry cs = outsideEntry cs := by
  rw [withoutEntry, outsideEntry]
  cases marked : Text.cut? '!' cs with
  | none =>
    rw [takeWhile_of_not_mem (Text.cut?_eq_none_iff.mp marked)]
    by_cases versioned : '#' ∈ cs
    · rw [if_pos versioned]
    · rw [if_neg versioned, dropWhile_of_not_mem versioned, List.append_nil]
  | some both =>
    obtain ⟨before, after⟩ := both
    obtain ⟨rfl, clear⟩ := Text.cut?_eq_some_iff.mp marked
    rw [takeWhile_of_cut clear after]
    simp only [List.contains_iff_mem]
    by_cases earlier : '#' ∈ before
    · rw [if_pos earlier, if_pos earlier]
    · rw [if_neg earlier, if_neg earlier]
      cases later : Text.cut? '#' after with
      | none =>
        have nowhere : '#' ∉ before ++ '!' :: after := by
          simp [earlier, Text.cut?_eq_none_iff.mp later]
        rw [dropWhile_of_not_mem nowhere, List.append_nil]
      | some pair =>
        obtain ⟨entry, version⟩ := pair
        obtain ⟨rfl, inner⟩ := Text.cut?_eq_some_iff.mp later
        have outer : '#' ∉ before ++ '!' :: entry := by simp [earlier, inner]
        have behind := dropWhile_of_cut outer version
        rw [List.append_assoc, List.cons_append] at behind
        rw [behind]

theorem not_mem_takeWhile_outsideEntry (cs : List Char) :
    '!' ∉ (outsideEntry cs).takeWhile (· ≠ '#') := by
  have front : '!' ∉ cs.takeWhile (· ≠ '!') := fun member => by
    simpa using List.mem_takeWhile_imp member
  rw [outsideEntry]
  split
  · exact fun member => front (List.takeWhile_subset _ member)
  · next absent =>
    have stop : (cs.dropWhile (· ≠ '#')).takeWhile (· ≠ '#') = [] := by
      rw [List.takeWhile_eq_nil_iff]
      intro inside
      exact List.dropWhile_get_zero_not _ _ inside
    rw [List.takeWhile_append_of_pos (decide_ne_of_not_mem absent), stop, List.append_nil]
    exact front

theorem outsideEntry_of_not_mem {cs : List Char} (clear : '!' ∉ cs) : outsideEntry cs = cs := by
  rw [← withoutEntry_eq, withoutEntry_of_not_mem clear]

theorem parse_eq_ok_iff {urn : String} {coordinate : Coordinate} :
    parse urn = .ok coordinate ↔
      ∃ parts : Parts, parts.Legible ∧ outsideEntry urn.toList = parts.spelling ∧
        isScheme (String.ofList parts.scheme) = true ∧ coordinate = parts.coordinate := by
  rw [← withoutEntry_eq]
  constructor
  · intro read
    have known := isScheme_of_parse read
    unfold parse parseAny at read
    cases spelled : readParts (withoutEntry urn.toList) with
    | error fault => simp [spelled] at read
    | ok found =>
      obtain ⟨parts, legible, left, rfl⟩ := exists_parts_of_readParts spelled
      simp only [spelled] at read
      split at read
      · cases read
        exact ⟨parts, legible, left, known, rfl⟩
      · cases read
  · rintro ⟨parts, legible, left, known, rfl⟩
    have known : isScheme parts.coordinate.scheme = true := known
    simp [parse, parseAny, left, readParts_spelling legible, known]

theorem clear_of_isScheme {scheme : List Char} (known : isScheme (String.ofList scheme) = true) :
    scheme ≠ [] ∧ ':' ∉ scheme ∧ '#' ∉ scheme ∧ '!' ∉ scheme := by
  have member : String.ofList scheme ∈ schemes := by simpa [isScheme] using known
  have listed : ∀ text ∈ schemes,
      text.toList ≠ [] ∧ ':' ∉ text.toList ∧ '#' ∉ text.toList ∧ '!' ∉ text.toList := by decide
  simpa using listed _ member

namespace Parts
variable {parts : Parts} (legible : parts.Legible)

def written (parts : Parts) : Parts := { parts with version := parts.version.filter (· ≠ []) }

theorem coordinate_written (parts : Parts) : parts.written.coordinate = parts.coordinate := by
  obtain ⟨scheme, kind, group, name, version⟩ := parts
  rcases version with _ | _ | ⟨c, cs⟩ <;> simp [written, coordinate, ofParts, Option.filter]

include legible

theorem Legible.written : parts.written.Legible := by
  refine ⟨legible.scheme, legible.hash, legible.kind, legible.name, legible.twice, legible.joint, ?_⟩
  have legal := legible.version
  rw [Parts.written]
  rcases given : parts.version with _ | _ | ⟨c, cs⟩
  · simp
  · simp [Option.filter]
  · simpa [given, Option.filter] using legal

theorem Legible.group_ne_nil : parts.group ≠ [] := by
  intro empty
  have pair : [':', '/'] <:+: parts.specific := ⟨parts.kind, parts.name, by simp [specific, empty]⟩
  rw [← Text.holdsPair_iff, legible.joint] at pair
  cases pair

theorem toList_text : parts.coordinate.text.toList = parts.written.spelling := by
  have group := legible.group_ne_nil
  obtain ⟨scheme, kind, group, name, version⟩ := parts
  rcases version with _ | _ | ⟨c, cs⟩ <;>
    simp_all [coordinate, ofParts, text, path, Parts.written, spelling, front, specific,
      Option.filter]

theorem unmarked_spelling : unmarked parts.spelling = parts.written.spelling := by
  have last : parts.front.getLast? ≠ some '#' := by
    have same : parts.front = (parts.scheme ++ [':']) ++ parts.specific := by simp [front]
    rw [same, List.getLast?_append_of_ne_nil _ (by simp [specific])]
    exact fun mark => legible.hash (List.mem_of_getLast? mark)
  rcases given : parts.version with _ | _ | ⟨c, cs⟩
  · have spelled : parts.spelling = parts.front := by simp [spelling, given]
    rw [spelled, unmarked, if_neg last]
    simp [spelling, front, specific, Parts.written, given]
  · have spelled : parts.spelling = parts.front ++ ['#'] := by simp [spelling, given]
    rw [spelled, unmarked, if_pos (by simp), List.dropLast_concat]
    simp [spelling, front, specific, Parts.written, given, Option.filter]
  · have spelled : parts.spelling = (parts.front ++ ['#']) ++ (c :: cs) := by simp [spelling, given]
    have legal := legible.version
    rw [given] at legal
    rw [unmarked, if_neg]
    · simp [spelling, front, specific, Parts.written, given, Option.filter]
    · rw [spelled, List.getLast?_append_of_ne_nil _ (by simp)]
      exact fun mark => legal _ (List.mem_of_getLast? mark) (by decide)

theorem parse_text_of_legible (known : isScheme (String.ofList parts.scheme) = true)
    (clear : '!' ∉ parts.specific) :
    parse parts.coordinate.text = .ok parts.coordinate := by
  have written := legible.written
  have free : '!' ∉ parts.written.spelling := by
    intro member
    rw [spelling, List.mem_append] at member
    rcases member with front | version
    · have inner := (clear_of_isScheme known).2.2.2
      simp [Parts.front, Parts.specific, Parts.written] at front clear
      tauto
    · cases given : parts.written.version with
      | none => simp [given] at version
      | some text =>
        have legal := written.version '!'
        simp only [given, Option.elim_some, List.mem_cons, Option.getD_some] at version legal
        exact legal (version.resolve_left (by decide)) (by decide)
  refine parse_eq_ok_iff.mpr ⟨parts.written, written, ?_, known, parts.coordinate_written.symm⟩
  rw [toList_text legible, outsideEntry_of_not_mem free]

end Parts

/-- Parts that can be told apart in the text of the coordinate that they are put together to. -/
structure Separable (scheme kind group name : String) (version : Option String) : Prop where
  known : isScheme scheme = true
  single : ':' ∉ kind.toList
  clear : ∀ part ∈ [kind, group, name], '#' ∉ part.toList ∧ '!' ∉ part.toList
  grouped : group ≠ ""
  named : name ≠ ""
  slash : '/' ∉ name.toList
  twice : ¬['/', '/'] <:+: (kind ++ ":" ++ group ++ "/" ++ name).toList
  joint : ¬[':', '/'] <:+: (kind ++ ":" ++ group ++ "/" ++ name).toList
  legal : ∀ text ∈ version, ∀ c ∈ text.toList, c ∉ barred

theorem separable_iff {scheme kind group name : String} {version : Option String} :
    Separable scheme kind group name version ↔
      ∃ parts : Parts, parts.Legible ∧ '!' ∉ parts.specific ∧
        isScheme (String.ofList parts.scheme) = true ∧
        ofParts scheme kind group name version = parts.coordinate := by
  constructor
  · intro separable
    obtain ⟨known, single, clear, grouped, named, slash, twice, joint, legal⟩ := separable
    have specific : (kind ++ ":" ++ group ++ "/" ++ name).toList =
        kind.toList ++ ':' :: (group.toList ++ '/' :: name.toList) := by simp
    rw [specific, ← Text.holdsPair_iff, Bool.not_eq_true] at twice joint
    simp only [List.mem_cons, List.not_mem_nil, or_false, forall_eq_or_imp, forall_eq] at clear
    refine ⟨⟨scheme.toList, kind.toList, group.toList, name.toList, version.map String.toList⟩,
      ⟨?_, ?_, single, ⟨by simpa using named, slash⟩, twice, joint, ?_⟩, ?_, by simpa using known,
      by simp [Parts.coordinate, Function.comp_def]⟩
    · have outer := clear_of_isScheme
        (by simpa using known : isScheme (String.ofList scheme.toList) = true)
      exact ⟨outer.1, outer.2.1⟩
    · simp [Parts.specific, clear]
    · cases version with
      | none => simp
      | some text => simpa using legal
    · simp [Parts.specific, clear]
  · rintro ⟨parts, legible, clear, known, same⟩
    have grouped := legible.group_ne_nil
    obtain ⟨scheme, kind, group, name, version⟩ := parts
    simp only [Parts.coordinate, ofParts, Coordinate.mk.injEq] at same
    obtain ⟨rfl, rfl, rfl, rfl, versions⟩ := same
    have specific : (String.ofList kind ++ ":" ++ String.ofList group ++ "/" ++
        String.ofList name).toList = kind ++ ':' :: (group ++ '/' :: name) := by simp
    have hash := legible.hash
    simp only [Parts.specific, List.mem_append, List.mem_cons, not_or] at hash clear
    constructor
    · exact known
    · simpa using legible.kind
    · simp [hash, clear]
    · simpa using grouped
    · simpa using legible.name.1
    · simpa using legible.name.2
    · rw [specific, ← Text.holdsPair_iff, Bool.not_eq_true]
      exact legible.twice
    · rw [specific, ← Text.holdsPair_iff, Bool.not_eq_true]
      exact legible.joint
    · rintro text given c member
      have some : (text != "") = true := by
        rw [bne_iff_ne]
        rintro rfl
        simp at member
      rw [Option.mem_def.mp given, Option.filter_some, if_pos some, eq_comm,
        Option.filter_eq_some_iff, Option.map_eq_some_iff] at versions
      obtain ⟨⟨spelled, rfl, rfl⟩, _⟩ := versions
      exact legible.version c (by simpa using member)

/-- What was read is written as it was spelled outside its entry, without a hash mark that nothing
follows, and reads back. Parts that are put together read back exactly when they can be told apart. -/
theorem coordinate_reads_back :
    (∀ {urn : String} {coordinate : Coordinate}, parse urn = .ok coordinate →
      parse coordinate.text = .ok coordinate ∧
        coordinate.text.toList = unmarked (outsideEntry urn.toList)) ∧
    ∀ (scheme kind group name : String) (version : Option String),
      parse (ofParts scheme kind group name version).text =
          .ok (ofParts scheme kind group name version) ↔
        Separable scheme kind group name version := by
  have spelled : ∀ {urn : String} {coordinate : Coordinate}, parse urn = .ok coordinate →
      ∃ parts : Parts, parts.Legible ∧ '!' ∉ parts.specific ∧
        isScheme (String.ofList parts.scheme) = true ∧ coordinate = parts.coordinate ∧
        coordinate.text.toList = unmarked (outsideEntry urn.toList) := by
    intro urn coordinate read
    obtain ⟨parts, legible, left, known, rfl⟩ := parse_eq_ok_iff.mp read
    refine ⟨parts, legible, ?_, known, rfl, ?_⟩
    · have clear := not_mem_takeWhile_outsideEntry urn.toList
      have unhashed : '#' ∉ parts.front := by
        simp [Parts.front, (clear_of_isScheme known).2.2.1, legible.hash]
      rw [left, Parts.spelling, takeWhile_of_version unhashed] at clear
      exact fun member => clear (by simp [Parts.front, member])
    · rw [left, Parts.unmarked_spelling legible, Parts.toList_text legible]
  constructor
  · intro urn coordinate read
    obtain ⟨parts, legible, clear, known, rfl, text⟩ := spelled read
    exact ⟨Parts.parse_text_of_legible legible known clear, text⟩
  · intro scheme kind group name version
    rw [separable_iff]
    constructor
    · intro read
      obtain ⟨parts, legible, clear, known, same, _⟩ := spelled read
      exact ⟨parts, legible, clear, known, same⟩
    · rintro ⟨parts, legible, clear, known, same⟩
      rw [same]
      exact Parts.parse_text_of_legible legible known clear

theorem coordinate_reads_back_core :
    let core := ofParts "link" "jar" "acme" "core" none
    parse "link:jar:acme/core!/META-INF/x.xml#" = .ok core ∧ core.text = "link:jar:acme/core" ∧
      parse core.text = .ok core := by
  intro core
  have read : parse "link:jar:acme/core!/META-INF/x.xml#" = .ok core := by decide
  obtain ⟨again, text⟩ := coordinate_reads_back.1 read
  refine ⟨read, ?_, again⟩
  rw [← String.toList_inj, text]
  decide

end ResourceLibrary.Coordinate
