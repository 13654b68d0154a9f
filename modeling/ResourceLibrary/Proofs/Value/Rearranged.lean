import Mathlib.Data.List.Nodup
import Mathlib.Data.List.Perm.Basic
import ResourceLibrary.Value

/-!
Data trees in another order. Two trees are the same but for the order in which their tables have
their entries. Main statement: texts, words, flags, properties, lists and records are read from a
tree in whatever order its tables stand.
-/

namespace ResourceLibrary

section
variable {α : Type} {entries : List (String × α)} {key : String}

theorem lookup_eq_none_iff_keys : entries.lookup key = none ↔ key ∉ entries.map (·.1) := by
  simp only [List.lookup_eq_none_iff, bne_iff_ne, List.mem_map, not_exists, not_and]
  exact ⟨fun free entry member same => free entry member same.symm,
    fun free entry member same => free entry member same.symm⟩

theorem lookup_eq_some_iff_mem (distinct : (entries.map (·.1)).Nodup) {value : α} :
    entries.lookup key = some value ↔ (key, value) ∈ entries := by
  refine ⟨Table.mem_of_lookup, fun member => ?_⟩
  induction entries with
  | nil => cases member
  | cons entry rest ih =>
    obtain ⟨fresh, others⟩ := List.nodup_cons.mp distinct
    rw [Table.lookup_cons_eq]
    rcases List.mem_cons.mp member with rfl | later
    · simp
    · rw [if_neg, ih others later]
      rintro rfl
      exact fresh (List.mem_map.mpr ⟨_, later, rfl⟩)

theorem Table.nodup_keys (table : Table α) : (table.entries.map (·.1)).Nodup := by
  rw [List.Nodup, List.pairwise_map]
  refine table.sorted.imp fun {a b} less same => ?_
  rw [same] at less
  exact String.lt_irrefl _ less

theorem Table.ofList_of_perm {table : Table α} (perm : entries.Perm table.entries) :
    ofList entries = table := by
  have distinct : (entries.reverse.map (·.1)).Nodup :=
    (((List.reverse_perm entries).trans perm).map _).nodup_iff.mpr table.nodup_keys
  apply ext_get?
  intro key
  apply Option.ext
  intro value
  rw [get?_ofList, lookup_eq_some_iff_mem distinct, List.mem_reverse, perm.mem_iff,
    get?_eq_some_iff]

end

namespace Value

mutual

/-- The other tree is the same but for the order of the entries in its tables. -/
def Rearranged : Value → Value → Prop
  | .list items, tree => ∃ others, tree = .list others ∧ RearrangedItems items others
  | .table entries, tree => ∃ others, tree = .table others ∧
      (others.map (·.1)).Perm (entries.map (·.1)) ∧ RearrangedEntries entries others
  | value, tree => tree = value

def RearrangedItems : List Value → List Value → Prop
  | [], others => others = []
  | item :: rest, others =>
    ∃ other more, others = other :: more ∧ Rearranged item other ∧ RearrangedItems rest more

def RearrangedEntries : List (String × Value) → List (String × Value) → Prop
  | [], _ => True
  | (key, value) :: rest, others =>
    (∃ other, others.lookup key = some other ∧ Rearranged value other) ∧ RearrangedEntries rest others

end

/-- A reader gives the same for a tree in whatever order its tables stand. -/
def Reads {α : Type} (read : Value → Option α) (value : Value) (result : α) : Prop :=
  ∀ tree, value.Rearranged tree → read tree = some result

theorem lookup_of_rearranged {entries others : Fields} (same : RearrangedEntries entries others)
    {key : String} {value : Value} (found : entries.lookup key = some value) :
    ∃ other, others.lookup key = some other ∧ value.Rearranged other := by
  induction entries with
  | nil => cases found
  | cons entry rest ih =>
    obtain ⟨name, first⟩ := entry
    obtain ⟨here, later⟩ := same
    rw [Table.lookup_cons_eq] at found
    split at found
    · next own => cases found; exact own ▸ here
    · exact ih later found

theorem reads_text (content : String) : Reads text? (.text content) content := by
  rintro tree rfl
  rfl

theorem reads_orNull (content : String) :
    Reads (orNull? text?) (.text content) (some content) := by
  rintro tree rfl
  rfl

theorem reads_bool (flag : Bool) : Reads bool? (.bool flag) flag := by
  rintro tree rfl
  rfl

theorem reads_word {α : Type} (format : StorageFormat) {ofWord? : String → Option α} {word : String}
    {item : α} (known : ofWord? word = some item) : Reads (word? format ofWord?) (.text word) item := by
  rintro tree rfl
  exact known

theorem reads_list {α : Type} {read : Value → Option α} {write : α → Value} {items : List α}
    (each : ∀ item ∈ items, Reads read (write item) item) :
    Reads (list? read) (.list (items.map write)) items := by
  rintro tree ⟨others, rfl, same⟩
  induction items generalizing others with
  | nil =>
    cases same
    rfl
  | cons item rest ih =>
    obtain ⟨other, more, rfl, first, later⟩ := same
    have own := each item (by simp) other first
    have behind := ih (fun item member => each item (by simp [member])) more later
    rw [list?] at behind ⊢
    rw [List.mapM_cons, own, behind]
    rfl

theorem texts?_of_forall {entries : Fields}
    (texts : ∀ entry ∈ entries, ∃ content, entry.2 = .text content) :
    texts? entries =
      some (entries.filterMap fun entry => (text? entry.2).map fun content => (entry.1, content)) := by
  induction entries with
  | nil => rfl
  | cons entry rest ih =>
    obtain ⟨key, value⟩ := entry
    obtain ⟨content, rfl⟩ := texts (key, value) (by simp)
    rw [texts?, ih fun entry member => texts entry (by simp [member])]
    rfl

def textEntries (properties : Properties) : Fields :=
  properties.entries.map fun entry => (entry.1, .text entry.2)

theorem ofProperties_eq (properties : Properties) :
    ofProperties properties = .table (textEntries properties) := rfl

theorem reads_properties (properties : Properties) :
    Reads properties? (ofProperties properties) properties := by
  intro tree rearranged
  rw [ofProperties_eq] at rearranged
  obtain ⟨others, rfl, names, same⟩ := rearranged
  have distinct : ((textEntries properties).map (·.1)).Nodup := by
    rw [textEntries, List.map_map]
    exact properties.nodup_keys
  have unique : (others.map (·.1)).Nodup := names.nodup_iff.mpr distinct
  have found : ∀ {key value}, (textEntries properties).lookup key = some value →
      others.lookup key = some value := by
    intro key value present
    obtain ⟨other, there, rearranged⟩ := lookup_of_rearranged same present
    obtain ⟨entry, _, stored⟩ := List.mem_map.mp (Table.mem_of_lookup present)
    cases stored
    cases rearranged
    exact there
  -- Each entry is found in the other table, and it has no more keys: it is the same in another order.
  have perm : others.Perm (textEntries properties) := by
    refine (List.perm_ext_iff_of_nodup (.of_map _ unique) (.of_map _ distinct)).mpr ?_
    rintro ⟨key, value⟩
    rw [← lookup_eq_some_iff_mem unique, ← lookup_eq_some_iff_mem distinct]
    refine ⟨fun there => ?_, found⟩
    cases here : (textEntries properties).lookup key with
    | some other => rw [← there, found here]
    | none =>
      have absent := names.mem_iff.not.mpr (lookup_eq_none_iff_keys.mp here)
      rw [lookup_eq_none_iff_keys.mpr absent] at there
      cases there
  have texts : ∀ entry ∈ others, ∃ content, entry.2 = .text content := by
    intro entry member
    obtain ⟨_, _, rfl⟩ := List.mem_map.mp (perm.mem_iff.mp member)
    exact ⟨_, rfl⟩
  rw [properties?, texts?_of_forall texts, Option.map_some, Table.ofList_of_perm]
  have contents := perm.filterMap fun entry =>
    (text? entry.2).map fun content => (entry.1, content)
  rw [textEntries, List.filterMap_map] at contents
  simpa [Function.comp_def, text?] using contents

end Value

namespace Fields

/-- The same fields in another order. -/
structure Rearranged (fields others : Fields) : Prop where
  names : (others.map (·.1)).Perm (fields.map (·.1))
  entries : Value.RearrangedEntries fields others

end Fields

theorem Value.record?_of_rearranged {fields : Fields} {tree : Value}
    (same : (Value.table fields).Rearranged tree) (format : StorageFormat) (names : List String)
    (least : Nat) (known : ∀ key, key ∉ names → fields.lookup key = none) :
    ∃ others, tree = .table others ∧ tree.record? format names least = some others ∧
      fields.Rearranged others := by
  obtain ⟨others, rfl, perm, entries⟩ := same
  refine ⟨others, rfl, if_pos (List.all_eq_true.mpr fun entry member => ?_), ⟨perm, entries⟩⟩
  have present := perm.mem_iff.mp (List.mem_map.mpr ⟨entry, member, rfl⟩)
  rw [List.contains_iff_mem]
  by_contra unknown
  exact lookup_eq_none_iff_keys.mp (known _ unknown) present

namespace Fields.Rearranged
variable {α : Type} {fields others : Fields} (same : fields.Rearranged others) {name : String}
  {read : Value → Option α} {result : α}
include same

theorem required {value : Value} (found : fields.lookup name = some value)
    (reads : value.Reads read result) : others.required name read = some result := by
  obtain ⟨other, there, rearranged⟩ := Value.lookup_of_rearranged same.entries found
  rw [Fields.required, there, Option.bind_some, reads other rearranged]

theorem withDefault {default : α}
    (given : ∀ value, fields.lookup name = some value → value.Reads read result)
    (left : fields.lookup name = none → default = result) :
    others.withDefault name default read = some result := by
  rw [Fields.withDefault]
  cases found : fields.lookup name with
  | some value =>
    obtain ⟨other, there, rearranged⟩ := Value.lookup_of_rearranged same.entries found
    rw [there]
    exact given value found other rearranged
  | none =>
    have absent := same.names.mem_iff.not.mpr (lookup_eq_none_iff_keys.mp found)
    rw [lookup_eq_none_iff_keys.mpr absent, left found]

theorem optional (content : Option String)
    (found : fields.lookup name = content.map .text) :
    others.optional name Value.text? = some content := by
  apply same.withDefault
  · intro value present
    rw [found, Option.map_eq_some_iff] at present
    obtain ⟨text, rfl, rfl⟩ := present
    exact Value.reads_orNull text
  · intro absent
    rw [found, Option.map_eq_none_iff] at absent
    exact absent.symm

theorem written {value : Value} {default : α} (found : fields.lookup name = some value)
    (reads : value.Reads read result) : others.withDefault name default read = some result := by
  apply same.withDefault
  · intro other present
    rw [found, Option.some.injEq] at present
    exact present ▸ reads
  · intro absent
    rw [found] at absent
    cases absent

theorem writtenIf (condition : Prop) [Decidable condition] {value : Value} {default : α}
    (found : fields.lookup name = if condition then some value else none)
    (reads : value.Reads read result) (left : ¬condition → default = result) :
    others.withDefault name default read = some result := by
  apply same.withDefault
  · intro other present
    obtain ⟨_, given⟩ := Option.ite_none_right_eq_some.mp (found.symm.trans present)
    rw [Option.some.injEq] at given
    exact given ▸ reads
  · intro absent
    refine left fun holds => ?_
    rw [found, if_pos holds] at absent
    cases absent

theorem flag (flag : Bool) {standard : Bool}
    (found : fields.lookup name = if flag ≠ standard then some (.bool flag) else none) :
    others.withDefault name standard Value.bool? = some flag :=
  same.writtenIf _ found (Value.reads_bool flag) fun equal => (not_not.mp equal).symm

theorem properties (properties : Properties) (found : fields.lookup name =
      if properties.isEmpty = false then some (Value.ofProperties properties) else none) :
    others.withDefault name ∅ Value.properties? = some properties := by
  refine same.writtenIf _ found (Value.reads_properties properties) fun full => ?_
  obtain ⟨entries, sorted⟩ := properties
  have empty : entries = [] := by simpa [Table.isEmpty] using full
  subst empty
  rfl

theorem list {write : α → Value} (items : List α)
    (found : fields.lookup name = if items ≠ [] then some (.list (items.map write)) else none)
    (each : ∀ item ∈ items, (write item).Reads read item) :
    others.withDefault name [] (Value.list? read) = some items :=
  same.writtenIf _ found (Value.reads_list each) fun empty => (not_not.mp empty).symm

end Fields.Rearranged

namespace Fields

@[simp] theorem lookup_unless (name key : String) (condition : Prop) [Decidable condition]
    (value : Value) : (if condition then [] else [(name, value)] : Fields).lookup key =
      if key = name ∧ ¬condition then some value else none := by
  split <;> simp_all [Table.lookup_cons_eq]

@[simp] theorem lookup_ofOption (name key : String) (content : Option String) :
    (ofOption name content).lookup key = if key = name then content.map .text else none := by
  cases content <;> simp [ofOption, Table.lookup_cons_eq]

@[simp] theorem lookup_ofList {α : Type} (name key : String) (write : α → Value) (items : List α) :
    (ofList name write items).lookup key =
      if key = name ∧ items ≠ [] then some (.list (items.map write)) else none := by
  simp [ofList]

@[simp] theorem lookup_ofProperties (name key : String) (properties : Properties) :
    (ofProperties name properties).lookup key =
      if key = name ∧ properties.isEmpty = false then some (Value.ofProperties properties)
      else none := by
  simp [ofProperties]

@[simp] theorem lookup_ofFlag (name key : String) (standard flag : Bool) :
    (ofFlag name standard flag).lookup key =
      if key = name ∧ flag ≠ standard then some (.bool flag) else none := by
  simp [ofFlag]

end Fields
end ResourceLibrary
