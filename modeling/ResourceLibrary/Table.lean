/-!
Tables: finite maps from text to values, held in strictly increasing key order, so two tables
with the same answers are the same table. Main statements: what a look-up finds after an insertion
and after an overlay, and that look-ups determine the table.
-/

namespace ResourceLibrary

universe u

/-- A finite map from text, its entries in strictly increasing key order. -/
structure Table (α : Type u) where
  entries : List (String × α)
  sorted : entries.Pairwise fun a b => a.1 < b.1

namespace Table
variable {α : Type u}

def place (key : String) (value : α) : List (String × α) → List (String × α)
  | [] => [(key, value)]
  | entry :: rest =>
    if key < entry.1 then (key, value) :: entry :: rest
    else if key = entry.1 then (key, value) :: rest
    else entry :: place key value rest

theorem mem_place {key : String} {value : α} {entry : String × α} {entries : List (String × α)}
    (member : entry ∈ place key value entries) : entry = (key, value) ∨ entry ∈ entries := by
  induction entries with
  | nil => simpa [place] using member
  | cons first rest ih => grind [place]

theorem lt_of_not_lt_of_ne {a b : String} (notLess : ¬a < b) (different : a ≠ b) : b < a := by
  apply Classical.byContradiction
  intro other
  exact different (String.le_antisymm (String.not_lt.mp other) (String.not_lt.mp notLess))

theorem sorted_place (key : String) (value : α) {entries : List (String × α)}
    (sorted : entries.Pairwise fun a b => a.1 < b.1) :
    (place key value entries).Pairwise fun a b => a.1 < b.1 := by
  induction entries with
  | nil => simp [place]
  | cons first rest ih =>
    have tail := List.pairwise_cons.mp sorted
    rw [place]
    split
    · next less =>
      refine List.pairwise_cons.mpr ⟨fun entry member => ?_, sorted⟩
      rcases List.mem_cons.mp member with same | later
      · exact same ▸ less
      · exact String.lt_trans less (tail.1 entry later)
    · next notLess =>
      split
      · next same =>
        exact List.pairwise_cons.mpr ⟨fun entry member => same ▸ tail.1 entry member, tail.2⟩
      · next different =>
        refine List.pairwise_cons.mpr ⟨fun entry member => ?_, ih tail.2⟩
        rcases mem_place member with same | later
        · exact same ▸ lt_of_not_lt_of_ne notLess different
        · exact tail.1 entry later

theorem lookup_cons_eq (entry : String × α) (rest : List (String × α)) (key : String) :
    (entry :: rest).lookup key = if key = entry.1 then some entry.2 else rest.lookup key := by
  rw [List.lookup_cons]
  by_cases same : key = entry.1
  · simp [same]
  · simp [same, beq_eq_false_iff_ne.mpr same]

theorem lookup_place_self (key : String) (value : α) (entries : List (String × α)) :
    (place key value entries).lookup key = some value := by
  induction entries with
  | nil => simp [place]
  | cons first rest ih => grind [place, lookup_cons_eq]

theorem lookup_place_of_ne {key other : String} (different : other ≠ key) (value : α)
    (entries : List (String × α)) :
    (place key value entries).lookup other = entries.lookup other := by
  induction entries with
  | nil => simp [place, lookup_cons_eq, different]
  | cons first rest ih => grind [place, lookup_cons_eq]

def empty : Table α := ⟨[], .nil⟩

instance : Inhabited (Table α) := ⟨empty⟩
instance : EmptyCollection (Table α) := ⟨empty⟩

def get? (table : Table α) (key : String) : Option α := table.entries.lookup key

def insert (table : Table α) (key : String) (value : α) : Table α :=
  ⟨place key value table.entries, sorted_place key value table.sorted⟩

def overlay (table upper : Table α) : Table α :=
  upper.entries.foldl (fun merged entry => merged.insert entry.1 entry.2) table

def ofList (entries : List (String × α)) : Table α :=
  entries.foldl (fun table entry => table.insert entry.1 entry.2) ∅

def contains (table : Table α) (key : String) : Bool := (table.get? key).isSome
def keys (table : Table α) : List String := table.entries.map (·.1)
def values (table : Table α) : List α := table.entries.map (·.2)
def size (table : Table α) : Nat := table.entries.length
def isEmpty (table : Table α) : Bool := table.entries.isEmpty

instance [DecidableEq α] : DecidableEq (Table α) := fun a b =>
  decidable_of_iff (a.entries = b.entries) (by cases a; cases b; simp)

@[simp] theorem get?_empty (key : String) : (∅ : Table α).get? key = none := rfl

@[simp] theorem get?_insert_self (table : Table α) (key : String) (value : α) :
    (table.insert key value).get? key = some value :=
  lookup_place_self key value table.entries

theorem get?_insert_of_ne (table : Table α) {key other : String} (different : other ≠ key)
    (value : α) : (table.insert key value).get? other = table.get? other :=
  lookup_place_of_ne different value table.entries

theorem get?_insert (table : Table α) (key other : String) (value : α) :
    (table.insert key value).get? other = if other = key then some value else table.get? other := by
  by_cases same : other = key
  · simp [same]
  · simp [same, get?_insert_of_ne]

theorem lookup_of_mem {entries : List (String × α)} {entry : String × α}
    (sorted : entries.Pairwise fun a b => a.1 < b.1) (member : entry ∈ entries) :
    entries.lookup entry.1 = some entry.2 := by
  induction entries with
  | nil => simp at member
  | cons first rest ih =>
    have tail := List.pairwise_cons.mp sorted
    rcases List.mem_cons.mp member with same | later
    · simp [same, lookup_cons_eq]
    · have different : entry.1 ≠ first.1 := by
        intro same
        exact String.lt_irrefl _ (same ▸ tail.1 entry later)
      simp [lookup_cons_eq, different, ih tail.2 later]

theorem mem_of_lookup {entries : List (String × α)} {key : String} {value : α}
    (found : entries.lookup key = some value) : (key, value) ∈ entries := by
  induction entries with
  | nil => simp at found
  | cons first rest ih => grind [lookup_cons_eq]

theorem get?_eq_some_iff (table : Table α) (key : String) (value : α) :
    table.get? key = some value ↔ (key, value) ∈ table.entries :=
  ⟨mem_of_lookup, lookup_of_mem table.sorted⟩

theorem entries_eq_of_mem_iff {a b : List (String × α)}
    (left : a.Pairwise fun x y => x.1 < y.1) (right : b.Pairwise fun x y => x.1 < y.1)
    (same : ∀ entry, entry ∈ a ↔ entry ∈ b) : a = b := by
  induction a generalizing b with
  | nil =>
    cases b with
    | nil => rfl
    | cons y ys => exact absurd ((same y).mpr (by simp)) (by simp)
  | cons x xs ih =>
    cases b with
    | nil => exact absurd ((same x).mp (by simp)) (by simp)
    | cons y ys =>
      have lx := List.pairwise_cons.mp left
      have ly := List.pairwise_cons.mp right
      have heads : x = y := by
        rcases List.mem_cons.mp ((same x).mp (by simp)) with eq | below
        · exact eq
        · rcases List.mem_cons.mp ((same y).mpr (by simp)) with eq | above
          · exact eq.symm
          · exact absurd (ly.1 x below) (String.lt_asymm (lx.1 y above))
      subst heads
      rw [ih lx.2 ly.2]
      intro entry
      constructor
      · intro member
        rcases List.mem_cons.mp ((same entry).mp (by simp [member])) with eq | there
        · exact absurd (lx.1 entry member) (eq ▸ String.lt_irrefl _)
        · exact there
      · intro member
        rcases List.mem_cons.mp ((same entry).mpr (by simp [member])) with eq | there
        · exact absurd (ly.1 entry member) (eq ▸ String.lt_irrefl _)
        · exact there

theorem ext_get? {a b : Table α} (same : ∀ key, a.get? key = b.get? key) : a = b := by
  have entries : a.entries = b.entries := by
    apply entries_eq_of_mem_iff a.sorted b.sorted
    intro entry
    rw [← get?_eq_some_iff, ← get?_eq_some_iff, same]
  cases a
  cases b
  simpa using entries

theorem get?_foldl_insert (entries : List (String × α)) (table : Table α) (key : String)
    (sorted : entries.Pairwise fun a b => a.1 < b.1) :
    (entries.foldl (fun merged entry => merged.insert entry.1 entry.2) table).get? key =
      (entries.lookup key).or (table.get? key) := by
  induction entries generalizing table with
  | nil => simp
  | cons first rest ih =>
    have tail := List.pairwise_cons.mp sorted
    rw [List.foldl_cons, ih _ tail.2, get?_insert, lookup_cons_eq]
    by_cases same : key = first.1
    · have absent : rest.lookup key = none := by
        cases found : rest.lookup key with
        | none => rfl
        | some value =>
          exact absurd (tail.1 _ (mem_of_lookup found)) (same ▸ String.lt_irrefl _)
      subst same
      simp [absent]
    · simp [same]

theorem get?_overlay (table upper : Table α) (key : String) :
    (table.overlay upper).get? key = (upper.get? key).or (table.get? key) :=
  get?_foldl_insert upper.entries table key upper.sorted

@[simp] theorem overlay_empty (table : Table α) : table.overlay ∅ = table := rfl

@[simp] theorem empty_overlay (table : Table α) : (∅ : Table α).overlay table = table := by
  apply ext_get?
  intro key
  rw [get?_overlay, get?_empty, Option.or_none]

theorem overlay_self (table : Table α) : table.overlay table = table := by
  apply ext_get?
  intro key
  rw [get?_overlay, Option.or_self]

theorem overlay_assoc (table middle upper : Table α) :
    (table.overlay middle).overlay upper = table.overlay (middle.overlay upper) := by
  apply ext_get?
  intro key
  rw [get?_overlay, get?_overlay, get?_overlay, get?_overlay, Option.or_assoc]

theorem get?_foldl_insert_last (entries : List (String × α)) (table : Table α) (key : String) :
    (entries.foldl (fun merged entry => merged.insert entry.1 entry.2) table).get? key =
      (entries.reverse.lookup key).or (table.get? key) := by
  induction entries generalizing table with
  | nil => simp
  | cons first rest ih =>
    rw [List.foldl_cons, ih, get?_insert, List.reverse_cons, List.lookup_append, Option.or_assoc,
      lookup_cons_eq, List.lookup_nil]
    split <;> rfl

theorem get?_ofList (entries : List (String × α)) (key : String) :
    (ofList entries).get? key = entries.reverse.lookup key := by
  rw [ofList, get?_foldl_insert_last, get?_empty, Option.or_none]

end Table
end ResourceLibrary
