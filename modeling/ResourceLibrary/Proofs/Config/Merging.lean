import ResourceLibrary.Config.Sections

/-!
Configurations laid over each other, setting by setting. Main statement: what the upper one sets
counts and the lower one shows through elsewhere, but for an index behind an index section that
names none; merging is associative and idempotent, an empty configuration changes nothing on either
side, and configurations that pass their check give one that passes.
-/

namespace ResourceLibrary.Config

inductive Setting
  | index
  | signature
  | decimal
  | property (key : String)
  deriving DecidableEq

namespace Setting

abbrev Content : Setting → Type
  | index => FilePath
  | signature => String
  | decimal => Bool
  | property _ => String

/-- Whether a check lets a setting pass: an index names a place inside the directory that it is
relative to, a signature holds something and no blanks, and a property has a proper key. -/
def Sound : (setting : Setting) → setting.Content → Prop
  | index, path => path.text ≠ "" ∧ .root ∉ path.components ∧ .parent ∉ path.components
  | signature, text => text ≠ "" ∧ ∀ c ∈ text.toList, Text.isBlank c = false
  | decimal, _ => True
  | property key, _ => isPropertyKey key = true

end Setting

def common (build : Option Build) (properties : Properties) :
    (setting : Setting) → Option setting.Content
  | .index => none
  | .signature => build.bind (·.signature)
  | .decimal => build.bind (·.decimal)
  | .property key => properties.get? key

def Global.get? (global : Global) : (setting : Setting) → Option setting.Content :=
  common global.build global.properties

def Project.get? (project : Project) : (setting : Setting) → Option setting.Content
  | .index => project.index?
  | .signature => common project.build project.properties .signature
  | .decimal => common project.build project.properties .decimal
  | .property key => common project.build project.properties (.property key)

theorem Project.get?_of_ne_index (project : Project) {setting : Setting}
    (away : setting ≠ .index) :
    project.get? setting = common project.build project.properties setting := by
  cases setting with
  | index => exact absurd rfl away
  | signature | decimal | property => rfl

/-! What the checks accept. -/

theorem both_eq_ok_iff {first second : Except Failure Unit} :
    (do first; second) = .ok () ↔ first = .ok () ∧ second = .ok () := by
  rw [bind_eq_ok_iff]
  constructor
  · rintro ⟨⟨⟩, one, two⟩
    exact ⟨one, two⟩
  · exact fun ⟨one, two⟩ => ⟨(), one, two⟩

theorem checkIndex_eq_ok_iff {path : FilePath} :
    checkIndex path = .ok () ↔ Setting.index.Sound path := by
  unfold checkIndex Setting.Sound
  split
  · next empty => simp [empty]
  · next full =>
    split
    · next outside =>
      rw [List.any_eq_true] at outside
      obtain ⟨part, member, leaves⟩ := outside
      simp only [Bool.or_eq_true, decide_eq_true_eq] at leaves
      rcases leaves with rfl | rfl
      · simp [member]
      · simp [member]
    · next inside =>
      rw [Bool.not_eq_true, List.any_eq_false] at inside
      refine iff_of_true rfl ⟨full, fun member => ?_, fun member => ?_⟩
      · exact inside _ member (by decide)
      · exact inside _ member (by decide)

theorem Build.check_eq_ok_iff {place : String} {build : Build} :
    build.check place = .ok () ↔ ∀ text, build.signature = some text → Setting.signature.Sound text := by
  unfold check Setting.Sound
  cases build.signature with
  | none => simp
  | some text =>
    simp only [Option.some.injEq, forall_eq']
    by_cases blank : text.toList.any Text.isBlank = true
    · have stays : ¬∀ c ∈ text.toList, Text.isBlank c = false := by
        intro clear
        obtain ⟨c, member, isBlank⟩ := List.any_eq_true.mp blank
        rw [clear c member] at isBlank
        cases isBlank
      split
      · simp [stays]
      · simp [stays]
    · have clear : ∀ c ∈ text.toList, Text.isBlank c = false := by
        simpa using blank
      rw [Text.trim_of_not_blank clear]
      split
      · next empty => simp [empty]
      · next full => simpa [full] using clear

theorem checkProperties_eq_ok_iff {properties : Properties} :
    checkProperties properties = .ok () ↔
      ∀ key value, properties.get? key = some value → isPropertyKey key = true := by
  have keys : (properties.keys.find? (!isPropertyKey ·) = none) ↔
      ∀ key value, properties.get? key = some value → isPropertyKey key = true := by
    rw [List.find?_eq_none]
    simp [Table.keys, Table.get?_eq_some_iff]
  rw [← keys, checkProperties]
  split
  · next found => simp [found]
  · next missing => simp [missing]

theorem check_common_eq_ok_iff {build : Option Build} {properties : Properties} :
    (do checkBuild build; checkProperties properties) = .ok () ↔
      ∀ setting content, common build properties setting = some content →
        setting.Sound content := by
  have signed : checkBuild build = .ok () ↔
      ∀ text, build.bind (·.signature) = some text → Setting.signature.Sound text := by
    cases build with
    | none => simp [checkBuild]
    | some build => simp [checkBuild, Build.check_eq_ok_iff]
  rw [both_eq_ok_iff, signed, checkProperties_eq_ok_iff]
  constructor
  · rintro ⟨signature, properties⟩ (_ | _ | _ | key) content set
    · cases set
    · exact signature content set
    · trivial
    · exact properties key content set
  · intro sound
    exact ⟨sound .signature, fun key => sound (.property key)⟩

theorem Global.check_eq_ok_iff {global : Global} :
    global.check = .ok () ↔
      ∀ setting content, global.get? setting = some content → setting.Sound content :=
  check_common_eq_ok_iff

theorem Project.check_eq_ok_iff {project : Project} :
    project.check = .ok () ↔
      ∀ setting content, project.get? setting = some content → setting.Sound content := by
  have parts : project.check = .ok () ↔
      (∀ path, project.index? = some path → Setting.index.Sound path) ∧
      (do checkBuild project.build; checkProperties project.properties) = .ok () := by
    unfold check
    cases project.index? with
    | none => simp
    | some path =>
      simp only [Option.some.injEq, forall_eq']
      rw [← checkIndex_eq_ok_iff]
      exact both_eq_ok_iff
  rw [parts, check_common_eq_ok_iff]
  constructor
  · rintro ⟨placed, others⟩ setting content set
    by_cases same : setting = .index
    · subst same
      exact placed content set
    · rw [project.get?_of_ne_index same] at set
      exact others setting content set
  · intro sound
    refine ⟨sound .index, fun setting content set => ?_⟩
    have away : setting ≠ .index := by
      rintro rfl
      cases set
    rw [← project.get?_of_ne_index away] at set
    exact sound setting content set

/-! Merges, setting by setting. -/

theorem common_merge (lower upper : Option Build) (properties others : Properties)
    (setting : Setting) :
    common (mergeBuilds lower upper) (properties.overlay others) setting =
      (common upper others setting).or (common lower properties setting) := by
  cases setting with
  | index => rfl
  | property key => exact Table.get?_overlay properties others key
  | signature | decimal =>
    cases lower <;> cases upper <;> simp [common, mergeBuilds, Build.merge]

theorem Global.get?_merge (lower upper : Global) (setting : Setting) :
    (lower.merge upper).get? setting = (upper.get? setting).or (lower.get? setting) :=
  common_merge lower.build upper.build lower.properties upper.properties setting

theorem Project.get?_merge (lower upper : Project) {setting : Setting} (away : setting ≠ .index) :
    (lower.merge upper).get? setting = (upper.get? setting).or (lower.get? setting) := by
  rw [get?_of_ne_index _ away, get?_of_ne_index _ away, get?_of_ne_index _ away]
  exact common_merge lower.build upper.build lower.properties upper.properties setting

/-- An index section stands for all of the one below it, so one that names no index hides the
index below. -/
theorem Project.get?_index_merge (lower upper : Project) :
    (lower.merge upper).get? .index =
      if upper.library.isSome then upper.get? .index else lower.get? .index := by
  cases upper with
  | mk library build properties => cases library <;> rfl

/-! Laws of merging. -/

structure Layering {α : Type} (merge : α → α → α) (empty : α)
    (check : α → Except Failure Unit) : Prop where
  assoc : ∀ lower middle upper,
    merge (merge lower middle) upper = merge lower (merge middle upper)
  idem : ∀ config, merge config config = config
  onEmpty : ∀ config, merge empty config = config
  underEmpty : ∀ config, merge config empty = config
  checked : ∀ lower upper, check lower = .ok () → check upper = .ok () →
    check (merge lower upper) = .ok ()

theorem Build.merge_assoc (lower middle upper : Build) :
    (lower.merge middle).merge upper = lower.merge (middle.merge upper) := by
  simp [merge, Option.or_assoc]

theorem Build.merge_self (build : Build) : build.merge build = build := by
  simp [merge]

theorem mergeBuilds_assoc (lower middle upper : Option Build) :
    mergeBuilds (mergeBuilds lower middle) upper = mergeBuilds lower (mergeBuilds middle upper) := by
  cases lower <;> cases middle <;> cases upper <;> simp [mergeBuilds, Build.merge_assoc]

theorem mergeBuilds_self (build : Option Build) : mergeBuilds build build = build := by
  cases build <;> simp [mergeBuilds, Build.merge_self]

theorem none_mergeBuilds (build : Option Build) : mergeBuilds none build = build := by
  cases build <;> rfl

theorem mergeBuilds_none (build : Option Build) : mergeBuilds build none = build := by
  cases build <;> rfl

theorem Global.layering : Layering merge empty check where
  assoc lower middle upper := by
    simp [merge, mergeBuilds_assoc, Table.overlay_assoc]
  idem global := by
    simp [merge, mergeBuilds_self, Table.overlay_self]
  onEmpty global := by
    simp [merge, empty, none_mergeBuilds]
  underEmpty global := by
    simp [merge, empty, mergeBuilds_none]
  checked lower upper below above := by
    rw [check_eq_ok_iff] at below above ⊢
    intro setting content set
    rw [get?_merge, Option.or_eq_some_iff] at set
    rcases set with fromUpper | ⟨_, fromLower⟩
    · exact above setting content fromUpper
    · exact below setting content fromLower

theorem Project.set_of_merge {lower upper : Project} {setting : Setting}
    {content : setting.Content} (set : (lower.merge upper).get? setting = some content) :
    upper.get? setting = some content ∨ lower.get? setting = some content := by
  by_cases same : setting = .index
  · subst same
    rw [get?_index_merge] at set
    split at set
    · exact .inl set
    · exact .inr set
  · rw [get?_merge lower upper same, Option.or_eq_some_iff] at set
    exact set.imp_right And.right

theorem Project.layering : Layering merge empty check where
  assoc lower middle upper := by
    simp [merge, mergeBuilds_assoc, Table.overlay_assoc, Option.or_assoc]
  idem project := by
    simp [merge, mergeBuilds_self, Table.overlay_self]
  onEmpty project := by
    simp [merge, empty, none_mergeBuilds]
  underEmpty project := by
    simp [merge, empty, mergeBuilds_none]
  checked lower upper below above := by
    rw [check_eq_ok_iff] at below above ⊢
    intro setting content set
    rcases set_of_merge set with fromUpper | fromLower
    · exact above setting content fromUpper
    · exact below setting content fromLower

/-- The upper one has an index section without an index, over an index of the lower one. -/
def Project.HidesIndex (upper lower : Project) : Prop :=
  upper.library = some ⟨none⟩ ∧ lower.index?.isSome = true

theorem Project.get?_index_merge_iff (lower upper : Project) :
    (lower.merge upper).get? .index = (upper.get? .index).or (lower.get? .index) ↔
      ¬upper.HidesIndex lower := by
  rw [get?_index_merge, HidesIndex]
  unfold Project.get? Project.index?
  rcases upper with ⟨_ | ⟨_ | path⟩, build, properties⟩
  · simp
  · cases lower.library.bind (·.index) <;> simp
  · simp

/-- A merge has every setting of the upper configuration, and of the lower one where the upper has
none, exactly unless the upper project hides the index of the lower one; users' configurations hide
nothing. Merges are associative and idempotent, the empty configuration is neutral, and checks are
kept. -/
theorem settings_of_merge (lower upper : Project) (below above : Global) :
    ((∀ setting, (lower.merge upper).get? setting =
      (upper.get? setting).or (lower.get? setting)) ↔ ¬upper.HidesIndex lower) ∧
    (∀ setting, (below.merge above).get? setting =
      (above.get? setting).or (below.get? setting)) ∧
    Layering Project.merge Project.empty Project.check ∧
    Layering Global.merge Global.empty Global.check := by
  refine ⟨?_, Global.get?_merge below above, Project.layering, Global.layering⟩
  rw [← Project.get?_index_merge_iff]
  constructor
  · exact fun every => every .index
  · intro index setting
    by_cases same : setting = .index
    · rw [same]
      exact index
    · exact Project.get?_merge lower upper same

theorem settings_of_merge_release :
    let lower : Project := ⟨some ⟨some ⟨"index.toml"⟩⟩, none, ∅⟩
    let upper : Project := ⟨none, some ⟨some "RELEASE", none⟩, ∅⟩
    lower.check = .ok () ∧ upper.check = .ok () ∧ (lower.merge upper).check = .ok () ∧
      (lower.merge upper).get? .index = some ⟨"index.toml"⟩ ∧
      (lower.merge upper).get? .signature = some "RELEASE" := by
  intro lower upper
  obtain ⟨settings, _, laws, _⟩ := settings_of_merge lower upper .empty .empty
  have below : lower.check = .ok () := rfl
  have above : upper.check = .ok () := rfl
  have kept := settings.mpr fun hidden => nomatch hidden.1
  exact ⟨below, above, laws.checked lower upper below above, kept .index, kept .signature⟩

/-- An empty index section over an index: both pass their checks, and the index is lost. -/
theorem index_lost_by_merge :
    let lower : Project := ⟨some ⟨some ⟨"index.toml"⟩⟩, none, ∅⟩
    let upper : Project := ⟨some ⟨none⟩, none, ∅⟩
    lower.check = .ok () ∧ upper.check = .ok () ∧ lower.get? .index = some ⟨"index.toml"⟩ ∧
      upper.get? .index = none ∧ (lower.merge upper).get? .index = none :=
  ⟨rfl, rfl, rfl, rfl, rfl⟩

end ResourceLibrary.Config
