import Mathlib.Data.List.Forall2
import ResourceLibrary.Config.Resolved
import ResourceLibrary.Proofs.Config.Merging
import ResourceLibrary.Proofs.Text.Parents

/-!
Where settings come from. Main statement: the project is the nearest one on the way up, and each
setting, whatever else is set, is that of the environment, else of the project, else of the user,
else the standard one; a flag in the environment is a word for yes or no in any case, and a
signature holds something and no blanks.
-/

namespace ResourceLibrary.Config

def Setting.standard : (setting : Setting) → Option setting.Content
  | .index => some Settings.defaultIndex
  | .decimal => some false
  | .signature => none
  | .property _ => none

def flagWords : Bool → List String
  | true => ["true", "1", "yes"]
  | false => ["false", "0", "no"]

/-- A text is a word for a flag, each of its letters small or capital. -/
def Means (text : String) (flag : Bool) : Prop :=
  ∃ word ∈ flagWords flag,
    List.Forall₂ (fun c d => d = c ∨ d = c.toUpper) word.toList text.toList

instance (text : String) (flag : Bool) : Decidable (Means text flag) :=
  inferInstanceAs (Decidable (∃ word ∈ flagWords flag,
    List.Forall₂ (fun c d => d = c ∨ d = c.toUpper) word.toList text.toList))

/-- What the environment sets; a text that is no word for a flag sets nothing. -/
def Environment.get? (environment : Environment) : (setting : Setting) → Option setting.Content
  | .index => environment.index.map FilePath.mk
  | .signature => environment.signature
  | .decimal => environment.decimal.bind fun text => [true, false].find? fun flag => Means text flag
  | .property _ => none

def Environment.withDecimal (environment : Environment) (text : String) : Environment :=
  { environment with decimal := some text }

def Source.within (source : Source) (environment : Environment) : Source :=
  { source with environment := environment }

def inEffect (settings : Settings) : (setting : Setting) → Option setting.Content
  | .index => some settings.index
  | .signature => settings.signature
  | .decimal => some settings.decimalVersions
  | .property key => settings.properties.get? key

/-! Flags in the environment. -/

theorem eq_toLower_or_eq_toUpper_toLower (c : Char) : c = c.toLower ∨ c = c.toLower.toUpper := by
  by_cases capital : 'A'.val ≤ c.val ∧ c.val ≤ 'Z'.val
  · right
    -- Tried out by number: there are too many characters to try them all.
    have capitals : ∀ n ∈ List.range' 65 26, Char.ofNat n = (Char.ofNat n).toLower.toUpper := by
      decide
    have member : c.toNat ∈ List.range' 65 26 := by
      rw [List.mem_range'_1]
      exact ⟨capital.1, Nat.lt_succ_of_le capital.2⟩
    rw [← Char.ofNat_toNat c]
    exact capitals _ member
  · have same : c.toLower = c := dif_neg capital
    exact .inl same.symm

theorem toLower_of_mem_flagWords {flag : Bool} {word : String} (member : word ∈ flagWords flag) :
    ∀ c ∈ word.toList, c.toLower = c ∧ c.toUpper.toLower = c := by
  have small : ((flagWords flag).all fun word =>
      word.toList.all fun c => c.toLower = c ∧ c.toUpper.toLower = c) = true := by
    cases flag <;> decide
  simpa using List.all_eq_true.mp small word member

theorem flagWords_apart : ∀ word ∈ flagWords true, word ∉ flagWords false := by decide

theorem map_toLower_eq_iff {word text : List Char}
    (small : ∀ c ∈ word, c.toLower = c ∧ c.toUpper.toLower = c) :
    text.map Char.toLower = word ↔
      List.Forall₂ (fun c d => d = c ∨ d = c.toUpper) word text := by
  constructor
  · rintro rfl
    rw [List.forall₂_map_left_iff, List.forall₂_same]
    exact fun c _ => eq_toLower_or_eq_toUpper_toLower c
  · intro letters
    induction letters with
    | nil => rfl
    | cons first _ ih =>
      obtain ⟨⟨same, capital⟩, rest⟩ := List.forall_mem_cons.mp small
      rw [List.map_cons, ih rest]
      rcases first with rfl | rfl
      · rw [same]
      · rw [capital]

theorem toLower_mem_flagWords_iff {text : String} {flag : Bool} :
    text.toLower ∈ flagWords flag ↔ Means text flag := by
  have letters : text.toLower.toList = text.toList.map Char.toLower := String.toList_map
  constructor
  · intro member
    have small := toLower_of_mem_flagWords member
    exact ⟨_, member, (map_toLower_eq_iff small).mp letters.symm⟩
  · rintro ⟨word, member, spelled⟩
    have small := toLower_of_mem_flagWords member
    have same := letters.trans ((map_toLower_eq_iff small).mpr spelled)
    rwa [String.toList_injective same]

theorem Means.unique {text : String} {flag other : Bool} (means : Means text flag)
    (also : Means text other) : flag = other := by
  rw [← toLower_mem_flagWords_iff] at means also
  match flag, other with
  | true, true | false, false => rfl
  | true, false => exact absurd also (flagWords_apart _ means)
  | false, true => exact absurd means (flagWords_apart _ also)

theorem readFlag_eq (field text : String) :
    readFlag field text =
      if Means text true then .ok true
      else if Means text false then .ok false
      else .error (.invalidValue field (.notABoolean text)) := by
  simp only [readFlag, List.contains_iff_mem, ← toLower_mem_flagWords_iff]
  rfl

section
variable {field text : String} {flag : Bool}

theorem readFlag_of_means (means : Means text flag) : readFlag field text = .ok flag := by
  rw [readFlag_eq]
  cases flag with
  | true => exact if_pos means
  | false => rw [if_neg (fun yes => Bool.noConfusion (means.unique yes)), if_pos means]

theorem readFlag_of_not_means (none : ∀ flag, ¬Means text flag) :
    readFlag field text = .error (.invalidValue field (.notABoolean text)) := by
  rw [readFlag_eq, if_neg (none true), if_neg (none false)]

theorem readFlag_eq_ok_iff : readFlag field text = .ok flag ↔ Means text flag := by
  refine ⟨fun read => ?_, readFlag_of_means⟩
  by_cases word : ∃ other, Means text other
  · obtain ⟨other, means⟩ := word
    cases (readFlag_of_means means).symm.trans read
    exact means
  · cases (readFlag_of_not_means (not_exists.mp word)).symm.trans read

theorem Environment.get?_decimal {environment : Environment}
    (set : environment.decimal = some text) (means : Means text flag) :
    environment.get? .decimal = some flag := by
  rw [get?, set, Option.bind_some]
  cases flag with
  | true => exact List.find?_cons_of_pos (decide_eq_true means)
  | false =>
    have notYes : ¬Means text true := fun yes => Bool.noConfusion (means.unique yes)
    simp [notYes, means]

end

/-! What the environment lays over a project. -/

section
variable {environment : Environment} {build laid : Option Build}

theorem of_overSignature (given : environment.overSignature build = .ok laid) :
    laid.bind (·.signature) = environment.signature.or (build.bind (·.signature)) ∧
      laid.bind (·.decimal) = build.bind (·.decimal) ∧
      ∀ text, environment.signature = some text → Setting.signature.Sound text := by
  unfold Environment.overSignature at given
  split at given
  · next unset =>
    cases given
    simp [unset]
  · next text set =>
    obtain ⟨_, checked, same⟩ := bind_eq_ok_iff.mp given
    cases same
    refine ⟨by simp [set], by cases build <;> rfl, fun other also => ?_⟩
    cases set.symm.trans also
    exact Build.check_eq_ok_iff.mp checked _ rfl

theorem of_overDecimal (given : environment.overDecimal build = .ok laid) :
    laid.bind (·.signature) = build.bind (·.signature) ∧
      laid.bind (·.decimal) = (environment.get? .decimal).or (build.bind (·.decimal)) ∧
      ∀ text, environment.decimal = some text →
        ∃ flag, Means text flag ∧ environment.get? .decimal = some flag := by
  unfold Environment.overDecimal at given
  split at given
  · next unset =>
    cases given
    simp [Environment.get?, unset]
  · next text set =>
    obtain ⟨flag, read, same⟩ := bind_eq_ok_iff.mp given
    cases same
    have means := readFlag_eq_ok_iff.mp read
    have stands := Environment.get?_decimal set means
    refine ⟨by cases build <;> rfl, by rw [stands]; rfl, fun other also => ?_⟩
    cases set.symm.trans also
    exact ⟨flag, means, stands⟩

theorem of_overIndex {library placed : Option IndexSection}
    (given : environment.overIndex library = .ok placed) :
    placed.bind (·.index) = (environment.get? .index).or (library.bind (·.index)) ∧
      ∀ path, environment.get? .index = some path → Setting.index.Sound path := by
  unfold Environment.overIndex at given
  unfold Environment.get?
  split at given
  · next unset =>
    cases given
    simp [unset]
  · next text set =>
    obtain ⟨_, checked, same⟩ := bind_eq_ok_iff.mp given
    cases same
    refine ⟨by simp [set], fun path also => ?_⟩
    rw [set] at also
    cases also
    exact checkIndex_eq_ok_iff.mp checked

end

/-- What the environment sets lies over what the project sets, each setting for itself; it can be
read, and passes the checks that a file has to pass. -/
theorem get?_of_overlay {environment : Environment} {project laid : Project}
    (given : environment.overlay project = .ok laid) :
    (∀ setting, laid.get? setting = (environment.get? setting).or (project.get? setting)) ∧
      (∀ setting content, environment.get? setting = some content → setting.Sound content) ∧
      ∀ text, environment.decimal = some text →
        ∃ flag, Means text flag ∧ environment.get? .decimal = some flag := by
  obtain ⟨signed, signs, rest⟩ := bind_eq_ok_iff.mp given
  obtain ⟨decided, decides, rest⟩ := bind_eq_ok_iff.mp rest
  obtain ⟨placed, places, done⟩ := bind_eq_ok_iff.mp rest
  cases done
  obtain ⟨signature, undecided, sound⟩ := of_overSignature signs
  obtain ⟨kept, decimal, readable⟩ := of_overDecimal decides
  obtain ⟨index, inside⟩ := of_overIndex places
  refine ⟨?_, ?_, readable⟩
  · intro setting
    cases setting with
    | index => exact index
    | signature => exact kept.trans signature
    | decimal => exact decimal.trans (undecided ▸ rfl)
    | property key => rfl
  · intro setting content set
    cases setting with
    | index => exact inside content set
    | signature => exact sound content set
    | decimal => trivial
    | property key => cases set

theorem get?_withDecimal {environment : Environment} {text : String} {setting : Setting}
    (away : setting ≠ .decimal) :
    (environment.withDecimal text).get? setting = environment.get? setting := by
  cases setting with
  | decimal => exact absurd rfl away
  | index | signature | property => rfl

/-- Another text for the flag is all that can keep an environment from being laid over a project. -/
theorem overlay_withDecimal {environment : Environment} {project laid : Project}
    (given : environment.overlay project = .ok laid) (text : String) :
    (∀ flag, Means text flag →
      ∃ other, (environment.withDecimal text).overlay project = .ok other) ∧
    ((∀ flag, ¬Means text flag) → (environment.withDecimal text).overlay project =
      .error (.invalidValue "DEPOT_DECIMAL_VERSIONING" (.notABoolean text))) := by
  obtain ⟨signed, signs, rest⟩ := bind_eq_ok_iff.mp given
  obtain ⟨_, _, rest⟩ := bind_eq_ok_iff.mp rest
  obtain ⟨placed, places, _⟩ := bind_eq_ok_iff.mp rest
  have signsAgain : (environment.withDecimal text).overSignature project.build = .ok signed := signs
  have placesAgain : (environment.withDecimal text).overIndex project.library = .ok placed := places
  have reads : (environment.withDecimal text).overDecimal signed =
      (readFlag "DEPOT_DECIMAL_VERSIONING" text).map fun flag =>
        some { signed.getD .empty with decimal := some flag } := by
    change (readFlag "DEPOT_DECIMAL_VERSIONING" text >>= _) = _
    cases readFlag "DEPOT_DECIMAL_VERSIONING" text <;> rfl
  constructor
  · intro flag means
    rw [readFlag_of_means means] at reads
    rw [Environment.overlay, signsAgain]
    exact ⟨_, bind_eq_ok_iff.mpr ⟨_, rfl, bind_eq_ok_iff.mpr
      ⟨_, reads, bind_eq_ok_iff.mpr ⟨placed, placesAgain, rfl⟩⟩⟩⟩
  · intro none
    rw [readFlag_of_not_means none] at reads
    rw [Environment.overlay, signsAgain]
    change ((environment.withDecimal text).overDecimal signed >>= _) = _
    rw [reads]
    rfl

/-! What was read from files. -/

theorem readFile_eq_ok_iff {α : Type} {disk : Disk} {path : FilePath} {ofValue? : Value → Option α}
    {check : α → Except Failure Unit} {config : α} :
    readFile disk path ofValue? check = .ok config ↔
      ∃ content, disk.read path = .ok content ∧
        (Toml.parse content).bind ofValue? = some config ∧ check config = .ok () := by
  unfold readFile
  simp only
  cases disk.read path with
  | error cause => cases cause <;> exact iff_of_false nofun nofun
  | ok content =>
    simp only [bind_eq_ok_iff, Except.ok.injEq, exists_eq_left']
    cases (Toml.parse content).bind ofValue? with
    | none => exact iff_of_false nofun nofun
    | some other =>
      simp only [bind_eq_ok_iff, Except.ok.injEq, Option.some.injEq]
      constructor
      · rintro ⟨⟨⟩, checked, rfl⟩
        exact ⟨rfl, checked⟩
      · rintro ⟨rfl, checked⟩
        exact ⟨(), checked, rfl⟩

theorem check_of_readFile {α : Type} {disk : Disk} {path : FilePath} {ofValue? : Value → Option α}
    {check : α → Except Failure Unit} {config : α}
    (given : readFile disk path ofValue? check = .ok config) : check config = .ok () := by
  obtain ⟨_, _, _, checked⟩ := readFile_eq_ok_iff.mp given
  exact checked

namespace Source
variable {source : Source} {start : FilePath}

theorem sound_of_global {global : Global} (given : source.global = .ok global) :
    ∀ setting content, global.get? setting = some content → setting.Sound content := by
  unfold Source.global at given
  split at given
  · exact Global.check_eq_ok_iff.mp (check_of_readFile given)
  · cases given
    intro setting content set
    cases setting <;> cases set

def Holds (source : Source) (file : String) (dir : FilePath) : Prop :=
  source.disk.holds (dir / file) = true

theorem nearest?_eq_some_iff {file : String} {dir : FilePath} :
    source.nearest? start file = some dir ↔ FilePath.Nearest (source.Holds file) start dir :=
  FilePath.find?_ancestors_eq_some_iff

theorem nearest?_eq_none_iff {file : String} :
    source.nearest? start file = none ↔
      ∀ dir, FilePath.AtOrAbove dir start → ¬source.Holds file dir := by
  simp only [nearest?, FilePath.find?_ancestors_eq_none_iff, Holds, Bool.not_eq_true]

/-- The directory that a library stands in, and the project that it has: the nearest one on the way
up with a project file, else with an index, else the one to start from. -/
inductive Rooted (source : Source) (start : FilePath) : FilePath → Project → Prop
  | project {dir : FilePath} {project : Project}
    (nearest : FilePath.Nearest (source.Holds projectFile) start dir)
    (read : Project.read source.disk (dir / projectFile) = .ok project) :
    Rooted source start dir project
  | index {dir : FilePath}
    (lacks : ∀ dir, FilePath.AtOrAbove dir start → ¬source.Holds projectFile dir)
    (nearest : FilePath.Nearest (source.Holds "library.toml") start dir) :
    Rooted source start dir .empty
  | start (lacks : ∀ dir, FilePath.AtOrAbove dir start → ¬source.Holds projectFile dir)
    (missing : ∀ dir, FilePath.AtOrAbove dir start → ¬source.Holds "library.toml" dir) :
    Rooted source start start .empty

section
variable {dir : FilePath} {project : Project}

theorem rooted_iff_of_nearest {found : FilePath}
    (near : source.nearest? start projectFile = some found) :
    source.Rooted start dir project ↔
      dir = found ∧ Project.read source.disk (found / projectFile) = .ok project := by
  constructor
  · intro rooted
    cases rooted with
    | project nearest read =>
      cases near.symm.trans (nearest?_eq_some_iff.mpr nearest)
      exact ⟨rfl, read⟩
    | index lacks | start lacks => cases near.symm.trans (nearest?_eq_none_iff.mpr lacks)
  · rintro ⟨rfl, read⟩
    exact .project (nearest?_eq_some_iff.mp near) read

theorem rooted_iff_of_none (lacks : source.nearest? start projectFile = none) :
    source.Rooted start dir project ↔
      dir = (source.nearest? start "library.toml").getD start ∧ project = .empty := by
  constructor
  · intro rooted
    cases rooted with
    | project nearest => cases lacks.symm.trans (nearest?_eq_some_iff.mpr nearest)
    | index _ nearest =>
      rw [nearest?_eq_some_iff.mpr nearest]
      exact ⟨rfl, rfl⟩
    | start _ missing =>
      rw [nearest?_eq_none_iff.mpr missing]
      exact ⟨rfl, rfl⟩
  · rintro ⟨rfl, rfl⟩
    have missing := nearest?_eq_none_iff.mp lacks
    cases index : source.nearest? start "library.toml" with
    | some dir => exact .index missing (nearest?_eq_some_iff.mp index)
    | none => exact .start missing (nearest?_eq_none_iff.mp index)

end

theorem Rooted.sound {dir : FilePath} {project : Project}
    (rooted : Rooted source start dir project) :
    ∀ setting content, project.get? setting = some content → setting.Sound content := by
  cases rooted with
  | project _ read => exact Project.check_eq_ok_iff.mp (check_of_readFile read)
  | index | start =>
    intro setting content set
    cases setting <;> cases set

/-- What a resolution that succeeds put together, and what it comes to in any environment. -/
theorem of_resolveIn {resolved : Resolved} (given : source.resolveIn start = .ok resolved) :
    ∃ project, source.Rooted start resolved.rootDir project ∧
      source.global = .ok resolved.global ∧
      source.environment.overlay project = .ok resolved.project ∧
      ∀ environment, (source.within environment).resolveIn start =
        (environment.overlay project).map fun laid => { resolved with project := laid } := by
  -- What stands on the disk is the same in every environment.
  obtain ⟨rootDir, project, found, rooted, same⟩ : ∃ rootDir project found,
      source.Rooted start rootDir project ∧
      ∀ environment : Environment, (source.within environment).resolveIn start =
        (do
          let global ← source.global
          let project ← environment.overlay project
          Except.ok (⟨project, global, rootDir, found⟩ : Resolved)) := by
    cases near : source.nearest? start projectFile with
    | some dir =>
      have nearAgain : ∀ environment,
          (source.within environment).nearest? start projectFile = some dir := fun _ => near
      cases read : Project.read source.disk (dir / projectFile) with
      | error failure =>
        rw [resolveIn, near] at given
        simp only [read] at given
        cases given
      | ok project =>
        refine ⟨dir, project, true, (rooted_iff_of_nearest near).mpr ⟨rfl, read⟩, ?_⟩
        intro environment
        rw [resolveIn, nearAgain]
        simp only [within, read]
        rfl
    | none =>
      have nearAgain : ∀ environment,
          (source.within environment).nearest? start projectFile = none := fun _ => near
      refine ⟨_, .empty, false, (rooted_iff_of_none near).mpr ⟨rfl, rfl⟩, ?_⟩
      intro environment
      rw [resolveIn, nearAgain]
      rfl
  obtain ⟨global, user, rest⟩ := bind_eq_ok_iff.mp ((same source.environment).symm.trans given)
  obtain ⟨laid, lays, done⟩ := bind_eq_ok_iff.mp rest
  cases done
  refine ⟨project, rooted, user, lays, fun environment => ?_⟩
  rw [same, user]
  cases environment.overlay project <;> rfl

end Source

theorem Resolved.inEffect_settings (resolved : Resolved) (setting : Setting) :
    inEffect resolved.settings setting =
      ((resolved.project.get? setting).or (resolved.global.get? setting)).or setting.standard := by
  have counts : ∀ {α : Type} (value : Option α) (other : α),
      some (value.getD other) = value.or (some other) := by
    intro α value other
    cases value <;> rfl
  cases setting with
  | index =>
    have user : resolved.global.get? .index = none := rfl
    rw [user, Option.or_none]
    exact counts _ _
  | signature => exact (Option.or_none).symm
  | decimal => exact counts _ _
  | property key =>
    exact (Table.get?_overlay resolved.global.properties resolved.project.properties key).trans
      Option.or_none.symm

/-- What is resolved for a directory. Each setting is that of the environment, else of the project,
else of the user, else the standard one, so none hides another one that is set elsewhere. A flag in
the environment is a word for one and counts as that; any other word would do as well and change
nothing else, and any other text is refused. The signature, if there is one, can be part of a
version. -/
theorem settings_of_resolveIn {source : Source} {start : FilePath} {resolved : Resolved}
    (given : source.resolveIn start = .ok resolved) :
    let environment := source.environment
    let settings := resolved.settings
    ∃ project global, source.Rooted start settings.rootDir project ∧ source.global = .ok global ∧
      (∀ setting, inEffect settings setting = (((environment.get? setting).or
        (project.get? setting)).or (global.get? setting)).or setting.standard) ∧
      (∀ setting content, environment.get? setting = none → project.get? setting = some content →
        inEffect settings setting = some content) ∧
      (∀ setting content, environment.get? setting = none → project.get? setting = none →
        global.get? setting = some content → inEffect settings setting = some content) ∧
      (∀ text, environment.decimal = some text →
        ∃ flag, Means text flag ∧ inEffect settings .decimal = some flag) ∧
      (∀ text flag, Means text flag →
        ∃ other, (source.within (environment.withDecimal text)).resolveIn start = .ok other ∧
          inEffect other.settings .decimal = some flag ∧
          ∀ setting, setting ≠ .decimal →
            inEffect other.settings setting = inEffect settings setting) ∧
      (∀ text, (∀ flag, ¬Means text flag) →
        (source.within (environment.withDecimal text)).resolveIn start =
          .error (.invalidValue "DEPOT_DECIMAL_VERSIONING" (.notABoolean text))) ∧
      ∀ text, settings.signature = some text →
        text ≠ "" ∧ ∀ c ∈ text.toList, Text.isBlank c = false := by
  intro environment settings
  obtain ⟨project, rooted, user, laid, comes⟩ := Source.of_resolveIn given
  obtain ⟨overlaid, sound, readable⟩ := get?_of_overlay laid
  have effect : ∀ setting, inEffect settings setting = (((environment.get? setting).or
      (project.get? setting)).or (resolved.global.get? setting)).or setting.standard := by
    intro setting
    rw [← overlaid]
    exact resolved.inEffect_settings setting
  refine ⟨project, resolved.global, rooted, user, effect, ?overUser, ?overStandard, ?decided,
    ?accepted, ?refused, ?signed⟩
  case overUser =>
    intro setting content unset set
    rw [effect, unset, set]
    rfl
  case overStandard =>
    intro setting content unset without set
    rw [effect, unset, without, set]
    rfl
  case decided =>
    intro text set
    obtain ⟨flag, means, decides⟩ := readable text set
    rw [effect, decides]
    exact ⟨flag, means, rfl⟩
  case accepted =>
    intro text flag means
    obtain ⟨again, lays⟩ := (overlay_withDecimal laid text).1 flag means
    obtain ⟨above, _, _⟩ := get?_of_overlay lays
    have counts : ∀ setting,
        inEffect { resolved with project := again : Resolved }.settings setting =
          ((((environment.withDecimal text).get? setting).or
            (project.get? setting)).or (resolved.global.get? setting)).or setting.standard := by
      intro setting
      rw [← above]
      exact Resolved.inEffect_settings _ setting
    refine ⟨{ resolved with project := again }, ?_, ?_, fun setting away => ?_⟩
    · rw [comes, lays]
      rfl
    · rw [counts, Environment.get?_decimal rfl means]
      rfl
    · rw [counts, effect, get?_withDecimal away]
  case refused =>
    intro text none
    rw [comes, (overlay_withDecimal laid text).2 none]
    rfl
  case signed =>
    intro text stands
    have given : inEffect settings .signature = some text := stands
    rw [effect, Option.or_eq_some_iff, Option.or_eq_some_iff, Option.or_eq_some_iff] at given
    rcases given with ((set | ⟨_, set⟩) | ⟨_, set⟩) | ⟨_, set⟩
    · exact sound .signature text set
    · exact rooted.sound .signature text set
    · exact Source.sound_of_global user .signature text set
    · cases set

def workshop : Source where
  disk := (Disk.empty.withFile ["work", "depot.toml"] ("\n".intercalate
    ["[build]", "signature = \"BETA\"", "decimal = false", "", "[library]",
      "index = \"index.toml\"", "", "[properties]", "team = \"core\""])).withFile
    ["user.toml"] ("\n".intercalate
    ["[build]", "signature = \"SNAPSHOT\"", "decimal = false", "", "[properties]",
      "team = \"tools\"", "site = \"north\""])
  environment := ⟨some "RELEASE", some "Yes", some "conf/main.toml"⟩
  globalPath := ⟨"/user.toml"⟩

theorem settings_of_resolveIn_workshop :
    ∃ resolved, workshop.resolveIn ⟨"/work/deep/inside"⟩ = .ok resolved ∧
      resolved.settings.rootDir = ⟨"/work"⟩ ∧
      inEffect resolved.settings .index = some ⟨"conf/main.toml"⟩ ∧
      inEffect resolved.settings .decimal = some true ∧
      inEffect resolved.settings .signature = some "RELEASE" ∧
      inEffect resolved.settings (.property "team") = some "core" ∧
      inEffect resolved.settings (.property "site") = some "north" ∧
      (∀ c ∈ "RELEASE".toList, Text.isBlank c = false) ∧
      (workshop.within (workshop.environment.withDecimal "yeah")).resolveIn ⟨"/work/deep/inside"⟩ =
        .error (.invalidValue "DEPOT_DECIMAL_VERSIONING" (.notABoolean "yeah")) := by
  let project : Project :=
    ⟨some ⟨some ⟨"index.toml"⟩⟩, some ⟨some "BETA", some false⟩, Table.ofList [("team", "core")]⟩
  let global : Global :=
    ⟨some ⟨some "SNAPSHOT", some false⟩, Table.ofList [("team", "tools"), ("site", "north")]⟩
  let laid : Project :=
    { project with
      library := some ⟨some ⟨"conf/main.toml"⟩⟩, build := some ⟨some "RELEASE", some true⟩ }
  have near : workshop.nearest? ⟨"/work/deep/inside"⟩ projectFile = some ⟨"/work"⟩ := by
    decide +kernel
  have read : Project.read workshop.disk (FilePath.mk "/work" / projectFile) = .ok project :=
    readFile_eq_ok_iff.mpr ⟨_, rfl, by decide +kernel, rfl⟩
  have user : workshop.global = .ok global := by
    have there : workshop.disk.holds workshop.globalPath = true := by decide +kernel
    rw [Source.global, if_pos there]
    exact readFile_eq_ok_iff.mpr ⟨_, rfl, by decide +kernel, rfl⟩
  have lays : workshop.environment.overlay project = .ok laid := by
    have yes : readFlag "DEPOT_DECIMAL_VERSIONING" "Yes" = .ok true :=
      readFlag_eq_ok_iff.mpr (by decide)
    have index : checkIndex ⟨"conf/main.toml"⟩ = .ok () :=
      checkIndex_eq_ok_iff.mpr (by unfold Setting.Sound; decide +kernel)
    simp only [Environment.overlay, Environment.overDecimal, Environment.overIndex, workshop, yes,
      index]
    rfl
  have given : workshop.resolveIn ⟨"/work/deep/inside"⟩ = .ok ⟨laid, global, ⟨"/work"⟩, true⟩ := by
    rw [Source.resolveIn, near]
    simp only [read, user]
    refine bind_eq_ok_iff.mpr ⟨_, rfl, bind_eq_ok_iff.mpr ⟨_, rfl, ?_⟩⟩
    exact bind_eq_ok_iff.mpr ⟨_, rfl, bind_eq_ok_iff.mpr ⟨laid, lays, rfl⟩⟩
  obtain ⟨found, _, rooted, also, effect, _, _, decided, _, refused, signed⟩ :=
    settings_of_resolveIn given
  cases user.symm.trans also
  have placed := ((Source.rooted_iff_of_nearest near).mp rooted).2
  cases read.symm.trans placed
  obtain ⟨flag, means, stands⟩ := decided "Yes" rfl
  have yes : flag = true := by
    cases flag with
    | true => rfl
    | false => exact absurd means (by decide)
  exact ⟨_, given, rfl, effect .index, yes ▸ stands, effect .signature,
    effect (.property "team"), effect (.property "site"), (signed "RELEASE" rfl).2,
    refused "yeah" (by decide)⟩

end ResourceLibrary.Config
