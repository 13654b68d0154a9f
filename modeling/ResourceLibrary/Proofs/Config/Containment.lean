import ResourceLibrary.Proofs.Config.Precedence
import ResourceLibrary.Proofs.Text.Joining

/-!
Where the index of a library is. Main statement: whatever a project or the environment sets, the
index that is resolved stands at or below the root directory of the library.
-/

namespace ResourceLibrary.Config

theorem sound_of_overlay {environment : Environment} {project laid : Project}
    (given : environment.overlay project = .ok laid)
    (sound : ∀ setting content, project.get? setting = some content → setting.Sound content) :
    ∀ setting content, laid.get? setting = some content → setting.Sound content := by
  obtain ⟨overlaid, set, _⟩ := get?_of_overlay given
  intro setting content stands
  rw [overlaid, Option.or_eq_some_iff] at stands
  rcases stands with above | ⟨_, under⟩
  · exact set setting content above
  · exact sound setting content under

namespace Source
variable {source : Source}

theorem of_resolveFile {path : FilePath} {resolved : Resolved}
    (given : source.resolveFile path = .ok resolved) :
    ∃ project, Project.read source.disk path = .ok project ∧
      source.global = .ok resolved.global ∧
      source.environment.overlay project = .ok resolved.project ∧
      path.parent? = some resolved.rootDir := by
  obtain ⟨project, read, rest⟩ := bind_eq_ok_iff.mp given
  obtain ⟨global, user, rest⟩ := bind_eq_ok_iff.mp rest
  obtain ⟨laid, lays, rest⟩ := bind_eq_ok_iff.mp rest
  cases up : path.parent? with
  | none =>
    rw [up] at rest
    cases rest
  | some rootDir =>
    rw [up] at rest
    cases rest
    exact ⟨project, read, user, lays, rfl⟩

def Resolves (source : Source) (resolved : Resolved) : Prop :=
  (∃ start, source.resolveIn start = .ok resolved) ∨
    ∃ path, source.resolveFile path = .ok resolved

theorem Resolves.sound {resolved : Resolved} (given : source.Resolves resolved) :
    ∀ setting content, resolved.project.get? setting = some content → setting.Sound content := by
  rcases given with ⟨start, given⟩ | ⟨path, given⟩
  · obtain ⟨_, rooted, _, laid, _⟩ := of_resolveIn given
    exact sound_of_overlay laid rooted.sound
  · obtain ⟨_, read, _, laid, _⟩ := of_resolveFile given
    exact sound_of_overlay laid (Project.check_eq_ok_iff.mp (check_of_readFile read))

end Source

theorem sound_defaultIndex : Setting.index.Sound Settings.defaultIndex := by
  unfold Setting.Sound
  decide

theorem Source.Resolves.sound_index {source : Source} {resolved : Resolved}
    (given : source.Resolves resolved) : Setting.index.Sound resolved.settings.index := by
  have placed : resolved.settings.index = resolved.project.index?.getD Settings.defaultIndex := rfl
  rw [placed]
  cases set : resolved.project.index? with
  | none => exact sound_defaultIndex
  | some index => exact given.sound .index index set

/-- The normal form of the index path is that of the root directory with the names of the index
behind it, so it starts with the root; and from wherever both are followed, the index leads the same
names further down than the root. -/
theorem index_within_root {source : Source} {resolved : Resolved}
    (given : source.Resolves resolved) :
    let settings := resolved.settings
    settings.indexPath.normalize.startsWith settings.rootDir.normalize = true ∧
      ∃ names : List String, settings.index.components.filter (· ≠ .current) = names.map .name ∧
        settings.indexPath.normalize.components =
          settings.rootDir.normalize.components ++ names.map .name ∧
        ∀ directory, settings.indexPath.location directory =
          names.reverse ++ settings.rootDir.location directory := by
  intro settings
  obtain ⟨_, below, down⟩ := given.sound_index
  obtain ⟨names, kept, further⟩ := Course.exists_names_of_down below down
  have joined : settings.indexPath.normalize.components =
      settings.rootDir.normalize.components ++ names.map .name :=
    FilePath.components_normalize_join further
  refine ⟨?inside, names, kept, joined, fun directory => ?_⟩
  case inside =>
    rw [FilePath.startsWith_iff, joined]
    exact List.prefix_append _ _
  · rw [Settings.indexPath, FilePath.location_join]
    exact FilePath.location_of_down further _

def indexed : Source := ⟨.empty, ⟨none, none, some "./conf//main.toml"⟩, ⟨"/user.toml"⟩⟩

theorem index_within_root_indexed :
    ∃ resolved, indexed.resolveIn ⟨"../lib/"⟩ = .ok resolved ∧
      resolved.settings.indexPath = ⟨"../lib/./conf//main.toml"⟩ ∧
      resolved.settings.indexPath.normalize.startsWith resolved.settings.rootDir.normalize = true ∧
      resolved.settings.indexPath.location ["work", "home"] =
        ["main.toml", "conf"] ++ resolved.settings.rootDir.location ["work", "home"] := by
  let resolved : Resolved :=
    ⟨⟨some ⟨some ⟨"./conf//main.toml"⟩⟩, none, ∅⟩, .empty, ⟨"../lib/"⟩, false⟩
  have given : indexed.resolveIn ⟨"../lib/"⟩ = .ok resolved := by
    have away : indexed.nearest? ⟨"../lib/"⟩ projectFile = none := by decide +kernel
    have bare : indexed.nearest? ⟨"../lib/"⟩ Settings.defaultIndex.text = none := by decide +kernel
    have absent : indexed.disk.holds indexed.globalPath = false := by decide +kernel
    have user : indexed.global = .ok .empty := by rw [Source.global, absent]; rfl
    rw [Source.resolveIn, away, bare, user]
    rfl
  obtain ⟨inside, names, kept, _, further⟩ := index_within_root (.inl ⟨_, given⟩)
  have shown : resolved.settings.index.components.filter (· ≠ .current) =
      ["conf", "main.toml"].map Component.name := by decide
  have same : names = ["conf", "main.toml"] :=
    (List.map_inj_right fun _ _ alike => Component.name.inj alike).mp (kept.symm.trans shown)
  subst same
  exact ⟨resolved, given, by decide, inside, further _⟩

end ResourceLibrary.Config
