import ResourceLibrary.Proofs.Library.Lookups
import ResourceLibrary.Proofs.Library.SelectionAgreement
import ResourceLibrary.Proofs.Text.References

/-!
References to products. A reference under the scheme `resource` or `alias` names a product and the
path of the resource that it belongs to. Main statement: such a reference is turned into the
coordinate of that product, wherever it is asked from; other references stay as they are, those
under an artifact scheme if they can be read.
-/

namespace ResourceLibrary

def Deliverable.Named (product : Deliverable) (kind : String) : Prop :=
  product.id = kind ∨ product.compoundName = kind

theorem Deliverable.named_iff (product : Deliverable) {kind : String} :
    (product.id == kind || product.compoundName == kind) = true ↔ product.Named kind := by
  rw [Bool.or_eq_true, beq_iff_eq, beq_iff_eq, Named]

namespace Node
variable {node : Node} {kind : String}

def Offers (node : Node) (kind : String) (product : Deliverable) : Prop :=
  ∃ front back, node.deliverables = front ++ product :: back ∧ product.Named kind ∧
    ∀ other ∈ front, ¬other.Named kind

theorem deliverable_eq_ok_iff {product : Deliverable} :
    node.deliverable kind = .ok product ↔ node.Offers kind product := by
  have found : node.deliverables.find? (fun d => d.id == kind || d.compoundName == kind) =
      some product ↔ node.Offers kind product := by
    rw [List.find?_eq_some_iff_append, Deliverable.named_iff]
    simp only [Bool.not_eq_true', ← Bool.not_eq_true, Deliverable.named_iff]
    constructor
    · rintro ⟨named, front, back, parts, others⟩
      exact ⟨front, back, parts, named, others⟩
    · rintro ⟨front, back, parts, named, others⟩
      exact ⟨named, front, back, parts, others⟩
  rw [← found, deliverable]
  split
  · next same => rw [same, Except.ok.injEq, Option.some.injEq]
  · next absent =>
    rw [absent]
    exact iff_of_false nofun nofun

theorem deliverable_eq_typeNotFound_iff :
    node.deliverable kind = .error (.typeNotFound kind node.text) ↔
      ∀ product ∈ node.deliverables, ¬product.Named kind := by
  have none : node.deliverables.find? (fun d => d.id == kind || d.compoundName == kind) =
      Option.none ↔ ∀ product ∈ node.deliverables, ¬product.Named kind := by
    simp only [List.find?_eq_none, Deliverable.named_iff]
  rw [← none, deliverable]
  split
  · next found =>
    rw [found]
    exact iff_of_false nofun nofun
  · next absent => exact iff_of_true rfl absent

end Node

namespace Query
variable {library : Library} {registry : Registry} {reference scheme : String}

theorem schemeOf_append (single : ':' ∉ scheme.toList) (rest : String) :
    schemeOf (scheme ++ ":" ++ rest) = scheme := by
  have cut : Text.cut? ':' (scheme ++ ":" ++ rest).toList = some (scheme.toList, rest.toList) :=
    Text.cut?_eq_some_iff.mpr ⟨by simp, single⟩
  rw [schemeOf, cut]
  exact String.ofList_toList

theorem answer_artifactReference_of_isScheme
    (known : Coordinate.isScheme (schemeOf reference) = true) :
    (artifactReference reference).answer library registry =
      ((Coordinate.parse reference).map fun _ => reference, registry) := by
  rw [artifactReference, if_pos known, answer_bind, answer_ofExcept]
  cases Coordinate.parse reference <;> rfl

theorem answer_artifactReference_of_other
    (other : schemeOf reference ∉ "resource" :: "alias" :: Coordinate.schemes) :
    (artifactReference reference).answer library registry = (.ok reference, registry) := by
  simp only [List.mem_cons, not_or] at other
  obtain ⟨resource, link, unknown⟩ := other
  have unread : ¬Coordinate.isScheme (schemeOf reference) = true := fun known =>
    unknown (List.contains_iff_mem.mp known)
  rw [artifactReference, if_neg unread, if_pos (by simp [resource, link])]
  rfl

theorem answer_artifactReference_of_parseAny (listed : scheme ∈ ["resource", "alias"])
    (schemed : schemeOf reference = scheme) {coordinate : Coordinate}
    (read : Coordinate.parseAny reference = .ok coordinate) :
    (artifactReference reference).answer library registry =
      ((resolve (library.node registry) Library.root coordinate.path).bind fun id =>
        ((library.node registry id).deliverable coordinate.kind).map fun product =>
          (if scheme = "resource" then product.coordinate else product.linkCoordinate).text,
        registry) := by
  have clear : ∀ scheme ∈ ["resource", "alias"], ¬Coordinate.isScheme scheme = true ∧
      ¬(scheme ≠ "resource" && scheme ≠ "alias") = true := by decide
  rw [artifactReference, schemed, if_neg (clear scheme listed).1, if_neg (clear scheme listed).2,
    read, answer_bind, answer_ofExcept]
  simp only
  rw [answer_bind, answer_lookup]
  cases resolve (library.node registry) Library.root coordinate.path with
  | error failure => rfl
  | ok id =>
    simp only
    rw [answer_bind, answer_node]
    simp only
    rw [answer_bind, answer_ofExcept, Except.bind]
    cases (library.node registry id).deliverable coordinate.kind <;> rfl

theorem answer_artifactReference_of_path {kind : String} {path : ResourcePath}
    (listed : scheme ∈ ["resource", "alias"]) (long : 2 ≤ path.length)
    (clear : ∀ text ∈ kind :: path.segments, Text.Markless text)
    (full : ∀ segment ∈ path.segments, segment ≠ "") :
    (artifactReference (scheme ++ ":" ++ kind ++ ":" ++ path.text)).answer library registry =
      ((resolve (library.node registry) Library.root path.text).bind fun id =>
        ((library.node registry id).deliverable kind).map fun product =>
          (if scheme = "resource" then product.coordinate else product.linkCoordinate).text,
        registry) := by
  obtain ⟨named, markless⟩ : scheme ≠ "" ∧ Text.Markless scheme := by
    simp only [List.mem_cons, List.not_mem_nil, or_false] at listed
    rcases listed with rfl | rfl
    · exact ⟨by decide, by simp [Text.Markless]⟩
    · exact ⟨by decide, by simp [Text.Markless]⟩
  obtain ⟨coordinate, read, rfl, placed⟩ :=
    Coordinate.parseAny_of_path named (List.forall_mem_cons.mpr ⟨markless, clear⟩) full long
  have schemed : schemeOf (scheme ++ ":" ++ coordinate.kind ++ ":" ++ path.text) = scheme := by
    rw [String.append_assoc, String.append_assoc]
    exact schemeOf_append (markless ':' (by simp)) _
  rw [answer_artifactReference_of_parseAny listed schemed read, placed]

/-- It makes no difference to what a reference is turned into what was asked for before. -/
theorem artifactReference_always (tree : library.arena.IsTree) {first second : Registry}
    (one : Registry.Reached library first) (two : Registry.Reached library second) :
    ((artifactReference reference).answer library first).1 =
      ((artifactReference reference).answer library second).1 := by
  obtain ⟨_, _, ⟨_, _, left, right, rfl⟩ | ⟨_, left, right⟩⟩ :=
    agree_artifactReference tree ⟨first, second, one, two⟩ reference
  · rw [left, right]
  · rw [left, right]

end Query

namespace Library

theorem answer_artifactReference_of_frozen {library : Library} (tree : library.arena.IsTree)
    (registry : Registry) {id : ResourceId} (frozen : id < library.frozen.size)
    (long : 2 ≤ (library.node registry id).path.length) {scheme kind : String}
    (listed : scheme ∈ ["resource", "alias"])
    (clear : ∀ text ∈ kind :: (library.node registry id).path.segments, Text.Markless text) :
    (Query.artifactReference (scheme ++ ":" ++ kind ++ ":" ++
        (library.node registry id).path.text)).answer library registry =
      (((library.node registry id).deliverable kind).map fun product =>
        (if scheme = "resource" then product.coordinate else product.linkCoordinate).text,
        registry) := by
  have away : id ≠ root := by
    rintro rfl
    rw [(top_root tree registry).path] at long
    contradiction
  have full : ∀ segment ∈ (library.node registry id).path.segments, segment ≠ "" :=
    fun segment member =>
      (tree.isSegment_of_mem_path (node?_of_lt frozen registry) segment member).1
  rw [Query.answer_artifactReference_of_path listed long clear full,
    resolve_path tree registry frozen away, Except.bind]

theorem resolve_eq_error {library : Library} (tree : library.arena.IsTree) (registry : Registry)
    {path : ResourcePath} (some : path.segments ≠ [])
    (segments : ∀ segment ∈ path.segments, ResourcePath.IsSegment segment)
    (none : ∀ id < library.frozen.size, (library.node registry id).path ≠ path) :
    resolve (library.node registry) root path.text = .error (.resourceNotFound path.text) ∨
      ∃ front, resolve (library.node registry) root path.text = .error (.notAModule front "") := by
  have read := ResourcePath.parse_text some segments
  have top := (top_root tree registry).path
  cases done : resolve (library.node registry) root path.text with
  | ok id =>
    obtain ⟨way, node, also, there, same⟩ := tree.path_of_resolve (node_of_node? · registry)
      (node?_of_lt (size_pos_of_isTree tree) registry) done
    cases read.symm.trans also
    rw [top, ResourcePath.root, List.nil_append] at same
    refine absurd (ResourcePath.ext ?_) (none id (lt_of_node? there))
    rw [node_of_node? there, same]
  | error failure =>
    cases (resolve_eq_iff read).mp done with
    | plain _ _ _ _ =>
      right
      rw [top]
      exact ⟨_, rfl⟩
    | missing _ _ _ _ => exact .inl rfl

/-- A reference to a product of a resource is turned into the coordinate of the first product that
goes by the name, or of whatever version of it is in use, and fails where there is none. It fails on
the way, too, where no resource has the path. All other references stay as they are, those under an
artifact scheme exactly if they can be read. It is the library alone that this depends on. -/
theorem artifactReference_of_build {settings : Settings} {host : Host} {load : ImportLoader}
    {catalog : Catalog} {library : Library}
    (built : build settings host load catalog = .ok library) (session : List Request) :
    let registry := library.after session
    let nodes := library.node registry
    let answers := fun reference outcome =>
      (Query.artifactReference reference).answer library registry = (outcome, registry)
    let naming := fun scheme kind (path : ResourcePath) => scheme ++ ":" ++ kind ++ ":" ++ path.text
    (∀ id < library.frozen.size, ∀ kind, 2 ≤ (nodes id).path.length →
      (∀ text ∈ kind :: (nodes id).path.segments, Text.Markless text) →
      (∀ product, (nodes id).Offers kind product →
        answers (naming "resource" kind (nodes id).path) (.ok product.coordinate.text) ∧
        answers (naming "alias" kind (nodes id).path) (.ok product.linkCoordinate.text)) ∧
      ∀ scheme ∈ ["resource", "alias"],
        (answers (naming scheme kind (nodes id).path)
            (.error (.typeNotFound kind (nodes id).text)) ↔
          ∀ product ∈ (nodes id).deliverables, ¬product.Named kind)) ∧
    (∀ (path : ResourcePath) kind, 2 ≤ path.length →
      (∀ text ∈ kind :: path.segments, Text.Markless text) →
      (∀ segment ∈ path.segments, segment ≠ "") →
      (∀ id < library.frozen.size, (nodes id).path ≠ path) → ∀ scheme ∈ ["resource", "alias"],
        answers (naming scheme kind path) (.error (.resourceNotFound path.text)) ∨
          ∃ front, answers (naming scheme kind path) (.error (.notAModule front ""))) ∧
    (∀ reference, Query.schemeOf reference ∉ "resource" :: "alias" :: Coordinate.schemes →
      answers reference (.ok reference)) ∧
    (∀ reference, Query.schemeOf reference ∈ Coordinate.schemes →
      (answers reference (.ok reference) ↔
        ∃ coordinate, Coordinate.parse reference = .ok coordinate)) ∧
    ∀ reference other, ((Query.artifactReference reference).answer library registry).1 =
      ((Query.artifactReference reference).answer library (library.after other)).1 := by
  intro registry nodes answers naming
  have tree := isTree_of_build built
  refine ⟨?product, ?nowhere, fun _ => Query.answer_artifactReference_of_other, ?read, ?always⟩
  case product =>
    intro id frozen kind long clear
    have asked := fun {scheme} (listed : scheme ∈ ["resource", "alias"]) =>
      answer_artifactReference_of_frozen tree registry frozen long listed clear
    constructor
    · intro product offered
      simp only [answers, naming, asked, Node.deliverable_eq_ok_iff.mpr offered, List.mem_cons,
        true_or, or_true, nodes]
      exact ⟨rfl, rfl⟩
    · intro scheme listed
      simp only [answers, naming, asked listed, ← Node.deliverable_eq_typeNotFound_iff, nodes]
      cases (library.node registry id).deliverable kind <;> simp [Except.map]
  case nowhere =>
    intro path kind long clear full none scheme listed
    have segments : ∀ segment ∈ path.segments, ResourcePath.IsSegment segment :=
      fun segment member => ⟨full segment member, clear segment (by simp [member]) '/' (by simp)⟩
    have some : path.segments ≠ [] := by
      intro empty
      rw [ResourcePath.length, empty] at long
      contradiction
    have missing := resolve_eq_error tree registry some segments none
    simp only [answers, naming, Query.answer_artifactReference_of_path listed long clear full]
    rcases missing with missing | ⟨front, missing⟩
    · left
      rw [missing]
      rfl
    · right
      refine ⟨front, ?_⟩
      rw [missing]
      rfl
  case read =>
    intro reference known
    simp only [answers,
      Query.answer_artifactReference_of_isScheme (List.contains_iff_mem.mpr known)]
    cases Coordinate.parse reference <;> simp [Except.map]
  case always =>
    intro reference other
    exact Query.artifactReference_always tree (library.reached_after session)
      (library.reached_after other)

def offering : Catalog :=
  Catalog.empty.withResource ((Declaration.module "acme").withNested
    (((Declaration.resource "api").withVersion "1.0").withProduct (.ofId "jar")))

theorem artifactReference_of_build_offering :
    ∃ library, build (.ofRoot ⟨"/"⟩) "now" .none offering = .ok library ∧
      let turned := fun reference =>
        (Query.artifactReference reference).answer library (library.after [])
      turned "resource:jar:acme/api" = (.ok "artifact:jar:acme/api#1.0", .empty) ∧
      turned "alias:jar:acme/api" = (.ok "link:jar:acme/api", .empty) ∧
      turned "resource:war:acme/api" =
        (.error (.typeNotFound "war" "resource:acme/api#1.0"), .empty) ∧
      (turned "resource:jar:acme/missing" =
          (.error (.resourceNotFound "acme/missing"), .empty) ∨
        ∃ front, turned "resource:jar:acme/missing" = (.error (.notAModule front ""), .empty)) ∧
      turned "http://example.org" = (.ok "http://example.org", .empty) ∧
      turned "artifact:jar:x/y#1" = (.ok "artifact:jar:x/y#1", .empty) := by
  obtain ⟨library, built, size, paths, path, shown, product, made, id, compound, text, link⟩ :
      ∃ library, build (.ofRoot ⟨"/"⟩) "now" .none offering = .ok library ∧
      library.frozen.size = 3 ∧
      (∀ id < 3, (library.node (library.after []) id).path ≠ ⟨["acme", "missing"]⟩) ∧
      (library.node (library.after []) 2).path = ⟨["acme", "api"]⟩ ∧
      (library.node (library.after []) 2).text = "resource:acme/api#1.0" ∧ ∃ product,
      (library.node (library.after []) 2).deliverables = [product] ∧ product.id = "jar" ∧
      product.compoundName = "jar" ∧ product.coordinate.text = "artifact:jar:acme/api#1.0" ∧
      product.linkCoordinate.text = "link:jar:acme/api" :=
    ⟨_, rfl, rfl, by decide +kernel, rfl, rfl, _, rfl, rfl, rfl, rfl, rfl⟩
  obtain ⟨products, nowhere, other, read, _⟩ := artifactReference_of_build built []
  have frozen : 2 < library.frozen.size := by
    rw [size]
    decide
  have plain : ∀ kind ∈ ["jar", "war"], ∀ name ∈ ["api", "missing"],
      ∀ text ∈ [kind, "acme", name], Text.Markless text := by
    simp [Text.Markless]
  have clear : ∀ kind ∈ ["jar", "war"],
      ∀ text ∈ kind :: (library.node (library.after []) 2).path.segments, Text.Markless text := by
    rw [path]
    exact fun kind listed => plain kind listed "api" (by simp)
  have long : 2 ≤ (library.node (library.after []) 2).path.length := by
    rw [path]
    decide
  have offered : (library.node (library.after []) 2).Offers "jar" product :=
    ⟨[], [], made, .inl id, by simp⟩
  obtain ⟨whole, latest⟩ :=
    (products 2 frozen "jar" long (clear "jar" (by simp))).1 product offered
  have foreign : ∀ product ∈ (library.node (library.after []) 2).deliverables,
      ¬product.Named "war" := by
    simp [made, Deliverable.Named, id, compound]
  have unoffered := ((products 2 frozen "war" long (clear "war" (by simp))).2 "resource"
    (by simp)).mpr foreign
  have missing := nowhere ⟨["acme", "missing"]⟩ "jar" (by decide) (plain "jar" (by simp) "missing"
    (by simp)) (by decide) (by rw [size]; exact paths) "resource" (by simp)
  have outside := other "http://example.org" (by decide)
  have coordinate := (read "artifact:jar:x/y#1" (by decide)).mpr ⟨_, rfl⟩
  rw [path] at whole latest unoffered
  rw [text] at whole
  rw [link] at latest
  rw [shown] at unoffered
  exact ⟨library, built, whole, latest, unoffered, missing, outside, coordinate⟩

end Library
end ResourceLibrary
