import CognitiveRuntime.Mcp.Server
import CognitiveRuntime.Pack.Loader

/-!
# The deployment pack

`build_deployment_pack` copies the closure set of a source repository to
an empty directory, seals it with a manifest and has every route compiled
from the result before the manifest is finished. The repository may
change between any two accesses. The destination is new, holds no links,
and is nobody else's, so it is a value the builder passes on.

File names are Unicode text, and both roots are resolved paths.
-/

namespace CognitiveRuntime

open PyStr (ofString)
open Access Ordered Fallible

/-! ## A directory of one's own -/

inductive TreeEntry where
  | dir
  | file (data : ByteArray)

/-- What there is at each absolute path. -/
abbrev FileTree := PackPath → Option TreeEntry

/-- A path without its `..` parts. -/
def collapse (parts : List PyStr) : PackPath :=
  parts.foldl (fun path part => if part = ofString ".." then path.dropLast else path ++ [part]) []

namespace FileTree

/-- An empty directory, just made. -/
def fresh (root : PackPath) : FileTree := fun path =>
  if path.isPrefixOf root then some .dir else none

def isDir (tree : FileTree) (path : PackPath) : Bool :=
  match tree path with
  | some .dir => true
  | _ => false

def read (tree : FileTree) (path : PackPath) : Option ByteArray :=
  match tree path with
  | some (.file data) => some data
  | _ => none

/-- `mkdir(parents=True, exist_ok=True)`. -/
def mkdir (tree : FileTree) (path : PackPath) : Option FileTree :=
  if path.inits.any fun above => (tree.read above).isSome then none
  else some fun q => if q.isPrefixOf path && (tree q).isNone then some .dir else tree q

/-- `target.parent.mkdir(parents=True, exist_ok=True)` and
`target.write_bytes(data)`. -/
def place (tree : FileTree) (path : PackPath) (data : ByteArray) : Option FileTree :=
  (tree.mkdir path.dropLast).bind fun tree =>
    if tree.isDir path then none
    else some fun q => if q = path then some (.file data) else tree q

/-- The tree as the file system shows it. A reference is an absolute
path here. -/
def directory (tree : FileTree) : Directory where
  resolveRef ref := if ref.head? = some slash then some (collapse (pathParts ref)) else none
  resolve path := some (collapse path)
  isDir := tree.isDir
  isFile path := (tree.read path).isSome
  present path := (tree path).isSome
  read := tree.read

end FileTree

/-! ## The pack a service gets -/

/-- What `load_yaml_mapping` makes of the decoded bytes of a source, and
what the compiler reads of the two routing documents. -/
structure PackDocuments where
  mapping : ByteArray → String → Except RuntimeError (List (String × Json))
  rules : ByteArray → Except RuntimeError RoutingRules
  pipeline : ByteArray → Except RuntimeError PipelineDefinition

/-- Bytes as text, one character each. -/
def bytesText (data : ByteArray) : String :=
  String.ofList (data.data.toList.map fun b => Char.ofNat b.toNat)

def textBytes (text : String) : ByteArray :=
  ⟨(text.toList.map fun c => UInt8.ofNat c.toNat).toArray⟩

/-- A path of Unicode text. -/
def plainText (path : PyStr) : String := String.ofList (path.filterMap CodePoint.char?)

/-- An error of the loader, as the service raises it. -/
def PackFault.raised : PackFault → ServiceFault
  | .invalidValue message path details =>
      .raised (.model (.invalidValue message (some (plainText path))
        (if details = [] then .null
          else .obj (details.map fun e => (e.1, .str (plainText e.2))))))
  | .osError => .environment
  | .unicodeDecode => .environment

section Service

variable (documents : PackDocuments) (hash : ByteArray → String)

/-- The verified read of a pack that nothing changes any more. -/
def LoadedPack.contents (tree : FileTree) (pack : LoadedPack) (relative : String) :
    Option ByteArray :=
  match pack.readVerified (fun _ => tree.directory) hash (ofString relative) 0 with
  | .ok (data, _) => some data
  | .error _ => none

/-- The pack as the compiler reads it. -/
def LoadedPack.served (tree : FileTree) (pack : LoadedPack) : ServedPack where
  read relative := (require (pack.contents hash tree relative)
    (.invalidValue "pack file is not listed in the verified manifest" (some relative) .null)).map
      bytesText
  bytesDigest source := hash (textBytes source)
  loadMapping source := documents.mapping (textBytes source)
  escapesRoot relative :=
    !pack.provenance.root.isPrefixOf
      (collapse (pack.provenance.root ++ pathParts (ofString relative)))
  isFile relative :=
    (tree.read (collapse (pack.provenance.root ++ pathParts (ofString relative)))).isSome
  manifestDigest := pack.provenance.manifestDigest
  loadRules source := documents.rules (textBytes source)
  loadPipeline source := documents.pipeline (textBytes source)
  packRef := plainText pack.provenance.packRef
  root := plainText (pathText pack.provenance.root)
  fileDigests := pack.provenance.fileDigests.map fun e => (plainText e.1, e.2)

/-- `PackLoader().load(pack_root)` of a tree. -/
def loadTree [DecimalFloat] (tree : FileTree) (root : PackPath) :
    Except ServiceFault LoadedPack :=
  match loadPack hash (fun _ => tree.directory) (some (pathText root)) 0 with
  | .ok (pack, _) => .ok pack
  | .error fault => .error fault.raised

/-! ## Closure -/

/-- `validate_deployment_closure`'s result; its count is the number of
routes. -/
structure ClosureReport where
  routesCompiled : List String
  contextDigests : List (String × String)

def ClosureReport.toJson (report : ClosureReport) : Json :=
  .obj [("routes_compiled", .ofStrings report.routesCompiled),
    ("count", .int report.routesCompiled.length),
    ("context_digests", ofStringDict report.contextDigests)]

def representativeMission (token : String) : String := "Representative " ++ token ++ " mission"

variable [Sha256] [TextTables] [DecimalFloat]

/-- `compile_runtime(CompileRequest(mission=mission, pack_root=pack_root))`. -/
def compileSealed (tree : FileTree) (root : PackPath) (mission : String) :
    Except ServiceFault RuntimeBundle := do
  let (_, bundle) ← serviceCompile (.standard mission defaultTaskType)
    ((loadTree hash tree root).map fun pack => pack.served documents hash tree) none none
  .ok bundle

/-- One route: its representative mission has to compile that very route. -/
def closeRoute (tree : FileTree) (root : PackPath) (route : String × Route) :
    Except ServiceFault (String × String) := do
  let token ← require route.2.matchAny.head?
    (serviceRefusal "route without match_any tokens" route.1)
  let mission := representativeMission token
  let bundle ← compileSealed documents hash tree root mission
  let matched := bundle.execution.metadata.matchedRoute
  ensure (matched = route.1)
    (.raised (.model (.invalidValue "representative mission compiled a different route"
      (some route.1) (.obj [("route", .str route.1), ("matched_route", .str matched),
        ("mission", .str mission)]))))
  .ok (route.1, bundle.taskContext.sha256)

omit [TextTables] [Sha256] in
/-- The routes of the rules a sealed pack carries, through the verified
read. -/
def sealedRoutes (tree : FileTree) (root : PackPath) :
    Except ServiceFault (List (String × Route)) := do
  let pack ← loadTree hash tree root
  let served := pack.served documents hash tree
  let source ← (served.read rulesRel).mapError fun e => .raised (.model e)
  let rules ← (served.loadRules source).mapError fun e => .raised (.model e)
  .ok (sortedBy Prod.fst rules.taskRoutes)

/-- `validate_deployment_closure`. -/
def validateDeploymentClosure (tree : FileTree) (root : PackPath) :
    Except ServiceFault ClosureReport := do
  let routes ← sealedRoutes documents hash tree root
  let closed ← routes.mapM (closeRoute documents hash tree root)
  .ok { routesCompiled := closed.map Prod.fst, contextDigests := dictOf closed }

end Service

/-! ## Sources -/

/-- The source repository at one access. -/
structure SourceRepo extends Directory where
  /-- The parts of everything below a directory, at any depth. -/
  rglob : PackPath → List (List String)
  /-- The names in a directory. -/
  names : PackPath → List String

abbrev Sealing (α : Type) := Access ServiceFault α

/-- `_MUSEUM_CONTRACTS`. -/
def museumContracts : List String :=
  ["FINAL_EXECUTION_CONTRACT.yaml", "VALIDATION_CONTRACT.yaml", "HANDOFF_CONTRACT.yaml",
    "EXECUTION_GRAPH.json"]

/-- `_CLOSURE_SOURCES`. -/
def closureSources : List String :=
  ["runtime/kernel_pipeline/planner/TASK_ROUTING_RULES.yaml",
    "runtime/kernel_pipeline/KERNEL_PIPELINE.yaml",
    "runtime/kernel_pipeline/KERNEL_ROLE_MAP.yaml",
    "runtime/kernel_pipeline/planner/ACTIVATION_PLAN_SCHEMA.yaml",
    "runtime/intent_compiler/INTENT_COMPILER.yaml",
    "runtime/execution_graph/graph.schema.json",
    "runtime/kernels/terminal/flawless_victory.contract.yaml"]

section Build

variable (repo : Nat → SourceRepo) (source : PackPath)

/-- `_source_file`. -/
def sourceFile (relative : String) : Sealing PackPath := do
  let parts := pathParts (ofString relative)
  let escapes := serviceRefusal "deployment source path escapes repository" relative
  check ((ofString relative).head? ≠ some slash && !parts.contains (ofString "..")) escapes
  let candidate ← demand repo (·.resolve (source ++ parts)) .environment
  check (source.isPrefixOf candidate) escapes
  let isFile ← ask repo (·.isFile candidate)
  check isFile (serviceRefusal "deployment source file missing" relative)
  pure candidate

def posixPath (parts : List String) : String := String.intercalate "/" parts

/-- `_iter_kernel_sources`. -/
def kernelSources : Sealing (List String) := do
  let kernelsRoot := source ++ [ofString "runtime", ofString "kernels"]
  let isDir ← ask repo (·.isDir kernelsRoot)
  check isDir (serviceRefusal "runtime/kernels missing" "runtime/kernels")
  let files ← ask repo fun r => (r.rglob kernelsRoot).filter fun parts =>
    r.isFile (kernelsRoot ++ parts.map ofString)
  pure (sortedBy id (files.map fun parts => posixPath ("runtime" :: "kernels" :: parts)))

/-- `_iter_schema_sources`. -/
def schemaSources : Sealing (List String) := do
  let schemaRoot := source ++ [ofString "contracts"]
  let isDir ← ask repo (·.isDir schemaRoot)
  check isDir (serviceRefusal "contracts missing" "contracts")
  let files ← ask repo fun r => (r.names schemaRoot).filter fun name =>
    name.endsWith ".schema.json" && r.isFile (schemaRoot ++ [ofString name])
  pure (sortedBy id (files.map fun name => posixPath ["contracts", name]))

/-- `_iter_adapter_sources`. -/
def adapterSources : Sealing (List String) := do
  let adapterRoot := source ++
    [ofString "runtime", ofString "contract_compiler", ofString "adapters"]
  let isDir ← ask repo (·.isDir adapterRoot)
  check isDir (serviceRefusal "adapter templates missing" (plainText (pathText adapterRoot)))
  let files ← ask repo fun r => (r.names adapterRoot).filter fun name =>
    name.endsWith ".md" && r.isFile (adapterRoot ++ [ofString name])
  pure (sortedBy id (files.map fun name =>
    posixPath ["runtime", "contract_compiler", "adapters", name]))

/-! ## Copies -/

/-- The source of each target. -/
abbrev Copies := List (String × String)

/-- `.replace("\\", "/")`. -/
def slashes (path : String) : String :=
  String.ofList (path.toList.map fun c => if c = '\\' then '/' else c)

/-- The entry `register` makes: no target has two sources. -/
def Copies.put (copies : Copies) (source target : String) : Except ServiceFault Copies :=
  match copies.lookup target with
  | none => .ok (copies ++ [(target, source)])
  | some first =>
      if first = source then .ok copies
      else .error (.raised (.model (.invalidValue "deployment alias collision" (some target)
        (.obj [("first", .str first), ("second", .str source)]))))

/-- `register`, for a list of sources and targets. -/
def registerAll : List (String × String) → Copies → Sealing Copies
  | [], copies => pure copies
  | (relative, target) :: rest, copies => do
    let _ ← sourceFile repo source relative
    let copies ← lift (copies.put relative (slashes target))
    registerAll rest copies

/-- A source under its own path. -/
def ownPath (relative : String) : String × String := (relative, relative)

/-- A source under its own path and under a public name. -/
def withAlias (dir relative : String) : List (String × String) :=
  [(relative, relative), (relative, dir ++ pathName relative)]

/-- Everything a pack is to hold. -/
def collectCopies : Sealing Copies := do
  let copies ← registerAll repo source (museumContracts.map ownPath) []
  let copies ← registerAll repo source (closureSources.map ownPath) copies
  let kernels ← kernelSources repo source
  let copies ← registerAll repo source (kernels.flatMap (withAlias "kernels/")) copies
  let schemas ← schemaSources repo source
  let copies ← registerAll repo source (schemas.flatMap (withAlias "schemas/")) copies
  let adapters ← adapterSources repo source
  registerAll repo source (adapters.map ownPath) copies

/-- A file as it was copied. -/
structure SealedFile where
  path : String
  sourcePath : String
  data : ByteArray

/-- The entry of a file in the manifest. -/
def SealedFile.toJson (hash : ByteArray → String) (file : SealedFile) : Json :=
  .obj [("path", .str file.path), ("source_path", .str file.sourcePath),
    ("bytes", .int file.data.size), ("sha256", .str (hash file.data))]

/-- The loop over the sorted targets. -/
def copyFiles (dest : PackPath) :
    List (String × String) → FileTree → Sealing (FileTree × List SealedFile)
  | [], tree => pure (tree, [])
  | (target, relative) :: rest, tree => do
    let path ← sourceFile repo source relative
    let data ← demand repo (·.read path) .environment
    let tree ← found (tree.place (collapse (dest ++ pathParts (ofString target))) data)
      .environment
    let (tree, files) ← copyFiles dest rest tree
    pure (tree, { path := target, sourcePath := relative, data := data } :: files)

end Build

/-! ## Sealing -/

/-- `_FULL_SHA.fullmatch(revision)`. -/
def isFullSha (revision : String) : Bool :=
  revision.toList.length = 40 && revision.toList.all fun c =>
    ('0' ≤ c && c ≤ '9') || ('a' ≤ c && c ≤ 'f')

/-- `base_manifest`. -/
def baseManifest (hash : ByteArray → String) (revision : String) (files : List SealedFile) :
    List (String × Json) :=
  [("manifest_format", .str "l9.mcp.deployment-pack.v1"),
    ("pack_name", .str "l9-cognitive-runtime-deployment"),
    ("pack_version", .str (String.ofList (revision.toList.take 12))),
    ("source_repository", .str "https://github.com/Quantum-L9/l9-cognitive-runtime"),
    ("source_revision", .str revision),
    ("files", .arr (files.map (SealedFile.toJson hash)))]

/-- `json.dumps(manifest, indent=2, sort_keys=True) + "\n"`. -/
def manifestBytes (manifest : List (String × Json)) : ByteArray :=
  ((Json.obj manifest).dumpsIndented ++ "\n").toUTF8

/-- What a build leaves: the tree, what was copied and what was proved. -/
structure SealedPack where
  tree : FileTree
  revision : String
  files : List SealedFile
  closure : ClosureReport

/-- The finished manifest. -/
def SealedPack.manifest (hash : ByteArray → String) (pack : SealedPack) : List (String × Json) :=
  baseManifest hash pack.revision pack.files ++ [("semantic_closure", pack.closure.toJson)]

/-- `build_deployment_pack`. The destination is vacant when it is absent
or an empty directory. -/
def buildDeploymentPack [Sha256] [TextTables] [DecimalFloat] (documents : PackDocuments)
    (hash : ByteArray → String) (repo : Nat → SourceRepo) (source dest : PackPath) (vacant : Bool)
    (sourceRevision : String) : Sealing SealedPack := do
  let revision := TextTables.lower (strip sourceRevision)
  check (isFullSha revision) (.raised (.model
    (.invalidValue "source_revision must be a full 40-character git SHA" none .null)))
  let isDir ← ask repo (·.isDir source)
  check isDir (serviceRefusal "source_root must be a directory" (plainText (pathText source)))
  check (!source.isPrefixOf dest)
    (serviceRefusal "destination must be outside source_root" (plainText (pathText dest)))
  check vacant
    (serviceRefusal "destination must be absent or empty" (plainText (pathText dest)))
  let copies ← collectCopies repo source
  let (tree, files) ← copyFiles repo source dest (sortedBy Prod.fst copies) (.fresh dest)
  let manifestPath := dest ++ [manifestName]
  let manifest := baseManifest hash revision files
  let unproven ← found (tree.place manifestPath (manifestBytes manifest)) .environment
  let closure ← lift (validateDeploymentClosure documents hash unproven dest)
  let tree ← found (unproven.place manifestPath
    (manifestBytes (manifest ++ [("semantic_closure", closure.toJson)]))) .environment
  pure { tree := tree, revision := revision, files := files, closure := closure }

end CognitiveRuntime
