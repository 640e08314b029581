import CognitiveRuntime.Models.Plan

/-!
# Kernel bindings and declared context needs

A kernel file declares typed outputs and typed context needs; both are
parsed from its document and fail closed on bad shapes. The resolver
binds every activated kernel to the bytes it was parsed from.

Reading files, hashing bytes and parsing YAML belong to the pack and are
the fields of `SourcePack`.
-/

namespace CognitiveRuntime

open Ordered Fallible

/-! ## Bindings -/

structure KernelOutput where
  outputId : String
  required : Bool
  consumerRefs : List String
  deriving DecidableEq

/-- A kernel's typed, task-independent declaration of context it needs. -/
structure KernelContextNeed (σ : Type := String) where
  needId : σ
  contextKind : ContextKind
  required : Bool
  reason : σ
  coverage : CoverageMode
  minimumAuthority : AuthorityLevel
  requiredSemanticKeys : List σ
  deriving DecidableEq

structure KernelBinding where
  kernelId : String
  sourceRef : String
  sourceDigest : String
  outputs : List KernelOutput
  contextNeeds : List KernelContextNeed
  deriving DecidableEq

def KernelOutput.toDict (o : KernelOutput) : Json :=
  .obj [("id", .str o.outputId), ("required", .bool o.required),
    ("consumer_refs", .ofStrings o.consumerRefs)]

def KernelContextNeed.toDict (n : KernelContextNeed) : Json :=
  .obj [("id", .str n.needId), ("context_kind", .str n.contextKind.value),
    ("required", .bool n.required), ("reason", .str n.reason),
    ("coverage", .str n.coverage.value), ("minimum_authority", .str n.minimumAuthority.value),
    ("required_semantic_keys", .ofStrings n.requiredSemanticKeys)]

def KernelBinding.toDict (b : KernelBinding) : Json :=
  .obj [("kernel_id", .str b.kernelId), ("source_ref", .str b.sourceRef),
    ("source_digest", .str b.sourceDigest), ("outputs", .arr (b.outputs.map KernelOutput.toDict)),
    ("context_needs", .arr (b.contextNeeds.map KernelContextNeed.toDict))]

/-! ## Declared outputs -/

/-- `CONSUMER_SURFACES`. -/
def consumerSurfaces : List String :=
  ["execution_gate", "validation_contract", "handoff_contract", "convergence_gate",
    "adapter_renderer"]

/-- `CONTEXT_NEED_KEYS`. -/
def contextNeedKeys : List String :=
  ["id", "context_kind", "required", "reason", "coverage", "minimum_authority",
    "required_semantic_keys"]

/-- Python truthiness of a parsed document value. -/
def truthy : Json → Bool
  | .null => false
  | .bool b => b
  | .int i => i ≠ 0
  | .float f => f.text ≠ "0.0" && f.text ≠ "-0.0"
  | .str s => s ≠ ""
  | .arr items => !items.isEmpty
  | .obj entries => !entries.isEmpty

/-- `entry.get(key) or []` as a list of strings; nothing on any other shape. -/
def stringsOrEmpty (value : Option Json) : Option (List String) :=
  match value with
  | none => some []
  | some j =>
    if truthy j then
      match j with
      | .arr items => items.mapM fun item => match item with
        | .str s => some s
        | _ => none
      | _ => none
    else some []

/-- A list of strings given under a key, or none. -/
def stringField (entry : List (String × Json)) (key : String) : Option String :=
  match Json.field key entry with
  | some (.str s) => some s
  | _ => none

def boolField (entry : List (String × Json)) (key : String) : Option Bool :=
  match Json.field key entry with
  | some (.bool b) => some b
  | _ => none

/-- The entries of a mapping; nothing on any other value. -/
def mappingEntries : Json → Option (List (String × Json))
  | .obj entries => some entries
  | _ => none

/-- The identifier of an entry, when it is a non-empty string. -/
def entryId (entry : List (String × Json)) : Option String :=
  (stringField entry "id").filter fun s => !isBlank s

/-- One entry of `_parse_declared_outputs`, checks in source order. -/
def parseOutputEntry (sourceRef : String) (seen : List String) (raw : Json) :
    Except RuntimeError KernelOutput := do
  let fail := fun message details => RuntimeError.invalidValue message (some sourceRef) details
  let entry ← require (mappingEntries raw) (fail "kernel output entry must be a mapping" .null)
  let outputId ← require (entryId entry) (fail "kernel output requires a non-empty id" .null)
  let required ← require (boolField entry "required")
    (fail "kernel output requires a boolean required flag" .null)
  ensure (outputId ∉ seen) (fail "duplicate kernel output id" (.obj [("id", .str outputId)]))
  let refs ← require (stringsOrEmpty (Json.field "consumer_refs" entry))
    (fail "kernel output consumer_refs must be strings" .null)
  let unknown := refs.filter (· ∉ consumerSurfaces)
  ensure (unknown = []) (fail "kernel output consumer does not resolve"
    (.obj [("id", .str outputId), ("unknown_consumers", .ofStrings unknown)]))
  ensure (!(required && refs.isEmpty)) (fail "required kernel output has no consumer"
    (.obj [("id", .str outputId)]))
  .ok { outputId := outputId, required := required, consumerRefs := refs }

def parseOutputEntries (sourceRef : String) :
    List String → List Json → Except RuntimeError (List KernelOutput)
  | _, [] => .ok []
  | seen, entry :: rest => do
    let output ← parseOutputEntry sourceRef seen entry
    let outputs ← parseOutputEntries sourceRef (output.outputId :: seen) rest
    .ok (output :: outputs)

/-- `_parse_declared_outputs`. -/
def parseDeclaredOutputs (kernelDoc : List (String × Json)) (sourceRef : String) :
    Except RuntimeError (List KernelOutput) :=
  match Json.field "typed_outputs" kernelDoc with
  | none | some .null => .ok []
  | some (.arr entries) => parseOutputEntries sourceRef [] entries
  | some _ => invalidValue "kernel outputs must be a list" sourceRef .null

/-! ## Declared context needs -/

/-- `_enum_value`: the member with the given value. -/
def enumValue {α : Type} (raw : Option Json) (members : List α) (value : α → String)
    (fieldName sourceRef needId : String) : Except RuntimeError α :=
  match members.find? fun member => raw = some (.str (value member)) with
  | some member => .ok member
  | none =>
    invalidValue ("kernel context need has an unknown " ++ fieldName) sourceRef
      (.obj [("id", .str needId), (fieldName, raw.getD .null),
        ("allowed", .ofStrings (sortedUnique (members.map value)))])

/-- One entry of `_parse_context_needs`, checks in source order. -/
def parseNeedEntry (sourceRef : String) (seen : List String) (raw : Json) :
    Except RuntimeError KernelContextNeed := do
  let fail := fun message details => RuntimeError.invalidValue message (some sourceRef) details
  let entry ← require (mappingEntries raw) (fail "kernel context need must be a mapping" .null)
  let unknownKeys := sortedUnique ((entry.map Prod.fst).filter (· ∉ contextNeedKeys))
  ensure (unknownKeys = []) (fail "kernel context need declares fields a kernel cannot know"
    (.obj [("unknown_keys", .ofStrings unknownKeys),
      ("allowed", .ofStrings (sortedUnique contextNeedKeys))]))
  let needId ← require (entryId entry) (fail "kernel context need requires a non-empty id" .null)
  let named := Json.obj [("id", .str needId)]
  ensure (needId ∉ seen) (fail "duplicate kernel context need id" named)
  let required ← require (boolField entry "required")
    (fail "kernel context need requires a boolean required flag" named)
  let reason ← require ((stringField entry "reason").filter fun s => !isBlank s)
    (fail "kernel context need requires a non-empty reason" named)
  let keys ← require (stringsOrEmpty (Json.field "required_semantic_keys" entry))
    (fail "kernel context need required_semantic_keys must be strings" named)
  let contextKind ← enumValue (Json.field "context_kind" entry) ContextKind.all
    ContextKind.value "context_kind" sourceRef needId
  let coverage ← enumValue (Json.field "coverage" entry) CoverageMode.all
    CoverageMode.value "coverage" sourceRef needId
  let minimumAuthority ← enumValue (Json.field "minimum_authority" entry)
    AuthorityLevel.all AuthorityLevel.value "minimum_authority" sourceRef needId
  ensure (!(coverage == .semanticKeys && keys.isEmpty))
    (fail "semantic_keys coverage requires required_semantic_keys" named)
  ensure (!(coverage != .semanticKeys && !keys.isEmpty))
    (fail "required_semantic_keys is only meaningful for semantic_keys coverage"
      (.obj [("id", .str needId), ("coverage", .str coverage.value)]))
  .ok { needId := needId, contextKind := contextKind, required := required, reason := reason
        coverage := coverage, minimumAuthority := minimumAuthority
        requiredSemanticKeys := sortedUnique keys }

def parseNeedEntries (sourceRef : String) :
    List String → List Json → Except RuntimeError (List KernelContextNeed)
  | _, [] => .ok []
  | seen, entry :: rest => do
    let need ← parseNeedEntry sourceRef seen entry
    let needs ← parseNeedEntries sourceRef (need.needId :: seen) rest
    .ok (need :: needs)

/-- `_parse_context_needs`. -/
def parseContextNeeds (kernelDoc : List (String × Json)) (sourceRef : String) :
    Except RuntimeError (List KernelContextNeed) :=
  match Json.field "context_needs" kernelDoc with
  | none | some .null => .ok []
  | some (.arr entries) => do
    let needs ← parseNeedEntries sourceRef [] entries
    .ok (sortedBy KernelContextNeed.needId needs)
  | some _ => invalidValue "kernel context_needs must be a list" sourceRef .null

/-- What parsing a need guarantees, over strings of which some are
blank. -/
structure KernelContextNeed.AcceptedBy {σ : Type} [LinearOrder σ] (blank : σ → Bool)
    (need : KernelContextNeed σ) : Prop where
  reason_ne : blank need.reason = false
  keys_canonical : sortedUnique need.requiredSemanticKeys = need.requiredSemanticKeys
  keys_iff : need.coverage = .semanticKeys ↔ need.requiredSemanticKeys ≠ []

abbrev KernelContextNeed.Accepted (need : KernelContextNeed) : Prop := need.AcceptedBy isBlank

/-! ## The source pack and the resolver -/

/-- What a pack gives the compiler: file bytes, their digest, parsed
documents, and where a relative path leads. -/
structure SourcePack where
  read : String → Except RuntimeError String
  bytesDigest : String → String
  loadMapping : String → String → Except RuntimeError (List (String × Json))
  escapesRoot : String → Bool
  isFile : String → Bool
  manifestDigest : String

/-- `text.strip()`. -/
def strip (s : String) : String :=
  String.ofList (((s.toList.dropWhile isSpace).reverse.dropWhile isSpace).reverse)

/-- `item.strip().replace("\\", "/")`. -/
def kernelPath (item : String) : String :=
  String.ofList ((strip item).toList.map fun c => if c = '\\' then '/' else c)

/-- The last component of a path. -/
def pathName (path : String) : String :=
  String.ofList ((path.toList.splitOn '/').getLast?.getD [])

/-- `suffix in {".yaml", ".yml"}` of a file name. -/
def hasYamlSuffix (name : String) : Bool :=
  (name.endsWith ".yaml" && name ≠ ".yaml") || (name.endsWith ".yml" && name ≠ ".yml")

/-- `_kernel_id`: the file stem of a YAML file, else the file name. -/
def kernelIdOf (path : String) : String :=
  let name := pathName path
  if hasYamlSuffix name then
    String.ofList ((name.toList.reverse.dropWhile (· ≠ '.')).drop 1).reverse
  else name

/-- One kernel read once: semantics and digest come from the same bytes. -/
def bindKernel (pack : SourcePack) (rel : String) : Except RuntimeError KernelBinding := do
  let data ← pack.read rel
  if hasYamlSuffix (pathName rel) then
    let kernelDoc ← pack.loadMapping data rel
    let outputs ← parseDeclaredOutputs kernelDoc rel
    let contextNeeds ← parseContextNeeds kernelDoc rel
    .ok { kernelId := kernelIdOf rel, sourceRef := rel, sourceDigest := pack.bytesDigest data
          outputs := outputs, contextNeeds := contextNeeds }
  else
    .ok { kernelId := kernelIdOf rel, sourceRef := rel, sourceDigest := pack.bytesDigest data
          outputs := [], contextNeeds := [] }

/-- A path the resolver refuses, with the reason. -/
def kernelPathBreach (pack : SourcePack) (rel : String) : Option String :=
  if rel = "" ∨ rel.toList.head? = some '/' ∨ ['.', '.'] ∈ rel.toList.splitOn '/' then
    some "kernel path escapes pack root"
  else if pack.escapesRoot rel then some "kernel path escapes pack root"
  else if !pack.isFile rel then some "activated kernel missing from pack"
  else none

/-- `KernelResolver.resolve`. -/
def resolveKernels (pack : SourcePack) :
    List String → List String → Except RuntimeError (List KernelBinding)
  | _, [] => .ok []
  | seen, item :: rest =>
    match kernelPathBreach pack (kernelPath item) with
    | some message => .error (.strictParse message "UNKNOWN_KERNEL" (kernelPath item))
    | none =>
      if kernelPath item ∈ seen then resolveKernels pack seen rest
      else do
        let binding ← bindKernel pack (kernelPath item)
        let bindings ← resolveKernels pack (kernelPath item :: seen) rest
        .ok (binding :: bindings)

end CognitiveRuntime
