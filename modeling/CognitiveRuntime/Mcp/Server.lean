import CognitiveRuntime.Compiler.Packet
import CognitiveRuntime.Compiler.Pipeline
import CognitiveRuntime.Data.JsonIndent
import CognitiveRuntime.Mcp.Auth
import CognitiveRuntime.Mcp.RunStore

/-!
# The service and the server

The server compiles against a pack that is loaded anew at every call and
keeps the compiled runs in the run store. A call carries what the server
reads from outside while it serves it: the access token of the request,
the clock, the id that is drawn for a run, what loading the pack gives,
and the text of each verified pack file.

The server translates the errors the models raise into tool errors with
their text. Any other error is the business of the SDK.
-/

namespace CognitiveRuntime

open Fallible

/-! ## Errors -/

/-- What the service raises: an error of its own, or one of the file
system or of a decoder. -/
inductive ServiceFault where
  | raised (error : Raised)
  | environment
  deriving DecidableEq

/-- `str(error)`. -/
def Raised.text : Raised → String
  | .model e => e.text
  | .canonicalization message => message
  | .unicodeEncode => ""

/-- `InvalidValueError(message, path=path)`. -/
def serviceRefusal (message path : String) : ServiceFault :=
  .raised (.model (.invalidValue message (some path) .null))

inductive ServerFault where
  | toolError (message : String)
  | runNotFound (error : RunNotFoundError)
  /-- An error no handler translates. -/
  | raised (fault : ServiceFault)
  deriving DecidableEq

/-- `except (InvalidValueError, ModelValidationError) as exc`. -/
def toolFault : ServiceFault → ServerFault
  | .raised error =>
      if error.isModelValidation then .toolError error.text else .raised (.raised error)
  | .environment => .raised .environment

/-! ## The service -/

/-- The pack a load returns, with its provenance. -/
structure ServedPack extends RuntimePack where
  packRef : String
  root : String
  fileDigests : List (String × String)

/-- `PackProvenance.to_dict`. -/
def ServedPack.provenance (pack : ServedPack) : Json :=
  .obj [("pack_ref", .str pack.packRef), ("root", .str pack.root),
    ("manifest_digest", .str pack.manifestDigest),
    ("file_digests", ofStringDict pack.fileDigests)]

/-- `CompileRequest(mission=mission, task_type=task_type, ...)`. -/
def CompileRequest.standard (mission taskType : String) : CompileRequest where
  mission := mission
  taskType := taskType
  constraints := ["model_agnostic", "kernel_first", "evidence_backed", "no_fake_validation"]
  desiredOutputs := ["kernel_activation_plan", "execution_contract", "execution_graph",
    "validation_evidence", "adapter_render"]
  sourceContext := [("pack", .str "l9_cognitive_runtime")]
  unknowns := []

/-- `CognitiveRuntimeService._load_pack`, with what the load gives. The
root the server passes is never blank. -/
def loadServed (request : CompileRequest) (loaded : Except ServiceFault ServedPack) :
    Except ServiceFault ServedPack := do
  ensure (!isBlank request.mission) (serviceRefusal "mission must be non-empty" "mission")
  loaded

section Service

variable [Sha256] [TextTables]

/-- `CognitiveRuntimeService.plan_context`. -/
def servicePlan (request : CompileRequest) (loaded : Except ServiceFault ServedPack)
    (snapshot : Option ContextSnapshot) : Except ServiceFault ContextPlan := do
  let pack ← loadServed request loaded
  (planContext request pack.toRuntimePack snapshot).mapError fun e => .raised (.model e)

/-- `CognitiveRuntimeService.compile_runtime`. -/
def serviceCompile (request : CompileRequest) (loaded : Except ServiceFault ServedPack)
    (snapshot : Option ContextSnapshot) (expected : Option String) :
    Except ServiceFault (ServedPack × RuntimeBundle) := do
  let pack ← loadServed request loaded
  let bundle ← (compile request pack.toRuntimePack snapshot expected).mapError fun e =>
    .raised (.model e)
  .ok (pack, bundle)

omit [TextTables] in
/-- `RuntimeBundle.digests`. -/
def RuntimeBundle.digests (bundle : RuntimeBundle) : List (String × String) :=
  [("intent", sha256Digest bundle.intent.toJson),
    ("execution", sha256Digest bundle.execution.toJson),
    ("validation", sha256Digest bundle.validation.toJson),
    ("handoff", sha256Digest bundle.handoff.toJson),
    ("graph", sha256Digest bundle.graph.toJson),
    ("manifest", bundle.manifestDigest),
    ("semantic", bundle.semanticDigest),
    ("context", bundle.taskContext.sha256),
    ("context_plan", bundle.contextPlan.sha256)]

end Service

/-! ## Requests and answers -/

/-- The tools and resources that do not reach the run store. -/
inductive StatelessRequest where
  | runtimeCapabilities
  | compileIntent (mission taskType : String)
  | planKernelActivation (mission : String) (snapshot : Option Payload)
  | planContextRequirements (mission taskType : String) (snapshot : Option Payload)
  | validateRuntimeBundle (mission : String) (snapshot : Option Payload)
  | versionResource
  | capabilitiesResource
  | packManifestResource (packRef : String)
  | packSchemaResource (packRef schemaName : String)
  | packKernelResource (packRef kernelId : String)

/-- A call of a tool or a read of a resource. -/
inductive ServerRequest where
  | stateless (request : StatelessRequest)
  | compileRuntime (mission taskType : String) (snapshot : Option Payload)
      (expected : Option String)
  | runResource (runId : String)

inductive ServerAnswer where
  | result (fields : Entries)
  | text (content : String)

/-- A request, with what the server reads from outside while it serves it. -/
structure ServerCall (Time : Type) where
  request : ServerRequest
  token : Option AccessToken
  now : Time
  drawn : String
  loaded : Except ServiceFault ServedPack
  /-- `pack.read_verified(relative).decode("utf-8")`. -/
  packFile : String → Except ServiceFault String

/-- `DEFAULT_TASK_TYPE`. -/
def defaultTaskType : String := "kernel_runtime_convergence"

/-- `SUPPORTED_TRANSPORTS`. -/
def supportedTransports : List String := ["stdio", "streamable_http"]

/-- `READ_ONLY_TOOLS`. -/
def readOnlyTools : List String :=
  ["runtime_capabilities", "compile_intent", "plan_kernel_activation",
    "plan_context_requirements", "compile_runtime", "validate_runtime_bundle"]

/-- `CONTEXT_AWARE_TOOLS`. -/
def contextAwareTools : List String :=
  ["compile_runtime", "plan_kernel_activation", "plan_context_requirements",
    "validate_runtime_bundle"]

/-- What `build_server` fixes. -/
structure ServerSettings (Time : Type) where
  store : StoreSettings Time
  serverName : String
  toolNamePrefix : String
  transport : String
  transport_supported : transport ∈ supportedTransports
  /-- A token verifier and auth settings were both given. -/
  hostedAuth : Bool
  /-- The pack that was verified at startup. -/
  pack : ServedPack
  /-- The name it is served under. -/
  packRef : String

section Server

variable [Sha256] [TextTables] [LaxInput] {Time : Type}

/-! ## Tools -/

/-- `parse_context_snapshot` of an optional mapping. -/
def parseSnapshotArgument (snapshot : Option Payload) :
    Except ServiceFault (Option ContextSnapshot) :=
  (parseContextSnapshot ((snapshot.map PyJson.obj).getD .null)).mapError .raised

namespace ServerCall

variable (call : ServerCall Time)

/-- `_compile`. The snapshot is an argument of the service, so it is
parsed first. -/
def compileBundle (mission taskType : String) (snapshot : Option Payload)
    (expected : Option String) : Except ServerFault (ServedPack × RuntimeBundle) :=
  Except.mapError toolFault do
    let snapshot ← parseSnapshotArgument snapshot
    serviceCompile (.standard mission taskType) call.loaded snapshot expected

/-- `_plan`. -/
def contextPlan (mission taskType : String) (snapshot : Option Payload) :
    Except ServerFault ContextPlan :=
  Except.mapError toolFault do
    let snapshot ← parseSnapshotArgument snapshot
    servicePlan (.standard mission taskType) call.loaded snapshot

/-- `resolve_principal`, of the request. -/
def owner (settings : ServerSettings Time) : Option String :=
  resolvePrincipal call.token settings.hostedAuth

end ServerCall

omit [LaxInput] [TextTables] in
/-- The derived result of a compile, the only thing a run keeps. -/
def runPayload (pack : ServedPack) (bundle : RuntimeBundle) : Entries :=
  [("digests", ofStringDict bundle.digests),
    ("context_plan_id", .str bundle.contextPlan.contextPlanId),
    ("execution_contract_id", .str bundle.execution.contractId),
    ("graph_id", .str bundle.graph.graphId),
    ("terminal_node", .str bundle.graph.terminalNode),
    ("provenance", pack.provenance),
    ("execution_packet", .obj bundle.packet.toDict)]

omit [LaxInput] [TextTables] in
/-- The checks of `validate_runtime_bundle`. A bundle always carries its
provenance. -/
def bundleChecks (bundle : RuntimeBundle) : List (String × Bool) :=
  [("all_digests_present", bundle.digests.all fun e => e.2 ≠ ""),
    ("graph_has_terminal", bundle.graph.terminalNode ≠ ""),
    ("provenance_present", true),
    ("packet_context_digest_matches",
      bundle.packet.compiledTaskContextDigest = bundle.taskContext.sha256)]

namespace ServerSettings

variable (settings : ServerSettings Time)

def toolName (name : String) : String := settings.toolNamePrefix ++ name

/-- `_capabilities`. -/
def capabilities : Entries :=
  [("server", .str settings.serverName), ("version", .str packageVersion),
    ("transport", .str settings.transport),
    ("authentication", .str (if settings.hostedAuth then "oauth2_bearer" else "none")),
    ("mode", .str "read_only"),
    ("tools", .ofStrings (readOnlyTools.map settings.toolName)),
    ("writes", .bool false), ("execution", .bool false), ("shell", .bool false),
    ("context_snapshot_input", .bool true),
    ("context_aware_tools", .ofStrings (contextAwareTools.map settings.toolName)),
    ("context_planning", .bool true),
    ("context_plan_schema", .str "context_plan.schema.json"),
    ("context_snapshot_schema", .str "context_snapshot.schema.json"),
    ("pack_ref", .str settings.pack.packRef),
    ("manifest_digest", .str settings.pack.manifestDigest)]

/-- `_require_bound_pack`. -/
def requireBoundPack (requested : String) : Except ServerFault Unit :=
  ensure (requested = settings.packRef) (.raised (serviceRefusal "unknown pack_ref" requested))

/-- The handlers that do not reach the run store. -/
def answer (call : ServerCall Time) : StatelessRequest → Except ServerFault ServerAnswer
  | .runtimeCapabilities => .ok (.result settings.capabilities)
  | .compileIntent mission taskType => do
    let (_, bundle) ← call.compileBundle mission taskType none none
    .ok (.result [("intent", bundle.intent.toJson),
      ("intent_digest", .str (sha256Digest bundle.intent.toJson))])
  | .planKernelActivation mission snapshot => do
    let (_, bundle) ← call.compileBundle mission defaultTaskType snapshot none
    .ok (.result [("kernel_activation", .ofStrings bundle.execution.kernelActivation),
      ("execution_sequence", .ofStrings bundle.execution.executionSequence),
      ("execution_digest", .str (sha256Digest bundle.execution.toJson)),
      ("context_digest", .str bundle.taskContext.sha256)])
  | .planContextRequirements mission taskType snapshot => do
    let plan ← call.contextPlan mission taskType snapshot
    .ok (.result [("context_plan", plan.toJson), ("context_plan_id", .str plan.contextPlanId),
      ("context_plan_digest", .str plan.sha256)])
  | .validateRuntimeBundle mission snapshot => do
    let (_, bundle) ← call.compileBundle mission defaultTaskType snapshot none
    let checks := bundleChecks bundle
    .ok (.result [("valid", .bool (checks.all Prod.snd)),
      ("digests", ofStringDict bundle.digests),
      ("checks", .obj (checks.map fun e => (e.1, .bool e.2)))])
  | .versionResource => .ok (.text packageVersion)
  | .capabilitiesResource => .ok (.text (Json.obj settings.capabilities).dumpsIndented)
  | .packManifestResource packRef => do
    settings.requireBoundPack packRef
    .ok (.text (Json.obj [("pack_ref", .str settings.pack.packRef),
      ("manifest_digest", .str settings.pack.manifestDigest),
      ("files", ofStringDict settings.pack.fileDigests)]).dumpsIndented)
  | .packSchemaResource packRef schemaName => do
    settings.requireBoundPack packRef
    let content ← (call.packFile ("schemas/" ++ schemaName)).mapError .raised
    .ok (.text content)
  | .packKernelResource packRef kernelId => do
    settings.requireBoundPack packRef
    let content ← (call.packFile ("kernels/" ++ kernelId)).mapError .raised
    .ok (.text content)

end ServerSettings

/-! ## Steps -/

/-- The store of the compiled runs. -/
abbrev ServerStore (Time : Type) := RunStore Time Entries

section Steps

variable [LE Time] [DecidableLE Time] [Add Time] (settings : ServerSettings Time)

/-- The tool `compile_runtime`. -/
def Server.compileRuntime (s : ServerStore Time) (call : ServerCall Time)
    (mission taskType : String) (snapshot : Option Payload) (expected : Option String) :
    Except StoreFault (ServerStore Time × Except ServerFault ServerAnswer) :=
  match call.compileBundle mission taskType snapshot expected with
  | .error fault => .ok (s, .error fault)
  | .ok (pack, bundle) =>
    match call.owner settings with
    | none => .ok (s, .error (.toolError "authenticated principal required"))
    | some owner => do
      let payload := runPayload pack bundle
      let (s, record) ← s.create settings.store owner payload call.drawn call.now
      .ok (s, .ok (.result (payload ++
        [("run_id", .str record.runId), ("resource_uri", .str record.resourceUri)])))

omit [Sha256] [TextTables] [LaxInput] [Add Time] in
/-- The resource `l9://runs/{run_id}`. -/
def Server.runResource (s : ServerStore Time) (call : ServerCall Time) (runId : String) :
    Except StoreFault (ServerStore Time × Except ServerFault ServerAnswer) :=
  match call.owner settings with
  | none => .ok (s, .error (.runNotFound { message := "run not found", path := runId }))
  | some owner => do
    let (s, outcome) ← s.requireRun runId owner call.now
    .ok (s, match outcome with
      | .ok record => .ok (.text (Json.obj record.payload).dumpsIndented)
      | .error error => .error (.runNotFound error))

def Server.step (s : ServerStore Time) (call : ServerCall Time) :
    Except StoreFault (ServerStore Time × Except ServerFault ServerAnswer) :=
  match call.request with
  | .stateless request => .ok (s, settings.answer call request)
  | .compileRuntime mission taskType snapshot expected =>
      Server.compileRuntime settings s call mission taskType snapshot expected
  | .runResource runId => Server.runResource settings s call runId

/-- Calls served one after the other. -/
def Server.run : List (ServerCall Time) → ServerStore Time →
    Except StoreFault (ServerStore Time × List (Except ServerFault ServerAnswer))
  | [], s => .ok (s, [])
  | call :: rest, s => do
    let (s, answer) ← Server.step settings s call
    let (s, answers) ← Server.run rest s
    .ok (s, answer :: answers)

end Steps

end Server

end CognitiveRuntime
