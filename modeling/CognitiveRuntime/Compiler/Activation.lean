import Mathlib.Data.List.Infix
import CognitiveRuntime.Models.Artifacts

/-!
# Objective, architecture materiality and activation

The stages before any kernel is resolved: the objective derived from the
mission text, the materiality of the architecture, and the phases and
kernels a route activates.

The routing rules and the pipeline definition are given as the values
their documents hold. Lower-casing and the word characters of the
regular-expression engine come from Unicode tables and are the fields of
`TextTables`.
-/

namespace CognitiveRuntime

open Ordered Fallible

/-! ## Word search -/

/-- `str.lower` and the word characters of `\w`. -/
class TextTables where
  lower : String → String
  isWordChar : Char → Bool

/-- The tables on ASCII text. -/
abbrev TextTables.ascii : TextTables where
  lower s := String.ofList (s.toList.map Char.toLower)
  isWordChar c := c.isAlphanum || c == '_'

section Text

variable [TextTables]

/-- `\b` between two neighbours; an end of the text is no word character. -/
def wordBoundary (before after : Option Char) : Bool :=
  before.any TextTables.isWordChar != after.any TextTables.isWordChar

/-- The word starts here, between word boundaries. -/
def wordAt (word : List Char) (before : Option Char) (text : List Char) : Bool :=
  word.isPrefixOf text && wordBoundary before text.head?
    && wordBoundary (word.getLast?.or before) (text.drop word.length).head?

def searchFrom (word : List Char) : Option Char → List Char → Bool
  | before, [] => wordAt word before []
  | before, c :: rest => wordAt word before (c :: rest) || searchFrom word (some c) rest

/-- `re.search(rf"\b{re.escape(word)}\b", text)`. -/
def searchWord (word text : String) : Bool := searchFrom word.toList none text.toList

def hasWord (text : String) (words : List String) : Bool :=
  words.any fun word => searchWord word text

end Text

/-- `token in text`. -/
def containsText (token text : String) : Bool := decide (token.toList <:+: text.toList)

/-! ## Objective -/

/-- Inputs for an in-memory compile. -/
structure CompileRequest where
  mission : String
  taskType : String
  constraints : List String
  desiredOutputs : List String
  sourceContext : List (String × Json)
  unknowns : List String
  deriving DecidableEq

def mutationVerbs : List String :=
  ["add", "adjust", "build", "change", "convert", "create", "delete", "extend", "fix", "harden",
    "implement", "install", "migrate", "modify", "optimize", "refactor", "remove", "repair",
    "replace", "rewrite", "update", "upgrade", "write"]

def analysisVerbs : List String :=
  ["analyse", "analyze", "assess", "audit", "check", "evaluate", "examine", "explore", "inspect",
    "investigate", "review", "understand"]

def artifactVerbs : List String := ["document", "draft", "generate", "produce", "spec"]

def decisionVerbs : List String := ["choose", "decide", "prioritize", "recommend", "select"]

section Derive

variable [TextTables]

/-- `derive_realization_mode`: mixed intent retains mutation. -/
def deriveRealizationMode (mission : String) : RealizationMode :=
  let lowered := TextTables.lower mission
  if hasWord lowered mutationVerbs then .mutation
  else if hasWord lowered analysisVerbs then .analysis
  else if hasWord lowered artifactVerbs then .artifact
  else if hasWord lowered decisionVerbs then .decision
  else .unknown

/-- `ObjectiveDeriver.derive`. -/
def deriveIntent (request : CompileRequest) : Except RuntimeError IntentContract := do
  let realization := deriveRealizationMode request.mission
  let deliveryRequired := realization == .mutation || realization == .artifact
  let deliveryMode : DeliveryMode := match realization with
    | .mutation => .inPlaceWorkspace
    | .artifact => .returnedFiles
    | _ => .none
  let validationRequired := realization == .mutation || realization == .artifact
    || realization == .unknown
  ensure (request.mission ≠ "")
    (.invalidValue "String should have at least 1 character" (some "mission") .null)
  .ok { intentId := "intent.runtime_convergence.v1"
        mission := request.mission
        taskType := request.taskType
        constraints := request.constraints
        desiredOutputs := request.desiredOutputs
        sourceContext := request.sourceContext
        -- an unknown realization stays visible and blocking
        unknowns := request.unknowns ++
          (if realization = .unknown then ["realization_mode_UNKNOWN"] else [])
        objective :=
          { requested := true, realizationMode := realization, acceptanceConditions := []
            validationRequired := validationRequired, deliveryRequired := deliveryRequired
            deliveryMode := deliveryMode }
        accountabilityRequired := validationRequired || deliveryRequired
        obligations := [] }

end Derive

/-! ## Documents -/

structure Route where
  matchAny : List String
  phases : List String
  optionalPhases : List String
  taskKernels : List String
  deriving DecidableEq

/-- What the compiler reads of `TASK_ROUTING_RULES.yaml`. -/
structure RoutingRules where
  taskRoutes : List (String × Route)
  missionSignalTokens : List (String × List String)
  contextSignalMap : List (String × String)
  lenses : List (String × List String)
  addsPhase : Option String
  terminalAllowedWhenAny : List String
  deriving DecidableEq

structure PipelinePhase where
  id : String
  primaryKernels : List String
  requiredOutputs : List String
  exitGate : Option String
  deriving DecidableEq

/-- What the compiler reads of `KERNEL_PIPELINE.yaml`. A missing or
non-string identifier is `none`. -/
structure PipelineDefinition where
  phaseOrder : List PipelinePhase
  terminalContract : Option String
  pipelineId : Option String
  deriving DecidableEq

/-- `phases_by_id`: a later phase replaces an earlier one with its id. -/
def PipelineDefinition.phaseById (pipeline : PipelineDefinition) (id : String) :
    Option PipelinePhase :=
  lastBy PipelinePhase.id id pipeline.phaseOrder

/-! ## Materiality -/

structure ArchitectureMateriality where
  required : Bool
  triggers : List String
  activeLenses : List String
  evidence : List String
  deriving DecidableEq

section Activation

variable [TextTables]

/-- `assess_materiality`: governed discovery signals and mission tokens. -/
def assessMateriality (intent : IntentContract) (rules : RoutingRules)
    (discovery : DiscoveryContext) : ArchitectureMateriality :=
  let lowered := TextTables.lower intent.mission
  let signals := discovery.architectureSignalRefs.filterMap fun signal =>
    ((rules.contextSignalMap.lookup signal).filter (· ≠ "")).map fun trigger =>
      (trigger, "governed_signal:" ++ signal)
  let tokens := rules.missionSignalTokens.filterMap fun entry =>
    let hits := entry.2.filter fun token => searchWord token lowered
    if hits = [] then none
    else some (entry.1,
      "mission_token:" ++ entry.1 ++ ":" ++ String.intercalate "," (sortedBy id hits))
  let fired := signals ++ tokens
  if fired = [] then { required := false, triggers := [], activeLenses := [], evidence := [] }
  else
    { required := true
      triggers := sortedUnique (fired.map Prod.fst)
      activeLenses := (rules.lenses.filter fun lens =>
        lens.2.any (· ∈ fired.map Prod.fst)).map Prod.fst
      evidence := fired.map Prod.snd }

/-! ## Activation -/

structure ActivationPlan where
  taskSummary : String
  matchedRoute : String
  confidence : String
  phaseSequence : List String
  activeKernels : List String
  skippedKernels : List String
  terminalAllowed : Bool
  requiredOutputs : List String
  blockers : List String
  unknowns : List String
  nextPhase : String
  architectureMateriality : ArchitectureMateriality
  deriving DecidableEq

def terminalPhase : String := "P7_FLAWLESS_VICTORY"

/-- The number of a route's tokens that occur in the lowered task. -/
def routeScore (lowered : String) (route : Route) : Nat :=
  (route.matchAny.filter fun token => searchWord (TextTables.lower token) lowered).length

/-- The loop of `_match_route`: a strictly better score replaces the best
so far. The default starts below every score. -/
def bestRoute (lowered : String) :
    List (String × Route) → (String × Route) × Option Nat → (String × Route) × Option Nat
  | [], best => best
  | entry :: rest, best =>
    let score := routeScore lowered entry.2
    if best.2.all (· < score) then bestRoute lowered rest (entry, some score)
    else bestRoute lowered rest best

/-- `_match_route`: name, route and confidence. -/
def matchRoute (task : String) (rules : RoutingRules) :
    Except RuntimeError (String × Route × String) := do
  let default ← require (rules.taskRoutes.lookup "pack_review") (.missingKey "pack_review")
  let best := bestRoute (TextTables.lower task) rules.taskRoutes (("pack_review", default), none)
  let confidence := match best.2 with
    | some 0 | none => "low"
    | some 1 => "medium"
    | some _ => "high"
  .ok (best.1.1, best.1.2, confidence)

/-- Phases a route may add when the mission asks for improvement. -/
def improvementPhases : List String :=
  ["P4_ALIGNMENT_AND_STUB_GATE", "P5_RECURSIVE_IMPROVEMENT", "P6_LEVERAGE_COMPRESSION"]

def improvementTokens : List String :=
  ["clean", "dedupe", "streamline", "improve", "harden", "stubs", "gaps", "leverage"]

def l9Tokens : List String := ["l9", "kernel", "runtime", "transportpacket", "gate"]

def mentionsAny (mission : String) (tokens : List String) : Bool :=
  tokens.any fun token => containsText token (TextTables.lower mission)

/-- The phases a route asks for, before canonical ordering. -/
def requestedPhases (mission : String) (route : Route) (includeTerminal : Bool) : List String :=
  route.phases ++
    if includeTerminal then [terminalPhase]
    else route.optionalPhases.filter fun phase =>
      decide (phase ∈ improvementPhases) && mentionsAny mission improvementTokens

/-- The architecture phase a required materiality pulls in. -/
def materialityPhases (rules : RoutingRules) (materiality : ArchitectureMateriality)
    (phases : List String) : Except RuntimeError (List String) :=
  if materiality.required then
    match rules.addsPhase with
    | none => .error (.missingKey "adds_phase")
    | some phase => .ok (if phase ∈ phases then phases else phases ++ [phase])
  else .ok phases

/-- The task kernels go after the last constitutional kernel. -/
def insertTaskKernels (active taskKernels : List String) : List String :=
  let extra := taskKernels.filter (· ∉ active)
  if extra = [] then active
  else
    let tail := (active.reverse.takeWhile fun k => !containsText "/constitutional/" k).length
    let insertAt := if tail = active.length then active.length else active.length - tail
    active.take insertAt ++ extra ++ active.drop insertAt

/-- `_terminal_allowed`. -/
def terminalAllowed (mission : String) (phases : List String) (rules : RoutingRules) : Bool :=
  decide (terminalPhase ∈ phases) && rules.terminalAllowedWhenAny.any fun phrase =>
    containsText (TextTables.lower phrase) (TextTables.lower mission)

/-- `ActivationPlanner.plan`. -/
def planActivation (intent : IntentContract) (rules : RoutingRules)
    (pipeline : PipelineDefinition) (discovery : DiscoveryContext) (includeTerminal : Bool) :
    Except RuntimeError ActivationPlan := do
  let (routeName, route, confidence) ← matchRoute intent.mission rules
  let materiality := assessMateriality intent rules discovery
  let wanted ← materialityPhases rules materiality
    (requestedPhases intent.mission route includeTerminal)
  let ordered := (pipeline.phaseOrder.map PipelinePhase.id).filter (· ∈ wanted)
  let primary := firstSeen (ordered.flatMap fun id =>
    if id = "P2_TASK_ROUTING" then []
    else ((pipeline.phaseById id).map PipelinePhase.primaryKernels).getD [])
  let inserted := insertTaskKernels primary route.taskKernels
  let allowed := terminalAllowed intent.mission ordered rules || includeTerminal
  let drop := decide (terminalPhase ∈ ordered) && !allowed
  let phases := if drop then ordered.erase terminalPhase else ordered
  let active := if drop then
      inserted.filter fun k => !k.endsWith "flawless_victory.contract.yaml"
    else inserted
  .ok { taskSummary := intent.mission
        matchedRoute := routeName
        confidence := confidence
        phaseSequence := phases
        activeKernels := active
        skippedKernels := (firstSeen (pipeline.phaseOrder.flatMap
          PipelinePhase.primaryKernels)).filter (· ∉ active)
        terminalAllowed := allowed && decide (terminalPhase ∈ phases)
        requiredOutputs := firstSeen (phases.flatMap fun id =>
          ((pipeline.phaseById id).map PipelinePhase.requiredOutputs).getD [])
        blockers :=
          if "P1_CONSTITUTIONAL_PREFLIGHT" ∉ phases ∧ mentionsAny intent.mission l9Tokens then
            ["L9-related task without constitutional preflight."]
          else []
        unknowns := if confidence = "low" then
            ["Task route matched only default route; inspect task context before execution."]
          else []
        nextPhase := phases.head?.getD "BLOCKED"
        architectureMateriality := materiality }

end Activation

end CognitiveRuntime
