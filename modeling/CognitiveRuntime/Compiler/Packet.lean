import CognitiveRuntime.Compiler.Liveness
import CognitiveRuntime.Data.JsonPrefix

/-!
# The packet document and its digest

The dictionary a packet is passed around as, and the digest adapters and
receipts stamp: SHA-256 of the text `json.dumps` writes with sorted keys,
compact separators and every character outside ASCII escaped. SHA-256
itself is a parameter, a function of that text.
-/

namespace CognitiveRuntime

/-- `json.dumps(value, sort_keys=True, separators=(",", ":"))`. -/
def dumpsSorted (value : Json) : String := String.ofList (value.normalize.render .ascii)

/-- Values with one text are equal up to key order. -/
theorem normalize_of_dumpsSorted {i j : Json} (h : dumpsSorted i = dumpsSorted j) :
    i.normalize = j.normalize :=
  Json.render_inj .ascii (String.ofList_injective h)

/-- `hashlib.sha256(json.dumps(...).encode("utf-8")).hexdigest()`, as
`_packet_digest` computes it. -/
def packetDigest (hash : String → String) (packet : Json) : String := hash (dumpsSorted packet)

def PacketProvenance.toDict (p : PacketProvenance) : Json :=
  .obj [("semantic_digest", .str p.semanticDigest),
    ("routing_rules_digest", .str p.routingRulesDigest),
    ("pipeline_digest", .str p.pipelineDigest), ("kernel_digests", ofStringDict p.kernelDigests),
    ("graph_digest", .str p.graphDigest), ("handoff_digest", .str p.handoffDigest),
    ("context_digest", .str p.contextDigest), ("context_plan_id", .str p.contextPlanId)]

/-- The dictionary `build_execution_packet` returns. -/
def ExecutionPacket.toDict (p : ExecutionPacket) : List (String × Json) :=
  [("intent", p.intent), ("compiled_task_context", p.compiledTaskContext),
    ("compiled_task_context_digest", .str p.compiledTaskContextDigest),
    ("context_plan_id", .str p.contextPlanId),
    ("active_kernel_bindings", .arr (p.activeKernelBindings.map KernelBinding.toDict)),
    ("execution_steps", .arr (p.executionSteps.map ExecutionStep.toJson)),
    ("required_obligations", .arr (p.requiredObligations.map Obligation.toJson)),
    ("validation_properties", .arr (p.validationProperties.map ValidationProperty.toJson)),
    ("delivery_obligations", .arr (p.deliveryObligations.map Obligation.toJson)),
    ("unknowns", .ofStrings p.unknowns), ("block_semantics", p.blockSemantics),
    ("convergence_contract", p.convergenceContract), ("provenance", p.provenance.toDict)]

end CognitiveRuntime
