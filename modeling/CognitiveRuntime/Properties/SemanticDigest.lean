import CognitiveRuntime.Compiler.Packet
import CognitiveRuntime.Mcp.Server
import CognitiveRuntime.Properties.Snapshotless

/-!
# What the semantic digest identifies

The semantic digest of a bundle hashes the digests of its parts, so two
compiles that share one share every part, whatever requests, packs and
snapshots they started from. Each section of the execution packet can be
read off the parts, so they share the packet too.
-/

namespace CognitiveRuntime

open Ordered Fallible

/-! ## Records and their documents -/

theorem ObligationKind.value_inj : ∀ {k l : ObligationKind}, k.value = l.value ↔ k = l := by
  intro k l
  cases k <;> cases l <;> decide

theorem ObligationDisposition.value_inj :
    ∀ {d e : ObligationDisposition}, d.value = e.value ↔ d = e := by
  intro d e
  cases d <;> cases e <;> decide

/-- An obligation is read off its document. -/
theorem Obligation.toJson_inj {o o' : Obligation} (h : o.toJson.normalize = o'.toJson.normalize) :
    o = o' := by
  have hvalues := Json.values_eq_of_normalize_eq h rfl (by
    simp only [List.map_cons, List.map_nil]
    decide)
  simp only [List.map_cons, List.map_nil, Json.normalize_str, Json.normalize_bool,
    Json.normalize_ofStrings, List.cons.injEq, Json.str.injEq, Json.bool.injEq,
    Json.ofStrings_inj, ObligationKind.value_inj, ObligationDisposition.value_inj] at hvalues
  obtain ⟨hid, hkind, hsource, hrequired, howner, hconsumers, hevidence, hdisposition, -⟩ := hvalues
  cases o
  cases o'
  simp only at hid hkind hsource hrequired howner hconsumers hevidence hdisposition
  subst hid hkind hsource hrequired howner hconsumers hevidence hdisposition
  rfl

/-- Lists of records with one document each. -/
theorem map_toJson_inj {α : Type} {toJson : α → Json}
    (hinj : ∀ {a b : α}, (toJson a).normalize = (toJson b).normalize → a = b) {l m : List α}
    (h : Json.normalize (.arr (l.map toJson)) = Json.normalize (.arr (m.map toJson))) : l = m := by
  rw [Json.normalize_arr, Json.normalize_arr, List.map_map, List.map_map] at h
  exact List.map_injective_iff.mpr (fun _ _ hab => hinj hab) (Json.arr.inj h)

/-- Lists of records with one list of documents agree on a field that is
a string. -/
theorem map_field_of_toJson {α : Type} {toJson : α → Json} {key : String} {f : α → String}
    (hfield : ∀ a, Json.get? (toJson a).normalize key = some (.str (f a))) {l m : List α}
    (h : Json.normalize (.arr (l.map toJson)) = Json.normalize (.arr (m.map toJson))) :
    l.map f = m.map f := by
  rw [Json.normalize_arr, Json.normalize_arr, List.map_map, List.map_map] at h
  have hfields := congrArg (List.map fun j => Json.get? j key) (Json.arr.inj h)
  simp only [List.map_map, Function.comp_def, hfield] at hfields
  exact List.map_injective_iff.mpr (fun a b hab => Json.str.inj (Option.some.inj hab))
    (by simpa [List.map_map, Function.comp_def] using hfields)

/-- A field of an object in key order. -/
theorem get?_normalize_obj (entries : List (String × Json)) (key : String) :
    Json.get? (Json.normalize (.obj entries)) key = (Json.field key entries).map Json.normalize := by
  rw [Json.normalize_obj, Json.get?, Json.field_sortedBy, Json.field_map]

theorem ContextUnknown.get?_unknown_id (u : ContextUnknown) :
    Json.get? u.toJson.normalize "unknown_id" = some (.str u.unknownId) := by
  unfold ContextUnknown.toJson
  rw [get?_normalize_obj]
  rfl

theorem KernelBinding.get?_source_ref (b : KernelBinding) :
    Json.get? b.toDict.normalize "source_ref" = some (.str b.sourceRef) := by
  unfold KernelBinding.toDict
  rw [get?_normalize_obj]
  rfl

theorem KernelBinding.get?_source_digest (b : KernelBinding) :
    Json.get? b.toDict.normalize "source_digest" = some (.str b.sourceDigest) := by
  unfold KernelBinding.toDict
  rw [get?_normalize_obj]
  rfl

/-- Bindings with one list of documents are bound to the same sources. -/
theorem kernelDigests_of_toDict {l m : List KernelBinding}
    (h : Json.normalize (.arr (l.map KernelBinding.toDict))
      = Json.normalize (.arr (m.map KernelBinding.toDict))) :
    l.map (fun b => (b.sourceRef, b.sourceDigest)) = m.map fun b => (b.sourceRef, b.sourceDigest) := by
  have hrefs := map_field_of_toJson KernelBinding.get?_source_ref h
  have hdigests := map_field_of_toJson KernelBinding.get?_source_digest h
  rw [← List.zip_map', hrefs, hdigests, List.zip_map']

/-! ## What a finished bundle is -/

section Bundles

variable [Sha256]

/-- How the parts of a finished compile depend on each other. -/
structure Sealed (a : CompiledArtifacts) (bundle : RuntimeBundle) : Prop where
  intent : bundle.intent = a.intent
  execution : bundle.execution = a.execution
  validation : bundle.validation = a.validation
  handoff : bundle.handoff = a.handoff
  graph : bundle.graph = a.graph
  context : bundle.taskContext = a.taskContext
  contextDigest : a.contextDigest = a.taskContext.sha256
  kernels : a.taskContext.selectedKernels = a.kernels.map KernelBinding.toDict
  unknowns : a.handoff.unknowns = a.plan.unknowns
  manifest : bundle.manifestDigest = bundle.contextPlan.packManifestDigest
  planId : bundle.contextPlan.contextPlanId
    = deriveId "context-plan" bundle.contextPlan.identityPayload
  semantic : bundle.semanticDigest = sha256Digest (.str (Json.canonicalText (.obj
    (semanticPayload a bundle.contextPlan.routingRulesDigest bundle.contextPlan.pipelineDigest
      bundle.contextPlan.contextPlanId))))
  packet : bundle.packet = buildExecutionPacket a
    { routingRulesDigest := bundle.contextPlan.routingRulesDigest
      pipelineDigest := bundle.contextPlan.pipelineDigest
      semanticDigest := bundle.semanticDigest
      contextPlanId := bundle.contextPlan.contextPlanId }

theorem compileContext_kernels {inputs : CompileInputs} {context : CompiledTaskContext}
    (h : compileContext inputs = .ok context) :
    context.selectedKernels = inputs.kernels.map KernelBinding.toDict := by
  simp only [compileContext, bind_eq_ok, Prod.exists] at h
  obtain ⟨_, _, -, _, -, h⟩ := h
  cases h
  rfl

theorem ContextPlan.create_ok {draft plan : ContextPlan} (h : ContextPlan.create draft = .ok plan) :
    plan.contextPlanId = deriveId "context-plan" plan.identityPayload
      ∧ plan.packManifestDigest = draft.packManifestDigest := by
  unfold ContextPlan.create at h
  split at h
  · cases h
  · split at h
    · cases h
    · split at h
      · cases h
      · cases h
        exact ⟨rfl, rfl⟩

/-- The plan a compile is bound to is derived over the pack's manifest. -/
theorem prepareContextPlan_plan [TextTables] {request : CompileRequest} {pack : RuntimePack}
    {snapshot : Option ContextSnapshot} {options : RunOptions} {prepared : PreparedContextPlan}
    (h : prepareContextPlan request pack snapshot options = .ok prepared) :
    prepared.contextPlan.contextPlanId
        = deriveId "context-plan" prepared.contextPlan.identityPayload
      ∧ prepared.contextPlan.packManifestDigest = pack.manifestDigest := by
  simp only [prepareContextPlan, planFromDiscovery, bind_eq_ok, Prod.exists] at h
  obtain ⟨_, -, _, -, _, -, _, _, _, plan, ⟨_, -, _, -, _, -, contextPlan, hplan, hparts⟩, hdone⟩ := h
  cases hparts
  cases hdone
  exact ContextPlan.create_ok hplan

theorem compileRoot_sealed [TextTables] {request : CompileRequest} {pack : RuntimePack}
    {snapshot : Option ContextSnapshot} {options : RunOptions} {expected : Option String}
    {root : RootCompilation} (h : compileRoot request pack snapshot options expected = .ok root) :
    root.bundle.manifestDigest = pack.manifestDigest ∧ ∃ a, Sealed a root.bundle := by
  simp only [compileRoot, compileThen, compileStages, bind_eq_ok] at h
  obtain ⟨prepared, hprepared, _, -, taskContext, hcontext, report, -, a, ha, _, -, _, -, hroot⟩ := h
  cases hroot
  obtain ⟨hid, hmanifest⟩ := prepareContextPlan_plan hprepared
  simp only [compileContracts, bind_eq_ok] at ha
  obtain ⟨_, -, execution, -, _, -, _, -, _, -, graph, -, _, -, ha⟩ := ha
  cases ha
  exact ⟨rfl, _,
    { intent := rfl
      execution := rfl
      validation := rfl
      handoff := rfl
      graph := rfl
      context := rfl
      contextDigest := rfl
      kernels := compileContext_kernels hcontext
      unknowns := rfl
      manifest := hmanifest.symm
      planId := hid
      semantic := rfl
      packet := rfl }⟩

theorem compile_sealed [TextTables] {request : CompileRequest} {pack : RuntimePack}
    {snapshot : Option ContextSnapshot} {expected : Option String} {bundle : RuntimeBundle}
    (h : compile request pack snapshot expected = .ok bundle) : ∃ a, Sealed a bundle := by
  simp only [compile, bind_eq_ok] at h
  obtain ⟨root, hroot, hbundle⟩ := h
  cases hbundle
  exact (compileRoot_sealed hroot).2

/-- A bundle is about the mission it was asked for. -/
theorem compile_mission [TextTables] {request : CompileRequest} {pack : RuntimePack}
    {snapshot : Option ContextSnapshot} {expected : Option String} {bundle : RuntimeBundle}
    (h : compile request pack snapshot expected = .ok bundle) :
    bundle.intent.mission = request.mission := by
  simp only [compile, compileRoot, compileThen, compileStages, bind_eq_ok] at h
  obtain ⟨root, ⟨prepared, hprepared, _, -, _, -, _, -, a, ha, _, -, _, -, hroot⟩, hbundle⟩ := h
  cases hbundle
  cases hroot
  simp only [compileContracts, bind_eq_ok] at ha
  obtain ⟨_, -, _, -, _, -, _, -, _, -, _, -, _, -, ha⟩ := ha
  cases ha
  simp only [prepareContextPlan, bind_eq_ok, Prod.exists] at hprepared
  obtain ⟨_, -, intent, hintent, _, -, _, _, _, _, -, hdone⟩ := hprepared
  cases hdone
  simp only [deriveIntent, bind_eq_ok] at hintent
  obtain ⟨_, -, hintent⟩ := hintent
  cases hintent
  rfl

/-! ## Equal digests, equal parts -/

def semanticKeys : List String :=
  ["intent_digest", "execution_digest", "validation_digest", "handoff_digest", "graph_digest",
    "obligation_set_digest", "active_kernel_digests", "routing_rules_digest", "pipeline_digest",
    "context_digest", "context_plan_id"]

theorem keys_semanticPayload (a : CompiledArtifacts) (rules pipeline planId : String) :
    (semanticPayload a rules pipeline planId).map Prod.fst = semanticKeys := by
  simp only [semanticPayload, List.map_cons, List.map_nil, semanticKeys]

/-- The parts of two bundles agree, each up to key order. -/
structure SameParts (b b' : RuntimeBundle) : Prop where
  intent : b.intent.toJson.normalize = b'.intent.toJson.normalize
  execution : b.execution.toJson.normalize = b'.execution.toJson.normalize
  validation : b.validation.toJson.normalize = b'.validation.toJson.normalize
  handoff : b.handoff.toJson.normalize = b'.handoff.toJson.normalize
  graph : b.graph.toJson.normalize = b'.graph.toJson.normalize
  context : b.taskContext.toJson.normalize = b'.taskContext.toJson.normalize
  planId : b.contextPlan.contextPlanId = b'.contextPlan.contextPlanId
  plan : b.contextPlan.identityPayload.normalize = b'.contextPlan.identityPayload.normalize
  manifest : b.manifestDigest = b'.manifestDigest

omit [Sha256] in
theorem ContextPlan.sources_of_identity {p p' : ContextPlan}
    (h : p.identityPayload.normalize = p'.identityPayload.normalize) :
    p.packManifestDigest = p'.packManifestDigest
      ∧ p.routingRulesDigest = p'.routingRulesDigest ∧ p.pipelineDigest = p'.pipelineDigest := by
  unfold ContextPlan.identityPayload at h
  have hmanifest := Json.field_of_normalize_eq h "pack_manifest_digest"
  have hrules := Json.field_of_normalize_eq h "routing_rules_digest"
  have hpipeline := Json.field_of_normalize_eq h "pipeline_digest"
  simp [Json.field] at hmanifest hrules hpipeline
  exact ⟨hmanifest, hrules, hpipeline⟩

variable {a a' : CompiledArtifacts} {b b' : RuntimeBundle}

theorem Sealed.sameParts (hsha : Sha256.Injective) (h : Sealed a b) (h' : Sealed a' b')
    (hdigest : b.semanticDigest = b'.semanticDigest) : SameParts b b' := by
  rw [h.semantic, h'.semantic] at hdigest
  have hpayload := Json.normalize_of_canonicalText (Json.str.inj (hsha _ _ hdigest))
  have hvalues := Json.values_eq_of_normalize_eq hpayload
    ((keys_semanticPayload ..).trans (keys_semanticPayload ..).symm)
    (by rw [keys_semanticPayload]; decide)
  simp only [semanticPayload, List.map_cons, List.map_nil, Json.normalize_str, List.cons.injEq,
    Json.str.injEq] at hvalues
  obtain ⟨hintent, hexecution, hvalidation, hhandoff, hgraph, -, -, -, -, hcontext, hplan, -⟩ :=
    hvalues
  rw [h.contextDigest, h'.contextDigest] at hcontext
  have hpayload : b.contextPlan.identityPayload.normalize
      = b'.contextPlan.identityPayload.normalize := by
    rw [h.planId, h'.planId] at hplan
    exact deriveId_inj hsha hplan
  exact
    { intent := by rw [h.intent, h'.intent]; exact hsha _ _ hintent
      execution := by rw [h.execution, h'.execution]; exact hsha _ _ hexecution
      validation := by rw [h.validation, h'.validation]; exact hsha _ _ hvalidation
      handoff := by rw [h.handoff, h'.handoff]; exact hsha _ _ hhandoff
      graph := by rw [h.graph, h'.graph]; exact hsha _ _ hgraph
      context := by rw [h.context, h'.context]; exact hsha _ _ hcontext
      planId := hplan
      plan := hpayload
      manifest := by
        rw [h.manifest, h'.manifest]
        exact (ContextPlan.sources_of_identity hpayload).1 }

/-! ## Equal parts, equal packets -/

omit [Sha256] in
/-- Objects with the same keys and, up to key order, the same values. -/
theorem normalize_obj_congr {l l' : List (String × Json)}
    (h : l.map (fun e => (e.1, Json.normalize e.2)) = l'.map fun e => (e.1, Json.normalize e.2)) :
    Json.normalize (.obj l) = Json.normalize (.obj l') := by
  rw [Json.normalize_obj, Json.normalize_obj, h]

/-- What the packet reads off its parts. -/
structure SameSections (a a' : CompiledArtifacts) : Prop where
  steps : Json.normalize (.arr (a.execution.executionSteps.map ExecutionStep.toJson))
    = Json.normalize (.arr (a'.execution.executionSteps.map ExecutionStep.toJson))
  obligations : a.execution.obligations = a'.execution.obligations
  properties : Json.normalize (.arr (a.validation.validationProperties.map
      ValidationProperty.toJson))
    = Json.normalize (.arr (a'.validation.validationProperties.map ValidationProperty.toJson))
  kernels : Json.normalize (.arr (a.kernels.map KernelBinding.toDict))
    = Json.normalize (.arr (a'.kernels.map KernelBinding.toDict))
  unknowns : a.intent.unknowns ++ a.plan.unknowns
      ++ a.taskContext.unresolvedUnknowns.map ContextUnknown.unknownId
    = a'.intent.unknowns ++ a'.plan.unknowns
      ++ a'.taskContext.unresolvedUnknowns.map ContextUnknown.unknownId

omit [Sha256] in
/-- Objects equal up to key order hold equal values under a key. -/
theorem get?_congr {i j : Json} (h : i.normalize = j.normalize) (key : String) :
    Json.get? i.normalize key = Json.get? j.normalize key := by
  rw [h]

theorem SameParts.sections (hsame : SameParts b b') (h : Sealed a b) (h' : Sealed a' b') :
    SameSections a a' := by
  obtain ⟨hintent, hexecution, hvalidation, hhandoff, -, hcontext, -, -, -⟩ := hsame
  rw [h.intent, h'.intent] at hintent
  rw [h.execution, h'.execution] at hexecution
  rw [h.validation, h'.validation] at hvalidation
  rw [h.handoff, h'.handoff] at hhandoff
  rw [h.context, h'.context] at hcontext
  have hsteps := get?_congr hexecution "execution_steps"
  have hobligations := get?_congr hexecution "obligations"
  have hproperties := get?_congr hvalidation "validation_properties"
  have hkernels := get?_congr hcontext "selected_kernels"
  have hnoted := get?_congr hintent "unknowns"
  have hplanned := get?_congr hhandoff "unknowns"
  have hunresolved := get?_congr hcontext "unresolved_unknowns"
  simp only [ExecutionContract.toJson, get?_normalize_obj] at hsteps hobligations
  simp only [ValidationContract.toJson, get?_normalize_obj] at hproperties
  simp only [CompiledTaskContext.toJson, get?_normalize_obj, h.kernels, h'.kernels]
    at hkernels hunresolved
  simp only [IntentContract.toJson, get?_normalize_obj] at hnoted
  simp only [HandoffContract.toJson, get?_normalize_obj, h.unknowns, h'.unknowns] at hplanned
  have hnoted : Json.normalize (.ofStrings a.intent.unknowns)
      = Json.normalize (.ofStrings a'.intent.unknowns) := Option.some.inj hnoted
  have hplanned : Json.normalize (.ofStrings a.plan.unknowns)
      = Json.normalize (.ofStrings a'.plan.unknowns) := Option.some.inj hplanned
  rw [Json.normalize_ofStrings, Json.normalize_ofStrings, Json.ofStrings_inj] at hnoted hplanned
  exact
    { steps := Option.some.inj hsteps
      obligations := map_toJson_inj Obligation.toJson_inj (Option.some.inj hobligations)
      properties := Option.some.inj hproperties
      kernels := Option.some.inj hkernels
      unknowns := by
        rw [hnoted, hplanned,
          map_field_of_toJson ContextUnknown.get?_unknown_id (Option.some.inj hunresolved)] }

/-- The packet is built from its parts. -/
theorem SameParts.packet (hsame : SameParts b b') (h : Sealed a b) (h' : Sealed a' b')
    (hdigest : b.semanticDigest = b'.semanticDigest) :
    Json.normalize (.obj b.packet.toDict) = Json.normalize (.obj b'.packet.toDict) := by
  have hsections := hsame.sections h h'
  obtain ⟨hmanifest, hrules, hpipeline⟩ := ContextPlan.sources_of_identity hsame.plan
  have hcontext : a.taskContext.sha256 = a'.taskContext.sha256 := by
    have hdoc := hsame.context
    rw [h.context, h'.context] at hdoc
    exact congrArg Sha256.hexdigest hdoc
  have hgraph : sha256Digest a.graph.toJson = sha256Digest a'.graph.toJson := by
    have hdoc := hsame.graph
    rw [h.graph, h'.graph] at hdoc
    exact congrArg Sha256.hexdigest hdoc
  have hhandoff : sha256Digest a.handoff.toJson = sha256Digest a'.handoff.toJson := by
    have hdoc := hsame.handoff
    rw [h.handoff, h'.handoff] at hdoc
    exact congrArg Sha256.hexdigest hdoc
  have hintentDoc := hsame.intent
  rw [h.intent, h'.intent] at hintentDoc
  have hcontextDoc := hsame.context
  rw [h.context, h'.context] at hcontextDoc
  rw [h.packet, h'.packet]
  refine normalize_obj_congr ?_
  simp only [ExecutionPacket.toDict, buildExecutionPacket, PacketProvenance.toDict, List.map_cons,
    List.map_nil, hintentDoc, hcontextDoc, h.contextDigest, h'.contextDigest, hcontext, hgraph,
    hhandoff, hsame.planId, hrules, hpipeline, hdigest, hsections.kernels, hsections.steps,
    hsections.obligations, hsections.properties, hsections.unknowns,
    kernelDigests_of_toDict hsections.kernels]

omit [Sha256] in
/-- The document of a plan is its identity with the id beside it. -/
theorem ContextPlan.toJson_congr {p p' : ContextPlan} (hid : p.contextPlanId = p'.contextPlanId)
    (h : p.identityPayload.normalize = p'.identityPayload.normalize) :
    p.toJson.normalize = p'.toJson.normalize := by
  unfold ContextPlan.identityPayload at h
  have hvalues := Json.values_eq_of_normalize_eq h (by simp only [List.map_cons, List.map_nil])
    (by
      simp only [List.map_cons, List.map_nil]
      decide)
  simp only [List.map_cons, List.map_nil, List.cons.injEq] at hvalues
  obtain ⟨-, hscope, hdiscovery, hplan, hkernels, hmanifest, hrules, hpipeline, hcompiler, -⟩ :=
    hvalues
  refine normalize_obj_congr ?_
  simp only [List.map_cons, List.map_nil, hid, hscope, hdiscovery, hplan, hkernels, hmanifest,
    hrules, hpipeline, hcompiler]

/-- The digests of equal parts are equal. -/
theorem SameParts.digests (hsame : SameParts b b') (hdigest : b.semanticDigest = b'.semanticDigest) :
    b.digests = b'.digests := by
  have hplan : b.contextPlan.sha256 = b'.contextPlan.sha256 :=
    congrArg Sha256.hexdigest (ContextPlan.toJson_congr hsame.planId hsame.plan)
  simp only [RuntimeBundle.digests, sha256Digest, CompiledTaskContext.sha256, hsame.intent,
    hsame.execution, hsame.validation, hsame.handoff, hsame.graph, hsame.context, hsame.manifest,
    hdigest, hplan]

omit [Sha256] in
/-- A packet carries the semantic digest. -/
theorem semanticDigest_of_packet {p p' : ExecutionPacket}
    (h : Json.normalize (.obj p.toDict) = Json.normalize (.obj p'.toDict)) :
    p.provenance.semanticDigest = p'.provenance.semanticDigest := by
  have hprovenance := get?_congr h "provenance"
  simp only [ExecutionPacket.toDict, get?_normalize_obj] at hprovenance
  have hdocs : p.provenance.toDict.normalize = p'.provenance.toDict.normalize :=
    Option.some.inj hprovenance
  have hdigest := get?_congr hdocs "semantic_digest"
  simp only [PacketProvenance.toDict, get?_normalize_obj] at hdigest
  exact Json.str.inj (Option.some.inj hdigest)

/-- Two compiles, of whatever requests, packs and snapshots, share the
semantic digest exactly where they share all nine digests of the bundle,
and exactly where they share the execution packet; and then every
compiled part is the same. -/
theorem semantic_digest_identifies [TextTables] (hsha : Sha256.Injective)
    {request request' : CompileRequest} {pack pack' : RuntimePack}
    {snapshot snapshot' : Option ContextSnapshot} {expected expected' : Option String}
    {b b' : RuntimeBundle} (h : compile request pack snapshot expected = .ok b)
    (h' : compile request' pack' snapshot' expected' = .ok b') :
    (b.semanticDigest = b'.semanticDigest ↔ b.digests = b'.digests)
      ∧ (b.semanticDigest = b'.semanticDigest ↔
        Json.normalize (.obj b.packet.toDict) = Json.normalize (.obj b'.packet.toDict))
      ∧ (b.semanticDigest = b'.semanticDigest → SameParts b b') := by
  obtain ⟨a, ha⟩ := compile_sealed h
  obtain ⟨a', ha'⟩ := compile_sealed h'
  have hparts := ha.sameParts hsha ha'
  refine ⟨⟨fun hd => (hparts hd).digests hd, fun hd => ?_⟩,
    ⟨fun hd => (hparts hd).packet ha ha' hd, fun hd => ?_⟩, hparts⟩
  · simp only [RuntimeBundle.digests, List.cons.injEq, Prod.mk.injEq, true_and] at hd
    exact hd.2.2.2.2.2.2.1
  · have hsemantic := semanticDigest_of_packet hd
    rwa [ha.packet, ha'.packet] at hsemantic

end Bundles

section Audit

/-- The documents of two missions differ. -/
theorem mission_of_toJson {i i' : IntentContract} (h : i.toJson.normalize = i'.toJson.normalize) :
    i.mission = i'.mission := by
  have hfield := get?_congr h "mission"
  simp only [IntentContract.toJson, get?_normalize_obj] at hfield
  exact Json.str.inj (Option.some.inj hfield)

attribute [local instance] Sha256.transparent TextTables.ascii

def hardeningRequest : CompileRequest := .standard "harden the worker queue" "feature"

/-- The audit and a hardening from the shipped pack are told apart. -/
theorem audit_digest_identifies :
    ∃ b b', compile auditRequest auditPack none none = .ok b
      ∧ compile hardeningRequest shippedPack none none = .ok b'
      ∧ b.semanticDigest ≠ b'.semanticDigest ∧ b.digests ≠ b'.digests
      ∧ Json.normalize (.obj b.packet.toDict) ≠ Json.normalize (.obj b'.packet.toDict) := by
  obtain ⟨root, hroot⟩ := audit_compiles Sha256.transparent_injective
  have haudit : compile auditRequest auditPack none none = .ok root.bundle := by
    unfold compile
    rw [hroot, ok_bind]
  obtain ⟨bundle, hhardening⟩ := compile_shipped Sha256.transparent_injective shippedPack_ships
    hardeningRequest (by decide)
  obtain ⟨hdigests, hpackets, hparts⟩ :=
    semantic_digest_identifies Sha256.transparent_injective haudit hhardening
  have hapart : root.bundle.semanticDigest ≠ bundle.semanticDigest := by
    intro hsemantic
    have hmission := mission_of_toJson (hparts hsemantic).intent
    rw [compile_mission haudit, compile_mission hhardening] at hmission
    revert hmission
    decide
  exact ⟨root.bundle, bundle, haudit, hhardening, hapart, fun h => hapart (hdigests.mpr h),
    fun h => hapart (hpackets.mpr h)⟩

end Audit

end CognitiveRuntime
