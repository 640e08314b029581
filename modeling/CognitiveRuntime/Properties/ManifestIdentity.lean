import CognitiveRuntime.Properties.SemanticDigest

/-!
# What the manifest digest moves

The compiler never reads the manifest of a pack, only the digest of it,
and that goes into the context plan and no further. Two packs that differ
in their manifest digest alone compile to the same contracts, graph and
context or fail with the same error; what tells the compiles apart is the
identity of the plan and the digests that are taken over it.
-/

namespace CognitiveRuntime

open Ordered Fallible

/-- The pack under another manifest. -/
def RuntimePack.under (pack : RuntimePack) (manifestDigest : String) : RuntimePack :=
  { pack with manifestDigest := manifestDigest }

/-- One demand under two manifests. -/
structure SameDemand (plan plan' : ContextPlan) : Prop where
  demand : plan' = { plan with
    contextPlanId := plan'.contextPlanId, packManifestDigest := plan'.packManifestDigest }

/-- Compiles that differ in the identity of their plan, and in what is
derived from it. -/
structure SameMeaning (root root' : RootCompilation) : Prop where
  plan : root'.plan = root.plan
  kernels : root'.kernels = root.kernels
  intent : root'.bundle.intent = root.bundle.intent
  execution : root'.bundle.execution = root.bundle.execution
  validation : root'.bundle.validation = root.bundle.validation
  handoff : root'.bundle.handoff = root.bundle.handoff
  graph : root'.bundle.graph = root.bundle.graph
  context : root'.bundle.taskContext = root.bundle.taskContext
  demand : SameDemand root.bundle.contextPlan root'.bundle.contextPlan
  packet : root'.bundle.packet = { root.bundle.packet with
    contextPlanId := root'.bundle.contextPlan.contextPlanId
    provenance := { root.bundle.packet.provenance with
      semanticDigest := root'.bundle.semanticDigest
      contextPlanId := root'.bundle.contextPlan.contextPlanId } }

section Manifests

variable [Sha256] (manifestDigest : String)

/-! ## The prefix -/

theorem ContextPlan.create_under (draft : ContextPlan) :
    Agree SameDemand (ContextPlan.create draft)
      (ContextPlan.create { draft with packManifestDigest := manifestDigest }) := by
  unfold ContextPlan.create
  dsimp only
  split
  · exact .error _
  · split
    · exact .error _
    · split
      · exact .error _
      · exact .ok ⟨rfl⟩

omit [Sha256] in
theorem resolveKernels_under (pack : RuntimePack) (seen items : List String) :
    resolveKernels (pack.under manifestDigest).toSourcePack seen items
      = resolveKernels pack.toSourcePack seen items := by
  induction items generalizing seen with
  | nil => rfl
  | cons item rest ih =>
      have hbreach : kernelPathBreach (pack.under manifestDigest).toSourcePack (kernelPath item)
          = kernelPathBreach pack.toSourcePack (kernelPath item) := rfl
      have hbind : bindKernel (pack.under manifestDigest).toSourcePack (kernelPath item)
          = bindKernel pack.toSourcePack (kernelPath item) := rfl
      rw [resolveKernels, resolveKernels, hbreach, hbind, ih, ih]

/-- What the stages of the prefix hand on. -/
structure SamePrefix (prepared prepared' : PreparedContextPlan) : Prop where
  stages : prepared' = { prepared with contextPlan := prepared'.contextPlan }
  demand : SameDemand prepared.contextPlan prepared'.contextPlan

theorem planFromDiscovery_under [TextTables] (pack : RuntimePack) (options : RunOptions)
    (sources : RoutingSources) (intent : IntentContract) (scope : TaskScope)
    (discovery : DiscoveryContext) :
    Agree (fun p p' => p'.1 = p.1 ∧ p'.2.1 = p.2.1 ∧ p'.2.2.1 = p.2.2.1
        ∧ SameDemand p.2.2.2 p'.2.2.2)
      (planFromDiscovery pack options sources intent scope discovery)
      (planFromDiscovery (pack.under manifestDigest) options sources intent scope discovery) := by
  unfold planFromDiscovery
  refine Agree.bind_same fun activation => ?_
  rw [resolveKernels_under]
  refine Agree.bind_same fun kernels => ?_
  refine Agree.bind_same fun requirementPlan => ?_
  refine (ContextPlan.create_under manifestDigest _).bind ?_
  intro plan plan' hplan
  exact .ok ⟨rfl, rfl, rfl, hplan⟩

theorem prepareContextPlan_under [TextTables] (request : CompileRequest) (pack : RuntimePack)
    (snapshot : Option ContextSnapshot) (options : RunOptions) :
    Agree SamePrefix (prepareContextPlan request pack snapshot options)
      (prepareContextPlan request (pack.under manifestDigest) snapshot options) := by
  unfold prepareContextPlan
  refine Agree.bind_same fun sources => ?_
  refine Agree.bind_same fun intent => ?_
  refine Agree.bind_same fun _ => ?_
  refine (planFromDiscovery_under manifestDigest pack options sources intent _ _).bind ?_
  rintro ⟨activation, kernels, requirementPlan, plan⟩ ⟨_, _, _, plan'⟩ ⟨h₁, h₂, h₃, hplan⟩
  cases h₁
  cases h₂
  cases h₃
  exact .ok ⟨rfl, hplan⟩

/-! ## The stages after it -/

/-- The validators of the packet and of liveness look at no identity but
the digest of the context. -/
theorem validatePacket_stamps (a : CompiledArtifacts) (digests digests' : PacketDigests) :
    validatePacket (buildExecutionPacket a digests)
      = validatePacket (buildExecutionPacket a digests') := by
  unfold validatePacket
  simp only [buildExecutionPacket, decide_true, ensure_true, ok_bind]
  rfl

theorem validateLiveness_stamps (a : CompiledArtifacts) (digests digests' : PacketDigests)
    (rules pipeline planId planId' : String) :
    validateLiveness a (buildExecutionPacket a digests)
        (semanticPayload a rules pipeline planId)
      = validateLiveness a (buildExecutionPacket a digests')
        (semanticPayload a rules pipeline planId') := rfl

theorem finish_stamps {β : Type} {R : β → β → Prop} (a : CompiledArtifacts)
    (digests digests' : PacketDigests) (rules pipeline planId planId' : String) {root root' : β}
    (h : R root root') :
    Agree R
      (do
        validatePacket (buildExecutionPacket a digests)
        validateLiveness a (buildExecutionPacket a digests)
          (semanticPayload a rules pipeline planId)
        .ok root)
      (do
        validatePacket (buildExecutionPacket a digests')
        validateLiveness a (buildExecutionPacket a digests')
          (semanticPayload a rules pipeline planId')
        .ok root') := by
  rw [validatePacket_stamps a digests digests',
    validateLiveness_stamps a digests digests' rules pipeline planId planId']
  refine Agree.bind_same fun _ => ?_
  refine Agree.bind_same fun _ => ?_
  exact .ok h

theorem compileStages_under (pack : RuntimePack) {prepared prepared' : PreparedContextPlan}
    (h : SamePrefix prepared prepared') :
    Agree SameMeaning (compileStages pack prepared)
      (compileStages (pack.under manifestDigest) prepared') := by
  obtain ⟨hstages, hdemand⟩ := h
  have hsources : prepared'.contextPlan.routingRulesDigest = prepared.contextPlan.routingRulesDigest
      ∧ prepared'.contextPlan.pipelineDigest = prepared.contextPlan.pipelineDigest := by
    rw [hdemand.demand]
    exact ⟨rfl, rfl⟩
  have hinputs : prepared'.compileInputs = prepared.compileInputs := by
    rw [hstages]
    rfl
  have hcontracts : ∀ taskContext report, compileContracts prepared' taskContext report
      = compileContracts prepared taskContext report := by
    rw [hstages]
    exact fun _ _ => rfl
  have hclosure : ∀ taskContext, validateClosure taskContext prepared'.requirementPlan
      prepared'.resolution prepared'.kernels = validateClosure taskContext prepared.requirementPlan
        prepared.resolution prepared.kernels := by
    rw [hstages]
    exact fun _ => rfl
  unfold compileStages
  simp only [hinputs, hclosure, hcontracts, hsources]
  refine Agree.bind_same fun taskContext => ?_
  refine Agree.bind_same fun report => ?_
  refine Agree.bind_same fun a => ?_
  refine finish_stamps a _ _ _ _ _ _
    { plan := rfl
      kernels := rfl
      intent := rfl
      execution := rfl
      validation := rfl
      handoff := rfl
      graph := rfl
      context := rfl
      demand := hdemand
      packet := rfl }

/-- Under another manifest a compile that is bound to no plan fails with
the same error, or succeeds with the same meaning. -/
theorem compileRoot_under [TextTables] (request : CompileRequest) (pack : RuntimePack)
    (snapshot : Option ContextSnapshot) (options : RunOptions) :
    Agree SameMeaning (compileRoot request pack snapshot options none)
      (compileRoot request (pack.under manifestDigest) snapshot options none) := by
  unfold compileRoot compileThen
  refine (prepareContextPlan_under manifestDigest request pack snapshot options).bind ?_
  intro prepared prepared' h
  exact compileStages_under manifestDigest pack h

/-- What a route check reads of a bundle. -/
def SameResult (bundle bundle' : RuntimeBundle) : Prop :=
  bundle'.execution = bundle.execution ∧ bundle'.taskContext = bundle.taskContext

theorem compile_under [TextTables] (request : CompileRequest) (pack : RuntimePack)
    (snapshot : Option ContextSnapshot) :
    Agree SameResult (compile request pack snapshot none)
      (compile request (pack.under manifestDigest) snapshot none) := by
  unfold compile
  refine (compileRoot_under manifestDigest request pack snapshot .standard).bind ?_
  intro root root' h
  exact .ok ⟨h.execution, h.context⟩

/-! ## Identities -/

omit [Sha256] in
theorem RuntimePack.under_self (pack : RuntimePack) : pack.under pack.manifestDigest = pack := rfl

/-- The identity of the plan and the semantic digest tell manifests
apart, and nothing else does. -/
structure ToldApart (root root' : RootCompilation) (same : Prop) : Prop where
  planId : root'.bundle.contextPlan.contextPlanId = root.bundle.contextPlan.contextPlanId ↔ same
  semantic : root'.bundle.semanticDigest = root.bundle.semanticDigest ↔ same

variable {manifestDigest}

/-- Whatever the request, the snapshot and the options: under another
manifest a compile that is bound to no plan fails with the same error or
gives the same contracts, graph and context, and the identity of its plan
and its semantic digest are the same exactly where the manifest is. -/
theorem manifest_moves_identity [TextTables] (hsha : Sha256.Injective) (request : CompileRequest)
    (pack : RuntimePack) (snapshot : Option ContextSnapshot) (options : RunOptions) :
    Agree (fun root root' => SameMeaning root root'
        ∧ ToldApart root root' (manifestDigest = pack.manifestDigest))
      (compileRoot request pack snapshot options none)
      (compileRoot request (pack.under manifestDigest) snapshot options none) := by
  refine (compileRoot_under manifestDigest request pack snapshot options).imp ?_
  intro root root' hroot hroot' hsame
  obtain ⟨hmanifest, a, ha⟩ := compileRoot_sealed hroot
  obtain ⟨hmanifest', a', ha'⟩ := compileRoot_sealed hroot'
  have hequal : manifestDigest = pack.manifestDigest → root' = root := by
    rintro rfl
    rw [RuntimePack.under_self, hroot] at hroot'
    exact (Except.ok.inj hroot').symm
  refine ⟨hsame, ⟨fun hid => ?_, fun h => by rw [hequal h]⟩, fun hsemantic => ?_,
    fun h => by rw [hequal h]⟩
  · rw [ha.planId, ha'.planId] at hid
    have hpayload := (ContextPlan.sources_of_identity (deriveId_inj hsha hid)).1
    rw [← ha.manifest, ← ha'.manifest, hmanifest, hmanifest'] at hpayload
    exact hpayload
  · have hparts := (ha'.sameParts hsha ha hsemantic).manifest
    rw [hmanifest, hmanifest'] at hparts
    exact hparts

end Manifests

section Audit

attribute [local instance] Sha256.transparent TextTables.ascii

/-- The audit under two manifests. -/
theorem audit_under_manifest :
    ∃ root root', compileRoot auditRequest auditPack none .standard none = .ok root
      ∧ compileRoot auditRequest (auditPack.under "sealed") none .standard none = .ok root'
      ∧ SameMeaning root root' ∧ root'.bundle.semanticDigest ≠ root.bundle.semanticDigest := by
  obtain ⟨root, hroot⟩ := audit_compiles Sha256.transparent_injective
  obtain ⟨root', hroot', hsame, hapart⟩ :=
    (manifest_moves_identity Sha256.transparent_injective auditRequest auditPack none
      .standard).exists_ok hroot
  refine ⟨root, root', hroot, hroot', hsame, fun hsemantic => ?_⟩
  have hmanifest := hapart.semantic.mp hsemantic
  revert hmanifest
  decide

end Audit

end CognitiveRuntime
