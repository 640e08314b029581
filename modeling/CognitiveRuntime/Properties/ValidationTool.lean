import CognitiveRuntime.Properties.SemanticDigest
import CognitiveRuntime.Properties.ServedRuns

/-!
# What the validation tool reports

`validate_runtime_bundle` compiles a bundle and reports four checks of
it. Each of them is what the compile has established already, so the tool
either refuses with the error of the compile or reports a valid bundle.
-/

namespace CognitiveRuntime

open Fallible

section Checks

variable [Sha256] [TextTables]

omit [Sha256] [TextTables] in
theorem append_ne_empty {s t : String} (h : s ≠ "") : s ++ t ≠ "" := by
  intro hempty
  refine h (String.toList_injective ?_)
  have htext := congrArg String.toList hempty
  rw [String.toList_append] at htext
  exact (List.append_eq_nil_iff.mp htext).1

/-- A compiled graph ends in a step. -/
theorem compile_terminal {request : CompileRequest} {pack : RuntimePack}
    {snapshot : Option ContextSnapshot} {expected : Option String} {bundle : RuntimeBundle}
    (h : compile request pack snapshot expected = .ok bundle) :
    bundle.graph.terminalNode ≠ "" ∧ bundle.manifestDigest = pack.manifestDigest := by
  simp only [compile, compileRoot, compileThen, compileStages, bind_eq_ok] at h
  obtain ⟨root, ⟨prepared, -, _, -, taskContext, -, report, -, a, ha, _, -, _, -, hroot⟩,
    hbundle⟩ := h
  cases hroot
  cases hbundle
  simp only [compileContracts, bind_eq_ok] at ha
  obtain ⟨_, -, execution, hexecution, _, -, _, -, _, -, graph, hgraph, _, -, ha⟩ := ha
  cases ha
  refine ⟨?_, rfl⟩
  simp only [compileExecution, bind_eq_ok] at hexecution
  obtain ⟨_, -, _, -, _, -, _, -, _, -, hexecution⟩ := hexecution
  cases hexecution
  simp only [deriveExecutionGraph, bind_eq_ok, require_eq_ok] at hgraph
  obtain ⟨terminal, hterminal, _, -, _, -, _, -, hgraph⟩ := hgraph
  cases hgraph
  have hmem := List.mem_of_getLast? hterminal
  rw [map_stepId_steps] at hmem
  obtain ⟨phase, -, rfl⟩ := List.mem_map.mp hmem
  exact append_ne_empty (by decide)

/-- A bundle a tool gets is a compile from the pack that was loaded. -/
theorem compileBundle_ok [LaxInput] {Time : Type} {call : ServerCall Time}
    {mission taskType : String} {snapshot : Option Payload} {expected : Option String}
    {pack : ServedPack} {bundle : RuntimeBundle}
    (h : call.compileBundle mission taskType snapshot expected = .ok (pack, bundle)) :
    call.loaded = .ok pack ∧ ∃ parsed, compile (.standard mission taskType) pack.toRuntimePack parsed
      expected = .ok bundle := by
  simp only [ServerCall.compileBundle, mapError_eq_ok, serviceCompile, loadServed, bind_eq_ok,
    ensure_eq_ok] at h
  obtain ⟨parsed, -, loaded, ⟨_, -, hloaded⟩, compiled, hcompile, hdone⟩ := h
  cases hdone
  exact ⟨hloaded, parsed, hcompile⟩

/-- A finished bundle passes the four checks. -/
theorem bundleChecks_of_compile (hhash : ∀ j, sha256Digest j ≠ "") {request : CompileRequest}
    {pack : RuntimePack} {snapshot : Option ContextSnapshot} {expected : Option String}
    {bundle : RuntimeBundle} (hmanifest : pack.manifestDigest ≠ "")
    (h : compile request pack snapshot expected = .ok bundle) :
    bundleChecks bundle = [("all_digests_present", true), ("graph_has_terminal", true),
      ("provenance_present", true), ("packet_context_digest_matches", true)] := by
  obtain ⟨a, ha⟩ := compile_sealed h
  obtain ⟨hterminal, hsame⟩ := compile_terminal h
  have hsemantic : bundle.semanticDigest ≠ "" := by
    rw [ha.semantic]
    exact hhash _
  have hpacket : bundle.packet.compiledTaskContextDigest = bundle.taskContext.sha256 := by
    rw [ha.packet, ha.context, ← ha.contextDigest]
    rfl
  rw [← hsame] at hmanifest
  simp [bundleChecks, RuntimeBundle.digests, CompiledTaskContext.sha256, ContextPlan.sha256, hhash,
    hmanifest, hsemantic, hterminal, hpacket]

/-- The validation tool refuses or reports a valid bundle: what would
make a check fail stops the compile first. -/
theorem validation_tool_reports_valid [LaxInput] {Time : Type} (hhash : ∀ j, sha256Digest j ≠ "")
    (settings : ServerSettings Time) (call : ServerCall Time)
    (hpack : ∀ pack, call.loaded = .ok pack → pack.manifestDigest ≠ "") (mission : String)
    (snapshot : Option Payload) :
    settings.answer call (.validateRuntimeBundle mission snapshot)
      = (call.compileBundle mission defaultTaskType snapshot none).map fun compiled =>
          .result [("valid", .bool true), ("digests", ofStringDict compiled.2.digests),
            ("checks", .obj [("all_digests_present", .bool true),
              ("graph_has_terminal", .bool true), ("provenance_present", .bool true),
              ("packet_context_digest_matches", .bool true)])] := by
  cases hbundle : call.compileBundle mission defaultTaskType snapshot none with
  | error fault =>
      simp only [ServerSettings.answer, hbundle]
      rfl
  | ok compiled =>
      obtain ⟨pack, bundle⟩ := compiled
      have hcompiled := compileBundle_ok hbundle
      obtain ⟨hloaded, parsed, hcompile⟩ := hcompiled
      have hchecks := bundleChecks_of_compile hhash (hpack pack hloaded) hcompile
      simp only [ServerSettings.answer, hbundle, ok_bind, hchecks]
      rfl

end Checks

section Audit

attribute [local instance] Sha256.transparent TextTables.ascii

theorem transparent_ne_empty (j : Json) : sha256Digest j ≠ "" := by
  intro h
  have hunary : Sha256.unary (Sha256.code j.normalize) = [] := by
    have htext := congrArg String.toList h
    change (String.ofList (Sha256.unary (Sha256.code j.normalize))).toList = _ at htext
    rwa [String.toList_ofList] at htext
  cases hj : j.normalize <;> rw [hj] at hunary <;> simp [Sha256.code, Sha256.unary] at hunary

attribute [local instance] LaxInput.strict

/-- A caller asks whether the audit of the shipped pack is valid. -/
def auditCall : ServerCall Nat :=
  hostedCall "alice" (.stateless (.validateRuntimeBundle "audit the pack" none)) "r1" 0

/-- The audit compiles, and is reported valid. -/
theorem audit_reported_valid :
    ∃ bundle, auditCall.compileBundle "audit the pack" defaultTaskType none none
        = .ok (servedShippedPack, bundle)
      ∧ hostedServer.answer auditCall (.validateRuntimeBundle "audit the pack" none)
        = .ok (.result [("valid", .bool true), ("digests", ofStringDict bundle.digests),
          ("checks", .obj [("all_digests_present", .bool true),
            ("graph_has_terminal", .bool true), ("provenance_present", .bool true),
            ("packet_context_digest_matches", .bool true)])]) := by
  obtain ⟨bundle, hbundle⟩ := hostedCall_compiles "alice"
    (.stateless (.validateRuntimeBundle "audit the pack" none)) "r1" 0 "audit the pack"
    defaultTaskType (by decide)
  refine ⟨bundle, hbundle, ?_⟩
  rw [validation_tool_reports_valid transparent_ne_empty hostedServer auditCall
    (by rintro pack ⟨⟩; decide) "audit the pack" none]
  exact congrArg (Except.map _) hbundle

end Audit

end CognitiveRuntime
