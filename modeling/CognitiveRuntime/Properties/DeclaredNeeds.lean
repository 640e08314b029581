import CognitiveRuntime.Properties.Planning

/-!
# Declared needs in the plan

Needs of one signature are merged into one requirement that lists them
all (`exists_mergedNeedSpec`). The order they are declared in does not
matter (`mergedNeedSpecs_perm`), and neither does the language of their
strings, as long as it is ordered alike (`mergedNeedSpecs_map`).
-/

namespace CognitiveRuntime

open Ordered Fallible

section Merged

variable {σ : Type} [LinearOrder σ] {scopedRefs : List String} {need need' : KernelContextNeed σ}
  {declared declared' : List (KernelContextNeed σ × σ)}

/-- Needs of one signature ask for the same requirement. -/
theorem kernelNeedSpec_congr (h : needSignature need = needSignature need') (refs : List σ) :
    kernelNeedSpec scopedRefs need refs = kernelNeedSpec scopedRefs need' refs := by
  unfold needSignature at h
  simp only [EmbeddingLike.apply_eq_iff_eq, Prod.mk.injEq, ContextKind.value_inj,
    CoverageMode.value_inj, AuthorityLevel.value_inj] at h
  obtain ⟨hkind, hrequired, hreason, hcoverage, hfloor, hkeys⟩ := h
  unfold kernelNeedSpec
  rw [hfloor, hkind, hrequired, hreason, hcoverage, hkeys]

theorem sortedBy_id_perm {refs refs' : List σ} (h : refs.Perm refs') :
    sortedBy id refs = sortedBy id refs' :=
  (((perm_sortedBy id refs).trans h).trans (perm_sortedBy id refs').symm).eq_of_pairwise
    (fun _ _ _ _ hab hba => le_antisymm hab hba) (pairwise_sortedBy id refs)
    (pairwise_sortedBy id refs')

theorem kernelNeedSpec_perm {refs refs' : List σ} (h : refs.Perm refs') :
    kernelNeedSpec scopedRefs need refs = kernelNeedSpec scopedRefs need refs' := by
  unfold kernelNeedSpec
  rw [sortedBy_id_perm h]

/-- The specification of the needs of one signature. -/
def mergedSpec (scopedRefs : List String) (entries : List (KernelContextNeed σ × σ)) :
    Option (RequirementSpec σ) :=
  entries.head?.map fun first => kernelNeedSpec scopedRefs first.1 (entries.map Prod.snd)

theorem mergedSpec_perm {entries entries' : List (KernelContextNeed σ × σ)}
    (h : entries.Perm entries')
    (hone : ∀ e ∈ entries, ∀ e' ∈ entries, needSignature e.1 = needSignature e'.1) :
    mergedSpec scopedRefs entries = mergedSpec scopedRefs entries' := by
  unfold mergedSpec
  cases entries with
  | nil => rw [h.nil_eq]
  | cons first rest =>
      cases entries' with
      | nil => exact absurd h.symm.nil_eq (List.cons_ne_nil _ _).symm
      | cons first' rest' =>
          have hmem : first' ∈ first :: rest := h.mem_iff.mpr (List.mem_cons_self ..)
          rw [List.head?_cons, List.head?_cons, Option.map_some, Option.map_some,
            kernelNeedSpec_perm (h.map Prod.snd),
            kernelNeedSpec_congr (hone first (List.mem_cons_self ..) first' hmem)]

/-- The requirements of declared needs, one for each signature in order. -/
theorem mergedNeedSpecs_eq (scopedRefs : List String)
    (declared : List (KernelContextNeed σ × σ)) :
    mergedNeedSpecs scopedRefs declared
      = (sortedUnique (declared.map fun e => needSignature e.1)).filterMap
          fun signature => mergedSpec scopedRefs
            (declared.filter fun e => needSignature e.1 = signature) := by
  unfold mergedNeedSpecs
  rw [sortedBy_groupBy, List.filterMap_map]
  rfl

/-- The order of the declarations does not matter. -/
theorem mergedNeedSpecs_perm (h : declared.Perm declared') :
    mergedNeedSpecs scopedRefs declared = mergedNeedSpecs scopedRefs declared' := by
  rw [mergedNeedSpecs_eq, mergedNeedSpecs_eq,
    sortedUnique_congr fun _ => (h.map fun e => needSignature e.1).mem_iff]
  refine List.filterMap_congr fun signature _ => mergedSpec_perm (h.filter _) ?_
  intro e he e' he'
  have hsame := of_decide_eq_true (List.mem_filter.mp he).2
  have hsame' := of_decide_eq_true (List.mem_filter.mp he').2
  exact hsame.trans hsame'.symm

/-- Every declared need is merged into a specification that lists it. -/
theorem exists_mergedNeedSpec {ref : σ} (h : (need, ref) ∈ declared) :
    ∃ refs, ref ∈ refs
      ∧ kernelNeedSpec scopedRefs need refs ∈ mergedNeedSpecs scopedRefs declared := by
  have hgroup : (need, ref) ∈ declared.filter fun e => needSignature e.1 = needSignature need :=
    List.mem_filter.mpr ⟨h, decide_eq_true rfl⟩
  refine ⟨(declared.filter fun e => needSignature e.1 = needSignature need).map Prod.snd,
    List.mem_map_of_mem hgroup, ?_⟩
  rw [mergedNeedSpecs_eq]
  refine List.mem_filterMap.mpr ⟨needSignature need, mem_sortedUnique.mpr
    (List.mem_map_of_mem h), ?_⟩
  cases hmembers : declared.filter fun e => needSignature e.1 = needSignature need with
  | nil =>
      rw [hmembers] at hgroup
      cases hgroup
  | cons first rest =>
      have hfirst : first ∈ declared.filter fun e => needSignature e.1 = needSignature need := by
        rw [hmembers]
        exact List.mem_cons_self ..
      have hsame := of_decide_eq_true (List.mem_filter.mp hfirst).2
      unfold mergedSpec
      rw [List.head?_cons, Option.map_some, kernelNeedSpec_congr hsame]

end Merged

/-! ## Strings of another language -/

/-- The need with its strings renamed. -/
def KernelContextNeed.map {σ τ : Type} (f : σ → τ) (need : KernelContextNeed σ) :
    KernelContextNeed τ where
  needId := f need.needId
  contextKind := need.contextKind
  required := need.required
  reason := f need.reason
  coverage := need.coverage
  minimumAuthority := need.minimumAuthority
  requiredSemanticKeys := need.requiredSemanticKeys.map f

/-- The specification with its strings renamed. -/
def RequirementSpec.map {σ τ : Type} (f : σ → τ) (spec : RequirementSpec σ) :
    RequirementSpec τ where
  kind := spec.kind
  reason := f spec.reason
  required := spec.required
  coverageMode := spec.coverageMode
  minItems := spec.minItems
  missingPolicy := spec.missingPolicy
  scopeMode := spec.scopeMode
  scopeRefs := spec.scopeRefs
  minimumAuthority := spec.minimumAuthority
  maxItems := spec.maxItems
  priority := spec.priority
  requiredSemanticKeys := spec.requiredSemanticKeys.map f
  kernelNeedRefs := spec.kernelNeedRefs.map f

theorem strictMono_lexMap {α α' β β' : Type} [LinearOrder α] [LinearOrder α'] [LinearOrder β]
    [LinearOrder β'] {f : α → α'} {g : β → β'} (hf : StrictMono f) (hg : StrictMono g) :
    StrictMono fun p : α ×ₗ β => toLex (f (ofLex p).1, g (ofLex p).2) := by
  intro p q hpq
  rcases Prod.Lex.lt_iff.mp hpq with hfirst | ⟨hfirst, hsecond⟩
  · exact Prod.Lex.lt_iff.mpr (Or.inl (hf hfirst))
  · exact Prod.Lex.lt_iff.mpr (Or.inr ⟨congrArg f hfirst, hg hsecond⟩)

section Renamed

variable {σ τ : Type} [LinearOrder σ] [LinearOrder τ] {f : σ → τ} (hf : StrictMono f)
  {scopedRefs : List String}
include hf

/-- Renaming in order keeps the order of signatures. -/
theorem exists_signatureMap : ∃ g, StrictMono g
    ∧ ∀ need : KernelContextNeed σ, needSignature (need.map f) = g (needSignature need) := by
  have hkeys : StrictMono (List.map f) := fun _ _ h => List.map_lt (fun _ _ hab => hf hab) h
  exact ⟨_, strictMono_lexMap strictMono_id (strictMono_lexMap strictMono_id
    (strictMono_lexMap hf (strictMono_lexMap strictMono_id
      (strictMono_lexMap strictMono_id hkeys)))), fun _ => rfl⟩

theorem kernelNeedSpec_map (need : KernelContextNeed σ) (refs : List σ) :
    kernelNeedSpec scopedRefs (need.map f) (refs.map f)
      = (kernelNeedSpec scopedRefs need refs).map f := by
  unfold kernelNeedSpec RequirementSpec.map KernelContextNeed.map
  simp only [sortedBy_id_map hf, List.length_map]

/-- Needs renamed in order become the requirements, renamed. -/
theorem mergedNeedSpecs_map (declared : List (KernelContextNeed σ × σ)) :
    mergedNeedSpecs scopedRefs (declared.map fun e => (e.1.map f, f e.2))
      = (mergedNeedSpecs scopedRefs declared).map (RequirementSpec.map f) := by
  obtain ⟨g, hg, hsignature⟩ := exists_signatureMap hf
  rw [mergedNeedSpecs_eq, mergedNeedSpecs_eq, List.map_filterMap]
  have hsignatures : (declared.map fun e => (e.1.map f, f e.2)).map (fun e => needSignature e.1)
      = (declared.map fun e => needSignature e.1).map g := by
    rw [List.map_map, List.map_map]
    exact List.map_congr_left fun e _ => hsignature e.1
  rw [hsignatures, sortedUnique_map hg, List.filterMap_map]
  refine List.filterMap_congr fun signature _ => ?_
  have hgroup : (declared.map fun e => (e.1.map f, f e.2)).filter
        (fun e => needSignature e.1 = g signature)
      = (declared.filter fun e => needSignature e.1 = signature).map
          fun e => (e.1.map f, f e.2) := by
    rw [List.filter_map]
    congr 1
    refine List.filter_congr fun e _ => ?_
    simp [hsignature, hg.injective.eq_iff]
  unfold mergedSpec
  rw [Function.comp_apply, hgroup, List.head?_map, Option.map_map, Option.map_map]
  refine congrArg (fun asked => Option.map asked _) ?_
  funext first
  simp only [Function.comp_apply, List.map_map]
  rw [← kernelNeedSpec_map hf, List.map_map]
  rfl

end Renamed

end CognitiveRuntime
