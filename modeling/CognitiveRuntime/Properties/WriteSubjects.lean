import CognitiveRuntime.Compiler.TaskContext

/-!
# The subjects of a repository write

A write is needed over the targets of the task, under the repositories
that governed facts say they belong to. The subjects divide the targets
by that proof: nothing a fact names is left without its repository, and
nothing it does not name is put under one.
-/

namespace CognitiveRuntime

open Ordered

/-- A governed repository fact about the repository that names the
reference, as its subject or in its scope. -/
def ProvesSubject (item : ContextItem) (repository ref : String) : Prop :=
  ∃ fact, item.repositoryState? = some fact ∧ item.isGoverned = true
    ∧ fact.repositoryId = repository ∧ (ref = fact.subjectRef ∨ ref ∈ item.scopeRefs)

section Subjects

variable {scope : TaskScope} {selected selected' : List ContextItem} {repository ref : String}

/-- What a repository's entries name: the targets some fact proves for
it. -/
theorem mem_namedTargets :
    (∃ e ∈ namedTargets scope selected, e.1 = repository ∧ ref ∈ e.2)
      ↔ ref ∈ scope.targetRefs ∧ ∃ item ∈ selected, ProvesSubject item repository ref := by
  unfold namedTargets
  constructor
  · rintro ⟨e, he, rfl, href⟩
    obtain ⟨item, hitem, hsome⟩ := List.mem_filterMap.mp he
    cases hfact : item.repositoryState? with
    | none =>
        rw [hfact] at hsome
        cases hsome
    | some fact =>
        rw [hfact] at hsome
        dsimp only at hsome
        split at hsome
        next hgoverned =>
          obtain rfl := Option.some.inj hsome
          obtain ⟨htarget, hnames⟩ := List.mem_filter.mp href
          exact ⟨htarget, item, hitem, fact, hfact, hgoverned.1, rfl, of_decide_eq_true hnames⟩
        next => cases hsome
  · rintro ⟨htarget, item, hitem, fact, hfact, hgoverned, rfl, hnames⟩
    have hnamed : ref ∈ scope.targetRefs.filter fun ref =>
        ref = fact.subjectRef ∨ ref ∈ item.scopeRefs :=
      List.mem_filter.mpr ⟨htarget, decide_eq_true hnames⟩
    refine ⟨(fact.repositoryId, _), List.mem_filterMap.mpr ⟨item, hitem, ?_⟩, rfl, hnamed⟩
    rw [hfact]
    exact if_pos ⟨hgoverned, List.ne_nil_of_mem hnamed⟩

/-- The subjects with a repository. -/
theorem mem_repositorySubjects {targets : List String} :
    (some repository, targets) ∈ repositorySubjects scope selected
      ↔ repository ∈ (namedTargets scope selected).map Prod.fst
        ∧ targets = sortedUnique (((namedTargets scope selected).filter fun e =>
            e.1 = repository).flatMap Prod.snd) := by
  have hsubjects : (some repository, targets) ∈ (sortedUnique
      ((namedTargets scope selected).map Prod.fst)).map (fun repository =>
        (some repository, sortedUnique (((namedTargets scope selected).filter fun e =>
          e.1 = repository).flatMap Prod.snd)))
      ↔ repository ∈ (namedTargets scope selected).map Prod.fst
        ∧ targets = sortedUnique (((namedTargets scope selected).filter fun e =>
            e.1 = repository).flatMap Prod.snd) := by
    rw [List.mem_map]
    constructor
    · rintro ⟨r, hr, heq⟩
      obtain ⟨hr', rfl⟩ := Prod.mk.inj heq
      obtain rfl := Option.some.inj hr'
      exact ⟨mem_sortedUnique.mp hr, rfl⟩
    · rintro ⟨hr, rfl⟩
      exact ⟨repository, mem_sortedUnique.mpr hr, rfl⟩
  rw [← hsubjects]
  unfold repositorySubjects
  dsimp only
  split
  · rw [List.mem_append, List.mem_singleton, Prod.mk.injEq]
    exact or_iff_left fun h => by cases h.1
  · exact Iff.rfl

/-- The targets no governed fact names. -/
def unnamedTargets (scope : TaskScope) (selected : List ContextItem) : List String :=
  scope.targetRefs.filter fun ref => ref ∉ (namedTargets scope selected).flatMap Prod.snd

theorem mem_unnamedTargets : ref ∈ unnamedTargets scope selected ↔ ref ∈ scope.targetRefs
    ∧ ∀ repository, ¬∃ item ∈ selected, ProvesSubject item repository ref := by
  unfold unnamedTargets
  rw [List.mem_filter, decide_eq_true_eq, List.mem_flatMap]
  refine and_congr_right fun htarget => ?_
  constructor
  · rintro hnot repository hproves
    obtain ⟨e, he, -, href⟩ := mem_namedTargets.mpr ⟨htarget, hproves⟩
    exact hnot ⟨e, he, href⟩
  · rintro hnot ⟨e, he, href⟩
    exact hnot e.1 (mem_namedTargets.mp ⟨e, he, rfl, href⟩).2

/-- The subjects with a repository come first; one without is added for
what is unnamed, and where there is no other. -/
theorem repositorySubjects_eq (scope : TaskScope) (selected : List ContextItem) :
    repositorySubjects scope selected
      = (sortedUnique ((namedTargets scope selected).map Prod.fst)).map (fun repository =>
          (some repository, sortedUnique (((namedTargets scope selected).filter fun e =>
            e.1 = repository).flatMap Prod.snd)))
        ++ if unnamedTargets scope selected ≠ []
            ∨ (namedTargets scope selected).map Prod.fst = [] then
            [(none, sortedUnique (unnamedTargets scope selected))]
          else [] := by
  have hnone : (sortedUnique ((namedTargets scope selected).map Prod.fst)).map (fun repository =>
      (some repository, sortedUnique (((namedTargets scope selected).filter fun e =>
        e.1 = repository).flatMap Prod.snd))) = []
      ↔ (namedTargets scope selected).map Prod.fst = [] := by
    rw [List.map_eq_nil_iff, sortedUnique_eq_nil]
  have hsubjects : repositorySubjects scope selected = if unnamedTargets scope selected ≠ []
      ∨ (sortedUnique ((namedTargets scope selected).map Prod.fst)).map (fun repository =>
        (some repository, sortedUnique (((namedTargets scope selected).filter fun e =>
          e.1 = repository).flatMap Prod.snd))) = [] then _ else _ := rfl
  rw [hsubjects]
  by_cases hcase : unnamedTargets scope selected ≠ []
      ∨ (namedTargets scope selected).map Prod.fst = []
  · rw [if_pos hcase, if_pos (hcase.imp_right hnone.mpr)]
    rfl
  · rw [if_neg hcase, if_neg fun h => hcase (h.imp_right hnone.mp)]
    exact (List.append_nil _).symm

theorem mem_subjectless {targets : List String} :
    (none, targets) ∈ repositorySubjects scope selected
      ↔ (unnamedTargets scope selected ≠ [] ∨ (namedTargets scope selected).map Prod.fst = [])
        ∧ targets = sortedUnique (unnamedTargets scope selected) := by
  rw [repositorySubjects_eq, List.mem_append]
  constructor
  · rintro (hmem | hmem)
    · obtain ⟨_, _, heq⟩ := List.mem_map.mp hmem
      cases (Prod.mk.inj heq).1
    · split at hmem
      next hcase => exact ⟨hcase, (Prod.mk.inj (List.mem_singleton.mp hmem)).2⟩
      next => cases hmem
  · rintro ⟨hcase, rfl⟩
    rw [if_pos hcase]
    exact .inr (List.mem_singleton_self _)

theorem listed_under_repository :
    (∃ targets, (some repository, targets) ∈ repositorySubjects scope selected ∧ ref ∈ targets)
      ↔ ref ∈ scope.targetRefs ∧ ∃ item ∈ selected, ProvesSubject item repository ref := by
  rw [← mem_namedTargets]
  constructor
  · rintro ⟨targets, hmem, href⟩
    obtain ⟨-, rfl⟩ := mem_repositorySubjects.mp hmem
    obtain ⟨e, he, href⟩ := List.mem_flatMap.mp (mem_sortedUnique.mp href)
    obtain ⟨he, hsame⟩ := List.mem_filter.mp he
    exact ⟨e, he, of_decide_eq_true hsame, href⟩
  · rintro ⟨e, he, rfl, href⟩
    refine ⟨_, mem_repositorySubjects.mpr ⟨List.mem_map_of_mem he, rfl⟩, ?_⟩
    exact mem_sortedUnique.mpr (List.mem_flatMap.mpr
      ⟨e, List.mem_filter.mpr ⟨he, decide_eq_true rfl⟩, href⟩)

/-- A repository is listed for some target. -/
theorem targets_ne_nil {targets : List String}
    (h : (some repository, targets) ∈ repositorySubjects scope selected) : targets ≠ [] := by
  obtain ⟨hmem, rfl⟩ := mem_repositorySubjects.mp h
  obtain ⟨e, he, rfl⟩ := List.mem_map.mp hmem
  obtain ⟨item, -, hsome⟩ := List.mem_filterMap.mp he
  have hnamed : e.2 ≠ [] := by
    split at hsome
    · dsimp only at hsome
      split at hsome
      next hgoverned =>
        rw [← Option.some.inj hsome]
        exact hgoverned.2
      next => cases hsome
    · cases hsome
  obtain ⟨ref, href⟩ := List.exists_mem_of_ne_nil _ hnamed
  exact List.ne_nil_of_mem (mem_sortedUnique.mpr (List.mem_flatMap.mpr
    ⟨e, List.mem_filter.mpr ⟨he, decide_eq_true rfl⟩, href⟩))

theorem listed_without_repository :
    (∃ targets, (none, targets) ∈ repositorySubjects scope selected ∧ ref ∈ targets)
      ↔ ref ∈ unnamedTargets scope selected := by
  constructor
  · rintro ⟨targets, hmem, href⟩
    obtain ⟨-, rfl⟩ := mem_subjectless.mp hmem
    exact mem_sortedUnique.mp href
  · intro href
    exact ⟨_, mem_subjectless.mpr ⟨.inl (List.ne_nil_of_mem href), rfl⟩,
      mem_sortedUnique.mpr href⟩

theorem nodup_repositorySubjects (scope : TaskScope) (selected : List ContextItem) :
    ((repositorySubjects scope selected).map Prod.fst).Nodup := by
  rw [repositorySubjects_eq, List.map_append, List.map_map]
  have hrepositories : ((sortedUnique ((namedTargets scope selected).map Prod.fst)).map
      some).Nodup := (nodup_sortedUnique _).map (Option.some_injective _)
  split
  · refine List.nodup_append.mpr ⟨hrepositories, List.nodup_singleton _, ?_⟩
    rintro a ha b hb rfl
    obtain ⟨_, _, rfl⟩ := List.mem_map.mp ha
    cases List.mem_singleton.mp hb
  · rw [List.map_nil, List.append_nil]
    exact hrepositories

/-- Only what is selected matters, not where it stands. -/
theorem repositorySubjects_perm (h : selected.Perm selected') :
    repositorySubjects scope selected = repositorySubjects scope selected' := by
  have hnamed : (namedTargets scope selected).Perm (namedTargets scope selected') :=
    h.filterMap _
  have hunnamed : unnamedTargets scope selected = unnamedTargets scope selected' := by
    unfold unnamedTargets
    refine List.filter_congr fun ref _ => ?_
    rw [decide_eq_decide, (hnamed.flatMap_right _).mem_iff]
  have hnone : (namedTargets scope selected).map Prod.fst = []
      ↔ (namedTargets scope selected').map Prod.fst = [] := by
    rw [← List.length_eq_zero_iff, (hnamed.map _).length_eq, List.length_eq_zero_iff]
  rw [repositorySubjects_eq, repositorySubjects_eq, hunnamed,
    sortedUnique_congr fun _ => (hnamed.map Prod.fst).mem_iff]
  refine congrArg₂ (· ++ ·) (List.map_congr_left fun repository _ => ?_)
    (if_congr (or_congr_right hnone) rfl rfl)
  rw [sortedUnique_congr fun _ => ((hnamed.filter _).flatMap_right _).mem_iff]

end Subjects

/-- The subjects of a write divide the targets by governed proof: there is
always one, none comes twice, together they hold exactly the targets, a
target stands under a repository exactly where a governed fact proves it,
and under none exactly where no fact does. -/
theorem write_subjects_partition (scope : TaskScope) (selected : List ContextItem) :
    repositorySubjects scope selected ≠ []
    ∧ ((repositorySubjects scope selected).map Prod.fst).Nodup
    ∧ (∀ ref, (∃ subject ∈ repositorySubjects scope selected, ref ∈ subject.2)
        ↔ ref ∈ scope.targetRefs)
    ∧ (∀ ref repository, (∃ targets, (some repository, targets)
          ∈ repositorySubjects scope selected ∧ ref ∈ targets)
        ↔ ref ∈ scope.targetRefs ∧ ∃ item ∈ selected, ProvesSubject item repository ref)
    ∧ (∀ ref, (∃ targets, (none, targets) ∈ repositorySubjects scope selected ∧ ref ∈ targets)
        ↔ ref ∈ scope.targetRefs
          ∧ ∀ repository, ¬∃ item ∈ selected, ProvesSubject item repository ref)
    ∧ ∀ selected', selected.Perm selected' →
        repositorySubjects scope selected' = repositorySubjects scope selected := by
  refine ⟨fun hnil => ?_, nodup_repositorySubjects scope selected, fun ref => ?_,
    fun ref repository => listed_under_repository,
    fun ref => listed_without_repository.trans mem_unnamedTargets,
    fun selected' h => (repositorySubjects_perm h).symm⟩
  · rw [repositorySubjects_eq, List.append_eq_nil_iff, List.map_eq_nil_iff,
      sortedUnique_eq_nil] at hnil
    rw [if_pos (.inr hnil.1)] at hnil
    exact absurd hnil.2 (List.cons_ne_nil _ _)
  · constructor
    · rintro ⟨⟨_ | repository, targets⟩, hmem, href⟩
      · exact (mem_unnamedTargets.mp (listed_without_repository.mp ⟨targets, hmem, href⟩)).1
      · exact (listed_under_repository.mp ⟨targets, hmem, href⟩).1
    · intro htarget
      by_cases hproved : ∃ repository, ∃ item ∈ selected, ProvesSubject item repository ref
      · obtain ⟨repository, hproves⟩ := hproved
        obtain ⟨targets, hmem, href⟩ := listed_under_repository.mpr ⟨htarget, hproves⟩
        exact ⟨_, hmem, href⟩
      · obtain ⟨targets, hmem, href⟩ := listed_without_repository.mpr
          (mem_unnamedTargets.mpr ⟨htarget, not_exists.mp hproved⟩)
        exact ⟨_, hmem, href⟩

end CognitiveRuntime
