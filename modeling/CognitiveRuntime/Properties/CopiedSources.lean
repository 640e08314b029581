import CognitiveRuntime.Pack.Deployment

/-!
# Copying the closure set

What the builder copies and where it puts it. Every target has one source
and none stands in another's way, so a repository at rest that holds its
sources is copied as it is.
-/

namespace CognitiveRuntime

open PyStr (ofString)
open Access Ordered

/-! ## Plain paths -/

theorem splitOn_ofChar (text : List Char) :
    (text.map CodePoint.ofChar).splitOn slash = (text.splitOn '/').map (·.map CodePoint.ofChar) := by
  induction text with
  | nil => rfl
  | cons c rest ih =>
      have hslash : (CodePoint.ofChar c == slash) = (c == '/') := by
        rw [Bool.eq_iff_iff, beq_iff_eq, beq_iff_eq]
        exact ⟨fun h => CodePoint.ofChar_inj h, congrArg CodePoint.ofChar⟩
      rw [List.map_cons, List.splitOn_cons_eq_if_modifyHead, List.splitOn_cons_eq_if_modifyHead,
        hslash, ih]
      split
      · rfl
      · cases rest.splitOn '/' <;> rfl

/-- The parts of a text without `..` in it have none either. -/
theorem up_not_mem_pathParts {text : List Char} (h : ['.', '.'] ∉ text.splitOn '/') :
    ofString ".." ∉ pathParts (text.map CodePoint.ofChar) := by
  intro hup
  unfold pathParts at hup
  rw [splitOn_ofChar] at hup
  obtain ⟨part, hpart, hdots⟩ := List.mem_map.mp (List.mem_of_mem_filter hup)
  have hpart' : part = ['.', '.'] :=
    List.map_injective_iff.mpr (fun _ _ => CodePoint.ofChar_inj) hdots
  exact h (hpart' ▸ hpart)

theorem slashes_eq_self {path : String} (h : ∀ c ∈ path.toList, c ≠ '\\') :
    slashes path = path := by
  have hmap : path.toList.map (fun c => if c = '\\' then '/' else c) = path.toList := by
    refine (List.map_congr_left fun c hc => ?_).trans (List.map_id _)
    rw [if_neg (h c hc)]
    rfl
  unfold slashes
  rw [hmap, String.ofList_toList]

/-! ## Placing files -/

section Trees

variable {tree tree' : FileTree} {path q : PackPath} {data data' : ByteArray}

theorem mkdir_isDir (h : tree.mkdir path = some tree') (hq : q <+: path) :
    tree'.isDir q = true := by
  unfold FileTree.mkdir at h
  split at h
  · cases h
  · next hnone =>
      obtain rfl := Option.some.inj h
      have hread : (tree.read q).isSome = false := by
        rw [Bool.not_eq_true, List.any_eq_false] at hnone
        simpa using hnone q (by simpa using hq)
      have hunder : q.isPrefixOf path = true := List.isPrefixOf_iff_prefix.mpr hq
      unfold FileTree.isDir
      unfold FileTree.read at hread
      cases hentry : tree q with
      | none => simp [hunder, hentry]
      | some entry =>
          cases entry with
          | dir => simp [hentry]
          | file data => rw [hentry] at hread; cases hread

theorem mkdir_of_dirs (h : ∀ q, q <+: path → tree.isDir q = true) :
    tree.mkdir path = some tree := by
  have hdir : ∀ q, q <+: path → tree q = some .dir := by
    intro q hq
    have hisDir := h q hq
    unfold FileTree.isDir at hisDir
    cases hentry : tree q with
    | none => rw [hentry] at hisDir; cases hisDir
    | some entry =>
        cases entry with
        | dir => rfl
        | file data => rw [hentry] at hisDir; cases hisDir
  have hfiles : (path.inits.any fun above => (tree.read above).isSome) = false := by
    rw [List.any_eq_false]
    intro q hq
    unfold FileTree.read
    rw [hdir q (by simpa using hq)]
    simp
  unfold FileTree.mkdir
  rw [hfiles, if_neg Bool.false_ne_true]
  congr 1
  funext q
  by_cases hq : q <+: path
  · simp [hdir q hq]
  · have hunder : q.isPrefixOf path = false := by
      rw [← Bool.not_eq_true, List.isPrefixOf_iff_prefix]
      exact hq
    simp [hunder]

theorem place_eq_some (h : tree.place path data = some tree') (hpath : path ≠ []) :
    tree'.read path = some data ∧ (∀ q, q <+: path.dropLast → tree'.isDir q = true) := by
  unfold FileTree.place at h
  rw [Option.bind_eq_some_iff] at h
  obtain ⟨made, hmade, h⟩ := h
  split at h
  · cases h
  · obtain rfl := Option.some.inj h
    refine ⟨by simp [FileTree.read], fun q hq => ?_⟩
    have hne : q ≠ path := by
      rintro rfl
      have hlength := hq.length_le
      rw [List.length_dropLast] at hlength
      have hpos := List.length_pos_iff.mpr hpath
      omega
    have hdir := mkdir_isDir hmade hq
    unfold FileTree.isDir at hdir ⊢
    simpa [hne] using hdir

/-- Writing a file again changes that file. -/
theorem place_again (h : tree.place path data = some tree') (hpath : path ≠ []) :
    tree'.place path data' = some fun q => if q = path then some (.file data') else tree' q := by
  obtain ⟨hread, hdirs⟩ := place_eq_some h hpath
  have hfile : tree'.isDir path = false := by
    unfold FileTree.read at hread
    unfold FileTree.isDir
    cases hentry : tree' path with
    | none => rfl
    | some entry =>
        cases entry with
        | dir => rw [hentry] at hread; cases hread
        | file _ => rfl
  unfold FileTree.place
  rw [mkdir_of_dirs hdirs, Option.bind_some, hfile]
  rfl

end Trees

/-! ## Targets -/

/-- The directories a pack holds its files in. -/
def packDirs : List (List Char) :=
  ["runtime".toList, "contracts".toList, "kernels".toList, "schemas".toList]

/-- A target of a pack: a museum contract, or below one of its
directories. -/
def Targeted (target : String) : Prop :=
  target ∈ museumContracts ∨ ∃ dir ∈ packDirs, ∃ rest, target.toList = dir ++ '/' :: rest

theorem packDirs_plain : ∀ dir ∈ packDirs, '/' ∉ dir ∧ '\\' ∉ dir := by decide

theorem Targeted.slashes {target : String} (h : Targeted target) : Targeted (slashes target) := by
  rcases h with h | ⟨dir, hdir, rest, htarget⟩
  · refine .inl ?_
    have hmuseum : ∀ target ∈ museumContracts, CognitiveRuntime.slashes target = target := by
      decide
    rw [hmuseum target h]
    exact h
  · refine .inr ⟨dir, hdir, rest.map fun c => if c = '\\' then '/' else c, ?_⟩
    have hkeep : ∀ c ∈ dir, (if c = '\\' then '/' else c) = c := fun c hc =>
      if_neg fun hback : c = '\\' => (packDirs_plain dir hdir).2 (hback ▸ hc)
    have hplain : dir.map (fun c => if c = '\\' then '/' else c) = dir :=
      (List.map_congr_left hkeep).trans (List.map_id dir)
    unfold CognitiveRuntime.slashes
    rw [String.toList_ofList, htarget, List.map_append, hplain]
    rfl

theorem packDirs_parts : ∀ dir ∈ packDirs, slash ∉ dir.map CodePoint.ofChar
    ∧ dir.map CodePoint.ofChar ≠ [] ∧ dir.map CodePoint.ofChar ≠ ofString "."
    ∧ dir.map CodePoint.ofChar ≠ manifestName := by decide

/-- A target is a museum contract, or its first part is a directory of
the pack. -/
theorem Targeted.first {target : String} (h : Targeted target) : target ∈ museumContracts
    ∨ ∃ dir ∈ packDirs, (pathParts (ofString target)).head? = some (dir.map CodePoint.ofChar) := by
  rcases h with h | ⟨dir, hdir, rest, htarget⟩
  · exact .inl h
  · obtain ⟨hplain, hnonempty, hhere, -⟩ := packDirs_parts dir hdir
    have htext : ofString target
        = dir.map CodePoint.ofChar ++ slash :: rest.map CodePoint.ofChar := by
      unfold ofString
      rw [htarget, List.map_append, List.map_cons]
      rfl
    have hkept : (dir.map CodePoint.ofChar ≠ [] && dir.map CodePoint.ofChar ≠ ofString ".")
        = true := by
      rw [Bool.and_eq_true, decide_eq_true_eq, decide_eq_true_eq]
      exact ⟨hnonempty, hhere⟩
    refine .inr ⟨dir, hdir, ?_⟩
    unfold pathParts
    rw [htext, List.splitOn_append_cons_self_of_not_mem hplain, List.filter_cons, if_pos hkept,
      List.head?_cons]

/-- Nothing of a pack but its manifest is at the manifest's place or below
it. -/
theorem Targeted.head_ne {target : String} (h : Targeted target) :
    (pathParts (ofString target)).head? ≠ some manifestName := by
  rcases h.first with h | ⟨dir, hdir, hhead⟩
  · have hmuseum : ∀ target ∈ museumContracts,
        (pathParts (ofString target)).head? ≠ some manifestName := by decide
    exact hmuseum target h
  · rw [hhead]
    exact fun hname => (packDirs_parts dir hdir).2.2.2 (Option.some.inj hname)

theorem Targeted.parts_ne {target : String} (h : Targeted target) :
    pathParts (ofString target) ≠ [manifestName] := by
  intro hparts
  have hhead := h.head_ne
  rw [hparts] at hhead
  exact hhead rfl

theorem Targeted.named {target : String} (h : Targeted target) :
    pathParts (ofString target) ≠ [] := by
  rcases h.first with h | ⟨dir, -, hhead⟩
  · have hmuseum : ∀ target ∈ museumContracts, pathParts (ofString target) ≠ [] := by decide
    exact hmuseum target h
  · intro hnone
    rw [hnone] at hhead
    cases hhead

theorem Targeted.relative {target : String} (h : Targeted target) :
    startsAbsolute (ofString target) = false := by
  rcases h with h | ⟨dir, hdir, rest, htarget⟩
  · have hmuseum : ∀ target ∈ museumContracts, startsAbsolute (ofString target) = false := by
      decide
    exact hmuseum target h
  · have hdirs : ∀ dir ∈ packDirs, dir ≠ []
        ∧ startsAbsolute (dir.map CodePoint.ofChar) = false := by decide
    obtain ⟨hnonempty, hstart⟩ := hdirs dir hdir
    obtain ⟨c, cs, rfl⟩ := List.exists_cons_of_ne_nil hnonempty
    unfold ofString
    rw [htarget]
    exact hstart

theorem Targeted.ne_manifest {target : String} (h : Targeted target) :
    ofString target ≠ manifestName := by
  intro hmanifest
  have hparts := h.parts_ne
  rw [hmanifest] at hparts
  exact hparts (by decide)

/-! ## Copies -/

section Copying

variable {repo : Nat → SourceRepo} {source : PackPath}

/-- What a dictionary of copies holds after some sources are registered. -/
structure Registered (entries : List (String × String)) (copies copies' : Copies) : Prop where
  nodup : (copies.map Prod.fst).Nodup → (copies'.map Prod.fst).Nodup
  kept : ∀ copy ∈ copies, copy ∈ copies'
  added : ∀ entry ∈ entries, (slashes entry.2, entry.1) ∈ copies'
  from_entries : ∀ copy ∈ copies', copy ∈ copies
    ∨ ∃ entry ∈ entries, copy = (slashes entry.2, entry.1)

theorem mem_of_lookup {copies : Copies} {target first : String}
    (h : copies.lookup target = some first) : (target, first) ∈ copies := by
  induction copies with
  | nil => cases h
  | cons copy rest ih =>
      obtain ⟨target', first'⟩ := copy
      rw [List.lookup_cons] at h
      by_cases hsame : target = target'
      · subst hsame
        rw [beq_self_eq_true] at h
        obtain rfl := Option.some.inj h
        exact List.mem_cons_self
      · rw [beq_false_of_ne hsame] at h
        exact List.mem_cons_of_mem _ (ih h)

theorem Copies.put_eq_ok {copies copies' : Copies} {relative target : String}
    (h : copies.put relative target = .ok copies') :
    ((copies.map Prod.fst).Nodup → (copies'.map Prod.fst).Nodup)
      ∧ (∀ copy, copy ∈ copies' ↔ copy ∈ copies ∨ copy = (target, relative)) := by
  unfold Copies.put at h
  split at h
  · next hnone =>
      obtain rfl := Except.ok.inj h
      refine ⟨fun hnodup => ?_, fun copy => by simp⟩
      rw [List.map_append, List.map_singleton, List.nodup_append]
      refine ⟨hnodup, List.nodup_singleton _, fun key hkey key' hkey' hsame => ?_⟩
      obtain rfl := List.mem_singleton.mp hkey'
      obtain ⟨copy, hcopy, hfst⟩ := List.mem_map.mp hkey
      have hnever := List.lookup_eq_none_iff.mp hnone copy hcopy
      rw [hfst, hsame] at hnever
      simp at hnever
  · next first hfirst =>
      split at h
      · next hsame =>
          obtain rfl := Except.ok.inj h
          subst hsame
          refine ⟨id, fun copy => ⟨.inl, ?_⟩⟩
          rintro (hcopy | rfl)
          · exact hcopy
          · exact mem_of_lookup hfirst
      · cases h

theorem registerAll_eq_ok {entries : List (String × String)} {copies copies' : Copies} {t u : Nat}
    (h : registerAll repo source entries copies t = .ok (copies', u)) :
    Registered entries copies copies' := by
  induction entries generalizing copies t with
  | nil =>
      obtain ⟨rfl, -⟩ := pure_eq_ok.mp h
      exact ⟨id, fun _ => id, by simp, fun _ => .inl⟩
  | cons entry rest ih =>
      obtain ⟨relative, target⟩ := entry
      simp only [registerAll, bind_eq_ok, lift_eq_ok] at h
      obtain ⟨_, _, -, put, _, ⟨hput, rfl⟩, hrest⟩ := h
      obtain ⟨hnodup, hmem⟩ := Copies.put_eq_ok hput
      have hreg := ih hrest
      refine ⟨fun hn => hreg.nodup (hnodup hn), fun copy hcopy =>
        hreg.kept copy ((hmem copy).mpr (.inl hcopy)), ?_, fun copy hcopy => ?_⟩
      · intro entry hentry
        rcases List.mem_cons.mp hentry with rfl | hentry
        · exact hreg.kept _ ((hmem _).mpr (.inr rfl))
        · exact hreg.added entry hentry
      · rcases hreg.from_entries copy hcopy with hput' | ⟨entry, hentry, rfl⟩
        · rcases (hmem copy).mp hput' with hold | rfl
          · exact .inl hold
          · exact .inr ⟨(relative, target), List.mem_cons_self, rfl⟩
        · exact .inr ⟨entry, List.mem_cons_of_mem _ hentry, rfl⟩

theorem posixPath_cons (a b : String) (rest : List String) :
    (posixPath (a :: b :: rest)).toList = a.toList ++ '/' :: (posixPath (b :: rest)).toList := by
  unfold posixPath
  rw [String.toList_intercalate, String.toList_intercalate]
  simp [List.intercalate]

theorem posixPath_singleton (name : String) : posixPath [name] = name := by
  refine String.toList_injective ?_
  unfold posixPath
  rw [String.toList_intercalate]
  simp [List.intercalate]

theorem targeted_posixPath {dir : String} (hdir : dir.toList ∈ packDirs) (b : String)
    (rest : List String) : Targeted (posixPath (dir :: b :: rest)) :=
  .inr ⟨_, hdir, _, posixPath_cons dir b rest⟩

theorem targeted_alias {dir : String} {front : List Char} (hfront : front ∈ packDirs)
    (hdir : dir.toList = front ++ ['/']) (name : String) : Targeted (dir ++ name) := by
  refine .inr ⟨front, hfront, name.toList, ?_⟩
  rw [String.toList_append, hdir, List.append_assoc]
  rfl

theorem kernelSources_targeted {kernels : List String} {t u : Nat}
    (h : kernelSources repo source t = .ok (kernels, u)) : ∀ rel ∈ kernels, Targeted rel := by
  simp only [kernelSources, bind_eq_ok, ask_eq_ok, check_eq_ok, pure_eq_ok] at h
  obtain ⟨_, _, -, _, _, -, files, _, -, rfl, -⟩ := h
  intro rel hrel
  obtain ⟨parts, -, rfl⟩ := List.mem_map.mp ((mem_sortedBy id).mp hrel)
  exact targeted_posixPath (by decide) _ _

theorem schemaSources_targeted {schemas : List String} {t u : Nat}
    (h : schemaSources repo source t = .ok (schemas, u)) : ∀ rel ∈ schemas, Targeted rel := by
  simp only [schemaSources, bind_eq_ok, ask_eq_ok, check_eq_ok, pure_eq_ok] at h
  obtain ⟨_, _, -, _, _, -, files, _, -, rfl, -⟩ := h
  intro rel hrel
  obtain ⟨name, -, rfl⟩ := List.mem_map.mp ((mem_sortedBy id).mp hrel)
  exact targeted_posixPath (by decide) _ _

theorem adapterSources_targeted {adapters : List String} {t u : Nat}
    (h : adapterSources repo source t = .ok (adapters, u)) : ∀ rel ∈ adapters, Targeted rel := by
  simp only [adapterSources, bind_eq_ok, ask_eq_ok, check_eq_ok, pure_eq_ok] at h
  obtain ⟨_, _, -, _, _, -, files, _, -, rfl, -⟩ := h
  intro rel hrel
  obtain ⟨name, -, rfl⟩ := List.mem_map.mp ((mem_sortedBy id).mp hrel)
  exact targeted_posixPath (by decide) _ _

/-- The dictionary of copies: every source the repository was found to
hold is there, under its own path and its public name. -/
structure Collected (repo : Nat → SourceRepo) (source : PackPath) (copies : Copies) : Prop where
  nodup : (copies.map Prod.fst).Nodup
  targeted : ∀ copy ∈ copies, Targeted copy.1
  fixed : ∀ rel ∈ museumContracts ++ closureSources, (rel, rel) ∈ copies
  kernels : ∃ kernels t u, kernelSources repo source t = .ok (kernels, u)
    ∧ ∀ rel ∈ kernels, ∀ entry ∈ withAlias "kernels/" rel, (slashes entry.2, rel) ∈ copies
  schemas : ∃ schemas t u, schemaSources repo source t = .ok (schemas, u)
    ∧ ∀ rel ∈ schemas, ∀ entry ∈ withAlias "schemas/" rel, (slashes entry.2, rel) ∈ copies
  adapters : ∃ adapters t u, adapterSources repo source t = .ok (adapters, u)
    ∧ ∀ rel ∈ adapters, (slashes rel, rel) ∈ copies

/-- The order of the copies is no matter. -/
theorem Collected.perm {copies copies' : Copies} (h : Collected repo source copies)
    (hperm : copies.Perm copies') : Collected repo source copies' := by
  have hmem : ∀ copy, copy ∈ copies → copy ∈ copies' := fun copy => hperm.mem_iff.mp
  obtain ⟨kernels, t, u, hkernels, hnamed⟩ := h.kernels
  obtain ⟨schemas, t', u', hschemas, hnamed'⟩ := h.schemas
  obtain ⟨adapters, t'', u'', hadapters, hnamed''⟩ := h.adapters
  exact
    { nodup := (hperm.map Prod.fst).nodup_iff.mp h.nodup
      targeted := fun copy hcopy => h.targeted copy (hperm.mem_iff.mpr hcopy)
      fixed := fun rel hrel => hmem _ (h.fixed rel hrel)
      kernels := ⟨kernels, t, u, hkernels, fun rel hrel entry hentry =>
        hmem _ (hnamed rel hrel entry hentry)⟩
      schemas := ⟨schemas, t', u', hschemas, fun rel hrel entry hentry =>
        hmem _ (hnamed' rel hrel entry hentry)⟩
      adapters := ⟨adapters, t'', u'', hadapters, fun rel hrel =>
        hmem _ (hnamed'' rel hrel)⟩ }

theorem fixed_sources : ∀ rel ∈ museumContracts ++ closureSources,
    slashes rel = rel ∧ (rel ∈ museumContracts ∨ "runtime".toList ++ ['/'] <+: rel.toList) := by
  decide

theorem fixed_targeted {rel : String} (h : rel ∈ museumContracts ++ closureSources) :
    Targeted rel := by
  rcases (fixed_sources rel h).2 with hmuseum | ⟨rest, hrest⟩
  · exact .inl hmuseum
  · exact .inr ⟨"runtime".toList, by decide, rest, by rw [← hrest, List.append_assoc]; rfl⟩

theorem Registered.targeted {entries : List (String × String)} {copies copies' : Copies}
    (h : Registered entries copies copies') (hold : ∀ copy ∈ copies, Targeted copy.1)
    (hentries : ∀ entry ∈ entries, Targeted entry.2) : ∀ copy ∈ copies', Targeted copy.1 := by
  intro copy hcopy
  rcases h.from_entries copy hcopy with hcopy | ⟨entry, hentry, rfl⟩
  · exact hold copy hcopy
  · exact (hentries entry hentry).slashes

theorem mem_withAlias {dir relative : String} {entry : String × String}
    (h : entry ∈ withAlias dir relative) :
    entry.1 = relative ∧ (entry.2 = relative ∨ entry.2 = dir ++ pathName relative) := by
  unfold withAlias at h
  simp only [List.mem_cons, List.not_mem_nil, or_false] at h
  rcases h with rfl | rfl
  · exact ⟨rfl, .inl rfl⟩
  · exact ⟨rfl, .inr rfl⟩

/-- Sources under their own path and a public name. -/
theorem aliased_targeted {dir : String} {front : List Char} (hfront : front ∈ packDirs)
    (hdir : dir.toList = front ++ ['/']) {sources : List String}
    (hsources : ∀ rel ∈ sources, Targeted rel) :
    ∀ entry ∈ sources.flatMap (withAlias dir), Targeted entry.2 := by
  intro entry hentry
  obtain ⟨rel, hrel, hentry⟩ := List.mem_flatMap.mp hentry
  rcases (mem_withAlias hentry).2 with htarget | htarget
  · rw [htarget]
    exact hsources rel hrel
  · rw [htarget]
    exact targeted_alias hfront hdir _

theorem owned_targeted {sources : List String} (hsources : ∀ rel ∈ sources, Targeted rel) :
    ∀ entry ∈ sources.map ownPath, Targeted entry.2 := by
  intro entry hentry
  obtain ⟨rel, hrel, rfl⟩ := List.mem_map.mp hentry
  exact hsources rel hrel

theorem collectCopies_collected {copies : Copies} {t u : Nat}
    (h : collectCopies repo source t = .ok (copies, u)) : Collected repo source copies := by
  simp only [collectCopies, bind_eq_ok] at h
  obtain ⟨c₁, t₁, h₁, c₂, t₂, h₂, kernels, t₃, hkernels, c₃, t₄, h₃, schemas, t₅, hschemas, c₄, t₆,
    h₄, adapters, t₇, hadapters, h₅⟩ := h
  have r₁ := registerAll_eq_ok h₁
  have r₂ := registerAll_eq_ok h₂
  have r₃ := registerAll_eq_ok h₃
  have r₄ := registerAll_eq_ok h₄
  have r₅ := registerAll_eq_ok h₅
  refine
    { nodup := r₅.nodup (r₄.nodup (r₃.nodup (r₂.nodup (r₁.nodup List.nodup_nil))))
      targeted := fun copy hcopy => ?_
      fixed := fun rel hrel => ?_
      kernels := ⟨kernels, t₂, t₃, hkernels, fun rel hrel entry hentry => ?_⟩
      schemas := ⟨schemas, t₄, t₅, hschemas, fun rel hrel entry hentry => ?_⟩
      adapters := ⟨adapters, t₆, t₇, hadapters, fun rel hrel => ?_⟩ }
  · have hmuseum := r₁.targeted (by simp) (owned_targeted fun rel hrel =>
      fixed_targeted (List.mem_append_left _ hrel))
    have hclosure := r₂.targeted hmuseum (owned_targeted fun rel hrel =>
      fixed_targeted (List.mem_append_right _ hrel))
    have hkernel := r₃.targeted hclosure (aliased_targeted (by decide : "kernels".toList ∈ packDirs)
      rfl (kernelSources_targeted hkernels))
    have hschema := r₄.targeted hkernel (aliased_targeted (by decide : "schemas".toList ∈ packDirs)
      rfl (schemaSources_targeted hschemas))
    exact r₅.targeted hschema (owned_targeted (adapterSources_targeted hadapters)) copy hcopy
  · rcases List.mem_append.mp hrel with hmuseum | hclosure
    · have hadded := r₁.added (ownPath rel) (List.mem_map.mpr ⟨rel, hmuseum, rfl⟩)
      have hkept := r₅.kept _ (r₄.kept _ (r₃.kept _ (r₂.kept _ hadded)))
      rwa [ownPath, (fixed_sources rel hrel).1] at hkept
    · have hadded := r₂.added (ownPath rel) (List.mem_map.mpr ⟨rel, hclosure, rfl⟩)
      have hkept := r₅.kept _ (r₄.kept _ (r₃.kept _ hadded))
      rwa [ownPath, (fixed_sources rel hrel).1] at hkept
  · have hadded := r₃.added entry (List.mem_flatMap.mpr ⟨rel, hrel, hentry⟩)
    rw [(mem_withAlias hentry).1] at hadded
    exact r₅.kept _ (r₄.kept _ hadded)
  · have hadded := r₄.added entry (List.mem_flatMap.mpr ⟨rel, hrel, hentry⟩)
    rw [(mem_withAlias hentry).1] at hadded
    exact r₅.kept _ hadded
  · exact r₅.added (ownPath rel) (List.mem_map.mpr ⟨rel, hrel, rfl⟩)

/-- The loop copies each source as it reads it, in order. -/
theorem copyFiles_eq_ok {dest : PackPath} {entries : List (String × String)}
    {tree tree' : FileTree} {files : List SealedFile} {t u : Nat}
    (h : copyFiles repo source dest entries tree t = .ok ((tree', files), u)) :
    files.map (fun file => (file.path, file.sourcePath)) = entries
      ∧ ∀ file ∈ files, ∃ path s s', sourceFile repo source file.sourcePath s = .ok (path, s')
        ∧ (repo s').read path = some file.data := by
  induction entries generalizing tree files t with
  | nil =>
      obtain ⟨h, -⟩ := pure_eq_ok.mp h
      cases h
      exact ⟨rfl, by simp⟩
  | cons entry rest ih =>
      obtain ⟨target, relative⟩ := entry
      simp only [copyFiles, bind_eq_ok, demand_eq_ok, found_eq_ok, pure_eq_ok] at h
      obtain ⟨path, s, hpath, data, _, ⟨hdata, rfl⟩, placed, _, ⟨-, rfl⟩, ⟨final, copied⟩, _, hrest,
        hdone, rfl⟩ := h
      obtain ⟨rfl, rfl⟩ := Prod.mk.inj hdone
      obtain ⟨hentries, hread⟩ := ih hrest
      refine ⟨by rw [List.map_cons, hentries], ?_⟩
      intro file hfile
      rcases List.mem_cons.mp hfile with rfl | hfile
      · exact ⟨path, _, s, hpath, hdata⟩
      · exact hread file hfile

end Copying

end CognitiveRuntime
