import CognitiveRuntime.Properties.ClosedRoutes
import CognitiveRuntime.Properties.CopiedSources
import CognitiveRuntime.Properties.RestingSources

/-!
# A sealed pack proves itself

The builder has the routes compiled from a pack whose manifest it then
replaces. The finished pack still loads, lists just the copied files, and
passes the same closure check with the same report: what the second
manifest adds reaches no file and no route. A repository at rest that
ships the documents is sealed.
-/

namespace CognitiveRuntime

open PyStr (ofString)
open Access Ordered
open Fallible (Agree)

/-! ## Plain documents -/

theorem floatFree_ofStrings (l : List String) : (Json.ofStrings l).floatFree = true := by
  unfold Json.ofStrings
  show Json.floatsAllItems _ (l.map .str) = true
  rw [Json.floatsAllItems_iff]
  intro j hj
  obtain ⟨s, -, rfl⟩ := List.mem_map.mp hj
  rfl

theorem distinctKeysItems_str (l : List String) :
    Json.distinctKeysItems (l.map .str) = true := by
  induction l with
  | nil => rfl
  | cons s l ih => simpa [Json.distinctKeysItems, Json.distinctKeys] using ih

theorem floatFree_ofStringDict (entries : List (String × String)) :
    (ofStringDict entries).floatFree = true := by
  unfold ofStringDict
  show Json.floatsAllEntries _ _ = true
  rw [Json.floatsAllEntries_iff]
  intro e he
  obtain ⟨_, -, rfl⟩ := List.mem_map.mp he
  rfl

theorem distinctKeys_ofStringDict (entries : List (String × String)) :
    (ofStringDict (dictOf entries)).distinctKeys = true := by
  have hkeys : ((dictOf entries).map Prod.fst).Nodup := by
    unfold dictOf
    rw [map_key_dedupeLast]
    exact nodup_sortedUnique _
  unfold ofStringDict
  rw [Json.distinctKeys, Bool.and_eq_true, decide_eq_true_eq, List.map_map]
  refine ⟨hkeys, Json.distinctKeysEntries_iff.mpr fun e he => ?_⟩
  obtain ⟨_, -, rfl⟩ := List.mem_map.mp he
  rfl

/-! ## Manifests -/

section Manifests

variable {hash : ByteArray → String} {revision : String} {files : List SealedFile}

theorem floatFree_files : Json.floatsAll Json.noFloat
    (.arr (files.map (SealedFile.toJson hash))) = true := by
  show Json.floatsAllItems _ _ = true
  rw [Json.floatsAllItems_iff]
  intro j hj
  obtain ⟨file, -, rfl⟩ := List.mem_map.mp hj
  rfl

theorem distinctKeys_files : (Json.arr (files.map (SealedFile.toJson hash))).distinctKeys = true := by
  show Json.distinctKeysItems _ = true
  induction files with
  | nil => rfl
  | cons file rest ih =>
      rw [List.map_cons, Json.distinctKeysItems, ih, Bool.and_true]
      rfl

theorem baseManifest_plain : (Json.obj (baseManifest hash revision files)).floatFree = true
    ∧ (Json.obj (baseManifest hash revision files)).distinctKeys = true := by
  have hfloat : Json.floatsAll Json.noFloat (.arr (files.map (SealedFile.toJson hash))) = true :=
    floatFree_files
  have hkeys : (Json.arr (files.map (SealedFile.toJson hash))).distinctKeys = true :=
    distinctKeys_files
  unfold Json.floatFree baseManifest
  simp only [Json.floatsAll, Json.floatsAllEntries, Json.distinctKeys, Json.distinctKeysEntries,
    Bool.and_true, Bool.true_and, List.map_cons, List.map_nil] at hfloat hkeys ⊢
  rw [hkeys, Bool.and_true]
  exact ⟨hfloat, by decide⟩

/-- The finished manifest is the first one with the closure added. -/
theorem finishedManifest_plain {closure : Json} (hfloat : closure.floatFree = true)
    (hkeys : closure.distinctKeys = true) :
    (Json.obj (baseManifest hash revision files ++ [("semantic_closure", closure)])).floatFree = true
      ∧ (Json.obj (baseManifest hash revision files
        ++ [("semantic_closure", closure)])).distinctKeys = true := by
  have hfiles : Json.floatsAll Json.noFloat (.arr (files.map (SealedFile.toJson hash))) = true :=
    floatFree_files
  have hfileKeys : (Json.arr (files.map (SealedFile.toJson hash))).distinctKeys = true :=
    distinctKeys_files
  unfold Json.floatFree at hfloat ⊢
  unfold baseManifest
  simp only [List.cons_append, List.nil_append, Json.floatsAll, Json.floatsAllEntries,
    Json.distinctKeys, Json.distinctKeysEntries, Bool.and_true, Bool.true_and, List.map_cons,
    List.map_nil] at hfiles hfileKeys ⊢
  rw [hfiles, hfloat, hfileKeys, hkeys]
  exact ⟨rfl, by decide⟩

theorem closure_plain {report : ClosureReport} {closed : List (String × String)}
    (hreport : report.contextDigests = dictOf closed) :
    report.toJson.floatFree = true ∧ report.toJson.distinctKeys = true := by
  have hroutes := floatFree_ofStrings report.routesCompiled
  have hdigests := floatFree_ofStringDict (dictOf closed)
  have hkeys := distinctKeys_ofStringDict closed
  unfold Json.floatFree at hroutes hdigests ⊢
  unfold ClosureReport.toJson
  rw [hreport]
  constructor
  · simp only [Json.floatsAll, Json.floatsAllEntries, hroutes, hdigests, Bool.and_true]
  · simp only [Json.distinctKeys, Json.distinctKeysEntries, hkeys, Json.ofStrings,
      distinctKeysItems_str, Bool.and_true, List.map_cons, List.map_nil]
    decide

theorem field_files (rest : List (String × Json)) :
    Json.field "files" (baseManifest hash revision files ++ rest)
      = some (.arr (files.map (SealedFile.toJson hash))) := by
  simp [baseManifest, Json.field]

end Manifests

/-! ## The finished pack -/

/-- What a finished pack is: it loads under its own manifest, gives back
just the files that were copied, holds everything the repository was
found to hold, and passes the closure check with the report it carries. -/
structure ProvesItself [Sha256] [TextTables] [DecimalFloat] (documents : PackDocuments)
    (hash : ByteArray → String) (repo : Nat → SourceRepo) (source dest : PackPath)
    (pack : SealedPack) : Prop where
  loads : loadTree hash pack.tree dest
    = .ok (sealedLoad hash dest (pack.manifest hash) pack.files)
  reads : ∀ file ∈ pack.files, ∀ t, ∃ data,
    (sealedLoad hash dest (pack.manifest hash) pack.files).readVerified
        (fun _ => pack.tree.directory) hash (ofString file.path) t = .ok (data, t + 4)
      ∧ hash data = hash file.data
  nothingElse : ∀ path, (∀ file ∈ pack.files, ofString file.path ≠ path) → ∀ t,
    (sealedLoad hash dest (pack.manifest hash) pack.files).readVerified
        (fun _ => pack.tree.directory) hash path t
      = .error (refused "pack file is not listed in the verified manifest" path)
  copied : ∀ file ∈ pack.files, ∃ path s s',
    sourceFile repo source file.sourcePath s = .ok (path, s')
      ∧ (repo s').read path = some file.data
  collected : Collected repo source (pack.files.map fun file => (file.path, file.sourcePath))
  closed : validateDeploymentClosure documents hash pack.tree dest = .ok pack.closure

section Placed

variable {hash : ByteArray → String} {tree tree' : FileTree} {dest : PackPath}
  {manifest : List (String × Json)} {files : List SealedFile}

/-- A tree a manifest was written to is sealed. -/
theorem sealedAt_placed (hdest : ResolvedPath dest)
    (htree : tree.place (dest ++ [manifestName]) (manifestBytes manifest) = some tree')
    (hplain : (Json.obj manifest).floatFree = true ∧ (Json.obj manifest).distinctKeys = true)
    (hlists : Json.field "files" manifest = some (.arr (files.map (SealedFile.toJson hash))))
    (htargeted : ∀ file ∈ files, Targeted file.path) :
    SealedAt hash tree' dest manifest files := by
  have hnonempty : dest ++ [manifestName] ≠ [] := by simp
  have habove : dest <+: (dest ++ [manifestName]).dropLast := by
    rw [List.dropLast_concat]
  obtain ⟨hstored, hdirs⟩ := place_eq_some htree hnonempty
  exact
    { resolved := hdest
      isDir := hdirs dest habove
      stored := hstored
      floatFree := hplain.1
      distinctKeys := hplain.2
      lists := hlists
      named := fun file hfile => (htargeted file hfile).ne_manifest }

end Placed

section Sealing

variable [Sha256] [TextTables] [DecimalFloat] {documents : PackDocuments}
  {hash : ByteArray → String} {repo : Nat → SourceRepo} {source dest : PackPath}

theorem validateDeploymentClosure_ok {tree : FileTree} {root : PackPath} {report : ClosureReport}
    (h : validateDeploymentClosure documents hash tree root = .ok report) :
    (∃ pack, loadTree hash tree root = .ok pack)
      ∧ ∃ closed, report.contextDigests = dictOf closed := by
  simp only [validateDeploymentClosure, sealedRoutes, Fallible.bind_eq_ok] at h
  obtain ⟨_, ⟨pack, hload, -⟩, closed, -, hreport⟩ := h
  obtain rfl := Except.ok.inj hreport
  exact ⟨⟨pack, hload⟩, closed, rfl⟩

/-- Whatever the repository does while it is copied: a pack that was
built loads, gives back what was copied and nothing else, and passes its
closure check again with the very report its manifest carries. -/
theorem sealed_pack_proves_itself (hlower : LowerCase hash) (hdest : ResolvedPath dest)
    {vacant : Bool} {revision : String} {pack : SealedPack} {t u : Nat}
    (h : buildDeploymentPack documents hash repo source dest vacant revision t = .ok (pack, u)) :
    ProvesItself documents hash repo source dest pack := by
  simp only [buildDeploymentPack, bind_eq_ok, check_eq_ok, ask_eq_ok, found_eq_ok, lift_eq_ok,
    pure_eq_ok] at h
  obtain ⟨_, _, -, _, _, -, _, _, -, _, _, -, _, _, -, copies, _, hcopies, ⟨copied, files⟩, _,
    hcopied, unproven, _, ⟨hunproven, rfl⟩, closure, _, ⟨hclosure, rfl⟩, tree, _, ⟨htree, rfl⟩,
    rfl, -⟩ := h
  dsimp only at hunproven htree hclosure
  have hcollected : Collected repo source
      (files.map fun file => (file.path, file.sourcePath)) := by
    rw [(copyFiles_eq_ok hcopied).1]
    exact (collectCopies_collected hcopies).perm (perm_sortedBy _ _).symm
  have hnodup : (files.map SealedFile.path).Nodup := by
    have hkeys := hcollected.nodup
    rwa [List.map_map] at hkeys
  have htargeted : ∀ file ∈ files, Targeted file.path := fun file hfile =>
    hcollected.targeted _ (List.mem_map.mpr ⟨file, hfile, rfl⟩)
  obtain ⟨⟨pack₀, hload⟩, closedRoutes, hdigests⟩ := validateDeploymentClosure_ok hclosure
  have hbase := sealedAt_placed hdest hunproven baseManifest_plain (by simpa using field_files [])
    htargeted
  have hfinal := sealedAt_placed hdest htree
    (finishedManifest_plain (closure_plain hdigests).1 (closure_plain hdigests).2) (field_files _)
    htargeted
  obtain ⟨hintact, rfl⟩ := (loadTree_eq_ok hlower hbase).mp hload
  have hsame : ∀ path, path ≠ dest ++ [manifestName] → tree path = unproven path := by
    intro path hpath
    rw [place_again hunproven (by simp)] at htree
    obtain rfl := Option.some.inj htree
    exact if_neg hpath
  obtain ⟨hintact', hserved⟩ := served_resealed documents hbase hfinal hnodup hintact
    (fun file hfile => (htargeted file hfile).parts_ne) hsame
  have hload' := (loadTree_eq_ok hlower hfinal).mpr ⟨hintact', rfl⟩
  exact
    { loads := hload'
      reads := fun file hfile t => by
        obtain ⟨data, hdata, -, hdigest⟩ :=
          readVerified_listed hfinal hnodup hfile (hintact' file hfile) t
        exact ⟨data, hdata, hdigest⟩
      nothingElse := fun path hpath t => readVerified_unlisted hpath t
      copied := (copyFiles_eq_ok hcopied).2
      collected := hcollected
      closed := (closure_resealed hload hload' hserved).trans hclosure }

end Sealing

/-! ## Sealing a repository at rest -/

/-- What the repository holds is what is shipped. -/
structure SourceRepo.Ships (repo : SourceRepo) (source : PackPath) (documents : PackDocuments) :
    Prop where
  rules : ∀ data, repo.Holds source rulesRel data → documents.rules data = .ok shippedRules
  pipeline : ∀ data, repo.Holds source pipelineRel data →
    documents.pipeline data = .ok shippedPipeline
  kernels : ∀ rel ∈ shippedKernels, rel ∈ repo.kernelPaths source
  mapping : ∀ rel ∈ shippedKernels, hasYamlSuffix (pathName rel) = true → ∀ data,
    repo.Holds source rel data → ∃ document, documents.mapping data rel = .ok document
      ∧ ∀ key ∈ ["typed_outputs", "context_needs"],
        Json.field key document = Json.field key (shippedDeclarations rel)

theorem shippedKernels_inside {rel : String} (hrel : rel ∈ shippedKernels) :
    slashes rel = rel ∧ ofString ".." ∉ pathParts (ofString rel) := by
  have hplain := shippedKernels_plain rel hrel
  simp only [isPlainPath, Bool.and_eq_true, Bool.not_eq_true', List.all_eq_true,
    decide_eq_true_eq] at hplain
  obtain ⟨⟨⟨hchars, -⟩, -⟩, hdots⟩ := hplain
  refine ⟨slashes_eq_self fun c hc => (hchars c hc).1, up_not_mem_pathParts fun hmem => ?_⟩
  rw [List.contains_iff_mem.mpr hmem] at hdots
  cases hdots

theorem routing_fixed : rulesRel ∈ museumContracts ++ closureSources
    ∧ pipelineRel ∈ museumContracts ++ closureSources := by decide

section Resting

variable {hash : ByteArray → String} {repo : SourceRepo} {source dest : PackPath}
  {documents : PackDocuments} {tree : FileTree} {manifest : List (String × Json)}
  {files : List SealedFile}

/-- A sealed tree of what the repository holds. -/
structure SealedFrom (hash : ByteArray → String) (repo : SourceRepo) (source dest : PackPath)
    (tree : FileTree) (manifest : List (String × Json)) (files : List SealedFile) : Prop where
  sealed : SealedAt hash tree dest manifest files
  nodup : (files.map SealedFile.path).Nodup
  intact : ∀ file ∈ files, Intact hash tree dest file
  stored : ∀ file ∈ files, tree.read (targetPath dest file.path) = some file.data
  held : ∀ file ∈ files, repo.Holds source file.sourcePath file.data
  collected : Collected (fun _ => repo) source
    (files.map fun file => (file.path, file.sourcePath))

/-- A pack of the files of a repository that ships the documents ships
them too. -/
theorem served_ships [DecimalFloat] (h : SealedFrom hash repo source dest tree manifest files)
    (hsealable : repo.Sealable source) (hships : repo.Ships source documents)
    (hhash : ∀ data, hash data ≠ "") :
    ((sealedLoad hash dest manifest files).served documents hash tree).toRuntimePack.Ships := by
  -- a source under its own path is read as the repository holds it
  have hread : ∀ rel, (rel, rel) ∈ files.map (fun file => (file.path, file.sourcePath)) →
      ∃ data, repo.Holds source rel data
        ∧ ((sealedLoad hash dest manifest files).served documents hash tree).read rel
          = .ok (bytesText data)
        ∧ tree.read (targetPath dest rel) = some data := by
    intro rel hrel
    obtain ⟨file, hfile, hcopy⟩ := List.mem_map.mp hrel
    obtain ⟨hpath, hsource⟩ := Prod.mk.inj hcopy
    have hcontents := contents_listed h.sealed h.nodup hfile (h.intact file hfile)
    have hdata := h.stored file hfile
    rw [hpath] at hcontents hdata
    refine ⟨file.data, hsource ▸ h.held file hfile, ?_, hdata⟩
    show (Fallible.require ((sealedLoad hash dest manifest files).contents hash tree rel)
      _).map bytesText = _
    rw [hcontents]
    unfold targetPath at hdata
    rw [hdata]
    rfl
  have hkernel : ∀ rel ∈ shippedKernels,
      (rel, rel) ∈ files.map (fun file => (file.path, file.sourcePath)) := by
    intro rel hrel
    obtain ⟨kernels, t, u, hkernels, hnamed⟩ := h.collected.kernels
    rw [kernelSources_resting hsealable.kernelsDir] at hkernels
    cases hkernels
    have hcopy := hnamed rel (hships.kernels rel hrel) (rel, rel) List.mem_cons_self
    rwa [(shippedKernels_inside hrel).1] at hcopy
  have hinside : ∀ rel ∈ shippedKernels,
      collapse (dest ++ pathParts (ofString rel)) = targetPath dest rel := fun rel hrel =>
    collapse_append h.sealed.resolved (shippedKernels_inside hrel).2
  exact
    { rules := by
        obtain ⟨data, hholds, hserved, -⟩ := hread rulesRel
          (h.collected.fixed rulesRel routing_fixed.1)
        refine ⟨bytesText data, hserved, ?_⟩
        show documents.rules (textBytes (bytesText data)) = _
        rw [textBytes_bytesText]
        exact hships.rules data hholds
      pipeline := by
        obtain ⟨data, hholds, hserved, -⟩ := hread pipelineRel
          (h.collected.fixed pipelineRel routing_fixed.2)
        refine ⟨bytesText data, hserved, ?_⟩
        show documents.pipeline (textBytes (bytesText data)) = _
        rw [textBytes_bytesText]
        exact hships.pipeline data hholds
      contained := fun rel hrel => by
        show (!dest.isPrefixOf (collapse (dest ++ pathParts (ofString rel)))) = false
        have hbelow : dest.isPrefixOf (targetPath dest rel) = true :=
          List.isPrefixOf_iff_prefix.mpr (List.prefix_append dest _)
        rw [hinside rel hrel, hbelow]
        rfl
      present := fun rel hrel => by
        obtain ⟨data, -, -, hdata⟩ := hread rel (hkernel rel hrel)
        show (tree.read (collapse (dest ++ pathParts (ofString rel)))).isSome = true
        rw [hinside rel hrel, hdata, Option.isSome_some]
      readable := fun rel hrel => by
        obtain ⟨data, hholds, hserved, -⟩ := hread rel (hkernel rel hrel)
        refine ⟨bytesText data, hserved, fun hsuffix => ?_⟩
        show ∃ document, documents.mapping (textBytes (bytesText data)) rel = .ok document ∧ _
        rw [textBytes_bytesText]
        exact hships.mapping rel hrel hsuffix data hholds
      digests := fun text => hhash _ }

/-- The copies of a repository at rest can be written, and the manifest
beside them. -/
theorem copies_writable (hsealable : repo.Sealable source)
    {copies : Copies} (hplan : FromPlan repo source copies)
    (hcollected : Collected (fun _ => repo) source copies) :
    (∀ copy ∈ copies, Writable repo source copy)
      ∧ Unobstructed (copies.map fun copy => targetPath dest copy.1)
      ∧ (copies.map fun copy => targetPath dest copy.1).Nodup := by
  have happart : ∀ copy ∈ copies, ∀ other ∈ copies,
      targetPath dest copy.1 <+: targetPath dest other.1 → copy.1 = other.1 := by
    intro copy hcopy other hother hunder
    obtain ⟨entry, hentry, rfl⟩ := hplan copy hcopy
    obtain ⟨entry', hentry', rfl⟩ := hplan other hother
    exact hsealable.apart entry hentry entry' hentry' ((List.prefix_append_right_inj dest).mp hunder)
  refine ⟨fun copy hcopy => ?_, fun p hp q hq hunder => ?_, ?_⟩
  · have htargeted := hcollected.targeted copy hcopy
    obtain ⟨entry, hentry, rfl⟩ := hplan copy hcopy
    exact ⟨hsealable.held entry hentry, hsealable.inside entry hentry, htargeted.named⟩
  · obtain ⟨copy, hcopy, rfl⟩ := List.mem_map.mp hp
    obtain ⟨other, hother, rfl⟩ := List.mem_map.mp hq
    rw [happart copy hcopy other hother hunder]
  · have hkeys := hcollected.nodup
    have hmap := hkeys.map_on (f := targetPath dest) fun key hkey key' hkey' hsame => by
      obtain ⟨copy, hcopy, rfl⟩ := List.mem_map.mp hkey
      obtain ⟨other, hother, rfl⟩ := List.mem_map.mp hkey'
      exact happart copy hcopy other hother (hsame ▸ List.prefix_rfl)
    rwa [List.map_map] at hmap

/-- The manifest goes beside the files. -/
theorem place_manifest (htidy : Tidy dest (files.map fun file => targetPath dest file.path) tree)
    (htargeted : ∀ file ∈ files, Targeted file.path) (data : ByteArray) :
    ∃ tree', tree.place (dest ++ [manifestName]) data = some tree'
      ∧ ∀ file ∈ files, tree'.read (targetPath dest file.path)
        = tree.read (targetPath dest file.path) := by
  have hlong : ∀ file ∈ files, ¬ targetPath dest file.path <+: dest := by
    intro file hfile hunder
    have hlength := hunder.length_le
    have hpos := List.length_pos_iff.mpr (htargeted file hfile).named
    rw [targetPath, List.length_append] at hlength
    omega
  have hmanifest : ∀ file ∈ files, ¬ dest ++ [manifestName] <+: targetPath dest file.path := by
    intro file hfile hunder
    obtain ⟨rest, hrest⟩ := (List.prefix_append_right_inj dest).mp hunder
    refine (htargeted file hfile).head_ne ?_
    rw [← hrest]
    rfl
  have hnonempty : dest ++ [manifestName] ≠ [] := by simp
  have hdest : ¬ dest ++ [manifestName] <+: dest := fun hunder => by
    simpa using hunder.length_le
  have habove : ∀ p ∈ files.map (fun file => targetPath dest file.path),
      ¬ p <+: (dest ++ [manifestName]).dropLast := by
    intro p hp hunder
    obtain ⟨file, hfile, rfl⟩ := List.mem_map.mp hp
    exact hlong file hfile (by simpa using hunder)
  have hbelow : ∀ p ∈ files.map (fun file => targetPath dest file.path),
      ¬ dest ++ [manifestName] <+: p.dropLast := by
    intro p hp hunder
    obtain ⟨file, hfile, rfl⟩ := List.mem_map.mp hp
    exact hmanifest file hfile (hunder.trans (List.dropLast_prefix _))
  obtain ⟨tree', hplaced, -, hreads⟩ := place_clear htidy hnonempty hdest habove hbelow data
  refine ⟨tree', hplaced, fun file hfile => ?_⟩
  have hne : targetPath dest file.path ≠ dest ++ [manifestName] := by
    intro hsame
    exact hmanifest file hfile (by rw [hsame])
  rw [hreads, if_neg hne]

/-- The pack of a repository at rest: the planned files, as the
repository holds them. -/
structure SealsPlan (repo : SourceRepo) (source dest : PackPath) (pack : SealedPack) : Prop where
  files : ∀ copy, copy ∈ pack.files.map (fun file => (file.path, file.sourcePath))
    ↔ ∃ entry ∈ repo.planned source, copy = (slashes entry.2, entry.1)
  held : ∀ file ∈ pack.files, repo.Holds source file.sourcePath file.data
  stored : ∀ file ∈ pack.files, pack.tree.read (targetPath dest file.path) = some file.data

/-- The builder gets as far as the closure check. -/
theorem resting_copies (hdest : ResolvedPath dest) (hsealable : repo.Sealable source)
    (revision : String) (t : Nat) :
    ∃ copies t₁ copied files t₂ tree,
      collectCopies (fun _ => repo) source t = .ok (copies, t₁)
        ∧ copyFiles (fun _ => repo) source dest (sortedBy Prod.fst copies) (.fresh dest) t₁
          = .ok ((copied, files), t₂)
        ∧ copied.place (dest ++ [manifestName]) (manifestBytes (baseManifest hash revision files))
          = some tree
        ∧ SealedFrom hash repo source dest tree (baseManifest hash revision files) files
        ∧ ∀ copy, copy ∈ files.map (fun file => (file.path, file.sourcePath))
          ↔ ∃ entry ∈ repo.planned source, copy = (slashes entry.2, entry.1) := by
  obtain ⟨copies, t₁, hcopies, hplan, hcomplete⟩ := collectCopies_resting hsealable t
  have hcollected := (collectCopies_collected hcopies).perm (perm_sortedBy Prod.fst copies).symm
  have hsorted : FromPlan repo source (sortedBy Prod.fst copies) := fun copy hcopy =>
    hplan copy ((mem_sortedBy _).mp hcopy)
  obtain ⟨hwritable, hclear, hfresh⟩ := copies_writable hsealable hsorted hcollected
  obtain ⟨copied, files, t₂, hcopied, htidy, -, hstored⟩ := copyFiles_resting hdest hwritable
    (tidy_fresh dest) (by simpa using hclear) (by simpa using hfresh) t₁
  rw [List.nil_append] at htidy
  obtain ⟨hentries, hsources⟩ := copyFiles_eq_ok hcopied
  rw [← hentries] at hcollected
  have htargeted : ∀ file ∈ files, Targeted file.path := fun file hfile =>
    hcollected.targeted _ (List.mem_map.mpr ⟨file, hfile, rfl⟩)
  have hspots : (sortedBy Prod.fst copies).map (fun copy => targetPath dest copy.1)
      = files.map fun file => targetPath dest file.path := by
    rw [← hentries, List.map_map]
    rfl
  rw [hspots] at htidy
  obtain ⟨tree, htree, hreads⟩ := place_manifest htidy htargeted
    (manifestBytes (baseManifest hash revision files))
  have hkept : ∀ file ∈ files, tree.read (targetPath dest file.path) = some file.data :=
    fun file hfile => (hreads file hfile).trans (hstored file hfile)
  refine ⟨copies, t₁, copied, files, t₂, tree, hcopies, hcopied, htree,
    { sealed := sealedAt_placed hdest htree baseManifest_plain (by simpa using field_files [])
        htargeted
      nodup := ?_
      intact := fun file hfile => ?_
      stored := hkept
      held := fun file hfile => ?_
      collected := hcollected }, fun copy => ?_⟩
  · have hkeys := hcollected.nodup
    rwa [List.map_map] at hkeys
  · have hcopy : (file.path, file.sourcePath) ∈ sortedBy Prod.fst copies :=
      hentries ▸ List.mem_map.mpr ⟨file, hfile, rfl⟩
    exact ⟨(htargeted file hfile).relative, (hwritable _ hcopy).inside, file.data,
      hkept file hfile, rfl⟩
  · obtain ⟨path, s, s', hpath, hread⟩ := hsources file hfile
    exact holds_of_copied hpath hread
  · rw [hentries, mem_sortedBy]
    refine ⟨hplan copy, ?_⟩
    rintro ⟨entry, hentry, rfl⟩
    exact hcomplete entry hentry

variable [Sha256] [TextTables] [DecimalFloat]

/-- The build of a repository at rest is decided by its closure check. -/
theorem resting_builds (hdest : ResolvedPath dest) (houtside : source.isPrefixOf dest = false)
    (hsealable : repo.Sealable source) {revision : String}
    (hrevision : isFullSha (TextTables.lower (strip revision)) = true)
    (hclosed : ∀ tree manifest files, SealedFrom hash repo source dest tree manifest files →
      ∃ closure, validateDeploymentClosure documents hash tree dest = .ok closure) (t : Nat) :
    ∃ pack u, buildDeploymentPack documents hash (fun _ => repo) source dest true revision t
        = .ok (pack, u)
      ∧ SealsPlan repo source dest pack
      ∧ ∃ tree manifest files, SealedFrom hash repo source dest tree manifest files
        ∧ validateDeploymentClosure documents hash tree dest = .ok pack.closure := by
  obtain ⟨copies, t₁, copied, files, t₂, unproven, hcopies, hcopied, hunproven, hsealed, hplan⟩ :=
    resting_copies hdest hsealable (TextTables.lower (strip revision)) (t + 1)
  obtain ⟨closure, hclosure⟩ := hclosed _ _ _ hsealed
  obtain ⟨tree, hfinished, hsame⟩ : ∃ tree, unproven.place (dest ++ [manifestName]) (manifestBytes
      (baseManifest hash (TextTables.lower (strip revision)) files
        ++ [("semantic_closure", closure.toJson)])) = some tree
      ∧ ∀ q, q ≠ dest ++ [manifestName] → tree.read q = unproven.read q := by
    refine ⟨_, place_again hunproven (by simp), fun q hq => ?_⟩
    unfold FileTree.read
    beta_reduce
    rw [if_neg hq]
  have hvacant : (!source.isPrefixOf dest) = true := by
    rw [houtside]
    rfl
  refine ⟨{ tree := tree, revision := TextTables.lower (strip revision), files := files,
            closure := closure }, t₂, ?_, ⟨hplan, hsealed.held, fun file hfile => ?_⟩, unproven, _,
    files, hsealed, hclosure⟩
  · simp only [buildDeploymentPack, bind_eq_ok, check_eq_ok, ask_eq_ok, found_eq_ok, lift_eq_ok,
      pure_eq_ok]
    exact ⟨(), t, ⟨hrevision, rfl⟩, true, t + 1, ⟨hsealable.isDir, rfl⟩, (), t + 1, ⟨rfl, rfl⟩, (),
      t + 1, ⟨hvacant, rfl⟩, (), t + 1, ⟨trivial, rfl⟩, copies, t₁, hcopies, (copied, files), t₂,
      hcopied, unproven, t₂, ⟨hunproven, rfl⟩, closure, t₂, ⟨hclosure, rfl⟩, _, t₂,
      ⟨hfinished, rfl⟩, rfl, rfl⟩
  · have htargeted := hsealed.collected.targeted _ (List.mem_map.mpr ⟨file, hfile, rfl⟩)
    have hne : targetPath dest file.path ≠ dest ++ [manifestName] := fun hsame =>
      htargeted.parts_ne (List.append_cancel_left hsame)
    exact (hsame _ hne).trans (hsealed.stored file hfile)

/-- A repository at rest that ships the documents is sealed: the pack is
what is planned, and every shipped route compiles from it. -/
theorem shipped_repository_seals (htables : TextTables.OnAscii) (hsha : Sha256.Injective)
    (hlower : LowerCase hash) (hhash : ∀ data, hash data ≠ "") (hdest : ResolvedPath dest)
    (houtside : source.isPrefixOf dest = false) (hsealable : repo.Sealable source)
    (hships : repo.Ships source documents) {revision : String}
    (hrevision : isFullSha (TextTables.lower (strip revision)) = true) (t : Nat) :
    ∃ pack u, buildDeploymentPack documents hash (fun _ => repo) source dest true revision t
        = .ok (pack, u)
      ∧ SealsPlan repo source dest pack
      ∧ pack.closure.routesCompiled = (sortedBy Prod.fst shippedRoutes).map Prod.fst := by
  have hclosed : ∀ tree manifest files, SealedFrom hash repo source dest tree manifest files →
      ∃ closure, validateDeploymentClosure documents hash tree dest = .ok closure
        ∧ closure.routesCompiled = (sortedBy Prod.fst shippedRoutes).map Prod.fst := by
    intro tree manifest files h
    have hload := (loadTree_eq_ok hlower h.sealed).mpr ⟨h.intact, rfl⟩
    exact closure_shipped htables hsha hload (served_ships h hsealable hships hhash)
  obtain ⟨pack, u, hbuild, hplan, tree, manifest, files, hsealed, hclosure⟩ :=
    resting_builds hdest houtside hsealable hrevision
      (fun tree manifest files h => (hclosed tree manifest files h).imp fun _ h => h.1) t
  obtain ⟨closure, hclosure', hroutes⟩ := hclosed tree manifest files hsealed
  obtain rfl := Except.ok.inj (hclosure.symm.trans hclosure')
  exact ⟨pack, u, hbuild, hplan, hroutes⟩

end Resting

/-! ## The shipped repository -/

def schemaName : String := "execution_packet.schema.json"

def adapterName : String := "generic_adapter.md"

/-- The files of a small source repository. -/
def shippedFiles : List String :=
  museumContracts ++ closureSources ++ shippedKernels
    ++ [posixPath ["contracts", schemaName],
      posixPath ["runtime", "contract_compiler", "adapters", adapterName]]

def shippedSource : PackPath := [ofString "repo"]

/-- The parts of a kernel file below the kernels. -/
def belowKernels (rel : String) : List String :=
  ((rel.toList.splitOn '/').drop 2).map String.ofList

/-- The repository that holds them, each with its own path in it. -/
def shippedRepo : SourceRepo where
  resolveRef _ := none
  resolve path := some path
  isDir path := shippedFiles.any fun rel =>
    path.isPrefixOf (shippedSource ++ (pathParts (ofString rel)).dropLast)
  isFile path := decide (path ∈ shippedFiles.map (targetPath shippedSource))
  present path := shippedFiles.any fun rel => path.isPrefixOf (targetPath shippedSource rel)
  read path :=
    if path ∈ shippedFiles.map (targetPath shippedSource) then
      some (plainText (pathText path)).toUTF8
    else none
  rglob path := if path = kernelsRoot shippedSource then shippedKernels.dedup.map belowKernels else []
  names path :=
    if path = schemaRoot shippedSource then [schemaName]
    else if path = adapterRoot shippedSource then [adapterName]
    else []

/-- The plan, as characters: sources and targets. -/
def plannedText : List (List Char × List Char) :=
  (museumContracts ++ closureSources).map (fun rel => (byteLetters rel, byteLetters rel))
    ++ shippedKernels.flatMap (fun rel =>
      [(byteLetters rel, byteLetters rel),
        (byteLetters rel, byteLetters "kernels/"
          ++ ((byteLetters rel).splitOn '/').getLast?.getD [])])
    ++ [(byteLetters "contracts/" ++ byteLetters schemaName,
        byteLetters "contracts/" ++ byteLetters schemaName),
      (byteLetters "contracts/" ++ byteLetters schemaName,
        byteLetters "schemas/" ++ byteLetters schemaName)]
    ++ [(byteLetters "runtime/contract_compiler/adapters/" ++ byteLetters adapterName,
        byteLetters "runtime/contract_compiler/adapters/" ++ byteLetters adapterName)]

/-- The parts of a target. -/
def targetParts (target : List Char) : List PyStr :=
  pathParts ((target.map fun c => if c = '\\' then '/' else c).map CodePoint.ofChar)

/-- A target part by part, each part as one number: what is below
another target is so part by part, and numbers compare at once. -/
def targetKeys (target : List Char) : List Nat :=
  (targetParts target).map fun part => part.foldl (fun n c => n * 0x110000 + c.val) 0

/-- The names the plan is put together from. -/
def plannedNames : List String :=
  museumContracts ++ closureSources ++ shippedKernels ++ [schemaName, adapterName, "kernels/",
    "contracts/", "schemas/", "runtime/contract_compiler/adapters/"]

/-- What is computed about the names: a file of the kernels is below
them, sources are relative, and no target stands in another's way. -/
@[mk_iff]
structure NamesChecked : Prop where
  ascii : (plannedNames.all fun name =>
    name.toByteArray.data.toList.all fun b => decide (b.toNat < 128)) = true
  kernels : (shippedKernels.all fun rel =>
    decide (((byteLetters rel).splitOn '/').take 2 = ["runtime".toList, "kernels".toList])
      && decide (pathParts ((byteLetters rel).map CodePoint.ofChar)
        = ((byteLetters rel).splitOn '/').map fun part => part.map CodePoint.ofChar)) = true
  planned : (plannedText.all fun entry =>
    decide ((entry.1.map CodePoint.ofChar).head? ≠ some slash)
      && !(pathParts (entry.1.map CodePoint.ofChar)).contains (ofString "..")
      && !(targetParts entry.2).contains (ofString "..")
      && plannedText.all fun other =>
        !(targetKeys entry.2).isPrefixOf (targetKeys other.2)
          || decide (entry.1 = other.1 ∧ entry.2 = other.2)) = true
  contracts : "contracts".toList ++ ['/'] = "contracts/".toList
  adapters : "runtime".toList ++ '/' :: ("contract_compiler".toList
    ++ '/' :: ("adapters".toList ++ ['/'])) = "runtime/contract_compiler/adapters/".toList
  schemaPath : schemaRoot shippedSource ++ [ofString schemaName]
    = targetPath shippedSource (posixPath ["contracts", schemaName])
  schemaSuffix : schemaName.endsWith ".schema.json" = true
  pathName_schema : pathName (posixPath ["contracts", schemaName]) = schemaName
  adapterPath : adapterRoot shippedSource ++ [ofString adapterName] = targetPath shippedSource
    (posixPath ["runtime", "contract_compiler", "adapters", adapterName])
  adapterSuffix : adapterName.endsWith ".md" = true
  kernelsDir : kernelsRoot shippedSource <+: shippedSource ++ (pathParts
    (ofString "runtime/kernels/terminal/flawless_victory.contract.yaml")).dropLast
  schemaDir : schemaRoot shippedSource <+: shippedSource ++ (pathParts
    (ofString (posixPath ["contracts", schemaName]))).dropLast
  adapterDir : adapterRoot shippedSource <+: shippedSource ++ (pathParts
    (ofString (posixPath ["runtime", "contract_compiler", "adapters", adapterName]))).dropLast
  revision : isFullSha (TextTables.ascii.lower
    (strip "0123456789abcdef0123456789abcdef01234567")) = true

theorem names_checked : NamesChecked := by
  rw [namesChecked_iff]
  decide +kernel

theorem byteLetters_planned {name : String} (h : name ∈ plannedNames) :
    byteLetters name = name.toList := by
  refine byteLetters_eq fun b hb => ?_
  have hname := List.all_eq_true.mp (NamesChecked.ascii names_checked) name h
  exact of_decide_eq_true (List.all_eq_true.mp hname b hb)

theorem belowKernels_parts {rel : String} (hrel : rel ∈ shippedKernels) :
    (rel.toList.splitOn '/').take 2 = ["runtime".toList, "kernels".toList]
      ∧ pathParts (ofString rel)
        = (rel.toList.splitOn '/').map fun part => part.map CodePoint.ofChar := by
  have hplain := List.all_eq_true.mp (NamesChecked.kernels names_checked) rel hrel
  have hletters : byteLetters rel = rel.toList := byteLetters_planned (by simp [plannedNames, hrel])
  rwa [Bool.and_eq_true, decide_eq_true_eq, decide_eq_true_eq, hletters] at hplain

theorem posixPath_belowKernels {rel : String} (hrel : rel ∈ shippedKernels) :
    posixPath ("runtime" :: "kernels" :: belowKernels rel) = rel := by
  have hplain := belowKernels_parts hrel
  have hparts : ("runtime" :: "kernels" :: belowKernels rel).map String.toList
      = rel.toList.splitOn '/' := by
    rw [← List.take_append_drop 2 (rel.toList.splitOn '/'), hplain.1]
    unfold belowKernels
    rw [List.map_cons, List.map_cons, List.map_map]
    simp [Function.comp_def]
  refine String.toList_injective ?_
  unfold posixPath
  rw [String.toList_intercalate, hparts]
  exact List.intercalate_splitOn '/'

theorem isFile_shipped {rel : String} (h : rel ∈ shippedFiles) :
    shippedRepo.isFile (targetPath shippedSource rel) = true :=
  decide_eq_true (List.mem_map_of_mem h)

theorem mem_kernelPaths {rel : String} :
    rel ∈ shippedRepo.kernelPaths shippedSource ↔ rel ∈ shippedKernels := by
  have hfile : ∀ rel ∈ shippedKernels, shippedRepo.isFile (kernelsRoot shippedSource
      ++ (belowKernels rel).map ofString) = true := by
    intro rel hrel
    have hplain := belowKernels_parts hrel
    have hpath : kernelsRoot shippedSource ++ (belowKernels rel).map ofString
        = targetPath shippedSource rel := by
      unfold kernelsRoot targetPath belowKernels
      rw [hplain.2, ← List.take_append_drop 2 (rel.toList.splitOn '/'), hplain.1, List.map_map]
      simp [Function.comp_def, ofString]
    rw [hpath]
    exact isFile_shipped (by simp [shippedFiles, hrel])
  have hlisted : shippedRepo.rglob (kernelsRoot shippedSource)
      = shippedKernels.dedup.map belowKernels := by
    show (if kernelsRoot shippedSource = kernelsRoot shippedSource then
      shippedKernels.dedup.map belowKernels else []) = _
    rw [if_pos rfl]
  unfold SourceRepo.kernelPaths
  rw [mem_sortedBy, hlisted]
  simp only [List.mem_map, List.mem_filter]
  constructor
  · rintro ⟨parts, ⟨⟨rel', hrel', rfl⟩, -⟩, rfl⟩
    have hrel' := List.mem_dedup.mp hrel'
    rwa [posixPath_belowKernels hrel']
  · intro hrel
    exact ⟨belowKernels rel, ⟨⟨rel, List.mem_dedup.mpr hrel, rfl⟩, hfile rel hrel⟩,
      posixPath_belowKernels hrel⟩

theorem schemaPaths_shipped :
    shippedRepo.schemaPaths shippedSource = [posixPath ["contracts", schemaName]] := by
  have hnames : shippedRepo.names (schemaRoot shippedSource) = [schemaName] := by
    show (if schemaRoot shippedSource = schemaRoot shippedSource then [schemaName]
      else if schemaRoot shippedSource = adapterRoot shippedSource then [adapterName] else []) = _
    rw [if_pos rfl]
  have hmem : posixPath ["contracts", schemaName] ∈ shippedFiles := by simp [shippedFiles]
  have hfile := isFile_shipped hmem
  rw [← NamesChecked.schemaPath names_checked] at hfile
  unfold SourceRepo.schemaPaths
  rw [hnames]
  simp [hfile, NamesChecked.schemaSuffix names_checked, sortedBy]

theorem adapterPaths_shipped : shippedRepo.adapterPaths shippedSource
    = [posixPath ["runtime", "contract_compiler", "adapters", adapterName]] := by
  have hnames : shippedRepo.names (adapterRoot shippedSource) = [adapterName] := by
    show (if adapterRoot shippedSource = schemaRoot shippedSource then [schemaName]
      else if adapterRoot shippedSource = adapterRoot shippedSource then [adapterName] else []) = _
    rw [if_neg (by decide), if_pos rfl]
  have hmem : posixPath ["runtime", "contract_compiler", "adapters", adapterName]
      ∈ shippedFiles := by simp [shippedFiles]
  have hfile := isFile_shipped hmem
  rw [← NamesChecked.adapterPath names_checked] at hfile
  unfold SourceRepo.adapterPaths
  rw [hnames]
  simp [hfile, NamesChecked.adapterSuffix names_checked, sortedBy]

theorem byteLetters_piece {name : String} (h : name ∈ [schemaName, adapterName, "kernels/",
    "contracts/", "schemas/", "runtime/contract_compiler/adapters/"]) :
    byteLetters name = name.toList :=
  byteLetters_planned (List.mem_append_right _ h)

theorem schemaPath_letters : (posixPath ["contracts", schemaName]).toList
    = byteLetters "contracts/" ++ byteLetters schemaName := by
  rw [byteLetters_piece (by simp), byteLetters_piece (by simp), posixPath_cons,
    posixPath_singleton, ← NamesChecked.contracts names_checked, List.append_assoc,
    List.singleton_append]

theorem adapterPath_letters :
    (posixPath ["runtime", "contract_compiler", "adapters", adapterName]).toList
      = byteLetters "runtime/contract_compiler/adapters/" ++ byteLetters adapterName := by
  rw [byteLetters_piece (by simp), byteLetters_piece (by simp), posixPath_cons, posixPath_cons,
    posixPath_cons, posixPath_singleton, ← NamesChecked.adapters names_checked]
  simp

theorem mem_plannedText {entry : String × String} (h : entry ∈ shippedRepo.planned shippedSource) :
    (entry.1.toList, entry.2.toList) ∈ plannedText := by
  unfold SourceRepo.planned at h
  rw [schemaPaths_shipped, adapterPaths_shipped, List.mem_append, List.mem_append, List.mem_append,
    ← List.map_append] at h
  unfold plannedText
  rw [List.mem_append, List.mem_append, List.mem_append]
  rcases h with ((h | h) | h) | h
  · obtain ⟨rel, hrel, rfl⟩ := List.mem_map.mp h
    have hletters : byteLetters rel = rel.toList :=
      byteLetters_planned (List.mem_append_left _ (List.mem_append_left _ hrel))
    exact .inl (.inl (.inl (List.mem_map.mpr ⟨rel, hrel, by rw [hletters]; rfl⟩)))
  · obtain ⟨rel, hrel, h⟩ := List.mem_flatMap.mp h
    have hkernel := mem_kernelPaths.mp hrel
    have hletters : byteLetters rel = rel.toList :=
      byteLetters_planned (by simp [plannedNames, hkernel])
    refine .inl (.inl (.inr (List.mem_flatMap.mpr ⟨rel, hkernel, ?_⟩)))
    unfold withAlias at h
    simp only [List.mem_cons, List.not_mem_nil, or_false, hletters] at h ⊢
    rcases h with rfl | rfl
    · exact .inl rfl
    · refine .inr (Prod.ext rfl ?_)
      have hname : (pathName rel).toList = (rel.toList.splitOn '/').getLast?.getD [] :=
        String.toList_ofList
      show ("kernels/" ++ pathName rel).toList = _
      rw [String.toList_append, hname, byteLetters_piece (by simp)]
  · refine .inl (.inr ?_)
    simp only [List.flatMap_cons, List.flatMap_nil, List.append_nil, withAlias, List.mem_cons,
      List.not_mem_nil, or_false] at h ⊢
    rcases h with rfl | rfl
    · exact .inl (Prod.ext schemaPath_letters schemaPath_letters)
    · refine .inr (Prod.ext schemaPath_letters ?_)
      show _ = byteLetters "schemas/" ++ byteLetters schemaName
      rw [NamesChecked.pathName_schema names_checked, String.toList_append, byteLetters_piece (by simp),
        byteLetters_piece (by simp)]
  · refine .inr ?_
    simp only [List.map_cons, List.map_nil, ownPath, List.mem_cons, List.not_mem_nil,
      or_false] at h ⊢
    subst h
    exact Prod.ext adapterPath_letters adapterPath_letters

/-- What the pass says about two entries of the plan. -/
theorem planned_apart {entry other : String × String}
    (h : entry ∈ shippedRepo.planned shippedSource)
    (h' : other ∈ shippedRepo.planned shippedSource) :
    (ofString entry.1).head? ≠ some slash ∧ ofString ".." ∉ pathParts (ofString entry.1)
      ∧ ofString ".." ∉ pathParts (ofString (slashes entry.2))
      ∧ (pathParts (ofString (slashes entry.2)) <+: pathParts (ofString (slashes other.2)) →
        entry.1 = other.1 ∧ entry.2 = other.2) := by
  have htarget : ∀ target : String, targetParts target.toList
      = pathParts (ofString (slashes target)) := by
    intro target
    unfold targetParts ofString slashes
    rw [String.toList_ofList]
  have hchecked := List.all_eq_true.mp (NamesChecked.planned names_checked) _ (mem_plannedText h)
  simp only [Bool.and_eq_true, decide_eq_true_eq, Bool.not_eq_true', ← Bool.not_eq_true,
    List.contains_iff_mem, htarget] at hchecked
  obtain ⟨⟨⟨hstart, hsource⟩, htargets⟩, hothers⟩ := hchecked
  refine ⟨hstart, hsource, htargets, fun hunder => ?_⟩
  have hpair := List.all_eq_true.mp hothers _ (mem_plannedText h')
  have hkeys : targetKeys entry.2.toList <+: targetKeys other.2.toList := by
    unfold targetKeys
    rw [htarget, htarget]
    exact hunder.map _
  rw [List.isPrefixOf_iff_prefix.mpr hkeys] at hpair
  simp only [Bool.not_true, Bool.false_or, decide_eq_true_eq] at hpair
  exact ⟨String.toList_injective hpair.1, String.toList_injective hpair.2⟩

theorem shippedRepo_holds {rel : String} (hfile : rel ∈ shippedFiles)
    (hstart : (ofString rel).head? ≠ some slash)
    (hinside : ofString ".." ∉ pathParts (ofString rel)) :
    ∃ data, shippedRepo.Holds shippedSource rel data := by
  refine ⟨(plainText (pathText (targetPath shippedSource rel))).toUTF8, hstart, hinside,
    targetPath shippedSource rel, rfl, List.isPrefixOf_iff_prefix.mpr (List.prefix_append _ _),
    isFile_shipped hfile, ?_⟩
  exact if_pos (List.mem_map_of_mem hfile)

theorem planned_files {entry : String × String}
    (h : entry ∈ shippedRepo.planned shippedSource) : entry.1 ∈ shippedFiles := by
  unfold SourceRepo.planned at h
  rw [schemaPaths_shipped, adapterPaths_shipped, List.mem_append, List.mem_append, List.mem_append,
    ← List.map_append] at h
  unfold shippedFiles
  rcases h with ((h | h) | h) | h
  · obtain ⟨rel, hrel, rfl⟩ := List.mem_map.mp h
    exact List.mem_append_left _ (List.mem_append_left _ hrel)
  · obtain ⟨rel, hrel, h⟩ := List.mem_flatMap.mp h
    rw [(mem_withAlias h).1]
    exact List.mem_append_left _ (List.mem_append_right _ (mem_kernelPaths.mp hrel))
  · obtain ⟨rel, hrel, h⟩ := List.mem_flatMap.mp h
    rw [(mem_withAlias h).1, List.mem_singleton.mp hrel]
    simp
  · obtain ⟨rel, hrel, rfl⟩ := List.mem_map.mp h
    rw [List.mem_singleton.mp hrel]
    simp [ownPath]

theorem shippedRepo_dir {root : PackPath} {rel : String} (hfile : rel ∈ shippedFiles)
    (h : root <+: shippedSource ++ (pathParts (ofString rel)).dropLast) :
    shippedRepo.isDir root = true :=
  List.any_eq_true.mpr ⟨rel, hfile, List.isPrefixOf_iff_prefix.mpr h⟩

theorem shippedRepo_sealable : shippedRepo.Sealable shippedSource where
  isDir := shippedRepo_dir (by simp [shippedFiles, museumContracts] : "EXECUTION_GRAPH.json" ∈ _)
    (List.prefix_append _ _)
  kernelsDir := shippedRepo_dir (by simp [shippedFiles, closureSources] :
    "runtime/kernels/terminal/flawless_victory.contract.yaml" ∈ _)
    (NamesChecked.kernelsDir names_checked)
  schemaDir := shippedRepo_dir (by simp [shippedFiles] :
    posixPath ["contracts", schemaName] ∈ _) (NamesChecked.schemaDir names_checked)
  adapterDir := shippedRepo_dir (by simp [shippedFiles] :
    posixPath ["runtime", "contract_compiler", "adapters", adapterName] ∈ _)
    (NamesChecked.adapterDir names_checked)
  held entry h := by
    obtain ⟨hstart, hinside, -, -⟩ := planned_apart h h
    exact shippedRepo_holds (planned_files h) hstart hinside
  inside entry h := (planned_apart h h).2.2.1
  oneSource entry h other h' hsame :=
    ((planned_apart h h').2.2.2 (hsame ▸ List.prefix_rfl)).1
  apart entry h other h' hunder := by
    rw [((planned_apart h h').2.2.2 hunder).2]

/-- Documents that are what is shipped. -/
def shippedDocuments : PackDocuments where
  mapping _ rel := .ok (shippedDeclarations rel)
  rules _ := .ok shippedRules
  pipeline _ := .ok shippedPipeline

theorem shippedRepo_ships : shippedRepo.Ships shippedSource shippedDocuments where
  rules _ _ := rfl
  pipeline _ _ := rfl
  kernels _ h := mem_kernelPaths.mpr h
  mapping rel _ _ _ _ := ⟨shippedDeclarations rel, rfl, fun _ _ => rfl⟩

/-- Bytes in hexadecimal, after a mark. -/
def hexText (data : ByteArray) : String :=
  String.ofList ('x' :: data.data.toList.flatMap fun b =>
    [Nat.digitChar (b.toNat / 16), Nat.digitChar (b.toNat % 16)])

theorem hexDigits_injective : ∀ {l m : List UInt8},
    (l.flatMap fun b => [Nat.digitChar (b.toNat / 16), Nat.digitChar (b.toNat % 16)])
      = m.flatMap (fun b => [Nat.digitChar (b.toNat / 16), Nat.digitChar (b.toNat % 16)]) → l = m
  | [], [], _ => rfl
  | [], _ :: _, h => by cases h
  | _ :: _, [], h => by cases h
  | b :: l, c :: m, h => by
      have hdigit : ∀ i < 16, ∀ k < 16, Nat.digitChar i = Nat.digitChar k → i = k := by decide
      have hb : b.toNat < 256 := b.toNat_lt
      have hc : c.toNat < 256 := c.toNat_lt
      simp only [List.flatMap_cons, List.cons_append, List.nil_append, List.cons.injEq] at h
      obtain ⟨hhigh, hlow, hrest⟩ := h
      have hdiv := hdigit _ (by omega) _ (by omega) hhigh
      have hmod := hdigit _ (by omega) _ (by omega) hlow
      have hsame : b = c := UInt8.toNat_inj.mp (by omega)
      rw [hsame, hexDigits_injective hrest]

theorem hexText_injective : Function.Injective hexText := by
  intro data data' h
  have hchars := List.cons.inj (String.ofList_injective h)
  exact ByteArray.ext (Array.toList_inj.mp (hexDigits_injective hchars.2))

theorem hexText_ne_empty (data : ByteArray) : hexText data ≠ "" := by
  intro h
  have htext := congrArg String.toList h
  rw [hexText, String.toList_ofList] at htext
  cases htext

theorem lowerCase_hexText : LowerCase hexText := by
  have hdigit : ∀ n < 16, ¬ (65 ≤ (Nat.digitChar n).toNat ∧ (Nat.digitChar n).toNat ≤ 90) := by
    decide
  intro data
  unfold lowerDigest
  refine (List.map_congr_left fun point hpoint => if_neg ?_).trans (List.map_id _)
  obtain ⟨c, hc, rfl⟩ := List.mem_map.mp hpoint
  rw [hexText, String.toList_ofList] at hc
  rcases List.mem_cons.mp hc with rfl | hc
  · decide
  · obtain ⟨b, -, hc⟩ := List.mem_flatMap.mp hc
    have hb : b.toNat < 256 := b.toNat_lt
    simp only [List.mem_cons, List.not_mem_nil, or_false] at hc
    rcases hc with rfl | rfl
    · exact hdigit _ (by omega)
    · exact hdigit _ (by omega)

theorem onAscii_ascii : @TextTables.OnAscii TextTables.ascii :=
  @TextTables.OnAscii.mk TextTables.ascii (fun _ _ => rfl) (fun _ _ => rfl)

def shippedDest : PackPath := [ofString "pack"]

theorem resolved_shippedDest : ResolvedPath shippedDest := by
  intro part hpart
  rw [List.mem_singleton.mp hpart]
  exact ⟨by decide, by decide, by decide, by decide⟩

section Witness

/-- One hash for the files and for the values. -/
local instance hexDigest : Sha256 := .ofBytes hexText

attribute [local instance] TextTables.ascii

local instance plainDecimal : DecimalFloat := ⟨fun _ => .nan⟩

/-- The shipped repository is sealed. -/
theorem shippedRepo_seals : ∃ pack u, buildDeploymentPack shippedDocuments hexText
      (fun _ => shippedRepo) shippedSource shippedDest true
      "0123456789abcdef0123456789abcdef01234567" 0 = .ok (pack, u)
    ∧ SealsPlan shippedRepo shippedSource shippedDest pack
    ∧ pack.closure.routesCompiled = (sortedBy Prod.fst shippedRoutes).map Prod.fst :=
  shipped_repository_seals onAscii_ascii (Sha256.ofBytes_injective hexText_injective)
    lowerCase_hexText hexText_ne_empty resolved_shippedDest (by decide) shippedRepo_sealable shippedRepo_ships
    (NamesChecked.revision names_checked) 0

/-- And proves itself. -/
theorem shippedRepo_proves_itself : ∃ pack u, buildDeploymentPack shippedDocuments hexText
      (fun _ => shippedRepo) shippedSource shippedDest true
      "0123456789abcdef0123456789abcdef01234567" 0 = .ok (pack, u)
    ∧ ProvesItself shippedDocuments hexText (fun _ => shippedRepo) shippedSource shippedDest
      pack := by
  obtain ⟨pack, u, hbuild, -, -⟩ := resting_builds resolved_shippedDest (by decide)
    shippedRepo_sealable (NamesChecked.revision names_checked) (fun tree manifest files h => by
      have hload := (loadTree_eq_ok lowerCase_hexText h.sealed).mpr ⟨h.intact, rfl⟩
      obtain ⟨closure, hclosure, -⟩ := closure_shipped onAscii_ascii
        (Sha256.ofBytes_injective hexText_injective) hload
        (served_ships h shippedRepo_sealable shippedRepo_ships hexText_ne_empty)
      exact ⟨closure, hclosure⟩) 0
  exact ⟨pack, u, hbuild,
    sealed_pack_proves_itself lowerCase_hexText resolved_shippedDest hbuild⟩

end Witness

end CognitiveRuntime
