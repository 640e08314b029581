import CognitiveRuntime.Pack.Deployment
import CognitiveRuntime.Properties.ManifestBinding
import CognitiveRuntime.Properties.SemanticDigest

/-!
# Loading a sealed tree

A tree that carries a manifest of its files loads exactly when every file
stands where the manifest lists it, with the digest it lists, and then the
verified read gives back just the listed files.
-/

namespace CognitiveRuntime

open PyStr (ofString)
open Access Ordered

/-! ## Paths -/

/-- A part of a resolved path. -/
structure NamePart (part : PyStr) : Prop where
  nonempty : part ≠ []
  plain : slash ∉ part
  here : part ≠ ofString "."
  up : part ≠ ofString ".."

/-- A path without links in it. -/
def ResolvedPath (path : PackPath) : Prop := ∀ part ∈ path, NamePart part

theorem collapse_of_plain {parts : List PyStr} (h : ofString ".." ∉ parts) :
    collapse parts = parts := by
  have hfold : ∀ (parts path : List PyStr), ofString ".." ∉ parts →
      parts.foldl (fun path part =>
        if part = ofString ".." then path.dropLast else path ++ [part]) path = path ++ parts := by
    intro parts
    induction parts with
    | nil => intro path _; simp
    | cons part rest ih =>
        intro path h
        rw [List.mem_cons, not_or] at h
        rw [List.foldl_cons, if_neg (Ne.symm h.1), ih _ h.2, List.append_assoc,
          List.singleton_append]
  exact hfold parts [] h

theorem ResolvedPath.plain {path : PackPath} (h : ResolvedPath path) : ofString ".." ∉ path :=
  fun hup => (h _ hup).up rfl

theorem collapse_append {root : PackPath} (hroot : ResolvedPath root) {parts : List PyStr}
    (h : ofString ".." ∉ parts) : collapse (root ++ parts) = root ++ parts :=
  collapse_of_plain (by simpa using ⟨hroot.plain, h⟩)

theorem pathText_eq_intercalate {path : PackPath} (hpath : path ≠ []) :
    pathText path = slash :: [slash].intercalate path := by
  unfold pathText
  rw [if_neg hpath]
  induction path with
  | nil => exact absurd rfl hpath
  | cons part rest ih =>
      cases rest with
      | nil => simp [List.intercalate]
      | cons next rest =>
          have hrest := ih (by simp)
          rw [List.flatMap_cons, hrest]
          simp [List.intercalate]

/-- A resolved path is the parts of its text. -/
theorem pathParts_pathText {path : PackPath} (hpath : ResolvedPath path) :
    pathParts (pathText path) = path := by
  by_cases hempty : path = []
  · subst hempty
    decide
  · have hsplit : (pathText path).splitOn slash = [] :: path := by
      rw [pathText_eq_intercalate hempty, List.splitOn_cons_eq_if_modifyHead,
        if_pos (beq_self_eq_true slash),
        List.splitOn_intercalate slash (fun part h => (hpath part h).plain) hempty]
    unfold pathParts
    rw [hsplit, List.filter_cons_of_neg (by simp), List.filter_eq_self]
    intro part hpart
    have hname := hpath part hpart
    simp [hname.nonempty, hname.here]

theorem pathText_start (path : PackPath) : (pathText path).head? = some slash := by
  by_cases hempty : path = []
  · subst hempty
    rfl
  · rw [pathText_eq_intercalate hempty, List.head?_cons]

theorem blankRef_pathText (path : PackPath) : blankRef (pathText path) = false := by
  have hstart := pathText_start path
  cases htext : pathText path with
  | nil => rw [htext] at hstart; cases hstart
  | cons c rest =>
      rw [htext, List.head?_cons, Option.some.injEq] at hstart
      subst hstart
      unfold blankRef
      rw [List.all_cons]
      have hslash : (slash.char?).any isSpace = false := by decide
      rw [hslash, Bool.false_and]

/-! ## The manifest -/

section Manifest

variable {hash : ByteArray → String} {manifest : List (String × Json)}

theorem universalNewlines_of_not_mem {text : List Char} (h : '\r' ∉ text) :
    universalNewlines text = text := by
  induction text with
  | nil => rfl
  | cons c rest ih =>
      rw [List.mem_cons, not_or] at h
      have hc : c ≠ '\r' := Ne.symm h.1
      rw [universalNewlines, ih h.2]
      · intro _ hreturn
        exact absurd hreturn hc
      · exact hc

/-- A manifest reads back as what was written, in key order. -/
theorem manifestValue_manifestBytes [DecimalFloat] (hfloat : (Json.obj manifest).floatFree = true)
    (hkeys : (Json.obj manifest).distinctKeys = true) :
    manifestValue (manifestBytes manifest) = some (Json.obj manifest).normalize.toPy := by
  have hlines : '\r' ∉ ((Json.obj manifest).dumpsIndented ++ "\n").toList := by
    rw [String.toList_append, List.mem_append, not_or]
    exact ⟨Json.return_not_mem_dumpsIndented hfloat, by decide⟩
  unfold manifestValue manifestBytes
  rw [fromUTF8?_toUTF8, Option.bind_some, universalNewlines_of_not_mem hlines,
    String.toList_append]
  exact JsonReader.loads_dumpsIndented_append hfloat hkeys
    (JsonReader.endsNumber_cons rfl (by decide) (by decide) (by decide)) rfl

/-- What a document holds under a key, read back. -/
theorem get?_normalize_toPy (entries : List (String × Json)) (key : String) :
    Payload.get? (Json.toPyEntries (sortedBy Prod.fst (entries.map fun e =>
      (e.1, Json.normalize e.2)))) key
      = ((Json.field key entries).map Json.normalize).map Json.toPy := by
  rw [Payload.get?_toPyEntries, Json.field_sortedBy, Json.field_map]

/-- The entry of a file, as the manifest holds it. -/
def SealedFile.entry (hash : ByteArray → String) (file : SealedFile) : PyJson :=
  (file.toJson hash).normalize.toPy

theorem entryDigest_entry (file : SealedFile) :
    entryDigest (file.entry hash) = some (ofString file.path, ofString (hash file.data)) := by
  unfold SealedFile.entry SealedFile.toJson
  rw [Json.normalize_obj, Json.toPy]
  simp only [entryDigest, Payload.string?, get?_normalize_toPy]
  simp [Json.field, Json.normalize_str, Json.toPy]

theorem manifestEntry_entry (file : SealedFile) (t : Nat) : manifestEntry (file.entry hash) t
    = .ok ((ofString file.path, ofString (hash file.data)), t) :=
  manifestEntry_eq_ok.mpr ⟨entryDigest_entry file, rfl⟩

end Manifest

/-! ## Verification -/

/-- Digests are lower-case text. -/
def LowerCase (hash : ByteArray → String) : Prop :=
  ∀ data, lowerDigest (ofString (hash data)) = ofString (hash data)

/-- A listed file stands at its place with the listed digest. -/
structure Intact (hash : ByteArray → String) (tree : FileTree) (root : PackPath)
    (file : SealedFile) : Prop where
  relative : startsAbsolute (ofString file.path) = false
  inside : ofString ".." ∉ pathParts (ofString file.path)
  stored : ∃ data, tree.read (root ++ pathParts (ofString file.path)) = some data
    ∧ hash data = hash file.data

/-- The digests the loader records. -/
def recordedDigests (hash : ByteArray → String) (files : List SealedFile) (digests : FileDigests) :
    FileDigests :=
  files.foldl (fun digests file => digests.put (ofString file.path) (hash file.data)) digests

section Verify

variable {hash : ByteArray → String} {tree : FileTree} {root : PackPath}

theorem listed_iff (hlower : LowerCase hash) {data data' : ByteArray} :
    Listed (ofString (hash data)) (hash data') ↔ hash data' = hash data := by
  unfold Listed
  rw [hlower data, or_self]
  exact ⟨PyStr.ofString_inj, congrArg ofString⟩

theorem safeJoin_eq_ok (hroot : ResolvedPath root) {relative : PyStr} {target : PackPath}
    {t u : Nat} : safeJoin (fun _ => tree.directory) root relative t = .ok (target, u)
      ↔ startsAbsolute relative = false ∧ ofString ".." ∉ pathParts relative
        ∧ target = root ++ pathParts relative ∧ u = t + 2 := by
  unfold safeJoin below
  simp only [bind_eq_ok, check_eq_ok, demand_eq_ok, pure_eq_ok, FileTree.directory,
    Option.some.injEq, Bool.and_eq_true, Bool.not_eq_true']
  constructor
  · rintro ⟨_, _, ⟨⟨habsolute, hup⟩, rfl⟩, candidate, _, ⟨rfl, rfl⟩, _, _, ⟨rfl, rfl⟩, _, _,
      ⟨-, rfl⟩, rfl, rfl⟩
    have hup : ofString ".." ∉ pathParts relative := by simpa using hup
    exact ⟨habsolute, hup, collapse_append hroot hup, rfl⟩
  · rintro ⟨habsolute, hup, rfl, rfl⟩
    refine ⟨(), t, ⟨⟨habsolute, by simpa using hup⟩, rfl⟩, _, _,
      ⟨collapse_append hroot hup, rfl⟩, root, _, ⟨collapse_of_plain hroot.plain, rfl⟩, (), _,
      ⟨?_, rfl⟩, rfl, rfl⟩
    exact List.isPrefixOf_iff_prefix.mpr (List.prefix_append root _)

/-- One listed file. -/
theorem verifyFiles_entry (hlower : LowerCase hash) (hroot : ResolvedPath root)
    {file : SealedFile} (hname : ofString file.path ≠ manifestName) {rest : List PyJson}
    {d d' : FileDigests} {t u : Nat} :
    verifyFiles (fun _ => tree.directory) hash root (file.entry hash :: rest) d t = .ok (d', u)
      ↔ Intact hash tree root file ∧ verifyFiles (fun _ => tree.directory) hash root rest
        (d.put (ofString file.path) (hash file.data)) (t + 4) = .ok (d', u) := by
  rw [verifyFiles, bind_eq_ok]
  simp only [manifestEntry_entry, Except.ok.injEq, Prod.mk.injEq]
  constructor
  · rintro ⟨_, s, ⟨rfl, rfl⟩, h⟩
    simp only [if_neg hname, bind_eq_ok, safeJoin_eq_ok hroot, ask_eq_ok, check_eq_ok,
      demand_eq_ok, decide_eq_true_eq, listed_iff hlower] at h
    obtain ⟨target, _, ⟨hrelative, hup, rfl, rfl⟩, _, _, ⟨-, rfl⟩, _, _, ⟨-, rfl⟩, data, _,
      ⟨hread, rfl⟩, _, _, ⟨hdigest, rfl⟩, hrest⟩ := h
    rw [hdigest] at hrest
    exact ⟨⟨hrelative, hup, data, hread, hdigest⟩, hrest⟩
  · rintro ⟨⟨hrelative, hup, data, hread, hdigest⟩, hrest⟩
    refine ⟨_, t, ⟨rfl, rfl⟩, ?_⟩
    simp only [if_neg hname, bind_eq_ok, safeJoin_eq_ok hroot, ask_eq_ok, check_eq_ok,
      demand_eq_ok, decide_eq_true_eq, listed_iff hlower]
    have hfile : tree.directory.isFile (root ++ pathParts (ofString file.path)) = true := by
      show (tree.read _).isSome = true
      rw [hread, Option.isSome_some]
    rw [← hdigest] at hrest
    exact ⟨_, t + 2, ⟨hrelative, hup, rfl, rfl⟩, true, t + 3, ⟨hfile, rfl⟩, (), t + 3, ⟨rfl, rfl⟩,
      data, t + 4, ⟨hread, rfl⟩, (), t + 4, ⟨hdigest, rfl⟩, hrest⟩

/-- The loader accepts a list of files exactly when each is intact, and
records each under its path. -/
theorem verifyFiles_eq_ok (hlower : LowerCase hash) (hroot : ResolvedPath root)
    {files : List SealedFile} (hfiles : ∀ file ∈ files, ofString file.path ≠ manifestName)
    {d d' : FileDigests} {t u : Nat} :
    verifyFiles (fun _ => tree.directory) hash root (files.map (SealedFile.entry hash)) d t
        = .ok (d', u)
      ↔ (∀ file ∈ files, Intact hash tree root file) ∧ d' = recordedDigests hash files d
        ∧ u = t + 4 * files.length := by
  induction files generalizing d t with
  | nil =>
      rw [List.map_nil, verifyFiles, pure_eq_ok]
      simp [recordedDigests, eq_comm]
  | cons file rest ih =>
      have hname := hfiles file List.mem_cons_self
      rw [List.map_cons, verifyFiles_entry hlower hroot hname,
        ih fun f hf => hfiles f (List.mem_cons_of_mem _ hf), List.forall_mem_cons,
        List.length_cons, ← and_assoc]
      have hcount : t + 4 + 4 * rest.length = t + 4 * (rest.length + 1) := by omega
      rw [hcount]
      rfl

end Verify

/-! ## Loading -/

/-- A tree that carries a manifest of the files. -/
structure SealedAt (hash : ByteArray → String) (tree : FileTree) (root : PackPath)
    (manifest : List (String × Json)) (files : List SealedFile) : Prop where
  resolved : ResolvedPath root
  isDir : tree.isDir root = true
  stored : tree.read (root ++ [manifestName]) = some (manifestBytes manifest)
  floatFree : (Json.obj manifest).floatFree = true
  distinctKeys : (Json.obj manifest).distinctKeys = true
  lists : Json.field "files" manifest = some (.arr (files.map (SealedFile.toJson hash)))
  named : ∀ file ∈ files, ofString file.path ≠ manifestName

/-- What loading such a tree gives. -/
def sealedLoad (hash : ByteArray → String) (root : PackPath) (manifest : List (String × Json))
    (files : List SealedFile) : LoadedPack where
  provenance :=
    { packRef := pathText root
      root := root
      manifestDigest := hash (manifestBytes manifest)
      fileDigests := recordedDigests hash files [] }
  manifest := Json.toPyEntries (sortedBy Prod.fst (manifest.map fun e => (e.1, Json.normalize e.2)))

section Loads

variable [DecimalFloat] {hash : ByteArray → String} {tree : FileTree} {root : PackPath}
  {manifest : List (String × Json)} {files : List SealedFile}

theorem SealedAt.value (h : SealedAt hash tree root manifest files) :
    manifestValue (manifestBytes manifest) = some (.obj (sealedLoad hash root manifest files).manifest) := by
  rw [manifestValue_manifestBytes h.floatFree h.distinctKeys, Json.normalize_obj, Json.toPy]
  rfl

omit [DecimalFloat] in
theorem SealedAt.get?_files (h : SealedAt hash tree root manifest files) :
    Payload.get? (sealedLoad hash root manifest files).manifest "files"
      = some (.arr (files.map (SealedFile.entry hash))) := by
  unfold sealedLoad
  rw [get?_normalize_toPy, h.lists, Option.map_some, Option.map_some, Json.normalize_arr,
    Json.toPy, Json.toPyItems_eq, List.map_map, List.map_map]
  rfl

theorem loadPack_sealed (hlower : LowerCase hash) (h : SealedAt hash tree root manifest files)
    {pack : LoadedPack} {u : Nat} :
    loadPack hash (fun _ => tree.directory) (some (pathText root)) 0 = .ok (pack, u)
      ↔ (∀ file ∈ files, Intact hash tree root file) ∧ pack = sealedLoad hash root manifest files
        ∧ u = 5 + 4 * files.length := by
  have href : tree.directory.resolveRef (pathText root) = some root := by
    simp only [FileTree.directory, pathText_start, if_true, pathParts_pathText h.resolved,
      collapse_of_plain h.resolved.plain]
  have hisFile : tree.directory.isFile (root ++ [manifestName]) = true := by
    show (tree.read _).isSome = true
    rw [h.stored, Option.isSome_some]
  simp only [loadPack, bind_eq_ok, found_eq_ok, demand_eq_ok, ask_eq_ok, check_eq_ok, pure_eq_ok,
    readManifest_eq_ok, manifestFiles_eq_ok]
  constructor
  · rintro ⟨ref, _, ⟨hgiven, rfl⟩, root', _, ⟨hroot', rfl⟩, _, _, ⟨-, rfl⟩, _, _, ⟨-, rfl⟩, _, _,
      ⟨-, rfl⟩, _, _, ⟨-, rfl⟩, bytes, _, ⟨hbytes, rfl⟩, manifest', _, ⟨hmanifest', rfl⟩, files', _,
      ⟨hfiles', rfl⟩, digests, s, hverify, bytes', _, ⟨hbytes', rfl⟩, rfl, rfl⟩
    obtain rfl := (Option.some.inj (Option.filter_eq_some_iff.mp hgiven).1).symm
    obtain rfl := Option.some.inj (href.symm.trans hroot')
    obtain rfl := Option.some.inj (h.stored.symm.trans hbytes)
    obtain rfl := Option.some.inj (h.stored.symm.trans hbytes')
    obtain rfl := PyJson.obj.inj (Option.some.inj (h.value.symm.trans hmanifest'))
    obtain rfl := PyJson.arr.inj (Option.some.inj (h.get?_files.symm.trans hfiles'))
    obtain ⟨hintact, rfl, rfl⟩ := (verifyFiles_eq_ok hlower h.resolved h.named).mp hverify
    exact ⟨hintact, rfl, by omega⟩
  · rintro ⟨hintact, rfl, rfl⟩
    have hgiven : (some (pathText root)).filter (!blankRef ·) = some (pathText root) :=
      Option.filter_some_pos (by rw [blankRef_pathText]; rfl)
    have hverify := (verifyFiles_eq_ok hlower h.resolved h.named (d := []) (t := 4)).mpr
      ⟨hintact, rfl, rfl⟩
    exact ⟨_, 0, ⟨hgiven, rfl⟩, root, 1, ⟨href, rfl⟩, true, 2, ⟨h.isDir, rfl⟩, (), 2, ⟨rfl, rfl⟩,
      true, 3, ⟨hisFile, rfl⟩, (), 3, ⟨rfl, rfl⟩, _, 4, ⟨h.stored, rfl⟩, _, 4, ⟨h.value, rfl⟩, _, 4,
      ⟨h.get?_files, rfl⟩, _, _, hverify, _, _, ⟨h.stored, rfl⟩, rfl, by omega⟩

/-- A sealed tree loads exactly when every file it lists is intact. -/
theorem loadTree_eq_ok (hlower : LowerCase hash) (h : SealedAt hash tree root manifest files)
    {pack : LoadedPack} : loadTree hash tree root = .ok pack
      ↔ (∀ file ∈ files, Intact hash tree root file)
        ∧ pack = sealedLoad hash root manifest files := by
  unfold loadTree
  constructor
  · intro hload
    cases hresult : loadPack hash (fun _ => tree.directory) (some (pathText root)) 0 with
    | error fault => rw [hresult] at hload; cases hload
    | ok result =>
        rw [hresult] at hload
        obtain rfl := Except.ok.inj hload
        obtain ⟨hintact, hpack, -⟩ := (loadPack_sealed hlower h).mp hresult
        exact ⟨hintact, hpack⟩
  · rintro ⟨hintact, rfl⟩
    rw [(loadPack_sealed hlower h).mpr ⟨hintact, rfl, rfl⟩]

end Loads

/-! ## Verified reads -/

section Reads

variable {hash : ByteArray → String} {tree tree' : FileTree}
  {root : PackPath} {manifest manifest' : List (String × Json)} {files : List SealedFile}

theorem get?_recorded_of_unlisted {path : PyStr} (h : ∀ file ∈ files, ofString file.path ≠ path)
    (d : FileDigests) : (recordedDigests hash files d).get? path = d.get? path := by
  induction files generalizing d with
  | nil => rfl
  | cons file rest ih =>
      rw [List.forall_mem_cons] at h
      unfold recordedDigests at ih ⊢
      rw [List.foldl_cons, ih h.2, FileDigests.get?_put, if_neg h.1]

theorem get?_recorded (hnodup : (files.map SealedFile.path).Nodup) {file : SealedFile}
    (hfile : file ∈ files) (d : FileDigests) :
    (recordedDigests hash files d).get? (ofString file.path) = some (hash file.data) := by
  induction files generalizing d with
  | nil => cases hfile
  | cons first rest ih =>
      rw [List.map_cons, List.nodup_cons] at hnodup
      rcases List.mem_cons.mp hfile with rfl | hfile
      · have hrest : ∀ other ∈ rest, ofString other.path ≠ ofString file.path :=
          fun other hother hsame => hnodup.1
            (List.mem_map.mpr ⟨other, hother, PyStr.ofString_inj hsame⟩)
        have hlast : ∀ d, (recordedDigests hash rest d).get? (ofString file.path)
            = d.get? (ofString file.path) := get?_recorded_of_unlisted hrest
        unfold recordedDigests at hlast ⊢
        rw [List.foldl_cons, hlast, FileDigests.get?_put, if_pos rfl]
      · exact ih hnodup.2 hfile _

/-- A file that is not listed cannot be read. -/
theorem readVerified_unlisted {path : PyStr} (h : ∀ file ∈ files, ofString file.path ≠ path)
    (t : Nat) :
    (sealedLoad hash root manifest files).readVerified (fun _ => tree.directory) hash path t
      = .error (refused "pack file is not listed in the verified manifest" path) := by
  have hnone : (sealedLoad hash root manifest files).provenance.fileDigests.get? path = none :=
    get?_recorded_of_unlisted h []
  unfold LoadedPack.readVerified
  rw [hnone]
  rfl

/-- A listed file reads as bytes of the listed digest. -/
theorem readVerified_listed (h : SealedAt hash tree root manifest files)
    (hnodup : (files.map SealedFile.path).Nodup) {file : SealedFile} (hfile : file ∈ files)
    (hintact : Intact hash tree root file) (t : Nat) :
    ∃ data, (sealedLoad hash root manifest files).readVerified (fun _ => tree.directory) hash
        (ofString file.path) t = .ok (data, t + 4)
      ∧ tree.read (root ++ pathParts (ofString file.path)) = some data
      ∧ hash data = hash file.data := by
  obtain ⟨hrelative, hup, data, hread, hdigest⟩ := hintact
  refine ⟨data, ?_, hread, hdigest⟩
  have hnonempty : ofString file.path ≠ [] := by
    intro hempty
    rw [hempty] at hread
    have hroot : tree.read root = some data := by simpa [pathParts, List.splitOn_nil] using hread
    have hdir := h.isDir
    unfold FileTree.read at hroot
    unfold FileTree.isDir at hdir
    cases hentry : tree root with
    | none => rw [hentry] at hroot; cases hroot
    | some entry =>
        cases entry with
        | dir => rw [hentry] at hroot; cases hroot
        | file _ => rw [hentry] at hdir; cases hdir
  have hpresent : tree.directory.present (root ++ pathParts (ofString file.path)) = true := by
    show (tree _).isSome = true
    unfold FileTree.read at hread
    cases hentry : tree (root ++ pathParts (ofString file.path)) with
    | none => rw [hentry] at hread; cases hread
    | some entry => rfl
  have hdirectory : tree.directory.resolve (root ++ pathParts (ofString file.path))
      = some (root ++ pathParts (ofString file.path)) :=
    congrArg some (collapse_append h.resolved hup)
  have hresolved : tree.directory.resolve root = some root :=
    congrArg some (collapse_of_plain h.resolved.plain)
  unfold LoadedPack.readVerified LoadedPack.resolve below
  simp only [bind_eq_ok, found_eq_ok, check_eq_ok, demand_eq_ok, ask_eq_ok, pure_eq_ok,
    decide_eq_true_eq, Bool.and_eq_true, Bool.not_eq_true', decide_eq_true_eq]
  refine ⟨hash file.data, t, ⟨get?_recorded hnodup hfile [], rfl⟩, _, t + 3,
    ⟨(), t, ⟨⟨hnonempty, hrelative⟩, rfl⟩, _, t + 1, ⟨hdirectory, rfl⟩, root, t + 2,
      ⟨hresolved, rfl⟩, _, t + 2, ⟨(), t + 2, ⟨?_, rfl⟩, rfl, rfl⟩, true, t + 3,
      ⟨hpresent, rfl⟩, (), t + 3, ⟨rfl, rfl⟩, rfl, rfl⟩, data, t + 4, ⟨hread, rfl⟩, (), t + 4,
    ⟨hdigest, rfl⟩, rfl, rfl⟩
  exact List.isPrefixOf_iff_prefix.mpr (List.prefix_append root _)

/-- What the compiler can read of a sealed pack: the listed files. -/
theorem contents_listed (h : SealedAt hash tree root manifest files)
    (hnodup : (files.map SealedFile.path).Nodup) {file : SealedFile} (hfile : file ∈ files)
    (hintact : Intact hash tree root file) :
    (sealedLoad hash root manifest files).contents hash tree file.path
      = tree.read (root ++ pathParts (ofString file.path)) := by
  obtain ⟨data, hread, hstored, -⟩ := readVerified_listed h hnodup hfile hintact 0
  unfold LoadedPack.contents
  rw [hread, hstored]

theorem contents_unlisted {path : String} (h : path ∉ files.map SealedFile.path) :
    (sealedLoad hash root manifest files).contents hash tree path = none := by
  have hpaths : ∀ file ∈ files, ofString file.path ≠ ofString path := fun file hfile hsame =>
    h (List.mem_map.mpr ⟨file, hfile, PyStr.ofString_inj hsame⟩)
  unfold LoadedPack.contents
  rw [readVerified_unlisted hpaths 0]

/-- Bytes the compiler is given have the digest of the manifest. -/
theorem textBytes_bytesText (data : ByteArray) : textBytes (bytesText data) = data := by
  obtain ⟨bytes⟩ := data
  have hbyte : ∀ b : UInt8, UInt8.ofNat (Char.ofNat b.toNat).toNat = b := by
    intro b
    have hvalid : b.toNat.isValidChar := .inl (by have := b.toNat_lt; omega)
    have hval : (Char.ofNat b.toNat).toNat = b.toNat := by
      unfold Char.ofNat
      rw [dif_pos hvalid]
      rfl
    rw [hval, UInt8.ofNat_toNat]
  unfold textBytes bytesText
  rw [String.toList_ofList, List.map_map]
  simp [Function.comp_def, hbyte]

/-- A second manifest over the same files leaves the compiler the same
pack under another digest. -/
theorem served_resealed (documents : PackDocuments)
    (h : SealedAt hash tree root manifest files)
    (h' : SealedAt hash tree' root manifest' files) (hnodup : (files.map SealedFile.path).Nodup)
    (hintact : ∀ file ∈ files, Intact hash tree root file)
    (hplaced : ∀ file ∈ files, pathParts (ofString file.path) ≠ [manifestName])
    (hsame : ∀ path, path ≠ root ++ [manifestName] → tree' path = tree path) :
    (∀ file ∈ files, Intact hash tree' root file)
      ∧ (sealedLoad hash root manifest' files).served documents hash tree'
        = { (sealedLoad hash root manifest files).served documents hash tree with
            manifestDigest := hash (manifestBytes manifest') } := by
  have hread : ∀ path, path ≠ root ++ [manifestName] → tree'.read path = tree.read path := by
    intro path hpath
    unfold FileTree.read
    rw [hsame path hpath]
  have htarget : ∀ file ∈ files, root ++ pathParts (ofString file.path) ≠ root ++ [manifestName] :=
    fun file hfile heq => hplaced file hfile (List.append_cancel_left heq)
  have hintact' : ∀ file ∈ files, Intact hash tree' root file := by
    intro file hfile
    obtain ⟨hrelative, hup, data, hstored, hdigest⟩ := hintact file hfile
    exact ⟨hrelative, hup, data, (hread _ (htarget file hfile)).trans hstored, hdigest⟩
  have hcontents : (sealedLoad hash root manifest' files).contents hash tree'
      = (sealedLoad hash root manifest files).contents hash tree := by
    funext path
    by_cases hpath : path ∈ files.map SealedFile.path
    · obtain ⟨file, hfile, rfl⟩ := List.mem_map.mp hpath
      rw [contents_listed h' hnodup hfile (hintact' file hfile),
        contents_listed h hnodup hfile (hintact file hfile), hread _ (htarget file hfile)]
    · rw [contents_unlisted hpath, contents_unlisted hpath]
  have hisFile : ∀ path, (tree'.read path).isSome = (tree.read path).isSome := by
    intro path
    by_cases hpath : path = root ++ [manifestName]
    · rw [hpath, h'.stored, h.stored]
      rfl
    · rw [hread path hpath]
  refine ⟨hintact', ?_⟩
  unfold LoadedPack.served
  rw [hcontents]
  simp only [hisFile]
  rfl

end Reads

end CognitiveRuntime
