import CognitiveRuntime.Pack.Loader

/-!
# What the manifest digest binds

Loading reads the manifest once for its entries and once more for its
digest. Every listed file is hashed as it is read and read again through
its digest, so nothing the manifest listed can change unnoticed; the
manifest itself is bound only as far as the two readings agree.
-/

namespace CognitiveRuntime

open PyStr (ofString)
open Access

/-! ## The listed digest -/

/-- The path and the digest an entry lists. -/
def entryDigest : PyJson → Option (PyStr × PyStr)
  | .obj fields =>
      match Payload.string? fields "path", Payload.string? fields "sha256" with
      | some path, some digest => some (path, digest)
      | _, _ => none
  | _ => none

/-- The digest a list of entries gives a path: that of its last entry. -/
def listedDigest (path : PyStr) : List PyJson → Option PyStr
  | [] => none
  | entry :: rest =>
      (listedDigest path rest).or
        (((entryDigest entry).filter fun e => e.1 = path).map Prod.snd)

/-- The digest the bytes of a manifest list for a path. -/
def bytesList [DecimalFloat] (bytes : ByteArray) (path : PyStr) : Option PyStr :=
  match manifestValue bytes with
  | some (.obj manifest) =>
      match Payload.get? manifest "files" with
      | some (.arr files) => listedDigest path files
      | _ => none
  | _ => none

section Files

variable {disk : Nat → Directory} {hash : ByteArray → String} {t u : Nat}

theorem manifestEntry_eq_ok {entry : PyJson} {e : PyStr × PyStr} :
    manifestEntry entry t = .ok (e, u) ↔ entryDigest entry = some e ∧ t = u := by
  cases entry with
  | obj fields =>
      cases hpath : Payload.string? fields "path" <;>
        cases hdigest : Payload.string? fields "sha256" <;>
          simp [manifestEntry, entryDigest, hpath, hdigest]
  | _ => simp [manifestEntry, entryDigest]

theorem manifestFiles_eq_ok {manifest : Payload} {files : List PyJson} :
    manifestFiles manifest t = .ok (files, u)
      ↔ manifest.get? "files" = some (.arr files) ∧ t = u := by
  unfold manifestFiles
  cases hfiles : manifest.get? "files" with
  | none => simp
  | some value => cases value <;> simp

/-- One listed file: it is skipped, or hashed and recorded under its
path. -/
theorem verifyFiles_cons {root : PackPath} {entry : PyJson} {rest : List PyJson}
    {d d' : FileDigests} (h : verifyFiles disk hash root (entry :: rest) d t = .ok (d', u)) :
    ∃ path expected s, entryDigest entry = some (path, expected) ∧ t ≤ s
      ∧ ((path = manifestName ∧ verifyFiles disk hash root rest d s = .ok (d', u))
        ∨ (path ≠ manifestName ∧ ∃ data, Listed expected (hash data)
          ∧ verifyFiles disk hash root rest (d.put path (hash data)) s = .ok (d', u))) := by
  rw [verifyFiles, bind_eq_ok] at h
  obtain ⟨⟨path, expected⟩, s, hread, h⟩ := h
  obtain ⟨hentry, rfl⟩ := manifestEntry_eq_ok.mp hread
  by_cases hpath : path = manifestName
  · simp only [hpath, if_true] at h
    exact ⟨path, expected, t, hentry, Nat.le_refl t, .inl ⟨hpath, h⟩⟩
  · simp only [hpath, if_false, safeJoin, below, bind_eq_ok, ask_eq_ok, demand_eq_ok, check_eq_ok,
      pure_eq_ok, decide_eq_true_eq] at h
    obtain ⟨target, s, hjoin, -, -, ⟨-, rfl⟩, -, -, ⟨-, rfl⟩, data, -, ⟨-, rfl⟩, -, -,
      ⟨hlisted, rfl⟩, hrest⟩ := h
    refine ⟨path, expected, _, hentry, ?_, .inr ⟨hpath, data, hlisted, hrest⟩⟩
    obtain ⟨-, -, ⟨-, rfl⟩, -, -, ⟨-, rfl⟩, -, -, ⟨-, rfl⟩, -, -, ⟨-, rfl⟩, -, rfl⟩ := hjoin
    omega

/-- A recorded digest is the listed one, or was there before. -/
theorem verifyFiles_listed {root : PackPath} {files : List PyJson} {d d' : FileDigests}
    (h : verifyFiles disk hash root files d t = .ok (d', u)) {path : PyStr}
    (hpath : path ≠ manifestName) {digest : String} (hdigest : d'.get? path = some digest) :
    match listedDigest path files with
    | some expected => Listed expected digest
    | none => d.get? path = some digest := by
  induction files generalizing d t with
  | nil =>
      obtain ⟨rfl, -⟩ := pure_eq_ok.mp h
      exact hdigest
  | cons entry rest ih =>
      obtain ⟨p, expected, s, hentry, -, hstep⟩ := verifyFiles_cons h
      rw [listedDigest, hentry]
      rcases hstep with ⟨hp, hrest⟩ | ⟨hp, data, hlisted, hrest⟩
      · have hother : p ≠ path := fun hsame => hpath (hsame ▸ hp)
        have hkept := ih hrest
        rw [Option.filter_some_neg (by simpa using hother), Option.map_none, Option.or_none]
        exact hkept
      · have hkept := ih hrest
        cases hlast : listedDigest path rest with
        | some expected' => rw [hlast] at hkept; exact hkept
        | none =>
            rw [hlast] at hkept
            replace hkept : (d.put p (hash data)).get? path = some digest := hkept
            rw [FileDigests.get?_put] at hkept
            by_cases hsame : p = path
            · rw [if_pos hsame] at hkept
              obtain rfl := Option.some.inj hkept
              rw [Option.filter_some_pos (by simpa using hsame)]
              exact hlisted
            · rw [if_neg hsame] at hkept
              rw [Option.filter_some_neg (by simpa using hsame)]
              exact hkept

/-- The manifest is never recorded among its files. -/
theorem verifyFiles_manifest {root : PackPath} {files : List PyJson} {d d' : FileDigests}
    (h : verifyFiles disk hash root files d t = .ok (d', u)) :
    d'.get? manifestName = d.get? manifestName := by
  induction files generalizing d t with
  | nil =>
      obtain ⟨rfl, -⟩ := pure_eq_ok.mp h
      rfl
  | cons entry rest ih =>
      obtain ⟨p, expected, s, -, -, ⟨-, hrest⟩ | ⟨hp, data, -, hrest⟩⟩ := verifyFiles_cons h
      · exact ih hrest
      · rw [ih hrest, FileDigests.get?_put, if_neg hp]

theorem verifyFiles_le {root : PackPath} {files : List PyJson} {d d' : FileDigests}
    (h : verifyFiles disk hash root files d t = .ok (d', u)) : t ≤ u := by
  induction files generalizing d t with
  | nil => exact (pure_eq_ok.mp h).2.le
  | cons entry rest ih =>
      obtain ⟨p, expected, s, -, hle, ⟨-, hrest⟩ | ⟨-, data, -, hrest⟩⟩ := verifyFiles_cons h
      · exact hle.trans (ih hrest)
      · exact hle.trans (ih hrest)

/-- Bytes read through a pack hash to the digest the pack recorded. -/
theorem readVerified_digest {pack : LoadedPack} {path : PyStr} {data : ByteArray}
    (h : pack.readVerified disk hash path t = .ok (data, u)) :
    pack.provenance.fileDigests.get? path = some (hash data) := by
  simp only [LoadedPack.readVerified, bind_eq_ok, found_eq_ok, demand_eq_ok, check_eq_ok,
    pure_eq_ok, decide_eq_true_eq] at h
  obtain ⟨expected, -, ⟨hexpected, rfl⟩, -, -, -, _, -, -, -, -, ⟨hactual, -⟩, rfl, -⟩ := h
  rw [hexpected, hactual]

end Files

/-! ## Loading -/

/-- The accesses of a load that returned: the manifest is parsed from the
fourth and hashed from the last. -/
structure LoadedFrom [DecimalFloat] (hash : ByteArray → String) (disk : Nat → Directory)
    (t u : Nat) (pack : LoadedPack) (parsed hashed : ByteArray) : Prop where
  first : (disk (t + 3)).read (pack.provenance.root ++ [manifestName]) = some parsed
  last : (disk (u - 1)).read (pack.provenance.root ++ [manifestName]) = some hashed
  order : t + 3 < u - 1
  manifest : manifestValue parsed = some (.obj pack.manifest)
  digest : pack.provenance.manifestDigest = hash hashed
  files : ∀ path digest, pack.provenance.fileDigests.get? path = some digest →
    ∃ expected, bytesList parsed path = some expected ∧ Listed expected digest

section Loads

variable [DecimalFloat] {hash : ByteArray → String} {disk : Nat → Directory}
  {packRef : Option PyStr} {pack : LoadedPack} {t u : Nat}

theorem readManifest_eq_ok {path : PyStr} {bytes : ByteArray} {manifest : Payload} :
    readManifest path bytes t = .ok (manifest, u)
      ↔ manifestValue bytes = some (.obj manifest) ∧ t = u := by
  unfold readManifest manifestValue
  cases htext : String.fromUTF8? bytes with
  | none => simp
  | some text =>
      simp only [bind_eq_ok, found_eq_ok, Option.some.injEq, Option.bind_some]
      cases hvalue : JsonReader.loads (universalNewlines text.toList) with
      | none => simp [hvalue]
      | some value => cases value <;> simp [hvalue]

theorem loadPack_loadedFrom (h : loadPack hash disk packRef t = .ok (pack, u)) :
    ∃ parsed hashed, LoadedFrom hash disk t u pack parsed hashed := by
  simp only [loadPack, bind_eq_ok, found_eq_ok, demand_eq_ok, ask_eq_ok, check_eq_ok,
    pure_eq_ok, readManifest_eq_ok, manifestFiles_eq_ok] at h
  obtain ⟨ref, _, ⟨-, rfl⟩, root, _, ⟨-, rfl⟩, _, _, ⟨-, rfl⟩, _, _, ⟨-, rfl⟩, _, _, ⟨-, rfl⟩,
    _, _, ⟨-, rfl⟩, parsed, _, ⟨hparsed, rfl⟩, manifest, _, ⟨hmanifest, rfl⟩, files, _,
    ⟨hfiles, rfl⟩, digests, s, hverify, hashed, _, ⟨hhashed, rfl⟩, rfl, rfl⟩ := h
  refine ⟨parsed, hashed, hparsed, hhashed, ?_, hmanifest, rfl, fun path digest hdigest => ?_⟩
  · have hle := verifyFiles_le hverify
    omega
  · have hpath : path ≠ manifestName := by
      rintro rfl
      rw [verifyFiles_manifest hverify] at hdigest
      cases hdigest
    have hlisted := verifyFiles_listed hverify hpath hdigest
    have hbytes : bytesList parsed path = listedDigest path files := by
      unfold bytesList
      rw [hmanifest]
      simp only [hfiles]
    rw [hbytes]
    cases hlast : listedDigest path files with
    | none => rw [hlast] at hlisted; cases hlisted
    | some expected => rw [hlast] at hlisted; exact ⟨expected, rfl, hlisted⟩

/-- The digest of a pack and its later reads are those of the bytes its
manifest was parsed from. -/
structure ManifestBound (hash : ByteArray → String) (disk : Nat → Directory) (u : Nat)
    (pack : LoadedPack) (parsed : ByteArray) : Prop where
  digest : pack.provenance.manifestDigest = hash parsed
  reads : ∀ s v path data, u ≤ s → pack.readVerified disk hash path s = .ok (data, v) →
    ∃ expected, bytesList parsed path = some expected ∧ Listed expected (hash data)

/-- A pack that was loaded is bound to the manifest it was parsed from
exactly when the manifest, read again to be hashed, has the same hash. -/
theorem manifest_digest_binds_iff (h : loadPack hash disk packRef t = .ok (pack, u)) :
    ∃ parsed hashed, LoadedFrom hash disk t u pack parsed hashed
      ∧ (ManifestBound hash disk u pack parsed ↔ hash hashed = hash parsed) := by
  obtain ⟨parsed, hashed, hloaded⟩ := loadPack_loadedFrom h
  refine ⟨parsed, hashed, hloaded, fun hbound => hloaded.digest ▸ hbound.digest, fun hsame =>
    ⟨hloaded.digest.trans hsame, fun _ _ path data _ hread => ?_⟩⟩
  exact hloaded.files path (hash data) (readVerified_digest hread)

end Loads

/-! ## A manifest rewritten between its two readings -/

/-- The bytes of a manifest that lists nothing, with or without a note. -/
def emptyManifest (note : List (String × Json)) : ByteArray :=
  (String.ofList (Json.render .plain (.obj (("files", .arr []) :: note)))).toUTF8

/-- A directory whose manifest changes before the fifth access. -/
def rewrittenDisk (before after : ByteArray) : Nat → Directory := fun t =>
  { resolveRef := fun ref => some [ref]
    resolve := some
    isDir := fun _ => true
    isFile := fun _ => true
    present := fun _ => true
    read := fun _ => some (if t < 4 then before else after) }

/-- The text itself in place of its hash. -/
def textHash (bytes : ByteArray) : String := (String.fromUTF8? bytes).getD ""

def rewrittenPack (after : ByteArray) : LoadedPack where
  provenance :=
    { packRef := pathText [ofString "pack"]
      root := [ofString "pack"]
      manifestDigest := textHash after
      fileDigests := [] }
  manifest := [(ofString "files", .arr [])]

theorem textHash_emptyManifest (note : List (String × Json)) : textHash (emptyManifest note)
    = String.ofList (Json.render .plain (.obj (("files", .arr []) :: note))) := by
  unfold textHash emptyManifest
  rw [fromUTF8?_toUTF8, Option.getD_some]

theorem manifestValue_emptyManifest [DecimalFloat] :
    manifestValue (emptyManifest []) = some (.obj [(ofString "files", .arr [])]) := by
  have hlines : universalNewlines (Json.render .plain (.obj [("files", .arr [])]))
      = Json.render .plain (.obj [("files", .arr [])]) := by decide
  unfold manifestValue emptyManifest
  rw [fromUTF8?_toUTF8, Option.bind_some, String.toList_ofList, hlines]
  exact JsonReader.loads_render .plain (by decide) (by decide)

theorem loadPack_rewrittenDisk [DecimalFloat] (after : ByteArray) :
    loadPack textHash (rewrittenDisk (emptyManifest []) after) (some (ofString "pack")) 0
      = .ok (rewrittenPack after, 5) := by
  simp only [loadPack, bind_eq_ok, found_eq_ok, demand_eq_ok, ask_eq_ok, check_eq_ok,
    pure_eq_ok, readManifest_eq_ok, manifestFiles_eq_ok]
  refine ⟨ofString "pack", 0, ⟨by decide, rfl⟩, [ofString "pack"], 1, ⟨rfl, rfl⟩, true, 2,
    ⟨rfl, rfl⟩, (), 2, ⟨rfl, rfl⟩, true, 3, ⟨rfl, rfl⟩, (), 3, ⟨rfl, rfl⟩, emptyManifest [], 4,
    ⟨rfl, rfl⟩, _, 4, ⟨manifestValue_emptyManifest, rfl⟩, [], 4, ⟨rfl, rfl⟩, [], 4, rfl, after, 5,
    ⟨rfl, rfl⟩, rfl, rfl⟩

theorem LoadedFrom.rewritten [DecimalFloat] {hash : ByteArray → String}
    {before after parsed hashed : ByteArray} {pack : LoadedPack}
    (h : LoadedFrom hash (rewrittenDisk before after) 0 5 pack parsed hashed) :
    before = parsed ∧ after = hashed :=
  ⟨Option.some.inj h.first, Option.some.inj h.last⟩

section Readings

/-- The manifest holds no number. -/
local instance : DecimalFloat := ⟨fun _ => .nan⟩

/-- The file that was parsed is not the file that was hashed. -/
theorem rewritten_manifest_unbound :
    ∃ pack parsed hashed,
      loadPack textHash
          (rewrittenDisk (emptyManifest []) (emptyManifest [("note", .str "late")]))
          (some (ofString "pack")) 0 = .ok (pack, 5)
        ∧ LoadedFrom textHash
          (rewrittenDisk (emptyManifest []) (emptyManifest [("note", .str "late")])) 0 5 pack
          parsed hashed
        ∧ pack.provenance.manifestDigest ≠ textHash parsed := by
  have hload := loadPack_rewrittenDisk (emptyManifest [("note", .str "late")])
  obtain ⟨parsed, hashed, hloaded⟩ := loadPack_loadedFrom hload
  obtain ⟨hparsed, hhashed⟩ := hloaded.rewritten
  refine ⟨_, parsed, hashed, hload, hloaded, ?_⟩
  rw [hloaded.digest, ← hparsed, ← hhashed, textHash_emptyManifest, textHash_emptyManifest]
  intro h
  have hchars := congrArg String.toList h
  rw [String.toList_ofList, String.toList_ofList] at hchars
  revert hchars
  decide

end Readings

/-! ## A manifest that stays -/

/-- A manifest that lists one file. -/
def listingManifest : Json :=
  .obj [("files", .arr [.obj [("path", .str "rules.yaml"), ("sha256", .str "lint")]])]

def listingBytes : ByteArray := (String.ofList (Json.render .plain listingManifest)).toUTF8

/-- A directory that does not change: the manifest, and the file it lists. -/
def steadyDisk : Nat → Directory := fun _ =>
  { resolveRef := fun ref => some [ref]
    resolve := some
    isDir := fun _ => true
    isFile := fun _ => true
    present := fun _ => true
    read := fun path =>
      some (if path = [ofString "pack", manifestName] then listingBytes else "lint".toUTF8) }

def steadyPack : LoadedPack where
  provenance :=
    { packRef := pathText [ofString "pack"]
      root := [ofString "pack"]
      manifestDigest := textHash listingBytes
      fileDigests := [(ofString "rules.yaml", textHash "lint".toUTF8)] }
  manifest := [(ofString "files", .arr [.obj [(ofString "path", .str (ofString "rules.yaml")),
    (ofString "sha256", .str (ofString "lint"))]])]

section Steady

/-- The manifest holds no number. -/
local instance numberlessManifest : DecimalFloat := ⟨fun _ => .nan⟩

theorem textHash_lint : textHash "lint".toUTF8 = "lint" := by
  unfold textHash
  rw [fromUTF8?_toUTF8, Option.getD_some]

theorem manifestValue_listing : manifestValue listingBytes = some (.obj steadyPack.manifest) := by
  have hlines : universalNewlines (Json.render .plain listingManifest)
      = Json.render .plain listingManifest := by decide
  unfold manifestValue listingBytes
  rw [fromUTF8?_toUTF8, Option.bind_some, String.toList_ofList, hlines]
  exact JsonReader.loads_render .plain (by decide) (by decide)

theorem steadyDisk_manifest (t : Nat) :
    (steadyDisk t).read ([ofString "pack"] ++ [manifestName]) = some listingBytes :=
  congrArg some (if_pos rfl)

theorem steadyDisk_file (t : Nat) :
    (steadyDisk t).read ([ofString "pack"] ++ pathParts (ofString "rules.yaml"))
      = some "lint".toUTF8 :=
  congrArg some (if_neg (by decide))

theorem verifyFiles_steadyDisk :
    verifyFiles steadyDisk textHash [ofString "pack"]
        [.obj [(ofString "path", .str (ofString "rules.yaml")),
          (ofString "sha256", .str (ofString "lint"))]] [] 4
      = .ok (steadyPack.provenance.fileDigests, 8) := by
  have hlisted : Listed (ofString "lint") (textHash "lint".toUTF8) := by
    rw [textHash_lint]
    decide
  simp only [verifyFiles, bind_eq_ok]
  refine ⟨(ofString "rules.yaml", ofString "lint"), 4, rfl, ?_⟩
  dsimp only
  rw [if_neg (by decide)]
  simp only [safeJoin, below, bind_eq_ok, demand_eq_ok, ask_eq_ok, check_eq_ok, pure_eq_ok]
  exact ⟨_, 6, ⟨(), 4, ⟨by decide, rfl⟩, _, 5, ⟨rfl, rfl⟩, _, 6, ⟨rfl, rfl⟩, (), 6,
    ⟨by decide, rfl⟩, rfl, rfl⟩, true, 7, ⟨rfl, rfl⟩, (), 7, ⟨rfl, rfl⟩, _, 8,
    ⟨steadyDisk_file 7, rfl⟩, (), 8, ⟨decide_eq_true hlisted, rfl⟩, rfl, rfl⟩

theorem loadPack_steadyDisk :
    loadPack textHash steadyDisk (some (ofString "pack")) 0 = .ok (steadyPack, 9) := by
  simp only [loadPack, bind_eq_ok, found_eq_ok, demand_eq_ok, ask_eq_ok, check_eq_ok,
    pure_eq_ok, readManifest_eq_ok, manifestFiles_eq_ok]
  exact ⟨ofString "pack", 0, ⟨by decide, rfl⟩, [ofString "pack"], 1, ⟨rfl, rfl⟩, true, 2,
    ⟨rfl, rfl⟩, (), 2, ⟨rfl, rfl⟩, true, 3, ⟨rfl, rfl⟩, (), 3, ⟨rfl, rfl⟩, listingBytes, 4,
    ⟨steadyDisk_manifest 3, rfl⟩, _, 4, ⟨manifestValue_listing, rfl⟩, _, 4, ⟨rfl, rfl⟩, _, 8,
    verifyFiles_steadyDisk, listingBytes, 9, ⟨steadyDisk_manifest 8, rfl⟩, rfl, rfl⟩

theorem readVerified_steadyDisk :
    steadyPack.readVerified steadyDisk textHash (ofString "rules.yaml") 9
      = .ok ("lint".toUTF8, 13) := by
  simp only [LoadedPack.readVerified, LoadedPack.resolve, below, bind_eq_ok, found_eq_ok,
    demand_eq_ok, ask_eq_ok, check_eq_ok, pure_eq_ok]
  exact ⟨textHash "lint".toUTF8, 9, ⟨rfl, rfl⟩, _, 12, ⟨(), 9, ⟨by decide, rfl⟩, _, 10,
    ⟨rfl, rfl⟩, _, 11, ⟨rfl, rfl⟩, _, 11, ⟨(), 11, ⟨by decide, rfl⟩, rfl, rfl⟩, true, 12,
    ⟨rfl, rfl⟩, (), 12, ⟨rfl, rfl⟩, rfl, rfl⟩, _, 13, ⟨steadyDisk_file 12, rfl⟩, (), 13,
    ⟨decide_eq_true rfl, rfl⟩, rfl, rfl⟩

/-- A directory that does not change is bound, and the file it lists reads
back with the digest that is listed. -/
theorem steady_manifest_bound :
    ∃ pack u v parsed expected, loadPack textHash steadyDisk (some (ofString "pack")) 0
        = .ok (pack, u)
      ∧ ManifestBound textHash steadyDisk u pack parsed
      ∧ pack.readVerified steadyDisk textHash (ofString "rules.yaml") u
        = .ok ("lint".toUTF8, v)
      ∧ bytesList parsed (ofString "rules.yaml") = some expected
      ∧ Listed expected (textHash "lint".toUTF8) := by
  obtain ⟨parsed, hashed, hloaded, hiff⟩ := manifest_digest_binds_iff loadPack_steadyDisk
  have hsame : hashed = parsed :=
    (Option.some.inj hloaded.last).symm.trans (Option.some.inj hloaded.first)
  have hbound := hiff.mpr (congrArg textHash hsame)
  obtain ⟨expected, hlisted, hdigest⟩ :=
    hbound.reads 9 13 _ _ (le_refl _) readVerified_steadyDisk
  exact ⟨steadyPack, 9, 13, parsed, expected, loadPack_steadyDisk, hbound,
    readVerified_steadyDisk, hlisted, hdigest⟩

end Steady

end CognitiveRuntime
