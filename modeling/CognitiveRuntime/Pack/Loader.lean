import CognitiveRuntime.Data.Access
import CognitiveRuntime.Models.Canonical

/-!
# The pack loader

`PackLoader.load` and `RuntimePack.read_verified`, over a directory that
other processes may change between any two accesses. Each call of the
file system is one access; reading a file to hash it is one too, whatever
the chunks. SHA-256 is a parameter, a function of the bytes.
-/

namespace CognitiveRuntime

open PyStr (ofString)
open Access

/-- The parts of an absolute path. -/
abbrev PackPath := List PyStr

/-- The file system at one access. Where a call raises there is nothing. -/
structure Directory where
  /-- `Path(ref).expanduser().resolve()`. -/
  resolveRef : PyStr → Option PackPath
  resolve : PackPath → Option PackPath
  isDir : PackPath → Bool
  isFile : PackPath → Bool
  present : PackPath → Bool
  read : PackPath → Option ByteArray

inductive PackFault where
  /-- `InvalidValueError`. -/
  | invalidValue (message : String) (path : PyStr) (details : List (String × PyStr))
  | osError
  | unicodeDecode

abbrev Loading (α : Type) := Access PackFault α

/-- `InvalidValueError(message, path=path)`. -/
def refused (message : String) (path : PyStr) : PackFault := .invalidValue message path []

/-! ## Paths -/

def slash : CodePoint := CodePoint.ofChar '/'

/-- `Path(relative).parts`. -/
def pathParts (relative : PyStr) : List PyStr :=
  (relative.splitOn slash).filter fun part => part ≠ [] && part ≠ ofString "."

/-- `str(path)`. -/
def pathText (path : PackPath) : PyStr :=
  if path = [] then [slash] else path.flatMap (slash :: ·)

/-- `relative.startswith(("/", "\\"))`. -/
def startsAbsolute (relative : PyStr) : Bool :=
  relative.head? = some slash || relative.head? = some (CodePoint.ofChar '\\')

def manifestName : PyStr := ofString "MANIFEST.json"

/-! ## Digests -/

/-- `digest.lower()`, as far as it can make a digest of a string: the
lower case of a character outside ASCII is no hexadecimal digit. -/
def lowerDigest (digest : PyStr) : PyStr :=
  digest.map fun c => if 65 ≤ c.val ∧ c.val ≤ 90 then CodePoint.ofNat (c.val + 32) else c

/-- A digest is the one listed, in either case. -/
def Listed (expected : PyStr) (actual : String) : Prop :=
  ofString actual = lowerDigest expected ∨ ofString actual = expected

instance (expected : PyStr) (actual : String) : Decidable (Listed expected actual) :=
  inferInstanceAs (Decidable (_ ∨ _))

/-- Digests by path. -/
abbrev FileDigests := List (PyStr × String)

/-- `digests.get(path)`. -/
def FileDigests.get? (digests : FileDigests) (path : PyStr) : Option String :=
  (digests.find? fun e => e.1 = path).map Prod.snd

/-- `digests[path] = digest`. -/
def FileDigests.put (path : PyStr) (digest : String) : FileDigests → FileDigests
  | [] => [(path, digest)]
  | e :: rest => if e.1 = path then (path, digest) :: rest else e :: put path digest rest

theorem FileDigests.get?_cons (e : PyStr × String) (d : FileDigests) (p : PyStr) :
    FileDigests.get? (e :: d) p = if e.1 = p then some e.2 else d.get? p := by
  unfold FileDigests.get?
  rw [List.find?_cons]
  by_cases h : e.1 = p <;> simp [h]

theorem FileDigests.get?_put (path p : PyStr) (digest : String) (d : FileDigests) :
    (d.put path digest).get? p = if path = p then some digest else d.get? p := by
  induction d with
  | nil => rw [put, get?_cons]
  | cons e d ih =>
      rw [put]
      by_cases he : e.1 = path
      · rw [if_pos he, get?_cons, get?_cons]
        by_cases hp : path = p
        · rw [if_pos hp, if_pos hp]
        · rw [if_neg hp, if_neg hp, he, if_neg hp]
      · rw [if_neg he, get?_cons, get?_cons, ih]
        by_cases hp : e.1 = p
        · rw [if_pos hp, if_pos hp, if_neg fun h => he (hp.trans h.symm)]
        · rw [if_neg hp, if_neg hp]

/-! ## Packs -/

structure PackProvenance where
  packRef : PyStr
  root : PackPath
  manifestDigest : String
  fileDigests : FileDigests

/-- The `RuntimePack` a load returns. -/
structure LoadedPack where
  provenance : PackProvenance
  manifest : Payload

section Files

variable (disk : Nat → Directory)

/-- A path below the root, or the error. -/
def below (root candidate : PackPath) (relative : PyStr) : Loading PackPath := do
  check (root.isPrefixOf candidate) (refused "path escapes pack root" relative)
  pure candidate

/-- `RuntimePack.resolve`. -/
def LoadedPack.resolve (pack : LoadedPack) (relative : PyStr) : Loading PackPath := do
  check (relative ≠ [] && !startsAbsolute relative)
    (refused "absolute pack paths are forbidden" relative)
  let candidate ← demand disk (·.resolve (pack.provenance.root ++ pathParts relative)) .osError
  let root ← demand disk (·.resolve pack.provenance.root) .osError
  let candidate ← below root candidate relative
  let present ← ask disk (·.present candidate)
  check present (refused "pack path missing" relative)
  pure candidate

/-- `RuntimePack.read_verified`. -/
def LoadedPack.readVerified (hash : ByteArray → String) (pack : LoadedPack)
    (relative : PyStr) : Loading ByteArray := do
  let expected ← found (pack.provenance.fileDigests.get? relative)
    (refused "pack file is not listed in the verified manifest" relative)
  let path ← pack.resolve disk relative
  let data ← demand disk (·.read path) .osError
  let actual := hash data
  check (actual = expected)
    (.invalidValue "pack file no longer matches its manifest digest (tamper detected)" relative
      [("expected", ofString expected), ("actual", ofString actual)])
  pure data

/-- `PackLoader._safe_join`. -/
def safeJoin (root : PackPath) (relative : PyStr) : Loading PackPath := do
  check (!startsAbsolute relative && !(pathParts relative).contains (ofString ".."))
    (refused "path escapes pack root" relative)
  let candidate ← demand disk (·.resolve (root ++ pathParts relative)) .osError
  let root ← demand disk (·.resolve root) .osError
  below root candidate relative

/-! ## Loading -/

/-- The path and the digest of a manifest entry. -/
def manifestEntry (entry : PyJson) : Loading (PyStr × PyStr) :=
  match entry with
  | .obj fields =>
      match Payload.string? fields "path", Payload.string? fields "sha256" with
      | some path, some digest => pure (path, digest)
      | _, _ => raise (refused "manifest entry requires path+sha256" (ofString "files"))
  | _ => raise (refused "manifest file entry must be object" (ofString "files"))

/-- The loop of `load` over the listed files. -/
def verifyFiles (hash : ByteArray → String) (root : PackPath) :
    List PyJson → FileDigests → Loading FileDigests
  | [], digests => pure digests
  | entry :: rest, digests => do
    let (relative, expected) ← manifestEntry entry
    -- the manifest does not list itself
    if relative = manifestName then verifyFiles hash root rest digests
    else
      let target ← safeJoin disk root relative
      let isFile ← ask disk (·.isFile target)
      check isFile (refused "manifest lists missing file" relative)
      let data ← demand disk (·.read target) .osError
      let actual := hash data
      check (Listed expected actual)
        (.invalidValue "manifest hash mismatch (tamper detected)" relative
          [("expected", expected), ("actual", ofString actual)])
      verifyFiles hash root rest (digests.put relative actual)

end Files

/-- `read_text`: a carriage return ends a line too. -/
def universalNewlines : List Char → List Char
  | '\r' :: '\n' :: rest => '\n' :: universalNewlines rest
  | '\r' :: rest => '\n' :: universalNewlines rest
  | c :: rest => c :: universalNewlines rest
  | [] => []

section Load

variable [DecimalFloat]

/-- The value a manifest file holds. -/
def manifestValue (bytes : ByteArray) : Option PyJson :=
  (String.fromUTF8? bytes).bind fun text => JsonReader.loads (universalNewlines text.toList)

/-- The mapping a manifest file holds. -/
def readManifest (path : PyStr) (bytes : ByteArray) : Loading Payload := do
  let text ← found (String.fromUTF8? bytes) .unicodeDecode
  let value ← found (JsonReader.loads (universalNewlines text.toList))
    (refused "manifest is not valid JSON" path)
  match value with
  | .obj manifest => pure manifest
  | _ => raise (refused "manifest root must be an object" path)

/-- The entries under `files`. -/
def manifestFiles (manifest : Payload) : Loading (List PyJson) :=
  match manifest.get? "files" with
  | some (.arr files) => pure files
  | _ => raise (refused "manifest.files must be a list" (ofString "files"))

/-- `not str(pack_ref).strip()`. -/
def blankRef (ref : PyStr) : Bool := ref.all fun c => (c.char?).any isSpace

/-- `PackLoader.load`. -/
def loadPack (hash : ByteArray → String) (disk : Nat → Directory) (packRef : Option PyStr) :
    Loading LoadedPack := do
  let ref ← found (packRef.filter (!blankRef ·))
    (refused "explicit pack_ref required" (ofString "pack_ref"))
  let root ← demand disk (·.resolveRef ref) .osError
  let isDir ← ask disk (·.isDir root)
  check isDir (refused "pack_ref is not a directory" (pathText root))
  let manifestPath := root ++ [manifestName]
  let isFile ← ask disk (·.isFile manifestPath)
  check isFile (refused "missing MANIFEST.json" (pathText manifestPath))
  let bytes ← demand disk (·.read manifestPath) .osError
  let manifest ← readManifest (pathText manifestPath) bytes
  let files ← manifestFiles manifest
  let digests ← verifyFiles disk hash root files []
  -- the manifest is read a second time to be hashed
  let bytes ← demand disk (·.read manifestPath) .osError
  pure
    { provenance :=
        { packRef := pathText root
          root := root
          manifestDigest := hash bytes
          fileDigests := digests }
      manifest := manifest }

end Load

end CognitiveRuntime
