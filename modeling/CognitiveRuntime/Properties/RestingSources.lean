import CognitiveRuntime.Properties.CopiedSources
import CognitiveRuntime.Properties.SealedTree

/-!
# A repository at rest

Where nothing changes the source repository, it is copied as it is: the
builder finds every source, no target gets two of them, and none stands
in another's way.
-/

namespace CognitiveRuntime

open PyStr (ofString)
open Access Ordered

/-! ## Files apart -/

/-- A tree that holds files at some paths and the directories above them
only. -/
structure Tidy (dest : PackPath) (paths : List PackPath) (tree : FileTree) : Prop where
  files : ∀ q, (tree.read q).isSome = true → q ∈ paths
  dirs : ∀ q, tree.isDir q = true → q <+: dest ∨ ∃ p ∈ paths, q <+: p.dropLast

theorem tidy_fresh (dest : PackPath) : Tidy dest [] (FileTree.fresh dest) where
  files q h := by
    unfold FileTree.read FileTree.fresh at h
    split at h
    · next hentry =>
        split at hentry <;> cases hentry
    · cases h
  dirs q h := by
    unfold FileTree.isDir FileTree.fresh at h
    split at h
    · next hentry =>
        split at hentry
        · next hunder => exact .inl (List.isPrefixOf_iff_prefix.mp hunder)
        · cases hentry
    · cases h

section Placing

variable {tree : FileTree} {dest path : PackPath} {paths : List PackPath}

theorem mkdir_eq_some (h : ∀ q, q <+: path → (tree.read q).isSome = false) :
    tree.mkdir path
      = some fun q => if q.isPrefixOf path && (tree q).isNone then some .dir else tree q := by
  have hfiles : (path.inits.any fun above => (tree.read above).isSome) = false := by
    rw [List.any_eq_false]
    intro q hq
    rw [h q (by simpa using hq)]
    exact Bool.false_ne_true
  unfold FileTree.mkdir
  rw [hfiles, if_neg Bool.false_ne_true]

theorem not_prefix_dropLast (hpath : path ≠ []) : ¬ path <+: path.dropLast := by
  intro hself
  have hlength := hself.length_le
  have hpos := List.length_pos_iff.mpr hpath
  rw [List.length_dropLast] at hlength
  omega

/-- A file whose way is clear is written, and only it. -/
theorem place_clear (h : Tidy dest paths tree) (hpath : path ≠ []) (hdest : ¬ path <+: dest)
    (habove : ∀ p ∈ paths, ¬ p <+: path.dropLast) (hbelow : ∀ p ∈ paths, ¬ path <+: p.dropLast)
    (data : ByteArray) : ∃ tree', tree.place path data = some tree'
      ∧ Tidy dest (path :: paths) tree'
      ∧ ∀ q, tree'.read q = if q = path then some data else tree.read q := by
  have hclear : ∀ q, q <+: path.dropLast → (tree.read q).isSome = false := by
    intro q hq
    rw [← Bool.not_eq_true]
    exact fun hfile => habove q (h.files q hfile) hq
  have hself := not_prefix_dropLast hpath
  -- the entries after the directories above are made
  have hmade : ∀ q, (if q.isPrefixOf path.dropLast && (tree q).isNone then some TreeEntry.dir
      else tree q) = if q <+: path.dropLast ∧ tree q = none then some .dir else tree q := by
    intro q
    simp only [Bool.and_eq_true, List.isPrefixOf_iff_prefix, Option.isNone_iff_eq_none]
  have hkept : tree.isDir path = false := by
    rw [← Bool.not_eq_true]
    intro hdir
    rcases h.dirs path hdir with habove' | ⟨p, hp, hunder⟩
    · exact hdest habove'
    · exact hbelow p hp hunder
  have hentry : tree.place path data = some fun q => if q = path then some (.file data)
      else if q <+: path.dropLast ∧ tree q = none then some .dir else tree q := by
    unfold FileTree.place
    rw [mkdir_eq_some hclear, Option.bind_some]
    have hstill : FileTree.isDir (fun q => if q.isPrefixOf path.dropLast && (tree q).isNone then
        some .dir else tree q) path = false := by
      unfold FileTree.isDir at hkept ⊢
      beta_reduce
      rw [hmade, if_neg fun hnew => hself hnew.1]
      exact hkept
    rw [hstill, if_neg Bool.false_ne_true]
    simp only [hmade]
  refine ⟨_, hentry, ⟨fun q hq => ?_, fun q hq => ?_⟩, fun q => ?_⟩
  · by_cases hqp : q = path
    · exact hqp ▸ List.mem_cons_self
    · refine List.mem_cons_of_mem _ (h.files q ?_)
      unfold FileTree.read at hq ⊢
      beta_reduce at hq
      rw [if_neg hqp] at hq
      split_ifs at hq with hnew
      · cases hq
      · exact hq
  · unfold FileTree.isDir at hq
    beta_reduce at hq
    by_cases hqp : q = path
    · rw [if_pos hqp] at hq
      cases hq
    · rw [if_neg hqp] at hq
      split_ifs at hq with hnew
      · exact .inr ⟨path, List.mem_cons_self, hnew.1⟩
      · rcases h.dirs q hq with hq | ⟨p, hp, hq⟩
        · exact .inl hq
        · exact .inr ⟨p, List.mem_cons_of_mem _ hp, hq⟩
  · unfold FileTree.read
    beta_reduce
    by_cases hqp : q = path
    · rw [if_pos hqp, if_pos hqp]
    · rw [if_neg hqp, if_neg hqp]
      split_ifs with hnew
      · rw [hnew.2]
      · rfl

end Placing

/-! ## What a repository holds -/

/-- The repository holds a file under a relative path. -/
structure SourceRepo.Holds (repo : SourceRepo) (source : PackPath) (relative : String)
    (data : ByteArray) : Prop where
  start : (ofString relative).head? ≠ some slash
  inside : ofString ".." ∉ pathParts (ofString relative)
  found : ∃ candidate, repo.resolve (source ++ pathParts (ofString relative)) = some candidate
    ∧ source.isPrefixOf candidate = true ∧ repo.isFile candidate = true
    ∧ repo.read candidate = some data

def kernelsRoot (source : PackPath) : PackPath :=
  source ++ [ofString "runtime", ofString "kernels"]

def schemaRoot (source : PackPath) : PackPath := source ++ [ofString "contracts"]

def adapterRoot (source : PackPath) : PackPath :=
  source ++ [ofString "runtime", ofString "contract_compiler", ofString "adapters"]

/-- The kernel sources of a repository at rest. -/
def SourceRepo.kernelPaths (repo : SourceRepo) (source : PackPath) : List String :=
  sortedBy id (((repo.rglob (kernelsRoot source)).filter fun parts =>
    repo.isFile (kernelsRoot source ++ parts.map ofString)).map fun parts =>
      posixPath ("runtime" :: "kernels" :: parts))

def SourceRepo.schemaPaths (repo : SourceRepo) (source : PackPath) : List String :=
  sortedBy id (((repo.names (schemaRoot source)).filter fun name =>
    name.endsWith ".schema.json" && repo.isFile (schemaRoot source ++ [ofString name])).map
      fun name => posixPath ["contracts", name])

def SourceRepo.adapterPaths (repo : SourceRepo) (source : PackPath) : List String :=
  sortedBy id (((repo.names (adapterRoot source)).filter fun name =>
    name.endsWith ".md" && repo.isFile (adapterRoot source ++ [ofString name])).map
      fun name => posixPath ["runtime", "contract_compiler", "adapters", name])

/-- Every source of a repository at rest, with its target. -/
def SourceRepo.planned (repo : SourceRepo) (source : PackPath) : List (String × String) :=
  museumContracts.map ownPath ++ closureSources.map ownPath
    ++ (repo.kernelPaths source).flatMap (withAlias "kernels/")
    ++ (repo.schemaPaths source).flatMap (withAlias "schemas/")
    ++ (repo.adapterPaths source).map ownPath

/-- A repository that can be sealed: it has the directories, holds every
source, and no target has two sources or stands in another's way. -/
structure SourceRepo.Sealable (repo : SourceRepo) (source : PackPath) : Prop where
  isDir : repo.isDir source = true
  kernelsDir : repo.isDir (kernelsRoot source) = true
  schemaDir : repo.isDir (schemaRoot source) = true
  adapterDir : repo.isDir (adapterRoot source) = true
  held : ∀ entry ∈ repo.planned source, ∃ data, repo.Holds source entry.1 data
  inside : ∀ entry ∈ repo.planned source, ofString ".." ∉ pathParts (ofString (slashes entry.2))
  oneSource : ∀ entry ∈ repo.planned source, ∀ other ∈ repo.planned source,
    slashes entry.2 = slashes other.2 → entry.1 = other.1
  apart : ∀ entry ∈ repo.planned source, ∀ other ∈ repo.planned source,
    pathParts (ofString (slashes entry.2)) <+: pathParts (ofString (slashes other.2)) →
      slashes entry.2 = slashes other.2

section Resting

variable {repo : SourceRepo} {source : PackPath}

theorem sourceFile_resting {relative : String} {data : ByteArray}
    (h : repo.Holds source relative data) : ∃ path, repo.read path = some data
      ∧ ∀ t, sourceFile (fun _ => repo) source relative t = .ok (path, t + 2) := by
  obtain ⟨candidate, hresolve, hinside, hfile, hread⟩ := h.found
  refine ⟨candidate, hread, fun t => ?_⟩
  have hplain : ((ofString relative).head? ≠ some slash
      && !(pathParts (ofString relative)).contains (ofString "..")) = true := by
    rw [Bool.and_eq_true, decide_eq_true_eq, Bool.not_eq_true', ← Bool.not_eq_true,
      List.contains_iff_mem]
    exact ⟨h.start, h.inside⟩
  simp only [sourceFile, bind_eq_ok, check_eq_ok, demand_eq_ok, ask_eq_ok, pure_eq_ok]
  exact ⟨(), t, ⟨hplain, rfl⟩, candidate, t + 1, ⟨hresolve, rfl⟩, (), t + 1, ⟨hinside, rfl⟩, true,
    t + 2, ⟨hfile, rfl⟩, (), t + 2, ⟨rfl, rfl⟩, rfl, rfl⟩

/-- What is copied is what the repository holds. -/
theorem holds_of_copied {relative : String} {path : PackPath} {data : ByteArray} {t u : Nat}
    (h : sourceFile (fun _ => repo) source relative t = .ok (path, u))
    (hread : repo.read path = some data) : repo.Holds source relative data := by
  simp only [sourceFile, bind_eq_ok, check_eq_ok, demand_eq_ok, ask_eq_ok, pure_eq_ok,
    Bool.and_eq_true, decide_eq_true_eq, Bool.not_eq_true', ← Bool.not_eq_true,
    List.contains_iff_mem] at h
  obtain ⟨_, _, ⟨⟨hstart, hinside⟩, rfl⟩, candidate, _, ⟨hresolve, rfl⟩, _, _, ⟨hunder, rfl⟩, _, _,
    ⟨rfl, rfl⟩, _, _, ⟨hfile, rfl⟩, rfl, rfl⟩ := h
  exact ⟨hstart, hinside, candidate, hresolve, hunder, hfile, hread⟩

theorem kernelSources_resting (h : repo.isDir (kernelsRoot source) = true) (t : Nat) :
    kernelSources (fun _ => repo) source t = .ok (repo.kernelPaths source, t + 2) := by
  simp only [kernelSources, bind_eq_ok, ask_eq_ok, check_eq_ok, pure_eq_ok]
  exact ⟨true, t + 1, ⟨h, rfl⟩, (), t + 1, ⟨rfl, rfl⟩, _, t + 2, ⟨rfl, rfl⟩, rfl, rfl⟩

theorem schemaSources_resting (h : repo.isDir (schemaRoot source) = true) (t : Nat) :
    schemaSources (fun _ => repo) source t = .ok (repo.schemaPaths source, t + 2) := by
  simp only [schemaSources, bind_eq_ok, ask_eq_ok, check_eq_ok, pure_eq_ok]
  exact ⟨true, t + 1, ⟨h, rfl⟩, (), t + 1, ⟨rfl, rfl⟩, _, t + 2, ⟨rfl, rfl⟩, rfl, rfl⟩

theorem adapterSources_resting (h : repo.isDir (adapterRoot source) = true) (t : Nat) :
    adapterSources (fun _ => repo) source t = .ok (repo.adapterPaths source, t + 2) := by
  simp only [adapterSources, bind_eq_ok, ask_eq_ok, check_eq_ok, pure_eq_ok]
  exact ⟨true, t + 1, ⟨h, rfl⟩, (), t + 1, ⟨rfl, rfl⟩, _, t + 2, ⟨rfl, rfl⟩, rfl, rfl⟩

/-- Copies that are planned. -/
def FromPlan (repo : SourceRepo) (source : PackPath) (copies : Copies) : Prop :=
  ∀ copy ∈ copies, ∃ entry ∈ repo.planned source, copy = (slashes entry.2, entry.1)

theorem Copies.put_resting (h : repo.Sealable source) {copies : Copies}
    (hcopies : FromPlan repo source copies) {entry : String × String}
    (hentry : entry ∈ repo.planned source) :
    ∃ copies', copies.put entry.1 (slashes entry.2) = .ok copies' := by
  unfold Copies.put
  split
  · exact ⟨_, rfl⟩
  · next first hfirst =>
      obtain ⟨other, hother, hcopy⟩ := hcopies _ (mem_of_lookup hfirst)
      obtain ⟨htarget, rfl⟩ := Prod.mk.inj hcopy
      rw [if_pos (h.oneSource other hother entry hentry htarget.symm)]
      exact ⟨_, rfl⟩

theorem registerAll_resting (h : repo.Sealable source) (entries : List (String × String))
    (hentries : ∀ entry ∈ entries, entry ∈ repo.planned source) {copies : Copies}
    (hcopies : FromPlan repo source copies) (t : Nat) :
    ∃ copies' u, registerAll (fun _ => repo) source entries copies t = .ok (copies', u)
      ∧ FromPlan repo source copies' := by
  induction entries generalizing copies t with
  | nil => exact ⟨copies, t, rfl, hcopies⟩
  | cons entry rest ih =>
      obtain ⟨relative, target⟩ := entry
      have hentry := hentries (relative, target) List.mem_cons_self
      obtain ⟨data, hheld⟩ := h.held _ hentry
      obtain ⟨path, -, hpath⟩ := sourceFile_resting hheld
      obtain ⟨put, hput⟩ := Copies.put_resting h hcopies hentry
      have hplanned : FromPlan repo source put := by
        intro copy hcopy
        rcases ((Copies.put_eq_ok hput).2 copy).mp hcopy with hold | rfl
        · exact hcopies copy hold
        · exact ⟨_, hentry, rfl⟩
      obtain ⟨copies', u, hrest, hcopies'⟩ :=
        ih (fun e he => hentries e (List.mem_cons_of_mem _ he)) hplanned (t + 2)
      refine ⟨copies', u, ?_, hcopies'⟩
      simp only [registerAll, bind_eq_ok, lift_eq_ok]
      exact ⟨path, t + 2, hpath t, put, t + 2, ⟨hput, rfl⟩, hrest⟩

/-- The dictionary of copies of a repository at rest is its plan. -/
theorem collectCopies_resting (h : repo.Sealable source) (t : Nat) :
    ∃ copies u, collectCopies (fun _ => repo) source t = .ok (copies, u)
      ∧ FromPlan repo source copies
      ∧ ∀ entry ∈ repo.planned source, (slashes entry.2, entry.1) ∈ copies := by
  have hempty : FromPlan repo source [] := nofun
  obtain ⟨c₁, t₁, h₁, hc₁⟩ := registerAll_resting h (museumContracts.map ownPath)
    (fun e he => by simp [SourceRepo.planned, he]) hempty t
  obtain ⟨c₂, t₂, h₂, hc₂⟩ := registerAll_resting h (closureSources.map ownPath)
    (fun e he => by simp [SourceRepo.planned, he]) hc₁ t₁
  obtain ⟨c₃, t₃, h₃, hc₃⟩ := registerAll_resting h
    ((repo.kernelPaths source).flatMap (withAlias "kernels/"))
    (fun e he => by simp [SourceRepo.planned, he]) hc₂ (t₂ + 2)
  obtain ⟨c₄, t₄, h₄, hc₄⟩ := registerAll_resting h
    ((repo.schemaPaths source).flatMap (withAlias "schemas/"))
    (fun e he => by simp [SourceRepo.planned, he]) hc₃ (t₃ + 2)
  obtain ⟨c₅, t₅, h₅, hc₅⟩ := registerAll_resting h ((repo.adapterPaths source).map ownPath)
    (fun e he => by simp [SourceRepo.planned, he]) hc₄ (t₄ + 2)
  have r₁ := registerAll_eq_ok h₁
  have r₂ := registerAll_eq_ok h₂
  have r₃ := registerAll_eq_ok h₃
  have r₄ := registerAll_eq_ok h₄
  have r₅ := registerAll_eq_ok h₅
  refine ⟨c₅, t₅, ?_, hc₅, fun entry hentry => ?_⟩
  · simp only [collectCopies, bind_eq_ok]
    exact ⟨c₁, t₁, h₁, c₂, t₂, h₂, _, _, kernelSources_resting h.kernelsDir t₂, c₃, t₃, h₃, _, _,
      schemaSources_resting h.schemaDir t₃, c₄, t₄, h₄, _, _,
      adapterSources_resting h.adapterDir t₄, h₅⟩
  · unfold SourceRepo.planned at hentry
    rw [List.mem_append, List.mem_append, List.mem_append, List.mem_append] at hentry
    rcases hentry with (((hentry | hentry) | hentry) | hentry) | hentry
    · exact r₅.kept _ (r₄.kept _ (r₃.kept _ (r₂.kept _ (r₁.added entry hentry))))
    · exact r₅.kept _ (r₄.kept _ (r₃.kept _ (r₂.added entry hentry)))
    · exact r₅.kept _ (r₄.kept _ (r₃.added entry hentry))
    · exact r₅.kept _ (r₄.added entry hentry)
    · exact r₅.added entry hentry

/-! ## Copying it -/

/-- Where a target goes. -/
def targetPath (dest : PackPath) (target : String) : PackPath :=
  dest ++ pathParts (ofString target)

/-- Paths none of which stands in another's way. -/
def Unobstructed (paths : List PackPath) : Prop :=
  ∀ p ∈ paths, ∀ q ∈ paths, p <+: q → p = q

theorem Unobstructed.not_above {paths : List PackPath} (h : Unobstructed paths) {p q : PackPath}
    (hp : p ∈ paths) (hq : q ∈ paths) (hne : q ≠ []) : ¬ p <+: q.dropLast := by
  intro hunder
  obtain rfl := h p hp q hq (hunder.trans (List.dropLast_prefix q))
  exact not_prefix_dropLast hne hunder

theorem Tidy.mono {dest : PackPath} {paths paths' : List PackPath} {tree : FileTree}
    (h : Tidy dest paths tree) (hsub : ∀ p ∈ paths, p ∈ paths') : Tidy dest paths' tree where
  files q hq := hsub q (h.files q hq)
  dirs q hq := by
    rcases h.dirs q hq with hdest | ⟨p, hp, hunder⟩
    · exact .inl hdest
    · exact .inr ⟨p, hsub p hp, hunder⟩

/-- A target the builder can write to. -/
structure Writable (repo : SourceRepo) (source : PackPath) (entry : String × String) : Prop where
  held : ∃ data, repo.Holds source entry.2 data
  inside : ofString ".." ∉ pathParts (ofString entry.1)
  named : pathParts (ofString entry.1) ≠ []

/-- Everything that can be written is, and stays as it was read. -/
theorem copyFiles_resting {dest : PackPath} (hdest : ResolvedPath dest)
    {entries : List (String × String)} (hentries : ∀ entry ∈ entries, Writable repo source entry)
    {tree : FileTree} {written : List PackPath} (htidy : Tidy dest written tree)
    (hclear : Unobstructed (written ++ entries.map fun e => targetPath dest e.1))
    (hnodup : (written ++ entries.map fun e => targetPath dest e.1).Nodup) (t : Nat) :
    ∃ tree' files u, copyFiles (fun _ => repo) source dest entries tree t
        = .ok ((tree', files), u)
      ∧ Tidy dest (written ++ entries.map fun e => targetPath dest e.1) tree'
      ∧ (∀ q ∈ written, tree'.read q = tree.read q)
      ∧ ∀ file ∈ files, tree'.read (targetPath dest file.path) = some file.data := by
  induction entries generalizing tree written t with
  | nil => exact ⟨tree, [], t, rfl, by simpa using htidy, fun _ _ => rfl, by simp⟩
  | cons entry rest ih =>
      obtain ⟨target, relative⟩ := entry
      obtain ⟨⟨data, hheld⟩, hinside, hnamed⟩ := hentries (target, relative) List.mem_cons_self
      dsimp only at hheld hinside hnamed
      obtain ⟨path, hread, hpath⟩ := sourceFile_resting hheld
      have hspot : collapse (dest ++ pathParts (ofString target)) = targetPath dest target :=
        collapse_append hdest hinside
      have hnonempty : targetPath dest target ≠ [] := by
        simp [targetPath, hnamed]
      have hlong : ¬ targetPath dest target <+: dest := by
        intro hunder
        have hlength := hunder.length_le
        have hpos := List.length_pos_iff.mpr hnamed
        rw [targetPath, List.length_append] at hlength
        omega
      have hself : targetPath dest target ∈ written ++ ((target, relative) :: rest).map
          fun e => targetPath dest e.1 := by simp
      have hold : ∀ p ∈ written, p ∈ written ++ ((target, relative) :: rest).map
          fun e => targetPath dest e.1 := fun p hp => List.mem_append_left _ hp
      have hbelow : ∀ p ∈ written, ¬ targetPath dest target <+: p.dropLast := by
        intro p hp hunder
        obtain rfl := hclear _ hself p (hold p hp) (hunder.trans (List.dropLast_prefix p))
        exact hclear.not_above hself hself hnonempty hunder
      obtain ⟨placed, hplaced, htidy', hreads⟩ := place_clear htidy hnonempty hlong
        (fun p hp => hclear.not_above (hold p hp) hself hnonempty) hbelow data
      have happend : written ++ ((target, relative) :: rest).map (fun e => targetPath dest e.1)
          = (written ++ [targetPath dest target]) ++ rest.map fun e => targetPath dest e.1 := by
        rw [List.map_cons, List.append_assoc, List.singleton_append]
      rw [happend] at hclear hnodup ⊢
      obtain ⟨tree', files, u, hrest, htidyRest, hkept, hfiles⟩ :=
        ih (fun e he => hentries e (List.mem_cons_of_mem _ he))
          (htidy'.mono fun p hp => by simpa [or_comm] using hp) hclear hnodup (t + 3)
      refine ⟨tree', { path := target, sourcePath := relative, data := data } :: files, u, ?_,
        htidyRest, fun q hq => ?_, fun file hfile => ?_⟩
      · simp only [copyFiles, bind_eq_ok, demand_eq_ok, found_eq_ok, pure_eq_ok, hspot]
        exact ⟨path, t + 2, hpath t, data, t + 3, ⟨hread, rfl⟩, placed, t + 3, ⟨hplaced, rfl⟩,
          (tree', files), u, hrest, rfl, rfl⟩
      · have hne : q ≠ targetPath dest target := by
          rintro rfl
          have hfresh := (List.nodup_append.mp hnodup).1
          rw [List.nodup_append] at hfresh
          exact hfresh.2.2 _ hq _ List.mem_cons_self rfl
        rw [hkept q (List.mem_append_left _ hq), hreads, if_neg hne]
      · rcases List.mem_cons.mp hfile with rfl | hfile
        · rw [hkept _ (by simp), hreads, if_pos rfl]
        · exact hfiles file hfile

end Resting

end CognitiveRuntime
