import CognitiveRuntime.Compiler.Providers
import CognitiveRuntime.Properties.ManifestIdentity
import CognitiveRuntime.Properties.SealedTree
import CognitiveRuntime.Properties.Snapshotless

/-!
# The closure check of a pack

Each route's representative mission has to compile that very route. A
pack of the shipped documents passes, whatever the Unicode tables make of
characters outside ASCII. A check is the same when the manifest of the
pack is replaced.
-/

namespace CognitiveRuntime

open PyStr (ofString)
open Ordered Fallible

/-! ## ASCII text -/

def IsAscii (text : List Char) : Prop := ∀ c ∈ text, c.toNat < 128

/-- Tables that treat ASCII text as every version of Unicode does. -/
structure TextTables.OnAscii [TextTables] : Prop where
  lower : ∀ s : String, IsAscii s.toList → TextTables.lower s = TextTables.ascii.lower s
  isWordChar : ∀ c : Char, c.toNat < 128 →
    TextTables.isWordChar c = TextTables.ascii.isWordChar c

theorem toNat_toLower_lt {c : Char} (h : c.toNat < 128) : c.toLower.toNat < 128 := by
  unfold Char.toLower
  split
  · next hupper =>
      have hbound : c.val.toNat ≤ 90 := hupper.2
      show (c.val + 32).toNat < 128
      rw [UInt32.toNat_add]
      have hsmall : (32 : UInt32).toNat = 32 := rfl
      omega
  · exact h

theorem isAscii_lower {s : String} (h : IsAscii s.toList) :
    IsAscii (TextTables.ascii.lower s).toList := by
  intro c hc
  change c ∈ (String.ofList (s.toList.map Char.toLower)).toList at hc
  rw [String.toList_ofList] at hc
  obtain ⟨c', hc', rfl⟩ := List.mem_map.mp hc
  exact toNat_toLower_lt (h c' hc')

/-- The letters of ASCII text as its bytes give them. -/
def byteLetters (s : String) : List Char :=
  s.toByteArray.data.toList.map fun b => Char.ofNat b.toNat

/-- A character is one byte where its bytes are all ASCII. -/
theorem utf8EncodeChar_ascii {c : Char} (h : ∀ b ∈ String.utf8EncodeChar c, b.toNat < 128) :
    String.utf8EncodeChar c = [UInt8.ofNat c.toNat] ∧ c.toNat < 128 := by
  unfold String.utf8EncodeChar at h ⊢
  have hval : c.val.toNat = c.toNat := rfl
  rw [hval] at h ⊢
  have hbyte : ∀ {n : Nat}, n < 256 → (UInt8.ofNat n).toNat = n := fun hn => by
    rw [UInt8.toNat_ofNat', Nat.mod_eq_of_lt hn]
  by_cases hsmall : c.toNat ≤ 127
  · exact ⟨if_pos hsmall, by omega⟩
  · exfalso
    -- every longer encoding starts with a byte outside ASCII
    have hlong : ∀ {n : Nat} {rest : List UInt8}, 128 ≤ n → n < 256 →
        ¬ ∀ b ∈ UInt8.ofNat n :: rest, b.toNat < 128 := by
      intro n rest hlarge hbound h
      have hfirst := h _ List.mem_cons_self
      rw [hbyte hbound] at hfirst
      omega
    dsimp only at h
    rw [if_neg hsmall] at h
    split at h
    · exact hlong (by omega) (by omega) h
    · split at h
      · exact hlong (by omega) (by omega) h
      · exact hlong (by omega) (by omega) h

/-- Reading the bytes is quicker than decoding them, and no different. -/
theorem byteLetters_eq {s : String} (h : ∀ b ∈ s.toByteArray.data.toList, b.toNat < 128) :
    byteLetters s = s.toList := by
  have hbytes : s.toByteArray.data.toList = s.toList.flatMap String.utf8EncodeChar := by
    conv_lhs => rw [← String.ofList_toList (s := s)]
    rw [String.toByteArray_ofList, List.utf8Encode, List.data_toByteArray]
  rw [hbytes] at h
  have hletters : ∀ c ∈ s.toList,
      (String.utf8EncodeChar c).map (fun b => Char.ofNat b.toNat) = [c] := by
    intro c hc
    obtain ⟨hone, hsmall⟩ := utf8EncodeChar_ascii fun b hb => h b (List.mem_flatMap.mpr ⟨c, hc, hb⟩)
    rw [hone, List.map_singleton, UInt8.toNat_ofNat', Nat.mod_eq_of_lt (by omega),
      Char.ofNat_toNat]
  unfold byteLetters
  rw [hbytes, List.map_flatMap, List.flatMap_congr hletters, List.flatMap_singleton']

section Tables

variable [TextTables] (htables : TextTables.OnAscii)

include htables

theorem wordBoundary_ascii {before after : Option Char} (hbefore : ∀ c ∈ before, c.toNat < 128)
    (hafter : ∀ c ∈ after, c.toNat < 128) :
    wordBoundary before after = @wordBoundary TextTables.ascii before after := by
  have hany : ∀ {o : Option Char}, (∀ c ∈ o, c.toNat < 128) →
      o.any TextTables.isWordChar = o.any TextTables.ascii.isWordChar := by
    intro o ho
    cases o with
    | none => rfl
    | some c => exact htables.isWordChar c (ho c rfl)
  unfold wordBoundary
  rw [hany hbefore, hany hafter]

theorem wordAt_ascii {word text : List Char} {before : Option Char} (hword : IsAscii word)
    (htext : IsAscii text) (hbefore : ∀ c ∈ before, c.toNat < 128) :
    wordAt word before text = @wordAt TextTables.ascii word before text := by
  have hstart : ∀ c ∈ text.head?, c.toNat < 128 := fun c hc =>
    htext c (List.mem_of_mem_head? hc)
  have hlast : ∀ c ∈ word.getLast?.or before, c.toNat < 128 := by
    intro c hc
    cases hlast : word.getLast? with
    | none =>
        rw [hlast, Option.none_or] at hc
        exact hbefore c hc
    | some c' =>
        rw [hlast, Option.some_or] at hc
        obtain rfl := Option.some.inj hc
        exact hword _ (List.mem_of_getLast? hlast)
  have hnext : ∀ c ∈ (text.drop word.length).head?, c.toNat < 128 := fun c hc =>
    htext c (List.mem_of_mem_drop (List.mem_of_mem_head? hc))
  unfold wordAt
  rw [wordBoundary_ascii htables hbefore hstart, wordBoundary_ascii htables hlast hnext]

theorem searchFrom_ascii {word : List Char} (hword : IsAscii word) :
    ∀ {text : List Char} {before : Option Char}, IsAscii text →
      (∀ c ∈ before, c.toNat < 128) →
      searchFrom word before text = @searchFrom TextTables.ascii word before text
  | [], _, htext, hbefore => wordAt_ascii htables hword htext hbefore
  | c :: rest, before, htext, hbefore => by
      have hc : c.toNat < 128 := htext c List.mem_cons_self
      have hrest : IsAscii rest := fun c' hc' => htext c' (List.mem_cons_of_mem _ hc')
      have hbefore' : ∀ c' ∈ some c, c'.toNat < 128 := fun c' hc' => by
        rwa [← Option.some.inj hc']
      have hnext := searchFrom_ascii hword hrest hbefore'
      unfold searchFrom
      rw [wordAt_ascii htables hword htext hbefore, hnext]

theorem searchWord_ascii {word text : String} (hword : IsAscii word.toList)
    (htext : IsAscii text.toList) :
    searchWord word text = @searchWord TextTables.ascii word text :=
  searchFrom_ascii htables hword htext nofun

/-! ## Representative missions -/

theorem routeScore_ascii {lowered : String} (hlowered : IsAscii lowered.toList) {route : Route}
    (hroute : ∀ token ∈ route.matchAny, IsAscii token.toList) :
    routeScore lowered route = @routeScore TextTables.ascii lowered route := by
  unfold routeScore
  congr 1
  refine List.filter_congr fun token htoken => ?_
  have htoken := hroute token htoken
  rw [htables.lower token htoken, searchWord_ascii htables (isAscii_lower htoken) hlowered]

theorem bestRoute_ascii {lowered : String} (hlowered : IsAscii lowered.toList) :
    ∀ {routes : List (String × Route)} (best : (String × Route) × Option Nat),
      (∀ entry ∈ routes, ∀ token ∈ entry.2.matchAny, IsAscii token.toList) →
      bestRoute lowered routes best = @bestRoute TextTables.ascii lowered routes best
  | [], _, _ => rfl
  | entry :: rest, best, hroutes => by
      have hscore := routeScore_ascii htables hlowered (hroutes entry List.mem_cons_self)
      have hrest : ∀ entry ∈ rest, ∀ token ∈ entry.2.matchAny, IsAscii token.toList :=
        fun entry hentry => hroutes entry (List.mem_cons_of_mem _ hentry)
      unfold bestRoute
      dsimp only
      rw [hscore, bestRoute_ascii hlowered _ hrest, bestRoute_ascii hlowered _ hrest]

/-- Routing of ASCII text by ASCII tokens is the same under all such
tables. -/
theorem matchRoute_ascii {task : String} {rules : RoutingRules} (htask : IsAscii task.toList)
    (hrules : ∀ entry ∈ rules.taskRoutes, ∀ token ∈ entry.2.matchAny, IsAscii token.toList) :
    matchRoute task rules = @matchRoute TextTables.ascii task rules := by
  unfold matchRoute
  refine congrArg _ (funext fun default => ?_)
  rw [htables.lower task htask, bestRoute_ascii htables (isAscii_lower htask) _ hrules]

end Tables

/-- ASCII text, computed. -/
def isAscii (text : List Char) : Bool := text.all fun c => c.toNat < 128

theorem isAscii_iff {text : List Char} : isAscii text = true ↔ IsAscii text := by
  unfold isAscii IsAscii
  simp only [List.all_eq_true, decide_eq_true_eq]

theorem shippedRoutes_ascii : (shippedRoutes.all fun entry => entry.2.matchAny.all fun token =>
    isAscii token.toList) = true := by
  decide +kernel

/-- The representative mission of each shipped route matches it, under
the plain tables. -/
theorem shippedRoutes_represented : (shippedRoutes.all fun entry =>
    entry.2.matchAny.head?.any fun token =>
      isAscii (representativeMission token).toList
        && decide ((@matchRoute TextTables.ascii (representativeMission token)
          shippedRules).toOption.map Prod.fst = some entry.1)) = true := by
  decide +kernel

theorem representative_shipped [TextTables] (htables : TextTables.OnAscii)
    {entry : String × Route} (hentry : entry ∈ shippedRoutes) :
    ∃ token, entry.2.matchAny.head? = some token
      ∧ ∃ found, matchRoute (representativeMission token) shippedRules = .ok (entry.1, found) := by
  have hrepresented := List.all_eq_true.mp shippedRoutes_represented entry hentry
  rw [Option.any_eq_true] at hrepresented
  obtain ⟨token, htoken, hmission⟩ := hrepresented
  rw [Bool.and_eq_true, isAscii_iff, decide_eq_true_eq] at hmission
  obtain ⟨hascii, hmatch⟩ := hmission
  refine ⟨token, htoken, ?_⟩
  have htokens : ∀ entry ∈ shippedRules.taskRoutes, ∀ token ∈ entry.2.matchAny,
      IsAscii token.toList := by
    intro entry hentry token htoken
    have hroute := List.all_eq_true.mp shippedRoutes_ascii entry hentry
    exact isAscii_iff.mp (List.all_eq_true.mp hroute token htoken)
  rw [matchRoute_ascii htables hascii htokens]
  cases hfound : @matchRoute TextTables.ascii (representativeMission token) shippedRules with
  | error e => rw [hfound] at hmatch; cases hmatch
  | ok found =>
      rw [hfound] at hmatch
      obtain ⟨name, rest⟩ := found
      obtain rfl := Option.some.inj hmatch
      exact ⟨rest, rfl⟩

/-! ## Compiled routes -/

section Routed

variable [Sha256] [TextTables]

omit [TextTables] in
/-- A compile carries the route of its mission. -/
theorem compileStages_routed {pack : RuntimePack} {prepared : PreparedContextPlan}
    {root : RootCompilation} (h : compileStages pack prepared = .ok root) :
    root.bundle.execution.metadata.matchedRoute = prepared.activation.matchedRoute := by
  obtain ⟨-, -, a, ha, -, hexecution, -⟩ := compileStages_ok h
  rw [hexecution]
  simp only [compileContracts, compileExecution, bind_eq_ok] at ha
  obtain ⟨_, -, execution, ⟨_, -, _, -, _, -, _, -, _, -, hbuilt⟩, _, -, _, -, _, -, _, -, _, -,
    ha⟩ := ha
  rw [← congrArg CompiledArtifacts.execution (Except.ok.inj ha), ← Except.ok.inj hbuilt]

theorem prepareContextPlan_routed {request : CompileRequest} {pack : RuntimePack}
    {snapshot : Option ContextSnapshot} {prepared : PreparedContextPlan} {source name : String}
    {rules : RoutingRules} {found : Route × String} (hread : pack.read rulesRel = .ok source)
    (hrules : pack.loadRules source = .ok rules)
    (hmatch : matchRoute request.mission rules = .ok (name, found))
    (h : prepareContextPlan request pack snapshot .standard = .ok prepared) :
    prepared.activation.matchedRoute = name := by
  simp only [prepareContextPlan, planFromDiscovery, readSources, deriveIntent, chooseActivation,
    RunOptions.standard, bind_eq_ok] at h
  obtain ⟨_, ⟨source', hsource, _, -, rules', hloaded, _, -, hsources⟩, _, ⟨_, -, hintent⟩, _, -,
    _, ⟨activation, hplan, _, -, _, -, _, -, hstages⟩, h⟩ := h
  obtain rfl := Except.ok.inj (hread.symm.trans hsource)
  obtain rfl := Except.ok.inj (hrules.symm.trans hloaded)
  cases hsources
  cases hintent
  cases hstages
  cases h
  simp only [planActivation, bind_eq_ok] at hplan
  obtain ⟨found', hfound, _, -, hplan⟩ := hplan
  cases hmatch.symm.trans hfound
  cases hplan
  rfl

/-- From a shipped pack every mission compiles, along its own route. -/
theorem mission_compiles (hsha : Sha256.Injective) {pack : RuntimePack} (hpack : pack.Ships)
    (request : CompileRequest) {name : String} {found : Route × String}
    (hmission : request.mission ≠ "")
    (hmatch : matchRoute request.mission shippedRules = .ok (name, found)) :
    ∃ bundle, compile request pack none none = .ok bundle
      ∧ bundle.execution.metadata.matchedRoute = name := by
  obtain ⟨prepared, hprepared, hactivated, hneeds, -, hscope, hresolution⟩ :=
    prepares_shipped hsha hpack request hmission none empty_withinCeilings
  obtain ⟨root, hstages, hroot⟩ :=
    compileRoot_of_noCandidates hsha hprepared hactivated hneeds hscope hresolution
  obtain ⟨rulesSource, hread, hrules⟩ := hpack.rules
  refine ⟨root.bundle, ?_, (compileStages_routed hstages).trans
    (prepareContextPlan_routed hread hrules hmatch hprepared)⟩
  unfold compile
  rw [hroot, ok_bind]

end Routed

/-! ## The check -/

section Closure

variable [Sha256] [TextTables] [DecimalFloat] {documents : PackDocuments}
  {hash : ByteArray → String} {tree tree' : FileTree} {root : PackPath} {pack pack' : LoadedPack}
  {manifestDigest : String}

omit [Sha256] [TextTables] [DecimalFloat] in
/-- A representative mission is not blank. -/
theorem representativeMission_plain (token : String) :
    isBlank (representativeMission token) = false := by
  unfold isBlank representativeMission
  rw [String.toList_append, String.toList_append]
  rfl

theorem closeRoute_shipped (documents : PackDocuments) (htables : TextTables.OnAscii)
    (hsha : Sha256.Injective)
    (hload : loadTree hash tree root = .ok pack)
    (hships : (pack.served documents hash tree).toRuntimePack.Ships) {entry : String × Route}
    (hentry : entry ∈ shippedRoutes) :
    ∃ digest, closeRoute documents hash tree root entry = .ok (entry.1, digest) := by
  obtain ⟨token, htoken, found, hmatch⟩ := representative_shipped htables hentry
  have hplain := representativeMission_plain token
  have hmission : representativeMission token ≠ "" := by
    intro hempty
    rw [hempty] at hplain
    cases hplain
  obtain ⟨bundle, hcompile, hroute⟩ := mission_compiles hsha hships
    (.standard (representativeMission token) defaultTaskType) hmission hmatch
  have hserve : compileSealed documents hash tree root (representativeMission token)
      = .ok bundle := by
    unfold compileSealed serviceCompile loadServed
    rw [hload]
    simp only [CompileRequest.standard] at hcompile ⊢
    simp only [Except.map, hplain, Bool.not_false, ensure_true, ok_bind, hcompile, Except.mapError]
  unfold closeRoute
  simp only [htoken, require_some, ok_bind, hserve, hroute, decide_true, ensure_true]
  exact ⟨_, rfl⟩

/-- A pack of the shipped documents passes, route by route. -/
theorem closure_shipped (htables : TextTables.OnAscii) (hsha : Sha256.Injective)
    (hload : loadTree hash tree root = .ok pack)
    (hships : (pack.served documents hash tree).toRuntimePack.Ships) :
    ∃ report, validateDeploymentClosure documents hash tree root = .ok report
      ∧ report.routesCompiled = (sortedBy Prod.fst shippedRoutes).map Prod.fst := by
  obtain ⟨source, hread, hloaded⟩ := hships.rules
  have hroutes : sealedRoutes documents hash tree root = .ok (sortedBy Prod.fst shippedRoutes) := by
    unfold sealedRoutes
    rw [hload, ok_bind]
    simp only [hread, hloaded, Except.mapError, ok_bind]
    rfl
  have hclose : ∀ routes : List (String × Route), (∀ entry ∈ routes, entry ∈ shippedRoutes) →
      ∃ closed, routes.mapM (closeRoute documents hash tree root) = .ok closed
        ∧ closed.map Prod.fst = routes.map Prod.fst := by
    intro routes
    induction routes with
    | nil => exact fun _ => ⟨[], rfl, rfl⟩
    | cons entry rest ih =>
        intro hentries
        obtain ⟨digest, hfirst⟩ := closeRoute_shipped documents htables hsha hload hships
          (hentries entry List.mem_cons_self)
        obtain ⟨closed, hclosed, hnames⟩ := ih fun e he => hentries e (List.mem_cons_of_mem _ he)
        refine ⟨(entry.1, digest) :: closed, ?_, by rw [List.map_cons, List.map_cons, hnames]⟩
        rw [List.mapM_cons, hfirst, ok_bind, hclosed, ok_bind]
        rfl
  obtain ⟨closed, hclosed, hnames⟩ := hclose (sortedBy Prod.fst shippedRoutes) fun entry hentry =>
    (mem_sortedBy Prod.fst).mp hentry
  unfold validateDeploymentClosure
  rw [hroutes, ok_bind, hclosed, ok_bind]
  exact ⟨_, rfl, hnames⟩

/-! ## The check under another manifest -/

theorem compileSealed_resealed (hload : loadTree hash tree root = .ok pack)
    (hload' : loadTree hash tree' root = .ok pack')
    (hserved : pack'.served documents hash tree'
      = { pack.served documents hash tree with manifestDigest := manifestDigest })
    (mission : String) :
    Agree SameResult (compileSealed documents hash tree root mission)
      (compileSealed documents hash tree' root mission) := by
  have hcompile := compile_under manifestDigest (.standard mission defaultTaskType)
    (pack.served documents hash tree).toRuntimePack none
  unfold compileSealed serviceCompile loadServed
  rw [hload, hload']
  simp only [Except.map, hserved, bind_assoc, Fallible.ok_bind]
  refine Agree.bind_same fun _ => ?_
  refine (hcompile.mapError _).bind ?_
  intro bundle bundle' h
  exact .ok h

theorem closeRoute_resealed (hload : loadTree hash tree root = .ok pack)
    (hload' : loadTree hash tree' root = .ok pack')
    (hserved : pack'.served documents hash tree'
      = { pack.served documents hash tree with manifestDigest := manifestDigest }) :
    closeRoute documents hash tree' root = closeRoute documents hash tree root := by
  funext route
  unfold closeRoute
  congr 1
  funext token
  refine ((compileSealed_resealed hload hload' hserved _).bind_eq ?_).symm
  rintro bundle bundle' ⟨hexecution, hcontext⟩
  rw [hexecution, hcontext]

/-- The check of a pack whose manifest was replaced is the check of the
pack as it was. -/
theorem closure_resealed (hload : loadTree hash tree root = .ok pack)
    (hload' : loadTree hash tree' root = .ok pack')
    (hserved : pack'.served documents hash tree'
      = { pack.served documents hash tree with manifestDigest := manifestDigest }) :
    validateDeploymentClosure documents hash tree' root
      = validateDeploymentClosure documents hash tree root := by
  have hroutes : sealedRoutes documents hash tree' root = sealedRoutes documents hash tree root := by
    unfold sealedRoutes
    rw [hload, hload']
    simp only [Fallible.ok_bind, hserved]
  unfold validateDeploymentClosure
  rw [hroutes, closeRoute_resealed hload hload' hserved]

end Closure

end CognitiveRuntime
