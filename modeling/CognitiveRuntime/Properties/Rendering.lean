import CognitiveRuntime.Compiler.Adapters
import CognitiveRuntime.Properties.SemanticDigest

/-!
# Rendering takes the packet as data

A packet of the compiler fills every placeholder it has a value for, so
whether a template renders is read off the template. What is rendered is
the template with each of its placeholders replaced once, and with the
packet fixed up to its mission it is one frame with holes for the mission
and the digest.
-/

namespace CognitiveRuntime

open Ordered Delimited

/-! ## Packets of the compiler -/

/-- The buckets an adapter reads hold what they are declared to hold. -/
structure TypedContext (c : CompiledTaskContext) : Prop where
  laws : ∀ item ∈ c.applicableLaw, item.contextKind = .applicableLaw
  limits : ∀ item ∈ c.authority.limits, item.contextKind = .authorityFact
  available : ∀ item ∈ c.capabilities.available, item.contextKind = .capabilityFact

theorem kind_of_authorityFact {item : ContextItem} {p : AuthorityFact → Bool}
    (h : item.authorityFact?.any p = true) : item.contextKind = .authorityFact := by
  unfold ContextItem.authorityFact? at h
  unfold ContextItem.contextKind
  cases hclaim : item.claim <;> rw [hclaim] at h <;> first | rfl | cases h

theorem kind_of_capabilityFact {item : ContextItem} {p : CapabilityFact → Bool}
    (h : item.capabilityFact?.any p = true) : item.contextKind = .capabilityFact := by
  unfold ContextItem.capabilityFact? at h
  unfold ContextItem.contextKind
  cases hclaim : item.claim <;> rw [hclaim] at h <;> first | rfl | cases h

/-- Every context the compiler assembles is typed. -/
theorem assembleContext_typed [Sha256] (inputs : CompileInputs) (unknowns : List ContextUnknown)
    (selected : List ContextItem) : TypedContext (assembleContext inputs unknowns selected) where
  laws item hitem := by
    have h := (List.mem_filter.mp (show item ∈ ofKind .applicableLaw selected from hitem)).2
    simpa using h
  limits item hitem := kind_of_authorityFact
    (List.mem_filter.mp (show item ∈ authorityFactsIn .limit selected from hitem)).2
  available item hitem := kind_of_capabilityFact
    (List.mem_filter.mp (show item ∈ capabilityFactsIn .available selected from hitem)).2

/-- Compiled artifacts over a typed context. -/
structure TypedArtifacts extends CompiledArtifacts where
  typed : TypedContext taskContext

/-- The packet of the artifacts with another mission in its intent. -/
def TypedArtifacts.packet [Sha256] (a : TypedArtifacts) (digests : PacketDigests)
    (mission : String) : ExecutionPacket :=
  { buildExecutionPacket a.toCompiledArtifacts digests with
    intent := ({ a.intent with mission := mission } : IntentContract).toJson }

/-- A packet keeps its own mission. -/
theorem packet_own_mission [Sha256] (a : TypedArtifacts) (digests : PacketDigests) :
    a.packet digests a.intent.mission = buildExecutionPacket a.toCompiledArtifacts digests := rfl

section Compiles

open Fallible

variable [Sha256] [TextTables] {request : CompileRequest} {pack : RuntimePack}
  {snapshot : Option ContextSnapshot} {expected : Option String} {bundle : RuntimeBundle}

/-- What a bundle carries is a context the compiler assembled. -/
theorem compile_typed (h : compile request pack snapshot expected = .ok bundle) :
    TypedContext bundle.taskContext := by
  simp only [compile, compileRoot, compileThen, compileStages, bind_eq_ok] at h
  obtain ⟨root, ⟨_, -, _, -, _, hcontext, _, -, _, -, _, -, _, -, hroot⟩, hbundle⟩ := h
  cases hbundle
  cases hroot
  simp only [compileContext, bind_eq_ok, Prod.exists] at hcontext
  obtain ⟨_, _, -, _, -, hcontext⟩ := hcontext
  cases hcontext
  exact assembleContext_typed ..

/-- The packet of a bundle is one of typed artifacts, with the mission
that was asked for. -/
theorem compile_packet (h : compile request pack snapshot expected = .ok bundle) :
    ∃ (a : TypedArtifacts) (digests : PacketDigests),
      bundle.packet = a.packet digests request.mission := by
  obtain ⟨a, ha⟩ := compile_sealed h
  have htyped : TypedContext a.taskContext := ha.context ▸ compile_typed h
  have hmission : a.intent.mission = request.mission := ha.intent ▸ compile_mission h
  have hpacket := ha.packet
  rw [← packet_own_mission ⟨a, htyped⟩, hmission] at hpacket
  exact ⟨⟨a, htyped⟩, _, hpacket⟩

end Compiles

/-! ## Its placeholders -/

section Values

theorem mapM_textUnder {α : Type} {key : String} {doc : α → Json} {text : α → String}
    {l : List α} (h : ∀ x ∈ l, textUnder key (doc x) = some (text x)) :
    (l.map doc).mapM (textUnder key) = some (l.map text) := by
  induction l with
  | nil => rfl
  | cons x l ih =>
      rw [List.map_cons, List.mapM_cons, h x List.mem_cons_self,
        ih fun y hy => h y (List.mem_cons_of_mem _ hy)]
      rfl

/-- The texts of a list that is there. -/
theorem textsUnder_map {α : Type} {list key : String} {j : Json} {doc : α → Json}
    {text : α → String} {l : List α} (hlist : j.get? list = some (.arr (l.map doc)))
    (h : ∀ x ∈ l, textUnder key (doc x) = some (text x)) :
    textsUnder list key j = some (l.map text) := by
  unfold textsUnder listUnder
  rw [hlist]
  cases l with
  | nil => rfl
  | cons x l => exact mapM_textUnder h

theorem mapM_asText (l : List String) : (l.map Json.str).mapM asText = some l := by
  induction l with
  | nil => rfl
  | cons s l ih =>
      rw [List.map_cons, List.mapM_cons, ih]
      rfl

theorem textItems_ofStrings {key : String} {j : Json} {l : List String}
    (h : j.get? key = some (.ofStrings l)) : textItems key j = some l := by
  unfold textItems listUnder
  rw [h]
  cases l with
  | nil => rfl
  | cons s l => exact mapM_asText (s :: l)

def lawIdOf (item : ContextItem) : String := (item.applicableLaw?.map ApplicableLaw.lawId).getD ""

def limitIdOf (item : ContextItem) : String :=
  (item.authorityFact?.map AuthorityFact.authorityId).getD ""

def capabilityIdOf (item : ContextItem) : String :=
  (item.capabilityFact?.map CapabilityFact.capabilityId).getD ""

theorem textUnder_law {item : ContextItem} (h : item.contextKind = .applicableLaw) :
    textUnder "law_id" item.toJson = some (lawIdOf item) := by
  unfold ContextItem.contextKind at h
  unfold lawIdOf ContextItem.applicableLaw? ContextItem.toJson
  cases hclaim : item.claim <;> rw [hclaim] at h <;> first | rfl | cases h

theorem textUnder_limit {item : ContextItem} (h : item.contextKind = .authorityFact) :
    textUnder "authority_id" item.toJson = some (limitIdOf item) := by
  unfold ContextItem.contextKind at h
  unfold limitIdOf ContextItem.authorityFact? ContextItem.toJson
  cases hclaim : item.claim <;> rw [hclaim] at h <;> first | rfl | cases h

theorem textUnder_capability {item : ContextItem} (h : item.contextKind = .capabilityFact) :
    textUnder "capability_id" item.toJson = some (capabilityIdOf item) := by
  unfold ContextItem.contextKind at h
  unfold capabilityIdOf ContextItem.capabilityFact? ContextItem.toJson
  cases hclaim : item.claim <;> rw [hclaim] at h <;> first | rfl | cases h

variable [Sha256] (a : TypedArtifacts) (digests : PacketDigests) (templateName : String)

/-- The values of the placeholders, those of the packet's own data. -/
def sectionValues (mission digest : String) : List (String × String) :=
  let context := a.taskContext
  let available := context.capabilities.available.map capabilityIdOf
  let packet := buildExecutionPacket a.toCompiledArtifacts digests
  [(placeholder "adapter", adapterForTemplate templateName),
    (placeholder "packet_digest", digest),
    (placeholder "context_digest", packet.compiledTaskContextDigest),
    (placeholder "applicable_law", bullets (context.applicableLaw.map lawIdOf)),
    (placeholder "authority_order", bullets context.authority.effectiveOrder),
    (placeholder "authority_order_source", context.authority.effectiveOrderSource.value),
    (placeholder "authority_limits", bullets (context.authority.limits.map limitIdOf)),
    (placeholder "capability_gaps", bullets (sortedBy id
      ((context.capabilities.required.map CapabilityRequirement.capabilityId).filter
        (· ∉ available)))),
    (placeholder "context_unknowns",
      bullets (context.unresolvedUnknowns.map ContextUnknown.unknownId)),
    (placeholder "mission", mission),
    (placeholder "realization_mode", a.intent.objective.realizationMode.value),
    (placeholder "kernel_activation", bullets (packet.activeKernelBindings.map (·.sourceRef))),
    (placeholder "required_obligations",
      bullets (packet.requiredObligations.map Obligation.obligationId)),
    (placeholder "validation_properties",
      bullets (packet.validationProperties.map ValidationProperty.propertyId)),
    (placeholder "delivery_obligations",
      bullets (packet.deliveryObligations.map Obligation.obligationId)),
    (placeholder "unknowns", bullets packet.unknowns),
    (placeholder "gar_outputs", bullets (garOutputRefs packet))]

/-- A packet of the compiler has a value for every placeholder. -/
theorem placeholders_packet (mission digest : String) :
    placeholders (a.packet digests mission) templateName digest
      = some (sectionValues a digests templateName mission digest) := by
  have hcontext : contextSection (a.packet digests mission) = some a.taskContext.toJson := rfl
  have hauthority : authoritySection (a.packet digests mission)
      = some a.taskContext.authority.toJson := rfl
  have hlaw : applicableLawRefs (a.packet digests mission)
      = some (a.taskContext.applicableLaw.map lawIdOf) := by
    rw [applicableLawRefs, hcontext]
    exact textsUnder_map rfl fun item hitem => textUnder_law (a.typed.laws item hitem)
  have hlimits : authorityLimitRefs (a.packet digests mission)
      = some (a.taskContext.authority.limits.map limitIdOf) := by
    rw [authorityLimitRefs, hauthority]
    exact textsUnder_map rfl fun item hitem => textUnder_limit (a.typed.limits item hitem)
  have havailable : textsUnder "available" "capability_id" a.taskContext.capabilities.toJson
      = some (a.taskContext.capabilities.available.map capabilityIdOf) :=
    textsUnder_map rfl fun item hitem => textUnder_capability (a.typed.available item hitem)
  have hrequired : textsUnder "required" "capability_id" a.taskContext.capabilities.toJson
      = some (a.taskContext.capabilities.required.map CapabilityRequirement.capabilityId) :=
    textsUnder_map rfl fun _ _ => rfl
  have hcapabilities : mappingOr (a.taskContext.toJson.get? "capabilities")
      = some a.taskContext.capabilities.toJson := rfl
  have hunknowns : contextUnknownIds (a.packet digests mission)
      = some (a.taskContext.unresolvedUnknowns.map ContextUnknown.unknownId) := by
    rw [contextUnknownIds, hcontext]
    exact textsUnder_map rfl fun _ _ => rfl
  have horder : textItems "effective_order" a.taskContext.authority.toJson
      = some a.taskContext.authority.effectiveOrder := textItems_ofStrings rfl
  have hgaps : capabilityGapRefs (a.packet digests mission) = some (sortedBy id
      ((a.taskContext.capabilities.required.map CapabilityRequirement.capabilityId).filter
        (· ∉ a.taskContext.capabilities.available.map capabilityIdOf))) := by
    simp only [capabilityGapRefs, hcontext, hcapabilities, havailable, hrequired,
      Option.bind_eq_bind, Option.bind_some]
  have hintent : asMapping (a.packet digests mission).intent
      = some (a.packet digests mission).intent := rfl
  have hobjective : asMapping (((a.packet digests mission).intent.get? "objective").getD (.obj []))
      = some a.intent.objective.toJson := rfl
  simp only [placeholders, hintent, hauthority, hobjective, hlaw, horder, hlimits, hgaps,
    hunknowns, Option.bind_eq_bind, Option.bind_some]
  rfl

theorem keys_sectionValues (mission digest : String) :
    (sectionValues a digests templateName mission digest).map Prod.fst = placeholderNames := rfl

end Values

/-! ## Templates -/

/-- A template with no placeholder but those a packet fills, and no stray
delimiter. -/
def Renderable (template : String) : Prop :=
  unresolvedTokens placeholderNames template = [] ∧ malformedLines template = []

instance (template : String) : Decidable (Renderable template) :=
  inferInstanceAs (Decidable (_ ∧ _))

example : Renderable ("Mission: " ++ placeholder "mission") := by decide

/-- A token the pattern cannot match leaves its delimiters. -/
example : ¬ Renderable "\x7b\x7ba\x7bb\x7d\x7d\x7d" := by decide

/-- What an unrenderable template is refused with. -/
def unresolvedError (templateName template : String) : AdapterFault :=
  .invalid (.invalidValue "adapter template left placeholders unresolved" (some templateName)
    (.obj (("placeholders", .ofStrings (unresolvedTokens placeholderNames template))
      :: if malformedLines template = [] then []
        else [("malformed", .ofStrings (malformedLines template))])))

theorem tokenValue_isSome {table : List (String × String)} {t : List Char} :
    (tokenValue table t).isSome = true ↔ String.ofList t ∈ table.map Prod.fst := by
  simp [tokenValue, List.mem_map]

/-- The value a table gives a placeholder. -/
def valueIn (table : List (String × String)) (t : List Char) : List Char :=
  (tokenValue table t).getD []

/-- Every placeholder of a renderable template is filled. -/
theorem filled_of_renderable {template : String} (h : Renderable template)
    {table : List (String × String)} (hkeys : table.map Prod.fst = placeholderNames) :
    ∀ t ∈ findPlaceholders template, (tokenValue table t).isSome := by
  intro t ht
  rw [tokenValue_isSome, hkeys]
  have hnone := sortedUnique_eq_nil.mp h.1
  rw [List.filter_eq_nil_iff] at hnone
  simpa using hnone (String.ofList t) (List.mem_map_of_mem ht)

section Fill

variable [Sha256] (a : TypedArtifacts) (digests : PacketDigests) (templateName template : String)
  (mission digest : String)

theorem fillTemplate_renderable (h : Renderable template) :
    fillTemplate templateName template (a.packet digests mission) digest
      = .ok (String.ofList (replaceAll '\x7b' '\x7d'
          (valueIn (sectionValues a digests templateName mission digest)) template.toList)) := by
  have hkeys := keys_sectionValues a digests templateName mission digest
  unfold fillTemplate
  rw [placeholders_packet]
  simp only [hkeys]
  rw [if_neg (by rw [h.1, h.2]; simp), replaceAll?_eq_some (filled_of_renderable h hkeys)]
  rfl

theorem fillTemplate_not_renderable (h : ¬ Renderable template) :
    fillTemplate templateName template (a.packet digests mission) digest
      = .error (unresolvedError templateName template) := by
  have hkeys := keys_sectionValues a digests templateName mission digest
  unfold fillTemplate
  rw [placeholders_packet]
  simp only [hkeys]
  rw [if_pos (by rwa [Renderable, not_and_or] at h)]
  rfl

theorem fillTemplate_eq_ok {out : String} :
    fillTemplate templateName template (a.packet digests mission) digest = .ok out
      ↔ Renderable template ∧ out.toList = replaceAll '\x7b' '\x7d'
          (valueIn (sectionValues a digests templateName mission digest)) template.toList := by
  by_cases h : Renderable template
  · rw [fillTemplate_renderable a digests templateName template mission digest h, Except.ok.injEq]
    constructor
    · rintro rfl
      exact ⟨h, String.toList_ofList⟩
    · rintro ⟨-, hout⟩
      rw [← hout, String.ofList_toList]
  · rw [fillTemplate_not_renderable a digests templateName template mission digest h]
    constructor
    · intro herror
      cases herror
    · exact fun hok => absurd hok.1 h

open Access in
/-- A renderer fills the template it reads, whatever source it reads it
from, and renders nothing where no packet could fill it. -/
theorem renderTemplate_eq_ok {hash : ByteArray → String} {disk : Nat → Directory}
    {source : TemplateSource} {t u : Nat} {out : String} :
    renderTemplate hash disk source templateName (a.packet digests mission) digest t = .ok (out, u)
      ↔ ∃ template, templateText hash disk source templateName t = .ok (template, u)
        ∧ Renderable template ∧ out.toList = replaceAll '\x7b' '\x7d'
          (valueIn (sectionValues a digests templateName mission digest)) template.toList := by
  unfold renderTemplate
  rw [bind_eq_ok]
  constructor
  · rintro ⟨template, s, hread, hfill⟩
    obtain ⟨hout, rfl⟩ := lift_eq_ok.mp hfill
    exact ⟨template, mapError_eq_ok.mp hread,
      (fillTemplate_eq_ok a digests templateName template mission digest).mp hout⟩
  · rintro ⟨template, hread, hfill⟩
    refine ⟨template, u, mapError_eq_ok.mpr hread, lift_eq_ok.mpr ⟨?_, rfl⟩⟩
    exact (fillTemplate_eq_ok a digests templateName template mission digest).mpr hfill

end Fill

/-! ## Holes -/

/-- The placeholders whose values change with the mission. -/
def missionToken : List Char := (placeholder "mission").toList

def digestToken : List Char := (placeholder "packet_digest").toList

/-- The mission and the digest in their places. -/
def hole (mission digest : String) (t : List Char) : List Char :=
  if t = missionToken then mission.toList else digest.toList

/-- Tables with the same keys whose values differ under two of them. -/
def AgreeElsewhere (table table' : List (String × String)) : Prop :=
  List.Forall₂ (fun e e' => e.1 = e'.1
    ∧ (e.1 ≠ placeholder "mission" → e.1 ≠ placeholder "packet_digest" → e.2 = e'.2)) table table'

theorem valueIn_congr {table table' : List (String × String)} (h : AgreeElsewhere table table')
    {t : List Char} (hmission : t ≠ missionToken) (hdigest : t ≠ digestToken) :
    valueIn table t = valueIn table' t := by
  have hne : ∀ {name : String}, t ≠ (placeholder name).toList →
      String.ofList t ≠ placeholder name := fun hname htext =>
    hname (by rw [← htext, String.toList_ofList])
  unfold valueIn tokenValue
  congr 2
  induction h with
  | nil => rfl
  | cons hhead _ ih =>
      rename_i e e' l l' _
      rw [List.find?_cons, List.find?_cons, ← hhead.1]
      by_cases hkey : e.1 = String.ofList t
      · have hvalue : e.2 = e'.2 :=
          hhead.2 (hkey ▸ hne hmission) (hkey ▸ hne hdigest)
        have hentry : e = e' := Prod.ext hhead.1 hvalue
        rw [decide_eq_true hkey, hentry]
      · simpa [hkey] using ih

section Frame

variable [Sha256] (a : TypedArtifacts) (digests : PacketDigests) (templateName : String)

theorem sectionValues_agree (mission digest mission' digest' : String) :
    AgreeElsewhere (sectionValues a digests templateName mission digest)
      (sectionValues a digests templateName mission' digest') := by
  have hsame : ∀ {k v : String}, k = k ∧ (k ≠ placeholder "mission" →
      k ≠ placeholder "packet_digest" → v = v) := ⟨rfl, fun _ _ => rfl⟩
  unfold AgreeElsewhere sectionValues
  refine .cons hsame (.cons ⟨rfl, fun _ h => absurd rfl h⟩ (.cons hsame (.cons hsame (.cons hsame
    (.cons hsame (.cons hsame (.cons hsame (.cons hsame (.cons ⟨rfl, fun h _ => absurd rfl h⟩
    (.cons hsame (.cons hsame (.cons hsame (.cons hsame (.cons hsame (.cons hsame
    (.cons hsame .nil))))))))))))))))

theorem tokenValue_mission (mission digest : String) :
    tokenValue (sectionValues a digests templateName mission digest) missionToken
      = some mission.toList := by
  unfold tokenValue missionToken
  rw [String.ofList_toList]
  rfl

theorem tokenValue_digest (mission digest : String) :
    tokenValue (sectionValues a digests templateName mission digest) digestToken
      = some digest.toList := by
  unfold tokenValue digestToken
  rw [String.ofList_toList]
  rfl

theorem valueIn_mission (mission digest : String) :
    valueIn (sectionValues a digests templateName mission digest) missionToken
      = mission.toList := by
  rw [valueIn, tokenValue_mission, Option.getD_some]

theorem valueIn_digest (mission digest : String) :
    valueIn (sectionValues a digests templateName mission digest) digestToken
      = digest.toList := by
  rw [valueIn, tokenValue_digest, Option.getD_some]

/-- The template with every other placeholder replaced. -/
def frame (template : String) : List (Piece Char) :=
  (pieces '\x7b' '\x7d' template.toList).flatMap
    (Piece.partly (fun t => t = missionToken ∨ t = digestToken)
      (valueIn (sectionValues a digests templateName "" "")))

theorem token_mem_frame {template : String} {t : List Char}
    (h : Piece.token t ∈ frame a digests templateName template) :
    t = missionToken ∨ t = digestToken := by
  obtain ⟨p, -, hp⟩ := List.mem_flatMap.mp h
  simpa using keep_of_mem_partly hp

/-- A rendering fills the holes of the frame. -/
theorem replaceAll_eq_frame (template mission digest : String) :
    replaceAll '\x7b' '\x7d' (valueIn (sectionValues a digests templateName mission digest))
        template.toList
      = (frame a digests templateName template).flatMap (Piece.fill (hole mission digest)) := by
  have hfilled : (frame a digests templateName template).flatMap (Piece.fill (hole mission digest))
      = (frame a digests templateName template).flatMap
        (Piece.fill (valueIn (sectionValues a digests templateName mission digest))) := by
    refine List.flatMap_congr fun p hp => ?_
    cases p with
    | literal c => rfl
    | token t =>
        rw [Piece.fill, Piece.fill]
        rcases token_mem_frame a digests templateName hp with rfl | rfl
        · rw [valueIn_mission, hole, if_pos rfl]
        · rw [valueIn_digest, hole, if_neg (by decide)]
  rw [hfilled, frame, flatMap_partly]
  · rfl
  · intro t ht
    rw [decide_eq_false_iff_not, not_or] at ht
    exact valueIn_congr (sectionValues_agree a digests templateName "" "" mission digest) ht.1 ht.2

end Frame

/-- Rendering is free of injection. Whether a template renders is a
property of the template; what is rendered is its text with each
placeholder replaced once by its value; and for packets that differ in
the mission it is one frame, with holes for the mission and the packet
digest only. -/
theorem rendering_injection_free [Sha256] (a : TypedArtifacts) (digests : PacketDigests)
    (templateName template : String) :
    (∀ mission digest,
        (∃ out, fillTemplate templateName template (a.packet digests mission) digest = .ok out)
          ↔ Renderable template)
      ∧ (∀ mission digest out,
        fillTemplate templateName template (a.packet digests mission) digest = .ok out →
        ∃ table, placeholders (a.packet digests mission) templateName digest = some table
          ∧ (∀ t ∈ findPlaceholders template, (tokenValue table t).isSome)
          ∧ tokenValue table missionToken = some mission.toList
          ∧ tokenValue table digestToken = some digest.toList
          ∧ Replaced '\x7b' '\x7d' (valueIn table) template.toList out.toList)
      ∧ ∃ frame : List (Piece Char),
        (∀ t, Piece.token t ∈ frame → t = missionToken ∨ t = digestToken)
          ∧ ∀ mission digest out,
            fillTemplate templateName template (a.packet digests mission) digest = .ok out →
            out.toList = frame.flatMap (Piece.fill (hole mission digest)) := by
  refine ⟨fun mission digest => ?_, fun mission digest out hout => ?_,
    frame a digests templateName template, fun t ht => token_mem_frame a digests templateName ht,
    fun mission digest out hout => ?_⟩
  · constructor
    · rintro ⟨out, hout⟩
      exact ((fillTemplate_eq_ok a digests templateName template mission digest).mp hout).1
    · exact fun h => ⟨_, fillTemplate_renderable a digests templateName template mission digest h⟩
  · obtain ⟨hrenderable, htext⟩ :=
      (fillTemplate_eq_ok a digests templateName template mission digest).mp hout
    exact ⟨_, placeholders_packet a digests templateName mission digest,
      filled_of_renderable hrenderable (keys_sectionValues a digests templateName mission digest),
      tokenValue_mission a digests templateName mission digest,
      tokenValue_digest a digests templateName mission digest, (replaced_iff (by decide)).mpr htext⟩
  · rw [((fillTemplate_eq_ok a digests templateName template mission digest).mp hout).2]
    exact replaceAll_eq_frame a digests templateName template mission digest

section Disk

/-- A disk with one template in every place. -/
def missionDisk : Nat → Directory := fun _ =>
  { resolveRef := fun _ => some []
    resolve := some
    isDir := fun _ => true
    isFile := fun _ => true
    present := fun _ => true
    read := fun _ => some ("Mission: " ++ placeholder "mission").toUTF8 }

open Access in
theorem missionDisk_template (hash : ByteArray → String) :
    templateText hash missionDisk (.unverified []) "codex.md" 0
      = .ok ("Mission: " ++ placeholder "mission", 2) := by
  have hdecoded : decodeText ("Mission: " ++ placeholder "mission").toUTF8
      = pure ("Mission: " ++ placeholder "mission") := by
    unfold decodeText
    rw [fromUTF8?_toUTF8]
    rfl
  have hlines : String.ofList (universalNewlines ("Mission: " ++ placeholder "mission").toList)
      = "Mission: " ++ placeholder "mission" := by decide
  refine bind_eq_ok.mpr ⟨true, 1, rfl, bind_eq_ok.mpr ⟨_, 2, rfl, bind_eq_ok.mpr
    ⟨"Mission: " ++ placeholder "mission", 2, ?_, ?_⟩⟩⟩
  · rw [hdecoded]
    rfl
  · rw [hlines]
    rfl

attribute [local instance] Sha256.transparent TextTables.ascii

/-- The mission that spells a placeholder is rendered as it is spelled. -/
theorem spelled_mission_renders (hash : ByteArray → String) :
    ∃ bundle out table,
      compile (.standard "audit \x7b\x7bunknowns\x7d\x7d" "feature") shippedPack none none
        = .ok bundle
      ∧ renderTemplate hash missionDisk (.unverified []) "codex.md" bundle.packet "sha256:0" 0
        = .ok (out, 2)
      ∧ placeholders bundle.packet "codex.md" "sha256:0" = some table
      ∧ tokenValue table missionToken = some "audit \x7b\x7bunknowns\x7d\x7d".toList
      ∧ Replaced '\x7b' '\x7d' (valueIn table) ("Mission: " ++ placeholder "mission").toList
        out.toList := by
  obtain ⟨bundle, hbundle⟩ := compile_shipped Sha256.transparent_injective shippedPack_ships
    (.standard "audit \x7b\x7bunknowns\x7d\x7d" "feature") (by decide)
  obtain ⟨a, digests, hpacket⟩ := compile_packet hbundle
  obtain ⟨hrenders, hreplaces, -⟩ :=
    rendering_injection_free a digests "codex.md" ("Mission: " ++ placeholder "mission")
  obtain ⟨out, hout⟩ := (hrenders (CompileRequest.standard "audit \x7b\x7bunknowns\x7d\x7d"
    "feature").mission "sha256:0").mpr (by decide)
  obtain ⟨table, htable, -, hmission, -, hreplaced⟩ := hreplaces _ _ _ hout
  refine ⟨bundle, out, table, hbundle, ?_, ?_, hmission, hreplaced⟩
  · rw [hpacket]
    exact (renderTemplate_eq_ok a digests "codex.md" _ "sha256:0").mpr
      ⟨_, missionDisk_template hash, (fillTemplate_eq_ok a digests "codex.md" _ _ "sha256:0").mp hout⟩
  · rw [hpacket]
    exact htable

end Disk

end CognitiveRuntime
