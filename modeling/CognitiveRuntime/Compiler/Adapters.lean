import CognitiveRuntime.Compiler.Packet
import CognitiveRuntime.Data.Delimited
import CognitiveRuntime.Pack.Loader

/-!
# Adapter templates

`AdapterRenderer._render_template`: the text of a template, checked for
placeholders the packet does not fill, with every placeholder replaced by
its value. The three passes over the text (collecting the placeholders,
removing them to look for stray delimiters, replacing them) find the same
tokens, those of `Delimited`.
-/

namespace CognitiveRuntime

open Ordered

/-- `ADAPTER_TEMPLATE_DIR`. -/
def adapterTemplateDir : String := "runtime/contract_compiler/adapters"

/-- `_adapter_for_template`. -/
def adapterForTemplate (templateName : String) : String :=
  if templateName.toList.reverse.take 3 = ['d', 'm', '.'] then
    String.ofList (templateName.toList.reverse.drop 3).reverse
  else templateName

/-! ## Reading the packet

A section that does not have the shape the compiler gives it is read as
nothing. -/

/-- `j.get(key) or []`. -/
def listUnder (key : String) (j : Json) : Option (List Json) :=
  match (j.get? key).filter truthy with
  | none => some []
  | some (.arr items) => some items
  | some _ => none

/-- `str(j[key])` of a text. -/
def textUnder (key : String) (j : Json) : Option String :=
  match j.get? key with
  | some (.str s) => some s
  | _ => none

/-- `str(j.get(key, default))` of a text. -/
def textOr (key default : String) (j : Json) : Option String :=
  match j.get? key with
  | none => some default
  | some (.str s) => some s
  | some _ => none

/-- A text, or nothing. -/
def asText : Json → Option String
  | .str s => some s
  | _ => none

/-- A mapping, or nothing. -/
def asMapping : Json → Option Json
  | .obj entries => some (.obj entries)
  | _ => none

/-- `value or {}` of a mapping. -/
def mappingOr (value : Option Json) : Option Json :=
  match value.filter truthy with
  | none => some (.obj [])
  | some j => asMapping j

/-- The texts under a key of the items of a list. -/
def textsUnder (list key : String) (j : Json) : Option (List String) :=
  (listUnder list j).bind (·.mapM (textUnder key))

section Sections

variable (packet : ExecutionPacket)

/-- `packet.get("compiled_task_context") or {}`. -/
def contextSection : Option Json := mappingOr (some packet.compiledTaskContext)

/-- `context.get("authority") or {}`. -/
def authoritySection : Option Json := do
  let context ← contextSection packet
  mappingOr (context.get? "authority")

/-- `applicable_law_refs`. -/
def applicableLawRefs : Option (List String) := do
  let context ← contextSection packet
  textsUnder "applicable_law" "law_id" context

/-- `authority_limit_refs`. -/
def authorityLimitRefs : Option (List String) := do
  let authority ← authoritySection packet
  textsUnder "limits" "authority_id" authority

/-- `capability_gap_refs`. -/
def capabilityGapRefs : Option (List String) := do
  let context ← contextSection packet
  let capabilities ← mappingOr (context.get? "capabilities")
  let available ← textsUnder "available" "capability_id" capabilities
  let required ← textsUnder "required" "capability_id" capabilities
  some (sortedBy id (required.filter (· ∉ available)))

/-- `context_unknown_ids`. -/
def contextUnknownIds : Option (List String) := do
  let context ← contextSection packet
  textsUnder "unresolved_unknowns" "unknown_id" context

/-- `gar_output_refs`. -/
def garOutputRefs : List String :=
  sortedUnique ((packet.activeKernelBindings.filter
    (·.sourceRef.endsWith "global_architect_kernel.yaml")).flatMap
      fun binding => binding.outputs.map KernelOutput.outputId)

/-- The entries of a list of texts. -/
def textItems (key : String) (j : Json) : Option (List String) :=
  (listUnder key j).bind (·.mapM asText)

/-- A placeholder in a template. -/
def placeholder (name : String) : String := "\x7b\x7b" ++ name ++ "\x7d\x7d"

/-- One line for each text. -/
def bullets (items : List String) : String :=
  String.intercalate "\n" (items.map ("- " ++ ·))

/-- The values of all placeholders. -/
def placeholders (templateName digest : String) : Option (List (String × String)) := do
  let intent ← asMapping packet.intent
  let authority ← authoritySection packet
  let objective ← asMapping ((intent.get? "objective").getD (.obj []))
  let law ← applicableLawRefs packet
  let order ← textItems "effective_order" authority
  let orderSource ← textOr "effective_order_source" "" authority
  let limits ← authorityLimitRefs packet
  let gaps ← capabilityGapRefs packet
  let contextUnknowns ← contextUnknownIds packet
  let mission ← textOr "mission" "" intent
  let realizationMode ← textOr "realization_mode" "UNKNOWN" objective
  some
    [(placeholder "adapter", adapterForTemplate templateName),
      (placeholder "packet_digest", digest),
      (placeholder "context_digest", packet.compiledTaskContextDigest),
      (placeholder "applicable_law", bullets law),
      (placeholder "authority_order", bullets order),
      (placeholder "authority_order_source", orderSource),
      (placeholder "authority_limits", bullets limits),
      (placeholder "capability_gaps", bullets gaps),
      (placeholder "context_unknowns", bullets contextUnknowns),
      (placeholder "mission", mission),
      (placeholder "realization_mode", realizationMode),
      (placeholder "kernel_activation", bullets (packet.activeKernelBindings.map (·.sourceRef))),
      (placeholder "required_obligations",
        bullets (packet.requiredObligations.map Obligation.obligationId)),
      (placeholder "validation_properties",
        bullets (packet.validationProperties.map ValidationProperty.propertyId)),
      (placeholder "delivery_obligations",
        bullets (packet.deliveryObligations.map Obligation.obligationId)),
      (placeholder "unknowns", bullets packet.unknowns),
      (placeholder "gar_outputs", bullets (garOutputRefs packet))]

end Sections

/-- The placeholders a packet fills. -/
def placeholderNames : List String :=
  ["adapter", "packet_digest", "context_digest", "applicable_law", "authority_order",
    "authority_order_source", "authority_limits", "capability_gaps", "context_unknowns", "mission",
    "realization_mode", "kernel_activation", "required_obligations", "validation_properties",
    "delivery_obligations", "unknowns", "gar_outputs"].map placeholder

/-- `placeholders[token]`. -/
def tokenValue (table : List (String × String)) (token : List Char) : Option (List Char) :=
  (table.find? fun e => e.1 = String.ofList token).map fun e => e.2.toList

/-! ## Checking a template -/

/-- A character `str.splitlines` ends a line at. -/
def endsLine (c : Char) : Bool :=
  let n := c.toNat
  (10 ≤ n && n ≤ 13) || (28 ≤ n && n ≤ 30) || n == 0x85 || n == 0x2028 || n == 0x2029

/-- The lines of a text, the first of which has begun already. -/
def linesFrom (line : List Char) : List Char → List (List Char)
  | [] => if line = [] then [] else [line]
  | '\r' :: '\n' :: rest => line :: linesFrom [] rest
  | c :: rest => if endsLine c then line :: linesFrom [] rest else linesFrom (line ++ [c]) rest

/-- `text.splitlines()`. -/
def splitLines (text : List Char) : List (List Char) := linesFrom [] text

/-- The character stands twice in a row. -/
def hasPair (a : Char) : List Char → Bool
  | x :: y :: rest => (x = a && y = a) || hasPair a (y :: rest)
  | _ => false

/-- `_STRAY_DELIMITER.search(line)`. -/
def hasStray (line : List Char) : Bool := hasPair '\x7b' line || hasPair '\x7d' line

/-- `_PLACEHOLDER.findall(template)`. -/
def findPlaceholders (template : String) : List (List Char) :=
  Delimited.findAll '\x7b' '\x7d' template.toList

/-- The placeholders of a template that no packet fills. -/
def unresolvedTokens (names : List String) (template : String) : List String :=
  sortedUnique (((findPlaceholders template).map String.ofList).filter (· ∉ names))

/-- The lines with a delimiter left over once the placeholders are gone. -/
def malformedLines (template : String) : List String :=
  ((splitLines (Delimited.replaceAll '\x7b' '\x7d' (fun _ => []) template.toList)).filter
    hasStray).map fun line => strip (String.ofList line)

/-! ## Rendering -/

inductive AdapterFault where
  /-- `InvalidValueError`. -/
  | invalid (error : RuntimeError)
  /-- An error of the pack the template is read from. -/
  | pack (fault : PackFault)
  /-- A key that is not there, or a value of another type. -/
  | uncaught

/-- `_render_template` once the template is read. -/
def fillTemplate (templateName template : String) (packet : ExecutionPacket) (digest : String) :
    Except AdapterFault String :=
  match placeholders packet templateName digest with
  | none => .error .uncaught
  | some table =>
    let unresolved := unresolvedTokens (table.map Prod.fst) template
    let malformed := malformedLines template
    if unresolved ≠ [] ∨ malformed ≠ [] then
      .error (.invalid (.invalidValue "adapter template left placeholders unresolved"
        (some templateName)
        (.obj (("placeholders", .ofStrings unresolved)
          :: if malformed = [] then [] else [("malformed", .ofStrings malformed)]))))
    else
      match Delimited.replaceAll? '\x7b' '\x7d' (tokenValue table) template.toList with
      | some text => .ok (String.ofList text)
      | none => .error .uncaught

/-- `DEFAULT_TEMPLATE`. -/
def defaultTemplate : String :=
  String.intercalate "\n"
    ["# L9 Cognitive Runtime Execution Packet — " ++ placeholder "adapter" ++ " projection", "",
      "Packet digest: " ++ placeholder "packet_digest", "",
      "## Mission",
      placeholder "mission" ++ " (realization: " ++ placeholder "realization_mode" ++ ")", "",
      "## Active kernels", placeholder "kernel_activation", "",
      "## Required obligations (blocking — must not be dropped)",
      placeholder "required_obligations", "",
      "## Validation properties", placeholder "validation_properties", "",
      "## Delivery obligations", placeholder "delivery_obligations", "",
      "## Unknowns (must be preserved until disposed)", placeholder "unknowns", "",
      "## Global Architect outputs", placeholder "gar_outputs", "",
      "## Compiled task context (digest " ++ placeholder "context_digest" ++ ")",
      "Projected from the packet's compiled task context. Never re-derived, never reselected.", "",
      "### Applicable law", placeholder "applicable_law", "",
      "### Effective authority order (source: " ++ placeholder "authority_order_source" ++ ")",
      placeholder "authority_order", "",
      "### Authority limits", placeholder "authority_limits", "",
      "### Capability gaps (required, not proven available)", placeholder "capability_gaps", "",
      "### Unresolved context unknowns", placeholder "context_unknowns", ""]

/-- Where templates come from. -/
inductive TemplateSource where
  | verified (pack : LoadedPack)
  | unverified (root : PackPath)
  | builtin

section Render

open Access
open PyStr (ofString)

variable (hash : ByteArray → String) (disk : Nat → Directory)

/-- The text of UTF-8 bytes, or the codec's error. -/
def decodeText (bytes : ByteArray) : Loading String :=
  found (String.fromUTF8? bytes) .unicodeDecode

/-- `_verified_template`. -/
def verifiedTemplate (pack : LoadedPack) (templateName : String) : Loading (Option String) := do
  let relative := ofString (adapterTemplateDir ++ "/" ++ templateName)
  if (pack.provenance.fileDigests.get? relative).isSome then
    let bytes ← pack.readVerified disk hash relative
    let text ← decodeText bytes
    pure (some text)
  else
    let present ← ask disk (·.present (pack.provenance.root ++ pathParts relative))
    check (!present) (refused "adapter template is not listed in the verified manifest" relative)
    pure none

/-- The template a renderer reads. -/
def templateText (source : TemplateSource) (templateName : String) : Loading String := do
  match source with
  | .verified pack =>
    let text ← verifiedTemplate hash disk pack templateName
    pure (text.getD defaultTemplate)
  | .unverified root =>
    let path := root ++ pathParts (ofString (adapterTemplateDir ++ "/" ++ templateName))
    let isFile ← ask disk (·.isFile path)
    if isFile then
      let bytes ← demand disk (·.read path) .osError
      let text ← decodeText bytes
      pure (String.ofList (universalNewlines text.toList))
    else pure defaultTemplate
  | .builtin => pure defaultTemplate

/-- `AdapterRenderer._render_template`. -/
def renderTemplate (source : TemplateSource) (templateName : String) (packet : ExecutionPacket)
    (digest : String) : Access AdapterFault String := do
  let template ← mapError .pack (templateText hash disk source templateName)
  lift (fillTemplate templateName template packet digest)

end Render

end CognitiveRuntime
