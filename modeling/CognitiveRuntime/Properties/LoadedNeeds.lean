import CognitiveRuntime.Compiler.RawNeeds
import CognitiveRuntime.Properties.DeclaredNeeds

/-!
# Loaded needs that are texts

On a document without surrogates the parser over loaded values is the
parser of the model: it accepts the same needs and refuses the others
with the same error. So what parsing guarantees is proved once, over
loaded values (`parseRawContextNeeds_accepted`).
-/

namespace CognitiveRuntime

open Ordered Fallible
open PyStr (ofString)

/-! ## Texts -/

theorem strictMono_ofString : StrictMono ofString :=
  strictMono_of_le_iff_le fun _ _ => PyStr.ofString_le_iff.symm

theorem rawBlank_ofString (s : String) : rawBlank (ofString s) = isBlank s := by
  unfold rawBlank isBlank PyStr.ofString
  rw [List.all_map]
  congr 1
  funext c
  rw [Function.comp_apply, CodePoint.char?_ofChar]
  rfl

theorem get?_toPyEntries (entry : List (String × Json)) (key : String) :
    Payload.get? (Json.toPyEntries entry) key = (Json.field key entry).map Json.toPy := by
  unfold Payload.get?
  induction entry with
  | nil => rfl
  | cons e rest ih =>
      obtain ⟨k, j⟩ := e
      rw [Json.toPyEntries, List.find?_cons, Json.field]
      by_cases h : k = key
      · simp [h]
      · have hne : ofString k ≠ ofString key := fun hk => h (PyStr.ofString_inj hk)
        simpa [h, hne] using ih

theorem string?_toPyEntries (entry : List (String × Json)) (key : String) :
    Payload.string? (Json.toPyEntries entry) key = (stringField entry key).map ofString := by
  unfold Payload.string? stringField
  rw [get?_toPyEntries]
  cases Json.field key entry with
  | none => rfl
  | some j => cases j <;> rfl

theorem bool?_toPyEntries (entry : List (String × Json)) (key : String) :
    Payload.bool? (Json.toPyEntries entry) key = boolField entry key := by
  unfold Payload.bool? boolField
  rw [get?_toPyEntries]
  cases Json.field key entry with
  | none => rfl
  | some j => cases j <;> rfl

/-- A string that is there and not blank. -/
theorem filter_rawBlank (s : Option String) :
    (s.map ofString).filter (fun s => !rawBlank s)
      = (s.filter fun s => !isBlank s).map ofString := by
  cases s with
  | none => rfl
  | some s =>
      rw [Option.map_some, Option.filter_some, Option.filter_some, rawBlank_ofString]
      split <;> rfl

theorem rawTruthy_toPy (j : Json) : rawTruthy j.toPy = truthy j := by
  cases j with
  | str s =>
      rw [Json.toPy, rawTruthy, truthy, PyStr.ofString]
      by_cases h : s = ""
      · simp [h]
      · have hne : s.toList ≠ [] := fun hs => h (String.toList_injective hs)
        simp [h, hne]
  | arr items => cases items <;> rfl
  | obj entries => cases entries <;> rfl
  | _ => rfl

/-- A traversal of images, each step the image of a step. -/
theorem mapM_images {α β γ δ : Type} {f : β → Option δ} {k : α → Option γ} {g : α → β} {h : γ → δ}
    (hstep : ∀ a, f (g a) = (k a).map h) (l : List α) :
    (l.map g).mapM f = (l.mapM k).map (List.map h) := by
  induction l with
  | nil => rfl
  | cons a l ih =>
      rw [List.map_cons, List.mapM_cons, List.mapM_cons, ih, hstep]
      cases k a with
      | none => rfl
      | some c => cases l.mapM k <;> rfl

theorem rawStringsOrEmpty_toPy (value : Option Json) :
    rawStringsOrEmpty (value.map Json.toPy) = (stringsOrEmpty value).map (List.map ofString) := by
  cases value with
  | none => rfl
  | some j =>
      rw [Option.map_some]
      unfold rawStringsOrEmpty stringsOrEmpty
      dsimp only
      rw [rawTruthy_toPy]
      cases truthy j with
      | false => rfl
      | true =>
          cases j with
          | arr items =>
              simp only [Json.toPy, Json.toPyItems_eq, if_true]
              refine mapM_images (fun item => ?_) items
              cases item <;> rfl
          | _ => rfl

theorem rawEntries_toPy (j : Json) :
    rawEntries j.toPy = (mappingEntries j).map Json.toPyEntries := by
  cases j <;> rfl

/-! ## Refusals -/

/-- The error over the code points of its texts: parsing raises no other. -/
def RuntimeError.asLoaded : RuntimeError → RawInvalid
  | .invalidValue message path details => ⟨message, ofString (path.getD ""), details.toPy⟩
  | .validation message => ⟨message, [], .null⟩
  | .strictParse message _ path => ⟨message, ofString path, .null⟩
  | .missingKey key => ⟨key, [], .null⟩
  | .unknownField message path => ⟨message, ofString path, .null⟩

/-- A result and the same result over code points. -/
abbrev LoadedAs {α β : Type} (f : α → β) : Except RuntimeError α → Except RawInvalid β → Prop :=
  fun x y => Agree (fun a b => b = f a) (x.mapError RuntimeError.asLoaded) y

theorem enumValue_loaded {α : Type} (raw : Option Json) (members : List α) (value : α → String)
    (fieldName sourceRef needId : String) :
    rawEnumValue (raw.map Json.toPy) members value fieldName (ofString sourceRef) (ofString needId)
      = (enumValue raw members value fieldName sourceRef needId).mapError
          RuntimeError.asLoaded := by
  have hfind : (fun member => decide ((raw.map Json.toPy).bind rawStr?
      = some (ofString (value member))))
      = fun member => decide (raw = some (.str (value member))) := by
    funext member
    congr 1
    refine propext ?_
    cases raw with
    | none => simp
    | some j => cases j <;> simp [Json.toPy, rawStr?, strictMono_ofString.injective.eq_iff]
  unfold rawEnumValue enumValue
  rw [hfind]
  cases members.find? fun member => decide (raw = some (.str (value member))) with
  | some member => rfl
  | none => cases raw <;> rfl

theorem ofStrings_toPy (l : List String) :
    (Json.ofStrings l).toPy = .arr ((l.map ofString).map .str) := by
  rw [Json.ofStrings, Json.toPy, Json.toPyItems_eq, List.map_map, List.map_map]
  rfl

theorem mem_map_ofString {s : String} {l : List String} : ofString s ∈ l.map ofString ↔ s ∈ l :=
  List.mem_map_of_injective strictMono_ofString.injective

/-- The keys outside a list are those of the mapping as text. -/
theorem unknownKeys_toPy (entry : List (String × Json)) (known : List String) :
    sortedUnique (((Json.toPyEntries entry).map Prod.fst).filter (· ∉ known.map ofString))
      = (sortedUnique ((entry.map Prod.fst).filter (· ∉ known))).map ofString := by
  rw [← sortedUnique_map strictMono_ofString, Json.toPyEntries_eq, List.map_map]
  congr 1
  rw [show (entry.map (Prod.fst ∘ fun e : String × Json => (ofString e.1, e.2.toPy)))
    = (entry.map Prod.fst).map ofString by rw [List.map_map]; rfl, List.filter_map]
  congr 1
  refine List.filter_congr fun key _ => ?_
  simp only [Function.comp_apply, mem_map_ofString]

/-! ## Parsing -/

theorem parseNeedEntry_loaded (sourceRef : String) (seen : List String) (raw : Json) :
    LoadedAs (KernelContextNeed.map ofString) (parseNeedEntry sourceRef seen raw)
      (parseRawNeedEntry (ofString sourceRef) (seen.map ofString) raw.toPy) := by
  unfold LoadedAs parseNeedEntry parseRawNeedEntry
  simp only [mapError_bind, mapError_require, mapError_ensure, rawEntries_toPy,
    RuntimeError.asLoaded, Option.getD_some, Json.toPy, Json.toPyEntries, ofStrings_toPy]
  refine (Agree.require_map _ _ _).bind ?_
  rintro entry _ rfl
  simp only [unknownKeys_toPy, List.map_eq_nil_iff, get?_toPyEntries, string?_toPyEntries,
    bool?_toPyEntries, filter_rawBlank, rawStringsOrEmpty_toPy]
  refine Agree.bind_same fun _ => ?_
  refine (Agree.require_map _ _ _).bind ?_
  rintro needId _ rfl
  simp only [mem_map_ofString, enumValue_loaded]
  refine Agree.bind_same fun _ => Agree.bind_same fun required => ?_
  refine (Agree.require_map _ _ _).bind ?_
  rintro reason _ rfl
  refine (Agree.require_map _ _ _).bind ?_
  rintro keys _ rfl
  simp only [List.isEmpty_map]
  refine Agree.bind_same fun kind => Agree.bind_same fun coverage => Agree.bind_same fun level =>
    Agree.bind_same fun _ => Agree.bind_same fun _ => ?_
  exact .ok (by rw [KernelContextNeed.map, sortedUnique_map strictMono_ofString])

theorem parseNeedEntries_loaded (sourceRef : String) :
    ∀ (entries : List Json) (seen : List String),
      LoadedAs (List.map (KernelContextNeed.map ofString))
        (parseNeedEntries sourceRef seen entries)
        (parseRawNeedEntries (ofString sourceRef) (seen.map ofString) (Json.toPyItems entries))
  | [], _ => .ok rfl
  | entry :: rest, seen => by
      unfold LoadedAs parseNeedEntries
      rw [Json.toPyItems, parseRawNeedEntries]
      simp only [mapError_bind]
      refine (parseNeedEntry_loaded sourceRef seen entry).bind ?_
      rintro need _ rfl
      refine (parseNeedEntries_loaded sourceRef rest (need.needId :: seen)).bind ?_
      rintro needs _ rfl
      exact .ok rfl

/-- On a document that is a text, what is loaded is parsed as the model
parses it: the same needs, or the same refusal. -/
theorem parseContextNeeds_loaded (document : List (String × Json)) (sourceRef : String) :
    LoadedAs (List.map (KernelContextNeed.map ofString)) (parseContextNeeds document sourceRef)
      (parseRawContextNeeds (Json.toPyEntries document) (ofString sourceRef)) := by
  unfold LoadedAs parseContextNeeds parseRawContextNeeds
  rw [get?_toPyEntries]
  cases Json.field "context_needs" document with
  | none => exact .ok rfl
  | some declared =>
      cases declared with
      | null => exact .ok rfl
      | arr entries =>
          simp only [Option.map_some, Json.toPy, mapError_bind]
          refine (parseNeedEntries_loaded sourceRef entries []).bind ?_
          rintro needs _ rfl
          refine .ok ?_
          -- code points are ordered as texts are, so the identifiers sort alike
          have hkey (need : KernelContextNeed) :
              (need.map ofString).needId = ofString need.needId := rfl
          exact sortedBy_image strictMono_ofString hkey needs
      | _ => exact .error _

theorem parseRawContextNeeds_of_text {document : List (String × Json)} {sourceRef : String}
    {needs : List KernelContextNeed} (h : parseContextNeeds document sourceRef = .ok needs) :
    parseRawContextNeeds (Json.toPyEntries document) (ofString sourceRef)
      = .ok (needs.map (KernelContextNeed.map ofString)) := by
  have hloaded := parseContextNeeds_loaded document sourceRef
  unfold LoadedAs at hloaded
  rw [h] at hloaded
  obtain ⟨loaded, hparse, rfl⟩ := hloaded.exists_ok rfl
  exact hparse

/-! ## What parsing guarantees -/

theorem parseRawNeedEntry_accepted {sourceRef : PyStr} {seen : List PyStr} {raw : PyJson}
    {need : KernelContextNeed PyStr} (h : parseRawNeedEntry sourceRef seen raw = .ok need) :
    need.AcceptedBy rawBlank := by
  simp only [parseRawNeedEntry, bind_eq_ok, require_eq_ok, ensure_eq_ok] at h
  obtain ⟨entry, -, _, -, needId, -, _, -, required, -, reason, hreason, keys, -, kind, -,
    coverage, -, level, -, _, hmissing, _, hstray, h⟩ := h
  cases h
  refine ⟨?_, sortedUnique_idem keys, ?_⟩
  · simpa using (Option.filter_eq_some_iff.mp hreason).2
  · show coverage = .semanticKeys ↔ sortedUnique keys ≠ []
    rw [Ne, sortedUnique_eq_nil]
    cases keys <;> cases coverage <;> simp_all

theorem parseRawNeedEntries_accepted {sourceRef : PyStr} :
    ∀ {entries : List PyJson} {seen : List PyStr} {needs : List (KernelContextNeed PyStr)},
      parseRawNeedEntries sourceRef seen entries = .ok needs →
        ∀ need ∈ needs, need.AcceptedBy rawBlank
  | [], _, _, h, need, hneed => by
      cases h
      cases hneed
  | entry :: rest, seen, needs, h, need, hneed => by
      simp only [parseRawNeedEntries, bind_eq_ok] at h
      obtain ⟨first, hfirst, others, hothers, h⟩ := h
      cases h
      rcases List.mem_cons.mp hneed with rfl | hneed
      · exact parseRawNeedEntry_accepted hfirst
      · exact parseRawNeedEntries_accepted hothers need hneed

/-- Every need a loaded document declares is well formed. -/
theorem parseRawContextNeeds_accepted {kernelDoc : Payload} {sourceRef : PyStr}
    {needs : List (KernelContextNeed PyStr)}
    (h : parseRawContextNeeds kernelDoc sourceRef = .ok needs) :
    ∀ need ∈ needs, need.AcceptedBy rawBlank := by
  unfold parseRawContextNeeds at h
  intro need hneed
  split at h
  · cases h
    cases hneed
  · cases h
    cases hneed
  · simp only [bind_eq_ok] at h
    obtain ⟨parsed, hparsed, h⟩ := h
    cases h
    exact parseRawNeedEntries_accepted hparsed need ((mem_sortedBy _).mp hneed)
  · cases h

theorem acceptedBy_of_map {need : KernelContextNeed}
    (h : (need.map ofString).AcceptedBy rawBlank) : need.Accepted where
  reason_ne := (rawBlank_ofString need.reason).symm.trans h.reason_ne
  keys_canonical := by
    have hkeys : sortedUnique (need.requiredSemanticKeys.map ofString)
        = need.requiredSemanticKeys.map ofString := h.keys_canonical
    rw [sortedUnique_map strictMono_ofString] at hkeys
    exact strictMono_ofString.injective.list_map hkeys
  keys_iff := by
    have hcoverage : need.coverage = .semanticKeys
        ↔ need.requiredSemanticKeys.map ofString ≠ [] := h.keys_iff
    rwa [Ne, List.map_eq_nil_iff] at hcoverage

/-- Every need a kernel document declares is well formed. -/
theorem parseContextNeeds_accepted {kernelDoc : List (String × Json)} {sourceRef : String}
    {needs : List KernelContextNeed} (h : parseContextNeeds kernelDoc sourceRef = .ok needs) :
    ∀ need ∈ needs, need.Accepted := fun need hneed =>
  acceptedBy_of_map (parseRawContextNeeds_accepted (parseRawContextNeeds_of_text h)
    (need.map ofString) (List.mem_map_of_mem hneed))

end CognitiveRuntime
