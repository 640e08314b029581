import CognitiveRuntime.Models.Artifacts

/-!
# Reading an execution graph from a mapping

`ArtifactModel.from_mapping`: the fields of a model are read in the
order it declares them, and a key that no field claimed is refused. A
field with an alias is read under the alias first and under its own name
otherwise. Only the first error is kept, with the place it was found at.

`fromMapping_toJson` says that a graph is read back from the document it
serializes to.
-/

namespace CognitiveRuntime

open Fallible

/-! ## Field readers -/

/-- A validation error: what went wrong, and where. -/
structure FieldError where
  type : String
  msg : String
  loc : List String
  deriving DecidableEq

abbrev Reader (α : Type) := Json → Except FieldError α

/-- The entries of a mapping. -/
abbrev Entries := List (String × Json)

section Readers

variable {α : Type}

/-- An error found under a field or an index. -/
def within (part : String) : Except FieldError α → Except FieldError α
  | .ok a => .ok a
  | .error e => .error { e with loc := part :: e.loc }

def readString : Reader String
  | .str s => .ok s
  | _ => .error ⟨"string_type", "Input should be a valid string", []⟩

/-- `str | None`. -/
def readOption : Reader (Option String)
  | .null => .ok none
  | j => readString j >>= fun s => .ok (some s)

def readItems (read : Reader α) : Nat → List Json → Except FieldError (List α)
  | _, [] => .ok []
  | i, j :: rest => do
    let a ← within (toString i) (read j)
    let as ← readItems read (i + 1) rest
    .ok (a :: as)

def readList (read : Reader α) : Reader (List α)
  | .arr items => readItems read 0 items
  | _ => .error ⟨"list_type", "Input should be a valid list", []⟩

/-- The key a field is given under, the first of its keys that is
there. -/
def lookupKey (keys : List String) (entries : Entries) : Option (String × Json) :=
  keys.findSome? fun key => (Json.field key entries).map fun j => (key, j)

def requiredField (keys : List String) (read : Reader α) (entries : Entries) :
    Except FieldError α :=
  match lookupKey keys entries with
  | some (key, j) => within key (read j)
  | none => .error ⟨"missing", "Field required", keys.take 1⟩

def defaultedField (key : String) (read : Reader α) (default : α) (entries : Entries) :
    Except FieldError α :=
  match Json.field key entries with
  | some j => within key (read j)
  | none => .ok default

/-- `extra="forbid"`: a key no field was read under. -/
def forbidExtra (fields : List (List String)) (entries : Entries) : Except FieldError Unit :=
  let used := fields.filterMap fun keys => (lookupKey keys entries).map Prod.fst
  match entries.find? fun e => e.1 ∉ used with
  | some e => .error ⟨"extra_forbidden", "Extra inputs are not permitted", [e.1]⟩
  | none => .ok ()

def readModel (name : String) (read : Entries → Except FieldError α) : Reader α
  | .obj entries => read entries
  | _ => .error ⟨"model_type",
      "Input should be a valid dictionary or instance of " ++ name, []⟩

end Readers

/-! ## The models of a graph -/

def ExecutionGraphNode.read : Reader ExecutionGraphNode :=
  readModel "ExecutionGraphNode" fun entries => do
    let id ← requiredField ["id"] readString entries
    let phase ← requiredField ["phase"] readString entries
    let kernelRefs ← requiredField ["kernel_refs"] (readList readString) entries
    let outputs ← requiredField ["outputs"] (readList readString) entries
    let status ← defaultedField "status" readOption none entries
    let obligationRefs ← defaultedField "obligation_refs" (readList readString) [] entries
    let inputs ← defaultedField "inputs" (readList readString) [] entries
    let entryGates ← defaultedField "entry_gates" (readList readString) [] entries
    let exitGates ← defaultedField "exit_gates" (readList readString) [] entries
    let evidenceRequirements ←
      defaultedField "evidence_requirements" (readList readString) [] entries
    let failureRoutes ← defaultedField "failure_routes" (readList readString) [] entries
    let disposition ← defaultedField "disposition" readOption none entries
    forbidExtra [["id"], ["phase"], ["kernel_refs"], ["outputs"], ["status"],
      ["obligation_refs"], ["inputs"], ["entry_gates"], ["exit_gates"],
      ["evidence_requirements"], ["failure_routes"], ["disposition"]] entries
    .ok { id, phase, kernelRefs, outputs, status, obligationRefs, inputs, entryGates, exitGates,
          evidenceRequirements, failureRoutes, disposition }

def ExecutionGraphEdge.read : Reader ExecutionGraphEdge :=
  readModel "ExecutionGraphEdge" fun entries => do
    let fromNode ← requiredField ["from", "from_node"] readString entries
    let toNode ← requiredField ["to", "to_node"] readString entries
    let reason ← defaultedField "reason" readOption none entries
    forbidExtra [["from", "from_node"], ["to", "to_node"], ["reason"]] entries
    .ok { fromNode, toNode, reason }

def ExecutionGraph.read : Reader ExecutionGraph :=
  readModel "ExecutionGraph" fun entries => do
    let graphId ← requiredField ["graph_id"] readString entries
    let sourceContract ← requiredField ["source_contract"] readString entries
    let nodes ← requiredField ["nodes"] (readList ExecutionGraphNode.read) entries
    let edges ← requiredField ["edges"] (readList ExecutionGraphEdge.read) entries
    let terminalNode ← requiredField ["terminal_node"] readString entries
    let validationGates ← requiredField ["validation_gates"] (readList readString) entries
    let obligationRefs ← defaultedField "obligation_refs" (readList readString) [] entries
    let terminalDisposition ← defaultedField "terminal_disposition" readOption none entries
    forbidExtra [["graph_id"], ["source_contract"], ["nodes"], ["edges"], ["terminal_node"],
      ["validation_gates"], ["obligation_refs"], ["terminal_disposition"]] entries
    .ok { graphId, sourceContract, nodes, edges, terminalNode, validationGates, obligationRefs,
          terminalDisposition }

/-- `_translate_validation_error`. -/
def translateValidationError (e : FieldError) : RuntimeError :=
  let loc := if e.loc = [] then "<root>" else ".".intercalate e.loc
  if e.type = "extra_forbidden" then .unknownField e.msg loc
  else .invalidValue e.msg (some loc)
    (.obj [("type", .str e.type), ("loc", .ofStrings e.loc), ("msg", .str e.msg)])

/-- `ExecutionGraph.from_mapping`. -/
def ExecutionGraph.fromMapping (doc : Json) : Except RuntimeError ExecutionGraph :=
  (ExecutionGraph.read doc).mapError translateValidationError

/-- `str` of a model validation error: its path, if it has one, and its
message. -/
def RuntimeError.text : RuntimeError → String
  | .invalidValue message (some path) _ =>
    if path = "" then message else path ++ ": " ++ message
  | .invalidValue message none _ => message
  | .unknownField message path => if path = "" then message else path ++ ": " ++ message
  | .strictParse message _ path => if path = "" then message else path ++ ": " ++ message
  | .validation message => message
  | .missingKey key => key

/-! ## What a read establishes -/

section Inversion

variable {α : Type} {read : Reader α}

theorem within_eq_ok {part : String} {x : Except FieldError α} {a : α} :
    within part x = .ok a ↔ x = .ok a := by
  cases x <;> simp [within]

theorem readString_eq_ok {j : Json} {s : String} : readString j = .ok s ↔ j = .str s := by
  cases j <;> simp [readString]

theorem readItems_eq_ok {as : List α} :
    ∀ {l : List Json} {i : Nat},
      readItems read i l = .ok as ↔ List.Forall₂ (fun j a => read j = .ok a) l as := by
  induction as with
  | nil =>
      intro l i
      cases l <;> simp [readItems]
  | cons a as ih =>
      intro l i
      cases l with
      | nil => simp [readItems]
      | cons j rest =>
          simp only [readItems, bind_eq_ok, within_eq_ok, List.forall₂_cons]
          constructor
          · rintro ⟨b, hb, bs, hbs, h⟩
            obtain ⟨rfl, rfl⟩ := List.cons.inj (Except.ok.inj h)
            exact ⟨hb, ih.mp hbs⟩
          · rintro ⟨ha, has⟩
            exact ⟨a, ha, as, ih.mpr has, rfl⟩

theorem readList_eq_ok {j : Json} {as : List α} :
    readList read j = .ok as ↔
      ∃ items, j = .arr items ∧ List.Forall₂ (fun j a => read j = .ok a) items as := by
  cases j <;> simp [readList, readItems_eq_ok]

theorem readModel_eq_ok {name : String} {fields : Entries → Except FieldError α} {j : Json}
    {a : α} : readModel name fields j = .ok a ↔ ∃ entries, j = .obj entries ∧
      fields entries = .ok a := by
  cases j <;> simp [readModel]

theorem requiredField_eq_ok {keys : List String} {entries : Entries} {a : α} :
    requiredField keys read entries = .ok a ↔
      ∃ key j, lookupKey keys entries = some (key, j) ∧ read j = .ok a := by
  unfold requiredField
  cases lookupKey keys entries with
  | none => simp
  | some e =>
      obtain ⟨key, j⟩ := e
      simp [within_eq_ok]

/-- A field without an alias is read under its name. -/
theorem field_of_required {key : String} {entries : Entries} {a : α}
    (h : requiredField [key] read entries = .ok a) :
    ∃ j, Json.field key entries = some j ∧ read j = .ok a := by
  obtain ⟨k, j, hlookup, hread⟩ := requiredField_eq_ok.mp h
  unfold lookupKey at hlookup
  rw [List.findSome?_singleton] at hlookup
  obtain ⟨j', hfield, heq⟩ := Option.map_eq_some_iff.mp hlookup
  cases heq
  exact ⟨j, hfield, hread⟩

/-- What stands under the first key of a field is what was read. -/
theorem read_of_field {key : String} {others : List String} {entries : Entries} {j : Json} {a : α}
    (h : requiredField (key :: others) read entries = .ok a)
    (hfield : Json.field key entries = some j) : read j = .ok a := by
  obtain ⟨k, j', hlookup, hread⟩ := requiredField_eq_ok.mp h
  unfold lookupKey at hlookup
  rw [List.findSome?_cons, hfield] at hlookup
  cases hlookup
  exact hread

end Inversion

/-- What a parsed node has under its id. -/
theorem ExecutionGraphNode.read_id {j : Json} {n : ExecutionGraphNode}
    (h : ExecutionGraphNode.read j = .ok n) : j.get? "id" = some (.str n.id) := by
  unfold ExecutionGraphNode.read at h
  obtain ⟨entries, rfl, hfields⟩ := readModel_eq_ok.mp h
  simp only [bind_eq_ok] at hfields
  obtain ⟨id, hid, phase, -, kernelRefs, -, outputs, -, status, -, obligationRefs, -, inputs, -,
    entryGates, -, exitGates, -, evidence, -, failureRoutes, -, disposition, -, _, -, hn⟩ := hfields
  obtain rfl := Except.ok.inj hn
  obtain ⟨j, hfield, hread⟩ := field_of_required hid
  rw [readString_eq_ok] at hread
  rw [hread] at hfield
  exact hfield

/-- What a parsed edge has under its aliases, where it has anything. -/
theorem ExecutionGraphEdge.read_ends {j : Json} {e : ExecutionGraphEdge}
    (h : ExecutionGraphEdge.read j = .ok e) :
    (∀ v, j.get? "from" = some v → v = .str e.fromNode)
      ∧ ∀ v, j.get? "to" = some v → v = .str e.toNode := by
  unfold ExecutionGraphEdge.read at h
  obtain ⟨entries, rfl, hfields⟩ := readModel_eq_ok.mp h
  simp only [bind_eq_ok] at hfields
  obtain ⟨fromNode, hfrom, toNode, hto, reason, -, _, -, he⟩ := hfields
  obtain rfl := Except.ok.inj he
  exact ⟨fun v hv => readString_eq_ok.mp (read_of_field hfrom hv),
    fun v hv => readString_eq_ok.mp (read_of_field hto hv)⟩

/-- A document that parses lists the nodes and edges of its graph. -/
theorem fromMapping_lists {doc : Json} {g : ExecutionGraph}
    (h : ExecutionGraph.fromMapping doc = .ok g) :
    ∃ nodes edges, doc.get? "nodes" = some (.arr nodes) ∧ doc.get? "edges" = some (.arr edges)
      ∧ List.Forall₂ (fun j n => ExecutionGraphNode.read j = .ok n) nodes g.nodes
      ∧ List.Forall₂ (fun j e => ExecutionGraphEdge.read j = .ok e) edges g.edges := by
  have hread : ExecutionGraph.read doc = .ok g := by
    unfold ExecutionGraph.fromMapping at h
    cases hr : ExecutionGraph.read doc with
    | error e => rw [hr] at h; cases h
    | ok g' => rw [hr] at h; exact congrArg Except.ok (Except.ok.inj h)
  unfold ExecutionGraph.read at hread
  obtain ⟨entries, rfl, hfields⟩ := readModel_eq_ok.mp hread
  simp only [bind_eq_ok] at hfields
  obtain ⟨graphId, -, source, -, nodes, hnodes, edges, hedges, terminal, -, gates, -,
    obligationRefs, -, disposition, -, _, -, hg⟩ := hfields
  obtain rfl := Except.ok.inj hg
  obtain ⟨j, hfield, hlist⟩ := field_of_required hnodes
  obtain ⟨j', hfield', hlist'⟩ := field_of_required hedges
  obtain ⟨items, rfl, hitems⟩ := readList_eq_ok.mp hlist
  obtain ⟨items', rfl, hitems'⟩ := readList_eq_ok.mp hlist'
  exact ⟨items, items', hfield, hfield', hitems, hitems'⟩

/-! ## Round trip -/

section RoundTrip

@[simp] theorem readString_str (s : String) : readString (.str s) = .ok s := rfl

@[simp] theorem readOption_ofOption (o : Option String) : readOption (.ofOption o) = .ok o := by
  cases o <;> rfl

/-- A list is read back item by item. -/
theorem readItems_map {α : Type} {read : Reader α} {write : α → Json}
    (h : ∀ a, read (write a) = .ok a) :
    ∀ (l : List α) (i : Nat), readItems read i (l.map write) = .ok l
  | [], _ => rfl
  | a :: l, i => by
      rw [List.map_cons, readItems, h a, readItems_map h l (i + 1)]
      rfl

theorem readList_map {α : Type} {read : Reader α} {write : α → Json}
    (h : ∀ a, read (write a) = .ok a) (l : List α) :
    readList read (.arr (l.map write)) = .ok l :=
  readItems_map h l 0

@[simp] theorem readList_ofStrings (l : List String) :
    readList readString (.ofStrings l) = .ok l :=
  readList_map readString_str l

/-- A field given under the first of its keys. -/
theorem requiredField_of_field {α : Type} {key : String} {others : List String}
    {read : Reader α} {entries : Entries} {j : Json} {a : α}
    (hfield : Json.field key entries = some j) (hread : read j = .ok a) :
    requiredField (key :: others) read entries = .ok a := by
  unfold requiredField lookupKey
  rw [List.findSome?_cons, hfield]
  show within key (read j) = .ok a
  rw [hread]
  rfl

theorem defaultedField_of_field {α : Type} {key : String} {read : Reader α} {default : α}
    {entries : Entries} {j : Json} {a : α} (hfield : Json.field key entries = some j)
    (hread : read j = .ok a) : defaultedField key read default entries = .ok a := by
  unfold defaultedField
  rw [hfield]
  show within key (read j) = .ok a
  rw [hread]
  rfl

theorem field_isSome {key : String} : ∀ {entries : Entries}, key ∈ entries.map Prod.fst →
    ∃ j, Json.field key entries = some j
  | (k, j) :: rest, h => by
      unfold Json.field
      by_cases hk : k = key
      · exact ⟨j, if_pos hk⟩
      · rw [if_neg hk]
        exact field_isSome ((List.mem_cons.mp h).resolve_left (Ne.symm hk))

/-- Nothing is refused where every key is the first key of a field. -/
theorem forbidExtra_of_declared {fields : List (List String)} {entries : Entries}
    (h : ∀ key ∈ entries.map Prod.fst, ∃ keys ∈ fields, keys.head? = some key) :
    forbidExtra fields entries = .ok () := by
  have hused : ∀ e ∈ entries, e.1 ∈ fields.filterMap fun keys =>
      (lookupKey keys entries).map Prod.fst := by
    intro e he
    have hkey : e.1 ∈ entries.map Prod.fst := List.mem_map_of_mem he
    obtain ⟨keys, hkeys, hhead⟩ := h e.1 hkey
    obtain ⟨others, rfl⟩ := List.head?_eq_some_iff.mp hhead
    obtain ⟨j, hj⟩ := field_isSome hkey
    refine List.mem_filterMap.mpr ⟨_, hkeys, ?_⟩
    unfold lookupKey
    rw [List.findSome?_cons, hj]
    rfl
  have hnone : (entries.find? fun e => e.1 ∉ fields.filterMap fun keys =>
      (lookupKey keys entries).map Prod.fst) = none := by
    rw [List.find?_eq_none]
    intro e he
    simpa using hused e he
  unfold forbidExtra
  dsimp only
  rw [hnone]

theorem ExecutionGraphNode.read_toJson (n : ExecutionGraphNode) :
    ExecutionGraphNode.read n.toJson = .ok n := by
  unfold ExecutionGraphNode.read ExecutionGraphNode.toJson readModel
  dsimp only
  rw [requiredField_of_field rfl (readString_str _), ok_bind,
    requiredField_of_field rfl (readString_str _), ok_bind,
    requiredField_of_field rfl (readList_ofStrings _), ok_bind,
    requiredField_of_field rfl (readList_ofStrings _), ok_bind,
    defaultedField_of_field rfl (readOption_ofOption _), ok_bind,
    defaultedField_of_field rfl (readList_ofStrings _), ok_bind,
    defaultedField_of_field rfl (readList_ofStrings _), ok_bind,
    defaultedField_of_field rfl (readList_ofStrings _), ok_bind,
    defaultedField_of_field rfl (readList_ofStrings _), ok_bind,
    defaultedField_of_field rfl (readList_ofStrings _), ok_bind,
    defaultedField_of_field rfl (readList_ofStrings _), ok_bind,
    defaultedField_of_field rfl (readOption_ofOption _), ok_bind,
    forbidExtra_of_declared (by simp), ok_bind]

theorem ExecutionGraphEdge.read_toJson (e : ExecutionGraphEdge) :
    ExecutionGraphEdge.read e.toJson = .ok e := by
  unfold ExecutionGraphEdge.read ExecutionGraphEdge.toJson readModel
  dsimp only
  rw [requiredField_of_field rfl (readString_str _), ok_bind,
    requiredField_of_field rfl (readString_str _), ok_bind,
    defaultedField_of_field rfl (readOption_ofOption _), ok_bind,
    forbidExtra_of_declared (by simp), ok_bind]

theorem ExecutionGraph.read_toJson (g : ExecutionGraph) :
    ExecutionGraph.read g.toJson = .ok g := by
  have hnodes := readList_map ExecutionGraphNode.read_toJson g.nodes
  have hedges := readList_map ExecutionGraphEdge.read_toJson g.edges
  unfold ExecutionGraph.read ExecutionGraph.toJson readModel
  dsimp only
  rw [requiredField_of_field rfl (readString_str _), ok_bind,
    requiredField_of_field rfl (readString_str _), ok_bind,
    requiredField_of_field rfl hnodes, ok_bind,
    requiredField_of_field rfl hedges, ok_bind,
    requiredField_of_field rfl (readString_str _), ok_bind,
    requiredField_of_field rfl (readList_ofStrings _), ok_bind,
    defaultedField_of_field rfl (readList_ofStrings _), ok_bind,
    defaultedField_of_field rfl (readOption_ofOption _), ok_bind,
    forbidExtra_of_declared (by simp), ok_bind]

/-- A graph is read back from the document it serializes to. -/
theorem fromMapping_toJson (g : ExecutionGraph) :
    ExecutionGraph.fromMapping g.toJson = .ok g := by
  unfold ExecutionGraph.fromMapping
  rw [ExecutionGraph.read_toJson]
  rfl

end RoundTrip

end CognitiveRuntime
