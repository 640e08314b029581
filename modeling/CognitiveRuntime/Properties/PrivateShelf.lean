import CognitiveRuntime.Data.PrivateView
import CognitiveRuntime.Properties.RunHistories

/-!
# The private shelf of a principal

The run store is shared, bounded and evicting. To a principal none of
whose live runs is taken for capacity it is a shelf of its own: a list of
its records from the least to the most recently used, without any bound
and with nobody else's calls. A principal that stays below an even share
of the bound is such a principal.

What a state of the store shows of the shelf depends on the clock, since
expired records leave at the calls of anybody: the two agree on what is
live at every reading the clock can still give.
-/

namespace CognitiveRuntime

open Fallible PrivateView

section Shelf

variable {Time Payload : Type} [LE Time] [DecidableLE Time]

/-! ## The shelf -/

/-- A principal's records, from the least to the most recently used. -/
abbrev Shelf (Time Payload : Type) := List (RunRecord Time Payload)

/-- The records that have not expired. -/
def Shelf.live (shelf : Shelf Time Payload) (now : Time) : Shelf Time Payload :=
  shelf.filter fun record => !decide (record.expiresAt ≤ now)

/-- Look for a record, and put it last if it is there. -/
def Shelf.fetch (shelf : Shelf Time Payload) (rid : String) :
    Shelf Time Payload × Option (RunRecord Time Payload) :=
  match shelf.find? fun record => record.runId = rid with
  | none => (shelf, none)
  | some record => ((shelf.filter fun other => other.runId ≠ rid) ++ [record], some record)

/-- A shelf serves the calls of its owner. -/
def Shelf.serve [Add Time] (settings : StoreSettings Time) (shelf : Shelf Time Payload) :
    StoreCall Time Payload → Shelf Time Payload × StoreReply Time Payload
  | .create principal payload rid now =>
      let record := RunStore.newRecord settings principal payload rid now
      (shelf.live now ++ [record], .created record)
  | .get rid _ now =>
      let fetched := (shelf.live now).fetch rid
      (fetched.1, .fetched fetched.2)
  | .require rid _ now =>
      let fetched := (shelf.live now).fetch rid
      (fetched.1, .required (require fetched.2 { message := "run not found", path := rid }))
  | .list _ now => (shelf.live now, .listed (shelf.live now))

/-! ## What a store shows of a shelf -/

namespace RunStore

variable {s : RunStore Time Payload} {principal : String}

/-- The record under an id, if the principal owns it. -/
def ownRun (s : RunStore Time Payload) (principal rid : String) :
    Option (RunRecord Time Payload) :=
  (s.items.lookup rid).filter fun record => record.principal = principal

/-- The runs of a principal, in the order of the store. -/
def ownRuns (s : RunStore Time Payload) (principal : String) : Shelf Time Payload :=
  s.order.filterMap (s.ownRun principal)

omit [LE Time] [DecidableLE Time] in
theorem ownRun_eq_some {rid : String} {record : RunRecord Time Payload} :
    s.ownRun principal rid = some record
      ↔ s.items.lookup rid = some record ∧ record.principal = principal := by
  unfold ownRun
  rw [Option.filter_eq_some_iff, decide_eq_true_eq]

/-- Taking ids out leaves the order of the others. -/
theorem order_evict (h : s.Represented) (now : Time) :
    (s.evict now).order = s.order.filter (· ∉ s.expiredIds now) := by
  have hall : ∀ (rids : List String) (t : RunStore Time Payload), t.order.Nodup →
      (rids.foldl RunStore.discard t).order = t.order.filter (· ∉ rids) := by
    intro rids
    induction rids with
    | nil => intro t _; simp
    | cons rid rids ih =>
        intro t ht
        rw [List.foldl_cons, ih _ (ht.erase rid)]
        show (t.order.erase rid).filter (· ∉ rids) = _
        rw [ht.erase_eq_filter, List.filter_filter]
        refine List.filter_congr fun x _ => ?_
        by_cases hx : x = rid <;> simp [hx]
  exact hall _ s h.nodup

theorem ownRun_evict (now : Time) (rid : String) : (s.evict now).ownRun principal rid
    = (s.ownRun principal rid).filter fun record => !decide (record.expiresAt ≤ now) := by
  refine Option.ext fun record => ?_
  rw [Option.filter_eq_some_iff, ownRun_eq_some, ownRun_eq_some, lookup_evict_eq_some,
    Bool.not_eq_true', decide_eq_false_iff_not]
  tauto

/-- Eviction keeps the live runs. -/
theorem ownRuns_evict (h : s.Represented) (now : Time) :
    (s.evict now).ownRuns principal = (s.ownRuns principal).live now := by
  have hgone : ∀ rid ∈ s.expiredIds now, (s.evict now).ownRun principal rid = none := by
    intro rid hrid
    obtain ⟨record, hrecord, hexpired⟩ := mem_expiredIds.mp hrid
    refine Option.eq_none_iff_forall_ne_some.mpr fun other hother => ?_
    obtain ⟨hlookup, hlive⟩ := lookup_evict_eq_some.mp (ownRun_eq_some.mp hother).1
    obtain rfl := Option.some.inj (hrecord.symm.trans hlookup)
    exact hlive hexpired
  have hkept : (s.order.filter (· ∉ s.expiredIds now)).filterMap ((s.evict now).ownRun principal)
      = s.order.filterMap ((s.evict now).ownRun principal) := by
    rw [List.filterMap_filter]
    refine List.filterMap_congr fun rid _ => ?_
    by_cases hexpired : rid ∈ s.expiredIds now
    · rw [hgone rid hexpired, ite_self]
    · rw [if_pos (decide_eq_true hexpired)]
  rw [ownRuns, order_evict h, hkept, ownRuns, Shelf.live, List.filter_filterMap]
  exact List.filterMap_congr fun rid _ => ownRun_evict now rid

omit [LE Time] [DecidableLE Time] in
theorem mem_ownRuns (h : s.Represented) {record : RunRecord Time Payload} :
    record ∈ s.ownRuns principal
      ↔ ∃ rid, s.items.lookup rid = some record ∧ record.principal = principal := by
  unfold ownRuns
  rw [List.mem_filterMap]
  constructor
  · rintro ⟨rid, -, hrecord⟩
    exact ⟨rid, ownRun_eq_some.mp hrecord⟩
  · rintro ⟨rid, hlookup, hown⟩
    refine ⟨rid, ?_, ownRun_eq_some.mpr ⟨hlookup, hown⟩⟩
    rw [h.mem_order, ← AList.lookup_isSome, hlookup]
    rfl

omit [LE Time] [DecidableLE Time] in
/-- What `list_for_principal` reads off a store. -/
theorem ownRuns_of_mapM {order : List String} {records : List (RunRecord Time Payload)}
    (h : order.mapM s.itemAt = .ok records) :
    (records.filter fun record => record.principal = principal)
      = order.filterMap (s.ownRun principal) := by
  have hall := mapM_eq_ok.mp h
  clear h
  induction hall with
  | nil => rfl
  | @cons rid record _ _ hrecord _ ih =>
      rw [List.filter_cons, List.filterMap_cons, ih]
      unfold ownRun
      rw [itemAt_eq_ok.mp hrecord, Option.filter_some]
      by_cases hown : record.principal = principal <;> simp [hown]

/-! ### The touch of a read -/

omit [LE Time] [DecidableLE Time] in
/-- Ids and records of a consistent store name each other. -/
theorem find_ownRuns {rid : String} (h : s.Represented)
    (hids : ∀ id record, s.items.lookup id = some record → record.runId = id) :
    ((s.ownRuns principal).find? fun record => record.runId = rid) = s.ownRun principal rid := by
  cases hown : s.ownRun principal rid with
  | none =>
      refine List.find?_eq_none.mpr fun record hrecord hid => ?_
      obtain ⟨id, hlookup, hprincipal⟩ := (mem_ownRuns h).mp hrecord
      obtain rfl : id = rid := (hids id record hlookup).symm.trans (of_decide_eq_true hid)
      rw [ownRun_eq_some.mpr ⟨hlookup, hprincipal⟩] at hown
      cases hown
  | some record =>
      obtain ⟨hlookup, hprincipal⟩ := ownRun_eq_some.mp hown
      have hmem : record ∈ s.ownRuns principal := (mem_ownRuns h).mpr ⟨rid, hlookup, hprincipal⟩
      have hsome : ((s.ownRuns principal).find? fun record => record.runId = rid).isSome = true :=
        List.find?_isSome.mpr ⟨record, hmem, decide_eq_true (hids rid record hlookup)⟩
      obtain ⟨found, hfound⟩ := Option.isSome_iff_exists.mp hsome
      obtain ⟨id, hother, -⟩ := (mem_ownRuns h).mp (List.mem_of_find?_eq_some hfound)
      have hid : found.runId = rid := by simpa using List.find?_some hfound
      obtain rfl : id = rid := (hids id found hother).symm.trans hid
      rw [hfound, ← hother, hlookup]

omit [LE Time] [DecidableLE Time] in
/-- Moving an id to the end of the order moves its record to the end of
its owner's, and moves nothing for anybody else. -/
theorem ownRuns_touch {rid : String} (h : s.Represented)
    (hids : ∀ id record, s.items.lookup id = some record → record.runId = id) :
    ownRuns { s with order := s.order.erase rid ++ [rid] } principal
      = ((s.ownRuns principal).filter fun record => record.runId ≠ rid)
        ++ (s.ownRun principal rid).toList := by
  have hown : ∀ order : List String, ownRun { s with order := order } principal
      = s.ownRun principal := fun _ => rfl
  unfold ownRuns
  rw [hown, h.nodup.erase_eq_filter, List.filterMap_append, List.filterMap_filter,
    List.filter_filterMap]
  have hlast : [rid].filterMap (s.ownRun principal) = (s.ownRun principal rid).toList := by
    cases h : s.ownRun principal rid <;> simp [h]
  rw [hlast]
  refine congrArg (· ++ _) (List.filterMap_congr fun id _ => ?_)
  cases hrun : s.ownRun principal id with
  | none => simp
  | some record =>
      have hid := hids id record (ownRun_eq_some.mp hrun).1
      by_cases heq : id = rid <;> simp [Option.filter_some, hid, heq]

/-! ### The new run -/

omit [LE Time] [DecidableLE Time] in
theorem ownRuns_insert {rid : String} (h : s.Represented) (hfresh : rid ∉ s.items)
    (record : RunRecord Time Payload) : (s.insert rid record).ownRuns principal
      = s.ownRuns principal ++ (some record).toList.filter (·.principal = principal) := by
  have hold : s.order.filterMap ((s.insert rid record).ownRun principal)
      = s.ownRuns principal := by
    refine List.filterMap_congr fun id hid => ?_
    have hne : id ≠ rid := by
      rintro rfl
      exact hfresh (h.mem_order.mp hid)
    unfold ownRun RunStore.insert
    rw [AList.lookup_insert_ne hne]
  have hnew : (s.insert rid record).ownRun principal rid
      = (some record).filter fun record => record.principal = principal := by
    unfold ownRun RunStore.insert
    rw [AList.lookup_insert]
  unfold ownRuns
  show (s.order ++ [rid]).filterMap _ = _
  rw [List.filterMap_append, hold, List.filterMap_cons, hnew, Option.filter_some]
  by_cases hown : record.principal = principal <;> simp [hown, ownRuns]

omit [LE Time] [DecidableLE Time] in
/-- Making room takes one run at most, and nothing of a principal whose
runs all stay. -/
theorem ownRuns_makeRoom {maxEntries : Nat} (h : s.Represented)
    (hlength : s.order.length ≤ maxEntries + 1) {s' : RunStore Time Payload}
    (hroom : makeRoom maxEntries s.order.length s = .ok s')
    (hkept : ∀ rid record, s.ownRun principal rid = some record → rid ∈ s'.items) :
    s'.ownRuns principal = s.ownRuns principal := by
  rcases makeRoom_spec h hlength with ⟨-, hdone⟩ | ⟨old, -, -, -, hdone⟩
  · obtain rfl := Except.ok.inj (hdone.symm.trans hroom)
    rfl
  · obtain rfl := Except.ok.inj (hdone.symm.trans hroom)
    have hforeign : s.ownRun principal old = none := by
      refine Option.eq_none_iff_forall_ne_some.mpr fun record hrecord => ?_
      have hmem := hkept old record hrecord
      rw [← AList.lookup_isSome, lookup_discard, if_pos rfl] at hmem
      cases hmem
    unfold ownRuns
    show (s.order.erase old).filterMap _ = _
    rw [h.nodup.erase_eq_filter, List.filterMap_filter]
    refine List.filterMap_congr fun rid _ => ?_
    unfold ownRun
    rw [lookup_discard]
    by_cases heq : rid = old
    · subst heq
      simpa [ownRun] using hforeign.symm
    · simp [heq]

end RunStore

section Steps

variable [Add Time] {settings : StoreSettings Time} {calls : List (StoreCall Time Payload)}
  {replies : List (StoreReply Time Payload)} {s s' : RunStore Time Payload} {principal : String}

/-! ## What a call does to a shelf -/

/-- A read, whoever asks: the owner's shelf is searched, and another's is
only rid of what has expired. -/
theorem Consistent.get_ownRuns (h : Consistent settings calls replies s) {rid asker : String}
    {now : Time} {record : Option (RunRecord Time Payload)}
    (hget : s.get rid asker now = .ok (s', record)) :
    (asker = principal →
        Shelf.fetch (Shelf.live (s.ownRuns principal) now) rid = (s'.ownRuns principal, record))
      ∧ (asker ≠ principal → s'.ownRuns principal = Shelf.live (s.ownRuns principal) now) := by
  have hevicted := h.evict now
  have hids : ∀ id record, (s.evict now).items.lookup id = some record → record.runId = id :=
    fun id record hrecord => (hevicted.created id record hrecord).1
  rw [← RunStore.ownRuns_evict h.represented]
  have hfind : ((s.evict now).ownRuns principal).find? (fun record => record.runId = rid)
      = (s.evict now).ownRun principal rid := RunStore.find_ownRuns hevicted.represented hids
  by_cases hreadable : Readable s rid asker now
  · obtain ⟨found, hfound, howner, hlive⟩ := hreadable
    have hlookup := RunStore.lookup_evict_eq_some.mpr ⟨hfound, hlive⟩
    rw [(get_of_readable h.represented hfound howner hlive).2] at hget
    obtain ⟨rfl, rfl⟩ := Prod.mk.inj (Except.ok.inj hget)
    rw [RunStore.ownRuns_touch hevicted.represented hids]
    constructor
    · intro hself
      have hown : (s.evict now).ownRun principal rid = some found :=
        RunStore.ownRun_eq_some.mpr ⟨hlookup, howner.trans hself⟩
      rw [Shelf.fetch, hfind, hown]
      rfl
    · intro hother
      have hforeign : (s.evict now).ownRun principal rid = none := by
        refine Option.eq_none_iff_forall_ne_some.mpr fun other hrun => ?_
        obtain ⟨hsame, hprincipal⟩ := RunStore.ownRun_eq_some.mp hrun
        obtain rfl := Option.some.inj (hlookup.symm.trans hsame)
        exact hother (howner.symm.trans hprincipal)
      rw [hforeign] at hfind ⊢
      rw [Option.toList_none, List.append_nil, List.filter_eq_self]
      intro other hmem
      simpa using List.find?_eq_none.mp hfind other hmem
  · rw [get_of_not_readable hreadable] at hget
    obtain ⟨rfl, rfl⟩ := Prod.mk.inj (Except.ok.inj hget)
    refine ⟨fun hself => ?_, fun _ => rfl⟩
    have hnone : (s.evict now).ownRun principal rid = none := by
      refine Option.eq_none_iff_forall_ne_some.mpr fun other hrun => ?_
      obtain ⟨hlookup, hprincipal⟩ := RunStore.ownRun_eq_some.mp hrun
      obtain ⟨hfound, hlive⟩ := RunStore.lookup_evict_eq_some.mp hlookup
      exact hreadable ⟨other, hfound, hprincipal.trans hself.symm, hlive⟩
    rw [Shelf.fetch, hfind, hnone]

/-- A new run is put last on its owner's shelf and on no other, where no
live run of the principal is taken for it. -/
theorem Consistent.create_ownRuns (h : Consistent settings calls replies s)
    (hmax : 1 ≤ settings.maxEntries) {creator : String} {payload : Payload} {rid : String}
    {now : Time} (hfresh : rid ∉ calls.filterMap StoreCall.drawn)
    {record : RunRecord Time Payload}
    (hcreate : s.create settings creator payload rid now = .ok (s', record))
    (hkeeps : ∀ id own, s.ownRun principal id = some own → ¬ own.expiresAt ≤ now →
      id ∈ s'.items) :
    record = RunStore.newRecord settings creator payload rid now
      ∧ s'.ownRuns principal = Shelf.live (s.ownRuns principal) now
        ++ (some record).toList.filter (·.principal = principal) := by
  have hevicted := h.evict now
  have hnot := hevicted.fresh hfresh
  obtain ⟨last, hlast, hconsistent, hfair⟩ := h.create hmax creator payload now hfresh
  obtain ⟨rfl, rfl⟩ := Prod.mk.inj (Except.ok.inj (hcreate.symm.trans hlast))
  have hnew : rid ∈ s'.items := hconsistent.represented.mem_order.mp hfair.keeps_new
  refine ⟨rfl, ?_⟩
  have hfull := hevicted.represented.insert hnot
    (RunStore.newRecord settings creator payload rid now)
  have hlength : ((s.evict now).insert rid
      (RunStore.newRecord settings creator payload rid now)).order.length
      ≤ settings.maxEntries + 1 := by
    show ((s.evict now).order ++ [rid]).length ≤ _
    rw [List.length_append, List.length_singleton]
    exact Nat.add_le_add_right hevicted.bounded 1
  unfold RunStore.create RunStore.inserted at hcreate
  simp only [bind_eq_ok] at hcreate
  obtain ⟨bounded, hroom, hdone⟩ := hcreate
  obtain ⟨rfl, -⟩ := Prod.mk.inj (Except.ok.inj hdone)
  rw [RunStore.ownRuns_makeRoom hfull hlength hroom, RunStore.ownRuns_insert hevicted.represented
    hnot, RunStore.ownRuns_evict h.represented]
  intro id own hown
  obtain ⟨hlookup, hprincipal⟩ := RunStore.ownRun_eq_some.mp hown
  by_cases hid : id = rid
  · exact hid ▸ hnew
  · have hold : (s.evict now).items.lookup id = some own :=
      (AList.lookup_insert_ne hid).symm.trans hlookup
    obtain ⟨hbefore, hlive⟩ := RunStore.lookup_evict_eq_some.mp hold
    exact hkeeps id own (RunStore.ownRun_eq_some.mpr ⟨hbefore, hprincipal⟩) hlive

/-- The live runs of the principal all stay. -/
def KeepsOwn (principal : String) (call : StoreCall Time Payload)
    (s s' : RunStore Time Payload) : Prop :=
  ∀ rid record, s.ownRun principal rid = some record → ¬ record.expiresAt ≤ call.now →
    rid ∈ s'.items

/-- A call of the principal is served as its shelf would serve it, and a
call of another takes from the shelf what has expired. -/
theorem Consistent.step_ownRuns (h : Consistent settings calls replies s)
    (hmax : 1 ≤ settings.maxEntries) {call : StoreCall Time Payload}
    {reply : StoreReply Time Payload} (hstep : s.step settings call = .ok (s', reply))
    (hfresh : ∀ rid, call.drawn = some rid → rid ∉ calls.filterMap StoreCall.drawn)
    (hkeeps : KeepsOwn principal call s s') :
    (call.principal = principal →
        Shelf.serve settings (s.ownRuns principal) call = (s'.ownRuns principal, reply))
      ∧ (call.principal ≠ principal →
        s'.ownRuns principal = Shelf.live (s.ownRuns principal) call.now) := by
  cases call with
  | create creator payload rid now =>
      simp only [RunStore.step, bind_eq_ok, Prod.exists] at hstep
      obtain ⟨last, record, hcreate, hdone⟩ := hstep
      obtain ⟨rfl, rfl⟩ := Prod.mk.inj (Except.ok.inj hdone)
      obtain ⟨rfl, hruns⟩ := h.create_ownRuns hmax (hfresh rid rfl) hcreate hkeeps
      rw [hruns]
      constructor
      · rintro rfl
        simp [Shelf.serve, RunStore.newRecord, StoreCall.principal]
      · intro hother
        have hforeign : creator ≠ principal := hother
        simp [RunStore.newRecord, hforeign, StoreCall.now]
  | get rid asker now =>
      simp only [RunStore.step, bind_eq_ok, Prod.exists] at hstep
      obtain ⟨last, record, hget, hdone⟩ := hstep
      obtain ⟨rfl, rfl⟩ := Prod.mk.inj (Except.ok.inj hdone)
      obtain ⟨hself, hother⟩ := h.get_ownRuns hget
      exact ⟨fun hown => by rw [Shelf.serve, hself hown], hother⟩
  | require rid asker now =>
      simp only [RunStore.step, RunStore.requireRun, bind_eq_ok, Prod.exists] at hstep
      obtain ⟨last, outcome, ⟨last', record, hget, hrequire⟩, hdone⟩ := hstep
      obtain ⟨rfl, rfl⟩ := Prod.mk.inj (Except.ok.inj hrequire)
      obtain ⟨rfl, rfl⟩ := Prod.mk.inj (Except.ok.inj hdone)
      obtain ⟨hself, hother⟩ := h.get_ownRuns hget
      exact ⟨fun hown => by rw [Shelf.serve, hself hown], hother⟩
  | list asker now =>
      simp only [RunStore.step, RunStore.listForPrincipal, bind_eq_ok, Prod.exists] at hstep
      obtain ⟨last, records, ⟨all, hall, hlist⟩, hdone⟩ := hstep
      obtain ⟨rfl, rfl⟩ := Prod.mk.inj (Except.ok.inj hlist)
      obtain ⟨rfl, rfl⟩ := Prod.mk.inj (Except.ok.inj hdone)
      rw [← RunStore.ownRuns_evict h.represented]
      refine ⟨fun hown => ?_, fun _ => rfl⟩
      obtain rfl : asker = principal := hown
      rw [Shelf.serve, ← RunStore.ownRuns_evict h.represented, RunStore.ownRuns_of_mapM hall]
      rfl

end Steps

end Shelf

/-! ## Undisturbed histories -/

section Undisturbed

variable {Time Payload : Type} [Preorder Time] [DecidableLE Time] [Add Time]
  {settings : StoreSettings Time} {principal : String}

/-- A history with the store it leaves. -/
structure Reached (Payload : Type) (settings : StoreSettings Time) where
  calls : List (StoreCall Time Payload)
  replies : List (StoreReply Time Payload)
  store : RunStore Time Payload
  consistent : Consistent settings calls replies store

/-- One more call: it draws a new id, its clock is not behind, and it
takes no live run of the principal. -/
structure UndisturbedStep (principal : String) (r : Reached Payload settings)
    (call : StoreCall Time Payload) (r' : Reached Payload settings)
    (reply : StoreReply Time Payload) : Prop where
  step : r.store.step settings call = .ok (r'.store, reply)
  calls : r'.calls = r.calls ++ [call]
  fresh : ∀ rid, call.drawn = some rid → rid ∉ r.calls.filterMap StoreCall.drawn
  clock : ∀ earlier ∈ r.calls, earlier.now ≤ call.now
  keeps : KeepsOwn principal call r.store r'.store

/-- The store shows the shelf: at every reading the clock can still give
the same records are live, in the same order. -/
def Shows (principal : String) (r : Reached Payload settings) (shelf : Shelf Time Payload) :
    Prop :=
  ∀ now, (∀ call ∈ r.calls, call.now ≤ now) →
    Shelf.live (r.store.ownRuns principal) now = shelf.live now

omit [Add Time] in
/-- What has expired stays expired. -/
theorem Shelf.live_live (shelf : Shelf Time Payload) {earlier now : Time} (h : earlier ≤ now) :
    (shelf.live earlier).live now = shelf.live now := by
  unfold Shelf.live
  rw [List.filter_filter]
  refine List.filter_congr fun record _ => ?_
  by_cases hexpired : record.expiresAt ≤ earlier
  · simp [hexpired, hexpired.trans h]
  · simp [hexpired]

/-- A shelf is read through what is live on it. -/
theorem Shelf.serve_congr (settings : StoreSettings Time) {shelf shelf' : Shelf Time Payload}
    {call : StoreCall Time Payload} (h : shelf.live call.now = shelf'.live call.now) :
    Shelf.serve settings shelf call = Shelf.serve settings shelf' call := by
  cases call <;> simp only [StoreCall.now] at h <;> simp only [Shelf.serve, h]

/-- The calls of a principal. -/
def ownedBy (principal : String) (call : StoreCall Time Payload) : Bool :=
  decide (call.principal = principal)

/-- The principal's view of an undisturbed history is its shelf. -/
theorem shelf_view (hmax : 1 ≤ settings.maxEntries) (principal : String) :
    View (ownedBy principal) (fun r : Reached Payload settings => UndisturbedStep principal r)
      (Shelf.serve settings) (fun r => Shows principal r) where
  others := by
    intro r r' call reply shelf hstep hother hshows now hclock
    obtain ⟨-, hforeign⟩ := r.consistent.step_ownRuns hmax hstep.step hstep.fresh hstep.keeps
    rw [hstep.calls] at hclock
    have hnow := hclock call (List.mem_append_right _ (List.mem_singleton_self call))
    rw [hforeign (of_decide_eq_false hother), Shelf.live_live _ hnow]
    exact hshows now fun earlier h => hclock earlier (List.mem_append_left _ h)
  self := by
    intro r r' call reply shelf hstep hown hshows
    obtain ⟨hserve, -⟩ := r.consistent.step_ownRuns hmax hstep.step hstep.fresh hstep.keeps
    have hsame := Shelf.serve_congr settings (hshows call.now hstep.clock)
    rw [← hsame, hserve (of_decide_eq_true hown)]
    exact ⟨rfl, fun now _ => rfl⟩

/-! ### Histories that keep the principal's runs -/

/-- No live run of the principal is taken at any call of the history. -/
def KeepsRuns (settings : StoreSettings Time) (calls : List (StoreCall Time Payload))
    (principal : String) : Prop :=
  ∀ before call after, calls = before ++ call :: after → ∀ s replies s' reply,
    RunStore.run settings before .empty = .ok (s, replies) →
    s.step settings call = .ok (s', reply) → KeepsOwn principal call s s'

/-- At every creation, by whomever, the principal holds less than an even
share of the bound, rounded up. -/
def BelowShare (settings : StoreSettings Time) (calls : List (StoreCall Time Payload))
    (principal : String) : Prop :=
  ∀ before creator payload rid now after,
    calls = before ++ .create creator payload rid now :: after → ∀ s replies,
    RunStore.run settings before .empty = .ok (s, replies) →
      (s.inserted settings creator payload rid now).held principal
        < (settings.maxEntries + 1)
          ⌈/⌉ (s.inserted settings creator payload rid now).holders.length

omit [Preorder Time] [DecidableLE Time] [Add Time] in
theorem FreshIds.at_call {before after : List (StoreCall Time Payload)}
    {call : StoreCall Time Payload} (h : FreshIds (before ++ call :: after)) :
    FreshIds (before ++ [call]) := by
  unfold FreshIds at h ⊢
  rw [List.append_cons, List.filterMap_append] at h
  exact (List.nodup_append.mp h).1

/-- A history from a reached store on is a run of undisturbed steps. -/
theorem trace_of_run (hmax : 1 ≤ settings.maxEntries) {first : List (StoreCall Time Payload)}
    (hfresh : FreshIds first) (hclock : first.Pairwise fun a b => a.now ≤ b.now)
    (hkeeps : KeepsRuns settings first principal) :
    ∀ (rest : List (StoreCall Time Payload)) (r : Reached Payload settings),
      first = r.calls ++ rest →
      RunStore.run settings r.calls .empty = .ok (r.store, r.replies) →
      ∃ t r', Trace (fun r : Reached Payload settings => UndisturbedStep principal r) r t r'
        ∧ t.map Prod.fst = rest
        ∧ RunStore.run settings first .empty = .ok (r'.store, r.replies ++ t.map Prod.snd)
  | [], r, hfirst, hrun => by
      rw [List.append_nil] at hfirst
      subst hfirst
      exact ⟨[], r, .nil r, rfl, by rw [List.map_nil, List.append_nil]; exact hrun⟩
  | call :: rest, r, hfirst, hrun => by
      have hcall := (hfirst ▸ hfresh).at_call.of_append.2
      obtain ⟨s', reply, hstep, hconsistent, -⟩ := r.consistent.step hmax hcall
      let r' : Reached Payload settings := ⟨r.calls ++ [call], r.replies ++ [reply], s', hconsistent⟩
      have hundisturbed : UndisturbedStep principal r call r' reply :=
        { step := hstep
          calls := rfl
          fresh := hcall
          clock := fun earlier hearlier =>
            (List.pairwise_append.mp (hfirst ▸ hclock)).2.2 earlier hearlier call
              List.mem_cons_self
          keeps := hkeeps r.calls call rest hfirst _ _ _ _ hrun hstep }
      obtain ⟨t, last, htrace, hcalls, hlast⟩ := trace_of_run hmax hfresh hclock hkeeps rest r'
        (by rw [hfirst, List.append_cons]) (run_append hrun hstep)
      refine ⟨(call, reply) :: t, last, .cons hundisturbed htrace, ?_, ?_⟩
      · rw [List.map_cons, hcalls]
      · rw [hlast, List.map_cons, List.append_cons]

omit [Add Time] in
/-- A read takes nothing but what has expired. -/
theorem items_of_get {s s' : RunStore Time Payload} {rid asker : String} {now : Time}
    {record : Option (RunRecord Time Payload)} (h : s.get rid asker now = .ok (s', record)) :
    s'.items = (s.evict now).items := by
  unfold RunStore.get at h
  cases hlookup : (s.evict now).items.lookup rid with
  | none =>
      simp only [hlookup] at h
      obtain ⟨rfl, -⟩ := Prod.mk.inj (Except.ok.inj h)
      rfl
  | some record =>
      simp only [hlookup] at h
      split at h
      · obtain ⟨rfl, -⟩ := Prod.mk.inj (Except.ok.inj h)
        rfl
      · split at h
        · obtain ⟨rfl, -⟩ := Prod.mk.inj (Except.ok.inj h)
          rfl
        · cases h

/-- Only a creation can take a live run, so a history that keeps the
principal's runs at every creation keeps them. -/
theorem keepsRuns_of_creates (hmax : 1 ≤ settings.maxEntries)
    {calls : List (StoreCall Time Payload)} (hfresh : FreshIds calls)
    (h : ∀ before creator payload rid now after,
      calls = before ++ .create creator payload rid now :: after →
      ∀ s replies, Consistent settings before replies s →
      RunStore.run settings before .empty = .ok (s, replies) →
      ∀ s' record, s.create settings creator payload rid now = .ok (s', record) →
      ∀ id own, (s.inserted settings creator payload rid now).items.lookup id = some own →
        own.principal = principal → id ∈ s'.items) :
    KeepsRuns settings calls principal := by
  rintro before call after rfl s replies s' reply hrun hstep rid record hrecord hlive
  obtain ⟨hbefore, hcall⟩ := hfresh.at_call.of_append
  obtain ⟨s₀, replies₀, hrun₀, hconsistent⟩ := run_consistent hmax before hbefore
  obtain ⟨rfl, rfl⟩ := Prod.mk.inj (Except.ok.inj (hrun₀.symm.trans hrun))
  obtain ⟨hlookup, howner⟩ := RunStore.ownRun_eq_some.mp hrecord
  have hkept : (s₀.evict call.now).items.lookup rid = some record :=
    RunStore.lookup_evict_eq_some.mpr ⟨hlookup, hlive⟩
  have hread : s'.items = (s₀.evict call.now).items → rid ∈ s'.items := by
    intro hitems
    rw [← AList.lookup_isSome, hitems, hkept]
    rfl
  cases call with
  | create creator payload drawn now =>
      simp only [RunStore.step, bind_eq_ok, Prod.exists] at hstep
      obtain ⟨last, created, hcreate, hdone⟩ := hstep
      obtain ⟨rfl, -⟩ := Prod.mk.inj (Except.ok.inj hdone)
      have hne : rid ≠ drawn := by
        rintro rfl
        have hnone := hconsistent.fresh (hcall rid rfl)
        rw [← AList.lookup_isSome, hlookup] at hnone
        exact hnone rfl
      exact h before creator payload drawn now after rfl _ _ hconsistent hrun₀ _ _ hcreate rid
        record ((AList.lookup_insert_ne hne).trans hkept) howner
  | get id asker now =>
      simp only [RunStore.step, bind_eq_ok, Prod.exists] at hstep
      obtain ⟨last, found, hget, hdone⟩ := hstep
      obtain ⟨rfl, -⟩ := Prod.mk.inj (Except.ok.inj hdone)
      exact hread (items_of_get hget)
  | require id asker now =>
      simp only [RunStore.step, RunStore.requireRun, bind_eq_ok, Prod.exists] at hstep
      obtain ⟨last, outcome, ⟨last', found, hget, hrequire⟩, hdone⟩ := hstep
      obtain ⟨rfl, -⟩ := Prod.mk.inj (Except.ok.inj hrequire)
      obtain ⟨rfl, -⟩ := Prod.mk.inj (Except.ok.inj hdone)
      exact hread (items_of_get hget)
  | list asker now =>
      simp only [RunStore.step, RunStore.listForPrincipal, bind_eq_ok, Prod.exists] at hstep
      obtain ⟨last, records, ⟨all, -, hlist⟩, hdone⟩ := hstep
      obtain ⟨rfl, -⟩ := Prod.mk.inj (Except.ok.inj hlist)
      obtain ⟨rfl, -⟩ := Prod.mk.inj (Except.ok.inj hdone)
      exact hread rfl

/-- A principal below an even share loses nothing: see `FairEviction`. -/
theorem keepsRuns_of_belowShare (hmax : 1 ≤ settings.maxEntries)
    {calls : List (StoreCall Time Payload)} (hfresh : FreshIds calls)
    (h : BelowShare settings calls principal) : KeepsRuns settings calls principal := by
  refine keepsRuns_of_creates hmax hfresh ?_
  rintro before creator payload rid now after rfl s replies hconsistent hrun s' record hcreate id
    own hown howner
  obtain ⟨-, hcall⟩ := hfresh.at_call.of_append
  obtain ⟨last, hlast, hconsistent', hfair⟩ :=
    hconsistent.create hmax creator payload now (hcall rid rfl)
  obtain ⟨rfl, -⟩ := Prod.mk.inj (Except.ok.inj (hcreate.symm.trans hlast))
  have hshare := h before creator payload rid now after rfl _ _ hrun
  rw [← howner] at hshare
  exact hconsistent'.represented.mem_order.mp (hfair.quota id own hown hshare)

/-- Nobody loses anything while there is room for all that is created. -/
theorem keepsRuns_of_room (hmax : 1 ≤ settings.maxEntries)
    {calls : List (StoreCall Time Payload)} (hfresh : FreshIds calls)
    (h : (calls.filterMap StoreCall.drawn).length ≤ settings.maxEntries) :
    KeepsRuns settings calls principal := by
  refine keepsRuns_of_creates hmax hfresh ?_
  rintro before creator payload rid now after rfl s replies hconsistent - s' record hcreate id
    own hown -
  have hevicted := hconsistent.evict now
  have hsubset : (s.evict now).order ⊆ before.filterMap StoreCall.drawn := by
    intro rid hrid
    by_contra hfresh
    exact hevicted.fresh hfresh (hevicted.represented.mem_order.mp hrid)
  have hcount : (s.evict now).order.length ≤ (before.filterMap StoreCall.drawn).length :=
    (hevicted.represented.nodup.subperm hsubset).length_le
  have hroom : ¬ settings.maxEntries
      < (s.inserted settings creator payload rid now).order.length := by
    have hlength : (s.inserted settings creator payload rid now).order.length
        = (s.evict now).order.length + 1 := by
      show ((s.evict now).order ++ [rid]).length = _
      rw [List.length_append, List.length_singleton]
    have htotal : (before.filterMap StoreCall.drawn).length + 1
        ≤ ((before ++ .create creator payload rid now :: after).filterMap
          StoreCall.drawn).length := by
      have hlast : (StoreCall.create creator payload rid now).drawn = some rid := rfl
      rw [List.filterMap_append, List.length_append, List.filterMap_cons_some hlast,
        List.length_cons]
      omega
    omega
  unfold RunStore.create at hcreate
  simp only [bind_eq_ok] at hcreate
  obtain ⟨bounded, hbounded, hdone⟩ := hcreate
  obtain ⟨rfl, -⟩ := Prod.mk.inj (Except.ok.inj hdone)
  have hsame : bounded = s.inserted settings creator payload rid now := by
    cases hturns : (s.inserted settings creator payload rid now).order.length with
    | zero =>
        rw [hturns] at hbounded
        exact (Except.ok.inj hbounded).symm
    | succ turns =>
        rw [hturns, RunStore.makeRoom, if_neg hroom] at hbounded
        exact (Except.ok.inj hbounded).symm
  rw [hsame, ← AList.lookup_isSome, hown]
  rfl

/-- A history that keeps the principal's runs is one run of undisturbed
steps. -/
theorem trace_of_history (hmax : 1 ≤ settings.maxEntries) {calls : List (StoreCall Time Payload)}
    (hfresh : FreshIds calls) (hclock : calls.Pairwise fun a b => a.now ≤ b.now)
    (hkeeps : KeepsRuns settings calls principal) :
    ∃ (t : List (StoreCall Time Payload × StoreReply Time Payload))
      (last : Reached Payload settings),
      Trace (fun r : Reached Payload settings => UndisturbedStep principal r)
        ⟨[], [], .empty, consistent_empty settings⟩ t last
        ∧ t.map Prod.fst = calls
        ∧ RunStore.run settings calls .empty = .ok (last.store, t.map Prod.snd)
        ∧ calls.zip (t.map Prod.snd) = t := by
  obtain ⟨t, last, htrace, hcalls, hrun⟩ :=
    trace_of_run hmax hfresh hclock hkeeps calls ⟨[], [], .empty, consistent_empty settings⟩ rfl
      rfl
  refine ⟨t, last, htrace, hcalls, hrun, ?_⟩
  rw [← hcalls, List.zip_map', List.map_id'']
  exact fun _ => rfl

/-- A principal whose live runs are all kept is told, over the whole
history, what its own shelf would tell it. One below an even share of the
bound is such a principal. -/
theorem principal_sees_own_shelf (settings : StoreSettings Time) (hmax : 1 ≤ settings.maxEntries)
    (calls : List (StoreCall Time Payload)) (hfresh : FreshIds calls)
    (hclock : calls.Pairwise fun a b => a.now ≤ b.now) (principal : String) :
    (KeepsRuns settings calls principal →
      ∃ s replies, RunStore.run settings calls .empty = .ok (s, replies)
        ∧ ownReplies (ownedBy principal) (calls.zip replies)
          = served (Shelf.serve settings) [] (calls.filter (ownedBy principal)))
      ∧ (BelowShare settings calls principal → KeepsRuns settings calls principal) := by
  refine ⟨fun hkeeps => ?_, keepsRuns_of_belowShare hmax hfresh⟩
  obtain ⟨t, last, htrace, hcalls, hrun, hzip⟩ := trace_of_history hmax hfresh hclock hkeeps
  refine ⟨last.store, t.map Prod.snd, hrun, ?_⟩
  rw [hzip, (shelf_view hmax principal).ownReplies_eq htrace (a := []) fun now _ => rfl, ownCalls,
    hcalls]

/-- Nothing that others do shows: two histories with the same calls of
the principal tell it the same. -/
theorem histories_alike (hmax : 1 ≤ settings.maxEntries)
    {calls calls' : List (StoreCall Time Payload)} (hfresh : FreshIds calls)
    (hfresh' : FreshIds calls') (hclock : calls.Pairwise fun a b => a.now ≤ b.now)
    (hclock' : calls'.Pairwise fun a b => a.now ≤ b.now)
    (hkeeps : KeepsRuns settings calls principal) (hkeeps' : KeepsRuns settings calls' principal)
    (hown : calls.filter (ownedBy principal) = calls'.filter (ownedBy principal))
    {s s' : RunStore Time Payload} {replies replies' : List (StoreReply Time Payload)}
    (hrun : RunStore.run settings calls .empty = .ok (s, replies))
    (hrun' : RunStore.run settings calls' .empty = .ok (s', replies')) :
    ownReplies (ownedBy principal) (calls.zip replies)
      = ownReplies (ownedBy principal) (calls'.zip replies') := by
  obtain ⟨t, last, htrace, hcalls, ht, hzip⟩ := trace_of_history hmax hfresh hclock hkeeps
  obtain ⟨t', last', htrace', hcalls', ht', hzip'⟩ :=
    trace_of_history hmax hfresh' hclock' hkeeps'
  obtain ⟨-, rfl⟩ := Prod.mk.inj (Except.ok.inj (ht.symm.trans hrun))
  obtain ⟨-, rfl⟩ := Prod.mk.inj (Except.ok.inj (ht'.symm.trans hrun'))
  rw [hzip, hzip']
  refine (shelf_view hmax principal).noninterference htrace htrace' (a := []) (fun _ _ => rfl)
    (fun _ _ => rfl) ?_
  rw [ownCalls, ownCalls, hcalls, hcalls', hown]

end Undisturbed

/-! ## Two principals on a store for four runs -/

/-- Alice and Bob each create a run, and Bob asks for Alice's. -/
def sharedHistory : List (StoreCall Nat String) :=
  [.create "alice" "report" "r1" 0, .create "bob" "noise" "r2" 1, .get "r1" "bob" 2,
    .list "alice" 3]

theorem sharedHistory_belowShare :
    BelowShare { maxEntries := 4, ttlSeconds := 60 } sharedHistory "alice" := by
  intro before creator payload rid now after hcalls s replies hrun
  unfold sharedHistory at hcalls
  match before, hcalls with
  | [], hcalls =>
      obtain ⟨hcall, -⟩ := List.cons.inj hcalls
      cases hcall
      cases hrun
      decide
  | [_], hcalls =>
      obtain ⟨rfl, htail⟩ := List.cons.inj hcalls
      obtain ⟨hcall, -⟩ := List.cons.inj htail
      cases hcall
      cases hrun
      decide
  | _ :: _ :: [], hcalls => cases (List.cons.inj (List.cons.inj (List.cons.inj hcalls).2).2).1
  | _ :: _ :: _ :: [], hcalls =>
      cases (List.cons.inj (List.cons.inj (List.cons.inj (List.cons.inj hcalls).2).2).2).1
  | _ :: _ :: _ :: _ :: l, hcalls =>
      have hlength := congrArg List.length hcalls
      simp at hlength

/-- Alice is told what she would be told alone. -/
theorem alice_sees_her_shelf :
    ∃ (s : RunStore Nat String) (replies : _),
      RunStore.run { maxEntries := 4, ttlSeconds := 60 } sharedHistory .empty = .ok (s, replies)
        ∧ ownReplies (ownedBy "alice") (sharedHistory.zip replies)
          = served (Shelf.serve { maxEntries := 4, ttlSeconds := 60 }) []
              (sharedHistory.filter (ownedBy "alice")) :=
  let view := principal_sees_own_shelf { maxEntries := 4, ttlSeconds := 60 } (by decide)
    sharedHistory (by unfold FreshIds; decide) (by decide) "alice"
  view.1 (view.2 sharedHistory_belowShare)

end CognitiveRuntime
