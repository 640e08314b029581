import CognitiveRuntime.Data.Recency
import CognitiveRuntime.Mcp.RunStore
import Mathlib.Algebra.BigOperators.Group.List.Lemmas
import Mathlib.Algebra.Order.BigOperators.Group.List
import Mathlib.Algebra.Order.Floor.Div

/-!
# Histories of the run store

Over every sequence of calls the dict and the order list of the store
name the same runs, each once and within the bound, and the order is the
order of last use. What a call returns is then the asking principal's
own, and what capacity takes is the least recently used run of a
principal with the most runs.
-/

namespace CognitiveRuntime

open Fallible Recency

namespace RunStore

variable {Time Payload : Type} {s : RunStore Time Payload}

/-! ## The two structures -/

/-- The order lists the keys of the dict, each once. -/
def Represented (s : RunStore Time Payload) : Prop := s.order.Perm s.items.keys

theorem Represented.nodup (h : s.Represented) : s.order.Nodup :=
  h.nodup_iff.mpr s.items.keys_nodup

theorem Represented.mem_order (h : s.Represented) {rid : String} :
    rid ∈ s.order ↔ rid ∈ s.items :=
  h.mem_iff.trans AList.mem_keys.symm

theorem Represented.exists_record (h : s.Represented) {rid : String} (hrid : rid ∈ s.order) :
    ∃ record, s.items.lookup rid = some record := by
  rw [h.mem_order, ← AList.lookup_isSome] at hrid
  exact Option.isSome_iff_exists.mp hrid

theorem Represented.discard (h : s.Represented) (rid : String) : (s.discard rid).Represented := by
  unfold Represented RunStore.discard
  rw [AList.keys_erase]
  exact h.erase rid

theorem Represented.insert (h : s.Represented) {rid : String} (hrid : rid ∉ s.items)
    (record : RunRecord Time Payload) : (s.insert rid record).Represented := by
  unfold Represented RunStore.insert
  rw [AList.keys_insert, List.erase_of_not_mem fun hmem => hrid (AList.mem_keys.mpr hmem)]
  exact List.perm_append_comm.trans (h.cons rid)

theorem lookup_discard (s : RunStore Time Payload) (old rid : String) :
    (s.discard old).items.lookup rid = if rid = old then none else s.items.lookup rid := by
  unfold RunStore.discard
  split
  · next h => rw [h, AList.lookup_erase]
  · next h => rw [AList.lookup_erase_ne h]

theorem represented_discardAll {rids : List String} (h : s.Represented) :
    (rids.foldl RunStore.discard s).Represented := by
  induction rids generalizing s with
  | nil => exact h
  | cons rid rids ih => exact ih (h.discard rid)

theorem lookup_discardAll {rids : List String} {rid : String} :
    (rids.foldl RunStore.discard s).items.lookup rid
      = if rid ∈ rids then none else s.items.lookup rid := by
  induction rids generalizing s with
  | nil => simp
  | cons old rids ih =>
      rw [List.foldl_cons, ih, lookup_discard]
      by_cases hmem : rid ∈ rids
      · simp [hmem]
      · by_cases heq : rid = old
        · simp [heq]
        · simp [hmem, heq]

theorem order_discardAll_sublist {rids : List String} :
    (rids.foldl RunStore.discard s).order.Sublist s.order := by
  induction rids generalizing s with
  | nil => exact .refl _
  | cons rid rids ih => exact ih.trans List.erase_sublist

/-! ### The victim of capacity -/

/-- The principal of each live run. -/
def holdings (s : RunStore Time Payload) : List String :=
  s.items.entries.map fun entry => entry.2.principal

/-- The number of live runs of a principal. -/
def held (s : RunStore Time Payload) (principal : String) : Nat :=
  s.holdings.count principal

/-- The principals that hold a run. -/
def holders (s : RunStore Time Payload) : List String := s.holdings.dedup

def ownerOf (s : RunStore Time Payload) (rid : String) : Option String :=
  (s.items.lookup rid).map RunRecord.principal

theorem itemAt_eq_ok {rid : String} {record : RunRecord Time Payload} :
    s.itemAt rid = .ok record ↔ s.items.lookup rid = some record :=
  require_eq_ok

/-- The owners read along the order are the owners of the records. -/
theorem Represented.owners_perm (h : s.Represented) :
    (s.order.filterMap s.ownerOf).Perm s.holdings := by
  have hkeys : s.items.keys.filterMap s.ownerOf = s.holdings := by
    unfold AList.keys List.keys holdings
    rw [List.filterMap_map, ← List.filterMap_eq_map]
    refine List.filterMap_congr fun entry hentry => ?_
    have hlookup : s.items.lookup entry.1 = some entry.2 := AList.mem_lookup_iff.mpr hentry
    show s.ownerOf entry.1 = some entry.2.principal
    unfold ownerOf
    rw [hlookup, Option.map_some]
  rw [← hkeys]
  exact h.filterMap s.ownerOf

theorem owners_of_mapM {order : List String} {records : List (RunRecord Time Payload)}
    (h : order.mapM s.itemAt = .ok records) :
    records.map RunRecord.principal = order.filterMap s.ownerOf := by
  have hall := mapM_eq_ok.mp h
  clear h
  induction hall with
  | nil => rfl
  | @cons rid record _ _ hrecord _ ih =>
      have howner : s.ownerOf rid = some record.principal := by
        unfold ownerOf
        rw [itemAt_eq_ok.mp hrecord, Option.map_some]
      rw [List.map_cons, ih, List.filterMap_cons_some howner]

theorem length_holdings (h : s.Represented) : s.holdings.length = s.order.length := by
  rw [h.length_eq, holdings, List.length_map, AList.keys, List.keys, List.length_map]

/-- The victim is the first run, in the order, of a principal that holds
at least as many as any other. -/
theorem capacityVictim_spec (h : s.Represented) (hne : s.order ≠ []) :
    ∃ old record early late, s.capacityVictim = .ok old
      ∧ s.order = early ++ old :: late
      ∧ s.items.lookup old = some record
      ∧ (∀ principal, s.held principal ≤ s.held record.principal)
      ∧ ∀ rid ∈ early, ∀ other, s.items.lookup rid = some other →
          s.held other.principal < s.held record.principal := by
  have hitems : ∀ rid ∈ s.order, ∃ record, s.itemAt rid = .ok record := fun rid hrid =>
    (h.exists_record hrid).imp fun _ => itemAt_eq_ok.mpr
  obtain ⟨records, hrecords⟩ := mapM_ok_of_forall hitems
  have hperm : (records.map RunRecord.principal).Perm s.holdings :=
    owners_of_mapM hrecords ▸ h.owners_perm
  generalize howners : records.map RunRecord.principal = owners at hperm
  have hcount : ∀ principal, owners.count principal = s.held principal := hperm.count_eq
  have hcounts : owners.map (fun p => owners.count p) ≠ [] := by
    intro hnil
    have hlength := hperm.length_eq
    rw [List.map_eq_nil_iff] at hnil
    rw [hnil, length_holdings h, List.length_nil, eq_comm, List.length_eq_zero_iff] at hlength
    exact hne hlength
  obtain ⟨most, hmost⟩ := Option.isSome_iff_exists.mp (List.isSome_max?_of_ne_nil hcounts)
  obtain ⟨hattained, hbound⟩ := List.max?_eq_some_iff.mp hmost
  have hle : ∀ principal, s.held principal ≤ most := by
    intro principal
    rw [← hcount]
    by_cases hmem : principal ∈ owners
    · exact hbound _ (List.mem_map_of_mem hmem)
    · rw [List.count_eq_zero_of_not_mem hmem]
      exact Nat.zero_le _
  -- some run belongs to a principal that attains the maximum
  obtain ⟨owner, howner, rfl⟩ := List.mem_map.mp hattained
  rw [← howners] at howner
  obtain ⟨record, hrecord, rfl⟩ := List.mem_map.mp howner
  obtain ⟨rid, hrid, hread⟩ := exists_of_mapM hrecords hrecord
  have hfound : (s.order.find? fun rid => (s.items.lookup rid).any fun r =>
      decide (owners.count r.principal = owners.count record.principal)).isSome := by
    rw [List.find?_isSome]
    refine ⟨rid, hrid, ?_⟩
    rw [itemAt_eq_ok.mp hread, Option.any_some, decide_eq_true_eq]
  obtain ⟨old, hold⟩ := Option.isSome_iff_exists.mp hfound
  obtain ⟨hpick, early, late, horder, hearly⟩ := List.find?_eq_some_iff_append.mp hold
  obtain ⟨victim, hvictim, hmax⟩ := (Option.any_eq_true _ _).mp hpick
  rw [decide_eq_true_eq, hcount, hcount] at hmax
  rw [hcount] at hle
  refine ⟨old, victim, early, late, ?_, horder, hvictim, ?_, ?_⟩
  · unfold capacityVictim
    rw [hrecords, ok_bind]
    simp only [howners, hmost]
    exact require_eq_ok.mpr hold
  · intro principal
    rw [hmax]
    exact hle principal
  · intro rid hrid other hother
    have hskip := hearly rid hrid
    rw [hother, Option.any_some, Bool.not_eq_true', decide_eq_false_iff_not, hcount, hcount]
      at hskip
    rw [hmax]
    exact lt_of_le_of_ne (hle _) hskip

/-- A principal with the most runs holds at least an even share. -/
theorem length_le_holders_mul {most : Nat} (h : ∀ principal, s.held principal ≤ most) :
    s.holdings.length ≤ s.holders.length * most := by
  have hsum := List.sum_map_count_dedup_eq_length s.holdings
  have hbound : (s.holdings.dedup.map fun p => s.holdings.count p).sum
      ≤ (s.holdings.dedup.map fun p => s.holdings.count p).length • most := by
    refine List.sum_le_card_nsmul _ _ fun count hcount => ?_
    obtain ⟨principal, -, rfl⟩ := List.mem_map.mp hcount
    exact h principal
  rw [List.length_map, smul_eq_mul, hsum] at hbound
  exact hbound

/-- One run over the bound: room is made by one removal. -/
theorem makeRoom_spec (h : s.Represented) {maxEntries : Nat}
    (hlength : s.order.length ≤ maxEntries + 1) :
    (s.order.length ≤ maxEntries ∧ makeRoom maxEntries s.order.length s = .ok s)
      ∨ ∃ old, s.order.length = maxEntries + 1 ∧ s.capacityVictim = .ok old ∧ old ∈ s.order
          ∧ makeRoom maxEntries s.order.length s = .ok (s.discard old) := by
  have hstop : ∀ turns {t : RunStore Time Payload}, t.order.length ≤ maxEntries →
      makeRoom maxEntries turns t = .ok t := by
    intro turns t ht
    cases turns with
    | zero => rfl
    | succ turns => rw [makeRoom, if_neg (Nat.not_lt.mpr ht)]
  by_cases hroom : s.order.length ≤ maxEntries
  · exact .inl ⟨hroom, hstop _ hroom⟩
  · have hfull : s.order.length = maxEntries + 1 := by omega
    have hne : s.order ≠ [] := List.ne_nil_of_length_eq_add_one hfull
    obtain ⟨old, -, early, late, hvictim, horder, -⟩ := capacityVictim_spec h hne
    have hold : old ∈ s.order := by
      rw [horder]
      exact List.mem_append_right _ (List.mem_cons_self ..)
    refine .inr ⟨old, hfull, hvictim, hold, ?_⟩
    have hless : (s.discard old).order.length ≤ maxEntries := by
      have herase := List.length_erase_of_mem hold
      show (s.order.erase old).length ≤ maxEntries
      omega
    rw [hfull, makeRoom, if_pos (by omega), hvictim, ok_bind, hstop _ hless]

/-! ### Expiry -/

variable [LE Time] [DecidableLE Time] {now : Time}

theorem mem_expiredIds {rid : String} :
    rid ∈ s.expiredIds now ↔
      ∃ record, s.items.lookup rid = some record ∧ record.expiresAt ≤ now := by
  unfold expiredIds
  simp only [List.mem_map, List.mem_filter, decide_eq_true_eq]
  constructor
  · rintro ⟨⟨rid', record⟩, ⟨hentry, hexpired⟩, rfl⟩
    exact ⟨record, AList.mem_lookup_iff.mpr hentry, hexpired⟩
  · rintro ⟨record, hrecord, hexpired⟩
    exact ⟨⟨rid, record⟩, ⟨AList.mem_lookup_iff.mp hrecord, hexpired⟩, rfl⟩

theorem Represented.evict (h : s.Represented) (now : Time) : (s.evict now).Represented :=
  represented_discardAll h

theorem order_evict_sublist (s : RunStore Time Payload) (now : Time) :
    (s.evict now).order.Sublist s.order :=
  order_discardAll_sublist

/-- Expiry leaves the records that have not expired, unchanged. -/
theorem lookup_evict_eq_some {rid : String} {record : RunRecord Time Payload} :
    (s.evict now).items.lookup rid = some record ↔
      s.items.lookup rid = some record ∧ ¬ record.expiresAt ≤ now := by
  unfold RunStore.evict
  rw [lookup_discardAll]
  split
  · next h =>
      obtain ⟨record', hrecord', hexpired⟩ := mem_expiredIds.mp h
      constructor
      · intro hnone
        cases hnone
      · rintro ⟨hrecord, hlive⟩
        rw [hrecord'] at hrecord
        cases hrecord
        exact absurd hexpired hlive
  · next h =>
      constructor
      · intro hrecord
        exact ⟨hrecord, fun hexpired => h (mem_expiredIds.mpr ⟨record, hrecord, hexpired⟩)⟩
      · exact And.left

end RunStore

/-! ## What a history leaves -/

section Histories

variable {Time Payload : Type} [Add Time]

/-- The id a call draws. -/
def StoreCall.drawn : StoreCall Time Payload → Option String
  | .create _ _ rid _ => some rid
  | _ => none

def StoreCall.principal : StoreCall Time Payload → String
  | .create principal _ _ _ | .get _ principal _ | .require _ principal _
  | .list principal _ => principal

def StoreCall.now : StoreCall Time Payload → Time
  | .create _ _ _ now | .get _ _ now | .require _ _ now | .list _ now => now

/-- The id a call asks for. -/
def StoreCall.asked : StoreCall Time Payload → Option String
  | .get rid _ _ | .require rid _ _ => some rid
  | _ => none

/-- No id is drawn twice. -/
def FreshIds (calls : List (StoreCall Time Payload)) : Prop :=
  (calls.filterMap StoreCall.drawn).Nodup

/-- The records a call hands back. -/
def StoreReply.returned : StoreReply Time Payload → List (RunRecord Time Payload)
  | .created _ => []
  | .fetched record => record.toList
  | .required outcome => outcome.toOption.toList
  | .listed records => records

/-- The run a call creates or fetches. -/
def StoreReply.used : StoreReply Time Payload → List String
  | .created record => [record.runId]
  | .fetched record => record.toList.map RunRecord.runId
  | .required outcome => outcome.toOption.toList.map RunRecord.runId
  | .listed _ => []

/-- The runs created or fetched over a history, oldest use first. -/
def usedIds (replies : List (StoreReply Time Payload)) : List String :=
  replies.flatMap StoreReply.used

/-- The record is what some call of the history created. -/
def CreatedIn (settings : StoreSettings Time) (calls : List (StoreCall Time Payload))
    (record : RunRecord Time Payload) : Prop :=
  ∃ principal payload rid now, .create principal payload rid now ∈ calls
    ∧ record = RunStore.newRecord settings principal payload rid now

theorem CreatedIn.append {settings : StoreSettings Time} {calls : List (StoreCall Time Payload)}
    {record : RunRecord Time Payload} (h : CreatedIn settings calls record)
    (later : List (StoreCall Time Payload)) : CreatedIn settings (calls ++ later) record := by
  obtain ⟨principal, payload, rid, now, hcall, hrecord⟩ := h
  exact ⟨principal, payload, rid, now, List.mem_append_left _ hcall, hrecord⟩

/-- What a history of calls leaves in the store. -/
structure Consistent (settings : StoreSettings Time) (calls : List (StoreCall Time Payload))
    (replies : List (StoreReply Time Payload)) (s : RunStore Time Payload) : Prop where
  represented : s.Represented
  bounded : s.order.length ≤ settings.maxEntries
  created : ∀ rid record, s.items.lookup rid = some record →
    record.runId = rid ∧ CreatedIn settings calls record
  recent : InRecencyOrder (usedIds replies) s.order

variable {settings : StoreSettings Time} {calls : List (StoreCall Time Payload)}
  {replies : List (StoreReply Time Payload)} {s : RunStore Time Payload}

omit [Add Time] in
theorem usedIds_append (replies : List (StoreReply Time Payload))
    (reply : StoreReply Time Payload) :
    usedIds (replies ++ [reply]) = usedIds replies ++ reply.used := by
  simp [usedIds]

theorem consistent_empty (settings : StoreSettings Time) :
    Consistent settings [] [] (RunStore.empty : RunStore Time Payload) :=
  { represented := .nil
    bounded := Nat.zero_le _
    created := fun _ _ h => by cases h
    recent := .nil _ }

/-- A call that uses no run adds nothing to the record of uses. -/
theorem Consistent.unused (h : Consistent settings calls replies s)
    (call : StoreCall Time Payload) {reply : StoreReply Time Payload} (hused : reply.used = []) :
    Consistent settings (calls ++ [call]) (replies ++ [reply]) s :=
  { represented := h.represented
    bounded := h.bounded
    created := fun rid record hrecord =>
      ⟨(h.created rid record hrecord).1, (h.created rid record hrecord).2.append _⟩
    recent := by
      rw [usedIds_append, hused, List.append_nil]
      exact h.recent }

/-- The LRU touch. -/
theorem Consistent.touch (h : Consistent settings calls replies s)
    (call : StoreCall Time Payload) {reply : StoreReply Time Payload} {rid : String}
    (hrid : rid ∈ s.order) (hused : reply.used = [rid]) :
    Consistent settings (calls ++ [call]) (replies ++ [reply])
      { s with order := s.order.erase rid ++ [rid] } := by
  have hperm : (s.order.erase rid ++ [rid]).Perm s.order :=
    List.perm_append_comm.trans (List.perm_cons_erase hrid).symm
  exact
    { represented := hperm.trans h.represented
      bounded := hperm.length_eq ▸ h.bounded
      created := fun rid record hrecord =>
        ⟨(h.created rid record hrecord).1, (h.created rid record hrecord).2.append _⟩
      recent := by
        rw [usedIds_append, hused]
        exact h.recent.touch h.represented.nodup rid }

/-! ### Making room -/

/-- The evictions of one `create`: `full` is the store with the new run
in it, before room is made, and `s'` the one after. -/
structure FairEviction (settings : StoreSettings Time) (uses : List String)
    (full s' : RunStore Time Payload) (rid : String) : Prop where
  /-- The new run stays. -/
  keeps_new : rid ∈ s'.order
  /-- A run that leaves is the least recently used one of a principal
  that holds as many runs as any other. -/
  victim : ∀ old ∈ full.order, old ∉ s'.order → ∃ record, full.items.lookup old = some record
    ∧ (∀ principal, full.held principal ≤ full.held record.principal)
    ∧ ∀ other otherRecord, other ≠ old → full.items.lookup other = some otherRecord →
        otherRecord.principal = record.principal → LastUsedBefore uses old other
  /-- A principal below an even share, rounded up, loses nothing. -/
  quota : ∀ other record, full.items.lookup other = some record →
    full.held record.principal < (settings.maxEntries + 1) ⌈/⌉ full.holders.length →
    other ∈ s'.order

/-- What making room keeps of the full store. -/
structure PartOf (settings : StoreSettings Time) (full s' : RunStore Time Payload) : Prop where
  represented : s'.Represented
  bounded : s'.order.length ≤ settings.maxEntries
  records : ∀ rid record, s'.items.lookup rid = some record →
    full.items.lookup rid = some record
  order : s'.order.Sublist full.order

omit [Add Time] in
/-- The run that was just inserted is not the victim: it comes last, so
every principal before it would have to hold less than its own does. -/
theorem new_ne_victim {full : RunStore Time Payload} (h : full.Represented)
    {before early late : List String} {rid old : String} {record : RunRecord Time Payload}
    (hnew : full.order = before ++ [rid]) (hbefore : before ≠ [])
    (hsplit : full.order = early ++ old :: late) (hold : full.items.lookup old = some record)
    (hearly : ∀ w ∈ early, ∀ other, full.items.lookup w = some other →
      full.held other.principal < full.held record.principal) : rid ≠ old := by
  rintro rfl
  have hearlyBefore : before = early := by
    have hnodup := h.nodup
    rw [hnew, List.nodup_append] at hnodup
    have hfresh : rid ∉ before := fun hmem =>
      hnodup.2.2 rid hmem rid (List.mem_singleton_self rid) rfl
    rw [hnew] at hsplit
    exact ((List.append_cons_inj_of_notMem hfresh List.not_mem_nil).mp hsplit).1
  subst hearlyBefore
  -- nothing before it is its principal's, so its principal holds it alone
  have hothers : (before.filterMap full.ownerOf).count record.principal = 0 := by
    rw [List.count_eq_zero]
    intro hmem
    obtain ⟨w, hw, howner⟩ := List.mem_filterMap.mp hmem
    obtain ⟨other, hother, hprincipal⟩ := Option.map_eq_some_iff.mp howner
    exact absurd (hearly w hw other hother) (by rw [hprincipal]; exact lt_irrefl _)
  have hown : full.ownerOf rid = some record.principal := by
    unfold RunStore.ownerOf
    rw [hold, Option.map_some]
  have hone : full.held record.principal = 1 := by
    unfold RunStore.held
    rw [← h.owners_perm.count_eq, hnew, List.filterMap_append, List.count_append, hothers,
      List.filterMap_cons_some hown, List.filterMap_nil, List.count_singleton_self]
  obtain ⟨w, hw⟩ := List.exists_mem_of_ne_nil before hbefore
  have hworder : w ∈ full.order := by
    rw [hnew]
    exact List.mem_append_left _ hw
  obtain ⟨other, hother⟩ := h.exists_record hworder
  have hpos : 0 < full.held other.principal := by
    unfold RunStore.held
    rw [← h.owners_perm.count_eq, List.count_pos_iff]
    refine List.mem_filterMap.mpr ⟨w, hworder, ?_⟩
    unfold RunStore.ownerOf
    rw [hother, Option.map_some]
  have hless := hearly w hw other hother
  omega

omit [Add Time] in
/-- Making room for a new run, listed last, is fair. -/
theorem makeRoom_fair {uses : List String} {full : RunStore Time Payload}
    (h : full.Represented) (hmax : 1 ≤ settings.maxEntries)
    (hlength : full.order.length ≤ settings.maxEntries + 1)
    (hrecent : InRecencyOrder uses full.order) {before : List String} {rid : String}
    (hnew : full.order = before ++ [rid]) :
    ∃ s', RunStore.makeRoom settings.maxEntries full.order.length full = .ok s'
      ∧ PartOf settings full s' ∧ FairEviction settings uses full s' rid := by
  have hrid : rid ∈ full.order := by
    rw [hnew]
    exact List.mem_append_right _ (List.mem_singleton_self _)
  rcases RunStore.makeRoom_spec h hlength with ⟨hroom, hdone⟩ | ⟨old, hfull, hvictim, -, hdone⟩
  · refine ⟨full, hdone, ⟨h, hroom, fun _ _ hrecord => hrecord, .refl _⟩, hrid, ?_, ?_⟩
    · intro old hold hgone
      exact absurd hold hgone
    · intro other record hrecord _
      rw [h.mem_order, ← AList.lookup_isSome, hrecord]
      rfl
  · have hne : full.order ≠ [] := List.ne_nil_of_length_eq_add_one hfull
    obtain ⟨old', record, early, late, hvictim', hsplit, hold, hmost, hearly⟩ :=
      RunStore.capacityVictim_spec h hne
    obtain rfl : old' = old := Except.ok.inj (hvictim'.symm.trans hvictim)
    have hgone : ∀ w, w ∈ (full.discard old').order ↔ w ≠ old' ∧ w ∈ full.order :=
      fun w => h.nodup.mem_erase_iff
    have hbefore : before ≠ [] := by
      rintro rfl
      rw [hnew, List.nil_append, List.length_singleton] at hfull
      omega
    refine ⟨full.discard old', hdone, ⟨h.discard old', ?_, ?_, List.erase_sublist⟩, ?_, ?_, ?_⟩
    · have hmem : old' ∈ full.order := by
        rw [hsplit]
        exact List.mem_append_right _ (List.mem_cons_self ..)
      have herase := List.length_erase_of_mem hmem
      show (full.order.erase old').length ≤ settings.maxEntries
      omega
    · intro w r hr
      rw [RunStore.lookup_discard] at hr
      split at hr
      · cases hr
      · exact hr
    · exact (hgone rid).mpr ⟨new_ne_victim h hnew hbefore hsplit hold hearly, hrid⟩
    · intro w hw hleft
      obtain rfl : w = old' := by
        by_contra hne
        exact hleft ((hgone w).mpr ⟨hne, hw⟩)
      refine ⟨record, hold, hmost, ?_⟩
      intro other otherRecord hother hrecord hsame
      have hlisted : other ∈ full.order := by
        rw [h.mem_order, ← AList.lookup_isSome, hrecord]
        rfl
      rw [hsplit] at hrecent hlisted
      rcases List.mem_append.mp hlisted with hin | hin
      · have hless := hearly other hin otherRecord hrecord
        rw [hsame] at hless
        exact absurd hless (lt_irrefl _)
      · rcases List.mem_cons.mp hin with heq | hin
        · exact absurd heq hother
        · exact hrecent.of_split hin
    · intro other otherRecord hrecord hquota
      have hlisted : other ∈ full.order := by
        rw [h.mem_order, ← AList.lookup_isSome, hrecord]
        rfl
      refine (hgone other).mpr ⟨?_, hlisted⟩
      rintro rfl
      obtain rfl : otherRecord = record := Option.some.inj (hrecord.symm.trans hold)
      have htotal := RunStore.length_le_holders_mul hmost
      rw [RunStore.length_holdings h, hfull] at htotal
      have hholders : 0 < full.holders.length := by
        by_contra hzero
        rw [Nat.eq_zero_of_not_pos hzero] at htotal
        omega
      rw [← ceilDiv_le_iff_le_mul hholders] at htotal
      exact absurd hquota (not_lt.mpr htotal)

/-- The record an id is under was drawn by some call. -/
theorem Consistent.fresh (h : Consistent settings calls replies s) {rid : String}
    (hfresh : rid ∉ calls.filterMap StoreCall.drawn) : rid ∉ s.items := by
  intro hmem
  rw [← AList.lookup_isSome] at hmem
  obtain ⟨record, hrecord⟩ := Option.isSome_iff_exists.mp hmem
  obtain ⟨hid, principal, payload, rid', now, hcall, rfl⟩ := h.created rid record hrecord
  obtain rfl : rid' = rid := hid
  exact hfresh (List.mem_filterMap.mpr ⟨_, hcall, rfl⟩)

variable [LE Time] [DecidableLE Time]

theorem Consistent.evict (h : Consistent settings calls replies s) (now : Time) :
    Consistent settings calls replies (s.evict now) :=
  { represented := h.represented.evict now
    bounded := (RunStore.order_evict_sublist s now).length_le.trans h.bounded
    created := fun rid record hrecord =>
      h.created rid record (RunStore.lookup_evict_eq_some.mp hrecord).1
    recent := h.recent.sublist (RunStore.order_evict_sublist s now) }

/-! ### Reading -/

/-- The principal can read the run: it holds it and it has not expired. -/
def Readable (s : RunStore Time Payload) (rid principal : String) (now : Time) : Prop :=
  ∃ record, s.items.lookup rid = some record ∧ record.principal = principal
    ∧ ¬ record.expiresAt ≤ now

omit [Add Time] in
/-- A run that cannot be read, for whatever reason, is not found. -/
theorem get_of_not_readable {rid principal : String} {now : Time}
    (h : ¬ Readable s rid principal now) : s.get rid principal now = .ok (s.evict now, none) := by
  unfold RunStore.get
  cases hlookup : (s.evict now).items.lookup rid with
  | none => simp only [hlookup]
  | some record =>
      obtain ⟨hrecord, hlive⟩ := RunStore.lookup_evict_eq_some.mp hlookup
      simp only [hlookup]
      have hother : record.principal ≠ principal := fun hown => h ⟨record, hrecord, hown, hlive⟩
      exact if_pos hother

omit [Add Time] in
theorem get_of_readable (h : s.Represented) {rid principal : String} {now : Time}
    {record : RunRecord Time Payload} (hrecord : s.items.lookup rid = some record)
    (hown : record.principal = principal) (hlive : ¬ record.expiresAt ≤ now) :
    rid ∈ (s.evict now).order
      ∧ s.get rid principal now
        = .ok ({ s.evict now with order := (s.evict now).order.erase rid ++ [rid] },
            some record) := by
  have hlookup : (s.evict now).items.lookup rid = some record :=
    RunStore.lookup_evict_eq_some.mpr ⟨hrecord, hlive⟩
  have hrid : rid ∈ (s.evict now).order := by
    rw [(h.evict now).mem_order, ← AList.lookup_isSome, hlookup]
    rfl
  refine ⟨hrid, ?_⟩
  unfold RunStore.get
  simp only [hlookup]
  rw [if_neg (not_not.mpr hown), if_pos hrid]

omit [Add Time] in
theorem requireRun_eq {rid principal : String} {now : Time} {s' : RunStore Time Payload}
    {record : Option (RunRecord Time Payload)} (h : s.get rid principal now = .ok (s', record)) :
    s.requireRun rid principal now
      = .ok (s', require record { message := "run not found", path := rid }) := by
  unfold RunStore.requireRun
  rw [h]
  rfl

/-- What a call hands back was created by the principal that asks, has the
id it asks for, if it asks for one, and has not expired. -/
def ReturnsOwn (settings : StoreSettings Time) (history : List (StoreCall Time Payload))
    (call : StoreCall Time Payload) (reply : StoreReply Time Payload) : Prop :=
  ∀ record ∈ reply.returned, record.principal = call.principal
    ∧ (∀ rid, call.asked = some rid → record.runId = rid)
    ∧ ¬ record.expiresAt ≤ call.now ∧ CreatedIn settings history record

/-- `get` and `require` keep the store consistent and return the caller's
own. -/
theorem Consistent.read (h : Consistent settings calls replies s)
    (call : StoreCall Time Payload) (rid principal : String) (now : Time) (hprincipal : call.principal = principal)
    (hnow : call.now = now) (hasked : call.asked = some rid)
    (reply : Option (RunRecord Time Payload) → StoreReply Time Payload)
    (hreturned : ∀ record, (reply record).returned = record.toList)
    (hused : ∀ record, (reply record).used = record.toList.map RunRecord.runId) :
    ∃ s' record, s.get rid principal now = .ok (s', record)
      ∧ Consistent settings (calls ++ [call]) (replies ++ [reply record]) s'
      ∧ ReturnsOwn settings calls call (reply record) := by
  by_cases hreadable : Readable s rid principal now
  · obtain ⟨record, hrecord, hown, hlive⟩ := hreadable
    obtain ⟨hrid, hget⟩ := get_of_readable h.represented hrecord hown hlive
    obtain ⟨hid, hcreated⟩ := h.created rid record hrecord
    refine ⟨_, some record, hget, (h.evict now).touch call hrid ?_, ?_⟩
    · rw [hused, Option.toList_some, List.map_singleton, hid]
    · intro r hr
      rw [hreturned, Option.toList_some] at hr
      obtain rfl := List.mem_singleton.mp hr
      rw [hprincipal, hnow, hasked]
      exact ⟨hown, fun rid' hrid' => hid.trans (Option.some.inj hrid'), hlive, hcreated⟩
  · refine ⟨_, none, get_of_not_readable hreadable, (h.evict now).unused call ?_, ?_⟩
    · rw [hused]
      rfl
    · intro r hr
      rw [hreturned] at hr
      cases hr

/-- `list_for_principal` never misses a key. -/
theorem Consistent.list (h : Consistent settings calls replies s) (principal : String)
    (now : Time) :
    ∃ records, s.listForPrincipal principal now = .ok (s.evict now, records)
      ∧ ReturnsOwn settings calls (.list principal now) (.listed records) := by
  have hevicted := h.evict now
  have hitems : ∀ rid ∈ (s.evict now).order, ∃ record, (s.evict now).itemAt rid = .ok record :=
    fun rid hrid => (hevicted.represented.exists_record hrid).imp fun _ =>
      RunStore.itemAt_eq_ok.mpr
  obtain ⟨records, hrecords⟩ := mapM_ok_of_forall hitems
  refine ⟨records.filter fun record => record.principal = principal, ?_, ?_⟩
  · unfold RunStore.listForPrincipal
    simp only [hrecords, ok_bind]
  · intro record hrecord
    obtain ⟨hmem, hown⟩ := List.mem_filter.mp hrecord
    obtain ⟨rid, -, hread⟩ := exists_of_mapM hrecords hmem
    obtain ⟨hlookup, hlive⟩ :=
      RunStore.lookup_evict_eq_some.mp (RunStore.itemAt_eq_ok.mp hread)
    refine ⟨of_decide_eq_true hown, fun _ hasked => ?_, hlive, (h.created rid record hlookup).2⟩
    cases hasked

/-! ### Creating -/

/-- `create` keeps the store consistent, and its evictions are fair. -/
theorem Consistent.create (h : Consistent settings calls replies s)
    (hmax : 1 ≤ settings.maxEntries) (principal : String) (payload : Payload) {rid : String}
    (now : Time) (hfresh : rid ∉ calls.filterMap StoreCall.drawn) :
    ∃ s', s.create settings principal payload rid now
        = .ok (s', RunStore.newRecord settings principal payload rid now)
      ∧ Consistent settings (calls ++ [.create principal payload rid now])
          (replies ++ [.created (RunStore.newRecord settings principal payload rid now)]) s'
      ∧ FairEviction settings (usedIds replies ++ [rid])
          (s.inserted settings principal payload rid now) s' rid := by
  have hevicted := h.evict now
  have hnot := hevicted.fresh hfresh
  have hnew : (s.inserted settings principal payload rid now).order
      = (s.evict now).order ++ [rid] := rfl
  have hfull : (s.inserted settings principal payload rid now).Represented :=
    hevicted.represented.insert hnot _
  have hlength : (s.inserted settings principal payload rid now).order.length
      ≤ settings.maxEntries + 1 := by
    rw [hnew, List.length_append, List.length_singleton]
    exact Nat.add_le_add_right hevicted.bounded 1
  have hunlisted : rid ∉ (s.evict now).order := fun hmem =>
    hnot (hevicted.represented.mem_order.mp hmem)
  have hrecent : InRecencyOrder (usedIds replies ++ [rid])
      (s.inserted settings principal payload rid now).order :=
    hevicted.recent.append hunlisted
  obtain ⟨s', hroom, hpart, hfair⟩ := makeRoom_fair hfull hmax hlength hrecent hnew
  refine ⟨s', ?_, ?_, hfair⟩
  · unfold RunStore.create
    simp only [hroom, ok_bind]
  · refine ⟨hpart.represented, hpart.bounded, ?_, ?_⟩
    · intro id record hrecord
      have hin := hpart.records id record hrecord
      by_cases heq : id = rid
      · subst heq
        have hself : record = RunStore.newRecord settings principal payload id now :=
          Option.some.inj (hin.symm.trans (AList.lookup_insert _))
        subst hself
        exact ⟨rfl, principal, payload, id, now,
          List.mem_append_right _ (List.mem_singleton_self _), rfl⟩
      · have hold : (s.evict now).items.lookup id = some record :=
          (AList.lookup_insert_ne heq).symm.trans hin
        obtain ⟨hid, hcreated⟩ := hevicted.created id record hold
        exact ⟨hid, hcreated.append _⟩
    · rw [usedIds_append]
      exact hrecent.sublist hpart.order

/-! ### Every history -/

/-- One call: it succeeds, keeps the store consistent, and returns the
caller's own. -/
theorem Consistent.step (h : Consistent settings calls replies s)
    (hmax : 1 ≤ settings.maxEntries) {call : StoreCall Time Payload}
    (hfresh : ∀ rid, call.drawn = some rid → rid ∉ calls.filterMap StoreCall.drawn) :
    ∃ s' reply, s.step settings call = .ok (s', reply)
      ∧ Consistent settings (calls ++ [call]) (replies ++ [reply]) s'
      ∧ ReturnsOwn settings calls call reply := by
  cases call with
  | create principal payload rid now =>
      obtain ⟨s', hcreate, hconsistent, -⟩ :=
        h.create hmax principal payload now (hfresh rid rfl)
      refine ⟨s', _, ?_, hconsistent, fun record hrecord => by cases hrecord⟩
      simp only [RunStore.step, hcreate, ok_bind]
  | get rid principal now =>
      obtain ⟨s', record, hget, hconsistent, hown⟩ :=
        h.read (.get rid principal now) rid principal now rfl rfl rfl .fetched (fun _ => rfl)
          fun _ => rfl
      refine ⟨s', .fetched record, ?_, hconsistent, hown⟩
      simp only [RunStore.step, hget, ok_bind]
  | require rid principal now =>
      obtain ⟨s', record, hget, hconsistent, hown⟩ :=
        h.read (.require rid principal now) rid principal now rfl rfl rfl
          (fun record => .required (require record { message := "run not found", path := rid }))
          (fun record => by cases record <;> rfl) fun record => by cases record <;> rfl
      refine ⟨s', _, ?_, hconsistent, hown⟩
      simp only [RunStore.step, requireRun_eq hget, ok_bind]
  | list principal now =>
      obtain ⟨records, hlist, hown⟩ := h.list principal now
      refine ⟨s.evict now, .listed records, ?_, (h.evict now).unused _ rfl, hown⟩
      simp only [RunStore.step, hlist, ok_bind]

/-- A run goes on from the store it leaves. -/
theorem run_append {call : StoreCall Time Payload} {s' : RunStore Time Payload}
    {reply : StoreReply Time Payload} :
    ∀ {calls : List (StoreCall Time Payload)} {replies : List (StoreReply Time Payload)}
      {first s : RunStore Time Payload}, RunStore.run settings calls first = .ok (s, replies) →
      s.step settings call = .ok (s', reply) →
      RunStore.run settings (calls ++ [call]) first = .ok (s', replies ++ [reply])
  | [], replies, first, s, hrun, hstep => by
      cases hrun
      simp only [List.nil_append, RunStore.run, hstep, ok_bind]
  | next :: calls, replies, first, s, hrun, hstep => by
      simp only [RunStore.run, bind_eq_ok, Prod.exists] at hrun
      obtain ⟨second, reply', hnext, last, replies', hrest, hdone⟩ := hrun
      cases hdone
      simp only [List.cons_append, RunStore.run, hnext, ok_bind, run_append hrest hstep]

omit [LE Time] [DecidableLE Time] [Add Time] in
theorem FreshIds.of_append {calls : List (StoreCall Time Payload)}
    {call : StoreCall Time Payload} (h : FreshIds (calls ++ [call])) :
    FreshIds calls
      ∧ ∀ rid, call.drawn = some rid → rid ∉ calls.filterMap StoreCall.drawn := by
  unfold FreshIds at h
  rw [List.filterMap_append, List.nodup_append] at h
  refine ⟨h.1, fun rid hdrawn hmem => ?_⟩
  have hlast : rid ∈ [call].filterMap StoreCall.drawn :=
    List.mem_filterMap.mpr ⟨call, List.mem_singleton_self call, hdrawn⟩
  exact h.2.2 rid hmem rid hlast rfl

/-- Every history runs, and leaves a consistent store. -/
theorem run_consistent (hmax : 1 ≤ settings.maxEntries) (calls : List (StoreCall Time Payload))
    (hfresh : FreshIds calls) :
    ∃ s replies, RunStore.run settings calls .empty = .ok (s, replies)
      ∧ Consistent settings calls replies s := by
  induction calls using List.reverseRecOn with
  | nil => exact ⟨.empty, [], rfl, consistent_empty settings⟩
  | append_singleton calls call ih =>
      obtain ⟨hcalls, hcall⟩ := hfresh.of_append
      obtain ⟨s, replies, hrun, hconsistent⟩ := ih hcalls
      obtain ⟨s', reply, hstep, hconsistent', -⟩ := hconsistent.step hmax hcall
      exact ⟨s', replies ++ [reply], run_append hrun hstep, hconsistent'⟩

/-- What a call does to a store that a history left. -/
structure Isolated (settings : StoreSettings Time) (history : List (StoreCall Time Payload))
    (call : StoreCall Time Payload) (s s' : RunStore Time Payload)
    (reply : StoreReply Time Payload) : Prop where
  order_nodup : s'.order.Nodup
  order_perm : s'.order.Perm s'.items.keys
  order_bounded : s'.order.length ≤ settings.maxEntries
  returns_own : ReturnsOwn settings history call reply
  /-- An unknown, an expired and another principal's id are told apart
  neither by the outcome nor by the store that is left. -/
  hidden : ∀ rid principal now,
    (∀ record, s.items.lookup rid = some record →
      record.expiresAt ≤ now ∨ record.principal ≠ principal) →
    s.get rid principal now = .ok (s.evict now, none)
      ∧ s.requireRun rid principal now
        = .ok (s.evict now, .error { message := "run not found", path := rid })

/-- After any history of calls with fresh ids, every further call
succeeds, keeps the two structures in step and within the bound, and
tells its caller about the caller's own runs only. -/
theorem run_store_isolates (settings : StoreSettings Time) (hmax : 1 ≤ settings.maxEntries)
    (history : List (StoreCall Time Payload)) (call : StoreCall Time Payload)
    (hfresh : FreshIds (history ++ [call])) :
    ∃ s replies s' reply, RunStore.run settings history .empty = .ok (s, replies)
      ∧ s.step settings call = .ok (s', reply)
      ∧ RunStore.run settings (history ++ [call]) .empty = .ok (s', replies ++ [reply])
      ∧ Isolated settings history call s s' reply := by
  obtain ⟨hhistory, hcall⟩ := hfresh.of_append
  obtain ⟨s, replies, hrun, hconsistent⟩ := run_consistent hmax history hhistory
  obtain ⟨s', reply, hstep, hconsistent', hown⟩ := hconsistent.step hmax hcall
  refine ⟨s, replies, s', reply, hrun, hstep, run_append hrun hstep,
    hconsistent'.represented.nodup, hconsistent'.represented, hconsistent'.bounded, hown, ?_⟩
  intro rid principal now hhidden
  have hunreadable : ¬ Readable s rid principal now := by
    rintro ⟨record, hrecord, hown, hlive⟩
    exact (hhidden record hrecord).elim hlive fun hother => hother hown
  have hget := get_of_not_readable hunreadable
  exact ⟨hget, requireRun_eq hget⟩

/-- Bob asks for the run Alice created. -/
theorem bob_finds_nothing :
    ∃ (s : RunStore Nat String) (replies : _) (s' : _) (reply : _),
      RunStore.run { maxEntries := 1, ttlSeconds := 60 } [.create "alice" "report" "r1" 0] .empty
        = .ok (s, replies)
      ∧ s.step { maxEntries := 1, ttlSeconds := 60 } (.get "r1" "bob" 1) = .ok (s', reply)
      ∧ RunStore.run { maxEntries := 1, ttlSeconds := 60 }
          ([.create "alice" "report" "r1" 0] ++ [.get "r1" "bob" 1]) .empty
        = .ok (s', replies ++ [reply])
      ∧ Isolated { maxEntries := 1, ttlSeconds := 60 } [.create "alice" "report" "r1" 0]
          (.get "r1" "bob" 1) s s' reply :=
  run_store_isolates { maxEntries := 1, ttlSeconds := 60 } (by decide)
    [.create "alice" "report" "r1" 0] (.get "r1" "bob" 1) (by unfold FreshIds; decide)

/-- Capacity is fair in every store a history leaves: see
`FairEviction`, with the uses of the history and the new run. -/
theorem capacity_eviction_fair (settings : StoreSettings Time) (hmax : 1 ≤ settings.maxEntries)
    (history : List (StoreCall Time Payload)) (principal : String) (payload : Payload)
    (rid : String) (now : Time)
    (hfresh : FreshIds (history ++ [.create principal payload rid now])) :
    ∃ s replies s', RunStore.run settings history .empty = .ok (s, replies)
      ∧ s.create settings principal payload rid now
        = .ok (s', RunStore.newRecord settings principal payload rid now)
      ∧ FairEviction settings (usedIds replies ++ [rid])
          (s.inserted settings principal payload rid now) s' rid := by
  obtain ⟨hhistory, hcall⟩ := hfresh.of_append
  obtain ⟨s, replies, hrun, hconsistent⟩ := run_consistent hmax history hhistory
  obtain ⟨s', hcreate, -, hfair⟩ := hconsistent.create hmax principal payload now (hcall rid rfl)
  exact ⟨s, replies, s', hrun, hcreate, hfair⟩

/-- Mallory fills the store that holds a run of Alice's. -/
theorem mallory_evicts_fairly :
    ∃ (s : RunStore Nat String) (replies : _) (s' : _),
      RunStore.run { maxEntries := 2, ttlSeconds := 60 }
        [.create "alice" "report" "r1" 0, .create "mallory" "noise" "r2" 1] .empty
        = .ok (s, replies)
      ∧ s.create { maxEntries := 2, ttlSeconds := 60 } "mallory" "noise" "r3" 2
        = .ok (s', RunStore.newRecord { maxEntries := 2, ttlSeconds := 60 } "mallory" "noise"
            "r3" 2)
      ∧ FairEviction { maxEntries := 2, ttlSeconds := 60 } (usedIds replies ++ ["r3"])
          (s.inserted { maxEntries := 2, ttlSeconds := 60 } "mallory" "noise" "r3" 2) s' "r3" :=
  capacity_eviction_fair { maxEntries := 2, ttlSeconds := 60 } (by decide)
    [.create "alice" "report" "r1" 0, .create "mallory" "noise" "r2" 1] "mallory" "noise" "r3" 2
    (by unfold FreshIds; decide)

end Histories

end CognitiveRuntime
