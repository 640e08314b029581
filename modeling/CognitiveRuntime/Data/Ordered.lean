import Mathlib.Data.List.Sort
import Mathlib.Data.Prod.Lex

/-!
# Stable sorting and insertion-ordered indexes

The container operations a deterministic compiler is written with: a
stable sort by a key, the distinct elements of a list in order of first
appearance, an index whose later entries replace earlier ones, grouping
by a key, and the first minimum. All of them are structurally recursive.

Two kinds of fact are proved about each. *Filtering*: a predicate can be
applied before or after the operation. *Set extensionality*: an
operation that forgets positions depends only on which elements occur,
not on their order or multiplicity.
-/

namespace Ordered

variable {α : Type*} {κ : Type*}

/-! ## Membership-equal lists -/

/-- The two lists hold the same elements, in any order and multiplicity. -/
def SameMembers (l l' : List α) : Prop := ∀ x, x ∈ l ↔ x ∈ l'

theorem SameMembers.refl (l : List α) : SameMembers l l := fun _ => Iff.rfl

theorem SameMembers.symm {l l' : List α} (h : SameMembers l l') :
    SameMembers l' l := fun x => (h x).symm

theorem SameMembers.filter {l l' : List α} (h : SameMembers l l')
    (p : α → Bool) : SameMembers (l.filter p) (l'.filter p) := by
  intro x
  simp only [List.mem_filter, h x]

theorem SameMembers.map {β : Type*} {l l' : List α} (h : SameMembers l l')
    (f : α → β) : SameMembers (l.map f) (l'.map f) := by
  intro y
  simp only [List.mem_map, h _]

theorem SameMembers.flatMap {β : Type*} {l l' : List α}
    (h : SameMembers l l') {f g : α → List β}
    (hfg : ∀ x ∈ l, SameMembers (f x) (g x)) :
    SameMembers (l.flatMap f) (l'.flatMap g) := by
  intro y
  simp only [List.mem_flatMap]
  constructor
  · rintro ⟨x, hx, hy⟩
    exact ⟨x, (h x).mp hx, (hfg x hx y).mp hy⟩
  · rintro ⟨x, hx, hy⟩
    exact ⟨x, (h x).mpr hx, (hfg x ((h x).mpr hx) y).mpr hy⟩

/-- Over distinct elements only one of which gives anything. -/
theorem flatMap_of_only {β : Type*} {l : List α} (hn : l.Nodup) {a : α} {f : α → List β}
    (ha : a ∈ l) (h : ∀ b ∈ l, b ≠ a → f b = []) : l.flatMap f = f a := by
  induction l with
  | nil => cases ha
  | cons b l ih =>
      obtain ⟨hb, hn⟩ := List.nodup_cons.mp hn
      rw [List.flatMap_cons]
      rcases List.mem_cons.mp ha with rfl | ha
      · have hrest : l.flatMap f = [] := List.flatMap_eq_nil_iff.mpr fun c hc =>
          h c (List.mem_cons_of_mem _ hc) (by rintro rfl; exact hb hc)
        rw [hrest, List.append_nil]
      · have hne : b ≠ a := by
          rintro rfl
          exact hb ha
        rw [h b (List.mem_cons_self ..) hne, List.nil_append]
        exact ih hn ha fun c hc => h c (List.mem_cons_of_mem _ hc)

/-- A duplicate-free list whose elements are all equal has at most one. -/
theorem length_le_one_of_all_eq {l : List α} (hn : l.Nodup)
    (h : ∀ a ∈ l, ∀ b ∈ l, a = b) : l.length ≤ 1 := by
  match l, hn, h with
  | [], _, _ => exact Nat.zero_le 1
  | [_], _, _ => exact le_refl 1
  | a :: b :: l, hn, h =>
      have hab := h a (List.mem_cons_self ..) b (List.mem_cons_of_mem _ (List.mem_cons_self ..))
      exact absurd (hab ▸ List.mem_cons_self ..) (List.nodup_cons.mp hn).1

/-- A duplicate-free list that holds one element and no other. -/
theorem eq_singleton_of_all_eq {l : List α} {a : α} (hn : l.Nodup) (hne : l ≠ [])
    (h : ∀ b ∈ l, b = a) : l = [a] := by
  have hone := length_le_one_of_all_eq hn fun b hb c hc => (h b hb).trans (h c hc).symm
  cases l with
  | nil => exact absurd rfl hne
  | cons b rest =>
      rw [List.length_cons] at hone
      have hrest : rest = [] := List.length_eq_zero_iff.mp (by omega)
      rw [hrest, h b (List.mem_cons_self ..)]

/-- Two lists with distinct keys, the same keys, and one value under each
hold the same values. -/
theorem perm_map_of_keys {κ β : Type*} (key : α → κ) (f : α → β) {l l' : List α}
    (hl : (l.map key).Nodup) (hl' : (l'.map key).Nodup)
    (hkeys : ∀ k, k ∈ l.map key ↔ k ∈ l'.map key)
    (hsame : ∀ a ∈ l, ∀ b ∈ l', key a = key b → f a = f b) : (l.map f).Perm (l'.map f) := by
  have hnodup : ∀ {m : List α}, (m.map key).Nodup → (m.map fun a => (key a, f a)).Nodup := by
    intro m hm
    refine List.Nodup.of_map Prod.fst ?_
    rw [List.map_map]
    exact hm
  have hpairs : (l.map fun a => (key a, f a)).Perm (l'.map fun a => (key a, f a)) := by
    refine (List.perm_ext_iff_of_nodup (hnodup hl) (hnodup hl')).mpr ?_
    rintro ⟨k, v⟩
    simp only [List.mem_map, Prod.mk.injEq] at hkeys ⊢
    constructor
    · rintro ⟨a, ha, rfl, rfl⟩
      obtain ⟨b, hb, hk⟩ := (hkeys (key a)).mp ⟨a, ha, rfl⟩
      exact ⟨b, hb, hk, (hsame a ha b hb hk.symm).symm⟩
    · rintro ⟨b, hb, rfl, rfl⟩
      obtain ⟨a, ha, hk⟩ := (hkeys (key b)).mpr ⟨b, hb, rfl⟩
      exact ⟨a, ha, hk, hsame a ha b hb hk⟩
  have hvalues := hpairs.map Prod.snd
  rw [List.map_map, List.map_map] at hvalues
  exact hvalues

/-! ## Insertion -/

/-- The second list is the first with elements of a kind inserted
anywhere. -/
inductive InsertedWith (p : α → Prop) : List α → List α → Prop where
  | nil : InsertedWith p [] []
  | keep (a : α) {l l' : List α} : InsertedWith p l l' → InsertedWith p (a :: l) (a :: l')
  | insert {a : α} {l l' : List α} : p a → InsertedWith p l l' → InsertedWith p l (a :: l')

theorem InsertedWith.append {p : α → Prop} {l l' m m' : List α} (h : InsertedWith p l l')
    (h' : InsertedWith p m m') : InsertedWith p (l ++ m) (l' ++ m') := by
  induction h with
  | nil => exact h'
  | keep a _ ih => exact .keep a ih
  | insert ha _ ih => exact .insert ha ih

/-- A filter that rejects what was inserted cannot tell the lists apart. -/
theorem InsertedWith.filter_eq {p : α → Prop} {q : α → Bool} (hq : ∀ a, p a → q a = false)
    {l l' : List α} (h : InsertedWith p l l') : l'.filter q = l.filter q := by
  induction h with
  | nil => rfl
  | keep a _ ih =>
      rw [List.filter_cons, List.filter_cons, ih]
  | insert ha _ ih =>
      rw [List.filter_cons_of_neg (by simp [hq _ ha]), ih]

/-! ## Stable sort by a key -/

section SortedBy

variable [LinearOrder κ] (key : α → κ)

/-- Stable sort by a key. -/
def sortedBy (l : List α) : List α :=
  l.insertionSort fun a b => key a ≤ key b

instance keyLE_total : Std.Total fun a b : α => key a ≤ key b :=
  ⟨fun a b => le_total (key a) (key b)⟩

instance keyLE_trans : IsTrans α fun a b : α => key a ≤ key b :=
  ⟨fun _ _ _ hab hbc => le_trans hab hbc⟩

@[simp] theorem mem_sortedBy {l : List α} {x : α} :
    x ∈ sortedBy key l ↔ x ∈ l := List.mem_insertionSort _

theorem perm_sortedBy (l : List α) : (sortedBy key l).Perm l :=
  List.perm_insertionSort _ l

theorem pairwise_sortedBy (l : List α) :
    (sortedBy key l).Pairwise fun a b => key a ≤ key b :=
  List.pairwise_insertionSort _ l

/-- A map that keeps the order of the keys keeps that of the sort. -/
theorem sortedBy_image {β κ ι : Type*} [LinearOrder κ] [LinearOrder ι] {key : α → κ}
    {image : β → ι} {f : α → β} {g : κ → ι} (hg : StrictMono g)
    (hkey : ∀ a, image (f a) = g (key a)) (l : List α) :
    sortedBy image (l.map f) = (sortedBy key l).map f :=
  Eq.symm (List.map_insertionSort _ _ f l fun a _ b _ => by
    rw [hkey a, hkey b]
    exact hg.le_iff_le.symm)

theorem sortedBy_id_map {β : Type*} [LinearOrder α] [LinearOrder β] {f : α → β}
    (hf : StrictMono f) (l : List α) : sortedBy id (l.map f) = (sortedBy id l).map f := by
  have hkey (a : α) : id (f a) = f (id a) := rfl
  exact sortedBy_image hf hkey l

theorem nodup_sortedBy {l : List α} (h : l.Nodup) : (sortedBy key l).Nodup :=
  (perm_sortedBy key l).nodup_iff.mpr h

theorem filter_orderedInsert (p : α → Bool) (a : α) :
    ∀ l : List α, l.Pairwise (fun x y => key x ≤ key y) →
      (l.orderedInsert (fun x y => key x ≤ key y) a).filter p
        = if p a then (l.filter p).orderedInsert (fun x y => key x ≤ key y) a
          else l.filter p
  | [], _ => by cases hp : p a <;> simp [hp]
  | b :: l, hl => by
      obtain ⟨hb, hl'⟩ := List.pairwise_cons.mp hl
      by_cases hab : key a ≤ key b
      · rw [List.orderedInsert_cons_of_le (fun x y => key x ≤ key y) _ hab]
        cases hp : p a
        · rw [List.filter_cons_of_neg (by simp [hp])]
          simp
        · rw [List.filter_cons_of_pos hp, if_pos rfl]
          -- everything kept from `b :: l` is at least `b`, hence at least `a`
          have hmin : ∀ x ∈ (b :: l).filter p, key a ≤ key x := by
            intro x hx
            rcases List.mem_cons.mp (List.mem_filter.mp hx).1 with rfl | hx'
            · exact hab
            · exact le_trans hab (hb x hx')
          cases hf : (b :: l).filter p with
          | nil => rfl
          | cons c cs =>
              rw [List.orderedInsert_cons_of_le (fun x y => key x ≤ key y) _
                (hmin c (by rw [hf]; exact List.mem_cons_self ..))]
      · rw [List.orderedInsert_of_not_le (fun x y => key x ≤ key y) _ hab]
        have ih := filter_orderedInsert p a l hl'
        cases hpb : p b
        · rw [List.filter_cons_of_neg (by simp [hpb]),
            List.filter_cons_of_neg (by simp [hpb]), ih]
        · rw [List.filter_cons_of_pos hpb, List.filter_cons_of_pos hpb, ih]
          cases hpa : p a
          · simp
          · rw [if_pos rfl, if_pos rfl,
              List.orderedInsert_of_not_le (fun x y => key x ≤ key y) _ hab]

/-- Filtering and stable sorting commute. -/
theorem filter_sortedBy (p : α → Bool) :
    ∀ l : List α, (sortedBy key l).filter p = sortedBy key (l.filter p)
  | [] => rfl
  | a :: l => by
      have ih := filter_sortedBy p l
      show ((sortedBy key l).orderedInsert _ a).filter p = _
      rw [filter_orderedInsert key p a _ (pairwise_sortedBy key l), ih]
      cases hp : p a
      · rw [List.filter_cons_of_neg (by simp [hp])]; simp
      · rw [List.filter_cons_of_pos hp, if_pos rfl]; rfl

/-- Images are sorted by sorting what they are images of. -/
theorem sortedBy_map {β : Type*} (f : β → α) (l : List β) :
    sortedBy key (l.map f) = (sortedBy (fun b => key (f b)) l).map f :=
  (List.map_insertionSort (fun a b => key (f a) ≤ key (f b)) (fun a b => key a ≤ key b) f l
    fun _ _ _ _ => Iff.rfl).symm

/-- Lists with the same elements, none repeated and no two of equal key,
sort to the same list. -/
theorem sortedBy_congr {l l' : List α} (hl : l.Nodup) (hl' : l'.Nodup)
    (h : SameMembers l l')
    (hinj : ∀ a ∈ l, ∀ b ∈ l, key a = key b → a = b) :
    sortedBy key l = sortedBy key l' := by
  have hperm : (sortedBy key l).Perm (sortedBy key l') :=
    (perm_sortedBy key l).trans
      (((List.perm_ext_iff_of_nodup hl hl').mpr h).trans
        (perm_sortedBy key l').symm)
  refine hperm.eq_of_pairwise ?_ (pairwise_sortedBy key l)
    (pairwise_sortedBy key l')
  intro a b ha hb hab hba
  have ha' : a ∈ l := (mem_sortedBy key).mp ha
  have hb' : b ∈ l := (h b).mpr ((mem_sortedBy key).mp hb)
  exact hinj a ha' b hb' (le_antisymm hab hba)

/-- An element among the first of a sorted list is among as many of
another one, where whatever is not behind it there is in the first. -/
theorem mem_take_of_below {l l' : List α} {a : α} {m : Nat}
    (hsorted : l.Pairwise fun x y => key x ≤ key y)
    (hsorted' : l'.Pairwise fun x y => key x ≤ key y) (hnodup : l'.Nodup)
    (hinj : ∀ x ∈ l, ∀ y ∈ l, key x = key y → x = y) (ha' : a ∈ l')
    (hbelow : ∀ x ∈ l', key x ≤ key a → x ∈ l) (ha : a ∈ l.take m) : a ∈ l'.take m := by
  obtain ⟨before', after', rfl⟩ := List.append_of_mem ha'
  obtain ⟨before, after, hsplit⟩ := List.append_of_mem ha
  have hl : l = before ++ a :: (after ++ l.drop m) := by
    rw [← List.cons_append, ← List.append_assoc, ← hsplit, List.take_append_drop]
  have hlength : before.length < m := by
    have htaken := List.length_take_le m l
    rw [hsplit, List.length_append, List.length_cons] at htaken
    omega
  obtain ⟨-, -, hahead⟩ := List.pairwise_append.mp hsorted'
  obtain ⟨hnodup', hlater, hapart⟩ := List.nodup_append.mp hnodup
  have hsub : ∀ x ∈ before', x ∈ before := by
    intro x hx
    have hle := hahead x hx a (List.mem_cons_self ..)
    have hin := hbelow x (List.mem_append_left _ hx) hle
    have hne : x ≠ a := hapart x hx a (List.mem_cons_self ..)
    have hin' := hin
    rw [hl, List.mem_append, List.mem_cons] at hin'
    rcases hin' with hin' | rfl | hin'
    · exact hin'
    · exact absurd rfl hne
    · rw [hl, List.pairwise_append, List.pairwise_cons] at hsorted
      have hge := hsorted.2.1.1 x hin'
      exact absurd (hinj x hin a (List.mem_of_mem_take ha) (le_antisymm hle hge)) hne
  have hcount : before'.length ≤ before.length :=
    (List.subperm_of_subset hnodup' hsub).length_le
  obtain ⟨k, hk⟩ : ∃ k, m - before'.length = k + 1 := ⟨m - before'.length - 1, by omega⟩
  rw [List.take_append, hk, List.take_succ_cons]
  exact List.mem_append_right _ (List.mem_cons_self ..)

end SortedBy

/-! ## Distinct elements in order of first appearance -/

section FirstSeen

variable [DecidableEq α]

/-- The distinct elements of a list, each at its first appearance. -/
def firstSeen : List α → List α
  | [] => []
  | a :: l => a :: (firstSeen l).filter (· ≠ a)

@[simp] theorem mem_firstSeen {l : List α} {x : α} :
    x ∈ firstSeen l ↔ x ∈ l := by
  induction l with
  | nil => simp [firstSeen]
  | cons a l ih =>
      simp only [firstSeen, List.mem_cons, List.mem_filter, ih,
        decide_eq_true_eq]
      tauto

theorem nodup_firstSeen : ∀ l : List α, (firstSeen l).Nodup
  | [] => List.nodup_nil
  | a :: l => by
      refine List.nodup_cons.mpr ⟨?_, (nodup_firstSeen l).filter _⟩
      simp

/-- A list without repetitions is its own `firstSeen`. -/
theorem firstSeen_of_nodup : ∀ {l : List α}, l.Nodup → firstSeen l = l
  | [], _ => rfl
  | a :: l, h => by
      obtain ⟨ha, hl⟩ := List.nodup_cons.mp h
      rw [firstSeen, firstSeen_of_nodup hl, List.filter_eq_self.mpr]
      intro x hx
      simp only [ne_eq, decide_not, Bool.not_eq_true', decide_eq_false_iff_not]
      rintro rfl
      exact ha hx

theorem firstSeen_map {β : Type*} [DecidableEq β] {f : α → β} (hf : Function.Injective f) :
    ∀ l : List α, firstSeen (l.map f) = (firstSeen l).map f
  | [] => rfl
  | a :: l => by
      have hdrop : (fun b => decide (b ≠ f a)) ∘ f = fun b => decide (b ≠ a) := by
        funext b
        simp [hf.eq_iff]
      rw [List.map_cons, firstSeen, firstSeen_map hf l, List.filter_map, hdrop, firstSeen,
        List.map_cons]

theorem firstSeen_sublist : ∀ l : List α, (firstSeen l).Sublist l
  | [] => List.Sublist.slnil
  | a :: l => ((List.filter_sublist).trans (firstSeen_sublist l)).cons_cons a

/-- The distinct elements of two lists sorted by an injective key agree
as soon as the lists have the same elements. -/
theorem firstSeen_congr_of_sorted [LinearOrder κ] (key : α → κ)
    (hinj : Function.Injective key) {l l' : List α}
    (hl : l.Pairwise fun a b => key a ≤ key b)
    (hl' : l'.Pairwise fun a b => key a ≤ key b)
    (h : SameMembers l l') : firstSeen l = firstSeen l' := by
  have hperm : (firstSeen l).Perm (firstSeen l') :=
    (List.perm_ext_iff_of_nodup (nodup_firstSeen l) (nodup_firstSeen l')).mpr
      (fun x => by rw [mem_firstSeen, mem_firstSeen]; exact h x)
  exact hperm.eq_of_pairwise
    (fun a b _ _ hab hba => hinj (le_antisymm hab hba))
    (hl.sublist (firstSeen_sublist l)) (hl'.sublist (firstSeen_sublist l'))

end FirstSeen

/-! ## Sorted distinct elements -/

section SortedUnique

variable [LinearOrder α]

/-- The distinct elements of a list in increasing order. -/
def sortedUnique (l : List α) : List α := sortedBy id (firstSeen l)

@[simp] theorem mem_sortedUnique {l : List α} {x : α} :
    x ∈ sortedUnique l ↔ x ∈ l := by simp [sortedUnique]

theorem nodup_sortedUnique (l : List α) : (sortedUnique l).Nodup :=
  nodup_sortedBy _ (nodup_firstSeen l)

/-- `sortedUnique` forgets order and multiplicity. -/
theorem sortedUnique_congr {l l' : List α} (h : SameMembers l l') :
    sortedUnique l = sortedUnique l' :=
  sortedBy_congr id (nodup_firstSeen l) (nodup_firstSeen l')
    (fun x => by rw [mem_firstSeen, mem_firstSeen]; exact h x)
    (fun _ _ _ _ hab => hab)

theorem pairwise_sortedUnique (l : List α) :
    (sortedUnique l).Pairwise (· ≤ ·) := pairwise_sortedBy id _

/-- A map that keeps the order strictly keeps the sorted distinct
elements. -/
theorem sortedUnique_map {β : Type*} [LinearOrder β] {f : α → β} (hf : StrictMono f)
    (l : List α) : sortedUnique (l.map f) = (sortedUnique l).map f := by
  unfold sortedUnique
  rw [firstSeen_map hf.injective, sortedBy_id_map hf]

theorem sortedUnique_eq_self {l : List α} (hn : l.Nodup)
    (hs : l.Pairwise (· ≤ ·)) : sortedUnique l = l := by
  unfold sortedUnique sortedBy
  rw [firstSeen_of_nodup hn]
  exact List.Pairwise.insertionSort_eq hs

@[simp] theorem sortedUnique_idem (l : List α) :
    sortedUnique (sortedUnique l) = sortedUnique l :=
  sortedUnique_eq_self (nodup_sortedUnique l) (pairwise_sortedUnique l)

@[simp] theorem sortedUnique_nil : sortedUnique ([] : List α) = [] := rfl

@[simp] theorem sortedUnique_eq_nil {l : List α} :
    sortedUnique l = [] ↔ l = [] := by
  constructor
  · intro h
    cases l with
    | nil => rfl
    | cons a l =>
        have : a ∈ sortedUnique (a :: l) := by simp
        rw [h] at this
        cases this
  · rintro rfl
    rfl

end SortedUnique

/-! ## Last entry under a key -/

section LastBy

variable [DecidableEq κ] (key : α → κ)

/-- What an index built by writing each element under its key holds at
`k`: the last element written there. -/
def lastBy (k : κ) : List α → Option α
  | [] => none
  | x :: l => (lastBy k l).or (if key x = k then some x else none)

theorem lastBy_eq_some {k : κ} {l : List α} {x : α}
    (h : lastBy key k l = some x) : x ∈ l ∧ key x = k := by
  induction l with
  | nil => cases h
  | cons y l ih =>
      rw [lastBy, Option.or_eq_some_iff] at h
      rcases h with h | ⟨-, h⟩
      · exact ⟨List.mem_cons_of_mem _ (ih h).1, (ih h).2⟩
      · by_cases hy : key y = k
        · rw [if_pos hy] at h
          cases h
          exact ⟨List.mem_cons_self .., hy⟩
        · rw [if_neg hy] at h
          cases h

theorem lastBy_isSome {k : κ} {l : List α} :
    (lastBy key k l).isSome ↔ k ∈ l.map key := by
  induction l with
  | nil => simp [lastBy]
  | cons y l ih =>
      rw [lastBy, Option.isSome_or, Bool.or_eq_true, ih, List.map_cons,
        List.mem_cons]
      by_cases hy : key y = k
      · simp [hy]
      · simp [hy, Ne.symm hy]

theorem exists_lastBy {k : κ} {l : List α} (h : k ∈ l.map key) :
    ∃ x, lastBy key k l = some x :=
  Option.isSome_iff_exists.mp ((lastBy_isSome key).mpr h)

theorem exists_lastBy_of_mem {l : List α} {x : α} (h : x ∈ l) :
    ∃ y ∈ l, key y = key x ∧ lastBy key (key x) l = some y := by
  obtain ⟨y, hy⟩ := exists_lastBy key (List.mem_map_of_mem h)
  exact ⟨y, (lastBy_eq_some key hy).1, (lastBy_eq_some key hy).2, hy⟩

theorem lastBy_append (k : κ) (l l' : List α) :
    lastBy key k (l ++ l') = (lastBy key k l').or (lastBy key k l) := by
  induction l with
  | nil => simp [lastBy]
  | cons y l ih => simp [lastBy, ih, Option.or_assoc]

theorem lastBy_eq_none {k : κ} {l : List α} (h : ∀ x ∈ l, key x ≠ k) : lastBy key k l = none := by
  cases hl : lastBy key k l with
  | none => rfl
  | some x => exact absurd (lastBy_eq_some key hl).2 (h x (lastBy_eq_some key hl).1)

/-- Dropping what is written elsewhere changes nothing. -/
theorem lastBy_filter {p : α → Bool} {k : κ} {l : List α} (hp : ∀ x ∈ l, key x = k → p x = true) :
    lastBy key k (l.filter p) = lastBy key k l := by
  induction l with
  | nil => rfl
  | cons x l ih =>
      have hl := ih fun y hy => hp y (List.mem_cons_of_mem _ hy)
      cases hx : p x with
      | true => rw [List.filter_cons_of_pos hx, lastBy, lastBy, hl]
      | false =>
          have hk : key x ≠ k := fun hk => by
            rw [hp x (List.mem_cons_self ..) hk] at hx
            cases hx
          rw [List.filter_cons_of_neg (by simp [hx]), lastBy, if_neg hk, Option.or_none, hl]

/-- A stable sort keeps who is last under a key, where the elements under
the key sort alike. -/
theorem lastBy_sortedBy {κ' : Type*} [LinearOrder κ'] {key' : α → κ'} {k : κ} {l : List α}
    (h : ∀ x ∈ l, ∀ y ∈ l, key x = k → key y = k → key' x = key' y) :
    lastBy key k (sortedBy key' l) = lastBy key k l := by
  have hunder : ∀ {m : List α}, ∀ x ∈ m, key x = k → decide (key x = k) = true :=
    fun _ _ hx => decide_eq_true hx
  have hfixed : sortedBy key' (l.filter fun x => key x = k) = l.filter fun x => key x = k := by
    refine List.Pairwise.insertionSort_eq (List.pairwise_of_forall_mem_list fun x hx y hy => ?_)
    obtain ⟨hx, hkx⟩ := List.mem_filter.mp hx
    obtain ⟨hy, hky⟩ := List.mem_filter.mp hy
    exact le_of_eq (h x hx y hy (of_decide_eq_true hkx) (of_decide_eq_true hky))
  rw [← lastBy_filter key hunder, filter_sortedBy, hfixed, lastBy_filter key hunder]

/-- An index over images is the image of an index. -/
theorem lastBy_map {β κ' : Type*} [DecidableEq κ'] {key' : β → κ'} {f : β → α} {k : κ} {k' : κ'}
    {l : List β} (h : ∀ x ∈ l, key (f x) = k ↔ key' x = k') :
    lastBy key k (l.map f) = (lastBy key' k' l).map f := by
  induction l with
  | nil => rfl
  | cons x l ih =>
      have hx := h x (List.mem_cons_self ..)
      rw [List.map_cons, lastBy, lastBy, ih fun y hy => h y (List.mem_cons_of_mem _ hy),
        Option.map_or]
      by_cases hk : key' x = k'
      · rw [if_pos hk, if_pos (hx.mpr hk), Option.map_some]
      · rw [if_neg hk, if_neg (mt hx.mp hk), Option.map_none]

/-- Where equal keys mean equal elements, the index depends only on
which elements occur. -/
theorem lastBy_congr {k : κ} {l l' : List α} (h : SameMembers l l')
    (hinj : ∀ a ∈ l, ∀ b ∈ l, key a = k → key b = k → a = b) :
    lastBy key k l = lastBy key k l' := by
  cases hl : lastBy key k l with
  | none =>
      cases hl' : lastBy key k l' with
      | none => rfl
      | some y =>
          obtain ⟨hy, hk⟩ := lastBy_eq_some key hl'
          have : (lastBy key k l).isSome := (lastBy_isSome key).mpr
            (hk ▸ List.mem_map_of_mem ((h y).mpr hy))
          rw [hl] at this
          cases this
  | some x =>
      obtain ⟨hx, hk⟩ := lastBy_eq_some key hl
      obtain ⟨y, hy⟩ : ∃ y, lastBy key k l' = some y :=
        exists_lastBy key (hk ▸ List.mem_map_of_mem ((h x).mp hx))
      obtain ⟨hy', hk'⟩ := lastBy_eq_some key hy
      rw [hy, hinj x hx y ((h y).mpr hy') hk hk']

/-- Over a sorted list the index holds an element of greatest sort key. -/
theorem le_of_lastBy {κ' : Type*} [LinearOrder κ'] {key' : α → κ'} {k : κ} {l : List α} {x : α}
    (hl : l.Pairwise fun a b => key' a ≤ key' b) (h : lastBy key k l = some x) :
    ∀ y ∈ l, key y = k → key' y ≤ key' x := by
  induction l with
  | nil => cases h
  | cons a l ih =>
      obtain ⟨ha, hl⟩ := List.pairwise_cons.mp hl
      intro y hy hk
      rw [lastBy, Option.or_eq_some_iff] at h
      rcases List.mem_cons.mp hy with rfl | hy
      · rcases h with h | ⟨-, h⟩
        · exact ha x (lastBy_eq_some key h).1
        · rw [if_pos hk] at h
          exact le_of_eq (congrArg key' (Option.some.inj h))
      · rcases h with h | ⟨hnone, -⟩
        · exact ih hl h y hy hk
        · obtain ⟨z, hz⟩ := exists_lastBy key (List.mem_map_of_mem hy)
          rw [hk, hnone] at hz
          cases hz

/-- Of two sorted lists with the same elements, the indexes hold what
agrees wherever equal sort keys agree. -/
theorem lastBy_map_congr_of_sorted {κ' β : Type*} [LinearOrder κ'] (key' : α → κ') (f : α → β)
    {k : κ} {l l' : List α} (hl : l.Pairwise fun a b => key' a ≤ key' b)
    (hl' : l'.Pairwise fun a b => key' a ≤ key' b) (h : SameMembers l l')
    (hf : ∀ a ∈ l, ∀ b ∈ l, key' a = key' b → f a = f b) :
    (lastBy key k l).map f = (lastBy key k l').map f := by
  cases hx : lastBy key k l with
  | none =>
      rw [lastBy_eq_none key (l := l')]
      intro y hy hk
      obtain ⟨z, hz⟩ := exists_lastBy key (List.mem_map_of_mem ((h y).mpr hy))
      rw [hk, hx] at hz
      cases hz
  | some x =>
      obtain ⟨hmem, hk⟩ := lastBy_eq_some key hx
      obtain ⟨y, hy⟩ := exists_lastBy key (List.mem_map_of_mem ((h x).mp hmem))
      rw [hk] at hy
      obtain ⟨hmem', hk'⟩ := lastBy_eq_some key hy
      have hle := le_of_lastBy key hl hx y ((h y).mpr hmem') hk'
      have hge := le_of_lastBy key hl' hy x ((h x).mp hmem) hk
      rw [hy, Option.map_some, Option.map_some,
        hf x hmem y ((h y).mpr hmem') (le_antisymm hge hle)]

variable [LinearOrder κ]

/-- The entries of the index in increasing order of key. -/
def dedupeLast {α : Type*} {κ : Type*} [LinearOrder κ] (key : α → κ)
    (l : List α) : List α :=
  (sortedUnique (l.map key)).filterMap fun k => lastBy key k l

end LastBy

section DedupeLast

variable [LinearOrder κ] {key : α → κ}

theorem mem_dedupeLast {l : List α} {x : α} :
    x ∈ dedupeLast key l ↔ lastBy key (key x) l = some x := by
  simp only [dedupeLast, List.mem_filterMap, mem_sortedUnique]
  constructor
  · rintro ⟨k, -, h⟩
    obtain ⟨-, hk⟩ := lastBy_eq_some key h
    rw [hk]; exact h
  · intro h
    exact ⟨key x, List.mem_map_of_mem (lastBy_eq_some key h).1, h⟩

/-- Deduplicating keeps what an index finds. -/
theorem lastBy_dedupeLast (k : κ) (l : List α) :
    lastBy key k (dedupeLast key l) = lastBy key k l := by
  cases hl : lastBy key k l with
  | none =>
      refine lastBy_eq_none key fun x hx hk => ?_
      have hfound := mem_dedupeLast.mp hx
      rw [hk, hl] at hfound
      cases hfound
  | some x =>
      have hk := (lastBy_eq_some key hl).2
      obtain ⟨y, hy⟩ := exists_lastBy key (List.mem_map_of_mem (mem_dedupeLast.mpr (hk ▸ hl)))
      obtain ⟨hmem, hkey⟩ := lastBy_eq_some key hy
      have hlast := mem_dedupeLast.mp hmem
      rw [hkey, hk, hl] at hlast
      rw [← hk, hy, hlast]

theorem mem_of_mem_dedupeLast {l : List α} {x : α}
    (h : x ∈ dedupeLast key l) : x ∈ l :=
  (lastBy_eq_some key (mem_dedupeLast.mp h)).1

/-- Every key written has exactly the last element written under it. -/
theorem exists_mem_dedupeLast {l : List α} {x : α} (h : x ∈ l) :
    ∃ y ∈ dedupeLast key l, key y = key x := by
  obtain ⟨y, -, hk, hy⟩ := exists_lastBy_of_mem key h
  exact ⟨y, mem_dedupeLast.mpr (by rw [hk]; exact hy), hk⟩

/-- The keys of the index, each once. -/
theorem map_key_dedupeLast (l : List α) :
    (dedupeLast key l).map key = sortedUnique (l.map key) := by
  unfold dedupeLast
  have hall : ∀ k ∈ sortedUnique (l.map key), ∃ x, lastBy key k l = some x ∧
      key x = k := by
    intro k hk
    obtain ⟨x, hx⟩ := exists_lastBy key (mem_sortedUnique.mp hk)
    exact ⟨x, hx, (lastBy_eq_some key hx).2⟩
  generalize sortedUnique (l.map key) = ks at hall
  induction ks with
  | nil => rfl
  | cons k ks ih =>
      obtain ⟨x, hx, hk⟩ := hall k (List.mem_cons_self ..)
      rw [List.filterMap_cons_some (f := fun k => lastBy key k l) hx,
        List.map_cons, hk,
        ih (fun k' hk' => hall k' (List.mem_cons_of_mem _ hk'))]

theorem length_dedupeLast_le (l : List α) : (dedupeLast key l).length ≤ l.length := by
  have hkeys : ((dedupeLast key l).map key).length = (sortedUnique (l.map key)).length :=
    congrArg List.length (map_key_dedupeLast l)
  have hsorted : (sortedUnique (l.map key)).length = (firstSeen (l.map key)).length :=
    (perm_sortedBy id _).length_eq
  have hfirst := (firstSeen_sublist (l.map key)).length_le
  rw [List.length_map] at hkeys hfirst
  omega

theorem nodup_map_key_dedupeLast (l : List α) :
    ((dedupeLast key l).map key).Nodup := by
  rw [map_key_dedupeLast]
  exact nodup_sortedUnique _

/-- Deduplicating the images of a sorted list forgets order and
multiplicity. -/
theorem dedupeLast_map_congr {β κ' : Type*} [LinearOrder κ'] (key' : β → κ') (f : β → α)
    {l l' : List β} (hl : l.Pairwise fun a b => key' a ≤ key' b)
    (hl' : l'.Pairwise fun a b => key' a ≤ key' b) (h : SameMembers l l')
    (hf : ∀ a ∈ l, ∀ b ∈ l, key' a = key' b → f a = f b) :
    dedupeLast key (l.map f) = dedupeLast key (l'.map f) := by
  unfold dedupeLast
  rw [sortedUnique_congr ((h.map f).map key)]
  refine List.filterMap_congr fun k _ => ?_
  have himage : ∀ m : List β, lastBy key k (m.map f) = (lastBy (fun b => key (f b)) k m).map f :=
    fun m => lastBy_map key fun _ _ => Iff.rfl
  rw [himage l, himage l']
  exact lastBy_map_congr_of_sorted (fun b => key (f b)) key' f hl hl' h hf

end DedupeLast

/-! ## Grouping by a key -/

section GroupBy

variable [DecidableEq κ] (key : α → κ)

/-- The elements of a list under each of their keys, keys in order of
first appearance. -/
def groupBy (l : List α) : List (κ × List α) :=
  (firstSeen (l.map key)).map fun k => (k, l.filter fun x => key x = k)

theorem mem_groupBy {l : List α} {k : κ} {g : List α} :
    (k, g) ∈ groupBy key l ↔
      k ∈ l.map key ∧ g = l.filter fun x => key x = k := by
  simp only [groupBy, List.mem_map, mem_firstSeen, Prod.mk.injEq]
  constructor
  · rintro ⟨k', hk', rfl, rfl⟩
    exact ⟨hk', rfl⟩
  · rintro ⟨hk, rfl⟩
    exact ⟨k, hk, rfl, rfl⟩

theorem groupBy_ne_nil {l : List α} {k : κ} {g : List α}
    (h : (k, g) ∈ groupBy key l) : g ≠ [] := by
  obtain ⟨hk, rfl⟩ := (mem_groupBy key).mp h
  obtain ⟨x, hx, rfl⟩ := List.mem_map.mp hk
  exact List.ne_nil_of_mem (List.mem_filter.mpr ⟨hx, by simp⟩)

theorem mem_of_mem_groupBy {l : List α} {k : κ} {g : List α}
    (h : (k, g) ∈ groupBy key l) {x : α} (hx : x ∈ g) :
    x ∈ l ∧ key x = k := by
  obtain ⟨-, rfl⟩ := (mem_groupBy key).mp h
  simpa using hx

@[simp] theorem map_fst_groupBy (l : List α) :
    (groupBy key l).map Prod.fst = firstSeen (l.map key) := by
  simp [groupBy, Function.comp_def]

end GroupBy

/-- Groups in key order: the distinct keys sorted, each with its members. -/
theorem sortedBy_groupBy [LinearOrder κ] (key : α → κ) (l : List α) :
    sortedBy Prod.fst (groupBy key l)
      = (sortedUnique (l.map key)).map fun k => (k, l.filter fun x => key x = k) :=
  sortedBy_map Prod.fst (fun k => (k, l.filter fun x => key x = k)) (firstSeen (l.map key))

/-! ## First minimum -/

section MinBy

variable [LinearOrder κ] (key : α → κ)

/-- The first element of least key. -/
def minBy : List α → Option α
  | [] => none
  | a :: l =>
    match minBy l with
    | none => some a
    | some b => if key a ≤ key b then some a else some b

theorem minBy_spec {l : List α} {m : α} (h : minBy key l = some m) :
    m ∈ l ∧ ∀ x ∈ l, key m ≤ key x := by
  induction l generalizing m with
  | nil => cases h
  | cons a l ih =>
      rw [minBy] at h
      cases hb : minBy key l with
      | none =>
          rw [hb] at h
          cases h
          have hl : l = [] := by
            cases l with
            | nil => rfl
            | cons c cs =>
                rw [minBy] at hb
                cases hc : minBy key cs with
                | none => rw [hc] at hb; cases hb
                | some d =>
                    rw [hc] at hb
                    simp only at hb
                    split at hb <;> cases hb
          subst hl
          simp
      | some b =>
          rw [hb] at h
          obtain ⟨hbm, hble⟩ := ih hb
          simp only at h
          by_cases hab : key a ≤ key b
          · rw [if_pos hab] at h
            cases h
            refine ⟨List.mem_cons_self .., fun x hx => ?_⟩
            rcases List.mem_cons.mp hx with rfl | hx
            · exact le_refl _
            · exact le_trans hab (hble x hx)
          · rw [if_neg hab] at h
            cases h
            refine ⟨List.mem_cons_of_mem _ hbm, fun x hx => ?_⟩
            rcases List.mem_cons.mp hx with rfl | hx
            · exact le_of_lt (not_le.mp hab)
            · exact hble x hx

theorem exists_minBy {l : List α} (h : l ≠ []) : ∃ m, minBy key l = some m := by
  cases l with
  | nil => exact absurd rfl h
  | cons a l =>
      rw [minBy]
      cases minBy key l with
      | none => exact ⟨a, rfl⟩
      | some b =>
          simp only
          split
          · exact ⟨a, rfl⟩
          · exact ⟨b, rfl⟩

/-- The first minimum stays first among any elements it is kept with. -/
theorem minBy_filter {p : α → Bool} {l : List α} {m : α} (h : minBy key l = some m)
    (hp : p m = true) : minBy key (l.filter p) = some m := by
  induction l generalizing m with
  | nil => cases h
  | cons a l ih =>
      rw [minBy] at h
      cases hb : minBy key l with
      | none =>
          rw [hb] at h
          cases h
          have hl : l = [] := by
            by_contra hne
            obtain ⟨b, hb'⟩ := exists_minBy key hne
            rw [hb] at hb'
            cases hb'
          rw [hl, List.filter_cons_of_pos hp]
          rfl
      | some b =>
          rw [hb] at h
          simp only at h
          by_cases hab : key a ≤ key b
          · rw [if_pos hab] at h
            cases h
            rw [List.filter_cons_of_pos hp, minBy]
            cases hc : minBy key (l.filter p) with
            | none => rfl
            | some c =>
                have hmem := (List.mem_filter.mp (minBy_spec key hc).1).1
                exact if_pos (hab.trans ((minBy_spec key hb).2 c hmem))
          · rw [if_neg hab] at h
            cases h
            by_cases hpa : p a = true
            · rw [List.filter_cons_of_pos hpa, minBy, ih hb hp]
              exact if_neg hab
            · rw [List.filter_cons_of_neg hpa]
              exact ih hb hp

/-- Where least keys determine elements, the first minimum depends only
on which elements occur. -/
theorem minBy_congr {l l' : List α} (h : SameMembers l l')
    (hinj : ∀ a ∈ l, ∀ b ∈ l, key a = key b → a = b) :
    minBy key l = minBy key l' := by
  cases hl : l with
  | nil =>
      subst hl
      have : l' = [] := by
        cases l' with
        | nil => rfl
        | cons b l' => exact absurd ((h b).mpr (List.mem_cons_self ..)) List.not_mem_nil
      rw [this]
  | cons a t =>
      have hne : l ≠ [] := by rw [hl]; exact List.cons_ne_nil _ _
      have hne' : l' ≠ [] := List.ne_nil_of_mem
        ((h a).mp (by rw [hl]; exact List.mem_cons_self ..))
      rw [← hl]
      obtain ⟨m, hm⟩ := exists_minBy key hne
      obtain ⟨m', hm'⟩ := exists_minBy key hne'
      obtain ⟨hmem, hle⟩ := minBy_spec key hm
      obtain ⟨hmem', hle'⟩ := minBy_spec key hm'
      rw [hm, hm', hinj m hmem m' ((h m').mpr hmem')
        (le_antisymm (hle m' ((h m').mpr hmem')) (hle' m ((h m).mp hmem)))]

end MinBy

end Ordered
