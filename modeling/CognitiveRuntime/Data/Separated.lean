import Mathlib.Data.List.Basic

/-!
# Joined fields

Free texts joined by a separator can be read back up to where the fields
begin and end: two joins agree exactly when their fields, cut at every
separator, spell the same pieces. Fields whose texts hold no separator,
but for the last, are read back exactly.
-/

namespace Separated

/-- What lies between the separators of a text. -/
def pieces (sep : Char) (s : String) : List (List Char) := s.toList.splitOn sep

/-- The fields with a separator between each two. -/
def joined (sep : Char) : List String → String
  | [] => ""
  | [field] => field
  | field :: next :: rest => field ++ String.singleton sep ++ joined sep (next :: rest)

/-- Fields that spell the same pieces, however they divide them. -/
def SamePieces (sep : Char) (fields fields' : List String) : Prop :=
  fields.flatMap (pieces sep) = fields'.flatMap (pieces sep)

instance (sep : Char) (fields fields' : List String) :
    Decidable (SamePieces sep fields fields') :=
  inferInstanceAs (Decidable (_ = _))

theorem pieces_inj {sep : Char} {s s' : String} : pieces sep s = pieces sep s' ↔ s = s' := by
  constructor
  · intro h
    have hjoin := congrArg (List.intercalate [sep]) h
    unfold pieces at hjoin
    rw [List.intercalate_splitOn, List.intercalate_splitOn] at hjoin
    exact String.toList_injective hjoin
  · rintro rfl
    rfl

theorem pieces_append (sep : Char) (s s' : String) :
    pieces sep (s ++ String.singleton sep ++ s') = pieces sep s ++ pieces sep s' := by
  unfold pieces
  rw [String.toList_append, String.toList_append, String.toList_singleton, List.append_assoc,
    List.singleton_append, List.splitOn_append_cons_self]

/-- The pieces of a join are the pieces of its fields. -/
theorem pieces_joined {sep : Char} :
    ∀ {fields : List String}, fields ≠ [] →
      pieces sep (joined sep fields) = fields.flatMap (pieces sep)
  | [], h => absurd rfl h
  | [field], _ => by simp [joined]
  | field :: next :: rest, _ => by
      rw [joined, pieces_append, pieces_joined (List.cons_ne_nil next rest)]
      rfl

theorem joined_eq_iff {sep : Char} {fields fields' : List String} (h : fields ≠ [])
    (h' : fields' ≠ []) :
    joined sep fields = joined sep fields' ↔ SamePieces sep fields fields' := by
  unfold SamePieces
  rw [← pieces_joined h, ← pieces_joined h', pieces_inj]

theorem pieces_of_free {sep : Char} {s : String} (h : sep ∉ s.toList) :
    pieces sep s = [s.toList] :=
  List.splitOn_eq_singleton h

/-- Fields that hold no separator, but for the last, are read back. -/
theorem eq_of_samePieces {sep : Char} :
    ∀ {fields fields' : List String} {last last' : String}, fields.length = fields'.length →
      (∀ field ∈ fields, sep ∉ field.toList) → (∀ field ∈ fields', sep ∉ field.toList) →
      SamePieces sep (fields ++ [last]) (fields' ++ [last']) →
      fields ++ [last] = fields' ++ [last']
  | [], [], last, last', _, _, _, h => by
      have hlast : pieces sep last = pieces sep last' := by
        simpa [SamePieces] using h
      rw [pieces_inj.mp hlast]
  | field :: fields, field' :: fields', last, last', hlength, hfree, hfree', h => by
      have hfirst := pieces_of_free (hfree field (List.mem_cons_self ..))
      have hfirst' := pieces_of_free (hfree' field' (List.mem_cons_self ..))
      unfold SamePieces at h
      rw [List.cons_append, List.cons_append, List.flatMap_cons, List.flatMap_cons, hfirst,
        hfirst', List.singleton_append, List.singleton_append, List.cons.injEq] at h
      have hrest := eq_of_samePieces (Nat.succ.inj hlength)
        (fun f hf => hfree f (List.mem_cons_of_mem _ hf))
        (fun f hf => hfree' f (List.mem_cons_of_mem _ hf)) h.2
      rw [List.cons_append, List.cons_append, hrest, String.toList_injective h.1]

end Separated
