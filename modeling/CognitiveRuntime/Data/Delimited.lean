import Mathlib.Data.List.Basic

/-!
# Text with delimited tokens

A token is a doubled opening delimiter, a body without delimiters, and a
doubled closing delimiter. A text is cut into tokens and single symbols
from the left, as a regular expression finds its matches, and replacing
the tokens puts a text in the place of each.

Two tokens in one text never overlap (`token_inside`), so where the cut
starts does not matter: a text is cut around any token in it
(`pieces_append_token`). That gives `Replaced`, which says what
replacement means without a scan, and `replaced_iff`.
-/

namespace Delimited

variable {α : Type} {o c : α}

/-! ## Tokens -/

/-- A doubled opening delimiter, a body, a doubled closing one. -/
def IsToken (o c : α) (t : List α) : Prop :=
  ∃ body, (∀ x ∈ body, x ≠ o ∧ x ≠ c) ∧ t = o :: o :: (body ++ [c, c])

def NoToken (o c : α) (s : List α) : Prop := ∀ t, IsToken o c t → ¬ t <:+: s

theorem IsToken.ne_nil {t : List α} (h : IsToken o c t) : t ≠ [] := by
  obtain ⟨body, -, rfl⟩ := h
  exact List.cons_ne_nil _ _

theorem NoToken.of_cons {a : α} {s : List α} (h : NoToken o c (a :: s)) : NoToken o c s :=
  fun t ht hs => h t ht (hs.trans (List.suffix_cons a s).isInfix)

/-- Of two tokens in one text the one that starts first ends before the
other starts. -/
theorem token_inside {pre t post t' rest : List α} (hoc : o ≠ c) (ht : IsToken o c t)
    (ht' : IsToken o c t') (h : pre ++ (t ++ post) = t' ++ rest) (hpre : pre ≠ []) :
    ∃ pre', pre = t' ++ pre' ∧ rest = pre' ++ (t ++ post) := by
  obtain ⟨body, hplain, rfl⟩ := ht
  obtain ⟨body', hplain', rfl⟩ := ht'
  rcases List.append_eq_append_iff.mp h with ⟨mid, hmid, hpost⟩ | ⟨mid, hmid, hrest⟩
  · cases mid with
    | nil =>
        rw [List.append_nil] at hmid
        exact ⟨[], by rw [List.append_nil, hmid], hpost.symm⟩
    | cons x mid =>
        -- the second token would start inside the first
        exfalso
        obtain ⟨rfl, hmid'⟩ := List.cons.inj hpost
        cases pre with
        | nil => exact hpre rfl
        | cons p pre =>
            have htail : o :: (body' ++ [c, c]) = pre ++ o :: mid := (List.cons.inj hmid).2
            have hfree : o ∉ body' ++ [c, c] := by
              intro hmem
              rcases List.mem_append.mp hmem with hbody | hclose
              · exact (hplain' o hbody).1 rfl
              · simp only [List.mem_cons, List.not_mem_nil, or_false, or_self] at hclose
                exact hoc hclose
            cases pre with
            | nil =>
                -- right behind the first symbol, where a second opener must follow
                have hbody : body' ++ [c, c] = mid := (List.cons.inj htail).2
                cases mid with
                | nil => simp at hbody
                | cons y mid =>
                    obtain ⟨rfl, -⟩ := List.cons.inj hmid'
                    exact hfree (hbody ▸ List.mem_cons_self)
            | cons q pre =>
                have hbody : body' ++ [c, c] = pre ++ o :: mid := (List.cons.inj htail).2
                exact hfree (hbody ▸ List.mem_append_right _ List.mem_cons_self)
  · exact ⟨mid, hmid, hrest⟩

/-! ## Pieces -/

/-- A symbol outside every token, or a token. -/
inductive Piece (α : Type) where
  | literal (a : α)
  | token (t : List α)
  deriving DecidableEq

def Piece.text : Piece α → List α
  | .literal a => [a]
  | .token t => t

def Piece.token? : Piece α → Option (List α)
  | .literal _ => none
  | .token t => some t

/-- A piece with a text in place of a token. -/
def Piece.fill (f : List α → List α) : Piece α → List α
  | .literal a => [a]
  | .token t => f t

/-- A piece with a text in place of a token that has one. -/
def Piece.fill? (f : List α → Option (List α)) : Piece α → Option (List α)
  | .literal a => some [a]
  | .token t => f t

/-- Replacing some tokens first and the others in a second pass over the
pieces leaves the second kind as holes. -/
def Piece.partly (keep : List α → Bool) (f : List α → List α) : Piece α → List (Piece α)
  | .literal a => [.literal a]
  | .token t => if keep t then [.token t] else (f t).map .literal

theorem keep_of_mem_partly {keep : List α → Bool} {f : List α → List α} {p : Piece α}
    {t : List α} (h : .token t ∈ p.partly keep f) : keep t = true := by
  cases p with
  | literal a => cases List.mem_singleton.mp h
  | token t' =>
      rw [Piece.partly] at h
      cases hkeep : keep t' with
      | true =>
          rw [hkeep, if_pos rfl] at h
          obtain rfl := Piece.token.inj (List.mem_singleton.mp h)
          exact hkeep
      | false =>
          rw [hkeep, if_neg Bool.false_ne_true] at h
          obtain ⟨a, -, ha⟩ := List.mem_map.mp h
          cases ha

theorem flatMap_partly {keep : List α → Bool} {f g : List α → List α}
    (h : ∀ t, keep t = false → f t = g t) (l : List (Piece α)) :
    (l.flatMap (Piece.partly keep f)).flatMap (Piece.fill g) = l.flatMap (Piece.fill g) := by
  have hliterals : ∀ s : List α, (s.map Piece.literal).flatMap (Piece.fill g) = s := fun s => by
    induction s with
    | nil => rfl
    | cons a s ih =>
        rw [List.map_cons, List.flatMap_cons, ih]
        rfl
  rw [List.flatMap_assoc]
  refine List.flatMap_congr fun p _ => ?_
  cases p with
  | literal a => rfl
  | token t =>
      rw [Piece.partly]
      cases hkeep : keep t with
      | true => rw [if_pos rfl, List.flatMap_singleton]
      | false => rw [if_neg Bool.false_ne_true, hliterals, h t hkeep, Piece.fill]

variable [DecidableEq α]

/-! ## A token at the start -/

/-- The body of a token and what follows the token. -/
def matchBody (o c : α) : List α → Option (List α × List α)
  | [] => none
  | x :: rest =>
      if x = c then if rest.head? = some c then some ([], rest.tail) else none
      else if x = o then none
      else (matchBody o c rest).map fun p => (x :: p.1, p.2)

/-- The token at the start of a text and what follows it. -/
def matchToken (o c : α) : List α → Option (List α × List α)
  | x :: y :: rest =>
      if x = o ∧ y = o then
        (matchBody o c rest).map fun p => (o :: o :: (p.1 ++ [c, c]), p.2)
      else none
  | _ => none

theorem matchBody_eq_some {s body rest : List α} (hoc : o ≠ c) :
    matchBody o c s = some (body, rest)
      ↔ (∀ x ∈ body, x ≠ o ∧ x ≠ c) ∧ s = body ++ c :: c :: rest := by
  induction s generalizing body with
  | nil => simp [matchBody]
  | cons x s ih =>
      rw [matchBody]
      by_cases hc : x = c
      · subst hc
        rw [if_pos rfl]
        constructor
        · intro h
          by_cases hhead : s.head? = some x
          · rw [if_pos hhead] at h
            obtain ⟨rfl, rfl⟩ := Prod.mk.inj (Option.some.inj h)
            obtain ⟨s, rfl⟩ := List.head?_eq_some_iff.mp hhead
            exact ⟨fun _ hx => (List.not_mem_nil hx).elim, rfl⟩
          · rw [if_neg hhead] at h
            cases h
        · rintro ⟨hbody, hs⟩
          cases body with
          | nil =>
              obtain rfl := (List.cons.inj hs).2
              exact if_pos rfl
          | cons y body =>
              exact absurd (List.cons.inj hs).1.symm (hbody y List.mem_cons_self).2
      · rw [if_neg hc]
        by_cases ho : x = o
        · rw [if_pos ho]
          constructor
          · intro h
            cases h
          · rintro ⟨hbody, hs⟩
            cases body with
            | nil => exact absurd (List.cons.inj hs).1 hc
            | cons y body =>
                exact absurd ((List.cons.inj hs).1.symm.trans ho)
                  (hbody y List.mem_cons_self).1
        · rw [if_neg ho]
          cases body with
          | nil =>
              constructor
              · intro h
                obtain ⟨p, -, hp⟩ := Option.map_eq_some_iff.mp h
                cases (Prod.mk.inj hp).1
              · rintro ⟨-, hs⟩
                exact absurd (List.cons.inj hs).1 hc
          | cons y body =>
              constructor
              · intro h
                obtain ⟨p, hp, heq⟩ := Option.map_eq_some_iff.mp h
                obtain ⟨hbody, rfl⟩ := Prod.mk.inj heq
                obtain ⟨rfl, rfl⟩ := List.cons.inj hbody
                obtain ⟨hplain, rfl⟩ := ih.mp hp
                refine ⟨?_, rfl⟩
                rintro z (_ | ⟨_, hz⟩)
                · exact ⟨ho, hc⟩
                · exact hplain z hz
              · rintro ⟨hplain, hs⟩
                obtain ⟨rfl, rfl⟩ := List.cons.inj hs
                have hrest := ih.mpr ⟨fun z hz => hplain z (List.mem_cons_of_mem _ hz), rfl⟩
                rw [hrest]
                rfl

theorem matchToken_eq_some {s t rest : List α} (hoc : o ≠ c) :
    matchToken o c s = some (t, rest) ↔ IsToken o c t ∧ s = t ++ rest := by
  constructor
  · intro h
    unfold matchToken at h
    split at h
    · split at h
      · rename_i x y s hopen
        obtain ⟨rfl, rfl⟩ := hopen
        obtain ⟨⟨body, rest'⟩, hbody, heq⟩ := Option.map_eq_some_iff.mp h
        obtain ⟨rfl, rfl⟩ := Prod.mk.inj heq
        obtain ⟨hplain, rfl⟩ := (matchBody_eq_some hoc).mp hbody
        exact ⟨⟨body, hplain, rfl⟩, by simp⟩
      · cases h
    · cases h
  · rintro ⟨⟨body, hplain, rfl⟩, rfl⟩
    have hbody : matchBody o c (body ++ c :: c :: rest) = some (body, rest) :=
      (matchBody_eq_some hoc).mpr ⟨hplain, rfl⟩
    have happend : o :: o :: (body ++ [c, c]) ++ rest = o :: o :: (body ++ c :: c :: rest) := by
      simp
    rw [happend, matchToken, if_pos ⟨rfl, rfl⟩, hbody]
    rfl

/-! ## Cutting a text -/

def piecesFuel (o c : α) : Nat → List α → List (Piece α)
  | 0, _ => []
  | _ + 1, [] => []
  | n + 1, a :: s =>
      match matchToken o c (a :: s) with
      | some (t, rest) => .token t :: piecesFuel o c n rest
      | none => .literal a :: piecesFuel o c n s

/-- The text cut from the left. -/
def pieces (o c : α) (s : List α) : List (Piece α) := piecesFuel o c s.length s

theorem length_of_matchToken {s t rest : List α} (hoc : o ≠ c)
    (h : matchToken o c s = some (t, rest)) : rest.length < s.length := by
  obtain ⟨ht, rfl⟩ := (matchToken_eq_some hoc).mp h
  have hpos := List.length_pos_iff.mpr ht.ne_nil
  rw [List.length_append]
  omega

theorem piecesFuel_eq (hoc : o ≠ c) : ∀ {n : Nat} {s : List α}, s.length ≤ n →
    piecesFuel o c n s = pieces o c s
  | 0, s, h => by
      obtain rfl := List.length_eq_zero_iff.mp (Nat.le_zero.mp h)
      rfl
  | n + 1, [], _ => rfl
  | n + 1, a :: s, h => by
      have hlen : s.length ≤ n := Nat.le_of_succ_le_succ h
      rw [pieces, List.length_cons, piecesFuel, piecesFuel]
      cases hmatch : matchToken o c (a :: s) with
      | none =>
          show _ :: piecesFuel o c n s = _ :: piecesFuel o c s.length s
          rw [piecesFuel_eq hoc hlen]
          rfl
      | some p =>
          obtain ⟨t, rest⟩ := p
          have hshort := length_of_matchToken hoc hmatch
          rw [List.length_cons] at hshort
          have hrest : rest.length ≤ s.length := Nat.le_of_lt_succ hshort
          show _ :: piecesFuel o c n rest = _ :: piecesFuel o c s.length rest
          rw [piecesFuel_eq hoc (Nat.le_trans hrest hlen), piecesFuel_eq hoc hrest]

@[simp] theorem pieces_nil : pieces o c ([] : List α) = [] := rfl

theorem pieces_of_match {s t rest : List α} (hoc : o ≠ c)
    (h : matchToken o c s = some (t, rest)) : pieces o c s = .token t :: pieces o c rest := by
  have hshort := length_of_matchToken hoc h
  cases s with
  | nil => cases h
  | cons a s =>
      rw [List.length_cons] at hshort
      rw [pieces, List.length_cons, piecesFuel, h]
      show _ :: piecesFuel o c s.length rest = _
      rw [piecesFuel_eq hoc (Nat.le_of_lt_succ hshort)]

theorem pieces_of_noMatch {a : α} {s : List α} (h : matchToken o c (a :: s) = none) :
    pieces o c (a :: s) = .literal a :: pieces o c s := by
  rw [pieces, List.length_cons, piecesFuel, h]
  rfl

/-- A text is cut around any token in it. -/
theorem pieces_append_token (hoc : o ≠ c) {t : List α} (ht : IsToken o c t) (post : List α) :
    ∀ {n : Nat} {pre : List α}, pre.length ≤ n →
      pieces o c (pre ++ (t ++ post)) = pieces o c pre ++ .token t :: pieces o c post
  | _, [], _ => pieces_of_match hoc ((matchToken_eq_some hoc).mpr ⟨ht, rfl⟩)
  | n + 1, a :: pre, hlen => by
      cases hmatch : matchToken o c (a :: pre ++ (t ++ post)) with
      | some p =>
          obtain ⟨t', rest⟩ := p
          obtain ⟨ht', happend⟩ := (matchToken_eq_some hoc).mp hmatch
          obtain ⟨pre', hpre, rfl⟩ := token_inside hoc ht ht' happend (List.cons_ne_nil _ _)
          have hfirst : matchToken o c (a :: pre) = some (t', pre') :=
            (matchToken_eq_some hoc).mpr ⟨ht', hpre⟩
          have hshort := length_of_matchToken hoc hfirst
          rw [pieces_of_match hoc hmatch, pieces_of_match hoc hfirst,
            pieces_append_token hoc ht post (Nat.le_of_lt_succ (Nat.lt_of_lt_of_le hshort hlen)),
            List.cons_append]
      | none =>
          have hfirst : matchToken o c (a :: pre) = none := by
            cases hfirst : matchToken o c (a :: pre) with
            | none => rfl
            | some p =>
                obtain ⟨ht', happend⟩ := (matchToken_eq_some hoc).mp hfirst
                have hlonger : matchToken o c (a :: pre ++ (t ++ post))
                    = some (p.1, p.2 ++ (t ++ post)) :=
                  (matchToken_eq_some hoc).mpr ⟨ht', by rw [happend, List.append_assoc]⟩
                rw [hlonger] at hmatch
                cases hmatch
          rw [pieces_of_noMatch hfirst, List.cons_append, List.cons_append]
          rw [List.cons_append] at hmatch
          rw [pieces_of_noMatch hmatch,
            pieces_append_token hoc ht post (Nat.le_of_succ_le_succ hlen)]

/-- A text without tokens is cut into its symbols. -/
theorem pieces_of_noToken (hoc : o ≠ c) {s : List α} (h : NoToken o c s) :
    pieces o c s = s.map .literal := by
  induction s with
  | nil => rfl
  | cons a s ih =>
      have hmatch : matchToken o c (a :: s) = none := by
        cases hmatch : matchToken o c (a :: s) with
        | none => rfl
        | some p =>
            obtain ⟨ht, hs⟩ := (matchToken_eq_some hoc).mp hmatch
            exact absurd ⟨[], p.2, hs.symm⟩ (h p.1 ht)
      rw [pieces_of_noMatch hmatch, ih h.of_cons, List.map_cons]

/-! ## Finding and replacing -/

/-- All tokens, from the left. -/
def findAll (o c : α) (s : List α) : List (List α) := (pieces o c s).filterMap Piece.token?

/-- The text with every token replaced. -/
def replaceAll (o c : α) (f : List α → List α) (s : List α) : List α :=
  (pieces o c s).flatMap (Piece.fill f)

/-- The text with every token replaced, where each has a replacement. -/
def replaceAll? (o c : α) (f : List α → Option (List α)) (s : List α) : Option (List α) :=
  ((pieces o c s).mapM (Piece.fill? f)).map List.flatten

theorem mem_findAll_piece {s t : List α} : t ∈ findAll o c s ↔ .token t ∈ pieces o c s := by
  unfold findAll
  rw [List.mem_filterMap]
  constructor
  · rintro ⟨p, hp, h⟩
    cases p with
    | literal a => cases h
    | token t' => exact Option.some.inj h ▸ hp
  · exact fun h => ⟨_, h, rfl⟩

/-- Where every token has a replacement, the replacing succeeds. -/
theorem replaceAll?_eq_some {f : List α → Option (List α)} {s : List α}
    (h : ∀ t ∈ findAll o c s, (f t).isSome) :
    replaceAll? o c f s = some (replaceAll o c (fun t => (f t).getD []) s) := by
  unfold replaceAll? replaceAll
  have hall : ∀ t, Piece.token t ∈ pieces o c s → (f t).isSome := fun t ht =>
    h t (mem_findAll_piece.mpr ht)
  generalize pieces o c s = l at hall
  induction l with
  | nil => rfl
  | cons p l ih =>
      have hrest := ih fun t ht => hall t (List.mem_cons_of_mem _ ht)
      obtain ⟨out, hout, hflat⟩ := Option.map_eq_some_iff.mp hrest
      rw [List.mapM_cons, List.flatMap_cons]
      cases p with
      | literal a =>
          rw [hout, ← hflat]
          rfl
      | token t =>
          obtain ⟨v, hv⟩ := Option.isSome_iff_exists.mp (hall t List.mem_cons_self)
          rw [Piece.fill?, Piece.fill, hv, hout, ← hflat]
          rfl

/-- Replacement as a decomposition: a text without tokens stands as it is,
and a token in a text gives way to its value. -/
inductive Replaced (o c : α) (f : List α → List α) : List α → List α → Prop
  | literal {s : List α} (h : NoToken o c s) : Replaced o c f s s
  | token {pre t post out out' : List α} (ht : IsToken o c t) (hpre : Replaced o c f pre out)
      (hpost : Replaced o c f post out') :
      Replaced o c f (pre ++ (t ++ post)) (out ++ (f t ++ out'))

theorem replaceAll_of_noToken (hoc : o ≠ c) {f : List α → List α} {s : List α}
    (h : NoToken o c s) : replaceAll o c f s = s := by
  unfold replaceAll
  rw [pieces_of_noToken hoc h]
  induction s with
  | nil => rfl
  | cons a s ih =>
      rw [List.map_cons, List.flatMap_cons, ih h.of_cons]
      rfl

theorem replaceAll_append_token (hoc : o ≠ c) {f : List α → List α} {pre t post : List α}
    (ht : IsToken o c t) : replaceAll o c f (pre ++ (t ++ post))
      = replaceAll o c f pre ++ (f t ++ replaceAll o c f post) := by
  unfold replaceAll
  rw [pieces_append_token hoc ht post (Nat.le_refl _), List.flatMap_append, List.flatMap_cons]
  rfl

/-- There is one way to replace. -/
theorem Replaced.eq (hoc : o ≠ c) {f : List α → List α} {s out : List α}
    (h : Replaced o c f s out) : out = replaceAll o c f s := by
  induction h with
  | literal h => exact (replaceAll_of_noToken hoc h).symm
  | token ht _ _ ihpre ihpost => rw [replaceAll_append_token hoc ht, ihpre, ihpost]

/-- And it applies to every text. -/
theorem replaced_replaceAll (hoc : o ≠ c) (f : List α → List α) : ∀ {n : Nat} {s : List α},
    s.length ≤ n → Replaced o c f s (replaceAll o c f s)
  | 0, s, h => by
      obtain rfl := List.length_eq_zero_iff.mp (Nat.le_zero.mp h)
      refine .literal fun t ht hs => ht.ne_nil (List.infix_nil.mp hs)
  | n + 1, s, h => by
      by_cases hnone : NoToken o c s
      · rw [replaceAll_of_noToken hoc hnone]
        exact .literal hnone
      · unfold NoToken at hnone
        push Not at hnone
        obtain ⟨t, ht, pre, post, rfl⟩ := hnone
        have hpos := List.length_pos_iff.mpr ht.ne_nil
        simp only [List.length_append] at h
        rw [List.append_assoc, replaceAll_append_token hoc ht]
        exact .token ht (replaced_replaceAll hoc f (n := n) (by omega))
          (replaced_replaceAll hoc f (n := n) (by omega))

theorem replaced_iff (hoc : o ≠ c) {f : List α → List α} {s out : List α} :
    Replaced o c f s out ↔ out = replaceAll o c f s :=
  ⟨Replaced.eq hoc, fun h => h ▸ replaced_replaceAll hoc f (Nat.le_refl _)⟩

end Delimited
