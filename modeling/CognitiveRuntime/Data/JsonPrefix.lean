import CognitiveRuntime.Data.JsonText

/-!
# A value is read off its text

The text of a value says where it ends, and which value it is: no two
values have one text, whatever keys an object repeats and whatever
numbers there are. What follows a value in a longer text is nothing, or a
character no number goes on with.
-/

namespace Json

/-! ## Numbers -/

/-- A text that no number goes on with. -/
def AfterValue (r : List Char) : Prop := ∀ c ∈ r.head?, numberChar c = false

theorem afterValue_nil : AfterValue [] := by
  intro c hc
  cases hc

theorem afterValue_cons {c : Char} (h : numberChar c = false) (r : List Char) :
    AfterValue (c :: r) := by
  intro d hd
  obtain rfl := Option.some.inj hd
  exact h

/-- The text of a number; nothing of any other value. -/
def numberText : Json → List Char
  | .int i => intChars i
  | .float f => f.text.toList
  | _ => []

theorem mem_intChars {i : Int} {c : Char} (h : c ∈ intChars i) : c = '-' ∨ c.isDigit = true := by
  rcases List.mem_append.mp h with hsign | hdigit
  · split at hsign
    · exact .inl (List.mem_singleton.mp hsign)
    · cases hsign
  · exact .inr (Nat.isDigit_of_mem_toDigits (by decide) (by decide) hdigit)

theorem toDigits_inj {m n : Nat} (h : Nat.toDigits 10 m = Nat.toDigits 10 n) : m = n := by
  have hread := congrArg (Nat.ofDigitChars 10 · 0) h
  simpa only [Nat.ofDigitChars_ten_toDigits] using hread

theorem minus_not_mem_toDigits (n : Nat) : '-' ∉ Nat.toDigits 10 n := fun h => by
  have hdigit := Nat.isDigit_of_mem_toDigits (by decide) (by decide) h
  revert hdigit
  decide

/-- The sign and the digits tell integers apart. -/
theorem intChars_inj {i k : Int} (h : intChars i = intChars k) : i = k := by
  unfold intChars at h
  split at h <;> split at h
  · have hdigits := toDigits_inj (List.cons.inj h).2
    omega
  · exact absurd (List.mem_of_mem_head? (congrArg List.head? h.symm))
      (minus_not_mem_toDigits k.natAbs)
  · exact absurd (List.mem_of_mem_head? (congrArg List.head? h))
      (minus_not_mem_toDigits i.natAbs)
  · have hdigits := toDigits_inj h
    omega

theorem numberChar_of_mem {j : Json} {c : Char} (h : c ∈ numberText j) : numberChar c = true := by
  cases j with
  | int i =>
      rcases mem_intChars h with rfl | hdigit
      · decide
      · exact FloatText.numberChar_of_digit hdigit
  | float f => exact f.numeric.chars c h
  | _ => cases h

/-- An integer has neither a fraction nor an exponent. -/
theorem intChars_ne_float (i : Int) (f : FloatText) : intChars i ≠ f.text.toList := by
  intro h
  have hpoint : '.' ∉ intChars i := fun hc => by
    rcases mem_intChars hc with hc | hc <;> revert hc <;> decide
  have hexponent : 'e' ∉ intChars i := fun hc => by
    rcases mem_intChars hc with hc | hc <;> revert hc <;> decide
  rw [h] at hpoint hexponent
  exact f.numeric.apart.elim hpoint hexponent

theorem intChars_ne_nil (i : Int) : intChars i ≠ [] :=
  List.append_ne_nil_of_right_ne_nil _ Nat.toDigits_ne_nil

theorem floatText_ne_nil (f : FloatText) : f.text.toList ≠ [] := by
  intro h
  have hapart := f.numeric.apart
  rw [h] at hapart
  exact hapart.elim List.not_mem_nil List.not_mem_nil

/-- The characters of a number at the front of a text are its text. -/
theorem takeWhile_render (q : Quoting) (j : Json) {r : List Char} (hr : AfterValue r) :
    (render q j ++ r).takeWhile numberChar = numberText j := by
  have hstop : r.takeWhile numberChar = [] := by
    cases r with
    | nil => rfl
    | cons c r => rw [List.takeWhile_cons, hr c rfl]; rfl
  have hnumber : ∀ l : List Char, (∀ c ∈ l, numberChar c = true) →
      (l ++ r).takeWhile numberChar = l := by
    intro l hl
    rw [List.takeWhile_append_of_pos hl, hstop, List.append_nil]
  cases j with
  | int i => exact hnumber _ fun c hc => numberChar_of_mem (j := .int i) hc
  | float f => exact hnumber _ f.numeric.chars
  | null => rfl
  | bool b => cases b <;> rfl
  | str s => rfl
  | arr l => rfl
  | obj l => rfl

theorem eq_of_numberText {a b : Json} (ha : numberText a ≠ [])
    (h : numberText a = numberText b) : a = b := by
  cases a with
  | int i =>
      cases b with
      | int k => rw [intChars_inj h]
      | float f => exact absurd h (intChars_ne_float i f)
      | _ => exact absurd h ha
  | float f =>
      cases b with
      | int k => exact absurd h.symm (intChars_ne_float k f)
      | float g => exact congrArg Json.float (FloatText.ext (String.toList_injective h))
      | _ => exact absurd h ha
  | _ => exact absurd rfl ha

/-- A number is read off the front of a text. -/
theorem number_append_inj (q : Quoting) {a b : Json} {r r' : List Char} (hr : AfterValue r)
    (hr' : AfterValue r') (ha : numberText a ≠ []) (h : render q a ++ r = render q b ++ r') :
    a = b ∧ r = r' := by
  have htext : numberText a = numberText b := by
    rw [← takeWhile_render q a hr, h, takeWhile_render q b hr']
  obtain rfl := eq_of_numberText ha htext
  exact ⟨rfl, List.append_cancel_left h⟩

theorem render_append_ne_number (q : Quoting) {a b : Json} {r r' : List Char} (hr : AfterValue r)
    (hr' : AfterValue r') (ha : numberText a = []) (hb : numberText b ≠ []) :
    render q a ++ r ≠ render q b ++ r' := by
  intro h
  obtain ⟨rfl, -⟩ := number_append_inj q hr' hr hb h.symm
  exact hb ha

/-! ## Strings -/

/-- A string literal is read off the front of a text. -/
theorem literal_append_inj {q : Quoting} {s t : String} {r r' : List Char}
    (h : q.literal s ++ r = q.literal t ++ r') : s = t ∧ r = r' := by
  unfold Quoting.literal at h
  rw [List.append_assoc, List.append_assoc, List.singleton_append, List.singleton_append] at h
  have hscan := congrArg PyStr.scanString (List.cons.inj h).2
  rw [List.append_eq, List.append_eq, q.reads, q.reads] at hscan
  obtain ⟨htext, hrest⟩ := Prod.mk.inj (Option.some.inj hscan)
  exact ⟨PyStr.ofString_inj htext, hrest⟩

/-! ## Values -/

/-- The items after the first one. -/
def renderMore (q : Quoting) : List Json → List Char
  | [] => []
  | j :: l => ',' :: renderItems q (j :: l)

theorem renderItems_cons (q : Quoting) (j : Json) (l : List Json) :
    renderItems q (j :: l) = render q j ++ renderMore q l := by
  cases l with
  | nil => rw [renderItems, renderMore, List.append_nil]
  | cons k l =>
      rw [renderItems, renderMore]
      simp

/-- The entries after the first one. -/
def renderMoreEntries (q : Quoting) : List (String × Json) → List Char
  | [] => []
  | e :: l => ',' :: renderEntries q (e :: l)

theorem renderEntries_cons (q : Quoting) (k : String) (j : Json) (l : List (String × Json)) :
    renderEntries q ((k, j) :: l)
      = q.literal k ++ ':' :: (render q j ++ renderMoreEntries q l) := by
  cases l with
  | nil => rw [renderEntries, renderMoreEntries, List.append_nil]
  | cons e l =>
      rw [renderEntries, renderMoreEntries]
      · simp
      · simp

/-- No value starts with the bracket that closes an array. -/
theorem render_append_ne_close (q : Quoting) (j : Json) (r r' : List Char) :
    render q j ++ r ≠ ']' :: r' := by
  intro h
  have hnumber : ∀ {l : List Char}, l ≠ [] → (∀ c ∈ l, numberChar c = true) →
      l ++ r ≠ ']' :: r' := by
    intro l hne hl h
    cases l with
    | nil => exact hne rfl
    | cons c l =>
        obtain ⟨rfl, -⟩ := List.cons.inj h
        have hclose := hl ']' List.mem_cons_self
        revert hclose
        decide
  cases j with
  | int i => exact hnumber (intChars_ne_nil i) (fun c hc => numberChar_of_mem (j := .int i) hc) h
  | float f => exact hnumber (floatText_ne_nil f) f.numeric.chars h
  | bool b => cases b <;> simp [render] at h
  | _ => simp [render, Quoting.literal] at h

theorem afterValue_more (q : Quoting) (l : List Json) (r : List Char) :
    AfterValue (renderMore q l ++ ']' :: r) := by
  cases l with
  | nil => exact afterValue_cons rfl _
  | cons j l => exact afterValue_cons rfl _

theorem afterValue_moreEntries (q : Quoting) (l : List (String × Json)) (r : List Char) :
    AfterValue (renderMoreEntries q l ++ '\x7d' :: r) := by
  cases l with
  | nil => exact afterValue_cons rfl _
  | cons e l => exact afterValue_cons rfl _

mutual
/-- A value is read off the front of a text. -/
theorem render_append_inj (q : Quoting) : ∀ {a b : Json} {r r' : List Char}, AfterValue r →
    AfterValue r' → render q a ++ r = render q b ++ r' → a = b ∧ r = r'
  | .int i, _, _, _, hr, hr', h => number_append_inj q hr hr' (intChars_ne_nil i) h
  | .float f, _, _, _, hr, hr', h => number_append_inj q hr hr' (floatText_ne_nil f) h
  | .null, b, r, r', hr, hr', h => by
      cases b with
      | null => exact ⟨rfl, List.append_cancel_left h⟩
      | int k => exact absurd h (render_append_ne_number q hr hr' rfl (intChars_ne_nil k))
      | float f => exact absurd h (render_append_ne_number q hr hr' rfl (floatText_ne_nil f))
      | bool b => cases b <;> simp [render] at h
      | _ => simp [render, Quoting.literal] at h
  | .bool a, b, r, r', hr, hr', h => by
      cases b with
      | int k => exact absurd h (render_append_ne_number q hr hr' rfl (intChars_ne_nil k))
      | float f => exact absurd h (render_append_ne_number q hr hr' rfl (floatText_ne_nil f))
      | bool b => cases a <;> cases b <;> simp_all [render]
      | _ => cases a <;> simp [render, Quoting.literal] at h
  | .str s, b, r, r', hr, hr', h => by
      cases b with
      | int k => exact absurd h (render_append_ne_number q hr hr' rfl (intChars_ne_nil k))
      | float f => exact absurd h (render_append_ne_number q hr hr' rfl (floatText_ne_nil f))
      | str t =>
          obtain ⟨rfl, hrest⟩ := literal_append_inj h
          exact ⟨rfl, hrest⟩
      | bool b => cases b <;> simp [render, Quoting.literal] at h
      | _ => simp [render, Quoting.literal] at h
  | .arr l, b, r, r', hr, hr', h => by
      cases b with
      | int k => exact absurd h (render_append_ne_number q hr hr' rfl (intChars_ne_nil k))
      | float f => exact absurd h (render_append_ne_number q hr hr' rfl (floatText_ne_nil f))
      | arr l' =>
          rw [render, render, List.cons_append, List.cons_append, List.append_assoc,
            List.append_assoc, List.singleton_append, List.singleton_append] at h
          obtain ⟨rfl, hrest⟩ := renderItems_append_inj q (List.cons.inj h).2
          exact ⟨rfl, hrest⟩
      | bool b => cases b <;> simp [render] at h
      | _ => simp [render, Quoting.literal] at h
  | .obj l, b, r, r', hr, hr', h => by
      cases b with
      | int k => exact absurd h (render_append_ne_number q hr hr' rfl (intChars_ne_nil k))
      | float f => exact absurd h (render_append_ne_number q hr hr' rfl (floatText_ne_nil f))
      | obj l' =>
          rw [render, render, List.cons_append, List.cons_append, List.append_assoc,
            List.append_assoc, List.singleton_append, List.singleton_append] at h
          obtain ⟨rfl, hrest⟩ := renderEntries_append_inj q (List.cons.inj h).2
          exact ⟨rfl, hrest⟩
      | bool b => cases b <;> simp [render] at h
      | _ => simp [render, Quoting.literal] at h
theorem renderItems_append_inj (q : Quoting) : ∀ {l l' : List Json} {r r' : List Char},
    renderItems q l ++ ']' :: r = renderItems q l' ++ ']' :: r' → l = l' ∧ r = r'
  | [], [], _, _, h => ⟨rfl, (List.cons.inj h).2⟩
  | [], k :: l', r, r', h => by
      rw [renderItems_cons, List.append_assoc] at h
      exact absurd h.symm (render_append_ne_close q k _ _)
  | j :: l, [], r, r', h => by
      rw [renderItems_cons, List.append_assoc] at h
      exact absurd h (render_append_ne_close q j _ _)
  | j :: l, k :: l', r, r', h => by
      rw [renderItems_cons, renderItems_cons, List.append_assoc, List.append_assoc] at h
      obtain ⟨rfl, hmore⟩ :=
        render_append_inj q (afterValue_more q l r) (afterValue_more q l' r') h
      obtain ⟨rfl, hrest⟩ := renderMore_append_inj q hmore
      exact ⟨rfl, hrest⟩
theorem renderMore_append_inj (q : Quoting) : ∀ {l l' : List Json} {r r' : List Char},
    renderMore q l ++ ']' :: r = renderMore q l' ++ ']' :: r' → l = l' ∧ r = r'
  | [], [], _, _, h => ⟨rfl, (List.cons.inj h).2⟩
  | [], k :: l', r, r', h => by simp [renderMore] at h
  | j :: l, [], r, r', h => by simp [renderMore] at h
  | j :: l, k :: l', r, r', h => by
      rw [renderMore, renderMore, renderItems_cons, renderItems_cons, List.cons_append,
        List.cons_append, List.append_assoc, List.append_assoc] at h
      obtain ⟨rfl, hmore⟩ := render_append_inj q (afterValue_more q l r)
        (afterValue_more q l' r') (List.cons.inj h).2
      obtain ⟨rfl, hrest⟩ := renderMore_append_inj q hmore
      exact ⟨rfl, hrest⟩
theorem renderEntries_append_inj (q : Quoting) :
    ∀ {l l' : List (String × Json)} {r r' : List Char},
      renderEntries q l ++ '\x7d' :: r = renderEntries q l' ++ '\x7d' :: r' → l = l' ∧ r = r'
  | [], [], _, _, h => ⟨rfl, (List.cons.inj h).2⟩
  | [], (k, j) :: l', r, r', h => by simp [renderEntries_cons, renderEntries, Quoting.literal] at h
  | (k, j) :: l, [], r, r', h => by simp [renderEntries_cons, renderEntries, Quoting.literal] at h
  | (k, j) :: l, (k', j') :: l', r, r', h => by
      rw [renderEntries_cons, renderEntries_cons, List.append_assoc, List.append_assoc,
        List.cons_append, List.cons_append, List.append_assoc, List.append_assoc] at h
      obtain ⟨rfl, hvalue⟩ := literal_append_inj h
      obtain ⟨rfl, hmore⟩ := render_append_inj q (afterValue_moreEntries q l r)
        (afterValue_moreEntries q l' r') (List.cons.inj hvalue).2
      obtain ⟨rfl, hrest⟩ := renderMoreEntries_append_inj q hmore
      exact ⟨rfl, hrest⟩
theorem renderMoreEntries_append_inj (q : Quoting) :
    ∀ {l l' : List (String × Json)} {r r' : List Char},
      renderMoreEntries q l ++ '\x7d' :: r = renderMoreEntries q l' ++ '\x7d' :: r' →
        l = l' ∧ r = r'
  | [], [], _, _, h => ⟨rfl, (List.cons.inj h).2⟩
  | [], e :: l', r, r', h => by simp [renderMoreEntries] at h
  | e :: l, [], r, r', h => by simp [renderMoreEntries] at h
  | (k, j) :: l, (k', j') :: l', r, r', h => by
      rw [renderMoreEntries, renderMoreEntries, renderEntries_cons, renderEntries_cons,
        List.cons_append, List.cons_append, List.append_assoc, List.append_assoc,
        List.cons_append, List.cons_append, List.append_assoc, List.append_assoc] at h
      obtain ⟨rfl, hvalue⟩ := literal_append_inj (List.cons.inj h).2
      obtain ⟨rfl, hmore⟩ := render_append_inj q (afterValue_moreEntries q l r)
        (afterValue_moreEntries q l' r') (List.cons.inj hvalue).2
      obtain ⟨rfl, hrest⟩ := renderMoreEntries_append_inj q hmore
      exact ⟨rfl, hrest⟩
end

/-- Different values have different texts. -/
theorem render_inj (q : Quoting) {a b : Json} (h : render q a = render q b) : a = b :=
  (render_append_inj q afterValue_nil afterValue_nil (congrArg (· ++ []) h)).1

/-- Values with one canonical text are equal up to key order. -/
theorem normalize_of_canonicalText {a b : Json} (h : a.canonicalText = b.canonicalText) :
    a.normalize = b.normalize := by
  have hchars := congrArg String.toList h
  unfold canonicalText at hchars
  rw [String.toList_ofList, String.toList_ofList, chars_eq_render, chars_eq_render] at hchars
  exact render_inj .plain hchars

end Json
