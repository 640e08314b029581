import CognitiveRuntime.Data.Fallible
import CognitiveRuntime.Data.PrivateView

/-!
# Fronts of a component

A front serves requests by at most one call each of a component it is
the only caller of. A run of the front is then a run of the component on
the calls it was sent, with an answer woven in for every request, and
what a party is answered depends on that party's requests and on what
the component tells it.
-/

namespace Front

open Fallible PrivateView

variable {S C R Q A E : Type}

/-- A component that serves calls one after the other. -/
def runAll (serve : S → C → Except E (S × R)) : List C → S → Except E (S × List R)
  | [], s => .ok (s, [])
  | c :: rest, s => do
    let (s, r) ← serve s c
    let (s, rs) ← runAll serve rest s
    .ok (s, r :: rs)

section Runs

variable {serve : S → C → Except E (S × R)} {s s' : S}

theorem runAll_length {calls : List C} {replies : List R}
    (h : runAll serve calls s = .ok (s', replies)) : replies.length = calls.length := by
  induction calls generalizing s replies with
  | nil =>
      cases h
      rfl
  | cons c rest ih =>
      simp only [runAll, bind_eq_ok, Prod.exists] at h
      obtain ⟨_, r, -, _, rs, hrest, hdone⟩ := h
      cases hdone
      rw [List.length_cons, List.length_cons, ih hrest]

/-- A run in two parts. -/
theorem runAll_append {first second : List C} :
    runAll serve (first ++ second) s = (do
      let (s, rs) ← runAll serve first s
      let (s, rs') ← runAll serve second s
      .ok (s, rs ++ rs')) := by
  induction first generalizing s with
  | nil =>
      simp only [List.nil_append, runAll, ok_bind]
      cases runAll serve second s <;> rfl
  | cons c rest ih =>
      simp only [List.cons_append, runAll, ih]
      cases serve s c with
      | error e => rfl
      | ok sr =>
          simp only [ok_bind]
          cases runAll serve rest sr.1 with
          | error e => rfl
          | ok srs =>
              simp only [ok_bind]
              cases runAll serve second srs.1 <;> rfl

/-- The reply to a call of a run was given in some state of it. -/
theorem exists_step_of_mem {calls : List C} {replies : List R}
    (h : runAll serve calls s = .ok (s', replies)) {c : C} (hc : c ∈ calls) :
    ∃ t t' r, serve t c = .ok (t', r) ∧ (c, r) ∈ calls.zip replies := by
  induction calls generalizing s replies with
  | nil => cases hc
  | cons c₀ rest ih =>
      simp only [runAll, bind_eq_ok, Prod.exists] at h
      obtain ⟨t, r, hstep, _, rs, hrest, hdone⟩ := h
      cases hdone
      rcases List.mem_cons.mp hc with rfl | hc
      · exact ⟨s, t, r, hstep, List.mem_cons_self⟩
      · obtain ⟨t, t', r, hstep, hmem⟩ := ih hrest hc
        exact ⟨t, t', r, hstep, List.mem_cons_of_mem _ hmem⟩

end Runs

/-- What a front makes of a request: the call it sends, and the answer
once it has the reply. -/
structure Handler (Q C R A : Type) where
  send : Q → Option C
  respond : Q → Option R → A

namespace Handler

variable (front : Handler Q C R A) (serve : S → C → Except E (S × R))

/-- One request over the component. -/
def step (s : S) (q : Q) : Except E (S × A) :=
  match front.send q with
  | none => .ok (s, front.respond q none)
  | some c => do
    let (s, r) ← serve s c
    .ok (s, front.respond q (some r))

/-- The answers to requests, given the replies to the calls they sent. -/
def weave : List Q → List R → List A
  | [], _ => []
  | q :: rest, replies =>
    match front.send q, replies with
    | none, replies => front.respond q none :: weave rest replies
    | some _, r :: replies => front.respond q (some r) :: weave rest replies
    | some _, [] => []

variable {front serve} {s s' : S}

theorem weave_none {q : Q} (h : front.send q = none) (rest : List Q) (replies : List R) :
    front.weave (q :: rest) replies = front.respond q none :: front.weave rest replies := by
  simp only [weave, h]

theorem weave_some {q : Q} {c : C} (h : front.send q = some c) (rest : List Q) (r : R)
    (replies : List R) : front.weave (q :: rest) (r :: replies)
      = front.respond q (some r) :: front.weave rest replies := by
  simp only [weave, h]

/-- A front runs as its component does on what it is sent. -/
theorem runAll_step (queries : List Q) :
    runAll (front.step serve) queries s
      = (runAll serve (queries.filterMap front.send) s).map fun e =>
          (e.1, front.weave queries e.2) := by
  induction queries generalizing s with
  | nil => rfl
  | cons q rest ih =>
      cases hsend : front.send q with
      | none =>
          rw [List.filterMap_cons_none hsend]
          simp only [runAll, step, hsend, ok_bind, ih]
          cases runAll serve (rest.filterMap front.send) s with
          | error e => rfl
          | ok e => exact congrArg (fun l => Except.ok (e.1, l)) (weave_none hsend rest e.2).symm
      | some c =>
          rw [List.filterMap_cons_some hsend]
          simp only [runAll, step, hsend]
          cases serve s c with
          | error e => rfl
          | ok sr =>
              simp only [ok_bind, ih]
              cases runAll serve (rest.filterMap front.send) sr.1 with
              | error e => rfl
              | ok e =>
                  exact congrArg (fun l => Except.ok (e.1, l))
                    (weave_some hsend rest sr.2 e.2).symm

/-- What a party is answered is woven from its own requests and the
replies to its own calls. -/
theorem ownReplies_weave {ownQ : Q → Bool} {ownC : C → Bool}
    (hown : ∀ q c, front.send q = some c → ownC c = ownQ q) :
    ∀ (queries : List Q) (replies : List R),
      replies.length = (queries.filterMap front.send).length →
      ownReplies ownQ (queries.zip (front.weave queries replies))
        = front.weave (queries.filter ownQ)
            (ownReplies ownC ((queries.filterMap front.send).zip replies))
  | [], _, _ => rfl
  | q :: rest, replies, hlength => by
      cases hsend : front.send q with
      | none =>
          rw [List.filterMap_cons_none hsend] at hlength ⊢
          rw [weave_none hsend, List.zip_cons_cons]
          have ih := ownReplies_weave hown rest replies hlength
          cases hq : ownQ q with
          | true =>
              rw [ownReplies_cons_of_own hq, List.filter_cons_of_pos hq, weave_none hsend, ih]
          | false =>
              rw [ownReplies_cons_of_other hq, List.filter_cons_of_neg (by simp [hq]), ih]
      | some c =>
          rw [List.filterMap_cons_some hsend] at hlength ⊢
          cases replies with
          | nil => cases hlength
          | cons r replies =>
              rw [weave_some hsend, List.zip_cons_cons, List.zip_cons_cons]
              have ih := ownReplies_weave hown rest replies (Nat.succ.inj hlength)
              have hsame := hown q c hsend
              cases hq : ownQ q with
              | true =>
                  rw [ownReplies_cons_of_own hq, ownReplies_cons_of_own (hsame.trans hq),
                    List.filter_cons_of_pos hq, weave_some hsend, ih]
              | false =>
                  rw [ownReplies_cons_of_other hq, ownReplies_cons_of_other (hsame.trans hq),
                    List.filter_cons_of_neg (by simp [hq]), ih]

theorem filterMap_send_filter {ownQ : Q → Bool} {ownC : C → Bool}
    (hown : ∀ q c, front.send q = some c → ownC c = ownQ q) (queries : List Q) :
    (queries.filterMap front.send).filter ownC = (queries.filter ownQ).filterMap front.send := by
  rw [List.filter_filterMap, List.filterMap_filter]
  refine List.filterMap_congr fun q _ => ?_
  cases hsend : front.send q with
  | none => rw [Option.filter_none, ite_self]
  | some c => rw [Option.filter_some, hown q c hsend]

end Handler

end Front
