import CognitiveRuntime.Mcp.Auth

/-!
# Separation of hosted principals

A principal names the issuer, the client and the subject of a token, and
two tokens share it exactly when these three have the same UTF-16 units.
What stands between the claims and the three names is lossy: a subject
takes the place of a missing client, and a claim that is no string is not
read at all.
-/

open PyStr (ofString units quoteAscii)

namespace CognitiveRuntime

/-! ## Texts -/

/-- Strings that JSON writes alike. -/
def Alike (s t : Option PyStr) : Prop := s.map units = t.map units

theorem Alike.refl (s : Option PyStr) : Alike s s := rfl

theorem Alike.symm {s t : Option PyStr} (h : Alike s t) : Alike t s := Eq.symm h

theorem alike_some {s t : PyStr} : Alike (some s) (some t) ↔ units s = units t := by
  simp [Alike]

theorem Alike.isNone {s t : Option PyStr} (h : Alike s t) : s = none ↔ t = none := by
  cases s <;> cases t <;> simp_all [Alike]

theorem quoteAscii_congr {s t : PyStr} (h : units s = units t) : quoteAscii s = quoteAscii t := by
  unfold quoteAscii
  rw [h]

/-- An optional string in JSON. -/
def optionText (s : Option PyStr) : List Char := ((s.map PyJson.str).getD .null).dumps

theorem optionText_append_inj {s t : Option PyStr} {r r' : List Char} :
    optionText s ++ r = optionText t ++ r' → Alike s t ∧ r = r' := by
  intro h
  cases s with
  | none =>
      cases t with
      | none => exact ⟨rfl, List.append_cancel_left h⟩
      | some t =>
          have hhead : 'n' = '"' := (List.cons.inj h).1
          exact absurd hhead (by decide)
  | some s =>
      cases t with
      | none =>
          have hhead : '"' = 'n' := (List.cons.inj h).1
          exact absurd hhead (by decide)
      | some t =>
          obtain ⟨hunits, hrest⟩ := PyStr.quoteAscii_append_inj h
          exact ⟨alike_some.mpr hunits, hrest⟩

theorem optionText_congr {s t : Option PyStr} (h : Alike s t) : optionText s = optionText t := by
  cases s with
  | none => rw [h.isNone.mp rfl]
  | some s =>
      cases t with
      | none => cases h.isNone.mpr rfl
      | some t => exact quoteAscii_congr (alike_some.mp h)

/-! ## What a principal says -/

/-- The client a token names. -/
def tokenClient (claims : Payload) : Option PyStr :=
  (clientIdFromClaims claims).or (claims.string? "sub")

/-- The principal of a token over its claims. -/
theorem principalComponents_dumps [PyConversions] {v : JwtTokenVerifier} {token : PyStr} {claims : Payload}
    {t : AccessToken} (hdecode : v.decode token = some claims)
    (ht : v.verifySync token = some t) :
    (principalComponents t).dumps = '[' :: (optionText (tokenClient claims)
      ++ ',' :: (optionText (claims.string? "iss")
        ++ ',' :: (optionText (claims.string? "sub") ++ [']']))) := by
  rw [JwtTokenVerifier.verifySync, hdecode, Option.bind_some] at ht
  obtain ⟨clientId, hclient, rfl⟩ := Option.map_eq_some_iff.mp ht
  have hiss : claims.string? "iss" = some v.issuer := by
    unfold Payload.string?
    rw [v.decode_iss hdecode]
  have htokenClient : tokenClient claims = some clientId := hclient
  have hlookup : Payload.get? [(ofString "iss", (claims.get? "iss").getD .null)] "iss"
      = some (.str v.issuer) := by
    rw [v.decode_iss hdecode]
    rfl
  rw [htokenClient, hiss]
  simp only [principalComponents, hlookup, PyJson.dumps, PyJson.dumpsItems, optionText,
    Option.map_some, Option.getD_some, List.append_assoc, List.cons_append]

/-- What two tokens of one principal agree on. -/
structure NamedAlike (a b : Payload) : Prop where
  issuer : Alike (a.string? "iss") (b.string? "iss")
  client : Alike (tokenClient a) (tokenClient b)
  subject : Alike (a.string? "sub") (b.string? "sub")

theorem resolvePrincipal_eq_iff [PyConversions] {v w : JwtTokenVerifier} {s t : PyStr} {a b : Payload}
    {x y : AccessToken} (ha : v.decode s = some a) (hb : w.decode t = some b)
    (hx : v.verifySync s = some x) (hy : w.verifySync t = some y) {hostedAuth : Bool} :
    resolvePrincipal (some x) hostedAuth = resolvePrincipal (some y) hostedAuth
      ↔ NamedAlike a b := by
  have hdumps : resolvePrincipal (some x) hostedAuth = resolvePrincipal (some y) hostedAuth
      ↔ (principalComponents x).dumps = (principalComponents y).dumps := by
    constructor
    · intro h
      have htext := congrArg String.toList (append_left_cancel (Option.some.inj h))
      rwa [String.toList_ofList, String.toList_ofList] at htext
    · exact congrArg fun text => some ("oauth:" ++ String.ofList text)
  rw [hdumps, principalComponents_dumps ha hx, principalComponents_dumps hb hy]
  constructor
  · intro h
    obtain ⟨hclient, h⟩ := optionText_append_inj (List.cons.inj h).2
    obtain ⟨hissuer, h⟩ := optionText_append_inj (List.cons.inj h).2
    obtain ⟨hsubject, -⟩ := optionText_append_inj (List.cons.inj h).2
    exact ⟨hissuer, hclient, hsubject⟩
  · intro h
    rw [optionText_congr h.client, optionText_congr h.issuer, optionText_congr h.subject]

/-! ## Identities -/

/-- The client claim: `client_id`, else `azp`, where one of them is a
name, and what stands in their place otherwise. -/
def clientClaim (claims : Payload) : Option PyJson :=
  match clientIdFromClaims claims with
  | some name => some (.str name)
  | none => (claims.get? "client_id").or (claims.get? "azp")

/-- Claims that are equal up to key order, or both absent. -/
def EqualClaim (x y : Option PyJson) : Prop := x.map PyJson.normalize = y.map PyJson.normalize

/-- Claim sets of one identity. -/
structure SameIdentity (a b : Payload) : Prop where
  issuer : EqualClaim (a.get? "iss") (b.get? "iss")
  client : EqualClaim (clientClaim a) (clientClaim b)
  subject : EqualClaim (a.get? "sub") (b.get? "sub")

/-- A token without a client whose subject is the client of the other. -/
structure FallbackMeets (a b : Payload) : Prop where
  issuer : Alike (a.string? "iss") (b.string? "iss")
  missing : clientIdFromClaims a = none
  client : (clientIdFromClaims b).isSome
  meets : Alike (a.string? "sub") (clientIdFromClaims b)
  subject : Alike (a.string? "sub") (b.string? "sub")

/-- Names alike, next to claims that differ and are not read. -/
structure Unread (a b : Payload) : Prop where
  issuer : Alike (a.string? "iss") (b.string? "iss")
  client : Alike (clientIdFromClaims a) (clientIdFromClaims b)
  subject : Alike (a.string? "sub") (b.string? "sub")
  differs : (clientIdFromClaims a = none ∧ ¬ EqualClaim (clientClaim a) (clientClaim b))
    ∨ (a.string? "sub" = none ∧ ¬ EqualClaim (a.get? "sub") (b.get? "sub"))

/-- Names that differ in how they spell a character outside the basic
plane, as one code point or as two surrogates. -/
structure Respelled (a b : Payload) : Prop where
  issuer : Alike (a.string? "iss") (b.string? "iss")
  client : Alike (clientIdFromClaims a) (clientIdFromClaims b)
  subject : Alike (a.string? "sub") (b.string? "sub")
  differs : a.string? "iss" ≠ b.string? "iss" ∨ clientIdFromClaims a ≠ clientIdFromClaims b
    ∨ a.string? "sub" ≠ b.string? "sub"

/-- Claim sets that the principal does not tell apart. -/
inductive Confused (a b : Payload) : Prop
  | fallback (h : FallbackMeets a b)
  | fallback' (h : FallbackMeets b a)
  | unread (h : Unread a b)
  | respelled (h : Respelled a b)

section Identities

variable {a b : Payload}

theorem EqualClaim.symm {x y : Option PyJson} (h : EqualClaim x y) : EqualClaim y x := Eq.symm h

theorem SameIdentity.symm (h : SameIdentity a b) : SameIdentity b a :=
  ⟨h.issuer.symm, h.client.symm, h.subject.symm⟩

theorem NamedAlike.symm (h : NamedAlike a b) : NamedAlike b a :=
  ⟨h.issuer.symm, h.client.symm, h.subject.symm⟩

theorem get?_of_string? {key : String} {s : PyStr} (h : a.string? key = some s) :
    a.get? key = some (.str s) := by
  unfold Payload.string? at h
  split at h
  · rename_i heq
    rw [heq, Option.some.inj h]
  · cases h

theorem string?_of_get? {key : String} {s : PyStr} (h : a.get? key = some (.str s)) :
    a.string? key = some s := by
  unfold Payload.string?
  rw [h]

/-- Key order does not make a value a string. -/
theorem eq_str_of_equalClaim {x y : Option PyJson} {s : PyStr} (h : EqualClaim x y)
    (hx : x = some (.str s)) : y = some (.str s) := by
  subst hx
  cases y with
  | none => cases h
  | some v =>
      have hv : PyJson.str s = v.normalize := Option.some.inj h
      cases v with
      | str t => exact congrArg some hv.symm
      | _ => rw [PyJson.normalize] at hv <;> cases hv

theorem string?_eq_of_equalClaim {key : String} (h : EqualClaim (a.get? key) (b.get? key)) :
    a.string? key = b.string? key := by
  cases ha : a.string? key with
  | some s =>
      exact (string?_of_get? (eq_str_of_equalClaim h (get?_of_string? ha))).symm
  | none =>
      cases hb : b.string? key with
      | none => rfl
      | some s =>
          rw [string?_of_get? (eq_str_of_equalClaim h.symm (get?_of_string? hb))] at ha
          cases ha

/-- The names `_client_id_from_claims` looks for. -/
theorem clientIdFromClaims_eq : clientIdFromClaims a
    = ((a.string? "client_id").filter (· ≠ [])).or ((a.string? "azp").filter (· ≠ [])) := by
  simp only [clientIdFromClaims, List.findSome?_cons, List.findSome?_nil]
  cases (a.string? "client_id").filter (· ≠ []) <;> cases (a.string? "azp").filter (· ≠ []) <;> rfl

/-- What stands in place of a client that was not named is no name. -/
theorem clientClaim_ne_name (hnone : clientIdFromClaims a = none) {s : PyStr} (hs : s ≠ []) :
    clientClaim a ≠ some (.str s) := by
  intro h
  unfold clientClaim at h
  rw [hnone] at h
  rw [clientIdFromClaims_eq, Option.or_eq_none_iff] at hnone
  have hunnamed : ∀ key, (a.string? key).filter (· ≠ []) = none → a.get? key ≠ some (.str s) := by
    intro key hkey hget
    rw [string?_of_get? hget, Option.filter_some_pos (by simpa using hs)] at hkey
    cases hkey
  rcases Option.or_eq_some_iff.mp h with hclient | ⟨-, hazp⟩
  · exact hunnamed _ hnone.1 hclient
  · exact hunnamed _ hnone.2 hazp

theorem clientIdFromClaims_ne_nil {s : PyStr} (h : clientIdFromClaims a = some s) : s ≠ [] := by
  rw [clientIdFromClaims_eq] at h
  rcases Option.or_eq_some_iff.mp h with h | ⟨-, h⟩
  · simpa using (Option.filter_eq_some_iff.mp h).2
  · simpa using (Option.filter_eq_some_iff.mp h).2

theorem clientClaim_of_name {s : PyStr} (h : clientIdFromClaims a = some s) :
    clientClaim a = some (.str s) := by
  unfold clientClaim
  rw [h]

/-- A named client and an unnamed one are different claims. -/
theorem not_equalClaim_of_missing (ha : clientIdFromClaims a = none)
    (hb : (clientIdFromClaims b).isSome) : ¬ EqualClaim (clientClaim a) (clientClaim b) := by
  intro h
  obtain ⟨name, hname⟩ := Option.isSome_iff_exists.mp hb
  exact clientClaim_ne_name ha (clientIdFromClaims_ne_nil hname)
    (eq_str_of_equalClaim h.symm (clientClaim_of_name hname))

theorem clientIdFromClaims_eq_of_equalClaim (h : EqualClaim (clientClaim a) (clientClaim b)) :
    clientIdFromClaims a = clientIdFromClaims b := by
  cases ha : clientIdFromClaims a with
  | none =>
      cases hb : clientIdFromClaims b with
      | none => rfl
      | some name => exact absurd h (not_equalClaim_of_missing ha (hb ▸ rfl))
  | some name =>
      cases hb : clientIdFromClaims b with
      | none => exact absurd h.symm (not_equalClaim_of_missing hb (ha ▸ rfl))
      | some name' =>
          have hsame := eq_str_of_equalClaim h (clientClaim_of_name ha)
          rw [clientClaim_of_name hb] at hsame
          rw [PyJson.str.inj (Option.some.inj hsame)]

theorem alike_or {s s' t t' : Option PyStr} (h : Alike s s') (h' : Alike t t') :
    Alike (s.or t) (s'.or t') := by
  unfold Alike at *
  rw [Option.map_or, Option.map_or, h, h']

theorem FallbackMeets.namedAlike (h : FallbackMeets a b) : NamedAlike a b where
  issuer := h.issuer
  client := by
    obtain ⟨name, hname⟩ := Option.isSome_iff_exists.mp h.client
    unfold tokenClient
    rw [h.missing, Option.none_or, hname, Option.some_or, ← hname]
    exact h.meets
  subject := h.subject

theorem FallbackMeets.not_same (h : FallbackMeets a b) : ¬ SameIdentity a b := fun hsame =>
  not_equalClaim_of_missing h.missing h.client hsame.client

/-- Confused claim sets are read alike and are different identities. -/
theorem Confused.namedAlike (h : Confused a b) : NamedAlike a b ∧ ¬ SameIdentity a b := by
  cases h with
  | fallback h => exact ⟨h.namedAlike, h.not_same⟩
  | fallback' h => exact ⟨h.namedAlike.symm, fun hsame => h.not_same hsame.symm⟩
  | unread h =>
      refine ⟨⟨h.issuer, alike_or h.client h.subject, h.subject⟩, fun hsame => ?_⟩
      rcases h.differs with ⟨-, hclient⟩ | ⟨-, hsubject⟩
      · exact hclient hsame.client
      · exact hsubject hsame.subject
  | respelled h =>
      refine ⟨⟨h.issuer, alike_or h.client h.subject, h.subject⟩, fun hsame => ?_⟩
      rcases h.differs with hissuer | hclient | hsubject
      · exact hissuer (string?_eq_of_equalClaim hsame.issuer)
      · exact hclient (clientIdFromClaims_eq_of_equalClaim hsame.client)
      · exact hsubject (string?_eq_of_equalClaim hsame.subject)

/-- Where the clients are read alike, the identities differ in something
that was not read or in the spelling of a name. -/
theorem confused_of_clients (hread : NamedAlike a b) (hiss : (a.string? "iss").isSome)
    (hclient : Alike (clientIdFromClaims a) (clientIdFromClaims b))
    (hdiffers : ¬ SameIdentity a b) : Confused a b := by
  by_cases hspelled : a.string? "iss" = b.string? "iss"
      ∧ clientIdFromClaims a = clientIdFromClaims b ∧ a.string? "sub" = b.string? "sub"
  · obtain ⟨hissuer, hname, hsubject⟩ := hspelled
    refine .unread ⟨hread.issuer, hclient, hread.subject, ?_⟩
    by_contra hread'
    rw [not_or, not_and_not_right, not_and_not_right] at hread'
    obtain ⟨hunnamed, hunread⟩ := hread'
    refine hdiffers ⟨?_, ?_, ?_⟩
    · obtain ⟨s, hs⟩ := Option.isSome_iff_exists.mp hiss
      rw [get?_of_string? hs, get?_of_string? (hissuer ▸ hs)]
      rfl
    · cases ha : clientIdFromClaims a with
      | none => exact hunnamed ha
      | some name =>
          rw [clientClaim_of_name ha, clientClaim_of_name (hname ▸ ha)]
          rfl
    · cases ha : a.string? "sub" with
      | none => exact hunread ha
      | some s =>
          rw [get?_of_string? ha, get?_of_string? (hsubject ▸ ha)]
          rfl
  · refine .respelled ⟨hread.issuer, hclient, hread.subject, ?_⟩
    by_contra hsame
    push Not at hsame
    exact hspelled hsame

theorem confused_iff (hiss : (a.string? "iss").isSome) :
    Confused a b ↔ NamedAlike a b ∧ ¬ SameIdentity a b := by
  refine ⟨Confused.namedAlike, fun ⟨hread, hdiffers⟩ => ?_⟩
  cases ha : clientIdFromClaims a with
  | none =>
      cases hb : clientIdFromClaims b with
      | none => exact confused_of_clients hread hiss (ha ▸ hb ▸ Alike.refl none) hdiffers
      | some name =>
          refine .fallback ⟨hread.issuer, ha, hb ▸ rfl, ?_, hread.subject⟩
          have hmeets := hread.client
          rwa [tokenClient, tokenClient, ha, hb, Option.none_or, Option.some_or, ← hb] at hmeets
  | some name =>
      cases hb : clientIdFromClaims b with
      | none =>
          refine .fallback' ⟨hread.issuer.symm, hb, ha ▸ rfl, ?_, hread.subject.symm⟩
          have hmeets := hread.client.symm
          rwa [tokenClient, tokenClient, ha, hb, Option.none_or, Option.some_or, ← ha] at hmeets
      | some name' =>
          refine confused_of_clients hread hiss ?_ hdiffers
          have hclient := hread.client
          rwa [tokenClient, tokenClient, ha, hb, Option.some_or, Option.some_or, ← ha, ← hb]
            at hclient

end Identities

/-- Two tokens are never confused exactly when their claims are in none
of the ways the principal overlooks; and no token is the local
principal. -/
theorem principals_separate_iff [PyConversions] {v w : JwtTokenVerifier} {s t : PyStr}
    {a b : Payload} {x y : AccessToken} (ha : v.decode s = some a) (hb : w.decode t = some b)
    (hx : v.verifySync s = some x) (hy : w.verifySync t = some y) (hostedAuth : Bool) :
    ((resolvePrincipal (some x) hostedAuth = resolvePrincipal (some y) hostedAuth →
        SameIdentity a b) ↔ ¬ Confused a b)
      ∧ resolvePrincipal (some x) hostedAuth ≠ some localPrincipal := by
  have hiss : (a.string? "iss").isSome := by
    rw [string?_of_get? (v.decode_iss ha)]
    rfl
  refine ⟨?_, resolvePrincipal_ne_local x hostedAuth⟩
  rw [resolvePrincipal_eq_iff ha hb hx hy, confused_iff hiss]
  tauto

/-! ## Three tokens of one issuer -/

/-- A verifier that knows its tokens by heart. -/
def JwtTokenVerifier.ofTable (issuer audience : PyStr) (table : PyStr → Option Payload) :
    JwtTokenVerifier where
  issuer := issuer
  audience := audience
  decode token := (table token).filter fun claims => claims.string? "iss" = some issuer
  decode_iss h := get?_of_string? (by simpa using (Option.filter_eq_some_iff.mp h).2)

/-- The claims of a user, of a client if one is given. -/
def userClaims (client : Option String) (user : String) : Payload :=
  (client.toList.map fun name => (ofString "client_id", .str (ofString name)))
    ++ [(ofString "iss", .str (ofString "https://issuer")), (ofString "aud", .str (ofString "l9")),
      (ofString "exp", .int 4102444800), (ofString "sub", .str (ofString user))]

def greeterVerifier : JwtTokenVerifier :=
  .ofTable (ofString "https://issuer") (ofString "l9") fun token =>
    if token = ofString "alice" then some (userClaims none "alice")
    else if token = ofString "agent" then some (userClaims (some "alice") "alice")
    else if token = ofString "bob" then some (userClaims none "bob")
    else none

section Greeter

/-- None of these claims is a number with a fraction or needs `str`. -/
local instance : PyConversions := ⟨fun _ => [], fun _ => 0⟩

/-- Alice without a client, and a client that calls itself Alice acting
for her, are one principal. -/
theorem clientless_subject_is_client :
    ∃ x y, greeterVerifier.verifySync (ofString "alice") = some x
      ∧ greeterVerifier.verifySync (ofString "agent") = some y
      ∧ resolvePrincipal (some x) true = resolvePrincipal (some y) true
      ∧ ¬ SameIdentity (userClaims none "alice") (userClaims (some "alice") "alice") := by
  have hmeets : FallbackMeets (userClaims none "alice") (userClaims (some "alice") "alice") :=
    ⟨rfl, rfl, rfl, rfl, rfl⟩
  refine ⟨_, _, rfl, rfl, ?_, hmeets.not_same⟩
  exact (resolvePrincipal_eq_iff (v := greeterVerifier) (w := greeterVerifier)
    (s := ofString "alice") (t := ofString "agent") rfl rfl rfl rfl).mpr hmeets.namedAlike

/-- Two users are two principals. -/
theorem users_separate :
    ∃ x y, greeterVerifier.verifySync (ofString "alice") = some x
      ∧ greeterVerifier.verifySync (ofString "bob") = some y
      ∧ ((resolvePrincipal (some x) true = resolvePrincipal (some y) true →
          SameIdentity (userClaims none "alice") (userClaims none "bob"))
        ∧ resolvePrincipal (some x) true ≠ some localPrincipal) := by
  have hseparate : ¬ Confused (userClaims none "alice") (userClaims none "bob") := fun h => by
    have hsubject : Alike ((userClaims none "alice").string? "sub")
        ((userClaims none "bob").string? "sub") := h.namedAlike.1.subject
    revert hsubject
    unfold Alike
    decide
  have hprincipals := principals_separate_iff (v := greeterVerifier) (w := greeterVerifier)
    (s := ofString "alice") (t := ofString "bob") rfl rfl rfl rfl true
  exact ⟨_, _, rfl, rfl, hprincipals.1.mpr hseparate, hprincipals.2⟩

end Greeter

end CognitiveRuntime
