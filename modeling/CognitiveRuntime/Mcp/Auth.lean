import CognitiveRuntime.Data.JsonString
import CognitiveRuntime.Mcp.Ingress

/-!
# Hosted principals

`JwtTokenVerifier` turns the claims of a decoded JWT into an access token,
and `resolve_principal` turns an access token into the name that owns
runs. Decoding is a parameter: it gives claims whose `iss` is the
configured issuer, or nothing.

The principal is a text of JSON with every character outside ASCII
escaped, so strings enter it as their UTF-16 units.
-/

open PyStr (ofString units quoteAscii)

namespace PyJson

mutual
/-- `json.dumps(value, separators=(",", ":"))`. -/
def dumps : PyJson → List Char
  | .null => ['n', 'u', 'l', 'l']
  | .bool true => ['t', 'r', 'u', 'e']
  | .bool false => ['f', 'a', 'l', 's', 'e']
  | .int i => Json.intChars i
  | .float f => (floatText f).toList
  | .str s => quoteAscii s
  | .arr items => '[' :: dumpsItems items ++ [']']
  | .obj entries => '\x7b' :: dumpsEntries entries ++ ['\x7d']
def dumpsItems : List PyJson → List Char
  | [] => []
  | [v] => dumps v
  | v :: rest => dumps v ++ ',' :: dumpsItems rest
def dumpsEntries : List (PyStr × PyJson) → List Char
  | [] => []
  | [(k, v)] => quoteAscii k ++ ':' :: dumps v
  | (k, v) :: rest => quoteAscii k ++ ':' :: dumps v ++ ',' :: dumpsEntries rest
end

end PyJson

namespace CognitiveRuntime

/-! ## Claims -/

/-- What Python makes of values that are no strings: `str(value)`, and
`int(value)` of a floating-point number. -/
class PyConversions where
  str : PyJson → PyStr
  int : String → Int

section Claims

variable [PyConversions] (claims : Payload)

def splitScopes (raw : PyStr) : List PyStr :=
  (raw.splitOn (CodePoint.ofChar ' ')).filter (· ≠ [])

/-- `str(value)`. -/
def pyStr : PyJson → PyStr
  | .str s => s
  | v => PyConversions.str v

/-- `_scopes_from_claims`. -/
def scopesFromClaims : List PyStr :=
  match claims.get? "scope" with
  | some (.str raw) => splitScopes raw
  | _ =>
    match claims.get? "scp" with
    | some (.str scp) => splitScopes scp
    | some (.arr scp) => (scp.map pyStr).filter (· ≠ [])
    | _ => []

/-- `_client_id_from_claims`. -/
def clientIdFromClaims : Option PyStr :=
  ["client_id", "azp"].findSome? fun key => (claims.string? key).filter (· ≠ [])

/-- `int(exp)` of a number. Decoding has refused an expiry that is not
finite. -/
def expiresAt : Option Int :=
  match claims.get? "exp" with
  | some (.int i) => some i
  | some (.bool b) => some b.toNat
  | some (.float (.finite f)) => some (PyConversions.int f.text)
  | _ => none

end Claims

/-! ## Access tokens -/

structure AccessToken where
  token : PyStr
  clientId : PyStr
  scopes : List PyStr
  expiresAt : Option Int
  resource : PyStr
  subject : Option PyStr
  claims : Payload

/-- A verifier over a decoder that checks the issuer. -/
structure JwtTokenVerifier where
  issuer : PyStr
  audience : PyStr
  decode : PyStr → Option Payload
  decode_iss : ∀ {token claims}, decode token = some claims →
    claims.get? "iss" = some (.str issuer)

/-- The token made of decoded claims: none where neither a client nor a
subject is named. -/
def accessTokenOf [PyConversions] (audience token : PyStr) (claims : Payload) :
    Option AccessToken :=
  let subject := claims.string? "sub"
  -- `client_id or str(subject)`, where a missing client needs a string subject
  ((clientIdFromClaims claims).or subject).map fun clientId =>
    { token := token
      clientId := clientId
      scopes := scopesFromClaims claims
      expiresAt := expiresAt claims
      resource := audience
      subject := subject
      claims := [(ofString "iss", (claims.get? "iss").getD .null)] }

/-- `JwtTokenVerifier._verify_sync`. -/
def JwtTokenVerifier.verifySync [PyConversions] (v : JwtTokenVerifier) (token : PyStr) :
    Option AccessToken :=
  (v.decode token).bind (accessTokenOf v.audience token)

/-! ## Principals -/

/-- `LOCAL_PRINCIPAL`. -/
def localPrincipal : String := "local-stdio"

/-- `principal_components` of the SDK: client, issuer, subject. -/
def principalComponents (t : AccessToken) : PyJson :=
  .arr [.str t.clientId, (t.claims.get? "iss").getD .null, (t.subject.map PyJson.str).getD .null]

/-- `resolve_principal`, with the access token of the request. -/
def resolvePrincipal (token : Option AccessToken) (hostedAuth : Bool) : Option String :=
  match token with
  | some t => some ("oauth:" ++ String.ofList (principalComponents t).dumps)
  | none => if hostedAuth then none else some localPrincipal

/-- A token never gives the local principal. -/
theorem resolvePrincipal_ne_local (t : AccessToken) (hostedAuth : Bool) :
    resolvePrincipal (some t) hostedAuth ≠ some localPrincipal := by
  intro h
  have htext := congrArg (fun s => s.toList.head?) (Option.some.inj h)
  rw [String.toList_append] at htext
  have hfirst : 'o' = 'l' := Option.some.inj htext
  revert hfirst
  decide

end CognitiveRuntime
