import VoxForge.Core.Handoff
import VoxForge.Core.Uuid
import VoxForge.Foundation.Dict

/-! Signed replay links, and who may read the replay of a session. -/
namespace VoxForge.Replay
open Foundation Core

abbrev SessionId := Nat

structure Settings where
  handoffReplaySigningSecret : String := ""
  jwtSecretKey : String
  publicBaseUrl : String := ""
  handoffReplayTokenTtlSeconds : Int := 604800

def Settings.signingSecret (settings : Settings) : String :=
  if settings.handoffReplaySigningSecret ≠ "" then settings.handoffReplaySigningSecret
  else settings.jwtSecretKey

/-- `hmac.new(secret, payload, sha256).hexdigest()[:32]`, of a secret and a payload. -/
abbrev Mac := String → String → String

/-- A session, its organisation and its handoff: what a link is signed for. -/
structure Subject where
  sessionId : SessionId
  orgId : OrgId
  handoffId : HandoffId
  deriving DecidableEq, Repr

def payload (subject : Subject) (token : String) : String :=
  uuidText subject.sessionId ++ ":" ++ uuidText subject.orgId ++ ":" ++
    uuidText subject.handoffId ++ ":" ++ token

def sign (mac : Mac) (settings : Settings) (subject : Subject) (token : String) : String :=
  mac settings.signingSecret (payload subject token)

/-- `generate`, for what `token_urlsafe` yields: the link and the signed token. -/
def generate (mac : Mac) (settings : Settings) (subject : Subject) (token : String) :
    String × String :=
  let signedToken := token ++ "." ++ sign mac settings subject token
  let stripped := String.ofList (settings.publicBaseUrl.toList.rdropWhile (· = '/'))
  let base := if stripped ≠ "" then stripped else "http://localhost:8000"
  (base ++ "/dashboard#replay=" ++ uuidText subject.sessionId ++ "&token=" ++ signedToken,signedToken)

/-- How a request fails: with an HTTP error, or with an exception that nothing handles. -/
inductive Failure where
  | httpException (statusCode : Nat) (detail : String)
  | typeError (message : String)
  deriving DecidableEq, Repr

/-- `hmac.compare_digest` on strings. -/
def compareDigest (a b : String) : Except Failure Bool :=
  if isAscii a && isAscii b then .ok (a = b)
  else .error (.typeError "comparing strings with non-ASCII characters is not supported")

def verify (mac : Mac) (settings : Settings) (subject : Subject) (token : String) :
    Except Failure Bool :=
  match rsplitOnce '.' token with
  | none => .ok false
  | some (raw,signature) => compareDigest signature (sign mac settings subject raw)

/-- A request for a replay. A session has at most one handoff. -/
structure Request where
  sessionId : SessionId
  replayToken : Option String := none
  principal : Option Principal := none

def requireScope (principal : Principal) (scope : Scope) : Except Failure Unit :=
  if principal.hasScope scope then .ok ()
  else .error (.httpException 403 ("Missing required scope: " ++ scope))

/-- `_resolve_replay_org_id`. The empty token is no token. -/
def resolveReplayOrgId (mac : Mac) (settings : Settings) (handoffs : Dict SessionId HandoffRecord)
    (now : Time) (request : Request) : Except Failure OrgId := do
  let replayToken := request.replayToken.getD ""
  if replayToken ≠ "" then
    match handoffs.get? request.sessionId with
    | none => .error (.httpException 404 "Handoff not found for session")
    | some handoff =>
      let subject : Subject := { sessionId := request.sessionId, orgId := handoff.orgId, handoffId := handoff.id }
      let valid ← verify mac settings subject replayToken
      if !valid then .error (.httpException 403 "Invalid replay token")
      let stored := handoff.replayToken.getD ""
      if stored ≠ "" then
        let same ← compareDigest stored replayToken
        if !same then .error (.httpException 403 "Invalid replay token")
      if (now : Int) - handoff.createdAt > settings.handoffReplayTokenTtlSeconds then
        .error (.httpException 403 "Replay token expired")
      return handoff.orgId
  else
    match request.principal with
    | none => .error (.httpException 401 "Authentication required")
    | some principal =>
      requireScope principal "sessions:read"
      return principal.orgId

end VoxForge.Replay
