import VoxForge.Core.Auth
import VoxForge.Core.Text
import VoxForge.Foundation.DocumentOrder

/-! Reading and validating a SAML response. A document is the tree of its elements,
texts and comments; the signature verifier and the parsers are parameters. -/
namespace VoxForge.Sso
open Foundation Core

inductive Label where
  | element (tag : String) (attributes : List (String × String))
  | text (content : String)
  | comment (content : String)
  deriving DecidableEq, Repr

abbrev Document := Foundation.Tree Label

inductive SsoError where
  | samlAssertion (message : String)
  | samlConnectionNotFound (id : Nat)
  | forbidden (message : String)
  /-- The decoded payload is no UTF-8 text. -/
  | unicodeDecode
  /-- The verifier raises something its caller does not catch. -/
  | verifier (message : String)
  deriving DecidableEq, Repr

inductive VerifyFault where
  | invalidSignature
  | valueError
  | other (message : String)
  deriving DecidableEq, Repr

/-- What the environment provides: the two XML parsers, which need not read a payload alike,
the signature verifier, which yields the element it verified, and the clock. -/
structure Environment where
  b64decode : String → Option ByteArray
  /-- `lxml.etree.fromstring`, of the encoded payload. -/
  lxmlFromstring : ByteArray → Option Document
  /-- `xml.etree.ElementTree.fromstring`, of the payload's text. -/
  etreeFromstring : String → Option Document
  verify : ByteArray → String → Except VerifyFault Position
  /-- An ISO timestamp as microseconds of UTC; one without a zone counts as UTC. -/
  fromisoformat : String → Option Int
  lower : String → String
  now : Int

def samlTag (name : String) : String := "\x7burn:oasis:names:tc:SAML:2.0:assertion\x7d" ++ name

def signatureTag : String := "\x7bhttp://www.w3.org/2000/09/xmldsig#\x7dSignature"

def hasTag (tag : String) : Label → Bool
  | .element t _ => t = tag
  | _ => false

def attribute? (element : Document) (name : String) : Option String :=
  match element.label with
  | .element _ attributes => (attributes.find? (·.1 = name)).map Prod.snd
  | _ => none

def childrenTagged (element : Document) (tag : String) : List Document :=
  element.children.filter (hasTag tag ·.label)

private def textOf : Label → Option String
  | .text content => some content
  | _ => none

private def joined (texts : List String) : Option String :=
  if texts = [] then none else some (String.join texts)

/-- `lxml`: the text before the first child node, a comment included. -/
def lxmlText (element : Document) : Option String :=
  joined ((element.children.takeWhile fun child => (textOf child.label).isSome).filterMap
    fun child => textOf child.label)

/-- `xml.etree`: the text before the first child element, comments dropped. -/
def etreeText (element : Document) : Option String :=
  joined ((element.children.takeWhile fun child =>
      match child.label with | .element _ _ => false | _ => true).filterMap
    fun child => textOf child.label)

/-- A `str | None` value that Python takes as true. -/
def truthy (s : Option String) : Option String := s.filter (· ≠ "")

def isAssertion : Label → Bool := hasTag (samlTag "Assertion")

def emailAttributeNames : List String :=
  ["email","emailaddress","http://schemas.xmlsoap.org/ws/2005/05/identity/claims/emailaddress",
    "http://schemas.xmlsoap.org/ws/2005/05/identity/claims/name"]

def nameAttributeNames : List String :=
  ["name","displayname","http://schemas.xmlsoap.org/ws/2005/05/identity/claims/name",
    "http://schemas.xmlsoap.org/ws/2005/05/identity/claims/givenname"]

def groupAttributeNames : List String :=
  ["groups","group","memberof","http://schemas.microsoft.com/ws/2008/06/identity/claims/groups"]

inductive SamlConnectionStatus where
  | draft | active | disabled
  deriving DecidableEq, Repr

structure SamlConnection where
  id : Nat
  orgId : OrgId
  status : SamlConnectionStatus
  idpX509Cert : String
  spEntityId : String
  defaultRole : OrgRole
  roleMappingRules : List (String × String) := []
  deriving DecidableEq, Repr

structure SamlAssertion where
  email : String
  fullName : String
  groups : List String
  deriving DecidableEq, Repr

section reading
variable (env : Environment)

def normalizeSamlPayload (samlResponse : String) : Except SsoError String :=
  let payload := strip samlResponse
  if payload.toList.head? = some '<' then .ok payload
  else match env.b64decode payload with
    | none => .error (.samlAssertion "SAML response must be XML or base64-encoded XML")
    | some decoded =>
      match String.fromUTF8? decoded with
      | none => .error .unicodeDecode
      | some text => .ok text

def withoutSpace (cs : List Char) : List Char := cs.filter (! isSpace ·)

def wrap64 (cs : List Char) : List String := (cs.toChunks 64).map String.ofList

def normalizeX509Cert (certPem : String) : String :=
  let cert := strip certPem
  if (cert.splitOn "BEGIN CERTIFICATE").length ≠ 1 then cert
  else
    let wrapped := "\n".intercalate (wrap64 (withoutSpace cert.toList))
    "-----BEGIN CERTIFICATE-----\n" ++ wrapped ++ "\n-----END CERTIFICATE-----"

def hasXmlSignature (root : Document) : Bool := (root.find (hasTag signatureTag)).isSome

/-- The verifier's answer, which says what was signed, is dropped. -/
def verifySignature (xml : String) (idpX509Cert : String) : Except SsoError Unit :=
  match env.verify xml.toUTF8 (normalizeX509Cert idpX509Cert) with
  | .ok _ => .ok ()
  | .error .invalidSignature =>
    .error (.samlAssertion "SAML response signature verification failed")
  | .error .valueError => .error (.samlAssertion "Invalid IdP X509 certificate")
  | .error (.other message) => .error (.verifier message)

def validateAudience (assertion : Document) (spEntityId : String) : Except SsoError Unit :=
  let audiences := (assertion.findAll (hasTag (samlTag "Audience"))).map Prod.snd
  if audiences = [] then .error (.samlAssertion "SAML assertion missing audience restriction")
  else if audiences.any (fun audience => truthy (lxmlText audience) = some spEntityId) then .ok ()
  else .error (.samlAssertion "SAML assertion audience does not match service provider")

/-- `value.replace("Z", "+00:00")`. -/
def zuluToOffset (value : String) : String :=
  String.ofList (value.toList.flatMap fun c => if c = 'Z' then "+00:00".toList else [c])

def parseSamlInstant (value : Option String) : Except SsoError (Option Int) :=
  match truthy value with
  | none => .ok none
  | some value =>
    match env.fromisoformat (zuluToOffset value) with
    | none => .error (.samlAssertion "Invalid SAML condition timestamp")
    | some instant => .ok (some instant)

def validateConditions (assertion : Document) (clockSkewSeconds : Nat) : Except SsoError Unit :=
  match (childrenTagged assertion (samlTag "Conditions")).head? with
  | none => .error (.samlAssertion "SAML assertion missing conditions")
  | some conditions => do
    let skew : Int := clockSkewSeconds * 1000000
    let notBefore ← parseSamlInstant env (attribute? conditions "NotBefore")
    let notOnOrAfter ← parseSamlInstant env (attribute? conditions "NotOnOrAfter")
    if notBefore.any (env.now + skew < ·) then
      .error (.samlAssertion "SAML assertion is not yet valid")
    else if notOnOrAfter.any (· < env.now - skew) then
      .error (.samlAssertion "SAML assertion has expired")
    else .ok ()

/-- `root.find(".//saml:Assertion")` of what a parser makes of the payload. -/
def firstAssertion (parsed : Option Document) : Except SsoError (Document × Document) :=
  match parsed with
  | none => .error (.samlAssertion "Invalid SAML XML payload")
  | some root =>
    match root.find isAssertion with
    | none => .error (.samlAssertion "SAML assertion not found in response")
    | some (_,assertion) => .ok (root,assertion)

def validateSamlResponse (samlResponse : String) (connection : SamlConnection)
    (requireSignature : Bool) (clockSkewSeconds : Nat) : Except SsoError Unit := do
  let xml ← normalizeSamlPayload env samlResponse
  let (root,assertion) ← firstAssertion (env.lxmlFromstring xml.toUTF8)
  validateAudience assertion connection.spEntityId
  validateConditions env assertion clockSkewSeconds
  if requireSignature then
    if hasXmlSignature root then verifySignature env xml connection.idpX509Cert
    else .error (.samlAssertion "SAML response signature is required")
  else .ok ()

def attributeValues (assertion : Document) (names : List String) : List String :=
  ((assertion.findAll (hasTag (samlTag "Attribute"))).map Prod.snd).flatMap fun node =>
    let attributeName := env.lower ((attribute? node "Name").getD "")
    let friendlyName := env.lower ((attribute? node "FriendlyName").getD "")
    if attributeName ∉ names ∧ friendlyName ∉ names then []
    else (childrenTagged node (samlTag "AttributeValue")).filterMap fun value =>
      (truthy (etreeText value)).map strip

def firstAttributeValue (assertion : Document) (names : List String) : Option String :=
  (attributeValues env assertion names).head?

/-- The first `saml:Subject/saml:NameID` with an address in it. -/
def nameIdEmail (assertion : Document) : Option String :=
  let nameIds := (childrenTagged assertion (samlTag "Subject")).flatMap
    (childrenTagged · (samlTag "NameID"))
  (nameIds.head?.bind etreeText).bind fun text =>
    if '@' ∈ text.toList then some (strip text) else none

/-- The identity that an assertion element states. -/
def readAssertion (assertion : Document) : Except SsoError SamlAssertion :=
  let email := (truthy (firstAttributeValue env assertion emailAttributeNames)).or
    (nameIdEmail assertion)
  match truthy email with
  | none => .error (.samlAssertion "SAML assertion missing email attribute")
  | some email =>
    let localPart := String.ofList (email.toList.takeWhile (· ≠ '@'))
    .ok {
      email := env.lower email
      fullName := (truthy (firstAttributeValue env assertion nameAttributeNames)).getD localPart
      groups := attributeValues env assertion groupAttributeNames }

def parseSamlAssertion (samlResponse : String) : Except SsoError SamlAssertion := do
  let xml ← normalizeSamlPayload env samlResponse
  let (_,assertion) ← firstAssertion (env.etreeFromstring xml)
  readAssertion env assertion

/-- The first mapped group that the caller has and whose role exists. -/
def resolveRoleFromMapping (groups : List String) (roleMappingRules : List (String × String))
    (defaultRole : OrgRole) : OrgRole :=
  let normalizedGroups := groups.map env.lower
  (roleMappingRules.findSome? fun (groupName,mappedRole) =>
    if env.lower groupName ∈ normalizedGroups then OrgRole.ofValue? mappedRole else none).getD
      defaultRole

end reading
end VoxForge.Sso
