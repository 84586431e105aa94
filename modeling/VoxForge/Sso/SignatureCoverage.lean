import VoxForge.Sso.AssertionConsumer
import VoxForge.Foundation.Fallible

/-! What the signature covers. The verifier vouches for one element of the document that one
parser builds; the identity is read from the first assertion that a second parser finds. -/
namespace VoxForge.Sso
open Foundation Core

section coverage
variable (env : Environment) (uuid : String → Option Nat) (store : Store) (request : AcsRequest)

/-- The document of a posted response, as it is validated. -/
def postedDocument (samlResponse : String) : Option Document :=
  (normalizeSamlPayload env samlResponse).toOption.bind fun xml => env.lxmlFromstring xml.toUTF8

/-- The document of a posted response, as the identity is read from it. -/
def readDocument (samlResponse : String) : Option Document :=
  (normalizeSamlPayload env samlResponse).toOption.bind env.etreeFromstring

/-- The position of the element that the verifier vouches for under a connection's certificate. -/
def verifiedElement (samlResponse : String) (connection : SamlConnection) : Option Position :=
  (normalizeSamlPayload env samlResponse).toOption.bind fun xml =>
    (env.verify xml.toUTF8 (normalizeX509Cert connection.idpX509Cert)).toOption

/-- The assertion that is checked stands within the verified element, it is also the one
that is read, and the user and the role are those it states. -/
structure IdentitySigned (settings : Settings) (answer : AcsAnswer) (after : Store)
    (connection : SamlConnection) (root parsed signed assertion : Document) (v r : Position) : Prop where
  resolved : store.resolveAcsConnection uuid request = .ok connection
  posted : postedDocument env request.samlResponse = some root
  readAs : readDocument env request.samlResponse = some parsed
  verified : verifiedElement env request.samlResponse connection = some v
  signed_at : root.at? v = some signed
  within : signed.at? r = some assertion
  checked : root.find isAssertion = some (v ++ r,assertion)
  read : parsed.find isAssertion = some (v ++ r,assertion)
  audience : validateAudience assertion connection.spEntityId = .ok ()
  conditions : validateConditions env assertion settings.samlClockSkewSeconds = .ok ()
  identity : ∃ identity, readAssertion env assertion = .ok identity ∧
    (∃ user ∈ after.users, user.id = answer.userId ∧ user.email = identity.email) ∧
    answer.role = resolveRoleFromMapping env identity.groups connection.roleMappingRules
      connection.defaultRole

/-- No assertion precedes the verified element, in document order and counting the
elements around it, and the verified element is or contains an assertion. -/
def SignedFirst : Prop :=
  ∀ connection root v, store.resolveAcsConnection uuid request = .ok connection →
    postedDocument env request.samlResponse = some root →
    verifiedElement env request.samlResponse connection = some v →
    (∃ f ∈ root.findAll isAssertion, v <+: f.1) ∧ ∀ f ∈ root.findAll isAssertion, ¬f.1 < v

/-- The first assertion of both documents is one element, with the same content. -/
def ReadAlike : Prop :=
  ∀ root parsed, postedDocument env request.samlResponse = some root →
    readDocument env request.samlResponse = some parsed → parsed.find isAssertion = root.find isAssertion

end coverage

theorem firstAssertion_ok {parsed : Option Document} {root assertion : Document}
    (h : firstAssertion parsed = .ok (root,assertion)) :
    parsed = some root ∧ ∃ q, root.find isAssertion = some (q,assertion) := by
  unfold firstAssertion at h
  cases parsed with
  | none => cases h
  | some doc =>
    cases hf : doc.find isAssertion with
    | none => simp [hf] at h
    | some e =>
      obtain ⟨q,el⟩ := e
      simp only [hf,Except.ok.injEq,Prod.mk.injEq] at h
      obtain ⟨rfl,rfl⟩ := h
      exact ⟨rfl,q,hf⟩

theorem verifySignature_ok {env : Environment} {xml cert : String}
    (h : verifySignature env xml cert = .ok ()) :
    ∃ v, env.verify xml.toUTF8 (normalizeX509Cert cert) = .ok v := by
  unfold verifySignature at h
  split at h
  · exact ⟨_,‹_›⟩
  all_goals cases h

theorem validateSamlResponse_ok {env : Environment} {samlResponse : String}
    {connection : SamlConnection} {clockSkewSeconds : Nat}
    (h : validateSamlResponse env samlResponse connection true clockSkewSeconds = .ok ()) :
    ∃ xml root assertion v, normalizeSamlPayload env samlResponse = .ok xml ∧
      firstAssertion (env.lxmlFromstring xml.toUTF8) = .ok (root,assertion) ∧
      validateAudience assertion connection.spEntityId = .ok () ∧
      validateConditions env assertion clockSkewSeconds = .ok () ∧
      env.verify xml.toUTF8 (normalizeX509Cert connection.idpX509Cert) = .ok v := by
  obtain ⟨xml,hxml,h⟩ := bind_eq_ok.mp h
  obtain ⟨⟨root,assertion⟩,hfirst,h⟩ := bind_eq_ok.mp h
  obtain ⟨_,haud,h⟩ := bind_eq_ok.mp h
  obtain ⟨_,hcond,h⟩ := bind_eq_ok.mp h
  rw [if_pos rfl] at h
  split_ifs at h with hsig
  obtain ⟨v,hv⟩ := verifySignature_ok h
  exact ⟨xml,root,assertion,v,hxml,hfirst,haud,hcond,hv⟩

theorem parseSamlAssertion_ok {env : Environment} {samlResponse : String} {identity : SamlAssertion}
    (h : parseSamlAssertion env samlResponse = .ok identity) :
    ∃ xml root assertion, normalizeSamlPayload env samlResponse = .ok xml ∧
      firstAssertion (env.etreeFromstring xml) = .ok (root,assertion) ∧ readAssertion env assertion = .ok identity := by
  obtain ⟨xml,hxml,h⟩ := bind_eq_ok.mp h
  obtain ⟨⟨root,assertion⟩,hfirst,h⟩ := bind_eq_ok.mp h
  exact ⟨xml,root,assertion,hxml,hfirst,h⟩

/-- An accepted response: the checks concern the first assertion of the one document, the
identity that of the other, and some element was verified. -/
theorem consumeAcs_ok {env : Environment} {uuid : String → Option Nat} {settings : Settings}
    {store after : Store} {request : AcsRequest} {answer : AcsAnswer}
    (h : consumeAcs env uuid settings store request = .ok (answer,after))
    (hs : settings.samlRequireSignedAssertions = true) :
    ∃ connection root parsed v q q' assertion assertion' identity,
      store.resolveAcsConnection uuid request = .ok connection ∧
      postedDocument env request.samlResponse = some root ∧
      readDocument env request.samlResponse = some parsed ∧
      verifiedElement env request.samlResponse connection = some v ∧
      root.find isAssertion = some (q,assertion) ∧
      parsed.find isAssertion = some (q',assertion') ∧
      validateAudience assertion connection.spEntityId = .ok () ∧
      validateConditions env assertion settings.samlClockSkewSeconds = .ok () ∧
      readAssertion env assertion' = .ok identity ∧
      (∃ user ∈ after.users, user.id = answer.userId ∧ user.email = identity.email) ∧
      answer.role = resolveRoleFromMapping env identity.groups connection.roleMappingRules
        connection.defaultRole := by
  obtain ⟨connection,hconn,h⟩ := bind_eq_ok.mp h
  obtain ⟨_,hval,h⟩ := bind_eq_ok.mp h
  obtain ⟨identity,hparse,h⟩ := bind_eq_ok.mp h
  rw [hs] at hval
  obtain ⟨xml,root,assertion,v,hxml,hfirst,haud,hcond,hv⟩ := validateSamlResponse_ok hval
  obtain ⟨xml',parsed,assertion',hxml',hfirst',hread⟩ := parseSamlAssertion_ok hparse
  obtain rfl : xml = xml' := by simpa [hxml] using hxml'
  obtain ⟨hdoc,q,hq⟩ := firstAssertion_ok hfirst
  obtain ⟨hdoc',q',hq'⟩ := firstAssertion_ok hfirst'
  obtain ⟨hemail,hmem⟩ := store.provision_email request.orgId identity
  have hpair := Except.ok.inj h
  obtain ⟨rfl,rfl⟩ := Prod.mk.inj hpair
  refine ⟨connection,root,parsed,v,q,q',assertion,assertion',identity,hconn,?_,?_,?_,hq,hq',haud,hcond,hread,?_,rfl⟩
  · rw [postedDocument,hxml]
    exact hdoc
  · rw [readDocument,hxml]
    exact hdoc'
  · rw [verifiedElement,hxml]
    exact congrArg Except.toOption hv
  · exact ⟨_,hmem,rfl,hemail⟩

/-- For an accepted response, with signatures required: the element whose audience
is checked and whose identity is used is the verified element or lies inside it
exactly when no assertion stands before the verified element, it has one, and the two
parsers find the same first assertion. -/
theorem identity_signed_iff (env : Environment) (uuid : String → Option Nat) (settings : Settings)
    (store after : Store) (request : AcsRequest) (answer : AcsAnswer)
    (haccept : consumeAcs env uuid settings store request = .ok (answer,after))
    (hsigned : settings.samlRequireSignedAssertions = true) :
    (∃ connection root parsed signed assertion v r,
      IdentitySigned env uuid store request settings answer after connection root parsed signed assertion v r) ↔
      SignedFirst env uuid store request ∧ ReadAlike env request := by
  obtain ⟨connection,root,parsed,v,q,q',assertion,assertion',identity,hconn,hpost,hparse,hver,hfind,hfind',haud,
    hcond,hread,huser,hrole⟩ := consumeAcs_ok haccept hsigned
  constructor
  · rintro ⟨connection',root',parsed',signed,assertion'',v',r,h⟩
    refine ⟨?_,?_⟩
    · intro connection'' root'' v'' hc hp hv
      obtain rfl : connection'' = connection' := by simpa [h.resolved] using hc.symm
      obtain rfl : root'' = root' := by simpa [h.posted] using hp.symm
      obtain rfl : v'' = v' := by simpa [h.verified] using hv.symm
      exact (Tree.find_within_iff h.checked v'').mp (List.prefix_append v'' r)
    · intro root'' parsed'' hp hr
      obtain rfl : root'' = root' := by simpa [h.posted] using hp.symm
      obtain rfl : parsed'' = parsed' := by simpa [h.readAs] using hr.symm
      rw [h.read,h.checked]
  · rintro ⟨hfirst,halike⟩
    obtain ⟨r,rfl⟩ := (Tree.find_within_iff hfind v).mpr (hfirst connection root v hconn hpost hver)
    have hat : root.at? (v ++ r) = some assertion :=
      root.at?_of_mem_descendants _ (Tree.mem_findAll.mp (Tree.find_least hfind).1).1
    rw [Tree.at?_append] at hat
    obtain ⟨signed,hsig,hin⟩ := Option.bind_eq_some_iff.mp hat
    have hsame : parsed.find isAssertion = some (v ++ r,assertion) := (halike root parsed hpost hparse).trans hfind
    obtain ⟨-,rfl⟩ := Prod.mk.inj (Option.some.inj (hfind'.symm.trans hsame))
    exact ⟨connection,root,parsed,signed,_,v,r,hconn,hpost,hparse,hver,hsig,hin,hfind,hsame,haud,hcond,
      ⟨identity,hread,huser,hrole⟩⟩

/-! An identity provider's signed response, and the same response with an assertion
of the sender's own put before the signed one. -/
section samples

private def element (name : String) (attributes : List (String × String)) (children : List Document) :
    Document := .node (.element (samlTag name) attributes) children

private def leaf (name text : String) : Document := element name [] [.node (.text text) []]

private def sampleAttribute (name value : String) : Document :=
  element "Attribute" [("Name",name)] [leaf "AttributeValue" value]

/-- An assertion of an address and a group, for the audience `voxforge-sp`. -/
def sampleAssertion (email group : String) (signature : List Document) : Document :=
  element "Assertion" [] (signature ++ [
    element "Conditions" [("NotBefore","2024-01-01T00:00:00Z")]
      [element "AudienceRestriction" [] [leaf "Audience" "voxforge-sp"]],
    element "AttributeStatement" [] [sampleAttribute "email" email,sampleAttribute "groups" group]])

def sampleSignature : Document := .node (.element signatureTag []) []

def signedAssertion : Document := sampleAssertion "member@example.com" "staff" [sampleSignature]

def sampleResponse (assertions : List Document) : Document :=
  .node (.element "\x7burn:oasis:names:tc:SAML:2.0:protocol\x7dResponse" []) assertions

private def sampleAssertionXml (email group signature : String) : String :=
  "<saml:Assertion>" ++ signature ++ "<saml:Conditions NotBefore=\"2024-01-01T00:00:00Z\">" ++
  "<saml:AudienceRestriction><saml:Audience>voxforge-sp</saml:Audience></saml:AudienceRestriction>" ++
  "</saml:Conditions><saml:AttributeStatement><saml:Attribute Name=\"email\"><saml:AttributeValue>" ++
  email ++ "</saml:AttributeValue></saml:Attribute><saml:Attribute Name=\"groups\">" ++
  "<saml:AttributeValue>" ++ group ++
  "</saml:AttributeValue></saml:Attribute></saml:AttributeStatement></saml:Assertion>"

private def enclosed (body : String) : String := '<'.toString ++ body ++ '>'.toString

private def sampleXml (assertions : String) : String :=
  enclosed ("samlp:Response xmlns:samlp=\"urn:oasis:names:tc:SAML:2.0:protocol\" " ++
  "xmlns:saml=\"urn:oasis:names:tc:SAML:2.0:assertion\" " ++
  "xmlns:ds=\"http://www.w3.org/2000/09/xmldsig#\">" ++ assertions ++ "</samlp:Response")

/-- An assertion of the sender's own: the address of another user and a mapped group. -/
def forgedAssertion : Document := sampleAssertion "owner@example.com" "admins" []

private def forgedXml : String := sampleAssertionXml "owner@example.com" "admins" ""

private def signedXml : String := sampleAssertionXml "member@example.com" "staff" "<ds:Signature/>"

/-- What parsers and verifier answer for one document, whose element at `signed` is signed. -/
private def sampleEnvironment (document : Document) (signed : Position) : Environment where
  b64decode _ := none
  lxmlFromstring _ := some document
  etreeFromstring _ := some document
  verify _ _ := .ok signed
  fromisoformat text := if text = "2024-01-01T00:00:00+00:00" then some 1704067200000000 else none
  lower text := String.ofList (text.toList.map Char.toLower)
  now := 1704067260000000

private def sampleStore : Store where
  connections := [{
    id := 1
    orgId := 1
    status := .active
    idpX509Cert := "-----BEGIN CERTIFICATE-----"
    spEntityId := "voxforge-sp"
    defaultRole := .member
    roleMappingRules := [("admins","admin")] }]
  users := [{ id := 1, email := "owner@example.com", fullName := "owner" }]
  members := [{ orgId := 1, userId := 1, role := .owner }]
  nextUserId := 2

private def postTo (samlResponse : String) : AcsRequest := { orgId := 1, samlResponse }

private theorem sample_payload (env : Environment) (body : String) :
    normalizeSamlPayload env (enclosed body) = .ok (enclosed body) := by
  have hstrip : strip (enclosed body) = enclosed body := strip_enclosed _ (by decide) (by decide)
  have hhead : (enclosed body).toList.head? = some '<' := by simp [enclosed]
  simp [normalizeSamlPayload,hstrip,hhead]

/-- What is posted matters only through the document it parses to. -/
private theorem sample_consume (body : String) (document : Document) (signed : Position) :
    consumeAcs (sampleEnvironment document signed) (fun _ => none) {} sampleStore
        (postTo (enclosed body)) =
      consumeAcs (sampleEnvironment document signed) (fun _ => none) {} sampleStore (postTo "<") := by
  have hshort (env : Environment) : normalizeSamlPayload env "<" = .ok "<" := by
    have hstrip : strip "<" = "<" := by decide +kernel
    simp [normalizeSamlPayload,hstrip]
  simp only [consumeAcs,validateSamlResponse,parseSamlAssertion,postTo,sample_payload,hshort]
  rfl

private theorem sample_reads (body : String) (document : Document) (signed : Position) :
    postedDocument (sampleEnvironment document signed) (enclosed body) = some document ∧
      readDocument (sampleEnvironment document signed) (enclosed body) = some document ∧
      ∀ connection, verifiedElement (sampleEnvironment document signed) (enclosed body) connection =
        some signed := by
  simp [postedDocument,readDocument,verifiedElement,sample_payload,sampleEnvironment,Except.toOption]

private theorem sample_accepted (body : String) (document : Document) (signed : Position)
    (answer : AcsAnswer)
    (h : (consumeAcs (sampleEnvironment document signed) (fun _ => none) {} sampleStore
      (postTo "<")).toOption.map Prod.fst = some answer) :
    ∃ after, consumeAcs (sampleEnvironment document signed) (fun _ => none) {} sampleStore
      (postTo (enclosed body)) = .ok (answer,after) := by
  rw [sample_consume]
  cases hc : consumeAcs (sampleEnvironment document signed) (fun _ => none) {} sampleStore
      (postTo "<") with
  | error e => simp [hc,Except.toOption] at h
  | ok result =>
    obtain ⟨found,after⟩ := result
    obtain rfl : found = answer := by simpa [hc,Except.toOption] using h
    exact ⟨after,rfl⟩

/-- The provider's own response passes, and its assertion is the signed one. -/
theorem signed_response_covered :
    ∃ answer after connection root parsed signed assertion v r,
      IdentitySigned (sampleEnvironment (sampleResponse [signedAssertion]) [0]) (fun _ => none)
        sampleStore (postTo (sampleXml signedXml)) {} answer after connection root parsed signed assertion
        v r := by
  obtain ⟨after,haccept⟩ := sample_accepted _ (sampleResponse [signedAssertion]) [0]
    ⟨2,1,.member,⟨2,1,.member⟩⟩ (by decide +kernel)
  obtain ⟨hpost,hparse,hver⟩ := sample_reads _ (sampleResponse [signedAssertion]) [0]
  refine ⟨_,after,(identity_signed_iff _ _ _ _ _ _ _ haccept rfl).mpr ⟨?_,?_⟩⟩
  · intro connection root v hc hp hv
    obtain rfl := Option.some.inj (hp.symm.trans hpost)
    obtain rfl := Option.some.inj (hv.symm.trans (hver connection))
    decide +kernel
  · intro root parsed hp hr
    rw [Option.some.inj (hr.symm.trans hparse),Option.some.inj (hp.symm.trans hpost)]

/-- With an unsigned assertion put before the signed one, the response is accepted and
the unsigned one names the user and the role. -/
theorem forged_assertion_accepted :
    ∃ after,
      consumeAcs (sampleEnvironment (sampleResponse [forgedAssertion,signedAssertion]) [1])
        (fun _ => none) {} sampleStore (postTo (sampleXml (forgedXml ++ signedXml))) =
          .ok (⟨1,1,.admin,⟨1,1,.admin⟩⟩,after) ∧
      ¬∃ connection root parsed signed assertion v r,
        IdentitySigned (sampleEnvironment (sampleResponse [forgedAssertion,signedAssertion]) [1])
          (fun _ => none) sampleStore (postTo (sampleXml (forgedXml ++ signedXml))) {}
          ⟨1,1,.admin,⟨1,1,.admin⟩⟩ after connection root parsed signed assertion v r := by
  obtain ⟨after,haccept⟩ := sample_accepted _ (sampleResponse [forgedAssertion,signedAssertion]) [1]
    ⟨1,1,.admin,⟨1,1,.admin⟩⟩ (by decide +kernel)
  refine ⟨after,haccept,?_⟩
  rintro ⟨connection,root,parsed,signed,assertion,v,r,h⟩
  obtain ⟨hpost,-,hver⟩ := sample_reads _ (sampleResponse [forgedAssertion,signedAssertion]) [1]
  obtain rfl := Option.some.inj (h.posted.symm.trans hpost)
  obtain rfl := Option.some.inj (h.verified.symm.trans (hver connection))
  have hbefore := ((Tree.find_within_iff h.checked [1]).mp (List.prefix_append [1] r)).2
  revert hbefore
  decide +kernel

end samples

end VoxForge.Sso
