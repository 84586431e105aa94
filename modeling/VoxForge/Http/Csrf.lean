import VoxForge.Auth.Service
import VoxForge.Foundation.Strategies

/-! The two readings of a request's credentials: the CSRF middleware, which judges whether a
session cookie stands alone, and the resolution of the principal, which may use it. -/
namespace VoxForge.Http
open Core Foundation Auth

/-- `str.lower` of a character of Latin-1, the encoding of headers. -/
def lowerChar (c : Char) : Char :=
  if (65 ≤ c.toNat ∧ c.toNat ≤ 90) ∨ (192 ≤ c.toNat ∧ c.toNat ≤ 222 ∧ c.toNat ≠ 215) then
    Char.ofNat (c.toNat + 32)
  else c

def lower (s : String) : String := String.ofList (s.toList.map lowerChar)

@[simp] theorem toList_lower (s : String) : (lower s).toList = s.toList.map lowerChar := by
  simp [lower]

/-- No other character is written as a space in lower case. -/
theorem lowerChar_eq_space {c : Char} : lowerChar c = ' ' ↔ c = ' ' := by
  constructor
  · intro h
    unfold lowerChar at h
    split at h
    · next hrange =>
      have hvalid : (c.toNat + 32).isValidChar := Or.inl (by omega)
      have hnat : (Char.ofNat (c.toNat + 32)).toNat = c.toNat + 32 := by
        rw [Char.ofNat,dif_pos hvalid]
        rfl
      have hspace : c.toNat + 32 = 32 := hnat ▸ congrArg Char.toNat h
      omega
    · exact h
  · rintro rfl
    decide

def isBlank (c : Char) : Bool := c = ' ' || c = '\t'

/-- The value of a header: Latin-1, with no white space around it. -/
structure HeaderValue where
  text : String
  latin1 : text.toList.all (·.toNat < 256) = true
  noSpaceBefore : text.toList.head?.any isBlank = false
  noSpaceAfter : text.toList.getLast?.any isBlank = false
  deriving DecidableEq, Repr

/-- Headers are looked up by their names in lower case, cookies by their names as they are. -/
structure Request where
  method : String
  path : String
  headers : String → Option HeaderValue
  cookies : String → Option String

/-- `request.headers.get(name, "")`; what is absent counts as empty wherever it is read. -/
def Request.header (request : Request) (name : String) : String :=
  ((request.headers (lower name)).map HeaderValue.text).getD ""

def Request.cookie (request : Request) (name : String) : String := (request.cookies name).getD ""

structure CookieSettings extends toAuthSettings : Auth.Settings where
  authCookiesEnabled : Bool := true
  authCookieName : String := "voxforge_access"
  authCsrfCookieName : String := "voxforge_csrf"
  authCsrfHeaderName : String := "X-CSRF-Token"
  deriving DecidableEq, Repr

/-! The middleware -/

def safeMethods : List String := ["GET","HEAD","OPTIONS","TRACE"]

def exemptSuffixes : List String := [
  "/api/v1/auth/login",
  "/api/v1/auth/register",
  "/api/v1/auth/refresh",
  "/api/v1/auth/logout",
  "/api/v1/auth/invites/accept",
  "/api/v1/demo/quickstart",
  "/api/v1/demo/speak",
  "/api/v1/demo/hear",
  "/api/v1/demo/chat",
  "/api/v1/demo/voice",
  "/api/v1/demo/trust-loop"]

def exemptContains : List String := ["/sso/saml/acs"]

def rstripSlash (path : String) : String := String.ofList (path.toList.rdropWhile (· = '/'))

def endsWith (text ending : String) : Bool := ending.toList.isSuffixOf text.toList

def startsWith (text start : String) : Bool := start.toList.isPrefixOf text.toList

def exempt (fullPath : String) : Bool :=
  let path := if rstripSlash fullPath = "" then "/" else rstripSlash fullPath
  (exemptSuffixes.any fun s => endsWith path (rstripSlash s) || path = s) ||
    exemptContains.any fun fragment => contains fragment path

inductive Response where
  | callNext
  | json (statusCode : Nat) (detail code : String)
  deriving DecidableEq, Repr

variable (settings : CookieSettings)

def dispatch (request : Request) : Response :=
  if !settings.authCookiesEnabled then .callNext
  else if request.method ∈ safeMethods then .callNext
  else if exempt request.path then .callNext
  else if startsWith (lower (request.header "authorization")) "bearer " then .callNext
  else if request.header "x-api-key" ≠ "" then .callNext
  else if request.cookie settings.authCookieName = "" then .callNext
  else
    let csrfCookie := request.cookie settings.authCsrfCookieName
    let csrfHeader := request.header settings.authCsrfHeaderName
    if csrfCookie = "" ∨ csrfHeader = "" ∨ csrfCookie ≠ csrfHeader then
      .json 403 "CSRF token missing or invalid" "csrf_failed"
    else .callNext

/-! The resolution -/

structure HTTPAuthorizationCredentials where
  scheme : String
  credentials : String
  deriving DecidableEq, Repr

/-- The framework's bearer scheme: which headers it takes credentials from. -/
structure HTTPBearer where
  call : Option HeaderValue → Option HTTPAuthorizationCredentials
  absent : call none = none
  yields : ∀ value, (call (some value)).isSome = true ↔
    ∃ scheme rest, value.text = scheme ++ " " ++ rest ∧ lower scheme = "bearer" ∧ rest ≠ ""
  nonempty : ∀ value credentials, call (some value) = some credentials → credentials.credentials ≠ ""

inductive ResolveOp where
  | resolvePrincipalFromBearer (token : String)
  | resolvePrincipalFromApiKey (rawKey : String)
  deriving DecidableEq, Repr

abbrev Resolving (α : Type) := Prog ResolveOp (fun _ => Principal) AuthError α

variable (bearerScheme : HTTPBearer) (request : Request)

/-- `credentials.credentials`, where there are credentials. -/
def bearerToken : String :=
  ((bearerScheme.call (request.headers "authorization")).map (·.credentials)).getD ""

def onUnauthorized {α : Type} (failed : String → Resolving α) : AuthError → Resolving α
  | .unauthorized message => failed message
  | e => .raise e

def attempt {α : Type} (found : Principal → α) (failed : String → Resolving α) (o : ResolveOp) : Resolving α :=
  (Prog.perform o >>= fun principal => pure (found principal)).tryCatch (onUnauthorized failed)

/-- What the two dependencies share: as what a principal is returned, and what becomes of an
`UnauthorizedError` and of a request that carries no credential. -/
def resolvePrincipal {α : Type} (found : Principal → α) (failed : String → Resolving α)
    (missing : Resolving α) : Resolving α :=
  if !settings.authRequired then
    if settings.appEnv = "production" then .raise (.http 500 "AUTH_REQUIRED must be enabled in production")
    else pure (found { userId := some 0x1, orgId := 0x10, role := some .owner })
  else if bearerToken bearerScheme request ≠ "" then
    attempt found failed (.resolvePrincipalFromBearer (bearerToken bearerScheme request))
  else if request.header "x-api-key" ≠ "" then
    attempt found failed (.resolvePrincipalFromApiKey (request.header "x-api-key"))
  else if request.cookie settings.authCookieName ≠ "" then
    attempt found failed (.resolvePrincipalFromBearer (request.cookie settings.authCookieName))
  else missing

def getOptionalPrincipal : Resolving (Option Principal) :=
  resolvePrincipal settings bearerScheme request some (fun _ => pure none) (pure none)

def getCurrentPrincipal : Resolving Principal :=
  resolvePrincipal settings bearerScheme request id (fun message => .raise (.http 401 message))
    (.raise (.http 401 "Authentication required"))

/-! Agreement -/

/-- The CSRF cookie and the CSRF header hold the same token. -/
def MatchingPair : Prop :=
  request.cookie settings.authCsrfCookieName ≠ "" ∧
    request.cookie settings.authCsrfCookieName = request.header settings.authCsrfHeaderName

/-- The session cookie is the credential of the request. -/
def OnCookie : Prop :=
  bearerToken bearerScheme request = "" ∧ request.header "x-api-key" = "" ∧
    request.cookie settings.authCookieName ≠ ""

def withoutSession : Request :=
  { request with cookies := fun name => if name = settings.authCookieName then none else request.cookies name }

variable {settings} {bearerScheme} {request}

/-- A trimmed value that goes on after `bearer ` has something there. -/
theorem startsWith_bearer (value : HeaderValue) :
    startsWith (lower value.text) "bearer " = true ↔
      ∃ scheme rest, value.text = scheme ++ " " ++ rest ∧ lower scheme = "bearer" ∧ rest ≠ "" := by
  constructor
  · intro h
    obtain ⟨tail,htail⟩ := List.isPrefixOf_iff_prefix.mp h
    rw [toList_lower] at htail
    obtain ⟨front,rest,hsplit,hfront,-⟩ := List.map_eq_append_iff.mp htail.symm
    have hbearer : front.map lowerChar = "bearer".toList ++ [' '] := hfront
    obtain ⟨scheme,space,rfl,hscheme,hspace⟩ := List.map_eq_append_iff.mp hbearer
    obtain ⟨c,rfl,hc⟩ := List.map_eq_singleton_iff.mp hspace
    obtain rfl := lowerChar_eq_space.mp hc
    refine ⟨String.ofList scheme,String.ofList rest,String.ext (by simpa using hsplit),
      String.ext (by simpa using hscheme),?_⟩
    intro hempty
    have hrest : rest = [] := by simpa using congrArg String.toList hempty
    have hlast : value.text.toList.getLast? = some ' ' := by simp [hsplit,hrest]
    have hblank := value.noSpaceAfter
    rw [hlast] at hblank
    exact absurd hblank (by decide)
  · rintro ⟨scheme,rest,htext,hscheme,-⟩
    refine List.isPrefixOf_iff_prefix.mpr ⟨rest.toList.map lowerChar,?_⟩
    have hletters : scheme.toList.map lowerChar = "bearer".toList := by
      rw [← toList_lower,hscheme]
    have hspace : lowerChar ' ' = ' ' := lowerChar_eq_space.mpr rfl
    simp [htext,hletters,hspace]

/-- The middleware sees a bearer token exactly where the framework's scheme does. -/
theorem bearerToken_ne_iff :
    bearerToken bearerScheme request ≠ "" ↔
      startsWith (lower (request.header "authorization")) "bearer " = true := by
  have hname : lower "authorization" = "authorization" := by decide
  unfold bearerToken Request.header
  rw [hname]
  cases request.headers "authorization" with
  | none =>
    rw [bearerScheme.absent]
    exact iff_of_false (fun h => h rfl) (by decide)
  | some value =>
    refine Iff.trans ?_ ((bearerScheme.yields value).trans (startsWith_bearer value).symm)
    cases hcall : bearerScheme.call (some value) with
    | none => simp
    | some credentials => simpa using bearerScheme.nonempty value credentials hcall

/-- The middleware lets a request through unless it protects it, the session cookie is its
credential, and no CSRF token comes with it. -/
theorem dispatch_eq_callNext_iff (bearerScheme : HTTPBearer) :
    dispatch settings request = .callNext ↔
      (settings.authCookiesEnabled = true → request.method ∉ safeMethods → exempt request.path = false →
        OnCookie settings bearerScheme request → MatchingPair settings request) := by
  have hbearer := @bearerToken_ne_iff bearerScheme request
  unfold dispatch OnCookie MatchingPair
  by_cases hcookies : settings.authCookiesEnabled = true
  case neg => simp [hcookies]
  by_cases hsafe : request.method ∈ safeMethods
  · simp [hsafe]
  by_cases hexempt : exempt request.path = true
  · simp [hexempt]
  by_cases hstarts : startsWith (lower (request.header "authorization")) "bearer " = true
  · simp [hstarts,hbearer.mpr hstarts]
  have htoken : bearerToken bearerScheme request = "" := by
    by_contra hne
    exact hstarts (hbearer.mp hne)
  by_cases hkey : request.header "x-api-key" = ""
  case neg => simp [hkey]
  by_cases hsession : request.cookie settings.authCookieName = ""
  · simp [hsession]
  rw [if_neg (by simp [hcookies]),if_neg hsafe,if_neg hexempt,if_neg hstarts,if_neg (not_not.mpr hkey),
    if_neg hsession]
  simp only [hcookies,hsafe,hexempt,htoken,hkey,hsession,ite_eq_right_iff,reduceCtorEq,imp_false,not_or,
    not_not,true_implies,not_false_eq_true,ne_eq,and_self]
  constructor
  · rintro ⟨hcookie,-,heq⟩
    exact ⟨hcookie,heq⟩
  · rintro ⟨hcookie,heq⟩
    exact ⟨hcookie,heq ▸ hcookie,heq⟩

/-- A resolution that does not get to the session cookie does not depend on it. -/
theorem resolvePrincipal_withoutSession {α : Type} {found : Principal → α} {failed : String → Resolving α}
    {missing : Resolving α} (h : ¬ OnCookie settings bearerScheme request) :
    resolvePrincipal settings bearerScheme request found failed missing =
      resolvePrincipal settings bearerScheme (withoutSession settings request) found failed missing := by
  have htoken : bearerToken bearerScheme (withoutSession settings request) =
      bearerToken bearerScheme request := rfl
  have hheader : (withoutSession settings request).header "x-api-key" = request.header "x-api-key" := rfl
  have hcookie : (withoutSession settings request).cookie settings.authCookieName = "" := by
    simp [withoutSession,Request.cookie]
  unfold resolvePrincipal
  rw [htoken,hheader,hcookie]
  by_cases hb : bearerToken bearerScheme request = ""
  case neg => simp [hb]
  by_cases hk : request.header "x-api-key" = ""
  case neg => simp [hk]
  have hempty : request.cookie settings.authCookieName = "" := by
    by_contra hne
    exact h ⟨hb,hk,hne⟩
  rw [hempty]

/-- The service's answers over the tables; `decode` reads the claims of a token. -/
def answer (env : Environment) (settings : CookieSettings) (store : Auth.Store) (now : Int)
    (decode : String → Sso.Tokens) : ResolveOp → Except AuthError Principal
  | .resolvePrincipalFromBearer token =>
    if decode token ∈ store.issued then .ok (principalFromAccessToken (decode token))
    else .error (.unauthorized "Invalid or expired token")
  | .resolvePrincipalFromApiKey rawKey =>
    resolvePrincipalFromApiKey env settings.toAuthSettings store now rawKey

/-- The credential that a request stands on. -/
def credential (settings : CookieSettings) (bearerScheme : HTTPBearer) (decode : String → Sso.Tokens)
    (request : Request) : Credential :=
  if bearerToken bearerScheme request ≠ "" then .bearer (decode (bearerToken bearerScheme request))
  else if request.header "x-api-key" ≠ "" then .apiKey (request.header "x-api-key")
  else if request.cookie settings.authCookieName ≠ "" then
    .bearer (decode (request.cookie settings.authCookieName))
  else .anonymous

private theorem play_attempt (reply : ResolveOp → Except AuthError Principal) (o : ResolveOp) :
    (Prog.play (fun _ => reply) (attempt id (fun message => .raise (.http 401 message)) o)).1 =
      match reply o with
      | .ok principal => .ok principal
      | .error (.unauthorized message) => .error (.http 401 message)
      | .error e => .error e := by
  unfold attempt Prog.play
  rw [Prog.exec_tryCatch,Prog.exec_bind,Prog.exec_perform]
  cases hreply : reply o with
  | ok principal => simp [Prog.consult,hreply,Prog.exec,pure]
  | error e => cases e <;> simp [Prog.consult,hreply,Prog.exec,onUnauthorized]

/-- Over the tables the resolution is that of the organisation API. -/
theorem getCurrentPrincipal_eq (env : Environment) (store : Auth.Store) (now : Int) (decode : String → Sso.Tokens) :
    (Prog.play (fun _ => answer env settings store now decode)
        (getCurrentPrincipal settings bearerScheme request)).1 =
      currentPrincipal env settings.toAuthSettings store now
        (credential settings bearerScheme decode request) := by
  unfold getCurrentPrincipal resolvePrincipal currentPrincipal credential
  cases hrequired : settings.authRequired with
  | false =>
    by_cases hproduction : settings.appEnv = "production"
    · simp [hproduction,Prog.play,Prog.exec]
    · simp only [Bool.not_false,if_true,if_neg hproduction]
      rfl
  | true =>
    simp only [Bool.not_true,Bool.false_eq_true,if_false]
    by_cases hb : bearerToken bearerScheme request ≠ ""
    · rw [if_pos hb,if_pos hb,play_attempt]
      unfold answer
      by_cases hissued : decode (bearerToken bearerScheme request) ∈ store.issued <;> simp [hissued]
    rw [if_neg hb,if_neg hb]
    by_cases hk : request.header "x-api-key" ≠ ""
    · rw [if_pos hk,if_pos hk,play_attempt]
      rfl
    rw [if_neg hk,if_neg hk]
    by_cases hc : request.cookie settings.authCookieName ≠ ""
    · rw [if_pos hc,if_pos hc,play_attempt]
      unfold answer
      by_cases hissued : decode (request.cookie settings.authCookieName) ∈ store.issued <;> simp [hissued]
    · rw [if_neg hc,if_neg hc]
      rfl

/-- What passes the middleware with no CSRF token is resolved as if it had no session cookie. -/
theorem csrf_agrees (settings : CookieSettings) (bearerScheme : HTTPBearer) (request : Request)
    (hcookies : settings.authCookiesEnabled = true) (hchanges : request.method ∉ safeMethods)
    (hpath : exempt request.path = false) (hpass : dispatch settings request = .callNext)
    (hpair : ¬ MatchingPair settings request) :
    getCurrentPrincipal settings bearerScheme request =
        getCurrentPrincipal settings bearerScheme (withoutSession settings request) ∧
      getOptionalPrincipal settings bearerScheme request =
        getOptionalPrincipal settings bearerScheme (withoutSession settings request) := by
  have hother : ¬ OnCookie settings bearerScheme request := fun hon =>
    hpair ((dispatch_eq_callNext_iff bearerScheme).mp hpass hcookies hchanges hpath hon)
  exact ⟨resolvePrincipal_withoutSession hother,resolvePrincipal_withoutSession hother⟩

/-- The framework's scheme splits a header at its first space. -/
def partitioned (value : HeaderValue) : Option HTTPAuthorizationCredentials :=
  let scheme := value.text.toList.takeWhile (· ≠ ' ')
  let rest := (value.text.toList.dropWhile (· ≠ ' ')).drop 1
  if scheme.map lowerChar = "bearer".toList ∧ rest ≠ [] then some ⟨String.ofList scheme,String.ofList rest⟩
  else none

private theorem dropWhile_ne_space {text : List Char} (h : (text.dropWhile (· ≠ ' ')).drop 1 ≠ []) :
    text.dropWhile (· ≠ ' ') = ' ' :: (text.dropWhile (· ≠ ' ')).drop 1 := by
  have hhead := List.head?_dropWhile_not (fun c : Char => decide (c ≠ ' ')) text
  cases hdrop : text.dropWhile (· ≠ ' ') with
  | nil => exact absurd (by rw [hdrop]; rfl) h
  | cons c rest =>
    rw [hdrop] at hhead
    have hc : c = ' ' := by simpa using hhead
    rw [hc]
    rfl

theorem partitioned_eq_some {value : HeaderValue} {credentials : HTTPAuthorizationCredentials} :
    partitioned value = some credentials ↔
      value.text = credentials.scheme ++ " " ++ credentials.credentials ∧
        lower credentials.scheme = "bearer" ∧ credentials.credentials ≠ "" := by
  unfold partitioned
  constructor
  · intro h
    obtain ⟨⟨hscheme,hrest⟩,hcred⟩ := Option.ite_none_right_eq_some.mp h
    obtain rfl := Option.some.inj hcred
    refine ⟨String.ext ?_,String.ext (by simpa using hscheme),fun hempty => hrest (by simpa using hempty)⟩
    calc value.text.toList
        = value.text.toList.takeWhile (· ≠ ' ') ++ value.text.toList.dropWhile (· ≠ ' ') :=
          List.takeWhile_append_dropWhile.symm
      _ = value.text.toList.takeWhile (· ≠ ' ') ++
            ' ' :: (value.text.toList.dropWhile (· ≠ ' ')).drop 1 := by rw [← dropWhile_ne_space hrest]
      _ = _ := by simp
  · rintro ⟨htext,hscheme,hrest⟩
    have hletters : credentials.scheme.toList.map lowerChar = "bearer".toList := by
      rw [← toList_lower,hscheme]
    have hspace : ∀ c ∈ credentials.scheme.toList, decide (c ≠ ' ') = true := by
      intro c hc
      have hmem : lowerChar c ∈ "bearer".toList := hletters ▸ List.mem_map_of_mem hc
      refine decide_eq_true ?_
      rintro rfl
      exact absurd hmem (by decide)
    have hsplit : value.text.toList = credentials.scheme.toList ++ ' ' :: credentials.credentials.toList := by
      simp [htext]
    rw [hsplit,List.takeWhile_append_of_pos hspace,List.dropWhile_append_of_pos hspace]
    have hne : credentials.credentials.toList ≠ [] := fun hnil => hrest (String.toList_eq_nil_iff.mp hnil)
    simp [hletters,hne]

def splitBearer : HTTPBearer where
  call header := header.bind partitioned
  absent := rfl
  yields value := by
    rw [Option.bind_some,Option.isSome_iff_exists]
    constructor
    · rintro ⟨credentials,h⟩
      exact ⟨_,_,partitioned_eq_some.mp h⟩
    · rintro ⟨scheme,rest,h⟩
      exact ⟨⟨scheme,rest⟩,partitioned_eq_some.mpr h⟩
  nonempty _ _ h := (partitioned_eq_some.mp h).2.2

/-- A page that sends its own bearer token beside the browser's session cookie. -/
def tokenRequest : Request where
  method := "POST"
  path := "/api/v1/sessions"
  headers name := if name = "authorization" then some ⟨"BEARER abc",by decide,by decide,by decide⟩ else none
  cookies name := if name = "voxforge_access" then some "session" else none

theorem bearer_beside_cookie :
    getCurrentPrincipal {} splitBearer tokenRequest =
        getCurrentPrincipal {} splitBearer (withoutSession {} tokenRequest) ∧
      getOptionalPrincipal {} splitBearer tokenRequest =
        getOptionalPrincipal {} splitBearer (withoutSession {} tokenRequest) :=
  csrf_agrees {} splitBearer tokenRequest rfl (by decide) (by decide +kernel) (by decide +kernel)
    (fun h => h.1 rfl)

end VoxForge.Http
