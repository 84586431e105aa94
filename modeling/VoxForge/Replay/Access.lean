import VoxForge.Replay.Link
import Mathlib.Data.Bool.AllAny
import Mathlib.Logic.Equiv.List

/-! Access to replays, for every token a caller can send: what a link was signed for is
what it opens, and every other text is refused, up to text that the comparison of
signatures does not take. -/
namespace VoxForge.Replay
open Foundation Core

def urlsafe (c : Char) : Bool := c.isAlphanum || c = '-' || c = '_'

/-- A link that `generate` has signed, with the token that `token_urlsafe` drew for it. -/
structure Mint where
  subject : Subject
  raw : String
  drawn : raw.toList.all urlsafe

def Mint.token (mac : Mac) (settings : Settings) (mint : Mint) : String :=
  (generate mac settings mint.subject mint.raw).2

/-- What is assumed of the MAC: hexadecimal text, no collisions, and no forgery, that is,
a caller's token carries the MAC of a payload only if a link was signed for that payload. -/
structure SecureMac (mac : Mac) (settings : Settings) (minted : List Mint) (token : String) : Prop where
  digits : ∀ text, ∀ c ∈ (mac settings.signingSecret text).toList, c ∈ hexAlphabet
  collisionFree : Function.Injective (mac settings.signingSecret)
  unforged : ∀ subject raw, token = raw ++ "." ++ sign mac settings subject raw →
    ∃ mint ∈ minted, payload subject raw = payload mint.subject mint.raw

section signing
variable {mac : Mac} {settings : Settings} {minted : List Mint} {token : String}

theorem colon_notMem_uuidText (id : Nat) : ':' ∉ (uuidText id).toList := fun h =>
  (mem_uuidText h).elim (by decide) (by decide)

theorem payload_toList (subject : Subject) (raw : String) : (payload subject raw).toList =
    (uuidText subject.sessionId).toList ++ ':' :: ((uuidText subject.orgId).toList ++
      ':' :: ((uuidText subject.handoffId).toList ++ ':' :: raw.toList)) := by
  simp [payload]

/-- The fields of a payload end at its first three colons. -/
theorem payload_inj {s t : Subject} {a b : String} (h : payload s a = payload t b) : s = t ∧ a = b := by
  have hlist := congrArg String.toList h
  rw [payload_toList,payload_toList] at hlist
  obtain ⟨hsession,hlist⟩ := append_cons_inj (colon_notMem_uuidText _) (colon_notMem_uuidText _) hlist
  obtain ⟨horg,hlist⟩ := append_cons_inj (colon_notMem_uuidText _) (colon_notMem_uuidText _) hlist
  obtain ⟨hhandoff,hraw⟩ := append_cons_inj (colon_notMem_uuidText _) (colon_notMem_uuidText _) hlist
  have hids : s.sessionId = t.sessionId ∧ s.orgId = t.orgId ∧ s.handoffId = t.handoffId :=
    ⟨uuidText_injective (String.ext hsession),uuidText_injective (String.ext horg),
      uuidText_injective (String.ext hhandoff)⟩
  cases s
  cases t
  obtain ⟨rfl,rfl,rfl⟩ := hids
  exact ⟨rfl,String.ext hraw⟩

theorem isAscii_hex {text : String} (h : ∀ c ∈ text.toList, c ∈ hexAlphabet) : isAscii text := by
  have hall : ∀ c ∈ hexAlphabet, decide (c.toNat < 128) = true := List.all_eq_true.mp (by decide)
  exact List.all_eq_true.mpr fun c hc => hall c (h c hc)

theorem urlsafe_ascii {c : Char} (h : urlsafe c) : decide (c.toNat < 128) = true := by
  simp only [urlsafe,Char.isAlphanum,Char.isAlpha,Char.isUpper,Char.isLower,Char.isDigit,
    Bool.or_eq_true,Bool.and_eq_true,decide_eq_true_iff,ge_iff_le,UInt32.le_iff_toNat_le] at h
  rw [decide_eq_true_iff]
  rcases h with ((((⟨-,h⟩ | ⟨-,h⟩) | ⟨-,h⟩) | rfl) | rfl)
  · exact Nat.lt_of_le_of_lt h (by decide)
  · exact Nat.lt_of_le_of_lt h (by decide)
  · exact Nat.lt_of_le_of_lt h (by decide)
  · decide
  · decide

theorem compareDigest_ascii {a b : String} (ha : isAscii a) (hb : isAscii b) :
    compareDigest a b = .ok (a = b) := by
  simp [compareDigest,ha,hb]

theorem compareDigest_nonAscii {a b : String} (h : ¬(isAscii a ∧ isAscii b)) :
    compareDigest a b = .error (.typeError "comparing strings with non-ASCII characters is not supported") := by
  simpa [compareDigest] using h

theorem SecureMac.ascii (hmac : SecureMac mac settings minted token) (subject : Subject) (raw : String) :
    isAscii (sign mac settings subject raw) :=
  isAscii_hex (hmac.digits (payload subject raw))

/-- A signature that is no ASCII text is not compared at all. -/
theorem verify_nonAscii (mac : Mac) (settings : Settings) (subject : Subject) {t raw signature : String}
    (hsplit : rsplitOnce '.' t = some (raw,signature)) (hn : ¬isAscii signature) :
    ∃ message, verify mac settings subject t = .error (.typeError message) := by
  unfold verify
  rw [hsplit]
  exact ⟨_,compareDigest_nonAscii fun h => hn h.1⟩

/-- Otherwise a token is valid exactly if its signature is the one of its first part. -/
theorem verify_ascii (hmac : SecureMac mac settings minted token) {subject : Subject} {t : String}
    (ha : ∀ raw signature, rsplitOnce '.' t = some (raw,signature) → isAscii signature) :
    ∃ valid, verify mac settings subject t = .ok valid ∧
      (valid ↔ ∃ raw, t = raw ++ "." ++ sign mac settings subject raw) := by
  have hdot (raw : String) : '.' ∉ (sign mac settings subject raw).toList := fun h =>
    absurd (hmac.digits _ _ h) (by decide)
  unfold verify
  cases hsplit : rsplitOnce '.' t with
  | none =>
    refine ⟨false,rfl,⟨fun h => absurd h (by decide),?_⟩⟩
    rintro ⟨raw,rfl⟩
    exact absurd (by simp) (rsplitOnce_eq_none.mp hsplit)
  | some parts =>
    obtain ⟨raw,signature⟩ := parts
    refine ⟨_,compareDigest_ascii (ha raw signature hsplit) (hmac.ascii subject raw),?_⟩
    rw [decide_eq_true_iff]
    constructor
    · rintro rfl
      exact ⟨raw,(rsplitOnce_eq_some.mp hsplit).1⟩
    · rintro ⟨raw',rfl⟩
      obtain ⟨rfl,rfl⟩ := Prod.mk.inj (Option.some.inj (hsplit.symm.trans (rsplitOnce_append (hdot raw'))))
      rfl

theorem Mint.token_eq (mint : Mint) :
    mint.token mac settings = mint.raw ++ "." ++ sign mac settings mint.subject mint.raw := rfl

theorem Mint.token_split (hmac : SecureMac mac settings minted token) (mint : Mint) :
    rsplitOnce '.' (mint.token mac settings) =
      some (mint.raw,sign mac settings mint.subject mint.raw) :=
  rsplitOnce_append fun h => absurd (hmac.digits _ _ h) (by decide)

theorem isAscii_append {a b : String} : isAscii (a ++ b) ↔ isAscii a ∧ isAscii b := by
  simp [isAscii]

theorem Mint.isAscii_token (hmac : SecureMac mac settings minted token) (mint : Mint) :
    isAscii (mint.token mac settings) := by
  rw [mint.token_eq,isAscii_append,isAscii_append]
  refine ⟨⟨?_,by decide⟩,hmac.ascii mint.subject mint.raw⟩
  exact List.all_eq_true.mpr fun c hc => urlsafe_ascii (List.all_eq_true.mp mint.drawn c hc)

/-- A minted token verifies for a subject exactly if it was minted for it. -/
theorem Mint.verify_iff (hmac : SecureMac mac settings minted token) (mint : Mint) (subject : Subject) :
    verify mac settings subject (mint.token mac settings) = .ok (subject = mint.subject) := by
  unfold verify
  rw [mint.token_split hmac]
  refine (compareDigest_ascii (hmac.ascii _ _) (hmac.ascii _ _)).trans ?_
  congr 1
  rw [decide_eq_decide]
  constructor
  · intro h
    exact (payload_inj (hmac.collisionFree h)).1.symm
  · rintro rfl
    rfl

end signing

/-- The subject that a handoff's link is signed for. -/
def subjectOf (sessionId : SessionId) (handoff : HandoffRecord) : Subject where
  sessionId := sessionId
  orgId := handoff.orgId
  handoffId := handoff.id

section access
variable (mac : Mac) (settings : Settings) (minted : List Mint)
  (handoffs : Dict SessionId HandoffRecord) (now : Time) (request : Request)

/-- What a token must be to open the replay of a session with this handoff. -/
structure Opens (handoff : HandoffRecord) (token : String) : Prop where
  genuine : ∃ mint ∈ minted, mint.subject = subjectOf request.sessionId handoff ∧
    mint.token mac settings = token
  stored : ∀ stored, handoff.replayToken = some stored → stored ≠ "" → stored = token
  fresh : (now : Int) - handoff.createdAt ≤ settings.handoffReplayTokenTtlSeconds

/-- Access to a replay as it should be: a token opens what it was minted for, every other
token is refused with 403 or 404, and without one a principal needs `sessions:read`. -/
structure AccessControlled : Prop where
  granted : ∀ token orgId, request.replayToken = some token → token ≠ "" →
    resolveReplayOrgId mac settings handoffs now request = .ok orgId →
    ∃ handoff, handoffs.get? request.sessionId = some handoff ∧ orgId = handoff.orgId ∧
      Opens mac settings minted now request handoff token
  refused : ∀ token failure, request.replayToken = some token → token ≠ "" →
    resolveReplayOrgId mac settings handoffs now request = .error failure →
    ∃ detail, failure = .httpException 403 detail ∨ failure = .httpException 404 detail
  bound : ∀ mint : Mint, ∀ subject, subject ≠ mint.subject →
    verify mac settings subject (mint.token mac settings) = .ok false
  genuine : ∀ mint : Mint, verify mac settings mint.subject (mint.token mac settings) = .ok true
  principal : request.replayToken.getD "" = "" → ∀ orgId,
    resolveReplayOrgId mac settings handoffs now request = .ok orgId →
    ∃ principal, request.principal = some principal ∧ principal.hasScope "sessions:read" ∧
      orgId = principal.orgId

/-- The comparisons take the token: what follows its last dot is ASCII text, and where it
is a link minted for the handoff, so is the stored token. -/
def Comparable : Prop :=
  ∀ token handoff, request.replayToken = some token → token ≠ "" →
    handoffs.get? request.sessionId = some handoff →
    (∀ raw signature, rsplitOnce '.' token = some (raw,signature) → isAscii signature) ∧
    ((∃ mint ∈ minted, mint.subject = subjectOf request.sessionId handoff ∧
      mint.token mac settings = token) →
      ∀ stored, handoff.replayToken = some stored → isAscii stored)

end access

section resolution
variable {mac : Mac} {settings : Settings} {minted : List Mint}
  {handoffs : Dict SessionId HandoffRecord} {now : Time} {request : Request} {token : String}

/-- A comparison that has to succeed before the rest is looked at. -/
def demand (comparison : Except Failure Bool) (rest : Except Failure OrgId) : Except Failure OrgId :=
  comparison.bind fun same =>
    if same then rest else .error (.httpException 403 "Invalid replay token")

/-- A stored token is compared as it is; none, or the empty one, is not. -/
def storedCheck (handoff : HandoffRecord) (token : String) : Except Failure Bool :=
  if handoff.replayToken.getD "" ≠ "" then compareDigest (handoff.replayToken.getD "") token
  else .ok true

/-- The age check that ends the resolution of a token. -/
def ageCheck (settings : Settings) (handoff : HandoffRecord) (now : Time) : Except Failure OrgId :=
  if (now : Int) - handoff.createdAt > settings.handoffReplayTokenTtlSeconds then
    .error (.httpException 403 "Replay token expired")
  else .ok handoff.orgId

theorem resolve_token {handoff : HandoffRecord} (hr : request.replayToken = some token)
    (ht : token ≠ "") (hh : handoffs.get? request.sessionId = some handoff) :
    resolveReplayOrgId mac settings handoffs now request =
      demand (verify mac settings (subjectOf request.sessionId handoff) token)
        (demand (storedCheck handoff token) (ageCheck settings handoff now)) := by
  unfold resolveReplayOrgId storedCheck
  simp only [hr,Option.getD_some,hh,if_pos ht]
  cases hv : verify mac settings (subjectOf request.sessionId handoff) token with
  | error failure =>
    unfold subjectOf at hv
    rw [hv]
    rfl
  | ok valid =>
    unfold subjectOf at hv
    rw [hv]
    cases valid with
    | false => rfl
    | true =>
      by_cases hs : handoff.replayToken.getD "" ≠ ""
      · rw [if_pos hs]
        cases hc : compareDigest (handoff.replayToken.getD "") token with
        | error failure => simp only [if_pos hs]; rfl
        | ok same =>
          cases same with
          | false => simp only [if_pos hs]; rfl
          | true =>
            simp only [if_pos hs]
            unfold ageCheck
            split_ifs <;> rfl
      · simp only [if_neg hs]
        unfold ageCheck
        split_ifs <;> rfl

theorem resolve_unlinked (hr : request.replayToken = some token) (ht : token ≠ "")
    (hh : handoffs.get? request.sessionId = none) :
    resolveReplayOrgId mac settings handoffs now request =
      .error (.httpException 404 "Handoff not found for session") := by
  unfold resolveReplayOrgId
  simp only [hr,Option.getD_some,hh,if_pos ht]

/-- Without a token the answer is the principal's own organisation. -/
theorem resolve_principal (hr : request.replayToken.getD "" = "") {orgId : OrgId}
    (h : resolveReplayOrgId mac settings handoffs now request = .ok orgId) :
    ∃ principal, request.principal = some principal ∧ principal.hasScope "sessions:read" ∧
      orgId = principal.orgId := by
  unfold resolveReplayOrgId at h
  simp only [hr,ne_eq,not_true,if_false] at h
  cases hp : request.principal with
  | none => simp [hp] at h
  | some principal =>
    simp only [hp] at h
    by_cases hscope : principal.hasScope "sessions:read"
    · have hreq : requireScope principal "sessions:read" = .ok () := if_pos hscope
      rw [hreq] at h
      cases h
      exact ⟨principal,rfl,hscope,rfl⟩
    · have hreq : requireScope principal "sessions:read" =
          .error (.httpException 403 "Missing required scope: sessions:read") := if_neg hscope
      rw [hreq] at h
      cases h

/-- A demand is met with an organisation only if its comparison succeeds, and fails with
what the comparison or the rest fails with, or as an invalid token. -/
theorem demand_ok {comparison : Except Failure Bool} {rest : Except Failure OrgId} {orgId : OrgId} :
    demand comparison rest = .ok orgId ↔ comparison = .ok true ∧ rest = .ok orgId := by
  cases comparison with
  | error failure => simp [demand,Except.bind]
  | ok same => cases same <;> simp [demand,Except.bind]

theorem demand_error {comparison : Except Failure Bool} {rest : Except Failure OrgId} {failure : Failure}
    (h : demand comparison rest = .error failure) :
    comparison = .error failure ∨ failure = .httpException 403 "Invalid replay token" ∨
      comparison = .ok true ∧ rest = .error failure := by
  cases comparison with
  | error other => exact .inl (congrArg Except.error (Except.error.inj h))
  | ok same =>
    cases same with
    | false => exact .inr (.inl (Except.error.inj h).symm)
    | true => exact .inr (.inr ⟨rfl,h⟩)

theorem ageCheck_ok {handoff : HandoffRecord} {orgId : OrgId} :
    ageCheck settings handoff now = .ok orgId ↔
      (now : Int) - handoff.createdAt ≤ settings.handoffReplayTokenTtlSeconds ∧ orgId = handoff.orgId := by
  unfold ageCheck
  split_ifs with h
  · exact ⟨fun herr => (by cases herr),fun hle => absurd hle.1 (not_le.mpr h)⟩
  · simp [not_lt.mp h,eq_comm]

theorem ageCheck_error {handoff : HandoffRecord} {failure : Failure}
    (h : ageCheck settings handoff now = .error failure) :
    failure = .httpException 403 "Replay token expired" := by
  unfold ageCheck at h
  split_ifs at h
  exact (Except.error.inj h).symm

/-- A stored token that is ASCII text is compared with an ASCII token. -/
theorem storedCheck_ascii {handoff : HandoffRecord} (ht : isAscii token)
    (hs : ∀ stored, handoff.replayToken = some stored → isAscii stored) :
    storedCheck handoff token =
      .ok (decide (∀ stored, handoff.replayToken = some stored → stored ≠ "" → stored = token)) := by
  unfold storedCheck
  cases hr : handoff.replayToken with
  | none => simp
  | some stored =>
    rw [Option.getD_some]
    split_ifs with hne
    · rw [compareDigest_ascii (hs stored hr) ht]
      simp [hne]
    · simp [not_not.mp hne]

end resolution

/-- Under the assumptions on the MAC a token carries a valid signature for a subject
exactly if it was minted for it. -/
theorem valid_iff_minted {mac : Mac} {settings : Settings} {minted : List Mint} {token : String}
    (hmac : SecureMac mac settings minted token) (subject : Subject) :
    (∃ raw, token = raw ++ "." ++ sign mac settings subject raw) ↔
      ∃ mint ∈ minted, mint.subject = subject ∧ mint.token mac settings = token := by
  constructor
  · rintro ⟨raw,hraw⟩
    obtain ⟨mint,hm,hpayload⟩ := hmac.unforged subject raw hraw
    obtain ⟨hsubject,hrawEq⟩ := payload_inj hpayload
    refine ⟨mint,hm,hsubject.symm,?_⟩
    rw [mint.token_eq,← hsubject,← hrawEq,hraw]
  · rintro ⟨mint,-,rfl,rfl⟩
    exact ⟨mint.raw,mint.token_eq⟩

section comparable
variable {mac : Mac} {settings : Settings} {minted : List Mint}
  {handoffs : Dict SessionId HandoffRecord} {request : Request} {token : String} {handoff : HandoffRecord}

/-- Where the comparisons take the token, verification says whether it was minted for the handoff. -/
theorem Comparable.verified (h : Comparable mac settings minted handoffs request)
    (hmac : SecureMac mac settings minted token) (hr : request.replayToken = some token) (ht : token ≠ "")
    (hh : handoffs.get? request.sessionId = some handoff) :
    ∃ valid, verify mac settings (subjectOf request.sessionId handoff) token = .ok valid ∧
      (valid ↔ ∃ mint ∈ minted, mint.subject = subjectOf request.sessionId handoff ∧
        mint.token mac settings = token) := by
  obtain ⟨valid,hv,hiff⟩ := verify_ascii hmac (h token handoff hr ht hh).1
  exact ⟨valid,hv,hiff.trans (valid_iff_minted hmac _)⟩

theorem Comparable.genuine (h : Comparable mac settings minted handoffs request)
    (hmac : SecureMac mac settings minted token) (hr : request.replayToken = some token) (ht : token ≠ "")
    (hh : handoffs.get? request.sessionId = some handoff)
    (hv : verify mac settings (subjectOf request.sessionId handoff) token = .ok true) :
    ∃ mint ∈ minted, mint.subject = subjectOf request.sessionId handoff ∧ mint.token mac settings = token := by
  obtain ⟨valid,hv',hiff⟩ := h.verified hmac hr ht hh
  obtain rfl : valid = true := Except.ok.inj (hv'.symm.trans hv)
  exact hiff.mp rfl

/-- The stored token of a minted link can be compared, too. -/
theorem Comparable.stored (h : Comparable mac settings minted handoffs request)
    (hmac : SecureMac mac settings minted token) (hr : request.replayToken = some token) (ht : token ≠ "")
    (hh : handoffs.get? request.sessionId = some handoff)
    (hv : verify mac settings (subjectOf request.sessionId handoff) token = .ok true) :
    storedCheck handoff token =
      .ok (decide (∀ stored, handoff.replayToken = some stored → stored ≠ "" → stored = token)) := by
  have hminted := h.genuine hmac hr ht hh hv
  obtain ⟨mint,-,-,htoken⟩ := id hminted
  exact storedCheck_ascii (htoken ▸ mint.isAscii_token hmac) ((h token handoff hr ht hh).2 hminted)

end comparable

/-- Access is controlled exactly for the requests whose texts the comparisons take. -/
theorem access_controlled_iff (mac : Mac) (settings : Settings) (minted : List Mint)
    (handoffs : Dict SessionId HandoffRecord) (now : Time) (request : Request)
    (hmac : SecureMac mac settings minted (request.replayToken.getD "")) :
    AccessControlled mac settings minted handoffs now request ↔
      Comparable mac settings minted handoffs request := by
  constructor
  · intro h token handoff hr ht hh
    have htype (message : String) :
        resolveReplayOrgId mac settings handoffs now request ≠ .error (.typeError message) := by
      intro herr
      obtain ⟨detail,hd⟩ := h.refused token _ hr ht herr
      simp at hd
    rw [hr,Option.getD_some] at hmac
    have hresolve : resolveReplayOrgId mac settings handoffs now request = _ := resolve_token hr ht hh
    constructor
    · intro raw signature hsplit
      by_contra hn
      obtain ⟨message,hv⟩ := verify_nonAscii mac settings (subjectOf request.sessionId handoff) hsplit hn
      rw [hv] at hresolve
      exact htype message hresolve
    · rintro ⟨mint,-,hsubject,rfl⟩ stored hstored
      by_contra hn
      have hv := mint.verify_iff hmac (subjectOf request.sessionId handoff)
      rw [decide_eq_true hsubject.symm] at hv
      have hne : stored ≠ "" := by
        rintro rfl
        exact hn (by decide)
      have hcheck : storedCheck handoff (mint.token mac settings) =
          .error (.typeError "comparing strings with non-ASCII characters is not supported") := by
        unfold storedCheck
        rw [hstored,Option.getD_some,if_pos hne]
        exact compareDigest_nonAscii fun hboth => hn hboth.1
      rw [hv,hcheck] at hresolve
      exact htype _ hresolve
  · intro h
    have hsecure {token : String} (hr : request.replayToken = some token) : SecureMac mac settings minted token := by
      rwa [hr,Option.getD_some] at hmac
    refine ⟨?_,?_,fun mint subject hne => ?_,fun mint => ?_,fun hr orgId => resolve_principal hr⟩
    · intro token orgId hr ht hok
      cases hh : handoffs.get? request.sessionId with
      | none => rw [resolve_unlinked hr ht hh] at hok; cases hok
      | some handoff =>
        rw [resolve_token hr ht hh,demand_ok,demand_ok,ageCheck_ok] at hok
        obtain ⟨hv,hs,hage,rfl⟩ := hok
        rw [h.stored (hsecure hr) hr ht hh hv] at hs
        exact ⟨handoff,rfl,rfl,h.genuine (hsecure hr) hr ht hh hv,of_decide_eq_true (Except.ok.inj hs),hage⟩
    · intro token failure hr ht herr
      cases hh : handoffs.get? request.sessionId with
      | none =>
        rw [resolve_unlinked hr ht hh] at herr
        exact ⟨_,.inr (Except.error.inj herr).symm⟩
      | some handoff =>
        rw [resolve_token hr ht hh] at herr
        rcases demand_error herr with hv | rfl | ⟨hv,hrest⟩
        · obtain ⟨valid,hv',-⟩ := h.verified (hsecure hr) hr ht hh
          rw [hv'] at hv
          cases hv
        · exact ⟨_,.inl rfl⟩
        · rcases demand_error hrest with hs | rfl | ⟨-,hage⟩
          · rw [h.stored (hsecure hr) hr ht hh hv] at hs
            cases hs
          · exact ⟨_,.inl rfl⟩
          · exact ⟨_,.inl (ageCheck_error hage)⟩
    · rw [mint.verify_iff hmac,decide_eq_false hne]
    · rw [mint.verify_iff hmac,decide_eq_true rfl]

section sample

private def drawn : String := "q3JmZ0hTb2Jx-7dE_Y2NvbmZpZ3VyZTE"

private def subject : Subject := { sessionId := 1, orgId := 2, handoffId := 3 }

private def mint : Mint := { subject := subject, raw := drawn, drawn := by decide }

private def settings : Settings := { jwtSecretKey := "change-me" }

/-- The keyed hash of one payload, as SHA-256 computes it, among texts of other lengths. -/
private def mac : Mac := fun _ text =>
  if text = payload subject drawn then "c8e488ba1d88da05b3535775cf698f74"
  else String.ofList (List.replicate (33 + Encodable.encode (text.toList.map Char.toNat)) '0')

private theorem length_mac (secret text : String) (h : text ≠ payload subject drawn) :
    (mac secret text).length = 33 + Encodable.encode (text.toList.map Char.toNat) := by
  simp [mac,h]

private theorem mac_digits (secret text : String) : ∀ c ∈ (mac secret text).toList, c ∈ hexAlphabet := by
  intro c hc
  unfold mac at hc
  split_ifs at hc
  · have hall : ∀ d ∈ "c8e488ba1d88da05b3535775cf698f74".toList, d ∈ hexAlphabet :=
      List.all_iff_forall_prop.mp (by decide)
    exact hall c hc
  · rw [String.toList_ofList] at hc
    rw [List.eq_of_mem_replicate hc]
    decide

private theorem length_mac_subject (secret : String) : (mac secret (payload subject drawn)).length = 32 := by
  rw [mac,if_pos rfl]
  decide

private theorem mac_injective (secret : String) : Function.Injective (mac secret) := by
  intro a b h
  have hlength := congrArg String.length h
  by_cases ha : a = payload subject drawn
  · by_cases hb : b = payload subject drawn
    · rw [ha,hb]
    · rw [ha,length_mac_subject,length_mac secret b hb] at hlength
      omega
  · by_cases hb : b = payload subject drawn
    · rw [hb,length_mac_subject,length_mac secret a ha] at hlength
      omega
    · rw [length_mac secret a ha,length_mac secret b hb,Nat.add_left_cancel_iff] at hlength
      have htext := Encodable.encode_injective hlength
      exact String.ext (List.map_injective_iff.mpr (fun c d hcd => Char.toNat_inj.mp hcd) htext)

/-- The holder of a minted link. -/
private def holder : Request := { sessionId := 1, replayToken := some (mint.token mac settings) }

private def handoff : HandoffRecord where
  id := 3
  orgId := 2
  trigger := .userRequest
  triggerReason := ""
  replayToken := some (mint.token mac settings)
  createdAt := 100
  updatedAt := 100

private theorem secureMac_holder : SecureMac mac settings [mint] (holder.replayToken.getD "") where
  digits := mac_digits settings.signingSecret
  collisionFree := mac_injective settings.signingSecret
  unforged s raw h := by
    have hdot (text : String) : '.' ∉ (mac settings.signingSecret text).toList := fun hin =>
      absurd (mac_digits _ _ _ hin) (by decide)
    have hsplit : rsplitOnce '.' (mint.token mac settings) = some (raw,sign mac settings s raw) :=
      (congrArg (rsplitOnce '.') h).trans (rsplitOnce_append (hdot _))
    have hown : rsplitOnce '.' (mint.token mac settings) = some (drawn,sign mac settings subject drawn) :=
      rsplitOnce_append (hdot _)
    have hsign := (Prod.mk.inj (Option.some.inj (hsplit.symm.trans hown))).2
    have htexts : payload s raw = payload subject drawn := by
      apply mac_injective settings.signingSecret
      exact hsign
    exact ⟨mint,List.mem_singleton_self mint,htexts⟩

theorem holder_controlled :
    AccessControlled mac settings [mint] (Dict.empty.set 1 handoff) 200 holder := by
  refine (access_controlled_iff mac settings [mint] _ 200 holder secureMac_holder).mpr ?_
  intro token found hr ht hh
  obtain rfl : mint.token mac settings = token := Option.some.inj hr
  obtain rfl : handoff = found := by simpa [holder] using hh
  refine ⟨fun raw signature hsplit => ?_,fun _ stored hstored => ?_⟩
  · rw [mint.token_split secureMac_holder] at hsplit
    cases hsplit
    exact secureMac_holder.ascii _ _
  · cases hstored
    exact mint.isAscii_token secureMac_holder

/-- A caller without a link who sends a token with an accent in its signature. -/
private def accented : Request := { sessionId := 1, replayToken := some "x.é" }

theorem accented_token_unhandled : ¬∀ mac settings minted handoffs now request,
    SecureMac mac settings minted (request.replayToken.getD "") →
      AccessControlled mac settings minted handoffs now request := by
  intro h
  have hsplit : rsplitOnce '.' "x.é" = some ("x","é") := by decide
  have hmac : SecureMac mac settings [] (accented.replayToken.getD "") := by
    refine ⟨mac_digits _,mac_injective _,fun s raw htoken => ?_⟩
    have hdot : '.' ∉ (sign mac settings s raw).toList := fun hin =>
      absurd (mac_digits _ _ _ hin) (by decide)
    have hown : rsplitOnce '.' (raw ++ "." ++ sign mac settings s raw) =
        some (raw,sign mac settings s raw) := rsplitOnce_append hdot
    have hsign := hown.symm.trans ((congrArg (rsplitOnce '.') htoken).symm.trans hsplit)
    have hin : 'é' ∈ (sign mac settings s raw).toList := by
      rw [(Prod.mk.inj (Option.some.inj hsign)).2]
      decide
    exact absurd (mac_digits _ _ _ hin) (by decide)
  have hc := h mac settings [] (Dict.empty.set 1 handoff) 200 accented hmac
  obtain ⟨message,hv⟩ := verify_nonAscii mac settings (subjectOf 1 handoff) hsplit (by decide)
  have hresolve : resolveReplayOrgId mac settings (Dict.empty.set 1 handoff) 200 accented = _ :=
    resolve_token rfl (by decide) (by simp : (Dict.empty.set 1 handoff).get? 1 = some handoff)
  have hv' : verify mac settings (subjectOf accented.sessionId handoff) "x.é" =
      .error (.typeError message) := hv
  rw [hv'] at hresolve
  obtain ⟨detail,hd⟩ := hc.refused "x.é" _ rfl (by decide) hresolve
  simp at hd

end sample
end VoxForge.Replay
