import VoxForge.Foundation.Pieces
import VoxForge.Observability.Redaction

/-! Which secrets are hidden from the logs, and where in an event. -/
namespace VoxForge.Observability
open Foundation Core Redaction

def rawKey (rawSuffix : String) : String := "vxf_" ++ rawSuffix

/-- `accept_url` of an invite; `publicBaseUrl` is a setting. -/
def acceptUrl (publicBaseUrl rawToken : String) : String :=
  let base := String.ofList (publicBaseUrl.toList.rdropWhile (· = '/'))
  (if base = "" then "http://localhost:8000" else base) ++ "/dashboard?invite=" ++ rawToken

/-- The secrets: API keys, access and refresh tokens, invite tokens and their URLs. -/
inductive Secret : String → Prop
  | apiKey {rawSuffix : String} (h : ∀ c ∈ rawSuffix.toList, urlsafe c = true) : Secret (rawKey rawSuffix)
  | token {header payload signature : String}
      (h : ∀ part ∈ [header,payload,signature], part ≠ "" ∧ ∀ c ∈ part.toList, urlsafe c = true) :
    Secret ("eyJ" ++ header ++ ".eyJ" ++ payload ++ "." ++ signature)
  | invite {rawToken : String} (h : ∀ c ∈ rawToken.toList, urlsafe c = true) : Secret rawToken
  | acceptUrl {rawToken : String} (publicBaseUrl : String) (h : ∀ c ∈ rawToken.toList, urlsafe c = true) :
    Secret (acceptUrl publicBaseUrl rawToken)

mutual

/-- The texts of a value, each with whether sanitization reaches it. -/
def places (reached : Bool) : LogValue → List (Bool × String)
  | .str value => [(reached,value)]
  | .dict entries => entryPlaces reached entries
  | .list items => itemPlaces reached items
  | .tuple items => itemPlaces false items
  | .other => []

def entryPlaces (reached : Bool) : List (String × LogValue) → List (Bool × String)
  | [] => []
  | (key,value) :: rest => (false,key) :: (places reached value ++ entryPlaces reached rest)

def itemPlaces (reached : Bool) : List LogValue → List (Bool × String)
  | [] => []
  | item :: rest => places reached item ++ itemPlaces reached rest

end

mutual

/-- The value with other strings where sanitization reaches them. -/
def fillValue (fill : String → String) : LogValue → LogValue
  | .str value => .str (fill value)
  | .dict entries => .dict (fillEntries fill entries)
  | .list items => .list (fillItems fill items)
  | .tuple items => .tuple items
  | .other => .other

def fillEntries (fill : String → String) : List (String × LogValue) → List (String × LogValue)
  | [] => []
  | (key,value) :: rest => (key,fillValue fill value) :: fillEntries fill rest

def fillItems (fill : String → String) : List LogValue → List LogValue
  | [] => []
  | item :: rest => fillValue fill item :: fillItems fill rest

end

/-- The secret stands somewhere in an event, in a string or a key. -/
def Occurs (secret : String) (event : List (String × LogValue)) : Prop :=
  ∃ place ∈ entryPlaces true event, contains secret place.2 = true

/-- The secret stands in a key or in a tuple. -/
def OccursUnreached (secret : String) (event : List (String × LogValue)) : Prop :=
  ∃ place ∈ entryPlaces true event, place.1 = false ∧ contains secret place.2 = true

/-- A pattern matches within the secret, and not just what is redacted already. -/
def Redactable (secret : String) : Prop :=
  ∃ r ∈ patterns, ∃ u out rest, u <:+ secret.toList ∧ r.rule u = some (out,rest) ∧ u ≠ out ++ rest

/-- The secret is read in a string once the four patterns are through with it. -/
def Shown (secret text : String) : Prop :=
  (∃ front back, text.toList = front ++ (secret.toList ++ back) ∧ Escapes secret.toList patterns front back) ∨
    Arises secret.toList patterns text.toList

/-- The secret is shown in a string that sanitization reaches. -/
def OccursShown (secret : String) (event : List (String × LogValue)) : Prop :=
  ∃ place ∈ entryPlaces true event, place.1 = true ∧ Shown secret place.2

section events

mutual

theorem sanitizeValue_eq (v : LogValue) : sanitizeValue v = fillValue sanitizeString v := by
  cases v with
  | str value => rfl
  | dict entries => rw [sanitizeValue,fillValue,sanitizeEntries_eq entries]
  | list items => rw [sanitizeValue,fillValue,sanitizeItems_eq items]
  | tuple items => rfl
  | other => rfl

theorem sanitizeEntries_eq (entries : List (String × LogValue)) :
    sanitizeEntries entries = fillEntries sanitizeString entries := by
  cases entries with
  | nil => rfl
  | cons entry rest => rw [sanitizeEntries,fillEntries,sanitizeValue_eq entry.2,sanitizeEntries_eq rest]

theorem sanitizeItems_eq (items : List LogValue) : sanitizeItems items = fillItems sanitizeString items := by
  cases items with
  | nil => rfl
  | cons item rest => rw [sanitizeItems,fillItems,sanitizeValue_eq item,sanitizeItems_eq rest]

end

mutual

theorem fillValue_fill (f g : String → String) (v : LogValue) :
    fillValue g (fillValue f v) = fillValue (g ∘ f) v := by
  cases v with
  | str value => rfl
  | dict entries => rw [fillValue,fillValue,fillValue,fillEntries_fill f g entries]
  | list items => rw [fillValue,fillValue,fillValue,fillItems_fill f g items]
  | tuple items => rfl
  | other => rfl

theorem fillEntries_fill (f g : String → String) (entries : List (String × LogValue)) :
    fillEntries g (fillEntries f entries) = fillEntries (g ∘ f) entries := by
  cases entries with
  | nil => rfl
  | cons entry rest =>
    rw [fillEntries,fillEntries,fillEntries,fillValue_fill f g entry.2,fillEntries_fill f g rest]

theorem fillItems_fill (f g : String → String) (items : List LogValue) :
    fillItems g (fillItems f items) = fillItems (g ∘ f) items := by
  cases items with
  | nil => rfl
  | cons item rest => rw [fillItems,fillItems,fillItems,fillValue_fill f g item,fillItems_fill f g rest]

end

mutual

theorem places_unreached {place : Bool × String} (v : LogValue) (h : place ∈ places false v) : place.1 = false := by
  cases v with
  | str value => rw [List.mem_singleton.mp h]
  | dict entries => exact entryPlaces_unreached entries h
  | list items => exact itemPlaces_unreached items h
  | tuple items => exact itemPlaces_unreached items h
  | other => cases h

theorem entryPlaces_unreached {place : Bool × String} (entries : List (String × LogValue))
    (h : place ∈ entryPlaces false entries) : place.1 = false := by
  cases entries with
  | nil => cases h
  | cons entry rest =>
    rcases List.mem_cons.mp h with rfl | h
    · rfl
    · rcases List.mem_append.mp h with h | h
      · exact places_unreached entry.2 h
      · exact entryPlaces_unreached rest h

theorem itemPlaces_unreached {place : Bool × String} (items : List LogValue)
    (h : place ∈ itemPlaces false items) : place.1 = false := by
  cases items with
  | nil => cases h
  | cons item rest =>
    rcases List.mem_append.mp h with h | h
    · exact places_unreached item h
    · exact itemPlaces_unreached rest h

end

/-- Only the texts that sanitization reaches change. -/
def refill (f : String → String) (place : Bool × String) : Bool × String :=
  (place.1,if place.1 then f place.2 else place.2)

theorem refill_unreached (f : String → String) {ps : List (Bool × String)} (h : ∀ p ∈ ps, p.1 = false) :
    ps.map (refill f) = ps := by
  refine (List.map_congr_left fun p hp => ?_).trans (List.map_id ps)
  rw [refill,h p hp]
  exact Prod.ext (h p hp).symm rfl

mutual

theorem places_fill (f : String → String) (v : LogValue) :
    places true (fillValue f v) = (places true v).map (refill f) := by
  cases v with
  | str value => rfl
  | dict entries => exact entryPlaces_fill f entries
  | list items => exact itemPlaces_fill f items
  | tuple items => exact (refill_unreached f fun p hp => itemPlaces_unreached items hp).symm
  | other => rfl

theorem entryPlaces_fill (f : String → String) (entries : List (String × LogValue)) :
    entryPlaces true (fillEntries f entries) = (entryPlaces true entries).map (refill f) := by
  cases entries with
  | nil => rfl
  | cons entry rest =>
    rw [fillEntries,entryPlaces,entryPlaces,places_fill f entry.2,entryPlaces_fill f rest]
    simp [refill]

theorem itemPlaces_fill (f : String → String) (items : List LogValue) :
    itemPlaces true (fillItems f items) = (itemPlaces true items).map (refill f) := by
  cases items with
  | nil => rfl
  | cons item rest =>
    rw [fillItems,itemPlaces,itemPlaces,places_fill f item,itemPlaces_fill f rest,List.map_append]

end

variable {secret : String} {shape : List (String × LogValue)}

theorem occurs_fill (f : String → String) :
    Occurs secret (fillEntries f shape) ↔ OccursUnreached secret shape ∨
      ∃ place ∈ entryPlaces true shape, place.1 = true ∧ contains secret (f place.2) = true := by
  unfold Occurs OccursUnreached
  rw [entryPlaces_fill]
  constructor
  · rintro ⟨p,hp,hc⟩
    obtain ⟨⟨reached,text⟩,hin,rfl⟩ := List.mem_map.mp hp
    cases reached with
    | false => exact .inl ⟨_,hin,rfl,hc⟩
    | true => exact .inr ⟨_,hin,rfl,hc⟩
  · rintro (⟨⟨reached,text⟩,hin,rfl,hc⟩ | ⟨⟨reached,text⟩,hin,rfl,hc⟩)
    · exact ⟨_,List.mem_map_of_mem hin,hc⟩
    · exact ⟨_,List.mem_map_of_mem hin,hc⟩

end events

theorem toList_sanitizeString (s : String) : (sanitizeString s).toList = sanitizeText s.toList := by
  unfold sanitizeString
  split_ifs with h
  · rw [h]
    rfl
  · rw [String.toList_ofList]

theorem settled_of_not_redactable {secret : String} (h : ¬Redactable secret) : Settled secret.toList := by
  intro r hr u out rest hu hrule
  by_contra hne
  exact h ⟨r,hr,u,out,rest,hu,hrule,hne⟩

theorem sanitizeString_of_not_redactable {secret : String} (h : ¬Redactable secret) :
    sanitizeString secret = secret := by
  refine String.toList_injective ?_
  rw [toList_sanitizeString,sanitizeText_of_settled (settled_of_not_redactable h)]

theorem redactable_not_contained {secret : String} (he : Ended secret.toList) (h : Redactable secret) (s : String) :
    contains secret (sanitizeString s) = false := by
  obtain ⟨r,hr,u,out,rest,hu,hrule,hne⟩ := h
  refine decide_eq_false fun hin => ?_
  rw [toList_sanitizeString] at hin
  exact hne (settled_within hin he r hr u out rest hu hrule)

theorem ended_of_urlsafe {text : List Char} (h : ∀ c ∈ text, urlsafe c = true ∨ c = '.') : Ended text := by
  rintro front back rfl
  have hleft := h '[' (by simp)
  exact absurd hleft (by decide)

theorem ended_append {front back : List Char} (hback : '[' ∉ back) (hslash : '/' ∈ back) : Ended (front ++ back) := by
  intro before after h
  rcases List.append_eq_append_iff.mp h with ⟨y,rfl,hy⟩ | ⟨y,rfl,hy⟩
  · exact absurd (hy ▸ List.mem_append_right y List.mem_cons_self) hback
  · cases y with
    | nil =>
      obtain rfl : '[' :: after = back := hy
      exact absurd List.mem_cons_self hback
    | cons c y =>
      rw [(List.cons.inj hy).2]
      exact ⟨'/',List.mem_append_right y hslash,by decide⟩

/-- No secret ends within a mark. -/
theorem Secret.ended {secret : String} (h : Secret secret) : Ended secret.toList := by
  have hletters (s : String) (hs : ∀ c ∈ s.toList, urlsafe c = true ∨ c = '.') (t : String)
      (ht : ∀ c ∈ t.toList, urlsafe c = true ∨ c = '.') : ∀ c ∈ (s ++ t).toList, urlsafe c = true ∨ c = '.' := by
    intro c hc
    rw [String.toList_append,List.mem_append] at hc
    exact hc.elim (hs c) (ht c)
  cases h with
  | apiKey h => exact ended_of_urlsafe (hletters _ (List.all_iff_forall_prop.mp (by decide)) _ fun c hc => .inl (h c hc))
  | @token header payload signature h =>
    have hpart (part : String) (hp : part ∈ [header,payload,signature]) (c : Char) (hc : c ∈ part.toList) :
        urlsafe c = true ∨ c = '.' := .inl ((h part hp).2 c hc)
    have h1 := hletters "eyJ" (List.all_iff_forall_prop.mp (by decide)) header (hpart header (by simp))
    have h2 := hletters _ (hletters _ h1 ".eyJ" (List.all_iff_forall_prop.mp (by decide))) payload
      (hpart payload (by simp))
    have h3 := hletters _ h2 "." (List.all_iff_forall_prop.mp (by decide))
    exact ended_of_urlsafe (hletters _ h3 signature (hpart signature (by simp)))
  | invite h => exact ended_of_urlsafe fun c hc => .inl (h c hc)
  | @acceptUrl rawToken publicBaseUrl h =>
    unfold Observability.acceptUrl
    dsimp only
    rw [String.append_assoc,String.toList_append]
    refine ended_append ?_ (by rw [String.toList_append]; exact List.mem_append_left _ (by decide))
    rw [String.toList_append,List.mem_append]
    rintro (hc | hc)
    · exact absurd hc (by decide)
    · exact absurd (h '[' hc) (by decide)

theorem shown_iff {secret text : String} : contains secret (sanitizeString text) = true ↔ Shown secret text := by
  have hmarks : ∀ r ∈ patterns, r.mark ≠ [] := List.all_iff_forall_prop.mp (by decide)
  have hall : (sanitizeString text).toList = substituteAll patterns text.toList := by
    rw [toList_sanitizeString]
    simp only [sanitizeText,substituteAll,patterns,List.foldl_cons,List.foldl_nil]
  unfold contains Shown
  rw [decide_eq_true_iff,hall]
  exact infix_substituteAll hmarks

theorem occurs_sanitized {secret : String} {event : List (String × LogValue)} :
    Occurs secret (sanitizeLogEvent event) ↔ OccursUnreached secret event ∨ OccursShown secret event := by
  unfold sanitizeLogEvent OccursShown
  rw [sanitizeEntries_eq,occurs_fill]
  simp only [shown_iff]

/-- An invite token after `Bearer` and as the value of a keyword. -/
example :
    let event := [("event",LogValue.str "login"),("detail",.list [.str "Bearer Jq3-x0TzE_9vB7hYp",
      .dict [("query",.str "token=Jq3-x0TzE_9vB7hYp")]])]
    Occurs "Jq3-x0TzE_9vB7hYp" event ∧ ¬Occurs "Jq3-x0TzE_9vB7hYp" (sanitizeLogEvent event) := by
  unfold Occurs
  decide +kernel

/-- A secret is shown in no string whatever exactly if a pattern matches within it. -/
theorem redactable_iff {secret : String} (hs : Secret secret) :
    Redactable secret ↔ ∀ text, ¬Shown secret text := by
  constructor
  · intro h text hshown
    have hnot := redactable_not_contained hs.ended h text
    rw [shown_iff.mpr hshown] at hnot
    cases hnot
  · intro h
    by_contra hr
    refine h secret (shown_iff.mp ?_)
    rw [sanitizeString_of_not_redactable hr]
    exact decide_eq_true List.infix_rfl

section kinds
variable {q : Redaction Char} {i : Item Char} {accepts : Char → Bool}

/-- A match of a token, whose mark begins with a bracket, makes a secret redactable. -/
theorem redactable_of_match (h : TokenPattern q i accepts) (hq : q ∈ patterns) (hmark : q.mark = redacted)
    {secret : String} {x m z : List Char} (hm : Item.Matches q.body m) (hs : secret.toList = x ++ (m ++ z)) :
    Redactable secret := by
  cases hrule : q.rule (m ++ z) with
  | none => exact absurd hm (h.not_matches (List.prefix_append m z) hrule)
  | some t =>
    refine ⟨q,hq,m ++ z,t.1,t.2,hs ▸ List.suffix_append x _,hrule,fun heq => ?_⟩
    obtain ⟨w,hw,kept,m',-,hkept,-,-,hout⟩ := Redaction.rule_eq hrule
    rw [h.words,List.mem_singleton] at hw
    subst hw
    obtain rfl : kept = [] := hkept
    have hleft : '[' ∉ m := by
      have hin : ([] : List (Char → Bool)) ∈ q.words := h.words ▸ List.mem_singleton.mpr rfl
      have hnil : Item.Matches (([] : List (Char → Bool)).map .one) [] := rfl
      simpa using h.brackets.1.notMem hin hnil hm
    rw [hout,hmark] at heq
    cases m with
    | nil => exact q.progress hm
    | cons c m =>
      obtain rfl : c = '[' := (List.cons.inj heq).1
      exact hleft List.mem_cons_self

theorem matches_literal (s : String) : Item.Matches ((literal s).map .one) s.toList := by
  unfold literal
  induction s.toList with
  | nil => rfl
  | cons c cs ih => exact ⟨c,cs,rfl,beq_self_eq_true c,ih⟩

theorem eq_of_matches_literal {s : String} {m : List Char} (h : Item.Matches ((literal s).map .one) m) :
    m = s.toList := by
  unfold literal at h
  generalize s.toList = letters at h ⊢
  induction letters generalizing m with
  | nil => exact h
  | cons c cs ih =>
    obtain ⟨d,m,rfl,hd,hm⟩ := h
    rw [eq_of_beq hd,ih hm]

theorem token_redactable {header payload signature : String}
    (h : ∀ part ∈ [header,payload,signature], part ≠ "" ∧ ∀ c ∈ part.toList, urlsafe c = true) :
    Redactable ("eyJ" ++ header ++ ".eyJ" ++ payload ++ "." ++ signature) := by
  have hpart (part : String) (hp : part ∈ [header,payload,signature]) {is : List (Item Char)} {m : List Char}
      (hm : Item.Matches is m) : Item.Matches (.run 1 urlsafe :: is) (part.toList ++ m) := by
    have hne : part.toList ≠ [] := fun hnil => (h part hp).1 (String.toList_injective hnil)
    exact ⟨part.toList,m,rfl,List.length_pos_iff.mpr hne,(h part hp).2,hm⟩
  have hnil : Item.Matches ([] : List (Item Char)) [] := rfl
  have hsignature := hpart signature (by simp) hnil
  have hpayload := hpart payload (by simp) ((matches_literal ".").append hsignature)
  have hheader := hpart header (by simp) ((matches_literal ".eyJ").append hpayload)
  refine redactable_of_match tokenPattern_jwt (by simp [patterns]) rfl (x := []) (z := [])
    ((matches_literal "eyJ").append hheader) ?_
  simp

/-- An API key or invite token is redactable exactly if the start of a key, and at least
twenty letters or digits after it, are found in it. -/
theorem redactable_urlsafe_iff {secret : String} (h : ∀ c ∈ secret.toList, urlsafe c = true) :
    Redactable secret ↔ ∃ x y, secret.toList = x ++ ("vxf_".toList ++ y) ∧
      20 ≤ (y.takeWhile Char.isAlphanum).length := by
  constructor
  · rintro ⟨r,hr,u,out,rest,⟨x,hx⟩,hrule,-⟩
    obtain ⟨w,hw,kept,m,rfl,hkept,hm,-⟩ := Redaction.rule_eq hrule
    have hurlsafe {c : Char} (hc : c ∈ m) : urlsafe c = true := h c (hx ▸ by simp [hc])
    simp only [patterns,List.mem_cons,List.not_mem_nil,or_false] at hr
    rcases hr with rfl | rfl | rfl | rfl
    · obtain ⟨is,n,-,hbody⟩ := tokenPattern_jwt.body
      rw [hbody] at hm
      obtain ⟨front,back,rfl,-,c,back,rfl,hc,-⟩ := Item.matches_append hm
      exact absurd (hurlsafe (c := c) (by simp)) (by rw [eq_of_beq hc]; decide)
    · rw [List.mem_singleton.mp hw] at hkept
      obtain rfl : kept = [] := hkept
      obtain ⟨front,back,rfl,hfront,a,tail,rfl,hlen,ha,rfl⟩ := Item.matches_append hm
      rw [eq_of_matches_literal hfront] at hx
      refine ⟨x,a ++ rest,by rw [← hx]; simp,?_⟩
      rw [List.takeWhile_append_of_pos ha,List.length_append]
      exact Nat.le_add_right_of_le hlen
    · obtain ⟨front,back,rfl,-,a,tail,rfl,hlen,ha,-⟩ := Item.matches_append hm
      obtain ⟨c,a,rfl⟩ := List.exists_cons_of_ne_nil (List.ne_nil_of_length_pos hlen)
      have hspace := ha c List.mem_cons_self
      have hletter : bearerLetter c = true := by
        have hc := hurlsafe (c := c) (by simp)
        simp only [urlsafe,Bool.or_eq_true,beq_iff_eq] at hc
        rcases hc with (hc | rfl) | rfl
        · simp [bearerLetter,hc]
        · decide
        · decide
      rw [bearerLetter_space hspace] at hletter
      cases hletter
    · obtain ⟨gap,d,tail,rfl,-,-,⟨f,hf,hsep⟩,-⟩ := secret_body_eq hm
      have hapart : ∀ f ∈ ['=',':'], urlsafe f = false := List.all_iff_forall_prop.mp (by decide)
      have hf' := hurlsafe (c := f) (by simp [hf])
      rw [hapart f hsep] at hf'
      cases hf'
  · rintro ⟨x,y,hs,hlen⟩
    have hm : Item.Matches apiKeyPattern.body ("vxf_".toList ++ (y.takeWhile Char.isAlphanum)) :=
      (matches_literal "vxf_").append ⟨_,[],(List.append_nil _).symm,hlen,fun c hc => List.mem_takeWhile_imp hc,rfl⟩
    refine redactable_of_match tokenPattern_apiKey (by simp [patterns]) rfl hm (x := x)
      (z := y.dropWhile Char.isAlphanum) ?_
    rw [hs,List.append_assoc,List.takeWhile_append_dropWhile]

end kinds

theorem token_hidden {header payload signature : String} {event : List (String × LogValue)}
    (h : ∀ part ∈ [header,payload,signature], part ≠ "" ∧ ∀ c ∈ part.toList, urlsafe c = true)
    (hreached : ¬OccursUnreached ("eyJ" ++ header ++ ".eyJ" ++ payload ++ "." ++ signature) event) :
    ¬Occurs ("eyJ" ++ header ++ ".eyJ" ++ payload ++ "." ++ signature) (sanitizeLogEvent event) := by
  rw [occurs_sanitized]
  rintro (hun | ⟨place,-,-,hshown⟩)
  · exact hreached hun
  · exact (redactable_iff (.token h)).mp (token_redactable h) place.2 hshown

end VoxForge.Observability
