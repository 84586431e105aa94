import Mathlib.Data.List.MinMax
import Mathlib.Order.Nat
import VoxForge.RateLimit.Limiter

/-! Which of the policies that match a request applies to it. -/
namespace VoxForge.RateLimit
open Foundation Core

namespace RateLimitPolicy

def allows (policy : RateLimitPolicy) (method : String) : Bool := policy.methods.all (upper method ∈ ·)

/-- How much of a path a policy is about: more than all of it, if its pattern matches. -/
def extent (policy : RateLimitPolicy) (path : String) : Nat :=
  if policy.pathRegex.any (·.search path) then path.length + 1
  else ((policy.pathPrefixes.filter (startsWith path)).map String.length).foldr max 0

/-- A longer match is more specific, and of two equal ones that with methods. -/
def specificity (policy : RateLimitPolicy) (path : String) : Nat :=
  2 * policy.extent path + if policy.methods.isSome then 1 else 0

end RateLimitPolicy

/-- A request whose pattern matches gets a policy with a pattern, and of all policies that match
it gets the most specific one. -/
structure ResolutionLaw (method path : String) : Prop where
  pattern : (∃ p ∈ rateLimitPolicies, p.allows method ∧ p.pathRegex.any (·.search path)) →
    ∃ q, resolvePolicy method path = some q ∧ q.pathRegex.any (·.search path)
  specific : ∀ q, resolvePolicy method path = some q → ∀ p ∈ rateLimitPolicies, p ≠ q → p.matches method path →
    p.specificity path < q.specificity path

def MemorySearch (method path : String) : Prop :=
  upper method = "POST" ∧ PathPattern.search ⟨"/api/v1/sessions/","/memory/search"⟩ path = true

/-- Two beginnings of which one begins the other. -/
def comparable (a b : String) : Bool := a.toList.isPrefixOf b.toList || b.toList.isPrefixOf a.toList

/-- No request is in both methods. -/
def apart (p r : RateLimitPolicy) : Bool :=
  match p.methods,r.methods with
  | some ms,some ns => ms.all (· ∉ ns)
  | _,_ => false

/-- A policy may come before another: where both match, it is the more specific one. -/
def precedes (p r : RateLimitPolicy) : Bool :=
  let rank (length : Nat) (policy : RateLimitPolicy) := 2 * length + if policy.methods.isSome then 1 else 0
  apart p r ||
    (r.pathPrefixes.all fun b => p.pathPrefixes.all fun a => !comparable a b || rank b.length r < rank a.length p) &&
    r.pathRegex.all fun pattern => p.pathPrefixes.all (!comparable · pattern.before) &&
      p.pathRegex.all (!comparable ·.before pattern.before)

section prefixes
variable {path a b : String}

theorem comparable_of_startsWith (ha : startsWith path a) (hb : startsWith path b) : comparable a b = true := by
  rw [comparable,Bool.or_eq_true,List.isPrefixOf_iff_prefix,List.isPrefixOf_iff_prefix]
  exact List.prefix_or_prefix_of_prefix (List.isPrefixOf_iff_prefix.mp ha) (List.isPrefixOf_iff_prefix.mp hb)

theorem length_le_of_startsWith (h : startsWith path a) : a.length ≤ path.length := by
  exact (List.isPrefixOf_iff_prefix.mp h).length_le

/-- A pattern only matches paths that begin as it does. -/
theorem startsWith_of_search {pattern : PathPattern} (h : pattern.search path = true) :
    startsWith path pattern.before = true := by
  rw [PathPattern.search,Bool.or_eq_true,Bool.and_eq_true] at h
  rw [startsWith,List.isPrefixOf_iff_prefix]
  rcases h with h | ⟨-,h⟩
  · simp only [PathPattern.fits,Bool.and_eq_true,List.isPrefixOf_iff_prefix] at h
    exact h.1.1.2
  · simp only [PathPattern.fits,Bool.and_eq_true,List.isPrefixOf_iff_prefix] at h
    exact h.1.1.2.trans (List.dropLast_prefix _)

end prefixes

section policies
variable {p q r : RateLimitPolicy} {method path : String}

theorem matches_iff : p.matches method path = true ↔
    p.allows method = true ∧ (p.pathRegex.any (·.search path) = true ∨ ∃ a ∈ p.pathPrefixes, startsWith path a = true) := by
  have hallows : p.allows method = true ↔ ¬ (p.methods.any fun methods => upper method ∉ methods) = true := by
    rw [RateLimitPolicy.allows]
    cases p.methods <;> simp
  rw [RateLimitPolicy.matches,hallows]
  split
  · next h => exact iff_of_false Bool.false_ne_true fun hc => hc.1 h
  · next h =>
    rw [Bool.or_eq_true,List.any_eq_true]
    exact (and_iff_right h).symm

theorem foldr_max_mem {lengths : List Nat} (h : lengths ≠ []) : lengths.foldr max 0 ∈ lengths :=
  List.maximum_mem (List.foldr_max_of_ne_nil h).symm

/-- The extent of a policy that matches by its prefixes is the length of one of them. -/
theorem extent_eq (h : ¬ p.pathRegex.any (·.search path) = true) (hsome : ∃ a ∈ p.pathPrefixes, startsWith path a = true) :
    ∃ a ∈ p.pathPrefixes, startsWith path a = true ∧ p.extent path = a.length := by
  obtain ⟨a,ha,hstarts⟩ := hsome
  have hmem : a.length ∈ (p.pathPrefixes.filter (startsWith path)).map String.length :=
    List.mem_map_of_mem (List.mem_filter.mpr ⟨ha,hstarts⟩)
  obtain ⟨c,hc,hlength⟩ := List.mem_map.mp (foldr_max_mem (List.ne_nil_of_mem hmem))
  obtain ⟨hc,hstarts⟩ := List.mem_filter.mp hc
  exact ⟨c,hc,hstarts,(if_neg h).trans hlength.symm⟩

/-- A matching pattern is more specific than any prefix. -/
theorem specificity_lt_of_pattern (hp : p.pathRegex.any (·.search path) = true)
    (hr : ¬ r.pathRegex.any (·.search path) = true) (hsome : ∃ a ∈ r.pathPrefixes, startsWith path a = true) :
    r.specificity path < p.specificity path := by
  obtain ⟨a,-,hstarts,hextent⟩ := extent_eq hr hsome
  have hlength := length_le_of_startsWith hstarts
  rw [RateLimitPolicy.specificity,RateLimitPolicy.specificity,hextent,
    show p.extent path = path.length + 1 from if_pos hp]
  split <;> omega

theorem not_apart (hp : p.allows method = true) (hr : r.allows method = true) : apart p r = false := by
  unfold apart
  split
  · next ms ns hms hns =>
    rw [RateLimitPolicy.allows,hms] at hp
    rw [RateLimitPolicy.allows,hns] at hr
    have hin : upper method ∈ ms := by simpa using hp
    have hin' : upper method ∈ ns := by simpa using hr
    exact List.all_eq_false.mpr ⟨_,hin,by simpa using hin'⟩
  · rfl

/-- Where two policies match of which one may precede the other, it is the more specific one. -/
theorem specificity_lt_of_precedes (h : precedes p r = true) (hp : p.matches method path = true)
    (hr : r.matches method path = true) : r.specificity path < p.specificity path := by
  obtain ⟨hpm,hp⟩ := matches_iff.mp hp
  obtain ⟨hrm,hr⟩ := matches_iff.mp hr
  unfold precedes at h
  dsimp only at h
  rw [not_apart hpm hrm,Bool.false_or,Bool.and_eq_true,List.all_eq_true] at h
  obtain ⟨hbegins,hpattern⟩ := h
  by_cases hrp : r.pathRegex.any (·.search path) = true
  · -- a pattern of the later policy has nothing in common with the earlier policy
    cases hpat : r.pathRegex with
    | none => rw [hpat] at hrp; cases hrp
    | some pattern =>
      rw [hpat,Option.all_some,Bool.and_eq_true,List.all_eq_true] at hpattern
      rw [hpat,Option.any_some] at hrp
      have hbefore := startsWith_of_search hrp
      rcases hp with hp | ⟨a,ha,hstarts⟩
      · cases hpat' : p.pathRegex with
        | none => rw [hpat'] at hp; cases hp
        | some other =>
          rw [hpat',Option.all_some] at hpattern
          rw [hpat',Option.any_some] at hp
          simp [comparable_of_startsWith (startsWith_of_search hp) hbefore] at hpattern
      · have hcheck := hpattern.1 a ha
        simp [comparable_of_startsWith hstarts hbefore] at hcheck
  · have hr := hr.resolve_left hrp
    by_cases hpp : p.pathRegex.any (·.search path) = true
    · exact specificity_lt_of_pattern hpp hrp hr
    · obtain ⟨b,hb,hb',hbext⟩ := extent_eq hrp hr
      obtain ⟨a,ha,ha',haext⟩ := extent_eq hpp (hp.resolve_left hpp)
      have hcheck := List.all_eq_true.mp (hbegins b hb) a ha
      rw [comparable_of_startsWith ha' hb'] at hcheck
      rw [RateLimitPolicy.specificity,RateLimitPolicy.specificity,hbext,haext]
      simpa using hcheck

end policies

/-! The table -/

/-- In a list sorted by a measure where a test holds, what is found first is above all others. -/
theorem find?_greatest {α : Type} {l : List α} {test : α → Bool} {measure : α → Nat}
    (h : l.Pairwise fun p r => test p → test r → measure r < measure p) {q : α} (hq : l.find? test = some q) :
    ∀ p ∈ l, p ≠ q → test p → measure p < measure q := by
  induction l with
  | nil => cases hq
  | cons first rest ih =>
    obtain ⟨hfirst,hrest⟩ := List.pairwise_cons.mp h
    intro p hp hne htest
    cases hf : test first with
    | true =>
      rw [List.find?_cons_of_pos hf] at hq
      obtain rfl := Option.some.inj hq
      exact hfirst p ((List.mem_cons.mp hp).resolve_left hne) hf htest
    | false =>
      rw [List.find?_cons_of_neg (by simp [hf])] at hq
      rcases List.mem_cons.mp hp with rfl | hp
      · rw [hf] at htest
        cases htest
      · exact ih hrest hq p hp hne htest

/-- The table is ordered, but for the searches in a memory. -/
theorem table_ordered :
    rateLimitPolicies.Pairwise fun p r => precedes p r = true ∨ r.category = "memory_search" := by
  decide +kernel

theorem memorySearch_policy {p : RateLimitPolicy} (hp : p ∈ rateLimitPolicies) (hcategory : p.category = "memory_search") :
    p.methods = some ["POST"] ∧ p.pathRegex = some ⟨"/api/v1/sessions/","/memory/search"⟩ ∧ p.pathPrefixes = [] := by
  revert p
  decide

/-- Paths that a pattern matches are limited at all. -/
theorem pattern_limited {p : RateLimitPolicy} (hp : p ∈ rateLimitPolicies) {path : String}
    (h : p.pathRegex.any (·.search path) = true) : path ∉ exemptPaths ∧ startsWith path "/api/v1" = true := by
  have htable : ∀ p ∈ rateLimitPolicies, ∀ pattern, p.pathRegex = some pattern →
      (exemptPaths.all fun path => !startsWith path pattern.before) = true ∧
        "/api/v1".toList.isPrefixOf pattern.before.toList = true := by
    have hchecked : (rateLimitPolicies.all fun p => p.pathRegex.all fun pattern =>
        (exemptPaths.all fun path => !startsWith path pattern.before) &&
          "/api/v1".toList.isPrefixOf pattern.before.toList) = true := by decide +kernel
    intro p hp pattern hpattern
    have hrow := List.all_eq_true.mp hchecked p hp
    rw [hpattern,Option.all_some,Bool.and_eq_true] at hrow
    exact hrow
  cases hpattern : p.pathRegex with
  | none => rw [hpattern] at h; cases h
  | some pattern =>
    rw [hpattern,Option.any_some] at h
    have hbefore := startsWith_of_search h
    obtain ⟨hexempt,hapi⟩ := htable p hp pattern hpattern
    refine ⟨fun hin => ?_,?_⟩
    · have := List.all_eq_true.mp hexempt path hin
      rw [hbefore] at this
      cases this
    · rw [startsWith,List.isPrefixOf_iff_prefix] at hbefore ⊢
      exact (List.isPrefixOf_iff_prefix.mp hapi).trans hbefore

section requests
variable {method path : String}

theorem memorySearch_matches_iff {p : RateLimitPolicy} (hp : p ∈ rateLimitPolicies)
    (hcategory : p.category = "memory_search") : p.matches method path = true ↔ MemorySearch method path := by
  obtain ⟨hmethods,hpattern,hprefixes⟩ := memorySearch_policy hp hcategory
  rw [matches_iff,RateLimitPolicy.allows,hmethods,hpattern,hprefixes]
  simp [MemorySearch]

theorem resolvePolicy_eq (hexempt : path ∉ exemptPaths) (hapi : startsWith path "/api/v1" = true) :
    resolvePolicy method path = rateLimitPolicies.find? (·.matches method path) := by
  rw [resolvePolicy,if_neg hexempt,hapi]
  rfl

theorem find?_of_resolvePolicy {q : RateLimitPolicy} (h : resolvePolicy method path = some q) :
    rateLimitPolicies.find? (·.matches method path) = some q := by
  unfold resolvePolicy at h
  split at h
  · cases h
  · split at h
    · cases h
    · exact h

theorem matches_of_resolvePolicy {q : RateLimitPolicy} (h : resolvePolicy method path = some q) :
    q.matches method path = true := by
  have hfound := List.find?_some (p := fun x : RateLimitPolicy => x.matches method path) (find?_of_resolvePolicy h)
  exact hfound

/-- Any other request gets the most specific of the policies that match it. -/
theorem resolvePolicy_specific (hother : ¬ MemorySearch method path) {q : RateLimitPolicy}
    (hq : resolvePolicy method path = some q) : ∀ p ∈ rateLimitPolicies, p ≠ q → p.matches method path →
      p.specificity path < q.specificity path := by
  refine find?_greatest ?_ (find?_of_resolvePolicy hq)
  refine table_ordered.imp_of_mem fun {p r} _ hr h hp hr' => ?_
  rcases h with h | hcategory
  · exact specificity_lt_of_precedes h hp hr'
  · exact absurd ((memorySearch_matches_iff hr hcategory).mp hr') hother

/-- A search in a memory gets the policy of new sessions: those before it are about other paths. -/
theorem resolvePolicy_memorySearch (h : MemorySearch method path) :
    ∃ q ∈ rateLimitPolicies, resolvePolicy method path = some q ∧ q.category = "sessions_create" ∧ q.pathRegex = none := by
  obtain ⟨hmethod,hsearch⟩ := h
  have hpath := startsWith_of_search hsearch
  have htable : ∃ front q rest, rateLimitPolicies = front ++ q :: rest ∧
      (front.all fun p => p.pathRegex = none && p.pathPrefixes.all (!comparable · "/api/v1/sessions/")) = true ∧
      q.category = "sessions_create" ∧ q.pathRegex = none ∧ q.methods = some ["POST"] ∧
        q.pathPrefixes = ["/api/v1/sessions"] :=
    ⟨rateLimitPolicies.take 4,_,rateLimitPolicies.drop 5,rfl,by decide +kernel,rfl,rfl,rfl,rfl⟩
  obtain ⟨front,q,rest,htable,hfront,hcategory,hnone,hmethods,hprefixes⟩ := htable
  have hq : q ∈ rateLimitPolicies := htable ▸ List.mem_append_right _ (List.mem_cons_self ..)
  refine ⟨q,hq,?_,hcategory,hnone⟩
  have hlimited : path ∉ exemptPaths ∧ startsWith path "/api/v1" = true := by
    have hpolicy : ∃ p ∈ rateLimitPolicies, p.category = "memory_search" := by decide
    obtain ⟨p,hp,hp'⟩ := hpolicy
    refine pattern_limited hp ?_
    rw [(memorySearch_policy hp hp').2.1]
    exact hsearch
  rw [resolvePolicy_eq hlimited.1 hlimited.2,List.find?_eq_some_iff_append]
  refine ⟨?_,front,rest,htable,fun p hp => ?_⟩
  · have hallows : q.allows method = true := by simp [RateLimitPolicy.allows,hmethods,hmethod]
    refine matches_iff.mpr ⟨hallows,.inr ⟨"/api/v1/sessions",by simp [hprefixes],?_⟩⟩
    rw [startsWith,List.isPrefixOf_iff_prefix] at hpath ⊢
    exact (List.isPrefixOf_iff_prefix.mp (by decide)).trans hpath
  · have hrow := List.all_eq_true.mp hfront p hp
    rw [Bool.and_eq_true,List.all_eq_true] at hrow
    rw [Bool.not_eq_true',← Bool.not_eq_true]
    intro hmatches
    rcases (matches_iff.mp hmatches).2 with hpattern | ⟨a,ha,hstarts⟩
    · rw [of_decide_eq_true hrow.1] at hpattern
      cases hpattern
    · have := hrow.2 a ha
      rw [comparable_of_startsWith hstarts hpath] at this
      cases this

theorem resolutionLaw_iff : ResolutionLaw method path ↔ ¬ MemorySearch method path := by
  constructor
  · intro law h
    obtain ⟨q,-,hq,-,hnone⟩ := resolvePolicy_memorySearch h
    have hpolicy : ∃ p ∈ rateLimitPolicies, p.category = "memory_search" := by decide
    obtain ⟨p,hp,hcategory⟩ := hpolicy
    obtain ⟨hallows,hpattern⟩ := matches_iff.mp ((memorySearch_matches_iff hp hcategory).mpr h)
    have hprefixes := (memorySearch_policy hp hcategory).2.2
    obtain ⟨q',hq',hpattern'⟩ := law.pattern ⟨p,hp,hallows,hpattern.resolve_right (by simp [hprefixes])⟩
    obtain rfl := Option.some.inj (hq.symm.trans hq')
    rw [hnone] at hpattern'
    cases hpattern'
  · intro hother
    refine ⟨?_,fun q hq => resolvePolicy_specific hother hq⟩
    rintro ⟨p,hp,hallows,hpattern⟩
    obtain ⟨hexempt,hapi⟩ := pattern_limited hp hpattern
    have hmatches : p.matches method path = true := matches_iff.mpr ⟨hallows,.inl hpattern⟩
    have hsome : (rateLimitPolicies.find? (·.matches method path)).isSome :=
      List.find?_isSome.mpr ⟨p,hp,hmatches⟩
    obtain ⟨q,hq⟩ := Option.isSome_iff_exists.mp hsome
    rw [← resolvePolicy_eq hexempt hapi] at hq
    refine ⟨q,hq,?_⟩
    by_contra hnone
    have hne : p ≠ q := by rintro rfl; exact hnone hpattern
    have hless := resolvePolicy_specific hother hq p hp hne hmatches
    have hbegins := (matches_iff.mp (matches_of_resolvePolicy hq)).2.resolve_left hnone
    exact absurd hless (specificity_lt_of_pattern hpattern hnone hbegins).asymm

end requests

/-- A request for each policy that is ever returned. -/
def requests : List (String × String) := [
  ("POST","/api/v1/auth/login"),("GET","/api/v1/auth/me"),("POST","/api/v1/demo/chat"),("POST","/api/v1/api-keys"),
  ("POST","/api/v1/sessions"),("GET","/api/v1/ws/voice"),("POST","/api/v1/livekit/token"),
  ("POST","/api/v1/knowledge/collections/1/documents"),("POST","/api/v1/knowledge/documents/1/reindex"),
  ("POST","/api/v1/knowledge/search"),("POST","/api/v1/knowledge/collections"),("GET","/api/v1/sessions/1/replay"),
  ("POST","/api/v1/onboarding/run-sample-call"),("GET","/api/v1/onboarding"),("GET","/api/v1/dashboard"),
  ("GET","/api/v1/sessions"),("GET","/api/v1/handoffs")]

theorem requests_cover :
    (rateLimitPolicies.all fun p => p.category = "memory_search" ||
      requests.any fun (method,path) => resolvePolicy method path = some p) = true := by
  decide +kernel

/-- A policy is returned for some request exactly when it is not that for searches in a memory. -/
theorem returned_iff {p : RateLimitPolicy} (hp : p ∈ rateLimitPolicies) :
    (∃ method path, resolvePolicy method path = some p) ↔ p.category ≠ "memory_search" := by
  constructor
  · rintro ⟨method,path,hresolved⟩ hcategory
    have hmatches := matches_of_resolvePolicy hresolved
    obtain ⟨q,-,hq,hcreate,-⟩ := resolvePolicy_memorySearch ((memorySearch_matches_iff hp hcategory).mp hmatches)
    obtain rfl := Option.some.inj (hq.symm.trans hresolved)
    rw [hcreate] at hcategory
    revert hcategory
    decide
  · intro hother
    have hrow := List.all_eq_true.mp requests_cover p hp
    rw [Bool.or_eq_true,List.any_eq_true] at hrow
    obtain ⟨⟨method,path⟩,-,hresolved⟩ := hrow.resolve_left (by simpa using hother)
    exact ⟨method,path,of_decide_eq_true hresolved⟩

/-- A search in the memory of a session is limited like a new session, and refused when Redis is down. -/
theorem memory_search_swallowed :
    ¬ ResolutionLaw "POST" "/api/v1/sessions/1/memory/search" ∧
      (resolvePolicy "POST" "/api/v1/sessions/1/memory/search").map (fun q => (q.category,q.failMode)) =
        some ("sessions_create",.closed) := by
  refine ⟨fun law => ?_,by decide +kernel⟩
  have hsearch : MemorySearch "POST" "/api/v1/sessions/1/memory/search" := ⟨by decide +kernel,by decide +kernel⟩
  exact resolutionLaw_iff.mp law hsearch

end VoxForge.RateLimit
