import Mathlib.Data.NNRat.Floor
import VoxForge.Foundation.Counters
import VoxForge.RateLimit.Limiter

/-! Checks on a healthy Redis whose keys expire, each at its clock value: how many calls a
window admits, and which calls have a say in it. -/
namespace VoxForge.RateLimit
open Foundation Core

inductive Window where
  | burst | sustained
  deriving DecidableEq, Repr

def Window.name : Window → String
  | burst => "burst"
  | sustained => "sustained"

def Window.seconds : Window → Nat
  | burst => 10
  | sustained => 60

/-- The seconds after which a key of the window expires. -/
def Window.ttl : Window → Nat
  | burst => 15
  | sustained => 70

structure Limits where
  burst : Nat
  sustained : Nat
  deriving DecidableEq, Repr

def Limits.of (limits : Limits) : Window → Nat
  | .burst => limits.burst
  | .sustained => limits.sustained

/-- Whom a check counts, under what. -/
structure Triple where
  dimension : Dimension
  identifier : String
  category : String
  deriving DecidableEq, Repr

/-- A check under one of the policies, at a clock value. -/
structure CheckedCall where
  policy : RateLimitPolicy
  dimension : Dimension
  identifier : String
  time : ℚ≥0
  known : policy ∈ rateLimitPolicies

def CheckedCall.triple (call : CheckedCall) : Triple := ⟨call.dimension,call.identifier,call.policy.category⟩

/-- The window's number at a clock value. -/
def Window.bucket (window : Window) (time : ℚ≥0) : Nat := ⌊time⌋₊ / window.seconds

def windowKey (window : Window) (triple : Triple) (bucket : Nat) : String :=
  "ratelimit:" ++ window.name ++ ":" ++ triple.dimension.value ++ ":" ++ triple.identifier ++ ":" ++
    triple.category ++ ":" ++ toString bucket

abbrev Redis := Counters String ℚ≥0

section limiter
variable (settings : Settings) (limits : Triple → Limits)

/-- Count a call in one window. -/
def countAt (window : Window) (call : CheckedCall) (redis : Redis) : Nat × Redis :=
  redis.hit call.time (call.time + window.ttl) (windowKey window call.triple (window.bucket call.time))

/-- `RateLimiter.check` with the limits of the call's triple, as one step. -/
def checkAt (call : CheckedCall) (redis : Redis) : RateLimitResult × Redis :=
  let category := call.policy.category
  let dimension := call.dimension
  if !settings.rateLimitEnabled then ({ allowed := true, category, dimension },redis)
  else
    let burst := scaled settings (limits call.triple).burst
    let sustained := scaled settings (limits call.triple).sustained
    let (burstCount,redis) := countAt .burst call redis
    let (sustainedCount,redis) := countAt .sustained call redis
    if burstCount > burst ∨ sustainedCount > sustained then
      ({ allowed := false, blocked := true, category, dimension },redis)
    else ({ allowed := true, category, dimension },redis)

/-- Redis after some calls, from empty. -/
def redisAfter (calls : List CheckedCall) : Redis :=
  calls.foldl (fun redis call => (checkAt settings limits call redis).2) Dict.empty

/-- The result of a call that comes after some others. -/
def verdict (before : List CheckedCall) (call : CheckedCall) : RateLimitResult :=
  (checkAt settings limits call (redisAfter settings limits before)).1

/-- The calls with their results. -/
def decisionsFrom : Redis → List CheckedCall → List (CheckedCall × RateLimitResult)
  | _,[] => []
  | redis,call :: rest =>
    let (result,redis) := checkAt settings limits call redis
    (call,result) :: decisionsFrom redis rest

def decisions (calls : List CheckedCall) : List (CheckedCall × RateLimitResult) :=
  decisionsFrom settings limits Dict.empty calls

end limiter

/-- A call of the same triple in the same window. -/
def CheckedCall.beside (window : Window) (call other : CheckedCall) : Bool :=
  other.triple = call.triple && window.bucket other.time = window.bucket call.time

/-! Keys -/

theorem colon_notMem_category {policy : RateLimitPolicy} (h : policy ∈ rateLimitPolicies) :
    ':' ∉ policy.category.toList := by
  have hall : (rateLimitPolicies.all fun policy => !policy.category.toList.contains ':') = true := by decide +kernel
  simpa using List.all_eq_true.mp hall policy h

theorem colon_notMem_dimension (dimension : Dimension) : ':' ∉ dimension.value.toList := by
  cases dimension <;> decide

theorem Dimension.value_injective {dimension dimension' : Dimension} (h : dimension.value = dimension'.value) :
    dimension = dimension' := by
  cases dimension <;> cases dimension' <;> first | rfl | exact absurd h (by decide)

theorem colon_notMem_name (window : Window) : ':' ∉ window.name.toList := by
  cases window <;> decide

theorem Window.name_injective {window window' : Window} (h : window.name = window'.name) : window = window' := by
  cases window <;> cases window' <;> first | rfl | exact absurd h (by decide)

theorem toList_windowKey (window : Window) (triple : Triple) (bucket : Nat) :
    (windowKey window triple bucket).toList = "ratelimit:".toList ++ (window.name.toList ++ ':' ::
      (triple.dimension.value.toList ++ ':' :: (triple.identifier.toList ++ ':' ::
        (triple.category.toList ++ ':' :: (toString bucket).toList)))) := by
  have hcolon : ":".toList = [':'] := rfl
  unfold windowKey
  iterate 9 rw [String.toList_append]
  rw [hcolon]
  simp only [List.append_assoc,List.cons_append,List.nil_append]

/-- The last two fields hold no colon: whatever comes before them, they are told apart. -/
theorem last_fields_inj {front front' category category' number number' : List Char}
    (hcategory : ':' ∉ category) (hcategory' : ':' ∉ category') (hnumber : ':' ∉ number) (hnumber' : ':' ∉ number')
    (h : front ++ ':' :: (category ++ ':' :: number) = front' ++ ':' :: (category' ++ ':' :: number')) :
    front = front' ∧ category = category' ∧ number = number' := by
  have hback := congrArg List.reverse h
  simp only [List.reverse_append,List.reverse_cons,List.append_assoc,List.singleton_append] at hback
  obtain ⟨hn,hrest⟩ := append_cons_inj (by simpa using hnumber) (by simpa using hnumber') hback
  obtain ⟨hc,hf⟩ := append_cons_inj (by simpa using hcategory) (by simpa using hcategory') hrest
  exact ⟨List.reverse_injective hf,List.reverse_injective hc,List.reverse_injective hn⟩

/-- The fields of a key are told apart from the front up to the identifier, and from the
end down to it: no other field holds a colon. -/
theorem windowKey_injective {window window' : Window} {triple triple' : Triple} {bucket bucket' : Nat}
    (hcategory : ':' ∉ triple.category.toList) (hcategory' : ':' ∉ triple'.category.toList)
    (h : windowKey window triple bucket = windowKey window' triple' bucket') :
    window = window' ∧ triple = triple' ∧ bucket = bucket' := by
  obtain ⟨dimension,identifier,category⟩ := triple
  obtain ⟨dimension',identifier',category'⟩ := triple'
  have hletters := congrArg String.toList h
  rw [toList_windowKey,toList_windowKey] at hletters
  have hfront := List.append_cancel_left hletters
  obtain ⟨hname,hrest⟩ := append_cons_inj (colon_notMem_name window) (colon_notMem_name window') hfront
  obtain ⟨hvalue,hrest⟩ := append_cons_inj (colon_notMem_dimension dimension) (colon_notMem_dimension dimension') hrest
  have hcolon : ':'.isDigit = false := by decide
  obtain ⟨hidentifier,hsame,hnumber⟩ := last_fields_inj hcategory hcategory'
    (notMem_toString hcolon bucket) (notMem_toString hcolon bucket') hrest
  have hdimension := Dimension.value_injective (String.toList_injective hvalue)
  have htriple : (⟨dimension,identifier,category⟩ : Triple) = ⟨dimension',identifier',category'⟩ := by
    rw [Triple.mk.injEq]
    exact ⟨hdimension,String.toList_injective hidentifier,String.toList_injective hsame⟩
  exact ⟨Window.name_injective (String.toList_injective hname),htriple,toString_injective hnumber⟩

def CheckedCall.key (call : CheckedCall) (window : Window) : String :=
  windowKey window call.triple (window.bucket call.time)

theorem key_eq_iff {call other : CheckedCall} {window window' : Window} :
    other.key window' = call.key window ↔ window' = window ∧ call.beside window other = true := by
  unfold CheckedCall.key CheckedCall.beside
  rw [Bool.and_eq_true,decide_eq_true_eq,decide_eq_true_eq]
  constructor
  · intro h
    have hother : ':' ∉ other.triple.category.toList := colon_notMem_category other.known
    have hcall : ':' ∉ call.triple.category.toList := colon_notMem_category call.known
    obtain ⟨rfl,htriple,hbucket⟩ := windowKey_injective hother hcall h
    exact ⟨rfl,htriple,hbucket⟩
  · rintro ⟨rfl,htriple,hbucket⟩
    rw [htriple,hbucket]

/-- A key outlives its window. -/
theorem time_lt_of_bucket {window : Window} {time first : ℚ≥0} (h : window.bucket first = window.bucket time) :
    time < first + window.ttl := by
  have hseconds : ⌊time⌋₊ + 1 ≤ ⌊first⌋₊ + window.ttl := by
    cases window <;> simp only [Window.bucket,Window.seconds,Window.ttl] at h ⊢ <;> omega
  calc
    time < ((⌊time⌋₊ + 1 : ℕ) : ℚ≥0) := by exact_mod_cast Nat.lt_floor_add_one time
    _ ≤ ((⌊first⌋₊ + window.ttl : ℕ) : ℚ≥0) := Nat.cast_le.mpr hseconds
    _ = (⌊first⌋₊ : ℚ≥0) + window.ttl := Nat.cast_add _ _
    _ ≤ first + window.ttl := add_le_add_left (Nat.floor_le zero_le) _

/-! What the counters hold -/

/-- The key that a call hits in a window, and the deadline it would set. -/
def CheckedCall.hits (call : CheckedCall) (window : Window) : String × ℚ≥0 :=
  (call.key window,call.time + window.ttl)

def pastHits (calls : List CheckedCall) : List (String × ℚ≥0) :=
  calls.flatMap fun call => [call.hits .burst,call.hits .sustained]

theorem countP_pastHits (calls : List CheckedCall) (call : CheckedCall) (window : Window) :
    (pastHits calls).countP (·.1 = call.key window) = calls.countP (call.beside window) := by
  induction calls with
  | nil => rfl
  | cons other rest ih =>
    have hcons : pastHits (other :: rest) = [other.hits .burst,other.hits .sustained] ++ pastHits rest := rfl
    rw [hcons,List.countP_append,ih,List.countP_cons,Nat.add_comm]
    cases window <;> simp [List.countP_cons,CheckedCall.hits,key_eq_iff]

theorem alive {calls : List CheckedCall} {call : CheckedCall} {window : Window} {e : String × ℚ≥0}
    (he : e ∈ pastHits calls) (hkey : e.1 = call.key window) : call.time < e.2 := by
  obtain ⟨other,-,hhit⟩ := List.mem_flatMap.mp he
  have hcases : ∃ window', e = other.hits window' := by
    rcases List.mem_cons.mp hhit with rfl | hhit
    · exact ⟨.burst,rfl⟩
    · exact ⟨.sustained,List.mem_singleton.mp hhit⟩
  obtain ⟨window',rfl⟩ := hcases
  obtain ⟨rfl,hbeside⟩ := key_eq_iff.mp hkey
  unfold CheckedCall.beside at hbeside
  rw [Bool.and_eq_true,decide_eq_true_eq,decide_eq_true_eq] at hbeside
  exact time_lt_of_bucket hbeside.2

section counts
variable {settings : Settings} {limits : Triple → Limits}

theorem redisAfter_concat (calls : List CheckedCall) (call : CheckedCall) :
    redisAfter settings limits (calls ++ [call]) =
      (checkAt settings limits call (redisAfter settings limits calls)).2 :=
  List.foldl_concat ..

theorem countAt_counts {past : List (String × ℚ≥0)} {redis : Redis} (h : Counters.Counts past redis)
    (call : CheckedCall) (window : Window) (halive : ∀ e ∈ past, e.1 = call.key window → call.time < e.2) :
    (countAt window call redis).1 = past.countP (·.1 = call.key window) + 1 ∧
      Counters.Counts (past ++ [call.hits window]) (countAt window call redis).2 :=
  h.hit (call.time + window.ttl) halive

/-- A check counts the calls before it in both windows, and itself. -/
theorem checkAt_counts (henabled : settings.rateLimitEnabled = true) {before : List CheckedCall} (call : CheckedCall)
    {redis : Redis} (h : Counters.Counts (pastHits before) redis) :
    (checkAt settings limits call redis).1 =
        (if ((before.countP (call.beside .burst) + 1 : Nat) : Int) > scaled settings (limits call.triple).burst ∨
            ((before.countP (call.beside .sustained) + 1 : Nat) : Int) > scaled settings (limits call.triple).sustained
          then { allowed := false, blocked := true, category := call.policy.category, dimension := call.dimension }
          else { allowed := true, category := call.policy.category, dimension := call.dimension }) ∧
      Counters.Counts (pastHits (before ++ [call])) (checkAt settings limits call redis).2 := by
  have hkeys : call.key .burst ≠ call.key .sustained := fun heq => by
    have hwindow := (key_eq_iff.mp heq).1
    cases hwindow
  obtain ⟨hburst,hcounts⟩ := countAt_counts h call .burst fun e he hkey => alive he hkey
  rcases hb : countAt .burst call redis with ⟨burstCount,redis'⟩
  rw [hb] at hburst hcounts
  obtain ⟨hsustained,hcounts'⟩ := countAt_counts hcounts call .sustained (by
    intro e he hkey
    rcases List.mem_append.mp he with he | he
    · exact alive he hkey
    · rw [List.mem_singleton.mp he] at hkey
      exact absurd hkey hkeys)
  rcases hs : countAt .sustained call redis' with ⟨sustainedCount,redis''⟩
  dsimp only at hburst
  rw [hs] at hsustained hcounts'
  rw [CheckedCall.hits,Counters.countP_concat,if_neg hkeys.symm,countP_pastHits,Nat.add_zero] at hsustained
  rw [countP_pastHits] at hburst
  have hpast : pastHits (before ++ [call]) =
      pastHits before ++ [call.hits .burst] ++ [call.hits .sustained] := by
    simp [pastHits]
  dsimp only at hsustained
  unfold checkAt
  rw [hpast,henabled,hb]
  dsimp only
  rw [hs]
  dsimp only
  rw [hburst,hsustained]
  simp only [Bool.not_true,Bool.false_eq_true,if_false]
  split <;> exact ⟨rfl,hcounts'⟩

theorem counts_redisAfter (henabled : settings.rateLimitEnabled = true) (calls : List CheckedCall) :
    Counters.Counts (pastHits calls) (redisAfter settings limits calls) := by
  induction calls using List.reverseRecOn with
  | nil => exact Counters.counts_empty
  | append_singleton calls call ih =>
    rw [redisAfter_concat]
    exact (checkAt_counts henabled call ih).2

/-- The limit of a triple in a window. -/
def limitOf (settings : Settings) (limits : Triple → Limits) (window : Window) (triple : Triple) : Int :=
  scaled settings ((limits triple).of window)

/-- The calls already made in the window have reached its limit. -/
def Reached (settings : Settings) (limits : Triple → Limits) (before : List CheckedCall) (call : CheckedCall)
    (window : Window) : Prop :=
  limitOf settings limits window call.triple ≤ (before.countP (call.beside window) : Int)

instance (before : List CheckedCall) (call : CheckedCall) (window : Window) :
    Decidable (Reached settings limits before call window) := by
  unfold Reached
  infer_instance

theorem verdict_eq (henabled : settings.rateLimitEnabled = true) (before : List CheckedCall) (call : CheckedCall) :
    verdict settings limits before call =
      if Reached settings limits before call .burst ∨ Reached settings limits before call .sustained
        then { allowed := false, blocked := true, category := call.policy.category, dimension := call.dimension }
        else { allowed := true, category := call.policy.category, dimension := call.dimension } := by
  unfold verdict
  rw [(checkAt_counts henabled call (counts_redisAfter henabled before)).1]
  have hreached (n : Nat) (limit : Int) : ((n + 1 : Nat) : Int) > limit ↔ limit ≤ n := by omega
  simp only [hreached]
  rfl

theorem decisionsFrom_append (redis : Redis) (calls more : List CheckedCall) :
    decisionsFrom settings limits redis (calls ++ more) = decisionsFrom settings limits redis calls ++
      decisionsFrom settings limits
        (calls.foldl (fun redis call => (checkAt settings limits call redis).2) redis) more := by
  induction calls generalizing redis with
  | nil => rfl
  | cons call rest ih => exact congrArg (_ :: ·) (ih _)

theorem decisions_concat (calls : List CheckedCall) (call : CheckedCall) :
    decisions settings limits (calls ++ [call]) =
      decisions settings limits calls ++ [(call,verdict settings limits calls call)] :=
  decisionsFrom_append ..

end counts

/-! The checks without expiry agree: no key is read after its time -/

section agreement
variable {settings : Settings} {limits : Triple → Limits} {server : Server} {world : World}

/-- Nothing fails on the server. -/
structure Healthy (server : Server) : Prop where
  initialized : server.initialized = true
  answers : ∀ n, server.raises n = false

/-- The counters of the world hold the hits of a past. -/
def Holds (past : List (String × ℚ≥0)) (world : World) : Prop :=
  ∀ key, (world.counts.get? key).getD 0 = past.countP (·.1 = key)

theorem count_holds (h : Healthy server) {past : List (String × ℚ≥0)} (hpast : Holds past world)
    (hit : String × ℚ≥0) : ∃ world', count server hit.1 world = (some (past.countP (·.1 = hit.1) + 1),world') ∧
      Holds (past ++ [hit]) world' := by
  have hset (calls : Nat) : Holds (past ++ [hit]) { world with
      counts := world.counts.set hit.1 (past.countP (·.1 = hit.1) + 1), calls } := by
    intro key
    dsimp only
    rw [Counters.countP_concat,Dict.get?_set]
    by_cases hkey : key = hit.1
    · rw [if_pos hkey,if_pos hkey,hkey]
      rfl
    · rw [if_neg hkey,if_neg hkey,Nat.add_zero,← hpast key]
  have hincr : incr server hit.1 world = (some (past.countP (·.1 = hit.1) + 1),{ world with
      counts := world.counts.set hit.1 (past.countP (·.1 = hit.1) + 1)
      calls := world.calls + 1 }) := by
    simp [incr,h.answers,hpast hit.1]
  unfold count
  rw [hincr]
  dsimp only
  split
  · refine ⟨_,?_,hset (world.calls + 1 + 1)⟩
    simp [expire,h.answers]
  · exact ⟨_,rfl,hset (world.calls + 1)⟩

theorem counted_holds (hserver : Healthy server) {before : List CheckedCall} (call : CheckedCall)
    (hworld : Holds (pastHits before) world) (htime : server.time world.calls = ⌊call.time⌋₊) :
    ∃ world', counted server call.policy.category call.dimension call.identifier world =
        (some (before.countP (call.beside .burst) + 1,before.countP (call.beside .sustained) + 1),world') ∧
      Holds (pastHits (before ++ [call])) world' := by
  have hkeys : call.key .sustained ≠ call.key .burst := fun heq => by
    have hwindow := (key_eq_iff.mp heq).1
    cases hwindow
  have hpast : pastHits (before ++ [call]) =
      pastHits before ++ [call.hits .burst] ++ [call.hits .sustained] := by
    simp [pastHits]
  obtain ⟨world',hburst,hworld'⟩ := count_holds hserver hworld (call.hits .burst)
  obtain ⟨world'',hsustained,hworld''⟩ := count_holds hserver hworld' (call.hits .sustained)
  rw [CheckedCall.hits,countP_pastHits] at hburst
  rw [CheckedCall.hits,CheckedCall.hits,Counters.countP_concat,if_neg hkeys,countP_pastHits,Nat.add_zero] at hsustained
  refine ⟨world'',?_,hpast ▸ hworld''⟩
  have hkey (window : Window) : "ratelimit:" ++ window.name ++ ":" ++ call.dimension.value ++ ":" ++ call.identifier ++
      ":" ++ call.policy.category ++ ":" ++ toString (⌊call.time⌋₊ / window.seconds) = call.key window := rfl
  unfold counted
  rw [hserver.initialized,htime]
  have hkeyBurst := hkey .burst
  have hkeySustained := hkey .sustained
  simp only [Window.name,Window.seconds] at hkeyBurst hkeySustained
  simp only [Bool.not_true,Bool.false_eq_true,if_false,hkeyBurst,hkeySustained,hburst,hsustained]

/-- Where nothing fails and the clock stays for a check, the limiter without expiry gives the
same result, and goes on to. -/
theorem check_agrees (henabled : settings.rateLimitEnabled = true) (hserver : Healthy server)
    {before : List CheckedCall} (call : CheckedCall) {redis : Redis} (hredis : Counters.Counts (pastHits before) redis)
    (hworld : Holds (pastHits before) world) (htime : server.time world.calls = ⌊call.time⌋₊) :
    ∃ world', check settings server call.policy call.dimension call.identifier (limits call.triple).sustained
        (limits call.triple).burst world = ((checkAt settings limits call redis).1,world') ∧
      Holds (pastHits (before ++ [call])) world' := by
  obtain ⟨world',hcounted,hworld'⟩ := counted_holds hserver call hworld htime
  rw [(checkAt_counts henabled call hredis).1]
  unfold check
  rw [henabled,hcounted]
  simp only [Bool.not_true,Bool.false_eq_true,if_false]
  split
  · exact ⟨_,rfl,hworld'⟩
  · exact ⟨_,rfl,hworld'⟩

end agreement

/-! Exact windows -/

/-- The calls of a triple that a window admits. -/
def admitted (decisions : List (CheckedCall × RateLimitResult)) (window : Window) (triple : Triple) (bucket : Nat) : Nat :=
  decisions.countP fun (call,result) =>
    call.triple = triple && window.bucket call.time = bucket && result.allowed

/-- A call is blocked where the calls of its triple have reached a limit, no window admits
more than its limit, and calls of other triples have no say. -/
structure ExactWindows (settings : Settings) (limits : Triple → Limits) (calls : List CheckedCall) : Prop where
  blocked : ∀ before call after, calls = before ++ call :: after →
    ((verdict settings limits before call).blocked = true ↔
      Reached settings limits before call .burst ∨ Reached settings limits before call .sustained) ∧
    (verdict settings limits before call).allowed = !(verdict settings limits before call).blocked
  admits : ∀ window triple bucket,
    (admitted (decisions settings limits calls) window triple bucket : Int) ≤ limitOf settings limits window triple
  independent : ∀ before call after, calls = before ++ call :: after →
    verdict settings limits before call =
      verdict settings limits (before.filter (·.triple = call.triple)) call

section exactness
variable {settings : Settings} {limits : Triple → Limits}

theorem limitOf_pos (window : Window) (triple : Triple) : 0 < limitOf settings limits window triple :=
  lt_of_lt_of_le Int.one_pos (le_max_left ..)

theorem admitted_concat (calls : List CheckedCall) (call : CheckedCall) (window : Window) (triple : Triple) (bucket : Nat) :
    admitted (decisions settings limits (calls ++ [call])) window triple bucket =
      admitted (decisions settings limits calls) window triple bucket +
        if call.triple = triple ∧ window.bucket call.time = bucket ∧
          (verdict settings limits calls call).allowed = true then 1 else 0 := by
  rw [decisions_concat,admitted,admitted,List.countP_append,List.countP_singleton]
  simp [and_assoc]

/-- Each admitted call came before its limit was reached. -/
theorem admitted_le (henabled : settings.rateLimitEnabled = true) (calls : List CheckedCall) (window : Window)
    (triple : Triple) (bucket : Nat) :
    admitted (decisions settings limits calls) window triple bucket ≤
        calls.countP (fun call => call.triple = triple && window.bucket call.time = bucket) ∧
      (admitted (decisions settings limits calls) window triple bucket : Int) ≤ limitOf settings limits window triple := by
  induction calls using List.reverseRecOn with
  | nil => exact ⟨Nat.le_refl _,(limitOf_pos window triple).le⟩
  | append_singleton calls call ih =>
    obtain ⟨hcount,hlimit⟩ := ih
    rw [admitted_concat,List.countP_append,List.countP_singleton]
    by_cases hin : call.triple = triple ∧ window.bucket call.time = bucket
    · obtain ⟨rfl,rfl⟩ := hin
      have hbeside : calls.countP (fun other => other.triple = call.triple &&
          window.bucket other.time = window.bucket call.time) = calls.countP (call.beside window) := rfl
      rw [hbeside] at hcount ⊢
      by_cases hallowed : (verdict settings limits calls call).allowed = true
      · have hbelow : ¬ Reached settings limits calls call window := by
          intro hreached
          rw [verdict_eq henabled,if_pos (by cases window <;> simp [hreached])] at hallowed
          cases hallowed
        unfold Reached at hbelow
        simp only [hallowed,and_self,if_true,decide_true,Bool.and_self]
        omega
      · simp only [hallowed,decide_true,Bool.and_self,if_true]
        exact ⟨Nat.le_succ_of_le hcount,hlimit⟩
    · have hout : ¬ (call.triple = triple ∧ window.bucket call.time = bucket ∧
          (verdict settings limits calls call).allowed = true) := fun h => hin ⟨h.1,h.2.1⟩
      rw [if_neg hout,Nat.add_zero]
      exact ⟨hcount.trans (Nat.le_add_right _ _),hlimit⟩

theorem beside_filter (before : List CheckedCall) (call : CheckedCall) (window : Window) :
    (before.filter (·.triple = call.triple)).countP (call.beside window) = before.countP (call.beside window) := by
  rw [List.countP_filter]
  apply List.countP_congr
  intro other _
  unfold CheckedCall.beside
  simp only [Bool.and_eq_true,decide_eq_true_eq]
  exact ⟨And.left,fun h => ⟨h,h.1⟩⟩

theorem reached_filter (before : List CheckedCall) (call : CheckedCall) (window : Window) :
    Reached settings limits (before.filter (·.triple = call.triple)) call window ↔
      Reached settings limits before call window := by
  unfold Reached
  rw [beside_filter]

/-- For all calls at whatever clock values, identifiers and limits of their triples: the
windows are exact, and those of different triples independent. -/
theorem windows_exact (settings : Settings) (henabled : settings.rateLimitEnabled = true) (limits : Triple → Limits)
    (calls : List CheckedCall) : ExactWindows settings limits calls where
  blocked before call after _ := by
    rw [verdict_eq henabled]
    split
    · next hreached => exact ⟨iff_of_true rfl hreached,rfl⟩
    · next hbelow => exact ⟨iff_of_false Bool.false_ne_true hbelow,rfl⟩
  admits window triple bucket := (admitted_le henabled calls window triple bucket).2
  independent before call after _ := by
    rw [verdict_eq henabled,verdict_eq henabled]
    simp only [reached_filter]

end exactness

/-- Two callers of the demo, one with a colon in its address. -/
theorem demo_windows_exact :
    let call (identifier : String) (time : ℚ≥0) : CheckedCall :=
      { policy := rateLimitPolicies[2], dimension := .ip, identifier, time, known := List.getElem_mem _ }
    ExactWindows {} (fun _ => ⟨1,2⟩) [call "203.0.113.1" 0,call "2001:db8::1" 9,call "203.0.113.1" 9] :=
  windows_exact {} rfl _ _

end VoxForge.RateLimit
