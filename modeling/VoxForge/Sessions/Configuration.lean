import VoxForge.Core.Coercions
import VoxForge.Core.Handoff
import VoxForge.Foundation.Dict

/-! The session config as each transport accepts it, and what later turns make of it:
`get_session_config`, `load_escalation_policy` and `track_tool_failures`. -/
namespace VoxForge.Sessions
open Foundation Core

abbrev ConfigDict := Dict String Json

/-- The dictionary that a JSON object is parsed into. -/
def dictOf (entries : List (String × Json)) : ConfigDict := Dict.setAll Prod.fst Prod.snd Dict.empty entries

/-! What is accepted -/

/-- The fields of the REST model `SessionConfig`. -/
def restKeys : List String := ["language","voice_id"]

/-- A field of type `str | None` with a maximal length; blank text becomes `None`. -/
def restField (maxLength : Nat) : Option Json → Option (Option String)
  | none | some .null => some none
  | some (.str value) =>
    if value.length > maxLength then none
    else some (if strip value = "" then none else some (strip value))
  | _ => none

def maxSessionConfigBytes : Nat := 4096

/-- The validated fields of a config object; any other key is refused. -/
def restModel (given : ConfigDict) : Option ConfigDict :=
  if given.entries.all (·.1 ∈ restKeys) then do
    let language ← restField 16 (given.get? "language")
    let voiceId ← restField 128 (given.get? "voice_id")
    return dictOf ((language.map fun value => ("language",.str value)).toList ++
      (voiceId.map fun value => ("voice_id",.str value)).toList)
  else none

/-- `CreateSessionRequest.config_dict`, where the body is accepted; `jsonSize` is the length of
what the model writes. -/
def restConfig (jsonSize : ConfigDict → Nat) (config : Option Json) : Option ConfigDict :=
  match config.getD (.obj []) with
  | .obj entries => (restModel (dictOf entries)).filter (jsonSize · ≤ maxSessionConfigBytes)
  | _ => none

/-- `{**config, "caller_scopes": …}`: only an object can be spread. -/
def webSocketConfig (scopes : List String) (config : Option Json) : Option ConfigDict :=
  match config.getD (.obj []) with
  | .obj entries => some ((dictOf entries).set "caller_scopes" (.arr (scopes.map .str)))
  | _ => none

inductive StartRequest where
  | rest (config : Option Json)
  | webSocket (config : Option Json) (scopes : List String)

def StartRequest.accepted (jsonSize : ConfigDict → Nat) : StartRequest → Option ConfigDict
  | rest config => restConfig jsonSize config
  | webSocket config scopes => webSocketConfig scopes config

/-! What reads it -/

structure PolicySettings where
  handoffMinConfidence : PyFloat := .finite (55 / 100)
  handoffEscalateOnToolFailure : Bool := true
  handoffMaxToolFailures : Int := 2
  deriving DecidableEq, Repr

def assignmentStrategy? : String → Option AssignmentStrategy
  | "round_robin" => some .roundRobin
  | "manual" => some .manual
  | "least_loaded" => some .leastLoaded
  | _ => none

section readers
variable (host : Host) (settings : PolicySettings)

/-- `bool(config.get(key, default))`. -/
def flagOr (default : Bool) (value : Option Json) : Bool := (value.map (·.truthy)).getD default

def loadEscalationPolicy (config : ConfigDict) : Except CoercionError EscalationPolicy := do
  let toolConfig : ConfigDict :=
    match config.get? "tool_config" with
    | some (.obj entries) => dictOf entries
    | _ => Dict.empty
  let strategyRaw := ((config.get? "assignment_strategy").filter (·.truthy)).getD
    ((toolConfig.get? "assignment_strategy").getD (.str "round_robin"))
  let minConfidence ← ((config.get? "min_confidence").getD (.float settings.handoffMinConfidence)).toFloat host
  let maxToolFailures ← ((config.get? "max_tool_failures").getD (.int settings.handoffMaxToolFailures)).toInt host
  return {
    fallbackToHuman := flagOr (flagOr true (toolConfig.get? "fallback_to_human")) (config.get? "fallback_to_human")
    minConfidence
    escalateOnToolFailure := flagOr settings.handoffEscalateOnToolFailure (config.get? "escalate_on_tool_failure")
    maxToolFailures
    escalateOnCriticalToolFailure := flagOr true (config.get? "escalate_on_critical_tool_failure")
    requireExplicitRequest := flagOr false (config.get? "require_explicit_request")
    autoCreateTicket := flagOr true (config.get? "auto_create_ticket")
    assignmentStrategy := (assignmentStrategy? (strategyRaw.text host.render)).getD .roundRobin
    handoffMessage := ((config.get? "handoff_message").getD
      (.str ({} : EscalationPolicy).handoffMessage)).text host.render }

/-- Where the config of one session is kept: in the row and in the Redis document. -/
structure ConfigStore where
  metadata : ConfigDict
  document : Option ConfigDict

namespace ConfigStore

/-- `create_session`. -/
def created (config : ConfigDict) : ConfigStore := ⟨config,some config⟩

/-- `get_session_config`, and the config of a document that is loaded or made again from the row. -/
def current (s : ConfigStore) : ConfigDict := s.document.getD s.metadata

def write (s : ConfigStore) (config : ConfigDict) : ConfigStore := { s with document := some config }

def trackToolFailures (failedCount : Int) (s : ConfigStore) : Except CoercionError Int × ConfigStore :=
  let config := s.current
  match ((config.get? "consecutive_tool_failures").getD (.int 0)).toInt host with
  | .error e => (.error e,s.write config)
  | .ok current =>
    let current := if failedCount > 0 then current + failedCount else 0
    (.ok current,s.write (config.set "consecutive_tool_failures" (.int current)))

/-- The part of a turn that reads the config. -/
def turn (failedCount : Int) (s : ConfigStore) : Except CoercionError (EscalationPolicy × Int) × ConfigStore :=
  match loadEscalationPolicy host settings s.current with
  | .error e => (.error e,s)
  | .ok policy =>
    let (consecutive,t) := s.trackToolFailures host failedCount
    (consecutive.map (policy,·),t)

end ConfigStore

/-- What happens to the config while the session lives. -/
inductive ConfigEvent where
  | turn (failedCount : Int)
  | applyHandoffPending (context : Json)
  | applyHandoffActive (handoffId : String)
  | clearHandoff
  /-- The document is made again from the row. -/
  | reconcile
  | expire

def ConfigStore.step (s : ConfigStore) : ConfigEvent → ConfigStore
  | .turn failedCount => (s.turn host settings failedCount).2
  | .applyHandoffPending context =>
    s.write ((s.current.set "handoff" context).set "consecutive_tool_failures"
      ((s.current.get? "consecutive_tool_failures").getD (.int 0)))
  | .applyHandoffActive handoffId =>
    match (s.current.get? "handoff").getD (.obj []) with
    | .obj entries =>
      s.write (s.current.set "handoff" (.obj ((dictOf entries).set "handoff_id" (.str handoffId)).entries))
    | _ => s.write s.current
  | .clearHandoff => s.write (s.current.pop "handoff")
  | .reconcile => s.write s.current
  | .expire => { s with document := none }

/-- No turn raises because of the config, whatever has happened before it. -/
def NeverRaises (s : ConfigStore) : Prop :=
  ∀ events failedCount, ((List.foldl (ConfigStore.step host settings) s events).turn host settings failedCount).1.isOk

/-- What is asked of a session's config: no later turn raises because of it, and it has no key that
the REST model forbids, besides the one that the server sets. -/
structure ConfigurationSafe (jsonSize : ConfigDict → Nat) (request : StartRequest) : Prop where
  turns : ∀ config, request.accepted jsonSize = some config → NeverRaises host settings (.created config)
  keys : ∀ config, request.accepted jsonSize = some config →
    ∀ key, (config.get? key).isSome → key ∈ restKeys ∨ key = "caller_scopes"

/-- Every field that a turn coerces can be coerced. -/
structure Coercible (config : ConfigDict) : Prop where
  minConfidence : ∀ value, config.get? "min_confidence" = some value → (value.toFloat host).isOk
  maxToolFailures : ∀ value, config.get? "max_tool_failures" = some value → (value.toInt host).isOk
  consecutive : ∀ value, config.get? "consecutive_tool_failures" = some value → (value.toInt host).isOk

end readers

section coercions
variable {host : Host} {settings : PolicySettings} {config : ConfigDict} {s : ConfigStore}

theorem not_isOk_error {α : Type} (e : CoercionError) : ¬(Except.error e : Except CoercionError α).isOk = true :=
  Bool.false_ne_true

/-- A default that can be coerced stands in for a missing field. -/
theorem isOk_getD {α : Type} {coerce : Json → Except CoercionError α} {value : Option Json} {d : Json}
    (hd : (coerce d).isOk) : (coerce (value.getD d)).isOk ↔ ∀ v, value = some v → (coerce v).isOk := by
  cases value with
  | none => simp [hd]
  | some v => simp

theorem loadEscalationPolicy_isOk :
    (loadEscalationPolicy host settings config).isOk ↔
      (∀ value, config.get? "min_confidence" = some value → (value.toFloat host).isOk) ∧
        ∀ value, config.get? "max_tool_failures" = some value → (value.toInt host).isOk := by
  rw [← isOk_getD (d := .float settings.handoffMinConfidence) rfl,
    ← isOk_getD (d := .int settings.handoffMaxToolFailures) rfl]
  simp only [loadEscalationPolicy]
  cases ((config.get? "min_confidence").getD (.float settings.handoffMinConfidence)).toFloat host with
  | error e => exact iff_of_false (not_isOk_error e) fun h => not_isOk_error e h.1
  | ok minConfidence =>
    cases ((config.get? "max_tool_failures").getD (.int settings.handoffMaxToolFailures)).toInt host with
    | error e => exact iff_of_false (not_isOk_error e) fun h => not_isOk_error e h.2
    | ok maxToolFailures => exact iff_of_true rfl ⟨rfl,rfl⟩

theorem trackToolFailures_isOk (failedCount : Int) :
    (s.trackToolFailures host failedCount).1.isOk ↔
      ∀ value, s.current.get? "consecutive_tool_failures" = some value → (value.toInt host).isOk := by
  rw [← isOk_getD (d := .int 0) rfl]
  simp only [ConfigStore.trackToolFailures]
  cases ((s.current.get? "consecutive_tool_failures").getD (.int 0)).toInt host with
  | error e => exact iff_of_false (not_isOk_error e) (not_isOk_error e)
  | ok current => exact iff_of_true rfl rfl

/-- A turn raises exactly if a field that it coerces cannot be coerced. -/
theorem turn_isOk (failedCount : Int) :
    (s.turn host settings failedCount).1.isOk ↔ Coercible host s.current := by
  have hload : (loadEscalationPolicy host settings s.current).isOk ↔ _ := loadEscalationPolicy_isOk
  have htrack : (s.trackToolFailures host failedCount).1.isOk ↔ _ := trackToolFailures_isOk failedCount
  unfold ConfigStore.turn
  cases hpolicy : loadEscalationPolicy host settings s.current with
  | error e =>
    rw [hpolicy] at hload
    exact iff_of_false (not_isOk_error e) fun h =>
      not_isOk_error e (hload.mpr ⟨h.minConfidence,h.maxToolFailures⟩)
  | ok policy =>
    rw [hpolicy] at hload
    obtain ⟨hmin,hmax⟩ := hload.mp rfl
    have hmap (r : Except CoercionError Int) : (r.map (policy,·)).isOk = r.isOk := by cases r <;> rfl
    rw [hmap]
    exact htrack.trans ⟨fun h => ⟨hmin,hmax,h⟩,fun h => h.consecutive⟩

/-- A config that gives the coerced fields as another one does, but for a counter that is a number. -/
theorem Coercible.of_reads {config' : ConfigDict} (h : Coercible host config)
    (hmin : config'.get? "min_confidence" = config.get? "min_confidence")
    (hmax : config'.get? "max_tool_failures" = config.get? "max_tool_failures")
    (hcounter : config'.get? "consecutive_tool_failures" = config.get? "consecutive_tool_failures" ∨
      ∃ n, config'.get? "consecutive_tool_failures" = some (.int n)) : Coercible host config' where
  minConfidence value hvalue := h.minConfidence value (hmin.symm.trans hvalue)
  maxToolFailures value hvalue := h.maxToolFailures value (hmax.symm.trans hvalue)
  consecutive value hvalue := by
    rcases hcounter with hsame | ⟨n,hn⟩
    · exact h.consecutive value (hsame.symm.trans hvalue)
    · rw [hn] at hvalue
      cases hvalue
      rfl

/-- Both places hold configs that can be coerced. -/
structure ConfigStore.Sound (host : Host) (s : ConfigStore) : Prop where
  metadata : Coercible host s.metadata
  document : ∀ config, s.document = some config → Coercible host config

theorem ConfigStore.Sound.current (h : s.Sound host) : Coercible host s.current := by
  unfold ConfigStore.current
  cases hdocument : s.document with
  | none => exact h.metadata
  | some config => exact h.document config hdocument

theorem ConfigStore.Sound.write (h : s.Sound host) (hconfig : Coercible host config) :
    (s.write config).Sound host :=
  ⟨h.metadata,fun _ he => Option.some.inj he ▸ hconfig⟩

/-- Nothing that happens to the config makes a field worse. -/
theorem ConfigStore.Sound.step (h : s.Sound host) (event : ConfigEvent) :
    (s.step host settings event).Sound host := by
  cases event with
  | turn failedCount =>
    have hcurrent := h.current
    simp only [ConfigStore.step,ConfigStore.turn]
    split
    · exact h
    · simp only [ConfigStore.trackToolFailures]
      split
      · exact h.write hcurrent
      · exact h.write (hcurrent.of_reads (by simp) (by simp) (.inr ⟨_,by rw [Dict.get?_set,if_pos rfl]⟩))
  | applyHandoffPending context =>
    have hcounter : ((s.current.get? "consecutive_tool_failures").getD (.int 0)) = .int 0 ∨
        s.current.get? "consecutive_tool_failures" =
          some ((s.current.get? "consecutive_tool_failures").getD (.int 0)) := by
      cases s.current.get? "consecutive_tool_failures" with
      | none => exact .inl rfl
      | some value => exact .inr rfl
    apply h.write
    apply h.current.of_reads (by simp) (by simp)
    rcases hcounter with hzero | hsame
    · exact .inr ⟨0,by simp [hzero]⟩
    · exact .inl (by rw [Dict.get?_set,if_pos rfl]; exact hsame.symm)
  | applyHandoffActive handoffId =>
    simp only [ConfigStore.step]
    split
    · exact h.write (h.current.of_reads (by simp) (by simp) (.inl (by simp)))
    · exact h.write h.current
  | clearHandoff => exact h.write (h.current.of_reads (by simp) (by simp) (.inl (by simp)))
  | reconcile => exact h.write h.current
  | expire => exact ⟨h.metadata,fun _ he => by cases he⟩

/-- The config of a session decides once and for all whether its turns raise. -/
theorem neverRaises_created_iff : NeverRaises host settings (.created config) ↔ Coercible host config := by
  constructor
  · intro h
    exact (turn_isOk 0).mp (h [] 0)
  · intro h events failedCount
    have hsound : (List.foldl (ConfigStore.step host settings) (.created config) events).Sound host := by
      have hstart : (ConfigStore.created config).Sound host := ⟨h,fun _ he => Option.some.inj he ▸ h⟩
      generalize ConfigStore.created config = s at hstart
      induction events generalizing s with
      | nil => exact hstart
      | cons event events ih => exact ih _ (hstart.step event)
    exact (turn_isOk failedCount).mpr hsound.current

end coercions

/-! What a request brings in -/

/-- A REST request, or an object with the keys that REST knows and the one that the server sets. -/
def StartRequest.Listed : StartRequest → Prop
  | rest _ => True
  | webSocket config _ => ∀ entries, config.getD (.obj []) = .obj entries →
      ∀ entry ∈ entries, entry.1 ∈ restKeys ∨ entry.1 = "caller_scopes"

section requests
variable {jsonSize : ConfigDict → Nat} {config : ConfigDict}

/-- The keys of a dictionary are those of the entries that it is made from. -/
theorem isSome_dictOf {entries : List (String × Json)} {key : String} :
    ((dictOf entries).get? key).isSome ↔ ∃ entry ∈ entries, entry.1 = key := by
  rw [dictOf,Dict.get?_setAll]
  simp [List.find?_isSome,Dict.get?_empty]

theorem restModel_keys {given : ConfigDict} (h : restModel given = some config) {key : String}
    (hkey : (config.get? key).isSome) : key ∈ restKeys := by
  unfold restModel at h
  split at h
  · obtain ⟨language,-,h⟩ := Option.bind_eq_some_iff.mp h
    obtain ⟨voiceId,-,h⟩ := Option.bind_eq_some_iff.mp h
    obtain rfl := Option.some.inj h
    obtain ⟨entry,hentry,rfl⟩ := isSome_dictOf.mp hkey
    rcases List.mem_append.mp hentry with hentry | hentry
    · obtain ⟨value,-,rfl⟩ := Option.map_eq_some_iff.mp (Option.mem_toList.mp hentry)
      exact List.mem_cons_self
    · obtain ⟨value,-,rfl⟩ := Option.map_eq_some_iff.mp (Option.mem_toList.mp hentry)
      exact List.mem_cons_of_mem _ List.mem_cons_self
  · cases h

/-- The keys that a listed request leaves in the config. -/
theorem StartRequest.Listed.keys {request : StartRequest} (hlisted : request.Listed)
    (h : request.accepted jsonSize = some config) {key : String} (hkey : (config.get? key).isSome) :
    key ∈ restKeys ∨ key = "caller_scopes" := by
  cases request with
  | rest given =>
    simp only [accepted,restConfig] at h
    split at h
    · exact .inl (restModel_keys (Option.filter_eq_some_iff.mp h).1 hkey)
    · cases h
  | webSocket given scopes =>
    simp only [accepted,webSocketConfig] at h
    split at h
    · next entries hentries =>
      obtain rfl := Option.some.inj h
      rw [Dict.get?_set] at hkey
      split at hkey
      · next hscopes => exact .inr hscopes
      · obtain ⟨entry,hentry,rfl⟩ := isSome_dictOf.mp hkey
        exact hlisted entries hentries entry hentry
    · cases h

/-- A config without other keys has nothing that a turn could fail to coerce. -/
theorem coercible_of_keys {host : Host}
    (h : ∀ key, (config.get? key).isSome → key ∈ restKeys ∨ key = "caller_scopes") : Coercible host config := by
  have habsent (key : String) (hkey : ¬(key ∈ restKeys ∨ key = "caller_scopes")) : config.get? key = none := by
    by_contra hne
    exact hkey (h key (Option.isSome_iff_ne_none.mpr hne))
  have hmin := habsent "min_confidence" (by decide)
  have hmax := habsent "max_tool_failures" (by decide)
  have hcounter := habsent "consecutive_tool_failures" (by decide)
  exact ⟨by simp [hmin],by simp [hmax],by simp [hcounter]⟩

/-- A config is safe exactly if it comes in over REST, or has no key that REST would refuse. -/
theorem configurationSafe_iff (host : Host) (settings : PolicySettings) (jsonSize : ConfigDict → Nat)
    (request : StartRequest) : ConfigurationSafe host settings jsonSize request ↔ request.Listed := by
  constructor
  · intro h
    cases request with
    | rest given => trivial
    | webSocket given scopes =>
      intro entries hentries entry hentry
      have haccepted : (StartRequest.webSocket given scopes).accepted jsonSize =
          some ((dictOf entries).set "caller_scopes" (.arr (scopes.map .str))) := by
        simp only [StartRequest.accepted,webSocketConfig,hentries]
      apply h.keys _ haccepted
      rw [Dict.get?_set]
      split
      · rfl
      · exact isSome_dictOf.mpr ⟨entry,hentry,rfl⟩
  · intro hlisted
    refine ⟨fun config h => ?_,fun config h key hkey => hlisted.keys h hkey⟩
    exact neverRaises_created_iff.mpr (coercible_of_keys fun key hkey => hlisted.keys h hkey)

/-- A client sends `null` for the least confidence: the session starts, and its first turn raises. -/
theorem nullConfidence_raises :
    ∃ config, (StartRequest.webSocket (some (.obj [("min_confidence",.null)])) []).accepted (fun _ => 0) =
        some config ∧
      ((ConfigStore.created config).turn asciiHost {} 0).1 = .error .typeError ∧
      ¬ConfigurationSafe asciiHost {} (fun _ => 0) (.webSocket (some (.obj [("min_confidence",.null)])) []) := by
  have hturn : ((ConfigStore.created ((dictOf [("min_confidence",.null)]).set "caller_scopes" (.arr []))).turn
      asciiHost {} 0).1 = .error .typeError := rfl
  refine ⟨_,rfl,hturn,fun h => ?_⟩
  have hok := h.turns _ rfl [] 0
  rw [List.foldl_nil] at hok
  exact absurd ((congrArg Except.isOk hturn).symm.trans hok) (by decide)

end requests
end VoxForge.Sessions
