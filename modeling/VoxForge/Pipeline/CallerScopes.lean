import VoxForge.Foundation.Runs
import VoxForge.Pipeline.Bundle

/-! Whose authority a turn's tools run with. The bootstrap leaves the owner's scopes
behind; the socket replaces them before any turn can run, the workers do not. -/
namespace VoxForge.Pipeline
open Foundation Core

/-- The turn's tools have no scope that the session's starter lacks. -/
def Turn.Bounded (t : Turn) : Prop :=
  ∀ scopes, t.toolScopes = some scopes →
    scopes ⊆ ((t.starter.map fun starter => effectiveScopes starter.principal).getD [])

namespace Process

def current (p : Process) : ResponseGenerator := p.generator p.pipelineRef

/-- A turn is no escalation: it runs on the socket, or without tools, or its
session has no organisation, or whoever created it holds the owner's scopes. -/
def Contained (p : Process) : Label → Prop
  | .turn session =>
    p.transport = .websocket ∨ p.current.multiAgent = false ∨
      ∀ starter, p.starters.get? session = some starter →
        starter.orgId = none ∨ OrgRole.owner.scopes ⊆ effectiveScopes starter.principal
  | _ => True

/-- The scopes that a transport leaves on the generator for a session. -/
def granted (transport : Transport) (starter : Starter) : List Scope :=
  if transport = .websocket then effectiveScopes starter.principal else OrgRole.owner.scopes

/-- Every entry of a generator was left by the transport for the session's starter. -/
structure Sound (transport : Transport) (gen : ResponseGenerator)
    (starters : Dict SessionId Starter) : Prop where
  single : gen.multiAgent = false → ∀ session, gen.callerScopes.get? session = none
  entry : ∀ session scopes, gen.callerScopes.get? session = some scopes →
    ∃ starter, starters.get? session = some starter ∧ scopes = granted transport starter ∧
      (transport ≠ .websocket → starter.orgId ≠ none)

/-- What every step keeps: one generator is in use, its entries are sound, and
the workers leave one for each session of an organisation. -/
structure Kept (p : Process) : Prop where
  bundle : p.bundleRef = p.pipelineRef
  handler : p.handlerRef = p.pipelineRef
  valid : p.pipelineRef < p.generators.length
  sound : Sound p.transport p.current p.starters
  complete : p.transport ≠ .websocket → p.current.multiAgent → ∀ session starter,
    p.starters.get? session = some starter → starter.orgId ≠ none →
      p.current.callerScopes.get? session = some OrgRole.owner.scopes

theorem sound_fresh (transport : Transport) (mode : String) (starters : Dict SessionId Starter) :
    Sound transport (createResponseGenerator mode) starters where
  single _ session := by simp [createResponseGenerator]
  entry session scopes h := by simp [createResponseGenerator] at h

theorem kept_build (transport : Transport) (settingsMode : String) :
    (build transport settingsMode).Kept where
  bundle := rfl
  handler := rfl
  valid := Nat.one_pos
  sound := sound_fresh transport settingsMode _
  complete _ _ session starter h := by simp [build] at h

/-- Granting a session's scopes to its starter keeps a generator sound, whatever
entry the session had before. -/
theorem Sound.grant {transport : Transport} {gen base : ResponseGenerator}
    {starters : Dict SessionId Starter} (h : Sound transport base starters)
    (session : SessionId) (starter : Starter) (hmulti : gen.multiAgent = base.multiAgent)
    (horg : transport ≠ .websocket → starter.orgId ≠ none)
    (hgen : ∀ other, gen.callerScopes.get? other =
      if gen.multiAgent ∧ other = session then some (granted transport starter)
      else base.callerScopes.get? other) :
    Sound transport gen (starters.set session starter) where
  single hs other := by
    rw [hgen,if_neg (by simp [hs])]
    exact h.single (hmulti ▸ hs) other
  entry other scopes hsc := by
    rw [hgen] at hsc
    rw [Dict.get?_set]
    by_cases ho : other = session
    · by_cases hm : gen.multiAgent
      · rw [if_pos ⟨hm,ho⟩] at hsc
        rw [if_pos ho]
        exact ⟨starter,rfl,(Option.some.inj hsc).symm,horg⟩
      · rw [if_neg (by simp [hm]),h.single (by simpa [hmulti] using hm)] at hsc
        cases hsc
    · rw [if_neg (by simp [ho])] at hsc
      rw [if_neg ho]
      exact h.entry other scopes hsc

theorem current_setCallerScopes {p : Process} (hv : p.pipelineRef < p.generators.length)
    (session : SessionId) (scopes : List Scope) :
    (p.setCallerScopes p.pipelineRef session scopes).current =
      p.current.setCallerScopes session scopes := by
  simp [current,generator,setCallerScopes,hv]

/-- The bootstrap: one generator stays in use, the old one or a fresh one, and the
owner's scopes are set on it. -/
theorem bootstrap_spec {p : Process} (h : p.Kept) (session : SessionId) (config : LoadedConfig) :
    let q := p.bootstrapSessionAgentConfig session config
    q.bundleRef = q.pipelineRef ∧ q.pipelineRef < q.generators.length ∧
      q.transport = p.transport ∧ q.starters = p.starters ∧ q.turns = p.turns ∧
      ∃ base, Sound p.transport base p.starters ∧
        q.current = base.setCallerScopes session OrgRole.owner.scopes := by
  intro q
  by_cases hswap : decide (effectiveOrchestratorMode config p.settingsMode = "multi_agent") ≠
      (p.generator p.bundleRef).multiAgent
  · have hq : q = Process.setCallerScopes { p with
        generators := p.generators ++
          [createResponseGenerator (effectiveOrchestratorMode config p.settingsMode)]
        pipelineRef := p.generators.length
        bundleRef := p.generators.length } p.generators.length session OrgRole.owner.scopes := by
      simp only [q,bootstrapSessionAgentConfig,applyActiveAgentConfig,if_pos hswap]
    rw [hq]
    refine ⟨rfl,by simp [setCallerScopes],rfl,rfl,rfl,createResponseGenerator
      (effectiveOrchestratorMode config p.settingsMode),sound_fresh _ _ _,?_⟩
    rw [current_setCallerScopes (by simp)]
    simp [current,generator]
  · have hq : q = p.setCallerScopes p.pipelineRef session OrgRole.owner.scopes := by
      simp only [q,bootstrapSessionAgentConfig,applyActiveAgentConfig,if_neg hswap]
    rw [hq]
    exact ⟨h.bundle,by simpa [setCallerScopes] using h.valid,rfl,rfl,rfl,_,h.sound,
      current_setCallerScopes h.valid session _⟩

/-- On the socket: setting the starter's scopes on the generator in use keeps the
invariant, whatever stood there for the session. -/
private theorem kept_socket {p : Process} (hb : p.bundleRef = p.pipelineRef)
    (hh : p.handlerRef = p.pipelineRef) (hv : p.pipelineRef < p.generators.length)
    (ht : p.transport = .websocket) (base : ResponseGenerator)
    (hbase : Sound p.transport base p.starters)
    (hmulti : p.current.multiAgent = base.multiAgent) (session : SessionId) (starter : Starter)
    (hother : ∀ other, ¬(base.multiAgent ∧ other = session) →
      p.current.callerScopes.get? other = base.callerScopes.get? other) :
    (p.resumed session starter).Kept where
  bundle := hb
  handler := hh
  valid := by simpa [resumed,setCallerScopes] using hv
  sound := by
    have hcur : (p.resumed session starter).current =
        p.current.setCallerScopes session (effectiveScopes starter.principal) := by
      unfold resumed
      rw [hh]
      exact current_setCallerScopes hv session _
    rw [hcur]
    refine hbase.grant session starter (by simpa using hmulti) (fun hne => absurd ht hne) ?_
    intro other
    rw [ResponseGenerator.get?_setCallerScopes,ResponseGenerator.multiAgent_setCallerScopes]
    split_ifs with hc
    · rw [granted,if_pos ht]
    · exact hother other (hmulti ▸ hc)
  complete hne := absurd ht hne

private theorem kept_resumed {p : Process} (h : p.Kept) (ht : p.transport = .websocket)
    (session : SessionId) (starter : Starter) : (p.resumed session starter).Kept :=
  kept_socket h.bundle h.handler h.valid ht p.current h.sound rfl session starter fun _ _ => rfl

private theorem kept_started {p : Process} (h : p.Kept) (ht : p.transport = .websocket)
    (session : SessionId) (starter : Starter) (config : LoadedConfig) :
    (p.started session starter config).Kept := by
  obtain ⟨href,hvalid,htr,hst,-,base,hbase,hcur⟩ := bootstrap_spec h session config
  unfold started
  generalize p.bootstrapSessionAgentConfig session config = booted at *
  refine @kept_socket { booted with handlerRef := booted.bundleRef } href href hvalid (htr.trans ht)
    base ?_ ?_ session starter ?_
  · simpa [htr,hst] using hbase
  · exact (congrArg _ hcur).trans (base.multiAgent_setCallerScopes session _)
  · intro other hne
    have hget := base.get?_setCallerScopes session OrgRole.owner.scopes other
    rw [if_neg hne,← hcur] at hget
    exact hget

private theorem kept_entrypoint {p : Process} (h : p.Kept) (session : SessionId)
    (creator : Starter) (config : LoadedConfig) (ht : p.transport ≠ .websocket)
    (hserves : ∀ e ∈ p.starters.entries, e = (session,creator)) :
    (p.entrypoint session creator config).Kept := by
  -- The worker serves no other session, so an entry it has is this creator's.
  have honly : ∀ other starter, (p.starters.set session creator).get? other = some starter →
      other = session ∧ starter = creator := by
    intro other starter hget
    rw [Dict.get?_set] at hget
    split_ifs at hget with ho
    · exact ⟨ho,(Option.some.inj hget).symm⟩
    · have he := (p.starters.get?_eq_some_iff other starter).mp hget
      exact Prod.mk.inj (hserves (other,starter) he)
  by_cases horg : creator.orgId.isSome
  · obtain ⟨href,hvalid,htr,hst,-,base,hbase,hcur⟩ := bootstrap_spec h session config
    have hq : p.entrypoint session creator config =
        { p.bootstrapSessionAgentConfig session config with
          handlerRef := (p.bootstrapSessionAgentConfig session config).bundleRef
          starters := p.starters.set session creator } := by
      simp only [entrypoint,if_pos horg,hst]
    have hentry := base.get?_setCallerScopes session OrgRole.owner.scopes
    rw [hq]
    refine ⟨href,href,hvalid,?_,?_⟩
    · change Sound (p.bootstrapSessionAgentConfig session config).transport
        (p.bootstrapSessionAgentConfig session config).current _
      rw [htr,hcur]
      refine hbase.grant session creator (by simp) (fun _ => Option.isSome_iff_ne_none.mp horg) ?_
      intro other
      rw [hentry other,granted,if_neg ht,base.multiAgent_setCallerScopes]
    · intro _ hm other starter hget _
      change (p.bootstrapSessionAgentConfig session config).current.callerScopes.get? other = _
      change (p.bootstrapSessionAgentConfig session config).current.multiAgent = true at hm
      rw [hcur,base.multiAgent_setCallerScopes] at hm
      rw [hcur,hentry,if_pos ⟨hm,(honly other starter hget).1⟩]
  · have hq : p.entrypoint session creator config =
        { p with handlerRef := p.bundleRef, starters := p.starters.set session creator } := by
      simp only [entrypoint,if_neg horg]
    rw [hq]
    refine ⟨h.bundle,h.bundle,h.valid,⟨h.sound.single,?_⟩,?_⟩
    · intro other scopes hget
      obtain ⟨starter,hstarter,-,hsome⟩ := h.sound.entry other scopes hget
      have he := (p.starters.get?_eq_some_iff other starter).mp hstarter
      obtain ⟨-,rfl⟩ := Prod.mk.inj (hserves (other,starter) he)
      exact absurd (Option.isSome_iff_ne_none.mpr (hsome ht)) horg
    · intro _ _ other starter hget hsome
      obtain ⟨-,rfl⟩ := honly other starter hget
      exact absurd (Option.isSome_iff_ne_none.mpr hsome) horg

private theorem kept_clearSession {p : Process} (h : p.Kept) (session : SessionId) :
    (p.clearSession session).Kept := by
  have hcur : (p.clearSession session).current = p.current.clearSession session := by
    simp [clearSession,current,generator,h.handler,h.valid]
  refine ⟨h.bundle,h.handler,by simpa [clearSession] using h.valid,?_,?_⟩
  · rw [hcur]
    refine ⟨fun hs other => ?_,fun other scopes hget => ?_⟩
    · have hnone := h.sound.single hs other
      simp [ResponseGenerator.clearSession,hnone]
    · simp only [ResponseGenerator.clearSession,Dict.get?_pop] at hget
      split_ifs at hget with ho
      simpa [clearSession,ho] using h.sound.entry other scopes hget
  · intro ht hm other starter hget hsome
    rw [hcur] at hm ⊢
    simp only [clearSession,Dict.get?_pop] at hget
    split_ifs at hget with ho
    simpa [ResponseGenerator.clearSession,ho] using h.complete ht hm other starter hget hsome

theorem kept_step {p q : Process} {label : Label} (h : p.Kept) (hq : p.step label = some q) : q.Kept := by
  unfold step at hq
  split_ifs at hq with hen
  obtain rfl := Option.some.inj hq
  cases label with
  | resumed session starter => exact kept_resumed h hen session starter
  | started session starter config => exact kept_started h hen session starter config
  | entrypoint session creator config =>
    exact kept_entrypoint h session creator config hen.1 hen.2
  | turn session => exact ⟨h.bundle,h.handler,h.valid,h.sound,h.complete⟩
  | clearSession session => exact kept_clearSession h session

/-- The turn that a label records. -/
def recorded (p : Process) : Label → List Turn
  | .turn session => [⟨session,p.current.toolScopes session,p.starters.get? session⟩]
  | _ => []

theorem step_turns {p q : Process} {label : Label} (h : p.Kept) (hq : p.step label = some q) :
    q.turns = p.turns ++ p.recorded label := by
  unfold step at hq
  split_ifs at hq
  obtain rfl := Option.some.inj hq
  cases label with
  | turn session => rfl
  | started session starter config =>
    exact (List.append_nil p.turns).symm ▸ (bootstrap_spec h session config).2.2.2.2.1
  | entrypoint session creator config =>
    change _ = p.turns ++ []
    rw [List.append_nil]
    by_cases horg : creator.orgId.isSome
    · simpa [apply,entrypoint,horg] using (bootstrap_spec h session config).2.2.2.2.1
    · simp [apply,entrypoint,horg]
  | _ => exact (List.append_nil _).symm

/-- The turn that would run now is bounded exactly when it is contained. -/
theorem turn_bounded_iff {p : Process} (h : p.Kept) (session : SessionId)
    (hen : p.Enabled (.turn session)) :
    Turn.Bounded ⟨session,p.current.toolScopes session,p.starters.get? session⟩ ↔
      p.Contained (.turn session) := by
  unfold Turn.Bounded Contained ResponseGenerator.toolScopes
  by_cases hm : p.current.multiAgent
  · simp only [hm,if_true,Option.some.injEq,forall_eq',Bool.true_eq_false,false_or]
    by_cases ht : p.transport = .websocket
    · simp only [ht,true_or,iff_true]
      cases hg : p.current.callerScopes.get? session with
      | none => simp
      | some scopes =>
        obtain ⟨starter,hst,hsc,-⟩ := h.sound.entry session scopes hg
        simp [hst,hsc,granted,ht]
    · obtain ⟨starter,hst⟩ := Option.ne_none_iff_exists'.mp (hen.resolve_left ht)
      simp only [ht,false_or,hst,Option.some.injEq,forall_eq']
      by_cases horg : starter.orgId = none
      · have hnone : p.current.callerScopes.get? session = none := by
          cases hg : p.current.callerScopes.get? session with
          | none => rfl
          | some scopes =>
            obtain ⟨found,hfound,-,hsome⟩ := h.sound.entry session scopes hg
            obtain rfl := Option.some.inj (hst.symm.trans hfound)
            exact absurd horg (hsome ht)
        simp [horg,hnone]
      · simp [horg,h.complete ht hm session starter hst horg]
  · simp [hm]

end Process

/-- For every transport and every order of starts, resumes, bootstraps and turns: all
turns keep their tools within the scopes of the session's starter exactly when every
turn runs on the socket, or without tools, or for a session without an organisation,
or for one created by a principal with all of the owner's scopes. -/
theorem tools_bounded_iff (transport : Transport) (settingsMode : String)
    (labels : List Process.Label) :
    (∀ p, Visits Process.step (.build transport settingsMode) labels p →
      ∀ t ∈ p.turns, t.Bounded) ↔
      ∀ p label q, Fires Process.step (.build transport settingsMode) labels p label q →
        p.Contained label := by
  apply visits_good_iff (Process.kept_build transport settingsMode) (by simp [Process.build])
  · exact fun p label q h hq => Process.kept_step h hq
  intro p label q h hgood hq
  have hen : p.Enabled label := by
    unfold Process.step at hq
    split_ifs at hq with hen
    exact hen
  have hnew : (∀ t ∈ p.recorded label, t.Bounded) ↔ p.Contained label := by
    cases label with
    | turn session => simpa [Process.recorded] using Process.turn_bounded_iff h session hen
    | _ => simp [Process.recorded,Process.Contained]
  rw [← hnew,Process.step_turns h hq]
  simp only [List.mem_append]
  exact ⟨fun hall t ht => hall t (.inr ht),fun hall t ht => ht.elim (hgood t) (hall t)⟩

/-- A worker serves a session that a member created: the turn's tools may do what
only the owner may. -/
theorem worker_turn_exceeds_member :
    ¬∀ p, Visits Process.step (.build .livekit "multi_agent")
      [.entrypoint 7 ⟨{ orgId := 1, role := some .member },some 1⟩ {},.turn 7] p →
      ∀ t ∈ p.turns, t.Bounded := by
  intro h
  have hturn := h _ (Visits.of_run rfl) ⟨7,some OrgRole.owner.scopes,
    some ⟨{ orgId := 1, role := some .member },some 1⟩⟩ (by decide)
  have hmem := hturn _ rfl (by decide : "orgs:write" ∈ OrgRole.owner.scopes)
  exact absurd hmem (by decide)

end VoxForge.Pipeline
