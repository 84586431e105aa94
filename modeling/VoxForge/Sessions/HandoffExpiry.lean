import VoxForge.Sessions.Reconciliation

/-! The expiry of the session's document while a human may still accept the handoff. -/
namespace VoxForge.Sessions
open Foundation Core Persistence Prog World

/-- The session as its creation leaves it: the row inserted, and a document written for it. -/
def World.created (settings : Settings) (orgId : Option OrgId) (metadata : SessionConfig) (losses : List Bool)
    (answers : List Answers) : World :=
  let w : World := { row := { orgId, metadata }, losses, answers }
  (exec handle (SessionManager.createSession settings w.row) w).2

def Held (w : World) : Prop := w.row.status = .handoffPending ∨ w.row.status = .handoffActive

/-- Whenever an operation leaves the session with a handoff and a document, the document's expiry is that of handoffs. -/
def Lasting (settings : Settings) (start : World) (steps : List Step) : Prop :=
  ∀ before, before <+: steps → Held (start.after settings before) →
    (start.after settings before).keys.state.isSome →
    (start.after settings before).ttl = some settings.handoffSessionTtlSeconds

/-- The calls that bring a session into a handoff. -/
def Call.holds (c : Call) : Prop := c.status? = some .handoffPending ∨ c.status? = some .handoffActive

/-- A stored document has the expiry of other sessions. -/
def World.Brief (settings : Settings) (w : World) : Prop :=
  w.keys.state.isSome → w.ttl = some settings.sessionStateTtlSeconds

section expiry
variable {settings : Settings} {w t : World}

theorem World.Gone.brief (h : w.Gone) : w.Brief settings := by
  intro hstored
  rw [show w.keys.state = none from h] at hstored
  cases hstored

theorem World.Shrinks.brief (h : Shrinks w t) (hw : w.Brief settings) : t.Brief settings := by
  intro hstored
  obtain ⟨state,hstate⟩ := Option.isSome_iff_exists.mp hstored
  rw [h.ttl]
  exact hw (by rw [h.state state hstate]; rfl)

theorem brief_run (s : Step) (hw : w.Brief settings) : (s.run settings w).2.Brief settings := by
  have h := leaves_call settings (w := s.start w) s.call
  have hends : Ends handle (s.start w) (s.call.program settings) fun _ t => t.Brief settings := by
    refine ends_mono h fun r t ht => ?_
    cases r with
    | error e => exact ht.elim (fun hgone => hgone.brief) fun hshrinks => hshrinks.brief hw
    | ok a =>
      cases ht with
      | shrinks hshrinks => exact hshrinks.brief hw
      | written phase hrow hwritten why => exact fun _ => hwritten.2
      | entered status hrow hwritten why => exact fun _ => hwritten.2
  unfold Step.run
  dsimp only
  split
  · exact hends
  · exact hends

theorem brief_after (steps : List Step) (hw : w.Brief settings) : (w.after settings steps).Brief settings := by
  induction steps generalizing w with
  | nil => exact hw
  | cons s steps ih => exact ih (brief_run s hw)

/-- The operations of the repository on the row alone. -/
def Rowwise : Op → Prop
  | .selectSession | .now | .updateSessionEnded _ _ => True
  | _ => False

theorem rowwise_endSession (status : SessionStatus) : Performs Rowwise (SessionRepository.endSession status) := by
  apply performs_bind (performs_get trivial none)
  intro row
  split
  · trivial
  · have hnow : Performs Rowwise (execute .now) := performs_perform trivial
    refine performs_bind hnow fun now => ?_
    have hupdate : Performs Rowwise (execute (.updateSessionEnded status now)) := performs_perform trivial
    exact performs_bind hupdate fun _ => performs_get trivial none

theorem gone_handle {o : Op} (ho : Rowwise o) (h : w.Gone) : (handle o w).2.Gone := by
  have hfound : w.found.state = none := by
    cases hs : w.found.state with
    | none => rfl
    | some state => exact absurd (found_state hs) (by rw [show w.keys.state = none from h]; simp)
  have hkeys : (handle o w).2.keys.state = o.stateAfter w.found.state := perform_state _ _ _ o
  unfold World.Gone
  rw [hkeys,hfound]
  cases o <;> first | rfl | exact ho.elim

variable (settings) in
theorem brief_created (orgId : Option OrgId) (metadata : SessionConfig) (losses : List Bool) (answers : List Answers) :
    (World.created settings orgId metadata losses answers).Brief settings := by
  have hends (w : World) :
      Ends handle w (SessionManager.createSession settings w.row) fun _ t => t.Brief settings := by
    have hwrite : Ends handle w (SessionManager.writeEphemeralState settings { config := w.row.metadata } w.row.status)
        fun r t => match r with
          | .ok _ => t.Brief settings
          | .error _ => t.Gone :=
      ends_mono (ends_writeEphemeralState _ _) fun r t h => match r with
        | .ok _ => fun _ => h.2.2
        | .error _ => h.1
    refine ends_then (ends_tryCatch (q := fun _ t => t.Brief settings) hwrite ?_ ?_) ?_ ?_
    · exact fun _ t h => h
    · intro e t hgone
      have hgone : t.Gone := hgone
      split
      · exact ends_raise hgone.brief
      · have hend : Ends handle t (discard (SessionRepository.endSession .failed) : Action PUnit) fun _ u => u.Gone :=
          exec_keeps (performs_discard (rowwise_endSession .failed)) (fun _ _ ho hu => gone_handle ho hu) hgone
        exact ends_then hend (fun _ u hu => hu.brief) fun _ u hu => ends_raise hu.brief
    · exact fun _ t h => h
    · exact fun _ t h => ends_pure h
  exact hends _

/-- Every operation leaves the expiry of other sessions, so a handoff lasts only if the two are equal. -/
theorem lasting_iff {start : World} (hstart : start.Brief settings) (steps : List Step) :
    Lasting settings start steps ↔
      settings.sessionStateTtlSeconds = settings.handoffSessionTtlSeconds ∨
        ∀ before, before <+: steps →
          ¬(Held (start.after settings before) ∧ (start.after settings before).keys.state.isSome) := by
  constructor
  · intro h
    by_cases hequal : settings.sessionStateTtlSeconds = settings.handoffSessionTtlSeconds
    · exact .inl hequal
    · refine .inr fun before hbefore ⟨hheld,hstored⟩ => hequal ?_
      have hbrief := brief_after before hstart hstored
      rw [h before hbefore hheld hstored] at hbrief
      exact (Option.some.inj hbrief).symm
  · rintro (hequal | hnever) before hbefore hheld hstored
    · rw [← hequal]
      exact brief_after before hstart hstored
    · exact (hnever before hbefore ⟨hheld,hstored⟩).elim

/-! With no key lost, the calls alone decide -/

/-- A call that leaves a document has set its status, or has kept the row's. -/
theorem status_run {s : Step} (hstored : (s.run settings w).2.keys.state.isSome) :
    (s.run settings w).2.row.status = w.row.status ∨ some (s.run settings w).2.row.status = s.call.status? := by
  have h := leaves_call settings (w := s.start w) s.call
  unfold Ends at h
  unfold Step.run at hstored ⊢
  rcases hexec : exec handle (s.call.program settings) (s.start w) with ⟨r,t⟩
  rw [hexec] at h hstored
  cases r with
  | error e =>
    dsimp only at hstored ⊢
    split
    · exact .inl rfl
    · rw [if_neg ‹_›] at hstored
      rcases h with hgone | hshrinks
      · rw [show t.keys.state = none from hgone] at hstored
        cases hstored
      · exact .inl (congrArg SessionRow.status hshrinks.row)
  | ok a =>
    cases h with
    | shrinks hshrinks => exact .inl (congrArg SessionRow.status hshrinks.row)
    | written phase hrow hwritten why => exact .inl (congrArg SessionRow.status hrow)
    | entered status hrow hwritten why => exact .inr ((congrArg (some ·.status) hrow).trans why.symm)

theorem not_held_after {steps : List Step} (hw : ¬Held w) (hstored : w.keys.state.isSome)
    (hlossless : ∀ s ∈ steps, s.Lossless) (hsteps : ∀ s ∈ steps, ¬s.call.holds) : ¬Held (w.after settings steps) := by
  induction steps generalizing w with
  | nil => exact hw
  | cons s steps ih =>
    have hrun := stored_run settings (hlossless s List.mem_cons_self) hstored
    refine ih ?_ hrun (fun x hx => hlossless x (List.mem_cons_of_mem _ hx)) fun x hx => hsteps x (List.mem_cons_of_mem _ hx)
    have hholds := hsteps s List.mem_cons_self
    rcases status_run hrun with hsame | hset
    · unfold Held
      rw [hsame]
      exact hw
    · rintro (hpending | hactive)
      · exact hholds (.inl (by rw [← hset,hpending]))
      · exact hholds (.inr (by rw [← hset,hactive]))

/-- Without losses, the start of a handoff or its acceptance holds the session. -/
theorem held_run {s : Step} (hs : s.Lossless) (hholds : s.call.holds) (hstored : w.keys.state.isSome) :
    Held (s.run settings w).2 := by
  have hsome := stored_run settings hs hstored
  have henter (status : SessionStatus) (change : SessionState → SessionState)
      (hphase : ∀ state, (change state).phase = phaseForStatus status)
      (hprogram : s.call.program settings = (do
        discard (SessionRepository.updateStatus status)
        let state ← SessionManager.loadOrReconcileState settings
        SessionManager.writeEphemeralState settings (change state) status : Action Unit)) :
      (s.run settings w).2.row.status = status := by
    have h := ends_enter settings (w := s.start w) status change hphase
    rw [← hprogram] at h
    unfold Ends at h
    unfold Step.run at hsome ⊢
    rcases hexec : exec handle (s.call.program settings) (s.start w) with ⟨r,t⟩
    rw [hexec] at h hsome
    cases r with
    | ok a => exact congrArg SessionRow.status h.1
    | error e =>
      have hgone : t.keys.state = none := h.1
      dsimp only at hsome
      split at hsome <;> exact absurd hsome (by simp [hgone])
  cases hcall : s.call with
  | applyHandoffPending context =>
    refine .inl (henter .handoffPending (fun state => { state with
      phase := .handoffPending
      config := { state.config with
        handoff := some context
        consecutiveToolFailures := some (state.config.consecutiveToolFailures.getD 0) } }) (fun _ => rfl) ?_)
    rw [hcall]
    rfl
  | applyHandoffActive handoffId =>
    refine .inr (henter .handoffActive (fun state => { state with
      phase := .handoffActive
      config := { state.config with
        handoff := some { state.config.handoff.getD {} with handoffId := some handoffId } } }) (fun _ => rfl) ?_)
    rw [hcall]
    rfl
  | _ =>
    rw [hcall] at hholds
    rcases hholds with h | h <;> cases h

variable (settings) in
theorem created_lossless (orgId : Option OrgId) (metadata : SessionConfig) {losses : List Bool} (answers : List Answers)
    (h : ∀ lost ∈ losses, lost = false) :
    ¬Held (World.created settings orgId metadata losses answers) ∧
      (World.created settings orgId metadata losses answers).keys.state.isSome := by
  let w : World := { row := { orgId, metadata }, losses, answers }
  have hsave : Finishes handle w (StateStore.saveState { config := metadata }
      (SessionManager.ttlForStatus settings .created)) fun _ t => t.Steady :=
    ⟨(),_,rfl,rfl,fun lost hlost => h lost (List.mem_of_mem_tail hlost)⟩
  have hwrite : Finishes handle w (SessionManager.writeEphemeralState settings { config := metadata } .created)
      fun _ t => t.Steady :=
    finishes_then hsave fun _ _ ht => steady_recordHeartbeat ht
  obtain ⟨_,t,ht,hsteady⟩ := hwrite
  have hends : Ends handle w (SessionManager.writeEphemeralState settings { config := metadata } .created) _ :=
    ends_writeEphemeralState _ _
  unfold Ends at hends
  rw [ht] at hends
  have hcreated : World.created settings orgId metadata losses answers = t := by
    have hcatch (f : Err → Action Unit) : exec handle (Prog.tryCatch
        (SessionManager.writeEphemeralState settings { config := metadata } .created) f) w = (.ok (),t) := by
      rw [exec_tryCatch,ht]
    unfold World.created SessionManager.createSession
    exact congrArg Prod.snd (exec_bind_ok handle w (hcatch _) _)
  rw [hcreated]
  refine ⟨?_,hsteady.stored⟩
  unfold Held
  rw [hends.1]
  simp [w]

/-- A handoff keeps its expiry exactly where the two settings agree or no human is waited for. -/
theorem handoff_expiry (orgId : Option OrgId) (metadata : SessionConfig) (losses : List Bool) (answers : List Answers)
    (steps : List Step) :
    (Lasting settings (World.created settings orgId metadata losses answers) steps ↔
      settings.sessionStateTtlSeconds = settings.handoffSessionTtlSeconds ∨
        ∀ before, before <+: steps →
          ¬(Held ((World.created settings orgId metadata losses answers).after settings before) ∧
            ((World.created settings orgId metadata losses answers).after settings before).keys.state.isSome)) ∧
    ((∀ lost ∈ losses, lost = false) → (∀ s ∈ steps, s.Lossless) →
      (Lasting settings (World.created settings orgId metadata losses answers) steps ↔
        settings.sessionStateTtlSeconds = settings.handoffSessionTtlSeconds ∨ ∀ s ∈ steps, ¬s.call.holds)) := by
  have hiff := lasting_iff (brief_created settings orgId metadata losses answers) steps
  refine ⟨hiff,fun hlosses hlossless => hiff.trans (or_congr_right ?_)⟩
  obtain ⟨hnew,hstored⟩ := created_lossless settings orgId metadata answers hlosses
  constructor
  · intro h s hs hholds
    obtain ⟨before,rest,rfl⟩ := List.append_of_mem hs
    have hbefore : ∀ x ∈ before, x.Lossless := fun x hx => hlossless x (List.mem_append_left _ hx)
    have hthen := stored_after settings hbefore hstored
    have hrun : (World.created settings orgId metadata losses answers).after settings (before ++ [s]) =
        (s.run settings ((World.created settings orgId metadata losses answers).after settings before)).2 := by
      simp [World.after]
    refine h (before ++ [s]) (by simp) ?_
    rw [hrun]
    exact ⟨held_run (hlossless s (by simp)) hholds hthen,stored_run settings (hlossless s (by simp)) hthen⟩
  · rintro h before ⟨rest,rfl⟩ ⟨hheld,-⟩
    exact not_held_after hnew hstored (fun s hs => hlossless s (List.mem_append_left _ hs))
      (fun s hs => h s (List.mem_append_left _ hs)) hheld

end expiry

/-- With equal settings, a handoff that is started and accepted keeps its four hours. -/
theorem handoff_expiry_answered :
    let settings : Settings := { sessionStateTtlSeconds := 14400 }
    let start := World.created settings none {} [] []
    let steps : List Step := [{ call := .activateSession },{ call := .applyHandoffPending {} },
      { call := .applyHandoffActive 7 }]
    Lasting settings start steps ∧ Held (start.after settings steps) ∧ (start.after settings steps).ttl = some 14400 := by
  intro settings start steps
  refine ⟨(handoff_expiry none {} [] [] steps).1.mpr (.inl rfl),?_,?_⟩
  · exact .inr (by decide)
  · decide

/-- The defaults, and a handoff started on a new session: its document expires after an hour. -/
theorem pending_expires_early :
    ¬Lasting {} (World.created {} none {} [] []) [{ call := .activateSession },{ call := .applyHandoffPending {} }] := by
  intro h
  have hlast := h _ List.prefix_rfl (.inl (by decide)) (by decide)
  exact absurd hlast (by decide)

end VoxForge.Sessions
