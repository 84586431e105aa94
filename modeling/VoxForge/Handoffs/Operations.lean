import VoxForge.Handoffs.Orchestrator
import VoxForge.Sessions.Operations

/-! Which statements the programs of handoffs issue. -/
namespace VoxForge.Handoffs
open Foundation Core Persistence Sessions HandoffRepository HandoffOrchestrator Prog

theorem plain_summarize : Performs Plain summarize :=
  performs_bind (plain_execute (o := .selectMessages 50) trivial) fun _ => trivial

theorem plain_recordEvent (id : HandoffId) (orgId : OrgId) (e : HandoffEventType) :
    Performs Plain (recordEvent id orgId e) := plain_execute trivial

theorem plain_getHandoff (id : HandoffId) (orgId : OrgId) : Performs Plain (getHandoff id orgId) :=
  plain_execute trivial

theorem plain_ticketFor (req : Initiation) (record : HandoffRecord) (replayUrl : String) :
    Performs Plain (ticketFor req record replayUrl) := by
  unfold ticketFor
  split
  · apply performs_bind plain_summarize
    intro preview
    apply performs_bind (plain_execute (o := .createTicket _) trivial)
    intro ticket
    exact performs_bind (plain_recordEvent _ _ _) fun _ => trivial
  · trivial

theorem plain_saveSnapshot (snapshot : ConversationSnapshot) : Performs Plain (saveSnapshot snapshot) := by
  apply performs_bind (plain_execute (o := .selectSnapshot snapshot.handoffId) trivial)
  intro reply
  cases reply with
  | some existing => trivial
  | none => exact performs_bind (plain_execute (o := .insertSnapshot snapshot) trivial) fun _ => trivial

theorem plain_updateHandoff (id : HandoffId) (orgId : OrgId) (status : HandoffStatus)
    (allowedFrom : Option (List HandoffStatus)) (fields : HandoffFields) :
    Performs Plain (HandoffRepository.updateStatus id orgId status allowedFrom fields) := by
  apply performs_bind (plain_execute (o := .now) trivial)
  intro now
  apply performs_bind (plain_execute (o := .updateHandoff id orgId allowedFrom _) trivial)
  intro rowcount
  split
  · trivial
  · apply performs_bind (plain_getHandoff id orgId)
    intro reply
    cases reply <;> trivial

/-! Only the turn itself inserts messages, and only the end of a session ends its row and
deletes its document -/

def Ordinary : Op → Prop
  | .insertMessage _ | .deleteState | .updateSessionEnded _ _ => False
  | .updateSessionStatus status => status.terminal = false
  | _ => True

theorem ordinary_execute {o : Op} (h : Ordinary o) : Performs Ordinary (execute o) := performs_perform h

theorem ordinary_plain {α : Type} {p : Action α} (h : Performs Plain p) : Performs Ordinary p := by
  apply performs_mono h
  intro o ho
  cases o <;> first | exact ho.elim | exact ho

theorem ordinary_own {α : Type} {p : Action α} (h : Performs Own p) : Performs Ordinary p := by
  apply performs_mono h
  intro o ho
  cases o <;> first | exact ho.elim | exact ho

/-- The operations that make a new record, or find the one that is there. -/
def Creates : Op → Prop
  | .selectHandoffBySession _ | .selectHandoff _ _ | .insertHandoff _ | .insertEvent _ | .now | .newId => True
  | _ => False

theorem creates_execute {o : Op} (h : Creates o) : Performs Creates (execute o) := performs_perform h

theorem creates_createHandoff (orgId : OrgId) (trigger : HandoffTrigger) (reason : String) :
    Performs Creates (createHandoff orgId trigger reason) := by
  apply performs_bind (creates_execute (o := .selectHandoffBySession orgId) trivial)
  intro reply
  cases reply with
  | some existing => trivial
  | none =>
    apply performs_bind (creates_execute (o := .now) trivial)
    intro now
    apply performs_bind (creates_execute (o := .newId) trivial)
    intro id
    apply performs_bind (creates_execute (o := .insertHandoff _) trivial)
    intro inserted
    cases inserted with
    | true =>
      apply performs_bind (creates_execute (o := .insertEvent _) trivial)
      intro _
      apply performs_bind (creates_execute (o := .selectHandoff id orgId) trivial)
      intro reply
      cases reply <;> trivial
    | false =>
      apply performs_bind (creates_execute (o := .selectHandoffBySession orgId) trivial)
      intro reply
      cases reply <;> trivial

theorem ordinary_createHandoff (orgId : OrgId) (trigger : HandoffTrigger) (reason : String) :
    Performs Ordinary (createHandoff orgId trigger reason) := by
  apply performs_mono (creates_createHandoff orgId trigger reason)
  intro o ho
  cases o <;> first | exact ho.elim | exact trivial

section initiation
variable {settings : HandoffOrchestrator.Settings}

theorem ordinary_package (req : Initiation) (record : HandoffRecord) :
    Performs Ordinary (package settings req record) := by
  apply performs_bind (ordinary_execute (o := .generateReplayLink record.id) trivial)
  intro link
  apply performs_bind (ordinary_plain (plain_ticketFor req record link.1))
  intro ticketId
  apply performs_bind (ordinary_plain plain_summarize)
  intro summary
  apply performs_bind (ordinary_plain (plain_recordEvent _ _ _))
  intro _
  apply performs_bind (ordinary_plain (plain_recordEvent _ _ _))
  intro _
  apply performs_bind (ordinary_execute (o := .assign record.id _) trivial)
  intro assignment
  apply performs_bind (ordinary_plain (plain_recordEvent _ _ _))
  intro _
  apply performs_bind (ordinary_execute (o := .selectMessages 100) trivial)
  intro messages
  apply performs_bind (performs_discard (ordinary_plain (plain_saveSnapshot _)))
  intro _
  apply performs_bind (ordinary_execute (o := .now) trivial)
  intro now
  apply performs_bind (ordinary_plain (plain_updateHandoff _ _ _ _ _))
  intro reply
  cases reply with
  | none => trivial
  | some updated =>
    apply performs_bind (ordinary_execute (o := .linkSession updated.id _) trivial)
    intro _
    apply performs_bind (ordinary_own (own_applyHandoffPending _))
    intro _
    exact performs_bind (performs_discard (ordinary_execute (o := .countPending req.orgId) trivial))
      fun _ => trivial

theorem ordinary_initiateHandoff (req : Initiation) : Performs Ordinary (initiateHandoff settings req) := by
  apply performs_bind (ordinary_execute (o := .selectHandoffBySession req.orgId) trivial)
  intro reply
  cases reply with
  | some existing => trivial
  | none =>
    apply performs_bind (ordinary_createHandoff req.orgId req.trigger req.reason)
    intro created
    obtain ⟨record,created⟩ := created
    cases created with
    | true => exact ordinary_package req record
    | false => trivial

end initiation

section later
variable {settings : HandoffOrchestrator.Settings} (id : HandoffId) (orgId : OrgId)

theorem ordinary_getHandoff : Performs Ordinary (getHandoff id orgId) := ordinary_plain (plain_getHandoff id orgId)

/-- Reading the record again, an operation returns it or raises. -/
theorem ordinary_lost {f : Option HandoffRecord → Action HandoffRecord} (hf : ∀ reply, Performs Ordinary (f reply)) :
    Performs Ordinary (getHandoff id orgId >>= f) :=
  performs_bind (ordinary_getHandoff id orgId) hf

theorem ordinary_acceptLost (userId : UserId) : Performs Ordinary (acceptLost id orgId userId) := by
  apply ordinary_lost
  intro reply
  cases reply with
  | none => trivial
  | some record =>
    dsimp only
    split
    · trivial
    · split <;> trivial

theorem ordinary_completeLost : Performs Ordinary (completeLost id orgId) := by
  apply ordinary_lost
  intro reply
  cases reply with
  | none => trivial
  | some record =>
    dsimp only
    split <;> trivial

theorem ordinary_cancelLost : Performs Ordinary (cancelLost id orgId) := by
  apply ordinary_lost
  intro reply
  cases reply with
  | none => trivial
  | some record =>
    dsimp only
    split <;> trivial

theorem ordinary_acceptHandoff (userId : UserId) : Performs Ordinary (acceptHandoff settings id orgId userId) := by
  apply ordinary_lost
  intro reply
  cases reply with
  | none => trivial
  | some record =>
    dsimp only
    split
    · split <;> trivial
    · split
      · trivial
      · apply performs_bind (ordinary_execute (o := .now) trivial)
        intro now
        apply performs_bind (ordinary_plain (plain_updateHandoff _ _ _ _ _))
        intro reply
        cases reply with
        | none => exact ordinary_acceptLost id orgId userId
        | some updated =>
          apply performs_bind (ordinary_execute (o := .linkSession id _) trivial)
          intro _
          apply performs_bind (ordinary_plain (plain_recordEvent _ _ _))
          intro _
          apply performs_bind (ordinary_own (own_applyHandoffActive id))
          intro _
          apply performs_bind (performs_discard (ordinary_own (own_resumeSession 0)))
          intro _
          exact performs_bind (ordinary_plain (plain_recordEvent _ _ _)) fun _ => trivial

theorem ordinary_completeHandoff (resolution : String) :
    Performs Ordinary (completeHandoff settings id orgId resolution) := by
  apply ordinary_lost
  intro reply
  cases reply with
  | none => trivial
  | some record =>
    dsimp only
    split
    · trivial
    · split
      · trivial
      · apply performs_bind (ordinary_execute (o := .now) trivial)
        intro now
        apply performs_bind (ordinary_plain (plain_updateHandoff _ _ _ _ _))
        intro reply
        cases reply with
        | none => exact ordinary_completeLost id orgId
        | some updated =>
          apply performs_bind (ordinary_execute (o := .linkSession id _) trivial)
          intro _
          apply performs_bind (ordinary_plain (plain_recordEvent _ _ _))
          intro _
          exact performs_bind (ordinary_own own_clearHandoff) fun _ => trivial

theorem ordinary_cancelHandoff : Performs Ordinary (cancelHandoff settings id orgId) := by
  apply ordinary_lost
  intro reply
  cases reply with
  | none => trivial
  | some record =>
    dsimp only
    split
    · trivial
    · split
      · trivial
      · apply performs_bind (ordinary_plain (plain_updateHandoff _ _ _ _ _))
        intro reply
        cases reply with
        | none => exact ordinary_cancelLost id orgId
        | some updated =>
          apply performs_bind (ordinary_plain (plain_recordEvent _ _ _))
          intro _
          apply performs_bind (ordinary_execute (o := .linkSession id _) trivial)
          intro _
          exact performs_bind (ordinary_own own_clearHandoff) fun _ => trivial

end later
end VoxForge.Handoffs
