import VoxForge.Core.Json
import VoxForge.Core.Session
import VoxForge.Core.Text

/-! Handoffs: the record, its events and its snapshot. -/
namespace VoxForge.Core

inductive HandoffTrigger where
  | confidenceThreshold | toolFailure | userRequest | policy | agentExplicit
  deriving DecidableEq, Repr

inductive HandoffEventType where
  | created | ticketCreated | summaryGenerated | replayLinked | assigned | accepted | resumed
  | message | completed | cancelled
  deriving DecidableEq, Repr

inductive AssignmentStrategy where
  | roundRobin | manual | leastLoaded
  deriving DecidableEq, Repr

structure EscalationPolicy where
  fallbackToHuman : Bool := true
  minConfidence : PyFloat := .finite (55 / 100)
  escalateOnToolFailure : Bool := true
  maxToolFailures : Int := 2
  escalateOnCriticalToolFailure : Bool := true
  requireExplicitRequest : Bool := false
  autoCreateTicket : Bool := true
  assignmentStrategy : AssignmentStrategy := .roundRobin
  handoffMessage : String := "I'm connecting you with a specialist who can help further. " ++
    "Please hold while I transfer your conversation."
  deriving DecidableEq, Repr

structure ConfidenceSignals where
  criticApproved : Option Bool := none
  hallucinationScore : Option PyFloat := none
  toolSuccessRatio : Option PyFloat := none
  sttConfidence : Option PyFloat := none
  kbTopSimilarity : Option PyFloat := none
  deriving DecidableEq, Repr

structure TurnHandoffContext where
  userTranscript : String
  assistantResponse : String := ""
  interrupted : Bool := false
  confidenceSignals : ConfidenceSignals := {}
  toolFailuresThisTurn : Int := 0
  consecutiveToolFailures : Int := 0
  failedTools : List String := []
  criticalToolFailed : Bool := false
  deriving DecidableEq, Repr

structure HandoffDecision where
  shouldEscalate : Bool
  trigger : Option HandoffTrigger := none
  confidence : Option PyFloat := none
  reason : String := ""
  deriving DecidableEq, Repr

structure HandoffRecord where
  id : HandoffId
  orgId : OrgId
  status : HandoffStatus := .pending
  trigger : HandoffTrigger
  triggerReason : String
  ticketId : Option String := none
  ticketProvider : String := "mock"
  conversationSummary : Option String := none
  replayUrl : Option String := none
  replayToken : Option String := none
  assignedToUserId : Option UserId := none
  assignedToEmail : Option String := none
  assignedAt : Option Time := none
  acceptedAt : Option Time := none
  completedAt : Option Time := none
  /-- The `resolution` entry of the metadata. -/
  resolution : Option String := none
  createdAt : Time
  updatedAt : Time
  deriving DecidableEq, Repr

structure HandoffEvent where
  handoffId : HandoffId
  orgId : OrgId
  eventType : HandoffEventType
  deriving DecidableEq, Repr

inductive MessageRole where
  | user | assistant | system
  deriving DecidableEq, Repr

def MessageRole.value : MessageRole → String
  | .user => "user"
  | .assistant => "assistant"
  | .system => "system"

structure Message where
  role : MessageRole
  content : String
  deriving DecidableEq, Repr

structure ConversationSnapshot where
  handoffId : HandoffId
  orgId : OrgId
  messageCount : Nat
  messages : List Message
  deriving DecidableEq, Repr

structure HandoffAssignment where
  assigneeUserId : Option UserId := none
  assigneeEmail : Option String := none
  deriving DecidableEq, Repr

/-- Python's truth value of the assignee: the empty address counts as none. -/
def HandoffAssignment.assigned (assignment : HandoffAssignment) : Bool :=
  assignment.assigneeUserId.isSome || assignment.assigneeEmail.getD "" ≠ ""

structure HandoffPackage where
  handoffId : HandoffId
  ticketId : Option String
  conversationSummary : String
  replayUrl : String
  assignment : Option HandoffAssignment
  handoffMessage : String
  trigger : HandoffTrigger
  deriving DecidableEq, Repr

structure TicketCreateRequest where
  subject : String
  description : String
  customerEmail : Option String := none
  priority : String
  conversationSummary : Option String := none
  replayUrl : Option String := none
  deriving DecidableEq, Repr

/-- Text over a limit is cut and ends in an ellipsis, so that it has `limit` characters. -/
def truncate (limit : Nat) (s : String) : String :=
  if s.toList.length > limit then String.ofList (s.toList.take (limit - 3)) ++ "..." else s

/-- `ExtractiveConversationSummarizer.summarize`, on the messages it has read. -/
def summaryOf (messages : List Message) : String :=
  if messages = [] then "No prior conversation messages."
  else
    let line (message : Message) : String :=
      let content := String.ofList ((strip message.content).toList.map fun c => if c = '\n' then ' ' else c)
      message.role.value ++ ": " ++ truncate 240 content
    truncate 4000 ("\n".intercalate (messages.map line))

end VoxForge.Core
