import VoxForge.Core.Auth
import VoxForge.Core.Coercions
import VoxForge.Core.Text

/-! `OutcomeExtractionService`: what one turn says about intent, escalation and success. -/
namespace VoxForge.Outcomes
open Core

/-- `metadata.get(key)` where it is a boolean. -/
def flag? (key : String) (metadata : Json) : Option Bool :=
  match metadata.get? key with
  | some (.bool b) => some b
  | _ => none

def handoffPhrases : List String := ["human agent","live agent","escalat","transfer","handoff"]

def successPhrases : List String :=
  ["resolved","completed","updated","done","fixed","i can help with that"]

def uncertaintyPhrases : List String :=
  ["cannot","can't","unable","not sure","don't have access","failed"]

section derive
variable (host : Host)

/-- `any(phrase in text.lower() for phrase in phrases)`. -/
def mentions (phrases : List String) (text : String) : Bool := phrases.any (contains · (host.lower text))

def deriveIntent (userTranscript : String) (userMetadata : Json) : String :=
  let byKeyword :=
    let text := host.lower userTranscript
    if contains "billing" text then "billing_support"
    else if contains "refund" text then "refund_request"
    else if contains "password" text || contains "login" text then "account_access"
    else if contains "cancel" text || contains "subscription" text then "subscription_change"
    else "general_support"
  match userMetadata.get? "intent" with
  | some (.str intent) =>
    if strip intent = "" then byKeyword
    else String.ofList ((host.lower (strip intent)).toList.map fun c => if c = ' ' then '_' else c)
  | _ => byKeyword

def deriveEscalation (assistantResponse : String) (interrupted : Bool) (assistantMetadata : Json) : Bool :=
  match flag? "escalation" assistantMetadata with
  | some explicit => explicit
  | none =>
    match flag? "escalated" assistantMetadata with
    | some escalated => escalated
    | none => interrupted || mentions host handoffPhrases assistantResponse

def deriveTaskSuccess (assistantResponse : String) (interrupted escalation : Bool) (assistantMetadata : Json) :
    Bool :=
  match flag? "task_success" assistantMetadata with
  | some explicit => explicit
  | none =>
    if interrupted || escalation then false
    else mentions host successPhrases assistantResponse && !mentions host uncertaintyPhrases assistantResponse

/-- Without a flag of its own an escalated turn is no success. -/
theorem deriveTaskSuccess_escalated {assistantResponse : String} {interrupted : Bool} {assistantMetadata : Json}
    (h : flag? "task_success" assistantMetadata = none) :
    deriveTaskSuccess host assistantResponse interrupted true assistantMetadata = false := by
  simp [deriveTaskSuccess,h]

/-- Without flags the escalation is read off the turn itself. -/
theorem deriveEscalation_unflagged {assistantResponse : String} {interrupted : Bool} {assistantMetadata : Json}
    (h : flag? "escalation" assistantMetadata = none) (h' : flag? "escalated" assistantMetadata = none) :
    deriveEscalation host assistantResponse interrupted assistantMetadata =
      (interrupted || mentions host handoffPhrases assistantResponse) := by
  simp [deriveEscalation,h,h']

theorem deriveEscalation_flagged {assistantResponse : String} {interrupted explicit : Bool}
    {assistantMetadata : Json} (h : flag? "escalation" assistantMetadata = some explicit) :
    deriveEscalation host assistantResponse interrupted assistantMetadata = explicit := by
  simp [deriveEscalation,h]

end derive
end VoxForge.Outcomes
