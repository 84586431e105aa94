import VoxForge.Pipeline.Turn

/-! `_process_turn` with everything it awaits, between the session's statements and Redis
commands: generation, synthesis, memory, evaluation, outcomes and the callbacks. -/
namespace VoxForge.Pipeline.VoicePipelineService
open Foundation Core Persistence Sessions Handoffs HandoffOrchestrator

/-- What a turn calls beside the session's stores, and its look at the interrupt event. -/
inductive Callee where
  | storeTurn (role : MessageRole) (content : String)
  | addUserMessage (content : String)
  | addAssistantMessage (content : String)
  | nextEvent
  | onAgentStep
  | onToken (text : String)
  | interruptSet
  /-- `turns_interrupted.inc()` -/
  | turnsInterrupted
  | synthesizeStream (sentence : String)
  | nextChunk (sentence : String)
  | onAudio
  | onError (code message : String)
  | getLastAgentTrace
  | saveTurnMetrics
  | retrieveContext (query : String)
  | retrieveSnippets (query : String)
  | evaluateTurn (interrupted : Bool)
  | evaluatePolicy (interrupted : Bool)
  | recordOutcome (interrupted : Bool)
  | commit
  | onMetrics
  deriving DecidableEq, Repr

/-- A trace is a list of agents with their status. A request waits for its first chunk, and is
answered with how many there are. -/
abbrev Callee.Reply : Callee → Type
  | .interruptSet => Bool
  | .synthesizeStream _ => Nat
  | .getLastAgentTrace => List (String × String)
  | .evaluatePolicy _ => Option (HandoffTrigger × String)
  | _ => Unit

abbrev TurnOp := Op ⊕ Callee

abbrev TurnReply : TurnOp → Type := Sum.elim Reply Callee.Reply

abbrev Awaits (α : Type) := Prog TurnOp TurnReply Err α

def statements {α : Type} (p : Action α) : Awaits α := p.inl

def await (c : Callee) : Awaits c.Reply := Prog.perform (.inr c : TurnOp)

/-- An event of the generator, and what the agents do before it. -/
structure GenerationEvent where
  text : String
  tools : List HandoffArguments := []
  agentSteps : Nat := 0
  deriving DecidableEq, Repr

/-- The services that are wired, where a setting is needed also enabled. -/
structure Wiring where
  memory : Bool := true
  evaluation : Bool := true
  knowledgeContext : Bool := true
  handoff : Bool := true
  outcomes : Bool := true
  deriving DecidableEq, Repr

/-- What a turn is given, and the events of its generator. -/
structure TurnRequest where
  orgId : Option OrgId
  transcript : String
  events : List GenerationEvent := []
  policy : EscalationPolicy := {}

namespace SentenceBuffer

def sentenceEndings : List Char := ['.','!','?',';','\n']

/-- The loop of `add` from index `i - 1` down. A blank prefix is cut off, and the loop goes on
with the indices of the longer text. -/
def scan (buffer : List Char) : Nat → Except Err (Option String) × List Char
  | 0 => (.ok none,buffer)
  | i + 1 =>
    match buffer[i]? with
    | none => (.error (.runtime "string index out of range"),buffer)
    | some c =>
      if c ∈ sentenceEndings then
        let sentence := strip (String.ofList (buffer.take (i + 1)))
        let rest := buffer.drop (i + 1)
        if sentence = "" then scan rest i else (.ok (some sentence),rest)
      else scan buffer i

def add (buffer : List Char) (token : String) : Except Err (Option String) × List Char :=
  scan (buffer ++ token.toList) (buffer ++ token.toList).length

def flush (buffer : List Char) : Option String :=
  let remaining := strip (String.ofList buffer)
  if remaining = "" then none else some remaining

end SentenceBuffer

section turn
variable (settings : HandoffOrchestrator.Settings) (wiring : Wiring) (turn : TurnRequest)

/-- The outcome of an `await` inside the `try` block. -/
def attempt {α : Type} (p : Awaits α) : Awaits (Except Err α) :=
  .tryCatch (do return .ok (← p)) fun e => return .error e

def reportSteps : Nat → Awaits Unit
  | 0 => return ()
  | n + 1 => do
    await .onAgentStep
    reportSteps n

def produce (event : GenerationEvent) : Awaits Unit := do
  statements (runTools settings turn.orgId event.tools)
  reportSteps event.agentSteps
  await .nextEvent

/-- What `_process_turn` keeps of the speech while it speaks. -/
structure Speech where
  text : String := ""
  interrupted : Bool := false
  deriving DecidableEq, Repr

/-- What became of a sentence: the event was set before it, between its chunks, or neither. -/
inductive Said where
  | refused
  | cutOff
  | whole
  deriving DecidableEq, Repr

def Speech.hear (speech : Speech) (token : String) : Speech := { speech with text := speech.text ++ token }

def Speech.note (speech : Speech) (said : Said) : Speech :=
  { speech with interrupted := speech.interrupted || said ≠ .whole }

/-- The chunks of one sentence, of which the first has come; an interrupt ends them. -/
def synthesize (sentence : String) : Nat → Awaits Said
  | 0 => return .whole
  | n + 1 => do
    if ← await .interruptSet then
      await .turnsInterrupted
      return .cutOff
    else
      await .onAudio
      await (.nextChunk sentence)
      synthesize sentence n

/-- The body of the sentence loop. -/
def say (sentence : String) : Awaits Said := do
  if ← await .interruptSet then
    await .turnsInterrupted
    return .refused
  else
    let chunks ← await (.synthesizeStream sentence)
    synthesize sentence chunks

/-- The end of the token stream. -/
def sayRest (buffer : List Char) (speech : Speech) : Awaits (Speech × Option Err) :=
  match SentenceBuffer.flush buffer with
  | none => return (speech,none)
  | some sentence => do
    match ← attempt (say sentence) with
    | .error e => return (speech,some e)
    | .ok said => return (speech.note said,none)

/-- The `try` block from the next event on: what was said, and the exception that ends it. A
sentence that is refused ends the sentence loop, one that is cut off does not. -/
def converse : List GenerationEvent → List Char → Speech → Awaits (Speech × Option Err)
  | [],buffer,speech => do
    match ← attempt (await .nextEvent) with
    | .error e => return (speech,some e)
    | .ok _ => sayRest buffer speech
  | event :: rest,buffer,speech => do
    match ← attempt (produce settings turn event) with
    | .error e => return (speech,some e)
    | .ok _ =>
      if ← await .interruptSet then sayRest buffer { speech with interrupted := true }
      else if event.text = "" then converse rest buffer speech
      else
        let speech := speech.hear event.text
        match ← attempt (await (.onToken event.text)) with
        | .error e => return (speech,some e)
        | .ok _ =>
          match SentenceBuffer.add buffer event.text with
          | (.error e,_) => return (speech,some e)
          | (.ok none,buffer) => converse rest buffer speech
          | (.ok (some sentence),buffer) =>
            match ← attempt (say sentence) with
            | .error e => return (speech,some e)
            | .ok .refused => return (speech.note .refused,none)
            | .ok said => converse rest buffer (speech.note said)

/-- Generation and synthesis: a cancellation is no `Exception`. -/
def respond : Awaits Speech := do
  match ← converse settings turn turn.events [] {} with
  | (speech,none) => return speech
  | (_,some .cancelled) => .raise .cancelled
  | (speech,some _) => do
    await (.onError "tts_error" "Speech synthesis failed")
    return speech

def remember (role : MessageRole) (content : String) : Awaits Unit :=
  if wiring.memory ∧ turn.orgId.isSome then await (.storeTurn role content) else return ()

def saveAnswer (text : String) : Awaits Unit := do
  if text ≠ "" then
    discard (await .getLastAgentTrace)
    await (.addAssistantMessage text)
    statements (execute (.insertMessage ⟨.assistant,text⟩))
    remember wiring turn .assistant text

def retrieveContext : Awaits Unit :=
  if wiring.memory ∧ turn.orgId.isSome then await (.retrieveContext turn.transcript) else return ()

def retrieveSnippets : Awaits Unit :=
  if wiring.knowledgeContext ∧ turn.orgId.isSome then await (.retrieveSnippets turn.transcript) else return ()

def evaluate (interrupted : Bool) : Awaits Unit := do
  if wiring.evaluation then
    discard (await .getLastAgentTrace)
    retrieveContext wiring turn
    retrieveSnippets wiring turn
    await (.evaluateTurn interrupted)

def toolFailures (trace : List (String × String)) : Int :=
  trace.countP fun (agent,status) => agent = "tool" && status.toLower ∈ ["error","timeout","failed"]

def escalate (interrupted : Bool) : Awaits Unit :=
  match turn.orgId with
  | none => return ()
  | some orgId => do
    if wiring.handoff then
      let trace ← await .getLastAgentTrace
      discard (statements SessionManager.getSessionConfig)
      discard (statements (SessionManager.trackToolFailures settings.toSettings (toolFailures trace)))
      match ← await (.evaluatePolicy interrupted) with
      | none => return ()
      | some (trigger,reason) =>
        discard (statements (initiateHandoff settings { orgId, trigger, reason, policy := turn.policy }))

/-- `_process_turn` between the processing and the speaking phase. -/
def prepare : Awaits Unit := do
  statements (execute (.insertMessage ⟨.user,turn.transcript⟩))
  remember wiring turn .user turn.transcript
  await (.addUserMessage turn.transcript)

/-- `_process_turn` from the speaking phase to its commit. -/
def answer : Awaits Unit := do
  discard (statements SessionManager.getSessionConfig)
  let speech ← respond settings turn
  saveAnswer wiring turn speech.text
  await .saveTurnMetrics
  evaluate wiring turn speech.interrupted
  escalate settings wiring turn speech.interrupted
  if wiring.outcomes then await (.recordOutcome speech.interrupted)
  await .commit

def processTurn : Awaits Unit := do
  discard (statements (StateStore.updatePhase settings.toSettings .processing))
  prepare wiring turn
  discard (statements (StateStore.updatePhase settings.toSettings .speaking))
  answer settings wiring turn
  await .onMetrics
  discard (statements (StateStore.clearInterrupt settings.toSettings))
  discard (statements (StateStore.updatePhase settings.toSettings .listening))

/-- Where a turn is called from, and what its exceptions meet there. -/
inductive Caller where
  | runListening
  | runTextTurn
  deriving DecidableEq, Repr

def Caller.program : Caller → Awaits Unit
  | runListening => .tryCatch (processTurn settings wiring turn) fun e =>
    if e = .cancelled then .raise e else await (.onError "pipeline_error" "Voice pipeline failed")
  | runTextTurn => .tryCatch (processTurn settings wiring turn) fun e => .raise e

end turn
end VoxForge.Pipeline.VoicePipelineService
