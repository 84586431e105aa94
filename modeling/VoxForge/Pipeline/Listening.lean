import VoxForge.Core.Text
import VoxForge.Foundation.Runs

/-! The listening loop and the turn it runs, step by step, beside the calls of
`interrupt` from other tasks. One interrupt event is shared by the loop and the turn;
a turn replaces it, and nothing resets it when the turn ends. -/
namespace VoxForge.Pipeline
open Foundation Core

structure TranscriptEvent where
  text : String
  isPartial : Bool := false
  deriving DecidableEq, Repr

/-- How `run_listening` ends. -/
inductive Outcome where
  | exhausted | cancelled | raised
  /-- The check at the head of the loop left it. -/
  | broke
  deriving DecidableEq, Repr

/-- Where a turn waits. `more` says whether its token iterator may yield again. -/
inductive Stage where
  /-- Up to the speaking phase: storing the message and reading the config. -/
  | preparing
  /-- The sentence loop waits for the next sentence. -/
  | generating (more : Bool)
  /-- The audio of one sentence is sent. -/
  | speaking (more : Bool)
  /-- From the assistant message on, to the listening phase. -/
  | closing
  deriving DecidableEq, Repr

inductive LoopPoint where
  | awaiting
  | notifying (event : TranscriptEvent)
  | inTurn (transcript : String) (stage : Stage)
  | returned (outcome : Outcome)
  deriving DecidableEq, Repr

structure TurnRecord where
  transcript : String
  assistantText : String
  interrupted : Bool
  deriving DecidableEq, Repr

structure Listening where
  pending : List TranscriptEvent
  consumed : List TranscriptEvent := []
  /-- Whether the current `_interrupt_event` is set. -/
  interruptSet : Bool := false
  point : LoopPoint := .awaiting
  assistantText : String := ""
  wasInterrupted : Bool := false
  /-- The transcripts handed to `_process_turn`. -/
  handed : List String := []
  completed : List TurnRecord := []
  deriving DecidableEq, Repr

namespace Listening

/-- A call of `run_listening` on a stream, with its fresh event object. -/
def start (stream : List TranscriptEvent) : Listening := { pending := stream }

inductive Label where
  | receive
  | endOfStream
  /-- The transcript callback returns. -/
  | notified
  | prepared
  | token (text : String)
  | tokensDone
  | sentence
  | chunk
  | spoken
  | sentencesDone
  /-- An exception in the synthesis loop, which the turn catches. -/
  | synthesisFailed
  | turnDone
  /-- `interrupt()` sets the event, unless storing the flag raised before. -/
  | interrupt (stored : Bool)
  | cancel
  /-- An exception that reaches the loop. -/
  | raise
  deriving DecidableEq, Repr

def beginTurn (s : Listening) (transcript : String) : Listening :=
  { s with
    interruptSet := false
    assistantText := ""
    wasInterrupted := false
    handed := s.handed ++ [transcript]
    point := .inTurn transcript .preparing }

/-- The transcript that a received event hands to a turn. -/
def finalTranscript (event : TranscriptEvent) : Option String :=
  if event.isPartial then none
  else if strip event.text = "" then none else some (strip event.text)

/-- After the transcript callback: a blank or partial transcript starts no turn. -/
def afterTranscript (s : Listening) (event : TranscriptEvent) : Listening :=
  match finalTranscript event with
  | none => { s with point := .awaiting }
  | some transcript => s.beginTurn transcript

def stop (s : Listening) (transcript : String) (stage : Stage) : Listening :=
  { s with wasInterrupted := true, point := .inTurn transcript stage }

def stepTurn (s : Listening) (transcript : String) : Stage → Label → Option Listening
  | .preparing,.prepared => some { s with point := .inTurn transcript (.generating true) }
  | .generating true,.token text =>
    if s.interruptSet then some (s.stop transcript (.generating false))
    else some { s with assistantText := s.assistantText ++ text }
  | .generating true,.tokensDone => some { s with point := .inTurn transcript (.generating false) }
  | .generating more,.sentence =>
    if s.interruptSet then some (s.stop transcript .closing)
    else some { s with point := .inTurn transcript (.speaking more) }
  | .generating false,.sentencesDone => some { s with point := .inTurn transcript .closing }
  | .speaking more,.chunk =>
    if s.interruptSet then some (s.stop transcript (.generating more)) else some s
  | .speaking more,.spoken => some { s with point := .inTurn transcript (.generating more) }
  | .generating _,.synthesisFailed | .speaking _,.synthesisFailed =>
    some { s with point := .inTurn transcript .closing }
  | .closing,.turnDone => some { s with
      point := .awaiting
      completed := s.completed ++ [⟨transcript,s.assistantText,s.wasInterrupted⟩] }
  | _,_ => none

def step (s : Listening) : Label → Option Listening
  | .interrupt stored => some { s with interruptSet := stored || s.interruptSet }
  | .cancel => match s.point with
    | .returned _ => none
    | _ => some { s with point := .returned .cancelled }
  | .raise => match s.point with
    | .returned _ => none
    | _ => some { s with point := .returned .raised }
  | label => match s.point,label,s.pending with
    | .awaiting,.receive,event :: rest => some { s with
        pending := rest
        consumed := s.consumed ++ [event]
        point := if s.interruptSet then .returned .broke else .notifying event }
    | .awaiting,.endOfStream,[] => some { s with point := .returned .exhausted }
    | .notifying event,.notified,_ => some (s.afterTranscript event)
    | .inTurn transcript stage,label,_ => s.stepTurn transcript stage label
    | _,_,_ => none

end Listening
end VoxForge.Pipeline
