import VoxForge.Core.Handoff
import VoxForge.Foundation.Dict

/-! The conversation that a response generator keeps for a session. -/
namespace VoxForge.Agents
open Foundation Core

abbrev SessionId := Nat

/-- The histories of a response generator, and the system prompts they begin with. -/
structure Histories where
  history : Dict SessionId (List Message) := .empty
  sessionPrompts : Dict SessionId String := .empty
  systemPrompt : String := ""

namespace Histories

def systemPromptFor (g : Histories) (sessionId : SessionId) : String :=
  (g.sessionPrompts.get? sessionId).getD g.systemPrompt

def setSessionSystemPrompt (g : Histories) (sessionId : SessionId) (prompt : String) : Histories :=
  { g with sessionPrompts := g.sessionPrompts.set sessionId prompt }

def initSession (g : Histories) (sessionId : SessionId) : Histories :=
  { g with history := g.history.set sessionId [⟨.system,g.systemPromptFor sessionId⟩] }

/-- The history of a session, which its first message initialises. -/
def opened (g : Histories) (sessionId : SessionId) : List Message :=
  (g.history.get? sessionId).getD [⟨.system,g.systemPromptFor sessionId⟩]

def addUserMessage (g : Histories) (sessionId : SessionId) (content : String) : Histories :=
  { g with history := g.history.set sessionId (g.opened sessionId ++ [⟨.user,content⟩]) }

def addAssistantMessage (g : Histories) (sessionId : SessionId) (content : String) : Histories :=
  { g with history := g.history.set sessionId (g.opened sessionId ++ [⟨.assistant,content⟩]) }

def loadHistory (g : Histories) (sessionId : SessionId) (messages : List Message) : Histories :=
  { g with history := g.history.set sessionId (⟨.system,g.systemPromptFor sessionId⟩ :: messages) }

def clearSession (g : Histories) (sessionId : SessionId) : Histories :=
  { g with
    history := g.history.pop sessionId
    sessionPrompts := g.sessionPrompts.pop sessionId }

/-- From `init_session` on, where a session starts with the messages found for it. -/
def restore (g : Histories) (sessionId : SessionId) (messages : List Message) : Histories :=
  let g := g.initSession sessionId
  if messages ≠ [] then g.loadHistory sessionId messages else g

@[simp] theorem systemPromptFor_initSession (g : Histories) (sessionId other : SessionId) :
    (g.initSession sessionId).systemPromptFor other = g.systemPromptFor other := rfl

/-- A restored history is the system prompt with the messages found. -/
theorem get?_restore (g : Histories) (sessionId : SessionId) (messages : List Message) :
    (g.restore sessionId messages).history.get? sessionId =
      some (⟨.system,g.systemPromptFor sessionId⟩ :: messages) := by
  unfold restore
  split
  · simp [loadHistory]
  · next h =>
    rw [not_not] at h
    simp [initSession,h]

end Histories
end VoxForge.Agents
