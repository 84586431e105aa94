import VoxForge.Agents.History
import VoxForge.Memory.SearchSimilar

/-! The messages of a prompt: the system prompt, what memory and knowledge add to it, and the end
of the history. -/
namespace VoxForge.Memory
open Foundation Core Agents

/-- `l[k:]`. -/
def sliceFrom {α : Type} (l : List α) (k : Int) : List α :=
  l.drop (if k < 0 then (l.length + k).toNat else k.toNat)

/-- How a prompt writes a role and a similarity: `str.upper` and the format `.2f`. -/
structure PromptFormat where
  upper : String → String
  fixed : ℚ → String

structure MemoryContext where
  summary : Option String := none
  relevantEntries : List (MemoryEntry ℚ) := []

/-- A text that is neither missing nor empty. -/
def present (text : Option String) : Option String := text.filter (· ≠ "")

namespace ContextBuilder

def formatRetrieved (format : PromptFormat) (entries : List (MemoryEntry ℚ)) : String :=
  "\n".intercalate <| entries.map fun entry =>
    let score := match entry.similarity.filter (· ≠ 0) with
      | some similarity => " (relevance " ++ format.fixed similarity ++ ")"
      | none => ""
    "- [" ++ format.upper entry.role ++ "]" ++ score ++ ": " ++ entry.content

def build (format : PromptFormat) (systemPrompt : String) (recentMessages : List Message)
    (memoryContext : MemoryContext) (maxRecentMessages : Int) : List Message :=
  let summary := match present memoryContext.summary with
    | some summary => [⟨.system,"Conversation summary so far:\n" ++ summary⟩]
    | none => []
  let memory :=
    if memoryContext.relevantEntries = [] then []
    else [⟨.system,"Relevant context from memory:\n" ++ formatRetrieved format memoryContext.relevantEntries⟩]
  let tail := recentMessages.filter (·.role ≠ .system)
  let tail := if (tail.length : Int) > maxRecentMessages then sliceFrom tail (-maxRecentMessages) else tail
  [⟨.system,systemPrompt⟩] ++ summary ++ memory ++ tail

end ContextBuilder

/-- The memory service: its settings, and what it retrieves. -/
structure MemoryService where
  memoryEnabled : Bool := true
  memoryMaxRecentMessages : Int := 10
  format : PromptFormat
  retrieveContext : OrgId → SessionId → String → MemoryContext

def MemoryService.buildMessagesForLlm (service : MemoryService) (orgId : Option OrgId) (sessionId : SessionId)
    (systemPrompt : String) (recentMessages : List Message) (query : String) : List Message :=
  match orgId with
  | none => recentMessages
  | some orgId =>
    if !service.memoryEnabled then recentMessages
    else ContextBuilder.build service.format systemPrompt recentMessages
      (service.retrieveContext orgId sessionId query) service.memoryMaxRecentMessages

structure Citation where
  citationLabel : String
  similarity : ℚ
  excerpt : String

/-- The knowledge search behind a prompt. -/
structure KnowledgeContextBuilder where
  format : PromptFormat
  search : OrgId → String → List Citation

namespace KnowledgeContextBuilder

def formatContextSnippets (format : PromptFormat) (citations : List Citation) : List String :=
  citations.map fun c => c.citationLabel ++ " (relevance " ++ format.fixed c.similarity ++ "): " ++ c.excerpt

def retrieveSnippets (builder : KnowledgeContextBuilder) (orgId : OrgId) (query : String) : List String :=
  if strip query = "" then [] else formatContextSnippets builder.format (builder.search orgId query)

def buildContext (builder : KnowledgeContextBuilder) (orgId : OrgId) (query : String) : String :=
  let snippets := builder.retrieveSnippets orgId query
  if snippets = [] then ""
  else "Relevant knowledge base excerpts:\n" ++ "\n".intercalate (snippets.map ("- " ++ ·))

def enrichMessages (builder : KnowledgeContextBuilder) (messages : List Message) (orgId : Option OrgId)
    (query : String) : List Message :=
  match orgId with
  | none => messages
  | some orgId =>
    if strip query = "" then messages
    else
      let context := builder.buildContext orgId query
      if context = "" then messages
      else
        let insertAt := messages.findIdx (·.role ≠ .system)
        messages.take insertAt ++ ⟨.system,context⟩ :: messages.drop insertAt

end KnowledgeContextBuilder

def lastUserMessage (history : List Message) : String :=
  ((history.reverse.find? (·.role = .user)).map (·.content)).getD ""

/-- The services of a response generator. -/
structure Generator where
  histories : Histories
  memory : Option MemoryService
  knowledgeContext : Option KnowledgeContextBuilder := none
  knowledgeContextEnabled : Bool := true

/-- What `generate_response` sends to the model. -/
def Generator.messages (g : Generator) (orgId : Option OrgId) (sessionId : SessionId) : List Message :=
  let history := (g.histories.history.get? sessionId).getD []
  let query := lastUserMessage history
  let history := match g.memory with
    | some memory =>
      memory.buildMessagesForLlm orgId sessionId (g.histories.systemPromptFor sessionId) history query
    | none => history
  match g.knowledgeContext.filter fun _ => g.knowledgeContextEnabled with
  | some knowledge => knowledge.enrichMessages history orgId query
  | none => history

/-! Layers -/

def nonSystem (messages : List Message) : List Message := messages.filter (·.role ≠ .system)

/-- System messages, the first of them the prompt, and then a tail. -/
def Layered (prompt : String) (tail messages : List Message) : Prop :=
  ∃ systems, messages = ⟨.system,prompt⟩ :: systems ++ tail ∧ ∀ m ∈ systems, m.role = .system

/-- A prompt ends with the newest messages of a history, at most as many as a limit says. -/
structure PromptLaw (prompt : String) (history : List Message) (limit : Nat) (messages : List Message) : Prop where
  layered : Layered prompt
    ((nonSystem history).drop ((nonSystem history).length - min (nonSystem history).length limit)) messages
  bounded : (nonSystem messages).length ≤ limit
  current : ∀ past content, history = past ++ [⟨.user,content⟩] → 1 ≤ limit →
    messages.getLast? = some ⟨.user,content⟩

section layers
variable {prompt : String} {tail messages history : List Message}

theorem mem_nonSystem {m : Message} : m ∈ nonSystem messages ↔ m ∈ messages ∧ m.role ≠ .system := by
  simp [nonSystem]

/-- What is no system message in a layered list is its tail. -/
theorem Layered.nonSystem_eq (h : Layered prompt tail messages) (htail : ∀ m ∈ tail, m.role ≠ .system) :
    nonSystem messages = tail := by
  obtain ⟨systems,rfl,hsystems⟩ := h
  have hnone : nonSystem (⟨.system,prompt⟩ :: systems) = [] := by
    refine List.filter_eq_nil_iff.mpr fun m hm => ?_
    rcases List.mem_cons.mp hm with rfl | hm
    · simp
    · simp [hsystems m hm]
  calc
    _ = nonSystem (⟨.system,prompt⟩ :: systems) ++ nonSystem tail := List.filter_append ..
    _ = tail := by rw [hnone,List.nil_append,nonSystem,List.filter_eq_self.mpr fun m hm => decide_eq_true (htail m hm)]

theorem findIdx_layered (systems : List Message) (hsystems : ∀ m ∈ systems, m.role = .system)
    (htail : ∀ m ∈ tail, m.role ≠ .system) :
    (systems ++ tail).findIdx (·.role ≠ .system) = systems.length := by
  induction systems with
  | nil =>
    cases tail with
    | nil => rfl
    | cons m tail => simp [List.findIdx_cons,htail m (List.mem_cons_self ..)]
  | cons m systems ih =>
    have hm : m.role = .system := hsystems m (List.mem_cons_self ..)
    have hrest := ih fun x hx => hsystems x (List.mem_cons_of_mem _ hx)
    rw [List.cons_append,List.findIdx_cons,hrest]
    simp [hm]

theorem build_layered (format : PromptFormat) (context : MemoryContext) (limit : Int) :
    Layered prompt
      (if ((nonSystem history).length : Int) > limit then sliceFrom (nonSystem history) (-limit) else nonSystem history)
      (ContextBuilder.build format prompt history context limit) := by
  unfold ContextBuilder.build
  dsimp only
  rw [List.append_assoc [_],List.singleton_append]
  refine ⟨_,rfl,fun m hm => ?_⟩
  rcases List.mem_append.mp hm with hm | hm
  · split at hm
    · rw [List.mem_singleton.mp hm]
    · cases hm
  · split at hm
    · cases hm
    · rw [List.mem_singleton.mp hm]

theorem enrichMessages_layered (builder : KnowledgeContextBuilder) (orgId : Option OrgId) (query : String)
    (htail : ∀ m ∈ tail, m.role ≠ .system) (h : Layered prompt tail messages) :
    Layered prompt tail (builder.enrichMessages messages orgId query) := by
  unfold KnowledgeContextBuilder.enrichMessages
  split
  · exact h
  split
  · exact h
  dsimp only
  split
  · exact h
  obtain ⟨systems,rfl,hsystems⟩ := h
  have hfirst : ∀ m ∈ (⟨.system,prompt⟩ :: systems : List Message), m.role = .system := by
    simpa using hsystems
  rw [findIdx_layered _ hfirst htail,List.take_left,List.drop_left]
  refine ⟨systems ++ [_],by simp; rfl,fun m hm => ?_⟩
  rcases List.mem_append.mp hm with hm | hm
  · exact hsystems m hm
  · rw [List.mem_singleton.mp hm]

/-- A slice from the end is the newest messages, unless the limit is 0 and there is one to keep. -/
theorem newest_eq {rows : List Message} {limit : Nat} (h : 1 ≤ limit ∨ rows = []) :
    (if (rows.length : Int) > limit then sliceFrom rows (-limit) else rows) =
      rows.drop (rows.length - min rows.length limit) := by
  rcases h with hlimit | rfl
  · split
    · next hlong =>
      have hneg : (-(limit : Int)) < 0 := by omega
      rw [sliceFrom,if_pos hneg]
      congr 1
      omega
    · next hshort =>
      have hall : rows.length - min rows.length limit = 0 := by omega
      rw [hall,List.drop_zero]
  · simp

/-- A slice from the end at 0 keeps everything. -/
theorem newest_zero (rows : List Message) :
    (if (rows.length : Int) > (0 : Nat) then sliceFrom rows (-(0 : Nat)) else rows) = rows := by
  simp [sliceFrom]

theorem role_of_mem_newest {limit : Int} {m : Message}
    (hm : m ∈ if ((nonSystem history).length : Int) > limit then sliceFrom (nonSystem history) (-limit)
      else nonSystem history) : m.role ≠ .system := by
  split at hm
  · exact (mem_nonSystem.mp (List.mem_of_mem_drop hm)).2
  · exact (mem_nonSystem.mp hm).2

theorem getLast?_newest {rows : List Message} {limit : Nat} {m : Message} (hlast : rows.getLast? = some m)
    (hlimit : 1 ≤ limit) : (rows.drop (rows.length - min rows.length limit)).getLast? = some m := by
  have hne : rows ≠ [] := by rintro rfl; cases hlast
  have hpos : 0 < rows.length := List.length_pos_iff.mpr hne
  rw [List.getLast?_drop,if_neg (by omega),hlast]

theorem lawful_of_layered {limit : Nat}
    (h : Layered prompt
      ((nonSystem history).drop ((nonSystem history).length - min (nonSystem history).length limit)) messages) :
    PromptLaw prompt history limit messages := by
  have htail : nonSystem messages = _ := h.nonSystem_eq fun m hm => (mem_nonSystem.mp (List.mem_of_mem_drop hm)).2
  refine ⟨h,?_,?_⟩
  · rw [htail,List.length_drop]
    omega
  · rintro past content rfl hlimit
    obtain ⟨systems,rfl,-⟩ := h
    have hlast : (nonSystem (past ++ [⟨.user,content⟩])).getLast? = some ⟨.user,content⟩ := by
      simp [nonSystem]
    rw [List.getLast?_append,getLast?_newest hlast hlimit,Option.some_or]

/-- The law holds of what is built exactly when the limit does not read as 0 from the end. -/
theorem law_iff_of_layered {limit : Nat}
    (h : Layered prompt
      (if ((nonSystem history).length : Int) > limit then sliceFrom (nonSystem history) (-limit)
        else nonSystem history) messages) :
    PromptLaw prompt history limit messages ↔ 1 ≤ limit ∨ nonSystem history = [] := by
  constructor
  · intro law
    by_contra hnot
    obtain ⟨hlimit,hrows⟩ := not_or.mp hnot
    obtain rfl : limit = 0 := by omega
    rw [newest_zero] at h
    have hall : nonSystem messages = nonSystem history := h.nonSystem_eq fun m hm => (mem_nonSystem.mp hm).2
    have hbound := law.bounded
    rw [hall,Nat.le_zero] at hbound
    exact hrows (List.length_eq_zero_iff.mp hbound)
  · intro hgood
    exact lawful_of_layered (newest_eq hgood ▸ h)

end layers

/-- A format for prompts without memories. -/
def plainFormat : PromptFormat := ⟨String.toUpper,toString⟩

section prompts
variable (service : MemoryService) (henabled : service.memoryEnabled = true) (limit : Nat)
  (hlimit : service.memoryMaxRecentMessages = limit)
include henabled hlimit

theorem buildMessagesForLlm_layered (orgId : OrgId) (sessionId : SessionId) (prompt : String)
    (history : List Message) (query : String) :
    Layered prompt
      (if ((nonSystem history).length : Int) > limit then sliceFrom (nonSystem history) (-limit)
        else nonSystem history)
      (service.buildMessagesForLlm (some orgId) sessionId prompt history query) := by
  rw [MemoryService.buildMessagesForLlm,henabled,hlimit]
  exact build_layered ..

/-- What memory and knowledge make of a history follows the law exactly when the limit is at least 1 or
the history has only system messages. -/
theorem enrichMessages_law_iff (builder : KnowledgeContextBuilder) (orgId : OrgId) (sessionId : SessionId)
    (prompt : String) (history : List Message) (query : String) :
    PromptLaw prompt history limit
        (builder.enrichMessages (service.buildMessagesForLlm (some orgId) sessionId prompt history query)
          (some orgId) query) ↔
      1 ≤ limit ∨ nonSystem history = [] := by
  have hbuilt := buildMessagesForLlm_layered service henabled limit hlimit orgId sessionId prompt history query
  exact law_iff_of_layered (enrichMessages_layered builder _ query (fun m hm => role_of_mem_newest hm) hbuilt)

omit henabled hlimit in
/-- Of four messages the last two are kept, after a summary, a memory and an excerpt. -/
theorem enrichMessages_law_of_default :
    let history : List Message := [⟨.system,"Be brief."⟩,⟨.user,"Hello"⟩,⟨.assistant,"Hi"⟩,⟨.user,"My order is late"⟩,
      ⟨.assistant,"Which one?"⟩]
    let memory : MemoryContext := { summary := some "A greeting.", relevantEntries := [
      ⟨3,1,1,"user","Order 42",.turn,none,[],some (1 / 2),0⟩] }
    let builder : KnowledgeContextBuilder := ⟨plainFormat,fun _ _ => [⟨"Shipping",3 / 4,"Orders take two days."⟩]⟩
    let service : MemoryService := ⟨true,2,plainFormat,fun _ _ _ => memory⟩
    PromptLaw "Be brief." history 2 (builder.enrichMessages
      (service.buildMessagesForLlm (some 1) 1 "Be brief." history "My order is late") (some 1) "My order is late") := by
  intro history memory builder service
  exact (enrichMessages_law_iff service rfl 2 rfl builder 1 1 "Be brief." history "My order is late").mpr
    (.inl (by decide))

omit henabled hlimit in
/-- A limit of 0 keeps the whole history, for a slice from -0 is one from the start. -/
theorem enrichMessages_limit_zero :
    ¬ PromptLaw "Be brief." [⟨.user,"Hello"⟩] 0
      (KnowledgeContextBuilder.enrichMessages ⟨plainFormat,fun _ _ => []⟩
        (MemoryService.buildMessagesForLlm ⟨true,0,plainFormat,fun _ _ _ => {}⟩ (some 1) 1 "Be brief."
          [⟨.user,"Hello"⟩] "Hello") (some 1) "Hello") := by
  intro law
  have hbound := law.bounded
  revert hbound
  decide +kernel

/-- The same of all that a generator with memory sends to the model. -/
theorem Generator.messages_law (g : Generator) (hmemory : g.memory = some service) (orgId : OrgId)
    (sessionId : SessionId) :
    PromptLaw (g.histories.systemPromptFor sessionId) ((g.histories.history.get? sessionId).getD []) limit
        (g.messages (some orgId) sessionId) ↔
      1 ≤ limit ∨ nonSystem ((g.histories.history.get? sessionId).getD []) = [] := by
  refine law_iff_of_layered ?_
  have hbuilt := buildMessagesForLlm_layered service henabled limit hlimit orgId sessionId
    (g.histories.systemPromptFor sessionId) ((g.histories.history.get? sessionId).getD [])
    (lastUserMessage ((g.histories.history.get? sessionId).getD []))
  unfold Generator.messages
  dsimp only
  rw [hmemory]
  cases g.knowledgeContext.filter fun _ => g.knowledgeContextEnabled with
  | none => exact hbuilt
  | some knowledge => exact enrichMessages_layered knowledge _ _ (fun m hm => role_of_mem_newest hm) hbuilt

end prompts
end VoxForge.Memory
