import VoxForge.Foundation.Pages
import VoxForge.Handoffs.Operations
import VoxForge.Sessions.Sequential

/-! What the human agent sees of the conversation: the summary and the snapshot that a
handoff stores, and the recent messages of its context route. -/
namespace VoxForge.Handoffs
open Foundation Core Persistence Sessions HandoffRepository HandoffOrchestrator Prog

structure HandoffContextResponse where
  handoffId : HandoffId
  conversationSummary : Option String
  replayUrl : Option String
  /-- Id and provider. -/
  ticket : Option (String × String)
  recentMessages : List Message
  status : String
  deriving DecidableEq, Repr

def getHandoffContext (id : HandoffId) (orgId : OrgId) : Action HandoffContextResponse := do
  match ← getHandoff id orgId with
  | none => .raise (.http 404 "Handoff not found")
  | some record =>
    let messages ← execute (.selectMessages 20)
    let ticket := (record.ticketId.filter (· ≠ "")).map fun id => (id,record.ticketProvider)
    return {
      handoffId := record.id
      conversationSummary := record.conversationSummary
      replayUrl := record.replayUrl
      ticket
      recentMessages := messages
      status := statusText record.status }

/-- The page of a conversation that a consumer reads, each message with its place. -/
def page (limit : Nat) (messages : List Message) : List (Message × Nat) := messages.zipIdx.take limit

theorem page_messages (limit : Nat) (messages : List Message) :
    (page limit messages).map Prod.fst = messages.take limit := by
  unfold page
  rw [List.map_take,List.zipIdx_map_fst]

/-! The programs, on a session that has these messages -/

/-- An operation that stores nothing of the conversation but its first 100 messages, or the summary of its first 50. -/
def Drawn (messages : List Message) : Op → Prop
  | .insertSnapshot snapshot =>
    snapshot.messages = (page 100 messages).map Prod.fst ∧ snapshot.messageCount = (page 100 messages).length
  | .updateHandoff _ _ _ update =>
    ∀ s, update.fields.conversationSummary = some (some s) → s = summaryOf ((page 50 messages).map Prod.fst)
  | .createTicket request => request.conversationSummary = some (summaryOf ((page 50 messages).map Prod.fst))
  | _ => True

/-- Whatever the other statements are answered, the messages are those of the session. -/
def transcript (messages : List Message) : Discipline Op Reply Err Unit where
  allowed _ o := Drawn messages o
  possible
    | .selectMessages limit,r => ∀ shown, r = .ok shown → shown = messages.take limit
    | _,_ => True
  after c _ _ := c

section initiation
variable {messages : List Message} {c : Unit} {α β : Type}

theorem drawn_performs {P : Op → Prop} {p : Action α} (hp : Performs P p) (h : ∀ o, P o → Drawn messages o) :
    wp (transcript messages) c p (returns fun _ _ => True) := by
  refine wp_mono (wp_of_performs hp fun o ho => ⟨h o ho,fun _ => rfl⟩) fun c' r _ => ?_
  cases r <;> trivial

theorem drawn_execute {o : Op} (h : Drawn messages o) :
    wp (transcript messages) c (execute o) (returns fun _ _ => True) :=
  drawn_performs (P := Drawn messages) (performs_perform h) fun _ ho => ho

theorem drawn_own {p : Action α} (hp : Performs Own p) :
    wp (transcript messages) c p (returns fun _ _ => True) :=
  drawn_performs hp fun o ho => by cases o <;> first | exact ho.elim | exact trivial

theorem drawn_selectMessages (limit : Nat) :
    wp (transcript messages) c (execute (.selectMessages limit))
      (returns fun _ shown => shown = (page limit messages).map Prod.fst) := by
  refine (wp_perform _ _).mpr ⟨trivial,fun r hr => ?_⟩
  cases r with
  | ok shown => exact (hr shown rfl).trans (page_messages limit messages).symm
  | error e => trivial

theorem drawn_summarize : wp (transcript messages) c summarize
    (returns fun _ s => s = summaryOf ((page 50 messages).map Prod.fst)) := by
  refine wp_then (drawn_selectMessages 50) fun _ shown hshown => ?_
  exact congrArg summaryOf hshown

theorem drawn_ticketFor (req : Initiation) (record : HandoffRecord) (replayUrl : String) :
    wp (transcript messages) c (ticketFor req record replayUrl) (returns fun _ _ => True) := by
  unfold ticketFor
  split
  · refine wp_then drawn_summarize fun _ preview hpreview => ?_
    refine wp_then (drawn_execute (o := .createTicket _) (congrArg some hpreview)) fun _ ticket _ => ?_
    exact wp_then (drawn_execute (o := .insertEvent _) trivial) fun _ _ _ => trivial
  · trivial

theorem drawn_saveSnapshot {snapshot : ConversationSnapshot} (h : Drawn messages (.insertSnapshot snapshot)) :
    wp (transcript messages) c (saveSnapshot snapshot) (returns fun _ _ => True) := by
  refine wp_then (drawn_execute (o := .selectSnapshot _) trivial) fun _ reply _ => ?_
  cases reply with
  | some existing => trivial
  | none => exact wp_then (drawn_execute h) fun _ _ _ => trivial

theorem drawn_updateHandoff {id : HandoffId} {orgId : OrgId} {status : HandoffStatus}
    {allowedFrom : Option (List HandoffStatus)} {fields : HandoffFields}
    (h : ∀ s, fields.conversationSummary = some (some s) → s = summaryOf ((page 50 messages).map Prod.fst)) :
    wp (transcript messages) c (updateStatus id orgId status allowedFrom fields) (returns fun _ _ => True) := by
  refine wp_then (drawn_execute (o := .now) trivial) fun _ now _ => ?_
  refine wp_then (drawn_execute (o := .updateHandoff _ _ _ _) h) fun _ rowcount _ => ?_
  split
  · trivial
  · refine wp_then (drawn_execute (o := .selectHandoff _ _) trivial) fun _ reply _ => ?_
    cases reply <;> trivial

theorem drawn_package (settings : HandoffOrchestrator.Settings) (req : Initiation) (record : HandoffRecord) :
    wp (transcript messages) c (package settings req record) (returns fun _ _ => True) := by
  refine wp_then (drawn_execute (o := .generateReplayLink _) trivial) fun _ link _ => ?_
  refine wp_then (drawn_ticketFor req record link.1) fun _ ticketId _ => ?_
  refine wp_then drawn_summarize fun _ summary hsummary => ?_
  refine wp_then (drawn_execute (o := .insertEvent _) trivial) fun _ _ _ => ?_
  refine wp_then (drawn_execute (o := .insertEvent _) trivial) fun _ _ _ => ?_
  refine wp_then (drawn_execute (o := .assign _ _) trivial) fun _ assignment _ => ?_
  refine wp_then (drawn_execute (o := .insertEvent _) trivial) fun _ _ _ => ?_
  refine wp_then (drawn_selectMessages 100) fun _ shown hshown => ?_
  have hcount : shown.length = (page 100 messages).length := by rw [hshown,List.length_map]
  refine wp_then (wp_discard (drawn_saveSnapshot ⟨hshown,hcount⟩)) fun _ _ _ => ?_
  refine wp_then (drawn_execute (o := .now) trivial) fun _ now _ => ?_
  refine wp_then (drawn_updateHandoff fun s hs => ?_) fun _ reply _ => ?_
  · cases hs
    exact hsummary
  · cases reply with
    | none => trivial
    | some updated =>
      refine wp_then (drawn_execute (o := .linkSession _ _) trivial) fun _ _ _ => ?_
      refine wp_then (drawn_own (own_applyHandoffPending _)) fun _ _ _ => ?_
      exact wp_then (wp_discard (drawn_execute (o := .countPending _) trivial)) fun _ _ _ => trivial

theorem drawn_initiateHandoff (settings : HandoffOrchestrator.Settings) (req : Initiation) :
    wp (transcript messages) c (initiateHandoff settings req) (returns fun _ _ => True) := by
  refine wp_then (drawn_execute (o := .selectHandoffBySession _) trivial) fun _ reply _ => ?_
  cases reply with
  | some existing => trivial
  | none =>
    have hcreate : wp (transcript messages) c (createHandoff req.orgId req.trigger req.reason)
        (returns fun _ _ => True) :=
      drawn_performs (creates_createHandoff _ _ _) fun o ho => by cases o <;> first | exact ho.elim | exact trivial
    refine wp_then hcreate fun _ created _ => ?_
    obtain ⟨record,created⟩ := created
    cases created with
    | true => exact drawn_package settings req record
    | false => trivial

theorem drawn_getHandoffContext (id : HandoffId) (orgId : OrgId) :
    wp (transcript messages) c (getHandoffContext id orgId)
      (returns fun _ response => response.recentMessages = (page 20 messages).map Prod.fst) := by
  refine wp_then (drawn_execute (o := .selectHandoff _ _) trivial) fun _ reply _ => ?_
  cases reply with
  | none => trivial
  | some record => exact wp_then (drawn_selectMessages 20) fun _ shown hshown => hshown

end initiation
/-! Which messages a summary holds -/

/-- The line of the summary for a message. -/
def lineOf (message : Message) : String :=
  let content := String.ofList ((strip message.content).toList.map fun c => if c = '\n' then ' ' else c)
  message.role.value ++ ": " ++ truncate 240 content

theorem summaryOf_eq {messages : List Message} (h : messages ≠ []) :
    summaryOf messages = truncate 4000 ("\n".intercalate (messages.map lineOf)) := by
  unfold summaryOf
  rw [if_neg h]
  rfl

/-- The characters of the lines and their separators. -/
def linesLength (messages : List Message) : Nat := ("\n".intercalate (messages.map lineOf)).toList.length

/-- What the cut leaves of the lines. -/
def roomFor (messages : List Message) : Nat := if linesLength messages > 4000 then 3997 else linesLength messages

/-- The messages whose lines stand whole in the summary; each line but the last has its separator. -/
def summarized (messages : List Message) : List (Message × Nat) :=
  fitting (fun row => (lineOf row.1).toList.length + 1) (roomFor (messages.take 50) + 1) (page 50 messages)

section lines
variable {messages : List Message}

theorem length_intercalate (sep : Char) (lines : List (List Char)) (h : lines ≠ []) :
    ([sep].intercalate lines).length + 1 = (lines.map fun line => line.length + 1).sum := by
  induction lines with
  | nil => exact absurd rfl h
  | cons line rest ih =>
    cases rest with
    | nil => simp
    | cons next rest =>
      have hrest := ih (by simp)
      rw [List.intercalate_cons_cons,List.map_cons,List.sum_cons,← hrest]
      simp only [List.length_append,List.length_singleton]
      omega

theorem intercalate_begins (sep : Char) {lines more : List (List Char)} (h : lines <+: more) :
    [sep].intercalate lines <+: [sep].intercalate more := by
  induction lines generalizing more with
  | nil => exact List.nil_prefix
  | cons line rest ih =>
    obtain ⟨tail,rfl⟩ := h
    cases rest with
    | nil =>
      cases tail with
      | nil => exact List.prefix_rfl
      | cons next tail =>
        rw [List.singleton_append,List.intercalate_singleton,List.intercalate_cons_cons,List.append_assoc]
        exact List.prefix_append _ _
    | cons next rest =>
      rw [List.cons_append,List.cons_append,List.intercalate_cons_cons,List.intercalate_cons_cons]
      exact (List.prefix_append_right_inj _).mpr (ih (List.prefix_append (next :: rest) tail))

theorem linesLength_eq (h : messages ≠ []) :
    linesLength messages + 1 = (messages.map fun message => (lineOf message).toList.length + 1).sum := by
  unfold linesLength
  rw [String.toList_intercalate,List.map_map]
  have hlength := length_intercalate '\n' (messages.map (String.toList ∘ lineOf)) (by simpa using h)
  rw [List.map_map] at hlength
  exact hlength

theorem page_sum (messages : List Message) :
    ((page 50 messages).map fun row => (lineOf row.1).toList.length + 1).sum =
      ((messages.take 50).map fun message => (lineOf message).toList.length + 1).sum := by
  rw [← page_messages,List.map_map]
  rfl

theorem truncate_toList (limit : Nat) (s : String) : (truncate limit s).toList =
    if s.toList.length > limit then s.toList.take (limit - 3) ++ "...".toList else s.toList := by
  unfold truncate
  split
  · rw [String.toList_append,String.toList_ofList]
  · rfl

/-- The lines of these messages are where the summary begins. -/
theorem summarized_begins (h : messages ≠ []) :
    ("\n".intercalate ((summarized messages).map (lineOf ·.1))).toList <+:
      (summaryOf ((page 50 messages).map Prod.fst)).toList := by
  have htake : messages.take 50 ≠ [] := by simpa using h
  rw [page_messages,summaryOf_eq htake,truncate_toList]
  have hbegins : ("\n".intercalate ((summarized messages).map (lineOf ·.1))).toList <+:
      ("\n".intercalate ((messages.take 50).map lineOf)).toList := by
    rw [String.toList_intercalate,String.toList_intercalate,← page_messages,List.map_map,List.map_map,List.map_map]
    exact intercalate_begins '\n' ((fitting_begins _ _ _).map _)
  split
  · next hlong =>
    -- The cut leaves room for the lines that fit.
    have hroom : roomFor (messages.take 50) = 3997 := if_pos hlong
    have hlength : ("\n".intercalate ((summarized messages).map (lineOf ·.1))).toList.length ≤ 3997 := by
      have hsum := sum_fitting_le (fun row : Message × Nat => (lineOf row.1).toList.length + 1)
        (roomFor (messages.take 50) + 1) (page 50 messages)
      rw [hroom] at hsum
      by_cases hnone : summarized messages = []
      · rw [hnone]
        exact Nat.zero_le _
      · have hjoined := length_intercalate '\n' ((summarized messages).map fun row => (lineOf row.1).toList)
          (by simpa using hnone)
        rw [List.map_map] at hjoined
        rw [String.toList_intercalate,List.map_map]
        have hfits : ((summarized messages).map fun row => (lineOf row.1).toList.length + 1).sum ≤ 3997 + 1 := by
          unfold summarized
          rw [hroom]
          exact hsum
        exact Nat.le_of_succ_le_succ (hjoined.le.trans hfits)
    exact (List.prefix_take_iff.mpr ⟨hbegins,hlength⟩).trans (List.prefix_append _ _)
  · exact hbegins

theorem summarized_eq_page_iff (h : messages ≠ []) :
    summarized messages = page 50 messages ↔ linesLength (messages.take 50) ≤ 4000 := by
  have htake : messages.take 50 ≠ [] := by simpa using h
  unfold summarized
  rw [fitting_eq_self_iff,page_sum,← linesLength_eq htake]
  unfold roomFor
  split <;> omega

end lines

/-! The newest messages -/

/-- The newest messages in their order, with the last that the user said. -/
structure ShowsEnd (shown : List (Message × Nat)) (messages : List Message) : Prop where
  recent : Recent shown messages.zipIdx
  request : ∀ row, (messages.zipIdx.filter (·.1.role = .user)).getLast? = some row → row ∈ shown

section newest
variable {messages : List Message} {shown : List (Message × Nat)}

theorem zipIdx_nodup (messages : List Message) : messages.zipIdx.Nodup := by
  apply List.Nodup.of_map Prod.snd
  rw [List.zipIdx_map_snd]
  exact List.nodup_range'

theorem showsEnd_all (messages : List Message) : ShowsEnd messages.zipIdx messages :=
  ⟨.refl _,fun _ h => List.mem_of_mem_filter (List.mem_of_getLast? h)⟩

theorem showsEnd_page_iff (limit : Nat) : ShowsEnd (page limit messages) messages ↔ messages.length ≤ limit := by
  have hiff : Recent (page limit messages) _ ↔ _ := recent_take_iff (zipIdx_nodup messages)
  rw [List.length_zipIdx] at hiff
  constructor
  · exact fun h => hiff.mp h.recent
  · intro h
    have hall : page limit messages = messages.zipIdx := List.take_of_length_le (by rw [List.length_zipIdx]; exact h)
    rw [hall]
    exact showsEnd_all messages

theorem showsEnd_summarized_iff :
    ShowsEnd (summarized messages) messages ↔ messages.length ≤ 50 ∧ linesLength messages ≤ 4000 := by
  by_cases hempty : messages = []
  · rw [hempty]
    exact ⟨fun _ => by decide,fun _ => showsEnd_all []⟩
  · have hrows : messages.zipIdx ≠ [] := by simpa using hempty
    have hbegins : summarized messages <+: page 50 messages := fitting_begins _ _ _
    have htake : page 50 messages <+: messages.zipIdx := List.take_prefix _ _
    constructor
    · intro h
      have hall := eq_of_prefix_of_suffix (zipIdx_nodup messages) (h.recent.some hrows) (hbegins.trans htake)
        h.recent.suffix
      have hpage : page 50 messages = messages.zipIdx := htake.eq_of_length_le (hall ▸ hbegins.length_le)
      have hlength : messages.length ≤ 50 := by
        rw [← List.length_zipIdx (i := 0),← hpage]
        exact List.length_take_le _ _
      have hfits := (summarized_eq_page_iff hempty).mp (hall.trans hpage.symm)
      rw [List.take_of_length_le hlength] at hfits
      exact ⟨hlength,hfits⟩
    · rintro ⟨hlength,hfits⟩
      have hpage : page 50 messages = messages.zipIdx :=
        List.take_of_length_le (by rw [List.length_zipIdx]; exact hlength)
      rw [← List.take_of_length_le hlength] at hfits
      rw [(summarized_eq_page_iff hempty).mpr hfits,hpage]
      exact showsEnd_all messages

/-- Each of the three pages starts with the oldest messages: it shows the end of the conversation
only if it shows all of it. -/
theorem human_sees_the_end (messages : List Message) (settings : HandoffOrchestrator.Settings) (req : Initiation)
    (id : HandoffId) (orgId : OrgId) :
    wp (transcript messages) () (initiateHandoff settings req) (returns fun _ _ => True) ∧
    wp (transcript messages) () (getHandoffContext id orgId)
      (returns fun _ response => response.recentMessages = (page 20 messages).map Prod.fst) ∧
    (ShowsEnd (page 100 messages) messages ↔ messages.length ≤ 100) ∧
    (ShowsEnd (page 20 messages) messages ↔ messages.length ≤ 20) ∧
    (ShowsEnd (summarized messages) messages ↔ messages.length ≤ 50 ∧ linesLength messages ≤ 4000) :=
  ⟨drawn_initiateHandoff settings req,drawn_getHandoffContext id orgId,showsEnd_page_iff 100,showsEnd_page_iff 20,
    showsEnd_summarized_iff⟩

end newest

/-- A call of 21 requests, the last of which asks for a person. -/
def longCall : List Message :=
  (List.range 20).map (fun n => ⟨.user,String.ofList (List.replicate n 'a')⟩) ++ [⟨.user,"Let me talk to a person."⟩]

def longCallStores : Stores where
  tables := {
    handoffs := [{ id := 1, orgId := 1, trigger := .userRequest, triggerReason := "", createdAt := 0, updatedAt := 0 }]
    messages := longCall }
  keys := {}

theorem longCall_not_shown :
    (exec Stores.handle (getHandoffContext 1 1) longCallStores).1.map (·.recentMessages) = .ok (longCall.take 20) ∧
    ⟨.user,"Let me talk to a person."⟩ ∉ longCall.take 20 ∧ ¬ShowsEnd (page 20 longCall) longCall := by
  refine ⟨by rfl,by decide,fun h => ?_⟩
  exact absurd (h.request (⟨.user,"Let me talk to a person."⟩,20) (by decide)) (by decide)

end VoxForge.Handoffs
