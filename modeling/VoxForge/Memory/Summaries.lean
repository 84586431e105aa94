import Mathlib.Data.List.Sort
import VoxForge.Core.Text
import VoxForge.Foundation.Fallible
import VoxForge.Foundation.Pages
import VoxForge.Foundation.Runs
import VoxForge.Memory.SearchSimilar
import VoxForge.Persistence.Statements

/-! The summaries of a session: what `store_turn` stores, and which turns a summary is made of. -/
namespace VoxForge.Memory
open Core Foundation Persistence

/-- A row of `session_summaries`. -/
structure SessionSummaryModel where
  orgId : OrgId
  sessionId : Nat
  summary : String
  messageCount : Nat
  deriving DecidableEq, Repr

/-- `memory_entries` and `session_summaries`. -/
structure MemoryTables where
  entries : List MemoryEntryModel := []
  summaries : List SessionSummaryModel := []
  nextId : Nat := 1
  deriving DecidableEq, Repr

/-- `ORDER BY created_at DESC`: newest first, equal times in any order. -/
structure NewestFirst where
  order : List MemoryEntryModel → List MemoryEntryModel
  perm : ∀ rows, (order rows).Perm rows
  sorted : ∀ rows, (order rows).Pairwise fun newer older => older.createdAt ≤ newer.createdAt

/-- The settings of the service, and whether it has a summarizer. -/
structure MemorySettings where
  memoryEnabled : Bool := true
  memorySummarizeAfterMessages : Int := 20
  summarizer : Bool := true

/-- A call of `store_turn`: its arguments, and what the embedder, the model, the clock and the
database answer. -/
structure TurnCall where
  orgId : OrgId
  sessionId : Nat
  role : String
  content : String
  messageId : Option Nat := none
  metadata : List (String × String) := []
  embed : String → Except Err (List Float)
  generate : String → Except Err (List String)
  turnAt : Nat
  summaryAt : Nat
  newestFirst : NewestFirst

def storeEntry (call : TurnCall) (role content : String) (entryType : MemoryEntryType) (embedding : List Float)
    (messageId : Option Nat) (metadata : List (String × String)) (createdAt : Nat) (tables : MemoryTables) :
    MemoryTables :=
  let model : MemoryEntryModel :=
    { id := tables.nextId, orgId := call.orgId, sessionId := call.sessionId, messageId, role, content, entryType,
      embedding := some embedding, metadata, createdAt }
  { tables with entries := tables.entries ++ [model], nextId := tables.nextId + 1 }

def sessionRows (newestFirst : NewestFirst) (tables : MemoryTables) (orgId : OrgId) (sessionId : Nat) :
    List MemoryEntryModel :=
  newestFirst.order (tables.entries.filter fun m => m.orgId = orgId && m.sessionId = sessionId)

/-- `list_entries`, with no offset. -/
def listEntries (newestFirst : NewestFirst) (tables : MemoryTables) (orgId : OrgId) (sessionId limit : Nat) :
    List MemoryEntryModel :=
  (sessionRows newestFirst tables orgId sessionId).take limit

def upsertSummary (orgId : OrgId) (sessionId : Nat) (summary : String) (messageCount : Nat) (tables : MemoryTables) :
    MemoryTables :=
  if tables.summaries.any (·.sessionId = sessionId) then
    { tables with summaries := tables.summaries.map fun model =>
        if model.sessionId = sessionId then { model with summary, messageCount } else model }
  else { tables with summaries := tables.summaries ++ [⟨orgId,sessionId,summary,messageCount⟩] }

def sessionTurns (tables : MemoryTables) (sessionId : Nat) : List MemoryEntryModel :=
  tables.entries.filter fun m => m.sessionId = sessionId && m.entryType = .turn

def countTurns (tables : MemoryTables) (sessionId : Nat) : Nat := (sessionTurns tables sessionId).length

def summarizePrompt (conversation : String) : String :=
  "Summarize the following conversation concisely for future context. " ++
  "Preserve key facts, user preferences, and unresolved questions. " ++
  "Keep the summary under 200 words.\n\n" ++
  "Conversation:\n" ++ conversation

def summarize (generate : String → Except Err (List String)) (conversationText : String) : Except Err String := do
  let tokens ← generate (summarizePrompt conversationText)
  let summary := strip ("".intercalate tokens)
  return if summary = "" then String.ofList (conversationText.toList.take 500) else summary

/-- What a summary is made of: turns, oldest first, and the number that is recorded with it. -/
structure Digest where
  turns : List MemoryEntryModel
  messageCount : Nat

/-- The text that the summarizer is given. -/
def Digest.conversation (digest : Digest) : String :=
  "\n".intercalate (digest.turns.map fun entry => entry.role ++ ": " ++ entry.content)

/-- The first half of `_maybe_summarize`. -/
def digest? (settings : MemorySettings) (call : TurnCall) (tables : MemoryTables) : Option Digest :=
  let turnCount := countTurns tables call.sessionId
  if (turnCount : Int) < settings.memorySummarizeAfterMessages then none
  else
    let entries := listEntries call.newestFirst tables call.orgId call.sessionId turnCount
    some { turns := entries.reverse.filter (·.entryType = .turn), messageCount := turnCount }

def maybeSummarize (settings : MemorySettings) (call : TurnCall) (tables : MemoryTables) :
    Except Err Unit × MemoryTables :=
  match digest? settings call tables with
  | none => (.ok (),tables)
  | some digest =>
    match summarize call.generate digest.conversation with
    | .error e => (.error e,tables)
    | .ok summary =>
      let tables := upsertSummary call.orgId call.sessionId summary digest.messageCount tables
      match call.embed summary with
      | .error e => (.error e,tables)
      | .ok embedding => (.ok (),storeEntry call "system" summary .summary embedding none [] call.summaryAt tables)

/-- The first half of `store_turn`: the tables with the turn, where it is stored. -/
def storedTurn (call : TurnCall) (tables : MemoryTables) : Except Err MemoryTables := do
  let embedding ← call.embed call.content
  return storeEntry call call.role call.content .turn embedding call.messageId call.metadata call.turnAt tables

def storeTurn (settings : MemorySettings) (call : TurnCall) (tables : MemoryTables) : Except Err Unit × MemoryTables :=
  if settings.memoryEnabled then
    match storedTurn call tables with
    | .error e => (.error e,tables)
    | .ok tables =>
      if settings.summarizer ∧ call.role = "assistant" then maybeSummarize settings call tables else (.ok (),tables)
  else (.ok (),tables)

/-! One summary -/

/-- Every turn of the session once, oldest first, and their number. -/
structure Digest.Whole (digest : Digest) (tables : MemoryTables) (sessionId : Nat) : Prop where
  turns : digest.turns.Perm (sessionTurns tables sessionId)
  chronological : digest.turns.Pairwise fun older newer => older.createdAt ≤ newer.createdAt
  count : digest.messageCount = digest.turns.length

section summary
variable {settings : MemorySettings} {call : TurnCall} {tables : MemoryTables} {digest : Digest}

def isTurn (m : MemoryEntryModel) : Bool := m.entryType = .turn

/-- The turns in the organisation are listed, among other entries. -/
theorem filter_sessionRows (newestFirst : NewestFirst) (tables : MemoryTables) (orgId : OrgId) (sessionId : Nat) :
    ((sessionRows newestFirst tables orgId sessionId).filter isTurn).Perm
      ((sessionTurns tables sessionId).filter (·.orgId = orgId)) := by
  refine ((newestFirst.perm _).filter isTurn).trans (List.Perm.of_eq ?_)
  unfold sessionTurns
  rw [List.filter_filter,List.filter_filter]
  apply List.filter_congr
  intro m _
  unfold isTurn
  cases decide (m.orgId = orgId) <;> cases decide (m.sessionId = sessionId) <;> simp

theorem digest_eq (h : digest? settings call tables = some digest) :
    digest.turns = (((sessionRows call.newestFirst tables call.orgId call.sessionId).take
        (countTurns tables call.sessionId)).filter isTurn).reverse ∧
      digest.messageCount = countTurns tables call.sessionId := by
  unfold digest? at h
  dsimp only at h
  split at h
  · cases h
  · obtain rfl := Option.some.inj h
    refine ⟨?_,rfl⟩
    dsimp only
    rw [List.filter_reverse]
    rfl

theorem digest_chronological (h : digest? settings call tables = some digest) :
    digest.turns.Pairwise fun older newer => older.createdAt ≤ newer.createdAt := by
  rw [(digest_eq h).1,List.pairwise_reverse]
  exact ((call.newestFirst.sorted _).sublist (List.take_sublist _ _)).filter _

/-- The turns of the session are all of the call's organisation, and nothing else is listed
before one of them. -/
def TurnsFirst (call : TurnCall) (tables : MemoryTables) : Prop :=
  (∀ m ∈ sessionTurns tables call.sessionId, m.orgId = call.orgId) ∧
    (sessionRows call.newestFirst tables call.orgId call.sessionId).Pairwise fun newer older =>
      isTurn older = true → isTurn newer = true

theorem whole_iff (h : digest? settings call tables = some digest) :
    digest.Whole tables call.sessionId ↔ TurnsFirst call tables := by
  obtain ⟨hturns,hcount⟩ := digest_eq h
  have hlisted := filter_sessionRows call.newestFirst tables call.orgId call.sessionId
  unfold TurnsFirst
  generalize sessionRows call.newestFirst tables call.orgId call.sessionId = rows at hturns hlisted ⊢
  have hcountTurns : countTurns tables call.sessionId = (sessionTurns tables call.sessionId).length := rfl
  constructor
  · intro hwhole
    have hlength := hwhole.turns.length_eq
    rw [hturns,List.length_reverse,← hcountTurns] at hlength
    have howned := List.length_filter_le (fun m => decide (m.orgId = call.orgId)) (sessionTurns tables call.sessionId)
    have hpage : ((rows.take (countTurns tables call.sessionId)).filter isTurn) = rows.filter isTurn := by
      apply ((List.take_sublist _ rows).filter isTurn).eq_of_length_le
      rw [hlisted.length_eq,hlength]
      exact howned
    have hall :
        (sessionTurns tables call.sessionId).filter (·.orgId = call.orgId) = sessionTurns tables call.sessionId := by
      apply List.filter_sublist.eq_of_length
      rw [← hlisted.length_eq,← hpage,hlength,hcountTurns]
    refine ⟨fun m hm => of_decide_eq_true (List.filter_eq_self.mp hall m hm),?_⟩
    rw [hcountTurns,← hall,← hlisted.length_eq] at hpage
    exact (filter_take_count_iff rows).mp hpage
  · rintro ⟨howned,hfirst⟩
    have hall :
        (sessionTurns tables call.sessionId).filter (·.orgId = call.orgId) = sessionTurns tables call.sessionId :=
      List.filter_eq_self.mpr fun m hm => decide_eq_true (howned m hm)
    rw [hall] at hlisted
    have hperm : digest.turns.Perm (sessionTurns tables call.sessionId) := by
      rw [hturns,hcountTurns,← hlisted.length_eq,(filter_take_count_iff rows).mpr hfirst]
      exact (List.reverse_perm _).trans hlisted
    exact ⟨hperm,digest_chronological h,hcount.trans hperm.length_eq.symm⟩

end summary

/-! The life of a session -/

/-- The clock goes forward, and each time is later than all that were stored. -/
def TurnCall.Forward (call : TurnCall) (tables : MemoryTables) : Prop :=
  (∀ m ∈ tables.entries, m.createdAt < call.turnAt) ∧ call.turnAt < call.summaryAt

instance (call : TurnCall) (tables : MemoryTables) : Decidable (call.Forward tables) :=
  inferInstanceAs (Decidable (_ ∧ _))

/-- `store_turn` at a time that goes forward. A call that is rolled back is left out of a run. -/
def MemoryTables.step (settings : MemorySettings) (tables : MemoryTables) (call : TurnCall) : Option MemoryTables :=
  if call.Forward tables then some (storeTurn settings call tables).2 else none

/-- An entry of the call's session. -/
structure TurnCall.Owns (call : TurnCall) (m : MemoryEntryModel) : Prop where
  orgId : m.orgId = call.orgId
  sessionId : m.sessionId = call.sessionId

/-- Only turns and summaries are stored, and a summary after a turn of its session. -/
structure Ordered (entries : List MemoryEntryModel) : Prop where
  kinds : ∀ m ∈ entries, m.entryType = .turn ∨ m.entryType = .summary
  later : ∀ m ∈ entries, m.entryType = .summary → ∃ t ∈ entries, t.entryType = .turn ∧ t.orgId = m.orgId ∧
    t.sessionId = m.sessionId ∧ t.createdAt < m.createdAt

section life
variable {settings : MemorySettings} {call : TurnCall} {tables stored : MemoryTables} {entries : List MemoryEntryModel}

theorem Ordered.turn (h : Ordered entries) {m : MemoryEntryModel} (hm : m.entryType = .turn) :
    Ordered (entries ++ [m]) := by
  refine ⟨fun x hx => ?_,fun x hx hsummary => ?_⟩
  · rcases List.mem_append.mp hx with hold | hnew
    · exact h.kinds x hold
    · rw [List.mem_singleton.mp hnew]
      exact .inl hm
  · rcases List.mem_append.mp hx with hold | hnew
    · obtain ⟨t,ht,hturn⟩ := h.later x hold hsummary
      exact ⟨t,List.mem_append_left _ ht,hturn⟩
    · rw [List.mem_singleton.mp hnew,hm] at hsummary
      cases hsummary

theorem Ordered.summary (h : Ordered entries) {m t : MemoryEntryModel} (hm : m.entryType = .summary)
    (ht : t ∈ entries) (hturn : t.entryType = .turn) (horg : t.orgId = m.orgId)
    (hsession : t.sessionId = m.sessionId) (htime : t.createdAt < m.createdAt) : Ordered (entries ++ [m]) := by
  refine ⟨fun x hx => ?_,fun x hx hsummary => ?_⟩
  · rcases List.mem_append.mp hx with hold | hnew
    · exact h.kinds x hold
    · rw [List.mem_singleton.mp hnew]
      exact .inr hm
  · rcases List.mem_append.mp hx with hold | hnew
    · obtain ⟨t',ht',hturn'⟩ := h.later x hold hsummary
      exact ⟨t',List.mem_append_left _ ht',hturn'⟩
    · rw [List.mem_singleton.mp hnew]
      exact ⟨t,List.mem_append_left _ ht,hturn,horg,hsession,htime⟩

theorem storedTurn_entries (h : storedTurn call tables = .ok stored) : ∃ m, stored.entries = tables.entries ++ [m] ∧
    m.entryType = .turn ∧ call.Owns m ∧ m.createdAt = call.turnAt := by
  unfold storedTurn at h
  obtain ⟨embedding,-,hstored⟩ := bind_eq_ok.mp h
  obtain rfl := Except.ok.inj hstored
  exact ⟨_,rfl,rfl,⟨rfl,rfl⟩,rfl⟩

theorem upsertSummary_entries (orgId : OrgId) (sessionId : Nat) (summary : String) (messageCount : Nat) :
    (upsertSummary orgId sessionId summary messageCount tables).entries = tables.entries := by
  unfold upsertSummary
  split <;> rfl

/-- What a summary adds to the entries. -/
theorem maybeSummarize_entries (settings : MemorySettings) (call : TurnCall) (tables : MemoryTables) :
    (maybeSummarize settings call tables).2.entries = tables.entries ∨
    ∃ m, (maybeSummarize settings call tables).2.entries = tables.entries ++ [m] ∧ m.entryType = .summary ∧
      call.Owns m ∧ m.createdAt = call.summaryAt := by
  unfold maybeSummarize
  split
  · exact .inl rfl
  split
  · exact .inl rfl
  dsimp only
  split
  · exact .inl (upsertSummary_entries ..)
  · unfold storeEntry
    rw [upsertSummary_entries]
    exact .inr ⟨_,rfl,rfl,⟨rfl,rfl⟩,rfl⟩

theorem storeTurn_ordered (h : Ordered tables.entries) (hforward : call.Forward tables) :
    Ordered (storeTurn settings call tables).2.entries := by
  unfold storeTurn
  split
  case isFalse => exact h
  split
  · exact h
  · next stored hstored =>
    obtain ⟨m,hentries,hturn,howns,htime⟩ := storedTurn_entries hstored
    have hordered : Ordered stored.entries := hentries ▸ h.turn hturn
    split
    case isFalse => exact hordered
    rcases maybeSummarize_entries settings call stored with hsame | ⟨x,hx,hsummary,hxowns,hxtime⟩
    · rwa [hsame]
    · rw [hx]
      refine hordered.summary hsummary (hentries ▸ List.mem_append_right _ (List.mem_singleton_self m)) hturn ?_ ?_ ?_
      · rw [howns.orgId,hxowns.orgId]
      · rw [howns.sessionId,hxowns.sessionId]
      · rw [htime,hxtime]
        exact hforward.2

/-- What holds of the entries before each call of a run. -/
theorem Ordered.before {calls : List TurnCall} {after : MemoryTables}
    (h : Fires (MemoryTables.step settings) {} calls tables call after) :
    Ordered tables.entries ∧ call.Forward tables := by
  have hstep : ∀ a l b, Ordered (MemoryTables.entries a) → MemoryTables.step settings a l = some b →
      Ordered b.entries := by
    intro a l b ha hb
    unfold MemoryTables.step at hb
    split at hb
    · next hforward =>
      obtain rfl := Option.some.inj hb
      exact storeTurn_ordered ha hforward
    · cases hb
  have hbefore : Ordered tables.entries := h.before.invariant ⟨by simp,by simp⟩ hstep
  refine ⟨hbefore,?_⟩
  obtain ⟨-,-,-,hcall⟩ := h
  unfold MemoryTables.step at hcall
  split at hcall
  · assumption
  · cases hcall

theorem mem_sessionRows {m : MemoryEntryModel} :
    m ∈ sessionRows call.newestFirst tables call.orgId call.sessionId ↔ m ∈ tables.entries ∧ call.Owns m := by
  unfold sessionRows
  rw [(call.newestFirst.perm _).mem_iff,List.mem_filter,Bool.and_eq_true,decide_eq_true_iff,decide_eq_true_iff]
  exact and_congr_right fun _ => ⟨fun h => ⟨h.1,h.2⟩,fun h => ⟨h.orgId,h.sessionId⟩⟩

/-- The turns of a session are of one organisation with the turn of a call, if they were before. -/
theorem turns_owned_iff (h : storedTurn call tables = .ok stored) :
    (∀ m ∈ sessionTurns stored call.sessionId, m.orgId = call.orgId) ↔
      ∀ m ∈ sessionTurns tables call.sessionId, m.orgId = call.orgId := by
  obtain ⟨new,hentries,-,howns,-⟩ := storedTurn_entries h
  unfold sessionTurns
  rw [hentries,List.filter_append]
  constructor
  · exact fun hall m hm => hall m (List.mem_append_left _ hm)
  · intro hall m hm
    rcases List.mem_append.mp hm with hold | hnew
    · exact hall m hold
    · rw [List.mem_singleton.mp (List.mem_of_mem_filter hnew)]
      exact howns.orgId

/-- A summary is listed before the turn that it came after. -/
theorem no_summary_of_turnsFirst (hordered : Ordered tables.entries) (h : storedTurn call tables = .ok stored)
    (hfirst : TurnsFirst call stored) : ∀ m ∈ tables.entries, call.Owns m → m.entryType ≠ .summary := by
  intro m hm howns hsummary
  obtain ⟨new,hentries,-,-,-⟩ := storedTurn_entries h
  obtain ⟨t,ht,hturn,horg,hsession,htime⟩ := hordered.later m hm hsummary
  have hlisted {x : MemoryEntryModel} (hx : x ∈ tables.entries) (hxowns : call.Owns x) :
      x ∈ sessionRows call.newestFirst stored call.orgId call.sessionId :=
    mem_sessionRows.mpr ⟨hentries ▸ List.mem_append_left _ hx,hxowns⟩
  have htowns : call.Owns t := ⟨horg.trans howns.orgId,hsession.trans howns.sessionId⟩
  have hsorted : (sessionRows call.newestFirst stored call.orgId call.sessionId).Pairwise fun newer older =>
      older.createdAt ≤ newer.createdAt := call.newestFirst.sorted _
  obtain ⟨newer,older,hrows⟩ := List.append_of_mem (hlisted ht htowns)
  have hmem := hlisted hm howns
  have hmarked := hfirst.2
  rw [hrows] at hsorted hmem hmarked
  rcases List.mem_append.mp hmem with hnewer | holder
  · -- newer than the turn, the summary is listed before it
    have hmarks := (List.pairwise_append.mp hmarked).2.2 m hnewer t (List.mem_cons_self ..) (decide_eq_true hturn)
    rw [of_decide_eq_true hmarks] at hsummary
    cases hsummary
  · rcases List.mem_cons.mp holder with rfl | holder
    · rw [hturn] at hsummary
      cases hsummary
    · have hle := (List.pairwise_cons.mp (List.pairwise_append.mp hsorted).2.1).1 m holder
      omega

/-- Without a summary there is nothing but turns. -/
theorem turnsFirst_of_no_summary (hordered : Ordered tables.entries) (h : storedTurn call tables = .ok stored)
    (howned : ∀ m ∈ sessionTurns stored call.sessionId, m.orgId = call.orgId)
    (hnone : ∀ m ∈ tables.entries, call.Owns m → m.entryType ≠ .summary) : TurnsFirst call stored := by
  obtain ⟨new,hentries,hnew,-,-⟩ := storedTurn_entries h
  refine ⟨howned,List.pairwise_of_forall_mem_list fun m hm _ _ _ => ?_⟩
  obtain ⟨hmem,howns⟩ := mem_sessionRows.mp hm
  rw [hentries] at hmem
  apply decide_eq_true
  rcases List.mem_append.mp hmem with hold | hlast
  · exact (hordered.kinds m hold).resolve_right (hnone m hold howns)
  · rw [List.mem_singleton.mp hlast]
    exact hnew

/-- A summary is made of the whole conversation exactly if nothing but turns of the call's organisation
is listed before a turn; in the life of a session, whose clock goes forward, exactly if no summary of
it was stored before. -/
theorem digest_whole_iff {digest : Digest} (hstored : storedTurn call tables = .ok stored)
    (hdigest : digest? settings call stored = some digest) :
    (digest.Whole stored call.sessionId ↔ TurnsFirst call stored) ∧
      ∀ calls after, Fires (MemoryTables.step settings) {} calls tables call after →
        (digest.Whole stored call.sessionId ↔
          (∀ m ∈ sessionTurns tables call.sessionId, m.orgId = call.orgId) ∧
            ∀ m ∈ tables.entries, call.Owns m → m.entryType ≠ .summary) := by
  refine ⟨whole_iff hdigest,fun calls after hfires => (whole_iff hdigest).trans ?_⟩
  obtain ⟨hordered,-⟩ := Ordered.before hfires
  rw [← turns_owned_iff hstored]
  constructor
  · exact fun hfirst => ⟨hfirst.1,no_summary_of_turnsFirst hordered hstored hfirst⟩
  · exact fun ⟨howned,hnone⟩ => turnsFirst_of_no_summary hordered hstored howned hnone

end life

def byTime : NewestFirst where
  order := List.insertionSort fun newer older => older.createdAt ≤ newer.createdAt
  perm rows := List.perm_insertionSort _ rows
  sorted rows := by
    have : Std.Total fun newer older : MemoryEntryModel => older.createdAt ≤ newer.createdAt :=
      ⟨fun _ _ => Nat.le_total ..⟩
    have : IsTrans MemoryEntryModel fun newer older => older.createdAt ≤ newer.createdAt :=
      ⟨fun _ _ _ hab hbc => Nat.le_trans hbc hab⟩
    exact List.pairwise_insertionSort _ rows

/-- A turn of a session, at a time and with the summary after it. -/
def said (role content : String) (time : Nat) : TurnCall where
  orgId := 1
  sessionId := 1
  role := role
  content := content
  embed _ := .ok []
  generate _ := .ok ["They talk."]
  turnAt := 2 * time
  summaryAt := 2 * time + 1
  newestFirst := byTime

def eager : MemorySettings where
  memorySummarizeAfterMessages := 2

def chat : List TurnCall := [said "user" "a" 1,said "assistant" "b" 2,said "user" "c" 3,said "assistant" "d" 4]

theorem first_digest_whole : ∃ tables stored digest, run (MemoryTables.step eager) {} (chat.take 1) = some tables ∧
    storedTurn (said "assistant" "b" 2) tables = .ok stored ∧
    digest? eager (said "assistant" "b" 2) stored = some digest ∧ digest.Whole stored 1 := by
  refine ⟨_,_,_,rfl,rfl,rfl,?_⟩
  have hfires : Fires (MemoryTables.step eager) {} chat _ (said "assistant" "b" 2) _ :=
    ⟨chat.take 1,⟨chat.drop 2,rfl⟩,rfl,rfl⟩
  have hturns : ∀ m ∈ (storeTurn eager (said "user" "a" 1) {}).2.entries, m.entryType ≠ .summary := by decide
  exact ((digest_whole_iff rfl rfl).2 chat _ hfires).mpr ⟨by decide,fun m hm _ => hturns m hm⟩

/-- The second summary is made without the first turn, which the first summary has pushed off the
page, and is recorded to be of all four. -/
theorem second_digest_loses_turn : ∃ tables stored digest,
    run (MemoryTables.step eager) {} (chat.take 3) = some tables ∧
    storedTurn (said "assistant" "d" 4) tables = .ok stored ∧
    digest? eager (said "assistant" "d" 4) stored = some digest ∧
    digest.conversation = "assistant: b\nuser: c\nassistant: d" ∧ digest.messageCount = 4 ∧
    ¬digest.Whole stored 1 := by
  refine ⟨_,_,_,rfl,rfl,rfl,rfl,rfl,fun h => ?_⟩
  exact absurd h.count (by decide)

end VoxForge.Memory
