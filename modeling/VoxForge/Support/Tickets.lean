import VoxForge.Core.Session
import VoxForge.Core.Text
import VoxForge.Foundation.Dict

/-! `MockTicketingProvider`, the ticketing backend of a default installation: over any run of
requests to one provider a session has one ticket. Tools, handoffs and routes each build a
provider of their own. -/
namespace VoxForge.Support
open Foundation Core

structure SupportTicket where
  id : String
  subject : String
  description : String
  status : String
  priority : String
  customerEmail : Option String := none
  createdAt : Time
  updatedAt : Option Time := none
  deriving DecidableEq, Repr

structure TicketCreateRequest where
  subject : String
  description : String
  customerEmail : Option String := none
  priority : String := "normal"
  sessionId : Option String := none
  deriving DecidableEq, Repr

structure MockTicketingProvider where
  tickets : Dict String SupportTicket
  counter : Nat
  sessionTickets : Dict String String

def ticketId (n : Nat) : String := "TKT-" ++ toString n

/-- What the source says of `str.upper`: it leaves capital letters, digits and hyphens alone. -/
structure Casing where
  upper : String → String
  upper_capital : ∀ s : String, (∀ c ∈ s.toList, c.isUpper ∨ c.isDigit ∨ c = '-') → upper s = s

/-- `_MOCK_TICKETS`; times are microseconds from the start of year 1 in UTC. -/
def mockTickets : List SupportTicket :=
  [{ id := ticketId 1001
     subject := "Refund request for invoice INV-4421"
     description := "Customer requested refund for duplicate annual charge."
     status := "open"
     priority := "high"
     customerEmail := some "customer@example.com"
     createdAt := 63919117800000000 },
   { id := ticketId 1002
     subject := "Order ORD-7782 not delivered"
     description := "Tracking shows delivered but customer did not receive package."
     status := "pending"
     priority := "normal"
     customerEmail := some "customer@example.com"
     createdAt := 63919185300000000 }]

namespace MockTicketingProvider

def init : MockTicketingProvider where
  tickets := Dict.empty.setAll (·.id) id mockTickets
  counter := 1003
  sessionTickets := .empty

def lookupTicket (casing : Casing) (provider : MockTicketingProvider) (ticketId : String) : Option SupportTicket :=
  provider.tickets.get? (casing.upper (strip ticketId))

/-- The key of a request's session; no session and an empty one have none. -/
def sessionKey (request : TicketCreateRequest) : Option String :=
  if request.sessionId.getD "" ≠ "" then request.sessionId.map strip else none

/-- The ticket that the session of a request has already. -/
def existing (provider : MockTicketingProvider) (request : TicketCreateRequest) : Option SupportTicket := do
  let key ← sessionKey request
  let existingId ← provider.sessionTickets.get? key
  if existingId ≠ "" then provider.tickets.get? existingId else none

def newTicket (provider : MockTicketingProvider) (request : TicketCreateRequest) (now : Time) : SupportTicket where
  id := ticketId provider.counter
  subject := strip request.subject
  description := strip request.description
  status := "open"
  priority := request.priority
  customerEmail := request.customerEmail
  createdAt := now
  updatedAt := some now

def createTicket (provider : MockTicketingProvider) (request : TicketCreateRequest) (now : Time) :
    SupportTicket × MockTicketingProvider :=
  match provider.existing request with
  | some ticket => (ticket,provider)
  | none =>
    let ticket := provider.newTicket request now
    (ticket,{
      tickets := provider.tickets.set ticket.id ticket
      counter := provider.counter + 1
      sessionTickets := match sessionKey request with
        | some key => provider.sessionTickets.set key ticket.id
        | none => provider.sessionTickets })

/-- A run of requests, with the ticket that each was answered with. -/
def createAll (provider : MockTicketingProvider) :
    List (TicketCreateRequest × Time) → List (TicketCreateRequest × SupportTicket) × MockTicketingProvider
  | [] => ([],provider)
  | (request,now) :: rest =>
    let (ticket,next) := provider.createTicket request now
    let (answers,last) := next.createAll rest
    ((request,ticket) :: answers,last)

end MockTicketingProvider

open MockTicketingProvider

def SameSession (a b : TicketCreateRequest) : Prop := ∃ key, sessionKey a = some key ∧ sessionKey b = some key

theorem ticketId_injective {m n : Nat} (h : ticketId m = ticketId n) : m = n := by
  have htext := congrArg String.toList h
  rw [ticketId,ticketId,String.toList_append,String.toList_append] at htext
  exact toString_injective (List.append_cancel_left htext)

theorem ticketId_ne_empty (n : Nat) : ticketId n ≠ "" := by
  intro h
  have htext := congrArg String.toList h
  rw [ticketId,String.toList_append] at htext
  cases htext

/-- What the provider has answered so far, with what it holds. -/
structure Filed (provider : MockTicketingProvider) (log : List (TicketCreateRequest × SupportTicket)) : Prop where
  fresh : ∀ n, provider.counter ≤ n → provider.tickets.get? (ticketId n) = none
  numbered : ∀ e ∈ log, ∃ n < provider.counter, e.2.id = ticketId n
  stored : ∀ e ∈ log, provider.tickets.get? e.2.id = some e.2
  remembered : ∀ e ∈ log, ∀ key, sessionKey e.1 = some key → provider.sessionTickets.get? key = some e.2.id
  known : ∀ key id, provider.sessionTickets.get? key = some id → ∃ e ∈ log, sessionKey e.1 = some key ∧ e.2.id = id
  shared : ∀ a ∈ log, ∀ b ∈ log, ∀ key, a.2.id = b.2.id → sessionKey b.1 = some key → sessionKey a.1 = some key
  once : log.Pairwise fun a b => a.2 = b.2 ↔ SameSession a.1 b.1

section step
variable {provider : MockTicketingProvider} {log : List (TicketCreateRequest × SupportTicket)}
  {request : TicketCreateRequest} {now : Time}

theorem mock_id_lt {n : Nat} {ticket : SupportTicket} (h : ticket ∈ mockTickets) (hid : ticket.id = ticketId n) :
    n < 1003 := by
  rcases List.mem_pair.mp h with rfl | rfl
  · exact ticketId_injective hid ▸ by decide
  · exact ticketId_injective hid ▸ by decide

theorem filed_init : Filed init [] where
  fresh n hn := by
    refine (Dict.get?_setAll ..).trans ?_
    have hnone : mockTickets.reverse.find? (·.id = ticketId n) = none := by
      refine List.find?_eq_none.mpr fun ticket hticket hid => ?_
      have hlt := mock_id_lt (List.mem_reverse.mp hticket) (of_decide_eq_true hid)
      exact absurd hn (Nat.not_le.mpr hlt)
    rw [hnone]
    rfl
  numbered e he := by cases he
  stored e he := by cases he
  remembered e he := by cases he
  known key id h := by cases h
  shared a ha := by cases ha
  once := List.Pairwise.nil

/-- A session has a ticket exactly if a request for it has been answered. -/
theorem existing_iff (h : Filed provider log) {ticket : SupportTicket} :
    provider.existing request = some ticket ↔ ∃ e ∈ log, e.2 = ticket ∧ SameSession e.1 request := by
  constructor
  · intro hexisting
    obtain ⟨key,hkey,hexisting⟩ := Option.bind_eq_some_iff.mp hexisting
    obtain ⟨id,hid,hticket⟩ := Option.bind_eq_some_iff.mp hexisting
    obtain ⟨e,he,hsession,hown⟩ := h.known key id hid
    split_ifs at hticket
    rw [← hown,h.stored e he] at hticket
    exact ⟨e,he,Option.some.inj hticket,key,hsession,hkey⟩
  · rintro ⟨e,he,rfl,key,hsession,hkey⟩
    obtain ⟨n,-,hn⟩ := h.numbered e he
    have hid := h.remembered e he key hsession
    refine Option.bind_eq_some_iff.mpr ⟨key,hkey,Option.bind_eq_some_iff.mpr ⟨e.2.id,hid,?_⟩⟩
    rw [if_pos (hn ▸ ticketId_ne_empty n)]
    exact h.stored e he

theorem forall_answered {P : TicketCreateRequest × SupportTicket → Prop}
    {answer : TicketCreateRequest × SupportTicket} (hlog : ∀ a ∈ log, P a) (hnew : P answer) : ∀ a ∈ log ++ [answer], P a :=
  List.forall_mem_append.mpr ⟨hlog,List.forall_mem_singleton.mpr hnew⟩

/-- A request for a session that has a ticket is answered with it and changes nothing. -/
theorem filed_existing (h : Filed provider log) {ticket : SupportTicket}
    (hexisting : provider.existing request = some ticket) : Filed provider (log ++ [(request,ticket)]) := by
  obtain ⟨e,he,rfl,key,hown,hkey⟩ := (existing_iff h).mp hexisting
  refine ⟨h.fresh,forall_answered h.numbered (h.numbered e he),forall_answered h.stored (h.stored e he),
    forall_answered h.remembered fun key' hkey' => ?_,fun key' id hid => ?_,?_,?_⟩
  · exact h.remembered e he key' (hown.trans (hkey.symm.trans hkey'))
  · obtain ⟨a,ha,hrest⟩ := h.known key' id hid
    exact ⟨a,List.mem_append_left _ ha,hrest⟩
  · refine forall_answered (fun a ha => forall_answered (h.shared a ha) fun key' hid hkey' => ?_)
      (forall_answered (fun b hb key' hid hkey' => ?_) ?_)
    · exact h.shared a ha e he key' hid (hown.trans (hkey.symm.trans hkey'))
    · exact hkey.trans (hown.symm.trans (h.shared e he b hb key' hid hkey'))
    · exact fun key' _ hkey' => hkey'
  · refine List.pairwise_append.mpr ⟨h.once,List.pairwise_singleton _ _,fun a ha b hb => ?_⟩
    obtain rfl := List.mem_singleton.mp hb
    constructor
    · intro hsame
      exact ⟨key,h.shared a ha e he key (congrArg SupportTicket.id hsame) hown,hkey⟩
    · rintro ⟨key',ha',hkey'⟩
      obtain rfl : key = key' := Option.some.inj (hkey.symm.trans hkey')
      have hids := (h.remembered a ha key ha').symm.trans (h.remembered e he key hown)
      have htickets := (h.stored a ha).symm.trans (Option.some.inj hids ▸ h.stored e he)
      exact Option.some.inj htickets

/-- The keys of the sessions after a new ticket. -/
theorem sessionTickets_new (hnew : provider.existing request = none) (key : String) :
    (provider.createTicket request now).2.sessionTickets.get? key =
      if sessionKey request = some key then some (ticketId provider.counter)
      else provider.sessionTickets.get? key := by
  rw [createTicket,hnew]
  cases hkey : sessionKey request with
  | none => rfl
  | some own =>
    dsimp only [newTicket]
    rw [Dict.get?_set]
    by_cases h : key = own
    · rw [if_pos h,if_pos (congrArg some h.symm)]
    · rw [if_neg h,if_neg fun hsame => h (Option.some.inj hsame).symm]

theorem tickets_new (hnew : provider.existing request = none) (id : String) :
    (provider.createTicket request now).2.tickets.get? id =
      if id = ticketId provider.counter then some (provider.newTicket request now) else provider.tickets.get? id := by
  rw [createTicket,hnew]
  exact Dict.get?_set ..

/-- Any other request is answered with a ticket of its own. -/
theorem filed_new (h : Filed provider log) (hnew : provider.existing request = none) :
    Filed (provider.createTicket request now).2 (log ++ [(request,provider.newTicket request now)]) := by
  have hcounter : (provider.createTicket request now).2.counter = provider.counter + 1 := by
    rw [createTicket,hnew]
  have hother (a : TicketCreateRequest × SupportTicket) (ha : a ∈ log) : a.2.id ≠ ticketId provider.counter := by
    intro hid
    have hstored := h.stored a ha
    rw [hid,h.fresh provider.counter (Nat.le_refl _)] at hstored
    cases hstored
  have hsession (a : TicketCreateRequest × SupportTicket) (ha : a ∈ log) : ¬SameSession a.1 request := by
    intro hsame
    rw [(existing_iff h).mpr ⟨a,ha,rfl,hsame⟩] at hnew
    cases hnew
  refine ⟨fun n hn => ?_,?_,?_,?_,fun key id hid => ?_,?_,?_⟩
  · rw [hcounter] at hn
    have hne : ticketId n ≠ ticketId provider.counter := fun hid => absurd (ticketId_injective hid) (by omega)
    rw [tickets_new hnew,if_neg hne]
    exact h.fresh n (Nat.le_of_succ_le hn)
  · rw [hcounter]
    refine forall_answered (fun a ha => ?_) ⟨provider.counter,Nat.lt_succ_self _,rfl⟩
    obtain ⟨n,hn,hid⟩ := h.numbered a ha
    exact ⟨n,Nat.lt_succ_of_lt hn,hid⟩
  · refine forall_answered (fun a ha => ?_) ?_
    · rw [tickets_new hnew,if_neg (hother a ha)]
      exact h.stored a ha
    · rw [tickets_new hnew]
      exact if_pos rfl
  · refine forall_answered (fun a ha key hkey => ?_) fun key hkey => ?_
    · rw [sessionTickets_new hnew,if_neg fun hrequest => hsession a ha ⟨key,hkey,hrequest⟩]
      exact h.remembered a ha key hkey
    · rw [sessionTickets_new hnew,if_pos hkey]
      rfl
  · rw [sessionTickets_new hnew] at hid
    split_ifs at hid with hkey
    · exact ⟨_,List.mem_append_right _ (List.mem_singleton_self _),hkey,Option.some.inj hid⟩
    · obtain ⟨a,ha,hrest⟩ := h.known key id hid
      exact ⟨a,List.mem_append_left _ ha,hrest⟩
  · refine forall_answered (fun a ha => forall_answered (h.shared a ha) fun key hid => ?_)
      (forall_answered (fun b hb key hid => ?_) fun key _ hkey => hkey)
    · exact absurd hid (hother a ha)
    · exact absurd hid.symm (hother b hb)
  · refine List.pairwise_append.mpr ⟨h.once,List.pairwise_singleton _ _,fun a ha b hb => ?_⟩
    obtain rfl := List.mem_singleton.mp hb
    exact ⟨fun hsame => absurd (congrArg SupportTicket.id hsame) (hother a ha),fun hsame => (hsession a ha hsame).elim⟩

theorem filed_createTicket (h : Filed provider log) :
    Filed (provider.createTicket request now).2 (log ++ [(request,(provider.createTicket request now).1)]) := by
  cases hexisting : provider.existing request with
  | some ticket =>
    have hsame : provider.createTicket request now = (ticket,provider) := by rw [createTicket,hexisting]
    rw [hsame]
    exact filed_existing h hexisting
  | none =>
    have hticket : (provider.createTicket request now).1 = provider.newTicket request now := by
      rw [createTicket,hexisting]
    rw [hticket]
    exact filed_new h hexisting

/-- Tickets stay as they are. -/
theorem tickets_kept (h : Filed provider log) {id : String} {ticket : SupportTicket}
    (hid : provider.tickets.get? id = some ticket) :
    (provider.createTicket request now).2.tickets.get? id = some ticket := by
  cases hexisting : provider.existing request with
  | some own =>
    have hsame : provider.createTicket request now = (own,provider) := by rw [createTicket,hexisting]
    rwa [hsame]
  | none =>
    have hne : id ≠ ticketId provider.counter := by
      rintro rfl
      rw [h.fresh provider.counter (Nat.le_refl _)] at hid
      cases hid
    rwa [tickets_new hexisting,if_neg hne]

theorem filed_createAll (h : Filed provider log) (requests : List (TicketCreateRequest × Time)) :
    Filed (provider.createAll requests).2 (log ++ (provider.createAll requests).1) ∧
      (provider.createAll requests).1.map Prod.fst = requests.map Prod.fst ∧
      ∀ id ticket, provider.tickets.get? id = some ticket →
        (provider.createAll requests).2.tickets.get? id = some ticket := by
  induction requests generalizing provider log with
  | nil => exact ⟨(List.append_nil log).symm ▸ h,rfl,fun id ticket hid => hid⟩
  | cons entry requests ih =>
    obtain ⟨request,now⟩ := entry
    obtain ⟨hfiled,hanswered,hkept⟩ := ih (@filed_createTicket _ _ request now h)
    rw [List.append_assoc] at hfiled
    exact ⟨hfiled,congrArg (request :: ·) hanswered,fun id ticket hid => hkept id ticket (tickets_kept h hid)⟩

end step

theorem mem_ticketId {n : Nat} {c : Char} (h : c ∈ (ticketId n).toList) : c.isUpper ∨ c.isDigit ∨ c = '-' := by
  rw [ticketId,String.toList_append,toList_toString] at h
  rcases List.mem_append.mp h with h | h
  · have hletters : "TKT-".toList = ['T','K','T','-'] := rfl
    rw [hletters] at h
    simp only [List.mem_cons,List.not_mem_nil,or_false] at h
    rcases h with rfl | rfl | rfl | rfl
    · exact .inl rfl
    · exact .inl rfl
    · exact .inl rfl
    · exact .inr (.inr rfl)
  · exact .inr (.inl (Nat.isDigit_of_mem_toDigits (by decide) (by decide) h))

theorem toNat_capital {c : Char} (h : c.isUpper ∨ c.isDigit ∨ c = '-') : 45 ≤ c.toNat ∧ c.toNat ≤ 90 := by
  rcases h with h | h | rfl
  · have hupper : c.val ≥ 'A'.val ∧ c.val ≤ 'Z'.val := of_decide_eq_true h
    simp only [ge_iff_le,UInt32.le_iff_toNat_le] at hupper
    exact ⟨Nat.le_trans (by decide) hupper.1,hupper.2⟩
  · simp only [Char.isDigit,Bool.and_eq_true,decide_eq_true_eq,ge_iff_le,UInt32.le_iff_toNat_le] at h
    exact ⟨Nat.le_trans (by decide) h.1,Nat.le_trans h.2 (by decide)⟩
  · decide

theorem isSpace_capital {c : Char} (h : c.isUpper ∨ c.isDigit ∨ c = '-') : isSpace c = false := by
  have hrange := toNat_capital h
  simp only [isSpace,Bool.or_eq_false_iff,Bool.and_eq_false_iff,decide_eq_false_iff_not,beq_eq_false_iff_ne]
  omega

theorem strip_plain {s : String} (h : ∀ c ∈ s.toList, isSpace c = false) : strip s = s := by
  have hfront : s.toList.dropWhile isSpace = s.toList := by
    refine List.dropWhile_eq_self_iff.mpr fun hlength => ?_
    rw [h _ (List.getElem_mem hlength)]
    decide
  have hback : s.toList.rdropWhile isSpace = s.toList := by
    refine List.rdropWhile_eq_self_iff.mpr fun hne => ?_
    rw [h _ (List.getLast_mem hne)]
    decide
  rw [strip,hfront,hback,String.ofList_toList]

theorem strip_ticketId (n : Nat) : strip (ticketId n) = ticketId n :=
  strip_plain fun _ hc => isSpace_capital (mem_ticketId hc)

theorem lookup_answered (casing : Casing) {provider : MockTicketingProvider}
    {log : List (TicketCreateRequest × SupportTicket)} (h : Filed provider log)
    {a : TicketCreateRequest × SupportTicket} (ha : a ∈ log) : provider.lookupTicket casing a.2.id = some a.2 := by
  obtain ⟨n,-,hid⟩ := h.numbered a ha
  have hupper := casing.upper_capital (ticketId n) fun _ hc => mem_ticketId hc
  have hstored := h.stored a ha
  rw [hid] at hstored
  rw [lookupTicket,hid,strip_ticketId,hupper,hstored]

/-- In any run of requests two of them are answered with the same ticket exactly if they are for
one session; every ticket can be looked up under its id, as it was when it was created, and so
can those that were there before. -/
theorem session_ticket_once (casing : Casing) (requests : List (TicketCreateRequest × Time)) :
    (init.createAll requests).1.map Prod.fst = requests.map Prod.fst ∧
    (init.createAll requests).1.Pairwise (fun a b => a.2 = b.2 ↔ SameSession a.1 b.1) ∧
    (∀ a ∈ (init.createAll requests).1, (init.createAll requests).2.lookupTicket casing a.2.id = some a.2) ∧
    ∀ id ticket, init.tickets.get? id = some ticket →
      (init.createAll requests).2.tickets.get? id = some ticket := by
  obtain ⟨hfiled,hanswered,hkept⟩ := filed_createAll filed_init requests
  rw [List.nil_append] at hfiled
  exact ⟨hanswered,hfiled.once,fun a ha => lookup_answered casing hfiled ha,hkept⟩

def basicCasing : Casing where
  upper s := String.ofList (s.toList.map Char.toUpper)
  upper_capital s h := by
    have hsame : s.toList.map Char.toUpper = s.toList := by
      refine (List.map_congr_left fun c hc => dif_neg fun hlower => ?_).trans (List.map_id _)
      have hle : 97 ≤ c.toNat := UInt32.le_iff_toNat_le.mp hlower.1
      exact absurd (toNat_capital (h c hc)).2 (by omega)
    rw [hsame,String.ofList_toList]

example : ((init.createAll [({ subject := "late", description := "late", sessionId := some "s" },4)]).2.lookupTicket
    basicCasing " tkt-1003 ").map (·.subject) = some "late" := by decide +kernel

end VoxForge.Support
