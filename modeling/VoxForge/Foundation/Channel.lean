import Mathlib.Data.List.Infix

/-! A bounded channel that makes room for a new item by dropping the oldest one. -/
namespace VoxForge.Foundation
variable {α β : Type}

/-- Put an item last. A full queue loses its first item. -/
def offer (cap : Nat) (queue : List α) (x : α) : List α :=
  if queue.length < cap then queue ++ [x] else queue.tail ++ [x]

theorem map_offer (f : α → β) (cap : Nat) (queue : List α) (x : α) :
    (offer cap queue x).map f = offer cap (queue.map f) (f x) := by
  unfold offer
  rw [List.length_map]
  split
  · simp
  · simp [List.map_tail]

theorem length_offer_le {cap : Nat} {queue : List α} (hcap : 0 < cap) (h : queue.length ≤ cap) (x : α) :
    (offer cap queue x).length ≤ cap := by
  unfold offer
  split
  · rw [List.length_append,List.length_singleton]
    omega
  · rw [List.length_append,List.length_tail,List.length_singleton]
    omega

theorem mem_of_mem_offer {cap : Nat} {queue : List α} {x y : α} (h : y ∈ offer cap queue x) : y ∈ queue ∨ y = x := by
  unfold offer at h
  split at h
  · rcases List.mem_append.mp h with h | h
    · exact .inl h
    · exact .inr (List.mem_singleton.mp h)
  · rcases List.mem_append.mp h with h | h
    · exact .inl (List.mem_of_mem_tail h)
    · exact .inr (List.mem_singleton.mp h)

theorem length_offer_of_lt {cap : Nat} {queue : List α} (h : queue.length < cap) (x : α) :
    (offer cap queue x).length = queue.length + 1 := by
  rw [offer,if_pos h,List.length_append,List.length_singleton]

/-- Items that a queue held before the channel's own are the first to be dropped. -/
theorem offer_append (f : α → β) {cap : Nat} {before : List β} {own : List α}
    (h : (before ++ own.map f).length ≤ cap) (x : α) :
    offer cap (before ++ own.map f) (f x) =
      (if before.length + own.length < cap then before else before.tail) ++ (offer cap own x).map f := by
  rw [List.length_append,List.length_map] at h
  unfold offer
  rw [List.length_append,List.length_map]
  cases before with
  | nil =>
    rw [List.length_nil,Nat.zero_add]
    split
    · simp
    · simp [List.map_tail]
  | cons b before =>
    rw [List.length_cons] at h ⊢
    have hroom : own.length < cap := by omega
    rw [if_pos hroom]
    split <;> simp

/-- A channel's history: what was sent, what was received, and what waits. -/
inductive Channel (cap : Nat) : List α → List α → List α → Prop where
  | idle : Channel cap [] [] []
  | send {sent received pending : List α} (x : α) (h : Channel cap sent received pending) :
      Channel cap (sent ++ [x]) received (offer cap pending x)
  | receive {sent received pending : List α} {x : α} (h : Channel cap sent received (x :: pending)) :
      Channel cap sent (received ++ [x]) pending

/-- What a receiver may have got of what was sent, when a full channel drops the oldest. -/
def DropsOldest (cap : Nat) (sent received : List α) : Prop := ∃ pending, Channel cap sent received pending

variable {cap : Nat} {sent received pending : List α}

/-- Items are received in the order they were sent. -/
theorem Channel.sublist (h : Channel cap sent received pending) : (received ++ pending).Sublist sent := by
  induction h with
  | idle => exact List.Sublist.refl []
  | send x h ih =>
    unfold offer
    split
    · rw [← List.append_assoc]
      exact ih.append_right [x]
    · rw [← List.append_assoc]
      apply List.Sublist.append_right
      exact ((List.tail_sublist _).append_left _).trans ih
  | receive h ih => rwa [List.append_assoc,List.singleton_append]

/-- What was sent last has been received or waits. -/
theorem Channel.last_mem {x : α} (h : Channel cap (sent ++ [x]) received pending) : x ∈ received ++ pending := by
  generalize hsent : sent ++ [x] = all at h
  induction h with
  | idle => simp at hsent
  | send y h ih =>
    obtain ⟨-,hlast⟩ := List.append_inj' hsent rfl
    obtain rfl := List.singleton_inj.mp hlast
    unfold offer
    split <;> simp
  | receive h ih => simpa using ih hsent

theorem DropsOldest.sublist (h : DropsOldest cap sent received) : received.Sublist sent := by
  obtain ⟨pending,h⟩ := h
  exact (List.sublist_append_left received pending).trans h.sublist

/-- More may be sent than is received. -/
theorem DropsOldest.of_prefix {heard : List α} (h : DropsOldest cap heard received) (hheard : heard <+: sent) :
    DropsOldest cap sent received := by
  obtain ⟨more,rfl⟩ := hheard
  induction more generalizing heard with
  | nil => rwa [List.append_nil]
  | cons x more ih =>
    obtain ⟨pending,hchannel⟩ := h
    rw [← List.singleton_append,← List.append_assoc]
    exact ih ⟨_,hchannel.send x⟩

end VoxForge.Foundation
