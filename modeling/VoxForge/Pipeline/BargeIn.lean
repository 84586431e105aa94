import VoxForge.Pipeline.Listening

/-! What listening owes the caller under barge-in: every utterance reaches a turn,
once and in order, and only the end of the stream, a cancellation or an exception
ends the loop. -/
namespace VoxForge.Pipeline
open Foundation

namespace Listening

/-- The utterances of a stretch of the stream. -/
def utterances (events : List TranscriptEvent) : List String := events.filterMap finalTranscript

/-- What of the last event is still to be handed over. -/
def inHand (s : Listening) : List TranscriptEvent :=
  match s.point with
  | .notifying event => [event]
  | _ => []

/-- What every run keeps: the events taken from the stream are handed over, but for
the one at hand, in order; all of them where the stream was exhausted. -/
structure Kept (stream : List TranscriptEvent) (s : Listening) : Prop where
  taken : s.consumed ++ s.pending = stream
  inOrder : s.handed <+: utterances s.consumed
  running : (∀ outcome, s.point ≠ .returned outcome) →
    s.handed ++ utterances s.inHand = utterances s.consumed
  exhausted : s.point = .returned .exhausted → s.handed = utterances stream

/-- No utterance is lost: besides, the loop returns only on exhaustion, cancellation
or an exception. -/
structure Lossless (stream : List TranscriptEvent) (s : Listening) : Prop extends Kept stream s where
  stays : s.point ≠ .returned .broke

theorem utterances_append (events more : List TranscriptEvent) :
    utterances (events ++ more) = utterances events ++ utterances more :=
  List.filterMap_append

theorem kept_start (stream : List TranscriptEvent) : (start stream).Kept stream :=
  ⟨rfl,List.nil_prefix,fun _ => rfl,fun h => by cases h⟩

/-- A step inside a turn touches neither the stream nor what was handed over, and
leaves the loop in the turn or back at its head. -/
theorem stepTurn_spec {s t : Listening} {transcript : String} {stage : Stage} {label : Label}
    (h : s.stepTurn transcript stage label = some t) :
    t.pending = s.pending ∧ t.consumed = s.consumed ∧ t.handed = s.handed ∧
      t.interruptSet = s.interruptSet ∧ label ≠ .receive ∧ label ≠ .interrupt true ∧
      (t.point = s.point ∨ t.point = .awaiting ∨ ∃ next, t.point = .inTurn transcript next) := by
  unfold stepTurn at h
  split at h
  all_goals try split_ifs at h
  all_goals cases h
  all_goals simp [stop]

private theorem kept_stepTurn {stream : List TranscriptEvent} {s t : Listening} {transcript : String}
    {stage : Stage} {label : Label} (h : s.Kept stream) (hp : s.point = .inTurn transcript stage)
    (ht : s.stepTurn transcript stage label = some t) : t.Kept stream := by
  obtain ⟨hpend,hcons,hhand,-,-,-,hpoint⟩ := stepTurn_spec ht
  have hrun : s.handed = utterances s.consumed := by
    have hr := h.running (by simp [hp])
    simpa [inHand,hp,utterances] using hr
  have hpoint' : t.inHand = [] ∧ t.point ≠ .returned .exhausted := by
    rcases hpoint with hsame | hwait | ⟨next,hnext⟩
    · simp [inHand,hsame,hp]
    · simp [inHand,hwait]
    · simp [inHand,hnext]
  refine ⟨by rw [hcons,hpend]; exact h.taken,by rw [hhand,hcons]; exact h.inOrder,fun _ => ?_,
    fun he => absurd he hpoint'.2⟩
  rw [hpoint'.1,hhand,hcons,hrun]
  simp [utterances]

private theorem kept_receive {stream rest : List TranscriptEvent} {event : TranscriptEvent}
    {s : Listening} (h : s.Kept stream) (hp : s.point = .awaiting) (hq : s.pending = event :: rest) :
    Kept stream { s with
      pending := rest
      consumed := s.consumed ++ [event]
      point := if s.interruptSet then .returned .broke else .notifying event } := by
  have hrun : s.handed = utterances s.consumed := by
    have hr := h.running (by simp [hp])
    simpa [inHand,hp,utterances] using hr
  refine ⟨?_,?_,fun hout => ?_,fun he => ?_⟩
  · rw [← h.taken,hq,List.append_assoc]
    rfl
  · rw [utterances_append,hrun]
    exact List.prefix_append _ _
  · by_cases hi : s.interruptSet
    · exact absurd (if_pos hi) (hout .broke)
    · simp [inHand,hi,utterances_append,hrun]
  · by_cases hi : s.interruptSet <;> simp [hi] at he

private theorem kept_notified {stream : List TranscriptEvent} {event : TranscriptEvent}
    {s : Listening} (h : s.Kept stream) (hp : s.point = .notifying event) :
    (s.afterTranscript event).Kept stream := by
  have hrun := h.running (by simp [hp])
  rw [inHand,hp] at hrun
  unfold afterTranscript
  cases hf : finalTranscript event with
  | none =>
    have hall : s.handed = utterances s.consumed := by simpa [utterances,hf] using hrun
    exact ⟨h.taken,h.inOrder,fun _ => by simpa [inHand,utterances] using hall,fun he => by cases he⟩
  | some transcript =>
    have hall : s.handed ++ [transcript] = utterances s.consumed := by
      simpa [utterances,hf] using hrun
    refine ⟨h.taken,?_,fun _ => ?_,fun he => by cases he⟩
    · exact hall ▸ List.prefix_rfl
    · simpa [inHand,beginTurn,utterances] using hall

private theorem kept_ended {stream : List TranscriptEvent} {s : Listening} {outcome : Outcome}
    (h : s.Kept stream) (ho : outcome = .exhausted → s.handed = utterances stream) :
    Kept stream { s with point := .returned outcome } :=
  ⟨h.taken,h.inOrder,fun hout => absurd rfl (hout outcome),fun he => ho (by simpa using he)⟩

theorem step_cases {s t : Listening} {label : Label} (h : s.step label = some t) :
    (∃ stored, label = .interrupt stored ∧ t = { s with interruptSet := stored || s.interruptSet }) ∨
    (∃ outcome, (label = .cancel ∧ outcome = .cancelled ∨ label = .raise ∧ outcome = .raised) ∧
      t = { s with point := .returned outcome }) ∨
    (∃ event rest, label = .receive ∧ s.point = .awaiting ∧ s.pending = event :: rest ∧
      t = { s with
        pending := rest
        consumed := s.consumed ++ [event]
        point := if s.interruptSet then .returned .broke else .notifying event }) ∨
    (label = .endOfStream ∧ s.point = .awaiting ∧ s.pending = [] ∧
      t = { s with point := .returned .exhausted }) ∨
    (∃ event, label = .notified ∧ s.point = .notifying event ∧ t = s.afterTranscript event) ∨
    (∃ transcript stage, s.point = .inTurn transcript stage ∧
      s.stepTurn transcript stage label = some t) := by
  unfold step at h
  split at h
  · cases h
    exact .inl ⟨_,rfl,rfl⟩
  · split at h
    · cases h
    · cases h
      exact .inr (.inl ⟨_,.inl ⟨rfl,rfl⟩,rfl⟩)
  · split at h
    · cases h
    · cases h
      exact .inr (.inl ⟨_,.inr ⟨rfl,rfl⟩,rfl⟩)
  · split at h
    · cases h
      exact .inr (.inr (.inl ⟨_,_,rfl,‹_›,‹_›,rfl⟩))
    · cases h
      exact .inr (.inr (.inr (.inl ⟨rfl,‹_›,‹_›,rfl⟩)))
    · cases h
      exact .inr (.inr (.inr (.inr (.inl ⟨_,rfl,‹_›,rfl⟩))))
    · exact .inr (.inr (.inr (.inr (.inr ⟨_,_,‹_›,h⟩))))
    · cases h

theorem kept_step {stream : List TranscriptEvent} {s t : Listening} {label : Label}
    (h : s.Kept stream) (hs : s.step label = some t) : t.Kept stream := by
  rcases step_cases hs with ⟨stored,-,rfl⟩ | ⟨outcome,ho,rfl⟩ | ⟨event,rest,-,hp,hq,rfl⟩ |
    ⟨-,hp,hq,rfl⟩ | ⟨event,-,hp,rfl⟩ | ⟨transcript,stage,hp,ht⟩
  · exact ⟨h.taken,h.inOrder,h.running,h.exhausted⟩
  · exact kept_ended h fun he => by rcases ho with ⟨-,rfl⟩ | ⟨-,rfl⟩ <;> cases he
  · exact kept_receive h hp hq
  · refine kept_ended h fun _ => ?_
    have hr := h.running (by simp [hp])
    have ht := h.taken
    rw [hq,List.append_nil] at ht
    simpa [inHand,hp,utterances,ht] using hr
  · exact kept_notified h hp
  · exact kept_stepTurn h hp ht

/-- Only the check at the head of the loop leaves it early: on an event received
while the flag is set. -/
theorem broke_iff {s t : Listening} {label : Label} (hgood : s.point ≠ .returned .broke)
    (h : s.step label = some t) :
    t.point = .returned .broke ↔ label = .receive ∧ s.interruptSet := by
  rcases step_cases h with ⟨stored,rfl,rfl⟩ | ⟨outcome,ho,rfl⟩ | ⟨event,rest,rfl,hp,hq,rfl⟩ |
    ⟨rfl,hp,hq,rfl⟩ | ⟨event,rfl,hp,rfl⟩ | ⟨transcript,stage,hp,ht⟩
  · simp [hgood]
  · rcases ho with ⟨rfl,rfl⟩ | ⟨rfl,rfl⟩ <;> simp
  · by_cases hi : s.interruptSet <;> simp [hi]
  · simp
  · unfold afterTranscript
    cases finalTranscript event <;> simp [beginTurn]
  · obtain ⟨-,-,-,-,hl,-,hpoint⟩ := stepTurn_spec ht
    rcases hpoint with hsame | hwait | ⟨next,hnext⟩
    · simp [hsame,hp,hl]
    · simp [hwait,hl]
    · simp [hnext,hl]

/-- The flag and the turns: a step hands nothing over and at most sets the flag, or
it hands a transcript to a turn and the flag is clear. -/
theorem flag_step {s t : Listening} {label : Label} (h : s.step label = some t) :
    (t.handed = s.handed ∧ t.interruptSet = (decide (label = .interrupt true) || s.interruptSet)) ∨
      (s.handed.length < t.handed.length ∧ t.interruptSet = false) := by
  rcases step_cases h with ⟨stored,rfl,rfl⟩ | ⟨outcome,ho,rfl⟩ | ⟨event,rest,rfl,hp,hq,rfl⟩ |
    ⟨rfl,hp,hq,rfl⟩ | ⟨event,rfl,hp,rfl⟩ | ⟨transcript,stage,hp,ht⟩
  · cases stored <;> simp
  · rcases ho with ⟨rfl,-⟩ | ⟨rfl,-⟩ <;> simp
  · simp
  · simp
  · unfold afterTranscript
    cases finalTranscript event <;> simp [beginTurn]
  · obtain ⟨-,-,hhand,hset,-,hl,-⟩ := stepTurn_spec ht
    simp [hhand,hset,hl]

/-- An interrupt took effect and no transcript was handed to a turn since. -/
def Stale (stream : List TranscriptEvent) (labels : List Label) : Prop :=
  ∃ before after s t, labels = before ++ .interrupt true :: after ∧
    run step (start stream) before = some s ∧ run step (start stream) labels = some t ∧
    t.handed.length = s.handed.length

theorem handed_mono {stream : List TranscriptEvent} {before after : List Label} {s t : Listening}
    (hs : run step (start stream) before = some s)
    (ht : run step (start stream) (before ++ after) = some t) :
    s.handed.length ≤ t.handed.length := by
  induction after using List.reverseRecOn generalizing t with
  | nil =>
    rw [List.append_nil,hs] at ht
    exact Nat.le_of_eq (by rw [Option.some.inj ht])
  | append_singleton after label ih =>
    rw [← List.append_assoc,run_concat_eq_some] at ht
    obtain ⟨u,hu,hstep⟩ := ht
    have hle := ih hu
    rcases flag_step hstep with ⟨hsame,-⟩ | ⟨hmore,-⟩
    · rwa [hsame]
    · omega

/-- The flag is set exactly when an interrupt is stale. -/
theorem interruptSet_iff {stream : List TranscriptEvent} {labels : List Label} {t : Listening}
    (h : run step (start stream) labels = some t) : t.interruptSet ↔ Stale stream labels := by
  induction labels using List.reverseRecOn generalizing t with
  | nil =>
    obtain rfl := Option.some.inj h
    simp [Stale,start]
  | append_singleton labels label ih =>
    obtain ⟨s,hs,hstep⟩ := run_concat_eq_some.mp h
    rcases flag_step hstep with ⟨hsame,hflag⟩ | ⟨hmore,hflag⟩
    · rw [hflag,Bool.or_eq_true,decide_eq_true_iff,ih hs]
      constructor
      · rintro (rfl | ⟨before,after,a,b,rfl,ha,hb,hlen⟩)
        · exact ⟨labels,[],s,t,rfl,hs,h,by rw [hsame]⟩
        · obtain rfl := Option.some.inj (hs.symm.trans hb)
          exact ⟨before,after ++ [label],a,t,by simp,ha,h,by rw [hsame,hlen]⟩
      · rintro ⟨before,after,a,b,heq,ha,hb,hlen⟩
        obtain rfl := Option.some.inj (h.symm.trans hb)
        rcases concat_eq_split heq with ⟨-,hl,-⟩ | ⟨rest,hrest,-⟩
        · exact .inl hl
        · exact .inr ⟨before,rest,a,s,hrest,ha,hs,by rw [← hlen,hsame]⟩
    · rw [hflag]
      refine iff_of_false (by simp) ?_
      rintro ⟨before,after,a,b,heq,ha,hb,hlen⟩
      obtain rfl := Option.some.inj (h.symm.trans hb)
      rcases concat_eq_split heq with ⟨rfl,-⟩ | ⟨rest,hrest,-⟩
      · obtain rfl := Option.some.inj (ha.symm.trans hs)
        omega
      · rw [hrest] at hs
        have hle := handed_mono ha hs
        omega

end Listening

open Listening in
/-- For every stream and every interleaving of interrupts with the loop and its
turns: no utterance is lost and the loop ends only on exhaustion, cancellation or an
exception, exactly when no event arrives after an interrupt that took effect since the
last transcript was handed to a turn, or since listening started. -/
theorem no_utterance_lost_iff (stream : List TranscriptEvent) (labels : List Label) :
    (∀ s, Visits step (start stream) labels s → s.Lossless stream) ↔
      ∀ before s t, before ++ [.receive] <+: labels → run step (start stream) before = some s →
        step s .receive = some t → ¬Stale stream before := by
  have hgood : (∀ s, Visits step (start stream) labels s → s.point ≠ .returned .broke) ↔
      ∀ s label t, Fires step (start stream) labels s label t →
        ¬(label = .receive ∧ s.interruptSet) :=
    visits_good_iff (kept_start stream) (by simp [start]) (fun s label t h hs => kept_step h hs)
      fun s label t _ hp hs => not_congr (broke_iff hp hs)
  have hkept (s : Listening) (hv : Visits step (start stream) labels s) : s.Kept stream :=
    hv.invariant (kept_start stream) fun _ _ _ h hs => kept_step h hs
  constructor
  · intro h before s t hpre hs ht hstale
    have hok := hgood.mp (fun s hv => (h s hv).stays) s .receive t ⟨before,hpre,hs,ht⟩
    exact hok ⟨rfl,(interruptSet_iff hs).mpr hstale⟩
  · intro h s hv
    refine ⟨hkept s hv,hgood.mpr ?_ s hv⟩
    rintro a label b ⟨before,hpre,ha,hb⟩ ⟨rfl,hset⟩
    exact h before a b hpre ha hb ((interruptSet_iff ha).mp hset)

/-- An interrupt during the first turn ends listening at the next event, whose
utterance reaches no turn. -/
theorem utterance_after_interrupt_lost :
    ¬∀ s, Visits Listening.step (.start [⟨"a",false⟩,⟨"b",false⟩])
      [.receive,.notified,.prepared,.interrupt true,.token "x",.sentencesDone,.turnDone,.receive] s →
      s.Lossless [⟨"a",false⟩,⟨"b",false⟩] := by
  intro h
  have hend : (run Listening.step (.start [⟨"a",false⟩,⟨"b",false⟩])
      [.receive,.notified,.prepared,.interrupt true,.token "x",.sentencesDone,.turnDone,
        .receive]).map (fun s => (s.point,s.handed)) = some (.returned .broke,["a"]) := by
    decide +kernel
  obtain ⟨s,hs,hpoint⟩ := Option.map_eq_some_iff.mp hend
  exact (h s (Visits.of_run hs)).stays (Prod.mk.inj hpoint).1

end VoxForge.Pipeline
